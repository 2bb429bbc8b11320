import CycleBridge.Json.Skip

/-!
# The grammar of JSON texts

Which texts are strings, numbers, lists, objects and values, said without any reader. There are two
grammars of strings. What stands between the quotes of a string that is read has to spell
characters; where a string is passed over, four hexadecimal digits make up an escape by number even
if they name no character.

Lists and objects are built from the texts of their items, so one relation serves for values that
are passed over and for records alike: what an item is, and which strings may be keys, are
parameters.
-/

namespace CycleBridge.Json

/-! ## Gaps -/

/-- Blanks and nothing else. -/
def Gap (s : List Char) : Prop := ∀ c ∈ s, isBlank c = true

/-- A text with blanks around it. -/
def Spaced (v s : List Char) : Prop := ∃ g g', Gap g ∧ Gap g' ∧ s = g ++ v ++ g'

/-- What can stand behind a value: nothing, a blank, or what goes on with the list or the object in
which it stands. -/
def Follows : List Char → Prop
  | [] => True
  | c :: _ => isBlank c = true ∨ c = ',' ∨ c = ']' ∨ c = '\x7d'

theorem Gap.nil : Gap [] := by
  simp [Gap]

theorem Gap.cons {c : Char} {s : List Char} (hc : isBlank c = true) (h : Gap s) : Gap (c :: s) := by
  simpa [Gap, hc] using h

theorem Spaced.self (v : List Char) : Spaced v v := ⟨[], [], .nil, .nil, by simp⟩

/-- Whatever can stand behind a value can do so behind more blanks. -/
theorem Gap.follows {g rest : List Char} (hg : Gap g) (h : Follows rest) : Follows (g ++ rest) := by
  cases g with
  | nil => exact h
  | cons c g => exact .inl (hg c (by simp))

theorem Gap.skipBlanks_append {g : List Char} (hg : Gap g) (s : List Char) :
    skipBlanks (g ++ s) = skipBlanks s := by
  induction g with
  | nil => rfl
  | cons c g ih =>
      have hc : isBlank c = true := hg c (by simp)
      have hrest : Gap g := fun d hd => hg d (by simp [hd])
      rw [List.cons_append, skipBlanks_blank hc, ih hrest]

theorem skipBlanks_skipBlanks (s : List Char) : skipBlanks (skipBlanks s) = skipBlanks s := by
  induction s with
  | nil => rfl
  | cons c s ih =>
      cases hc : isBlank c with
      | true => rw [skipBlanks_blank hc, ih]
      | false => rw [skipBlanks_mark hc, skipBlanks_mark hc]

theorem length_skipBlanks_le (s : List Char) : (skipBlanks s).length ≤ s.length :=
  (List.dropWhile_sublist isBlank).length_le

/-! ## Strings -/

/-- A text between quotes. -/
def inQuotes (body : List Char) : List Char := '"' :: body ++ ['"']

theorem Gap.skipBlanks_inQuotes {g : List Char} (hg : Gap g) (body rest : List Char) :
    skipBlanks (g ++ (inQuotes body ++ rest)) = '"' :: (body ++ '"' :: rest) := by
  rw [hg.skipBlanks_append]
  simp [inQuotes, skipBlanks_mark (c := '"') (by decide)]

/-- What stands between the quotes of a string, and the characters that it stands for. -/
inductive Spells : List Char → List Char → Prop where
  | nil : Spells [] []
  | plain {c : Char} {s t : List Char} : isControl c = false → c ≠ '"' → c ≠ '\\' →
      Spells s t → Spells (c :: s) (c :: t)
  | letter {e c : Char} {s t : List Char} : letterEscape? e = some c →
      Spells s t → Spells ('\\' :: e :: s) (c :: t)
  | unit {a b c d : Char} {n : Nat} {s t : List Char} : hexUnit? a b c d = some n →
      isLeading n = false → isTrailing n = false →
      Spells s t → Spells ('\\' :: 'u' :: a :: b :: c :: d :: s) (Char.ofNat n :: t)
  | pair {a b c d a' b' c' d' : Char} {n m : Nat} {s t : List Char} : hexUnit? a b c d = some n →
      isLeading n = true → hexUnit? a' b' c' d' = some m → isTrailing m = true →
      Spells s t →
      Spells ('\\' :: 'u' :: a :: b :: c :: d :: '\\' :: 'u' :: a' :: b' :: c' :: d' :: s)
        (Char.ofNat (joinPair n m) :: t)

/-- What stands between the quotes of a string that is passed over. -/
inductive IsStringBody : List Char → Prop where
  | nil : IsStringBody []
  | plain {c : Char} {s : List Char} : isControl c = false → c ≠ '"' → c ≠ '\\' →
      IsStringBody s → IsStringBody (c :: s)
  | letter {e : Char} {s : List Char} : (letterEscape? e).isSome →
      IsStringBody s → IsStringBody ('\\' :: e :: s)
  | unit {a b c d : Char} {s : List Char} : (hexUnit? a b c d).isSome →
      IsStringBody s → IsStringBody ('\\' :: 'u' :: a :: b :: c :: d :: s)

/-- What spells characters is passed over as well. -/
theorem Spells.isStringBody {s t : List Char} (h : Spells s t) : IsStringBody s := by
  induction h with
  | nil => exact .nil
  | plain hc hq hb _ ih => exact .plain hc hq hb ih
  | letter he _ ih => exact .letter (by simp [he]) ih
  | unit hn _ _ _ ih => exact .unit (by simp [hn]) ih
  | pair hn _ hm _ _ ih => exact .unit (by simp [hn]) (.unit (by simp [hm]) ih)

/-- Whether a character stands for itself in a string. -/
def isPlain (c : Char) : Bool := !isControl c && c != '"' && c != '\\'

/-- Whether a name needs no escapes. -/
def isPlainName (name : String) : Bool := name.toList.all isPlain

/-- Characters that stand for themselves are spelled by themselves. -/
theorem Spells.self {s : List Char} (h : ∀ c ∈ s, isPlain c = true) : Spells s s := by
  induction s with
  | nil => exact .nil
  | cons c s ih =>
      have hc : (isControl c = false ∧ c ≠ '"') ∧ c ≠ '\\' := by
        simpa [isPlain] using h c (by simp)
      exact .plain hc.1.1 hc.1.2 hc.2 (ih fun d hd => h d (by simp [hd]))

/-! ## Numbers -/

/-- One digit or more. -/
def IsDigits (s : List Char) : Prop := s ≠ [] ∧ ∀ c ∈ s, c.isDigit = true

/-- The digits before the point: no zero stands before other digits. -/
def IsWhole (s : List Char) : Prop := IsDigits s ∧ (s.head? = some '0' → s = ['0'])

/-- A point with the digits behind it, or nothing. -/
def IsFraction (s : List Char) : Prop := s = [] ∨ ∃ d, IsDigits d ∧ s = '.' :: d

/-- An exponent, or nothing. -/
def IsExponent (s : List Char) : Prop :=
  s = [] ∨ ∃ e sign d, (e = 'e' ∨ e = 'E') ∧ (sign = [] ∨ sign = ['+'] ∨ sign = ['-']) ∧
    IsDigits d ∧ s = e :: sign ++ d

/-- A number. -/
def IsNumber (s : List Char) : Prop :=
  ∃ sign w f e, (sign = [] ∨ sign = ['-']) ∧ IsWhole w ∧ IsFraction f ∧ IsExponent e ∧
    s = sign ++ w ++ f ++ e

/-! ## Lists and objects -/

/-- The texts of items with commas between them. -/
inductive Separated {ι : Type} (Item : ι → List Char → Prop) : List ι → List Char → Prop where
  | one {x : ι} {s : List Char} : Item x s → Separated Item [x] s
  | more {x : ι} {s : List Char} {xs : List ι} {t : List Char} : Item x s →
      Separated Item xs t → Separated Item (x :: xs) (s ++ ',' :: t)

namespace Bracket

/-- The character that opens a bracket. -/
def opening : Bracket → Char
  | list => '['
  | object => '\x7b'

end Bracket

/-- A bracket around items: blanks if there is no item. -/
inductive Enclosed {ι : Type} (b : Bracket) (Item : ι → List Char → Prop) :
    List ι → List Char → Prop where
  | empty {g : List Char} : Gap g → Enclosed b Item [] (b.opening :: g ++ [b.closing])
  | filled {xs : List ι} {s : List Char} : Separated Item xs s →
      Enclosed b Item xs (b.opening :: s ++ [b.closing])

/-- A key with its colon and its value; what stands for which key is a parameter. -/
def MemberText {κ : Type} (Key : κ → List Char → Prop) (m : κ × List Char) (s : List Char) : Prop :=
  ∃ body k v, Key m.1 body ∧ Spaced (inQuotes body) k ∧ Spaced m.2 v ∧ s = k ++ ':' :: v

/-- A list with the texts of its elements. -/
abbrev ListText : List (List Char) → List Char → Prop := Enclosed .list Spaced

/-- An object with the keys and the texts of its members. -/
abbrev ObjectText {κ : Type} (Key : κ → List Char → Prop) :
    List (κ × List Char) → List Char → Prop :=
  Enclosed .object (MemberText Key)

/-- A string as the key that it stands for. -/
def Named (key : String) (body : List Char) : Prop := Spells body key.toList

/-- A name that needs no escapes is spelled by itself. -/
theorem named_self {name : String} (h : isPlainName name = true) : Named name name.toList :=
  Spells.self (List.all_eq_true.mp h)

/-- Any string as a key that nobody looks at. -/
def Unnamed (_ : Unit) (body : List Char) : Prop := IsStringBody body

/-! ## Values -/

/-- A JSON value. Lists and objects may nest to any depth. -/
inductive IsValue : List Char → Prop where
  | nullWord : IsValue ['n', 'u', 'l', 'l']
  | trueWord : IsValue ['t', 'r', 'u', 'e']
  | falseWord : IsValue ['f', 'a', 'l', 's', 'e']
  | string {body : List Char} : IsStringBody body → IsValue (inQuotes body)
  | number {s : List Char} : IsNumber s → IsValue s
  | list {items : List (List Char)} {s : List Char} : ListText items s →
      (∀ v ∈ items, IsValue v) → IsValue s
  | object {members : List (Unit × List Char)} {s : List Char} : ObjectText Unnamed members s →
      (∀ m ∈ members, IsValue m.2) → IsValue s

section Items

variable {ι ι' : Type} {Item : ι → List Char → Prop} {Item' : ι' → List Char → Prop}

/-- Items may be looked at in another way as long as their texts stay. -/
theorem Separated.map {f : ι → ι'} {xs : List ι} {s : List Char} (h : Separated Item xs s)
    (hitem : ∀ x ∈ xs, ∀ s, Item x s → Item' (f x) s) : Separated Item' (xs.map f) s := by
  induction h with
  | one hx => exact .one (hitem _ (by simp) _ hx)
  | more hx _ ih =>
      exact .more (hitem _ (by simp) _ hx) (ih fun x hx' => hitem x (by simp [hx']))

theorem Enclosed.map {b : Bracket} {f : ι → ι'} {xs : List ι} {s : List Char}
    (h : Enclosed b Item xs s) (hitem : ∀ x ∈ xs, ∀ s, Item x s → Item' (f x) s) :
    Enclosed b Item' (xs.map f) s := by
  cases h with
  | empty hg => exact .empty hg
  | filled hs => exact .filled (hs.map hitem)

theorem Separated.ne_nil {xs : List ι} {s : List Char} (h : Separated Item xs s) : xs ≠ [] := by
  cases h <;> simp

end Items

/-- A member is a key, a colon and a value, with blanks around key and value. -/
theorem memberText_of_named {key : String} {body g g' g'' : List Char} (h : Named key body)
    (hg : Gap g) (hg' : Gap g') (hg'' : Gap g'') (v : List Char) :
    MemberText Named (key, v) (g ++ inQuotes body ++ ':' :: (g' ++ v ++ g'')) :=
  ⟨body, g ++ inQuotes body, g' ++ v ++ g'', h, ⟨g, [], hg, .nil, by simp⟩,
    ⟨g', g'', hg', hg'', rfl⟩, rfl⟩

/-- A member begins with the quote of its key, and behind the key come colon and value. -/
theorem MemberText.skipBlanks_append {κ : Type} {Key : κ → List Char → Prop}
    {m : κ × List Char} {s : List Char} (h : MemberText Key m s) :
    ∃ body g g' g'', Key m.1 body ∧ Gap g ∧ Gap g' ∧ Gap g'' ∧
      ∀ rest, skipBlanks (s ++ rest) =
        '"' :: (body ++ '"' :: (g ++ ':' :: (g' ++ (m.2 ++ (g'' ++ rest))))) := by
  obtain ⟨body, k, v, hbody, ⟨g₀, g₁, hg₀, hg₁, rfl⟩, ⟨g₂, g₃, hg₂, hg₃, rfl⟩, rfl⟩ := h
  refine ⟨body, g₁, g₂, g₃, hbody, hg₁, hg₂, hg₃, fun rest => ?_⟩
  simp only [List.append_assoc, hg₀.skipBlanks_append, inQuotes, List.cons_append, List.nil_append]
  exact skipBlanks_mark (by decide) _

/-- An object with keys that are read is a value if it holds values. -/
theorem isValue_of_objectText {members : List (String × List Char)} {s : List Char}
    (h : ObjectText Named members s) (hvalues : ∀ m ∈ members, IsValue m.2) : IsValue s := by
  refine .object (Enclosed.map (f := fun m => ((), m.2)) h ?_) ?_
  · rintro m - s ⟨body, k, v, hkey, hrest⟩
    exact ⟨body, k, v, hkey.isStringBody, hrest⟩
  · intro m hm
    obtain ⟨m', hm', rfl⟩ := List.mem_map.mp hm
    exact hvalues m' hm'

end CycleBridge.Json
