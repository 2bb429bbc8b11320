import CycleBridge.Json.Tree
import CycleBridge.Json.Value
import CycleBridge.Proofs.Json.Skipping

/-!
# Numbers and names of a wanted type

A reader is faithful to a relation between JSON values and what they stand for if it reads each of
them as that, and if whatever it reads ends where passing over it ends. The second half is what lets
several readers work on one text: where one of them stops does not depend on what it looked for.
Readers of whole numbers and of names are faithful to the numerals and the names of the grammar.
-/

namespace CycleBridge.Json

/-- A reader reads every JSON value that stands for something as what it stands for, and what it
reads ends where passing over it ends. -/
structure Faithful {α : Type} (ρ : Reader α) (Means : List Char → α → Prop) : Prop where
  isValue : ∀ {v : List Char} {a : α}, Means v a → IsValue v
  reads : ∀ {v g rest : List Char} {a : α}, Means v a → Gap g → Follows rest →
    ρ (g ++ (v ++ rest)) = .ok (a, rest)
  skips : ∀ {s r : List Char} {a : α}, ρ s = .ok (a, r) → skipValue s = .ok r

theorem wrongType_ne_ok {α : Type} {wanted : String} {c : Char} {s : List Char} {a : α} :
    wrongType wanted c s ≠ .ok a := by
  intro h
  obtain ⟨found, -, h⟩ := bind_eq_ok.mp h
  cases h

/-! ## Whole numbers -/

/-- A numeral and the number that it stands for. -/
def NumeralText (v : List Char) (n : Nat) : Prop := IsWhole v ∧ Nat.ofDigitChars 10 v 0 = n

theorem NumeralText.isValue {v : List Char} {n : Nat} (h : NumeralText v n) : IsValue v :=
  .number ⟨[], v, [], [], .inl rfl, h.1, .inl rfl, .inl rfl, by simp⟩

theorem le_ofDigitChars (s : List Char) (n : Nat) : n ≤ Nat.ofDigitChars 10 s n := by
  rw [Nat.ofDigitChars_eq_ofDigitChars_zero]
  have : n ≤ 10 ^ s.length * n := Nat.le_mul_of_pos_left n (Nat.pow_pos (by decide))
  omega

/-- Digits are all gathered as long as their number stays within the limit. -/
theorem NumberText.gather_eq {limit : Nat} {s : List Char} {n : Nat}
    (h : Nat.ofDigitChars 10 s n ≤ limit) :
    gather limit n s = (Nat.ofDigitChars 10 s n, 0) := by
  induction s generalizing n with
  | nil => simp [gather]
  | cons c s ih =>
      rw [Nat.ofDigitChars_cons, Nat.mul_comm 10 n] at h ⊢
      have hnext : n * 10 + digitValue c ≤ limit := Nat.le_trans (le_ofDigitChars s _) h
      rw [gather, if_pos hnext, digitValue, ih h]

theorem digits_head {n : Nat} (hn : 0 < n) : (digits n).head? ≠ some '0' := by
  have hchar : ∀ n < 10, 0 < n → Nat.digitChar n ≠ '0' := by decide
  induction n using Nat.strongRecOn with
  | ind n ih =>
      rw [digits, Nat.toDigits_eq_if (by decide)]
      split
      next hlt => simpa using hchar n hlt hn
      next hge =>
        have hrec := ih (n / 10) (by omega) (by omega)
        obtain ⟨c, s, hs⟩ := List.exists_cons_of_ne_nil (Nat.toDigits_ne_nil (n := n / 10) (b := 10))
        rw [digits, hs] at hrec
        rw [hs]
        simpa using hrec

/-- The digits that a number is written with are its numeral. -/
theorem numeralText_digits (n : Nat) : NumeralText (digits n) n := by
  refine ⟨⟨⟨Nat.toDigits_ne_nil, fun c hc => ?_⟩, fun hzero => ?_⟩, Nat.ofDigitChars_ten_toDigits⟩
  · exact Nat.isDigit_of_mem_toDigits (by decide) (by decide) hc
  · cases Nat.eq_zero_or_pos n with
    | inl h =>
        subst h
        rfl
    | inr h => exact absurd hzero (digits_head h)

/-- A whole number that fits is read as its value. -/
theorem readNatural_append {wanted : String} {bound n : Nat} {v g rest : List Char}
    (hv : NumeralText v n) (hn : n < bound) (hbound : bound ≤ UInt64.size) (hg : Gap g)
    (hrest : Follows rest) : readNatural wanted bound (g ++ (v ++ rest)) = .ok (n, rest) := by
  obtain ⟨hwhole, hvalue⟩ := hv
  obtain ⟨c, v', rfl, hc⟩ := hwhole.1.exists_cons
  have hstart : startsNumber c = true := by simp [startsNumber, hc]
  have hblank : skipBlanks (g ++ (c :: v' ++ rest)) = c :: (v' ++ rest) := by
    rw [hg.skipBlanks_append]
    exact skipBlanks_mark (isBlank_of_startsNumber hstart) _
  have hscan : NumberText.scan .endInValue (c :: (v' ++ rest)) =
      .ok (⟨false, c :: v', [], none⟩, rest) := NumberText.scan_whole hwhole hrest
  have hgather : NumberText.gather Word.ceiling 0 (c :: v') = (n, 0) := by
    rw [NumberText.gather_eq, hvalue]
    rw [hvalue, Word.ceiling]
    omega
  have hnumeral : readNumeral (c :: (v' ++ rest)) = .ok (.natural n, rest) := by
    simp [readNumeral, hscan, NumberText.value, hgather, NumberText.isWhole, bind, Except.bind,
      pure, Except.pure]
  simp only [readNatural, hblank, if_pos hstart]
  exact bind_eq_ok.mpr ⟨_, hnumeral, by simp [hn, pure, Except.pure]⟩

theorem skipValue_of_readNatural {wanted : String} {bound n : Nat} {s r : List Char}
    (h : readNatural wanted bound s = .ok (n, r)) : skipValue s = .ok r := by
  unfold readNatural at h
  split at h
  · cases h
  next c rest hs =>
    split at h
    next hc =>
      obtain ⟨⟨numeral, s'⟩, hnumeral, h⟩ := bind_eq_ok.mp h
      obtain ⟨⟨t, s''⟩, hscan, hvalue⟩ := bind_eq_ok.mp hnumeral
      obtain ⟨m, -, heq⟩ := bind_eq_ok.mp hvalue
      obtain ⟨rfl, rfl⟩ : m = numeral ∧ s'' = s' := by simpa [pure, Except.pure] using heq
      obtain rfl : s'' = r := by
        cases m with
        | natural k =>
            simp only at h
            split at h
            · cases h
              rfl
            · cases h
        | negative k => cases h
        | floating bits => cases h
      have hskip : skipScalar c rest = .ok s'' := by
        rw [skipScalar_number hc]
        exact map_eq_ok.mpr ⟨_, (NumberText.scan_ok hscan).1, rfl⟩
      exact skipValue_eq_ok_iff.mpr
        (.scalar hs (ne_of_startsNumber hc rfl) (ne_of_startsNumber hc rfl) hskip .done)
    · exact absurd h wrongType_ne_ok

/-- A reader of whole numbers below a bound, whatever it makes of them. -/
theorem faithful_readNatural {α : Type} (wanted : String) {bound : Nat}
    (hbound : bound ≤ UInt64.size) (f : Nat → α) (toNat : α → Nat)
    (hlt : ∀ a, toNat a < bound) (hf : ∀ a, f (toNat a) = a) :
    Faithful (fun s => (readNatural wanted bound s).map fun (n, rest) => (f n, rest))
      (fun v a => NumeralText v (toNat a)) where
  isValue := NumeralText.isValue
  reads := by
    intro v g rest a hv hg hrest
    refine map_eq_ok.mpr ⟨_, readNatural_append hv (hlt a) hbound hg hrest, ?_⟩
    simp only [hf]
  skips := by
    intro s r a h
    obtain ⟨⟨n, r'⟩, hn, heq⟩ := map_eq_ok.mp h
    obtain rfl : r' = r := (Prod.mk.inj heq).2
    exact skipValue_of_readNatural hn

theorem faithful_readWord32 : Faithful readWord32 fun v n => NumeralText v n.toNat :=
  faithful_readNatural "u32" (by decide) Nat.toUInt32 UInt32.toNat UInt32.toNat_lt_size
    fun _ => UInt32.ofNat_toNat

theorem faithful_readWord64 : Faithful readWord64 fun v n => NumeralText v n.toNat :=
  faithful_readNatural "u64" (by decide) Nat.toUInt64 UInt64.toNat UInt64.toNat_lt_size
    fun _ => UInt64.ofNat_toNat

theorem faithful_readSize : Faithful readSize fun v n => NumeralText v n.toNat :=
  faithful_readNatural "usize" (by decide) Nat.toUInt64 UInt64.toNat UInt64.toNat_lt_size
    fun _ => UInt64.ofNat_toNat

/-! ## Objects -/

/-- The text of an item with the comma that stands before it unless it is the first. -/
def lead (isFirst : Bool) (s : List Char) : List Char := if isFirst then s else ',' :: s

/-- A member of an object is found at its key, whether a comma comes before it or not, and its value
behind the colon. -/
theorem MemberText.nextKey_lead {κ : Type} {Key : κ → List Char → Prop} {m : κ × List Char}
    {s : List Char} (h : MemberText Key m s) (isFirst : Bool) (rest : List Char) :
    ∃ body after g g', Key m.1 body ∧ Gap g ∧ Gap g' ∧
      nextKey isFirst (lead isFirst s ++ rest) = .ok (true, body ++ '"' :: after) ∧
      readColon after = .ok (g ++ (m.2 ++ (g' ++ rest))) := by
  obtain ⟨body, g, g', g'', hbody, hg, hg', hg'', hquote⟩ := h.skipBlanks_append
  refine ⟨body, g ++ ':' :: (g' ++ (m.2 ++ (g'' ++ rest))), g', g'', hbody, hg', hg'', ?_,
    readColon_append hg _⟩
  cases isFirst with
  | true => simp [lead, nextKey, hquote]
  | false => simp [lead, nextKey, skipBlanks_mark (c := ',') (by decide), hquote]

/-- What is found in an object: its end, or the next key, which is the first or stands behind a
comma. -/
theorem nextKey_eq_ok {isFirst more : Bool} {s r : List Char}
    (h : nextKey isFirst s = .ok (more, r)) :
    more = false ∧ skipBlanks s = '\x7d' :: r ∨
    more = true ∧ isFirst = true ∧ skipBlanks s = '"' :: r ∨
    more = true ∧ isFirst = false ∧
      ∃ rest, skipBlanks s = ',' :: rest ∧ skipBlanks rest = '"' :: r := by
  unfold nextKey at h
  split at h
  · cases h
  next c rest hs =>
    split at h
    next hc =>
      cases h
      exact .inl ⟨rfl, by rw [hs, hc]⟩
    split at h
    next hfirst =>
      split at h
      next hc =>
        cases h
        exact .inr (.inl ⟨rfl, hfirst, by rw [hs, hc]⟩)
      · cases h
    next hfirst =>
      split at h
      next hc =>
        split at h
        · cases h
        next d rest' hrest =>
          split at h
          next hd =>
            cases h
            exact .inr (.inr ⟨rfl, by simpa using hfirst, rest, by rw [hs, hc],
              by rw [hrest, hd]⟩)
          · split at h <;> cases h
      · cases h

/-- A string that is read is passed over as a key if a colon comes behind it. -/
theorem skipKey_of_readText {s s' t r : List Char} {rest : List Char}
    (hs : skipBlanks s = '"' :: s') (ht : readText s' = .ok (t, rest))
    (hcolon : readColon rest = .ok r) : skipKey s = .ok r := by
  simp only [skipKey, hs, if_pos]
  exact bind_eq_ok.mpr ⟨rest, skipText_of_readText ht, hcolon⟩

/-! ## Names -/

/-- A name of a table, as a string or as the only key of an object with null under it, and what it
stands for. -/
def ChoiceText {α : Type} (table : List (String × α)) (v : List Char) (a : α) : Prop :=
  ∃ name, table.lookup name = some a ∧
    ((∃ body, Named name body ∧ v = inQuotes body) ∨
      ObjectText Named [(name, ['n', 'u', 'l', 'l'])] v)

theorem ChoiceText.isValue {α : Type} {table : List (String × α)} {v : List Char} {a : α}
    (h : ChoiceText table v a) : IsValue v := by
  obtain ⟨name, -, ⟨body, hbody, rfl⟩ | hobject⟩ := h
  · exact .string (Spells.isStringBody hbody)
  · exact isValue_of_objectText hobject (by simpa using IsValue.nullWord)

theorem Named.readString_append {name : String} {body : List Char} (h : Named name body)
    (r : List Char) : readString (body ++ '"' :: r) = .ok (name, r) := by
  refine map_eq_ok.mpr ⟨_, Spells.readText_append h r, ?_⟩
  simp only [String.ofList_toList]

theorem finishLongChoice_append {g g' : List Char} (hg : Gap g) (hg' : Gap g') (r : List Char) :
    finishLongChoice (g ++ (['n', 'u', 'l', 'l'] ++ (g' ++ '\x7d' :: r))) = .ok r := by
  have hnull : skipBlanks (g ++ (['n', 'u', 'l', 'l'] ++ (g' ++ '\x7d' :: r))) =
      'n' :: (['u', 'l', 'l'] ++ (g' ++ '\x7d' :: r)) := by
    rw [hg.skipBlanks_append]
    exact skipBlanks_mark (by decide) _
  have hclose : skipBlanks (g' ++ '\x7d' :: r) = '\x7d' :: r := by
    rw [hg'.skipBlanks_append, skipBlanks_mark (by decide)]
  simp only [finishLongChoice, hnull, if_pos]
  refine bind_eq_ok.mpr ⟨_, finishWord_append _ _, ?_⟩
  simp [hclose, pure, Except.pure]

/-- A long form ends with null and a closing brace. -/
theorem finishLongChoice_eq_ok {s r : List Char} (h : finishLongChoice s = .ok r) :
    ∃ s₁ s₂, skipBlanks s = 'n' :: s₁ ∧ finishWord ['u', 'l', 'l'] s₁ = .ok s₂ ∧
      skipBlanks s₂ = '\x7d' :: r := by
  unfold finishLongChoice at h
  split at h
  · cases h
  next c rest hs =>
    split at h
    next hc =>
      obtain ⟨s₂, hword, h⟩ := bind_eq_ok.mp h
      split at h
      · cases h
      next d rest' hs₂ =>
        split at h
        next hd =>
          cases h
          exact ⟨rest, s₂, by rw [hs, hc], hword, by rw [hs₂, hd]⟩
        · cases h
    · exact absurd h wrongType_ne_ok

/-- A choice is read by its name, in the short form and in the long one. -/
theorem readChoice_append {α : Type} {table : List (String × α)} {v g rest : List Char} {a : α}
    (h : ChoiceText table v a) (hg : Gap g) :
    readChoice table (g ++ (v ++ rest)) = .ok (a, rest) := by
  obtain ⟨name, ha, ⟨body, hbody, rfl⟩ | hobject⟩ := h
  · simp only [readChoice, hg.skipBlanks_inQuotes, if_pos]
    refine bind_eq_ok.mpr ⟨_, hbody.readString_append rest, ?_⟩
    simp [chooseName, ha, bind, Except.bind, pure, Except.pure]
  · cases hobject with
    | @filled _ s hs =>
      cases hs with
      | more _ h => exact absurd rfl h.ne_nil
      | one hm =>
          have hopen := Bracket.object.skipBlanks_append hg s rest
          obtain ⟨body, after, g₁, g₂, hbody, hg₁, hg₂, hkey, hcolon⟩ :=
            hm.nextKey_lead true ('\x7d' :: rest)
          have hname := hbody.readString_append after
          have hbrace : Bracket.object.opening ≠ '"' := by decide
          simp only [readChoice, hopen, if_neg hbrace]
          refine bind_eq_ok.mpr ⟨_, hkey, ?_⟩
          refine bind_eq_ok.mpr ⟨_, hname, ?_⟩
          refine bind_eq_ok.mpr ⟨a, by simp [chooseName, ha], ?_⟩
          refine bind_eq_ok.mpr ⟨_, hcolon, ?_⟩
          exact bind_eq_ok.mpr ⟨_, finishLongChoice_append hg₁ hg₂ rest, rfl⟩

theorem skipValue_of_readChoice {α : Type} {table : List (String × α)} {s r : List Char} {a : α}
    (h : readChoice table s = .ok (a, r)) : skipValue s = .ok r := by
  unfold readChoice at h
  split at h
  · cases h
  next c rest hs =>
    split at h
    next hc =>
      obtain ⟨⟨name, s'⟩, hname, h⟩ := bind_eq_ok.mp h
      obtain ⟨a', -, h⟩ := bind_eq_ok.mp h
      cases h
      obtain ⟨⟨t, s'⟩, ht, heq⟩ := map_eq_ok.mp hname
      cases heq
      have hskip : skipScalar c rest = .ok r := by
        rw [hc]
        exact skipText_of_readText ht
      exact skipValue_eq_ok_iff.mpr
        (.scalar hs (by rw [hc]; decide) (by rw [hc]; decide) hskip .done)
    split at h
    next hc =>
      obtain ⟨⟨more, s₁⟩, hkey, h⟩ := bind_eq_ok.mp h
      cases more with
      | false => cases h
      | true =>
          obtain ⟨⟨name, s₂⟩, hname, h⟩ := bind_eq_ok.mp h
          obtain ⟨a', -, h⟩ := bind_eq_ok.mp h
          obtain ⟨s₃, hcolon, h⟩ := bind_eq_ok.mp h
          obtain ⟨s₄, hfinish, h⟩ := bind_eq_ok.mp h
          cases h
          obtain ⟨⟨t, s₂⟩, ht, heq⟩ := map_eq_ok.mp hname
          cases heq
          have hfirst : skipBlanks rest = '"' :: s₁ := by
            simpa using nextKey_eq_ok hkey
          obtain ⟨s₅, s₆, hn, hword, hclose⟩ := finishLongChoice_eq_ok hfinish
          have hnull : Walks .value [.object] s₃ r :=
            .scalar hn (by decide) (by decide) hword (.closed (by simp) hclose .done)
          have hitem : StartsItem .object [] rest r :=
            ⟨s₃, skipKey_of_readText hfirst ht hcolon, hnull⟩
          exact skipValue_eq_ok_iff.mpr (.opened (by rw [hs, hc]; rfl) hitem.behindOpening)
    · cases h

theorem faithful_readChoice {α : Type} (table : List (String × α)) :
    Faithful (readChoice table) (ChoiceText table) where
  isValue := ChoiceText.isValue
  reads h hg _ := readChoice_append h hg
  skips := skipValue_of_readChoice

end CycleBridge.Json
