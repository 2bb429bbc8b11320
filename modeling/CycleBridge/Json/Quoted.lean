import CycleBridge.Json.Scan

/-!
# Reading JSON: strings

Both readers start behind the opening quote. `readText` returns the characters that a string stands
for; `skipText` only finds its end, so it asks less of an escape by number: four hexadecimal digits
are enough, whether or not they make up a character.
-/

namespace CycleBridge.Json

/-- The value of a hexadecimal digit. -/
def hexValue? (c : Char) : Option Nat :=
  if c.isDigit then some (c.toNat - '0'.toNat)
  else if 'a' ≤ c ∧ c ≤ 'f' then some (c.toNat - 'a'.toNat + 10)
  else if 'A' ≤ c ∧ c ≤ 'F' then some (c.toNat - 'A'.toNat + 10)
  else none

/-- The number of four hexadecimal digits. -/
def hexUnit? (a b c d : Char) : Option Nat := do
  let a ← hexValue? a
  let b ← hexValue? b
  let c ← hexValue? c
  let d ← hexValue? d
  return ((a * 16 + b) * 16 + c) * 16 + d

/-- The fault of an escape by number when fewer than four characters are left: the text ends too
soon unless these characters take up four bytes. -/
def shortHexFault (rest : List Char) : Fault :=
  if 4 ≤ rest.foldl (fun n c => n + c.utf8Size) 0 then .badEscape else .endInString

/-- Whether a 16-bit unit is the first half of a pair. -/
def isLeading (n : Nat) : Bool := 0xD800 ≤ n ∧ n ≤ 0xDBFF

/-- Whether a 16-bit unit is the second half of a pair. -/
def isTrailing (n : Nat) : Bool := 0xDC00 ≤ n ∧ n ≤ 0xDFFF

/-- The code point of a pair of 16-bit units. -/
def joinPair (lead trail : Nat) : Nat := (lead - 0xD800) * 0x400 + (trail - 0xDC00) + 0x10000

/-- The fault of a first half of a pair that is not followed by an escape by number. -/
def unpairedFault : List Char → Fault
  | [] => .endInString
  | ['\\'] => .endInString
  | '\\' :: 'u' :: rest => shortHexFault rest
  | _ => .halfPair

/-- The character of an escape by one letter. -/
def letterEscape? : Char → Option Char
  | '"' => some '"'
  | '\\' => some '\\'
  | '/' => some '/'
  | 'b' => some '\x08'
  | 'f' => some '\x0c'
  | 'n' => some '\n'
  | 'r' => some '\r'
  | 't' => some '\t'
  | _ => none

/-- The fault of an escape that is none. -/
def escapeFault (letter : Char) (rest : List Char) : Fault :=
  if letter = 'u' then shortHexFault rest else .badEscape

/-- Whether a character may not stand in a string as itself. -/
def isControl (c : Char) : Bool := c.toNat < 0x20

/-- Puts a character before what the rest of a string stands for. -/
def prepend (c : Char) (r : Except Fault (List Char × List Char)) :
    Except Fault (List Char × List Char) :=
  r.map fun (text, rest) => (c :: text, rest)

/-- The characters of a string, up to its closing quote. -/
def readText : Reader (List Char)
  | [] => .error .endInString
  | '"' :: s => .ok ([], s)
  | ['\\'] => .error .endInString
  | '\\' :: 'u' :: a :: b :: c :: d :: s =>
    match hexUnit? a b c d with
    | none => .error .badEscape
    | some n =>
      if isTrailing n then .error .lonePart
      else if isLeading n then
        match s with
        | '\\' :: 'u' :: a' :: b' :: c' :: d' :: s' =>
          match hexUnit? a' b' c' d' with
          | none => .error .badEscape
          | some m =>
            if isTrailing m then prepend (Char.ofNat (joinPair n m)) (readText s')
            else .error .lonePart
        | s' => .error (unpairedFault s')
      else prepend (Char.ofNat n) (readText s)
  | '\\' :: e :: s =>
    match letterEscape? e with
    | some c => prepend c (readText s)
    | none => .error (escapeFault e s)
  | c :: s => if isControl c then .error .controlCharacter else prepend c (readText s)

/-- The text behind the closing quote of a string. -/
def skipText : List Char → Except Fault (List Char)
  | [] => .error .endInString
  | '"' :: s => .ok s
  | ['\\'] => .error .endInString
  | '\\' :: 'u' :: a :: b :: c :: d :: s =>
    if (hexUnit? a b c d).isSome then skipText s else .error .badEscape
  | '\\' :: e :: s =>
    if (letterEscape? e).isSome then skipText s else .error (escapeFault e s)
  | c :: s => if isControl c then .error .controlCharacter else skipText s

/-- The string that begins behind an opening quote. -/
def readString (s : List Char) : Except Fault (String × List Char) :=
  (readText s).map fun (text, rest) => (String.ofList text, rest)

/-! What one character or one escape by letter does to a text that is read or passed over. -/

section Steps

variable {c e : Char}

theorem ne_u_of_letterEscape (h : (letterEscape? e).isSome) : e ≠ 'u' := by
  rintro rfl
  simp [letterEscape?] at h

theorem readText_plain (hc : isControl c = false) (hq : c ≠ '"') (hb : c ≠ '\\') (s : List Char) :
    readText (c :: s) = prepend c (readText s) := by
  rw [readText.eq_6 c s hq (fun h => absurd h hb) (fun _ _ _ _ _ h => absurd h hb)
    (fun _ _ h => absurd h hb), if_neg (by simp [hc])]

theorem skipText_plain (hc : isControl c = false) (hq : c ≠ '"') (hb : c ≠ '\\') (s : List Char) :
    skipText (c :: s) = skipText s := by
  rw [skipText.eq_6 c s hq (fun h => absurd h hb) (fun _ _ _ _ _ h => absurd h hb)
    (fun _ _ h => absurd h hb), if_neg (by simp [hc])]

theorem readText_letter (he : letterEscape? e = some c) (s : List Char) :
    readText ('\\' :: e :: s) = prepend c (readText s) := by
  have hu : e ≠ 'u' := ne_u_of_letterEscape (by simp [he])
  rw [readText.eq_5 e s fun _ _ _ _ _ h => absurd h hu, he]

theorem skipText_letter (he : (letterEscape? e).isSome) (s : List Char) :
    skipText ('\\' :: e :: s) = skipText s := by
  have hu : e ≠ 'u' := ne_u_of_letterEscape he
  rw [skipText.eq_5 e s fun _ _ _ _ _ h => absurd h hu, if_pos he]

end Steps

end CycleBridge.Json
