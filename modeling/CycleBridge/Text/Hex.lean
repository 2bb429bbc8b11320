import CycleBridge.Word

/-!
# Hexadecimal text

Addresses and values are shown in lower-case hexadecimal behind `0x`, either as short as possible or
filled up to all sixteen digits of a word.
-/

namespace CycleBridge.Text

/-- A word in as few hexadecimal digits as it needs. -/
def hex (w : Word) : String := "0x" ++ String.ofList (Nat.toDigits 16 w.toNat)

/-- A word in sixteen hexadecimal digits. -/
def hexFull (w : Word) : String :=
  "0x" ++ String.ofList ((Nat.toDigits 16 w.toNat).leftpad 16 '0')

end CycleBridge.Text
