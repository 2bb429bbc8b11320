import CycleBridge.Word

/-!
# Accesses

An access names an address, whether it reads or writes there, and the source that asked for it.
-/

namespace CycleBridge

/-- Whether an access reads or writes. -/
inductive AccessKind where
  | read
  | write
  deriving DecidableEq, Repr

namespace AccessKind

/-- The number that stands for a kind at the outer interface. -/
def code : AccessKind → Int32
  | read => 0
  | write => 1

/-- The kind that a number stands for, if it stands for one. -/
def ofCode? (code : Int32) : Option AccessKind :=
  if code = 0 then some read else if code = 1 then some write else none

/-- The word used in running text. -/
def word : AccessKind → String
  | read => "read"
  | write => "write"

/-- The name used where a value is shown with its fields. -/
def name : AccessKind → String
  | read => "Read"
  | write => "Write"

@[simp] theorem ofCode?_code (k : AccessKind) : ofCode? k.code = some k := by
  cases k <;> rfl

/-- A number stands for a kind exactly when it is the kind's code. -/
theorem ofCode?_eq_some_iff (c : Int32) (k : AccessKind) : ofCode? c = some k ↔ c = k.code := by
  constructor
  · intro h
    unfold ofCode? at h
    split at h
    · cases h; assumption
    · split at h
      · cases h; assumption
      · cases h
  · rintro rfl; simp

/-- What is said of a number that stands for no kind. -/
def unknownCodeMessage (code : Int32) : String :=
  s!"invalid request kind code {code}: expected 0 (read) or 1 (write)"

end AccessKind

/-- One access: its address, its kind and the source that asked for it. -/
structure Access where
  addr : Word
  kind : AccessKind
  source : Int32
  deriving DecidableEq, Repr

end CycleBridge
