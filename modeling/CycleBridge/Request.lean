import CycleBridge.Books

/-!
# Requests

A request is an access together with what is done to the books when it has run its course.
-/

namespace CycleBridge

/-- What is done to the books at the end of an access. -/
abbrev Followup := Access → Books → Books

/-- An access on its way, with its follow-up if it has one. -/
structure Request extends Access where
  followup : Option Followup := none

namespace Request

/-- Whether something is done at the end of the access. -/
def hasFollowup (r : Request) : Bool := r.followup.isSome

/-- Ends the access: the follow-up, if any, is applied to the books. -/
def complete (r : Request) (b : Books) : Books :=
  match r.followup with
  | some f => f r.toAccess b
  | none => b

/-- The request with its fields named, as diagnostics show it. -/
def describe (r : Request) : String :=
  let fields := ", ".intercalate
    [s!"addr: {Text.hex r.addr}", s!"kind: {r.kind.name}", s!"source_id: {r.source}",
      s!"has_callback: {r.hasFollowup}"]
  s!"Request \x7b {fields} \x7d"

end Request

namespace Followup

/-- A read ends by leaving the value that its address holds at that moment. -/
def reply : Followup := fun a b => b.push ⟨a.addr, b.resolve a.addr⟩

/-- A write ends by settling the oldest open write at its address. -/
def retire : Followup := fun a b =>
  match b.settle a.addr .write with
  | (some issue, b') => b'.report (.writeRetired a.addr (b.cycle - issue.cycle))
  | (none, b') => b'

/-- The follow-up that a bridge gives to an access of each kind. -/
def standard : AccessKind → Followup
  | .read => reply
  | .write => retire

end Followup

end CycleBridge
