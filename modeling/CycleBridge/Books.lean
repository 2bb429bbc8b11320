import CycleBridge.Event
import CycleBridge.Memory
import CycleBridge.Reply

/-!
# The books of a bridge

When an access runs its course, what follows is done to the books: the memory it can look at, the
replies and the ledger it can change, and the bridge cycle of the moment. The books also keep the
events that arise, oldest first.
-/

namespace CycleBridge

/-- All that the end of an access can see and change. -/
structure Books where
  memory : Memory
  replies : ReplyQueue
  ledger : Ledger
  cycle : Nat
  log : List Event := []

namespace Books

/-- What the memory holds at an address now. -/
def resolve (b : Books) (addr : Word) : Word := b.memory.read addr

/-- Reports one event. -/
def report (b : Books) (e : Event) : Books := { b with log := b.log ++ [e] }

/-- Leaves a reply. -/
def push (b : Books) (r : Reply) : Books :=
  { b.report (.replyQueued r.addr b.cycle) with replies := b.replies.push r }

/-- Settles the oldest open access of a kind at an address, if there is one. -/
def settle (b : Books) (addr : Word) (kind : AccessKind) : Option Issue × Books :=
  match b.ledger.settle? addr kind with
  | some (issue, ledger) => (some issue, { b with ledger })
  | none => (none, b)

@[simp] theorem push_replies (b : Books) (r : Reply) :
    (b.push r).replies = b.replies.push r := rfl

@[simp] theorem push_ledger (b : Books) (r : Reply) : (b.push r).ledger = b.ledger := rfl

theorem settle_memory (b : Books) (a : Word) (k : AccessKind) :
    (b.settle a k).2.memory = b.memory := by
  unfold settle; split <;> rfl

end Books

end CycleBridge
