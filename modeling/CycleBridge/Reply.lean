import CycleBridge.Word

/-!
# Replies

A read that ran its course leaves a reply: the address and the value it found. Replies wait in the
order in which they were produced until the driver of the bridge takes them.
-/

namespace CycleBridge

/-- What a read found. -/
structure Reply where
  addr : Word
  value : Word
  deriving DecidableEq, Repr

/-- The replies not yet taken, oldest first. -/
structure ReplyQueue where
  waiting : List Reply := []
  deriving DecidableEq, Repr

namespace ReplyQueue

/-- Adds a reply behind all others. -/
def push (q : ReplyQueue) (r : Reply) : ReplyQueue := ⟨q.waiting ++ [r]⟩

/-- The oldest reply and the queue without it. -/
def pop? (q : ReplyQueue) : Option (Reply × ReplyQueue) :=
  match q.waiting with
  | [] => none
  | r :: rest => some (r, ⟨rest⟩)

/-- The oldest reply, left in place. -/
def peek? (q : ReplyQueue) : Option Reply := q.waiting.head?

/-- How many replies wait. -/
def size (q : ReplyQueue) : Nat := q.waiting.length

/-- Whether no reply waits. -/
def isEmpty (q : ReplyQueue) : Bool := q.waiting.isEmpty

@[simp] theorem waiting_push (q : ReplyQueue) (r : Reply) :
    (q.push r).waiting = q.waiting ++ [r] := rfl

theorem pop?_eq_some_iff (q q' : ReplyQueue) (r : Reply) :
    q.pop? = some (r, q') ↔ q.waiting = r :: q'.waiting := by
  obtain ⟨w⟩ := q
  obtain ⟨w'⟩ := q'
  cases w <;> simp [pop?]

end ReplyQueue

end CycleBridge
