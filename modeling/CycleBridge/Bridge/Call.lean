import CycleBridge.Bridge.Basic

/-!
# Sequences of calls

A driver uses a bridge through a sequence of calls. `perform` answers one call and keeps with the
answer what went on inside: the events, the requests that entered the engine and those that left
it. `outcomes` answers a whole sequence, `after` is the bridge it leaves behind.
-/

namespace CycleBridge

/-- One call of a bridge's driver. -/
inductive Call where
  | submit (access : Access) (data : Word)
  | submitCode (addr : Word) (code source : Int32) (data : Word)
  | advance
  | drain
  deriving DecidableEq, Repr

/-- What a call is answered. -/
inductive Answer where
  | submitted (verdict : Verdict)
  | unknownKind (code : Int32)
  | advanced (cycle : Nat) (firing : Firing)
  | drained (delivery : Option Delivery)
  deriving DecidableEq, Repr

/-- An answered call: the answer, what went on inside, and the bridge afterwards. -/
structure Outcome (σ : Type) where
  answer : Answer
  events : List Event := []
  forwarded : List Flight := []
  served : List Flight := []
  bridge : Bridge σ

namespace Bridge

variable {σ : Type} [LatencyModel σ]

omit [LatencyModel σ] in
/-- Answers a submission. -/
def performSubmit (b : Bridge σ) (a : Access) (data : Word) : Outcome σ :=
  let (verdict, bridge) := b.submit a data
  { answer := .submitted verdict, events := [b.submitEvent a verdict], bridge }

/-- Answers one call. A code that stands for no kind is refused before the bridge looks at it. -/
def perform (b : Bridge σ) : Call → Outcome σ
  | .submit a data => b.performSubmit a data
  | .submitCode addr code source data =>
    match AccessKind.ofCode? code with
    | some kind => b.performSubmit ⟨addr, kind, source⟩ data
    | none => { answer := .unknownKind code, bridge := b }
  | .advance =>
    let a := b.advance
    { answer := .advanced a.cycle a.firing
      events := a.events
      forwarded := a.forwarded
      served := a.served
      bridge := a.bridge }
  | .drain =>
    match b.drain? with
    | some (delivery, bridge) =>
      { answer := .drained (some delivery), events := [delivery.event], bridge }
    | none => { answer := .drained none, bridge := b }

/-- The bridge after a sequence of calls. -/
def after (b : Bridge σ) (calls : List Call) : Bridge σ :=
  calls.foldl (fun b c => (b.perform c).bridge) b

/-- All calls of a sequence, answered one after the other. -/
def outcomes : Bridge σ → List Call → List (Outcome σ)
  | _, [] => []
  | b, c :: rest =>
    let o := b.perform c
    o :: outcomes o.bridge rest

@[simp] theorem after_nil (b : Bridge σ) : b.after [] = b := rfl

@[simp] theorem after_cons (b : Bridge σ) (c : Call) (cs : List Call) :
    b.after (c :: cs) = (b.perform c).bridge.after cs := rfl

theorem after_append (b : Bridge σ) (cs ds : List Call) :
    b.after (cs ++ ds) = (b.after cs).after ds := List.foldl_append

@[simp] theorem outcomes_length (b : Bridge σ) (cs : List Call) :
    (b.outcomes cs).length = cs.length := by
  induction cs generalizing b with
  | nil => rfl
  | cons c rest ih => simp [outcomes, ih]

end Bridge

end CycleBridge
