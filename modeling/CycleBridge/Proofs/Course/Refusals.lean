import CycleBridge.Bridge.Close
import CycleBridge.Proofs.Course.Basic

/-!
# Refused calls

A call is refused if the ledger or the frontend turns its access away, if its code stands for no
kind, or if it drains where no reply waits. Such a call changes nothing but two counters, and no
call ever reads them. So a run can be stripped of its refused calls: every other call is answered
as before, and the bridge ends as it did, but for the refusals that are not counted any more.
-/

namespace CycleBridge

/-- Whether an answer turns its call away. -/
def Answer.refuses : Answer → Bool
  | .submitted verdict => verdict ≠ .accepted
  | .unknownKind _ => true
  | .advanced .. => false
  | .drained delivery => delivery.isNone

/-- The frontend after it turned away so many requests. -/
def Frontend.addRefusals (q : Frontend) (full : Nat) : Frontend :=
  { q with counts := { q.counts with rejected := q.counts.rejected + full } }

namespace Bridge

variable {σ : Type}

/-- The bridge after its ledger turned away so many accesses, and its frontend so many. -/
def addRefusals (b : Bridge σ) (overlaps full : Nat) : Bridge σ :=
  { b with
    frontend := b.frontend.addRefusals full
    counts := { b.counts with rejections := b.counts.rejections + (overlaps + full) } }

theorem addRefusals_addRefusals (b : Bridge σ) (m n m' n' : Nat) :
    (b.addRefusals m n).addRefusals m' n' = b.addRefusals (m + m') (n + n') := by
  simp only [addRefusals, Frontend.addRefusals, Nat.add_assoc, Nat.add_left_comm]

theorem accept_addRefusals (b : Bridge σ) (a : Access) (data : Word) (m n : Nat) :
    (b.addRefusals m n).accept a data = (b.accept a data).addRefusals m n := by
  simp only [accept, enter]
  cases a.kind <;> rfl

/-- A submission is answered without regard to earlier refusals. -/
theorem submit_addRefusals (b : Bridge σ) (a : Access) (data : Word) (m n : Nat) :
    (b.addRefusals m n).submit a data =
      ((b.submit a data).1, (b.submit a data).2.addRefusals m n) := by
  by_cases allowed : b.ledger.allows a.addr = true
  · by_cases room : b.frontend.pending.length < b.frontend.depth
    · rw [submit_of_room b a data allowed room, ← accept_addRefusals]
      exact submit_of_room (b.addRefusals m n) a data allowed room
    · rw [submit_of_full b a data allowed room,
        submit_of_full (b.addRefusals m n) a data allowed room]
      simp [addRefusals, Frontend.addRefusals, Frontend.countRefusal, countRejection,
        Nat.add_right_comm]
  · rw [submit_of_closed b a data allowed, submit_of_closed (b.addRefusals m n) a data allowed]
    simp [addRefusals, countRejection, Nat.add_right_comm]

theorem drain?_addRefusals (b : Bridge σ) (m n : Nat) :
    (b.addRefusals m n).drain? = b.drain?.map fun (d, b') => (d, b'.addRefusals m n) := by
  have hreplies : (b.addRefusals m n).replies = b.replies := rfl
  have hledger : (b.addRefusals m n).ledger = b.ledger := rfl
  cases hw : b.replies.waiting with
  | nil => simp [drain?, ReplyQueue.pop?, hreplies, hw]
  | cons r rest =>
      cases hs : b.ledger.settle? r.addr .read with
      | none =>
          simp only [drain?, ReplyQueue.pop?, hreplies, hledger, hw, hs, Option.map_some]
          rfl
      | some settled =>
          simp only [drain?, ReplyQueue.pop?, hreplies, hledger, hw, hs, Option.map_some]
          rfl

variable [LatencyModel σ]

theorem advance_addRefusals (b : Bridge σ) (m n : Nat) :
    (b.addRefusals m n).advance =
      { b.advance with bridge := b.advance.bridge.addRefusals m n } := by
  have hclock : (b.addRefusals m n).clock = b.clock := rfl
  simp only [advance, hclock]
  rcases b.clock.advance.firing with ⟨_ | _, _ | _⟩ <;> rfl

/-- A call is answered without regard to earlier refusals. -/
theorem perform_addRefusals (b : Bridge σ) (c : Call) (m n : Nat) :
    (b.addRefusals m n).perform c =
      { b.perform c with bridge := (b.perform c).bridge.addRefusals m n } := by
  cases c with
  | submit a data =>
      simp only [perform, performSubmit, submit_addRefusals]
      rfl
  | submitCode addr code source data =>
      cases hk : AccessKind.ofCode? code with
      | none => simp only [perform, hk]
      | some kind =>
          simp only [perform, hk, performSubmit, submit_addRefusals]
          rfl
  | advance => simp only [perform, advance_addRefusals]
  | drain =>
      rw [perform, perform, drain?_addRefusals]
      cases b.drain? <;> rfl

/-- Earlier refusals go along with a run and change none of its answers. -/
theorem run_addRefusals (b : Bridge σ) (calls : List Call) (m n : Nat) :
    (b.addRefusals m n).after calls = (b.after calls).addRefusals m n ∧
      (b.addRefusals m n).answered calls = b.answered calls := by
  induction calls generalizing b with
  | nil => exact ⟨rfl, rfl⟩
  | cons c rest ih =>
      obtain ⟨hafter, hanswered⟩ := ih (b.perform c).bridge
      rw [after_cons, after_cons, answered_cons, answered_cons, perform_addRefusals, hafter,
        hanswered]
      exact ⟨rfl, rfl⟩

omit [LatencyModel σ] in
theorem submit_refused {b : Bridge σ} {a : Access} {data : Word}
    (h : (b.submit a data).1 ≠ .accepted) :
    (b.submit a data).2 = b.addRefusals (if (b.submit a data).1 = .overlapRefused then 1 else 0)
      (if (b.submit a data).1 = .frontendRefused then 1 else 0) := by
  by_cases allowed : b.ledger.allows a.addr = true
  · by_cases room : b.frontend.pending.length < b.frontend.depth
    · rw [submit_of_room b a data allowed room] at h
      exact absurd rfl h
    · rw [submit_of_full b a data allowed room]
      rfl
  · rw [submit_of_closed b a data allowed]
    rfl

/-- A refused call counts its refusal and does nothing else. -/
theorem perform_refused {b : Bridge σ} {c : Call} (h : (b.perform c).answer.refuses) :
    (b.perform c).bridge =
      b.addRefusals (if (b.perform c).answer = .submitted .overlapRefused then 1 else 0)
        (if (b.perform c).answer = .submitted .frontendRefused then 1 else 0) := by
  cases c with
  | submit a data =>
      have hverdict : (b.submit a data).1 ≠ .accepted := of_decide_eq_true h
      simpa [perform, performSubmit] using submit_refused hverdict
  | submitCode addr code source data =>
      cases hk : AccessKind.ofCode? code with
      | none =>
          simp only [perform, hk]
          rfl
      | some kind =>
          simp only [perform, hk] at h ⊢
          have hverdict : (b.submit ⟨addr, kind, source⟩ data).1 ≠ .accepted :=
            of_decide_eq_true h
          simpa [performSubmit] using submit_refused hverdict
  | advance => exact absurd h Bool.false_ne_true
  | drain =>
      cases hd : b.drain? with
      | none =>
          simp only [perform, hd]
          rfl
      | some drained =>
          simp only [perform, hd] at h
          exact absurd h Bool.false_ne_true

/-- The calls of a sequence that are not refused where they stand. -/
def effective (b : Bridge σ) (calls : List Call) : List Call :=
  ((b.answered calls).filter fun p => !p.2.refuses).map Prod.fst

theorem effective_cons (b : Bridge σ) (c : Call) (rest : List Call) :
    b.effective (c :: rest) =
      if (b.perform c).answer.refuses then (b.perform c).bridge.effective rest
      else c :: (b.perform c).bridge.effective rest := by
  rw [effective, answered_cons, List.filter_cons]
  cases (b.perform c).answer.refuses <;> rfl

/-- Where overlaps are refused, a write meets a reply that was not drained, and a read meets a write
in flight. -/
example : (small ScriptedLatency.slowOne .reject).effective Call.crowd = Call.crowd.take 4 := by
  decide

/-- Without its refused calls, a run gives the answers it gave to the others, and it leaves the
same bridge behind, but for the refusals that it did not count. -/
theorem effective_run (b : Bridge σ) (calls : List Call) :
    b.answered (b.effective calls) = (b.answered calls).filter (fun p => !p.2.refuses) ∧
    b.after calls = (b.after (b.effective calls)).addRefusals
      ((b.outcomes calls).countP (·.answer = .submitted .overlapRefused))
      ((b.outcomes calls).countP (·.answer = .submitted .frontendRefused)) := by
  induction calls generalizing b with
  | nil => exact ⟨rfl, rfl⟩
  | cons c rest ih =>
      obtain ⟨hanswered, hafter⟩ := ih (b.perform c).bridge
      rw [after_cons, hafter, effective_cons, answered_cons, List.filter_cons, outcomes,
        List.countP_cons, List.countP_cons]
      cases hrefuses : (b.perform c).answer.refuses with
      | true =>
          have hbridge := perform_refused hrefuses
          have hrun := run_addRefusals b ((b.perform c).bridge.effective rest)
            (if (b.perform c).answer = .submitted .overlapRefused then 1 else 0)
            (if (b.perform c).answer = .submitted .frontendRefused then 1 else 0)
          rw [← hbridge] at hrun
          obtain ⟨hafter', hanswered'⟩ := hrun
          constructor
          · simpa [← hanswered'] using hanswered
          · simp [hafter', addRefusals_addRefusals, Nat.add_comm]
      | false =>
          have hnone : ∀ verdict, verdict ≠ .accepted →
              (b.perform c).answer ≠ .submitted verdict := by
            intro verdict hv he
            rw [he] at hrefuses
            exact of_decide_eq_false hrefuses hv
          constructor
          · simp [answered_cons, hanswered]
          · simp [hnone]

/-- Refused calls leave no trace. A run without them answers every other call as before and ends
with the same clock, memory, ledger, replies, waiting requests and engine. The reports of the two
bridges, too, are the same but for the refusals: each is a rejection, and those of the frontend,
which the ledger had let in, are counted there as well. -/
theorem refusals_leave_no_trace (b : Bridge σ) (calls : List Call) :
    let kept := b.effective calls
    let s := b.after calls
    let s' := b.after kept
    let overlaps := (b.outcomes calls).countP (·.answer = .submitted .overlapRefused)
    let full := (b.outcomes calls).countP (·.answer = .submitted .frontendRefused)
    b.answered kept = (b.answered calls).filter (fun p => !p.2.refuses) ∧
    s.clock = s'.clock ∧ s.memory = s'.memory ∧ s.ledger = s'.ledger ∧ s.replies = s'.replies ∧
    s.frontend.pending = s'.frontend.pending ∧ s.engine = s'.engine ∧
    s.close =
      { s'.close with
        bridge :=
          { s'.close.bridge with
            rejections := s'.close.bridge.rejections + (overlaps + full) }
        frontend :=
          { s'.close.frontend with rejected := s'.close.frontend.rejected + full } } := by
  intro kept s s' overlaps full
  obtain ⟨hanswered, hafter⟩ := b.effective_run calls
  have hs : s = s'.addRefusals overlaps full := hafter
  rw [hs]
  exact ⟨hanswered, rfl, rfl, rfl, rfl, rfl, rfl, rfl⟩

end Bridge

end CycleBridge
