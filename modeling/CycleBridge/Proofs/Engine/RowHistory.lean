import CycleBridge.Proofs.Engine.Rows
import CycleBridge.Proofs.Engine.Timers
import Mathlib.Data.Nat.Bitwise

/-!
# Rows along a sequence of accesses

What an access to a row buffer meets is settled by its own address and the one before it.
`RowBuffer.met` says so in numbers of rows, with neither a mask nor a state: the mask clears the
place within the row, so two addresses are alike under it exactly if their rows have one number. An
engine with such a model counts the outcomes of the requests that it took and adds up their times,
whatever it was offered besides and whenever its clock was stepped.
-/

namespace CycleBridge

/-- How long an access with an outcome takes under some timings, held at the largest word. -/
def RowResult.duration (tCas tRas tPre : Word) : RowResult → Nat
  | .hit => tCas.toNat
  | .miss => min (tRas.toNat + tCas.toNat) (UInt64.size - 1)
  | .conflict => min (tPre.toNat + tRas.toNat + tCas.toNat) (UInt64.size - 1)

/-- The address of the request that an answer takes, if it takes one. -/
def EngineAnswer.takenAddr? : EngineAnswer → Option Word
  | .taken t => some t.request.addr
  | .refused => none
  | .ended .. => none

namespace RowBuffer

/-- The number of the row in which an address lies. With 64 bits or more in a row there is one row
only. -/
def rowNumber (rowBits : UInt32) (addr : Word) : Nat :=
  if rowBits.toNat < 64 then addr.toNat / 2 ^ rowBits.toNat else 0

/-- What an access meets after another one, or as the first of all. -/
def meets (rowBits : UInt32) : Option Word → Word → RowResult
  | none, _ => .miss
  | some before, addr =>
      if rowNumber rowBits addr = rowNumber rowBits before then .hit else .conflict

/-- What the accesses of a sequence meet that follow another one, or that come first. -/
def metAfter (rowBits : UInt32) (before : Option Word) (addrs : List Word) : List RowResult :=
  List.zipWith (meets rowBits) (before :: addrs.map some) addrs

/-- What the accesses of a sequence meet, each by the one before it. -/
def met (rowBits : UInt32) (addrs : List Word) : List RowResult := metAfter rowBits none addrs

section Mask

variable (rowBits : UInt32)

theorem rowNumber_eq_div (addr : Word) :
    rowNumber rowBits addr = addr.toNat / 2 ^ rowBits.toNat := by
  unfold rowNumber
  split
  · rfl
  · next h =>
      have hword : 2 ^ 64 ≤ 2 ^ rowBits.toNat :=
        Nat.pow_le_pow_right (by decide) (Nat.le_of_not_lt h)
      exact (Nat.div_eq_of_lt (Nat.lt_of_lt_of_le addr.toNat_lt hword)).symm

/-- The mask keeps the bits from `rowBits` on. -/
theorem testBit_maskOf (i : Nat) :
    (maskOf rowBits).toNat.testBit i = decide (rowBits.toNat ≤ i ∧ i < 64) := by
  unfold maskOf
  split
  · next h =>
      have hnone : ¬ (rowBits.toNat ≤ i ∧ i < 64) := by omega
      simp [hnone]
  · next h =>
      have hbits : rowBits.toNat < 64 := Nat.lt_of_not_le h
      have hlt : 2 ^ rowBits.toNat < 2 ^ 64 := Nat.pow_lt_pow_right (by decide) hbits
      have hone : (1 <<< rowBits.toUInt64 : Word).toNat = 2 ^ rowBits.toNat := by
        simpa [UInt64.toNat_shiftLeft, Nat.shiftLeft_eq, Nat.mod_eq_of_lt hbits] using hlt
      have hle : (1 : Word) ≤ 1 <<< rowBits.toUInt64 := by
        rw [UInt64.le_iff_toNat_le, hone]
        exact Nat.one_le_two_pow
      have hlow : 2 ^ rowBits.toNat - 1 < 2 ^ 64 := Nat.lt_of_le_of_lt (Nat.sub_le _ _) hlt
      rw [UInt64.toNat_not, UInt64.toNat_sub_of_le _ _ hle, hone]
      change (2 ^ 64 - 1 - (2 ^ rowBits.toNat - 1)).testBit i = _
      rw [Nat.sub_sub, Nat.add_comm 1, Nat.testBit_two_pow_sub_succ hlow,
        Nat.testBit_two_pow_sub_one]
      simp only [← decide_not, Nat.not_lt, Bool.decide_and, Bool.and_comm]

/-- Under the mask an address becomes the one at which its row begins. -/
theorem toNat_and_maskOf (addr : Word) :
    (addr &&& maskOf rowBits).toNat = rowNumber rowBits addr * 2 ^ rowBits.toNat := by
  rw [rowNumber_eq_div]
  apply Nat.eq_of_testBit_eq
  intro i
  rw [UInt64.toNat_and, Nat.testBit_and, testBit_maskOf, Nat.testBit_mul_two_pow,
    Nat.testBit_div_two_pow]
  by_cases hlow : rowBits.toNat ≤ i
  · by_cases hword : i < 64
    · simp [hlow, hword]
    · have hnone : addr.toNat.testBit i = false := by
        apply Nat.testBit_lt_two_pow
        exact Nat.lt_of_lt_of_le addr.toNat_lt
          (Nat.pow_le_pow_right (by decide) (Nat.le_of_not_lt hword))
      simp [hlow, hnone]
  · simp [hlow]

variable {rowBits} in
theorem and_maskOf_inj {addr addr' : Word} :
    addr &&& maskOf rowBits = addr' &&& maskOf rowBits ↔
      rowNumber rowBits addr = rowNumber rowBits addr' := by
  rw [← UInt64.toNat_inj, toNat_and_maskOf, toNat_and_maskOf]
  exact Nat.mul_left_inj (Nat.pos_iff_ne_zero.mp (Nat.two_pow_pos rowBits.toNat))

end Mask

/-- The buffer with the row of an address open, or with none open, after an access that met what is
given. -/
def standing (m : RowBuffer) (before : Option Word) (last : Option RowResult) : RowBuffer :=
  { m with openRow := before.map m.rowOf, last }

section Standing

variable {m : RowBuffer} {rowBits : UInt32} (hm : m.rowMask = maskOf rowBits)
include hm

theorem resultFor_standing (before : Option Word) (last : Option RowResult) (addr : Word) :
    (m.standing before last).resultFor (m.rowOf addr) = meets rowBits before addr := by
  cases before with
  | none => rfl
  | some b =>
      simp only [resultFor, standing, Option.map_some, rowOf, hm, and_maskOf_inj, meets,
        eq_comm (a := rowNumber rowBits b)]

/-- Each access meets what the one before left, and leaves its own row open. -/
theorem run_standing (before : Option Word) (last : Option RowResult) (addrs : List Word) :
    LatencyModel.run (m.standing before last) addrs =
      ((metAfter rowBits before addrs).map fun r => (m.latencyOf r, some r),
        m.standing (addrs.getLast?.or before)
          ((metAfter rowBits before addrs).getLast?.or last)) := by
  induction addrs generalizing before last with
  | nil => rfl
  | cons a rest ih =>
      have hmeets := resultFor_standing hm before last a
      have haccess : LatencyModel.access (m.standing before last) a =
          (m.latencyOf (meets rowBits before a),
            m.standing (some a) (some (meets rowBits before a))) := by
        rw [← hmeets]
        rfl
      have hlater : metAfter rowBits before (a :: rest) =
          meets rowBits before a :: metAfter rowBits (some a) rest := rfl
      rw [LatencyModel.run, haccess, hlater]
      simp only [ih, List.map_cons, List.getLast?_cons, Option.or_some, Option.some_or]
      rfl

end Standing

section Timings

variable (tCas tRas tPre : Word) (rowBits : UInt32)

theorem toNat_latencyOf (result : RowResult) :
    ((ofTimings tCas tRas tPre rowBits).latencyOf result).toNat =
      result.duration tCas tRas tPre := by
  cases result with
  | hit => rfl
  | miss => exact Word.addClamped_toNat _ _
  | conflict =>
      rw [latencyOf, Word.addClamped_toNat, Word.addClamped_toNat, Word.clamp_clamp_add]
      rfl

theorem run_ofTimings (addrs : List Word) :
    let m := ofTimings tCas tRas tPre rowBits
    LatencyModel.run m addrs =
      ((met rowBits addrs).map fun r => (m.latencyOf r, some r),
        m.standing addrs.getLast? (met rowBits addrs).getLast?) := by
  intro m
  have hmask : m.rowMask = maskOf rowBits := rfl
  have hrun := run_standing hmask none none addrs
  rwa [Option.or_none, Option.or_none] at hrun

end Timings

end RowBuffer

/-- The counters that answers with an outcome each amount to. -/
theorem EngineCounts.Reflects.of_results {c : EngineCounts} {results : List RowResult}
    {time : RowResult → Word} (h : c.Reflects (results.map fun r => (time r, some r))) :
    c.rowHits = results.count .hit ∧ c.rowMisses = results.count .miss ∧
      c.rowConflicts = results.count .conflict ∧
      c.busyCycles = Word.clamp (results.map fun r => (time r).toNat).sum := by
  have hcount : ∀ result, (results.map fun r => (time r, some r)).countP (·.2 = some result) =
      results.count result := by
    intro result
    rw [List.countP_map, List.count_eq_countP]
    simp [Function.comp_def, beq_eq_decide]
  refine ⟨h.hits.trans (hcount _), h.misses.trans (hcount _), h.conflicts.trans (hcount _), ?_⟩
  rw [h.busy, List.map_map]
  rfl

namespace Engine

variable {σ : Type} [LatencyModel σ] {e : Engine σ} {answers : List (Word × Option RowResult)}

/-- A call asks the model for the request that it gets taken, if it gets one taken. -/
theorem perform_reflects (h : e.counts.Reflects answers) (c : EngineCall) :
    let asked := LatencyModel.run e.model (e.perform c).1.takenAddr?.toList
    (e.perform c).2.counts.Reflects (answers ++ asked.1) ∧ (e.perform c).2.model = asked.2 := by
  cases c with
  | offer r =>
      have hoffer := offer_reflects h r
      rcases ho : e.offer r with ⟨_ | f, e'⟩
      · rw [ho] at hoffer
        simp only [perform, ho]
        exact ⟨hoffer, offer_refused_model ho⟩
      · have hasks := offer_taken_asks ho
        have haddr : f.timer.request.addr = r.addr := congrArg (·.addr) (offer_taken ho).1
        rw [ho] at hoffer
        simp only [perform, ho, Option.elim_some, EngineAnswer.takenAddr?, Option.toList_some,
          haddr, hasks]
        exact ⟨hoffer, trivial⟩
  | tick books =>
      refine ⟨?_, rfl⟩
      rw [perform, EngineAnswer.takenAddr?, Option.toList_none, LatencyModel.run, List.append_nil]
      exact tick_reflects h

theorem performAll_reflects (h : e.counts.Reflects answers) (calls : List EngineCall) :
    let run := performAll Engine.perform e calls
    run.2.counts.Reflects
      (answers ++ (LatencyModel.run e.model (run.1.filterMap EngineAnswer.takenAddr?)).1) := by
  induction calls generalizing e answers with
  | nil => simpa [performAll, LatencyModel.run] using h
  | cons c rest ih =>
      obtain ⟨hcounts, hmodel⟩ := perform_reflects h c
      have hrest := ih hcounts
      simp only [hmodel, List.append_assoc] at hrest
      have hsplit : ∀ later : List EngineAnswer,
          ((e.perform c).1 :: later).filterMap EngineAnswer.takenAddr? =
            (e.perform c).1.takenAddr?.toList ++ later.filterMap EngineAnswer.takenAddr? := by
        intro later
        rw [List.filterMap_cons]
        cases (e.perform c).1.takenAddr? <;> rfl
      simp only [performAll, hsplit, LatencyModel.run_append]
      exact hrest

end Engine

namespace RowBuffer

open LatencyModel

/-- The history of a row buffer, for all timings and row sizes. In every sequence of accesses the
first is a miss, and each later one is a hit if its row has the number of the row before and a
conflict otherwise; each takes the time of its outcome. After the sequence the last outcome is that
of the last access, and what is open is its address rounded down to where its row begins. An engine
whose model answers like this buffer, as the one chosen while the program runs does, has counted
after any offers and steps of its clock the outcomes of the requests that it took, and has been busy
for all their times together, held at the largest word. -/
theorem outcomes_follow_rows (tCas tRas tPre : Word) (rowBits : UInt32) :
    let m := ofTimings tCas tRas tPre rowBits
    (∀ addrs,
      (run m addrs).1.map (fun answer => (answer.1.toNat, answer.2)) =
        (met rowBits addrs).map (fun r => (r.duration tCas tRas tPre, some r)) ∧
      (run m addrs).2.last = (met rowBits addrs).getLast? ∧
      (run m addrs).2.openRow.map (·.toNat) =
        addrs.getLast?.map fun a => rowNumber rowBits a * 2 ^ rowBits.toNat) ∧
    Alike (Controller.rowBuffer m) m ∧
    ∀ {σ : Type} [LatencyModel σ] (model : σ), Alike model m → ∀ ratio capacity calls,
      let run := performAll Engine.perform { ratio, capacity, model } calls
      let outcomes := met rowBits (run.1.filterMap EngineAnswer.takenAddr?)
      let c := run.2.counts
      c.rowHits = outcomes.count .hit ∧ c.rowMisses = outcomes.count .miss ∧
      c.rowConflicts = outcomes.count .conflict ∧
      c.busyCycles = min (outcomes.map (·.duration tCas tRas tPre)).sum (UInt64.size - 1) := by
  intro m
  have hrun : ∀ addrs, run m addrs = ((met rowBits addrs).map fun r => (m.latencyOf r, some r),
      m.standing addrs.getLast? (met rowBits addrs).getLast?) :=
    run_ofTimings tCas tRas tPre rowBits
  have htime : ∀ r, (m.latencyOf r).toNat = r.duration tCas tRas tPre :=
    toNat_latencyOf tCas tRas tPre rowBits
  refine ⟨?_, alike_rowBuffer_controller m, ?_⟩
  · intro addrs
    rw [hrun]
    refine ⟨?_, rfl, ?_⟩
    · simp [htime]
    · cases addrs.getLast? with
      | none => rfl
      | some a => exact congrArg some (toNat_and_maskOf rowBits a)
  · intro σ _ model halike ratio capacity calls run' outcomes c
    have hstart : ({ ratio, capacity, model } : Engine σ).counts.Reflects [] := .nil
    have hall : c.Reflects (run model (run'.1.filterMap EngineAnswer.takenAddr?)).1 :=
      Engine.performAll_reflects hstart calls
    rw [halike, hrun] at hall
    have hcounts := hall.of_results
    simp only [htime] at hcounts
    exact hcounts

/-- Rows of 16 addresses in an engine with room for two requests: of one row, of the same row, one
that is refused and would have met a third row, and after a tick one of the next row. -/
theorem outcomes_follow_rows_switched :
    let model := Controller.rowBuffer (ofTimings 1 4 2 4)
    let books : Books := { memory := {}, replies := {}, ledger := {}, cycle := 0 }
    let calls : List EngineCall :=
      [.offer ⟨⟨17, .read, 0⟩, none⟩, .offer ⟨⟨31, .write, 0⟩, none⟩, .offer ⟨⟨99, .read, 0⟩, none⟩,
        .tick books, .offer ⟨⟨32, .read, 0⟩, none⟩]
    let run := performAll Engine.perform { ratio := 1, capacity := 2, model } calls
    let outcomes := met 4 (run.1.filterMap EngineAnswer.takenAddr?)
    Alike model (ofTimings 1 4 2 4) ∧ outcomes = [.miss, .hit, .conflict] ∧
      run.2.counts.rowHits = outcomes.count .hit ∧
      run.2.counts.rowMisses = outcomes.count .miss ∧
      run.2.counts.rowConflicts = outcomes.count .conflict ∧
      run.2.counts.busyCycles = 13 := by
  intro model books calls
  obtain ⟨-, halike, hcounts⟩ := outcomes_follow_rows 1 4 2 4
  obtain ⟨hhits, hmisses, hconflicts, hbusy⟩ := hcounts model halike 1 2 calls
  exact ⟨halike, by decide, hhits, hmisses, hconflicts, hbusy.trans (by decide)⟩

end RowBuffer

end CycleBridge
