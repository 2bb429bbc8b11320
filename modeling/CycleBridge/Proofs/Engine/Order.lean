import CycleBridge.Proofs.Engine.Intake
import CycleBridge.Proofs.Engine.Service

/-!
# The order of the flights

Flights stand by their due cycles, those with one due cycle by their arrival. Bisection keeps this
order because it finds the one place where a flight may stand, and a tick may stop at the first
flight that is not due because all behind it are due later.
-/

namespace CycleBridge

section Bisect

variable {α : Type} {p : α → Bool} {xs : List α}

/-- In a list that passes a test up to some place and fails it from there on, bisection finds that
place, if what it starts with lies on both sides of it. -/
theorem bisect_separates (hsplit : xs.Pairwise fun x y => p y → p x) (steps lo hi : Nat)
    (hlo : lo ≤ hi) (hhi : hi ≤ xs.length) (hsteps : hi - lo ≤ steps)
    (hbelow : ∀ i (h : i < xs.length), i < lo → p xs[i])
    (habove : ∀ i (h : i < xs.length), hi ≤ i → ¬ p xs[i]) :
    (∀ i (h : i < xs.length), i < bisect p xs steps lo hi → p xs[i]) ∧
      ∀ i (h : i < xs.length), bisect p xs steps lo hi ≤ i → ¬ p xs[i] := by
  have hmono := List.pairwise_iff_getElem.mp hsplit
  induction steps generalizing lo hi with
  | zero =>
      obtain rfl : lo = hi := by omega
      exact ⟨hbelow, habove⟩
  | succ steps ih =>
      simp only [bisect]
      by_cases hlt : lo < hi
      · have hmid : (lo + hi) / 2 < xs.length := by omega
        rw [if_pos hlt, List.getElem?_eq_getElem hmid, Option.any_some]
        by_cases hp : p xs[(lo + hi) / 2] = true
        · rw [if_pos hp]
          apply ih ((lo + hi) / 2 + 1) hi (by omega) hhi (by omega) _ habove
          intro i h hi'
          by_cases heq : i = (lo + hi) / 2
          · subst heq
            exact hp
          · exact hmono i _ h hmid (by omega) hp
        · rw [if_neg hp]
          apply ih lo ((lo + hi) / 2) (by omega) (by omega) (by omega) hbelow
          intro i h hi'
          by_cases heq : i = (lo + hi) / 2
          · subst heq
            exact hp
          · intro hpi
            exact hp (hmono _ i hmid h (by omega) hpi)
      · rw [if_neg hlt]
        obtain rfl : lo = hi := by omega
        exact ⟨hbelow, habove⟩

theorem splitPoint_separates (hsplit : xs.Pairwise fun x y => p y → p x) :
    (∀ x ∈ xs.take (splitPoint p xs), p x) ∧ ∀ x ∈ xs.drop (splitPoint p xs), ¬ p x := by
  obtain ⟨hbelow, habove⟩ := bisect_separates hsplit xs.length 0 xs.length (Nat.zero_le _)
    (Nat.le_refl _) (Nat.sub_le _ _) (fun i _ hi => absurd hi (Nat.not_lt_zero i))
    (fun i h hi => absurd h (Nat.not_lt.mpr hi))
  constructor
  · intro x hx
    obtain ⟨i, hi, rfl⟩ := List.mem_take_iff_getElem.mp hx
    exact hbelow i _ (Nat.lt_of_lt_of_le hi (Nat.min_le_left _ _))
  · intro x hx
    obtain ⟨i, hi, rfl⟩ := List.mem_drop_iff_getElem.mp hx
    exact habove _ (by omega) (Nat.le_add_right _ i)

/-- Where a test fails for good once it fails, what stands ahead of the first failure is all that
passes. -/
theorem span_eq_filter (hsplit : xs.Pairwise fun x y => p y → p x) :
    xs.span p = (xs.filter p, xs.filter fun x => !p x) := by
  rw [List.span_eq_takeWhile_dropWhile]
  induction xs with
  | nil => rfl
  | cons x rest ih =>
      obtain ⟨hx, hrest⟩ := List.pairwise_cons.mp hsplit
      by_cases hp : p x = true
      · have hrest := Prod.mk.inj (ih hrest)
        simp [hp, hrest.1, hrest.2]
      · have hnone : ∀ y ∈ rest, ¬ p y = true := fun y hy hpy => hp (hx y hy hpy)
        have hall : rest.filter (fun y => !p y) = rest := by
          apply List.filter_eq_self.mpr
          intro y hy
          simpa using hnone y hy
        simp [hp, List.filter_eq_nil_iff.mpr hnone, hall]

end Bisect

/-- A flight that is due earlier, or is due with the other and arrived earlier. -/
def Flight.Before (f g : Flight) : Prop :=
  f.due < g.due ∨ f.due = g.due ∧ f.arrival < g.arrival

namespace Engine

variable {σ : Type}

/-- The flights stand in their order, and each of them arrived before those still to come. -/
structure InOrder (e : Engine σ) : Prop where
  sorted : e.inFlight.Pairwise Flight.Before
  arrived : ∀ f ∈ e.inFlight, f.arrival < e.taken

theorem InOrder.due_le {e : Engine σ} (h : e.InOrder) (due : Nat) :
    e.inFlight.Pairwise fun f g => decide (g.due ≤ due) → decide (f.due ≤ due) := by
  apply h.sorted.imp
  intro f g hfg hg
  simp only [decide_eq_true_eq, Flight.Before] at hg hfg ⊢
  omega

/-- A flight is placed behind all that are due no later and ahead of all others. -/
theorem place_splits {queue : List Flight} (f : Flight)
    (hsplit : queue.Pairwise fun g g' => decide (g'.due ≤ f.due) → decide (g.due ≤ f.due)) :
    ∃ ahead behind, queue = ahead ++ behind ∧ place queue f = ahead ++ f :: behind ∧
      (∀ g ∈ ahead, g.due ≤ f.due) ∧ ∀ g ∈ behind, f.due < g.due := by
  obtain ⟨hahead, hbehind⟩ := splitPoint_separates hsplit
  obtain ⟨ahead, behind, hqueue, hlen, hplace⟩ := List.exists_of_modifyTailIdx (List.cons f)
    (splitPoint_le (fun g : Flight => decide (g.due ≤ f.due)) queue)
  rw [← hlen, hqueue, List.take_left] at hahead
  rw [← hlen, hqueue, List.drop_left] at hbehind
  refine ⟨ahead, behind, hqueue, hplace, ?_, ?_⟩
  · intro g hg
    exact of_decide_eq_true (hahead g hg)
  · intro g hg
    simpa using hbehind g hg

theorem place_sorted {e : Engine σ} (h : e.InOrder) {f : Flight} (hf : f.arrival = e.taken) :
    (place e.inFlight f).Pairwise Flight.Before := by
  obtain ⟨ahead, behind, hqueue, hplace, hahead, hbehind⟩ := place_splits f (h.due_le f.due)
  have hsorted := h.sorted
  rw [hqueue, List.pairwise_append] at hsorted
  obtain ⟨hfront, hback, hcross⟩ := hsorted
  rw [hplace, List.pairwise_append, List.pairwise_cons]
  refine ⟨hfront, ⟨fun g hg => .inl (hbehind g hg), hback⟩, ?_⟩
  intro g hg g' hg'
  rcases List.mem_cons.mp hg' with rfl | hg'
  · have harrived : g.arrival < e.taken := h.arrived g (hqueue ▸ List.mem_append_left _ hg)
    have hdue := hahead g hg
    unfold Flight.Before
    omega
  · exact hcross g hg g' hg'

/-- A tick serves what is due, and what stays is due later. -/
theorem InOrder.tick_eq {e : Engine σ} (h : e.InOrder) :
    e.tick.1 = e.inFlight.filter (fun f => f.due ≤ e.cycle + 1) ∧
      e.tick.2.inFlight = e.inFlight.filter (fun f => e.cycle + 1 < f.due) := by
  simp only [tick, span_eq_filter (h.due_le (e.cycle + 1)), true_and]
  apply List.filter_congr
  intro f _
  rw [← decide_not, decide_eq_decide, Nat.not_le]

theorem InOrder.tick {e : Engine σ} (h : e.InOrder) : e.tick.2.InOrder := by
  have hsub : e.tick.2.inFlight.Sublist e.inFlight := by
    rw [← e.tick_served_append]
    exact List.sublist_append_right _ _
  constructor
  · exact h.sorted.sublist hsub
  · intro f hf
    rw [e.tick_taken]
    exact h.arrived f (hsub.subset hf)

theorem tick_refused (e : Engine σ) : e.tick.2.counts.refused = e.counts.refused := by
  have hall : ∀ (served : List Flight) (c : EngineCounts),
      (served.foldl (fun c f => c.addServed f.request.kind) c).refused = c.refused := by
    intro served
    induction served with
    | nil => exact fun _ => rfl
    | cons f rest ih =>
        intro c
        rw [List.foldl_cons, ih]
        cases f.request.kind <;> rfl
  exact hall e.tick.1 e.counts

variable [LatencyModel σ]

theorem offer_refused_keeps {e e' : Engine σ} {r : Request} (h : e.offer r = (none, e')) :
    e'.inFlight = e.inFlight ∧ e'.counts.refused = e.counts.refused + 1 := by
  unfold offer at h
  split at h
  · cases h
    exact ⟨rfl, rfl⟩
  · cases h

theorem addRowResult_refused (c : EngineCounts) (r : Option RowResult) :
    (c.addRowResult r).refused = c.refused := by
  rcases r with _ | r
  · rfl
  · cases r <;> rfl

/-- What is taken is placed by its due cycle, the engine's cycle and its latency together. -/
theorem offer_taken_places {e e' : Engine σ} {r : Request} {f : Flight}
    (h : e.offer r = (some f, e')) :
    e'.inFlight = place e.inFlight f ∧ f.arrival = e.taken ∧
      f.due = Word.clamp (e.cycle + f.latency.toNat) ∧
        e'.counts.refused = e.counts.refused := by
  unfold offer at h
  split at h
  · cases h
  · cases h
    exact ⟨rfl, rfl, rfl, addRowResult_refused _ _⟩

theorem InOrder.offer {e : Engine σ} (h : e.InOrder) (r : Request) : (e.offer r).2.InOrder := by
  rcases ho : e.offer r with ⟨_ | f, e'⟩
  · obtain ⟨hflights, -⟩ := offer_refused_keeps ho
    constructor
    · simpa [hflights] using h.sorted
    · simpa [hflights, (offer_refused ho).taken] using h.arrived
  · obtain ⟨hflights, harrival, -⟩ := offer_taken_places ho
    constructor
    · simpa [hflights] using place_sorted h harrival
    · intro g hg
      rw [(offer_taken ho).2.taken]
      have hmem := (offer_taken ho).2.inFlight.subset hg
      rcases List.mem_append.mp hmem with hold | hnew
      · exact Nat.lt_succ_of_lt (h.arrived g hold)
      · rw [List.mem_singleton.mp hnew, harrival]
        exact Nat.lt_succ_self _

end Engine

namespace Frontend

variable {σ : Type} [LatencyModel σ]

theorem forward_inOrder (rs : List Request) {e : Engine σ} (h : e.InOrder) :
    (forward rs e).2.2.InOrder := by
  induction rs generalizing e with
  | nil => exact h
  | cons r rest ih =>
      have ho := h.offer r
      simp only [forward]
      split
      · next he =>
          rw [he] at ho
          exact ho
      · next he =>
          rw [he] at ho
          exact ih ho

theorem forward_due (rs : List Request) (e : Engine σ) :
    ∀ f ∈ (forward rs e).1, f.due = Word.clamp (e.cycle + f.latency.toNat) := by
  induction rs generalizing e with
  | nil => simp [forward]
  | cons r rest ih =>
      simp only [forward]
      split
      · simp
      · next he =>
          obtain ⟨-, -, hdue, -⟩ := Engine.offer_taken_places he
          intro f hf
          rcases List.mem_cons.mp hf with rfl | hf
          · exact hdue
          · rw [← (Engine.offer_taken he).2.cycle]
            exact ih _ f hf

/-- Forwarding ends with one refusal if it leaves anything behind, and with none otherwise. -/
theorem forward_refused (rs : List Request) (e : Engine σ) :
    (forward rs e).2.2.counts.refused =
      e.counts.refused + if (forward rs e).2.1 = [] then 0 else 1 := by
  induction rs generalizing e with
  | nil => rfl
  | cons r rest ih =>
      rcases ho : e.offer r with ⟨_ | f, e'⟩
      · simp [forward, ho, (Engine.offer_refused_keeps ho).2]
      · obtain ⟨-, -, -, hrefused⟩ := Engine.offer_taken_places ho
        simp [forward, ho, ih, hrefused]

end Frontend

end CycleBridge
