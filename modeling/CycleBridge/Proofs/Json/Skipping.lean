import CycleBridge.Proofs.Json.Scalars

/-!
# Passing over a value

The walk over a value that nobody asked for, said without the bound on its steps: one rule for each
kind of step. The bound is never reached, since no two steps leave the text as it is, so the walk
and its rules say the same. Two things follow from the rules. A value of the grammar is passed over
whole, however deep it nests. And a walk does not look at the brackets around its value, so walks
can be put one behind the other.
-/

namespace CycleBridge.Json

/-- The walk from a place inside open brackets to behind the outermost value. -/
inductive Walks : Place → List Bracket → List Char → List Char → Prop where
  | done {s : List Char} : Walks .behindItem [] s s
  | scalar {stack : List Bracket} {c : Char} {s rest s' r : List Char} : skipBlanks s = c :: rest →
      c ≠ '[' → c ≠ '\x7b' → skipScalar c rest = .ok s' →
      Walks .behindItem stack s' r → Walks .value stack s r
  | opened {stack : List Bracket} {b : Bracket} {s rest r : List Char} :
      skipBlanks s = b.opening :: rest →
      Walks .behindOpening (b :: stack) rest r → Walks .value stack s r
  | closed {p : Place} {stack : List Bracket} {b : Bracket} {s rest r : List Char} : p ≠ .value →
      skipBlanks s = b.closing :: rest →
      Walks .behindItem stack rest r → Walks p (b :: stack) s r
  | first {stack : List Bracket} {b : Bracket} {c : Char} {s rest s' r : List Char} :
      skipBlanks s = c :: rest → c ≠ b.closing → skipItemStart b (c :: rest) = .ok s' →
      Walks .value (b :: stack) s' r → Walks .behindOpening (b :: stack) s r
  | next {stack : List Bracket} {b : Bracket} {s rest s' r : List Char} :
      skipBlanks s = ',' :: rest → skipItemStart b rest = .ok s' →
      Walks .value (b :: stack) s' r → Walks .behindItem (b :: stack) s r

/-- The item of a bracket that starts here is walked over, and the rest of the walk too. -/
def StartsItem (b : Bracket) (stack : List Bracket) (s r : List Char) : Prop :=
  ∃ s', skipItemStart b s = .ok s' ∧ Walks .value (b :: stack) s' r

theorem Bracket.isBlank_opening (b : Bracket) : isBlank b.opening = false := by
  cases b <;> decide

theorem Bracket.isBlank_closing (b : Bracket) : isBlank b.closing = false := by
  cases b <;> decide

theorem Bracket.opening_ne_closing (b : Bracket) : b.opening ≠ ']' := by
  cases b <;> decide

/-- A bracket begins with its opening, whatever blanks come before it. -/
theorem Bracket.skipBlanks_append (b : Bracket) {g : List Char} (hg : Gap g) (s rest : List Char) :
    skipBlanks (g ++ (b.opening :: s ++ [b.closing] ++ rest)) =
      b.opening :: (s ++ b.closing :: rest) := by
  rw [hg.skipBlanks_append, List.append_assoc, List.cons_append, skipBlanks_mark b.isBlank_opening]
  rfl

/-! ## The bound -/

section Bound

variable {p : Place} {stack : List Bracket} {b : Bracket} {s r : List Char}

theorem length_le_of_skipScalar {c : Char} (h : skipScalar c s = .ok r) : r.length ≤ s.length := by
  unfold skipScalar at h
  split at h
  · exact length_le_of_finishWord h
  split at h
  · exact length_le_of_finishWord h
  split at h
  · exact length_le_of_finishWord h
  split at h
  · exact Nat.le_of_lt (length_lt_of_skipText h)
  split at h
  · obtain ⟨⟨t, r'⟩, ht, rfl⟩ := map_eq_ok.mp h
    have hlt := (NumberText.scan_ok (k := .badNumber) ht).2
    simp only [List.length_cons] at hlt ⊢
    omega
  · cases h

theorem length_le_of_skipItemStart (h : skipItemStart b s = .ok r) : r.length ≤ s.length := by
  cases b with
  | list =>
      cases h
      exact Nat.le_refl _
  | object =>
      simp only [skipItemStart, skipKey] at h
      split at h
      · cases h
      next c rest hs =>
        split at h
        · obtain ⟨s', hs', hcolon⟩ := bind_eq_ok.mp h
          have h₁ := length_lt_of_skipBlanks hs
          have h₂ := length_lt_of_skipText hs'
          have h₃ := length_lt_of_skipBlanks (skipBlanks_of_readColon hcolon)
          omega
        · cases h

/-- What a bounded walk does is a walk. -/
theorem walks_of_walk {n : Nat} (h : walk n p stack s = .ok r)
    (hp : p = .behindOpening → stack ≠ []) : Walks p stack s r := by
  induction n generalizing p stack s with
  | zero => simp [walk] at h
  | succ n ih =>
      cases p with
      | value =>
          simp only [walk] at h
          split at h
          · cases h
          next c rest hs =>
            split at h
            next hc => exact .opened (b := .list) (by rw [hs, hc]; rfl) (ih h (by simp))
            split at h
            next hc => exact .opened (b := .object) (by rw [hs, hc]; rfl) (ih h (by simp))
            next hlist hobject =>
              obtain ⟨s', hs', h⟩ := bind_eq_ok.mp h
              exact .scalar hs hlist hobject hs' (ih h (by simp))
      | behindItem =>
          cases stack with
          | nil =>
              cases h
              exact .done
          | cons b stack =>
              simp only [walk] at h
              split at h
              · cases h
              next c rest hs =>
                split at h
                next hc => exact .closed (by simp) (by rw [hs, hc]) (ih h (by simp))
                split at h
                next hc =>
                  obtain ⟨s', hs', h⟩ := bind_eq_ok.mp h
                  exact .next (by rw [hs, hc]) hs' (ih h (by simp))
                · cases h
      | behindOpening =>
          cases stack with
          | nil => exact absurd rfl (hp rfl)
          | cons b stack =>
              simp only [walk] at h
              split at h
              · cases h
              next c rest hs =>
                split at h
                next hc => exact .closed (by simp) (by rw [hs, hc]) (ih h (by simp))
                next hc =>
                  obtain ⟨s', hs', h⟩ := bind_eq_ok.mp h
                  exact .first hs hc hs' (ih h (by simp))

/-- How many steps a place can take on top of two for each character. -/
def Place.extra : Place → Nat
  | .behindOpening => 2
  | _ => 1

/-- A walk needs two steps for each character of the text and one or two more. -/
theorem Walks.walk_eq_ok (h : Walks p stack s r) :
    ∀ n, 2 * s.length + p.extra ≤ n → walk n p stack s = .ok r := by
  induction h with
  | done =>
      intro n hn
      obtain ⟨n, rfl⟩ : ∃ m, n = m + 1 := ⟨n - 1, by simp only [Place.extra] at hn; omega⟩
      rfl
  | @scalar stack c s rest s' r hs hlist hobject hs' _ ih =>
      intro n hn
      have h₁ := length_lt_of_skipBlanks hs
      have h₂ := length_le_of_skipScalar hs'
      simp only [Place.extra] at hn ih
      obtain ⟨n, rfl⟩ : ∃ m, n = m + 1 := ⟨n - 1, by omega⟩
      simp only [walk, hs, if_neg hlist, if_neg hobject]
      exact bind_eq_ok.mpr ⟨s', hs', ih n (by omega)⟩
  | @opened stack b s rest r hs _ ih =>
      intro n hn
      have h₁ := length_lt_of_skipBlanks hs
      simp only [Place.extra] at hn ih
      obtain ⟨n, rfl⟩ : ∃ m, n = m + 1 := ⟨n - 1, by omega⟩
      cases b <;> simp [walk, hs, Bracket.opening, ih n (by omega)]
  | @closed p stack b s rest r hp hs _ ih =>
      intro n hn
      have h₁ := length_lt_of_skipBlanks hs
      have h₂ : 1 ≤ p.extra := by cases p <;> decide
      have h₃ : Place.behindItem.extra = 1 := rfl
      obtain ⟨n, rfl⟩ : ∃ m, n = m + 1 := ⟨n - 1, by omega⟩
      have hrest := ih n (by omega)
      cases p with
      | value => exact absurd rfl hp
      | behindItem => simp [walk, hs, hrest]
      | behindOpening => simp [walk, hs, hrest]
  | @first stack b c s rest s' r hs hc hs' _ ih =>
      intro n hn
      have h₁ := length_lt_of_skipBlanks hs
      have h₂ := length_le_of_skipItemStart hs'
      simp only [Place.extra, List.length_cons] at hn h₂ ih
      obtain ⟨n, rfl⟩ : ∃ m, n = m + 1 := ⟨n - 1, by omega⟩
      simp only [walk, hs, if_neg hc]
      exact bind_eq_ok.mpr ⟨s', hs', ih n (by omega)⟩
  | @next stack b s rest s' r hs hs' _ ih =>
      intro n hn
      have h₁ := length_lt_of_skipBlanks hs
      have h₂ := length_le_of_skipItemStart hs'
      have hc : ',' ≠ b.closing := by cases b <;> decide
      simp only [Place.extra] at hn ih
      obtain ⟨n, rfl⟩ : ∃ m, n = m + 1 := ⟨n - 1, by omega⟩
      simp only [walk, hs, if_neg hc]
      exact bind_eq_ok.mpr ⟨s', hs', ih n (by omega)⟩

/-- The bound on the steps of a walk is never reached. -/
theorem skipValue_eq_ok_iff : skipValue s = .ok r ↔ Walks .value [] s r :=
  ⟨fun h => walks_of_walk h (by simp), fun h => h.walk_eq_ok _ (by simp [Place.extra])⟩

end Bound

/-! ## Walks put together -/

section Compose

variable {p : Place} {stack base : List Bracket} {b : Bracket} {g s s' m r : List Char}

/-- A walk over a value goes on in whatever brackets the value stands. -/
theorem Walks.trans (h : Walks p stack s m) (hbase : Walks .behindItem base m r) :
    Walks p (stack ++ base) s r := by
  induction h with
  | done => exact hbase
  | scalar hs hlist hobject hs' _ ih => exact .scalar hs hlist hobject hs' (ih hbase)
  | opened hs _ ih => exact .opened hs (ih hbase)
  | closed hp hs _ ih => exact .closed hp hs (ih hbase)
  | first hs hc hs' _ ih => exact .first hs hc hs' (ih hbase)
  | next hs hs' _ ih => exact .next hs hs' (ih hbase)

/-- A value that is passed over is walked over in any brackets. -/
theorem Walks.of_skipValue (h : skipValue s = .ok m) (hbase : Walks .behindItem base m r) :
    Walks .value base s r :=
  (skipValue_eq_ok_iff.mp h).trans hbase

/-- Blanks before a value do not matter. -/
theorem Walks.value_congr (h : Walks .value stack s r) (hs : skipBlanks s' = skipBlanks s) :
    Walks .value stack s' r := by
  cases h with
  | scalar heq hlist hobject hscalar h => exact .scalar (hs.trans heq) hlist hobject hscalar h
  | opened heq h => exact .opened (hs.trans heq) h
  | closed hp => exact absurd rfl hp

/-- Blanks behind an item do not matter. -/
theorem Walks.behindItem_gap (h : Walks .behindItem (b :: stack) s r) (hg : Gap g) :
    Walks .behindItem (b :: stack) (g ++ s) r := by
  have hs := hg.skipBlanks_append s
  cases h with
  | closed hp heq h => exact .closed hp (hs.trans heq) h
  | next heq hstart h => exact .next (hs.trans heq) hstart h

/-- No value begins with the bracket that closes a list. -/
theorem Walks.skipBlanks_value (h : Walks .value stack s r) :
    ∃ c rest, skipBlanks s = c :: rest ∧ c ≠ ']' := by
  cases h with
  | scalar hs hlist hobject hscalar =>
      refine ⟨_, _, hs, ?_⟩
      rintro rfl
      simp [skipScalar, startsNumber] at hscalar
  | opened hs => exact ⟨_, _, hs, Bracket.opening_ne_closing _⟩
  | closed hp => exact absurd rfl hp

/-- The first item of a bracket needs no look at its first character: neither a value nor a key
begins with a closing bracket. -/
theorem StartsItem.behindOpening (h : StartsItem b stack s r) :
    Walks .behindOpening (b :: stack) s r := by
  obtain ⟨s', hs', h⟩ := h
  cases b with
  | list =>
      cases hs'
      obtain ⟨c, rest, hs, hc⟩ := h.skipBlanks_value
      refine .first hs hc rfl (h.value_congr ?_)
      rw [← hs, skipBlanks_skipBlanks]
  | object =>
      simp only [skipItemStart] at hs'
      have hkey : skipKey (skipBlanks s) = .ok s' := by
        simpa only [skipKey, skipBlanks_skipBlanks] using hs'
      simp only [skipKey] at hs'
      split at hs'
      · cases hs'
      next c rest hs =>
        split at hs'
        next hc =>
          refine .first hs (by rw [hc]; decide) ?_ h
          rw [← hs]
          exact hkey
        · cases hs'

end Compose

/-! ## Values of the grammar -/

section Grammar

variable {ι : Type} {Item : ι → List Char → Prop} {xs : List ι} {stack : List Bracket} {b : Bracket}
  {g s v rest r : List Char}

/-- Behind an item comes the next or the end, and the walk goes on either way. -/
theorem Separated.startsItem (h : Separated Item xs s)
    (hitem : ∀ x ∈ xs, ∀ t rest, Item x t → Follows rest → Walks .behindItem (b :: stack) rest r →
      StartsItem b stack (t ++ rest) r)
    (hend : Walks .behindItem stack rest r) : StartsItem b stack (s ++ b.closing :: rest) r := by
  induction h with
  | one hx =>
      refine hitem _ (by simp) _ _ hx ?_ ?_
      · cases b <;> simp [Follows, Bracket.closing]
      · exact .closed (by simp) (skipBlanks_mark b.isBlank_closing _) hend
  | @more x s xs t hx _ ih =>
      obtain ⟨t', ht', hwalk⟩ := ih fun y hy => hitem y (by simp [hy])
      rw [List.append_assoc, List.cons_append]
      refine hitem _ (by simp) _ _ hx (by simp [Follows]) ?_
      exact .next (skipBlanks_mark (by decide) _) ht' hwalk

/-- A bracket is walked over if each of its items is. -/
theorem Enclosed.walks (h : Enclosed b Item xs s)
    (hitem : ∀ x ∈ xs, ∀ t rest, Item x t → Follows rest → Walks .behindItem (b :: stack) rest r →
      StartsItem b stack (t ++ rest) r)
    (hend : Walks .behindItem stack rest r) : Walks .value stack (s ++ rest) r := by
  cases h with
  | @empty g hg =>
      have hclose : skipBlanks (g ++ b.closing :: rest) = b.closing :: rest := by
        rw [hg.skipBlanks_append, skipBlanks_mark b.isBlank_closing]
      exact .opened (b.skipBlanks_append .nil g rest) (.closed (by simp) hclose hend)
  | @filled _ s hs =>
      exact .opened (b.skipBlanks_append .nil s rest) (hs.startsItem hitem hend).behindOpening

/-- A member of an object is walked over if its value is. -/
theorem MemberText.startsItem {κ : Type} {Key : κ → List Char → Prop} {m : κ × List Char}
    (h : MemberText Key m s) (hkey : ∀ body, Key m.1 body → IsStringBody body)
    (hvalue : ∀ g, Gap g → Walks .value (.object :: stack) (m.2 ++ (g ++ rest)) r) :
    StartsItem .object stack (s ++ rest) r := by
  obtain ⟨body, g, g', g'', hbody, hg, hg', hg'', hquote⟩ := h.skipBlanks_append
  refine ⟨g' ++ (m.2 ++ (g'' ++ rest)), ?_, ?_⟩
  · simp only [skipItemStart, skipKey, hquote, if_pos]
    exact bind_eq_ok.mpr ⟨_, (hkey body hbody).skipText_append _, readColon_append hg _⟩
  · exact (hvalue g'' hg'').value_congr (hg'.skipBlanks_append _)

/-- A value of the grammar is walked over, to any depth. -/
theorem IsValue.walks (hv : IsValue v) : ∀ {stack : List Bracket} {rest : List Char},
    Follows rest → Walks .behindItem stack rest r → Walks .value stack (v ++ rest) r := by
  induction hv with
  | nullWord =>
      intro stack rest _ hend
      exact .scalar (skipBlanks_mark (c := 'n') (by decide) _) (by decide) (by decide)
        (finishWord_append ['u', 'l', 'l'] rest) hend
  | trueWord =>
      intro stack rest _ hend
      exact .scalar (skipBlanks_mark (c := 't') (by decide) _) (by decide) (by decide)
        (finishWord_append ['r', 'u', 'e'] rest) hend
  | falseWord =>
      intro stack rest _ hend
      exact .scalar (skipBlanks_mark (c := 'f') (by decide) _) (by decide) (by decide)
        (finishWord_append ['a', 'l', 's', 'e'] rest) hend
  | @string body hbody =>
      intro stack rest _ hend
      have hquote : skipBlanks (inQuotes body ++ rest) = '"' :: (body ++ '"' :: rest) :=
        Gap.skipBlanks_inQuotes .nil body rest
      exact .scalar hquote (by decide) (by decide) (hbody.skipText_append rest) hend
  | @number s hs =>
      intro stack rest hrest hend
      obtain ⟨c, s', rfl, hc⟩ := hs.exists_cons
      obtain ⟨t, ht⟩ := NumberText.scan_number (f := .badNumber) hs hrest
      have hscalar : skipScalar c (s' ++ rest) = .ok rest := by
        rw [skipScalar_number hc]
        exact map_eq_ok.mpr ⟨_, ht, rfl⟩
      exact .scalar (skipBlanks_mark (isBlank_of_startsNumber hc) _) (ne_of_startsNumber hc rfl)
        (ne_of_startsNumber hc rfl) hscalar hend
  | @list items s hs _ ih =>
      intro stack rest _ hend
      refine hs.walks (b := .list) (fun x hx t rest ht hrest hwalk => ?_) hend
      obtain ⟨g, g', hg, hg', rfl⟩ := ht
      refine ⟨_, rfl, ?_⟩
      have hv := ih x hx (hg'.follows hrest) (hwalk.behindItem_gap hg')
      refine hv.value_congr ?_
      simp only [List.append_assoc, hg.skipBlanks_append]
  | @object members s hs _ ih =>
      intro stack rest _ hend
      refine hs.walks (b := .object) (fun m hm t rest ht hrest hwalk => ?_) hend
      exact ht.startsItem (fun _ h => h) fun g hg =>
        ih m hm (hg.follows hrest) (hwalk.behindItem_gap hg)

/-- A value begins with a mark that closes no list. -/
theorem IsValue.exists_cons (hv : IsValue v) :
    ∃ c v', v = c :: v' ∧ isBlank c = false ∧ c ≠ ']' := by
  cases hv with
  | nullWord => exact ⟨'n', _, rfl, by decide, by decide⟩
  | trueWord => exact ⟨'t', _, rfl, by decide, by decide⟩
  | falseWord => exact ⟨'f', _, rfl, by decide, by decide⟩
  | string => exact ⟨'"', _, rfl, by decide, by decide⟩
  | number hs =>
      obtain ⟨c, s', rfl, hc⟩ := hs.exists_cons
      exact ⟨c, s', rfl, isBlank_of_startsNumber hc, ne_of_startsNumber hc rfl⟩
  | list hs => cases hs <;> exact ⟨'[', _, rfl, by decide, by decide⟩
  | object hs => cases hs <;> exact ⟨'\x7b', _, rfl, by decide, by decide⟩

/-- A value of the grammar is passed over whole. -/
theorem IsValue.skipValue_append (hv : IsValue v) (hg : Gap g) (hrest : Follows rest) :
    skipValue (g ++ (v ++ rest)) = .ok rest :=
  skipValue_eq_ok_iff.mpr ((hv.walks hrest .done).value_congr (hg.skipBlanks_append _))

end Grammar

end CycleBridge.Json
