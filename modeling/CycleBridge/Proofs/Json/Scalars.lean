import CycleBridge.Proofs.Json.Grammar
import Mathlib.Data.List.TakeDrop

/-!
# Strings and numbers off the front of a text

Strings and numbers of the grammar are taken off whole, a string whatever stands behind it and a
number before whatever can stand behind a value. In the other direction, what is read or passed over
as a string is one of the grammar, so a string that is read is passed over up to the same place. A
number ends where it ends whatever fault is asked for, and takes something off the text.
-/

namespace CycleBridge.Json

/-! ## Steps that can fail -/

section Steps

variable {α β : Type} {x : Except Fault α} {b : β}

theorem bind_eq_ok {f : α → Except Fault β} :
    x >>= f = .ok b ↔ ∃ a, x = .ok a ∧ f a = .ok b := by
  cases x <;> simp [bind, Except.bind]

theorem map_eq_ok {f : α → β} : x.map f = .ok b ↔ ∃ a, x = .ok a ∧ f a = b := by
  cases x <;> simp [Except.map]

end Steps

/-! ## Words and colons -/

section Words

variable {w s r : List Char}

theorem length_le_of_finishWord (h : finishWord w s = .ok r) : r.length ≤ s.length := by
  induction w generalizing s with
  | nil =>
      cases h
      exact Nat.le_refl _
  | cons c w ih =>
      cases s with
      | nil => simp [finishWord] at h
      | cons d s =>
          simp only [finishWord] at h
          split at h
          · have := ih h
            simp only [List.length_cons]
            omega
          · cases h

theorem readColon_append {g : List Char} (hg : Gap g) (r : List Char) :
    readColon (g ++ ':' :: r) = .ok r := by
  have hs : skipBlanks (g ++ ':' :: r) = ':' :: r := by
    rw [hg.skipBlanks_append, skipBlanks_mark (by decide)]
  simp [readColon, hs]

theorem skipBlanks_of_readColon (h : readColon s = .ok r) : skipBlanks s = ':' :: r := by
  unfold readColon at h
  split at h
  · cases h
  next c rest heq =>
    split at h
    next hc =>
      cases h
      rw [heq, hc]
    · cases h

theorem length_lt_of_skipBlanks {c : Char} (h : skipBlanks s = c :: r) : r.length < s.length := by
  have := length_skipBlanks_le s
  rw [h, List.length_cons] at this
  omega

end Words

/-! ## Strings -/

section Strings

variable {c e : Char} {a b a' b' c' d d' : Char} {n m : Nat} {s t r : List Char}

/-- What spells characters is read as these, up to the closing quote. -/
theorem Spells.readText_append (h : Spells s t) (r : List Char) :
    readText (s ++ '"' :: r) = .ok (t, r) := by
  induction h with
  | nil => rfl
  | plain hc hq hb _ ih =>
      rw [List.cons_append, readText_plain hc hq hb, ih]
      rfl
  | letter he _ ih =>
      rw [List.cons_append, List.cons_append, readText_letter he, ih]
      rfl
  | unit hn hlead htrail _ ih =>
      simp [readText, hn, hlead, htrail, ih, prepend, Except.map]
  | @pair _ _ _ _ _ _ _ _ n _ _ _ hn hlead hm htrail _ ih =>
      -- A leading unit is no trailing one, so the second half is looked for.
      have hnot : isTrailing n = false := by
        simp only [isLeading, isTrailing, decide_eq_true_eq, decide_eq_false_iff_not] at hlead ⊢
        omega
      simp [readText, hn, hlead, hnot, hm, htrail, ih, prepend, Except.map]

theorem prepend_eq_ok {x : Except Fault (List Char × List Char)}
    (h : prepend c x = .ok (t, r)) : ∃ t', x = .ok (t', r) ∧ t = c :: t' := by
  obtain ⟨⟨t', r'⟩, hx, heq⟩ := map_eq_ok.mp h
  obtain ⟨rfl, rfl⟩ := Prod.mk.inj heq
  exact ⟨t', hx, rfl⟩

/-- What is read as a string spells what it is read as. -/
theorem spells_of_readText (h : readText s = .ok (t, r)) :
    ∃ body, Spells body t ∧ s = body ++ '"' :: r := by
  induction s using readText.induct generalizing t with
  | case2 s =>
      simp only [readText, Except.ok.injEq, Prod.mk.injEq] at h
      exact ⟨[], by rw [← h.1]; exact .nil, by rw [← h.2]; rfl⟩
  | case7 a b c d n hn hnot hlead a' b' c' d' s m hm htrail ih =>
      simp only [readText, hn, hnot, hlead, hm, htrail] at h
      obtain ⟨t', ht', rfl⟩ := prepend_eq_ok h
      obtain ⟨body, hbody, rfl⟩ := ih ht'
      exact ⟨_, .pair hn hlead hm htrail hbody, rfl⟩
  | case10 a b c d s n hn hnot hlead ih =>
      simp only [readText, hn, hnot, hlead] at h
      obtain ⟨t', ht', rfl⟩ := prepend_eq_ok h
      obtain ⟨body, hbody, rfl⟩ := ih ht'
      exact ⟨_, .unit hn (by simpa using hlead) (by simpa using hnot) hbody, rfl⟩
  | case11 e s _ c hc ih =>
      rw [readText_letter hc] at h
      obtain ⟨t', ht', rfl⟩ := prepend_eq_ok h
      obtain ⟨body, hbody, rfl⟩ := ih ht'
      exact ⟨_, .letter hc hbody, rfl⟩
  | case14 c s hq hend _ hesc hc ih =>
      have hb : c ≠ '\\' := by
        rintro rfl
        cases s with
        | nil => exact hend rfl rfl
        | cons e s => exact hesc e s rfl rfl
      rw [readText_plain (by simpa using hc) hq hb] at h
      obtain ⟨t', ht', rfl⟩ := prepend_eq_ok h
      obtain ⟨body, hbody, rfl⟩ := ih ht'
      exact ⟨_, .plain (by simpa using hc) hq hb hbody, rfl⟩
  | case1 | case3 => simp [readText] at h
  | _ => simp_all [readText]

/-- A string that is passed over is passed over up to its closing quote. -/
theorem IsStringBody.skipText_append (h : IsStringBody s) (r : List Char) :
    skipText (s ++ '"' :: r) = .ok r := by
  induction h with
  | nil => rfl
  | plain hc hq hb _ ih => rw [List.cons_append, skipText_plain hc hq hb, ih]
  | letter he _ ih => rw [List.cons_append, List.cons_append, skipText_letter he, ih]
  | unit hn _ ih => simp [skipText, hn, ih]

/-- A string that is read is passed over up to the same place. -/
theorem skipText_of_readText (h : readText s = .ok (t, r)) : skipText s = .ok r := by
  obtain ⟨body, hbody, rfl⟩ := spells_of_readText h
  exact hbody.isStringBody.skipText_append r

/-- Passing over a string takes its closing quote off the text at least. -/
theorem length_lt_of_skipText (h : skipText s = .ok r) : r.length < s.length := by
  induction s using skipText.induct with
  | case2 s =>
      simp only [skipText, Except.ok.injEq] at h
      simp [h]
  | case4 a b c d s hn ih =>
      simp only [skipText, hn] at h
      have := ih h
      simp only [List.length_cons]
      omega
  | case6 e s _ he ih =>
      rw [skipText_letter he] at h
      have := ih h
      simp only [List.length_cons]
      omega
  | case9 c s hq hend hu hesc hc ih =>
      rw [skipText.eq_6 c s hq hend hu hesc, if_neg hc] at h
      have := ih h
      simp only [List.length_cons]
      omega
  | case1 | case3 => simp [skipText] at h
  | _ => simp_all [skipText]

end Strings

/-! ## Numbers -/

/-- No digit comes next. -/
def NoDigit (s : List Char) : Prop := ∀ c ∈ s.head?, c.isDigit = false

/-- What can stand behind a value goes on with no number. -/
theorem Follows.not_number {s : List Char} (h : Follows s) :
    ∀ c ∈ s.head?, c.isDigit = false ∧ c ≠ '.' ∧ c ≠ 'e' ∧ c ≠ 'E' := by
  cases s with
  | nil => simp
  | cons c s =>
      intro d hd
      obtain rfl : c = d := by simpa using hd
      rcases h with hblank | rfl | rfl | rfl
      · simp only [isBlank, Bool.or_eq_true, decide_eq_true_eq] at hblank
        rcases hblank with ((rfl | rfl) | rfl) | rfl <;> decide
      all_goals decide

theorem IsDigits.exists_cons {s : List Char} (h : IsDigits s) :
    ∃ c s', s = c :: s' ∧ c.isDigit = true := by
  obtain ⟨hne, hall⟩ := h
  cases s with
  | nil => exact absurd rfl hne
  | cons c s => exact ⟨c, s, rfl, hall c (by simp)⟩

namespace NumberText

variable {f k : Fault} {s d r rest : List Char}

theorem scanDigits_append (hd : IsDigits d) (hrest : NoDigit rest) :
    scanDigits f (d ++ rest) = .ok (d, rest) := by
  obtain ⟨hne, hdigits⟩ := hd
  have hspan : (d ++ rest).span Char.isDigit = (d, rest) := by
    rw [List.span_eq_takeWhile_dropWhile]
    have htake : rest.takeWhile Char.isDigit = [] := by
      cases rest with
      | nil => rfl
      | cons c rest => simp [hrest c (by simp)]
    have hdrop : rest.dropWhile Char.isDigit = rest := by
      cases rest with
      | nil => rfl
      | cons c rest => simp [hrest c (by simp)]
    rw [List.takeWhile_append_of_pos hdigits, List.dropWhile_append_of_pos hdigits, htake, hdrop,
      List.append_nil]
  cases d with
  | nil => exact absurd rfl hne
  | cons c d =>
      rw [List.cons_append, scanDigits, if_pos (hdigits c (by simp)), ← List.cons_append, hspan]

theorem scanWhole_append (hd : IsWhole d) (hrest : NoDigit rest) :
    scanWhole f (d ++ rest) = .ok (d, rest) := by
  obtain ⟨hdigits, hzero⟩ := hd
  obtain ⟨c, d, rfl, -⟩ := hdigits.exists_cons
  by_cases hc : c = '0'
  · subst hc
    obtain rfl : d = [] := by simpa using hzero
    have hnot : rest.head?.any Char.isDigit = false := by
      cases rest with
      | nil => rfl
      | cons c rest => simpa using hrest c (by simp)
    simp [scanWhole, hnot]
  · rw [List.cons_append, scanWhole.eq_2 f _ (by simp [hc]), ← List.cons_append,
      scanDigits_append hdigits hrest]

theorem scanFraction_append (hd : IsFraction s) (hrest : NoDigit rest)
    (hpoint : ∀ c ∈ rest.head?, c ≠ '.') :
    ∃ d, scanFraction f (s ++ rest) = .ok (d, rest) ∧ (s = [] → d = []) := by
  rcases hd with rfl | ⟨d, hd, rfl⟩
  · refine ⟨[], ?_, fun _ => rfl⟩
    cases rest with
    | nil => rfl
    | cons c rest =>
        have hc : c ≠ '.' := hpoint c (by simp)
        simp [scanFraction, hc]
  · exact ⟨d, scanDigits_append hd hrest, by simp⟩

theorem scanExponent_append (he : IsExponent s) (hrest : NoDigit rest)
    (hsign : ∀ c ∈ rest.head?, c ≠ 'e' ∧ c ≠ 'E') :
    ∃ e, scanExponent f (s ++ rest) = .ok (e, rest) ∧ (s = [] → e = none) := by
  rcases he with rfl | ⟨e, sign, d, he, hs, hd, rfl⟩
  · refine ⟨none, ?_, fun _ => rfl⟩
    cases rest with
    | nil => rfl
    | cons c rest =>
        have hc := hsign c (by simp)
        simp [scanExponent, hc.1, hc.2]
  · have hdigits : scanDigits f (d ++ rest) = .ok (d, rest) := scanDigits_append hd hrest
    rcases hs with rfl | rfl | rfl
    · obtain ⟨c, d, rfl, hc⟩ := hd.exists_cons
      have hplus : c ≠ '+' := by rintro rfl; revert hc; decide
      have hminus : c ≠ '-' := by rintro rfl; revert hc; decide
      refine ⟨some (false, c :: d), ?_, by simp⟩
      simp only [List.nil_append, List.cons_append, scanExponent, if_pos he] at hdigits ⊢
      split
      · simp_all
      · simp_all
      · simp [hdigits, bind, Except.bind, pure, Except.pure]
    · refine ⟨some (false, d), ?_, by simp⟩
      simp [scanExponent, he, hdigits, bind, Except.bind, pure, Except.pure]
    · refine ⟨some (true, d), ?_, by simp⟩
      simp [scanExponent, he, hdigits, bind, Except.bind, pure, Except.pure]

/-- What is behind the sign of a number is taken off part by part. -/
theorem scan_append {w fr ex : List Char} (hw : IsWhole w) (hf : IsFraction fr) (he : IsExponent ex)
    (hrest : Follows rest) :
    ∃ d e, (fr = [] → d = []) ∧ (ex = [] → e = none) ∧
      scan f (w ++ (fr ++ (ex ++ rest))) = .ok (⟨false, w, d, e⟩, rest) ∧
      scan f ('-' :: (w ++ (fr ++ (ex ++ rest)))) = .ok (⟨true, w, d, e⟩, rest) := by
  have hend := hrest.not_number
  have hdigit₀ : NoDigit rest := fun c hc => (hend c hc).1
  have hdigit₁ : NoDigit (ex ++ rest) := by
    rcases he with rfl | ⟨e, sign, d, rfl | rfl, -, -, rfl⟩
    · exact hdigit₀
    all_goals simp [NoDigit]
  have hpoint : ∀ c ∈ (ex ++ rest).head?, c ≠ '.' := by
    rcases he with rfl | ⟨e, sign, d, rfl | rfl, -, -, rfl⟩
    · exact fun c hc => (hend c hc).2.1
    all_goals simp
  have hdigit₂ : NoDigit (fr ++ (ex ++ rest)) := by
    rcases hf with rfl | ⟨d, -, rfl⟩
    · exact hdigit₁
    · simp [NoDigit]
  obtain ⟨d, hd, hdnil⟩ := scanFraction_append (f := f) hf hdigit₁ hpoint
  obtain ⟨e, he', henil⟩ := scanExponent_append (f := f) he hdigit₀ fun c hc => (hend c hc).2.2
  have hwhole := scanWhole_append (f := f) hw hdigit₂
  refine ⟨d, e, hdnil, henil, ?_, ?_⟩
  · have hminus : ∀ s, w ++ (fr ++ (ex ++ rest)) ≠ '-' :: s := by
      obtain ⟨c, w, rfl, hc⟩ := hw.1.exists_cons
      intro s hs
      obtain ⟨rfl, -⟩ := List.cons.inj hs
      revert hc
      decide
    unfold scan
    split
    next negative s heq =>
      split at heq
      next h => exact absurd h (hminus _)
      next =>
        cases heq
        simp only [hwhole, hd, he', bind, Except.bind, pure, Except.pure]
  · simp only [scan, hwhole, hd, he', bind, Except.bind, pure, Except.pure]

/-- A number of the grammar is taken off whole. -/
theorem scan_number (hs : IsNumber s) (hrest : Follows rest) :
    ∃ t, scan f (s ++ rest) = .ok (t, rest) := by
  obtain ⟨sign, w, fr, ex, hsign, hw, hf, he, rfl⟩ := hs
  obtain ⟨d, e, -, -, hplain, hminus⟩ := scan_append (f := f) hw hf he hrest
  rcases hsign with rfl | rfl
  · exact ⟨_, by simpa using hplain⟩
  · exact ⟨_, by simpa using hminus⟩

/-- A whole number without a sign is taken off as its digits. -/
theorem scan_whole (hs : IsWhole s) (hrest : Follows rest) :
    scan f (s ++ rest) = .ok (⟨false, s, [], none⟩, rest) := by
  obtain ⟨d, e, hd, he, hplain, -⟩ := scan_append (f := f) hs (.inl rfl) (.inl rfl) hrest
  rw [hd rfl, he rfl] at hplain
  exact hplain

/-! Whatever fault is asked for, a scan that succeeds ends at the same place. -/

theorem scanDigits_ok (h : scanDigits f s = .ok (d, r)) :
    scanDigits k s = .ok (d, r) ∧ r.length < s.length := by
  cases s with
  | nil => simp [scanDigits] at h
  | cons c s =>
      by_cases hc : c.isDigit = true
      · rw [scanDigits, if_pos hc] at h ⊢
        refine ⟨h, ?_⟩
        have hr : r = s.dropWhile Char.isDigit := by
          rw [List.span_eq_takeWhile_dropWhile, List.dropWhile_cons_of_pos hc] at h
          cases h
          rfl
        have hle := (List.dropWhile_sublist (l := s) Char.isDigit).length_le
        rw [hr, List.length_cons]
        omega
      · rw [scanDigits, if_neg hc] at h
        cases h

theorem scanWhole_ok (h : scanWhole f s = .ok (d, r)) :
    scanWhole k s = .ok (d, r) ∧ r.length < s.length := by
  unfold scanWhole at h ⊢
  split at h
  · split at h
    · cases h
    · cases h
      simp_all
  · exact scanDigits_ok h

theorem scanFraction_ok (h : scanFraction f s = .ok (d, r)) :
    scanFraction k s = .ok (d, r) ∧ r.length ≤ s.length := by
  unfold scanFraction at h ⊢
  split at h
  next s =>
    obtain ⟨hd, hlt⟩ := scanDigits_ok (k := k) h
    refine ⟨hd, ?_⟩
    rw [List.length_cons]
    omega
  next =>
    cases h
    exact ⟨rfl, Nat.le_refl _⟩

theorem scanExponent_ok {e : Option (Bool × List Char)} (h : scanExponent f s = .ok (e, r)) :
    scanExponent k s = .ok (e, r) ∧ r.length ≤ s.length := by
  cases s with
  | nil =>
      cases h
      exact ⟨rfl, Nat.le_refl _⟩
  | cons c s =>
      by_cases hc : c = 'e' ∨ c = 'E'
      · simp only [scanExponent, if_pos hc] at h ⊢
        split at h
        all_goals
          obtain ⟨⟨d, r'⟩, hd, heq⟩ := bind_eq_ok.mp h
          cases heq
          obtain ⟨hd', hlt⟩ := scanDigits_ok (k := k) hd
          refine ⟨bind_eq_ok.mpr ⟨_, hd', rfl⟩, ?_⟩
          simp only [List.length_cons] at hlt ⊢
          omega
      · simp only [scanExponent, if_neg hc] at h ⊢
        cases h
        exact ⟨rfl, Nat.le_refl _⟩

theorem scan_ok {t : NumberText} (h : scan f s = .ok (t, r)) :
    scan k s = .ok (t, r) ∧ r.length < s.length := by
  unfold scan at h ⊢
  split
  next negative s' heq =>
    rw [heq] at h
    obtain ⟨⟨w, s₁⟩, hw, h⟩ := bind_eq_ok.mp h
    obtain ⟨⟨d, s₂⟩, hd, h⟩ := bind_eq_ok.mp h
    obtain ⟨⟨e, s₃⟩, he, h⟩ := bind_eq_ok.mp h
    cases h
    obtain ⟨hw', hlt⟩ := scanWhole_ok (k := k) hw
    obtain ⟨hd', hle₁⟩ := scanFraction_ok (k := k) hd
    obtain ⟨he', hle₂⟩ := scanExponent_ok (k := k) he
    have hle : s'.length ≤ s.length := by
      split at heq
      all_goals
        cases heq
        simp
    refine ⟨?_, by omega⟩
    simp only [hw', hd', he', bind, Except.bind, pure, Except.pure]

end NumberText

section Numbers

variable {c : Char} {s : List Char}

theorem isBlank_of_startsNumber (h : startsNumber c = true) : isBlank c = false := by
  by_contra hblank
  simp only [Bool.not_eq_false, isBlank, Bool.or_eq_true, decide_eq_true_eq] at hblank
  rcases hblank with ((rfl | rfl) | rfl) | rfl <;> revert h <;> decide

theorem ne_of_startsNumber {d : Char} (h : startsNumber c = true) (hd : startsNumber d = false) :
    c ≠ d := by
  rintro rfl
  rw [h] at hd
  cases hd

theorem IsNumber.exists_cons (h : IsNumber s) : ∃ c s', s = c :: s' ∧ startsNumber c = true := by
  obtain ⟨sign, w, f, e, hsign, ⟨hw, -⟩, -, -, rfl⟩ := h
  obtain ⟨c, w', rfl, hc⟩ := hw.exists_cons
  rcases hsign with rfl | rfl
  · exact ⟨c, w' ++ f ++ e, by simp, by simp [startsNumber, hc]⟩
  · exact ⟨'-', c :: w' ++ f ++ e, by simp, by decide⟩

/-- Where a number begins, nothing else does. -/
theorem skipScalar_number (hc : startsNumber c = true) (s : List Char) :
    skipScalar c s = (NumberText.scan .badNumber (c :: s)).map (·.2) := by
  rw [skipScalar, if_neg (ne_of_startsNumber hc rfl), if_neg (ne_of_startsNumber hc rfl),
    if_neg (ne_of_startsNumber hc rfl), if_neg (ne_of_startsNumber hc rfl), if_pos hc]

end Numbers

end CycleBridge.Json
