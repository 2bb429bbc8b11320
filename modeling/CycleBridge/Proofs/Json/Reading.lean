import CycleBridge.Proofs.Json.Records

/-!
# Reading what a text states

A form that implements the places of a record reads every text that states a record as that record,
and it reads no object that has a key of the record twice. Both go along the members of an object,
or the elements of a list, one at a time. For the first the invariant is that a place that does not
hold its final value yet is still to come in the text. For the second, each reader ends where its
value ends, so the next key is looked at where the grammar has it.
-/

namespace CycleBridge.Json

variable {α : Type}

/-! ## One member and one element -/

section Steps

variable {form : Form α} {s v rest : List Char}

/-- Behind the first of several items comes a comma with the second. -/
theorem lead_append (isFirst : Bool) (s t rest : List Char) :
    lead isFirst (s ++ ',' :: t) ++ rest = lead isFirst s ++ (lead false t ++ rest) := by
  cases isFirst <;> simp [lead]

theorem nextKey_gap {g : List Char} (hg : Gap g) (isFirst : Bool) (s : List Char) :
    nextKey isFirst (g ++ s) = nextKey isFirst s := by
  simp only [nextKey, hg.skipBlanks_append]

theorem Form.nextElement_gap {g : List Char} (hg : Gap g) (isFirst : Bool) (s : List Char) :
    nextElement isFirst (g ++ s) = nextElement isFirst s := by
  simp only [nextElement, hg.skipBlanks_append]

theorem Form.readMembers_gap {g : List Char} (hg : Gap g) (n : Nat) (seen : List String)
    (isFirst : Bool) (a : α) (s : List Char) :
    form.readMembers n seen isFirst a (g ++ s) = form.readMembers n seen isFirst a s := by
  cases n with
  | zero => rfl
  | succ n => simp only [readMembers, nextKey_gap hg]

theorem Form.readElements_gap {g : List Char} (hg : Gap g) (fields : List (Field α))
    (isFirst : Bool) (a : α) (s : List Char) :
    readElements fields isFirst a (g ++ s) = readElements fields isFirst a s := by
  cases fields with
  | nil => simp only [readElements, finishList, hg.skipBlanks_append]
  | cons f fields => simp only [readElements, nextElement_gap hg]

theorem nextKey_closing (isFirst : Bool) (rest : List Char) :
    nextKey isFirst ('\x7d' :: rest) = .ok (false, rest) := by
  simp [nextKey, skipBlanks_mark (c := '\x7d') (by decide)]

/-- An element is found at its first character, whether a comma comes before it or not. -/
theorem Form.nextElement_lead (hv : IsValue v) (hs : Spaced v s) (isFirst : Bool)
    (rest : List Char) :
    ∃ g, Gap g ∧ nextElement isFirst (lead isFirst s ++ rest) = .ok (true, v ++ (g ++ rest)) := by
  obtain ⟨c, v', rfl, hblank, hc⟩ := hv.exists_cons
  obtain ⟨g, g', hg, hg', rfl⟩ := hs
  have hskip : skipBlanks (g ++ c :: v' ++ g' ++ rest) = c :: (v' ++ (g' ++ rest)) := by
    simp only [List.append_assoc, List.cons_append, hg.skipBlanks_append, skipBlanks_mark hblank]
  refine ⟨g', hg', ?_⟩
  cases isFirst with
  | true => simp only [lead, if_pos, nextElement, hskip, if_neg hc, List.cons_append]
  | false =>
      have hcomma : skipBlanks (lead false (g ++ c :: v' ++ g') ++ rest) =
          ',' :: (g ++ c :: v' ++ g' ++ rest) := skipBlanks_mark (by decide) _
      have hne : ',' ≠ ']' := by decide
      simp only [nextElement, hcomma, hskip, if_neg hc, if_neg hne, if_pos, Bool.false_eq_true,
        if_false, List.cons_append]

end Steps

/-! ## Records are read -/

section Reads

variable {slots : List (Slot α)} {form : Form α} {c : α} {members : List (String × List Char)}
  {items : List (List Char)} {s v rest : List Char}

/-- How far an object has been read on the way to a record: no key that was seen comes again, and a
place that is not right yet comes still. -/
structure Pending (slots : List (Slot α)) (c : α) (members : List (String × List Char))
    (seen : List String) (a : α) : Prop where
  unseen : ∀ p ∈ slots, p.key ∈ seen → p.key ∉ members.map (·.1)
  toCome : ∀ p ∈ slots, p.get a = p.get c ∨ p.key ∈ members.map (·.1)

theorem Pending.known {m : String × List Char} {seen : List String} {a : α} {p : Slot α}
    (h : Pending slots c (m :: members) seen a) (hplaces : Places slots)
    (hfits : Fits slots (m :: members)) (hp : p ∈ slots) (hkey : p.key = m.1) :
    Pending slots c members (m.1 :: seen) (p.set a (p.get c)) where
  unseen := by
    intro q hq hseen hmem
    rcases List.mem_cons.mp hseen with heq | hseen
    · have honce := hfits.once q hq
      have hpos : 0 < (members.map (·.1)).count q.key := List.count_pos_iff.mpr hmem
      rw [List.map_cons, heq, List.count_cons_self] at honce
      rw [heq] at hpos
      omega
    · exact h.unseen q hq hseen (by simp [hmem])
  toCome := by
    intro q hq
    rcases h.toCome q hq with hget | hmem
    · exact .inl (hplaces.get_set_eq hp hq (.inr hget))
    · rw [List.map_cons, List.mem_cons] at hmem
      rcases hmem with heq | hmem
      · have hpq : p = q := hplaces.eq_of_key hp hq (by rw [hkey, heq])
        exact .inl (hplaces.get_set_eq hp hq (.inl hpq))
      · exact .inr hmem

theorem Pending.unknown {m : String × List Char} {seen : List String} {a : α}
    (h : Pending slots c (m :: members) seen a) (hkey : m.1 ∉ slots.map (·.key)) :
    Pending slots c members seen a where
  unseen p hp hseen hmem := h.unseen p hp hseen (by simp [hmem])
  toCome := by
    intro p hp
    have hne : p.key ≠ m.1 := fun heq => hkey (heq ▸ List.mem_map_of_mem hp)
    simpa [hne] using h.toCome p hp

theorem Fits.tail {m : String × List Char} (h : Fits slots (m :: members)) :
    Fits slots members where
  once p hp := Nat.le_trans (List.count_le_count_cons ..) (h.once p hp)
  values m' hm' := h.values m' (by simp [hm'])

/-- Reading a member brings the reader one member further on the way to a record. -/
theorem Form.Implements.readMembers_cons (h : form.Implements slots) {m : String × List Char}
    (hm : MemberText Named m s) (hfits : Fits slots (m :: members))
    (hsaid : ∀ p ∈ slots, p.key = m.1 → p.Means m.2 (p.get c)) {u : List Char} (hu : Follows u)
    (htail : ∀ n seen a, members.length < n → Pending slots c members seen a →
      form.readMembers n seen false a u = .ok (c, rest))
    {n : Nat} {seen : List String} {isFirst : Bool} {a : α} (hn : (m :: members).length < n)
    (hpending : Pending slots c (m :: members) seen a) :
    form.readMembers n seen isFirst a (lead isFirst s ++ u) = .ok (c, rest) := by
  obtain ⟨n, rfl⟩ : ∃ k, n = k + 1 := ⟨n - 1, by omega⟩
  have hn' : members.length < n := by
    rw [List.length_cons] at hn
    omega
  obtain ⟨body, after, g, g', hbody, hg, hg', hkey, hcolon⟩ := hm.nextKey_lead isFirst u
  have hname := Named.readString_append hbody after
  rw [readMembers]
  refine bind_eq_ok.mpr ⟨_, hkey, ?_⟩
  by_cases hknown : m.1 ∈ slots.map (·.key)
  · obtain ⟨p, hp, hpkey⟩ := List.mem_map.mp hknown
    obtain ⟨f, -, hfield, hf⟩ := h.field?_eq hp
    have hseen : m.1 ∉ seen := fun hmem => hpending.unseen p hp (hpkey ▸ hmem) (by simp [hpkey])
    have hread := hf.reads a (hsaid p hp hpkey) hg (hg'.follows hu)
    have hmember : form.readMember seen a (body ++ '"' :: after) =
        .ok (p.set a (p.get c), m.1 :: seen, g' ++ u) := by
      rw [readMember]
      refine bind_eq_ok.mpr ⟨_, hname, ?_⟩
      rw [hpkey] at hfield
      simp [hfield, hseen, hcolon, hread, bind, Except.bind, pure, Except.pure]
    refine bind_eq_ok.mpr ⟨_, hmember, ?_⟩
    exact (readMembers_gap hg' ..).trans
      (htail n _ _ hn' (hpending.known h.toPlaces hfits hp hpkey))
  · have hskip := (hfits.values m (by simp) hknown).skipValue_append hg (hg'.follows hu)
    have hmember : form.readMember seen a (body ++ '"' :: after) = .ok (a, seen, g' ++ u) := by
      rw [readMember]
      refine bind_eq_ok.mpr ⟨_, hname, ?_⟩
      simp [h.field?_eq_none hknown, hcolon, hskip, bind, Except.bind, pure, Except.pure]
    refine bind_eq_ok.mpr ⟨_, hmember, ?_⟩
    exact (readMembers_gap hg' ..).trans (htail n _ _ hn' (hpending.unknown hknown))

/-- All members of an object are read, and the record is complete at its end. -/
theorem Form.Implements.readMembers_append (h : form.Implements slots)
    (hs : Separated (MemberText Named) members s) (hfits : Fits slots members)
    (hsaid : ∀ m ∈ members, ∀ p ∈ slots, p.key = m.1 → p.Means m.2 (p.get c))
    (isFirst : Bool) {n : Nat} {seen : List String} {a : α} (hn : members.length < n)
    (hpending : Pending slots c members seen a) :
    form.readMembers n seen isFirst a (lead isFirst s ++ '\x7d' :: rest) = .ok (c, rest) := by
  have hend : ∀ n seen a, ([] : List (String × List Char)).length < n → Pending slots c [] seen a →
      form.readMembers n seen false a ('\x7d' :: rest) = .ok (c, rest) := by
    intro n seen a hn hpending
    obtain ⟨n, rfl⟩ : ∃ k, n = k + 1 := ⟨n - 1, by simp only [List.length_nil] at hn; omega⟩
    have hac : a = c := h.ext a c fun p hp => by simpa using hpending.toCome p hp
    rw [readMembers]
    refine bind_eq_ok.mpr ⟨_, nextKey_closing false rest, ?_⟩
    simp [hac, pure, Except.pure]
  induction hs generalizing n seen isFirst a with
  | one hm =>
      exact h.readMembers_cons hm hfits (hsaid _ (by simp)) (by simp [Follows]) hend hn hpending
  | @more m s members t hm _ ih =>
      rw [lead_append]
      refine h.readMembers_cons hm hfits (hsaid _ (by simp)) (by simp [lead, Follows]) ?_ hn
        hpending
      intro n seen a hn hpending
      exact ih hfits.tail (fun m' hm' => hsaid m' (by simp [hm'])) false hn hpending

/-- Reading an element brings the reader one place further on the way to a record. -/
theorem Form.readElements_cons {p : Slot α} {f : Field α} {fields : List (Field α)} (hf : Fills p f)
    (hs : Spaced v s) (hsaid : p.Means v (p.get c)) {u : List Char} (hu : Follows u) (a : α)
    (htail : readElements fields false (p.set a (p.get c)) u = .ok (c, rest)) (isFirst : Bool) :
    readElements (f :: fields) isFirst a (lead isFirst s ++ u) = .ok (c, rest) := by
  obtain ⟨g, hg, hnext⟩ := nextElement_lead (hf.isValue hsaid) hs isFirst u
  have hread := hf.reads a hsaid Gap.nil (hg.follows hu)
  rw [readElements]
  refine bind_eq_ok.mpr ⟨_, hnext, ?_⟩
  refine bind_eq_ok.mpr ⟨_, hread, ?_⟩
  exact (readElements_gap hg ..).trans htail

theorem Form.readElements_closing (fields : List (Field α)) (isFirst : Bool) (a : α)
    (rest : List Char) : readElements fields isFirst a (']' :: rest) = .ok (a, rest) := by
  have hs : skipBlanks (']' :: rest) = ']' :: rest := skipBlanks_mark (by decide) _
  cases fields with
  | nil => simp [readElements, finishList, hs, bind, Except.bind, pure, Except.pure]
  | cons f fields => simp [readElements, nextElement, hs, bind, Except.bind, pure, Except.pure]

/-- All elements of a list are read, and the record is complete at its end. The places that are to
come are a part of all places. -/
theorem Form.readElements_append (h : Places slots) {slots' : List (Slot α)}
    {fields : List (Field α)} (hfields : List.Forall₂ Fills slots' fields) (hsub : slots' ⊆ slots)
    (hs : Separated Spaced items s) (hlen : items.length ≤ slots'.length)
    (hsaid : ∀ x ∈ slots'.zip items, x.1.Means x.2 (x.1.get c)) (isFirst : Bool) {a : α}
    (htoCome : ∀ p ∈ slots, p.get a = p.get c ∨ p ∈ slots'.take items.length) :
    readElements fields isFirst a (lead isFirst s ++ ']' :: rest) = .ok (c, rest) := by
  induction hs generalizing slots' fields isFirst a with
  | @one v s hv =>
      cases hfields with
      | nil => simp at hlen
      | @cons p f slots' fields hf _ =>
          have hall : ∀ q ∈ slots, q.get (p.set a (p.get c)) = q.get c := by
            intro q hq
            refine h.get_set_eq (hsub (by simp)) hq ?_
            simpa [or_comm, eq_comm] using htoCome q hq
          refine readElements_cons hf hv (hsaid (p, v) (by simp)) (by simp [Follows]) a ?_ isFirst
          rw [readElements_closing, h.ext _ _ hall]
  | @more v s items t hv _ ih =>
      cases hfields with
      | nil => simp at hlen
      | @cons p f slots' fields hf hfields =>
          have hsub' : slots' ⊆ slots := fun q hq => hsub (by simp [hq])
          rw [lead_append]
          refine readElements_cons hf hv (hsaid (p, v) (by simp)) (by simp [lead, Follows]) a ?_
            isFirst
          refine ih hfields hsub' (by simpa using hlen) (fun x hx => hsaid x (by simp [hx])) false ?_
          intro q hq
          have hcases : q.get a = q.get c ∨ q = p ∨ q ∈ slots'.take items.length := by
            simpa using htoCome q hq
          rcases hcases with hget | rfl | hmem
          · exact .inl (h.get_set_eq (hsub (by simp)) hq (.inr hget))
          · exact .inl (h.get_set_eq hq hq (.inl rfl))
          · exact .inr hmem

/-! What is said about a place is found under its key. -/

theorem lookup_of_mem {m : String × List Char} (hm : m ∈ members)
    (honce : (members.map (·.1)).count m.1 ≤ 1) : members.lookup m.1 = some m.2 := by
  induction members with
  | nil => cases hm
  | cons m' members ih =>
      rcases List.mem_cons.mp hm with rfl | hmem
      · exact List.lookup_cons_self
      · obtain ⟨key, w⟩ := m'
        rw [List.map_cons, List.count_cons] at honce
        have hpos : 0 < (members.map (·.1)).count m.1 :=
          List.count_pos_iff.mpr (List.mem_map_of_mem hmem)
        have hne : m.1 ≠ key := by
          intro heq
          rw [heq] at honce hpos
          simp only [beq_self_eq_true, if_pos] at honce
          omega
        simp only [List.lookup_cons, beq_eq_false_iff_ne.mpr hne]
        exact ih hmem (by omega)

theorem lookup_eq_none_of_not_mem {key : String} (h : key ∉ members.map (·.1)) :
    members.lookup key = none := by
  rw [List.lookup_eq_none_iff]
  intro m hm
  simp only [bne_iff_ne, ne_eq]
  rintro rfl
  exact h (List.mem_map_of_mem hm)

theorem mem_of_lookup {key : String} (h : members.lookup key = some v) :
    key ∈ members.map (·.1) := by
  by_contra hmem
  rw [lookup_eq_none_of_not_mem hmem] at h
  cases h

theorem Fits.means (hfits : Fits slots members) {defaults : α}
    (hstates : States slots defaults (fun key => members.lookup key) c)
    {m : String × List Char} (hm : m ∈ members) {p : Slot α} (hp : p ∈ slots)
    (hkey : p.key = m.1) : p.Means m.2 (p.get c) := by
  have honce := hfits.once p hp
  rw [hkey] at honce
  have hsaid := hstates p hp
  rw [hkey] at hsaid
  simpa only [lookup_of_mem hm honce] using hsaid

theorem lookup_positional (hnodup : (slots.map (·.key)).Nodup) {p : Slot α}
    (hp : (p, v) ∈ slots.zip items) : (positional slots items).lookup p.key = some v := by
  induction slots generalizing items with
  | nil => cases hp
  | cons q slots ih =>
      cases items with
      | nil => cases hp
      | cons w items =>
          rw [List.map_cons, List.nodup_cons] at hnodup
          rw [List.zip_cons_cons, List.mem_cons] at hp
          rcases hp with heq | hp
          · cases heq
            simp [positional]
          · have hmem : p.key ∈ slots.map (·.key) := List.mem_map_of_mem (List.of_mem_zip hp).1
            have hne : p.key ≠ q.key := fun heq => hnodup.1 (heq ▸ hmem)
            simp only [positional, List.map_cons, List.zip_cons_cons, List.lookup_cons,
              beq_eq_false_iff_ne.mpr hne]
            exact ih hnodup.2 hp

theorem getElem_mem_zip {β γ : Type _} {xs : List β} {ys : List γ} {i : Nat} (hi : i < xs.length)
    (hi' : i < ys.length) : (xs[i], ys[i]) ∈ xs.zip ys := by
  have hzip : i < (xs.zip ys).length := by
    rw [List.length_zip]
    exact Nat.lt_min.mpr ⟨hi, hi'⟩
  rw [← List.getElem_zip (h := hzip)]
  exact List.getElem_mem hzip

theorem mem_take_of_lookup_positional (hnodup : (slots.map (·.key)).Nodup) {p : Slot α}
    (hp : p ∈ slots) (h : (positional slots items).lookup p.key = some v) :
    p ∈ slots.take items.length := by
  induction slots generalizing items with
  | nil => cases hp
  | cons q slots ih =>
      cases items with
      | nil => simp [positional] at h
      | cons w items =>
          rw [List.map_cons, List.nodup_cons] at hnodup
          rcases List.mem_cons.mp hp with rfl | hp
          · simp
          · have hne : p.key ≠ q.key := fun heq => hnodup.1 (heq ▸ List.mem_map_of_mem hp)
            simp only [positional, List.map_cons, List.zip_cons_cons, List.lookup_cons,
              beq_eq_false_iff_ne.mpr hne] at h
            simp [ih hnodup.2 hp h]

theorem Separated.length_le {ι : Type} {Item : ι → List Char → Prop} {xs : List ι}
    (h : Separated Item xs s) : xs.length ≤ s.length + 1 := by
  induction h with
  | one => simp
  | more _ _ ih =>
      simp only [List.length_cons, List.length_append]
      omega

/-- A record that a text states is a value. -/
theorem Form.Implements.isValue (h : form.Implements slots)
    (hv : RecordText slots form.defaults v c) : IsValue v := by
  have hmeans : ∀ p ∈ slots, ∀ {w b}, p.Means w b → IsValue w := by
    intro p hp w b hw
    obtain ⟨f, -, -, hf⟩ := h.field?_eq hp
    exact hf.isValue hw
  cases hv with
  | @object members _ _ hv hfits hstates =>
      refine isValue_of_objectText hv fun m hm => ?_
      by_cases hknown : m.1 ∈ slots.map (·.key)
      · obtain ⟨p, hp, hkey⟩ := List.mem_map.mp hknown
        exact hmeans p hp (hfits.means hstates hm hp hkey)
      · exact hfits.values m hm hknown
  | @list items _ _ hv hlen hstates =>
      refine .list hv fun w hw => ?_
      obtain ⟨i, hi, rfl⟩ := List.getElem_of_mem hw
      have hi' : i < slots.length := Nat.lt_of_lt_of_le hi hlen
      have hsaid := hstates slots[i] (List.getElem_mem _)
      simp only [lookup_positional h.nodup (getElem_mem_zip hi' hi)] at hsaid
      exact hmeans _ (List.getElem_mem _) hsaid

theorem Form.read_object {g : List Char} (hg : Gap g) (s : List Char) :
    form.read (g ++ (Bracket.object.opening :: s ++ [Bracket.object.closing] ++ rest)) =
      form.readMembers ((s ++ '\x7d' :: rest).length + 1) [] true form.defaults
        (s ++ '\x7d' :: rest) := by
  rw [Form.read, Bracket.object.skipBlanks_append hg]
  rfl

theorem Form.read_list {g : List Char} (hg : Gap g) (s : List Char) :
    form.read (g ++ (Bracket.list.opening :: s ++ [Bracket.list.closing] ++ rest)) =
      readElements form.fields true form.defaults (s ++ ']' :: rest) := by
  rw [Form.read, Bracket.list.skipBlanks_append hg]
  rfl

/-- Every text that states a record is read as that record. -/
theorem Form.Implements.read_append (h : form.Implements slots) {g : List Char}
    (hv : RecordText slots form.defaults v c) (hg : Gap g) :
    form.read (g ++ (v ++ rest)) = .ok (c, rest) := by
  cases hv with
  | @object members _ _ hv hfits hstates =>
      have hstart : Pending slots c members [] form.defaults := by
        refine ⟨by simp, fun p hp => ?_⟩
        have hsaid := hstates p hp
        split at hsaid
        next heq => exact .inr (mem_of_lookup heq)
        · exact .inl hsaid.symm
      cases hv with
      | @empty g' hg' =>
          have hdefaults : form.defaults = c := h.ext _ _ fun p hp => by
            simpa using hstart.toCome p hp
          rw [Form.read_object hg, readMembers_gap hg', readMembers]
          refine bind_eq_ok.mpr ⟨_, nextKey_closing true rest, ?_⟩
          rw [← hdefaults]
          rfl
      | @filled _ s hs =>
          have hlen := hs.length_le
          rw [Form.read_object hg]
          refine h.readMembers_append hs hfits
            (fun m hm p hp hkey => hfits.means hstates hm hp hkey) true ?_ hstart
          simp only [List.length_append, List.length_cons]
          omega
  | @list items _ _ hv hlen hstates =>
      have htoCome : ∀ p ∈ slots, p.get form.defaults = p.get c ∨ p ∈ slots.take items.length := by
        intro p hp
        have hsaid := hstates p hp
        split at hsaid
        next heq => exact .inr (mem_take_of_lookup_positional h.nodup hp heq)
        · exact .inl hsaid.symm
      cases hv with
      | @empty g' hg' =>
          have hdefaults : form.defaults = c := h.ext _ _ fun p hp => by
            simpa using htoCome p hp
          rw [Form.read_list hg, readElements_gap hg', readElements_closing, hdefaults]
      | @filled _ s hs =>
          rw [Form.read_list hg]
          refine readElements_append h.toPlaces h.fields (fun p hp => hp) hs hlen ?_ true htoCome
          rintro ⟨p, w⟩ hx
          have hsaid := hstates p (List.of_mem_zip hx).1
          simpa only [lookup_positional h.nodup hx] using hsaid

/-- The reader of a form is faithful to what texts state. -/
theorem Form.Implements.faithful (h : form.Implements slots) :
    Faithful form.read (RecordText slots form.defaults) where
  isValue := h.isValue
  reads hv hg _ := h.read_append hv hg
  skips := h.skipValue_of_read

end Reads

/-! ## What is not read -/

section Refused

variable {slots : List (Slot α)} {form : Form α} {members : List (String × List Char)}
  {items : List (List Char)} {s v rest : List Char}

/-- A field reads something where a text stands. -/
def Field.Accepts (f : Field α) (v : List Char) : Prop :=
  ∃ a g rest x, Gap g ∧ f.read a (g ++ (v ++ rest)) = .ok x

/-- A member that is read is known at most once, its field reads its value, and what comes behind it
is read next. -/
theorem Form.Implements.readMembers_cons_ok (h : form.Implements slots) {m : String × List Char}
    (hm : MemberText Named m s) (hvalue : IsValue m.2) {u : List Char} (hu : Follows u)
    {n : Nat} {seen : List String} {isFirst : Bool} {a : α} {x : α × List Char}
    (hread : form.readMembers n seen isFirst a (lead isFirst s ++ u) = .ok x) :
    ∃ n' seen' a', form.readMembers n' seen' false a' u = .ok x ∧ seen ⊆ seen' ∧
      ∀ f, form.field? m.1 = some f → m.1 ∉ seen ∧ m.1 ∈ seen' ∧ f.Accepts m.2 := by
  obtain ⟨body, after, g, g', hbody, hg, hg', hkey, hcolon⟩ := hm.nextKey_lead isFirst u
  obtain ⟨n, rfl, ⟨hend, -⟩ | ⟨s₁, a₁, seen₁, s₂, hkey', hmember, hrest⟩⟩ :=
    readMembers_eq_ok hread
  · rw [hkey] at hend
    cases hend
  rw [hkey] at hkey'
  cases hkey'
  obtain ⟨key, s₃, s₄, hname, hcolon', hvalue'⟩ := readMember_eq_ok hmember
  rw [Named.readString_append hbody after] at hname
  cases hname
  rw [hcolon] at hcolon'
  cases hcolon'
  -- Whichever way the value was taken off, what is left is what the grammar has behind it.
  have hskip := hvalue.skipValue_append hg (hg'.follows hu)
  rcases hvalue' with ⟨f, hf, hseen, rfl, hvalueRead⟩ | ⟨hnone, rfl, rfl, hskip'⟩
  · obtain ⟨p, -, -, hp⟩ := h.exists_fills hf
    obtain rfl : g' ++ u = s₂ := by simpa [hskip] using hp.skips hvalueRead
    refine ⟨n, m.1 :: seen, a₁, (readMembers_gap hg' ..).symm.trans hrest, by simp, ?_⟩
    intro f' hf'
    obtain rfl : f = f' := by simpa [hf] using hf'
    exact ⟨hseen, by simp, a, g, g' ++ u, _, hg, hvalueRead⟩
  · obtain rfl : g' ++ u = s₂ := by simpa [hskip] using hskip'
    refine ⟨n, seen₁, a₁, (readMembers_gap hg' ..).symm.trans hrest, fun _ h => h, ?_⟩
    intro f hf
    rw [hnone] at hf
    cases hf

/-- In the members of an object that is read, no key of a field comes twice, and each such field
reads its value. -/
theorem Form.Implements.readMembers_append_ok (h : form.Implements slots)
    (hs : Separated (MemberText Named) members s) (hvalues : ∀ m ∈ members, IsValue m.2)
    (isFirst : Bool) {n : Nat} {seen : List String} {a : α} {x : α × List Char}
    (hread : form.readMembers n seen isFirst a (lead isFirst s ++ '\x7d' :: rest) = .ok x)
    {key : String} {f : Field α} (hf : form.field? key = some f) :
    (key ∈ seen → key ∉ members.map (·.1)) ∧ (members.map (·.1)).count key ≤ 1 ∧
      ∀ w, (key, w) ∈ members → f.Accepts w := by
  induction hs generalizing n seen isFirst a with
  | @one m s hm =>
      obtain ⟨_, _, _, _, _, hknown⟩ :=
        h.readMembers_cons_ok hm (hvalues m (by simp)) (by simp [Follows]) hread
      refine ⟨?_, ?_, ?_⟩
      · intro hseen hmem
        obtain rfl : key = m.1 := by simpa using hmem
        exact (hknown f hf).1 hseen
      · simpa using List.count_le_length (a := key) (l := [m.1])
      · intro w hw
        obtain rfl : (key, w) = m := by simpa using hw
        exact (hknown f hf).2.2
  | @more m s members t hm _ ih =>
      rw [lead_append] at hread
      obtain ⟨n', seen', a', hrest, hsub, hknown⟩ :=
        h.readMembers_cons_ok hm (hvalues m (by simp)) (by simp [lead, Follows]) hread
      obtain ⟨hunseen, honce, haccepts⟩ := ih (fun m' hm' => hvalues m' (by simp [hm'])) false hrest
      refine ⟨?_, ?_, ?_⟩
      · intro hseen hmem
        rcases List.mem_cons.mp hmem with rfl | hmem
        · exact (hknown f hf).1 hseen
        · exact hunseen (hsub hseen) hmem
      · by_cases hkey : key = m.1
        · subst hkey
          have hnone := List.count_eq_zero_of_not_mem (hunseen (hknown f hf).2.1)
          rw [List.map_cons, List.count_cons_self]
          omega
        · rw [List.map_cons, List.count_cons_of_ne (Ne.symm hkey)]
          exact honce
      · intro w hw
        rcases List.mem_cons.mp hw with rfl | hw
        · exact (hknown f hf).2.2
        · exact haccepts w hw

/-- An element that is read is read by its field, and what comes behind it is read next. -/
theorem Form.readElements_cons_ok {p : Slot α} {f : Field α} {fields : List (Field α)}
    (hf : Fills p f) (hs : Spaced v s) (hvalue : IsValue v) {u : List Char} (hu : Follows u)
    {isFirst : Bool} {a : α} {x : α × List Char}
    (hread : readElements (f :: fields) isFirst a (lead isFirst s ++ u) = .ok x) :
    f.Accepts v ∧ ∃ a', readElements fields false a' u = .ok x := by
  obtain ⟨g, hg, hnext⟩ := nextElement_lead hvalue hs isFirst u
  rcases readElements_eq_ok hread with ⟨hnil, -⟩ | ⟨f', rest, hcons, hread⟩
  · cases hnil
  cases hcons
  rcases hread with ⟨hend, -⟩ | ⟨s₁, a₁, s₂, hnext', hvalueRead, hrest⟩
  · rw [hnext] at hend
    cases hend
  rw [hnext] at hnext'
  cases hnext'
  have hskip : skipValue (v ++ (g ++ u)) = .ok (g ++ u) :=
    hvalue.skipValue_append Gap.nil (hg.follows hu)
  obtain rfl : g ++ u = s₂ := by simpa [hskip] using hf.skips hvalueRead
  exact ⟨⟨a, [], g ++ u, _, Gap.nil, hvalueRead⟩, a₁, (readElements_gap hg ..).symm.trans hrest⟩

/-- In the elements of a list that is read, each field reads its value. -/
theorem Form.readElements_append_ok {fields : List (Field α)}
    (hfields : List.Forall₂ Fills slots fields) (hs : Separated Spaced items s)
    (hvalues : ∀ w ∈ items, IsValue w) (isFirst : Bool) {a : α} {x : α × List Char}
    (hread : readElements fields isFirst a (lead isFirst s ++ ']' :: rest) = .ok x) :
    ∀ y ∈ fields.zip items, y.1.Accepts y.2 := by
  induction hs generalizing slots fields isFirst a with
  | @one w s hw =>
      cases hfields with
      | nil => simp
      | @cons p f _ fields hf _ =>
          have haccepts := (readElements_cons_ok hf hw (hvalues w (by simp)) (by simp [Follows])
            hread).1
          simpa using haccepts
  | @more w s items t hw _ ih =>
      cases hfields with
      | nil => simp
      | @cons p f _ fields hf hfields =>
          rw [lead_append] at hread
          obtain ⟨haccepts, a', hrest⟩ := readElements_cons_ok hf hw (hvalues w (by simp))
            (by simp [lead, Follows]) hread
          intro y hy
          rcases List.mem_cons.mp hy with rfl | hy
          · exact haccepts
          · exact ih hfields (fun w' hw' => hvalues w' (by simp [hw'])) false hrest y hy

/-- An object that is read has no key of a field twice, and each such field reads its value. -/
theorem Form.Implements.object_of_read (h : form.Implements slots)
    (hv : ObjectText Named members v) (hvalues : ∀ m ∈ members, IsValue m.2) {g : List Char}
    (hg : Gap g) {x : α × List Char} (hread : form.read (g ++ (v ++ rest)) = .ok x)
    {key : String} {f : Field α} (hf : form.field? key = some f) :
    (members.map (·.1)).count key ≤ 1 ∧ ∀ w, (key, w) ∈ members → f.Accepts w := by
  cases hv with
  | empty => simp
  | @filled _ s hs =>
      rw [Form.read_object hg] at hread
      exact (h.readMembers_append_ok hs hvalues true hread hf).2

/-- In a list that is read, each field reads its value. -/
theorem Form.Implements.list_of_read (h : form.Implements slots) (hv : ListText items v)
    (hvalues : ∀ w ∈ items, IsValue w) {g : List Char} (hg : Gap g) {x : α × List Char}
    (hread : form.read (g ++ (v ++ rest)) = .ok x) :
    ∀ y ∈ form.fields.zip items, y.1.Accepts y.2 := by
  cases hv with
  | empty => simp
  | @filled _ s hs =>
      rw [Form.read_list hg] at hread
      exact Form.readElements_append_ok h.fields hs hvalues true hread

end Refused

end CycleBridge.Json
