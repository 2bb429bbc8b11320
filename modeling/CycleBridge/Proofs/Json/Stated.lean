import CycleBridge.Proofs.Json.Reading

/-!
# Which records texts state

An object in which every known key comes at most once, with a text that stands for something under
it, states one record and no other. It is found by what stands under the known keys alone, so
neither the order of members nor unknown ones have a say, and a list states what the object states
that has its elements under the first keys. An object that has a known key twice states nothing.
-/

namespace CycleBridge.Json

variable {α : Type} {slots : List (Slot α)} {form : Form α} {defaults : α}
  {members members' : List (String × List Char)} {items : List (List Char)} {v v' : List Char}
  {a a' : α}

/-- Members say something about a record, and what stands under its keys stands for something. -/
structure Proper (slots : List (Slot α)) (members : List (String × List Char)) : Prop
    extends Fits slots members where
  means : ∀ p ∈ slots, ∀ v, members.lookup p.key = some v → ∃ b, p.Means v b

/-- Whether a key of the record comes more than once. -/
def Repeats (slots : List (Slot α)) (members : List (String × List Char)) : Prop :=
  ∃ p ∈ slots, 1 < (members.map (·.1)).count p.key

/-- Whether every field that is mentioned has its default. -/
def ListsDefaults (slots : List (Slot α)) (defaults : α) (members : List (String × List Char)) :
    Prop :=
  ∀ p ∈ slots, ∀ v, members.lookup p.key = some v → p.Means v (p.get defaults)

/-- Whatever is said about places, if it stands for something some record has it all. -/
theorem Places.exists_states (h : Places slots) (defaults : α) (said : String → Option (List Char))
    (hsaid : ∀ p ∈ slots, ∀ v, said p.key = some v → ∃ b, p.Means v b) :
    ∃ a, States slots defaults said a := by
  -- The places are set one after the other; those that are not reached yet have their defaults.
  have hpart : ∀ slots', slots' ⊆ slots → (slots'.map (·.key)).Nodup →
      ∃ a, States slots' defaults said a ∧
        ∀ q ∈ slots, q.key ∉ slots'.map (·.key) → q.get a = q.get defaults := by
    intro slots' hsub hnodup
    induction slots' with
    | nil => exact ⟨defaults, by simp [States], fun _ _ _ => rfl⟩
    | cons p slots' ih =>
        rw [List.map_cons, List.nodup_cons] at hnodup
        have hp : p ∈ slots := hsub (by simp)
        obtain ⟨a, hstates, hdefaults⟩ := ih (fun q hq => hsub (by simp [hq])) hnodup.2
        cases hv : said p.key with
        | none =>
            refine ⟨a, ?_, fun q hq hnot => hdefaults q hq fun hmem => hnot (by simp [hmem])⟩
            intro q hq
            rcases List.mem_cons.mp hq with rfl | hq
            · simpa only [hv] using hdefaults q hp hnodup.1
            · exact hstates q hq
        | some v =>
            obtain ⟨b, hb⟩ := hsaid p hp v hv
            refine ⟨p.set a b, ?_, ?_⟩
            · intro q hq
              rcases List.mem_cons.mp hq with rfl | hq
              · simpa only [hv, h.get_set q hp] using hb
              · have hne : p.key ≠ q.key := by
                  intro heq
                  exact hnodup.1 (heq ▸ List.mem_map_of_mem hq)
                rw [h.get_set_of_ne p hp q (hsub (by simp [hq])) hne]
                exact hstates q hq
            · intro q hq hnot
              rw [List.map_cons, List.mem_cons, not_or] at hnot
              rw [h.get_set_of_ne p hp q hq (Ne.symm hnot.1)]
              exact hdefaults q hq hnot.2
  obtain ⟨a, hstates, -⟩ := hpart slots (fun _ hp => hp) h.nodup
  exact ⟨a, hstates⟩

/-- What is said under the keys of the places is all that matters. -/
theorem States.congr {said said' : String → Option (List Char)} (h : States slots defaults said a)
    (hsame : ∀ p ∈ slots, said' p.key = said p.key) : States slots defaults said' a := by
  intro p hp
  rw [hsame p hp]
  exact h p hp

/-- No text states two records. -/
theorem Form.Implements.stated_unique (h : form.Implements slots)
    (hv : RecordText slots form.defaults v a) (hv' : RecordText slots form.defaults v a') :
    a = a' := by
  have hread : form.read ([] ++ (v ++ [])) = .ok (a, []) := h.read_append hv Gap.nil
  rw [h.read_append hv' Gap.nil] at hread
  exact ((Prod.mk.inj (Except.ok.inj hread)).1).symm

/-- An object states the record that has what is said under the known keys, and no other. -/
theorem Form.Implements.object_states (h : form.Implements slots)
    (hv : ObjectText Named members v) (hproper : Proper slots members) :
    ∃ a, States slots form.defaults (fun key => members.lookup key) a ∧
      ∀ a', RecordText slots form.defaults v a' ↔ a' = a := by
  obtain ⟨a, hstates⟩ := h.exists_states form.defaults (fun key => members.lookup key) hproper.means
  have hstated : RecordText slots form.defaults v a := .object hv hproper.toFits hstates
  refine ⟨a, hstates, fun a' => ⟨fun hv' => h.stated_unique hv' hstated, ?_⟩⟩
  rintro rfl
  exact hstated

/-- Objects that have the same under the known keys state the same. -/
theorem Places.objects_state_alike (h : Places slots) (defaults : α)
    (hv : ObjectText Named members v) (hproper : Proper slots members)
    (hv' : ObjectText Named members' v') (hfits : Fits slots members')
    (hsame : ∀ p ∈ slots, members'.lookup p.key = members.lookup p.key) :
    ∃ a, RecordText slots defaults v a ∧ RecordText slots defaults v' a := by
  obtain ⟨a, hstates⟩ := h.exists_states defaults (fun key => members.lookup key) hproper.means
  exact ⟨a, .object hv hproper.toFits hstates, .object hv' hfits (hstates.congr hsame)⟩

/-- A list states what the object states that has its elements under the first keys. -/
theorem Places.list_states_alike (h : Places slots) (defaults : α) (hv : ListText items v)
    (hlen : items.length ≤ slots.length) (hv' : ObjectText Named (positional slots items) v')
    (hproper : Proper slots (positional slots items)) :
    ∃ a, RecordText slots defaults v a ∧ RecordText slots defaults v' a := by
  obtain ⟨a, hstates⟩ :=
    h.exists_states defaults (fun key => (positional slots items).lookup key) hproper.means
  exact ⟨a, .list hv hlen hstates, .object hv' hproper.toFits hstates⟩

/-- An object in which every field that is mentioned has its default states the defaults. -/
theorem ListsDefaults.states_defaults (h : ListsDefaults slots defaults members)
    (hv : ObjectText Named members v) (hfits : Fits slots members) :
    RecordText slots defaults v defaults := by
  refine .object hv hfits fun p hp => ?_
  cases hw : members.lookup p.key with
  | none => simp only [hw]
  | some w => simpa only [hw] using h p hp w hw

/-- No object is read that has a known key twice. -/
theorem Form.Implements.not_repeats_of_read (h : form.Implements slots)
    (hv : ObjectText Named members v) (hvalues : ∀ m ∈ members, IsValue m.2) {g rest : List Char}
    (hg : Gap g) {x : α × List Char} (hread : form.read (g ++ (v ++ rest)) = .ok x) :
    ¬ Repeats slots members := by
  rintro ⟨p, hp, hcount⟩
  obtain ⟨f, -, hf, -⟩ := h.field?_eq hp
  have honce := (h.object_of_read hv hvalues hg hread hf).1
  omega

end CycleBridge.Json
