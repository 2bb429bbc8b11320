import CycleBridge.Proofs.Json.Stated
import CycleBridge.Proofs.Settings.Sections

/-!
# Partial settings

A text need not say everything. What it leaves out has its default, and how it says the rest does
not matter: in which order, next to which unknown members, with which blanks, as objects or as
lists. A section that is left out is as good as one that is empty or lists its defaults. A text that
says something twice under one key is refused.
-/

namespace CycleBridge

open Json

namespace SettingsSection

/-- A field of the settings is that of a section, and its form implements the section's places. -/
def Formed (x : SettingsSection) (f : Json.Field Settings) : Prop :=
  Settings.form.field? x.key = some f ∧ ∃ form : Form x.Value, form.Implements x.slots ∧
    form.defaults = x.defaults ∧ f = ⟨x.key, Reader.into form.read x.set⟩

/-- Two texts state the same record of a section. -/
def Alike (x : SettingsSection) (w w' : List Char) : Prop :=
  ∃ b, RecordText x.slots x.defaults w b ∧ RecordText x.slots x.defaults w' b

end SettingsSection

namespace Settings

/-- A text is read as settings, whatever blanks stand around it. -/
def ReadAs (v : List Char) (c : Settings) : Prop :=
  ∀ g g', Gap g → Gap g' → ofText (String.ofList (g ++ v ++ g')) = .ok c

/-- Two texts are read as the same settings. -/
def ReadAlike (v v' : List Char) : Prop := ∃ c, ReadAs v c ∧ ReadAs v' c

/-- A text is refused, whatever stands behind it. -/
def Refused (v : List Char) : Prop :=
  ∀ g rest, Gap g → ∃ fault, ofText (String.ofList (g ++ v ++ rest)) = .error fault

/-- Each section has its field, in the same order. -/
theorem sections_formed : List.Forall₂ SettingsSection.Formed sections form.fields :=
  .cons ⟨rfl, _, FrontendSettings.implements, FrontendSettings.unstated_eq, rfl⟩ <|
    .cons ⟨rfl, _, MemorySettings.implements, MemorySettings.unstated_eq, rfl⟩ <|
    .cons ⟨rfl, _, BridgeSettings.implements, BridgeSettings.unstated_eq, rfl⟩ .nil

theorem exists_formed {x : SettingsSection} (hx : x ∈ sections) : ∃ f, x.Formed f := by
  simp only [sections, List.mem_cons, List.not_mem_nil, or_false] at hx
  rcases hx with rfl | rfl | rfl
  · exact ⟨_, rfl, _, FrontendSettings.implements, FrontendSettings.unstated_eq, rfl⟩
  · exact ⟨_, rfl, _, MemorySettings.implements, MemorySettings.unstated_eq, rfl⟩
  · exact ⟨_, rfl, _, BridgeSettings.implements, BridgeSettings.unstated_eq, rfl⟩

/-- The element of a list at the place of a section stands at the place of the section's field. -/
theorem formed_zip {xs : List SettingsSection} {fields : List (Json.Field Settings)}
    (h : List.Forall₂ SettingsSection.Formed xs fields) {items : List (List Char)}
    {x : SettingsSection} {w : List Char} (hx : (x, w) ∈ xs.zip items) :
    ∃ f, x.Formed f ∧ (f, w) ∈ fields.zip items := by
  induction h generalizing items with
  | nil => cases hx
  | @cons x' f xs fields hf _ ih =>
      cases items with
      | nil => cases hx
      | cons w' items =>
          rcases List.mem_cons.mp hx with heq | hx
          · cases heq
            exact ⟨f, hf, by simp⟩
          · obtain ⟨f', hf', hmem⟩ := ih hx
            exact ⟨f', hf', by simp [hmem]⟩

/-- The defaults of a section are what the settings have there by default. -/
theorem get_defaults {x : SettingsSection} (hx : x ∈ sections) : x.get {} = x.defaults := by
  simp only [sections, List.mem_cons, List.not_mem_nil, or_false] at hx
  rcases hx with rfl | rfl | rfl <;> rfl

theorem slot_mem {x : SettingsSection} (hx : x ∈ sections) : x.slot ∈ slots :=
  List.mem_map_of_mem hx

variable {v w : List Char} {c : Settings}

/-- A text that states settings is read as these. -/
theorem readAs_of_stated (h : RecordText slots {} v c) : ReadAs v c := by
  intro g g' hg hg'
  have hread : form.read (g ++ (v ++ g')) = .ok (c, g') :=
    Form.Implements.read_append implements h hg
  have hend : skipBlanks g' = [] := by
    simpa [skipBlanks] using hg'.skipBlanks_append []
  rw [ofText, Form.readDocument, String.toList_ofList, List.append_assoc]
  refine bind_eq_ok.mpr ⟨_, hread, ?_⟩
  simp [hend, pure, Except.pure]

/-- A text of which nothing is read is refused. -/
theorem refused_of_not_read (h : ∀ g rest, Gap g → ∀ x, form.read (g ++ (v ++ rest)) ≠ .ok x) :
    Refused v := by
  intro g rest hg
  cases htext : ofText (String.ofList (g ++ v ++ rest)) with
  | error fault => exact ⟨fault, rfl⟩
  | ok c =>
      rw [ofText, Form.readDocument, String.toList_ofList, List.append_assoc] at htext
      obtain ⟨x, hread, -⟩ := bind_eq_ok.mp htext
      exact absurd hread (h g rest hg x)

end Settings

/-- No field of a section reads an object that has one of the section's keys twice. -/
theorem SettingsSection.Formed.not_accepts {x : SettingsSection} {f : Json.Field Settings}
    (h : x.Formed f) {fields : List (String × List Char)} {w : List Char}
    (hw : ObjectText Named fields w) (hvalues : ∀ m ∈ fields, IsValue m.2)
    (hrepeats : Repeats x.slots fields) : ¬ f.Accepts w := by
  obtain ⟨-, form, himplements, -, rfl⟩ := h
  rintro ⟨a, g, rest, y, hg, hread⟩
  obtain ⟨b, hb, -⟩ := map_eq_ok.mp hread
  exact himplements.not_repeats_of_read hw hvalues hg hb hrepeats

namespace Settings

variable {x : SettingsSection} {members members' fields fields' : List (String × List Char)}
  {items : List (List Char)} {v v' w w' : List Char}

/-! ## What a text says -/

/-- An object that mentions fields of a section states the defaults but for these fields. -/
theorem section_states (hx : x ∈ sections) (hw : ObjectText Named fields w)
    (hproper : Proper x.slots fields) :
    ∃ b, States x.slots x.defaults (fun key => fields.lookup key) b ∧
      ∀ b', RecordText x.slots x.defaults w b' ↔ b' = b := by
  obtain ⟨f, -, form, himplements, hdefaults, -⟩ := exists_formed hx
  rw [← hdefaults]
  exact himplements.object_states hw hproper

theorem stated_unique (hx : x ∈ sections) {b b' : x.Value}
    (hb : RecordText x.slots x.defaults w b) (hb' : RecordText x.slots x.defaults w b') :
    b = b' := by
  obtain ⟨f, -, form, himplements, hdefaults, -⟩ := exists_formed hx
  rw [← hdefaults] at hb hb'
  exact himplements.stated_unique hb hb'

theorem places_of_mem (hx : x ∈ sections) : Places x.slots := by
  obtain ⟨f, -, form, himplements, -, -⟩ := exists_formed hx
  exact himplements.toPlaces

/-- An object that mentions sections is read as the defaults but for these sections. -/
theorem object_readAs (hv : ObjectText Named members v) (hproper : Proper slots members) :
    ∃ c, States slots {} (fun key => members.lookup key) c ∧ ReadAs v c := by
  obtain ⟨c, hstates, hstated⟩ := Form.Implements.object_states implements hv hproper
  exact ⟨c, hstates, readAs_of_stated ((hstated c).mpr rfl)⟩

/-! ## How a text says it -/

/-- Sections under other keys, in another order, or in texts that state the same are read alike. -/
theorem objects_readAlike (hv : ObjectText Named members v) (hproper : Proper slots members)
    (hv' : ObjectText Named members' v') (hfits : Fits slots members')
    (hsame : ∀ x ∈ sections, Option.Rel x.Alike (members.lookup x.key) (members'.lookup x.key)) :
    ReadAlike v v' := by
  have hplaces : Places slots := Form.Implements.toPlaces implements
  obtain ⟨c, hstates⟩ := hplaces.exists_states {} (fun key => members.lookup key) hproper.means
  have hstates' : States slots {} (fun key => members'.lookup key) c := by
    intro p hp
    obtain ⟨x, hx, rfl⟩ := List.mem_map.mp hp
    have hsaid := hstates x.slot hp
    have hrel := hsame x hx
    simp only [SettingsSection.slot] at hsaid ⊢
    generalize members.lookup x.key = said at hsaid hrel
    generalize members'.lookup x.key = said' at hrel ⊢
    cases hrel with
    | none => exact hsaid
    | some halike =>
        obtain ⟨b, hb, hb'⟩ := halike
        obtain rfl := stated_unique hx hsaid hb
        exact hb'
  exact ⟨c, readAs_of_stated (.object hv hproper.toFits hstates),
    readAs_of_stated (.object hv' hfits hstates')⟩

/-- A section that lists its defaults, or nothing, is as good as none. -/
theorem absent_readAlike (hx : x ∈ sections) (hw : ObjectText Named fields w)
    (hfits : Fits x.slots fields) (hlists : ListsDefaults x.slots x.defaults fields)
    {before behind : List (String × List Char)} (hv : ObjectText Named (before ++ behind) v)
    (hproper : Proper slots (before ++ behind)) (habsent : x.key ∉ (before ++ behind).map (·.1))
    (hv' : ObjectText Named (before ++ (x.key, w) :: behind) v') : ReadAlike v v' := by
  have hknown : x.key ∈ slots.map (·.key) := List.mem_map.mpr ⟨x.slot, slot_mem hx, rfl⟩
  have hbefore : x.key ∉ before.map (·.1) := fun h => habsent (by simp [h])
  have hbehind : x.key ∉ behind.map (·.1) := fun h => habsent (by simp [h])
  have hother : ∀ key, key ≠ x.key → (before ++ (x.key, w) :: behind).lookup key =
      (before ++ behind).lookup key := by
    intro key hne
    simp only [List.lookup_append, List.lookup_cons, beq_eq_false_iff_ne.mpr hne]
  have hhere : (before ++ (x.key, w) :: behind).lookup x.key = some w := by
    rw [List.lookup_append, lookup_eq_none_of_not_mem hbefore]
    simp
  have hfits' : Fits slots (before ++ (x.key, w) :: behind) := by
    refine ⟨fun p hp => ?_, fun m hm hunknown => ?_⟩
    · by_cases hkey : p.key = x.key
      · simp [hkey, List.count_eq_zero_of_not_mem hbefore, List.count_eq_zero_of_not_mem hbehind]
      · have honce := hproper.once p hp
        simpa [List.count_cons_of_ne (Ne.symm hkey)] using honce
    · have hne : m ≠ (x.key, w) := by
        rintro rfl
        exact hunknown hknown
      refine hproper.values m ?_ hunknown
      simpa [hne] using hm
  have hplaces : Places slots := Form.Implements.toPlaces implements
  obtain ⟨c, hstates⟩ := hplaces.exists_states {}
    (fun key => (before ++ behind).lookup key) hproper.means
  have hstates' : States slots {} (fun key => (before ++ (x.key, w) :: behind).lookup key) c := by
    intro p hp
    obtain ⟨y, hy, rfl⟩ := List.mem_map.mp hp
    by_cases hkey : y.key = x.key
    · have hyx : y.slot = x.slot := hplaces.eq_of_key hp (slot_mem hx) hkey
      rw [hyx]
      have hsaid := hstates x.slot (slot_mem hx)
      simp only [SettingsSection.slot, lookup_eq_none_of_not_mem habsent] at hsaid
      simp only [SettingsSection.slot, hhere, hsaid, get_defaults hx]
      exact hlists.states_defaults hw hfits
    · have hsaid := hstates y.slot hp
      simpa only [hother y.slot.key hkey] using hsaid
  exact ⟨c, readAs_of_stated (.object hv hproper.toFits hstates),
    readAs_of_stated (.object hv' hfits' hstates')⟩

/-- A list of sections is read as the object that has them under their keys. -/
theorem list_readAlike (hv : ListText items v) (hlen : items.length ≤ slots.length)
    (hv' : ObjectText Named (positional slots items) v')
    (hproper : Proper slots (positional slots items)) : ReadAlike v v' := by
  have hplaces : Places slots := Form.Implements.toPlaces implements
  obtain ⟨c, hc, hc'⟩ := hplaces.list_states_alike {} hv hlen hv' hproper
  exact ⟨c, readAs_of_stated hc, readAs_of_stated hc'⟩

/-! ## What is refused -/

/-- The settings have each section at most once. -/
theorem refused_of_repeats (hv : ObjectText Named members v) (hvalues : ∀ m ∈ members, IsValue m.2)
    (hrepeats : Repeats slots members) : Refused v :=
  refused_of_not_read fun _ _ hg _ hread =>
    Form.Implements.not_repeats_of_read implements hv hvalues hg hread hrepeats

/-- A section has each of its fields at most once, in settings that are an object. -/
theorem refused_of_section_repeats (hx : x ∈ sections) (hw : ObjectText Named fields w)
    (hfields : ∀ m ∈ fields, IsValue m.2) (hrepeats : Repeats x.slots fields)
    (hv : ObjectText Named members v) (hvalues : ∀ m ∈ members, IsValue m.2)
    (hmem : (x.key, w) ∈ members) : Refused v := by
  obtain ⟨f, hf⟩ := exists_formed hx
  refine refused_of_not_read fun g rest hg y hread => ?_
  have haccepts :=
    (Form.Implements.object_of_read implements hv hvalues hg hread hf.1).2 w hmem
  exact hf.not_accepts hw hfields hrepeats haccepts

/-- A section has each of its fields at most once, in settings that are a list. -/
theorem refused_of_element_repeats (hw : ObjectText Named fields w)
    (hfields : ∀ m ∈ fields, IsValue m.2) (hrepeats : Repeats x.slots fields)
    (hv : ListText items v) (hvalues : ∀ u ∈ items, IsValue u)
    (hmem : (x, w) ∈ sections.zip items) : Refused v := by
  obtain ⟨f, hf, hfmem⟩ := formed_zip sections_formed hmem
  refine refused_of_not_read fun g rest hg y hread => ?_
  have haccepts := Form.Implements.list_of_read implements hv hvalues hg hread _ hfmem
  exact hf.not_accepts hw hfields hrepeats haccepts

/-! ## All of it -/

/-- The law of partial settings.

An object states, for the section in which it stands, the defaults with the mentioned fields
replaced, and nothing else; an object of sections is read as the default settings with the mentioned
sections replaced. Members in another order, other unknown members and section texts that state the
same make no difference, and neither does a section that lists its defaults or nothing, against none
at all, as the defaults that fields have in a section of the text are those of a section that is left
out. A list stands for the object that has its elements under the first keys. A section key that
comes twice is refused, and so is a field key that comes twice in a section. -/
theorem partial_settings :
    (∀ x ∈ sections, ∀ fields w, ObjectText Named fields w → Proper x.slots fields →
      ∃ b, States x.slots x.defaults (fun key => fields.lookup key) b ∧
        ∀ b', x.slot.Means w b' ↔ b' = b) ∧
    (∀ members v, ObjectText Named members v → Proper slots members →
      ∃ c, States slots {} (fun key => members.lookup key) c ∧ ReadAs v c) ∧
    (∀ x ∈ sections, ∀ fields fields' w w', ObjectText Named fields w → Proper x.slots fields →
      ObjectText Named fields' w' → Fits x.slots fields' →
      (∀ p ∈ x.slots, fields'.lookup p.key = fields.lookup p.key) → x.Alike w w') ∧
    (∀ members members' v v', ObjectText Named members v → Proper slots members →
      ObjectText Named members' v' → Fits slots members' →
      (∀ x ∈ sections, Option.Rel x.Alike (members.lookup x.key) (members'.lookup x.key)) →
      ReadAlike v v') ∧
    (∀ x ∈ sections, ∀ fields w, ObjectText Named fields w → Fits x.slots fields →
      ListsDefaults x.slots x.defaults fields →
      ∀ before behind v v', ObjectText Named (before ++ behind) v →
        Proper slots (before ++ behind) → x.key ∉ (before ++ behind).map (·.1) →
        ObjectText Named (before ++ (x.key, w) :: behind) v' → ReadAlike v v') ∧
    (∀ x ∈ sections, ∀ items w w', ListText items w → items.length ≤ x.slots.length →
      ObjectText Named (positional x.slots items) w' →
      Proper x.slots (positional x.slots items) → x.Alike w w') ∧
    (∀ items v v', ListText items v → items.length ≤ slots.length →
      ObjectText Named (positional slots items) v' →
      Proper slots (positional slots items) → ReadAlike v v') ∧
    (∀ members v, ObjectText Named members v → (∀ m ∈ members, IsValue m.2) →
      Repeats slots members → Refused v) ∧
    (∀ x ∈ sections, ∀ fields w, ObjectText Named fields w → (∀ m ∈ fields, IsValue m.2) →
      Repeats x.slots fields →
      (∀ members v, ObjectText Named members v → (∀ m ∈ members, IsValue m.2) →
        (x.key, w) ∈ members → Refused v) ∧
      (∀ items v, ListText items v → (∀ u ∈ items, IsValue u) →
        (x, w) ∈ sections.zip items → Refused v)) ∧
    (form.defaults.frontend = FrontendSettings.form.defaults ∧
      form.defaults.memory = MemorySettings.form.defaults ∧
      form.defaults.bridge = BridgeSettings.form.defaults) := by
  refine ⟨?_, ?_, ?_, ?_, ?_, ?_, ?_, ?_, ?_, ?_⟩
  · exact fun x hx fields w hw hproper => section_states hx hw hproper
  · exact fun members v hv hproper => object_readAs hv hproper
  · exact fun x hx fields fields' w w' hw hproper hw' hfits hsame =>
      (places_of_mem hx).objects_state_alike x.defaults hw hproper hw' hfits hsame
  · exact fun members members' v v' hv hproper hv' hfits hsame =>
      objects_readAlike hv hproper hv' hfits hsame
  · exact fun x hx fields w hw hfits hlists before behind v v' hv hproper habsent hv' =>
      absent_readAlike hx hw hfits hlists hv hproper habsent hv'
  · exact fun x hx items w w' hw hlen hw' hproper =>
      (places_of_mem hx).list_states_alike x.defaults hw hlen hw' hproper
  · exact fun items v v' hv hlen hv' hproper => list_readAlike hv hlen hv' hproper
  · exact fun members v hv hvalues hrepeats => refused_of_repeats hv hvalues hrepeats
  · intro x hx fields w hw hfields hrepeats
    exact ⟨fun members v hv hvalues hmem =>
        refused_of_section_repeats hx hw hfields hrepeats hv hvalues hmem,
      fun items v hv hvalues hmem =>
        refused_of_element_repeats hw hfields hrepeats hv hvalues hmem⟩
  · exact ⟨FrontendSettings.unstated_eq.symm, MemorySettings.unstated_eq.symm,
      BridgeSettings.unstated_eq.symm⟩

/-- One field of one section next to an unknown member: all other settings are the defaults. -/
theorem partial_settings_latency :
    ∃ c, ofText "\x7b\"x\":[1],\"memory\":\x7b\"latency\":7\x7d\x7d" = .ok c ∧
      c.memory.latency = 7 ∧ c.memory.tCas = 14 ∧ c.frontend = {} := by
  obtain ⟨hsections, hlaw, -⟩ := partial_settings
  let w : List Char := ['\x7b'] ++ (inQuotes "latency".toList ++ [':', '7']) ++ ['\x7d']
  let v : List Char := ['\x7b'] ++ (inQuotes "x".toList ++ [':', '[', '1', ']'] ++
    ',' :: (inQuotes "memory".toList ++ ':' :: w)) ++ ['\x7d']
  have hlatencyKey : Named "latency" "latency".toList := named_self (by decide)
  have hunknownKey : Named "x" "x".toList := named_self (by decide)
  have hmemoryKey : Named "memory" "memory".toList := named_self (by decide)
  have hw : ObjectText Named [("latency", ['7'])] w :=
    .filled (.one (memberText_of_named hlatencyKey .nil .nil .nil ['7']))
  have hseven : ∃ n : Word, NumeralText ['7'] n.toNat := ⟨7, numeralText_digits 7⟩
  have hfields : Proper MemorySettings.slots [("latency", ['7'])] := by
    refine ⟨⟨?_, ?_⟩, ?_⟩
    · simp [MemorySettings.slots, Slot.word32, Slot.word64, Slot.choice, List.count_cons]
    · simp [MemorySettings.slots, Slot.word32, Slot.word64, Slot.choice]
    · simpa [MemorySettings.slots, Slot.word32, Slot.word64, Slot.choice, List.lookup_cons]
        using hseven
  have hsection : sections[1] ∈ sections := List.getElem_mem _
  obtain ⟨b, hb, hstated⟩ := hsections sections[1] hsection _ w hw hfields
  have hv : ObjectText Named [("x", ['[', '1', ']']), ("memory", w)] v := by
    have hfirst := memberText_of_named hunknownKey .nil .nil .nil ['[', '1', ']']
    have hlast := memberText_of_named hmemoryKey .nil .nil .nil w
    simp only [List.append_nil, List.nil_append] at hfirst hlast
    exact .filled (.more hfirst (.one hlast))
  have hone : IsValue ['[', '1', ']'] := by
    have hdigit : IsValue ['1'] := (numeralText_digits 1).isValue
    exact .list (.filled (.one (Spaced.self ['1']))) (by simpa using hdigit)
  have hmembers : Proper slots [("x", ['[', '1', ']']), ("memory", w)] := by
    refine ⟨⟨?_, ?_⟩, ?_⟩
    · simp [slots, sections, SettingsSection.slot, List.count_cons]
    · simpa [slots, sections, SettingsSection.slot] using hone
    · have hmeans : ∃ b, RecordText MemorySettings.slots {} w b := ⟨b, (hstated b).mpr rfl⟩
      simpa [slots, sections, SettingsSection.slot, List.lookup_cons] using hmeans
  obtain ⟨c, hc, hread⟩ := hlaw _ v hv hmembers
  have hmemory : c.memory = b := (hstated _).mp (hc _ (slot_mem hsection))
  have htext : v = "\x7b\"x\":[1],\"memory\":\x7b\"latency\":7\x7d\x7d".toList := by decide
  have hlatency : NumeralText ['7'] c.memory.latency.toNat := by
    rw [hmemory]
    exact hb MemorySettings.slots[3] (List.getElem_mem _)
  have htCas : c.memory.tCas = 14 := by
    rw [hmemory]
    exact hb MemorySettings.slots[4] (List.getElem_mem _)
  refine ⟨c, ?_, ?_, htCas, hc sections[0].slot (slot_mem (List.getElem_mem _))⟩
  · simpa [htext] using hread [] [] .nil .nil
  · exact UInt64.toNat_inj.mp hlatency.2.symm

end Settings

end CycleBridge
