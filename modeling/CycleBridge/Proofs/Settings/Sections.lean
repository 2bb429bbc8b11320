import CycleBridge.Proofs.Json.Reading
import CycleBridge.Settings.Read

/-!
# The sections of the settings

The places of each section and which texts stand for which values there: numerals for numbers, and
names of a table for choices. The forms that settings are read by implement exactly these places, so
a text that states settings is read as the settings that it states.
-/

namespace CycleBridge

open Json

/-! ## Places -/

namespace Json.Slot

variable {α : Type}

/-- A place with a whole number of 32 bits. -/
def word32 (key : String) (get : α → UInt32) (set : α → UInt32 → α) : Slot α :=
  { key, Value := UInt32, get, set, Means := fun v n => NumeralText v n.toNat }

/-- A place with a whole number of 64 bits. -/
def word64 (key : String) (get : α → UInt64) (set : α → UInt64 → α) : Slot α :=
  { key, Value := UInt64, get, set, Means := fun v n => NumeralText v n.toNat }

/-- A place with one of the names of a table. -/
def choice {β : Type} (table : List (String × β)) (key : String) (get : α → β)
    (set : α → β → α) : Slot α :=
  { key, Value := β, get, set, Means := ChoiceText table }

end Json.Slot

/-- The places of the frontend's section. -/
def FrontendSettings.slots : List (Slot FrontendSettings) :=
  [.word32 "clock_ratio" (·.clockRatio) fun c v => { c with clockRatio := v },
    .word64 "queue_depth" (·.queueDepth) fun c v => { c with queueDepth := v }]

/-- The places of the memory's section. -/
def MemorySettings.slots : List (Slot MemorySettings) :=
  [.word32 "clock_ratio" (·.clockRatio) fun c v => { c with clockRatio := v },
    .word64 "queue_depth" (·.queueDepth) fun c v => { c with queueDepth := v },
    .choice ModelChoice.table "controller" (·.controller) fun c v => { c with controller := v },
    .word64 "latency" (·.latency) fun c v => { c with latency := v },
    .word64 "t_cas" (·.tCas) fun c v => { c with tCas := v },
    .word64 "t_ras" (·.tRas) fun c v => { c with tRas := v },
    .word64 "t_pre" (·.tPre) fun c v => { c with tPre := v },
    .word32 "row_bits" (·.rowBits) fun c v => { c with rowBits := v }]

/-- The places of the bridge's section. -/
def BridgeSettings.slots : List (Slot BridgeSettings) :=
  [.choice OverlapRule.table "overlap_policy" (·.overlapRule)
    fun c v => { c with overlapRule := v }]

/-- A section of the settings: its key, where it is in the settings, its places and its defaults. -/
structure SettingsSection where
  key : String
  Value : Type
  get : Settings → Value
  set : Settings → Value → Settings
  slots : List (Slot Value)
  defaults : Value

/-- A section as a place of the settings. -/
def SettingsSection.slot (x : SettingsSection) : Slot Settings :=
  { key := x.key
    Value := x.Value
    get := x.get
    set := x.set
    Means := RecordText x.slots x.defaults }

namespace Settings

/-- The sections, in the order of a list. -/
def sections : List SettingsSection :=
  [⟨"frontend", FrontendSettings, (·.frontend), fun c v => { c with frontend := v },
      FrontendSettings.slots, {}⟩,
    ⟨"memory", MemorySettings, (·.memory), fun c v => { c with memory := v },
      MemorySettings.slots, {}⟩,
    ⟨"bridge", BridgeSettings, (·.bridge), fun c v => { c with bridge := v },
      BridgeSettings.slots, {}⟩]

/-- The places of the settings. -/
def slots : List (Slot Settings) := sections.map SettingsSection.slot

end Settings

/-! ## Forms -/

/-- A field fills the place whose texts its reader is faithful to. -/
theorem Json.Faithful.fills {α : Type} {p : Slot α} {ρ : Reader p.Value}
    (h : Faithful ρ p.Means) : Fills p ⟨p.key, ρ.into p.set⟩ where
  key := rfl
  isValue := h.isValue
  reads a hv hg hrest := map_eq_ok.mpr ⟨_, h.reads hv hg hrest, rfl⟩
  skips := by
    intro s r a a' hread
    obtain ⟨⟨b, r'⟩, hb, heq⟩ := map_eq_ok.mp hread
    obtain rfl : r' = r := (Prod.mk.inj heq).2
    exact h.skips hb

theorem FrontendSettings.implements : form.Implements slots where
  nodup := by decide
  get_set := by simp [slots, Slot.word32, Slot.word64]
  get_set_of_ne := by simp [slots, Slot.word32, Slot.word64]
  ext := by
    intro a c h
    cases a
    cases c
    simpa [slots, Slot.word32, Slot.word64] using h
  fields := .cons faithful_readWord32.fills (.cons faithful_readSize.fills .nil)

theorem MemorySettings.implements : form.Implements slots where
  nodup := by decide
  get_set := by
    simp only [slots, Slot.word32, Slot.word64, Slot.choice, List.forall_mem_cons, List.not_mem_nil,
      false_implies, implies_true, and_true]
  get_set_of_ne := by
    simp only [slots, Slot.word32, Slot.word64, Slot.choice, List.forall_mem_cons, List.not_mem_nil,
      false_implies, implies_true, and_true, ne_eq, not_true_eq_false]
  ext := by
    intro a c h
    cases a
    cases c
    simpa [slots, Slot.word32, Slot.word64, Slot.choice] using h
  fields :=
    .cons faithful_readWord32.fills <| .cons faithful_readSize.fills <|
      .cons (faithful_readChoice ModelChoice.table).fills <| .cons faithful_readWord64.fills <|
      .cons faithful_readWord64.fills <| .cons faithful_readWord64.fills <|
      .cons faithful_readWord64.fills <| .cons faithful_readWord32.fills .nil

theorem BridgeSettings.implements : form.Implements slots where
  nodup := by decide
  get_set := by simp [slots, Slot.choice]
  get_set_of_ne := by simp [slots, Slot.choice]
  ext := by
    intro a c h
    cases a
    cases c
    simpa [slots, Slot.choice] using h
  fields := .cons (faithful_readChoice OverlapRule.table).fills .nil

/-! ## Sections within the settings

A section of the text gets the defaults of its fields, a section that the text leaves out is the
default one. Both are the same, so that a section of the text states the default section but for the
fields that it mentions. -/

theorem FrontendSettings.unstated_eq : unstated = {} := rfl

theorem MemorySettings.unstated_eq : unstated = {} := rfl

theorem BridgeSettings.unstated_eq : unstated = {} := rfl

theorem FrontendSettings.faithful : Faithful form.read (RecordText slots {}) := by
  rw [← unstated_eq]
  exact Form.Implements.faithful implements

theorem MemorySettings.faithful : Faithful form.read (RecordText slots {}) := by
  rw [← unstated_eq]
  exact Form.Implements.faithful implements

theorem BridgeSettings.faithful : Faithful form.read (RecordText slots {}) := by
  rw [← unstated_eq]
  exact Form.Implements.faithful implements

theorem Settings.implements : form.Implements slots where
  nodup := by decide
  get_set := by simp [slots, sections, SettingsSection.slot]
  get_set_of_ne := by simp [slots, sections, SettingsSection.slot]
  ext := by
    intro a c h
    cases a
    cases c
    simpa [slots, sections, SettingsSection.slot] using h
  fields :=
    .cons FrontendSettings.faithful.fills <| .cons MemorySettings.faithful.fills <|
      .cons BridgeSettings.faithful.fills .nil

end CycleBridge
