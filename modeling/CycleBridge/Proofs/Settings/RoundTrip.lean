import CycleBridge.Proofs.Json.Printing
import CycleBridge.Proofs.Settings.Partial
import CycleBridge.Settings.Write

/-!
# Settings written and read again

Settings are written with all sections and all fields. Both ways of writing them give texts that
state them, so reading such a text gives the settings back.
-/

namespace CycleBridge

open Json

variable {write : Nat → Tree → List Char}

theorem FrontendSettings.written (h : Writing write) (level : Nat) (c : FrontendSettings) :
    RecordText slots {} (write level c.tree) c :=
  h.states implements (by decide) rfl
    (.cons (h.numeral _ _) (.cons (h.numeral _ _) .nil))

theorem MemorySettings.written (h : Writing write) (level : Nat) (c : MemorySettings) :
    RecordText slots {} (write level c.tree) c := by
  have hname : ModelChoice.table.lookup c.controller.name = some c.controller := by
    cases c.controller <;> rfl
  have hplain : isPlainName c.controller.name = true := by
    cases c.controller <;> decide
  exact h.states implements (by decide) rfl <|
    .cons (h.numeral _ _) <| .cons (h.numeral _ _) <| .cons (h.choice hname hplain _) <|
    .cons (h.numeral _ _) <| .cons (h.numeral _ _) <| .cons (h.numeral _ _) <|
    .cons (h.numeral _ _) <| .cons (h.numeral _ _) .nil

theorem BridgeSettings.written (h : Writing write) (level : Nat) (c : BridgeSettings) :
    RecordText slots {} (write level c.tree) c := by
  have hname : OverlapRule.table.lookup c.overlapRule.name = some c.overlapRule := by
    cases c.overlapRule <;> rfl
  have hplain : isPlainName c.overlapRule.name = true := by
    cases c.overlapRule <;> decide
  exact h.states implements (by decide) rfl (.cons (h.choice hname hplain _) .nil)

namespace Settings

/-- Settings that are written state themselves. -/
theorem written (h : Writing write) (level : Nat) (c : Settings) :
    RecordText slots {} (write level c.tree) c :=
  h.states implements (by decide) rfl <|
    .cons (FrontendSettings.written h _ c.frontend) <|
    .cons (MemorySettings.written h _ c.memory) <|
    .cons (BridgeSettings.written h _ c.bridge) .nil

/-- Settings that are written in either way are read back as they were. So whatever a text is read
as, writing that and reading it again makes no difference, to the settings or to their text. -/
theorem ofText_written :
    (∀ c : Settings, ofText c.toCompact = .ok c ∧ ofText c.toPretty = .ok c) ∧
    ∀ text,
      (ofText text).bind (fun c => ofText c.toCompact) = ofText text ∧
      (ofText text).bind (fun c => ofText c.toPretty) = ofText text ∧
      (ofText text).bind (fun c => (ofText c.toCompact).map toCompact) =
        (ofText text).map toCompact := by
  have hread : ∀ c : Settings, ofText c.toCompact = .ok c ∧ ofText c.toPretty = .ok c := by
    intro c
    have hcompact := readAs_of_stated (written writing_compact 0 c) [] [] .nil .nil
    have hpretty := readAs_of_stated (written writing_pretty 0 c) [] [] .nil .nil
    simp only [List.nil_append, List.append_nil] at hcompact hpretty
    exact ⟨hcompact, hpretty⟩
  refine ⟨hread, fun text => ?_⟩
  cases ofText text with
  | error fault => simp only [Except.bind, Except.map, and_self]
  | ok c => simp only [Except.bind, Except.map, (hread c).1, (hread c).2, and_self]

end Settings

end CycleBridge
