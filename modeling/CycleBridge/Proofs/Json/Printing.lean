import CycleBridge.Proofs.Json.Stated

/-!
# What is written is of the grammar

Both ways of writing a tree, on one line and over several, write objects of the grammar as long as
the keys need no escapes: the blanks of the second are the gaps of the grammar. What is written
about all places of a record, in their order, states the record.
-/

namespace CycleBridge.Json

theorem Gap.replicate (n : Nat) : Gap (List.replicate n ' ') := by
  intro c hc
  rw [List.eq_of_mem_replicate hc]
  decide

theorem Gap.newLine (level : Nat) : Gap (newLine level) := .cons (by decide) (.replicate _)

namespace Tree

variable {members : List (String × Tree)}

/-- Whether all keys of members are written as themselves. -/
def PlainKeys (members : List (String × Tree)) : Prop :=
  ∀ m ∈ members, isPlainName m.1 = true

theorem PlainKeys.tail {m : String × Tree} (h : PlainKeys (m :: members)) : PlainKeys members :=
  fun m' hm' => h m' (by simp [hm'])

theorem separated_compactMembers (hne : members ≠ []) (hplain : PlainKeys members) :
    Separated (MemberText Named) (members.map fun m => (m.1, m.2.compact))
      (compactMembers members) := by
  induction members with
  | nil => exact absurd rfl hne
  | cons m rest ih =>
      have hm : MemberText Named (m.1, m.2.compact) (quotedName m.1 ++ ':' :: m.2.compact) := by
        simpa [inQuotes, quotedName] using
          memberText_of_named (named_self (hplain m (by simp))) .nil .nil .nil m.2.compact
      cases rest with
      | nil => simpa [compactMembers] using Separated.one hm
      | cons m' rest =>
          have htail := ih (by simp) hplain.tail
          simpa [compactMembers] using Separated.more hm htail

theorem objectText_compact (hplain : PlainKeys members) :
    ObjectText Named (members.map fun m => (m.1, m.2.compact)) (object members).compact := by
  cases members with
  | nil => exact .empty .nil
  | cons m rest =>
      rw [compact]
      exact .filled (separated_compactMembers (by simp) hplain)

theorem separated_prettyMembers {level : Nat} {g : List Char} (hg : Gap g) (hne : members ≠ [])
    (hplain : PlainKeys members) :
    Separated (MemberText Named) (members.map fun m => (m.1, m.2.pretty level))
      (prettyMembers level members ++ g) := by
  induction members with
  | nil => exact absurd rfl hne
  | cons m rest ih =>
      have hm : ∀ g, Gap g → MemberText Named (m.1, m.2.pretty level)
          (newLine level ++ quotedName m.1 ++ ':' :: ([' '] ++ m.2.pretty level ++ g)) :=
        fun g hg => memberText_of_named (named_self (hplain m (by simp))) (.newLine level)
          (.cons (by decide) .nil) hg _
      cases rest with
      | nil => simpa [prettyMembers] using Separated.one (hm g hg)
      | cons m' rest =>
          have htail := ih (by simp) hplain.tail
          simpa [prettyMembers] using Separated.more (hm [] .nil) htail

theorem objectText_pretty (level : Nat) (hplain : PlainKeys members) :
    ObjectText Named (members.map fun m => (m.1, m.2.pretty (level + 1)))
      ((object members).pretty level) := by
  cases members with
  | nil => exact .empty .nil
  | cons m rest =>
      rw [pretty, List.cons_append]
      exact .filled (separated_prettyMembers (.newLine level) (by simp) hplain)

end Tree

/-- A text about all places in their order states the record that has what it says in each. -/
theorem RecordText.of_positional {α : Type} {slots : List (Slot α)} {defaults a : α}
    {items : List (List Char)} {v : List Char} (hnodup : (slots.map (·.key)).Nodup)
    (hv : ObjectText Named (positional slots items) v)
    (hmeans : List.Forall₂ (fun p w => p.Means w (p.get a)) slots items) :
    RecordText slots defaults v a := by
  obtain ⟨hlen, hzip⟩ := List.forall₂_iff_zip.mp hmeans
  have hkeys : (positional slots items).map (·.1) = slots.map (·.key) := by
    simp [positional, List.map_fst_zip, hlen]
  refine .object hv ⟨fun p _ => ?_, fun m hm hunknown => ?_⟩ fun p hp => ?_
  · rw [hkeys]
    exact List.nodup_iff_count_le_one.mp hnodup p.key
  · refine absurd ?_ hunknown
    rw [← hkeys]
    exact List.mem_map_of_mem hm
  · obtain ⟨i, hi, rfl⟩ := List.getElem_of_mem hp
    have hmem : (slots[i], items[i]) ∈ slots.zip items := getElem_mem_zip hi (hlen ▸ hi)
    simpa only [lookup_positional hnodup hmem] using hzip hmem

/-- A way of writing trees, at any level of indentation: numbers by their digits, names between
quotes, and objects of the grammar with their members one level further in. -/
structure Writing (write : Nat → Tree → List Char) : Prop where
  number : ∀ level n, write level (.number n) = digits n
  name : ∀ level s, write level (.name s) = quotedName s
  object : ∀ level members, Tree.PlainKeys members →
    ObjectText Named (members.map fun m => (m.1, write (level + 1) m.2))
      (write level (.object members))

/-- On one line. -/
theorem writing_compact : Writing fun _ t => t.compact where
  number _ _ := by rw [Tree.compact]
  name _ _ := by rw [Tree.compact]
  object _ _ := Tree.objectText_compact

/-- Over several lines. -/
theorem writing_pretty : Writing fun level t => t.pretty level where
  number _ _ := by rw [Tree.pretty]
  name _ _ := by rw [Tree.pretty]
  object level _ := Tree.objectText_pretty level

namespace Writing

variable {write : Nat → Tree → List Char}

theorem numeral (h : Writing write) (level n : Nat) :
    NumeralText (write level (.number n)) n := by
  rw [h.number]
  exact numeralText_digits n

theorem choice (h : Writing write) {β : Type} {table : List (String × β)} {s : String} {b : β}
    (hb : table.lookup s = some b) (hplain : isPlainName s = true) (level : Nat) :
    ChoiceText table (write level (.name s)) b := by
  rw [h.name]
  exact ⟨s, hb, .inl ⟨s.toList, named_self hplain, rfl⟩⟩

/-- An object about all places of a record, in their order, states the record. -/
theorem states (h : Writing write) {α : Type} {slots : List (Slot α)} {form : Form α}
    {defaults a : α} {members : List (String × Tree)} {level : Nat}
    (himplements : form.Implements slots)
    (hplain : ∀ key ∈ slots.map (·.key), isPlainName key = true)
    (hkeys : members.map (·.1) = slots.map (·.key))
    (hmeans : List.Forall₂ (fun p m => p.Means (write (level + 1) m.2) (p.get a)) slots members) :
    RecordText slots defaults (write level (.object members)) a := by
  have htexts : positional slots (members.map fun m => write (level + 1) m.2) =
      members.map fun m => (m.1, write (level + 1) m.2) := by
    rw [positional, ← hkeys, List.zip_map']
  refine .of_positional himplements.nodup ?_ (List.forall₂_map_right_iff.mpr hmeans)
  rw [htexts]
  refine h.object level members fun m hm => hplain m.1 ?_
  rw [← hkeys]
  exact List.mem_map_of_mem hm

end Writing

end CycleBridge.Json
