import CycleBridge.Json.Record
import CycleBridge.Proofs.Json.Values
import Mathlib.Data.List.Forall2
import Mathlib.Data.List.Nodup

/-!
# What a text says about a record

A record consists of places, each with its key, its value and the texts that stand for values. An
object mentions places by their keys, a list by their order, and what either says is the record that
has the mentioned values in the mentioned places and the defaults elsewhere. That is a relation
between texts and records and knows of no reader; the reader of a form turns out to be faithful to
it. Reading keeps to one invariant: a place that does not hold its final value yet is still to come
in the text.
-/

namespace CycleBridge.Json

variable {α : Type}

/-- A place of a record: its key, the value that a record has there, and which texts stand for which
values. -/
structure Slot (α : Type) where
  key : String
  Value : Type
  get : α → Value
  set : α → Value → α
  Means : List Char → Value → Prop

/-- A record has the value that is said in every place of which something is said, and the default
in every other. -/
def States (slots : List (Slot α)) (defaults : α) (said : String → Option (List Char)) (a : α) :
    Prop :=
  ∀ p ∈ slots, match said p.key with
    | some v => p.Means v (p.get a)
    | none => p.get a = p.get defaults

/-- Whether members can say something about a record: none of its keys comes twice, and what stands
under other keys is a value at least. -/
structure Fits (slots : List (Slot α)) (members : List (String × List Char)) : Prop where
  once : ∀ p ∈ slots, (members.map (·.1)).count p.key ≤ 1
  values : ∀ m ∈ members, m.1 ∉ slots.map (·.key) → IsValue m.2

/-- The elements of a list under the keys of the first places. -/
def positional (slots : List (Slot α)) (items : List (List Char)) : List (String × List Char) :=
  (slots.map (·.key)).zip items

/-- A text and the record that it states: an object with members in any order, or a list of values
for the first places. -/
inductive RecordText (slots : List (Slot α)) (defaults : α) : List Char → α → Prop where
  | object {members : List (String × List Char)} {v : List Char} {a : α} :
      ObjectText Named members v → Fits slots members →
      States slots defaults (fun key => members.lookup key) a → RecordText slots defaults v a
  | list {items : List (List Char)} {v : List Char} {a : α} :
      ListText items v → items.length ≤ slots.length →
      States slots defaults (fun key => (positional slots items).lookup key) a →
      RecordText slots defaults v a

/-- A field reads what is said about a place, and what it reads ends where passing over it ends. -/
structure Fills (p : Slot α) (f : Field α) : Prop where
  key : f.key = p.key
  isValue : ∀ {v : List Char} {b : p.Value}, p.Means v b → IsValue v
  reads : ∀ {v g rest : List Char} {b : p.Value} (a : α), p.Means v b → Gap g → Follows rest →
    f.read a (g ++ (v ++ rest)) = .ok (p.set a b, rest)
  skips : ∀ {s r : List Char} {a a' : α}, f.read a s = .ok (a', r) → skipValue s = .ok r

/-- Places that make up a record: no two have the same key, and a record is no more than what it has
in them. -/
structure Places (slots : List (Slot α)) : Prop where
  nodup : (slots.map (·.key)).Nodup
  get_set : ∀ p ∈ slots, ∀ a b, p.get (p.set a b) = b
  get_set_of_ne : ∀ p ∈ slots, ∀ q ∈ slots, p.key ≠ q.key → ∀ a b, q.get (p.set a b) = q.get a
  ext : ∀ a c, (∀ p ∈ slots, p.get a = p.get c) → a = c

/-- A form has one field for each place, in their order. -/
structure Form.Implements (form : Form α) (slots : List (Slot α)) : Prop extends Places slots where
  fields : List.Forall₂ Fills slots form.fields

/-! ## Keys and places -/

section Places

variable {slots : List (Slot α)} {form : Form α}

theorem Places.eq_of_key (h : Places slots) {p q : Slot α} (hp : p ∈ slots) (hq : q ∈ slots)
    (hkey : p.key = q.key) : p = q :=
  List.inj_on_of_nodup_map h.nodup hp hq hkey

/-- Setting a place to its final value leaves no place worse than it was. -/
theorem Places.get_set_eq (h : Places slots) {p q : Slot α} (hp : p ∈ slots) (hq : q ∈ slots)
    {a c : α} (hget : p = q ∨ q.get a = q.get c) : q.get (p.set a (p.get c)) = q.get c := by
  by_cases hkey : p.key = q.key
  · obtain rfl := h.eq_of_key hp hq hkey
    rw [h.get_set p hp]
  · rw [h.get_set_of_ne p hp q hq hkey]
    rcases hget with rfl | hget
    · exact absurd rfl hkey
    · exact hget

theorem map_key_of_fills {fields : List (Field α)} (h : List.Forall₂ Fills slots fields) :
    fields.map (·.key) = slots.map (·.key) := by
  induction h with
  | nil => rfl
  | cons hf _ ih => simp [hf.key, ih]

theorem find?_of_fills {fields : List (Field α)} (h : List.Forall₂ Fills slots fields)
    (hnodup : (slots.map (·.key)).Nodup) {p : Slot α} (hp : p ∈ slots) :
    ∃ f ∈ fields, fields.find? (·.key = p.key) = some f ∧ Fills p f := by
  induction h with
  | nil => cases hp
  | @cons p₀ f₀ slots fields hf _ ih =>
      rw [List.map_cons, List.nodup_cons] at hnodup
      rcases List.mem_cons.mp hp with rfl | hp
      · exact ⟨f₀, by simp, by simp [hf.key], hf⟩
      · obtain ⟨f, hmem, hfind, hfills⟩ := ih hnodup.2 hp
        have hne : f₀.key ≠ p.key := by
          rw [hf.key]
          intro heq
          exact hnodup.1 (heq ▸ List.mem_map_of_mem hp)
        exact ⟨f, by simp [hmem], by simp [hne, hfind], hfills⟩

theorem Form.Implements.field?_eq (h : form.Implements slots) {p : Slot α} (hp : p ∈ slots) :
    ∃ f ∈ form.fields, form.field? p.key = some f ∧ Fills p f :=
  find?_of_fills h.fields h.nodup hp

theorem Form.Implements.field?_eq_none (h : form.Implements slots) {key : String}
    (hkey : key ∉ slots.map (·.key)) : form.field? key = none := by
  rw [Form.field?, List.find?_eq_none]
  intro f hf heq
  have hmem : f.key ∈ form.fields.map (·.key) := List.mem_map_of_mem hf
  rw [map_key_of_fills h.fields, of_decide_eq_true heq] at hmem
  exact hkey hmem

theorem exists_fills_of_mem {fields : List (Field α)} (h : List.Forall₂ Fills slots fields)
    {f : Field α} (hf : f ∈ fields) : ∃ p ∈ slots, Fills p f := by
  induction h with
  | nil => cases hf
  | @cons p f₀ slots fields hp _ ih =>
      rcases List.mem_cons.mp hf with rfl | hf
      · exact ⟨p, by simp, hp⟩
      · obtain ⟨q, hq, hfills⟩ := ih hf
        exact ⟨q, by simp [hq], hfills⟩

theorem Form.Implements.exists_fills (h : form.Implements slots) {key : String} {f : Field α}
    (hf : form.field? key = some f) : ∃ p ∈ slots, p.key = key ∧ Fills p f := by
  obtain ⟨p, hp, hfills⟩ := exists_fills_of_mem h.fields (List.mem_of_find?_eq_some hf)
  have hkey : f.key = key := by simpa using List.find?_some hf
  exact ⟨p, hp, by rw [← hkey, hfills.key], hfills⟩

end Places

/-! ## Steps of the reader -/

section Steps

variable {form : Form α} {seen seen' : List String} {a a' : α} {s r : List Char}

/-- What reading a member does: it reads a field of which no key was seen, or passes over a value. -/
theorem Form.readMember_eq_ok (h : form.readMember seen a s = .ok (a', seen', r)) :
    ∃ key s₁ s₂, readString s = .ok (key, s₁) ∧ readColon s₁ = .ok s₂ ∧
      ((∃ f, form.field? key = some f ∧ key ∉ seen ∧ seen' = key :: seen ∧
          f.read a s₂ = .ok (a', r)) ∨
        form.field? key = none ∧ seen' = seen ∧ a' = a ∧ skipValue s₂ = .ok r) := by
  obtain ⟨⟨key, s₁⟩, hkey, h⟩ := bind_eq_ok.mp h
  cases hf : form.field? key with
  | some f =>
      simp only [hf] at h
      split at h
      · cases h
      next hseen =>
        obtain ⟨s₂, hcolon, h⟩ := bind_eq_ok.mp h
        obtain ⟨⟨a₁, s₃⟩, hread, h⟩ := bind_eq_ok.mp h
        cases h
        exact ⟨key, s₁, s₂, hkey, hcolon, .inl ⟨f, hf, hseen, rfl, hread⟩⟩
  | none =>
      simp only [hf] at h
      obtain ⟨s₂, hcolon, h⟩ := bind_eq_ok.mp h
      obtain ⟨s₃, hskip, h⟩ := bind_eq_ok.mp h
      cases h
      exact ⟨key, s₁, s₂, hkey, hcolon, .inr ⟨hf, rfl, rfl, hskip⟩⟩

/-- What reading members does: it finds the end of the object, or reads a member and goes on. -/
theorem Form.readMembers_eq_ok {n : Nat} {isFirst : Bool}
    (h : form.readMembers n seen isFirst a s = .ok (a', r)) :
    ∃ m, n = m + 1 ∧ (nextKey isFirst s = .ok (false, r) ∧ a' = a ∨
      ∃ s₁ a₁ seen₁ s₂, nextKey isFirst s = .ok (true, s₁) ∧
        form.readMember seen a s₁ = .ok (a₁, seen₁, s₂) ∧
        form.readMembers m seen₁ false a₁ s₂ = .ok (a', r)) := by
  cases n with
  | zero => cases h
  | succ n =>
      refine ⟨n, rfl, ?_⟩
      obtain ⟨⟨more, s₁⟩, hkey, h⟩ := bind_eq_ok.mp h
      cases more with
      | false =>
          cases h
          exact .inl ⟨hkey, rfl⟩
      | true =>
          obtain ⟨⟨a₁, seen₁, s₂⟩, hmember, h⟩ := bind_eq_ok.mp h
          exact .inr ⟨s₁, a₁, seen₁, s₂, hkey, hmember, h⟩

/-- What is found in a list: its end, or the next element, which is the first or stands behind a
comma. -/
theorem Form.nextElement_eq_ok {isFirst more : Bool}
    (h : nextElement isFirst s = .ok (more, r)) :
    more = false ∧ skipBlanks s = ']' :: r ∨
    more = true ∧ isFirst = true ∧ skipBlanks s = r ∨
    more = true ∧ isFirst = false ∧ ∃ rest, skipBlanks s = ',' :: rest ∧ skipBlanks rest = r := by
  unfold nextElement at h
  split at h
  · cases h
  next c rest hs =>
    split at h
    next hc =>
      cases h
      exact .inl ⟨rfl, by rw [hs, hc]⟩
    split at h
    next hfirst =>
      cases h
      exact .inr (.inl ⟨rfl, hfirst, hs⟩)
    next hfirst =>
      split at h
      next hc =>
        split at h
        · cases h
        next d rest' hrest =>
          split at h
          · cases h
          · cases h
            exact .inr (.inr ⟨rfl, by simpa using hfirst, rest, by rw [hs, hc], hrest⟩)
      · cases h

theorem Form.skipBlanks_of_finishList (h : finishList s = .ok r) : skipBlanks s = ']' :: r := by
  unfold finishList at h
  split at h
  · cases h
  next c rest hs =>
    split at h
    next hc =>
      cases h
      rw [hs, hc]
    · split at h <;> cases h

/-- What reading elements does: at the end of the fields it ends the list; else it finds the end of
the list, or reads an element and goes on. -/
theorem Form.readElements_eq_ok {fields : List (Field α)} {isFirst : Bool}
    (h : readElements fields isFirst a s = .ok (a', r)) :
    fields = [] ∧ finishList s = .ok r ∧ a' = a ∨
    ∃ f rest, fields = f :: rest ∧ (nextElement isFirst s = .ok (false, r) ∧ a' = a ∨
      ∃ s₁ a₁ s₂, nextElement isFirst s = .ok (true, s₁) ∧ f.read a s₁ = .ok (a₁, s₂) ∧
        readElements rest false a₁ s₂ = .ok (a', r)) := by
  cases fields with
  | nil =>
      obtain ⟨s', hs', h⟩ := bind_eq_ok.mp h
      cases h
      exact .inl ⟨rfl, hs', rfl⟩
  | cons f fields =>
      refine .inr ⟨f, fields, rfl, ?_⟩
      obtain ⟨⟨more, s₁⟩, hnext, h⟩ := bind_eq_ok.mp h
      cases more with
      | false =>
          cases h
          exact .inl ⟨hnext, rfl⟩
      | true =>
          obtain ⟨⟨a₁, s₂⟩, hread, h⟩ := bind_eq_ok.mp h
          exact .inr ⟨s₁, a₁, s₂, hnext, hread, h⟩

/-- A record is read as an object or as a list. -/
theorem Form.read_eq_ok (h : form.read s = .ok (a', r)) :
    (∃ rest, skipBlanks s = '\x7b' :: rest ∧
      form.readMembers (rest.length + 1) [] true form.defaults rest = .ok (a', r)) ∨
    ∃ rest, skipBlanks s = '[' :: rest ∧
      readElements form.fields true form.defaults rest = .ok (a', r) := by
  unfold Form.read at h
  split at h
  · cases h
  next c rest hs =>
    split at h
    next hc => exact .inl ⟨rest, by rw [hs, hc], h⟩
    split at h
    next hc => exact .inr ⟨rest, by rw [hs, hc], h⟩
    · exact absurd h wrongType_ne_ok

end Steps

/-! ## Where reading ends -/

section Skips

variable {slots : List (Slot α)} {form : Form α} {seen : List String} {a a' : α} {s r : List Char}

theorem Form.Implements.walks_of_readMember (h : form.Implements slots) {seen' : List String}
    {m : List Char} (hread : form.readMember seen a s = .ok (a', seen', m))
    {s₀ : List Char} (hs : skipBlanks s₀ = '"' :: s)
    (hrest : Walks .behindItem [.object] m r) : StartsItem .object [] s₀ r := by
  obtain ⟨key, s₁, s₂, hkey, hcolon, hvalue⟩ := Form.readMember_eq_ok hread
  obtain ⟨⟨t, s₁'⟩, ht, heq⟩ := map_eq_ok.mp hkey
  cases heq
  refine ⟨s₂, skipKey_of_readText hs ht hcolon, ?_⟩
  rcases hvalue with ⟨f, hf, -, -, hread⟩ | ⟨-, -, -, hskip⟩
  · obtain ⟨p, -, -, hp⟩ := h.exists_fills hf
    exact .of_skipValue (hp.skips hread) hrest
  · exact .of_skipValue hskip hrest

theorem Form.Implements.walks_of_readMembers (h : form.Implements slots) {n : Nat} {isFirst : Bool}
    (hread : form.readMembers n seen isFirst a s = .ok (a', r)) :
    Walks (if isFirst then .behindOpening else .behindItem) [.object] s r := by
  induction n generalizing seen isFirst a s with
  | zero => cases hread
  | succ n ih =>
      obtain ⟨m, hm, hend | ⟨s₁, a₁, seen₁, s₂, hkey, hmember, hrest⟩⟩ :=
        Form.readMembers_eq_ok hread
      · have hclose : skipBlanks s = '\x7d' :: r := by simpa using nextKey_eq_ok hend.1
        exact .closed (by cases isFirst <;> simp) hclose .done
      · cases hm
        have hwalk : Walks .behindItem [.object] s₂ r := ih hrest
        rcases nextKey_eq_ok hkey with ⟨hmore, -⟩ | ⟨-, hfirst, hs⟩ | ⟨-, hfirst, rest, hs, hs'⟩
        · cases hmore
        · rw [hfirst]
          exact (h.walks_of_readMember hmember hs hwalk).behindOpening
        · rw [hfirst]
          obtain ⟨s', hs'', hvalue⟩ := h.walks_of_readMember hmember hs' hwalk
          exact .next hs hs'' hvalue

theorem Form.walks_of_readElements {fields : List (Field α)}
    (h : List.Forall₂ Fills slots fields) {isFirst : Bool}
    (hread : readElements fields isFirst a s = .ok (a', r)) :
    Walks (if isFirst then .behindOpening else .behindItem) [.list] s r := by
  induction h generalizing isFirst a s with
  | nil =>
      rcases Form.readElements_eq_ok hread with ⟨-, hend, -⟩ | ⟨f, rest, hcons, -⟩
      · exact .closed (by cases isFirst <;> simp) (skipBlanks_of_finishList hend) .done
      · cases hcons
  | cons hf _ ih =>
      rcases Form.readElements_eq_ok hread with ⟨hnil, -⟩ | ⟨f, rest, hcons, hread⟩
      · cases hnil
      cases hcons
      rcases hread with ⟨hend, -⟩ | ⟨s₁, a₁, s₂, hnext, hvalue, hrest⟩
      · have hclose : skipBlanks s = ']' :: r := by simpa using nextElement_eq_ok hend
        exact .closed (by cases isFirst <;> simp) hclose .done
      · have hwalk : Walks .behindItem [.list] s₂ r := ih hrest
        have hitem : Walks .value [.list] s₁ r := .of_skipValue (hf.skips hvalue) hwalk
        rcases nextElement_eq_ok hnext with ⟨hmore, -⟩ | ⟨-, hfirst, rfl⟩ |
          ⟨-, hfirst, rest, hs, rfl⟩
        · cases hmore
        · rw [hfirst]
          have hstart : StartsItem .list [] s r :=
            ⟨s, rfl, hitem.value_congr (skipBlanks_skipBlanks s).symm⟩
          exact hstart.behindOpening
        · rw [hfirst]
          exact .next hs rfl (hitem.value_congr (skipBlanks_skipBlanks rest).symm)

/-- A record that is read is passed over up to the same place. -/
theorem Form.Implements.skipValue_of_read (h : form.Implements slots)
    (hread : form.read s = .ok (a, r)) : skipValue s = .ok r := by
  rw [skipValue_eq_ok_iff]
  rcases Form.read_eq_ok hread with ⟨rest, hs, hmembers⟩ | ⟨rest, hs, helements⟩
  · exact .opened (b := .object) hs (h.walks_of_readMembers hmembers)
  · exact .opened (b := .list) hs (Form.walks_of_readElements h.fields helements)

end Skips

end CycleBridge.Json
