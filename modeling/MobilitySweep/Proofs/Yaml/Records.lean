import MobilitySweep.Proofs.Yaml.Nodes
import MobilitySweep.Yaml.Decoding

/-! # Decoding documents of settings

A node that holds what a decoder looks for is decoded without a mismatch. A record is decoded entry by entry, each of
which changes one field, and fields that no entry names stay as they are.
-/

namespace MobilitySweep

namespace Yaml

/-- Decoding without mismatches and outside aliases. -/
structure Decoding.Clean (d : Decoding) : Prop where
  matched : d.mismatches = []
  unaliased : d.aliased = 0
  direct : d.following = []

theorem Decoding.start_clean : start.Clean := ⟨rfl, rfl, rfl⟩

theorem Decoding.Clean.count {d : Decoding} (h : d.Clean) : Gives d.count Decoding.Clean := by
  have haliased : (if d.following.isEmpty = true then d.aliased else d.aliased + 1) = 0 := by rw [h.direct]; exact h.unaliased
  rw [Decoding.count]
  simp only [haliased, Nat.not_lt_zero, decide_false, Bool.false_and, Bool.false_eq_true, if_false]
  exact .ok ⟨h.matched, rfl, h.direct⟩

/-- A decoder accepts a node and changes the current value in some way. -/
def Edits {α : Type} (decoder : Decoder α) (n : Node) (edit : α → α) : Prop :=
  ∀ current d, d.Clean → Gives (decoder n current d) fun r => r.1 = true ∧ r.2.1 = edit current ∧ r.2.2.Clean

namespace Edits

variable {α β : Type} {decoder : Decoder α} {n : Node} {edit : α → α}

theorem throughAliases (document : Document) (h : Edits decoder n edit)
    (hdirect : ∀ name line target place, n ≠ .aliased name line target place) (depth : Nat) :
    Edits (throughAliases document decoder (depth + 1)) n edit := by
  intro current d hd
  rw [Yaml.throughAliases]
  refine hd.count.bind fun d' hd' => ?_
  cases n with
  | aliased name line target place => exact absurd rfl (hdirect name line target place)
  | scalar => exact h current d' hd'
  | sequence => exact h current d' hd'
  | mapping => exact h current d' hd'

theorem checkingKeys (h : Edits decoder n edit) (hmapping : ∀ tag line entries, n ≠ .mapping tag line entries) :
    Edits (checkingKeys decoder) n edit := by
  intro current d hd
  cases n with
  | mapping tag line entries => exact absurd rfl (hmapping tag line entries)
  | scalar => exact h current d hd
  | sequence => exact h current d hd
  | aliased => exact h current d hd

end Edits

/-! ## Scalars -/

/-- What a spelled scalar is read as in a document: its tag and its value. -/
def Spelling.Means (s : Spelling) (tag : Bytes) (value : Value) : Prop :=
  scalarValue (Draughting.scalarTag [] s.value s.style) s.value = .ok (tag, value)

theorem means_quoted {s : Spelling} (hstyle : s.style = .quoted) : s.Means Tag.str (.text s.value) := by
  rw [Spelling.Means, hstyle]
  rfl

/-- A plain scalar is read as the value of its form. -/
theorem means_plain {s : Spelling} {value : Value} (hstyle : s.style = .plain)
    (hvalue : ∀ moments, classify moments s.value = value) (hresolvable : isResolvable value.tag = true)
    (hother : value.tag ≠ Tag.str) (hmerge : s.value ≠ ("<<" : String)) : s.Means value.tag value := by
  have htag : Draughting.scalarTag [] s.value s.style = value.tag := by
    rw [Draughting.scalarTag, hstyle, hvalue true, if_neg (by simp), if_neg (by simp), if_neg hmerge]
  have hsome : value.tag.isEmpty = false := by cases value <;> rfl
  have hbinary : value.tag ≠ Tag.binary := fun heq => absurd hresolvable (by rw [heq]; decide)
  rw [Spelling.Means, htag, scalarValue, if_neg hother, resolve?, hresolvable, if_neg (by simp), if_neg hother]
  simp only [hvalue, hsome, decide_true, Bool.or_true, if_true, hbinary, if_false]

/-- A plain scalar that is read as a text is read as its own; one that could merge mappings is a text as well. -/
theorem means_text {s : Spelling} (hstyle : s.style = .plain) (hvalue : classify true s.value = .text s.value) :
    ∃ tag, tag ≠ Tag.binary ∧ s.Means tag (.text s.value) := by
  by_cases hmerge : s.value = ("<<" : String)
  · refine ⟨Tag.merge, by decide, ?_⟩
    rw [Spelling.Means, hstyle, hmerge]
    rfl
  · refine ⟨Tag.str, by decide, ?_⟩
    have htag : Draughting.scalarTag [] s.value s.style = Tag.str := by
      rw [Draughting.scalarTag, hstyle, hvalue, if_neg (by simp), if_neg (by simp), if_neg hmerge]
      rfl
    rw [Spelling.Means, htag]
    rfl

section

variable {α : Type} {s : Spelling} {n : Node} {tag : Bytes} {value : Value}

/-- A scalar that converts to a setting is decoded to it. -/
theorem edits_scalar {convert : Bytes → Bytes → Value → Option α} {x : α} (hheld : s.HeldBy n) (hmeans : s.Means tag value)
    (hsome : value ≠ .null) (hconvert : convert tag s.value value = some x) (wanted : Bytes) :
    Edits (scalarDecoder wanted convert) n fun _ => x := by
  obtain ⟨line, rfl⟩ := hheld
  intro current d hd
  have hvalue : scalarValue (Draughting.scalarTag [] s.value s.style) s.value = .ok (tag, value) := hmeans
  rw [scalarDecoder, hvalue]
  cases value <;> first
    | exact absurd rfl hsome
    | dsimp only [bind, Except.bind]
      rw [hconvert]
      exact .ok ⟨rfl, rfl, hd⟩

/-- A setting that may be unset is set by a scalar. -/
theorem edits_optional {decoder : Decoder α} {x : α} (hheld : s.HeldBy n) (hmeans : s.Means tag value)
    (hsome : value ≠ .null) (hdecoder : Edits decoder n fun _ => x) (initial : α) (wanted : Bytes) :
    Edits (optionalDecoder initial wanted decoder) n fun _ => some x := by
  obtain ⟨line, rfl⟩ := hheld
  intro current d hd
  have hvalue : scalarValue (Draughting.scalarTag [] s.value s.style) s.value = .ok (tag, value) := hmeans
  rw [optionalDecoder]
  dsimp only
  rw [hvalue]
  cases value <;> first
    | exact absurd rfl hsome
    | refine (hdecoder (current.getD initial) d hd).bind ?_
      rintro ⟨good, y, d'⟩ ⟨rfl, rfl, hd'⟩
      exact .ok ⟨rfl, rfl, hd'⟩

end

/-! ## Lists -/

section

variable {α : Type} {item : Decoder α}

/-- Items are decoded one after another. -/
theorem decodeItems_gives {nodes : List Node} {xs : List α} (h : List.Forall₂ (fun n x => Edits item n fun _ => x) nodes xs)
    (initial : α) (found : List α) {d : Decoding} (hd : d.Clean) :
    Gives (decodeItems initial item nodes found d) fun r => r.1 = found.reverse ++ xs ∧ r.2.Clean := by
  induction h generalizing found d with
  | nil => exact .ok ⟨(List.append_nil _).symm, hd⟩
  | @cons n x nodes xs hitem _ ih =>
      rw [decodeItems]
      refine (hitem initial d hd).bind ?_
      rintro ⟨good, y, d'⟩ ⟨rfl, rfl, hd'⟩
      exact (ih (y :: found) hd').mono fun r hr => ⟨hr.1.trans (by simp), hr.2⟩

theorem edits_list {tag : Bytes} {line : Nat} {nodes : List Node} {xs : List α}
    (h : List.Forall₂ (fun n x => Edits item n fun _ => x) nodes xs) (wanted : Bytes) (initial : α) :
    Edits (listDecoder wanted initial item) (.sequence tag line nodes) fun _ => some xs := by
  intro current d hd
  refine (decodeItems_gives h initial [] hd).bind ?_
  rintro ⟨found, d'⟩ ⟨rfl, hd'⟩
  exact .ok ⟨rfl, rfl, hd'⟩

end

/-! ## Records -/

/-- A part of a record as it is written: its name, the nodes that may hold it, and what it changes. -/
structure Part (α : Type) where
  name : List Char
  held : Node → Prop
  edit : α → α

namespace Part

variable {α : Type} {fields : List (Slot α)} {key : Decoder Bytes} {parts : List (Part α)} {entries : List (Node × Node)}

/-- The nodes of a part. -/
def HeldBy (x : Part α) (entry : Node × Node) : Prop := (nameSpelling x.name).HeldBy entry.1 ∧ x.held entry.2

/-- A part whose name is that of a field and is read as a key, and whose nodes change the field. -/
structure Applies (fields : List (Slot α)) (key : Decoder Bytes) (x : Part α) : Prop where
  named : ∀ n, (nameSpelling x.name).HeldBy n → n.isMerge = false ∧ Edits key n fun _ => Utf8.encode x.name
  field : ∃ slot, fields.find? (·.name = Utf8.encode x.name) = some slot ∧
    ∀ n, x.held n → ∀ record d, d.Clean → Gives (slot.decode n record d) fun r => r.1 = x.edit record ∧ r.2.Clean

/-- What parts change one after another. -/
def editAll (parts : List (Part α)) (record : α) : α := parts.foldl (fun r x => x.edit r) record

/-- An entry is taken into a record. -/
theorem takeEntry_gives {x : Part α} (h : x.Applies fields key) {entry : Node × Node} (hentry : x.HeldBy entry)
    (wanted : Bytes) {s : RecordState α} (hclean : s.decoding.Clean) (hdone : Utf8.encode x.name ∉ s.done)
    (hprecedence : s.precedence = none) :
    Gives (takeEntry wanted fields key entry s) fun s' => s'.record = x.edit s.record ∧ s'.decoding.Clean ∧
      s'.done = Utf8.encode x.name :: s.done ∧ s'.precedence = none ∧ s'.merge = s.merge := by
  obtain ⟨hmerge, hkey⟩ := h.named entry.1 hentry.1
  obtain ⟨slot, hfind, hslot⟩ := h.field
  have hfresh : s.done.contains (Utf8.encode x.name) = false := by simpa using hdone
  rw [takeEntry, hmerge, if_neg (by simp)]
  refine (hkey [] s.decoding hclean).bind ?_
  rintro ⟨good, name, d⟩ ⟨rfl, rfl, hd⟩
  dsimp only
  rw [if_neg (by simp), hprecedence]
  dsimp only
  rw [takeEntry.takeField, hfind]
  dsimp only
  rw [hfresh, if_neg (by simp)]
  refine (hslot entry.2 hentry.2 s.record d hd).bind ?_
  rintro ⟨record, d'⟩ ⟨rfl, hd'⟩
  exact .ok ⟨rfl, hd', rfl, rfl, rfl⟩

/-- Entries are taken into a record one after another. -/
theorem takeEntries_gives (happlies : ∀ x ∈ parts, x.Applies fields key) (hentries : List.Forall₂ HeldBy parts entries)
    (wanted : Bytes) (hnames : (parts.map fun x => Utf8.encode x.name).Nodup) {s : RecordState α}
    (hclean : s.decoding.Clean) (hdone : ∀ x ∈ parts, Utf8.encode x.name ∉ s.done) (hprecedence : s.precedence = none) :
    Gives (takeEntries wanted fields key entries s) fun s' =>
      s'.record = editAll parts s.record ∧ s'.decoding.Clean ∧ s'.precedence = none ∧ s'.merge = s.merge := by
  induction hentries generalizing s with
  | nil => exact .ok ⟨rfl, hclean, hprecedence, rfl⟩
  | @cons x entry parts entries hentry _ ih =>
      rw [List.forall_mem_cons] at happlies hdone
      rw [List.map_cons, List.nodup_cons] at hnames
      rw [takeEntries]
      refine (takeEntry_gives happlies.1 hentry wanted hclean hdone.1 hprecedence).bind ?_
      rintro s' ⟨hrecord, hclean', hdone', hprecedence', hmerge'⟩
      have hfresh : ∀ y ∈ parts, Utf8.encode y.name ∉ s'.done := by
        intro y hy
        rw [hdone', List.mem_cons, not_or]
        exact ⟨fun heq => hnames.1 (heq ▸ List.mem_map_of_mem hy), hdone.2 y hy⟩
      refine (ih happlies.2 hnames.2 hclean' hfresh hprecedence').mono ?_
      rintro s'' ⟨hrecord'', hrest⟩
      refine ⟨?_, hrest.1, hrest.2.1, hrest.2.2.trans hmerge'⟩
      rw [hrecord'', hrecord]
      rfl

theorem exists_heldBy (hentries : List.Forall₂ HeldBy parts entries) {entry : Node × Node} (h : entry ∈ entries) :
    ∃ x ∈ parts, x.HeldBy entry := by
  induction hentries with
  | nil => exact absurd h (by simp)
  | @cons x first parts entries hfirst _ ih =>
      rcases List.mem_cons.mp h with rfl | h
      · exact ⟨x, List.mem_cons_self, hfirst⟩
      · obtain ⟨y, hy, hheld⟩ := ih h
        exact ⟨y, List.mem_cons_of_mem x hy, hheld⟩

/-- The keys of parts with different names are not repeated. -/
theorem repeatedKeys_eq (hentries : List.Forall₂ HeldBy parts entries)
    (hnames : (parts.map fun x => Utf8.encode x.name).Nodup) (d : Decoding) : repeatedKeys entries d = d := by
  induction hentries with
  | nil => rfl
  | @cons x entry parts entries hentry hentries ih =>
      rw [List.map_cons, List.nodup_cons] at hnames
      have hother : ∀ e ∈ entries, entry.1.sameKey e.1 = false := by
        intro e he
        obtain ⟨y, hy, ⟨line, hkey⟩, -⟩ := exists_heldBy hentries he
        obtain ⟨line', hkey'⟩ := hentry.1
        have hne : Utf8.encode x.name ≠ Utf8.encode y.name := fun heq => hnames.1 (heq ▸ List.mem_map_of_mem hy)
        have htext : entry.1.text ≠ e.1.text := by
          rw [hkey, hkey']
          exact hne
        simp [Node.sameKey, htext]
      have hfold : ∀ (message : Node × Node → Bytes) (later : List (Node × Node)), (∀ e ∈ later, entry.1.sameKey e.1 = false) →
          later.foldl (fun d e => if entry.1.sameKey e.1 then d.note (message e) else d) d = d := by
        intro message later hlater
        induction later with
        | nil => rfl
        | cons e later ih =>
            rw [List.forall_mem_cons] at hlater
            rw [List.foldl_cons, hlater.1, if_neg (by simp), ih hlater.2]
      rw [repeatedKeys]
      rw [hfold _ entries hother, ih hnames.2]

/-- A mapping of parts is decoded into a record. -/
theorem edits_record (happlies : ∀ x ∈ parts, x.Applies fields key) (hentries : List.Forall₂ HeldBy parts entries)
    (hnames : (parts.map fun x => Utf8.encode x.name).Nodup) (document : Document) (wanted : Bytes) (tag : Bytes)
    (line depth : Nat) :
    Edits (recordDecoder document wanted fields key (depth + 1)) (.mapping tag line entries) (editAll parts) := by
  intro record d hd
  have htaken := takeEntries_gives happlies hentries wanted hnames (s := ⟨record, d, [], none, none⟩) hd (by simp) rfl
  have hmapping : Gives (recordMapping document wanted fields key (depth + 1) entries none record d) fun r =>
      r.1 = editAll parts record ∧ r.2.2.Clean := by
    rw [recordMapping, repeatedKeys_eq hentries hnames, if_neg (by simp)]
    refine htaken.bind ?_
    rintro s' ⟨hrecord, hclean, hprecedence, hmerge⟩
    dsimp only at hmerge
    rw [hmerge]
    exact .ok ⟨hrecord, hclean⟩
  refine hmapping.bind ?_
  rintro ⟨record', precedence, d'⟩ ⟨rfl, hd'⟩
  exact .ok ⟨rfl, rfl, hd'⟩

end Part

/-- A field changed by a decoder. -/
theorem slot_gives {α β : Type} {decoder : Decoder β} {n : Node} {edit : β → β} (h : Edits decoder n edit) (name : Bytes)
    (get : α → β) (set : α → β → α) (record : α) {d : Decoding} (hd : d.Clean) :
    Gives ((Slot.of name decoder get set).decode n record d) fun r => r.1 = set record (edit (get record)) ∧ r.2.Clean := by
  refine (h (get record) d hd).bind ?_
  rintro ⟨good, y, d'⟩ ⟨-, rfl, hd'⟩
  exact .ok ⟨rfl, hd'⟩

end Yaml

end MobilitySweep
