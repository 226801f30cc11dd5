import MobilitySweep.Proofs.Yaml.Events
import MobilitySweep.Yaml.Node

/-! # Documents of sections and settings

A document of this kind is a mapping of sections, each of which is a mapping of settings, and a setting holds a scalar
or a list of scalars. The text of such a document is read as the nodes of its sections, settings and scalars.
-/

namespace MobilitySweep

namespace Yaml

/-! ## Sections and settings -/

/-- What a setting holds. -/
inductive Content where
  | scalar (s : Spelling)
  | list (items : List Spelling)

/-- A setting with its name. -/
structure Setting where
  name : List Char
  content : Content

/-- A section with its settings. -/
structure Section where
  name : List Char
  settings : List Setting

namespace Setting

/-- The lines of a setting: a list has one for each item, unless it is empty. -/
def rows (s : Setting) : List Row :=
  match s.content with
  | .scalar value => [.named s.name (.scalar value)]
  | .list [] => [.named s.name .nothing]
  | .list (item :: items) => .named s.name .items :: (item :: items).map .item

end Setting

namespace Section

/-- The lines of a section. -/
def rows (s : Section) : List Row := .named s.name .settings :: s.settings.flatMap Setting.rows

end Section

/-! ## Tokens -/

/-- The tokens of the items of a list. -/
def itemKinds (items : List Spelling) : List TokenKind := items.flatMap fun s => [.blockEntry, s.kind]

namespace Content

/-- The tokens of a content. -/
def kinds : Content → List TokenKind
  | scalar s => [s.kind]
  | list [] => [.flowSequenceStart, .flowSequenceEnd]
  | list (item :: items) => .blockSequenceStart :: (itemKinds (item :: items) ++ [.blockEnd])

end Content

/-- The tokens of a setting. -/
def Setting.kinds (s : Setting) : List TokenKind := .key :: Row.nameKind s.name :: .value :: s.content.kinds

/-- The tokens of a section. -/
def Section.kinds (s : Section) : List TokenKind :=
  .key :: Row.nameKind s.name :: .value :: .blockMappingStart :: (s.settings.flatMap Setting.kinds ++ [.blockEnd])

namespace Row

variable {rest : List Row}

/-- A row in the innermost block neither opens nor closes one. -/
theorem tokens_same (depth : Nat) (r : Row) (h : r.depth = depth) (rows : List Row) :
    tokens depth (r :: rows) = r.kinds ++ tokens depth rows := by
  simp [tokens, h]

theorem tokens_items (items : List Spelling) (h : firstDepth rest ≤ 2) :
    tokens 3 (items.map .item ++ rest) = itemKinds items ++ .blockEnd :: tokens 2 rest := by
  induction items with
  | nil => exact tokens_closed h
  | cons s items ih => rw [List.map_cons, List.cons_append, tokens_same 3 (.item s) rfl, ih]; rfl

theorem tokens_setting (s : Setting) (h : firstDepth rest ≤ 2) :
    tokens 2 (s.rows ++ rest) = s.kinds ++ tokens 2 rest := by
  obtain ⟨name, _ | _ | ⟨item, items⟩⟩ := s
  · exact tokens_same 2 (.named name (.scalar _)) rfl rest
  · exact tokens_same 2 (.named name .nothing) rfl rest
  · have hitems := tokens_items (item :: items) h
    rw [Setting.rows, List.cons_append, tokens_same 2 (.named name .items) rfl, List.map_cons, List.cons_append, tokens_opened rfl,
      ← List.cons_append, ← List.map_cons, hitems]
    simp [kinds, Holding.kinds, opening, Setting.kinds, Content.kinds]

theorem firstDepth_settings (settings : List Setting) (h : firstDepth rest ≤ 2) :
    firstDepth (settings.flatMap Setting.rows ++ rest) ≤ 2 := by
  cases settings with
  | nil => exact h
  | cons s settings => obtain ⟨name, _ | _ | ⟨item, items⟩⟩ := s <;> exact le_rfl

theorem tokens_settings (settings : List Setting) (h : firstDepth rest ≤ 1) :
    tokens 2 (settings.flatMap Setting.rows ++ rest) = settings.flatMap Setting.kinds ++ .blockEnd :: tokens 1 rest := by
  induction settings with
  | nil => exact tokens_closed h
  | cons s settings ih =>
      have hdepth := firstDepth_settings settings (h.trans one_le_two)
      rw [List.flatMap_cons, List.flatMap_cons, List.append_assoc, List.append_assoc, tokens_setting s hdepth, ih]

theorem tokens_section {s : Section} (hsome : s.settings ≠ []) (h : firstDepth rest ≤ 1) :
    tokens 1 (s.rows ++ rest) = s.kinds ++ tokens 1 rest := by
  obtain ⟨first, settings, hsettings⟩ := List.exists_cons_of_ne_nil hsome
  obtain ⟨r, rows, hrows, hdepth⟩ : ∃ r rows, s.settings.flatMap Setting.rows = r :: rows ∧ r.depth = 2 := by
    obtain ⟨name, _ | _ | ⟨item, items⟩⟩ := first <;> exact ⟨_, _, by rw [hsettings]; rfl, rfl⟩
  have hopening : r.opening = .blockMappingStart := by
    cases r with
    | named name held => rfl
    | item s => exact absurd hdepth (show 3 ≠ 2 by decide)
  have htokens := tokens_settings s.settings h
  rw [Section.rows, List.cons_append, tokens_same 1 (.named s.name .settings) rfl, hrows, List.cons_append,
    tokens_opened hdepth, hopening, ← List.cons_append, ← hrows, htokens]
  simp [kinds, Holding.kinds, Section.kinds]

theorem firstDepth_sections (sections : List Section) : firstDepth (sections.flatMap Section.rows) ≤ 1 := by
  cases sections with
  | nil => exact Nat.zero_le 1
  | cons s sections => exact le_rfl

/-- The tokens of a document are those of its sections in a block of their own. -/
theorem tokens_sections {sections : List Section} (hsome : sections ≠ []) (hsections : ∀ s ∈ sections, s.settings ≠ []) :
    tokens 0 (sections.flatMap Section.rows) =
      .blockMappingStart :: (sections.flatMap Section.kinds ++ [TokenKind.blockEnd, .streamEnd]) := by
  have hrest : tokens 1 (sections.flatMap Section.rows) =
      sections.flatMap Section.kinds ++ [TokenKind.blockEnd, .streamEnd] := by
    clear hsome
    induction sections with
    | nil => rfl
    | cons s sections ih =>
        obtain ⟨hs, hsections⟩ := List.forall_mem_cons.mp hsections
        rw [List.flatMap_cons, List.flatMap_cons, tokens_section hs (firstDepth_sections sections), ih hsections,
          List.append_assoc]
  obtain ⟨s, sections, rfl⟩ := List.exists_cons_of_ne_nil hsome
  rw [← hrest, List.flatMap_cons, Section.rows, List.cons_append, tokens_opened rfl]
  rfl

end Row

/-! ## Nodes -/

/-- A node that holds a scalar. -/
def Spelling.HeldBy (s : Spelling) (n : Node) : Prop :=
  ∃ line, n = .scalar (Draughting.scalarTag [] s.value s.style) line s.value

namespace Content

/-- A node that holds a content. -/
def HeldBy : Content → Node → Prop
  | scalar s, n => s.HeldBy n
  | list items, n => ∃ line nodes, n = .sequence Tag.sequence line nodes ∧ List.Forall₂ Spelling.HeldBy items nodes

end Content

/-- A name as a key. -/
def nameSpelling (name : List Char) : Spelling := ⟨name, Utf8.encode name, .plain⟩

/-- The nodes of a setting: its name and its content. -/
def Setting.HeldBy (s : Setting) (entry : Node × Node) : Prop :=
  (nameSpelling s.name).HeldBy entry.1 ∧ s.content.HeldBy entry.2

/-- The nodes of a section: its name and the mapping of its settings. -/
def Section.HeldBy (s : Section) (entry : Node × Node) : Prop :=
  (nameSpelling s.name).HeldBy entry.1 ∧
    ∃ line entries, entry.2 = .mapping Tag.mapping line entries ∧ List.Forall₂ Setting.HeldBy s.settings entries

/-! ## Construction -/

namespace Draughting

open Yaml.Parser

variable {d : Draughting} {p : Parser} {count : Nat} {good : Draughting → Parser → Prop} {pending : List Expectation}
  {ks : List TokenKind} {e' : Expectation}

/-- Nodes put one after another where they belong. -/
def placeAll (d : Draughting) (nodes : List Node) : Draughting := nodes.foldl place d

theorem placeAll_cons (frame : Frame) (frames : List Frame) (nodes : List Node) :
    placeAll { d with frames := frame :: frames } nodes =
      { d with frames := { frame with children := nodes.reverse ++ frame.children } :: frames } := by
  induction nodes generalizing frame with
  | nil => rfl
  | cons n nodes ih => rw [placeAll, List.foldl_cons, place, ← placeAll, ih]; simp

/-- A collection that is opened, filled and closed becomes a node. -/
theorem closeFrame_placeAll (isMapping : Bool) (tag : Bytes) (line : Nat) (nodes : List Node) :
    ((d.openFrame isMapping [] tag line).placeAll nodes).closeFrame =
      d.place (if isMapping then .mapping tag line (pairs nodes) else .sequence tag line nodes) := by
  have hopen : d.openFrame isMapping [] tag line = { d with frames := ⟨isMapping, tag, line, none, []⟩ :: d.frames } := rfl
  rw [hopen, placeAll_cons]
  simp [closeFrame, keep]

/-- Keys and values one after another. -/
def flattened (entries : List (Node × Node)) : List Node := entries.flatMap fun entry => [entry.1, entry.2]

theorem pairs_flattened (entries : List (Node × Node)) : pairs (flattened entries) = entries := by
  induction entries with
  | nil => rfl
  | cons entry entries ih =>
      have hcons : flattened (entry :: entries) = entry.1 :: entry.2 :: flattened entries := rfl
      rw [hcons, pairs, ih]

/-- From a construction and a parser so many events are taken without a flaw before the document ends, and what they
lead to is of some kind. -/
def Grows : Nat → (Draughting → Parser → Prop) → Draughting → Parser → Prop
  | 0, good, d, p => good d p
  | count + 1, good, d, p => Gives p.step fun r =>
    r.2.flaw? = none ∧ r.1.kind ≠ .documentEnd ∧ r.1.kind ≠ .streamEnd ∧ Gives (d.take r.1) fun d' => Grows count good d' r.2

/-- An event that does not end the document is taken. -/
theorem complete_succ {e : Event} {q : Parser} (hstep : p.step = .ok (e, q)) (hflaw : q.flaw? = none)
    (hdocument : e.kind ≠ .documentEnd) (hstream : e.kind ≠ .streamEnd) (count : Nat) (d : Draughting) :
    complete (count + 1) d p = (d.take e).bind fun d' => complete count d' q := by
  rw [complete, hstep]
  dsimp only [bind, Except.bind]
  rw [hflaw]
  split
  next heq => exact absurd heq (by simp)
  next heq => exact absurd heq hdocument
  next heq => exact absurd heq hstream
  next => rfl

/-- The document ends. -/
theorem complete_end {e : Event} {q : Parser} (hstep : p.step = .ok (e, q)) (hflaw : q.flaw? = none)
    (hdocument : e.kind = .documentEnd) (count : Nat) (d : Draughting) : complete (count + 1) d p = .ok d := by
  rw [complete, hstep]
  dsimp only [bind, Except.bind]
  rw [hflaw, hdocument]
  rfl

theorem Grows.complete (h : Grows count good d p) (more : Nat) :
    ∃ d' p', good d' p' ∧ complete (more + count) d p = complete more d' p' := by
  induction count generalizing d p with
  | zero => exact ⟨d, p, h, rfl⟩
  | succ count ih =>
      obtain ⟨⟨e, q⟩, hstep, hflaw, hdocument, hstream, d', htake, hrest⟩ := h
      obtain ⟨d'', p', hgood, hcomplete⟩ := ih hrest
      refine ⟨d'', p', hgood, ?_⟩
      rw [← hcomplete, ← Nat.add_assoc, complete_succ hstep hflaw hdocument hstream, htake]
      rfl

/-- An event is taken. -/
theorem grows_step {kind : EventKind} {later : Parser → Prop}
    (hstep : Gives p.step fun r => r.1.kind = kind ∧ later r.2) (hflaw : ∀ q, later q → q.flaw? = none)
    (hdocument : kind ≠ .documentEnd) (hstream : kind ≠ .streamEnd)
    (hnext : ∀ mark q, later q → Gives (d.take ⟨kind, mark⟩) fun d' => Grows count good d' q) :
    Grows (count + 1) good d p := by
  refine hstep.mono ?_
  rintro ⟨⟨kind', mark⟩, q⟩ ⟨rfl, hlater⟩
  exact ⟨hflaw q hlater, hdocument, hstream, hnext mark q hlater⟩

theorem take_scalar (d : Draughting) (s : Spelling) (mark : Mark) :
    ∃ n, s.HeldBy n ∧ d.take ⟨.scalar [] [] s.value s.style, mark⟩ = .ok (d.place n) := ⟨_, ⟨_, rfl⟩, rfl⟩

/-- A scalar is put where it belongs. -/
theorem grows_scalar {s : Spelling} {later : Parser → Prop}
    (hstep : Gives p.step fun r => r.1.kind = .scalar [] [] s.value s.style ∧ later r.2)
    (hflaw : ∀ q, later q → q.flaw? = none)
    (hnext : ∀ n q, s.HeldBy n → later q → Grows count good (d.place n) q) : Grows (count + 1) good d p := by
  refine grows_step hstep hflaw (by simp) (by simp) fun mark q hlater => ?_
  obtain ⟨n, hheld, htake⟩ := d.take_scalar s mark
  exact ⟨_, htake, hnext n q hheld hlater⟩

/-! ### Lists -/

/-- The items of a list are put where they belong. -/
theorem grows_items {items : List Spelling} (h : AtEntry pending (itemKinds items ++ ks) p)
    (hnext : ∀ nodes q, List.Forall₂ Spelling.HeldBy items nodes → AtEntry pending ks q → Grows count good (d.placeAll nodes) q) :
    Grows (count + items.length) good d p := by
  induction items generalizing d p with
  | nil => exact hnext [] p .nil h
  | cons s items ih =>
      have hstep : Gives p.step fun r => r.1.kind = .scalar [] [] s.value s.style ∧
          Poised .blockSequenceEntry pending (itemKinds items ++ ks) r.2 :=
        h.step fun _ _ hq => hq.blockSequenceEntry_scalar
      refine grows_scalar hstep (fun _ hq => hq.flaw?) fun n q hn hq => ?_
      exact ih (.later hq) fun nodes q' hnodes hq' => hnext (n :: nodes) q' (.cons hn hnodes) hq'

/-- How many events a content is. -/
def Content.events : Content → Nat
  | .scalar _ => 1
  | .list items => items.length + 2

/-- The content of a setting is put where it belongs. -/
theorem grows_content {content : Content} (h : Poised .blockMappingValue pending (.value :: (content.kinds ++ ks)) p)
    (hnext : ∀ n q, content.HeldBy n → Poised .blockMappingKey pending ks q → Grows count good (d.place n) q) :
    Grows (count + Content.events content) good d p := by
  obtain s | _ | ⟨item, items⟩ := content
  · exact grows_scalar h.step_scalarValue (fun _ hq => hq.flaw?) hnext
  · refine grows_step (h.step_openingValue .flow) (fun _ hq => hq.flaw?) (by simp) (by simp) fun mark q hq => ?_
    refine .ok (grows_step hq.step_bracket (fun _ hq => hq.flaw?) (by simp) (by simp) fun mark' q' hq' => .ok ?_)
    have hclosed := closeFrame_placeAll (d := d) false Tag.sequence (mark.line + 1) []
    exact hclosed ▸ hnext _ q' ⟨_, [], rfl, .nil⟩ hq'
  · have hcount : count + Content.events (.list (item :: items)) = count + 1 + (item :: items).length + 1 := by
      simp only [Content.events]
      omega
    rw [hcount]
    refine grows_step (h.step_openingValue .sequence) (fun _ hq => hq.flaw?) (by simp) (by simp) fun mark q hq => ?_
    have hitems : AtEntry (.blockMappingKey :: pending) (itemKinds (item :: items) ++ .blockEnd :: ks) q :=
      .first (by simpa using hq)
    refine .ok (grows_items hitems ?_)
    intro nodes q' hnodes hq'
    refine grows_step (hq'.step fun _ _ hq => hq.blockSequenceEntry_end) (fun _ hq => hq.flaw?) (by simp) (by simp)
      fun mark' q'' hq'' => .ok ?_
    have hclosed := closeFrame_placeAll (d := d) false Tag.sequence (mark.line + 1) nodes
    exact hclosed ▸ hnext _ q'' ⟨_, nodes, rfl, hnodes⟩ hq''

/-! ### Mappings -/

/-- A key is put where it belongs. -/
theorem grows_name {name : List Char} (h : AtKey pending (.key :: Row.nameKind name :: ks) p)
    (hnext : ∀ n q, (nameSpelling name).HeldBy n → Poised .blockMappingValue pending ks q → Grows count good (d.place n) q) :
    Grows (count + 1) good d p :=
  grows_scalar (s := nameSpelling name) (h.step fun _ _ hq => hq.blockMappingKey_key) (fun _ hq => hq.flaw?) hnext

/-- The end of a mapping. -/
theorem grows_mappingEnd (h : AtKey (e' :: pending) (.blockEnd :: ks) p)
    (hnext : ∀ q, Poised e' pending ks q → Grows count good d.closeFrame q) : Grows (count + 1) good d p :=
  grows_step (h.step fun _ _ hq => hq.blockMappingKey_end) (fun _ hq => hq.flaw?) (by simp) (by simp)
    fun _ q hq => .ok (hnext q hq)

/-- The entries of a mapping are put where they belong, if each of them is. -/
theorem grows_entries {α : Type} {kinds : α → List TokenKind} {events : α → Nat} {held : α → Node × Node → Prop}
    (hentry : ∀ (x : α) (pending : List Expectation) (ks : List TokenKind) (count : Nat)
      (good : Draughting → Parser → Prop) (d : Draughting) (p : Parser), AtKey pending (kinds x ++ ks) p →
      (∀ entry q, held x entry → Poised .blockMappingKey pending ks q →
        Grows count good (d.placeAll [entry.1, entry.2]) q) → Grows (count + events x) good d p)
    {xs : List α} (h : AtKey pending (xs.flatMap kinds ++ ks) p)
    (hnext : ∀ entries q, List.Forall₂ held xs entries → AtKey pending ks q →
      Grows count good (d.placeAll (flattened entries)) q) :
    Grows (count + (xs.map events).sum) good d p := by
  induction xs generalizing d p with
  | nil => exact hnext [] p .nil h
  | cons x xs ih =>
      rw [List.flatMap_cons, List.append_assoc] at h
      rw [List.map_cons, List.sum_cons, Nat.add_comm (events x), ← Nat.add_assoc]
      refine hentry x _ _ _ _ _ _ h fun entry q hheld hq => ih (.later hq) fun entries q' hentries hq' => ?_
      exact hnext (entry :: entries) q' (.cons hheld hentries) hq'

/-- How many events a setting is. -/
def Setting.events (s : Setting) : Nat := Content.events s.content + 1

theorem grows_setting (s : Setting) (pending : List Expectation) (ks : List TokenKind) (count : Nat)
    (good : Draughting → Parser → Prop) (d : Draughting) (p : Parser) (h : AtKey pending (s.kinds ++ ks) p)
    (hnext : ∀ entry q, s.HeldBy entry → Poised .blockMappingKey pending ks q →
      Grows count good (d.placeAll [entry.1, entry.2]) q) : Grows (count + Setting.events s) good d p :=
  grows_name h fun n _ hname hq => grows_content hq fun n' q hcontent hq' => hnext (n, n') q ⟨hname, hcontent⟩ hq'

/-- How many events a section is. -/
def Section.events (s : Section) : Nat := (s.settings.map Setting.events).sum + 3

theorem grows_section (s : Section) (pending : List Expectation) (ks : List TokenKind) (count : Nat)
    (good : Draughting → Parser → Prop) (d : Draughting) (p : Parser) (h : AtKey pending (s.kinds ++ ks) p)
    (hnext : ∀ entry q, s.HeldBy entry → Poised .blockMappingKey pending ks q →
      Grows count good (d.placeAll [entry.1, entry.2]) q) : Grows (count + Section.events s) good d p := by
  have hcount : count + Section.events s = count + 1 + (s.settings.map Setting.events).sum + 1 + 1 := by
    rw [Section.events]
    omega
  rw [hcount]
  refine grows_name h fun n q hname hq => ?_
  refine grows_step (hq.step_openingValue .mapping) (fun _ hq => hq.flaw?) (by simp) (by simp) fun mark q hq => .ok ?_
  have hsettings : AtKey (.blockMappingKey :: pending) (s.settings.flatMap Setting.kinds ++ .blockEnd :: ks) q :=
    .first (by simpa using hq)
  refine grows_entries grows_setting hsettings fun entries q hentries hq => ?_
  refine grows_mappingEnd hq fun q hq => ?_
  have hclosed := closeFrame_placeAll (d := d.place n) true Tag.mapping (mark.line + 1) (flattened entries)
  have hpairs := pairs_flattened entries
  rw [if_pos rfl, hpairs] at hclosed
  exact hclosed ▸ hnext (n, _) q ⟨hname, _, entries, rfl, hentries⟩ hq

end Draughting

/-! ## Documents -/

namespace Row

theorem text_append (front back : List Row) : text (front ++ back) = text front ++ text back := by
  induction front with
  | nil => rfl
  | cons r front ih => rw [List.cons_append, text, ih, text]; simp

theorem length_text_cons (r : Row) (rows : List Row) :
    (text (r :: rows)).length = r.column + r.chars.length + 1 + (text rows).length := by
  simp only [text, List.length_append, List.length_replicate, List.length_cons]
  omega

end Row

namespace Draughting

theorem events_setting_le (s : Setting) : Setting.events s ≤ (Row.text s.rows).length := by
  have hitems (items : List Spelling) : items.length ≤ (Row.text (items.map Row.item)).length := by
    induction items with
    | nil => exact Nat.zero_le _
    | cons item items ih =>
        rw [List.map_cons, Row.length_text_cons, List.length_cons]
        omega
  obtain ⟨name, _ | _ | ⟨item, items⟩⟩ := s
  · simp only [Setting.events, Content.events, Setting.rows, Row.length_text_cons, Row.column, Row.depth]
    omega
  · simp only [Setting.events, Content.events, Setting.rows, Row.length_text_cons, Row.column, Row.depth, List.length_nil]
    omega
  · have hle := hitems (item :: items)
    simp only [Setting.events, Content.events, Setting.rows, Row.length_text_cons, Row.column, Row.depth] at hle ⊢
    omega

theorem sum_events_le (settings : List Setting) :
    (settings.map Setting.events).sum ≤ (Row.text (settings.flatMap Setting.rows)).length := by
  induction settings with
  | nil => exact Nat.zero_le _
  | cons s settings ih =>
      have hle := events_setting_le s
      rw [List.map_cons, List.sum_cons, List.flatMap_cons, Row.text_append, List.length_append]
      omega

/-- There are not many more events than characters. -/
theorem events_sections_le (sections : List Section) :
    (sections.map Section.events).sum ≤ 2 * (Row.text (sections.flatMap Section.rows)).length := by
  induction sections with
  | nil => exact Nat.zero_le _
  | cons s sections ih =>
      have hle := sum_events_le s.settings
      have hcolon : 1 ≤ (Row.named s.name .settings).chars.length := by
        simp only [Row.chars, List.length_append, List.length_cons]
        omega
      rw [List.map_cons, List.sum_cons, List.flatMap_cons, Row.text_append, List.length_append, Section.events,
        Section.rows, Row.length_text_cons]
      omega

/-- The document of a parser to which the tokens of sections are delivered. -/
theorem complete_sections {sections : List Section} {p : Parser} (hsome : sections ≠ [])
    (hsections : ∀ s ∈ sections, s.settings ≠ [])
    (h : Parser.Poised .streamStart [] (.streamStart :: Row.tokens 0 (sections.flatMap Section.rows)) p) {count : Nat}
    (hcount : (sections.map Section.events).sum + 5 ≤ count) :
    ∃ line entries, complete count ⟨[], [], [], none⟩ p = .ok ⟨[], [], [], some (.mapping Tag.mapping line entries)⟩ ∧
      List.Forall₂ Section.HeldBy sections entries := by
  rw [Row.tokens_sections hsome hsections] at h
  have hgrows : Grows (0 + 1 + (sections.map Section.events).sum + 1 + 1 + 1)
      (fun d q => (∃ line entries, d = ⟨[], [], [], some (.mapping Tag.mapping line entries)⟩ ∧
        List.Forall₂ Section.HeldBy sections entries) ∧ Parser.Poised .documentEnd [] [.streamEnd] q)
      ⟨[], [], [], none⟩ p := by
    refine grows_step h.step_streamStart (fun _ hq => hq.flaw?) (by simp) (by simp) fun _ q hq => .ok ?_
    refine grows_step hq.step_documentStart (fun _ hq => hq.flaw?) (by simp) (by simp) fun _ q hq => .ok ?_
    refine grows_step hq.step_root (fun _ hq => hq.flaw?) (by simp) (by simp) fun mark q hq => .ok ?_
    have hkeys : Parser.AtKey [.documentEnd] (sections.flatMap Section.kinds ++ [TokenKind.blockEnd, .streamEnd]) q :=
      .first hq
    refine grows_entries grows_section hkeys fun entries q hentries hq => ?_
    refine grows_mappingEnd hq fun q hq => ⟨⟨mark.line + 1, entries, ?_, hentries⟩, hq⟩
    have hclosed := closeFrame_placeAll (d := ⟨[], [], [], none⟩) true Tag.mapping (mark.line + 1) (flattened entries)
    rwa [if_pos rfl, pairs_flattened] at hclosed
  obtain ⟨more, rfl⟩ : ∃ more, count = more + 1 + (0 + 1 + (sections.map Section.events).sum + 1 + 1 + 1) :=
    ⟨count - ((sections.map Section.events).sum + 5), by omega⟩
  obtain ⟨d, q, ⟨⟨line, entries, rfl, hentries⟩, hq⟩, hcomplete⟩ := hgrows.complete (more + 1)
  refine ⟨line, entries, ?_, hentries⟩
  obtain ⟨⟨e, q'⟩, hstep, hkind, hflaw⟩ := hq.step_documentEnd
  rw [hcomplete, complete_end hstep hflaw hkind]

end Draughting

namespace TokenStream

/-- The stream of the text of rows, if all of its characters can stand in a stream. -/
theorem fresh_ofBytes {rows : List Row} (hfits : Row.Fits 1 rows) (hrows : rows ≠ [])
    (hallowed : ∀ x ∈ Row.text rows, Source.isAllowed x.toNat = true ∧ isByteOrderMark x = false)
    (hfirst : (first (Row.text rows)).toNat < 0x80) : Fresh rows (ofBytes (Utf8.encode (Row.text rows))) := by
  obtain ⟨x, text, htext⟩ : ∃ x text, Row.text rows = x :: text := by
    obtain ⟨r, rows, rfl⟩ := List.exists_cons_of_ne_nil hrows
    refine List.exists_cons_of_length_pos ?_
    rw [Row.length_text_cons]
    omega
  rw [htext] at hfirst hallowed
  obtain ⟨hchars, hfault⟩ := Source.ofBytes_encode hfirst fun d hd => (hallowed d hd).1
  have hsome : (Utf8.encode (x :: text)).isEmpty = false := by
    obtain ⟨b, more, hbytes, -⟩ := Utf8.exists_encodeChar x
    rw [Utf8.encode_cons, hbytes]
    rfl
  have hstream : ofBytes (Utf8.encode (x :: text)) =
      ⟨Cursor.ofSource (Source.ofBytes (Utf8.encode (x :: text))), false, [], 0, -1, [], 0, false, [], [],
        (Source.ofBytes (Utf8.encode (x :: text))).chars.length + 2⟩ := by
    rw [ofBytes, hsome]
    rfl
  rw [htext, hstream]
  refine ⟨rfl, rfl, rfl, rfl, rfl, rfl, hfits, ?_, ?_⟩
  · rw [htext]
    exact ⟨hchars, rfl, rfl, hfault, rfl, rfl, fun y hy => (hallowed y hy).2⟩
  · have hlength : (Source.ofBytes (Utf8.encode (x :: text))).chars.length = (x :: text).length := congrArg List.length hchars
    rw [htext]
    dsimp only
    omega

end TokenStream

/-- The text of sections is read as a mapping of them. -/
theorem Document.ofBytes_sections {sections : List Section} (hsome : sections ≠ [])
    (hsections : ∀ s ∈ sections, s.settings ≠ []) (hfits : Row.Fits 1 (sections.flatMap Section.rows))
    (hallowed : ∀ x ∈ Row.text (sections.flatMap Section.rows), Source.isAllowed x.toNat = true ∧ isByteOrderMark x = false)
    (hfirst : (first (Row.text (sections.flatMap Section.rows))).toNat < 0x80) :
    ∃ line entries, ofBytes (Utf8.encode (Row.text (sections.flatMap Section.rows))) =
        .ok (some ⟨.mapping Tag.mapping line entries, []⟩) ∧
      List.Forall₂ Section.HeldBy sections entries := by
  have hrows : sections.flatMap Section.rows ≠ [] := by
    obtain ⟨s, sections, rfl⟩ := List.exists_cons_of_ne_nil hsome
    simp [Section.rows]
  have hfresh := TokenStream.fresh_ofBytes hfits hrows hallowed hfirst
  have hpoised : Parser.Poised .streamStart [] (.streamStart :: Row.tokens 0 (sections.flatMap Section.rows))
      (Parser.ofBytes (Utf8.encode (Row.text (sections.flatMap Section.rows)))) :=
    ⟨rfl, rfl, ⟨0, by rw [List.replicate_zero, List.append_nil]; exact .fresh hfresh⟩, rfl, rfl⟩
  have hbound := hfresh.bound
  have hevents := Draughting.events_sections_le sections
  have hcount : (sections.map Draughting.Section.events).sum + 5 ≤
      16 * (Parser.ofBytes (Utf8.encode (Row.text (sections.flatMap Section.rows)))).tokens.bound + 64 := by
    rw [show (Parser.ofBytes _).tokens = TokenStream.ofBytes _ from rfl]
    omega
  obtain ⟨line, entries, hcomplete, hentries⟩ := Draughting.complete_sections hsome hsections hpoised hcount
  refine ⟨line, entries, ?_, hentries⟩
  rw [ofBytes, hcomplete]
  rfl

end Yaml

end MobilitySweep
