import MobilitySweep.Config.File
import MobilitySweep.Proofs.Time.Durations
import MobilitySweep.Proofs.Yaml.Settings

/-! # Configurations read back

Every setting of a configuration is printed so that the decoder of its kind reads it as it is, whatever stands in its
place before. A section is decoded setting by setting and a configuration section by section, so that printing undoes
reading as far as settings are printed at all.
-/

namespace MobilitySweep

namespace Config

open Yaml

/-! ## Kinds of settings -/

/-- A value that is written in a setting of any name, and that a decoder reads there. -/
def Conveys {α : Type} (decoder : Document → Decoder α) (written : String → Bytes) (x : α) : Prop :=
  ∃ content : Yaml.Content, (∀ name, IsLabel name → Setting.Writes ⟨name.toList, content⟩ (written name)) ∧
    ∀ document n, content.HeldBy n → Edits (decoder document) n fun _ => x

section

variable {α : Type} {tag : Bytes} {value : Value} {x : α} {s : Spelling} {n : Yaml.Node}

/-- A spelled scalar is decoded to what it converts to. -/
theorem edits_kind {convert : Bytes → Bytes → Value → Option α} (hheld : s.HeldBy n) (hmeans : s.Means tag value)
    (hsome : value ≠ .null) (hconvert : convert tag s.value value = some x) (document : Document) (wanted : Bytes) :
    Edits (throughAliases document (checkingKeys (scalarDecoder wanted convert)) 2) n fun _ => x := by
  have hedits := edits_scalar hheld hmeans hsome hconvert wanted
  obtain ⟨line, rfl⟩ := hheld
  exact (hedits.checkingKeys (by simp)).throughAliases document (by simp) 1

theorem conveys_scalar {decoder : Document → Decoder α} {text : Bytes} (hs : s.Writes text)
    (hedits : ∀ document n, s.HeldBy n → Edits (decoder document) n fun _ => x) :
    Conveys decoder (setting · text) x :=
  ⟨.scalar s, fun _ hname => writes_scalar hname hs, hedits⟩

end

theorem conveys_int (n : Int64) : Conveys (fun document => (kinds document).int) (setting · (Decimal.ofInt64 n)) n := by
  obtain ⟨s, hs, hmeans⟩ := exists_spelling_ofInt64 n
  exact conveys_scalar hs fun document _ hheld => edits_kind hheld hmeans (by simp) rfl document "int"

theorem conveys_seed (n : Int64) :
    Conveys (fun document => (kinds document).seed) (setting · (Decimal.ofInt64 n)) (some n) := by
  obtain ⟨s, hs, hmeans⟩ := exists_spelling_ofInt64 n
  refine conveys_scalar hs fun document held hheld => ?_
  have hread : Edits (scalarDecoder "int64" int64Of) held fun _ => n := edits_scalar hheld hmeans (by simp) rfl "int64"
  have hedits := edits_optional hheld hmeans (by simp) hread 0 "*int64"
  obtain ⟨line, rfl⟩ := hheld
  exact (hedits.checkingKeys (by simp)).throughAliases document (by simp) 1

theorem conveys_bool (b : Bool) : Conveys (fun document => (kinds document).bool) (setting · (boolText b)) b := by
  obtain ⟨s, hs, hmeans⟩ := exists_spelling_bool b
  refine conveys_scalar ?_ fun document _ hheld => edits_kind hheld hmeans (by simp) rfl document "bool"
  cases b <;> exact hs

/-- A text of one line is read as it is. -/
theorem edits_text {text tag : Bytes} {s : Spelling} {n : Yaml.Node} (hvalue : s.value = text) (htag : tag ≠ Tag.binary)
    (hmeans : s.Means tag (.text text)) (hheld : s.HeldBy n) (document : Document) :
    Edits (kinds document).text n fun _ => text := by
  refine edits_kind hheld hmeans (by simp) ?_ document "string"
  rw [textOf, if_neg htag, hvalue]

theorem conveys_text {text : Bytes} (h : IsLine text) :
    Conveys (fun document => (kinds document).text) (textSetting · text) text := by
  obtain ⟨s, hs, hvalue, tag, htag, hmeans⟩ := exists_spelling h 8
  exact conveys_scalar hs fun document _ hheld => edits_text hvalue htag hmeans hheld document

/-! ## Spans -/

theorem isLine_digits {text : Bytes} (h : ∀ b ∈ text, Bytes.isDigit b) : IsLine text := by
  have hascii : ∀ b ∈ text, b.toNat < 128 := fun b hb => by
    have hdigit := Bytes.isDigit_iff.mp (h b hb)
    omega
  refine ⟨Utf8.isValid_ascii hascii, ?_⟩
  rw [Utf8.characters_ascii hascii]
  intro x hx
  obtain ⟨b, hb, rfl⟩ := List.mem_map.mp hx
  have hdigits : ∀ k < 58, 48 ≤ k → isBreak (Char.ofNat k) = false := by decide
  have hdigit := Bytes.isDigit_iff.mp (h b hb)
  exact hdigits b.toNat (by omega) hdigit.1

theorem isLine_ofNat (n : Nat) : IsLine (Decimal.ofNat n) := isLine_digits fun _ => Decimal.isDigit_of_mem_ofNat

theorem isLine_fraction (places value : Nat) : IsLine (Duration.fraction places value) := by
  have hpoint : IsLine [(46 : UInt8)] := isLine_encode (by simp [isBreak] : ∀ x ∈ ['.'], isBreak x = false)
  unfold Duration.fraction
  dsimp only
  split
  · exact isLine_ofNat _
  · refine ((isLine_ofNat _).append hpoint).append (isLine_digits fun b hb => ?_)
    exact Decimal.isDigit_of_mem_padded (List.mem_reverse.mp ((List.dropWhile_sublist _).subset (List.mem_reverse.mp hb)))

/-- The text of a span is a line. -/
theorem isLine_toText (d : Duration) : IsLine d.toText := by
  have hnone : IsLine "0s" := isLine_encode (by simp [isBreak] : ∀ x ∈ ['0', 's'], isBreak x = false)
  have hnanos : IsLine "ns" := isLine_encode (by simp [isBreak] : ∀ x ∈ ['n', 's'], isBreak x = false)
  have hmicros : IsLine "µs" := isLine_encode (by simp [isBreak] : ∀ x ∈ ['µ', 's'], isBreak x = false)
  have hmillis : IsLine "ms" := isLine_encode (by simp [isBreak] : ∀ x ∈ ['m', 's'], isBreak x = false)
  have hseconds : IsLine "s" := isLine_encode (by simp [isBreak] : ∀ x ∈ ['s'], isBreak x = false)
  have hminutes : IsLine "m" := isLine_encode (by simp [isBreak] : ∀ x ∈ ['m'], isBreak x = false)
  have hhours : IsLine "h" := isLine_encode (by simp [isBreak] : ∀ x ∈ ['h'], isBreak x = false)
  have hminus : IsLine [('-' : UInt8)] := isLine_encode (by simp [isBreak] : ∀ x ∈ ['-'], isBreak x = false)
  have hmagnitude : IsLine (Duration.magnitudeText d.nanos.toInt.natAbs) := by
    unfold Duration.magnitudeText
    dsimp only
    split_ifs
    · exact hnone
    · exact (isLine_fraction _ _).append hnanos
    · exact (isLine_fraction _ _).append hmicros
    · exact (isLine_fraction _ _).append hmillis
    · exact (isLine_fraction _ _).append hseconds
    · exact ((isLine_ofNat _).append hminutes).append ((isLine_fraction _ _).append hseconds)
    · exact ((((isLine_ofNat _).append hhours).append (isLine_ofNat _)).append hminutes).append
        ((isLine_fraction _ _).append hseconds)
  unfold Duration.toText
  dsimp only
  split
  · exact hminus.append hmagnitude
  · exact hmagnitude

theorem conveys_duration (d : Duration) :
    Conveys (fun document => (kinds document).duration) (textSetting · d.toText) d := by
  obtain ⟨s, hs, hvalue, tag, htag, hmeans⟩ := exists_spelling (isLine_toText d) 8
  exact conveys_scalar hs fun document _ hheld =>
    edits_kind hheld hmeans (by simp) (Duration.read_toText d) document "time.Duration"

/-! ## Lists -/

/-- Spellings for values that have one each. -/
theorem exists_spellings {α : Type} {text : α → Bytes} {reads : Spelling → α → Prop} {xs : List α}
    (h : ∀ x ∈ xs, ∃ s : Spelling, s.Writes (text x) ∧ reads s x) :
    ∃ items, List.Forall₂ Spelling.Writes items (xs.map text) ∧ List.Forall₂ reads items xs := by
  induction xs with
  | nil => exact ⟨[], .nil, .nil⟩
  | cons x xs ih =>
      rw [List.forall_mem_cons] at h
      obtain ⟨s, hs, hreads⟩ := h.1
      obtain ⟨items, hitems, hall⟩ := ih h.2
      exact ⟨s :: items, .cons hs hitems, .cons hreads hall⟩

/-- A list is read item by item. -/
theorem conveys_list {α : Type} {text : α → Bytes} {xs : List α} {item : Document → Decoder α} {wanted : Bytes} {initial : α}
    (h : ∀ x ∈ xs, ∃ s : Spelling, s.Writes (text x) ∧ ∀ document n, s.HeldBy n → Edits (item document) n fun _ => x) :
    Conveys (fun document => throughAliases document (listDecoder wanted initial (item document)) 2)
      (fun name => listSetting name (xs.map text)) (some xs) := by
  obtain ⟨items, hitems, hreads⟩ := exists_spellings h
  refine ⟨.list items, fun name hname => writes_list hname hitems, fun document n hheld => ?_⟩
  obtain ⟨line, nodes, rfl, hnodes⟩ := hheld
  have hedits : List.Forall₂ (fun n x => Edits (item document) n fun _ => x) nodes xs := by
    clear hitems h
    induction hnodes generalizing xs with
    | nil =>
        cases hreads
        exact .nil
    | cons hnode _ ih =>
        cases hreads with
        | cons hread hrest => exact .cons (hread document _ hnode) (ih hrest)
  exact (edits_list hedits wanted initial).throughAliases document (by simp) 1

theorem conveys_ints (xs : Option (List Int64)) :
    Conveys (fun document => (kinds document).ints) (fun name => intsSetting name xs) (some (xs.getD [])) := by
  refine conveys_list fun n _ => ?_
  obtain ⟨s, hs, hmeans⟩ := exists_spelling_ofInt64 n
  exact ⟨s, hs, fun document _ hheld => edits_kind hheld hmeans (by simp) rfl document "int"⟩

theorem conveys_texts {xs : Option (List Bytes)} (h : ∀ text ∈ xs.getD [], IsLine text) :
    Conveys (fun document => (kinds document).texts)
      (fun name => listSetting name ((xs.getD []).map (Printed.text 10))) (some (xs.getD [])) := by
  refine conveys_list fun text htext => ?_
  obtain ⟨s, hs, hvalue, tag, htag, hmeans⟩ := exists_spelling (h text htext) 10
  exact ⟨s, hs, fun document _ hheld => edits_text hvalue htag hmeans hheld document⟩

/-! ## Names -/

/-- The names of all sections and settings. -/
def labels : List String :=
  ["sweep", "node_distances", "swap_couples", "shuffle_distances", "repetitions", "workers", "seed", "resume", "generator",
    "nodes", "duration", "sample_interval", "layout", "root", "positions", "configs", "results", "simulator", "enabled",
    "template", "placeholder", "command", "args", "timeout", "compress", "ledger", "path", "logging", "level"]

theorem isLabel_of_mem {name : String} (h : name ∈ labels) : IsLabel name := by
  have hshort : ∀ name ∈ labels, name.toList ≠ [] ∧ name.toList.length ≤ 20 := by decide +kernel
  have hletters : ∀ name ∈ labels, name.toList.all fun x => x = '_' || 97 ≤ x.toNat && x.toNat ≤ 122 := by decide +kernel
  have htexts : ∀ name ∈ labels, classify true (name : Bytes) = .text name := by decide +kernel
  obtain ⟨hsome, hlength⟩ := hshort name h
  exact ⟨hsome, hlength.trans (by decide), by simpa using hletters name h, htexts name h⟩

/-! ## Records -/

/-- The name of a part is read as a key of its own. -/
theorem label_is_key {name : String} (h : IsLabel name) {n : Yaml.Node} (hheld : (nameSpelling name.toList).HeldBy n)
    (document : Document) : n.isMerge = false ∧ Edits (kinds document).text n fun _ => Utf8.encode name.toList := by
  have htext : classify true (nameSpelling name.toList).value = .text (nameSpelling name.toList).value := h.text
  obtain ⟨tag, htag, hmeans⟩ := means_text rfl htext
  refine ⟨?_, edits_text rfl htag hmeans hheld document⟩
  obtain ⟨line, rfl⟩ := hheld
  have hother : (nameSpelling name.toList).value ≠ ("<<" : String) := h.ne_merge
  simp [Yaml.Node.isMerge, hother]

/-- Parts of a record that are written on rows one after another, with names from a list, and what they change. -/
structure Renders {ι α : Type} (rows : ι → List Row) (heldBy : ι → Yaml.Node × Yaml.Node → Prop) (room : Nat)
    (fields : Document → List (Slot α)) (names : List String) (written : Bytes) (edit : α → α) (items : List ι)
    (parts : List (Yaml.Part α)) : Prop where
  held : ∀ entries, List.Forall₂ heldBy items entries → List.Forall₂ Yaml.Part.HeldBy parts entries
  fits : ∀ {rest : List Row}, Row.Fits room rest → Row.Fits room (items.flatMap rows ++ rest)
  fair : ∀ x ∈ Row.text (items.flatMap rows), IsFair x
  encoded : Utf8.encode (Row.text (items.flatMap rows)) = written
  applies : ∀ document, ∀ x ∈ parts, x.Applies (fields document) (kinds document).text
  named : (parts.map fun x => Utf8.encode x.name).Sublist (names.map Bytes.ofString)
  edits : Yaml.Part.editAll parts = edit

section

variable {ι α : Type} {rows : ι → List Row} {heldBy : ι → Yaml.Node × Yaml.Node → Prop} {room : Nat}
  {fields : Document → List (Slot α)} {name : String} {names : List String} {written : Bytes} {edit : α → α} {items : List ι}
  {parts : List (Yaml.Part α)}

theorem renders_nil : Renders rows heldBy room fields [] [] id [] [] := by
  refine ⟨fun entries h => ?_, id, by simp [Row.text], rfl, by simp, .slnil, rfl⟩
  cases h
  exact .nil

/-- A part that is not written changes nothing. -/
theorem Renders.unset (h : Renders rows heldBy room fields names written edit items parts) (name : String) :
    Renders rows heldBy room fields (name :: names) written edit items parts :=
  { h with named := h.named.trans (List.sublist_cons_self _ _) }

/-- One more part in front. -/
theorem Renders.cons (h : Renders rows heldBy room fields names written edit items parts) (item : ι) (part : Yaml.Part α)
    {text : Bytes} (hname : part.name = name.toList) (hheld : ∀ entry, heldBy item entry → part.HeldBy entry)
    (hfits : ∀ {rest : List Row}, Row.Fits room rest → Row.Fits room (rows item ++ rest))
    (hfair : ∀ x ∈ Row.text (rows item), IsFair x) (hencoded : Utf8.encode (Row.text (rows item)) = text)
    (happlies : ∀ document, part.Applies (fields document) (kinds document).text) :
    Renders rows heldBy room fields (name :: names) (text ++ written) (fun record => edit (part.edit record)) (item :: items)
      (part :: parts) := by
  constructor
  case held =>
    intro entries hentries
    cases hentries with
    | cons hentry hrest => exact .cons (hheld _ hentry) (h.held _ hrest)
  case fits =>
    intro rest hrest
    rw [List.flatMap_cons, List.append_assoc]
    exact hfits (h.fits hrest)
  case fair =>
    rw [List.flatMap_cons, Row.text_append]
    exact List.forall_mem_append.mpr ⟨hfair, h.fair⟩
  case encoded => rw [List.flatMap_cons, Row.text_append, Utf8.encode_append, hencoded, h.encoded]
  case applies => exact fun document => List.forall_mem_cons.mpr ⟨happlies document, h.applies document⟩
  case named =>
    rw [List.map_cons, List.map_cons, hname]
    exact h.named.cons_cons _
  case edits =>
    rw [← h.edits]
    rfl

/-- A record of rendered parts is decoded. -/
theorem Renders.edits_group (h : Renders rows heldBy room fields names written edit items parts)
    (hnames : (names.map Bytes.ofString).Nodup) {entries : List (Yaml.Node × Yaml.Node)}
    (hentries : List.Forall₂ heldBy items entries) (document : Document) (wanted : Bytes) (line : Nat) :
    Edits (group document wanted (fields document)) (.mapping Tag.mapping line entries) edit := by
  have hrecord := Yaml.Part.edits_record (h.applies document) (h.held entries hentries) (h.named.nodup hnames) document wanted
    Tag.mapping line 999999
  rw [h.edits] at hrecord
  exact hrecord.throughAliases document (by simp) 1

end

/-- Settings of a record as they are printed. -/
def Prints {α : Type} (fields : Document → List (Slot α)) (names : List String) (written : Bytes) (edit : α → α) : Prop :=
  ∃ settings parts, Renders Setting.rows Setting.HeldBy 2 fields names written edit settings parts

/-- Sections of a record as they are printed, none of which is empty; the first byte says that the text is in UTF-8. -/
def Lays {α : Type} (fields : Document → List (Slot α)) (names : List String) (written : Bytes) (edit : α → α) : Prop :=
  ∃ sections parts, Renders Section.rows Section.HeldBy 1 fields names written edit sections parts ∧
    (∀ s ∈ sections, s.settings ≠ []) ∧ (first (Row.text (sections.flatMap Section.rows))).toNat < 0x80

section

variable {α β : Type} {fields : Document → List (Slot α)} {name : String} {names : List String} {written : Bytes}
  {edit : α → α} {get : α → β} {put : α → β → α}

/-- One more setting in front. -/
theorem Prints.set {decoder : Document → Decoder β} {text : String → Bytes} {x : β} (h : Prints fields names written edit)
    (name : String) (hname : name ∈ labels) (hx : Conveys decoder text x)
    (hfield : ∀ document, (fields document).find? (·.name = Bytes.ofString name) =
      some (.of name (decoder document) get put)) :
    Prints fields (name :: names) (text name ++ written) fun record => edit (put record x) := by
  obtain ⟨settings, parts, h⟩ := h
  obtain ⟨content, hwrites, hedits⟩ := hx
  have hlabel := isLabel_of_mem hname
  have hs := hwrites name hlabel
  refine ⟨_, _, h.cons ⟨name.toList, content⟩ ⟨name.toList, content.HeldBy, fun record => put record x⟩ rfl
    (fun _ hentry => hentry) hs.fits hs.fair hs.encoded fun document => ?_⟩
  exact ⟨fun n hn => label_is_key hlabel hn document, _, hfield document,
    fun n hn record d hd => slot_gives (hedits document n hn) name get put record hd⟩

theorem Prints.unset (h : Prints fields names written edit) (name : String) : Prints fields (name :: names) written edit := by
  obtain ⟨settings, parts, h⟩ := h
  exact ⟨settings, parts, h.unset name⟩

theorem prints_nil : Prints fields [] [] id := ⟨[], [], renders_nil⟩

theorem lays_nil : Lays fields [] [] id := ⟨[], [], renders_nil, by simp, by decide⟩

/-- One more section in front. -/
theorem Lays.section {inner : Document → List (Slot β)} {innerNames : List String} {innerWritten wanted : Bytes}
    {innerEdit : β → β} (h : Lays fields names written edit) (name : String) (hname : name ∈ labels) (heading : Bytes)
    (hheading : heading = (name : Bytes) ++ ":\n") (hinner : Prints inner innerNames innerWritten innerEdit)
    (hsome : innerWritten ≠ []) (hnames : (innerNames.map Bytes.ofString).Nodup)
    (hfield : ∀ document, (fields document).find? (·.name = Bytes.ofString name) =
      some (.of name (group document wanted (inner document)) get put)) :
    Lays fields (name :: names) (heading ++ innerWritten ++ written) fun record =>
      edit (put record (innerEdit (get record))) := by
  have hlabel := isLabel_of_mem hname
  obtain ⟨sections, parts, h, hfilled, -⟩ := h
  obtain ⟨settings, innerParts, hsettings⟩ := hinner
  have hsettingsSome : settings ≠ [] := by
    rintro rfl
    exact hsome hsettings.encoded.symm
  have hcolon : IsFair ':' := by decide
  have hfair : ∀ x ∈ Row.text (Section.rows ⟨name.toList, settings⟩), IsFair x := by
    intro x hx
    simp only [Section.rows, Row.text, Row.chars, Holding.chars, Row.column, Row.depth, List.mem_append, List.mem_replicate,
      List.mem_cons, List.not_mem_nil, or_false] at hx
    rcases hx with ⟨-, rfl⟩ | (hx | rfl) | rfl | hx
    · exact isFair_blank
    · exact hlabel.fair x hx
    · exact hcolon
    · exact isFair_break
    · exact hsettings.fair x hx
  have hencoded : Utf8.encode (Row.text (Section.rows ⟨name.toList, settings⟩)) = heading ++ innerWritten := by
    rw [← hsettings.encoded, hheading]
    simp only [Section.rows, Row.text, Row.chars, Holding.chars, Row.column, Row.depth, Utf8.encode_append,
      Utf8.encode_cons, Utf8.encode_nil, List.append_assoc]
    rfl
  have hfirst : (first (Row.text ((⟨name.toList, settings⟩ :: sections).flatMap Section.rows))).toNat < 0x80 := by
    obtain ⟨x, word, hword⟩ := List.exists_cons_of_ne_nil hlabel.some
    have hx := hlabel.letters x (by rw [hword]; exact List.mem_cons_self)
    rw [hword]
    show x.toNat < 0x80
    rcases hx with rfl | hx
    · decide
    · omega
  have hfits : ∀ {rest : List Row}, Row.Fits 1 rest → Row.Fits 1 (Section.rows ⟨name.toList, settings⟩ ++ rest) :=
    fun hrest => ⟨⟨hlabel.isName, trivial⟩, le_rfl, hsettings.fits (hrest.mono (by decide))⟩
  refine ⟨_, _, h.cons ⟨name.toList, settings⟩ ⟨name.toList, fun n => ∃ line entries, n = .mapping Tag.mapping line entries ∧
      List.Forall₂ Setting.HeldBy settings entries, fun record => put record (innerEdit (get record))⟩ rfl
    (fun _ hentry => hentry) hfits hfair hencoded fun document => ?_, List.forall_mem_cons.mpr ⟨hsettingsSome, hfilled⟩,
    hfirst⟩
  refine ⟨fun n hn => label_is_key hlabel hn document, _, hfield document, ?_⟩
  rintro n ⟨line, entries, rfl, hentries⟩ record d hd
  exact slot_gives (hsettings.edits_group hnames hentries document wanted line) name get put record hd

theorem Lays.of_eq (h : Lays fields names written edit) {written' : Bytes} {edit' : α → α} (hwritten : written' = written)
    (hedit : edit' = edit) : Lays fields names written' edit' := by
  rw [hwritten, hedit]
  exact h

/-- A text of sections is read as a document that a record of them is decoded from. -/
theorem Lays.reads (h : Lays fields names written edit) (hsome : written ≠ []) (hnames : (names.map Bytes.ofString).Nodup) :
    ∃ document, Document.ofBytes written = .ok (some document) ∧
      ∀ wanted, Edits (group document wanted (fields document)) document.root edit := by
  obtain ⟨sections, parts, h, hfilled, hfirst⟩ := h
  have hsectionsSome : sections ≠ [] := by
    rintro rfl
    exact hsome h.encoded.symm
  have hfits : Row.Fits 1 (sections.flatMap Section.rows) := by
    simpa only [List.append_nil] using h.fits (show Row.Fits 1 [] from trivial)
  obtain ⟨line, entries, hdocument, hentries⟩ :=
    Document.ofBytes_sections hsectionsSome hfilled hfits h.fair hfirst
  rw [h.encoded] at hdocument
  exact ⟨_, hdocument, fun wanted => h.edits_group hnames hentries _ wanted line⟩

end

/-! ## Sections -/

/-- The texts of a configuration are lines. -/
structure OneLine (c : Config) : Prop where
  root : IsLine c.layout.root
  positions : IsLine c.layout.positions
  configs : IsLine c.layout.configs
  results : IsLine c.layout.results
  template : IsLine c.simulator.template
  placeholder : IsLine c.simulator.placeholder
  command : IsLine c.simulator.command
  args : ∀ text ∈ c.simulator.args.getD [], IsLine text
  ledgerPath : IsLine c.ledgerPath
  logLevel : IsLine c.logLevel

theorem prints_sweep (s : SweepSettings) :
    Prints (fun document => sweepFields (kinds document))
      ["node_distances", "swap_couples", "shuffle_distances", "repetitions", "workers", "seed", "resume"]
      (intsSetting "node_distances" s.nodeDistances ++ (intsSetting "swap_couples" s.swapCouples ++
        (intsSetting "shuffle_distances" s.shuffleDistances ++ (setting "repetitions" (Decimal.ofInt64 s.repetitions) ++
          (setting "workers" (Decimal.ofInt64 s.workers) ++ ((match s.seed with
            | some seed => setting "seed" (Decimal.ofInt64 seed)
            | none => []) ++ (setting "resume" (boolText s.resume) ++ [])))))))
      fun base => { s with
        nodeDistances := some (s.nodeDistances.getD [])
        swapCouples := some (s.swapCouples.getD [])
        shuffleDistances := some (s.shuffleDistances.getD [])
        seed := s.seed <|> base.seed } := by
  have hnil : Prints (fun document => sweepFields (kinds document)) [] [] id := prints_nil
  have hresume := hnil.set "resume" (by decide) (conveys_bool s.resume) fun _ => rfl
  have hrest := fun text edit (h : Prints (fun document => sweepFields (kinds document)) ["seed", "resume"] text edit) =>
    ((((h.set "workers" (by decide) (conveys_int s.workers) fun _ => rfl).set
      "repetitions" (by decide) (conveys_int s.repetitions) fun _ => rfl).set
      "shuffle_distances" (by decide) (conveys_ints s.shuffleDistances) fun _ => rfl).set
      "swap_couples" (by decide) (conveys_ints s.swapCouples) fun _ => rfl).set
      "node_distances" (by decide) (conveys_ints s.nodeDistances) fun _ => rfl
  cases hseed : s.seed with
  | none => exact hrest _ _ (hresume.unset "seed")
  | some seed => exact hrest _ _ (hresume.set "seed" (by decide) (conveys_seed seed) fun _ => rfl)

theorem prints_generator (s : GeneratorSettings) :
    Prints (fun document => generatorFields (kinds document)) ["nodes", "duration", "sample_interval"]
      (setting "nodes" (Decimal.ofInt64 s.nodes) ++ (setting "duration" (Decimal.ofInt64 s.duration) ++
        (setting "sample_interval" (Decimal.ofInt64 s.sampleInterval) ++ []))) fun _ => s := by
  have hnil : Prints (fun document => generatorFields (kinds document)) [] [] id := prints_nil
  have hinterval := hnil.set "sample_interval" (by decide) (conveys_int s.sampleInterval) fun _ => rfl
  have hduration := hinterval.set "duration" (by decide) (conveys_int s.duration) fun _ => rfl
  exact hduration.set "nodes" (by decide) (conveys_int s.nodes) fun _ => rfl

theorem prints_only (name : String) (hname : name ∈ labels) {text : Bytes} (h : IsLine text) :
    Prints (fun document => [.of name (kinds document).text id fun _ x => x]) [name] (textSetting name text ++ [])
      fun _ => text := by
  have hnil : Prints (fun document => [Slot.of name (kinds document).text id fun _ x => x]) [] [] id := prints_nil
  have hfield (document : Document) : [Slot.of name (kinds document).text id fun _ x => x].find? (·.name = Bytes.ofString name) =
      some (.of name (kinds document).text id fun _ x => x) := List.find?_cons_of_pos (by simp [Slot.of])
  exact hnil.set name hname (conveys_text h) hfield

section

variable {c : Config} (h : c.OneLine)

include h

theorem prints_layout :
    Prints (fun document => layoutFields (kinds document)) ["root", "positions", "configs", "results"]
      (textSetting "root" c.layout.root ++ (textSetting "positions" c.layout.positions ++
        (textSetting "configs" c.layout.configs ++ (textSetting "results" c.layout.results ++ []))))
      fun _ => c.layout := by
  have hnil : Prints (fun document => layoutFields (kinds document)) [] [] id := prints_nil
  have hresults := hnil.set "results" (by decide) (conveys_text h.results) fun _ => rfl
  have hconfigs := hresults.set "configs" (by decide) (conveys_text h.configs) fun _ => rfl
  have hpositions := hconfigs.set "positions" (by decide) (conveys_text h.positions) fun _ => rfl
  exact hpositions.set "root" (by decide) (conveys_text h.root) fun _ => rfl

theorem prints_simulator :
    Prints (fun document => simulatorFields (kinds document))
      ["enabled", "template", "placeholder", "command", "args", "timeout", "compress"]
      (setting "enabled" (boolText c.simulator.enabled) ++ (textSetting "template" c.simulator.template ++
        (textSetting "placeholder" c.simulator.placeholder ++ (textSetting "command" c.simulator.command ++
          (listSetting "args" ((c.simulator.args.getD []).map (Printed.text 10)) ++
            ((if c.simulator.timeout.nanos = 0 then [] else textSetting "timeout" c.simulator.timeout.toText) ++
              (setting "compress" (boolText c.simulator.compress) ++ [])))))))
      fun base => { c.simulator with
        args := some (c.simulator.args.getD [])
        timeout := if c.simulator.timeout.nanos = 0 then base.timeout else c.simulator.timeout } := by
  have hnil : Prints (fun document => simulatorFields (kinds document)) [] [] id := prints_nil
  have hcompress := hnil.set "compress" (by decide) (conveys_bool c.simulator.compress) fun _ => rfl
  have hrest := fun text edit
      (hlast : Prints (fun document => simulatorFields (kinds document)) ["timeout", "compress"] text edit) =>
    ((((hlast.set "args" (by decide) (conveys_texts h.args) fun _ => rfl).set
      "command" (by decide) (conveys_text h.command) fun _ => rfl).set
      "placeholder" (by decide) (conveys_text h.placeholder) fun _ => rfl).set
      "template" (by decide) (conveys_text h.template) fun _ => rfl).set
      "enabled" (by decide) (conveys_bool c.simulator.enabled) fun _ => rfl
  split_ifs
  · exact hrest _ _ (hcompress.unset "timeout")
  · exact hrest _ _ (hcompress.set "timeout" (by decide) (conveys_duration c.simulator.timeout) fun _ => rfl)

end

/-- A configuration with what is not printed of it taken from another one, and with empty lists for unset ones. -/
def laidOver (c base : Config) : Config :=
  { c with
    sweep := { c.sweep with
      nodeDistances := some (c.sweep.nodeDistances.getD [])
      swapCouples := some (c.sweep.swapCouples.getD [])
      shuffleDistances := some (c.sweep.shuffleDistances.getD [])
      seed := c.sweep.seed <|> base.sweep.seed }
    simulator := { c.simulator with
      args := some (c.simulator.args.getD [])
      timeout := if c.simulator.timeout.nanos = 0 then base.simulator.timeout else c.simulator.timeout } }

theorem setting_ne_nil (name value : Bytes) : setting name value ≠ [] := List.cons_ne_nil _ _

theorem listSetting_ne_nil (name : Bytes) (items : List Bytes) : listSetting name items ≠ [] := by
  unfold listSetting
  split
  · exact setting_ne_nil _ _
  · exact List.cons_ne_nil _ _

theorem toYaml_ne_nil (c : Config) : c.toYaml ≠ [] := List.append_ne_nil_of_right_ne_nil _ (setting_ne_nil _ _)

/-- The text of a configuration is that of its sections. -/
theorem lays_toYaml {c : Config} (h : c.OneLine) :
    Lays fields ["sweep", "generator", "layout", "simulator", "ledger", "logging"] c.toYaml fun base => c.laidOver base := by
  have hfilled {head : Bytes} (rest : Bytes) (hhead : head ≠ []) : head ++ rest ≠ [] :=
    List.append_ne_nil_of_left_ne_nil hhead _
  have hnil : Lays fields [] [] id := lays_nil
  have hlevel := prints_only "level" (by decide) h.logLevel
  have hpath := prints_only "path" (by decide) h.ledgerPath
  have hlogging := hnil.section "logging" (by decide) "logging:\n" rfl hlevel
    (hfilled _ (setting_ne_nil _ _)) (by decide +kernel) fun _ => rfl
  have hledger := hlogging.section "ledger" (by decide) "ledger:\n" rfl hpath
    (hfilled _ (setting_ne_nil _ _)) (by decide +kernel) fun _ => rfl
  have hsimulator := hledger.section "simulator" (by decide) "simulator:\n" rfl
    (prints_simulator h) (hfilled _ (setting_ne_nil _ _)) (by decide +kernel) fun _ => rfl
  have hlayout := hsimulator.section "layout" (by decide) "layout:\n" rfl
    (prints_layout h) (hfilled _ (setting_ne_nil _ _)) (by decide +kernel) fun _ => rfl
  have hgenerator := hlayout.section "generator" (by decide) "generator:\n" rfl
    (prints_generator c.generator) (hfilled _ (setting_ne_nil _ _)) (by decide +kernel) fun _ => rfl
  have hsweep := hgenerator.section "sweep" (by decide) "sweep:\n" rfl
    (prints_sweep c.sweep) (hfilled _ (listSetting_ne_nil _ _)) (by decide +kernel) fun _ => rfl
  refine hsweep.of_eq ?_ rfl
  unfold toYaml
  cases c.sweep.seed <;> simp only [List.append_assoc, List.nil_append, List.append_nil]

/-- A printed configuration is read over another one. -/
theorem readOver_toYaml (base : Config) {c : Config} (h : c.OneLine) : readOver base c.toYaml = .ok (c.laidOver base) := by
  obtain ⟨document, hdocument, hedits⟩ := (lays_toYaml h).reads (toYaml_ne_nil c) (by decide +kernel)
  obtain ⟨⟨good, config, d⟩, hread, -, rfl, hclean⟩ := hedits "config.Config" base .start Decoding.start_clean
  rw [readOver, hdocument]
  dsimp only [Except.mapError, bind, Except.bind]
  rw [hread]
  dsimp only
  rw [hclean.matched]
  rfl

/-! ## Files -/

/-- Whether the settings in which variables are expanded mention none in braces. -/
structure NoVariables (c : Config) : Prop where
  command : Bytes.occursIn "$\x7b" c.simulator.command = false
  template : Bytes.occursIn "$\x7b" c.simulator.template = false
  args : ∀ text ∈ c.simulator.args.getD [], Bytes.occursIn "$\x7b" text = false

/-- A configuration with empty lists for unset ones. -/
def listed (c : Config) : Config :=
  { c with
    sweep := { c.sweep with
      nodeDistances := some (c.sweep.nodeDistances.getD [])
      swapCouples := some (c.sweep.swapCouples.getD [])
      shuffleDistances := some (c.sweep.shuffleDistances.getD []) }
    simulator := { c.simulator with args := some (c.simulator.args.getD []) } }

/-- The defaults have no seed and no timeout, so that nothing of them shows through a printed configuration. -/
theorem laidOver_standard (c : Config) : c.laidOver standard = c.listed := by
  have hseed : (c.sweep.seed <|> standard.sweep.seed) = c.sweep.seed := by cases c.sweep.seed <;> rfl
  have htimeout : (if c.simulator.timeout.nanos = 0 then standard.simulator.timeout else c.simulator.timeout) =
      c.simulator.timeout := by
    split
    next hzero => exact congrArg Duration.mk hzero.symm
    next => rfl
  rw [laidOver, hseed, htimeout]
  rfl

theorem expand_eq {text : Bytes} (h : Bytes.occursIn "$\x7b" text = false) (env : Environment) : env.expand text = text := by
  rw [Environment.expand, h, if_neg (by simp)]

theorem expandVariables_listed {c : Config} (h : c.NoVariables) (env : Environment) :
    c.listed.expandVariables env = c.listed := by
  have hargs : (c.simulator.args.getD []).map env.expand = c.simulator.args.getD [] := by
    rw [List.map_congr_left fun text htext => expand_eq (h.args text htext) env, List.map_id']
  unfold expandVariables listed
  simp only [Option.map_some, expand_eq h.command env, expand_eq h.template env, hargs]

/-- A configuration file that a configuration was printed to is read as it. -/
theorem contentAt_toYaml {c : Config} (hlines : c.OneLine) (hvariables : c.NoVariables) {files : Files} {path : Bytes}
    (h : files.contentAt path = .ok (.bytes c.toYaml)) (env : Environment) : contentAt files env path = .ok c.listed := by
  have hread := readOver_toYaml standard hlines
  rw [laidOver_standard] at hread
  rw [contentAt, h]
  dsimp only [Except.mapError, bind, Except.bind, Content.toBytes]
  rw [hread]
  dsimp only
  rw [expandVariables_listed hvariables]
  rfl

end Config

end MobilitySweep
