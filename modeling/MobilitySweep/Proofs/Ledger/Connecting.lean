import MobilitySweep.Ledger.File
import MobilitySweep.Proofs.Text.Words

/-! # Connections of plain paths

The path of a ledger mostly has no parameters, so its connection is set up by those of every ledger alone: runs have to
belong to sweeps, and the tables can be written to. That is so of every path without a question mark.
-/

namespace MobilitySweep

namespace Ledger

/-- A path that has no parameters and is no URI. -/
structure IsPlain (path : Bytes) : Prop where
  unmarked : ('?' : UInt8) ∉ path
  noUri : ("file:" : Bytes).isPrefixOf path = false

/-- The name of the file of a plain path: what is in front of a zero byte, unless it stands for the memory. -/
def plainName? (path : Bytes) : Option Bytes :=
  let name := path.takeWhile (· ≠ 0)
  if name.isEmpty || name = Address.inMemory then none else some name

/-- The pragmas of every ledger, in the order in which they are run. -/
def ownPragmas : List Bytes := ["busy_timeout(5000)", "foreign_keys(1)", "journal_mode(WAL)"]

/-- An address with no parameters but those of every ledger. -/
structure Address.IsPlain (address : Address) : Prop where
  access : address.access = .create
  mutable : address.immutable = false
  model : address.model = none
  locks : address.locks = false
  pragmas : address.pragmas = ownPragmas
  afterwards : address.afterwards = none

namespace Address

/-- The parameters of every ledger as they are read. -/
def ownEntries : List (Bytes × Bytes) :=
  [("_pragma", "foreign_keys(1)"), ("_pragma", "journal_mode(WAL)"), ("_pragma", "busy_timeout(5000)")]

/-- The parameters of every ledger start with their only mark, and are read in the same way everywhere. -/
theorem ownParameters_read : ownParameters.head? = some ('?' : UInt8) ∧ (0 : UInt8) ∉ ownParameters ∧
    ('#' : UInt8) ∉ ownParameters ∧ ('/' : UInt8) ∉ ownParameters ∧
      Query.parse (ownParameters.drop 1) = .ok ownEntries ∧ options (ownParameters.drop 1) = ownEntries := by
  decide +kernel

/-- The parameters of every ledger ask for pragmas, and for nothing else. -/
theorem ownEntries_ask : systemOf ownEntries = .ok none ∧ Query.first? "_txlock" ownEntries = none ∧
    afterwards? ownEntries = none ∧ Query.values "immutable" ownEntries = [] ∧ Query.values "modeof" ownEntries = [] ∧
      ∀ entry ∈ ownEntries, entry.1 ≠ ("vfs" : Bytes) ∧ entry.1 ≠ ("cache" : Bytes) ∧ entry.1 ≠ ("mode" : Bytes) := by
  decide +kernel

/-- A text is cut at its first mark. -/
theorem cut_marked {front : Bytes} (h : ('?' : UInt8) ∉ front) (rest : Bytes) :
    Query.cut '?' (front ++ ('?' : UInt8) :: rest) = (front, rest) := by
  have hall : ∀ b ∈ front, decide (b ≠ ('?' : UInt8)) = true := by
    intro b hb
    simpa using fun heq : b = ('?' : UInt8) => h (heq ▸ hb)
  rw [Query.cut, List.takeWhile_append_of_pos hall, List.dropWhile_append_of_pos hall]
  simp

theorem cut_ownParameters {path : Bytes} (h : ('?' : UInt8) ∉ path) :
    Query.cut '?' (path ++ ownParameters) = (path, ownParameters.drop 1) := by
  obtain ⟨rest, hrest⟩ := List.head?_eq_some_iff.mp ownParameters_read.1
  rw [hrest, cut_marked h]
  rfl

/-- A pragma of graphic characters is put in its place by its lower case. -/
theorem orderKey_graphic {pragma : Bytes} (h : ∀ b ∈ pragma, Bytes.IsGraphic b) :
    orderKey pragma = pragma.map Bytes.lowerByte := by
  have hlower : ∀ b ∈ pragma.map Bytes.lowerByte, Bytes.IsGraphic b :=
    List.forall_mem_map.mpr fun b hb => (h b hb).lowerByte
  rw [orderKey, Bytes.lower_ascii fun b hb => (h b hb).2.trans_lt (by decide)]
  exact Blank.trim_graphic (fun b hb => (hlower b hb).2.trans_lt (by decide))
    (fun b hb => hlower b (List.mem_of_head? hb)) fun b hb => hlower b (List.mem_of_getLast? hb)

/-- The time to wait comes first, whatever is in order otherwise. -/
theorem ordered_waiting {others keys : List Bytes} (hgraphic : ∀ pragma ∈ others, ∀ b ∈ pragma, Bytes.IsGraphic b)
    (hkeys : others.map (·.map Bytes.lowerByte) = keys)
    (hothers : ∀ key ∈ keys, ("busy_timeout" : Bytes).isPrefixOf key = false)
    (hsorted : keys.Pairwise fun a b => Bytes.less b a = false) :
    ordered (others ++ [("busy_timeout(5000)" : Bytes)]) = ("busy_timeout(5000)" : Bytes) :: others := by
  obtain rfl : others.map orderKey = keys :=
    (List.map_congr_left fun pragma hpragma => orderKey_graphic (hgraphic pragma hpragma)).trans hkeys
  have hbusy : ("busy_timeout" : Bytes).isPrefixOf (orderKey "busy_timeout(5000)") = true := by
    have hall : ∀ b ∈ ("busy_timeout(5000)" : Bytes), Bytes.IsGraphic b := by
      simp only [Bytes.forall_isGraphic_iff]
      decide +kernel
    rw [orderKey_graphic hall]
    decide +kernel
  have hsorted : others.Pairwise fun a b => (!Bytes.less (orderKey b) (orderKey a)) = true :=
    (List.pairwise_map.mp hsorted).imp (by simp)
  have hothers : ∀ pragma ∈ others, ("busy_timeout" : Bytes).isPrefixOf (orderKey pragma) = false :=
    List.forall_mem_map.mp hothers
  have hwaits : others.filter (fun pragma => ("busy_timeout" : Bytes).isPrefixOf (orderKey pragma)) = [] :=
    List.filter_eq_nil_iff.mpr fun pragma hpragma => by simp [hothers pragma hpragma]
  have hrest : others.filter (fun pragma => !("busy_timeout" : Bytes).isPrefixOf (orderKey pragma)) = others :=
    List.filter_eq_self.mpr fun pragma hpragma => by simp [hothers pragma hpragma]
  simp only [ordered, List.filter_append, hwaits, hrest, List.filter_singleton, hbusy]
  simp [List.mergeSort_of_pairwise hsorted]

theorem ordered_ownEntries : ordered (Query.values "_pragma" ownEntries) = ownPragmas := by
  have hvalues : Query.values "_pragma" ownEntries =
      [("foreign_keys(1)" : Bytes), ("journal_mode(WAL)" : Bytes)] ++ [("busy_timeout(5000)" : Bytes)] := by decide +kernel
  have hgraphic : ∀ pragma ∈ [("foreign_keys(1)" : Bytes), ("journal_mode(WAL)" : Bytes)],
      ∀ b ∈ pragma, Bytes.IsGraphic b := by
    simp only [Bytes.forall_isGraphic_iff]
    decide +kernel
  have hkeys : [("foreign_keys(1)" : Bytes), ("journal_mode(WAL)" : Bytes)].map (·.map Bytes.lowerByte) =
      [("foreign_keys(1)" : Bytes), ("journal_mode(wal)" : Bytes)] := by decide +kernel
  rw [hvalues, ordered_waiting hgraphic hkeys (by decide +kernel) (by decide +kernel)]
  rfl

/-- A plain path has a plain address, which names the file that the path says. -/
theorem ofPath_plain {path : Bytes} (h : Ledger.IsPlain path) (hpath : path ≠ []) :
    ∃ address, ofPath path = .ok address ∧ address.IsPlain ∧ address.file = plainName? path := by
  have hmarked : ((path ++ ownParameters).head? = some ('?' : UInt8)) = False := by
    refine eq_false fun hhead => h.unmarked ?_
    rw [List.head?_append_of_ne_nil _ hpath] at hhead
    exact List.mem_of_head? hhead
  obtain ⟨-, -, -, -, hparse, -⟩ := ownParameters_read
  obtain ⟨hsystem, hlock, hafter, -⟩ := ownEntries_ask
  unfold ofPath
  simp only [hmarked, cut_ownParameters h.unmarked, hparse, hsystem, hlock, hafter, h.noUri,
    ordered_ownEntries, Bool.false_eq_true, if_false, Except.mapError, bind, Except.bind, pure, Except.pure]
  refine ⟨_, rfl, ⟨rfl, by simp [Query.values], rfl, rfl, rfl, rfl⟩, ?_⟩
  simp [plainName?]

end Address

/-- Pragmas that are run one after another. -/
inductive Runs (scene : Setting.Scene) : List Bytes → Connection → Connection → Prop where
  | nil (c : Connection) : Runs scene [] c c
  | cons {pragma : Bytes} {rest : List Bytes} {c c' c'' : Connection}
      (hrun : Statement.runText scene ("pragma " ++ pragma) c = .ok c') (hrest : Runs scene rest c' c'') :
      Runs scene (pragma :: rest) c c''

theorem Runs.connect {scene : Setting.Scene} {c : Connection} (h : Runs scene scene.address.pragmas .fresh c)
    (hafterwards : scene.address.afterwards = none) : connect scene = .ok c := by
  have hfold : ∀ {pragmas c c'}, Runs scene pragmas c c' →
      pragmas.foldlM (fun c pragma => Statement.runText scene ("pragma " ++ pragma) c) c = .ok c' := by
    intro pragmas c c' hruns
    induction hruns with
    | nil c => rfl
    | cons hrun hrest ih =>
        rw [List.foldlM_cons, hrun]
        exact ih
  unfold Ledger.connect
  rw [hfold h, hafterwards]
  rfl

/-- A text with one setting that writes nothing makes it as its name says. -/
theorem runText_setting {text name value : Bytes}
    (h : Statement.first (Token.ofText text) = .ok (.setting ⟨none, name, some value⟩, []))
    (hname : name.map Bytes.lowerByte = name ∧ Pragma.isWritten name = false ∧ name ≠ "incremental_vacuum")
    {scene : Setting.Scene} (hfile : Pragma.needsFile name = true → scene.found ≠ .foreign) (c : Connection) :
    Statement.runText scene text c =
      Setting.assign scene name value { c with known := c.known || Pragma.needsTables name } := by
  have hread : (Pragma.needsFile name && scene.found = .foreign) = false := by
    cases hneeds : Pragma.needsFile name with
    | false => rfl
    | true => simpa using hfile hneeds
  have hrun : Setting.run scene ⟨none, name, some value⟩ c =
      Setting.assign scene name value { c with known := c.known || Pragma.needsTables name } := by
    simp [Setting.run, Setting.hasKnownSchema, hname, hread]
  rw [← hrun]
  unfold Statement.runText
  cases htokens : Token.ofText text with
  | nil =>
      rw [htokens] at h
      cases h
  | cons token rest =>
      rw [htokens] at h
      have hend : ∀ c, Statement.runTokens scene rest.length [] c = .ok c := by
        intro c
        cases rest <;> rfl
      simp only [List.length_cons, Statement.runTokens, h, Except.mapError, bind, Except.bind, Statement.run]
      cases Setting.run scene ⟨none, name, some value⟩ c with
      | error obstacle => rfl
      | ok made => exact hend made

/-- A setting of another name makes no difference if it looks at no table. -/
theorem assign_other (scene : Setting.Scene) {name value : Bytes} (c : Connection)
    (hname : name ∉ [("foreign_keys" : Bytes), ("query_only" : Bytes), ("journal_mode" : Bytes), ("encoding" : Bytes),
      ("temp_store_directory" : Bytes), ("synchronous" : Bytes), ("max_page_count" : Bytes), ("auto_vacuum" : Bytes)])
    (hwritten : Pragma.isWritten name = false) (hlooks : Pragma.looksAtTable name value = false) :
    Setting.assign scene name value c = .ok c := by
  simp only [List.mem_cons, List.not_mem_nil, or_false, not_or] at hname
  simp [Setting.assign, hname, hwritten, hlooks]

/-- The pragmas of every ledger are read as one setting each. -/
theorem ownPragmas_read :
    Statement.first (Token.ofText (("pragma " : Bytes) ++ ("busy_timeout(5000)" : Bytes))) =
        .ok (.setting ⟨none, "busy_timeout", some "5000"⟩, []) ∧
      Statement.first (Token.ofText (("pragma " : Bytes) ++ ("foreign_keys(1)" : Bytes))) =
        .ok (.setting ⟨none, "foreign_keys", some "1"⟩, []) ∧
      Statement.first (Token.ofText (("pragma " : Bytes) ++ ("journal_mode(WAL)" : Bytes))) =
        .ok (.setting ⟨none, "journal_mode", some "WAL"⟩, []) := by decide +kernel

/-- None of the settings of every ledger writes, and only the journal looks at what is there. -/
theorem ownSettings_look :
    (∀ name ∈ [("busy_timeout" : Bytes), "foreign_keys", "journal_mode"],
      name.map Bytes.lowerByte = name ∧ Pragma.isWritten name = false ∧ name ≠ "incremental_vacuum") ∧
    (∀ name ∈ [("busy_timeout" : Bytes), "foreign_keys"],
      Pragma.needsTables name = false ∧ Pragma.needsFile name = false) ∧
    Pragma.needsTables "journal_mode" = true ∧ Pragma.looksAtTable "busy_timeout" "5000" = false ∧
      Pragma.isTrue "1" = true ∧ Pragma.journal? "WAL" = some "wal" := by decide +kernel

theorem run_busyTimeout (scene : Setting.Scene) (c : Connection) :
    Statement.runText scene (("pragma " : Bytes) ++ ("busy_timeout(5000)" : Bytes)) c = .ok c := by
  obtain ⟨hnames, hneeds, -, hlooks, -⟩ := ownSettings_look
  obtain ⟨hknown, hfile⟩ := hneeds _ List.mem_cons_self
  have hname := hnames _ List.mem_cons_self
  rw [runText_setting ownPragmas_read.1 hname (by simp [hfile]),
    assign_other scene _ (by decide +kernel) hname.2.1 hlooks, hknown, Bool.or_false]

theorem run_foreignKeys (scene : Setting.Scene) {c : Connection} (h : c.transaction = .absent) :
    Statement.runText scene (("pragma " : Bytes) ++ ("foreign_keys(1)" : Bytes)) c = .ok { c with strict := true } := by
  obtain ⟨hnames, hneeds, -, -, htrue, -⟩ := ownSettings_look
  obtain ⟨hknown, hfile⟩ := hneeds "foreign_keys" (by simp)
  rw [runText_setting ownPragmas_read.2.1 (hnames _ (by simp)) (by simp [hfile])]
  simp [Setting.assign, Connection.inTransaction, h, hknown, htrue]

theorem run_journalMode {scene : Setting.Scene} (haccess : scene.address.access = .create)
    (hfound : scene.found ≠ .foreign) {c : Connection} (h : c.transaction = .absent) :
    Statement.runText scene (("pragma " : Bytes) ++ ("journal_mode(WAL)" : Bytes)) c =
      .ok { c with known := true } := by
  obtain ⟨hnames, -, hknown, -, -, hlog⟩ := ownSettings_look
  have hother : ("journal_mode" : Bytes) ≠ "foreign_keys" ∧ ("journal_mode" : Bytes) ≠ "query_only" := by decide +kernel
  rw [runText_setting ownPragmas_read.2.2 (hnames _ (by simp)) (fun _ => hfound)]
  simp only [Setting.assign, if_neg hother.1, if_neg hother.2, if_true, Setting.changeJournal, hlog, hknown]
  cases scene.found with
  | nothing => simp [Connection.inTransaction, h, haccess]
  | foreign => simp
  | tables stored => simp

/-- A connection set up for a plain address. -/
theorem connect_plain {scene : Setting.Scene} (h : scene.address.IsPlain) (hfound : scene.found ≠ .foreign) :
    connect scene = .ok { Connection.fresh with strict := true, known := true } := by
  have hkeys := run_foreignKeys scene (c := .fresh) rfl
  have hjournal := run_journalMode h.access hfound (c := { Connection.fresh with strict := true }) rfl
  refine Runs.connect ?_ h.afterwards
  rw [h.pragmas]
  exact .cons (run_busyTimeout scene .fresh) (.cons hkeys (.cons hjournal (.nil _)))

/-! ## Paths that are URIs

A path can be a URI, and then it has parts of its own: an authority, and a fragment that hides what is behind it. As
long as it has no question mark, no parameters but those of every ledger come of it.
-/

namespace Address

theorem drop_takeWhile (b : UInt8) (text : Bytes) : text.drop (text.takeWhile (· ≠ b)).length = text.dropWhile (· ≠ b) := by
  calc text.drop (text.takeWhile (· ≠ b)).length
      = (text.takeWhile (· ≠ b) ++ text.dropWhile (· ≠ b)).drop (text.takeWhile (· ≠ b)).length := by
        rw [List.takeWhile_append_dropWhile]
    _ = text.dropWhile (· ≠ b) := List.drop_left

/-- What is behind an authority starts with the next slash. -/
theorem withoutAuthority_eq_ok {text path : Bytes} (h : withoutAuthority text = .ok path) :
    path = text ∨ ∃ rest, text = ('/' : UInt8) :: ('/' : UInt8) :: rest ∧ path = rest.dropWhile (· ≠ ('/' : UInt8)) := by
  unfold withoutAuthority at h
  split at h
  next a b rest =>
    split at h
    next hslashes =>
      have hab : a = '/' ∧ b = '/' := by simpa using hslashes
      simp only [drop_takeWhile] at h
      split at h
      next => exact Or.inr ⟨rest, by rw [hab.1, hab.2], (Except.ok.inj h).symm⟩
      next => cases h
    next => exact Or.inl (Except.ok.inj h).symm
  next => exact Or.inl (Except.ok.inj h).symm

/-- A text without a question mark, but for the parameters of every ledger if they are still behind it. -/
def EndsOwn (text : Bytes) : Prop := ∃ front, ('?' : UInt8) ∉ front ∧ (text = front ∨ text = front ++ ownParameters)

section

variable {text : Bytes} {b : UInt8}

theorem EndsOwn.tail (h : EndsOwn (b :: text)) (hb : b ≠ '?') : EndsOwn text := by
  have hmark := ownParameters_read.1
  obtain ⟨front, hfront, hplain | hown⟩ := h
  · exact ⟨text, fun hmem => hfront (hplain ▸ List.mem_cons_of_mem b hmem), Or.inl rfl⟩
  · cases front with
    | nil =>
        rw [List.nil_append] at hown
        rw [← hown, List.head?_cons] at hmark
        exact absurd (Option.some.inj hmark) hb
    | cons c front =>
        rw [List.cons_append] at hown
        exact ⟨front, fun hmem => hfront (List.mem_cons_of_mem c hmem), Or.inr (List.cons.inj hown).2⟩

theorem EndsOwn.takeWhile (h : EndsOwn text) (hb : b ∉ ownParameters) : EndsOwn (text.takeWhile (· ≠ b)) := by
  obtain ⟨front, hfront, hplain | hown⟩ := h
  · subst hplain
    exact ⟨_, fun hmem => hfront (List.takeWhile_subset _ hmem), Or.inl rfl⟩
  · have hall : ownParameters.takeWhile (· ≠ b) = ownParameters :=
      List.takeWhile_eq_self_iff.mpr fun c hc => by simpa using ne_of_mem_of_not_mem hc hb
    rw [hown, List.takeWhile_append, hall]
    split
    next => exact ⟨front, hfront, Or.inr rfl⟩
    next => exact ⟨_, fun hmem => hfront (List.takeWhile_subset _ hmem), Or.inl rfl⟩

theorem EndsOwn.dropWhile (h : EndsOwn text) (hb : b ∉ ownParameters) : EndsOwn (text.dropWhile (· ≠ b)) := by
  obtain ⟨front, hfront, hplain | hown⟩ := h
  · subst hplain
    exact ⟨_, fun hmem => hfront (List.dropWhile_subset _ hmem), Or.inl rfl⟩
  · have hnone : ownParameters.dropWhile (· ≠ b) = [] :=
      List.dropWhile_eq_nil_iff.mpr fun c hc => by simpa using ne_of_mem_of_not_mem hc hb
    rw [hown, List.dropWhile_append, hnone]
    split
    next => exact ⟨[], List.not_mem_nil, Or.inl rfl⟩
    next => exact ⟨_, fun hmem => hfront (List.dropWhile_subset _ hmem), Or.inr rfl⟩

/-- Behind the question mark are the parameters of every ledger, or nothing. -/
theorem EndsOwn.cut (h : EndsOwn text) :
    (Query.cut '?' text).2 = [] ∨ (Query.cut '?' text).2 = ownParameters.drop 1 := by
  obtain ⟨front, hfront, hplain | hown⟩ := h
  · have hnone : text.dropWhile (· ≠ ('?' : UInt8)) = [] :=
      List.dropWhile_eq_nil_iff.mpr fun c hc => by simpa using ne_of_mem_of_not_mem hc (hplain ▸ hfront)
    exact Or.inl (by rw [Query.cut, hnone]; rfl)
  · exact Or.inr (by rw [hown, cut_ownParameters hfront])

theorem EndsOwn.withoutAuthority (h : EndsOwn text) {path : Bytes}
    (hpath : Address.withoutAuthority text = .ok path) : EndsOwn path := by
  obtain ⟨-, -, -, hslash, -⟩ := ownParameters_read
  have hmark : ('/' : UInt8) ≠ '?' := by decide
  rcases withoutAuthority_eq_ok hpath with rfl | ⟨rest, rfl, rfl⟩
  · exact h
  · exact ((h.tail hmark).tail hmark).dropWhile hslash

/-- The parameters of every ledger ask for no file system and no access. -/
theorem take_ownEntry {option : Bytes × Bytes} (hoption : option ∈ ownEntries) (r : Request) :
    r.take option = .ok r := by
  obtain ⟨-, -, -, -, -, hnames⟩ := ownEntries_ask
  obtain ⟨hsystem, hcache, hmode⟩ := hnames option hoption
  simp only [Request.take, if_neg hsystem, if_neg hcache, if_neg hmode]

theorem foldlM_take {entries : List (Bytes × Bytes)} (h : ∀ entry ∈ entries, entry ∈ ownEntries) (r : Request) :
    entries.foldlM Request.take r = .ok r := by
  induction entries with
  | nil => rfl
  | cons entry rest ih =>
      obtain ⟨hentry, hrest⟩ := List.forall_mem_cons.mp h
      rw [List.foldlM_cons, take_ownEntry hentry]
      exact ih hrest

/-- A URI whose only parameters are those of every ledger asks for nothing beside its file. -/
theorem EndsOwn.ofUri (h : EndsOwn text) {name : Bytes} {request : Request}
    (huri : ofUri text none = .ok (name, request)) : request.system = none ∧ request.access = .create ∧
      request.memory = false ∧ Query.values "immutable" request.options = [] ∧
        Query.values "modeof" request.options = [] := by
  obtain ⟨-, -, hhash, -, -, hread⟩ := ownParameters_read
  obtain ⟨-, -, -, himmutable, hmodel, -⟩ := ownEntries_ask
  unfold Address.ofUri at huri
  cases hpath : Address.withoutAuthority text with
  | error obstacle => simp [hpath, bind, Except.bind] at huri
  | ok path =>
      have hquery := ((h.withoutAuthority hpath).takeWhile hhash).cut
      simp only [hpath, bind, Except.bind] at huri
      have hoptions : ∀ query, query = [] ∨ query = ownParameters.drop 1 →
          options query = [] ∨ options query = ownEntries := by
        rintro query (rfl | rfl)
        · exact Or.inl rfl
        · exact Or.inr hread
      have hnone : Query.values "immutable" [] = [] ∧ Query.values "modeof" [] = [] := ⟨rfl, rfl⟩
      rcases hoptions _ hquery with hoptions | hoptions
      · rw [hoptions, foldlM_take (by simp)] at huri
        obtain ⟨-, rfl⟩ := Prod.mk.inj (Except.ok.inj huri)
        exact ⟨rfl, rfl, rfl, hnone⟩
      · rw [hoptions, foldlM_take fun _ => id] at huri
        obtain ⟨-, rfl⟩ := Prod.mk.inj (Except.ok.inj huri)
        exact ⟨rfl, rfl, rfl, himmutable, hmodel⟩

end

/-- The address of a path without a question mark is plain, be it a URI or not. -/
theorem isPlain_of_ofPath {path : Bytes} (hmark : ('?' : UInt8) ∉ path) (hpath : path ≠ []) {address : Address}
    (h : ofPath path = .ok address) : address.IsPlain := by
  have hmarked : ((path ++ ownParameters).head? = some ('?' : UInt8)) = False := by
    refine eq_false fun hhead => hmark ?_
    rw [List.head?_append_of_ne_nil _ hpath] at hhead
    exact List.mem_of_head? hhead
  obtain ⟨-, -, -, -, hparse, -⟩ := ownParameters_read
  obtain ⟨hsystem, hlock, hafter, -⟩ := ownEntries_ask
  unfold ofPath at h
  simp only [hmarked, cut_ownParameters hmark, hparse, hsystem, hlock, hafter, ordered_ownEntries,
    if_false, Except.mapError, bind, Except.bind, pure, Except.pure] at h
  split at h
  next huri =>
    obtain ⟨rest, rfl⟩ := List.isPrefixOf_iff_prefix.mp huri
    obtain ⟨-, hzero, -⟩ := ownParameters_read
    have hrest : EndsOwn (rest ++ ownParameters) :=
      ⟨rest, fun hmem => hmark (List.mem_append_right _ hmem), Or.inr rfl⟩
    have hdrop : (("file:" : Bytes) ++ rest ++ ownParameters).drop 5 = rest ++ ownParameters := by
      rw [List.append_assoc]
      exact List.drop_left' (by decide +kernel)
    rw [hdrop] at h
    cases hmade : ofUri ((rest ++ ownParameters).takeWhile (· ≠ 0)) none with
    | error obstacle =>
        simp only [hmade] at h
        cases h
    | ok made =>
        obtain ⟨name, request⟩ := made
        obtain ⟨hnone, haccess, -, himmutable, hmodel⟩ := (hrest.takeWhile hzero).ofUri hmade
        simp only [hmade, hnone] at h
        obtain rfl := Except.ok.inj h
        exact ⟨haccess, by simp [himmutable], by simp [hmodel], rfl, rfl, rfl⟩
  next =>
    obtain rfl := Except.ok.inj h
    exact ⟨rfl, by simp [Query.values], rfl, rfl, rfl, rfl⟩

end Address

end Ledger

end MobilitySweep
