import MobilitySweep.Proofs.Ledger.Vouching

/-! # What a filter lists

A filter lists the runs that pass it from the latest to the earliest, and runs that started at one moment by their
identifiers. The stored forms of moments are compared as texts, and so are the identifiers: in the form in which the
tables keep texts, which is that of the identifiers themselves as long as the path of the ledger has no question mark.
-/

namespace MobilitySweep

namespace RunFilter

/-- Whether a filter lets a run pass: sweep and status are those that it names, if it names any. -/
def Admits (filter : RunFilter) (r : RunRecord) : Prop :=
  (filter.sweepId = [] ∨ r.sweepId = filter.sweepId) ∧ (filter.status = [] ∨ r.status = filter.status)

end RunFilter

namespace RunRecord

/-- Whether a run is to be listed before another one: it started later, or at the same moment with an identifier that
comes first. -/
def Before (less : Bytes → Bytes → Bool) (a b : RunRecord) : Prop :=
  b.startedAt.nanos < a.startedAt.nanos ∨ a.startedAt = b.startedAt ∧ less a.runId b.runId = true

end RunRecord

namespace Ledger

open Files

/-! ## How texts are kept -/

section

variable {files made : Files} {path : Bytes} {clock : Clock} {l : Ledger}

theorem Tables.encoding_store (t : Tables) (r : RunRecord) : (t.store r).encoding = t.encoding := by
  unfold store
  split <;> rfl

theorem Answers.encoding {takes : Prop} {tables : Tables} {answer : Ledger × Option Refusal}
    (h : Answers l takes tables answer) (hsame : tables.encoding = l.tables.encoding) :
    answer.1.tables.encoding = l.tables.encoding := by
  cases h with
  | taken => exact hsame
  | refused => rfl

/-- No write changes how texts are kept. -/
theorem apply_encoding (l : Ledger) (write : Write) : (l.apply write).1.tables.encoding = l.tables.encoding := by
  cases write with
  | beginSweep sweep =>
      obtain ⟨row, hanswers⟩ := l.beginSweep_answers sweep
      exact hanswers.encoding rfl
  | endSweep id status finishedAt => exact (l.endSweep_answers id status finishedAt).encoding rfl
  | start run => exact (l.storeRun_answers _).encoding (Tables.encoding_store _ _)
  | finish run =>
      obtain ⟨r, -, hanswers⟩ := l.finishRun_answers run
      exact hanswers.encoding (Tables.encoding_store _ _)
  | skip run => exact (storeRun_answers _ _).encoding (Tables.encoding_store _ _)

theorem checked_encoding {tables passed : Tables} (h : checked tables = .ok passed) :
    passed.encoding = tables.encoding := by
  rcases checked_eq_ok_iff.mp h with ⟨-, rfl⟩ | ⟨-, -, -, rfl⟩ <;> rfl

theorem tables_of_stored {entry : Option Entry} {kept : Tables} (h : stored entry = .tables kept) :
    entry = some (.file (.ledger kept)) := by
  unfold stored at h
  split at h
  next => rw [Stored.tables.inj h]
  next => cases h
  next => cases h

/-- A ledger that is opened at a plain address keeps texts as they are if the stored one does. -/
theorem ofStored_utf8 {scene : Setting.Scene} (haddress : scene.address.IsPlain)
    (hkept : ∀ kept, scene.found = .tables kept → kept.encoding = .utf8) (h : ofStored path clock scene = .ok l) :
    l.tables.encoding = .utf8 := by
  obtain ⟨-, -, ⟨kept, hfound, hchecked⟩ | ⟨hnothing, -⟩⟩ := ofStored_eq_ok h
  · rw [checked_encoding hchecked, hkept kept hfound]
  · obtain rfl := Except.ok.inj ((ofStored_succeeds haddress (Or.inl ⟨hnothing, rfl⟩)).symm.trans h)
    rfl

/-- Whether the file of the ledger at a path keeps texts as they are, if it holds a ledger already. -/
def KeepsTexts (files : Files) (path : Bytes) : Prop :=
  ∀ name place kept, fileName? path = some name → place? files name = some place →
    files.get? place = some (.file (.ledger kept)) → kept.encoding = .utf8

/-- A ledger at a path without a question mark keeps texts as they are, if its file does. -/
theorem openFile_utf8 (hfiles : files.WellFormed) (hmark : ('?' : UInt8) ∉ path) (hkept : KeepsTexts files path)
    (h : openFile files path clock = (made, .ok l)) : l.tables.encoding = .utf8 := by
  obtain ⟨hpath, furnished, address, found, _, hfurnished, haddress, hstored, hcases⟩ := openFile_eq_ok h
  refine ofStored_utf8 (Address.isPlain_of_ofPath hmark hpath haddress) (fun kept hfound => ?_) hstored
  have hfurnished := hfurnished hfiles
  rcases hcases with ⟨-, rfl⟩ | ⟨name, place, hname, hplace, rfl, -⟩
  · cases hfound
  · have hthere := (hfurnished.adds place _ (tables_of_stored hfound)).resolve_right (by simp)
    -- Directories that are made on the way do not lead the name elsewhere.
    have hsettled := settle_start_of_fuller hfurnished.fuller (place?_eq_some hplace).1
    have hkeeps : Keeps files name place :=
      ⟨hfiles, fun other hother => Option.some.inj (hother.symm.trans hsettled), _, hthere⟩
    have hplace := hkeeps.place?_of_furnishes hfurnished hplace
    exact hkept name place kept ((fileName?_eq haddress).trans hname) hplace hthere

end

namespace Session

variable {path : Bytes} {s : Session}

/-- At a path without a question mark, texts are kept as they are from then on. -/
theorem Sound.utf8_perform (hmark : ('?' : UInt8) ∉ path) (hsound : s.Sound path)
    (h : s.ledger.tables.encoding = .utf8) (operation : Operation) :
    (s.perform operation).ledger.tables.encoding = .utf8 := by
  cases operation with
  | write write =>
      have hsame := s.ledger.apply_encoding write
      simp only [Session.perform]
      split
      next l hanswer =>
        rw [hanswer] at hsame
        exact hsame.trans h
      next l refusal hanswer =>
        rw [hanswer] at hsame
        exact hsame.trans h
  | wait clock => exact h
  | close => exact h
  | reopen clock =>
      obtain ⟨hpath, -, hleads, -⟩ := hsound
      rcases hopen : openFile (s.ledger.save s.files) path clock with ⟨made, ⟨reason⟩ | ⟨opened⟩⟩
      all_goals simp only [Session.perform, hpath, hopen]
      · exact h
      · cases hname : fileName? path with
        | some name =>
            obtain ⟨place, hkeeps⟩ := hleads name hname
            exact (checked_encoding (hkeeps.reopened (hpath ▸ hname) (hpath ▸ hopen)).2).trans h
        | none =>
            obtain ⟨hgiven, _, address, _, _, -, haddress, hstored, ⟨-, rfl⟩ | ⟨_, _, hfile, -⟩⟩ := openFile_eq_ok hopen
            · exact ofStored_utf8 (Address.isPlain_of_ofPath hmark hgiven haddress) (by simp) hstored
            · rw [fileName?_eq haddress, hfile] at hname
              cases hname

theorem Sound.utf8_run (hmark : ('?' : UInt8) ∉ path) (hsound : s.Sound path) (h : s.ledger.tables.encoding = .utf8)
    (operations : List Operation) : (s.run operations).ledger.tables.encoding = .utf8 := by
  induction operations generalizing s with
  | nil => exact h
  | cons operation rest ih => exact ih (hsound.perform operation) (hsound.utf8_perform hmark h operation)

end Session

/-! ## A path that asks for another form of texts -/

/-- Behind a question mark of the path, a parameter asks for texts of units of two bytes. -/
def wideAddress : Address :=
  { markedAddress with pragmas := ["busy_timeout(5000)", "encoding('UTF-16le')", "journal_mode(WAL)"] }

theorem ofPath_wide : Address.ofPath "/ledger?_pragma=encoding('UTF-16le')&x" = .ok wideAddress := by
  let entries : List (Bytes × Bytes) := [("_pragma", "encoding('UTF-16le')"), ("x?_pragma", "foreign_keys(1)"),
    ("_pragma", "journal_mode(WAL)"), ("_pragma", "busy_timeout(5000)")]
  have hpath : ("/ledger?_pragma=encoding('UTF-16le')&x" : Bytes) =
      ("/ledger" : Bytes) ++ ('?' : UInt8) :: "_pragma=encoding('UTF-16le')&x" := by decide +kernel
  have hparse : Query.parse (("_pragma=encoding('UTF-16le')&x" : Bytes) ++ Address.ownParameters) = .ok entries := by
    decide +kernel
  have hvalues : Query.values "_pragma" entries = [("encoding('UTF-16le')" : Bytes), ("journal_mode(WAL)" : Bytes)] ++
      [("busy_timeout(5000)" : Bytes)] := by decide +kernel
  have hgraphic : ∀ pragma ∈ [("encoding('UTF-16le')" : Bytes), ("journal_mode(WAL)" : Bytes)],
      ∀ b ∈ pragma, Bytes.IsGraphic b := by
    simp only [Bytes.forall_isGraphic_iff]
    decide +kernel
  have hkeys : [("encoding('UTF-16le')" : Bytes), ("journal_mode(WAL)" : Bytes)].map (·.map Bytes.lowerByte) =
      [("encoding('utf-16le')" : Bytes), ("journal_mode(wal)" : Bytes)] := by decide +kernel
  rw [hpath, ofPath_pragmas hparse (by decide +kernel) (by decide +kernel) (by decide +kernel) rfl, hvalues,
    Address.ordered_waiting hgraphic hkeys (by decide +kernel) (by decide +kernel)]
  rfl

theorem run_wideEncoding {scene : Setting.Scene} {c : Connection} (h : c.known = false) :
    Statement.runText scene (("pragma " : Bytes) ++ ("encoding('UTF-16le')" : Bytes)) c =
      .ok { c with encoding := .utf16 false } := by
  have hread : Statement.first (Token.ofText (("pragma " : Bytes) ++ ("encoding('UTF-16le')" : Bytes))) =
      .ok (.setting ⟨none, "encoding", some "UTF-16le"⟩, []) := by decide +kernel
  have hname : ("encoding" : Bytes).map Bytes.lowerByte = "encoding" ∧ Pragma.isWritten "encoding" = false ∧
      ("encoding" : Bytes) ≠ "incremental_vacuum" := by decide +kernel
  have hneeds : Pragma.needsTables "encoding" = false ∧ Pragma.needsFile "encoding" = false := by decide +kernel
  have hother : ("encoding" : Bytes) ≠ "foreign_keys" ∧ ("encoding" : Bytes) ≠ "query_only" ∧
      ("encoding" : Bytes) ≠ "journal_mode" := by decide +kernel
  have hvalue : Pragma.encoding? "UTF-16le" = some (.utf16 false) := by decide +kernel
  rw [runText_setting hread hname (by simp [hneeds])]
  simp [Setting.assign, hother, h, hneeds, hvalue]

theorem connect_wide {scene : Setting.Scene} (haddress : scene.address = wideAddress)
    (hfound : scene.found = .nothing) :
    connect scene = .ok { Connection.fresh with encoding := .utf16 false, known := true } := by
  have hjournal := run_journalMode (by rw [haddress]; rfl) (by simp [hfound])
    (c := { Connection.fresh with encoding := .utf16 false }) rfl
  refine Runs.connect ?_ (by rw [haddress]; rfl)
  rw [haddress]
  exact .cons (run_busyTimeout scene .fresh) (.cons (run_wideEncoding rfl) (.cons hjournal (.nil _)))

/-- The session with a ledger that keeps texts in units of two bytes. -/
def wideSession : Session :=
  ⟨ledgerTree (.fresh (.utf16 false)),
    ⟨"/ledger?_pragma=encoding('UTF-16le')&x", .fresh (.utf16 false), true, false, false, tickingClock⟩, []⟩

theorem openFile_wide : openFile (Files.fresh []) "/ledger?_pragma=encoding('UTF-16le')&x" tickingClock =
    (wideSession.files, .ok wideSession.ledger) := by
  have hstored : ∀ isThere, ofStored "/ledger?_pragma=encoding('UTF-16le')&x" tickingClock
      ⟨wideAddress, .nothing, isThere⟩ = .ok wideSession.ledger := by
    intro isThere
    unfold ofStored
    rw [connect_wide rfl rfl]
    rfl
  exact openFile_root (by decide +kernel) (by decide +kernel) ofPath_wide rfl rfl rfl hstored

/-! ## The order of rows -/

/-- What rows are sorted by: the stored start time, in falling order, and then the identifier as it is kept. -/
def RunRow.sortKey (encoding : TextEncoding) (row : RunRow) : (List Nat)ᵒᵈ ×ₗ List Nat :=
  toLex (OrderDual.toDual (row.startedAt.map UInt8.toNat), (encoding.kept row.runId).map UInt8.toNat)

namespace Tables

section

variable {encoding : TextEncoding}

theorem runNotAfter_iff {a b : RunRow} :
    runNotAfter encoding a b = true ↔ a.sortKey encoding ≤ b.sortKey encoding := by
  simp only [runNotAfter, RunRow.sortKey, TextEncoding.less, Prod.Lex.toLex_le_toLex, OrderDual.toDual_lt_toDual,
    OrderDual.toDual_inj, Bytes.map_toNat_inj, Bytes.less_iff, Bool.or_eq_true, Bool.and_eq_true, decide_eq_true_eq,
    Bool.not_eq_true', Bytes.less_eq_false_iff]

/-- Sorted rows are in order. -/
theorem pairwise_mergeSort (encoding : TextEncoding) (rows : List RunRow) :
    (rows.mergeSort (runNotAfter encoding)).Pairwise fun a b => runNotAfter encoding a b = true := by
  refine List.pairwise_mergeSort (fun a b c => ?_) (fun a b => ?_) rows
  · simp only [runNotAfter_iff]
    exact le_trans
  · rw [Bool.or_eq_true, runNotAfter_iff, runNotAfter_iff]
    exact le_total _ _

/-- Rows are in order if the second run is not to be listed before the first. -/
theorem runNotAfter_ofRecord {a b : RunRecord} (ha : a.startedAt.IsStorable) (hb : b.startedAt.IsStorable) :
    runNotAfter encoding (.ofRecord a) (.ofRecord b) = true ↔ ¬RunRecord.Before encoding.less b a := by
  have hmoment : a.startedAt = b.startedAt ↔ a.startedAt.nanos = b.startedAt.nanos := by
    cases a.startedAt
    cases b.startedAt
    simp
  have hstart : runNotAfter encoding (.ofRecord a) (.ofRecord b) = true ↔ b.startedAt.nanos < a.startedAt.nanos ∨
      a.startedAt = b.startedAt ∧ encoding.less b.runId a.runId = false := by
    simp only [runNotAfter, RunRow.ofRecord, Bool.or_eq_true, Bool.and_eq_true, decide_eq_true_eq,
      Bool.not_eq_true', Instant.stamp_less_iff hb ha, Instant.stamp_inj ha hb]
  rw [hstart, RunRecord.Before, eq_comm (a := b.startedAt), hmoment]
  cases encoding.less b.runId a.runId <;> simp <;> omega

/-- A row passes a filter if the filter lets its run pass. -/
theorem passes_ofRecord {filter : RunFilter} {r : RunRecord} :
    passes filter (.ofRecord r) = true ↔ filter.Admits r := by
  simp only [passes, Bool.and_eq_true, Bool.or_eq_true, List.isEmpty_iff, decide_eq_true_eq]
  rfl

end

end Tables

/-! ## What is listed -/

/-- Whether a run is stored in a session: the records of it that were taken sum up to it. -/
def Session.Stores (s : Session) (r : RunRecord) : Prop :=
  RunRecord.summary? (s.taken.filter (·.isFor r.sweepId r.runId)) = some r

/-- The rows are those of the records that histories sum up to. -/
theorem Sums.mem_iff {rows : List RunRow} {history : List RunRecord} (h : Sums rows history) {row : RunRow} :
    row ∈ rows ↔ ∃ r, RunRecord.summary? (history.filter (·.isFor r.sweepId r.runId)) = some r ∧ row = .ofRecord r := by
  constructor
  · intro hrow
    have hsummed : row ∈ rows.filter (·.isFor row.sweepId row.runId) :=
      List.mem_filter.mpr ⟨hrow, by simp [RunRow.isFor]⟩
    rw [h row.sweepId row.runId, Option.mem_toList, Option.map_eq_some_iff] at hsummed
    obtain ⟨r, hsum, rfl⟩ := hsummed
    exact ⟨r, hsum, rfl⟩
  · rintro ⟨r, hsum, rfl⟩
    have hrow : RunRow.ofRecord r ∈ rows.filter (·.isFor r.sweepId r.runId) := by
      rw [h r.sweepId r.runId, hsum]
      exact List.mem_singleton.mpr rfl
    exact (List.mem_filter.mp hrow).1

/-- The runs of a session that a filter lets pass, each once, in the order in which they are to be listed. -/
structure Session.Matches (s : Session) (filter : RunFilter) (matching : List RunRecord) : Prop where
  once : (matching.map fun r => (r.sweepId, r.runId)).Nodup
  stored : ∀ r, r ∈ matching ↔ s.Stores r ∧ filter.Admits r
  ordered : matching.Pairwise fun a b => ¬RunRecord.Before s.ledger.tables.encoding.less b a

section

variable {s : Session}

/-- The rows that pass a filter, sorted and read back, are the runs that it lets pass. -/
theorem Sums.matches (h : Sums s.ledger.tables.runs s.taken) (hstorable : ∀ r, s.Stores r → r.IsStorable)
    (filter : RunFilter) : s.Matches filter (((s.ledger.tables.runs.filter (Tables.passes filter)).mergeSort
      (Tables.runNotAfter s.ledger.tables.encoding)).map (·.toRecord)) := by
  set rows := (s.ledger.tables.runs.filter (Tables.passes filter)).mergeSort
    (Tables.runNotAfter s.ledger.tables.encoding) with hrows
  have hperm : rows.Perm (s.ledger.tables.runs.filter (Tables.passes filter)) := List.mergeSort_perm _ _
  have hmem : ∀ row, row ∈ rows ↔ ∃ r, s.Stores r ∧ filter.Admits r ∧ row = .ofRecord r := by
    intro row
    rw [hperm.mem_iff, List.mem_filter, h.mem_iff]
    constructor
    · rintro ⟨⟨r, hstored, rfl⟩, hpasses⟩
      exact ⟨r, hstored, Tables.passes_ofRecord.mp hpasses, rfl⟩
    · rintro ⟨r, hstored, hadmits, rfl⟩
      exact ⟨⟨r, hstored, rfl⟩, Tables.passes_ofRecord.mpr hadmits⟩
  refine ⟨?_, fun r => ?_, ?_⟩
  · rw [List.map_map, (hperm.map _).nodup_iff]
    exact h.keys_nodup.sublist (List.filter_sublist.map _)
  · rw [List.mem_map]
    constructor
    · rintro ⟨row, hrow, rfl⟩
      obtain ⟨r, hstored, hadmits, rfl⟩ := (hmem row).mp hrow
      rw [toRecord_ofRecord (hstorable r hstored)]
      exact ⟨hstored, hadmits⟩
    · rintro ⟨hstored, hadmits⟩
      exact ⟨_, (hmem _).mpr ⟨r, hstored, hadmits, rfl⟩, toRecord_ofRecord (hstorable r hstored)⟩
  · rw [List.pairwise_map]
    refine (Tables.pairwise_mergeSort _ _).imp_of_mem fun {a b} ha hb hab => ?_
    obtain ⟨r, hr, -, rfl⟩ := (hmem a).mp ha
    obtain ⟨q, hq, -, rfl⟩ := (hmem b).mp hb
    obtain ⟨hr, hq⟩ : r.IsStorable ∧ q.IsStorable := ⟨hstorable r hr, hstorable q hq⟩
    rw [toRecord_ofRecord hr, toRecord_ofRecord hq]
    exact (Tables.runNotAfter_ofRecord hr.1 hq.1).mp hab

/-- The limit is that of the runs that are read back. -/
theorem Tables.listRuns_eq (t : Tables) (filter : RunFilter) : t.listRuns filter = limited filter.limit
    (((t.runs.filter (passes filter)).mergeSort (runNotAfter t.encoding)).map (·.toRecord)) := by
  unfold listRuns limited
  split
  next => rw [List.map_take]
  next => rfl

/-- What a limit leaves out of a list comes behind all that it lets pass. -/
theorem Tables.limited_of_pos {α : Type} {R : α → α → Prop} {entries : List α} {limit : Int64} (h : entries.Pairwise R)
    (hlimit : 0 < limit) : (limited limit entries).length = min limit.toInt.toNat entries.length ∧
      ∀ omitted ∈ entries, omitted ∉ limited limit entries → ∀ entry ∈ limited limit entries, R entry omitted := by
  rw [limited, if_pos hlimit]
  refine ⟨List.length_take, fun omitted homitted hout entry hentry => ?_⟩
  rw [← List.take_append_drop limit.toInt.toNat entries] at h homitted
  exact (List.pairwise_append.mp h).2.2 entry hentry omitted ((List.mem_append.mp homitted).resolve_left hout)

end

/-! ## Listing -/

/-- A ledger without runs is opened and used, and holds moments of years with four digits. Whenever it is open, a filter
lists the runs that are stored and that it lets pass, each once, from the latest to the earliest, and runs of one moment
in the order of their identifiers. With a limit it lists as many of them as the limit says, if there are so many, and
leaves out none that comes before a listed one. Identifiers are compared byte by byte if the path of the ledger has no
question mark, unless its file held a ledger with texts of another form before. -/
theorem listing_is_sorted_prefix {files made : Files} {path : Bytes} {clock : Clock} {l : Ledger}
    (hfiles : files.WellFormed) (hopen : openFile files path clock = (made, .ok l)) (hfresh : l.tables.runs = [])
    (operations : List Operation) :
    let s := Session.run ⟨made, l, []⟩ operations
    let less := s.ledger.tables.encoding.less
    (s.ledger.isOpen = true → (∀ r, s.Stores r → r.IsStorable) → ∀ filter, ∃ matching listed,
        s.Matches filter matching ∧ s.ledger.listRuns filter = .ok listed ∧ (¬0 < filter.limit → listed = matching) ∧
          (0 < filter.limit → listed = matching.take filter.limit.toInt.toNat ∧
            listed.length = min filter.limit.toInt.toNat matching.length ∧
            ∀ omitted ∈ matching, omitted ∉ listed → ∀ r ∈ listed, ¬RunRecord.Before less omitted r)) ∧
      (('?' : UInt8) ∉ path → KeepsTexts files path → less = Bytes.less) := by
  intro s less
  have hstart : Session.Sound path ⟨made, l, []⟩ :=
    ⟨openFile_path hopen, hfresh ▸ Session.sums_nil, fun _ hname => openFile_keeps hfiles hopen hname,
      fun hplain => openFile_plain hplain hopen⟩
  refine ⟨fun hisOpen hstorable filter => ?_, fun hmark hkept => ?_⟩
  · have hmatches := (hstart.run operations).sums.matches hstorable filter
    refine ⟨_, _, hmatches, if_pos hisOpen, fun hall => ?_, fun hlimit => ?_⟩
    · rw [Tables.listRuns_eq, Tables.limited, if_neg hall]
    · rw [Tables.listRuns_eq]
      exact ⟨if_pos hlimit, Tables.limited_of_pos hmatches.ordered hlimit⟩
  · have hutf8 := hstart.utf8_run hmark (openFile_utf8 hfiles hmark hkept hopen) operations
    simp only [less, s, hutf8]
    rfl

/-- A run that is started at a moment given in some zone. -/
def startAt (runId moment : Bytes) : RunRecord :=
  { startedRun with runId := runId, status := RunStatus.running, startedAt := (Instant.ofExchange? moment).getD .zero }

def earlyRun : RunRecord := startAt "b" "2026-03-01T10:00:00Z"

def twinRun : RunRecord := startAt "a" "2026-03-01T12:00:00+02:00"

def lateRun : RunRecord := startAt "c" "2026-03-01T09:00:00.000000001-01:00"

/-- Three runs are started: one of them a nanosecond later than the two others. -/
def threeStarts : List Operation :=
  .write (.beginSweep ⟨"sweep", [], [], .zero, .zero⟩) :: [earlyRun, lateRun, twinRun].map fun r => .write (.start r)

/-- Runs from the latest to the earliest are told apart by their order. -/
theorem threeStarts_ordered :
    [lateRun, twinRun, earlyRun].Pairwise (fun a b => ¬RunRecord.Before Bytes.less b a) ∧
      ∀ a ∈ [lateRun, twinRun, earlyRun], ∀ b ∈ [lateRun, twinRun, earlyRun],
        ¬RunRecord.Before Bytes.less b a → ¬RunRecord.Before Bytes.less a b → a = b := by
  unfold RunRecord.Before
  decide +kernel

/-- The three runs are stored, and nothing else. -/
theorem threeStarts_stored (r : RunRecord) :
    (freshSession.run threeStarts).Stores r ↔ r ∈ [lateRun, twinRun, earlyRun] := by
  have hsums : ∀ q ∈ [lateRun, twinRun, earlyRun],
      RunRecord.summary? ([earlyRun, lateRun, twinRun].filter (·.isFor q.sweepId q.runId)) = some q := by decide +kernel
  have htaken : (freshSession.run threeStarts).taken = [earlyRun, lateRun, twinRun] := by decide +kernel
  have hperm : ([earlyRun] ++ [lateRun, twinRun]).Perm ([lateRun, twinRun] ++ [earlyRun]) := List.perm_append_comm
  unfold Session.Stores
  rw [htaken]
  refine ⟨fun h => ?_, hsums r⟩
  obtain ⟨latest, hlatest, hsweep, hrun, -⟩ := RunRecord.latest_of_summary? h
  have hlatest : latest ∈ [lateRun, twinRun, earlyRun] := hperm.mem_iff.mp (List.mem_filter.mp hlatest).1
  rw [hsweep, hrun] at h
  rw [← Option.some.inj ((hsums latest hlatest).symm.trans h)]
  exact hlatest

/-- Two of the three runs are listed: the latest one, and of the two others, which started at one moment, the one with
the identifier that comes first. -/
theorem two_latest_are_listed :
    openFile (Files.fresh []) "/ledger" tickingClock = (freshSession.files, .ok freshSession.ledger) ∧
      earlyRun.startedAt = twinRun.startedAt ∧
        (freshSession.run threeStarts).ledger.listRuns ⟨"sweep", RunStatus.running, 2⟩ = .ok [lateRun, twinRun] := by
  have hkept : KeepsTexts (Files.fresh []) "/ledger" := by
    intro name place kept hname hplace hthere
    obtain rfl := Option.some.inj (fileName?_ledger.symm.trans hname)
    obtain rfl := Option.some.inj ((place?_ledger (Or.inl get?_freshRoot)).symm.trans hplace)
    cases get?_freshRoot.symm.trans hthere
  have hall := listing_is_sorted_prefix wellFormed_freshRoot openFile_freshRoot rfl threeStarts
  have hstart : (⟨freshSession.files, freshSession.ledger, []⟩ : Session) = freshSession := rfl
  rw [hstart] at hall
  obtain ⟨hlisting, hless⟩ := hall
  have hstorable : ∀ r, (freshSession.run threeStarts).Stores r → r.IsStorable := by
    have hall : ∀ r ∈ [lateRun, twinRun, earlyRun], r.IsStorable := by
      unfold RunRecord.IsStorable Instant.IsStorable
      decide +kernel
    exact fun r hr => hall r ((threeStarts_stored r).mp hr)
  obtain ⟨matching, listed, hmatches, hlisted, -, hlimit⟩ :=
    hlisting (by decide +kernel) hstorable ⟨"sweep", RunStatus.running, 2⟩
  have hmem : ∀ r, r ∈ matching ↔ r ∈ [lateRun, twinRun, earlyRun] := by
    have hadmits : ∀ r ∈ [lateRun, twinRun, earlyRun], RunFilter.Admits ⟨"sweep", RunStatus.running, 2⟩ r := by
      unfold RunFilter.Admits
      decide +kernel
    intro r
    rw [hmatches.stored, threeStarts_stored]
    exact and_iff_left_of_imp (hadmits r)
  have hperm : matching.Perm [lateRun, twinRun, earlyRun] :=
    (List.perm_ext_iff_of_nodup hmatches.once.of_map (by decide +kernel)).mpr hmem
  have hsorted : matching = [lateRun, twinRun, earlyRun] := by
    obtain ⟨hordered, hapart⟩ := threeStarts_ordered
    refine hperm.eq_of_pairwise (fun a b ha hb => hapart a ((hmem a).mp ha) b hb) ?_ hordered
    rw [← hless isPlain_ledger.unmarked hkept]
    exact hmatches.ordered
  have htwo : [lateRun, twinRun, earlyRun].take (2 : Int64).toInt.toNat = [lateRun, twinRun] := by decide +kernel
  refine ⟨openFile_freshRoot, by decide +kernel, hlisted.trans ?_⟩
  rw [(hlimit (by decide +kernel)).1, hsorted, htwo]

/-- Where texts are kept in units of two bytes, a run is listed behind one whose identifier comes later. -/
theorem wide_texts_disorder_listing :
    let first := startAt "Ā" "2026-03-01T10:00:00Z"
    let second := startAt "A" "2026-03-01T10:00:00Z"
    let s := wideSession.run [.write (.start first), .write (.start second)]
    openFile (Files.fresh []) "/ledger?_pragma=encoding('UTF-16le')&x" tickingClock =
        (wideSession.files, .ok wideSession.ledger) ∧
      s.taken = [first, second] ∧ (∀ r ∈ s.taken, r.IsStorable) ∧
        s.ledger.listRuns .everything = .ok [first, second] ∧ RunRecord.Before Bytes.less second first := by
  intro first second s
  have htaken : s.taken = [first, second] := by decide +kernel
  have hrows : s.ledger.tables.runs = [RunRow.ofRecord first, RunRow.ofRecord second] := by decide +kernel
  have hencoding : s.ledger.tables.encoding = .utf16 false := by decide +kernel
  have hsorted : [RunRow.ofRecord first, RunRow.ofRecord second].Pairwise
      fun a b => Tables.runNotAfter (.utf16 false) a b = true := by decide +kernel
  have hstorable : ∀ r ∈ [first, second], r.IsStorable := by
    unfold RunRecord.IsStorable Instant.IsStorable
    decide +kernel
  refine ⟨openFile_wide, htaken, htaken ▸ hstorable, ?_, ?_⟩
  · have hisOpen : s.ledger.isOpen = true := by decide +kernel
    have hall : [RunRow.ofRecord first, RunRow.ofRecord second].filter (Tables.passes .everything) =
        [RunRow.ofRecord first, RunRow.ofRecord second] := List.filter_eq_self.mpr fun _ _ => rfl
    have hfirst : (RunRow.ofRecord first).toRecord = first := toRecord_ofRecord (hstorable first (by simp))
    have hsecond : (RunRow.ofRecord second).toRecord = second := toRecord_ofRecord (hstorable second (by simp))
    rw [Ledger.listRuns, if_pos hisOpen, Tables.listRuns_eq, hrows, hencoding, hall, List.mergeSort_of_pairwise hsorted,
      List.map_cons, List.map_singleton, hfirst, hsecond, Tables.limited, if_neg (by decide +kernel)]
  · unfold RunRecord.Before
    decide +kernel

end Ledger

end MobilitySweep
