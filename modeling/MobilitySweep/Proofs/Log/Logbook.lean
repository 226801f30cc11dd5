import MobilitySweep.Proofs.Files.Appending
import MobilitySweep.Proofs.Log.Telling

/-! # Event files

Event logs are opened, told events and closed in any order, several of them side by side or after one another, also on
one file. Whatever the calls, a file of events goes on behind its earlier text with one line for each event that an open
log was told, in the order of telling.
-/

namespace MobilitySweep

/-- The files, and the event logs that were asked for, in order. One that could not be opened is none. -/
structure Logbook where
  files : Files
  logs : List (Option EventLog)

namespace EventLog

/-- A log whose clock stands at a moment. -/
def stoppedAt (l : EventLog) (time : Instant) : EventLog := { l with clock := ⟨time, 0⟩ }

variable {l : EventLog} {fields : List (Bytes × Json)}

/-- An event that a log does not take leaves the files alone. -/
theorem log_refused (h : (l.isOpen && Json.haveEncodable fields) = false) (kind runId : Bytes) (files : Files) :
    ∃ clock, l.log kind runId fields files = (files, { l with clock := clock }) := by
  have hnone := line?_refused h kind runId
  obtain ⟨clock, htold⟩ := told_of_line?_eq_none hnone
  exact ⟨clock, by rw [log_of_line?_eq_none hnone, htold]⟩

/-- An event that a log takes is one line more at the end of its file. -/
theorem log_taken (h : (l.isOpen && Json.haveEncodable fields) = true) (htime : l.clock.next.IsStorable)
    (kind runId : Bytes) (files : Files) :
    ∃ clock line, Event.line? ⟨l.clock.next, kind, l.sweepId, runId, fields⟩ = some line ∧
      l.log kind runId fields files =
        (files.append l.path line, { l with clock := clock, lines := line :: l.lines }) := by
  rw [Bool.and_eq_true] at h
  have hexchange : l.clock.next.exchange?.isSome := by rw [Instant.exchange?_eq htime]; rfl
  obtain ⟨line, hline⟩ := exists_line (e := ⟨l.clock.next, kind, l.sweepId, runId, fields⟩) hexchange h.2
  have htaken := (line?_of_isOpen h.1 kind runId fields).trans hline
  exact ⟨l.clock.read.2, line, hline, by rw [log_of_line? htaken, told_of_line? h.1 htaken]⟩

end EventLog

namespace Logbook

/-! ## Calls -/

/-- What is done with event logs. They are numbered in the order in which they were asked for. -/
inductive Call where
  | opening (directory level sweepId : Bytes)
  | telling (log : Nat) (time : Instant) (kind runId : Bytes) (fields : List (Bytes × Json))
  | closing (log : Nat)

/-- One call. An event is told at a moment, and its line is written before the next call. -/
def step (b : Logbook) : Call → Logbook
  | .opening directory level sweepId =>
    let (files, log) := EventLog.create b.files directory level sweepId ⟨.zero, 0⟩
    ⟨files, b.logs ++ [log]⟩
  | .telling n time kind runId fields =>
    match b.logs[n]? with
    | some (some log) =>
      let (files, log) := (log.stoppedAt time).log kind runId fields b.files
      ⟨files, b.logs.set n (some log)⟩
    | _ => b
  | .closing n =>
    match b.logs[n]? with
    | some (some log) => ⟨b.files, b.logs.set n (some log.close)⟩
    | _ => b

/-- The event that a call tells an open log, with the path of the log. Fields that cannot be written make none. -/
def noted (b : Logbook) : Call → List (Bytes × Event)
  | .telling n time kind runId fields =>
    match b.logs[n]? with
    | some (some log) =>
      if log.isOpen && Json.haveEncodable fields then [(log.path, ⟨time, kind, log.sweepId, runId, fields⟩)] else []
    | _ => []
  | _ => []

/-- A sequence of calls. -/
def run (b : Logbook) (calls : List Call) : Logbook := calls.foldl step b

/-- The events that open logs are told in a sequence of calls. -/
def history : Logbook → List Call → List (Bytes × Event)
  | _, [] => []
  | b, call :: rest => b.noted call ++ (b.step call).history rest

/-- A call whose texts are well formed, at a moment that can be written down. -/
def Call.IsLegible : Call → Prop
  | .opening _ _ sweepId => Utf8.isValid sweepId = true
  | .telling _ time kind runId fields =>
    time.IsStorable ∧ Utf8.isValid kind = true ∧ Utf8.isValid runId = true ∧ Json.haveLegible fields = true
  | .closing _ => True

variable {b c d : Logbook} {entries more : List (Bytes × Event)}

/-! ## What is written -/

/-- A log of a logbook: its path leads to a file. -/
structure Settled (files : Files) (log : EventLog) : Prop where
  legible : Utf8.isValid log.sweepId = true
  reaches : ∃ place, files.Reaches log.path place

/-- A logbook between calls. -/
structure Sound (b : Logbook) : Prop where
  files : b.files.WellFormed
  logs : ∀ log, some log ∈ b.logs → Settled b.files log

/-- Events written: each in the file that its path leads to, behind the text before, one line each and in order. No
path leads elsewhere than before, and the names of files are what they were. -/
structure Writes (b c : Logbook) (entries : List (Bytes × Event)) : Prop where
  sound : c.Sound
  shares : c.files.shares = b.files.shares
  kept : ∀ path place, b.files.Reaches path place → c.files.Reaches path place
  reaches : ∀ entry ∈ entries, ∃ place, c.files.Reaches entry.1 place
  texts : ∀ place, ∃ lines, c.files.bytesAt place = b.files.bytesAt place ++ lines.flatten ∧
    List.Forall₂ (fun entry line => entry.2.Says line)
      (entries.filter fun entry => c.files.leadsTo entry.1 place) lines

theorem Writes.refl (h : b.Sound) : Writes b b [] :=
  ⟨h, rfl, fun _ _ => id, by simp, fun _ => ⟨[], by simp, .nil⟩⟩

theorem Writes.trans (h : Writes b c entries) (h' : Writes c d more) : Writes b d (entries ++ more) := by
  refine ⟨h'.sound, h'.shares.trans h.shares, fun path place hplace => h'.kept path place (h.kept path place hplace),
    fun entry hentry => ?_, fun place => ?_⟩
  · rcases List.mem_append.mp hentry with hentry | hentry
    · obtain ⟨place, hplace⟩ := h.reaches entry hentry
      exact ⟨place, h'.kept _ _ hplace⟩
    · exact h'.reaches entry hentry
  · obtain ⟨lines, htext, hlines⟩ := h.texts place
    obtain ⟨lines', htext', hlines'⟩ := h'.texts place
    refine ⟨lines ++ lines', by rw [htext', htext, List.flatten_append, List.append_assoc], ?_⟩
    -- The earlier events are in the files that they were put into.
    have hsame : entries.filter (fun entry => d.files.leadsTo entry.1 place) =
        entries.filter fun entry => c.files.leadsTo entry.1 place := by
      refine List.filter_congr fun entry hentry => ?_
      obtain ⟨there, hthere⟩ := h.reaches entry hentry
      rw [hthere.leadsTo_eq, (h'.kept _ _ hthere).leadsTo_eq, Files.isOneFile_congr h'.shares]
    rw [List.filter_append, hsame]
    exact List.rel_append hlines hlines'

/-- A change of the files that writes nothing leaves a logbook sound. -/
theorem Writes.of_silent {files : Files} {logs : List (Option EventLog)} (hfiles : files.WellFormed)
    (hshares : files.shares = b.files.shares) (hkept : ∀ path place, b.files.Reaches path place → files.Reaches path place)
    (hlogs : ∀ log, some log ∈ logs → Settled files log) (htexts : ∀ place, files.bytesAt place = b.files.bytesAt place) :
    Writes b ⟨files, logs⟩ [] :=
  ⟨⟨hfiles, hlogs⟩, hshares, hkept, by simp, fun place => ⟨[], by simp [htexts place], .nil⟩⟩

/-- A line that says what an event was, appended to the file that a path leads to. -/
theorem Writes.of_line {path line : Bytes} {place : Place} {e : Event} {logs : List (Option EventLog)}
    (hfiles : b.files.WellFormed) (hplace : b.files.Reaches path place) (htells : e.Says line)
    (hlogs : ∀ log, some log ∈ logs → Settled (b.files.append path line) log) :
    Writes b ⟨b.files.append path line, logs⟩ [(path, e)] := by
  obtain ⟨hwell, hshares, hkept, htext⟩ := hplace.append hfiles line
  refine ⟨⟨hwell, hlogs⟩, hshares, hkept, fun entry hentry => ?_, fun there => ?_⟩
  · obtain rfl := List.mem_singleton.mp hentry
    exact ⟨place, hkept _ _ hplace⟩
  · have hthere : (b.files.append path line).leadsTo path there = b.files.isOneFile place there := by
      rw [(hkept _ _ hplace).leadsTo_eq, Files.isOneFile_congr hshares]
    rw [htext]
    by_cases hsame : b.files.isOneFile place there = true
    · refine ⟨[line], by rw [if_pos hsame, List.flatten_singleton], ?_⟩
      rw [List.filter_cons_of_pos (by rw [hthere, hsame])]
      exact .cons htells .nil
    · refine ⟨[], by rw [if_neg hsame, List.flatten_nil], ?_⟩
      rw [List.filter_cons_of_neg (by rwa [hthere])]
      exact .nil

theorem Settled.kept {files other : Files} {log : EventLog} (h : Settled files log)
    (hkept : ∀ path place, files.Reaches path place → other.Reaches path place) : Settled other log :=
  ⟨h.legible, h.reaches.imp fun place => hkept log.path place⟩

/-- Opening a log adds to the files, and writes nothing. -/
theorem create_writes (h : b.Sound) (directory level : Bytes) {sweepId : Bytes} (hlegible : Utf8.isValid sweepId = true)
    (clock : Clock) : Writes b ⟨(EventLog.create b.files directory level sweepId clock).1,
      b.logs ++ [(EventLog.create b.files directory level sweepId clock).2]⟩ [] := by
  have hnone {files : Files} (hkept : ∀ path place, b.files.Reaches path place → files.Reaches path place) :
      ∀ log, some log ∈ b.logs ++ [none] → Settled files log := by
    intro log hlog
    exact (h.logs log (by simpa using hlog)).kept hkept
  -- Every stage keeps what is in the files that are there; only the last one adds a log to the desk.
  unfold EventLog.create
  split
  next => exact .of_silent h.files rfl (fun _ _ => id) (hnone fun _ _ => id) fun _ => rfl
  next =>
    have hmade : (b.files.mkdirAll directory).1.WellFormed ∧ Files.Extends b.files (b.files.mkdirAll directory).1 ∧
        ∀ place, (b.files.mkdirAll directory).1.bytesAt place = b.files.bytesAt place := by
      unfold Files.mkdirAll
      split
      next => exact ⟨h.files, Files.Extends.refl _, fun _ => rfl⟩
      next =>
        obtain ⟨hwell, hextends, -⟩ :=
          Files.mkdirChain_extends h.files (Files.parentTexts (directory.length + 1) directory)
        exact ⟨hwell, hextends, Files.bytesAt_mkdirChain h.files _⟩
    generalize b.files.mkdirAll directory = made at hmade
    obtain ⟨made, fault⟩ := made
    obtain ⟨hwell, hextends, htexts⟩ := hmade
    have hkept : ∀ path place, b.files.Reaches path place → made.Reaches path place :=
      fun path place hplace => hplace.extends hextends
    cases fault with
    | some fault => exact .of_silent hwell hextends.shares hkept (hnone hkept) htexts
    | none =>
        dsimp only
        split
        next opened fault hopened =>
          have hsame : opened = made := by
            unfold Files.openAppend at hopened
            split at hopened
            next => split at hopened <;> cases hopened
            next => exact (Prod.mk.inj hopened).1.symm
          rw [hsame]
          exact .of_silent hwell hextends.shares hkept (hnone hkept) htexts
        next opened hopened =>
          obtain ⟨hwell', hextends', hreaches, htexts'⟩ := Files.openAppend_eq_none hwell hopened
          have hkept' : ∀ path place, b.files.Reaches path place → opened.Reaches path place :=
            fun path place hplace => (hkept path place hplace).extends hextends'
          refine .of_silent hwell' (hextends.trans hextends').shares hkept' (fun log hlog => ?_)
            fun place => (htexts' place).trans (htexts place)
          rcases List.mem_append.mp hlog with hlog | hlog
          · exact (h.logs log hlog).kept hkept'
          · obtain rfl := Option.some.inj (List.mem_singleton.mp hlog)
            exact ⟨hlegible, hreaches⟩

/-- One of the logs put back after a call. -/
theorem Sound.settled_set (h : b.Sound) {files : Files} {n : Nat} {log : EventLog}
    (hkept : ∀ path place, b.files.Reaches path place → files.Reaches path place) (hlog : Settled b.files log) :
    ∀ other, some other ∈ b.logs.set n (some log) → Settled files other := by
  intro other hother
  rcases List.mem_or_eq_of_mem_set hother with hother | hother
  · exact (h.logs other hother).kept hkept
  · obtain rfl := Option.some.inj hother
    exact hlog.kept hkept

/-- Every call writes the events that it tells open logs. -/
theorem step_writes (h : b.Sound) {call : Call} (hlegible : call.IsLegible) : Writes b (b.step call) (b.noted call) := by
  cases call with
  | opening directory level sweepId => exact create_writes h directory level hlegible ⟨.zero, 0⟩
  | closing n =>
      unfold step
      dsimp only
      split
      next log hlog =>
        obtain ⟨hsweep, hreaches⟩ := h.logs log (List.mem_of_getElem? hlog)
        have hclosed : Settled b.files log.close := ⟨hsweep, hreaches⟩
        exact .of_silent h.files rfl (fun _ _ => id) (h.settled_set (fun _ _ => id) hclosed) fun _ => rfl
      next => exact Writes.refl h
  | telling n time kind runId fields =>
      obtain ⟨htime, hkind, hrun, hfields⟩ := hlegible
      unfold step noted
      dsimp only
      split
      next log hlog =>
        obtain ⟨hsweep, place, hplace⟩ := h.logs log (List.mem_of_getElem? hlog)
        split
        next htaken =>
          obtain ⟨clock, line, hline, hlogged⟩ :=
            EventLog.log_taken (l := log.stoppedAt time) htaken htime kind runId b.files
          have htells : Event.Says ⟨time, kind, log.sweepId, runId, fields⟩ line :=
            Event.says_of_line? htime ⟨hkind, hsweep, hrun, hfields⟩ hline
          have hkept := (hplace.append h.files line).2.2.1
          rw [hlogged]
          exact .of_line h.files hplace htells (h.settled_set hkept ⟨hsweep, place, hplace⟩)
        next hrefused =>
          obtain ⟨clock, hlogged⟩ := EventLog.log_refused (l := log.stoppedAt time)
            (Bool.eq_false_iff.mpr hrefused) kind runId b.files
          rw [hlogged]
          exact .of_silent h.files rfl (fun _ _ => id) (h.settled_set (fun _ _ => id) ⟨hsweep, place, hplace⟩)
            fun _ => rfl
      next => exact Writes.refl h

theorem run_writes (h : b.Sound) {calls : List Call} (hlegible : ∀ call ∈ calls, call.IsLegible) :
    Writes b (b.run calls) (b.history calls) := by
  induction calls generalizing b with
  | nil => exact Writes.refl h
  | cons call rest ih =>
      obtain ⟨hcall, hrest⟩ := List.forall_mem_cons.mp hlegible
      have hstep := step_writes h hcall
      exact hstep.trans (ih hstep.sound hrest)

theorem sound_of_wellFormed {files : Files} (h : files.WellFormed) : Sound ⟨files, []⟩ := ⟨h, by simp⟩

/-- A log that is closed, or that could not be opened, writes nothing. -/
theorem step_of_closed {n : Nat} (hclosed : ∀ log, b.logs[n]? = some (some log) → log.isOpen = false)
    (time : Instant) (kind runId : Bytes) (fields : List (Bytes × Json)) :
    (b.step (.telling n time kind runId fields)).files = b.files := by
  unfold step
  dsimp only
  split
  next log hlog =>
    have hrefused : (log.isOpen && Json.haveEncodable fields) = false := by rw [hclosed log hlog, Bool.false_and]
    obtain ⟨clock, hlogged⟩ := EventLog.log_refused (l := log.stoppedAt time) hrefused kind runId b.files
    rw [hlogged]
  next => rfl

/-- Whatever is done with event logs, every event that an open log was told is in one file, and a file goes on behind
its text before with one line for each of its events, in the order of telling: the line ends with its only line break
and is read as the event. Where a log is closed, or could not be opened, telling it an event changes no file. -/
theorem run_appends_lines {files : Files} (hfiles : files.WellFormed) {calls : List Call}
    (hcalls : ∀ call ∈ calls, call.IsLegible) :
    let start : Logbook := ⟨files, []⟩
    let last := start.run calls
    (∀ entry ∈ start.history calls, ∃ place, last.files.filePlace? entry.1 = some place) ∧
    (∀ place, ∃ lines, last.files.bytesAt place = files.bytesAt place ++ lines.flatten ∧
      List.Forall₂ (fun entry line => entry.2.Says line)
        ((start.history calls).filter fun entry => last.files.leadsTo entry.1 place) lines) ∧
    ∀ n, (∀ log, last.logs[n]? = some (some log) → log.isOpen = false) → ∀ time kind runId fields,
      (last.step (.telling n time kind runId fields)).files = last.files := by
  intro start last
  have hwrites := run_writes (sound_of_wellFormed hfiles) hcalls
  refine ⟨fun entry hentry => ?_, hwrites.texts, fun n hclosed => step_of_closed hclosed⟩
  obtain ⟨place, hplace⟩ := hwrites.reaches entry hentry
  exact ⟨place, hplace.filePlace?_eq⟩

/-- Two logs, one of them behind a link, write to one file that has a text already. One of them is closed and opened
again; what it is told in between, what a log is told that is not kept, and an infinity make no line. -/
theorem logs_share_a_file :
    let files : Files :=
      { entries := [(["work"], .directory), (["work", "results"], .directory),
          (["work", "results", "events.jsonl"], .file (.bytes "earlier\n")), (["work", "latest"], .link "results")]
        workingDirectory := ["work"] }
    let calls : List Call := [.opening "results" "debug" "sweep-1", .opening "latest" "trace" "",
      .opening "quiet" "info" "sweep-2",
      .telling 0 (Instant.ofCivil ⟨2024, 2, 29, 23, 59, 59, 250000000⟩) "run_failed" "run \"1\""
        [("error", .text "no é\n<\u2028> & \x01\\"), ("counts", .list [.ofInt (-3), .number "2.5e-7"]),
          ("nested", .object [("z", .null), ("a", .bool true)])],
      .telling 1 (Instant.ofCivil ⟨0, 1, 1, 0, 0, 0, 0⟩) "start" "" [],
      .telling 2 (Instant.ofCivil ⟨2024, 3, 1, 0, 0, 0, 0⟩) "start" "run 2" [],
      .telling 0 (Instant.ofCivil ⟨2024, 3, 1, 0, 0, 0, 0⟩) "mean" "" [("value", .number "+Inf")], .closing 0,
      .telling 0 (Instant.ofCivil ⟨2024, 3, 1, 0, 0, 0, 0⟩) "late" "" [], .opening "results" "debug" "sweep-3",
      .telling 3 (Instant.ofCivil ⟨9999, 12, 31, 23, 59, 59, 999999999⟩) "end" "" []]
    let place : Place := ["work", "results", "events.jsonl"]
    let start : Logbook := ⟨files, []⟩
    let last := start.run calls
    files.WellFormed ∧ (∀ call ∈ calls, call.IsLegible) ∧ (start.history calls).length = 3 ∧
    ∃ lines, last.files.bytesAt place = "earlier\n" ++ lines.flatten ∧ lines.length = 3 ∧
      List.Forall₂ (fun entry line => entry.2.Says line)
        ((start.history calls).filter fun entry => last.files.leadsTo entry.1 place) lines := by
  intro files calls place start last
  have hfiles : files.WellFormed := by decide +kernel
  have hcalls : ∀ call ∈ calls, call.IsLegible := by
    intro call hcall
    simp only [calls, List.mem_cons, List.not_mem_nil, or_false] at hcall
    rcases hcall with rfl | rfl | rfl | rfl | rfl | rfl | rfl | rfl | rfl | rfl | rfl <;> trivial
  obtain ⟨-, htexts, -⟩ := run_appends_lines hfiles hcalls
  obtain ⟨lines, htext, hlines⟩ := htexts place
  have hold : files.bytesAt place = "earlier\n" := by decide +kernel
  have hcount : ((start.history calls).filter fun entry => last.files.leadsTo entry.1 place).length = 3 := by
    decide +kernel
  exact ⟨hfiles, hcalls, by decide +kernel, lines, hold ▸ htext, hlines.length_eq.symm.trans hcount, hlines⟩

end Logbook

end MobilitySweep
