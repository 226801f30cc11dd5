import MobilitySweep.Log.Event
import MobilitySweep.Proofs.Text.Readback
import MobilitySweep.Proofs.Time.Calendar

/-! # Events in an event log

The line of an event is read back as the event. An open event log holds a line for every event it was told, as long as
its clock shows moments that can be written down and so can the fields of the events.
-/

namespace MobilitySweep

namespace Clock

/-- A clock after some readings. -/
def after (c : Clock) : Nat → Clock
  | 0 => c
  | count + 1 => (c.after count).read.2

/-- Whether the first readings of a clock all have an exchange form. -/
def Legible (c : Clock) (count : Nat) : Prop := ∀ n < count, ((c.after n).next.exchange?).isSome

end Clock

namespace Event

/-! ## Events read back from their lines -/

/-- The text of a field, which is empty if there is no such field. -/
def textAt? (record : List (Bytes × Json)) (name : Bytes) : Option Bytes :=
  match record.lookup name with
  | none => some []
  | some (.text value) => some value
  | some _ => none

/-- The fields of the object at a field, none if there is no such field. -/
def fieldsAt? (record : List (Bytes × Json)) (name : Bytes) : Option (List (Bytes × Json)) :=
  match record.lookup name with
  | none => some []
  | some (.object fields) => some fields
  | some _ => none

/-- The event that a record is about. -/
def ofRecord? (record : List (Bytes × Json)) : Option Event := do
  let time ← Instant.ofExchange? (← textAt? record "time")
  let kind ← textAt? record "event"
  let sweepId ← textAt? record "sweep_id"
  let runId ← textAt? record "run_id"
  let fields ← fieldsAt? record "fields"
  some ⟨time, kind, sweepId, runId, fields⟩

/-- The names in the record of an event: nothing that is empty has one. -/
def names (e : Event) : List Bytes :=
  [("time" : Bytes), "event"] ++ (if e.sweepId = [] then [] else [("sweep_id" : Bytes)]) ++
    (if e.runId = [] then [] else [("run_id" : Bytes)]) ++ (if e.fields = [] then [] else [("fields" : Bytes)])

/-- What a line says of an event: up to the line break at its end, which is its only one, it is read as a record of the
event. Empty parts are left out of the record, and the time is given at UTC. The fields may stand in any order. -/
inductive Says (e : Event) : Bytes → Prop where
  | intro {body time : Bytes} {record fields : List (Bytes × Json)} (hbreak : (10 : UInt8) ∉ body)
      (hread : Json.read? body = some (.object record)) (hnames : record.map Prod.fst = e.names)
      (htime : textAt? record "time" = some time) (hzone : time.getLast? = some ('Z' : UInt8))
      (hevent : ofRecord? record = some { e with fields := fields })
      (hfields : Json.Same (.object e.fields) (.object fields)) : Says e (body ++ [10])

/-- An event whose texts are all well formed. -/
structure IsLegible (e : Event) : Prop where
  kind : Utf8.isValid e.kind = true
  sweepId : Utf8.isValid e.sweepId = true
  runId : Utf8.isValid e.runId = true
  fields : Json.haveLegible e.fields = true

/-- The record of an event ends with its fields in order, unless it has none. -/
theorem exists_record_eq (e : Event) (time : Bytes) : ∃ fields, Json.Same (.object e.fields) (.object fields) ∧
    (fields = [] ↔ e.fields = []) ∧ e.record time = [(("time" : Bytes), Json.text time), ("event", .text e.kind)] ++
      Json.optionalText "sweep_id" e.sweepId ++ Json.optionalText "run_id" e.runId ++
        (if e.fields = [] then [] else [(("fields" : Bytes), .object fields)]) := by
  have hsame := Json.same_ordered (.object e.fields)
  have hperm := List.mergeSort_perm (Json.orderedFields e.fields) fun a b => !Bytes.less b.1 a.1
  have hlength : (Json.orderedFields e.fields).length = e.fields.length := by
    generalize e.fields = fields
    induction fields with
    | nil => rfl
    | cons field fields ih => exact congrArg (· + 1) ih
  rw [← hperm.length_eq] at hlength
  have hordered : Json.ordered (.object e.fields) = .object _ := rfl
  unfold record
  rw [hordered] at hsame ⊢
  generalize (Json.orderedFields e.fields).mergeSort (fun a b => !Bytes.less b.1 a.1) = fields at hsame hlength ⊢
  have hempty : fields = [] ↔ e.fields = [] := by rw [← List.length_eq_zero_iff, hlength, List.length_eq_zero_iff]
  refine ⟨fields, hsame, hempty, ?_⟩
  cases fields with
  | nil => rw [if_pos (hempty.mp rfl)]
  | cons field fields => rw [if_neg (mt hempty.mpr (List.cons_ne_nil _ _))]

theorem lookup_cons_of_ne {α : Type} {name other : Bytes} (h : name ≠ other) (value : α) (rest : List (Bytes × α)) :
    ((other, value) :: rest).lookup name = rest.lookup name := by
  rw [List.lookup_cons, beq_eq_false_iff_ne.mpr h]

theorem lookup_optionalText_of_ne {name other : Bytes} (h : name ≠ other) (value : Bytes) :
    (Json.optionalText other value).lookup name = none := by
  rw [Json.optionalText]
  split
  next => rfl
  next => exact lookup_cons_of_ne h _ []

/-- A field that is left out because its text is empty reads as the empty text. -/
theorem textAt?_optionalText {front back : List (Bytes × Json)} {name : Bytes} (value : Bytes)
    (hfront : front.lookup name = none) (hback : back.lookup name = none) :
    textAt? (front ++ Json.optionalText name value ++ back) name = some value := by
  rw [textAt?, List.lookup_append, List.lookup_append, hfront, hback, Json.optionalText]
  cases value with
  | nil => rfl
  | cons b value => simp

/-- An event is read back from its record, up to the order of its fields. -/
theorem ofRecord?_record {e : Event} {time : Bytes} (htime : Instant.ofExchange? time = some e.time) :
    ∃ fields, Json.Same (.object e.fields) (.object fields) ∧
      ofRecord? (e.record time) = some { e with fields := fields } ∧ textAt? (e.record time) "time" = some time ∧
        (e.record time).map Prod.fst = e.names := by
  obtain ⟨fields, hsame, hempty, hrecord⟩ := e.exists_record_eq time
  have hdistinct : [("time" : Bytes), "event", "sweep_id", "run_id", "fields"].Nodup := by decide +kernel
  simp only [List.nodup_cons, List.mem_cons, List.not_mem_nil, or_false, not_or, ← ne_eq] at hdistinct
  obtain ⟨⟨htk, hts, htr, htf⟩, ⟨hks, hkr, hkf⟩, ⟨hsr, hsf⟩, hrf, -⟩ := hdistinct
  -- What the first two fields and the last one hold at names that are not theirs.
  have hfirst {name : Bytes} (ht : ("time" : Bytes) ≠ name) (hk : ("event" : Bytes) ≠ name) :
      [(("time" : Bytes), Json.text time), ("event", .text e.kind)].lookup name = none := by
    rw [lookup_cons_of_ne ht.symm, lookup_cons_of_ne hk.symm, List.lookup_nil]
  have hlast {name : Bytes} (hf : name ≠ "fields") :
      (if e.fields = [] then [] else [(("fields" : Bytes), Json.object fields)]).lookup name = none := by
    split
    next => rfl
    next => exact lookup_cons_of_ne hf _ []
  have htimeAt : textAt? (e.record time) "time" = some time := by
    rw [hrecord]
    simp [textAt?]
  have hkindAt : textAt? (e.record time) "event" = some e.kind := by
    rw [hrecord]
    simp [textAt?, lookup_cons_of_ne htk.symm]
  have hsweepAt : textAt? (e.record time) "sweep_id" = some e.sweepId := by
    rw [hrecord, List.append_assoc]
    refine textAt?_optionalText e.sweepId (hfirst hts hks) ?_
    rw [List.lookup_append, lookup_optionalText_of_ne hsr, hlast hsf, Option.or_none]
  have hrunAt : textAt? (e.record time) "run_id" = some e.runId := by
    rw [hrecord]
    refine textAt?_optionalText e.runId ?_ (hlast hrf)
    rw [List.lookup_append, hfirst htr hkr, lookup_optionalText_of_ne hsr.symm, Option.or_none]
  have hfieldsAt : fieldsAt? (e.record time) "fields" = some fields := by
    rw [hrecord, fieldsAt?, List.lookup_append, List.lookup_append, List.lookup_append, hfirst htf hkf,
      lookup_optionalText_of_ne hsf.symm, lookup_optionalText_of_ne hrf.symm, Option.or_none, Option.none_or]
    by_cases hnil : e.fields = []
    · rw [if_pos hnil, hempty.mpr hnil]
      rfl
    · rw [if_neg hnil]
      simp
  refine ⟨fields, hsame, ?_, htimeAt, ?_⟩
  · simp only [ofRecord?, htimeAt, hkindAt, hsweepAt, hrunAt, hfieldsAt, htime, Option.bind_eq_bind, Option.bind_some]
  · simp only [hrecord, names, Json.optionalText, List.isEmpty_iff, List.map_append, apply_ite (List.map Prod.fst),
      List.map_cons, List.map_nil]

/-- An event has a line exactly if its time has an exchange form and its fields can be written. -/
theorem line?_eq_some_iff {e : Event} {line : Bytes} : e.line? = some line ↔ Json.haveEncodable e.fields = true ∧
    ∃ time, e.time.exchange? = some time ∧ (Json.object (e.record time)).render ++ [10] = line := by
  have hbreak : (("\n" : String) : Bytes) = [10] := by decide +kernel
  simp only [line?, hbreak, Option.ite_none_right_eq_some, Option.map_eq_some_iff]

theorem haveEncodable_optionalText (name value : Bytes) : Json.haveEncodable (Json.optionalText name value) = true := by
  rw [Json.optionalText]
  split <;> rfl

theorem haveLegible_optionalText {name value : Bytes} (hname : Utf8.isValid name = true)
    (hvalue : Utf8.isValid value = true) : Json.haveLegible (Json.optionalText name value) = true := by
  rw [Json.optionalText]
  split
  next => rfl
  next => simp [Json.haveLegible, Json.isLegible, hname, hvalue]

theorem haveEncodable_record {e : Event} (h : Json.haveEncodable e.fields = true) (time : Bytes) :
    Json.haveEncodable (e.record time) = true := by
  obtain ⟨fields, hsame, -, hrecord⟩ := e.exists_record_eq time
  have hfields : Json.haveEncodable fields = true := hsame.isEncodable_eq.symm.trans h
  rw [hrecord, Json.haveEncodable_append, Json.haveEncodable_append, Json.haveEncodable_append,
    haveEncodable_optionalText, haveEncodable_optionalText]
  split
  next => rfl
  next => simp [Json.haveEncodable, Json.isEncodable, hfields]

theorem haveLegible_record {e : Event} (h : e.IsLegible) {time : Bytes} (htime : Utf8.isValid time = true) :
    Json.haveLegible (e.record time) = true := by
  obtain ⟨fields, hsame, -, hrecord⟩ := e.exists_record_eq time
  have hfields : Json.haveLegible fields = true := hsame.isLegible_eq.symm.trans h.fields
  have hnames : Utf8.isValid "time" = true ∧ Utf8.isValid "event" = true ∧ Utf8.isValid "sweep_id" = true ∧
      Utf8.isValid "run_id" = true ∧ Utf8.isValid "fields" = true := by decide +kernel
  obtain ⟨htimeName, hkindName, hsweepName, hrunName, hfieldsName⟩ := hnames
  rw [hrecord, Json.haveLegible_append, Json.haveLegible_append, Json.haveLegible_append,
    haveLegible_optionalText hsweepName h.sweepId, haveLegible_optionalText hrunName h.runId]
  split
  next => simp [Json.haveLegible, Json.isLegible, htimeName, hkindName, htime, h.kind]
  next => simp [Json.haveLegible, Json.isLegible, htimeName, hkindName, hfieldsName, htime, h.kind, hfields]

/-- The line of an event says what the event was, its texts being well formed. -/
theorem says_of_line? {e : Event} {line : Bytes} (hstorable : e.time.IsStorable) (h : e.IsLegible)
    (hline : e.line? = some line) : e.Says line := by
  obtain ⟨hencodable, time, htime, rfl⟩ := line?_eq_some_iff.mp hline
  obtain ⟨hascii, hzone⟩ := Instant.exchange?_plain hstorable htime
  have hback := Instant.ofExchange?_exchange? hstorable
  rw [htime, Option.bind_some] at hback
  obtain ⟨fields, hsame, hevent, htimeAt, hnames⟩ := ofRecord?_record hback
  have hrecord : Json.isEncodable (.object (e.record time)) = true := haveEncodable_record hencodable time
  have hlegible : Json.isLegible (.object (e.record time)) = true :=
    haveLegible_record h (Utf8.isValid_ascii hascii)
  refine .intro (fun hmem => ?_) (Json.read?_render hrecord hlegible) hnames htimeAt hzone hevent hsame
  exact absurd (Json.printable_render _ hrecord 10 hmem) (by decide)

end Event

namespace EventLog

/-- An event log that was told some events since an earlier state of it, and nothing else. -/
structure Told (before after : EventLog) (events : List Event) : Prop where
  isOpen : after.isOpen = true
  sweepId : after.sweepId = before.sweepId
  clock : after.clock = before.clock.after events.length
  about : ∀ e ∈ events, e.sweepId = before.sweepId
  lines : ∃ lines, events.map Event.line? = lines.map some ∧
    after.lines.reverse = before.lines.reverse ++ lines

theorem told_nil {l : EventLog} (h : l.isOpen = true) : Told l l [] :=
  ⟨h, rfl, rfl, by simp, [], rfl, (List.append_nil _).symm⟩

/-- An event whose time has an exchange form has a line, if its fields can be written. -/
theorem exists_line {e : Event} (h : e.time.exchange?.isSome) (hfields : Json.haveEncodable e.fields = true) :
    ∃ line, e.line? = some line := by
  obtain ⟨time, htime⟩ := Option.isSome_iff_exists.mp h
  unfold Event.line?
  rw [if_pos hfields, htime]
  exact ⟨_, rfl⟩

theorem line?_of_isOpen {l : EventLog} (hopen : l.isOpen = true) (kind runId : Bytes) (fields : List (Bytes × Json)) :
    l.line? kind runId fields = Event.line? ⟨l.clock.next, kind, l.sweepId, runId, fields⟩ := if_pos hopen

/-- An open event log that was told an event has its line, and its clock has moved on. -/
theorem told_of_line? {l : EventLog} (hopen : l.isOpen = true) {kind runId line : Bytes} {fields : List (Bytes × Json)}
    (hline : l.line? kind runId fields = some line) :
    l.told kind runId fields = { l with clock := l.clock.read.2, lines := line :: l.lines } := by
  rw [told, if_pos hopen, hline]
  rfl

/-- Fields that cannot be written make no line, and nothing makes one in a closed log. -/
theorem line?_refused {l : EventLog} {fields : List (Bytes × Json)}
    (h : (l.isOpen && Json.haveEncodable fields) = false) (kind runId : Bytes) : l.line? kind runId fields = none := by
  by_cases hopen : l.isOpen = true
  · rw [hopen, Bool.true_and] at h
    rw [line?_of_isOpen hopen, Event.line?, if_neg (by simp [h])]
  · exact if_neg hopen

/-- An event without a line leaves a log as it is, its clock apart. -/
theorem told_of_line?_eq_none {l : EventLog} {kind runId : Bytes} {fields : List (Bytes × Json)}
    (h : l.line? kind runId fields = none) : ∃ clock, l.told kind runId fields = { l with clock := clock } := by
  unfold told
  split
  next => exact ⟨_, by rw [h]; rfl⟩
  next => exact ⟨l.clock, rfl⟩

/-- Where a log is told an event, its line is appended to the file. -/
theorem log_of_line? {l : EventLog} {kind runId line : Bytes} {fields : List (Bytes × Json)}
    (h : l.line? kind runId fields = some line) (files : Files) :
    l.log kind runId fields files = (files.append l.path line, l.told kind runId fields) := by
  rw [log, h]

theorem log_of_line?_eq_none {l : EventLog} {kind runId : Bytes} {fields : List (Bytes × Json)}
    (h : l.line? kind runId fields = none) (files : Files) :
    l.log kind runId fields files = (files, l.told kind runId fields) := by
  rw [log, h]

/-- What becomes of a log does not depend on the files. -/
theorem log_snd (l : EventLog) (kind runId : Bytes) (fields : List (Bytes × Json)) (files : Files) :
    (l.log kind runId fields files).2 = l.told kind runId fields := by
  unfold log
  split <;> rfl

/-- An event does not change where the lines of a log go. -/
theorem told_keeps (l : EventLog) (kind runId : Bytes) (fields : List (Bytes × Json)) :
    (l.told kind runId fields).path = l.path ∧ (l.told kind runId fields).isOpen = l.isOpen := by
  unfold told
  split <;> exact ⟨rfl, rfl⟩

/-- One more event is one more line. -/
theorem Told.log {before after : EventLog} {events : List Event} (h : Told before after events) {count : Nat}
    (hclock : before.clock.Legible count) (hcount : events.length < count)
    (kind runId : Bytes) {fields : List (Bytes × Json)} (hfields : Json.haveEncodable fields = true) :
    ∃ time, Told before (after.told kind runId fields)
      (events ++ [⟨time, kind, before.sweepId, runId, fields⟩]) := by
  refine ⟨after.clock.next, ?_⟩
  have htime : after.clock.next.exchange?.isSome := h.clock ▸ hclock events.length hcount
  obtain ⟨line, hline⟩ := exists_line (e := ⟨after.clock.next, kind, before.sweepId, runId, fields⟩) htime hfields
  obtain ⟨lines, hlines, hwritten⟩ := h.lines
  rw [told_of_line? h.isOpen ((line?_of_isOpen h.isOpen _ _ _).trans (h.sweepId ▸ hline))]
  refine ⟨h.isOpen, h.sweepId, ?_, ?_, lines ++ [line], ?_, ?_⟩
  · simp only [List.length_append, List.length_singleton, Clock.after, ← h.clock]
  · intro e he
    rcases List.mem_append.mp he with he | he
    · exact h.about e he
    · rw [List.mem_singleton.mp he]
  · simp [hlines, hline]
  · simp [hwritten]

end EventLog

end MobilitySweep
