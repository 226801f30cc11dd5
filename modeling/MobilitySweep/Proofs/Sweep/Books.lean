import MobilitySweep.Proofs.Log.Telling
import MobilitySweep.Proofs.Sweep.Accounts
import MobilitySweep.Proofs.Sweep.Naming

/-! # The books of a sweep

The records of a sweep under way agree with the accounts of its runs: the ledger has the rows, the event
log the events and the tally the counts that the accounts say, and a failure is noted as soon as one of
the noted runs does not let the sweep go on. Every move of a run keeps this.
-/

namespace MobilitySweep

namespace Sweep

open Ledger (posted)

/-! ## One run among others -/

section

variable {runs : List Run} {r : Run}

/-- A planned run and all the others. -/
theorem exists_others (hnodup : runs.Nodup) (hr : r ∈ runs) :
    ∃ rest, runs.Perm (r :: rest) ∧ ∀ x ∈ rest, x ≠ r := by
  refine ⟨runs.erase r, List.perm_cons_erase hr, fun x hx => ?_⟩
  rintro rfl
  exact hnodup.not_mem_erase hx

/-- The rows that go with statuses of runs. -/
def rowsOf (runs : List Run) (row : Run → Option Bytes) : List (Bytes × Bytes) :=
  runs.filterMap fun x => (row x).map fun status => (x.id, status)

theorem mem_rowsOf {row : Run → Option Bytes} {name status : Bytes} :
    (name, status) ∈ rowsOf runs row ↔ ∃ x ∈ runs, x.id = name ∧ row x = some status := by
  simp only [rowsOf, List.mem_filterMap, Option.map_eq_some_iff, Prod.mk.injEq]
  constructor
  · rintro ⟨x, hx, _, hrow, hname, rfl⟩
    exact ⟨x, hx, hname, hrow⟩
  · rintro ⟨x, hx, hname, hrow⟩
    exact ⟨x, hx, status, hrow, hname, rfl⟩

/-- A new status of a run is posted to its row. -/
theorem posted_perm (hnodup : runs.Nodup) (hr : r ∈ runs) {row : Run → Option Bytes} (status : Bytes)
    {rows : List (Bytes × Bytes)} (h : rows.Perm (rowsOf runs row)) :
    (posted r.id status rows).Perm (rowsOf runs (Function.update row r (some status))) := by
  have hmem : r.id ∈ rows.map Prod.fst ↔ (row r).isSome := by
    simp only [List.mem_map, Prod.exists, exists_and_right, exists_eq_right, h.mem_iff, mem_rowsOf,
      Option.isSome_iff_exists]
    constructor
    · rintro ⟨old, x, -, hid, hrow⟩
      exact ⟨old, Run.id_injective hid ▸ hrow⟩
    · rintro ⟨old, hrow⟩
      exact ⟨old, r, hr, rfl, hrow⟩
  cases hrow : row r with
  | some old =>
      -- The row is there: every row with the name of the run is rewritten on both sides.
      rw [posted, if_pos (hmem.mpr (by rw [hrow]; rfl))]
      refine (h.map _).trans (List.Perm.of_eq ?_)
      simp only [rowsOf, List.map_filterMap, Option.map_map]
      refine List.filterMap_congr fun x _ => ?_
      by_cases hx : x = r
      · subst hx
        simp [hrow]
      · have hid : x.id ≠ r.id := fun hid => hx (Run.id_injective hid)
        rw [Function.update_of_ne hx]
        cases row x <;> simp [hid]
  | none =>
      rw [posted, if_neg (fun hin => by simpa [hrow] using hmem.mp hin)]
      obtain ⟨rest, hperm, hrest⟩ := exists_others hnodup hr
      have hothers : rowsOf rest (Function.update row r (some status)) = rowsOf rest row := by
        refine List.filterMap_congr fun x hx => ?_
        rw [Function.update_of_ne (hrest x hx)]
      have hbefore : (rowsOf runs row).Perm (rowsOf rest row) := by
        simpa [rowsOf, hrow] using hperm.filterMap fun x => (row x).map fun status => (x.id, status)
      have hafter : (rowsOf runs (Function.update row r (some status))).Perm
          ((r.id, status) :: rowsOf rest row) := by
        rw [← hothers]
        simpa [rowsOf] using hperm.filterMap fun x =>
          (Function.update row r (some status) x).map fun status => (x.id, status)
      exact (List.perm_append_singleton _ _).trans (((h.trans hbefore).cons _).trans hafter.symm)

/-- How many runs have an outcome when one of them has a new one. -/
theorem countP_update (hnodup : runs.Nodup) (hr : r ∈ runs) {counted : Run → Outcome}
    (huntouched : counted r = .untouched) (outcome other : Outcome) (hother : other ≠ .untouched) :
    runs.countP (fun x => Function.update counted r outcome x = other) =
      runs.countP (fun x => counted x = other) + if outcome = other then 1 else 0 := by
  obtain ⟨rest, hperm, hrest⟩ := exists_others hnodup hr
  have hothers : rest.countP (fun x => Function.update counted r outcome x = other) =
      rest.countP (fun x => counted x = other) := by
    refine List.countP_congr fun x hx => ?_
    rw [Function.update_of_ne (hrest x hx)]
  rw [hperm.countP_eq, hperm.countP_eq, List.countP_cons, List.countP_cons, hothers]
  simp [huntouched, hother.symm]

/-- The sum over runs when one of them contributes one more. -/
theorem sum_map_update (hnodup : runs.Nodup) (hr : r ∈ runs) {size : Run → Nat} :
    (runs.map (Function.update size r (size r + 1))).sum = (runs.map size).sum + 1 := by
  obtain ⟨rest, hperm, hrest⟩ := exists_others hnodup hr
  have hothers : rest.map (Function.update size r (size r + 1)) = rest.map size :=
    List.map_congr_left fun x hx => Function.update_of_ne (hrest x hx) _ _
  rw [(hperm.map _).sum_eq, (hperm.map size).sum_eq]
  simp only [List.map_cons, List.sum_cons, hothers, Function.update_self]
  omega

end

/-! ## Books -/

/-- How many runs have each outcome. -/
def tallyOf (runs : List Run) (counted : Run → Outcome) : Tally :=
  let count := fun outcome => Int64.ofNat (runs.countP (counted · = outcome))
  ⟨count .succeeded, count .skipped, count .failed⟩

/-- What the event log tells of every run. -/
structure Tells (runs : List Run) (told : Run → List Bytes) (events : List Event) : Prop where
  about : ∀ e ∈ events, ∃ r ∈ runs, e.runId = r.id
  kinds : ∀ r ∈ runs, (events.filter (·.runId = r.id)).map (·.kind) = told r
  length : events.length = (runs.map fun r => (told r).length).sum
  brief : ∀ r ∈ runs, (told r).length ≤ 2

/-- The records of a sweep. If its event log is followed from some state on, it was told one event before those of the
runs. -/
structure Books (s : Setup) (heard : Option (EventLog × Event)) (accounts : Run → Account) (w : World Ledger) :
    Prop where
  accepts : w.keeper.Accepts s.sweepId
  rows : (w.keeper.tables.statuses s.sweepId).Perm (rowsOf s.runs fun r => (accounts r).row)
  events : ∀ log first, heard = some (log, first) → ∃ log' events, w.events = some log' ∧
    EventLog.Told log log' (first :: events) ∧ Tells s.runs (fun r => (accounts r).told) events
  tally : w.tally = tallyOf s.runs fun r => (accounts r).counted
  failure : w.bench.failure = none ↔ s.runs.all fun r => (accounts r).isClean

/-- Events of runs are no more than two for each. -/
theorem Tells.length_le {runs : List Run} {told : Run → List Bytes} {events : List Event}
    (h : Tells runs told events) : events.length ≤ 2 * runs.length := by
  rw [h.length]
  calc (runs.map fun r => (told r).length).sum
      ≤ (runs.map fun _ => 2).sum := List.sum_le_sum h.brief
    _ = 2 * runs.length := by simp [Nat.mul_comm]

/-- One more event of a run. -/
theorem Tells.tell {runs : List Run} {told : Run → List Bytes} {events : List Event} (h : Tells runs told events)
    (hnodup : runs.Nodup) {r : Run} (hr : r ∈ runs) (hbrief : (told r).length < 2) (e : Event)
    (he : e.runId = r.id) : Tells runs (Function.update told r (told r ++ [e.kind])) (events ++ [e]) := by
  refine ⟨fun e' he' => ?_, fun x hx => ?_, ?_, fun x hx => ?_⟩
  · rcases List.mem_append.mp he' with he' | he'
    · exact h.about e' he'
    · exact ⟨r, hr, List.mem_singleton.mp he' ▸ he⟩
  · rw [List.filter_append, List.map_append, h.kinds x hx]
    by_cases hxr : x = r
    · subst hxr
      simp [he]
    · have hid : e.runId ≠ x.id := fun hid => hxr (Run.id_injective (he ▸ hid.symm))
      rw [Function.update_of_ne hxr]
      simp [hid]
  · have hsize : (fun x => (Function.update told r (told r ++ [e.kind]) x).length) =
        Function.update (fun x => (told x).length) r ((told r).length + 1) := by
      funext x
      rw [Function.apply_update (fun _ => List.length)]
      simp
    rw [hsize, sum_map_update hnodup hr, ← h.length]
    simp
  · by_cases hxr : x = r
    · subst hxr
      simpa using hbrief
    · rw [Function.update_of_ne hxr]
      exact h.brief x hx

section

variable {s : Setup} {heard : Option (EventLog × Event)} {accounts : Run → Account} {w w' : World Ledger} {r : Run}

/-- The clock of an event log that is followed gives times that can be written down for so many events. -/
def HeardIn (heard : Option (EventLog × Event)) (count : Nat) : Prop :=
  ∀ log first, heard = some (log, first) → log.clock.Legible count

/-- The books only depend on the records. -/
theorem Books.congr (h : Books s heard accounts w) (hrecords : records w' = records w) :
    Books s heard accounts w' := by
  simp only [records, Prod.mk.injEq] at hrecords
  obtain ⟨hkeeper, hevents, htally, hfailure⟩ := hrecords
  exact ⟨hkeeper ▸ h.accepts, hkeeper ▸ h.rows, hevents ▸ h.events, htally ▸ h.tally, hfailure ▸ h.failure⟩

theorem id_ne_nil (r : Run) : r.id ≠ [] := by
  have hseparator : (("_" : String) : Bytes) = [95] := by decide +kernel
  simp [Run.id, hseparator]

theorem tallyOf_update {runs : List Run} (hnodup : runs.Nodup) (hr : r ∈ runs) {counted : Run → Outcome}
    (huntouched : counted r = .untouched) (outcome : Outcome) :
    tallyOf runs (Function.update counted r outcome) = outcome.addTo (tallyOf runs counted) := by
  simp only [tallyOf]
  rw [countP_update hnodup hr huntouched outcome .succeeded (by decide),
    countP_update hnodup hr huntouched outcome .skipped (by decide),
    countP_update hnodup hr huntouched outcome .failed (by decide)]
  cases outcome <;> simp [Outcome.addTo]

theorem field_update {β : Type} (field : Account → β) (a : Account) :
    (fun x => field (Function.update accounts r a x)) =
      Function.update (fun x => field (accounts x)) r (field a) :=
  funext fun x => Function.apply_update (fun _ => field) accounts r a x

/-- An entry of an account that stays leaves the entries of all accounts. -/
theorem field_same {β : Type} (field : Account → β) {a : Account} (h : field a = field (accounts r)) :
    (fun x => field (Function.update accounts r a x)) = fun x => field (accounts x) := by
  rw [field_update, h, Function.update_eq_self r fun x => field (accounts x)]

/-- Every move of a run keeps the books. -/
theorem Books.move (h : Books s heard accounts w) (hnodup : s.runs.Nodup)
    (hlegible : HeardIn heard (2 * s.runs.length + 2)) (hr : r ∈ s.runs) {a : Account}
    (hmove : Move s.sweepId r.id (accounts r) a w w') :
    Books s heard (Function.update accounts r a) w' := by
  -- A move makes an entry in one of the books, and leaves the others as they are.
  cases hmove with
  | quiet _ _ hrecords =>
      rw [Function.update_eq_self]
      exact h.congr hrecords
  | post _ status write hposts =>
      obtain ⟨haccepts, hrows⟩ := Ledger.apply_posts h.accepts (id_ne_nil r) hposts
      refine ⟨haccepts, ?_, ?_, ?_, ?_⟩
      · rw [field_update Account.row]
        exact hrows ▸ posted_perm hnodup hr status h.rows
      · rw [field_same Account.told]
        · exact h.events
        · rfl
      · rw [field_same Account.counted]
        · exact h.tally
        · rfl
      · rw [field_same Account.isClean]
        · exact h.failure
        · rfl
  | tell _ kind fields hbrief hfields =>
      have hrecords := records_told w kind r.id fields
      simp only [records, Prod.mk.injEq] at hrecords
      obtain ⟨hkeeper, hheard, htally, hfailure⟩ := hrecords
      refine ⟨hkeeper ▸ h.accepts, ?_, ?_, ?_, ?_⟩
      · rw [field_same Account.row, hkeeper]
        · exact h.rows
        · rfl
      · intro log first hfollowed
        obtain ⟨log', events, hevents, htold, htells⟩ := h.events log first hfollowed
        have hroom : (first :: events).length < 2 * s.runs.length + 2 := by
          have := htells.length_le
          simp only [List.length_cons]
          omega
        obtain ⟨time, htold'⟩ := htold.log (hlegible log first hfollowed) hroom kind r.id hfields
        refine ⟨_, _, ?_, htold', ?_⟩
        · rw [hheard, hevents]
          rfl
        · rw [field_update Account.told]
          exact htells.tell hnodup hr hbrief ⟨time, kind, log.sweepId, r.id, fields⟩ rfl
      · rw [field_same Account.counted, htally]
        · exact h.tally
        · rfl
      · rw [field_same Account.isClean, hfailure]
        · exact h.failure
        · rfl
  | count _ outcome hcounted hnoted =>
      refine ⟨h.accepts, ?_, ?_, ?_, ?_⟩
      · rw [field_same Account.row]
        · exact h.rows
        · rfl
      · rw [field_same Account.told]
        · exact h.events
        · rfl
      · rw [field_update Account.counted, tallyOf_update hnodup hr hcounted, ← h.tally]
      · rw [field_same Account.isClean]
        · exact h.failure
        · simp [Account.isClean, hnoted]

/-- A noted result closes the account of its run and keeps the books. -/
theorem Books.note (h : Books s heard accounts w) (hr : r ∈ s.runs) {result : Option Fault}
    (hends : Ends result (accounts r)) :
    ∃ a, (∃ outcome, a = .closed outcome true) ∧
      Books s heard (Function.update accounts r a) (World.noteFailure result w) := by
  obtain ⟨outcome, haccount, hgood⟩ := hends
  refine ⟨.closed outcome true, ⟨outcome, rfl⟩, h.accepts, ?_, ?_, ?_, ?_⟩
  · rw [field_same Account.row]
    · exact h.rows
    · rw [haccount]
      rfl
  · rw [field_same Account.told]
    · exact h.events
    · rw [haccount]
      rfl
  · rw [field_same Account.counted]
    · exact h.tally
    · rw [haccount]
      rfl
  · -- The run was not noted before, so its account was clean whatever its outcome.
    have hbefore : (accounts r).isClean = true := by rw [haccount]; rfl
    have hafter : (Account.closed outcome true).isClean = outcome.isGood := rfl
    simp only [World.noteFailure, Bench.noteFailure, Option.or_eq_none_iff, h.failure, ← hgood,
      List.all_eq_true]
    constructor
    · rintro ⟨hclean, houtcome⟩ x hx
      by_cases hxr : x = r
      · rw [hxr, Function.update_self, hafter, houtcome]
      · rw [Function.update_of_ne hxr]
        exact hclean x hx
    · intro hclean
      refine ⟨fun x hx => ?_, ?_⟩
      · by_cases hxr : x = r
        · rw [hxr, hbefore]
        · simpa [hxr] using hclean x hx
      · simpa [hafter] using hclean r hr

/-- The books are an invariant of the runs of a sweep, whatever else happens to files, clock, logs and
interruptions. -/
theorem books_invariant (hnodup : s.runs.Nodup) (hlegible : HeardIn heard (2 * s.runs.length + 2)) :
    Group.Invariant World.noteFailure (fun w w' => records w' = records w) (fun r => Move s.sweepId r.id)
      (fun _ => Ends) (fun _ a => ∃ outcome, a = .closed outcome true) s.runs (Books s heard) where
  outside _ _ _ h hrecords := h.congr hrecords
  move _ _ _ _ _ hr h hmove := h.move hnodup hlegible hr hmove
  note _ _ _ _ hr h hends := h.note hr hends

end

end Sweep

end MobilitySweep
