import MobilitySweep.Proofs.Sweep.Agreement
import MobilitySweep.Proofs.Sweep.Artifacts

/-! # Runs that keep apart

The identifier of a run is the key of its row in the ledger, and its files are named by it. Validation accepts axes that
hold a value twice, and then a run is planned twice under one identifier. As long as no axis does, no two runs have a
row or a file in common, and a sweep that ends without a failure leaves a row for each run that its report counts.
-/

namespace MobilitySweep

namespace Sweep

variable {s : Setup}

/-! ## Identifiers and files -/

/-- The identifiers of an accepted sweep are different just if no axis holds a value twice. -/
theorem ids_nodup_iff (hvalid : s.config.validate = .ok ()) :
    (s.runs.map Run.id).Nodup ↔ s.config.sweep.Distinct := by
  have haccepted := Config.accepted hvalid
  rw [List.nodup_map_iff Run.id_injective, Setup.runs, Plan.runs_nodup_iff haccepted.repetitions,
    Plan.combinations_nodup_iff haccepted.distances haccepted.couples haccepted.shuffles]

/-- What runs that keep apart have for themselves: their identifiers, the paths of their files, and the places that
these lead to in a tree. -/
structure KeepsApart (s : Setup) : Prop where
  ids : (s.runs.map Run.id).Nodup
  paths : ∀ l : Layout, s.runs.Pairwise fun r r' => ∀ a b : Artifact, a.path l r ≠ b.path l r'
  homes : ∀ (l : Layout) (base : Files), base.WellFormed →
    s.runs.Pairwise fun r r' => ∀ a b : Artifact, ∀ place ∈ a.home base l r, place ∉ b.home base l r'

theorem keepsApart_iff : KeepsApart s ↔ (s.runs.map Run.id).Nodup := by
  refine ⟨KeepsApart.ids, fun hids => ?_⟩
  have hruns : s.runs.Nodup := hids.of_map _
  refine ⟨hids, fun l => hruns.imp fun hne a b hpath => ?_, fun l base hbase => hruns.imp fun hne a b place ha hb => ?_⟩
  · exact hne ((Artifact.path_eq_path_iff l).mp hpath).2
  · exact hne (Artifact.home_inj hbase ha hb).2

/-! ## Rows -/

section

variable {outcome : Run → Outcome} {w : World Ledger} {report : Report}

theorem rowsOf_ids {runs : List Run} {row : Run → Option Bytes} (h : ∀ r ∈ runs, (row r).isSome) :
    (rowsOf runs row).map Prod.fst = runs.map Run.id := by
  induction runs with
  | nil => rfl
  | cons r rest ih =>
      obtain ⟨hrow, hrest⟩ := List.forall_mem_cons.mp h
      obtain ⟨status, hstatus⟩ := Option.isSome_iff_exists.mp hrow
      simp only [rowsOf, List.filterMap_cons, hstatus] at ih ⊢
      exact congrArg (r.id :: ·) (ih hrest)

/-- After a sweep without a failure the ledger lists every run of it once. -/
theorem Accounted.listed (h : Accounted s outcome w report none) (hid : s.sweepId ≠ []) :
    ∃ listed, w.keeper.listRuns ⟨s.sweepId, [], 0⟩ = .ok listed ∧
      (listed.map (·.runId)).Perm (s.runs.map Run.id) := by
  have hopen : w.keeper.isOpen = true := by
    have hsummary := h.summary
    unfold Ledger.summary at hsummary
    split at hsummary
    next hopen => exact hopen
    next => cases hsummary
  refine ⟨_, if_pos hopen, ?_⟩
  have hgood : ∀ r ∈ s.runs, ((outcome r).status?).isSome := by
    have hended := h.verdict.mp rfl
    intro r hr
    cases houtcome : outcome r with
    | untouched => simpa [houtcome, Outcome.isGood] using hended r hr
    | skipped | succeeded | failed => rfl
  have hpasses : w.keeper.tables.runs.filter (Ledger.Tables.passes ⟨s.sweepId, [], 0⟩) =
      w.keeper.tables.runs.filter (·.sweepId = s.sweepId) :=
    List.filter_congr fun row _ => by simp [Ledger.Tables.passes, hid]
  have hlisted : ((w.keeper.tables.listRuns ⟨s.sweepId, [], 0⟩).map (·.runId)).Perm
      ((w.keeper.tables.statuses s.sweepId).map Prod.fst) := by
    rw [Ledger.Tables.listRuns, hpasses, Ledger.Tables.statuses, List.map_map, List.map_map]
    exact (List.mergeSort_perm _ _).map _
  rw [← rowsOf_ids hgood]
  exact hlisted.trans (h.rows.map _)

end

/-! ## Whole sweeps -/

/-- A sweep of different runs that is new to its ledger and ends without a failure leaves a row for each of them,
whatever event log it is told to. -/
theorem run_rows (hvalid : s.config.validate = .ok ()) (hdistinct : s.config.sweep.Distinct)
    (hsimulator : ∀ simulator ∈ s.simulator, simulator.KeepsFailure) (files : Files) {ledger : Ledger}
    (hledger : ledger.Awaits s.sweepId) (events : Option EventLog) (clock : Clock) (schedules : List (List Nat))
    (moment : Nat) :
    let result := (run s schedules).runStruck World.interrupt moment (World.start files ledger events clock)
    result.1.2 = none → result.1.1.total = Int64.ofNat s.runs.length ∧
      ∃ listed, result.2.keeper.listRuns ⟨s.sweepId, [], 0⟩ = .ok listed ∧
        (listed.map (·.runId)).Perm (s.runs.map Run.id) := by
  intro result hnone
  by_cases hbegins : Begins s files
  · -- The report and the rows do not depend on the event log, so it need not be followed.
    have hfollowed : Follows none events (2 * s.runs.length + 2) := ⟨nofun, nofun, nofun⟩
    obtain ⟨outcome, haccounted, -⟩ := (run_ensures hvalid hdistinct.distances hdistinct.couples hdistinct.shuffles
      hsimulator files hledger hfollowed clock schedules hbegins).runStruck World.interruption_refl
        World.interruption_interrupt moment
    rw [show ((run s schedules).runStruck World.interrupt moment (World.start files ledger events clock)).1.2 = none from
      hnone] at haccounted
    exact ⟨haccounted.total, haccounted.listed hledger.nonempty⟩
  · have hunbegun := (run_unbegun hbegins ledger events clock schedules).runStruck
      World.interruption_refl World.interruption_interrupt moment
    exact absurd hnone hunbegun

/-- The runs of an accepted sweep keep apart just if no axis holds a value twice. Then, if the sweep is new to a ledger
that accepts its writes and ends without a failure, whatever its schedules are and whenever it is interrupted, the
ledger lists one row for each planned run, and as many rows as the report has runs in total. -/
theorem distinct_axes_keep_runs_apart (s : Setup) (hvalid : s.config.validate = .ok ()) :
    (KeepsApart s ↔ s.config.sweep.Distinct) ∧ (s.config.sweep.Distinct →
      (∀ simulator ∈ s.simulator, simulator.KeepsFailure) → ∀ (files : Files) (ledger : Ledger),
      ledger.Awaits s.sweepId → ∀ (events : Option EventLog) (clock : Clock) (schedules : List (List Nat)) (moment : Nat),
        let result := (run s schedules).runStruck World.interrupt moment (World.start files ledger events clock)
        result.1.2 = none → ∃ listed, result.2.keeper.listRuns ⟨s.sweepId, [], 0⟩ = .ok listed ∧
          (listed.map (·.runId)).Perm (s.runs.map Run.id) ∧ result.1.1.total = Int64.ofNat listed.length ∧
            (s.runs.length < 2 ^ 63 → result.1.1.total.toInt = listed.length)) := by
  refine ⟨keepsApart_iff.trans (ids_nodup_iff hvalid), ?_⟩
  intro hdistinct hsimulator files ledger hledger events clock schedules moment result hnone
  obtain ⟨htotal, listed, hlisted, hids⟩ :=
    run_rows hvalid hdistinct hsimulator files hledger events clock schedules moment hnone
  have hlength : listed.length = s.runs.length := by simpa using hids.length_eq
  refine ⟨listed, hlisted, hids, hlength ▸ htotal, fun hbound => ?_⟩
  rw [hlength, show result.1.1.total = Int64.ofNat s.runs.length from htotal, Int64.toInt_ofNat_of_lt hbound]

/-- Two repetitions side by side, told to no event log, leave two rows. -/
theorem two_repetitions_keep_apart :
    let result := (run (plainSweep [1] 2) [[0, 1, 0, 1]]).runStruck World.interrupt 1000
      (World.start (Files.fresh [("site" : Bytes)]) freshLedger none secondsClock)
    KeepsApart (plainSweep [1] 2) ∧ result.1.2 = none ∧
      ∃ listed, result.2.keeper.listRuns ⟨"sweep", [], 0⟩ = .ok listed ∧ result.1.1.total.toInt = listed.length := by
  intro result
  have hdistinct : (plainSweep [1] 2).config.sweep.Distinct := by decide +kernel
  have hnone : result.1.2 = none := by decide +kernel
  have hbound : (plainSweep [1] 2).runs.length < 2 ^ 63 := by decide +kernel
  have hawaits : freshLedger.Awaits (plainSweep [1] 2).sweepId :=
    ⟨rfl, rfl, by decide +kernel, by decide +kernel, by simp [freshLedger, Ledger.Tables.fresh]⟩
  obtain ⟨hapart, hrows⟩ := distinct_axes_keep_runs_apart (plainSweep [1] 2) (by decide +kernel)
  have hall := hrows hdistinct (by simp [plainSweep]) (Files.fresh [("site" : Bytes)]) freshLedger hawaits none
    secondsClock [[0, 1, 0, 1]] 1000
  extract_lets at hall
  obtain ⟨listed, hlisted, -, -, htotal⟩ := hall hnone
  exact ⟨hapart.mpr hdistinct, hnone, listed, hlisted, htotal hbound⟩

/-- A sweep with the same node distance twice is accepted and ends without a failure. Its report has two runs in total,
and its ledger one row. -/
theorem repeated_distance_collides :
    let result := (run (plainSweep [1, 1] 1) []).runStruck World.interrupt 1000
      (World.start (Files.fresh [("site" : Bytes)]) freshLedger none secondsClock)
    (plainSweep [1, 1] 1).config.validate = .ok () ∧ ¬ ((plainSweep [1, 1] 1).runs.map Run.id).Nodup ∧
      result.1.2 = none ∧ result.1.1.total = 2 ∧
        (result.2.keeper.listRuns ⟨"sweep", [], 0⟩).map List.length = .ok 1 := by
  decide +kernel

end Sweep

end MobilitySweep
