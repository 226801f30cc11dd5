import MobilitySweep.Proofs.Sweep.Agreement
import MobilitySweep.Proofs.Sweep.Watch

/-! # Combinations keep apart

The repetitions of a combination run side by side, never more of them than there are workers, and the next
combination waits until all of them have ended well. A sweep that nobody interrupts ends with the failure of a run, if
it ends with a failure at all.
-/

namespace MobilitySweep

namespace Sweep

/-! ## Combinations -/

section

variable {κ : Type}

/-- A run was skipped or has succeeded. -/
def EndedWell (r : Run) (round : List Ledger.Write) : Prop :=
  (∃ record, entriesOf r round = [.skip record]) ∨
    ∃ first last, entriesOf r round = [.start first, .finish last] ∧ last.status = RunStatus.succeeded

/-- A run was not let in or has failed. -/
def EndedIll (r : Run) (round : List Ledger.Write) : Prop :=
  entriesOf r round = [] ∨
    ∃ first last, entriesOf r round = [.start first, .finish last] ∧ last.status = RunStatus.failed

/-- The writes of the repetitions of a combination. -/
structure Round (s : Setup) (p : Params) (round : List Ledger.Write) : Prop where
  about : ∀ write ∈ round, ∃ r ∈ Plan.repetitions p s.config.sweep.repetitions, write.runId? = some r.id
  turns : ∀ r ∈ Plan.repetitions p s.config.sweep.repetitions, EndedWell r round ∨ EndedIll r round
  always : ∀ part, part <+: round → (underWay part).length ≤ s.config.sweep.workers.toInt.toNat ∧
    ∀ id ∈ underWay part, ∃ r ∈ Plan.repetitions p s.config.sweep.repetitions, r.id = id
  settled : underWay round = []

/-- The rounds of combinations one after another, up to the first that does not end well or before which the sweep is
stopped. -/
inductive Rounds (s : Setup) : List Params → List (List Ledger.Write) → Prop where
  | stopped (combinations : List Params) : Rounds s combinations []
  | last (p : Params) (rest : List Params) (round : List Ledger.Write) (h : Round s p round) :
      Rounds s (p :: rest) [round]
  | next (p : Params) (rest : List Params) (round : List Ledger.Write) (rounds : List (List Ledger.Write))
      (h : Round s p round) (hwell : ∀ r ∈ Plan.repetitions p s.config.sweep.repetitions, EndedWell r round)
      (hrest : Rounds s rest rounds) : Rounds s (p :: rest) (round :: rounds)

variable {s : Setup} {p : Params} {before round : List Ledger.Write} {phases : Run → Phase} {w t : World (Journal κ)}

theorem endedWell_or_endedIll {r : Run} {result : Option Fault} (hends : Phase.Ends r result (phases r))
    (hsound : (phases r).Sound s r) (htold : entriesOf r round = (phases r).writes) :
    EndedWell r round ∨ EndedIll r round := by
  generalize phases r = phase at hends hsound htold
  cases hends with
  | refused => exact Or.inr (Or.inl htold)
  | skipped record => exact Or.inl (Or.inl ⟨record, htold⟩)
  | succeeded first last called => exact Or.inl (Or.inr ⟨first, last, htold, hsound.2.2.1⟩)
  | failed first last fault called => exact Or.inr (Or.inr ⟨first, last, htold, hsound.2.2.1⟩)

theorem endedWell_of_not_loose {r : Run} {result : Option Fault} (hends : Phase.Ends r result (phases r))
    (hsound : (phases r).Sound s r) (htold : entriesOf r round = (phases r).writes)
    (htight : (phases r).isLoose = false) : EndedWell r round := by
  generalize phases r = phase at hends hsound htold htight
  cases hends with
  | refused => cases htight
  | skipped record => exact Or.inl ⟨record, htold⟩
  | succeeded first last called => exact Or.inr ⟨first, last, htold, hsound.2.2.1⟩
  | failed first last fault called => cases htight

/-- What is left of a combination when all its members have come to an end. -/
structure Closing (s : Setup) (p : Params) (before : List Ledger.Write) (round : List Ledger.Write)
    (w : World (Journal κ)) : Prop where
  writes : w.keeper.writes = before ++ round
  shape : Round s p round
  few : failures round ≤ s.config.sweep.workers.toInt.toNat
  tally : w.tally.failed = Int64.ofNat (failures round)
  well : w.bench.failure = none →
    failures round = 0 ∧ ∀ r ∈ Plan.repetitions p s.config.sweep.repetitions, EndedWell r round
  cause : ∀ fault, w.bench.failure = some fault → w.bench.interrupted = true ∨
    ∃ r ∈ Plan.repetitions p s.config.sweep.repetitions, IsFailureOf r round fault

theorem Closing.outside (h : Closing s p before round w) (hwt : Onward w t) : Closing s p before round t := by
  refine ⟨hwt.writes.trans h.writes, h.shape, h.few, hwt.tally.trans h.tally, ?_, ?_⟩
  · rw [hwt.failure]
    exact h.well
  · intro fault hfault
    rw [hwt.failure] at hfault
    exact (h.cause fault hfault).imp_left hwt.interrupted

theorem Watch.closing
    (h : Watch s (Plan.repetitions p s.config.sweep.repetitions) s.config.sweep.workers.toInt.toNat before phases [] w)
    (hends : ∀ r ∈ Plan.repetitions p s.config.sweep.repetitions, ∃ result, Phase.Ends r result (phases r)) :
    ∃ round, Closing s p before round w := by
  obtain ⟨round, hwrites, htold⟩ := h.told
  -- All have ended, so nobody is under way, and the failures counted are those written.
  have hover : underWay round = [] := by
    have hnone : (Plan.repetitions p s.config.sweep.repetitions).filter (fun r => (phases r).isStarted) = [] := by
      refine List.filter_eq_nil_iff.mpr fun r hr => ?_
      obtain ⟨result, hends⟩ := hends r hr
      generalize phases r = phase at hends
      cases hends <;> simp [Phase.isStarted]
    have hpresent := htold.present
    rw [hnone] at hpresent
    exact hpresent.eq_nil
  have hcounted : (Plan.repetitions p s.config.sweep.repetitions).countP (fun r => (phases r).isCounted) =
      failures round := by
    rw [htold.failed, List.countP_eq_length_filter]
    refine congrArg List.length (List.filter_congr fun r hr => ?_)
    obtain ⟨result, hends⟩ := hends r hr
    generalize phases r = phase at hends
    cases hends <;> rfl
  refine ⟨round, hwrites, ⟨htold.about, fun r hr => ?_, htold.always, hover⟩, ?_,
    h.tally.trans (congrArg Int64.ofNat hcounted), ?_, ?_⟩
  · obtain ⟨result, hends⟩ := hends r hr
    exact endedWell_or_endedIll hends (h.sound r hr) (htold.turns r hr)
  · rw [htold.failed, ← List.countP_eq_length_filter]
    exact (List.countP_mono_left fun r _ => Phase.isOpen_of_isFailed).trans h.few
  · intro hnone
    have htight : ∀ r ∈ Plan.repetitions p s.config.sweep.repetitions, (phases r).isLoose = false := by
      intro r hr
      rw [← Bool.not_eq_true]
      exact fun hloose => List.not_mem_nil (h.loose hnone r hr hloose)
    refine ⟨?_, fun r hr => ?_⟩
    · rw [htold.failed, List.length_eq_zero_iff, List.filter_eq_nil_iff]
      intro r hr hfailed
      have hloose := Phase.isLoose_of_isOpen (Phase.isOpen_of_isFailed hfailed)
      simp [htight r hr] at hloose
    · obtain ⟨result, hends⟩ := hends r hr
      exact endedWell_of_not_loose hends (h.sound r hr) (htold.turns r hr) (htight r hr)
  · intro fault hfault
    refine (h.failure fault hfault).imp_right ?_
    rintro ⟨r, hr, first, last, cause, called, hphase, rfl⟩
    have hsound := h.sound r hr
    have hturn := htold.turns r hr
    rw [hphase] at hsound hturn
    have hmem : .finish last ∈ entriesOf r round := by
      rw [hturn]
      exact List.mem_cons_of_mem _ List.mem_cons_self
    exact ⟨r, hr, last, cause, (List.mem_filter.mp hmem).1, hsound.2.1.2.1, hsound.2.2.1, hsound.2.2.2, rfl⟩

variable [Recorder κ]

/-- The repetitions of a combination side by side, whatever the schedule. -/
theorem runCombination_closes (hworkers : 0 < s.config.sweep.workers.toInt.toNat)
    (hsimulator : ∀ simulator ∈ s.simulator, simulator.Heeds) (template : Option Template) (schedule : List Nat)
    (p : Params) (hwrites : w.keeper.writes = before) (htally : w.tally.failed = 0) :
    Steps.Ensures Onward (fun _ _ => True)
      (fun fault t => fault = t.bench.failure ∧ ∃ round, Closing s p before round t)
      (runCombination s template schedule p) w := by
  let members := Plan.repetitions p s.config.sweep.repetitions
  let tasks := members.map fun r => (r, (task s template r : Steps (World (Journal κ)) (Option Fault)))
  have hruns : tasks.map Prod.fst = members := by simp [tasks, Function.comp_def]
  have hprograms : tasks.map Prod.snd = members.map (task s template) := by simp [tasks, Function.comp_def]
  have hnodup : members.Nodup := Plan.repetitions_nodup p _
  -- The watch begins with nothing noted and everybody waiting.
  have hreset : Steps.Ensures Onward (fun _ _ => True)
      (fun _ t => Watch s members s.config.sweep.workers.toInt.toNat before (fun _ => .waiting) [] t)
      (Steps.change fun (w : World (Journal κ)) => { w with bench := { w.bench with failure := none } }) w := by
    refine Steps.ensures_change fun t hwt => ⟨trivial, fun u htu => ?_⟩
    refine Watch.outside ⟨⟨[], ?_, ?_⟩, ?_, ?_, ?_, ?_, ?_, ?_, ?_⟩ htu
    · simpa using hwt.writes.trans hwrites
    · refine ⟨by simp, fun r _ => rfl, ?_, ?_, ?_⟩
      · simp [underWay, Phase.isStarted]
      · simp [failures, Phase.isFailed]
      · intro part hpart
        simp [List.prefix_nil.mp hpart, underWay]
    · exact fun _ _ => trivial
    · simp
    · simp [Phase.isOpen]
    · simp [Phase.isLoose]
    · simp
    · simp
    · simpa [Phase.isCounted] using hwt.tally.trans htally
  refine hreset.bind onward_refl ?_
  rintro _ t hwatch
  refine Steps.Ensures.bind onward_refl (Steps.ensures_of_eq (by rw [← hprograms])
    (Group.interleaved_supervised (watch_supervised hnodup) le_rfl hworkers schedule tasks (hruns ▸ hnodup) ?_ hwatch
      ?_)) ?_
  · intro task htask
    rw [← hruns]
    exact List.mem_map.mpr ⟨task, htask, rfl⟩
  · intro task htask
    obtain ⟨r, hr, rfl⟩ := List.mem_map.mp htask
    exact task_advances (fun simulator hin => hsimulator simulator hin _ _) template
  rintro _ u ⟨phases, hwatch, hends, -⟩
  obtain ⟨round, hclosing⟩ := hwatch.closing fun r hr => hends (r, task s template r) (List.mem_map.mpr ⟨r, hr, rfl⟩)
  refine Steps.ensures_look (fun _ => trivial) fun v huv x hvx => ⟨hvx.failure.symm, round, ?_⟩
  exact hclosing.outside (huv.trans hvx)

/-- What the combinations of a sweep have come to. -/
structure Carried (s : Setup) (combinations : List Params) (rounds : List (List Ledger.Write)) (fault : Option Fault)
    (w : World (Journal κ)) : Prop where
  shape : Rounds s combinations rounds
  few : failures rounds.flatten ≤ s.config.sweep.workers.toInt.toNat
  tally : w.tally.failed = Int64.ofNat (failures rounds.flatten)
  cause : ∀ cause, fault = some cause → w.bench.interrupted = true ∨
    ∃ p ∈ combinations, ∃ r ∈ Plan.repetitions p s.config.sweep.repetitions, IsFailureOf r rounds.flatten cause

omit [Recorder κ] in
theorem Carried.outside {combinations : List Params} {rounds : List (List Ledger.Write)} {fault : Option Fault}
    (h : Carried s combinations rounds fault w) (hwt : Onward w t) : Carried s combinations rounds fault t :=
  ⟨h.shape, h.few, hwt.tally.trans h.tally, fun cause hcause => (h.cause cause hcause).imp_left hwt.interrupted⟩

/-- The combinations that are left, one after another. -/
theorem runCombinations_carried (hworkers : 0 < s.config.sweep.workers.toInt.toNat)
    (hsimulator : ∀ simulator ∈ s.simulator, simulator.Heeds) (template : Option Template)
    (schedules : List (List Nat)) (combinations : List Params) (hwrites : w.keeper.writes = before)
    (htally : w.tally.failed = 0) :
    Steps.Ensures Onward (fun _ _ => True)
      (fun fault t => ∃ rounds, t.keeper.writes = before ++ rounds.flatten ∧ Carried s combinations rounds fault t)
      (runCombinations s template schedules combinations) w := by
  -- By induction on the combinations: a round adds to the rounds before it, and a failure is the last.
  induction combinations generalizing schedules before w with
  | nil =>
      refine fun t hwt => ⟨[], by simpa using hwt.writes.trans hwrites, .stopped [], ?_, ?_, by rintro _ ⟨⟩⟩
      · simp [failures]
      · simpa [failures] using hwt.tally.trans htally
  | cons p rest ih =>
      unfold runCombinations
      refine (look_interrupted_onward w).bind onward_refl ?_
      rintro interrupted t ⟨hwt, hinterrupted⟩
      split
      next hin =>
        refine Steps.ensures_pure fun u htu => ⟨[], ?_, .stopped _, by simp [failures], ?_, ?_⟩
        · simpa using (hwt.trans htu).writes.trans hwrites
        · simpa [failures] using (hwt.trans htu).tally.trans htally
        · exact fun _ _ => Or.inl (htu.interrupted (hinterrupted hin))
      next =>
        refine (runCombination_closes hworkers hsimulator template (schedules.headD []) p (hwt.writes.trans hwrites)
          (hwt.tally.trans htally)).bind onward_refl ?_
        rintro fault u ⟨hfault, round, hclosing⟩
        cases fault with
        | some fault =>
            refine Steps.ensures_pure fun v huv => ⟨[round], ?_, .last p rest round hclosing.shape, ?_, ?_, ?_⟩
            · simpa using huv.writes.trans hclosing.writes
            · simpa using hclosing.few
            · simpa using huv.tally.trans hclosing.tally
            · rintro cause ⟨⟩
              refine (hclosing.cause fault hfault.symm).imp huv.interrupted ?_
              rintro ⟨r, hr, hfailure⟩
              exact ⟨p, List.mem_cons_self, r, hr, by simpa using hfailure⟩
        | none =>
            obtain ⟨hnone, hwell⟩ := hclosing.well hfault.symm
            refine (ih schedules.tail hclosing.writes (hclosing.tally.trans (congrArg Int64.ofNat hnone))).weaken ?_
            rintro fault v ⟨rounds, hwrites, hcarried⟩
            have hsum : failures (round :: rounds).flatten = failures rounds.flatten := by
              rw [List.flatten_cons, failures, List.countP_append, ← failures, ← failures, hnone, Nat.zero_add]
            refine ⟨round :: rounds, ?_, .next p rest round rounds hclosing.shape hwell hcarried.shape, ?_, ?_, ?_⟩
            · rw [hwrites, List.flatten_cons, List.append_assoc]
            · exact hsum ▸ hcarried.few
            · exact hsum ▸ hcarried.tally
            · intro cause hcause
              refine (hcarried.cause cause hcause).imp_right ?_
              rintro ⟨q, hq, r, hr, record, first, hmem, hrest⟩
              exact ⟨q, List.mem_cons_of_mem p hq, r, hr, record, first, List.mem_append_right round hmem, hrest⟩

end

/-! ## The whole sweep -/

/-- At a moment of a sweep no more runs are under way than there are workers, all of them repetitions of one
combination. -/
def Apart (s : Setup) (writes : List Ledger.Write) : Prop :=
  (underWay writes).length ≤ s.config.sweep.workers.toInt.toNat ∧
    ∃ p, ∀ id ∈ underWay writes, ∃ r ∈ Plan.repetitions p s.config.sweep.repetitions, r.id = id

theorem apart_of_nobody {s : Setup} {writes : List Ledger.Write} (h : underWay writes = []) : Apart s writes := by
  simp [Apart, h]

/-- The runs of different rounds are never under way together. -/
theorem Rounds.apart {s : Setup} {combinations : List Params} {rounds : List (List Ledger.Write)}
    (h : Rounds s combinations rounds) :
    underWay rounds.flatten = [] ∧ ∀ part, part <+: rounds.flatten → Apart s part := by
  induction h with
  | stopped =>
      refine ⟨rfl, fun part hpart => apart_of_nobody ?_⟩
      rw [List.prefix_nil.mp hpart]
      rfl
  | last p rest round h =>
      simp only [List.flatten_cons, List.flatten_nil, List.append_nil]
      exact ⟨h.settled, fun part hpart => ⟨(h.always part hpart).1, p, (h.always part hpart).2⟩⟩
  | next p rest round rounds h _ _ ih =>
      rw [List.flatten_cons, underWay_append h.settled]
      refine ⟨ih.1, fun part hpart => ?_⟩
      obtain ⟨after, hafter⟩ := hpart
      rcases List.append_eq_append_iff.mp hafter with ⟨more, hmore, -⟩ | ⟨begun, rfl, hbegun⟩
      · have hpart : part <+: round := ⟨more, hmore.symm⟩
        exact ⟨(h.always part hpart).1, p, (h.always part hpart).2⟩
      · rw [Apart, underWay_append h.settled]
        exact ih.2 begun ⟨after, hbegun.symm⟩

/-- The opening and the closing of a sweep start no run. -/
theorem apart_of_enclosed {s : Setup} {sweep : SweepRecord} {id status : Bytes} {time : Instant}
    {writes : List Ledger.Write} (hwrites : underWay writes = []) (h : ∀ part, part <+: writes → Apart s part)
    {part : List Ledger.Write} (hpart : part <+: .beginSweep sweep :: (writes ++ [.endSweep id status time])) :
    Apart s part := by
  rcases List.prefix_cons_iff.mp hpart with rfl | ⟨begun, rfl, hbegun⟩
  · exact apart_of_nobody rfl
  · change Apart s begun
    rcases List.prefix_concat_iff.mp hbegun with rfl | hbegun
    · refine apart_of_nobody ?_
      rw [underWay_snoc, hwrites]
      rfl
    · exact h begun hbegun

theorem zero_lt_workers {c : Config} (h : c.validate = .ok ()) : 0 < c.sweep.workers.toInt.toNat := by
  have hworkers := (Config.accepted h).workers
  omega

/-- How a sweep has gone by, whatever happened on the way. -/
structure Contained {κ : Type} (s : Setup) (files : Files) (report : Report) (fault : Option Fault)
    (w : World (Journal κ)) : Prop where
  apart : ∀ part, part <+: w.keeper.writes → Apart s part
  few : failures w.keeper.writes ≤ s.config.sweep.workers.toInt.toNat
  reported : report.failed.toInt = failures w.keeper.writes
  begun : Begins s files → ∃ sweep rounds status finishedAt,
    w.keeper.writes = .beginSweep sweep :: (rounds.flatten ++ [.endSweep s.sweepId status finishedAt]) ∧
    Rounds s (Plan.combinations s.config.sweep) rounds ∧
    ∀ cause, fault = some cause → w.bench.interrupted = false →
      status = SweepStatus.failed ∧ ∃ r ∈ s.runs, IsFailureOf r w.keeper.writes cause
  unbegun : ¬ Begins s files → w.keeper.writes = [] ∧ fault ≠ none

theorem contained_of_framed {κ : Type} [Recorder κ] {s : Setup} {start t : World (Journal κ)}
    {result : Report × Option Fault} (hblank : start.keeper.writes = [])
    (h : Framed s start (fun u fault v => ∃ rounds, v.keeper.writes = u.keeper.writes ++ rounds.flatten ∧
      Carried s (Plan.combinations s.config.sweep) rounds fault v) result t) :
    Contained s start.bench.files result.1 result.2 t := by
  cases h with
  | unbegun report fault t hbegins hreport hquiet =>
      have hwrites : t.keeper.writes = [] := hquiet.writes.trans hblank
      refine ⟨fun part hpart => ?_, ?_, ?_, fun h => absurd h hbegins, fun _ => ⟨hwrites, by rintro ⟨⟩⟩⟩
      · rw [hwrites, List.prefix_nil] at hpart
        exact hpart ▸ apart_of_nobody rfl
      · simp [hwrites, failures]
      · simp [hwrites, failures, hreport]
  | begun sweep u fault v report status finishedAt t hbegins hpinned hopened hinside hreport hclosed hstatus =>
      obtain ⟨rounds, hrounds, hcarried⟩ := hinside
      have hall : t.keeper.writes =
          .beginSweep sweep :: (rounds.flatten ++ [.endSweep s.sweepId status finishedAt]) := by
        rw [hclosed.writes, posted_writes, hrounds, hopened.writes, posted_writes, hblank]
        simp
      have hcount : failures t.keeper.writes = failures rounds.flatten := by
        simp [hall, failures, Ledger.Write.ending?]
      obtain ⟨hover, hapart⟩ := hcarried.shape.apart
      refine ⟨fun part hpart => ?_, hcount ▸ hcarried.few, ?_, fun _ => ⟨sweep, rounds, status, finishedAt, hall,
        hcarried.shape, fun cause hcause hcalm => ⟨?_, ?_⟩⟩, fun hnot => absurd hbegins hnot⟩
      · exact apart_of_enclosed hover hapart (hall ▸ hpart)
      · have hbound := s.config.sweep.workers.toInt_lt
        have hfew := hcarried.few
        rw [hreport, hcarried.tally, hcount, Int64.toInt_ofNat_of_lt (by omega)]
      · exact hstatus (ne_of_eq_of_ne hcause (by rintro ⟨⟩)) hcalm
      · rcases hcarried.cause cause hcause with hinterrupted | ⟨p, hp, r, hr, record, first, hmem, hrest⟩
        · have hlate := hclosed.interrupted hinterrupted
          simp [hcalm] at hlate
        · have hparams := Plan.mem_repetitions hr
          refine ⟨r, Plan.mem_runs.mpr ⟨hparams ▸ hp, hparams ▸ hr⟩, record, first, ?_, hrest⟩
          rw [hall]
          exact List.mem_cons_of_mem _ (List.mem_append_left _ hmem)

/-- Combinations keep apart and failures are contained. A sweep is run under any schedules with any simulator that
leaves alone what its group has noted, and interrupted at any moment, if at all. At every moment the runs under way
are repetitions of one combination and no more than the workers; the rounds of the combinations follow each other only
while all runs end well; no more runs fail than there are workers; and a sweep that nobody has interrupted ends, if
with a failure, with that of a run, and is put on record as failed. -/
theorem combinations_keep_apart {κ : Type} [Recorder κ] (s : Setup) (hvalid : s.config.validate = .ok ())
    (hsimulator : ∀ simulator ∈ s.simulator, simulator.Heeds) (files : Files) (journal : Journal κ)
    (hblank : journal.writes = []) (events : Option EventLog) (clock : Clock) (schedules : List (List Nat))
    (moment : Nat) :
    let result := (run s schedules).runStruck World.interrupt moment (World.start files journal events clock)
    Contained s files result.1.1 result.1.2 result.2 := by
  have hframed := run_framed (World.start files journal events clock) schedules
    fun template sweep u hu => runCombinations_carried (zero_lt_workers hvalid) hsimulator template schedules
      (Plan.combinations s.config.sweep) rfl hu.tally
  exact contained_of_framed hblank
    (hframed.runStruck World.interruption_refl World.interruption_interrupt moment)

/-- The configuration of a sweep of two combinations with two repetitions each, side by side. -/
def twoByTwo : Config :=
  { oneRun false false with sweep := ⟨some [1, 2], some [0], some [1], 2, 2, some 1, false⟩ }

/-- The second repetition of the first combination fails, and the sweep ends with its failure. -/
theorem failed_repetition_is_contained :
    let s := (scriptedPass blankJournal [("1_0_1_1", "boom")]).setup twoByTwo
    let result := (run s [[0, 1, 0, 1, 0, 1]]).runStruck World.interrupt 1000
      (World.start site blankJournal none secondsClock)
    Contained s site result.1.1 result.1.2 result.2 ∧ result.2.bench.interrupted = false ∧
      result.1.2 = some (.plain "run 1_0_1_1: boom") ∧ failures result.2.keeper.writes = 1 ∧
      Begins s site := by
  refine ⟨combinations_keep_apart _ (by decide +kernel) ?_ site blankJournal rfl none secondsClock _ 1000, ?_⟩
  · intro simulator hin
    obtain rfl := Option.some.inj hin
    exact ScriptedSimulator.simulator_heeds _
  · decide +kernel

end Sweep

end MobilitySweep
