import MobilitySweep.Proofs.Sweep.Failures
import MobilitySweep.Proofs.Sweep.Phases

/-! # What surrounds the combinations of a sweep

A sweep that gets past its opening makes one write before its combinations and one after them, and reports what was
counted meanwhile. Nothing else happens to its journal.
-/

namespace MobilitySweep

/-- The configuration that a sweep puts on record: its own with the seed that is used. -/
def Setup.pinned (s : Setup) : Config := { s.config with sweep := { s.config.sweep with seed := some s.base } }

/-- What a sweep is set up from, and what it is set up to be. -/
theorem Setup.create_eq_ok {c : Config} {simulator : Option Simulator} {logger : Log.Logger} {sweepId : Bytes}
    {drawn : Int64} {s : Setup} : Setup.create (some c) simulator logger sweepId drawn = .ok s ↔
      c.validate = .ok () ∧ s = ⟨c, simulator, logger, sweepId, c.sweep.seed.getD drawn⟩ := by
  unfold Setup.create
  dsimp only
  split
  next cause hvalid => simp [hvalid]
  next hvalid => simp [hvalid, eq_comm]

namespace Sweep

variable {κ : Type}

/-- Nothing happened to writes, tally, noted failure and calls, and no interruption was taken back. -/
structure Onward (w t : World (Journal κ)) : Prop where
  writes : t.keeper.writes = w.keeper.writes
  tally : t.tally.failed = w.tally.failed
  failure : t.bench.failure = w.bench.failure
  calls : t.bench.calls = w.bench.calls
  interrupted : w.bench.interrupted = true → t.bench.interrupted = true

theorem onward_refl (w : World (Journal κ)) : Onward w w := ⟨rfl, rfl, rfl, rfl, id⟩

theorem Onward.trans {w t u : World (Journal κ)} (h : Onward w t) (h' : Onward t u) : Onward w u :=
  ⟨h'.writes.trans h.writes, h'.tally.trans h.tally, h'.failure.trans h.failure, h'.calls.trans h.calls,
    fun hin => h'.interrupted (h.interrupted hin)⟩

theorem onward_of_interruption (w t : World (Journal κ)) (h : World.Interruption w t) : Onward w t := by
  rcases h with rfl | rfl
  · exact onward_refl _
  · exact ⟨rfl, rfl, rfl, rfl, fun _ => rfl⟩

/-- What leaves the standing of the runs alone only lets time pass. -/
theorem ensures_onward {α : Type} {p : Steps (World (Journal κ)) α} (h : p.Keeps standing) (w : World (Journal κ)) :
    Steps.Ensures Onward (fun _ _ => True) (fun _ t => Onward w t) p w := by
  induction p generalizing w with
  | done value => exact fun t hwt => hwt
  | step act next ih =>
      intro t hwt
      have hact : Onward t (act t).2 := by
        have hsame := (h t).1
        simp only [standing, Prod.mk.injEq] at hsame
        obtain ⟨hkeeper, htally, hfailure, hinterrupted, hcalls⟩ := hsame
        exact ⟨congrArg Journal.writes hkeeper, htally, hfailure, hcalls, fun hin => hinterrupted.trans hin⟩
      exact ⟨trivial, (ih _ (h t).2 _).weaken fun _ u hu => (hwt.trans hact).trans hu⟩

theorem note_onward (logger : Log.Logger) (level : Log.Level) (message : Bytes)
    (attributes : List (Bytes × Log.Value)) (w : World (Journal κ)) :
    Steps.Ensures Onward (fun _ _ => True) (fun _ t => Onward w t) (World.note logger level message attributes) w :=
  ensures_onward (dealings_keeps_standing (keeps_dealings_note logger level message attributes)) w

theorem now_onward (w : World (Journal κ)) :
    Steps.Ensures Onward (fun _ _ => True) (fun _ t => Onward w t) World.now w :=
  ensures_onward (dealings_keeps_standing keeps_dealings_now) w

theorem look_interrupted_onward (w : World (Journal κ)) :
    Steps.Ensures Onward (fun _ _ => True)
      (fun interrupted t => Onward w t ∧ (interrupted = true → t.bench.interrupted = true))
      (Steps.look fun (world : World (Journal κ)) => world.bench.interrupted) w :=
  Steps.ensures_look (fun _ => trivial) fun _ hwt _ htu => ⟨hwt.trans htu, htu.interrupted⟩

theorem loadTemplate_keeps_dealings (s : Setup) :
    (loadTemplate s : Steps (World κ) (Except Fault (Option Template))).Keeps dealings := by
  unfold loadTemplate
  refine (keeps_dealings_onFiles _).bind fun found => ?_
  split
  next => exact (keeps_dealings_note _ _ _ _).bind fun _ => Steps.keeps_pure _
  next => exact (keeps_dealings_onFiles _).bind fun _ => Steps.keeps_pure _

/-! ## First and last write -/

section

variable [Recorder κ]

/-- The world with a write put down. -/
def posted (w : World (Journal κ)) (write : Ledger.Write) : World (Journal κ) :=
  { w with keeper := (Recorder.record w.keeper write).1 }

@[simp] theorem posted_writes (w : World (Journal κ)) (write : Ledger.Write) :
    (posted w write).keeper.writes = w.keeper.writes ++ [write] := rfl

@[simp] theorem posted_tally (w : World (Journal κ)) (write : Ledger.Write) : (posted w write).tally = w.tally := rfl

@[simp] theorem posted_bench (w : World (Journal κ)) (write : Ledger.Write) : (posted w write).bench = w.bench := rfl

theorem Onward.posted {w t : World (Journal κ)} (h : Onward w t) (write : Ledger.Write) :
    Onward (posted w write) (posted t write) :=
  ⟨congrArg (· ++ [write]) h.writes, h.tally, h.failure, h.calls, h.interrupted⟩

theorem record_onward (logger : Log.Logger) (write : Ledger.Write) (w : World (Journal κ)) :
    Steps.Ensures Onward (fun _ _ => True) (fun _ t => Onward (posted w write) t) (World.record logger write) w := by
  intro t hwt
  have hposted := hwt.posted write
  refine ⟨trivial, ?_⟩
  dsimp only
  cases (Recorder.record t.keeper write).2 with
  | some fault => exact (note_onward _ _ _ _ _).weaken fun _ u hu => hposted.trans hu
  | none => exact fun u hu => hposted.trans hu

theorem announce_onward (s : Setup) (startedAt : Instant) (w : World (Journal κ)) :
    Steps.Ensures Onward (fun _ _ => True)
      (fun _ t => ∃ sweep, sweep.config = s.pinned.toYaml ∧ Onward (posted w (.beginSweep sweep)) t)
      (announce s startedAt) w := by
  unfold announce
  refine (record_onward s.logger _ w).bind onward_refl ?_
  intro _ t ht
  refine (note_onward _ _ _ _ t).bind onward_refl ?_
  intro _ u hu
  refine (ensures_onward (keeps_standing_event _ _ _) u).weaken ?_
  intro _ v hv
  refine ⟨_, ?_, (ht.trans hu).trans hv⟩
  rfl

theorem conclude_onward (s : Setup) (startedAt : Instant) (fault : Option Fault) (w : World (Journal κ)) :
    Steps.Ensures Onward (fun _ _ => True)
      (fun report t => report.failed = w.tally.failed ∧ ∃ status finishedAt,
        Onward (posted w (.endSweep s.sweepId status finishedAt)) t ∧
          (fault ≠ none → t.bench.interrupted = false → status = SweepStatus.failed))
      (conclude s startedAt fault) w := by
  unfold conclude
  have htally : Steps.Ensures Onward (fun _ _ => True) (fun tally t => tally.failed = w.tally.failed ∧ Onward w t)
      (Steps.look fun (world : World (Journal κ)) => world.tally) w :=
    Steps.ensures_look (fun _ => trivial) fun t hwt u htu => ⟨hwt.tally, hwt.trans htu⟩
  refine htally.bind onward_refl ?_
  rintro tally t ⟨hcount, ht⟩
  refine (now_onward t).bind onward_refl ?_
  intro ended u hu
  refine (look_interrupted_onward u).bind onward_refl ?_
  rintro interrupted v ⟨hv, hinterrupted⟩
  refine (now_onward v).bind onward_refl ?_
  intro finishedAt x hx
  refine (record_onward s.logger _ x).bind onward_refl ?_
  intro _ y hy
  refine (ensures_onward (keeps_standing_event _ _ _) y).bind onward_refl ?_
  intro _ z hz
  refine (note_onward _ _ _ _ z).bind onward_refl ?_
  intro _ z' hz'
  refine Steps.ensures_pure fun last hlast => ?_
  have hend := ((hy.trans hz).trans hz').trans hlast
  refine ⟨hcount, _, finishedAt, ((((ht.trans hu).trans hv).trans hx).posted _).trans hend, ?_⟩
  intro hfault hcalm
  have hquiet : interrupted = false := by
    rw [← Bool.not_eq_true]
    intro hin
    have hlate : last.bench.interrupted = true := hend.interrupted (hx.interrupted (hinterrupted hin))
    simp [hcalm] at hlate
  cases fault with
  | none => exact absurd rfl hfault
  | some fault => simp [hquiet]

/-! ## The whole sweep -/

/-- What a sweep comes to, given what its combinations come to. -/
inductive Framed (s : Setup) (start : World (Journal κ))
    (inside : World (Journal κ) → Option Fault → World (Journal κ) → Prop) :
    Report × Option Fault → World (Journal κ) → Prop where
  | unbegun (report : Report) (fault : Fault) (t : World (Journal κ)) (hbegins : ¬ Begins s start.bench.files)
      (hreport : report.failed = 0) (hquiet : Onward start t) : Framed s start inside (report, some fault) t
  | begun (sweep : SweepRecord) (u : World (Journal κ)) (fault : Option Fault) (v : World (Journal κ)) (report : Report)
      (status : Bytes) (finishedAt : Instant) (t : World (Journal κ)) (hbegins : Begins s start.bench.files)
      (hpinned : sweep.config = s.pinned.toYaml) (hopened : Onward (posted start (.beginSweep sweep)) u)
      (hinside : inside u fault v)
      (hreport : report.failed = v.tally.failed) (hclosed : Onward (posted v (.endSweep s.sweepId status finishedAt)) t)
      (hstatus : fault ≠ none → t.bench.interrupted = false → status = SweepStatus.failed) :
      Framed s start inside (report, fault) t

/-- A sweep in its frame, interrupted at any moment or not at all. -/
theorem run_framed {s : Setup} (start : World (Journal κ)) (schedules : List (List Nat))
    {inside : World (Journal κ) → Option Fault → World (Journal κ) → Prop}
    (hinside : ∀ template sweep u, Onward (posted start (.beginSweep sweep)) u →
      Steps.Ensures Onward (fun _ _ => True) (inside u)
        (runCombinations s template schedules (Plan.combinations s.config.sweep)) u) :
    Steps.Ensures World.Interruption (fun _ _ => True) (Framed s start inside) (run s schedules) start := by
  have hrefl : ∀ w : World (Journal κ), World.Interruption w w := World.interruption_refl
  have honward : ∀ w t : World (Journal κ), World.Interruption w t → Onward w t := onward_of_interruption
  unfold run
  have hnow : (World.now : Steps (World (Journal κ)) Instant).Keeps World.stage := fun _ => ⟨rfl, trivial⟩
  refine ((hnow.ensures (fun _ _ h => h.stage) start).and ((now_onward start).mono honward (fun _ _ => id)
    (fun _ _ => id))).bind hrefl ?_
  rintro startedAt t ⟨hstage, ht⟩
  have hfiles : t.bench.files = start.bench.files := congrArg Prod.snd hstage
  refine ((ensures_attempt s.config.layout.provision t).and ((ensures_onward (dealings_keeps_standing
    (keeps_dealings_onFiles _)) t).mono honward (fun _ _ => id) (fun _ _ => id))).bind hrefl ?_
  rintro fault u ⟨⟨hfault, hstage⟩, hu⟩
  rw [hfiles] at hfault hstage
  -- A sweep that does not get past its opening ends with what stopped it, and has put nothing on record.
  cases fault with
  | some fault =>
      refine Steps.ensures_pure fun v huv => .unbegun _ fault v ?_ rfl ((ht.trans hu).trans (honward u v huv))
      rintro ⟨hnone, -⟩
      rw [hnone] at hfault
      cases hfault
  | none =>
      refine ((loadTemplate_ensures s u).and ((ensures_onward (dealings_keeps_standing
        (loadTemplate_keeps_dealings s)) u).mono honward (fun _ _ => id) (fun _ _ => id))).bind hrefl ?_
      rintro loaded v ⟨⟨hloaded, -⟩, hv⟩
      have hprovisioned : u.bench.files = (s.config.layout.provision start.bench.files).1 := congrArg Prod.snd hstage
      rw [hprovisioned] at hloaded
      have hopening := (ht.trans hu).trans hv
      cases loaded with
      | error fault =>
          refine Steps.ensures_pure fun x hvx => .unbegun _ fault x ?_ rfl (hopening.trans (honward v x hvx))
          rintro ⟨-, template, htemplate⟩
          rw [htemplate] at hloaded
          cases hloaded
      | ok template =>
          refine ((announce_onward s startedAt v).mono honward (fun _ _ => id) (fun _ _ => id)).bind hrefl ?_
          rintro _ x ⟨sweep, hpinned, hx⟩
          have hopened := (hopening.posted (.beginSweep sweep)).trans hx
          refine ((hinside template sweep x hopened).mono honward (fun _ _ => id) (fun _ _ => id)).bind hrefl ?_
          intro fault y hinside
          refine ((conclude_onward s startedAt fault y).mono honward (fun _ _ => id) (fun _ _ => id)).bind_stable ?_
          intro report z hz
          refine Steps.ensures_pure fun last hlast => ?_
          obtain ⟨hreport, status, finishedAt, hclosed, hstatus⟩ := hz last hlast
          exact .begun sweep x fault y report status finishedAt last ⟨hfault.symm, template, hloaded.symm⟩ hpinned hopened
            hinside hreport hclosed hstatus

end

end Sweep

end MobilitySweep
