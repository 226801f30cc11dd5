import MobilitySweep.Proofs.Sweep.Framing

/-! # Runs side by side

While the repetitions of a combination run side by side, the writes of their round tell in which phase each of them is.
No more of them are under way than there is room for, and once a failure is noted no other is let in, so that only the
runs beside it can fail too.
-/

namespace MobilitySweep

/-- The runs under way after a write, by identifier. -/
def Ledger.Write.shift : Ledger.Write → List Bytes → List Bytes
  | .start run, ids => run.runId :: ids
  | .finish run, ids => ids.erase run.runId
  | .beginSweep _, ids | .endSweep _ _ _, ids | .skip _, ids => ids

/-- A step that leaves alone what a group has noted and takes no interruption back. -/
def Bench.Heeding (_ _ : Bool) (b b' : Bench) : Prop :=
  b'.failure = b.failure ∧ (b.interrupted = true → b'.interrupted = true)

/-- A simulator of which every step is such. -/
def Simulator.Heeds (simulator : Simulator) : Prop := simulator.Moves fun _ _ => Bench.Heeding

theorem SimulatorCommand.simulator_heeds (s : SimulatorCommand) : s.simulator.Heeds :=
  fun _ _ _ => ⟨false, ⟨rfl, id⟩, trivial⟩

theorem ScriptedSimulator.simulator_heeds (s : ScriptedSimulator) : s.simulator.Heeds := by
  intro config log bench
  refine ⟨false, ?_, trivial⟩
  simp only [simulate, writeLog]
  repeat' split
  all_goals first | exact ⟨rfl, id⟩ | exact ⟨rfl, fun _ => rfl⟩

namespace Sweep

/-- The runs that are on record as started and not as ended, by identifier. -/
def underWay (writes : List Ledger.Write) : List Bytes := writes.foldl (fun ids write => write.shift ids) []

theorem underWay_snoc (writes : List Ledger.Write) (write : Ledger.Write) :
    underWay (writes ++ [write]) = write.shift (underWay writes) := by
  simp [underWay]

theorem underWay_append {before : List Ledger.Write} (h : underWay before = []) (writes : List Ledger.Write) :
    underWay (before ++ writes) = underWay writes := by
  rw [underWay, List.foldl_append, ← underWay, h, ← underWay]

/-! ## Members in a phase -/

section

variable {ι Φ : Type} [DecidableEq ι] {members : List ι} {phases : ι → Φ} {i : ι} {phase : Φ}

/-- A member that comes to have a property joins those that have it. -/
theorem filter_update_perm (P : Φ → Bool) (hnodup : members.Nodup) (hi : i ∈ members) (phase : Φ)
    (hold : P (phases i) = false) (hnew : P phase = true) :
    (members.filter fun j => P (Function.update phases i phase j)).Perm (i :: members.filter fun j => P (phases j)) := by
  have hperm := List.perm_cons_erase hi
  have hothers : (members.erase i).filter (fun j => P (Function.update phases i phase j)) =
      (members.erase i).filter fun j => P (phases j) := by
    refine List.filter_congr fun j hj => ?_
    rw [Function.update_of_ne ((hnodup.mem_erase_iff.mp hj).1)]
  refine (hperm.filter _).trans (List.Perm.trans ?_ ((hperm.filter _).symm.cons i))
  simp [hold, hnew, hothers]

/-- A member that loses a property leaves those that have it. -/
theorem filter_perm_update (P : Φ → Bool) (hnodup : members.Nodup) (hi : i ∈ members) (phase : Φ)
    (hold : P (phases i) = true) (hnew : P phase = false) :
    (members.filter fun j => P (phases j)).Perm (i :: members.filter fun j => P (Function.update phases i phase j)) := by
  have hlost : P (Function.update phases i phase i) = false := by rwa [Function.update_self]
  simpa using filter_update_perm P hnodup hi (phases i) hlost hold

theorem filter_update_eq {P : Φ → Bool} (hsame : P phase = P (phases i)) :
    (members.filter fun j => P (Function.update phases i phase j)) = members.filter fun j => P (phases j) := by
  refine List.filter_congr fun j _ => ?_
  by_cases hj : j = i
  · rw [hj, Function.update_self, hsame]
  · rw [Function.update_of_ne hj]

end

/-! ## The writes of a round -/

/-- The writes about a run. -/
def entriesOf (r : Run) (writes : List Ledger.Write) : List Ledger.Write :=
  writes.filter fun write => decide (write.runId? = some r.id)

/-- How many runs are on record as failed. -/
def failures (writes : List Ledger.Write) : Nat := writes.countP fun write => write.ending? = some RunStatus.failed

/-- What the writes of a round tell of members in their phases, of which at most a number may be under way. -/
structure Chronicle (members : List Run) (room : Nat) (phases : Run → Phase) (round : List Ledger.Write) : Prop where
  about : ∀ write ∈ round, ∃ r ∈ members, write.runId? = some r.id
  turns : ∀ r ∈ members, entriesOf r round = (phases r).writes
  present : (underWay round).Perm ((members.filter fun r => (phases r).isStarted).map Run.id)
  failed : failures round = (members.filter fun r => (phases r).isFailed).length
  always : ∀ part, part <+: round → (underWay part).length ≤ room ∧ ∀ id ∈ underWay part, ∃ r ∈ members, r.id = id

section

variable {members : List Run} {room : Nat} {phases : Run → Phase} {round : List Ledger.Write} {r : Run} {phase : Phase}
  {write : Ledger.Write}

theorem Chronicle.still (h : Chronicle members room phases round) (hwrites : phase.writes = (phases r).writes)
    (hstarted : phase.isStarted = (phases r).isStarted) (hfailed : phase.isFailed = (phases r).isFailed) :
    Chronicle members room (Function.update phases r phase) round := by
  refine ⟨h.about, fun q hq => ?_, ?_, ?_, h.always⟩
  · by_cases hqr : q = r
    · rw [hqr, Function.update_self, hwrites, ← hqr]
      exact h.turns q hq
    · rw [Function.update_of_ne hqr]
      exact h.turns q hq
  · rw [filter_update_eq hstarted]
    exact h.present
  · rw [filter_update_eq hfailed]
    exact h.failed

/-- One more write about a member. -/
theorem Chronicle.post (h : Chronicle members room phases round) (hr : r ∈ members)
    (habout : write.runId? = some r.id) (hwrites : phase.writes = (phases r).writes ++ [write])
    (hpresent : (write.shift (underWay round)).Perm
      ((members.filter fun q => (Function.update phases r phase q).isStarted).map Run.id))
    (hfailed : failures (round ++ [write]) =
      (members.filter fun q => (Function.update phases r phase q).isFailed).length)
    (hfew : members.countP (fun q => (Function.update phases r phase q).isOpen) ≤ room) :
    Chronicle members room (Function.update phases r phase) (round ++ [write]) := by
  have hnow := hpresent
  rw [← underWay_snoc] at hnow
  refine ⟨?_, fun q hq => ?_, hnow, hfailed, fun part hpart => ?_⟩
  · intro other hother
    rcases List.mem_append.mp hother with hother | hother
    · exact h.about other hother
    · exact ⟨r, hr, List.mem_singleton.mp hother ▸ habout⟩
  · rw [entriesOf, List.filter_append, ← entriesOf, h.turns q hq]
    by_cases hqr : q = r
    · simp [hqr, habout, hwrites]
    · have hother : ¬ r.id = q.id := fun heq => hqr (Run.id_injective heq).symm
      simp [Function.update_of_ne hqr, habout, hother]
  · rcases List.prefix_concat_iff.mp hpart with rfl | hpart
    · refine ⟨?_, fun id hid => ?_⟩
      · rw [hnow.length_eq, List.length_map, ← List.countP_eq_length_filter]
        exact (List.countP_mono_left fun q _ => Phase.isOpen_of_isStarted).trans hfew
      · obtain ⟨q, hq, rfl⟩ := List.mem_map.mp (hnow.mem_iff.mp hid)
        exact ⟨q, (List.mem_filter.mp hq).1, rfl⟩
    · exact h.always part hpart

variable {κ : Type} [Recorder κ] {s : Setup} {before : List Ledger.Write} {w w' : World (Journal κ)}

/-- Every advance of a member is told. -/
theorem Chronicle.advance (h : Chronicle members room phases round) (hwrites : w.keeper.writes = before ++ round)
    (hnodup : members.Nodup) (hr : r ∈ members) (hsound : (phases r).Sound s r)
    (hadvance : Advance s Bench.Heeding r (phases r) phase w w')
    (hfew : members.countP (fun q => (Function.update phases r phase q).isOpen) ≤ room) :
    ∃ round', w'.keeper.writes = before ++ round' ∧ Chronicle members room (Function.update phases r phase) round' := by
  have hafter := hadvance.sound hsound
  generalize hphase : phases r = old at hadvance hsound
  have hposted : ∀ write, (Recorder.record w.keeper write).1.writes = before ++ (round ++ [write]) := by
    intro write
    rw [← List.append_assoc, ← hwrites]
    rfl
  have hpresent := h.present
  -- Advances that write nothing leave the round as it is; the others add their entry at its end.
  cases hadvance with
  | quiet _ _ _ hsame =>
      refine ⟨round, ?_, h.still (by rw [hphase]) (by rw [hphase]) (by rw [hphase])⟩
      rw [← hwrites]
      exact congrArg (fun view => view.1.writes) hsame
  | refuse => exact ⟨round, hwrites, h.still (by rw [hphase]; rfl) (by rw [hphase]; rfl) (by rw [hphase]; rfl)⟩
  | accept => exact ⟨round, hwrites, h.still (by rw [hphase]; rfl) (by rw [hphase]; rfl) (by rw [hphase]; rfl)⟩
  | simulate => exact ⟨round, hwrites, h.still (by rw [hphase]; rfl) (by rw [hphase]; rfl) (by rw [hphase]; rfl)⟩
  | count => exact ⟨round, hwrites, h.still (by rw [hphase]; rfl) (by rw [hphase]; rfl) (by rw [hphase]; rfl)⟩
  | skip record _ hdescribes =>
      refine ⟨_, hposted (.skip record), h.post hr (congrArg some hdescribes.2.1) (by rw [hphase]; rfl) ?_ ?_ hfew⟩
      · rw [filter_update_eq (by rw [hphase]; rfl)]
        exact hpresent
      · rw [filter_update_eq (by rw [hphase]; rfl), ← h.failed]
        simp [failures, Ledger.Write.ending?]
  | start record _ hdescribes =>
      refine ⟨_, hposted (.start record), h.post hr (congrArg some hdescribes.2.1) (by rw [hphase]; rfl) ?_ ?_ hfew⟩
      · have hjoins := filter_update_perm Phase.isStarted hnodup hr (.started record false)
          (congrArg Phase.isStarted hphase) rfl
        rw [Ledger.Write.shift, hdescribes.2.1]
        exact (hpresent.cons r.id).trans (hjoins.map Run.id).symm
      · rw [filter_update_eq (by rw [hphase]; rfl), ← h.failed]
        simp [failures, Ledger.Write.ending?]
  | succeed first last called _ hdescribes hstatus =>
      refine ⟨_, hposted (.finish last), h.post hr (congrArg some hdescribes.2.1) (by rw [hphase]; rfl) ?_ ?_ hfew⟩
      · have hleaves := filter_perm_update Phase.isStarted hnodup hr (.succeeded first last called)
          (congrArg Phase.isStarted hphase) rfl
        rw [Ledger.Write.shift, hdescribes.2.1]
        simpa using (hpresent.trans (hleaves.map Run.id)).erase r.id
      · rw [filter_update_eq (by rw [hphase]; rfl), ← h.failed]
        simp [failures, Ledger.Write.ending?, hstatus, succeeded_ne_failed]
  | fail first last fault called _ hdescribes hstatus =>
      refine ⟨_, hposted (.finish last), h.post hr (congrArg some hdescribes.2.1) (by rw [hphase]; rfl) ?_ ?_ hfew⟩
      · have hleaves := filter_perm_update Phase.isStarted hnodup hr (.failed first last fault called false)
          (congrArg Phase.isStarted hphase) rfl
        rw [Ledger.Write.shift, hdescribes.2.1]
        simpa using (hpresent.trans (hleaves.map Run.id)).erase r.id
      · have hjoins := filter_update_perm Phase.isFailed hnodup hr (.failed first last fault called false)
          (congrArg Phase.isFailed hphase) rfl
        rw [hjoins.length_eq, List.length_cons, ← h.failed]
        simp [failures, Ledger.Write.ending?, hstatus]

end

/-! ## A combination -/

section

variable {κ : Type}

/-- Whether a fault is that with which a run has failed. -/
def IsFailureOf (r : Run) (writes : List Ledger.Write) (fault : Fault) : Prop :=
  ∃ (record : RunRecord) (cause : Fault), .finish record ∈ writes ∧ record.runId = r.id ∧ record.status = RunStatus.failed ∧
    record.error = cause.message ∧ fault = cause.within ("run " ++ r.id)

/-- Where the members of a combination stand. While no failure is noted, all that have asked to go on and have not
ended well are under way; after that no other is let in. -/
structure Watch (s : Setup) (members : List Run) (room : Nat) (before : List Ledger.Write) (phases : Run → Phase)
    (active : List Run) (w : World (Journal κ)) : Prop where
  told : ∃ round, w.keeper.writes = before ++ round ∧ Chronicle members room phases round
  sound : ∀ r ∈ members, (phases r).Sound s r
  fits : active.length ≤ room
  few : members.countP (fun r => (phases r).isOpen) ≤ room
  loose : w.bench.failure = none → ∀ r ∈ members, (phases r).isLoose = true → r ∈ active
  refused : ∀ r ∈ members, phases r = .refused → w.bench.cancelled = true
  failure : ∀ fault, w.bench.failure = some fault → w.bench.interrupted = true ∨
    ∃ r ∈ members, ∃ first last cause called, phases r = .failed first last cause called true ∧
      fault = cause.within ("run " ++ r.id)
  tally : w.tally.failed = Int64.ofNat (members.countP fun r => (phases r).isCounted)

theorem cancelled_onward {w t : World (Journal κ)} (h : Onward w t) (hw : w.bench.cancelled = true) :
    t.bench.cancelled = true := by
  simp only [Bench.cancelled, Bool.or_eq_true, h.failure] at hw ⊢
  exact hw.imp_left h.interrupted

variable {s : Setup} {members : List Run} {room : Nat} {before : List Ledger.Write} {phases : Run → Phase}
  {active : List Run} {w t : World (Journal κ)} {r : Run} {phase : Phase}

theorem Watch.outside (h : Watch s members room before phases active w) (hwt : Onward w t) :
    Watch s members room before phases active t := by
  refine ⟨?_, h.sound, h.fits, h.few, ?_, fun r hr hrefused => ?_, ?_, hwt.tally.trans h.tally⟩
  · rw [hwt.writes]
    exact h.told
  · rw [hwt.failure]
    exact h.loose
  · exact cancelled_onward hwt (h.refused r hr hrefused)
  · intro fault hfault
    rw [hwt.failure] at hfault
    exact (h.failure fault hfault).imp_left hwt.interrupted

variable [Recorder κ]

/-- An advance leaves alone what the group has noted, and takes no interruption back. -/
theorem Advance.heeds {old : Phase} (h : Advance s Bench.Heeding r old phase w t) : Bench.Heeding true true w.bench t.bench := by
  cases h with
  | quiet _ _ _ hsame =>
      simp only [standing, Prod.mk.injEq] at hsame
      exact ⟨hsame.2.2.1, fun hin => hsame.2.2.2.1.trans hin⟩
  | simulate _ _ _ _ _ hmove => exact hmove
  | _ => exact ⟨rfl, id⟩

/-- Whoever may fail after an advance could do so before, or has just been let in beside the runs under way. -/
theorem Watch.few_advance (h : Watch s members room before phases (r :: active) w) (hnodup : members.Nodup)
    (hadvance : Advance s Bench.Heeding r (phases r) phase w t) :
    members.countP (fun q => (Function.update phases r phase q).isOpen) ≤ room := by
  have hothers : ∀ q, q ≠ r → (Function.update phases r phase q).isOpen = true → (phases q).isOpen = true := by
    intro q hq hopen
    rwa [Function.update_of_ne hq] at hopen
  by_cases hold : phase.isOpen = true → (phases r).isOpen = true
  · refine (List.countP_mono_left fun q _ hopen => ?_).trans h.few
    by_cases hq : q = r
    · rw [hq, Function.update_self] at hopen
      exact hq ▸ hold hopen
    · exact hothers q hq hopen
  · obtain ⟨hopen, hclosed⟩ := Classical.not_imp.mp hold
    have hcalm := (hadvance.open hopen).resolve_left hclosed
    have hnone : w.bench.failure = none := by
      simp only [Bench.cancelled, Bool.or_eq_false_iff, Option.isSome_eq_false_iff, Option.isNone_iff_eq_none] at hcalm
      exact hcalm.2
    have hsub : (members.filter fun q => (Function.update phases r phase q).isOpen) ⊆ r :: active := by
      intro q hq
      obtain ⟨hmem, hopen⟩ := List.mem_filter.mp hq
      by_cases hqr : q = r
      · exact hqr ▸ List.mem_cons_self
      · exact h.loose hnone q hmem (Phase.isLoose_of_isOpen (hothers q hqr hopen))
    rw [List.countP_eq_length_filter]
    exact ((hnodup.filter _).subperm hsub).length_le.trans h.fits

/-- Every advance of a member under way keeps the watch. -/
theorem Watch.advance (h : Watch s members room before phases (r :: active) w) (hnodup : members.Nodup)
    (hr : r ∈ members) (hadvance : Advance s Bench.Heeding r (phases r) phase w t) :
    Watch s members room before (Function.update phases r phase) (r :: active) t := by
  obtain ⟨hfailure, hinterrupted⟩ := hadvance.heeds
  have hcancelled : w.bench.cancelled = true → t.bench.cancelled = true := by
    simp only [Bench.cancelled, Bool.or_eq_true, hfailure]
    exact fun hw => hw.imp_left hinterrupted
  have hfew := h.few_advance hnodup hadvance
  obtain ⟨round, hwrites, htold⟩ := h.told
  -- Whatever is said of the others stays; what is said of the run itself comes from its advance.
  refine ⟨htold.advance hwrites hnodup hr (h.sound r hr) hadvance hfew, fun q hq => ?_, h.fits, hfew, ?_, ?_, ?_, ?_⟩
  · by_cases hqr : q = r
    · rw [hqr, Function.update_self]
      exact hadvance.sound (h.sound r hr)
    · rw [Function.update_of_ne hqr]
      exact h.sound q hq
  · intro hnone q hq hloose
    by_cases hqr : q = r
    · exact hqr ▸ List.mem_cons_self
    · rw [Function.update_of_ne hqr] at hloose
      exact h.loose (hfailure ▸ hnone) q hq hloose
  · intro q hq hrefused
    by_cases hqr : q = r
    · rw [hqr, Function.update_self] at hrefused
      exact hcancelled ((hadvance.refused hrefused).elim (h.refused r hr) id)
    · rw [Function.update_of_ne hqr] at hrefused
      exact hcancelled (h.refused q hq hrefused)
  · intro fault hfault
    rw [hfailure] at hfault
    refine (h.failure fault hfault).imp hinterrupted ?_
    rintro ⟨q, hq, first, last, cause, called, hphase, rfl⟩
    refine ⟨q, hq, first, last, cause, called, ?_, rfl⟩
    by_cases hqr : q = r
    · subst hqr
      rw [hphase] at hadvance
      rw [Function.update_self, hadvance.failed]
    · rw [Function.update_of_ne hqr, hphase]
  · rw [List.countP_eq_length_filter]
    rcases hadvance.tally with ⟨hsame, hphase⟩ | ⟨hmore, hold, hnew⟩
    · rw [filter_update_eq hphase, hsame, h.tally, List.countP_eq_length_filter]
    · rw [(filter_update_perm Phase.isCounted hnodup hr phase hold hnew).length_eq, hmore, h.tally,
        List.countP_eq_length_filter, List.length_cons, Int64.ofNat_add]
      rfl

omit [Recorder κ] in
/-- The note of a result keeps the watch on the others. -/
theorem Watch.note {result : Option Fault} (h : Watch s members room before phases (r :: active) w) (hr : r ∈ members)
    (hends : Phase.Ends r result (phases r)) :
    Watch s members room before phases active (World.noteFailure result w) := by
  refine ⟨h.told, h.sound, (Nat.le_succ _).trans h.fits, h.few, ?_, ?_, ?_, h.tally⟩
  · intro hnone q hq hloose
    obtain ⟨hbefore, hresult⟩ := Option.or_eq_none_iff.mp hnone
    refine (List.mem_cons.mp (h.loose hbefore q hq hloose)).resolve_left ?_
    rintro rfl
    -- Whoever has no failure to note is not loose.
    subst hresult
    generalize phases q = phase at hends hloose
    cases hends <;> cases hloose
  · intro q hq hrefused
    have hbefore := h.refused q hq hrefused
    simp only [Bench.cancelled, Bool.or_eq_true, World.noteFailure, Bench.noteFailure] at hbefore ⊢
    exact hbefore.imp_right fun hsome => by simp [hsome]
  · intro fault hfault
    cases hbefore : w.bench.failure with
    | some first =>
        simp only [World.noteFailure, Bench.noteFailure, hbefore, Option.some_or, Option.some.injEq] at hfault
        exact hfault ▸ h.failure first hbefore
    | none =>
        simp only [World.noteFailure, Bench.noteFailure, hbefore, Option.none_or] at hfault
        subst hfault
        generalize hphase : phases r = phase at hends
        cases hends with
        | refused =>
            have hcancelled := h.refused r hr hphase
            simp only [Bench.cancelled, hbefore, Option.isSome_none, Bool.or_false] at hcancelled
            exact Or.inl hcancelled
        | failed first last cause called => exact Or.inr ⟨r, hr, first, last, cause, called, hphase, rfl⟩

theorem watch_supervised (hnodup : members.Nodup) :
    Group.Supervised World.noteFailure Onward (Advance s Bench.Heeding) Phase.Ends
      (fun r phase => ∃ result, Phase.Ends r result phase) room members
      (Watch s members room before : (Run → Phase) → List Run → World (Journal κ) → Prop) where
  perm phases active others w h hperm :=
    ⟨h.told, h.sound, hperm.length_eq ▸ h.fits, h.few, fun hnone r hr hloose =>
      hperm.mem_iff.mp (h.loose hnone r hr hloose), h.refused, h.failure, h.tally⟩
  outside _ _ _ _ h hwt := h.outside hwt
  accept phases r active w _ hroom h :=
    ⟨h.told, h.sound, hroom, h.few, fun hnone q hq hloose => List.mem_cons_of_mem r (h.loose hnone q hq hloose),
      h.refused, h.failure, h.tally⟩
  move phases r active phase w t hr h hadvance := h.advance hnodup hr hadvance
  note phases r active result w hr h hends :=
    ⟨phases r, ⟨result, hends⟩, by simpa using h.note hr hends⟩

end

end Sweep

end MobilitySweep
