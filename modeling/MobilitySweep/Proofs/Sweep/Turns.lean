import MobilitySweep.Proofs.Sweep.Work

/-! # Turns of runs

When its turn comes, a run is passed over, skipped, or worked through with one of two outcomes. What it came to
can be told from its own files and from the writes about it, however many others have their turns meanwhile.
-/

namespace MobilitySweep

namespace Sweep

variable {κ : Type}

/-- A memory of the writes to a keeper: it gets all of them, or none if it does not attend. -/
def Remembers [Recorder κ] (memory : κ → List Ledger.Write) (attentive : Bool) : Prop :=
  ∀ k write, memory (Recorder.record k write).1 = memory k ++ [write].filter fun _ => attentive

/-- What the turn of a run came to, with its result. The writes about the run are the new ones behind the old. -/
inductive Turn (s : Setup) (template : Option Template) (base : Files) (good : Run → Bytes → Option Entry → Prop)
    (memory : κ → List Ledger.Write) (attentive : Bool) (r : Run) (w t : World κ) : Option Fault → Prop where
  | cancelled (fault : Fault) (h : Stays memory base s.config.layout r [] w t) :
      Turn s template base good memory attentive r w t (some fault)
  | skipped (record : RunRecord) (hresume : s.config.sweep.resume = true)
      (hmark : (markerOf s template).entry base s.config.layout r w.bench.files ≠ none)
      (hfiles : ∀ a : Artifact, a.entry base s.config.layout r t.bench.files =
        a.entry base s.config.layout r w.bench.files)
      (hmemory : writesAbout memory r t = writesAbout memory r w ++ [.skip record].filter fun _ => attentive) :
      Turn s template base good memory attentive r w t none
  | succeeded (first last : RunRecord) (hstatus : last.status = RunStatus.succeeded)
      (hmark : s.config.sweep.resume = true →
        (markerOf s template).entry base s.config.layout r w.bench.files = none)
      (hcomplete : Complete s template base good r t.bench.files)
      (hkept : ∀ a ∉ reach s template, a.entry base s.config.layout r t.bench.files =
        a.entry base s.config.layout r w.bench.files)
      (hmemory : writesAbout memory r t =
        writesAbout memory r w ++ [.start first, .finish last].filter fun _ => attentive) :
      Turn s template base good memory attentive r w t none
  | failed (first last : RunRecord) (fault : Fault) (hstatus : last.status = RunStatus.failed)
      (hmark : s.config.sweep.resume = true →
        (markerOf s template).entry base s.config.layout r w.bench.files = none)
      (hunmarked : Retractable s template base r → Unmarked s template base r w.bench.files t.bench.files)
      (hmemory : writesAbout memory r t =
        writesAbout memory r w ++ [.start first, .finish last].filter fun _ => attentive) :
      Turn s template base good memory attentive r w t (some fault)

/-- What happened elsewhere before a turn makes no difference to it. -/
theorem Turn.of_stays {s : Setup} {template : Option Template} {base : Files}
    {good : Run → Bytes → Option Entry → Prop} {memory : κ → List Ledger.Write} {attentive : Bool} {r : Run}
    {w u t : World κ} {result : Option Fault} (hbase : base.WellFormed)
    (hturn : Turn s template base good memory attentive r u t result)
    (h : Stays memory base s.config.layout r [] w u) : Turn s template base good memory attentive r w t result := by
  have hentry : ∀ a : Artifact, a.entry base s.config.layout r u.bench.files =
      a.entry base s.config.layout r w.bench.files := fun _ => h.entry hbase (by simp)
  cases hturn with
  | cancelled fault hstays => exact .cancelled fault (h.trans hstays)
  | skipped record hresume hmark hfiles hmemory =>
      refine .skipped record hresume ?_ (fun a => (hfiles a).trans (hentry a)) ?_
      · rwa [← hentry]
      · rw [hmemory, h.memory]
  | succeeded first last hstatus hmark hcomplete hkept hmemory =>
      refine .succeeded first last hstatus (fun hresume => ?_) hcomplete (fun a ha => ?_) ?_
      · rw [← hentry, hmark hresume]
      · rw [hkept a ha, hentry]
      · rw [hmemory, h.memory]
  | failed first last fault hstatus hmark hunmarked hmemory =>
      refine .failed first last fault hstatus (fun hresume => ?_)
        (fun hfailed => ⟨fun hthere => ?_, (hunmarked hfailed).log⟩) ?_
      · rw [← hentry, hmark hresume]
      · rw [← hentry]
        exact (hunmarked hfailed).mark hthere
      · rw [hmemory, h.memory]

/-- What records add to the writes about a run, while its files are left alone. -/
structure Noted (memory : κ → List Ledger.Write) (base : Files) (l : Layout) (r : Run) (writes : List Ledger.Write)
    (w t : World κ) : Prop where
  files : Files.Spares (Artifact.Owned base l r) w.bench.files t.bench.files
  eventPaths : t.eventPaths = w.eventPaths
  memory : writesAbout memory r t = writesAbout memory r w ++ writes

section

variable {memory : κ → List Ledger.Write} {base : Files} {l : Layout} {r : Run} {writes : List Ledger.Write}
  {w t u : World κ}

theorem Noted.entry (h : Noted memory base l r writes w t) (a : Artifact) :
    a.entry base l r t.bench.files = a.entry base l r w.bench.files :=
  Artifact.entry_congr fun _ hplace => h.files.get? ⟨a, hplace⟩

theorem Noted.trans {more : List Ledger.Write} (h : Noted memory base l r writes w t)
    (h' : Noted memory base l r more t u) : Noted memory base l r (writes ++ more) w u :=
  ⟨h.files.trans h'.files, h'.eventPaths.trans h.eventPaths, by rw [h'.memory, h.memory, List.append_assoc]⟩

theorem Stays.noted (h : Stays memory base l r [] w t) : Noted memory base l r [] w t := by
  refine ⟨h.files.mono ?_, h.eventPaths, by rw [h.memory, List.append_nil]⟩
  rintro place (⟨a, ha, -⟩ | hnot)
  · cases ha
  · exact hnot

theorem Noted.later {paths : List Bytes} (h : Noted memory base l r writes w t) (hw : Later base paths w) :
    Later base paths t :=
  ⟨hw.files.trans h.files.since, h.eventPaths.trans hw.eventPaths⟩

theorem Noted.stays (h : Noted memory base l r writes w t) (hu : Stays memory base l r [] t u) :
    Noted memory base l r writes w u := by
  simpa using h.trans hu.noted

end

section

variable [Recorder κ] {memory : κ → List Ledger.Write} {attentive : Bool} {base : Files} {paths : List Bytes}
  {l : Layout} {runs : List Run} {r : Run} {w : World κ}

theorem writesAbout_record (hmemory : Remembers memory attentive) (x : Run) (w : World κ) (write : Ledger.Write) :
    writesAbout memory x { w with keeper := (Recorder.record w.keeper write).1 } =
      writesAbout memory x w ++ ([write].filter (·.runId? = some x.id)).filter fun _ => attentive := by
  rw [writesAbout, hmemory, List.filter_append, List.filter_comm]
  rfl

/-- A write about a run is remembered behind the others. -/
theorem record_works (hmemory : Remembers memory attentive) (logger : Log.Logger) {write : Ledger.Write}
    (hwrite : write.runId? = some r.id) :
    Steps.Ensures (Bears memory base l r) (Acts memory base l r)
      (fun _ t => Noted memory base l r ([write].filter fun _ => attentive) w t) (World.record logger write) w := by
  intro t ht
  refine ⟨⟨Files.Alike.refl _ _, rfl, id, fun x hx => ?_⟩, ?_⟩
  · have hne : ¬ r.id = x.id := fun hid => hx (Run.id_injective hid).symm
    exact (writesAbout_record hmemory x t write).trans (by simp [hwrite, hne])
  · have hnoted : Noted memory base l r ([write].filter fun _ => attentive) w
        { t with keeper := (Recorder.record t.keeper write).1 } := by
      refine ⟨ht.files, ht.eventPaths, ?_⟩
      rw [writesAbout_record hmemory, ht.memory]
      simp [hwrite]
    dsimp only
    cases (Recorder.record t.keeper write).2 with
    | some fault => exact (ensures_aside (keeps_common_note _ _ _ _)).weaken fun _ _ => hnoted.stays
    | none => exact Steps.ensures_pure fun u hu => hnoted.stays hu.stays

section

variable {s : Setup} {template : Option Template} {good : Run → Bytes → Option Entry → Prop}

/-- A run that is skipped. -/
theorem skip_turns (hmemory : Remembers memory attentive) (hbase : base.WellFormed) (hfiled : FiledAt base paths)
    (hlater : Later base paths w) (logger : Log.Logger) (path : Bytes) (startedAt : Instant)
    (hresume : s.config.sweep.resume = true)
    (hmark : (markerOf s template).entry base s.config.layout r w.bench.files ≠ none) :
    Steps.Ensures (Bears memory base s.config.layout r) (Acts memory base s.config.layout r)
      (fun result t => Turn s template base good memory attentive r w t result)
      (skip s logger r path (recordOf s r startedAt)) w := by
  have hrefl := Bears.refl memory base s.config.layout r
  unfold skip
  refine (ensures_aside (keeps_common_note _ _ _ _)).bind hrefl ?_
  intro _ t ht
  refine (record_works hmemory s.logger ?_).bind hrefl ?_
  · split <;> rfl
  intro _ u hu
  refine (ensures_event hbase hfiled (hu.later (ht.later hlater)) _ _ _).bind hrefl ?_
  intro _ v hv
  refine (ensures_aside (keeps_common_count _)).bind hrefl ?_
  intro _ x hx
  refine Steps.ensures_pure fun y hy => ?_
  have hnoted := (((ht.noted.trans hu).stays hv).stays hx).stays hy.stays
  exact .skipped _ hresume hmark hnoted.entry hnoted.memory

/-- The end of a run put on record. -/
theorem finish_works (hmemory : Remembers memory attentive) (hbase : base.WellFormed) (hfiled : FiledAt base paths)
    (hlater : Later base paths w) (main logger : Log.Logger) {last : RunRecord}
    (hlast : last.runId = r.id) (kind : Bytes) (fields : List (Bytes × Json)) (level : Log.Level)
    (message : Bytes) (attributes : List (Bytes × Log.Value)) (f : Tally → Tally) (result : Option Fault) :
    Steps.Ensures (Bears memory base l r) (Acts memory base l r)
      (fun result' t => result' = result ∧ Noted memory base l r ([.finish last].filter fun _ => attentive) w t)
      (World.record main (.finish last) >>= fun _ => World.event kind r.id fields >>= fun _ =>
        World.note logger level message attributes >>= fun _ => World.count f >>= fun _ => pure result) w := by
  have hrefl := Bears.refl memory base l r
  have hwrite : (Ledger.Write.finish last).runId? = some r.id := congrArg some hlast
  refine (record_works hmemory main hwrite).bind hrefl ?_
  intro _ t ht
  refine (ensures_event hbase hfiled (ht.later hlater) _ _ _).bind hrefl ?_
  intro _ u hu
  refine (ensures_aside (keeps_common_note _ _ _ _)).bind hrefl ?_
  intro _ v hv
  refine (ensures_aside (keeps_common_count _)).bind hrefl ?_
  intro _ x hx
  exact Steps.ensures_pure fun y hy => ⟨rfl, (((ht.stays hu).stays hv).stays hx).stays hy.stays⟩

/-- A run that is worked through. -/
theorem launch_turns (hmemory : Remembers memory attentive) (hclear : Clear base s.config.layout runs)
    (hfiled : FiledAt base paths) (hr : r ∈ runs)
    (hsimulator : ∀ simulator ∈ s.simulator, simulator.KeepsTo base s.config.layout runs good)
    (hlater : Later base paths w) (logger : Log.Logger) (startedAt : Instant)
    (hmark : s.config.sweep.resume = true →
      (markerOf s template).entry base s.config.layout r w.bench.files = none) :
    Steps.Ensures (Bears memory base s.config.layout r) (Acts memory base s.config.layout r)
      (fun result t => Turn s template base good memory attentive r w t result)
      (launch s template logger r (recordOf s r startedAt)) w := by
  have hrefl := Bears.refl memory base s.config.layout r
  unfold launch
  refine (ensures_aside (keeps_common_note _ _ _ _)).bind hrefl ?_
  intro _ t ht
  refine (record_works hmemory s.logger rfl).bind hrefl ?_
  intro _ u hu
  refine (ensures_event hclear.wellFormed hfiled (hu.later (ht.later hlater)) _ _ _).bind hrefl ?_
  intro _ v hv
  have hstarted := (ht.noted.trans hu).stays hv
  have hlater' := hstarted.later hlater
  refine (perform_works hclear hr hsimulator hlater'.files logger startedAt).bind hrefl ?_
  rintro ⟨filled, fault⟩ x ⟨hid, hcomplete, hunmarked, hreach⟩
  refine (ensures_aside keeps_common_now).bind hrefl ?_
  intro finishedAt y hy
  have hworked := hy.later (hreach.later hlater')
  -- Start and end of the run are the two writes about it.
  have hended : ∀ {last : RunRecord} {z : World κ},
      Noted memory base s.config.layout r ([.finish last].filter fun _ => attentive) y z →
      (∀ a : Artifact, a.entry base s.config.layout r z.bench.files = a.entry base s.config.layout r x.bench.files) ∧
        writesAbout memory r z = writesAbout memory r w ++
          [.start (recordOf s r startedAt), .finish last].filter fun _ => attentive := by
    intro last z hz
    refine ⟨(hy.noted.trans hz).entry, ?_⟩
    rw [hz.memory, hy.memory, hreach.memory, hstarted.memory, List.append_assoc, List.nil_append, ← List.filter_append]
    rfl
  cases fault with
  | some fault =>
      refine (finish_works hmemory hclear.wellFormed hfiled hworked s.logger logger ?_ _ _ _ _ _ _ _).weaken ?_
      · exact hid
      rintro _ z ⟨rfl, hz⟩
      obtain ⟨hentry, hlast⟩ := hended hz
      refine .failed _ _ _ (by rfl) hmark (fun hfailed => ⟨fun hthere => ?_, fun hplain hfree => ?_⟩) hlast
      · rw [hentry] at hthere
        have hbefore := (hunmarked (by simp) hfailed).mark hthere
        rwa [hstarted.entry] at hbefore
      · rw [hentry]
        exact (hunmarked (by simp) hfailed).log hplain hfree
  | none =>
      refine (finish_works hmemory hclear.wellFormed hfiled hworked s.logger logger ?_ _ _ _ _ _ _ _).weaken ?_
      · exact hid
      rintro _ z ⟨rfl, hz⟩
      obtain ⟨hentry, hlast⟩ := hended hz
      refine .succeeded _ _ (by rfl) hmark ((hcomplete rfl).congr hentry) (fun a ha => ?_) hlast
      rw [hentry, hreach.entry hclear.wellFormed ha, hstarted.entry]

/-- When its turn comes, a run is passed over, skipped or worked through. Only if it is worked through need its tree be
clear. -/
theorem task_turns (hmemory : Remembers memory attentive) (hunlinked : Unlinked base s.config.layout runs)
    (hfiled : FiledAt base paths)
    (hclear : (s.config.sweep.resume = true → (markerOf s template).entry base s.config.layout r w.bench.files = none) →
      Clear base s.config.layout runs) (hr : r ∈ runs)
    (hsimulator : ∀ simulator ∈ s.simulator, simulator.KeepsTo base s.config.layout runs good)
    (hlater : Later base paths w) :
    Steps.Ensures (Bears memory base s.config.layout r) (Acts memory base s.config.layout r)
      (fun result t => Turn s template base good memory attentive r w t result) (task s template r) w := by
  have hrefl := Bears.refl memory base s.config.layout r
  unfold task
  refine (ensures_aside (Steps.keeps_look _)).bind hrefl ?_
  intro cancelled t ht
  cases cancelled with
  | true => exact Steps.ensures_pure fun u hu => .cancelled _ (ht.trans hu.stays)
  | false =>
      simp only [Bool.false_eq_true, if_false, execute]
      refine (ensures_aside keeps_common_now).bind hrefl ?_
      intro startedAt u hu
      have hearlier := ht.trans hu
      have hlater' := hearlier.later hlater
      have hbase := hunlinked.wellFormed
      -- Only a sweep that resumes looks for the mark of the run.
      split
      next hresume =>
        rw [marker_eq]
        refine (ensures_onFiles (exists_works (hunlinked.lodged hr (Files.Alike.refl _ _) _) hlater'.files)).bind hrefl ?_
        rintro done v ⟨hdone, hv⟩
        have hsame : (markerOf s template).entry base s.config.layout r v.bench.files =
            (markerOf s template).entry base s.config.layout r u.bench.files := hv.entry hbase (by simp)
        split
        next hthere =>
          exact (skip_turns hmemory hbase hfiled (hv.later hlater') _ _ startedAt hresume (hsame ▸ hdone.mp hthere)).weaken
            fun _ _ hturn => hturn.of_stays hbase (hearlier.trans hv)
        next hmissing =>
          have hnone : (markerOf s template).entry base s.config.layout r u.bench.files = none := by
            simpa using fun hne => hmissing (hdone.mpr hne)
          have hclear' := hclear fun _ => (hearlier.entry hbase (by simp)).symm.trans hnone
          exact (launch_turns hmemory hclear' hfiled hr hsimulator (hv.later hlater') _ startedAt
            fun _ => hsame.trans hnone).weaken fun _ _ hturn => hturn.of_stays hbase (hearlier.trans hv)
      next hfresh =>
        have hclear' := hclear fun hresume => absurd hresume hfresh
        exact (launch_turns hmemory hclear' hfiled hr hsimulator hlater' _ startedAt
          fun hresume => absurd hresume hfresh).weaken fun _ _ hturn => hturn.of_stays hbase hearlier

end

end

end Sweep

end MobilitySweep
