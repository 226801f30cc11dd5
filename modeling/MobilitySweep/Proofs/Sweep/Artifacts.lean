import MobilitySweep.Proofs.Files.Homes
import MobilitySweep.Proofs.Files.Names
import MobilitySweep.Proofs.Sweep.Naming
import MobilitySweep.Sweep.Execution

/-! # The files of a run

A run can leave eight files behind: trace, configuration, log and archive, drafts of them under temporary
names, and the log of a failed simulation. Their names tell what they are and whose, so that no two of them
share a home.
-/

namespace MobilitySweep

/-- A file that a run can leave behind. -/
inductive Artifact where
  | trace
  | traceDraft
  | config
  | configDraft
  | log
  | archive
  | archiveDraft
  | failedLog
deriving DecidableEq, Repr

namespace Artifact

/-- All files that a run can leave behind. -/
def all : List Artifact := [trace, traceDraft, config, configDraft, log, archive, archiveDraft, failedLog]

theorem mem_all (a : Artifact) : a ∈ all := by cases a <;> decide

instance decidableForall {p : Artifact → Prop} [DecidablePred p] : Decidable (∀ a, p a) :=
  decidable_of_iff (∀ a ∈ all, p a) ⟨fun h a => h a (mem_all a), fun h a _ => h a⟩

/-- Where the file of a run is written. -/
def path (l : Layout) (r : Run) : Artifact → Bytes
  | trace => l.tracePath r
  | traceDraft => l.tracePath r ++ Archive.temporaryEnding
  | config => l.path (l.configRelative r)
  | configDraft => l.path (l.configRelative r) ++ Archive.temporaryEnding
  | log => l.path (l.logRelative r)
  | archive => Archive.pathFor (l.path (l.logRelative r))
  | archiveDraft => Archive.pathFor (l.path (l.logRelative r)) ++ Archive.temporaryEnding
  | failedLog => l.path (l.logRelative r) ++ Sweep.failedEnding

/-- The beginning of the name, in front of the identifier of the run. -/
def stem : Artifact → Bytes
  | trace | traceDraft => "pos_"
  | config | configDraft => "sim_"
  | log | archive | archiveDraft | failedLog => "log"

/-- The end of the name, behind the first dot. -/
def ending : Artifact → Bytes
  | trace | log => "txt"
  | traceDraft => "txt.tmp"
  | config => "csc"
  | configDraft => "csc.tmp"
  | archive => "txt.gz"
  | archiveDraft => "txt.gz.tmp"
  | failedLog => "txt.failed"

/-- The name of the file of a run. -/
def name (a : Artifact) (r : Run) : Bytes := a.stem ++ r.id ++ ('.' : UInt8) :: a.ending

end Artifact

namespace Run

/-- Identifiers are made of digits, minus signs and underscores. -/
theorem mem_id {r : Run} {b : UInt8} (hb : b ∈ r.id) : b = 95 ∨ b = 45 ∨ Bytes.isDigit b := by
  have hseparator : (("_" : String) : Bytes) = [95] := by decide +kernel
  have hnumber : ∀ n, b ∈ Decimal.ofInt64 n → b = 95 ∨ b = 45 ∨ Bytes.isDigit b :=
    fun _ h => Or.inr (Decimal.sign_or_isDigit_of_mem_ofInt64 h)
  simp only [id, Params.toText, hseparator, List.mem_append, List.mem_singleton] at hb
  rcases hb with (((((h | h) | h) | h) | h) | h) | h
  · exact hnumber _ h
  · exact Or.inl h
  · exact hnumber _ h
  · exact Or.inl h
  · exact hnumber _ h
  · exact Or.inl h
  · exact hnumber _ h

theorem dot_notMem_id (r : Run) : ('.' : UInt8) ∉ r.id := by
  intro hmem
  rcases mem_id hmem with h | h | h <;> exact absurd h (by decide)

theorem length_id_le (r : Run) : r.id.length ≤ 83 := by
  have hseparator : (("_" : String) : Bytes).length = 1 := by decide +kernel
  have hnode := Decimal.length_ofInt64_le r.params.nodeDistance
  have hswap := Decimal.length_ofInt64_le r.params.swapCouples
  have hshuffle := Decimal.length_ofInt64_le r.params.shuffleDistance
  have hrepetition := Decimal.length_ofInt64_le r.repetition
  simp only [id, Params.toText, List.length_append, hseparator]
  omega

theorem slash_notMem_id (r : Run) : ('/' : UInt8) ∉ r.id := by
  intro hmem
  rcases mem_id hmem with h | h | h <;> exact absurd h (by decide)

end Run

namespace Artifact

theorem plain_name (a : Artifact) (r : Run) : Path.Plain (a.name r) := by
  have hstem : ∃ b rest, a.stem = b :: rest ∧ b ≠ ('.' : UInt8) := by
    cases a <;> exact ⟨_, _, rfl, by decide⟩
  obtain ⟨b, rest, hstem, hb⟩ := hstem
  have hfirst : a.name r = b :: (rest ++ r.id ++ ('.' : UInt8) :: a.ending) := by simp [name, hstem]
  refine ⟨by simp [hfirst], fun hslash => ?_, fun heq => ?_, fun heq => ?_⟩
  · simp only [name, List.mem_append, List.mem_cons] at hslash
    rcases hslash with (h | h) | h | h
    · cases a <;> exact absurd h (by decide +kernel)
    · exact r.slash_notMem_id h
    · exact absurd h (by decide)
    · cases a <;> exact absurd h (by decide +kernel)
  · exact hb (List.cons.inj (hfirst.symm.trans heq)).1
  · exact hb (List.cons.inj (hfirst.symm.trans heq)).1

theorem length_name_le (a : Artifact) (r : Run) : (a.name r).length ≤ 98 := by
  have hid := r.length_id_le
  have hstem : a.stem.length ≤ 4 := by cases a <;> decide +kernel
  have hending : a.ending.length ≤ 10 := by cases a <;> decide +kernel
  simp only [name, List.length_append, List.length_cons]
  omega

/-- The path of a file ends in its name. -/
theorem endsIn_path (l : Layout) (r : Run) (a : Artifact) : Path.EndsIn (a.name r) (a.path l r) := by
  have htrace : Path.EndsIn (trace.name r) (l.tracePath r) := by
    refine (Path.EndsIn.join ?_ (trace.plain_name r) l.positions).join (trace.plain_name r) l.root
    exact Or.inl rfl
  have hconfig : Path.EndsIn (config.name r) (l.path (l.configRelative r)) := by
    refine (Path.EndsIn.join ?_ (config.plain_name r) l.configs).join (config.plain_name r) l.root
    exact Or.inl rfl
  have hlog : Path.EndsIn (log.name r) (l.path (l.logRelative r)) := by
    refine (Path.EndsIn.join ?_ (log.plain_name r) l.results).join (log.plain_name r) l.root
    exact Or.inl rfl
  have hname : ∀ (a b : Artifact) (ending : Bytes), a.stem = b.stem → a.ending ++ ending = b.ending →
      a.name r ++ ending = b.name r := by
    intro a b ending hstem hending
    simp [name, hstem, ← hending]
  cases a with
  | trace => exact htrace
  | traceDraft =>
      rw [← hname trace traceDraft Archive.temporaryEnding rfl (by decide +kernel)]
      exact htrace.append _
  | config => exact hconfig
  | configDraft =>
      rw [← hname config configDraft Archive.temporaryEnding rfl (by decide +kernel)]
      exact hconfig.append _
  | log => exact hlog
  | archive =>
      rw [← hname log archive Archive.ending rfl (by decide +kernel)]
      exact hlog.append _
  | archiveDraft =>
      rw [← hname archive archiveDraft Archive.temporaryEnding rfl (by decide +kernel),
        ← hname log archive Archive.ending rfl (by decide +kernel)]
      exact (hlog.append _).append _
  | failedLog =>
      rw [← hname log failedLog Sweep.failedEnding rfl (by decide +kernel)]
      exact hlog.append _

/-- A name tells what a file is, and whose. -/
theorem name_inj {a b : Artifact} {r s : Run} (h : a.name r = b.name s) : a = b ∧ r = s := by
  have hdot : ∀ (a : Artifact) (r : Run), ('.' : UInt8) ∉ a.stem ++ r.id := by
    intro a r hmem
    rcases List.mem_append.mp hmem with hmem | hmem
    · cases a <;> exact absurd hmem (by decide +kernel)
    · exact r.dot_notMem_id hmem
  obtain ⟨hfront, hending⟩ := Run.append_separator_inj (hdot a r) (hdot b s) h
  -- The endings leave only traces and logs to tell apart, and those begin differently.
  have hkind : a = b := by
    cases a <;> cases b <;> first
      | rfl
      | exact absurd hending (by decide +kernel)
      | exact absurd (congrArg List.head? hfront) (by simp [stem, Bytes.ofString, String.utf8EncodeChar])
  subst hkind
  exact ⟨rfl, Run.id_injective (List.append_cancel_left hfront)⟩

/-- The path of a file tells the file and the run, whatever the directories of the layout are. -/
theorem path_eq_path_iff (l : Layout) {a b : Artifact} {r s : Run} : a.path l r = b.path l s ↔ a = b ∧ r = s := by
  constructor
  · intro hpath
    -- However a path is cleaned, the last of its names is that of the file.
    have hlast := (endsIn_path l r a).getLast?_names (a.plain_name r)
    rw [hpath, (endsIn_path l s b).getLast?_names (b.plain_name s)] at hlast
    exact name_inj (Option.some.inj hlast).symm
  · rintro ⟨rfl, rfl⟩
    rfl

/-! ## Homes -/

/-- The home of a file of a run, if its path leads anywhere. -/
def home (base : Files) (l : Layout) (r : Run) (a : Artifact) : Option Place := base.homeOf (a.path l r)

variable {base : Files} {l : Layout}

/-- A home bears the name of its file. -/
theorem getLast?_home (hbase : base.WellFormed) {a : Artifact} {r : Run} {place : Place}
    (h : place ∈ a.home base l r) : place.getLast? = some (a.name r) :=
  (Files.resolve_homeOf hbase (a.plain_name r) (endsIn_path l r a) h).1

/-- No two files share a home. -/
theorem home_inj (hbase : base.WellFormed) {a b : Artifact} {r s : Run} {place : Place}
    (ha : place ∈ a.home base l r) (hb : place ∈ b.home base l s) : a = b ∧ r = s :=
  name_inj (Option.some.inj ((getLast?_home hbase ha).symm.trans (getLast?_home hbase hb)))

theorem home_ne (hbase : base.WellFormed) {a b : Artifact} {r s : Run} (hab : a ≠ b) :
    ∀ old ∈ a.home base l r, ∀ new ∈ b.home base l s, old ≠ new := by
  rintro old hold new hnew rfl
  exact hab (home_inj hbase hold hnew).1

/-- The path of a file leads to its home. -/
theorem resolve_home (hbase : base.WellFormed) {a : Artifact} {r : Run} {place : Place} (h : place ∈ a.home base l r) :
    base.resolve false (a.path l r) = .ok (base.spotAt place) :=
  (Files.resolve_homeOf hbase (a.plain_name r) (endsIn_path l r a) h).2

/-- A file whose path leads neither to a link nor to one of several names of a file lives at its home. -/
theorem lodged_home (hbase : base.WellFormed) {a : Artifact} {r : Run}
    (hlink : ∀ target, base.linkStat (a.path l r) ≠ .ok (.link target))
    (hsole : ∀ place ∈ a.home base l r, base.IsSole place) : Files.Lodged base (a.path l r) (a.home base l r) :=
  Files.lodged_homeOf hbase (a.plain_name r) (endsIn_path l r a) hlink hsole

/-- Whether a place is the home of some file of a run. -/
def Owned (base : Files) (l : Layout) (r : Run) (place : Place) : Prop := ∃ a : Artifact, place ∈ a.home base l r

/-- Different runs own different places. -/
theorem Owned.unique (hbase : base.WellFormed) {r s : Run} {place : Place} (hr : Owned base l r place)
    (hs : Owned base l s place) : r = s := by
  obtain ⟨a, ha⟩ := hr
  obtain ⟨b, hb⟩ := hs
  exact (home_inj hbase ha hb).2

end Artifact

end MobilitySweep
