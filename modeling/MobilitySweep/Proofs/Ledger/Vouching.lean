import MobilitySweep.Proofs.Ledger.Consistency

/-! # What opening a ledger vouches for

A ledger that is opened holds the rows that were stored, and its version is known. If a version was stored with them,
moreover, every run belongs to a sweep. Without any version the check is passed over, and strays come through. Whatever
comes of it, the rows of all ledgers in the tree stay as they are.
-/

namespace MobilitySweep

namespace Ledger

open Files

namespace Tables

variable {t : Tables}

/-- The runs that are told to have no sweep are those that have none. -/
theorem orphans_isEmpty_iff : t.orphans.isEmpty = true ↔ t.Housed := by
  rw [List.isEmpty_iff, orphans, List.filterMap_eq_nil_iff]
  refine ⟨fun h row hrow => ?_, fun h entry hentry => ?_⟩
  · obtain ⟨index, hindex, rfl⟩ := List.mem_iff_getElem.mp hrow
    have hentry := h (t.runs[index], index + 1) (List.mk_mem_zipIdx_iff_le_and_getElem?_sub.mpr (by simp [hindex]))
    by_contra hnot
    simp [hnot] at hentry
  · simp [h entry.1 (List.fst_mem_of_mem_zipIdx hentry)]

/-- The version of tables is their highest one. -/
theorem le_of_version? {version other : Int} (h : t.version? = some version) (hother : other ∈ t.versions) :
    other ≤ version :=
  (List.max?_eq_some_iff.mp h).2 other hother

end Tables

section

variable {files made : Files} {path : Bytes} {clock : Clock} {result : Except Unopened Ledger} {tables passed : Tables}

/-- Tables pass the check without a version, which they are given, or if they have no strays and no version that is too
new. -/
theorem checked_eq_ok_iff : checked tables = .ok passed ↔
    tables.versions = [] ∧ passed = { tables with versions := [schemaVersion] } ∨
      tables.versions ≠ [] ∧ tables.Housed ∧ (∀ version ∈ tables.versions, version ≤ schemaVersion) ∧ passed = tables := by
  unfold checked
  cases hversion : tables.version? with
  | none =>
      have hnone : tables.versions = [] := List.max?_eq_none_iff.mp hversion
      simp [hnone, eq_comm]
  | some version =>
      have hmem : version ∈ tables.versions := List.max?_mem hversion
      have hsome : tables.versions ≠ [] := List.ne_nil_of_mem hmem
      have hknown : (∀ other ∈ tables.versions, other ≤ schemaVersion) ↔ ¬schemaVersion < version :=
        ⟨fun h => not_lt.mpr (h version hmem), fun h other hother =>
          (Tables.le_of_version? hversion hother).trans (not_lt.mp h)⟩
      dsimp only
      rw [hknown, ← Tables.orphans_isEmpty_iff]
      cases tables.orphans.isEmpty with
      | false => simp [hsome]
      | true =>
          by_cases hnewer : schemaVersion < version
          · simp [hnewer, hsome]
          · simp [hnewer, hsome, eq_comm]

example : checked ⟨[], [], [0, 1], .utf8⟩ = .ok ⟨[], [], [0, 1], .utf8⟩ := by decide +kernel

/-- Whether the ledgers of a tree have the same rows in another one. -/
def KeepsRows (files made : Files) : Prop :=
  ∀ place kept, files.get? place = some (.file (.ledger kept)) →
    ∃ tables, made.get? place = some (.file (.ledger tables)) ∧ tables.sweeps = kept.sweeps ∧ tables.runs = kept.runs

/-- What is written to a free place, or to a ledger with its rows, changes no rows. -/
theorem keepsRows_write (hfiles : files.WellFormed) {place : Place} {content : Content} (hplace : place ≠ [])
    (h : ∀ kept, files.get? place = some (.file (.ledger kept)) →
      ∃ tables, content = .ledger tables ∧ tables.sweeps = kept.sweeps ∧ tables.runs = kept.runs) :
    KeepsRows files (files.write place content) := by
  intro spot kept hkept
  rw [hfiles.get?_write hplace]
  cases hone : files.isOneFile place spot with
  | true =>
      obtain ⟨tables, rfl, hrows⟩ := h kept ((hfiles.get?_of_isOneFile hone).symm.trans hkept)
      exact ⟨tables, by simp [hone], hrows⟩
  | false => exact ⟨kept, by simp [hone, hkept], rfl, rfl⟩

/-- Opening an address changes no rows. -/
theorem openAddress_keepsRows (hfiles : files.WellFormed) (path : Bytes) (clock : Clock) (address : Address) :
    KeepsRows files (openAddress files path clock address).1 := by
  have hsame : KeepsRows files files := fun _ kept hkept => ⟨kept, hkept, rfl, rfl⟩
  cases hname : address.file with
  | none =>
      obtain ⟨isThere, hopen⟩ := openAddress_unkept files path clock hname
      rwa [hopen]
  | some name =>
      have hcases := @openAddress_cases files path clock address name hname
      rcases hcases with ⟨reason, hopen⟩ | ⟨place, hplace, ⟨hnone, reason, hopen⟩ | ⟨isThere, l, hstored, hopen⟩⟩
      · rwa [hopen]
      · rw [hopen]
        refine keepsRows_write hfiles (ne_nil_of_place? hplace) fun kept hkept => ?_
        cases hnone.symm.trans hkept
      · rw [hopen]
        refine keepsRows_write hfiles (ne_nil_of_place? hplace) fun kept hkept => ⟨l.tables, rfl, ?_⟩
        obtain ⟨-, -, ⟨found, hfound, hchecked⟩ | ⟨hnothing, -⟩⟩ := ofStored_eq_ok hstored
        · simp only [hkept, stored, Stored.tables.injEq] at hfound
          subst hfound
          exact checked_eq_ok hchecked
        · simp [hkept, stored] at hnothing

/-- Opening a ledger changes no rows, whether it succeeds or not. -/
theorem openFile_keepsRows (hfiles : files.WellFormed) (path : Bytes) (clock : Clock) :
    KeepsRows files (openFile files path clock).1 := by
  obtain ⟨made, hfurnished, hopen⟩ := openFile_cases files path clock
  have hmade (place : Place) (kept : Tables) (hkept : files.get? place = some (.file (.ledger kept))) :
      made.get? place = some (.file (.ledger kept)) := (hfurnished hfiles).keeps.entries place _ hkept
  rcases hopen with ⟨reason, hopen⟩ | ⟨-, address, -, hopen⟩
  · rw [hopen]
    exact fun place kept hkept => ⟨kept, hmade place kept hkept, rfl, rfl⟩
  · rw [hopen]
    exact fun place kept hkept =>
      openAddress_keepsRows (hfurnished hfiles).wellFormed path clock address place kept (hmade place kept hkept)

/-- The tables in the file of a ledger that was opened passed the check. -/
theorem openFile_checked (hfiles : files.WellFormed) {l : Ledger} (hopen : openFile files path clock = (made, .ok l))
    {name : Bytes} {place : Place} {kept : Tables} (hname : fileName? path = some name)
    (hplace : place? files name = some place) (hkept : files.get? place = some (.file (.ledger kept))) :
    checked kept = .ok l.tables := by
  obtain ⟨-, furnished, address, found, isThere, hfurnished, haddress, hstored, hcases⟩ := openFile_eq_ok hopen
  have hfurnished := hfurnished hfiles
  rw [fileName?_eq haddress] at hname
  rcases hcases with ⟨hnone, -⟩ | ⟨other, spot, hother, hspot, rfl, -⟩
  · cases hnone.symm.trans hname
  · obtain rfl := Option.some.inj (hother.symm.trans hname)
    -- Directories that are made on the way do not lead the name elsewhere.
    have hsettled := settle_start_of_fuller hfurnished.fuller (place?_eq_some hspot).1
    obtain rfl := Option.some.inj (hsettled.symm.trans (place?_eq_some hplace).1)
    have hthere := hfurnished.keeps.entries _ _ hkept
    obtain ⟨-, -, ⟨stored', hfound, hchecked⟩ | ⟨hnothing, -⟩⟩ := ofStored_eq_ok hstored
    · simp only [hthere, stored, Stored.tables.injEq] at hfound
      exact hfound ▸ hchecked
    · simp [hthere, stored] at hnothing

/-- Opening a ledger changes no rows in any ledger. One that is opened from its file holds the rows that were stored,
among them no version that is too new, and every run has its sweep, provided that there is a version at all. -/
theorem opening_vouches (hfiles : files.WellFormed) (hopen : openFile files path clock = (made, result)) :
    KeepsRows files made ∧ ∀ name place kept, fileName? path = some name → place? files name = some place →
      files.get? place = some (.file (.ledger kept)) → ∀ l, result = .ok l →
        l.tables.sweeps = kept.sweeps ∧ l.tables.runs = kept.runs ∧
          (∀ version ∈ kept.versions, version ≤ schemaVersion) ∧
          (kept.versions ≠ [] → ∀ run ∈ l.tables.runs, ∃ sweep ∈ l.tables.sweeps, sweep.id = run.sweepId) := by
  refine ⟨?_, fun name place kept hname hplace hkept l hl => ?_⟩
  · have hkeeps := openFile_keepsRows hfiles path clock
    rwa [hopen] at hkeeps
  · subst hl
    have hchecked := openFile_checked hfiles hopen hname hplace hkept
    obtain ⟨hsweeps, hruns⟩ := checked_eq_ok hchecked
    refine ⟨hsweeps, hruns, ?_⟩
    rcases checked_eq_ok_iff.mp hchecked with ⟨hnone, -⟩ | ⟨-, hhoused, hversions, rfl⟩
    · simp [hnone]
    · exact ⟨hversions, fun _ run hrun => Tables.hasSweep_iff.mp (hhoused run hrun)⟩

end

/-! ## A run with its sweep, and a stray -/

/-- Tables with one sweep, and a run that belongs to the sweep of a given name. -/
def tablesWithRun (sweepId : Bytes) (versions : List Int) : Tables where
  sweeps := [⟨"sweep", SweepStatus.running, [], [], []⟩]
  runs := [.ofRecord { startedRun with sweepId := sweepId }]
  versions := versions
  encoding := .utf8

theorem ledgerTree_wellFormed (tables : Tables) : (ledgerTree tables).WellFormed :=
  write_freshRoot tables ▸
    (keeps_write wellFormed_freshRoot (place?_ledger (Or.inl get?_freshRoot)) (.ledger tables)).wellFormed

/-- A ledger in the root of a tree is opened if it passes the check. -/
theorem openFile_ledgerTree {kept tables : Tables} (h : checked kept = .ok tables) (clock : Clock) :
    openFile (ledgerTree kept) "/ledger" clock =
      (ledgerTree tables, .ok ⟨"/ledger", tables, true, true, false, clock⟩) := by
  rw [openFile_ledger (Or.inr ⟨kept, get?_ledgerTree kept, h⟩) clock, write_ledgerTree]

/-- A run with its sweep, in tables of an old and a current version, is found as it was stored. -/
theorem housed_run_is_vouched_for : ∃ made l,
    openFile (ledgerTree (tablesWithRun "sweep" [0, 1])) "/ledger" tickingClock = (made, .ok l) ∧
      KeepsRows (ledgerTree (tablesWithRun "sweep" [0, 1])) made ∧
      l.tables.runs = [.ofRecord { startedRun with sweepId := "sweep" }] ∧
      ∀ run ∈ l.tables.runs, ∃ sweep ∈ l.tables.sweeps, sweep.id = run.sweepId := by
  have hchecked : checked (tablesWithRun "sweep" [0, 1]) = .ok (tablesWithRun "sweep" [0, 1]) := by decide +kernel
  have hopen := openFile_ledgerTree hchecked tickingClock
  have hname : fileName? "/ledger" = some "/ledger" := by
    rw [fileName?_plain ⟨by decide +kernel, by decide +kernel⟩ (by decide +kernel)]
    decide +kernel
  obtain ⟨hkeeps, hvouched⟩ := opening_vouches (ledgerTree_wellFormed _) hopen
  obtain ⟨-, hruns, -, hhoused⟩ := hvouched "/ledger" _ _ hname (place?_ledger (Or.inr ⟨_, get?_ledgerTree _⟩))
    (get?_ledgerTree _) _ rfl
  exact ⟨_, _, hopen, hkeeps, hruns, hhoused (by decide +kernel)⟩

/-- Without any version, a run whose sweep was never begun is passed over, and the ledger is opened. -/
theorem stray_passes_without_version : ∃ made l,
    openFile (ledgerTree (tablesWithRun "ghost" [])) "/ledger" tickingClock = (made, .ok l) ∧
      ∃ run ∈ l.tables.runs, ∀ sweep ∈ l.tables.sweeps, sweep.id ≠ run.sweepId := by
  have hchecked : checked (tablesWithRun "ghost" []) = .ok (tablesWithRun "ghost" [schemaVersion]) := by decide +kernel
  exact ⟨_, _, openFile_ledgerTree hchecked tickingClock, by decide +kernel⟩

end Ledger

end MobilitySweep
