import Mathlib
import MobilitySweep.Config.Validate
import MobilitySweep.Sweep.Setup

/-! # Accepted configurations

What a configuration has to be so that it is accepted. Validation goes through the axes of the sweep by itself; it
comes to the combinations of the plan all the same, and in their order.
-/

namespace MobilitySweep

namespace Config

section

variable {α β ε : Type}

/-- A check of all items passes when each of them passes. -/
theorem forM_eq_ok_iff {check : α → Except ε Unit} {items : List α} :
    forM items check = .ok () ↔ ∀ item ∈ items, check item = .ok () := by
  induction items with
  | nil => simp [pure, Except.pure]
  | cons item rest ih =>
      rw [List.forM_cons, List.forall_mem_cons, ← ih]
      cases check item <;> simp [bind, Except.bind]

theorem forM_flatMap (f : α → List β) (check : β → Except ε Unit) (items : List α) :
    forM (items.flatMap f) check = forM items fun item => forM (f item) check := by
  induction items with
  | nil => rfl
  | cons item rest ih => rw [List.flatMap_cons, List.forM_append, List.forM_cons, ih]

end

/-- Validation comes to the combinations in the order of the plan. -/
theorem validateCombinations_eq (s : SweepSettings) :
    validateCombinations s = forM (Plan.combinations s) validateCombination := by
  simp only [validateCombinations, Plan.combinations, forM_flatMap, List.forM_map]

theorem validateCombination_eq_ok {p : Params} : validateCombination p = .ok () ↔ p.validate = .ok () := by
  unfold validateCombination
  cases p.validate <;> simp [Except.mapError]

/-- What can be relied on in an accepted configuration. -/
structure Accepted (c : Config) : Prop where
  distances : c.sweep.nodeDistances.getD [] ≠ []
  couples : c.sweep.swapCouples.getD [] ≠ []
  shuffles : c.sweep.shuffleDistances.getD [] ≠ []
  repetitions : 1 ≤ c.sweep.repetitions.toInt
  workers : 1 ≤ c.sweep.workers.toInt
  combinations : ∀ p ∈ Plan.combinations c.sweep, p.validate = .ok ()
  options : ∀ seed, (c.options seed).validate = .ok ()

theorem axes_of_validateSweep {s : SweepSettings} (h : validateSweep s = .ok ()) :
    s.nodeDistances.getD [] ≠ [] ∧ s.swapCouples.getD [] ≠ [] ∧ s.shuffleDistances.getD [] ≠ [] := by
  unfold validateSweep at h
  split at h
  next => cases h
  next haxes => simpa [and_assoc] using haxes

theorem of_validateSweep {s : SweepSettings} (h : validateSweep s = .ok ()) :
    1 ≤ s.repetitions.toInt ∧ 1 ≤ s.workers.toInt ∧ ∀ p ∈ Plan.combinations s, p.validate = .ok () := by
  have hcombinations : validateCombinations s = .ok () → ∀ p ∈ Plan.combinations s, p.validate = .ok () := by
    intro hpassed p hp
    rw [validateCombinations_eq] at hpassed
    exact validateCombination_eq_ok.mp (forM_eq_ok_iff.mp hpassed p hp)
  unfold validateSweep at h
  split at h
  next => cases h
  next =>
    split at h
    next => cases h
    next hrepetitions =>
      split at h
      next => cases h
      next hworkers =>
        refine ⟨?_, ?_, hcombinations h⟩
        · simpa [Int64.lt_iff_toInt_lt] using hrepetitions
        · simpa [Int64.lt_iff_toInt_lt] using hworkers

theorem accepted {c : Config} (h : c.validate = .ok ()) : c.Accepted := by
  cases hsweep : validateSweep c.sweep with
  | error cause => simp [validate, hsweep, bind, Except.bind] at h
  | ok =>
      cases hoptions : (c.options 0).validate with
      | error cause => simp [validate, hsweep, hoptions, bind, Except.bind, Except.mapError] at h
      | ok =>
          obtain ⟨hdistances, hcouples, hshuffles⟩ := axes_of_validateSweep hsweep
          obtain ⟨hrepetitions, hworkers, hcombinations⟩ := of_validateSweep hsweep
          -- No check of the options looks at the seed.
          exact ⟨hdistances, hcouples, hshuffles, hrepetitions, hworkers, hcombinations, fun _ => hoptions⟩

/-- Whatever is refused, it is the configuration that is refused. -/
theorem kind_fault (cause : Invalid) : cause.fault.kind = .invalidConfig := rfl

end Config

end MobilitySweep
