/-! # Programs of atomic steps

A program that acts on a shared state one atomic action at a time. Run alone it acts in sequence; run
beside others, their actions may come between any two of its own.
-/

namespace MobilitySweep

/-- A program on a state: finished with a value, or an atomic action and what follows its answer. -/
inductive Steps (σ α : Type) : Type 1 where
  | done (value : α)
  | step {β : Type} (act : σ → β × σ) (next : β → Steps σ α)

namespace Steps

variable {σ τ α β : Type}

/-- One program after another. -/
def bind : Steps σ α → (α → Steps σ β) → Steps σ β
  | done value, f => f value
  | step act next, f => step act fun answer => bind (next answer) f

instance : Monad (Steps σ) where
  pure := done
  bind := bind

/-- A single atomic action. -/
def act (action : σ → α × σ) : Steps σ α := step action done

/-- A look at the state. -/
def look (view : σ → α) : Steps σ α := act fun s => (view s, s)

/-- A change of the state. -/
def change (f : σ → σ) : Steps σ Unit := act fun s => ((), f s)

/-- The program run alone from a state. -/
def run : Steps σ α → σ → α × σ
  | done value, s => (value, s)
  | step act next, s =>
    let (answer, s) := act s
    (next answer).run s

/-- A program on a part of a larger state. -/
def onPart (get : τ → σ) (set : τ → σ → τ) : Steps σ α → Steps τ α
  | done value => done value
  | step act next =>
    step (fun t =>
      let (answer, s) := act (get t)
      (answer, set t s)) fun answer => onPart get set (next answer)

/-- A sequence runs its parts in turn. -/
theorem run_bind (p : Steps σ α) (f : α → Steps σ β) (s : σ) :
    (p.bind f).run s = (f (p.run s).1).run (p.run s).2 := by
  induction p generalizing s with
  | done value => rfl
  | step act next ih => exact ih (act s).1 (act s).2

end Steps

/-! ## Groups of tasks

Tasks that run side by side, a limited number at a time, in the order in which they were given. Which
task acts next is left to a schedule: any interleaving of the atomic steps of the tasks is the result
of some list of choices. When the choices are used up, the tasks that are left run one after another.
-/

namespace Group

variable {σ ρ : Type}

/-- Tasks run one after another, each result noted when its task is done. -/
def inTurn (note : ρ → σ → σ) : List (Steps σ ρ) → Steps σ Unit
  | [] => .done ()
  | task :: rest => task.bind fun result => .step (fun s => ((), note result s)) fun _ => inTurn note rest

/-- Tasks run side by side, at most so many at a time. A choice names a task under way, which takes its
next step or, having none left, makes room for another; or it names the next waiting task, which
starts if there is room. -/
def interleaved (note : ρ → σ → σ) (limit : Nat) :
    List Nat → List (Steps σ ρ) → List (Steps σ ρ) → Steps σ Unit
  | [], active, waiting => inTurn note (active ++ waiting)
  | choice :: choices, active, waiting =>
    match active[choice]? with
    | some (.done result) =>
      .step (fun s => ((), note result s)) fun _ =>
        interleaved note limit choices (active.eraseIdx choice) waiting
    | some (.step act next) =>
      .step act fun answer => interleaved note limit choices (active.set choice (next answer)) waiting
    | none =>
      match waiting with
      | task :: rest =>
        if active.length < limit then interleaved note limit choices (active ++ [task]) rest
        else interleaved note limit choices active waiting
      | [] => interleaved note limit choices active waiting

end Group

end MobilitySweep
