import MobilitySweep.Proofs.Concurrency.Ensures
import MobilitySweep.Steps

/-! # Groups of tasks among others

A condition on the tasks under way, the waiting ones and the state that survives every single step survives
every schedule. Two rules follow. Tasks that leave each other alone keep their promises together; and an
invariant about the phases of all tasks is kept when each move from phase to phase keeps it. Tasks that count raise the
count by all their numbers together.
-/

namespace MobilitySweep

namespace Group

variable {σ ρ ι Φ : Type} {note : ρ → σ → σ} {rely guarantee : σ → σ → Prop}

/-- With room for one task at a time the tasks run in turn, whatever the schedule. -/
theorem interleaved_one (note : ρ → σ → σ) (schedule : List Nat) (active waiting : List (Steps σ ρ))
    (hactive : active.length ≤ 1) : interleaved note 1 schedule active waiting = inTurn note (active ++ waiting) := by
  induction schedule generalizing active waiting with
  | nil => rfl
  | cons choice rest ih =>
      rcases active with _ | ⟨task, _ | ⟨other, more⟩⟩
      · cases waiting with
        | nil => exact ih [] [] (by simp)
        | cons task waiting => exact ih [task] waiting (by simp)
      · cases choice with
        | zero =>
            cases task with
            | done result => exact congrArg (Steps.step _) (funext fun _ => ih [] waiting (by simp))
            | step act next => exact congrArg (Steps.step act) (funext fun answer => ih [next answer] waiting (by simp))
        | succ choice => cases waiting <;> exact ih [task] _ (by simp)
      · simp at hactive

/-- A condition on the tasks under way, the waiting ones and the state that no step of a group with room for so many
tasks, and nobody else, breaks. The order of the tasks under way plays no part. -/
structure Upheld (note : ρ → σ → σ) (rely guarantee : σ → σ → Prop) (room : Nat)
    (condition : List (ι × Steps σ ρ) → List (ι × Steps σ ρ) → σ → Prop) : Prop where
  perm : ∀ active others waiting s, condition active waiting s → active.Perm others → condition others waiting s
  outside : ∀ active waiting s t, condition active waiting s → rely s t → condition active waiting t
  accept : ∀ active task waiting s, active.length < room → condition active (task :: waiting) s →
    condition (task :: active) waiting s
  step : ∀ i (β : Type) (act : σ → β × σ) next active waiting s, condition ((i, .step act next) :: active) waiting s →
    guarantee s (act s).2 ∧ condition ((i, next (act s).1) :: active) waiting (act s).2
  done : ∀ i result active waiting s, condition ((i, .done result) :: active) waiting s →
    guarantee s (note result s) ∧ condition active waiting (note result s)

section

variable {room : Nat} {condition : List (ι × Steps σ ρ) → List (ι × Steps σ ρ) → σ → Prop}

/-- One task worked through, its result noted, and what comes after it. -/
theorem Upheld.turn (hupheld : Upheld note rely guarantee room condition) {i : ι} {p : Steps σ ρ}
    {active waiting : List (ι × Steps σ ρ)} {post : Unit → σ → Prop} {after : Steps σ Unit} {s : σ}
    (h : condition ((i, p) :: active) waiting s)
    (hafter : ∀ t, condition active waiting t → Steps.Ensures rely guarantee post after t) :
    Steps.Ensures rely guarantee post
      (p.bind fun result => .step (fun s => ((), note result s)) fun _ => after) s := by
  induction p generalizing s with
  | done result =>
      intro t hst
      obtain ⟨hnote, hrest⟩ := hupheld.done i result active waiting t (hupheld.outside _ _ s t h hst)
      exact ⟨hnote, hafter _ hrest⟩
  | step act next ih =>
      intro t hst
      obtain ⟨hact, hnext⟩ := hupheld.step i _ act next active waiting t (hupheld.outside _ _ s t h hst)
      exact ⟨hact, ih _ hnext⟩

/-- First the tasks under way come to their ends, then the waiting ones get their turn. -/
theorem Upheld.inTurn (hupheld : Upheld note rely guarantee room condition) (hroom : 0 < room)
    (active waiting : List (ι × Steps σ ρ)) {s : σ} (h : condition active waiting s) :
    Steps.Ensures rely guarantee (fun _ t => condition [] [] t)
      (inTurn note ((active ++ waiting).map Prod.snd)) s := by
  induction active generalizing s with
  | cons task active ih => exact hupheld.turn h fun t ht => ih ht
  | nil =>
      induction waiting generalizing s with
      | nil => exact fun t hst => hupheld.outside [] [] s t h hst
      | cons task waiting ih => exact hupheld.turn (hupheld.accept [] task waiting s hroom h) fun t ht => ih ht

/-- A condition that is upheld holds of no task at all once a group has come to its end. -/
theorem Upheld.interleaved (hupheld : Upheld note rely guarantee room condition) {limit : Nat}
    (hlimit : limit ≤ room) (hroom : 0 < room) (schedule : List Nat) (active waiting : List (ι × Steps σ ρ)) {s : σ}
    (h : condition active waiting s) :
    Steps.Ensures rely guarantee (fun _ t => condition [] [] t)
      (interleaved note limit schedule (active.map Prod.snd) (waiting.map Prod.snd)) s := by
  -- By induction on the schedule. A choice beyond the active tasks admits one, if there is room, or is passed over.
  induction schedule generalizing active waiting s with
  | nil => simpa only [Group.interleaved, List.map_append] using hupheld.inTurn hroom active waiting h
  | cons choice rest ih =>
      simp only [Group.interleaved, List.getElem?_map]
      cases hchoice : active[choice]? with
      | some task =>
          obtain ⟨i, p⟩ := task
          obtain ⟨hindex, hget⟩ := List.getElem?_eq_some_iff.mp hchoice
          have hperm : ((i, p) :: active.eraseIdx choice).Perm active := by
            rw [← hget]
            exact List.getElem_cons_eraseIdx_perm hindex
          have hfirst := hupheld.perm _ _ waiting s h hperm.symm
          cases p with
          | done result =>
              intro t hst
              obtain ⟨hnote, hrest⟩ := hupheld.done i result _ _ t (hupheld.outside _ _ s t hfirst hst)
              refine ⟨hnote, ?_⟩
              simpa only [← List.eraseIdx_map] using ih (active.eraseIdx choice) waiting hrest
          | step act next =>
              intro t hst
              obtain ⟨hact, hnext⟩ := hupheld.step i _ act next _ _ t (hupheld.outside _ _ s t hfirst hst)
              have hset := (List.set_perm_cons_eraseIdx hindex (i, next (act t).1)).symm
              refine ⟨hact, ?_⟩
              simpa only [List.map_set] using
                ih (active.set choice (i, next (act t).1)) waiting (hupheld.perm _ _ _ _ hnext hset)
      | none =>
          cases waiting with
          | nil => simpa using ih active [] h
          | cons task waiting =>
              simp only [Option.map_none, List.map_cons, List.length_map]
              split
              next hfree =>
                have hadmitted := hupheld.accept active task waiting s (hfree.trans_le hlimit) h
                have hlast := (List.perm_append_singleton task active).symm
                simpa using ih (active ++ [task]) waiting (hupheld.perm _ _ _ _ hadmitted hlast)
              next => simpa using ih active (task :: waiting) h

end

/-- A condition on unfinished tasks and state that no step of a group and nobody else breaks. The
order of the tasks plays no part. -/
structure Kept (note : ρ → σ → σ) (rely guarantee : σ → σ → Prop)
    (condition : List (ι × Steps σ ρ) → σ → Prop) : Prop where
  perm : ∀ tasks others s, condition tasks s → tasks.Perm others → condition others s
  outside : ∀ tasks s t, condition tasks s → rely s t → condition tasks t
  step : ∀ i (β : Type) (act : σ → β × σ) next rest s, condition ((i, .step act next) :: rest) s →
    guarantee s (act s).2 ∧ condition ((i, next (act s).1) :: rest) (act s).2
  done : ∀ i result rest s, condition ((i, .done result) :: rest) s →
    guarantee s (note result s) ∧ condition rest (note result s)

section

variable {condition : List (ι × Steps σ ρ) → σ → Prop}

/-- What is kept by all tasks together is upheld whatever the room. -/
theorem Kept.upheld (hkept : Kept note rely guarantee condition) (room : Nat) :
    Upheld note rely guarantee room fun active waiting => condition (active ++ waiting) where
  perm _ _ waiting s h hperm := hkept.perm _ _ s h (hperm.append_right waiting)
  outside _ _ s t h hst := hkept.outside _ s t h hst
  accept _ _ _ s _ h := hkept.perm _ _ s h List.perm_middle
  step i β act next active waiting s h := hkept.step i β act next (active ++ waiting) s h
  done i result active waiting s h := hkept.done i result (active ++ waiting) s h

/-- A condition that is kept holds of no task at all once a group has come to its end. -/
theorem Kept.interleaved (hkept : Kept note rely guarantee condition) (limit : Nat)
    (schedule : List Nat) (active waiting : List (ι × Steps σ ρ)) {s : σ}
    (h : condition (active ++ waiting) s) :
    Steps.Ensures rely guarantee (fun _ t => condition [] t)
      (interleaved note limit schedule (active.map Prod.snd) (waiting.map Prod.snd)) s :=
  (hkept.upheld (limit + 1)).interleaved limit.le_succ limit.succ_pos schedule active waiting h

end

/-! ## Tasks that leave each other alone -/

section

variable {own theirs : ι → σ → σ → Prop} {post : ι → σ → Prop}

/-- What a task of a group promises: it acts within its own bounds, as does the note of its result,
and then its condition holds for good. -/
def Promises (note : ρ → σ → σ) (own theirs : ι → σ → σ → Prop) (post : ι → σ → Prop)
    (task : ι × Steps σ ρ) (s : σ) : Prop :=
  Steps.Ensures (theirs task.1) (own task.1)
    (fun result t => own task.1 t (note result t) ∧ ∀ u, theirs task.1 (note result t) u → post task.1 u)
    task.2 s

/-- How the bounds of the tasks fit together: everybody else, inside the group and outside of it, acts
within what a task can bear. -/
structure Compatible (rely guarantee : σ → σ → Prop) (own theirs : ι → σ → σ → Prop) : Prop where
  refl : ∀ i s, theirs i s s
  trans : ∀ i r s t, theirs i r s → theirs i s t → theirs i r t
  outside : ∀ i s t, rely s t → theirs i s t
  inside : ∀ i j s t, i ≠ j → own i s t → theirs j s t
  visible : ∀ i s t, own i s t → guarantee s t

/-- A group on its way from a state: the unfinished tasks keep their promises, the conditions of the
others hold for good, and nothing has happened that a task of another group could not bear. -/
structure Progress (note : ρ → σ → σ) (own theirs : ι → σ → σ → Prop) (post : ι → σ → Prop)
    (all : List ι) (start : σ) (tasks : List (ι × Steps σ ρ)) (s : σ) : Prop where
  nodup : (tasks.map Prod.fst).Nodup
  subset : ∀ task ∈ tasks, task.1 ∈ all
  unfinished : ∀ task ∈ tasks, Promises note own theirs post task s
  finished : ∀ i ∈ all, i ∉ tasks.map Prod.fst → ∀ t, theirs i s t → post i t
  frame : ∀ j, j ∉ all → theirs j start s

theorem ne_of_fresh {i : ι} {tasks : List (ι × Steps σ ρ)} {task : ι × Steps σ ρ}
    (hfresh : i ∉ tasks.map Prod.fst) (htask : task ∈ tasks) : i ≠ task.1 := by
  rintro rfl
  exact hfresh (List.mem_map.mpr ⟨task, htask, rfl⟩)

/-- What a step of the first task leaves of the progress of a group. -/
theorem Progress.others (hfit : Compatible rely guarantee own theirs) {all : List ι} {start : σ}
    {i : ι} {p : Steps σ ρ} {rest : List (ι × Steps σ ρ)} {s t : σ}
    (h : Progress note own theirs post all start ((i, p) :: rest) s) (hst : own i s t) :
    (∀ task ∈ rest, Promises note own theirs post task t) ∧
      (∀ j ∈ all, j ∉ ((i, p) :: rest).map Prod.fst → ∀ u, theirs j t u → post j u) ∧
      ∀ j, j ∉ all → theirs j start t := by
  have hfresh := (List.nodup_cons.mp h.nodup).1
  have hmem : i ∈ all := h.subset _ List.mem_cons_self
  refine ⟨fun task htask => ?_, fun j hj hnot u htu => ?_, fun j hj => ?_⟩
  · exact (h.unfinished task (List.mem_cons_of_mem _ htask)).stable (hfit.trans task.1)
      (hfit.inside i task.1 s t (ne_of_fresh hfresh htask) hst)
  · have hne : i ≠ j := by
      rintro rfl
      exact hnot List.mem_cons_self
    exact h.finished j hj hnot u (hfit.trans j s t u (hfit.inside i j s t hne hst) htu)
  · exact hfit.trans j start s t (h.frame j hj)
      (hfit.inside i j s t (ne_of_mem_of_not_mem hmem hj) hst)

theorem progress_kept (hfit : Compatible rely guarantee own theirs) (all : List ι) (start : σ) :
    Kept note rely guarantee (Progress note own theirs post all start) where
  perm tasks others s h hperm := by
    refine ⟨(hperm.map Prod.fst).nodup_iff.mp h.nodup, fun task htask => ?_, fun task htask => ?_,
      fun i hi hnot => ?_, h.frame⟩
    · exact h.subset task (hperm.mem_iff.mpr htask)
    · exact h.unfinished task (hperm.mem_iff.mpr htask)
    · exact h.finished i hi fun hmem => hnot ((hperm.map Prod.fst).mem_iff.mp hmem)
  outside tasks s t h hst := by
    refine ⟨h.nodup, h.subset, fun task htask => ?_, fun i hi hnot u htu => ?_, fun j hj => ?_⟩
    · exact (h.unfinished task htask).stable (hfit.trans task.1) (hfit.outside task.1 s t hst)
    · exact h.finished i hi hnot u (hfit.trans i s t u (hfit.outside i s t hst) htu)
    · exact hfit.trans j start s t (h.frame j hj) (hfit.outside j s t hst)
  step i β act next rest s h := by
    obtain ⟨hact, hnext⟩ := h.unfinished _ List.mem_cons_self s (hfit.refl i s)
    obtain ⟨hrest, hfinished, hframe⟩ := h.others hfit hact
    refine ⟨hfit.visible i _ _ hact, h.nodup, ?_, ?_, hfinished, hframe⟩
    · intro task htask
      rcases List.mem_cons.mp htask with rfl | htask
      · exact h.subset (i, .step act next) List.mem_cons_self
      · exact h.subset task (List.mem_cons_of_mem _ htask)
    · intro task htask
      rcases List.mem_cons.mp htask with rfl | htask
      · exact hnext
      · exact hrest task htask
  done i result rest s h := by
    obtain ⟨hnote, hpost⟩ := h.unfinished _ List.mem_cons_self s (hfit.refl i s)
    obtain ⟨hrest, hfinished, hframe⟩ := h.others hfit hnote
    refine ⟨hfit.visible i _ _ hnote, (List.nodup_cons.mp h.nodup).2, ?_, hrest, ?_, hframe⟩
    · exact fun task htask => h.subset task (List.mem_cons_of_mem _ htask)
    · intro j hj hnot
      by_cases hij : j = i
      · exact hij ▸ hpost
      · exact hfinished j hj (by simpa [hij] using hnot)

/-- Tasks that run side by side keep their promises under every schedule, and nobody outside of the
group sees more than the tasks are allowed. -/
theorem interleaved_ensures (hfit : Compatible rely guarantee own theirs) (limit : Nat)
    (schedule : List Nat) (tasks : List (ι × Steps σ ρ)) (hnodup : (tasks.map Prod.fst).Nodup) {s : σ}
    (h : ∀ task ∈ tasks, Promises note own theirs post task s) :
    Steps.Ensures rely guarantee
      (fun _ t => (∀ task ∈ tasks, post task.1 t) ∧ ∀ j, j ∉ tasks.map Prod.fst → theirs j s t)
      (interleaved note limit schedule [] (tasks.map Prod.snd)) s := by
  have hstart : Progress note own theirs post (tasks.map Prod.fst) s tasks s :=
    ⟨hnodup, fun task htask => List.mem_map.mpr ⟨task, htask, rfl⟩, h,
      fun i hi hnot => absurd hi hnot, fun j _ => hfit.refl j s⟩
  refine ((progress_kept hfit _ s).interleaved limit schedule [] tasks hstart).weaken ?_
  intro _ t hend
  refine ⟨fun task htask => ?_, hend.frame⟩
  exact hend.finished task.1 (List.mem_map.mpr ⟨task, htask, rfl⟩) (by simp) t (hfit.refl _ t)

end

/-! ## Phases -/

/-- A program that moves from phase to phase, whatever the state: every step is a move, and the result
fits the last phase. -/
def Follows (move : Φ → Φ → σ → σ → Prop) (ends : ρ → Φ → Prop) : Steps σ ρ → Φ → Prop
  | .done result, phase => ends result phase
  | .step act next, phase => ∀ s, ∃ phase',
      move phase phase' s (act s).2 ∧ Follows move ends (next (act s).1) phase'

section

variable {α : Type} {move : Φ → Φ → σ → σ → Prop} {ends : ρ → Φ → Prop}

theorem follows_pure {result : ρ} {phase : Φ} (h : ends result phase) :
    Follows move ends (pure result : Steps σ ρ) phase := h

theorem Follows.bind {ends' : α → Φ → Prop} {p : Steps σ α} {f : α → Steps σ ρ} {phase : Φ}
    (h : Follows move ends' p phase)
    (hf : ∀ value phase', ends' value phase' → Follows move ends (f value) phase') :
    Follows move ends (p >>= f) phase := by
  induction p generalizing phase with
  | done value => exact hf value phase h
  | step act next ih =>
      intro s
      obtain ⟨phase', hmove, hnext⟩ := h s
      exact ⟨phase', hmove, ih _ hnext⟩

/-- A program alone with others takes an invariant about its phase to its last phase. -/
theorem Follows.ensures {invariant : Φ → σ → Prop}
    (houtside : ∀ phase s t, invariant phase s → rely s t → invariant phase t)
    (hmove : ∀ phase phase' s t, invariant phase s → move phase phase' s t → invariant phase' t)
    {p : Steps σ ρ} {phase : Φ} {s : σ} (h : Follows move ends p phase) (hs : invariant phase s) :
    Steps.Ensures rely (fun _ _ => True) (fun result t => ∃ phase', ends result phase' ∧ invariant phase' t) p s := by
  induction p generalizing phase s with
  | done result => exact fun t hst => ⟨phase, h, houtside phase s t hs hst⟩
  | step act next ih =>
      intro t hst
      obtain ⟨phase', hact, hnext⟩ := h t
      exact ⟨trivial, ih _ hnext (hmove phase phase' t _ (houtside phase s t hs hst) hact)⟩

theorem Follows.weaken {ends' : ρ → Φ → Prop} {p : Steps σ ρ} {phase : Φ} (h : Follows move ends p phase)
    (hends : ∀ result phase', ends result phase' → ends' result phase') :
    Follows move ends' p phase := by
  induction p generalizing phase with
  | done result => exact hends result phase h
  | step act next ih =>
      intro s
      obtain ⟨phase', hmove, hnext⟩ := h s
      exact ⟨phase', hmove, ih _ hnext⟩

end

section

variable [DecidableEq ι] {move : ι → Φ → Φ → σ → σ → Prop} {ends : ι → ρ → Φ → Prop}
  {final : ι → Φ → Prop} {members : List ι}

/-- An invariant about the phases of all members and about which of them are under way, in a group with room for so
many. Every move of a member under way keeps it, and every note of a result, after which the member has reached a
final phase. -/
structure Supervised (note : ρ → σ → σ) (rely : σ → σ → Prop) (move : ι → Φ → Φ → σ → σ → Prop)
    (ends : ι → ρ → Φ → Prop) (final : ι → Φ → Prop) (room : Nat) (members : List ι)
    (invariant : (ι → Φ) → List ι → σ → Prop) : Prop where
  perm : ∀ phases active others s, invariant phases active s → active.Perm others → invariant phases others s
  outside : ∀ phases active s t, invariant phases active s → rely s t → invariant phases active t
  accept : ∀ phases i active s, i ∈ members → active.length < room → invariant phases active s →
    invariant phases (i :: active) s
  move : ∀ phases i active phase s t, i ∈ members → invariant phases (i :: active) s →
    move i (phases i) phase s t → invariant (Function.update phases i phase) (i :: active) t
  note : ∀ phases i active result s, i ∈ members → invariant phases (i :: active) s → ends i result (phases i) →
    ∃ phase, final i phase ∧ invariant (Function.update phases i phase) active (note result s)

/-- A group on its way through the phases of its tasks. -/
structure Phased (move : ι → Φ → Φ → σ → σ → Prop) (ends : ι → ρ → Φ → Prop) (final : ι → Φ → Prop)
    (all : List ι) (start phases : ι → Φ) (tasks : List (ι × Steps σ ρ)) : Prop where
  nodup : (tasks.map Prod.fst).Nodup
  subset : ∀ task ∈ tasks, task.1 ∈ all
  unfinished : ∀ task ∈ tasks, Follows (move task.1) (ends task.1) task.2 (phases task.1)
  finished : ∀ i ∈ all, i ∉ tasks.map Prod.fst → final i (phases i)
  frame : ∀ j, j ∉ all → phases j = start j

omit [DecidableEq ι] in
theorem Phased.perm {all : List ι} {start phases : ι → Φ} {tasks others : List (ι × Steps σ ρ)}
    (h : Phased move ends final all start phases tasks) (hperm : tasks.Perm others) :
    Phased move ends final all start phases others := by
  refine ⟨(hperm.map Prod.fst).nodup_iff.mp h.nodup, fun task htask => ?_, fun task htask => ?_,
    fun i hi hnot => ?_, h.frame⟩
  · exact h.subset task (hperm.mem_iff.mpr htask)
  · exact h.unfinished task (hperm.mem_iff.mpr htask)
  · exact h.finished i hi fun hmem => hnot ((hperm.map Prod.fst).mem_iff.mp hmem)

/-- What a new phase of the first task leaves of a group on its way. -/
theorem Phased.others {all : List ι} {start phases : ι → Φ} {i : ι} {p : Steps σ ρ}
    {rest : List (ι × Steps σ ρ)} (h : Phased move ends final all start phases ((i, p) :: rest))
    (phase : Φ) :
    (∀ task ∈ rest, Follows (move task.1) (ends task.1) task.2 (Function.update phases i phase task.1)) ∧
      (∀ j ∈ all, j ∉ ((i, p) :: rest).map Prod.fst → final j (Function.update phases i phase j)) ∧
      ∀ j, j ∉ all → Function.update phases i phase j = start j := by
  have hfresh := (List.nodup_cons.mp h.nodup).1
  have hmem : i ∈ all := h.subset _ List.mem_cons_self
  refine ⟨fun task htask => ?_, fun j hj hnot => ?_, fun j hj => ?_⟩
  · rw [Function.update_of_ne (ne_of_fresh hfresh htask).symm]
    exact h.unfinished task (List.mem_cons_of_mem _ htask)
  · have hne : j ≠ i := by
      rintro rfl
      exact hnot List.mem_cons_self
    rw [Function.update_of_ne hne]
    exact h.finished j hj hnot
  · rw [Function.update_of_ne (ne_of_mem_of_not_mem hmem hj).symm]
    exact h.frame j hj

theorem phased_upheld {room : Nat} {invariant : (ι → Φ) → List ι → σ → Prop}
    (hinvariant : Supervised note rely move ends final room members invariant) (all : List ι)
    (hall : ∀ i ∈ all, i ∈ members) (start : ι → Φ) :
    Upheld note rely (fun _ _ => True) room fun active waiting s =>
      ∃ phases, Phased move ends final all start phases (active ++ waiting) ∧
        invariant phases (active.map Prod.fst) s where
  perm active others waiting s h hperm := by
    obtain ⟨phases, hphased, hholds⟩ := h
    exact ⟨phases, hphased.perm (hperm.append_right waiting),
      hinvariant.perm phases _ _ s hholds (hperm.map Prod.fst)⟩
  outside active waiting s t h hst := by
    obtain ⟨phases, hphased, hholds⟩ := h
    exact ⟨phases, hphased, hinvariant.outside phases _ s t hholds hst⟩
  accept active task waiting s hfree h := by
    obtain ⟨phases, hphased, hholds⟩ := h
    have hmem : task.1 ∈ all := hphased.subset task (by simp)
    exact ⟨phases, hphased.perm List.perm_middle,
      hinvariant.accept phases task.1 _ s (hall _ hmem) (by simpa using hfree) hholds⟩
  step i β act next active waiting s h := by
    obtain ⟨phases, hphased, hholds⟩ := h
    have hmem : i ∈ all := hphased.subset _ List.mem_cons_self
    obtain ⟨phase, hmove, hnext⟩ := hphased.unfinished _ List.mem_cons_self s
    obtain ⟨hrest, hfinished, hframe⟩ := hphased.others phase
    -- Only the phase of the task that has moved changes.
    refine ⟨trivial, Function.update phases i phase, ⟨hphased.nodup, ?_, ?_, hfinished, hframe⟩,
      hinvariant.move phases i _ phase s _ (hall i hmem) hholds hmove⟩
    · intro task htask
      rcases List.mem_cons.mp htask with rfl | htask
      · exact hmem
      · exact hphased.subset task (List.mem_cons_of_mem _ htask)
    · intro task htask
      rcases List.mem_cons.mp htask with rfl | htask
      · rw [Function.update_self]
        exact hnext
      · exact hrest task htask
  done i result active waiting s h := by
    obtain ⟨phases, hphased, hholds⟩ := h
    have hmem : i ∈ all := hphased.subset _ List.mem_cons_self
    have hends := hphased.unfinished _ List.mem_cons_self
    obtain ⟨phase, hfinal, hnoted⟩ := hinvariant.note phases i _ result s (hall i hmem) hholds hends
    obtain ⟨hrest, hfinished, hframe⟩ := hphased.others phase
    refine ⟨trivial, Function.update phases i phase,
      ⟨(List.nodup_cons.mp hphased.nodup).2, ?_, hrest, ?_, hframe⟩, hnoted⟩
    · exact fun task htask => hphased.subset task (List.mem_cons_of_mem _ htask)
    · intro j hj hnot
      by_cases hij : j = i
      · rw [hij, Function.update_self]
        exact hfinal
      · exact hfinished j hj (by simpa [hij] using hnot)

/-- Tasks that run side by side keep an invariant about their phases and about which of them are under way, under
every schedule, and all of them reach a final phase. -/
theorem interleaved_supervised {room : Nat} {invariant : (ι → Φ) → List ι → σ → Prop}
    (hinvariant : Supervised note rely move ends final room members invariant) {limit : Nat}
    (hlimit : limit ≤ room) (hroom : 0 < room) (schedule : List Nat) (tasks : List (ι × Steps σ ρ))
    (hnodup : (tasks.map Prod.fst).Nodup) (hmembers : ∀ task ∈ tasks, task.1 ∈ members)
    {phases : ι → Φ} {s : σ} (hs : invariant phases [] s)
    (h : ∀ task ∈ tasks, Follows (move task.1) (ends task.1) task.2 (phases task.1)) :
    Steps.Ensures rely (fun _ _ => True)
      (fun _ t => ∃ phases', invariant phases' [] t ∧ (∀ task ∈ tasks, final task.1 (phases' task.1)) ∧
        ∀ j, j ∉ tasks.map Prod.fst → phases' j = phases j)
      (interleaved note limit schedule [] (tasks.map Prod.snd)) s := by
  have hall : ∀ i ∈ tasks.map Prod.fst, i ∈ members := by
    intro i hi
    obtain ⟨task, htask, rfl⟩ := List.mem_map.mp hi
    exact hmembers task htask
  have hphased : Phased move ends final (tasks.map Prod.fst) phases phases tasks :=
    ⟨hnodup, fun task htask => List.mem_map.mpr ⟨task, htask, rfl⟩, h, fun i hi hnot => absurd hi hnot,
      fun _ _ => rfl⟩
  refine ((phased_upheld hinvariant _ hall phases).interleaved hlimit hroom schedule [] tasks
    ⟨phases, hphased, hs⟩).weaken ?_
  rintro _ t ⟨phases', hend, hholds⟩
  refine ⟨phases', hholds, fun task htask => ?_, hend.frame⟩
  exact hend.finished task.1 (List.mem_map.mpr ⟨task, htask, rfl⟩) (by simp)

/-- An invariant about the phases of all members that every move of one of them keeps, and every note of
a result, after which the member has reached a final phase. -/
structure Invariant (note : ρ → σ → σ) (rely : σ → σ → Prop) (move : ι → Φ → Φ → σ → σ → Prop)
    (ends : ι → ρ → Φ → Prop) (final : ι → Φ → Prop) (members : List ι)
    (invariant : (ι → Φ) → σ → Prop) : Prop where
  outside : ∀ phases s t, invariant phases s → rely s t → invariant phases t
  move : ∀ phases i phase s t, i ∈ members → invariant phases s → move i (phases i) phase s t →
    invariant (Function.update phases i phase) t
  note : ∀ phases i result s, i ∈ members → invariant phases s → ends i result (phases i) →
    ∃ phase, final i phase ∧ invariant (Function.update phases i phase) (note result s)

/-- Tasks that run side by side keep an invariant about their phases under every schedule, and all of
them reach a final phase. -/
theorem interleaved_follows {invariant : (ι → Φ) → σ → Prop}
    (hinvariant : Invariant note rely move ends final members invariant)
    (limit : Nat) (schedule : List Nat) (tasks : List (ι × Steps σ ρ))
    (hnodup : (tasks.map Prod.fst).Nodup) (hmembers : ∀ task ∈ tasks, task.1 ∈ members)
    {phases : ι → Φ} {s : σ} (hs : invariant phases s)
    (h : ∀ task ∈ tasks, Follows (move task.1) (ends task.1) task.2 (phases task.1)) :
    Steps.Ensures rely (fun _ _ => True)
      (fun _ t => ∃ phases', invariant phases' t ∧ (∀ task ∈ tasks, final task.1 (phases' task.1)) ∧
        ∀ j, j ∉ tasks.map Prod.fst → phases' j = phases j)
      (interleaved note limit schedule [] (tasks.map Prod.snd)) s := by
  have hsupervised : Supervised note rely move ends final (limit + 1) members fun phases _ => invariant phases :=
    ⟨fun _ _ _ _ hholds _ => hholds, fun phases _ => hinvariant.outside phases, fun _ _ _ _ _ _ => id,
      fun phases i _ => hinvariant.move phases i, fun phases i _ => hinvariant.note phases i⟩
  exact interleaved_supervised hsupervised limit.le_succ limit.succ_pos schedule tasks hnodup hmembers hs h

end

/-! ## What a group keeps -/

section

variable {γ : Type} {view : σ → γ}

theorem inTurn_keeps (hnote : ∀ result s, view (note result s) = view s) {tasks : List (Steps σ ρ)}
    (h : ∀ task ∈ tasks, task.Keeps view) : (inTurn note tasks).Keeps view := by
  induction tasks with
  | nil => exact trivial
  | cons task rest ih =>
      obtain ⟨htask, hrest⟩ := List.forall_mem_cons.mp h
      exact htask.bind fun result s => ⟨hnote result s, ih hrest⟩

/-- What all of its tasks keep, a group keeps, whatever the schedule. -/
theorem interleaved_keeps (hnote : ∀ result s, view (note result s) = view s) (limit : Nat)
    (schedule : List Nat) {active waiting : List (Steps σ ρ)} (hactive : ∀ task ∈ active, task.Keeps view)
    (hwaiting : ∀ task ∈ waiting, task.Keeps view) :
    (interleaved note limit schedule active waiting).Keeps view := by
  induction schedule generalizing active waiting with
  | nil => exact inTurn_keeps hnote (List.forall_mem_append.mpr ⟨hactive, hwaiting⟩)
  | cons choice rest ih =>
      unfold interleaved
      split
      next result hchoice =>
        exact fun s => ⟨hnote result s, ih (fun task htask => hactive task (List.mem_of_mem_eraseIdx htask)) hwaiting⟩
      next act next hchoice =>
        have hstep := hactive _ (List.mem_of_getElem? hchoice)
        refine fun s => ⟨(hstep s).1, ih (fun task htask => ?_) hwaiting⟩
        rcases List.mem_or_eq_of_mem_set htask with htask | rfl
        · exact hactive task htask
        · exact (hstep s).2
      next hchoice =>
        split
        next task others =>
          obtain ⟨htask, hothers⟩ := List.forall_mem_cons.mp hwaiting
          split
          next hfree =>
            refine ih (List.forall_mem_append.mpr ⟨hactive, ?_⟩) hothers
            exact List.forall_mem_singleton.mpr htask
          next => exact ih hactive hwaiting
        next => exact ih hactive hwaiting

end

end Group

/-! ## Programs that count

As long as a condition on the state holds, a program keeps it and raises a count by a number that is known in advance,
whatever others have counted in the meantime. Side by side, such programs raise the count by all their numbers together.
-/

namespace Steps

variable {σ α β γ : Type} {holds : σ → Prop} {count : σ → Int64}

/-- Whether nobody else has acted. -/
def Undisturbed (s t : σ) : Prop := t = s

theorem undisturbed_refl (s : σ) : Undisturbed s s := rfl

@[simp] theorem add_ofNat_zero (n : Int64) : n + Int64.ofNat 0 = n := Int64.add_zero n

/-- As long as a condition holds, the program keeps it, raises a count by so much in all, and comes to a good value. -/
def Raises (holds : σ → Prop) (count : σ → Int64) (good : α → Prop) : Nat → Steps σ α → Prop
  | number, done value => number = 0 ∧ good value
  | number, step act next => ∀ s, holds s → holds (act s).2 ∧ ∃ now later, number = now + later ∧
      count (act s).2 = count s + Int64.ofNat now ∧ Raises holds count good later (next (act s).1)

section

variable {good : α → Prop} {number : Nat}

theorem raises_pure {value : α} (h : good value) : Raises holds count good 0 (pure value : Steps σ α) := ⟨rfl, h⟩

theorem raises_of_eq {p q : Steps σ α} (h : p = q) (hq : Raises holds count good number q) :
    Raises holds count good number p := h ▸ hq

theorem raises_act {action : σ → α × σ}
    (h : ∀ s, holds s → holds (action s).2 ∧ count (action s).2 = count s + Int64.ofNat number ∧ good (action s).1) :
    Raises holds count good number (act action) := by
  intro s hs
  obtain ⟨hholds, hcount, hgood⟩ := h s hs
  exact ⟨hholds, number, 0, rfl, hcount, rfl, hgood⟩

theorem raises_look {view : σ → α} (h : ∀ s, holds s → good (view s)) : Raises holds count good 0 (look view) :=
  raises_act fun s hs => ⟨hs, (add_ofNat_zero _).symm, h s hs⟩

theorem raises_change {f : σ → σ} (h : ∀ s, holds s → holds (f s) ∧ count (f s) = count s + Int64.ofNat number) :
    Raises holds count (fun _ => True) number (change f) :=
  raises_act fun s hs => ⟨(h s hs).1, (h s hs).2, trivial⟩

/-- One program after another raises the count by both their numbers. -/
theorem Raises.bind {good' : β → Prop} {more : Nat} {p : Steps σ β} {f : β → Steps σ α}
    (h : Raises holds count good' number p) (hf : ∀ value, good' value → Raises holds count good more (f value)) :
    Raises holds count good (number + more) (p >>= f) := by
  induction p generalizing number with
  | done value =>
      obtain ⟨rfl, hgood⟩ := h
      rw [Nat.zero_add]
      exact hf value hgood
  | step act next ih =>
      intro s hs
      obtain ⟨hholds, now, later, rfl, hcount, hnext⟩ := h s hs
      exact ⟨hholds, now, later + more, Nat.add_assoc _ _ _, hcount, ih _ hnext⟩

/-- What counts nothing comes first. -/
theorem Raises.then {good' : β → Prop} {p : Steps σ β} {f : β → Steps σ α} (h : Raises holds count good' 0 p)
    (hf : ∀ value, good' value → Raises holds count good number (f value)) :
    Raises holds count good number (p >>= f) :=
  Nat.zero_add number ▸ h.bind hf

/-- A program that keeps a view of the state counts nothing that the view shows. -/
theorem Keeps.raises {view : σ → γ} {p : Steps σ α} (h : p.Keeps view)
    (hholds : ∀ s t, view t = view s → holds s → holds t) (hcount : ∀ s t, view t = view s → count t = count s) :
    Raises holds count (fun _ => True) 0 p := by
  induction p with
  | done value => exact ⟨rfl, trivial⟩
  | step act next ih =>
      intro s hs
      obtain ⟨hact, hnext⟩ := h s
      exact ⟨hholds s _ hact hs, 0, 0, rfl, (hcount s _ hact).trans (add_ofNat_zero _).symm, ih _ hnext⟩

/-- Left alone by others, a program that counts ends with its number counted. -/
theorem Raises.ensures {p : Steps σ α} (h : Raises holds count good number p) {s : σ} (hs : holds s) :
    Ensures Undisturbed (fun _ _ => True)
      (fun value t => good value ∧ holds t ∧ count t = count s + Int64.ofNat number) p s := by
  induction p generalizing number s with
  | done value =>
      rintro t rfl
      obtain ⟨rfl, hgood⟩ := h
      exact ⟨hgood, hs, (add_ofNat_zero _).symm⟩
  | step act next ih =>
      rintro t rfl
      obtain ⟨hholds, now, later, rfl, hcount, hnext⟩ := h t hs
      rw [Int64.ofNat_add, ← Int64.add_assoc, ← hcount]
      exact ⟨trivial, ih _ hnext hholds⟩

end

end Steps

namespace Group

variable {σ ρ : Type} {holds : σ → Prop} {count : σ → Int64} {good : ρ → Prop} {note : ρ → σ → σ}

/-- What the unfinished tasks of a group have still to count makes up the total. -/
def Counting (holds : σ → Prop) (count : σ → Int64) (good : ρ → Prop) (total : Int64) (tasks : List (Unit × Steps σ ρ))
    (s : σ) : Prop :=
  holds s ∧ ∃ owed, List.Forall₂ (fun task number => Steps.Raises holds count good number task.2) tasks owed ∧
    total = count s + Int64.ofNat owed.sum

theorem counting_kept (hnote : ∀ result s, good result → holds s →
    holds (note result s) ∧ count (note result s) = count s) (total : Int64) :
    Kept note Steps.Undisturbed (fun _ _ => True) (Counting holds count good total) where
  perm tasks others s h hperm := by
    obtain ⟨hs, owed, howed, htotal⟩ := h
    obtain ⟨owed', howed', hperm'⟩ := List.perm_comp_forall₂ hperm.symm howed
    exact ⟨hs, owed', howed', hperm'.sum_eq ▸ htotal⟩
  outside tasks s t h hst := by
    rwa [show t = s from hst]
  step i β act next rest s h := by
    obtain ⟨hs, owed, howed, rfl⟩ := h
    obtain ⟨number, owed, htask, hrest, rfl⟩ := List.forall₂_cons_left_iff.mp howed
    obtain ⟨hholds, now, later, rfl, hcount, hnext⟩ := htask s hs
    refine ⟨trivial, hholds, later :: owed, .cons hnext hrest, ?_⟩
    rw [hcount, List.sum_cons, List.sum_cons, Nat.add_assoc, Int64.ofNat_add now, Int64.add_assoc]
  done i result rest s h := by
    obtain ⟨hs, owed, howed, rfl⟩ := h
    obtain ⟨number, owed, ⟨rfl, hgood⟩, hrest, rfl⟩ := List.forall₂_cons_left_iff.mp howed
    obtain ⟨hholds, hcount⟩ := hnote result s hgood hs
    refine ⟨trivial, hholds, owed, hrest, ?_⟩
    rw [hcount, List.sum_cons, Nat.zero_add]

/-- Tasks that each raise a count by one raise it by their number, whatever the schedule. -/
theorem interleaved_counts (hnote : ∀ result s, good result → holds s →
    holds (note result s) ∧ count (note result s) = count s) (limit : Nat) (schedule : List Nat)
    {tasks : List (Steps σ ρ)} (h : ∀ task ∈ tasks, Steps.Raises holds count good 1 task) {s : σ} (hs : holds s) :
    Steps.Ensures Steps.Undisturbed (fun _ _ => True) (fun _ t => holds t ∧ count t = count s + Int64.ofNat tasks.length)
      (interleaved note limit schedule [] tasks) s := by
  have hprograms : (tasks.map fun task => ((), task)).map Prod.snd = tasks := by simp [Function.comp_def]
  have howed : ∀ tasks : List (Steps σ ρ), (∀ task ∈ tasks, Steps.Raises holds count good 1 task) →
      List.Forall₂ (fun task number => Steps.Raises holds count good number task.2)
        (tasks.map fun task => ((), task)) (List.replicate tasks.length 1) := by
    intro tasks htasks
    induction tasks with
    | nil => exact .nil
    | cons task rest ih =>
        obtain ⟨htask, hrest⟩ := List.forall_mem_cons.mp htasks
        exact .cons htask (ih hrest)
  have hstart : Counting holds count good (count s + Int64.ofNat tasks.length) ([] ++ tasks.map fun task => ((), task)) s :=
    ⟨hs, _, howed tasks h, by simp⟩
  have hend := (counting_kept hnote (count s + Int64.ofNat tasks.length)).interleaved limit schedule [] _ hstart
  rw [hprograms] at hend
  refine hend.weaken ?_
  rintro _ t ⟨ht, owed, howed, htotal⟩
  rw [List.forall₂_nil_left_iff.mp howed] at htotal
  exact ⟨ht, (Steps.add_ofNat_zero _).symm.trans htotal.symm⟩

end Group

end MobilitySweep
