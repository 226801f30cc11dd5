import Mathlib
import MobilitySweep.Steps

/-! # Programs among others

A program keeps a promise among others when, whatever they do between its steps within some bounds,
each of its own steps stays within bounds of its own and its result satisfies a condition. Both bounds
are relations between the state before and the state after.
-/

namespace MobilitySweep

namespace Steps

variable {σ τ α β : Type}

/-- Started from a state, the program only takes steps of the guarantee, and ends with a value for
which the condition holds for good, as long as everybody else acts within the rely. -/
def Ensures (rely guarantee : σ → σ → Prop) (post : α → σ → Prop) : Steps σ α → σ → Prop
  | done value, s => ∀ t, rely s t → post value t
  | step act next, s => ∀ t, rely s t →
      guarantee t (act t).2 ∧ Ensures rely guarantee post (next (act t).1) (act t).2

section

variable {rely guarantee : σ → σ → Prop} {post : α → σ → Prop}

/-- What others did before the first step makes no difference. -/
theorem Ensures.stable (htrans : ∀ r s t, rely r s → rely s t → rely r t) {p : Steps σ α}
    {s t : σ} (h : Ensures rely guarantee post p s) (hst : rely s t) : Ensures rely guarantee post p t := by
  cases p with
  | done value => exact fun u htu => h u (htrans s t u hst htu)
  | step act next => exact fun u htu => h u (htrans s t u hst htu)

/-- Others may do less, the program may be allowed more, and less may be asked of its result. -/
theorem Ensures.mono {rely' guarantee' : σ → σ → Prop} {post' : α → σ → Prop}
    (hrely : ∀ s t, rely' s t → rely s t) (hguarantee : ∀ s t, guarantee s t → guarantee' s t)
    (hpost : ∀ value s, post value s → post' value s) {p : Steps σ α} {s : σ}
    (h : Ensures rely guarantee post p s) : Ensures rely' guarantee' post' p s := by
  induction p generalizing s with
  | done value => exact fun t hst => hpost value t (h t (hrely s t hst))
  | step act next ih =>
      intro t hst
      obtain ⟨hact, hnext⟩ := h t (hrely s t hst)
      exact ⟨hguarantee _ _ hact, ih _ hnext⟩

theorem Ensures.weaken {post' : α → σ → Prop} {p : Steps σ α} {s : σ}
    (h : Ensures rely guarantee post p s) (hpost : ∀ value s, post value s → post' value s) :
    Ensures rely guarantee post' p s :=
  h.mono (fun _ _ => id) (fun _ _ => id) hpost

/-- Two promises of a program are one. -/
theorem Ensures.and {post' : α → σ → Prop} {p : Steps σ α} {s : σ} (h : Ensures rely guarantee post p s)
    (h' : Ensures rely guarantee post' p s) :
    Ensures rely guarantee (fun value t => post value t ∧ post' value t) p s := by
  induction p generalizing s with
  | done value => exact fun t hst => ⟨h t hst, h' t hst⟩
  | step act next ih => exact fun t hst => ⟨(h t hst).1, ih _ (h t hst).2 (h' t hst).2⟩

theorem ensures_pure {value : α} {s : σ} (h : ∀ t, rely s t → post value t) :
    Ensures rely guarantee post (pure value) s := h

theorem ensures_of_eq {p q : Steps σ α} {s : σ} (h : p = q) (hq : Ensures rely guarantee post q s) :
    Ensures rely guarantee post p s := h ▸ hq

theorem bind_bind {γ : Type} (p : Steps σ γ) (f : γ → Steps σ β) (g : β → Steps σ α) :
    (p >>= f) >>= g = p >>= fun value => f value >>= g := by
  induction p with
  | done value => rfl
  | step act next ih => exact congrArg (step act) (funext ih)

/-- A program goes on from every outcome of the one before it, which holds for good. -/
theorem Ensures.bind_stable {post' : β → σ → Prop} {p : Steps σ β} {f : β → Steps σ α} {s : σ}
    (h : Ensures rely guarantee post' p s)
    (hf : ∀ value t, (∀ u, rely t u → post' value u) → Ensures rely guarantee post (f value) t) :
    Ensures rely guarantee post (p >>= f) s := by
  induction p generalizing s with
  | done value => exact hf value s h
  | step act next ih =>
      intro t hst
      obtain ⟨hact, hnext⟩ := h t hst
      exact ⟨hact, ih _ hnext⟩

/-- A program goes on from every outcome of the one before it. -/
theorem Ensures.bind (hrefl : ∀ s, rely s s) {post' : β → σ → Prop} {p : Steps σ β}
    {f : β → Steps σ α} {s : σ} (h : Ensures rely guarantee post' p s)
    (hf : ∀ value t, post' value t → Ensures rely guarantee post (f value) t) :
    Ensures rely guarantee post (p >>= f) s :=
  h.bind_stable fun value t hvalue => hf value t (hvalue t (hrefl t))

theorem ensures_act {action : σ → α × σ} {s : σ}
    (h : ∀ t, rely s t → guarantee t (action t).2 ∧
      ∀ u, rely (action t).2 u → post (action t).1 u) :
    Ensures rely guarantee post (act action) s := h

theorem ensures_look {view : σ → α} {s : σ} (hguarantee : ∀ t, guarantee t t)
    (h : ∀ t, rely s t → ∀ u, rely t u → post (view t) u) :
    Ensures rely guarantee post (look view) s :=
  ensures_act fun t hst => ⟨hguarantee t, h t hst⟩

theorem ensures_change {post : Unit → σ → Prop} {f : σ → σ} {s : σ}
    (h : ∀ t, rely s t → guarantee t (f t) ∧ ∀ u, rely (f t) u → post () u) :
    Ensures rely guarantee post (change f) s :=
  ensures_act h

/-- A relation that neither the program nor the others leave holds between start and end. -/
theorem Ensures.track {kept : σ → σ → Prop} (htrans : ∀ r s t, kept r s → kept s t → kept r t)
    (hrely : ∀ s t, rely s t → kept s t) (hguarantee : ∀ s t, guarantee s t → kept s t)
    {p : Steps σ α} {s : σ} (h : Ensures rely guarantee post p s) :
    Ensures rely guarantee (fun value t => post value t ∧ kept s t) p s := by
  induction p generalizing s with
  | done value => exact fun t hst => ⟨h t hst, hrely s t hst⟩
  | step act next ih =>
      intro t hst
      obtain ⟨hact, hnext⟩ := h t hst
      refine ⟨hact, (ih _ hnext).weaken ?_⟩
      rintro value u ⟨hpost, hkept⟩
      exact ⟨hpost, htrans s t u (hrely s t hst) (htrans t _ u (hguarantee _ _ hact) hkept)⟩

/-- A program on a part of the state, seen from the whole. -/
theorem Ensures.onPart {rely' guarantee' : τ → τ → Prop} {get : τ → σ} {set : τ → σ → τ}
    (hrely : ∀ t u, rely' t u → rely (get t) (get u))
    (hguarantee : ∀ t s, guarantee (get t) s → guarantee' t (set t s))
    (hget : ∀ t s, get (set t s) = s) {p : Steps σ α} {t : τ}
    (h : Ensures rely guarantee post p (get t)) :
    Ensures rely' guarantee' (fun value u => post value (get u)) (p.onPart get set) t := by
  induction p generalizing t with
  | done value => exact fun u htu => h (get u) (hrely t u htu)
  | step act next ih =>
      intro u htu
      obtain ⟨hact, hnext⟩ := h (get u) (hrely t u htu)
      refine ⟨hguarantee u _ hact, ih _ ?_⟩
      rw [hget]
      exact hnext

end

/-- The program run alone but for one change of the state, which strikes before the step with a given
number if the program takes that many. -/
def runStruck (strike : σ → σ) : Nat → Steps σ α → σ → α × σ
  | _, done value, s => (value, s)
  | 0, step act next, s => (next (act (strike s)).1).run (act (strike s)).2
  | count + 1, step act next, s => runStruck strike count (next (act s).1) (act s).2

section

variable {rely guarantee : σ → σ → Prop} {post : α → σ → Prop}

/-- Run alone, a program does what it ensures. -/
theorem Ensures.run (hrefl : ∀ s, rely s s) {p : Steps σ α} {s : σ}
    (h : Ensures rely guarantee post p s) : post (p.run s).1 (p.run s).2 := by
  induction p generalizing s with
  | done value => exact h s (hrefl s)
  | step act next ih => exact ih _ (h s (hrefl s)).2

/-- A strike that others are allowed makes no difference to what a program ensures. -/
theorem Ensures.runStruck (hrefl : ∀ s, rely s s) {strike : σ → σ} (hstrike : ∀ s, rely s (strike s))
    (moment : Nat) {p : Steps σ α} {s : σ} (h : Ensures rely guarantee post p s) :
    post (p.runStruck strike moment s).1 (p.runStruck strike moment s).2 := by
  induction p generalizing moment s with
  | done value =>
      cases moment <;> exact h s (hrefl s)
  | step act next ih =>
      cases moment with
      | zero => exact (h (strike s) (hstrike s)).2.run hrefl
      | succ moment => exact ih _ moment (h s (hrefl s)).2

end

/-! ## What a program keeps -/

/-- Whether every step of a program, from every state, leaves a view of the state as it was. -/
def Keeps {γ : Type} (view : σ → γ) : Steps σ α → Prop
  | done _ => True
  | step act next => ∀ s, view (act s).2 = view s ∧ Keeps view (next (act s).1)

section

variable {γ δ : Type} {view : σ → γ}

theorem keeps_pure (value : α) : Keeps view (pure value : Steps σ α) := trivial

theorem keeps_look (f : σ → α) : Keeps view (look f) := fun _ => ⟨rfl, trivial⟩

theorem keeps_change {f : σ → σ} (h : ∀ s, view (f s) = view s) : Keeps view (change f) :=
  fun s => ⟨h s, trivial⟩

theorem Keeps.bind {p : Steps σ β} {f : β → Steps σ α} (h : Keeps view p) (hf : ∀ value, Keeps view (f value)) :
    Keeps view (p >>= f) := by
  induction p with
  | done value => exact hf value
  | step act next ih => exact fun s => ⟨(h s).1, ih _ (h s).2⟩

theorem Keeps.comp (f : γ → δ) {p : Steps σ α} (h : Keeps view p) : Keeps (fun s => f (view s)) p := by
  induction p with
  | done value => exact trivial
  | step act next ih => exact fun s => ⟨congrArg f (h s).1, ih _ (h s).2⟩

/-- What a program keeps and others leave alone is the same at the end. -/
theorem Keeps.ensures {rely : σ → σ → Prop} (hrely : ∀ s t, rely s t → view t = view s) {p : Steps σ α}
    (h : Keeps view p) (s : σ) : Ensures rely (fun _ _ => True) (fun _ t => view t = view s) p s := by
  induction p generalizing s with
  | done value => exact hrely s
  | step act next ih =>
      intro t hst
      refine ⟨trivial, (ih _ (h t).2 _).weaken ?_⟩
      intro _ u hu
      rw [hu, (h t).1, hrely s t hst]

/-- What a program keeps of a part, it keeps of the whole. -/
theorem Keeps.onPart {get : τ → σ} {set : τ → σ → τ} {whole : τ → δ}
    (hset : ∀ t s, view s = view (get t) → whole (set t s) = whole t) {p : Steps σ α} (h : Keeps view p) :
    Keeps whole (p.onPart get set) := by
  induction p with
  | done value => exact trivial
  | step act next ih => exact fun t => ⟨hset t _ (h (get t)).1, ih _ (h (get t)).2⟩

end

/-! ## What a program answers -/

/-- Whether a program can only end with values for which a condition holds, whatever happens between its steps. -/
def Yields (condition : α → Prop) : Steps σ α → Prop
  | done value => condition value
  | step act next => ∀ s, Yields condition (next (act s).1)

theorem yields_pure {condition : α → Prop} {value : α} (h : condition value) :
    Yields condition (pure value : Steps σ α) := h

theorem yields_act {condition : α → Prop} {action : σ → α × σ} (h : ∀ s, condition (action s).1) :
    Yields condition (act action) := h

/-- What follows a program has to deal with the values that the program can end with. -/
theorem Yields.bind {condition : α → Prop} {condition' : β → Prop} {p : Steps σ β} {f : β → Steps σ α}
    (h : Yields condition' p) (hf : ∀ value, condition' value → Yields condition (f value)) :
    Yields condition (p >>= f) := by
  induction p with
  | done value => exact hf value h
  | step act next ih => exact fun s => ih _ (h s)

/-- What a program answers about a part, it answers about the whole. -/
theorem Yields.onPart {condition : α → Prop} {get : τ → σ} {set : τ → σ → τ} {p : Steps σ α} (h : Yields condition p) :
    Yields condition (p.onPart get set) := by
  induction p with
  | done value => exact h
  | step act next ih => exact fun t => ih _ (h (get t))

theorem yields_of_forall {condition : α → Prop} (p : Steps σ α) (h : ∀ value, condition value) : Yields condition p := by
  induction p with
  | done value => exact h value
  | step act next ih => exact fun s => ih _

/-- What follows a program has to deal with every value. -/
theorem yields_bind {condition : α → Prop} (p : Steps σ β) {f : β → Steps σ α}
    (hf : ∀ value, Yields condition (f value)) : Yields condition (p >>= f) :=
  (yields_of_forall p fun _ => trivial : Yields (fun _ => True) p).bind fun value _ => hf value

theorem Yields.run {condition : α → Prop} {p : Steps σ α} (h : Yields condition p) (s : σ) : condition (p.run s).1 := by
  induction p generalizing s with
  | done value => exact h
  | step act next ih => exact ih _ (h s) _

/-- A strike makes no difference to what a program answers for, wherever it comes. -/
theorem Yields.runStruck {condition : α → Prop} {p : Steps σ α} (h : Yields condition p) (strike : σ → σ) (moment : Nat)
    (s : σ) : condition (p.runStruck strike moment s).1 := by
  induction p generalizing moment s with
  | done value => cases moment <;> exact h
  | step act next ih =>
      cases moment with
      | zero => exact (h (strike s)).run _
      | succ moment => exact ih _ (h s) moment _

end Steps

/-! ## Programs that mirror each other

Two programs on states of different kinds mirror each other for a relation of their states before and one after: from
related states they end with the same value in related states. They need not take the same number of steps. A change
that strikes one of them on its way can strike the other one on its way with the same effect.
-/

namespace Steps

variable {σ τ α β : Type}

/-- The number of steps that a program takes when it is run alone. -/
def length : Steps σ α → σ → Nat
  | done _, _ => 0
  | step act next, s => (next (act s).1).length (act s).2 + 1

theorem length_bind (p : Steps σ β) (f : β → Steps σ α) (s : σ) :
    (p >>= f).length s = p.length s + (f (p.run s).1).length (p.run s).2 := by
  induction p generalizing s with
  | done value => exact (Nat.zero_add _).symm
  | step act next ih =>
      change (next (act s).1 >>= f).length (act s).2 + 1 =
        (next (act s).1).length (act s).2 + 1 +
          (f ((next (act s).1).run (act s).2).1).length ((next (act s).1).run (act s).2).2
      rw [ih]
      omega

/-- A program that is struck while its first part runs. -/
theorem runStruck_bind_of_lt (strike : σ → σ) {moment : Nat} (p : Steps σ β) (f : β → Steps σ α) (s : σ)
    (h : moment < p.length s) :
    (p >>= f).runStruck strike moment s =
      (f (p.runStruck strike moment s).1).run (p.runStruck strike moment s).2 := by
  induction p generalizing moment s with
  | done value => exact absurd h (Nat.not_lt_zero _)
  | step act next ih =>
      cases moment with
      | zero => exact run_bind (next (act (strike s)).1) f (act (strike s)).2
      | succ moment => exact ih _ (act s).2 (Nat.lt_of_succ_lt_succ h)

/-- A program that is not struck while its first part runs. -/
theorem runStruck_bind_of_le (strike : σ → σ) {moment : Nat} (p : Steps σ β) (f : β → Steps σ α) (s : σ)
    (h : p.length s ≤ moment) :
    (p >>= f).runStruck strike moment s =
      (f (p.run s).1).runStruck strike (moment - p.length s) (p.run s).2 := by
  induction p generalizing moment s with
  | done value => rfl
  | step act next ih =>
      cases moment with
      | zero => exact absurd h (Nat.not_succ_le_zero _)
      | succ moment =>
          rw [length, Nat.succ_sub_succ]
          exact ih _ (act s).2 (Nat.le_of_succ_le_succ h)

/-- A program that has come to its end before the strike. -/
theorem runStruck_of_le (strike : σ → σ) {moment : Nat} (p : Steps σ α) (s : σ) (h : p.length s ≤ moment) :
    p.runStruck strike moment s = p.run s := by
  induction p generalizing moment s with
  | done value => cases moment <;> rfl
  | step act next ih =>
      cases moment with
      | zero => exact absurd h (Nat.not_succ_le_zero _)
      | succ moment => exact ih _ (act s).2 (Nat.le_of_succ_le_succ h)

/-- Two programs that mirror each other, for a relation of their states before and one after, and a strike on either
side. -/
structure Mirrors (before after : σ → τ → Prop) (strike : σ → σ) (strike' : τ → τ) (p : Steps σ α) (q : Steps τ α) :
    Prop where
  run : ∀ s t, before s t → (p.run s).1 = (q.run t).1 ∧ after (p.run s).2 (q.run t).2
  struck : ∀ s t, before s t → ∀ moment < p.length s, ∃ moment' < q.length t,
    (p.runStruck strike moment s).1 = (q.runStruck strike' moment' t).1 ∧
      after (p.runStruck strike moment s).2 (q.runStruck strike' moment' t).2

section

variable {before between after : σ → τ → Prop} {strike : σ → σ} {strike' : τ → τ}

theorem mirrors_pure (value : α) (h : ∀ s t, before s t → after s t) :
    Mirrors before after strike strike' (pure value : Steps σ α) (pure value : Steps τ α) :=
  ⟨fun s t hst => ⟨rfl, h s t hst⟩, fun _ _ _ _ hmoment => absurd hmoment (Nat.not_lt_zero _)⟩

/-- Less may be asked of the states after, and more of those before. -/
theorem Mirrors.mono {before' after' : σ → τ → Prop} {p : Steps σ α} {q : Steps τ α}
    (h : Mirrors before after strike strike' p q) (hbefore : ∀ s t, before' s t → before s t)
    (hafter : ∀ s t, after s t → after' s t) : Mirrors before' after' strike strike' p q := by
  refine ⟨fun s t hst => (h.run s t (hbefore s t hst)).imp_right (hafter _ _), fun s t hst moment hmoment => ?_⟩
  obtain ⟨moment', hmoment', hvalue, hend⟩ := h.struck s t (hbefore s t hst) moment hmoment
  exact ⟨moment', hmoment', hvalue, hafter _ _ hend⟩

/-- One program after another, where the first one can only end with some values. If the first part is struck, its
mirror image is struck in its first part, too. -/
theorem Mirrors.bind_yields {condition : β → Prop} {p : Steps σ β} {q : Steps τ β} {f : β → Steps σ α}
    {g : β → Steps τ α} (h : Mirrors before between strike strike' p q) (hp : p.Yields condition)
    (hf : ∀ value, condition value → Mirrors between after strike strike' (f value) (g value)) :
    Mirrors before after strike strike' (p >>= f) (q >>= g) := by
  refine ⟨fun s t hst => ?_, fun s t hst moment hmoment => ?_⟩
  · obtain ⟨hvalue, hbetween⟩ := h.run s t hst
    change ((p.bind f).run s).1 = ((q.bind g).run t).1 ∧ after ((p.bind f).run s).2 ((q.bind g).run t).2
    rw [run_bind, run_bind, ← hvalue]
    exact (hf _ (hp.run s)).run _ _ hbetween
  · rw [length_bind] at hmoment
    by_cases hfirst : moment < p.length s
    · obtain ⟨moment', hmoment', hvalue, hbetween⟩ := h.struck s t hst moment hfirst
      refine ⟨moment', ?_, ?_⟩
      · rw [length_bind]
        omega
      · rw [runStruck_bind_of_lt strike p f s hfirst, runStruck_bind_of_lt strike' q g t hmoment', ← hvalue]
        exact (hf _ (hp.runStruck strike moment s)).run _ _ hbetween
    · obtain ⟨hvalue, hbetween⟩ := h.run s t hst
      obtain ⟨moment', hmoment', hrest⟩ :=
        (hf (p.run s).1 (hp.run s)).struck _ _ hbetween (moment - p.length s) (by omega)
      refine ⟨q.length t + moment', ?_, ?_⟩
      · rw [length_bind, ← hvalue]
        omega
      · rw [runStruck_bind_of_le strike p f s (Nat.le_of_not_lt hfirst),
          runStruck_bind_of_le strike' q g t (Nat.le_add_right _ _), Nat.add_sub_cancel_left, ← hvalue]
        exact hrest

theorem Mirrors.bind {p : Steps σ β} {q : Steps τ β} {f : β → Steps σ α} {g : β → Steps τ α}
    (h : Mirrors before between strike strike' p q)
    (hf : ∀ value, Mirrors between after strike strike' (f value) (g value)) :
    Mirrors before after strike strike' (p >>= f) (q >>= g) :=
  h.bind_yields (yields_of_forall p fun _ => trivial) fun value _ => hf value

theorem mirrors_act (hstrike : ∀ s t, before s t → before (strike s) (strike' t)) {action : σ → α × σ}
    {action' : τ → α × τ}
    (h : ∀ s t, before s t → (action s).1 = (action' t).1 ∧ after (action s).2 (action' t).2) :
    Mirrors before after strike strike' (act action) (act action') := by
  refine ⟨h, fun s t hst moment hmoment => ⟨0, Nat.one_pos, ?_⟩⟩
  obtain rfl : moment = 0 := Nat.lt_one_iff.mp hmoment
  exact h (strike s) (strike' t) (hstrike s t hst)

theorem mirrors_look (hstrike : ∀ s t, before s t → before (strike s) (strike' t)) {look : σ → α} {look' : τ → α}
    (h : ∀ s t, before s t → look s = look' t) :
    Mirrors before before strike strike' (Steps.look look) (Steps.look look') :=
  mirrors_act hstrike fun s t hst => ⟨h s t hst, hst⟩

theorem mirrors_change (hstrike : ∀ s t, before s t → before (strike s) (strike' t)) {f : σ → σ} {f' : τ → τ}
    (h : ∀ s t, before s t → after (f s) (f' t)) : Mirrors before after strike strike' (change f) (change f') :=
  mirrors_act hstrike fun s t hst => ⟨rfl, h s t hst⟩

/-! ### Programs on a part -/

theorem run_onPart {ρ : Type} {get : σ → ρ} {set : σ → ρ → σ} (hget : ∀ s part, get (set s part) = part)
    (hset : ∀ s part part', set (set s part) part' = set s part') (hsame : ∀ s, set s (get s) = s) (p : Steps ρ α)
    (s : σ) : (p.onPart get set).run s = ((p.run (get s)).1, set s (p.run (get s)).2) := by
  induction p generalizing s with
  | done value => simp only [onPart, run, hsame]
  | step act next ih => simp only [onPart, run, ih, hget, hset]

theorem onPart_onPart {ρ : Type} (get : τ → σ) (set : τ → σ → τ) (get' : σ → ρ) (set' : σ → ρ → σ) (p : Steps ρ α) :
    (p.onPart get' set').onPart get set =
      p.onPart (fun t => get' (get t)) fun t part => set t (set' (get t) part) := by
  induction p with
  | done value => rfl
  | step act next ih => exact congrArg (step _) (funext ih)

/-- A strike elsewhere makes no difference to a program on a part. -/
theorem runStruck_onPart {ρ : Type} {get : σ → ρ} {set : σ → ρ → σ} (hget : ∀ s part, get (set s part) = part)
    (hset : ∀ s part part', set (set s part) part' = set s part') (hsame : ∀ s, set s (get s) = s)
    (hstrike : ∀ s part, strike (set s part) = set (strike s) part) (p : Steps ρ α) {moment : Nat} {s : σ}
    (hmoment : moment < (p.onPart get set).length s) :
    (p.onPart get set).runStruck strike moment s = ((p.run (get s)).1, set (strike s) (p.run (get s)).2) := by
  have hpart : get (strike s) = get s := by rw [← hsame s, hstrike, hget, hget]
  induction p generalizing moment s with
  | done value => exact absurd hmoment (Nat.not_lt_zero _)
  | step act next ih =>
      cases moment with
      | zero => simp only [onPart, runStruck, run, run_onPart hget hset hsame, hpart, hget, hset]
      | succ moment =>
          have hthere : get (strike (set s (act (get s)).2)) = get (set s (act (get s)).2) := by
            rw [hstrike, hget, hget]
          refine (ih (act (get s)).1 (Nat.lt_of_succ_lt_succ hmoment) hthere).trans ?_
          simp only [run, hget, hstrike, hset]

/-- Whether a program takes no notice of what may differ between some states: its steps answer the same, and may differ
no further. -/
def Overlooks (same : σ → σ → Prop) : Steps σ α → Prop
  | done _ => True
  | step act next => ∀ s t, same s t →
      (act s).1 = (act t).1 ∧ same (act s).2 (act t).2 ∧ Overlooks same (next (act s).1)

theorem overlooks_act {same : σ → σ → Prop} {action : σ → α × σ}
    (h : ∀ s t, same s t → (action s).1 = (action t).1 ∧ same (action s).2 (action t).2) :
    Overlooks same (act action) := fun s t hst => ⟨(h s t hst).1, (h s t hst).2, trivial⟩

theorem Overlooks.mono_eq {same : σ → σ → Prop} (hsame : ∀ s t, same s t → s = t) (hrefl : ∀ s, same s s)
    (p : Steps σ α) : Overlooks same p := by
  induction p with
  | done value => exact trivial
  | step act next ih =>
      intro s t hst
      obtain rfl := hsame s t hst
      exact ⟨rfl, hrefl _, ih _⟩

/-- A program on a part mirrors itself if it takes no notice of what may differ there. -/
theorem Overlooks.mirrors {ρ : Type} {same : ρ → ρ → Prop} {get : σ → ρ} {get' : τ → ρ} {set : σ → ρ → σ}
    {set' : τ → ρ → τ} (hstrike : ∀ s t, before s t → before (strike s) (strike' t))
    (hget : ∀ s t, before s t → same (get s) (get' t))
    (hset : ∀ s t part part', before s t → same part part' → before (set s part) (set' t part')) {p : Steps ρ α}
    (h : p.Overlooks same) : Mirrors before before strike strike' (p.onPart get set) (p.onPart get' set') := by
  have hstep : ∀ {β : Type} {act : ρ → β × ρ} {next : β → Steps ρ α}, (step act next).Overlooks same →
      ∀ s t, before s t → (act (get s)).1 = (act (get' t)).1 ∧
        before (set s (act (get s)).2) (set' t (act (get' t)).2) ∧ (next (act (get s)).1).Overlooks same := by
    intro β act next h s t hst
    obtain ⟨hanswer, hsame, hnext⟩ := h _ _ (hget s t hst)
    exact ⟨hanswer, hset s t _ _ hst hsame, hnext⟩
  have hrun : ∀ (p : Steps ρ α), p.Overlooks same → ∀ s t, before s t →
      ((p.onPart get set).run s).1 = ((p.onPart get' set').run t).1 ∧
        before ((p.onPart get set).run s).2 ((p.onPart get' set').run t).2 := by
    intro p
    induction p with
    | done value => exact fun _ s t hst => ⟨rfl, hst⟩
    | step act next ih =>
        intro h s t hst
        obtain ⟨hanswer, hafter, hnext⟩ := hstep h s t hst
        simp only [onPart, run, ← hanswer]
        exact ih _ hnext _ _ hafter
  refine ⟨hrun p h, fun s t hst moment hmoment => ⟨moment, ?_⟩⟩
  induction p generalizing moment s t with
  | done value => exact absurd hmoment (Nat.not_lt_zero _)
  | step act next ih =>
      cases moment with
      | zero =>
          refine ⟨Nat.succ_pos _, ?_⟩
          obtain ⟨hanswer, hafter, hnext⟩ := hstep h _ _ (hstrike s t hst)
          simp only [onPart, runStruck, ← hanswer]
          exact hrun _ hnext _ _ hafter
      | succ moment =>
          obtain ⟨hanswer, hafter, hnext⟩ := hstep h s t hst
          obtain ⟨hlength, hend⟩ := ih _ hnext _ _ hafter moment (Nat.lt_of_succ_lt_succ hmoment)
          simp only [onPart, runStruck, length, ← hanswer]
          exact ⟨Nat.succ_lt_succ hlength, hend⟩

/-! ### Steps that do not show -/

/-- Whether no step of a program takes its state out of a relation with another state. -/
def Unseen (related : σ → τ → Prop) : Steps σ α → Prop
  | done _ => True
  | step act next => ∀ s t, related s t → related (act s).2 t ∧ Unseen related (next (act s).1)

theorem unseen_change {related : σ → τ → Prop} {f : σ → σ} (h : ∀ s t, related s t → related (f s) t) :
    Unseen related (change f) := fun s t hst => ⟨h s t hst, trivial⟩

/-- What a program keeps is all that a relation depends on. -/
theorem Keeps.unseen {γ : Type} {view : σ → γ} {related : σ → τ → Prop} {p : Steps σ α} (h : p.Keeps view)
    (hview : ∀ s s' t, view s' = view s → related s t → related s' t) : p.Unseen related := by
  induction p with
  | done value => exact trivial
  | step act next ih => exact fun s t hst => ⟨hview s _ t (h s).1 hst, ih _ (h s).2⟩

theorem Unseen.run {related : σ → τ → Prop} {p : Steps σ α} (h : p.Unseen related) {s : σ} {t : τ} (hst : related s t) :
    related (p.run s).2 t := by
  induction p generalizing s with
  | done value => exact hst
  | step act next ih => exact ih _ (h s t hst).2 (h s t hst).1

theorem Unseen.runStruck {related : σ → τ → Prop} {p : Steps σ α} (h : p.Unseen related)
    (hstrike : ∀ s t, related s t → related (strike s) (strike' t)) {moment : Nat} {s : σ} {t : τ} (hst : related s t)
    (hmoment : moment < p.length s) : related (p.runStruck strike moment s).2 (strike' t) := by
  induction p generalizing moment s with
  | done value => exact absurd hmoment (Nat.not_lt_zero _)
  | step act next ih =>
      cases moment with
      | zero =>
          obtain ⟨hact, hnext⟩ := h _ _ (hstrike s t hst)
          exact hnext.run hact
      | succ moment =>
          obtain ⟨hact, hnext⟩ := h s t hst
          exact ih _ hnext hact (Nat.lt_of_succ_lt_succ hmoment)

/-- Programs without a result mirror each other if each of them takes some steps and none of these shows. -/
theorem mirrors_of_unseen (hstrike : ∀ s t, before s t → before (strike s) (strike' t)) {p : Steps σ Unit}
    {q : Steps τ Unit} (hp : p.Unseen before) (hq : q.Unseen fun t s => before s t) (hpos : ∀ t, 0 < q.length t) :
    Mirrors before before strike strike' p q := by
  refine ⟨fun s t hst => ⟨rfl, hq.run (hp.run hst)⟩, fun s t hst moment hmoment => ⟨0, hpos t, rfl, ?_⟩⟩
  have hleft : before (p.runStruck strike moment s).2 (strike' t) := hp.runStruck hstrike hst hmoment
  -- Behind the strike on the left the steps on the right stay in the relation, too.
  cases q with
  | done value => exact absurd (hpos t) (Nat.not_lt_zero _)
  | step act next =>
      obtain ⟨hact, hnext⟩ := hq _ _ hleft
      exact hnext.run hact

end

end Steps

/-- Tasks that mirror each other one by one do so in turn. -/
theorem Group.inTurn_mirrors {σ τ ρ ι : Type} {same : σ → τ → Prop} {strike : σ → σ} {strike' : τ → τ}
    (hstrike : ∀ s t, same s t → same (strike s) (strike' t)) {note : ρ → σ → σ} {note' : ρ → τ → τ}
    (hnote : ∀ result s t, same s t → same (note result s) (note' result t))
    {task : ι → Steps σ ρ} {task' : ι → Steps τ ρ} {members : List ι}
    (htask : ∀ i ∈ members, Steps.Mirrors same same strike strike' (task i) (task' i)) :
    Steps.Mirrors same same strike strike' (inTurn note (members.map task)) (inTurn note' (members.map task')) := by
  induction members with
  | nil => exact Steps.mirrors_pure () fun _ _ => id
  | cons i rest ih =>
      obtain ⟨hfirst, hrest⟩ := List.forall_mem_cons.mp htask
      refine hfirst.bind fun result => ?_
      exact (Steps.mirrors_change hstrike (hnote result)).bind fun _ => ih hrest

end MobilitySweep
