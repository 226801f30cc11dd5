import MobilitySweep.Proofs.Mobility.Summaries

/-! # Summaries of any samples

What a summary tells of samples that come in any order, whatever their nodes, times and coordinates: how many blocks of
equal time they form, whether they are in order, where every node was seen last and how far it moved from one of its
samples to the next.
-/

namespace MobilitySweep

open Binary64

/-! ## Samples in order -/

namespace Sample

/-- A sample whose time and coordinates are numbers. -/
structure IsNumber (s : Sample) : Prop where
  time : s.time.isNan = false
  x : s.x.isNan = false
  y : s.y.isNan = false

/-- An earlier time, or the same time and a smaller node. -/
def Before (s t : Sample) : Prop :=
  s.time.less t.time = true ∨ s.time.equals t.time = true ∧ s.node < t.node

theorem before_iff {s t : Sample} (hs : s.time.isNan = false) (ht : t.time.isNan = false) :
    s.Before t ↔ place s.time < place t.time ∨ place s.time = place t.time ∧ s.node < t.node := by
  rw [Before, less_iff hs ht, equals_iff hs ht]

theorem Before.isNan {s t : Sample} (h : s.Before t) : s.time.isNan = false ∧ t.time.isNan = false :=
  h.elim isNan_of_less fun h => isNan_of_equals h.1

theorem Before.trans {s t u : Sample} (hst : s.Before t) (htu : t.Before u) : s.Before u := by
  obtain ⟨hs, ht⟩ := hst.isNan
  have hu := htu.isNan.2
  rw [before_iff hs ht] at hst
  rw [before_iff ht hu] at htu
  rw [before_iff hs hu]
  rcases hst with hst | ⟨hst, hnode⟩
  · rcases htu with htu | ⟨htu, -⟩
    · exact Or.inl (hst.trans htu)
    · exact Or.inl (htu ▸ hst)
  · rcases htu with htu | ⟨htu, hnext⟩
    · exact Or.inl (hst ▸ htu)
    · exact Or.inr ⟨hst.trans htu, Int64.lt_trans hnode hnext⟩

instance : IsTrans Sample Before := ⟨fun _ _ _ => Before.trans⟩

end Sample

namespace Summary

theorem follows_iff {p sample : Sample} (hp : p.time.isNan = false) (hsample : sample.time.isNan = false) :
    follows p sample = true ↔ p.Before sample := by
  have hback := less_iff hsample hp
  have hsame := equals_iff hsample hp
  rw [Sample.before_iff hp hsample, follows, Bool.not_eq_true', ← Bool.not_eq_true, Bool.or_eq_true, Bool.and_eq_true,
    hback, hsame, decide_eq_true_eq, not_or, not_lt, not_and, Int64.not_le]
  constructor
  · rintro ⟨hle, hnode⟩
    rcases hle.lt_or_eq with hlt | heq
    · exact Or.inl hlt
    · exact Or.inr ⟨heq, hnode heq.symm⟩
  · rintro (hlt | ⟨heq, hnode⟩)
    · exact ⟨hlt.le, fun heq => absurd heq hlt.ne'⟩
    · exact ⟨heq.le, fun _ => hnode⟩

/-! ## Fields that gather one value of every sample -/

section

variable {samples : List Sample}

theorem counted_field {α β : Type} {field : Summary → α} {value : Sample → β} {combine : α → β → α}
    (hcount : ∀ previous s sample, field (count previous s sample) = combine (field s) (value sample))
    (previous : Option Sample) (s : Summary) (samples : List Sample) :
    field (counted previous s samples) = (samples.map value).foldl combine (field s) := by
  induction samples generalizing previous s with
  | nil => rfl
  | cons sample rest ih => rw [counted, ih, hcount, List.map_cons, List.foldl_cons]

theorem counted_samples (previous : Option Sample) (s : Summary) (samples : List Sample) :
    (counted previous s samples).samples = s.samples + samples.length := by
  induction samples generalizing previous s with
  | nil => rfl
  | cons sample rest ih =>
      rw [counted, ih, List.length_cons]
      exact Nat.add_right_comm s.samples 1 rest.length

/-! ## The order -/

/-- Samples are found in order one after another. -/
theorem counted_ordered (hnumbers : ∀ x ∈ samples, x.time.isNan = false) {previous : Option Sample}
    (hprevious : ∀ p ∈ previous, p.time.isNan = false) (s : Summary) :
    (counted previous s samples).ordered = true ↔
      s.ordered = true ∧ (previous.toList ++ samples).IsChain Sample.Before := by
  induction samples generalizing previous s with
  | nil => cases previous <;> simp [counted]
  | cons sample rest ih =>
      obtain ⟨hsample, hrest⟩ := List.forall_mem_cons.mp hnumbers
      rw [counted, ih hrest (by simpa using hsample)]
      have hordered : (count previous s sample).ordered = (s.ordered && inOrder previous sample) := rfl
      cases previous with
      | none => simp [hordered, inOrder]
      | some p =>
          have hfollows := follows_iff (hprevious p rfl) hsample
          simp [hordered, inOrder, hfollows, List.isChain_cons_cons, and_assoc]

/-! ## Blocks of equal time -/

/-- Samples cut into blocks, each of one time and of another time than the next. -/
structure TimeBlocks (samples : List Sample) (blocks : List (List Sample)) : Prop where
  flatten : blocks.flatten = samples
  ne_nil : ∀ block ∈ blocks, block ≠ []
  same : ∀ block ∈ blocks, ∀ x ∈ block, ∀ y ∈ block, x.time.equals y.time = true
  differ : blocks.IsChain fun earlier later => ∀ x ∈ earlier, ∀ y ∈ later, y.time.equals x.time = false

theorem exists_timeBlocks (hnumbers : ∀ x ∈ samples, x.time.isNan = false) : ∃ blocks, TimeBlocks samples blocks := by
  let near (x y : Sample) : Bool := x.time.equals y.time
  have hflatten : (samples.splitBy near).flatten = samples := List.flatten_splitBy near samples
  have hnumber : ∀ block ∈ samples.splitBy near, ∀ x ∈ block, x.time.isNan = false := by
    intro block hblock x hx
    apply hnumbers
    rw [← hflatten]
    exact List.mem_flatten_of_mem hblock hx
  have hsame : ∀ block ∈ samples.splitBy near, ∀ x ∈ block, ∀ y ∈ block, place x.time = place y.time := by
    intro block hblock
    have hchain : block.IsChain (Function.onFun Eq fun x => place x.time) :=
      (List.isChain_of_mem_splitBy hblock).imp_of_mem_imp fun x y hx hy hnear =>
        (equals_iff (hnumber block hblock x hx) (hnumber block hblock y hy)).mp hnear
    exact (List.isChain_iff_pairwise.mp hchain).forall_of_forall fun _ _ => rfl
  refine ⟨samples.splitBy near, hflatten, fun _ => List.ne_nil_of_mem_splitBy, ?_, ?_⟩
  · intro block hblock x hx y hy
    exact (equals_iff (hnumber block hblock x hx) (hnumber block hblock y hy)).mpr (hsame block hblock x hx y hy)
  · apply (List.isChain_getLast_head_splitBy near samples).imp_of_mem_imp
    rintro earlier later hearlier hlater ⟨he, hl, hapart⟩ x hx y hy
    have hlast := List.getLast_mem he
    have hhead := List.head_mem hl
    rw [← Bool.not_eq_true, equals_iff (hnumber _ hlater y hy) (hnumber _ hearlier x hx),
      hsame later hlater y hy _ hhead, hsame earlier hearlier x hx _ hlast, eq_comm,
      ← equals_iff (hnumber _ hearlier _ hlast) (hnumber _ hlater _ hhead), Bool.not_eq_true]
    exact hapart

theorem count_sampledTicks (previous : Option Sample) (s : Summary) (sample : Sample) :
    (count previous s sample).sampledTicks = if opens previous sample then s.sampledTicks + 1 else s.sampledTicks := rfl

/-- The rest of a block starts no tick. -/
theorem counted_rest {p : Sample} (hsame : ∀ x ∈ p :: samples, ∀ y ∈ p :: samples, x.time.equals y.time = true)
    (s : Summary) : (counted (some p) s samples).sampledTicks = s.sampledTicks := by
  induction samples generalizing p s with
  | nil => rfl
  | cons sample rest ih =>
      have hopens : opens (some p) sample = false := by
        rw [opens, hsame sample (by simp) p (by simp), Bool.not_true]
      have hrest := fun x hx y hy => hsame x (List.mem_cons_of_mem p hx) y (List.mem_cons_of_mem p hy)
      rw [counted, ih hrest, count_sampledTicks, hopens, if_neg Bool.false_ne_true]

/-- Every block starts one tick. -/
theorem TimeBlocks.counted {blocks : List (List Sample)} (h : TimeBlocks samples blocks) {previous : Option Sample}
    (hprevious : ∀ p ∈ previous, ∀ block ∈ blocks.head?, ∀ x ∈ block, x.time.equals p.time = false) (s : Summary) :
    (counted previous s samples).sampledTicks = s.sampledTicks + blocks.length := by
  induction blocks generalizing previous s samples with
  | nil =>
      obtain rfl : samples = [] := h.flatten.symm
      rfl
  | cons block blocks ih =>
      obtain ⟨x, rest, rfl⟩ := List.exists_cons_of_ne_nil (h.ne_nil block List.mem_cons_self)
      obtain ⟨hdiffer, hlater⟩ := List.isChain_cons.mp h.differ
      have hopens : opens previous x = true := by
        cases previous with
        | none => rfl
        | some p => rw [opens, hprevious p rfl _ rfl x List.mem_cons_self, Bool.not_false]
      have hblocks : TimeBlocks blocks.flatten blocks :=
        ⟨rfl, fun block hblock => h.ne_nil block (List.mem_cons_of_mem _ hblock),
          fun block hblock => h.same block (List.mem_cons_of_mem _ hblock), hlater⟩
      have hsame := h.same _ List.mem_cons_self
      rw [← h.flatten, List.flatten_cons, List.cons_append, counted, counted_append]
      rw [ih hblocks ?_, counted_rest hsame, count_sampledTicks, hopens, if_pos rfl, List.length_cons,
        Nat.add_right_comm, Nat.add_assoc]
      -- What comes before the next block stands in this one.
      intro p hp block hblock y hy
      have hmem : p ∈ x :: rest := by
        rcases Option.or_eq_some_iff.mp hp with hp | ⟨-, hp⟩
        · exact List.mem_cons_of_mem x (List.mem_of_getLast? hp)
        · obtain rfl : x = p := Option.some.inj hp
          exact List.mem_cons_self
      exact hdiffer block hblock p hmem y hy

/-! ## Last samples and moves -/

/-- The last sample of a node. -/
def lastOf (node : Int64) (samples : List Sample) : Option Sample := (samples.filter (·.node = node)).getLast?

theorem lastOf_concat (node : Int64) (samples : List Sample) (sample : Sample) :
    lastOf node (samples ++ [sample]) = if sample.node = node then some sample else lastOf node samples := by
  by_cases h : sample.node = node
  · simp [lastOf, h]
  · simp [lastOf, h]

theorem node_of_lastOf {node : Int64} {sample : Sample} (h : lastOf node samples = some sample) : sample.node = node := by
  simpa using List.of_mem_filter (List.mem_of_getLast? h)

/-- A sample and the one of its node that comes before it. -/
def Successive (samples : List Sample) (earlier later : Sample) : Prop :=
  ∃ front back, samples = front ++ later :: back ∧ lastOf later.node front = some earlier

theorem successive_concat {sample earlier later : Sample} :
    Successive (samples ++ [sample]) earlier later ↔
      Successive samples earlier later ∨ sample = later ∧ lastOf later.node samples = some earlier := by
  constructor
  · rintro ⟨front, back, hsplit, hlast⟩
    rcases back.eq_nil_or_concat with rfl | ⟨back, last, rfl⟩
    · obtain ⟨rfl, rfl⟩ := by simpa using hsplit
      exact Or.inr ⟨rfl, hlast⟩
    · rw [List.concat_eq_append, ← List.cons_append, ← List.append_assoc] at hsplit
      obtain ⟨rfl, -⟩ := List.append_inj' hsplit rfl
      exact Or.inl ⟨front, back, rfl, hlast⟩
  · rintro (⟨front, back, rfl, hlast⟩ | ⟨rfl, hlast⟩)
    · exact ⟨front, back ++ [sample], by simp, hlast⟩
    · exact ⟨samples, [], rfl, hlast⟩

theorem Successive.mem {earlier later : Sample} (h : Successive samples earlier later) :
    earlier ∈ samples ∧ later ∈ samples := by
  obtain ⟨front, back, rfl, hlast⟩ := h
  have hfront : earlier ∈ front := List.mem_of_mem_filter (List.mem_of_getLast? hlast)
  exact ⟨List.mem_append_left _ hfront, by simp⟩

/-- The moves from one sample to another along the axes. -/
def movesBetween (earlier later : Sample) : Set ℕ∞ := {distance later.x earlier.x, distance later.y earlier.y}

/-- The moves of all nodes from their samples to the next. -/
def moves (samples : List Sample) : Set ℕ∞ :=
  {move | ∃ earlier later, Successive samples earlier later ∧ move ∈ movesBetween earlier later}

/-- Two samples between which the moves are computed without rounding. -/
def ExactMoves (earlier later : Sample) : Prop :=
  ExactDifference later.x earlier.x ∧ ExactDifference later.y earlier.y

instance (earlier later : Sample) : Decidable (ExactMoves earlier later) :=
  inferInstanceAs (Decidable (_ ∧ _))

theorem stepBetween_eq {earlier later : Sample} (h : ExactMoves earlier later) :
    ∃ move, stepBetween earlier later = ofUnits move ∧ IsGreatest (movesBetween earlier later) move :=
  ⟨_, by rw [stepBetween, h.1, h.2, max_ofUnits], isGreatest_pair⟩

theorem moves_concat (samples : List Sample) (sample : Sample) :
    moves (samples ++ [sample]) =
      moves samples ∪ {move | ∃ earlier, lastOf sample.node samples = some earlier ∧ move ∈ movesBetween earlier sample} := by
  ext move
  simp only [moves, successive_concat, Set.mem_ofPred_eq, Set.mem_union]
  constructor
  · rintro ⟨earlier, later, hsuccessive | ⟨rfl, hlast⟩, hmove⟩
    · exact Or.inl ⟨earlier, later, hsuccessive, hmove⟩
    · exact Or.inr ⟨earlier, hlast, hmove⟩
  · rintro (⟨earlier, later, hsuccessive, hmove⟩ | ⟨earlier, hlast, hmove⟩)
    · exact ⟨earlier, later, Or.inl hsuccessive, hmove⟩
    · exact ⟨earlier, sample, Or.inr ⟨rfl, hlast⟩, hmove⟩

/-- What is kept of the nodes: the last samples in ascending order, and the largest move. -/
structure Surveyed (samples : List Sample) (s : Summary) : Prop where
  sorted : s.final.Pairwise fun x y => x.node < y.node
  final : ∀ x, x ∈ s.final ↔ lastOf x.node samples = some x
  step : ∃ largest, s.maxStep = ofUnits largest ∧ IsGreatest (insert 0 (moves samples)) largest

theorem mem_record {sample x : Sample} {final : List Sample} (hsorted : final.Pairwise fun x y => x.node < y.node) :
    x ∈ record sample final ↔ x = sample ∨ x ∈ final ∧ x.node ≠ sample.node := by
  induction final with
  | nil => simp [record]
  | cons other rest ih =>
      obtain ⟨hother, hrest⟩ := List.pairwise_cons.mp hsorted
      unfold record
      split
      next hlt =>
        have hapart : x ∈ other :: rest → x.node ≠ sample.node := by
          intro hx
          rcases List.mem_cons.mp hx with rfl | hx
          · exact (Int64.ne_of_lt hlt).symm
          · exact (Int64.ne_of_lt (Int64.lt_trans hlt (hother x hx))).symm
        rw [List.mem_cons, and_iff_left_of_imp hapart]
      next =>
        split
        next hsame =>
          have hapart : x ∈ rest → x.node ≠ sample.node := fun hx => hsame ▸ (Int64.ne_of_lt (hother x hx)).symm
          rw [List.mem_cons, List.mem_cons, or_and_right, and_iff_left_of_imp hapart]
          have hreplaced : ¬ (x = other ∧ x.node ≠ sample.node) := by
            rintro ⟨rfl, hne⟩
            exact hne hsame.symm
          simp only [hreplaced, false_or]
        next hne =>
          have hkept : x = other → x.node ≠ sample.node := fun hx => hx ▸ Ne.symm hne
          rw [List.mem_cons, List.mem_cons, ih hrest, or_and_right, and_iff_left_of_imp hkept, or_left_comm]

theorem record_sorted (sample : Sample) {final : List Sample} (hsorted : final.Pairwise fun x y => x.node < y.node) :
    (record sample final).Pairwise fun x y => x.node < y.node := by
  induction final with
  | nil => simp [record]
  | cons other rest ih =>
      obtain ⟨hother, hrest⟩ := List.pairwise_cons.mp hsorted
      unfold record
      split
      next hlt =>
        refine List.pairwise_cons.mpr ⟨?_, hsorted⟩
        intro d hd
        rcases List.mem_cons.mp hd with rfl | hd
        · exact hlt
        · exact Int64.lt_trans hlt (hother d hd)
      next hnot =>
        split
        next hsame =>
          rw [← hsame] at hother
          exact List.pairwise_cons.mpr ⟨hother, hrest⟩
        next hne =>
          refine List.pairwise_cons.mpr ⟨?_, ih hrest⟩
          intro d hd
          rcases (mem_record hrest).mp hd with rfl | ⟨hd, -⟩
          · exact Int64.lt_of_le_of_ne (Int64.not_lt.mp hnot) (Ne.symm hne)
          · exact hother d hd

variable {sample : Sample} {previous : Option Sample} {s : Summary}

/-- The last sample of a node is found. -/
theorem Surveyed.find? (h : Surveyed samples s) (node : Int64) :
    s.final.find? (·.node = node) = lastOf node samples := by
  cases hfound : s.final.find? (·.node = node) with
  | some x =>
      obtain rfl : x.node = node := by simpa using List.find?_some hfound
      exact ((h.final x).mp (List.mem_of_find?_eq_some hfound)).symm
  | none =>
      symm
      rw [Option.eq_none_iff_forall_ne_some]
      intro x hlast
      have hnode := node_of_lastOf hlast
      have hmem : x ∈ s.final := (h.final x).mpr (hnode ▸ hlast)
      simpa [hnode] using List.find?_eq_none.mp hfound x hmem

theorem Surveyed.count (h : Surveyed samples s) (hexact : ∀ p, lastOf sample.node samples = some p → ExactMoves p sample) :
    Surveyed (samples ++ [sample]) (Summary.count previous s sample) := by
  refine ⟨record_sorted sample h.sorted, ?_, ?_⟩
  · intro x
    have hfinal : (Summary.count previous s sample).final = record sample s.final := rfl
    rw [hfinal, mem_record h.sorted, h.final, lastOf_concat]
    split
    next hnode => simp [hnode, eq_comm]
    next hnode =>
      have hother : x ≠ sample := by
        rintro rfl
        exact hnode rfl
      simp [hother, Ne.symm hnode]
  · obtain ⟨largest, hlargest, hgreatest⟩ := h.step
    have hstep : (Summary.count previous s sample).maxStep = (s.final.find? (·.node = sample.node)).elim s.maxStep
        fun seen => Binary64.max s.maxStep (stepBetween seen sample) := by
      unfold Summary.count
      cases s.final.find? (·.node = sample.node) <;> rfl
    rw [hstep, h.find?, moves_concat]
    cases hlast : lastOf sample.node samples with
    | none => exact ⟨largest, hlargest, by simpa using hgreatest⟩
    | some p =>
        obtain ⟨move, hmove, hmoves⟩ := stepBetween_eq (hexact p hlast)
        refine ⟨largest ⊔ move, ?_, ?_⟩
        · rw [Option.elim_some, hlargest, hmove, max_ofUnits]
        · rw [← Set.insert_union]
          simpa using hgreatest.union hmoves

theorem surveyed_counted (hfinal : s.final = []) (hstep : s.maxStep = .zero)
    (hexact : ∀ earlier later, Successive samples earlier later → ExactMoves earlier later) :
    Surveyed samples (counted previous s samples) := by
  -- The samples are counted in order, so the induction takes them off from behind.
  induction samples using List.reverseRecOn with
  | nil =>
      have hmoves : moves [] = ∅ := by
        simp [moves, Successive]
      refine ⟨by simp [counted, hfinal], by simp [counted, hfinal, lastOf], 0, hstep, ?_⟩
      rw [hmoves]
      simp
  | append_singleton front sample ih =>
      rw [counted_append]
      apply (ih fun earlier later h => hexact earlier later (successive_concat.mpr (Or.inl h))).count
      intro p hlast
      exact hexact p sample (successive_concat.mpr (Or.inr ⟨rfl, hlast⟩))

end

/-! ## What a summary tells -/

/-- A summary of no samples yet. -/
structure IsFresh (s : Summary) : Prop where
  samples : s.samples = 0
  sampledTicks : s.sampledTicks = 0
  ordered : s.ordered = true
  lastTime : s.lastTime = .zero
  maxStep : s.maxStep = .zero
  final : s.final = []

theorem ofSamples_eq (samples : List Sample) :
    ∃ s, IsFresh s ∧
      ofSamples samples = { counted none s samples with nodes := (counted none s samples).final.length } := by
  cases samples with
  | nil => exact ⟨empty, ⟨rfl, rfl, rfl, rfl, rfl, rfl⟩, rfl⟩
  | cons first rest => exact ⟨start first, ⟨rfl, rfl, rfl, rfl, rfl, rfl⟩, countAll_eq none (start first) (first :: rest)⟩

/-- What the summary of some samples tells of them: how many they are, the last sample of every node that occurs, in
ascending order of the nodes, the number of blocks of equal time, whether every sample is before all that follow it,
the largest move of a node from one of its samples to the next, none being a move of zero, and the bounds of the
coordinates. -/
structure Describes (s : Summary) (samples : List Sample) : Prop where
  length : s.samples = samples.length
  sorted : s.final.Pairwise fun x y => x.node < y.node
  final : ∀ x, x ∈ s.final ↔ lastOf x.node samples = some x
  nodes : s.nodes = s.final.length
  blocks : ∃ blocks, TimeBlocks samples blocks
  ticks : ∀ blocks, TimeBlocks samples blocks → s.sampledTicks = blocks.length
  ordered : s.ordered = true ↔ samples.Pairwise Sample.Before
  step : ∃ largest, s.maxStep = ofUnits largest ∧ IsGreatest (insert 0 (moves samples)) largest
  minX : samples ≠ [] → IsSmallest s.minX (samples.map (·.x))
  maxX : samples ≠ [] → IsLargest s.maxX (samples.map (·.x))
  minY : samples ≠ [] → IsSmallest s.minY (samples.map (·.y))
  maxY : samples ≠ [] → IsLargest s.maxY (samples.map (·.y))

section

variable {samples : List Sample}

/-- A field that starts at the value of the first sample. -/
theorem field_ofSamples {field : Summary → Binary64} {value : Sample → Binary64} {pick : Binary64 → Binary64 → Binary64}
    (hstart : ∀ first, field (start first) = value first)
    (hcount : ∀ previous s sample, field (count previous s sample) = pick (field s) (value sample))
    (hnodes : ∀ s nodes, field { s with nodes := nodes } = field s) (hsome : samples ≠ []) :
    ∃ x ∈ samples.map value, field (ofSamples samples) = (samples.map value).foldl pick x := by
  obtain ⟨first, rest, rfl⟩ := List.exists_cons_of_ne_nil hsome
  refine ⟨value first, List.mem_cons_self, ?_⟩
  rw [ofSamples, countAll_eq, hnodes, counted_field hcount, hstart]

theorem isLargest_ofSamples {field : Summary → Binary64} {value : Sample → Binary64}
    (hstart : ∀ first, field (start first) = value first)
    (hcount : ∀ previous s sample, field (count previous s sample) = Binary64.max (field s) (value sample))
    (hnodes : ∀ s nodes, field { s with nodes := nodes } = field s) (hnumbers : ∀ x ∈ samples, (value x).isNan = false)
    (hsome : samples ≠ []) : IsLargest (field (ofSamples samples)) (samples.map value) := by
  obtain ⟨x, hx, hfield⟩ := field_ofSamples hstart hcount hnodes hsome
  have hvalues : ∀ v ∈ samples.map value, v.isNan = false := List.forall_mem_map.mpr hnumbers
  rw [hfield]
  exact (isLargest_foldl (hvalues x hx) hvalues).tail hx

theorem isSmallest_ofSamples {field : Summary → Binary64} {value : Sample → Binary64}
    (hstart : ∀ first, field (start first) = value first)
    (hcount : ∀ previous s sample, field (count previous s sample) = Binary64.min (field s) (value sample))
    (hnodes : ∀ s nodes, field { s with nodes := nodes } = field s) (hnumbers : ∀ x ∈ samples, (value x).isNan = false)
    (hsome : samples ≠ []) : IsSmallest (field (ofSamples samples)) (samples.map value) := by
  obtain ⟨x, hx, hfield⟩ := field_ofSamples hstart hcount hnodes hsome
  have hvalues : ∀ v ∈ samples.map value, v.isNan = false := List.forall_mem_map.mpr hnumbers
  rw [hfield]
  exact (isSmallest_foldl (hvalues x hx) hvalues).tail hx

/-- The summary of samples without NaN describes them, if no move between two of them is rounded. -/
theorem summary_describes_samples (hnumbers : ∀ x ∈ samples, x.IsNumber)
    (hexact : ∀ earlier later, Successive samples earlier later → ExactMoves earlier later) :
    (ofSamples samples).Describes samples := by
  obtain ⟨s, hfresh, hsummary⟩ := ofSamples_eq samples
  have htimes : ∀ x ∈ samples, x.time.isNan = false := fun x hx => (hnumbers x hx).time
  have hx : ∀ x ∈ samples, x.x.isNan = false := fun x hx => (hnumbers x hx).x
  have hy : ∀ x ∈ samples, x.y.isNan = false := fun x hx => (hnumbers x hx).y
  have hsurveyed : Surveyed samples (counted none s samples) := surveyed_counted hfresh.final hfresh.maxStep hexact
  have hnone : ∀ p ∈ (none : Option Sample), p.time.isNan = false := by simp
  have hordered := counted_ordered htimes hnone s
  exact {
    length := by
      rw [hsummary, counted_samples, hfresh.samples, Nat.zero_add]
    sorted := by
      rw [hsummary]
      exact hsurveyed.sorted
    final := by
      rw [hsummary]
      exact hsurveyed.final
    nodes := by
      rw [hsummary]
    blocks := exists_timeBlocks htimes
    ticks := by
      intro blocks hblocks
      rw [hsummary, hblocks.counted (by simp) s, hfresh.sampledTicks, Nat.zero_add]
    ordered := by
      rw [hsummary, hordered, ← List.isChain_iff_pairwise]
      exact and_iff_right hfresh.ordered
    step := by
      rw [hsummary]
      exact hsurveyed.step
    minX := isSmallest_ofSamples (fun _ => rfl) (fun _ _ _ => rfl) (fun _ _ => rfl) hx
    maxX := isLargest_ofSamples (fun _ => rfl) (fun _ _ _ => rfl) (fun _ _ => rfl) hx
    minY := isSmallest_ofSamples (fun _ => rfl) (fun _ _ _ => rfl) (fun _ _ => rfl) hy
    maxY := isLargest_ofSamples (fun _ => rfl) (fun _ _ _ => rfl) (fun _ _ => rfl) hy }

/-- Three samples of two nodes, the last of which goes back in time. -/
def wayBack : List Sample :=
  [⟨1, .finite false (5 * one), .finite false (3 * one), .zero⟩, ⟨0, .finite false (5 * one), .zero, .finite true one⟩,
    ⟨1, .zero, .finite true one, .finite false one⟩]

theorem way_back_is_described :
    (ofSamples wayBack).Describes wayBack ∧ (ofSamples wayBack).ordered = false ∧
      (ofSamples wayBack).maxStep = .finite false (4 * one) := by
  refine ⟨summary_describes_samples ?_ ?_, by decide +kernel, by decide +kernel⟩
  · intro x hx
    have hall : ∀ x ∈ wayBack, x.time.isNan = false ∧ x.x.isNan = false ∧ x.y.isNan = false := by decide +kernel
    obtain ⟨htime, hx, hy⟩ := hall x hx
    exact ⟨htime, hx, hy⟩
  · intro earlier later hsuccessive
    have hall : ∀ x ∈ wayBack, ∀ y ∈ wayBack, ExactMoves x y := by decide +kernel
    obtain ⟨hearlier, hlater⟩ := hsuccessive.mem
    exact hall earlier hearlier later hlater

/-! ## The last time -/

theorem counted_firstTime (previous : Option Sample) (s : Summary) (samples : List Sample) :
    (counted previous s samples).firstTime = s.firstTime := by
  induction samples generalizing previous s with
  | nil => rfl
  | cons sample rest ih => exact ih _ _

theorem firstTime_mem (samples : List Sample) : (ofSamples samples).firstTime ∈ .zero :: samples.map (·.time) := by
  cases samples with
  | nil => exact List.mem_cons_self
  | cons first rest =>
      have hfirst : (ofSamples (first :: rest)).firstTime = first.time := by
        rw [ofSamples, countAll_eq, counted_firstTime, start]
      rw [hfirst]
      exact List.mem_cons_of_mem _ List.mem_cons_self

theorem isLargest_lastTime (hnumbers : ∀ x ∈ samples, x.time.isNan = false) :
    IsLargest (ofSamples samples).lastTime (.zero :: samples.map (·.time)) := by
  obtain ⟨s, hfresh, hsummary⟩ := ofSamples_eq samples
  have hlast : (counted none s samples).lastTime = (samples.map (·.time)).foldl Binary64.max s.lastTime :=
    counted_field (fun _ _ _ => rfl) none s samples
  rw [hsummary, hlast, hfresh.lastTime]
  exact isLargest_foldl rfl (List.forall_mem_map.mpr hnumbers)

/-- The last time starts at zero. So no sample is later, nor is the first, but it is the time of a sample just if some
sample's time is not negative, and zero otherwise. -/
theorem last_time_is_latest_iff (hnumbers : ∀ x ∈ samples, x.time.isNan = false) :
    (∀ x ∈ samples, (ofSamples samples).lastTime.less x.time = false) ∧
      (ofSamples samples).lastTime.less (ofSamples samples).firstTime = false ∧
      ((∃ x ∈ samples, x.time.equals (ofSamples samples).lastTime = true) ↔ ∃ x ∈ samples, x.time.less .zero = false) ∧
      ((∀ x ∈ samples, x.time.less .zero = true) → (ofSamples samples).lastTime = .zero) := by
  have hlargest := isLargest_lastTime hnumbers
  have hvalues : ∀ v ∈ samples.map (·.time), v.isNan = false := List.forall_mem_map.mpr hnumbers
  refine ⟨?_, hlargest.none_above _ (firstTime_mem samples), ?_, ?_⟩
  · intro x hx
    exact hlargest.none_above x.time (List.mem_cons_of_mem _ (List.mem_map_of_mem hx))
  · simpa using hlargest.attained_iff rfl hvalues
  · intro hbelow
    exact hlargest.eq_floor (List.forall_mem_map.mpr hbelow)

theorem way_back_ends_at_five :
    (ofSamples wayBack).lastTime = .finite false (5 * one) ∧
      (∃ x ∈ wayBack, x.time.equals (ofSamples wayBack).lastTime = true) ∧
      ∀ x ∈ wayBack, (ofSamples wayBack).lastTime.less x.time = false := by
  have hnumbers : ∀ x ∈ wayBack, x.time.isNan = false := by decide +kernel
  have hlatest := last_time_is_latest_iff hnumbers
  have hsome : ∃ x ∈ wayBack, x.time.less .zero = false := by decide +kernel
  exact ⟨by decide +kernel, hlatest.2.2.1.mpr hsome, hlatest.1⟩

/-- Where all times are negative, the last time is zero, which is the time of no sample. -/
theorem negative_times_end_at_zero :
    Trace.read "0 -5 0 0\n" = .ok [⟨0, .finite true (5 * one), .zero, .zero⟩] ∧
      (ofSamples [⟨0, .finite true (5 * one), .zero, .zero⟩]).lastTime = .zero ∧
      ¬ ∃ x ∈ [(⟨0, .finite true (5 * one), .zero, .zero⟩ : Sample)],
        x.time.equals (ofSamples [⟨0, .finite true (5 * one), .zero, .zero⟩]).lastTime = true := by
  decide +kernel

end

end Summary

end MobilitySweep
