import MobilitySweep.Proofs.Text.Encoding
import MobilitySweep.Yaml.Cursor

/-! # Cursors that meet nothing amiss

A cursor in a stream without faults and comments stands before some characters at a place. Bringing characters to hand
changes neither, and every move takes it to a place that is known beforehand.
-/

namespace MobilitySweep

/-- A computation that succeeds with a result of some kind. -/
def Gives {ε α : Type} (p : Except ε α) (good : α → Prop) : Prop := ∃ a, p = .ok a ∧ good a

namespace Gives

variable {ε α β : Type} {p : Except ε α} {f : α → Except ε β} {good fine : α → Prop} {best : β → Prop}

theorem ok {a : α} (h : good a) : Gives (.ok a : Except ε α) good := ⟨a, rfl, h⟩

theorem bind (h : Gives p good) (hnext : ∀ a, good a → Gives (f a) best) : Gives (p >>= f) best := by
  obtain ⟨a, rfl, ha⟩ := h
  exact hnext a ha

theorem bind_of_eq {a : α} (h : p = .ok a) (hnext : Gives (f a) best) : Gives (p >>= f) best := by
  rw [h]
  exact hnext

theorem mono (h : Gives p good) (hgood : ∀ a, good a → fine a) : Gives p fine := by
  obtain ⟨a, hp, ha⟩ := h
  exact ⟨a, hp, hgood a ha⟩

end Gives

namespace Yaml

/-- The place some characters further on the same line. -/
def Mark.ahead (m : Mark) (count : Nat) : Mark := ⟨m.index + count, m.line, m.column + count⟩

/-- The start of the next line, behind a line break. -/
def Mark.below (m : Mark) : Mark := ⟨m.index + 1, m.line + 1, 0⟩

@[simp] theorem Mark.ahead_zero (m : Mark) : m.ahead 0 = m := rfl

@[simp] theorem Mark.ahead_ahead (m : Mark) (i j : Nat) : (m.ahead i).ahead j = m.ahead (i + j) := by
  simp [Mark.ahead, Nat.add_assoc]

@[simp] theorem Mark.column_ahead (m : Mark) (count : Nat) : (m.ahead count).column = m.column + count := rfl

@[simp] theorem Mark.column_below (m : Mark) : m.below.column = 0 := rfl

/-- The character that comes first, or the null character at the end of a stream. -/
def first (rest : List Char) : Char := rest.headD (Char.ofNat 0)

@[simp] theorem first_cons (x : Char) (rest : List Char) : first (x :: rest) = x := rfl

@[simp] theorem first_nil : first [] = Char.ofNat 0 := rfl

namespace Cursor

variable {rest tail : List Char} {x : Char} {m : Mark} {c : Cursor}

/-- A cursor before some characters at a place, with no comment waiting and nothing amiss in the stream. -/
structure At (rest : List Char) (m : Mark) (c : Cursor) : Prop where
  rest_eq : c.rest = rest
  mark_eq : c.mark = m
  comments : c.comments = []
  fault : c.window.fault = none
  marked : c.window.marked = false
  spoiled : c.window.spoiled = false
  legible : ∀ x ∈ rest, isByteOrderMark x = false

namespace At

theorem head_eq (h : At rest m c) : c.head = first rest := by
  rw [Cursor.head, h.rest_eq]
  cases rest <;> rfl

theorem peek_eq (h : At rest m c) (distance : Nat) : c.peek distance = first (rest.drop distance) := by
  rw [Cursor.peek, h.rest_eq, first, List.headD_eq_head?_getD, List.head?_drop, List.getD_eq_getElem?_getD]

theorem head_legible (h : At rest m c) : isByteOrderMark c.head = false := by
  rw [h.head_eq]
  cases rest with
  | nil => decide
  | cons x _ => exact h.legible x List.mem_cons_self

/-! ## Bringing characters to hand -/

theorem reach (h : At rest m c) (count : Nat) : ∃ c', c.reach count = (c', true) ∧ At rest m c' := by
  unfold Cursor.reach
  split
  next => exact ⟨c, rfl, h⟩
  next =>
    unfold Window.extend
    generalize Window.takeBlocks (c.mark.index + count) c.window.reached c.window.blocks = taken
    obtain ⟨reached, blocks⟩ := taken
    dsimp only
    split
    next => exact ⟨_, rfl, h.rest_eq, h.mark_eq, h.comments, h.fault, h.head_legible, h.spoiled, h.legible⟩
    next =>
      rw [h.fault]
      exact ⟨_, rfl, h.rest_eq, h.mark_eq, h.comments, rfl, h.head_legible, h.spoiled, h.legible⟩

theorem need (h : At rest m c) (count : Nat) : Gives (c.need count) (At rest m) := by
  obtain ⟨c', hreach, h'⟩ := h.reach count
  rw [Cursor.need, hreach]
  exact .ok h'

/-! ## Moving on -/

theorem skip (h : At (x :: rest) m c) : At rest (m.ahead 1) c.skip where
  rest_eq := by simp [Cursor.skip, h.rest_eq]
  mark_eq := by simp [Cursor.skip, h.mark_eq, Mark.ahead]
  comments := h.comments
  fault := h.fault
  marked := h.marked
  spoiled := h.spoiled
  legible := fun y hy => h.legible y (List.mem_cons_of_mem x hy)

theorem skipMany (passed : List Char) (h : At (passed ++ rest) m c) :
    At rest (m.ahead passed.length) (c.skipMany passed.length) := by
  induction passed generalizing m c with
  | nil => exact h
  | cons x passed ih =>
      have hmoved := ih (h.skip)
      rwa [Mark.ahead_ahead, Nat.add_comm] at hmoved

theorem skipLine (h : At ('\n' :: rest) m c) : At rest m.below c.skipLine := by
  have hmoved : c.skipLine = { c with
      rest := rest
      mark := ⟨c.mark.index + 1, c.mark.line + 1, 0⟩
      breaks := c.breaks + 1 } := by
    rw [Cursor.skipLine, h.rest_eq]
    rfl
  rw [hmoved]
  exact ⟨rfl, by rw [h.mark_eq]; rfl, h.comments, h.fault, h.marked, h.spoiled,
    fun y hy => h.legible y (List.mem_cons_of_mem _ hy)⟩

theorem dropWhile {p : Char → Bool} {passed : List Char} (hpassed : ∀ y ∈ passed, p y = true)
    (hstop : p (first rest) = false) {count : Nat} (hcount : passed.length < count) (h : At (passed ++ rest) m c) :
    Gives (c.dropWhile p count) (At rest (m.ahead passed.length)) := by
  induction passed generalizing count m c with
  | nil =>
      obtain ⟨count, rfl⟩ := Nat.exists_eq_add_one_of_ne_zero (Nat.ne_zero_of_lt hcount)
      refine (h.need 1).bind fun c' h' => ?_
      rw [h'.head_eq, List.nil_append, hstop]
      exact .ok h'
  | cons x passed ih =>
      obtain ⟨count, rfl⟩ := Nat.exists_eq_add_one_of_ne_zero (Nat.ne_zero_of_lt hcount)
      refine (h.need 1).bind fun c' h' => ?_
      rw [h'.head_eq, List.cons_append, first_cons, hpassed x List.mem_cons_self]
      have hmoved := ih (fun y hy => hpassed y (List.mem_cons_of_mem x hy)) (Nat.lt_of_succ_lt_succ hcount) h'.skip
      rwa [Mark.ahead_ahead, Nat.add_comm] at hmoved

/-! ## Comments -/

/-- No comment stands behind the blanks that come next. -/
def Uncommented (rest : List Char) : Prop := first (rest.dropWhile isBlank) ≠ '#'

theorem commentBehindBlanks (count distance : Nat) (hfree : Uncommented (rest.drop distance)) (h : At rest m c) :
    ∃ c', Cursor.commentBehindBlanks count distance c = (none, c') ∧ At rest m c' := by
  induction count generalizing distance c with
  | zero => exact ⟨c, rfl, h⟩
  | succ count ih =>
      obtain ⟨c', hreach, h'⟩ := h.reach (distance + 1)
      rw [Cursor.commentBehindBlanks, hreach]
      dsimp only
      rw [h'.peek_eq]
      cases hbehind : rest.drop distance with
      | nil => exact ⟨c', rfl, h'⟩
      | cons x behind =>
          rw [hbehind] at hfree
          rw [first_cons]
          cases hblank : isBlank x with
          | true =>
              refine ih (distance + 1) ?_ h'
              rw [← List.tail_drop, hbehind, List.tail_cons]
              simpa [Uncommented, List.dropWhile_cons, hblank] using hfree
          | false =>
              have hx : x ≠ '#' := by simpa [Uncommented, List.dropWhile_cons, hblank] using hfree
              exact ⟨c', by simp [hx], h'⟩

theorem skipLineComment (target bound : Nat) (hfree : Uncommented rest) (h : At rest m c) :
    Gives (c.skipLineComment target bound) (At rest m) := by
  rw [Cursor.skipLineComment]
  split
  next => exact .ok h
  next =>
    obtain ⟨c', hnone, h'⟩ := h.commentBehindBlanks commentReach 0 hfree
    rw [hnone]
    exact .ok h'

end At

end Cursor

end Yaml

end MobilitySweep
