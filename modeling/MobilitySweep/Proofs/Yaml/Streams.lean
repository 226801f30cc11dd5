import MobilitySweep.Proofs.Yaml.Scalars
import MobilitySweep.Yaml.TokenStream

/-! # Token streams inside blocks

A stream stands inside some blocks, each indented four columns more than the one around it. Where no simple key is
required, keys are given up and saved without a flaw; white space is passed up to the next token, and blocks beyond a
column are closed there.
-/

namespace MobilitySweep

namespace Yaml

open Cursor

namespace TokenStream

variable {σ : TokenStream} {rest : List Char} {x : Char} {m : Mark} {c : Cursor} {depth : Nat}

theorem during_gives {α : Type} {p : Except Halt α} {good : α → Prop} (h : Gives p good) : Gives (σ.during p) good := by
  obtain ⟨a, rfl, ha⟩ := h
  exact .ok ha

/-- The kinds of the tokens in the queue. -/
def kinds (σ : TokenStream) : List TokenKind := σ.queue.map Token.kind

/-! ## Blocks -/

/-- The indentation of the innermost of some blocks. -/
def indentOf : Nat → Int
  | 0 => -1
  | depth + 1 => 4 * depth

/-- The indentations around the innermost of some blocks. -/
def enclosing : Nat → List Int
  | 0 => []
  | depth + 1 => indentOf depth :: enclosing depth

theorem length_enclosing (depth : Nat) : (enclosing depth).length = depth := by
  induction depth with
  | zero => rfl
  | succ depth ih => rw [enclosing, List.length_cons, ih]

theorem indentOf_lt_iff {i j : Nat} : indentOf i < indentOf j ↔ i < j := by
  cases i <;> cases j <;> simp [indentOf] <;> omega

/-- A stream inside some blocks and outside flow collections. -/
structure Inside (depth : Nat) (σ : TokenStream) : Prop where
  started : σ.started = true
  flat : σ.flowLevel = 0
  indent : σ.indent = indentOf depth
  indents : σ.indents = enclosing depth
  shallow : depth ≤ 3

/-- Blocks have nothing to do with where the stream stands and what is in its queue. -/
theorem Inside.moved (h : Inside depth σ) (c : Cursor) (queue : List Token) (allowed : Bool) (keys : List SimpleKey)
    (awaited : List (Nat × Nat)) :
    Inside depth { σ with cursor := c, queue := queue, keyAllowed := allowed, keys := keys, awaited := awaited } :=
  ⟨h.started, h.flat, h.indent, h.indents, h.shallow⟩

/-- The stream with blocks closed until some are left. -/
def closed (σ : TokenStream) (depth : Nat) (ends : List Token) : TokenStream :=
  { σ with queue := σ.queue ++ ends, indent := indentOf depth, indents := enclosing depth }

/-- Blocks beyond an indentation are closed, each with a token of its own. -/
theorem closeBlocksTo_spec (target : Nat) (mark : Mark) (hindent : σ.indent = indentOf depth)
    (hindents : σ.indents = enclosing depth) :
    ∃ ends : List Token, ends.map Token.kind = List.replicate (depth - target) .blockEnd ∧
      closeBlocksTo (indentOf target) mark (enclosing depth) σ = σ.closed (min depth target) ends := by
  have hsame (hle : depth ≤ target) : σ = σ.closed (min depth target) [] := by
    rw [Nat.min_eq_left hle, closed, List.append_nil, ← hindent, ← hindents]
  induction depth generalizing σ mark with
  | zero => exact ⟨[], by simp, by rw [enclosing, closeBlocksTo, ← hsame (Nat.zero_le target)]⟩
  | succ depth ih =>
      rw [enclosing, closeBlocksTo, hindent]
      by_cases hdepth : target < depth + 1
      · rw [if_pos (indentOf_lt_iff.mpr hdepth)]
        dsimp only
        generalize Comment.blockStop (indentOf (depth + 1)) mark.index mark σ.cursor.comments.reverse = stop
        obtain ⟨ends, hends, hclosed⟩ := ih
          (σ := { σ.append ⟨.blockEnd, stop, stop⟩ with indent := indentOf depth, indents := enclosing depth }) stop
          rfl rfl (fun hle => by simp [closed, append, Nat.min_eq_left hle])
        refine ⟨⟨.blockEnd, stop, stop⟩ :: ends, ?_, hclosed.trans ?_⟩
        · rw [List.map_cons, hends, Nat.succ_sub (Nat.le_of_lt_succ hdepth), List.replicate_succ]
        · rw [Nat.min_eq_right (Nat.le_of_lt_succ hdepth), Nat.min_eq_right hdepth.le]
          simp [closed, append]
      · rw [if_neg (fun h => hdepth (indentOf_lt_iff.mp h))]
        exact ⟨[], by simp [Nat.sub_eq_zero_of_le (Nat.not_lt.mp hdepth)], hsame (Nat.not_lt.mp hdepth)⟩

theorem Inside.closeBlocks (h : Inside depth σ) (target : Nat) (mark : Mark) :
    ∃ ends : List Token, ends.map Token.kind = List.replicate (depth - target) .blockEnd ∧
      σ.closeBlocks (indentOf target) mark = σ.closed (min depth target) ends := by
  rw [TokenStream.closeBlocks, if_pos h.flat, h.indents]
  exact closeBlocksTo_spec target _ h.indent h.indents

theorem Inside.closed (h : Inside depth σ) (target : Nat) (ends : List Token) :
    Inside (min depth target) (σ.closed (min depth target) ends) :=
  ⟨h.started, h.flat, rfl, rfl, (Nat.min_le_left _ _).trans h.shallow⟩

/-- Nothing is closed within the innermost block. -/
theorem Inside.closeBlocks_eq (h : Inside depth σ) {column : Nat} (hcolumn : indentOf depth ≤ column) (mark : Mark) :
    σ.closeBlocks column mark = σ := by
  rw [TokenStream.closeBlocks, if_pos h.flat, h.indents]
  cases depth with
  | zero => rfl
  | succ depth => rw [enclosing, closeBlocksTo, h.indent, if_neg (Int.not_lt.mpr hcolumn)]

/-- The stream with blocks opened until there are some, and some tokens in the queue. -/
def opened (σ : TokenStream) (deep : Nat) (queue : List Token) : TokenStream :=
  { σ with queue := queue, indent := indentOf deep, indents := enclosing deep }

theorem Inside.opened_eq (h : Inside depth σ) : σ.opened depth σ.queue = σ := by rw [opened, ← h.indent, ← h.indents]

theorem Inside.opened {deep : Nat} (h : Inside depth σ) (hdeep : deep ≤ 3) (queue : List Token) :
    Inside deep (σ.opened deep queue) :=
  ⟨h.started, h.flat, rfl, rfl, hdeep⟩

/-- The token that opens a block, if it is not open yet. -/
def openers (depth deep : Nat) (kind : TokenKind) (mark : Mark) : List Token :=
  if depth < deep then [⟨kind, mark, mark⟩] else []

theorem kinds_openers (depth deep : Nat) (kind : TokenKind) (mark : Mark) :
    (openers depth deep kind mark).map Token.kind = if depth < deep then [kind] else [] := by
  rw [openers]
  split <;> rfl

/-- A token is inserted at its place in the queue. -/
theorem insertBefore_eq {front back : List Token} (hqueue : σ.queue = front ++ back) (t : Token) :
    σ.insertBefore (σ.passed + front.length) t = { σ with queue := front ++ t :: back } := by
  rw [insertBefore, if_neg (by omega), Nat.add_sub_cancel_left, hqueue]
  simp

/-- A block at most one column deeper is opened by a token before some others, unless it is open already. -/
theorem Inside.openBlock {deep column : Nat} (h : Inside depth σ) (hopens : depth = deep ∨ depth + 1 = deep)
    (hdeep : deep ≤ 3) (hcolumn : (column : Int) = indentOf deep) {front back : List Token}
    (hqueue : σ.queue = front ++ back) {number : Option Nat}
    (hnumber : number = some (σ.passed + front.length) ∨ number = none ∧ back = []) (kind : TokenKind) (mark : Mark) :
    σ.openBlock column number kind mark = .ok (σ.opened deep (front ++ (openers depth deep kind mark ++ back))) := by
  rw [TokenStream.openBlock, hcolumn, h.indent, openers]
  rcases hopens with rfl | rfl
  · rw [if_neg (by simp), if_neg (lt_irrefl _), List.nil_append, ← hqueue, h.opened_eq]
  · have hlimit : ¬depthLimit < (indentOf depth :: enclosing depth).length := by
      rw [List.length_cons, length_enclosing, depthLimit]
      omega
    have hlt : indentOf depth < indentOf (depth + 1) := indentOf_lt_iff.mpr (Nat.lt_succ_self depth)
    rw [if_pos (by simp [h.flat, hlt]), if_pos (Nat.lt_succ_self depth), h.indents, if_neg hlimit]
    rcases hnumber with rfl | ⟨rfl, rfl⟩
    · exact congrArg Except.ok (insertBefore_eq (σ := σ.opened (depth + 1) σ.queue) hqueue _)
    · simp [append, TokenStream.opened, enclosing, hqueue]

/-! ## Simple keys -/

/-- No simple key is open. -/
def Keyless (σ : TokenStream) : Prop := ∃ key, σ.keys = [key] ∧ key.possible = false ∧ σ.awaited = []

/-- Some token may be a simple key, but need not. -/
def MayBeKey (σ : TokenStream) : Prop :=
  ∃ key, σ.keys = [key] ∧ key.possible = true ∧ key.required = false ∧ σ.awaited = [(key.token, 0)]

/-- No token but the last one is awaited as a simple key. -/
def Trailing (σ : TokenStream) : Prop := ∀ key ∈ σ.awaited, key.1 + 1 = σ.nextNumber

theorem Keyless.trailing (h : Keyless σ) : Trailing σ := by
  obtain ⟨key, -, -, hawaited⟩ := h
  simp [Trailing, hawaited]

/-- The stream without an open key. -/
def unkeyed (σ : TokenStream) (key : SimpleKey) : TokenStream :=
  { σ with keys := [{ key with possible := false }], awaited := [] }

/-- A key that is not required is given up. -/
theorem removeKey_eq (h : Keyless σ ∨ MayBeKey σ) : ∃ key, σ.removeKey = .ok (σ.unkeyed key) := by
  rcases h with ⟨key, hkeys, hpossible, hawaited⟩ | ⟨key, hkeys, hpossible, hrequired, hawaited⟩
  · refine ⟨key, ?_⟩
    rw [removeKey, hkeys]
    simp only [hpossible, Bool.false_eq_true, if_false]
    rw [unkeyed, ← hawaited, ← hpossible, ← hkeys]
  · refine ⟨key, ?_⟩
    rw [removeKey, hkeys]
    simp [hpossible, hrequired, unawait, hawaited, withoutKey, unkeyed]

/-- The key that may start at the cursor. -/
def keyHere (σ : TokenStream) : SimpleKey :=
  ⟨true, σ.flowLevel = 0 && σ.indent = σ.cursor.mark.column, σ.nextNumber, σ.cursor.mark⟩

/-- A key is saved in place of one that is not required. -/
theorem saveKey_eq (h : Keyless σ ∨ MayBeKey σ) (hallowed : σ.keyAllowed = true) (hflat : σ.flowLevel = 0) :
    σ.saveKey = .ok { σ with keys := [σ.keyHere], awaited := [(σ.nextNumber, 0)] } := by
  obtain ⟨key, hremoved⟩ := removeKey_eq h
  rw [saveKey, if_pos hallowed, hremoved]
  simp only [unkeyed, hflat, keyHere]
  rfl

theorem saveKey_of_not_allowed (h : σ.keyAllowed = false) : σ.saveKey = .ok σ := by
  rw [saveKey, if_neg (by simp [h])]

/-! ## White space -/

theorem raiseComment_eq (hat : At rest m c) : σ.raiseComment c = c := by
  rw [raiseComment, hat.comments]
  split
  next heq => exact absurd heq (by simp)
  next => rfl

/-- Blanks are passed up to the next token. -/
theorem skipBlank_here {blanks count : Nat} (searched : Mark) (hstarts : Starts rest) (hcomment : first rest ≠ '#')
    (hbound : blanks < σ.bound) (hcount : 0 < count) (hat : At (List.replicate blanks ' ' ++ rest) m σ.cursor) :
    Gives (σ.skipBlank searched count) fun σ' =>
      ∃ c', σ' = { σ with cursor := c' } ∧ At rest (m.ahead blanks) c' := by
  obtain ⟨count, rfl⟩ := Nat.exists_eq_add_one_of_ne_zero hcount.ne'
  rw [skipBlank]
  refine (during_gives (hat.need 1)).bind fun c hc => ?_
  have hblank := hstarts.not_blank
  simp only [isBlank, Bool.or_eq_false_iff, decide_eq_false_iff_not] at hblank
  simp only [hc.marked, Bool.and_false, Bool.false_eq_true, if_false]
  have hdropped := hc.dropWhile (p := fun x => x = ' ' || (x = '\t' && (0 < σ.flowLevel || !σ.keyAllowed)))
    (fun y hy => by simp [List.eq_of_mem_replicate hy]) (by simp [hblank]) (by simpa using hbound)
  rw [List.length_replicate] at hdropped
  refine (during_gives hdropped).bind fun c' hc' => ?_
  simp only [raiseComment_eq hc', hc'.head_eq, hcomment, if_false, pure_bind, hstarts.not_break, Bool.false_eq_true]
  exact .ok ⟨c', rfl, hc'⟩

/-- A line break and the indentation of the next line are passed; a key may start there. -/
theorem skipBlank_line {blanks count : Nat} (searched : Mark) (hflat : σ.flowLevel = 0) (hstarts : Starts rest)
    (hcomment : first rest ≠ '#') (hbound : blanks < σ.bound) (hcount : 1 < count)
    (hat : At ('\n' :: (List.replicate blanks ' ' ++ rest)) m σ.cursor) :
    Gives (σ.skipBlank searched count) fun σ' =>
      ∃ c', σ' = { σ with cursor := c', keyAllowed := true } ∧ At rest (m.below.ahead blanks) c' := by
  obtain ⟨count, rfl⟩ := Nat.exists_eq_add_of_lt hcount
  rw [show 1 + count + 1 = count + 1 + 1 by omega, skipBlank]
  refine (during_gives (hat.need 1)).bind fun c hc => ?_
  simp only [hc.marked, Bool.and_false, Bool.false_eq_true, if_false]
  have hnone : At ([] ++ '\n' :: (List.replicate blanks ' ' ++ rest)) m c := hc
  have hdropped := hnone.dropWhile (p := fun x => x = ' ' || (x = '\t' && (0 < σ.flowLevel || !σ.keyAllowed)))
    (by simp) (by simp) (Nat.zero_lt_of_lt hbound)
  refine (during_gives hdropped).bind fun c' hc' => ?_
  rw [raiseComment_eq hc', hc'.head_eq, first_cons, if_neg (by decide), pure_bind, hc'.head_eq, first_cons,
    if_pos (by decide)]
  refine (during_gives (hc'.need 2)).bind fun c'' hc'' => ?_
  have hline : At (List.replicate blanks ' ' ++ rest) m.below c''.skipLine := hc''.skipLine
  refine (skipBlank_here (σ := { σ with cursor := c''.skipLine, keyAllowed := if σ.flowLevel = 0 then true else σ.keyAllowed })
    searched hstarts hcomment hbound (Nat.succ_pos count) hline).mono ?_
  rintro σ' ⟨last, rfl, hlast⟩
  exact ⟨last, by simp [hflat], hlast⟩

/-! ## Fetching tokens -/

/-- A comment behind a token is looked for in vain. -/
theorem passComment_gives (target : Nat) (hfree : At.Uncommented rest) (hat : At rest m σ.cursor) :
    Gives (σ.passComment target) fun σ' => ∃ c, σ' = { σ with cursor := c } ∧ At rest m c := by
  rw [passComment]
  split
  next => exact .ok ⟨σ.cursor, rfl, hat⟩
  next => exact (during_gives (hat.skipLineComment target σ.bound hfree)).bind fun c hc => .ok ⟨c, rfl, hc⟩

/-- What is fetched behind white space is found there. -/
theorem fetch_gives (hstarted : σ.started = true) (hat : At rest m σ.cursor) {found good : TokenStream → Prop}
    (hskip : ∀ c, At rest m c → Gives ({ σ with cursor := c }.skipBlank c.mark σ.bound) found)
    (hfound : ∀ σ', found σ' → ∀ mark,
      Gives ((σ'.closeBlocks σ'.cursor.mark.column mark).cursor.need 4) fun c =>
        Gives { σ'.closeBlocks σ'.cursor.mark.column mark with cursor := c }.fetchHere good) :
    Gives σ.fetch good := by
  rw [fetch]
  refine (during_gives (hat.need 1)).bind fun c hc => ?_
  dsimp only
  rw [if_neg (by simp [hstarted])]
  refine (hskip c hc).bind fun σ' hσ' => ?_
  exact (during_gives (hfound σ' hσ' c.mark)).bind fun _ h => h

/-- A token within a document is fetched together with the search for a comment behind it. -/
theorem fetchHere_eq (hsolid : IsSolid (first rest)) (hm : Undivided m rest) (hdirective : first rest ≠ '%' ∨ m.column ≠ 0)
    (hat : At rest m σ.cursor) : σ.fetchHere = (do (← σ.content).passComment σ.commentTarget) := by
  have hpercent : ¬(σ.cursor.mark.column = 0 && σ.cursor.head = '%') = true := by
    rw [hat.head_eq, hat.mark_eq]
    rcases hdirective with h | h <;> simp [h]
  rw [fetchHere]
  simp only [hat.not_atIndicator hm (.inl rfl), hat.not_atIndicator hm (.inr rfl)]
  rw [if_neg (by rw [hat.head_eq, hsolid.isEnd]; decide), if_neg hpercent, if_neg (by decide), if_neg (by decide)]

end TokenStream

end Yaml

end MobilitySweep
