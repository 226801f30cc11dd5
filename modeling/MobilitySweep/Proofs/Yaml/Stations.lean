import MobilitySweep.Proofs.Yaml.Scalars
import MobilitySweep.Proofs.Yaml.Streams

/-! # Documents row by row

A document of sections of settings is a list of rows: names with what they hold, and the items of lists. How deep a row
is indented depends on its kind alone. The tokens of a row follow those that open its block or close the blocks before
it.
-/

namespace MobilitySweep

namespace Yaml

/-- A scalar as it stands in a document, and what is read there. -/
structure Spelling where
  chars : List Char
  value : Bytes
  style : ScalarStyle

/-- The token of a scalar. -/
def Spelling.kind (s : Spelling) : TokenKind := .scalar s.value s.style

/-- The characters that do not start a plain scalar, or only where no white space follows. -/
def isMarkup (x : Char) : Bool :=
  ['-', '?', ':', ',', '[', ']', '\x7b', '\x7d', '#', '&', '*', '!', '|', '>', '\'', '"', '%', '@'].contains x ||
    x.toNat = 96

/-- Whether a text in plain form is taken for a plain scalar. -/
def CanStart (text : List Char) : Prop :=
  isMarkup (first text) = false ∨
    (first text = '-' ∨ first text = '?' ∨ first text = ':') ∧ IsSolid (first text.tail)

/-- The characters that never start a plain scalar. -/
def reserved : List Char := ['[', ']', '\x7b', '\x7d', ',', '#', '&', '*', '!', '|', '>', '\'', '"', '%', '@']

theorem CanStart.ne {text : List Char} (h : CanStart text) {x : Char} (hx : x ∈ reserved) : first text ≠ x := by
  rintro rfl
  rcases h with h | ⟨h, -⟩
  · have hmarkup : ∀ y ∈ reserved, isMarkup y = true := by simp [reserved, isMarkup]
    exact absurd h (by simp [hmarkup _ hx])
  · have hothers : ∀ y ∈ reserved, ¬(y = '-' ∨ y = '?' ∨ y = ':') := by simp [reserved]
    exact hothers _ hx h

/-- A spelling that is read as its value. -/
inductive Spelling.Legible : Spelling → Prop where
  | plain {text : List Char} (htext : IsPlainText text) (hstart : CanStart text) :
      Legible ⟨text, Utf8.encode text, .plain⟩
  | quoted {single : Bool} {code : Char → List Char} {text : List Char} (htext : Spells single code text) :
      Legible ⟨quote single :: (text.flatMap code ++ [quote single]), Utf8.encode text, .quoted⟩

/-- A spelling starts with a character that is neither white space nor the start of a comment. -/
theorem Spelling.Legible.first {s : Spelling} (h : s.Legible) (rest : List Char) :
    IsSolid (Yaml.first (s.chars ++ rest)) ∧ Yaml.first (s.chars ++ rest) ≠ '#' := by
  cases h with
  | plain htext hstart =>
      obtain ⟨x, more, rfl, hsolid⟩ := htext.exists_cons
      exact ⟨hsolid, hstart.ne (by decide)⟩
  | @quoted single code text htext =>
      have hquote : quote single ≠ '#' := by cases single <;> decide
      exact ⟨quote_solid single, hquote⟩

/-- A name of a section or a setting. -/
structure IsName (name : List Char) : Prop where
  word : IsPlainWord name
  start : isMarkup (first name) = false
  no_dot : first name ≠ '.'
  short : name.length ≤ 1000

theorem IsName.exists_cons {name : List Char} (h : IsName name) :
    ∃ x word, name = x :: word ∧ IsSolid x ∧ isMarkup x = false ∧ x ≠ '.' := by
  obtain ⟨x, word, rfl⟩ := List.exists_cons_of_ne_nil h.word.ne_nil
  exact ⟨x, word, rfl, h.word.solid x List.mem_cons_self, h.start, h.no_dot⟩

theorem IsName.solid {name : List Char} (h : IsName name) (rest : List Char) : IsSolid (first (name ++ rest)) := by
  obtain ⟨x, word, rfl, hsolid, -, -⟩ := h.exists_cons
  exact hsolid

theorem IsName.ne {name : List Char} (h : IsName name) {x : Char} (hx : isMarkup x = true) (rest : List Char) :
    first (name ++ rest) ≠ x := by
  obtain ⟨y, word, rfl, -, hmarkup, -⟩ := h.exists_cons
  intro hyx
  have hy : isMarkup y = true := by rwa [show y = x from hyx]
  exact absurd hmarkup (by simp [hy])

/-- A name at the start of a line divides no documents. -/
theorem IsName.undivided {name : List Char} (h : IsName name) (m : Mark) (rest : List Char) :
    Undivided m (name ++ rest) := by
  have hdash := h.ne (x := '-') (by decide) rest
  obtain ⟨x, word, rfl, -, -, hdot⟩ := h.exists_cons
  exact .inr ⟨hdash, hdot⟩

/-- What a name holds: the settings of a section, a scalar, an empty list, or the items of a list. -/
inductive Holding where
  | settings
  | scalar (s : Spelling)
  | nothing
  | items

namespace Holding

/-- What stands behind the colon on the row of the name. -/
def chars : Holding → List Char
  | settings | items => []
  | scalar s => ' ' :: s.chars
  | nothing => " []".toList

/-- The tokens behind the colon on the row of the name. -/
def kinds : Holding → List TokenKind
  | settings | items => []
  | scalar s => [s.kind]
  | nothing => [.flowSequenceStart, .flowSequenceEnd]

/-- What is held can be read. -/
def Legible : Holding → Prop
  | scalar s => s.Legible
  | _ => True

end Holding

/-- One line of a document. -/
inductive Row where
  | named (name : List Char) (held : Holding)
  | item (s : Spelling)

namespace Row

/-- How many blocks a row stands in. -/
def depth : Row → Nat
  | named _ .settings => 1
  | named _ _ => 2
  | item _ => 3

/-- The column where a row starts. -/
def column (r : Row) : Nat := 4 * (r.depth - 1)

/-- How many blocks the next row may stand in. -/
def room : Row → Nat
  | named _ .items | item _ => 3
  | named _ _ => 2

/-- A row behind its indentation. -/
def chars : Row → List Char
  | named name held => name ++ ':' :: held.chars
  | item s => '-' :: ' ' :: s.chars

/-- The token of a name. -/
def nameKind (name : List Char) : TokenKind := .scalar (Utf8.encode name) .plain

/-- The tokens of a row. -/
def kinds : Row → List TokenKind
  | named name held => .key :: nameKind name :: .value :: held.kinds
  | item s => [.blockEntry, s.kind]

/-- The token that opens the block of a row. -/
def opening : Row → TokenKind
  | named _ _ => .blockMappingStart
  | item _ => .blockSequenceStart

/-- A row whose parts can be read. -/
def Legible : Row → Prop
  | named name held => IsName name ∧ held.Legible
  | item s => s.Legible

theorem depth_pos (r : Row) : 0 < r.depth := by
  rcases r with ⟨name, _ | _ | _ | _⟩ | s <;> simp [depth]

theorem room_le (r : Row) : r.room ≤ r.depth + 1 := by
  rcases r with ⟨name, _ | _ | _ | _⟩ | s <;> simp [room, depth]

theorem depth_le (r : Row) : r.depth ≤ 3 := by
  rcases r with ⟨name, _ | _ | _ | _⟩ | s <;> simp [depth]

/-- The rows as text. -/
def text : List Row → List Char
  | [] => []
  | r :: rows => List.replicate r.column ' ' ++ (r.chars ++ '\n' :: text rows)

/-- The rows as text, without the indentation of the first one. -/
def content : List Row → List Char
  | [] => []
  | r :: rows => r.chars ++ '\n' :: text rows

/-- How many blocks the first row stands in. -/
def firstDepth : List Row → Nat
  | [] => 0
  | r :: _ => r.depth

/-- The column where the first row starts. -/
def firstColumn (rows : List Row) : Nat := 4 * (firstDepth rows - 1)

theorem text_eq (rows : List Row) : text rows = List.replicate (firstColumn rows) ' ' ++ content rows := by
  cases rows <;> rfl

/-- The tokens of rows inside some blocks, up to the end of the stream. -/
def tokens : Nat → List Row → List TokenKind
  | depth, [] => List.replicate depth .blockEnd ++ [.streamEnd]
  | depth, r :: rows =>
    List.replicate (depth - r.depth) .blockEnd ++ (if depth < r.depth then [r.opening] else []) ++ r.kinds ++
      tokens r.depth rows

/-- Rows that can be read where blocks up to some depth may stand. -/
def Fits : Nat → List Row → Prop
  | _, [] => True
  | room, r :: rows => r.Legible ∧ r.depth ≤ room ∧ Fits r.room rows

theorem Fits.mono {room more : Nat} {rows : List Row} (h : Fits room rows) (hle : room ≤ more) : Fits more rows := by
  cases rows with
  | nil => trivial
  | cons r rows => exact ⟨h.1, h.2.1.trans hle, h.2.2⟩

/-- Rows start with a character that is neither white space nor the start of a comment, if there are any. -/
theorem Fits.starts {room : Nat} {rows : List Row} (h : Fits room rows) :
    Starts (content rows) ∧ first (content rows) ≠ '#' := by
  cases rows with
  | nil => exact ⟨starts_nil, by decide⟩
  | cons r rows =>
      cases r with
      | named name held =>
          obtain ⟨hname, -⟩ := h.1
          rw [content, chars, List.append_assoc]
          exact ⟨hname.word.starts _, hname.word.first_ne _⟩
      | item s => exact ⟨starts_of_solid (by decide), by rw [content, chars, List.cons_append, first_cons]; decide⟩

theorem Fits.firstDepth_le {room : Nat} {rows : List Row} (h : Fits room rows) : firstDepth rows ≤ room := by
  cases rows with
  | nil => exact Nat.zero_le room
  | cons r rows => exact h.2.1

/-- A row outside the innermost block closes it. -/
theorem tokens_closed {depth : Nat} {rows : List Row} (h : firstDepth rows ≤ depth) :
    tokens (depth + 1) rows = .blockEnd :: tokens depth rows := by
  cases rows with
  | nil => rfl
  | cons r rows =>
      have hdepth : r.depth ≤ depth := h
      rw [tokens, tokens, Nat.succ_sub hdepth, if_neg (by omega), if_neg (by omega)]
      rfl

/-- A row one block deeper opens it. -/
theorem tokens_opened {depth : Nat} {r : Row} (h : r.depth = depth + 1) (rows : List Row) :
    tokens depth (r :: rows) = r.opening :: tokens (depth + 1) (r :: rows) := by
  simp [tokens, h]

end Row

end Yaml

/-! ## Fetching the tokens of rows

While the rows of a document are read, the stream comes by a few kinds of places: between rows, behind a name, before a
scalar, and inside an empty list. From each of them the next token is fetched without a flaw, and the place behind it is
again one of these; what is in the queue and what is still to come make up the tokens of the document throughout.
-/

namespace Yaml

open Cursor

namespace TokenStream

variable {σ : TokenStream} {text rest : List Char} {x : Char} {m : Mark} {c : Cursor} {depth : Nat} {rows : List Row}

/-! ### Kinds of tokens -/

/-- A plain scalar is taken for one. -/
theorem content_plain (hflat : σ.flowLevel = 0) (hstart : CanStart text) (hsolid : IsSolid (first text))
    (hat : At (text ++ rest) m σ.cursor) : σ.content = σ.plain := by
  obtain ⟨x, more, rfl⟩ : ∃ x more, text = x :: more := by
    cases text with
    | nil => exact absurd hsolid (by decide)
    | cons x more => exact ⟨x, more, rfl⟩
  have hne {y : Char} (hy : y ∈ reserved) : x ≠ y := hstart.ne hy
  have hhead : σ.cursor.head = x := hat.head_eq
  have hpeek (hx : x = '-' ∨ x = '?' ∨ x = ':') (hmarkup : isMarkup x = true) :
      isBlankOrEnd (σ.cursor.peek 1) = false := by
    rcases hstart with h | ⟨-, h⟩
    · exact absurd hmarkup (by simpa using h)
    · rw [hat.peek_eq]
      cases more with
      | nil => exact absurd h (by rw [List.tail_cons]; decide)
      | cons y more => exact h
  have hdash : x = '-' → isBlankOrEnd (σ.cursor.peek 1) = false := fun h => hpeek (.inl h) (by rw [h]; decide)
  have hquestion : x = '?' → isBlankOrEnd (σ.cursor.peek 1) = false :=
    fun h => hpeek (.inr (.inl h)) (by rw [h]; decide)
  have hcolon : x = ':' → isBlankOrEnd (σ.cursor.peek 1) = false :=
    fun h => hpeek (.inr (.inr h)) (by rw [h]; decide)
  have hstarts : σ.plainStarts = true := by
    have hx : isBlankOrEnd x = false := hsolid
    rw [plainStarts, hhead]
    rcases hstart with h | ⟨h | h | h, -⟩
    · have hmarkup : (isBlankOrEnd x || "-?:,[]\x7b\x7d#&*!|>'\"%@".toList.contains x || decide (x.toNat = 96)) = false := by
        rw [Bool.or_assoc, hx]
        exact h
      rw [hmarkup]
      rfl
    · have hx : x = '-' := h
      have hblank : isBlank (σ.cursor.peek 1) = false := IsSolid.isBlank (hdash h)
      simp [hx, hblank]
    · have hx : x = '?' := h
      simp [hx, hquestion h, hflat]
    · have hx : x = ':' := h
      simp [hx, hcolon h, hflat]
  -- None of the characters that open another kind of token stands at the cursor.
  rw [content]
  simp only [hhead, hflat]
  split
  · exact absurd rfl (hne (by decide))
  · exact absurd rfl (hne (by decide))
  · exact absurd rfl (hne (by decide))
  · exact absurd rfl (hne (by decide))
  · exact absurd rfl (hne (by decide))
  · rw [if_neg (by simpa using hdash), if_neg (by simpa using hquestion), if_neg (by simpa using hcolon),
      if_neg (hne (by decide)), if_neg (hne (by decide)), if_neg (hne (by decide)),
      if_neg (by simp [hne (show '|' ∈ reserved by decide), hne (show '>' ∈ reserved by decide)]),
      if_neg (hne (by decide)), if_neg (hne (by decide)), if_pos hstarts]

/-! ### Scalars -/

/-- The stream with a key saved at the cursor, if one may start there. -/
def saved (σ : TokenStream) : TokenStream :=
  if σ.keyAllowed then { σ with keys := [σ.keyHere], awaited := [(σ.nextNumber, 0)] } else σ

theorem saved_cases (σ : TokenStream) :
    σ.saved = { σ with keys := [σ.keyHere], awaited := [(σ.nextNumber, 0)] } ∨ σ.saved = σ := by
  rw [saved]
  split
  next => exact .inl rfl
  next => exact .inr rfl

theorem saveKey_saved (h : Keyless σ ∨ MayBeKey σ) (hflat : σ.flowLevel = 0) : σ.saveKey = .ok σ.saved := by
  cases hallowed : σ.keyAllowed with
  | true => rw [saveKey_eq h hallowed hflat, saved, if_pos hallowed]
  | false => rw [saveKey_of_not_allowed hallowed, saved, if_neg (by simp [hallowed])]

/-- The stream behind a scalar, where a key may start if so allowed. -/
def behindScalar (σ : TokenStream) (t : Token) (allowed : Bool) (c : Cursor) : TokenStream :=
  { σ.saved with cursor := c, keyAllowed := allowed, queue := σ.queue ++ [t] }

/-- A plain scalar is queued as it is read. -/
theorem plain_gives (h : Keyless σ ∨ MayBeKey σ) (hflat : σ.flowLevel = 0) {good : (Token × Bool) × Cursor → Prop}
    (hscalar : Gives (plainScalar false σ.indent σ.bound σ.cursor) good) :
    Gives σ.plain fun σ' => ∃ t allowed c, good ((t, allowed), c) ∧ σ' = σ.behindScalar t allowed c := by
  have hsaved : σ.saved.flowLevel = σ.flowLevel ∧ σ.saved.indent = σ.indent ∧ σ.saved.bound = σ.bound ∧
      σ.saved.cursor = σ.cursor ∧ σ.saved.queue = σ.queue := by
    rcases σ.saved_cases with h | h <;> rw [h] <;> simp
  obtain ⟨hlevel, hindent, hbound, hcursor, hqueue⟩ := hsaved
  rw [plain, saveKey_saved h hflat]
  have hread : Gives (plainScalar (decide (0 < σ.saved.flowLevel)) σ.saved.indent σ.saved.bound σ.saved.cursor) good := by
    rw [hlevel, hindent, hbound, hcursor, hflat]
    exact hscalar
  refine (during_gives hread).bind fun r hr => ?_
  exact .ok ⟨r.1.1, r.1.2, r.2, hr, by rw [behindScalar, append, hqueue]⟩

/-- A scalar that may be a key is queued as it is read. -/
theorem keyLike_gives (h : Keyless σ ∨ MayBeKey σ) (hflat : σ.flowLevel = 0)
    {scan : Cursor → Except Halt (Token × Cursor)} {good : Token × Cursor → Prop} (hscalar : Gives (scan σ.cursor) good) :
    Gives (σ.keyLike scan) fun σ' => ∃ t c, good (t, c) ∧ σ' = σ.behindScalar t false c := by
  have hsaved : σ.saved.cursor = σ.cursor ∧ σ.saved.queue = σ.queue := by
    rcases σ.saved_cases with h | h <;> rw [h] <;> simp
  obtain ⟨hcursor, hqueue⟩ := hsaved
  rw [keyLike, saveKey_saved h hflat]
  have hread : Gives (scan σ.saved.cursor) good := by rw [hcursor]; exact hscalar
  refine (during_gives hread).bind fun r hr => ?_
  exact .ok ⟨r.1, r.2, hr, by rw [behindScalar, append, hqueue]⟩

/-- Behind a scalar to the right of the indentation no key is required. -/
theorem behindScalar_spec (h : Keyless σ) (hinside : Inside depth σ) (hcolumn : indentOf depth < σ.cursor.mark.column)
    (t : Token) (allowed : Bool) (c : Cursor) :
    Inside depth (σ.behindScalar t allowed c) ∧
      (Keyless (σ.behindScalar t allowed c) ∨ MayBeKey (σ.behindScalar t allowed c)) ∧
      Trailing (σ.behindScalar t allowed c) := by
  obtain ⟨key, hkeys, hpossible, hawaited⟩ := h
  rw [behindScalar]
  rcases σ.saved_cases with h | h
  · rw [h]
    refine ⟨hinside.moved _ _ _ _ _, .inr ⟨σ.keyHere, rfl, rfl, ?_, rfl⟩, ?_⟩
    · simp [keyHere, hinside.indent, hcolumn.ne]
    · simp [Trailing, nextNumber, Nat.add_assoc]
  · rw [h]
    have hkeyless : Keyless { σ with cursor := c, keyAllowed := allowed, queue := σ.queue ++ [t] } :=
      ⟨key, hkeys, hpossible, hawaited⟩
    exact ⟨hinside.moved _ _ _ _ _, .inl hkeyless, hkeyless.trailing⟩

/-! ### Places in a document -/

/-- The stream stands where the first of some rows starts, or where the stream ends. -/
structure AtRow (rows : List Row) (σ : TokenStream) : Prop where
  place : ∃ m : Mark, m.column = Row.firstColumn rows ∧ At (Row.content rows) m σ.cursor
  allowed : rows ≠ [] → σ.keyAllowed = true
  bound : (Row.content rows).length + 1 < σ.bound

/-- The stream stands before rows: at the end of the line above, or where the first of them starts. -/
inductive Before (rows : List Row) (σ : TokenStream) : Prop where
  | line {m : Mark} (hat : At ('\n' :: Row.text rows) m σ.cursor) (hbound : (Row.text rows).length + 2 < σ.bound)
  | here (h : AtRow rows σ)

/-- The stream stands between rows inside some blocks. -/
structure Between (depth : Nat) (rows : List Row) (σ : TokenStream) : Prop where
  inside : Inside depth σ
  untied : Keyless σ ∨ MayBeKey σ
  trailing : Trailing σ
  fits : Row.Fits (depth + 1) rows
  before : Before rows σ

/-- The stream stands within a row, to the right of the indentation. -/
structure Within (depth : Nat) (rest : List Char) (σ : TokenStream) : Prop where
  inside : Inside depth σ
  place : ∃ m : Mark, m.column ≠ 0 ∧ indentOf depth < m.column ∧ At rest m σ.cursor
  bound : rest.length + 1 < σ.bound

theorem uncommented_of_solid (hsolid : IsSolid x) (hcomment : x ≠ '#') : At.Uncommented (x :: rest) := by
  simpa [At.Uncommented, List.dropWhile_cons, hsolid.isBlank] using hcomment

theorem uncommented_line : At.Uncommented ('\n' :: rest) := by
  simp [At.Uncommented, show isBlank '\n' = false by decide]

theorem uncommented_content {room : Nat} (h : Row.Fits room rows) : At.Uncommented (Row.content rows) := by
  obtain ⟨hstarts, hcomment⟩ := h.starts
  cases hrest : Row.content rows with
  | nil => simp [At.Uncommented]
  | cons x rest =>
      rw [hrest] at hstarts hcomment
      simpa [At.Uncommented, List.dropWhile_cons, show isBlank x = false from hstarts.not_blank] using hcomment

/-- Between rows it only matters which characters the cursor stands before; no comment is among them. -/
theorem Between.exists_at (h : Between depth rows σ) : ∃ rest m, At.Uncommented rest ∧ At rest m σ.cursor ∧
    ∀ c, At rest m c → Between depth rows { σ with cursor := c } := by
  have hmoved (c : Cursor) (hbefore : Before rows { σ with cursor := c }) : Between depth rows { σ with cursor := c } :=
    ⟨h.inside.moved _ _ _ _ _, h.untied, h.trailing, h.fits, hbefore⟩
  cases h.before with
  | line hat hbound => exact ⟨_, _, uncommented_line, hat, fun c hc => hmoved c (.line hc hbound)⟩
  | here hrow =>
      obtain ⟨m, hcolumn, hat⟩ := hrow.place
      exact ⟨_, m, uncommented_content h.fits, hat,
        fun c hc => hmoved c (.here ⟨⟨m, hcolumn, hc⟩, hrow.allowed, hrow.bound⟩)⟩

/-- No comment follows what was fetched up to the next row. -/
theorem Between.passComment (h : Between depth rows σ) (target : Nat) :
    Gives (σ.passComment target) fun σ' => Between depth rows σ' ∧ σ'.queue = σ.queue := by
  obtain ⟨rest, m, huncommented, hat, hmoved⟩ := h.exists_at
  refine (passComment_gives target huncommented hat).mono ?_
  rintro _ ⟨c, rfl, hc⟩
  exact ⟨hmoved c hc, rfl⟩

/-- White space before the next row is passed. -/
theorem Between.skipBlank (h : Between depth rows σ) (searched : Mark) :
    Gives (σ.skipBlank searched σ.bound) fun σ' =>
      Inside depth σ' ∧ (Keyless σ' ∨ MayBeKey σ') ∧ AtRow rows σ' ∧ σ'.queue = σ.queue := by
  obtain ⟨hstarts, hcomment⟩ := h.fits.starts
  cases h.before with
  | @line m hat hbound =>
      rw [Row.text_eq] at hat hbound
      rw [List.length_append, List.length_replicate] at hbound
      refine (skipBlank_line searched h.inside.flat hstarts hcomment (by omega) (by omega) hat).mono ?_
      rintro _ ⟨c, rfl, hc⟩
      exact ⟨h.inside.moved _ _ _ _ _, h.untied, ⟨⟨_, by simp, hc⟩, fun _ => rfl, by dsimp only; omega⟩, rfl⟩
  | here hrow =>
      obtain ⟨m, hcolumn, hat⟩ := hrow.place
      have hat' : At (List.replicate 0 ' ' ++ Row.content rows) m σ.cursor := hat
      have hbound : 0 < σ.bound := Nat.zero_lt_of_lt hrow.bound
      refine (skipBlank_here searched hstarts hcomment hbound hbound hat').mono ?_
      rintro _ ⟨c, rfl, hc⟩
      exact ⟨h.inside.moved _ _ _ _ _, h.untied, ⟨⟨m, hcolumn, hc⟩, hrow.allowed, hrow.bound⟩, rfl⟩

/-! ### From place to place -/

/-- How many blocks are left open before the first row. -/
def target (rows : List Row) : Nat := max 1 (Row.firstDepth rows)

theorem firstColumn_eq (rows : List Row) : (Row.firstColumn rows : Int) = indentOf (target rows) := by
  obtain ⟨k, hk⟩ := Nat.exists_eq_add_of_le' (Nat.le_max_left 1 (Row.firstDepth rows))
  rw [target, hk, indentOf, Row.firstColumn]
  omega

/-- What is fetched between rows is found at the start of the next one, with the blocks beyond it closed. -/
theorem Between.fetch (h : Between depth rows σ) {good : TokenStream → Prop}
    (hnext : ∀ (σ' : TokenStream), Inside (min depth (target rows)) σ' → (Keyless σ' ∨ MayBeKey σ') → AtRow rows σ' →
      σ'.kinds = σ.kinds ++ List.replicate (depth - target rows) .blockEnd → Gives σ'.fetchHere good) :
    Gives σ.fetch good := by
  obtain ⟨rest, m, -, hat, hmoved⟩ := h.exists_at
  have hskip (c : Cursor) (hc : At rest m c) : Gives ({ σ with cursor := c }.skipBlank c.mark σ.bound) fun σ' =>
      Inside depth σ' ∧ (Keyless σ' ∨ MayBeKey σ') ∧ AtRow rows σ' ∧ σ'.queue = σ.queue :=
    (hmoved c hc).skipBlank c.mark
  refine fetch_gives h.inside.started hat hskip ?_
  rintro σ' ⟨hinside, huntied, hrow, hqueue⟩ mark
  obtain ⟨place, hcolumn, hplace⟩ := hrow.place
  rw [hplace.mark_eq, hcolumn, firstColumn_eq]
  obtain ⟨ends, hends, hclosed⟩ := hinside.closeBlocks (target rows) mark
  rw [hclosed]
  have hat' : At (Row.content rows) place (σ'.closed (min depth (target rows)) ends).cursor := hplace
  refine (hat'.need 4).mono fun c hc => ?_
  refine hnext _ ((hinside.closed (target rows) ends).moved _ _ _ _ _) huntied
    ⟨⟨place, hcolumn, hc⟩, hrow.allowed, hrow.bound⟩ ?_
  rw [kinds, kinds, closed, List.map_append, hends, hqueue]

/-- What is fetched within a row is found behind blanks. -/
theorem Within.fetch {blanks : Nat} (h : Within depth (List.replicate blanks ' ' ++ rest) σ) (hsolid : IsSolid (first rest))
    (hcomment : first rest ≠ '#') {good : TokenStream → Prop}
    (hnext : ∀ c, c.mark = σ.cursor.mark.ahead blanks → Within depth rest { σ with cursor := c } → ∀ target,
      Gives ({ σ with cursor := c }.content >>= fun s => s.passComment target) good) :
    Gives σ.fetch good := by
  obtain ⟨m, hcolumn, hright, hat⟩ := h.place
  have hbound := h.bound
  rw [List.length_append, List.length_replicate] at hbound
  have hskip (c : Cursor) (hc : At (List.replicate blanks ' ' ++ rest) m c) :
      Gives ({ σ with cursor := c }.skipBlank c.mark σ.bound) fun σ' =>
        ∃ c', σ' = { σ with cursor := c' } ∧ At rest (m.ahead blanks) c' :=
    skipBlank_here c.mark ⟨hsolid.isBlank, hsolid.isBreak⟩ hcomment (by dsimp only; omega) (by omega) hc
  refine fetch_gives h.inside.started hat hskip ?_
  rintro _ ⟨c, rfl, hc⟩ mark
  have hcolumn' : (m.ahead blanks).column ≠ 0 := by simp [hcolumn]
  have hright' : indentOf depth < (m.ahead blanks).column := by
    simp only [Mark.column_ahead]
    omega
  rw [(h.inside.moved c σ.queue σ.keyAllowed σ.keys σ.awaited).closeBlocks_eq (by rw [hc.mark_eq]; exact hright'.le)]
  refine (hc.need 4).mono fun c' hc' => ?_
  rw [fetchHere_eq hsolid (.inl hcolumn') (.inr hcolumn') hc']
  exact hnext c' (by rw [hc'.mark_eq, hat.mark_eq])
    ⟨h.inside.moved _ _ _ _ _, ⟨_, hcolumn', hright', hc'⟩, by dsimp only; omega⟩ _

end TokenStream

end Yaml

end MobilitySweep
