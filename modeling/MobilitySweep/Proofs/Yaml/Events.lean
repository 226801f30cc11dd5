import MobilitySweep.Proofs.Yaml.Fetching
import MobilitySweep.Yaml.Event

/-! # The tokens that rows deliver

From the start of a document the stream goes from place to place. What is in the queue together with what is still to
come are the tokens of the rows, behind which the end of the stream may be repeated. So the tokens shown one after
another are those of the rows.
-/

namespace MobilitySweep

namespace Yaml

open Cursor

namespace TokenStream

variable {σ : TokenStream} {depth : Nat} {rows : List Row} {k : TokenKind} {ks : List TokenKind}

/-- Where the stream stands while rows are read, with the kinds of the tokens that are to be shown from there on. -/
inductive Station : List TokenKind → TokenStream → Prop where
  | fresh {rows : List Row} {σ : TokenStream} (h : Fresh rows σ) : Station (.streamStart :: Row.tokens 0 rows) σ
  | between {depth : Nat} {rows : List Row} {σ : TokenStream} (h : Between depth rows σ) :
    Station (σ.kinds ++ Row.tokens depth rows) σ
  | keyed {depth : Nat} {name : List Char} {held : Holding} {front : List Token} {t : Token} {rows : List Row}
    {σ : TokenStream}
    (h : Keyed depth (Row.named name held).depth front t (held.chars ++ '\n' :: Row.text rows) σ)
    (hkind : t.kind = Row.nameKind name) (hheld : held.Legible) (hfits : Row.Fits (Row.named name held).room rows) :
    Station (front.map Token.kind ++ ((if depth < (Row.named name held).depth then [.blockMappingStart] else []) ++
      ((Row.named name held).kinds ++ Row.tokens (Row.named name held).depth rows))) σ
  | scalar {depth : Nat} {s : Spelling} {rows : List Row} {σ : TokenStream} (h : BeforeScalar depth s rows σ) :
    Station (σ.kinds ++ s.kind :: Row.tokens depth rows) σ
  | opening {depth : Nat} {rows : List Row} {σ : TokenStream} (h : BeforeBrackets depth rows σ) :
    Station (σ.kinds ++ .flowSequenceStart :: .flowSequenceEnd :: Row.tokens depth rows) σ
  | closing {depth : Nat} {rows : List Row} {σ : TokenStream} (h : Bracketed depth rows σ) :
    Station (σ.kinds ++ .flowSequenceEnd :: Row.tokens depth rows) σ

namespace Station

/-- Nothing is amiss where the stream stands. -/
theorem exists_at (h : Station ks σ) : ∃ rest m, At rest m σ.cursor := by
  cases h with
  | fresh h => exact ⟨_, _, h.at_start⟩
  | between h =>
      obtain ⟨rest, m, -, hat, -⟩ := h.exists_at
      exact ⟨rest, m, hat⟩
  | keyed h =>
      obtain ⟨m, -, -, hat⟩ := h.within.place
      exact ⟨_, m, hat⟩
  | scalar h =>
      obtain ⟨m, -, -, hat⟩ := h.within.place
      exact ⟨_, m, hat⟩
  | opening h =>
      obtain ⟨m, -, -, hat⟩ := h.within.place
      exact ⟨_, m, hat⟩
  | closing h =>
      obtain ⟨m, -, hat⟩ := h.place
      exact ⟨_, m, hat⟩

/-- No token but the last one is awaited as a simple key. -/
theorem trailing (h : Station ks σ) : Trailing σ := by
  cases h with
  | fresh h => simp [Trailing, h.awaited]
  | between h => exact h.trailing
  | keyed h =>
      obtain ⟨key, -, -, htoken, hawaited, -⟩ := h.key
      simp [Trailing, hawaited, htoken, nextNumber, h.queue, Nat.add_assoc]
  | scalar h => exact h.keyless.trailing
  | opening h => exact h.keyless.trailing
  | closing h => simp [Trailing, h.awaited]

theorem wanting (h : Station ks σ) : σ.wanting = .ok (decide (σ.queue.length < 3)) := by
  rw [TokenStream.wanting]
  by_cases hlength : σ.queue.length < 3
  · rw [if_pos hlength, decide_eq_true hlength]
  · have hnone : σ.awaited.find? (·.1 = σ.passed) = none := by
      refine List.find?_eq_none.mpr fun key hkey => ?_
      have hnumber := h.trailing key hkey
      rw [nextNumber] at hnumber
      simp only [decide_eq_true_eq]
      omega
    rw [if_neg hlength, hnone, decide_eq_false hlength]

/-! ## Fetching -/

/-- The stream has gone on, with more tokens in its queue; the end of the stream may have been repeated. -/
def Onward (ks : List TokenKind) (σ σ' : TokenStream) : Prop :=
  (∃ count, Station (ks ++ List.replicate count .streamEnd) σ') ∧ σ.queue.length < σ'.queue.length

theorem length_kinds (σ : TokenStream) : σ.kinds.length = σ.queue.length := List.length_map _

theorem onward {σ' : TokenStream} (h : Station ks σ') (hlength : σ.kinds.length < σ'.kinds.length) : Onward ks σ σ' := by
  rw [length_kinds, length_kinds] at hlength
  exact ⟨⟨0, by simpa using h⟩, hlength⟩

/-- Between rows the tokens of the next row are fetched, up to the one behind its name; behind the last row all that is
open is closed. -/
theorem fetch_between (h : Between depth rows σ) : Gives σ.fetch (Onward (σ.kinds ++ Row.tokens depth rows) σ) := by
  cases rows with
  | nil =>
      refine h.fetch_end.mono ?_
      rintro σ' ⟨hbetween, hkinds⟩
      -- Nothing but the end of the stream is left to be shown, and it is shown once more whenever it is asked for.
      refine ⟨⟨1, ?_⟩, ?_⟩
      · have hstation := Station.between hbetween
        rw [hkinds] at hstation
        simpa [Row.tokens] using hstation
      · rw [← length_kinds, ← length_kinds, hkinds]
        simp
  | cons r rows =>
      cases r with
      | named name held =>
          refine h.fetch_name.mono ?_
          rintro σ' ⟨front, t, hkind, hkeyed, hfront⟩
          refine onward ?_ ?_
          · have hstation := Station.keyed hkeyed hkind h.fits.1.2 h.fits.2.2
            rw [hfront] at hstation
            simpa [Row.tokens, Row.opening, min_lt_iff] using hstation
          · have hkinds : σ'.kinds = front.map Token.kind ++ [t.kind] := by simp [kinds, hkeyed.queue]
            rw [hkinds, hfront]
            simp only [List.length_append, List.length_cons]
            omega
      | item s =>
          refine h.fetch_item.mono ?_
          rintro σ' ⟨hbefore, hkinds⟩
          refine onward ?_ ?_
          · have hstation := Station.scalar hbefore
            rw [hkinds] at hstation
            have hdeep : (Row.item s).depth = 3 := rfl
            have hnone : depth - 3 = 0 := Nat.sub_eq_zero_of_le h.inside.shallow
            simpa [Row.tokens, Row.opening, Row.kinds, hdeep, hnone] using hstation
          · rw [hkinds]
            simp only [List.length_append, List.length_cons]
            omega

/-- Behind the name of a row its indicator is fetched, which makes the name a key. -/
theorem fetch_keyed {name : List Char} {held : Holding} {front : List Token} {t : Token}
    (h : Keyed depth (Row.named name held).depth front t (held.chars ++ '\n' :: Row.text rows) σ)
    (hkind : t.kind = Row.nameKind name) (hheld : held.Legible) (hfits : Row.Fits (Row.named name held).room rows) :
    Gives σ.fetch (Onward (front.map Token.kind ++
      ((if depth < (Row.named name held).depth then [TokenKind.blockMappingStart] else []) ++
        ((Row.named name held).kinds ++ Row.tokens (Row.named name held).depth rows))) σ) := by
  refine (h.fetch (first_held held _) (uncommented_held hheld _)).mono ?_
  rintro σ' ⟨hbehind, hkeyless, hallowed, hkinds⟩
  have hlength : σ.kinds.length < σ'.kinds.length := by
    rw [hkinds, kinds, h.queue]
    simp only [List.map_append, List.length_append, List.map_cons, List.length_cons, List.map_nil, List.length_nil]
    omega
  have hfits' := hfits.mono (Row.room_le (.named name held))
  obtain ⟨m, -, -, hat⟩ := hbehind.place
  -- What the row holds decides where the stream stands now.
  cases held with
  | settings | items =>
      have hbetween : Between _ rows σ' :=
        ⟨hbehind.inside, .inl hkeyless, hkeyless.trailing, hfits', .line hat hbehind.bound⟩
      refine onward ?_ hlength
      simpa [hkinds, hkind, Row.kinds, Holding.kinds] using Station.between hbetween
  | scalar s =>
      have hbefore : BeforeScalar _ s rows σ' := ⟨hbehind, hkeyless, hheld, Row.depth_pos _, hfits⟩
      refine onward ?_ hlength
      simpa [hkinds, hkind, Row.kinds, Holding.kinds] using Station.scalar hbefore
  | nothing =>
      have hbefore : BeforeBrackets _ rows σ' := ⟨hbehind, hkeyless, hallowed, hfits'⟩
      refine onward ?_ hlength
      simpa [hkinds, hkind, Row.kinds, Holding.kinds] using Station.opening hbefore

/-- The next token or tokens are fetched. -/
theorem fetch (h : Station ks σ) : Gives σ.fetch (Onward ks σ) := by
  cases h with
  | fresh h =>
      refine h.fetch.mono ?_
      rintro σ' ⟨hbetween, hkinds⟩
      refine onward (by simpa [hkinds] using Station.between hbetween) ?_
      rw [kinds, h.queue, hkinds]
      exact Nat.zero_lt_one
  | between h => exact fetch_between h
  | keyed h hkind hheld hfits => exact fetch_keyed h hkind hheld hfits
  | scalar h =>
      refine h.fetch.mono ?_
      rintro σ' ⟨hbetween, hkinds⟩
      refine onward ?_ (by simp [hkinds])
      simpa [hkinds] using Station.between hbetween
  | opening h =>
      refine h.fetch.mono ?_
      rintro σ' ⟨hbracketed, hkinds⟩
      refine onward ?_ (by simp [hkinds])
      simpa [hkinds] using Station.closing hbracketed
  | closing h =>
      refine h.fetch.mono ?_
      rintro σ' ⟨hbetween, hkinds⟩
      refine onward ?_ (by simp [hkinds])
      simpa [hkinds] using Station.between hbetween

/-- Tokens are fetched until the first one can be shown. -/
theorem fill (h : Station ks σ) {count : Nat} (hcount : 3 ≤ σ.queue.length + count) :
    Gives (fill count σ) fun σ' => 3 ≤ σ'.queue.length ∧ ∃ more, Station (ks ++ List.replicate more .streamEnd) σ' := by
  induction count generalizing σ ks with
  | zero => exact .ok ⟨hcount, 0, by simpa using h⟩
  | succ count ih =>
      rw [TokenStream.fill, h.wanting]
      by_cases hlength : σ.queue.length < 3
      · rw [decide_eq_true hlength]
        refine h.fetch.bind ?_
        rintro σ' ⟨⟨more, hstation⟩, hgrown⟩
        refine (ih hstation (by omega)).mono ?_
        rintro σ'' ⟨hfull, rest, hrest⟩
        refine ⟨hfull, more + rest, ?_⟩
        rwa [← List.replicate_append_replicate, ← List.append_assoc]
      · rw [decide_eq_false hlength]
        exact .ok ⟨Nat.not_lt.mp hlength, 0, by simpa using h⟩

/-! ## Passing the first token -/

theorem nextNumber_next {t : Token} {queue : List Token} (hqueue : σ.queue = t :: queue) : σ.next.nextNumber = σ.nextNumber := by
  simp [nextNumber, TokenStream.next, hqueue, Nat.add_comm, Nat.add_left_comm]

theorem trailing_next {t : Token} {queue : List Token} (h : Trailing σ) (hqueue : σ.queue = t :: queue) :
    Trailing σ.next := by
  rw [Trailing, nextNumber_next hqueue]
  exact h

theorem inside_next (h : Inside depth σ) : Inside depth σ.next := ⟨h.started, h.flat, h.indent, h.indents, h.shallow⟩

theorem within_next {rest : List Char} (h : Within depth rest σ) : Within depth rest σ.next :=
  ⟨inside_next h.inside, h.place, h.bound⟩

theorem kinds_next {t : Token} {queue : List Token} (hqueue : σ.queue = t :: queue) : σ.kinds = t.kind :: σ.next.kinds := by
  simp [kinds, TokenStream.next, hqueue]

/-- The first token in the queue is the first one to be shown, and behind it the stream still stands where it did. -/
theorem pass (h : Station ks σ) {t : Token} {queue : List Token} (hqueue : σ.queue = t :: queue) (hmore : queue ≠ []) :
    ∃ rest, ks = t.kind :: rest ∧ Station rest σ.next := by
  have hkinds := kinds_next hqueue
  cases h with
  | fresh h => exact absurd (h.queue.symm.trans hqueue) (List.cons_ne_nil t queue).symm
  | between h =>
      rw [hkinds]
      refine ⟨_, rfl, .between ⟨inside_next h.inside, h.untied, trailing_next h.trailing hqueue, h.fits, ?_⟩⟩
      cases h.before with
      | line hat hbound => exact .line hat hbound
      | here hrow => exact .here ⟨hrow.place, hrow.allowed, hrow.bound⟩
  | @keyed depth name held front u rows _ h hkind hheld hfits =>
      obtain ⟨front, rfl⟩ : ∃ more, front = t :: more := by
        have happend := h.queue.symm.trans hqueue
        cases front with
        | nil => exact absurd (List.cons.inj happend).2.symm hmore
        | cons v front => exact ⟨front, by rw [(List.cons.inj happend).1]⟩
      obtain ⟨key, hkeys, hpossible, htoken, hrest⟩ := h.key
      refine ⟨_, rfl, .keyed ⟨within_next h.within, h.right, h.opens, h.shallow, ?_, key, hkeys, hpossible, ?_, hrest⟩ hkind
        hheld hfits⟩
      · simp [TokenStream.next, h.queue]
      · rw [htoken]
        simp [TokenStream.next, Nat.add_comm, Nat.add_left_comm]
  | scalar h =>
      rw [hkinds]
      exact ⟨_, rfl, .scalar ⟨within_next h.within, h.keyless, h.legible, h.deep, h.fits⟩⟩
  | opening h =>
      rw [hkinds]
      exact ⟨_, rfl, .opening ⟨within_next h.within, h.keyless, h.not_allowed, h.fits⟩⟩
  | closing h =>
      rw [hkinds]
      have hinside := h.outside
      exact ⟨_, rfl, .closing ⟨⟨hinside.started, rfl, hinside.indent, hinside.indents, hinside.shallow⟩, h.flow, h.keys,
        h.awaited, h.place, h.bound, h.fits⟩⟩

end Station

/-! ## What is delivered -/

/-- The stream is to show tokens of these kinds; the end of the stream may be repeated behind them. -/
def Delivers (ks : List TokenKind) (σ : TokenStream) : Prop :=
  ∃ count, Station (ks ++ List.replicate count .streamEnd) σ

/-- The first token is shown, and the rest can be delivered behind it. -/
theorem Delivers.head (h : Delivers (k :: ks) σ) :
    Gives σ.head fun r => r.1.kind = k ∧ Delivers (k :: ks) r.2 ∧ Delivers ks r.2.next := by
  obtain ⟨count, hstation⟩ := h
  rw [TokenStream.head]
  refine (hstation.fill (by omega)).bind ?_
  rintro σ' ⟨hfull, more, hmore⟩
  rw [List.append_assoc, List.replicate_append_replicate] at hmore
  obtain ⟨t, queue, hqueue⟩ := List.exists_cons_of_length_pos (by omega : 0 < σ'.queue.length)
  have hne : queue ≠ [] := by
    rintro rfl
    simp [hqueue] at hfull
  obtain ⟨rest, hrest, hnext⟩ := hmore.pass hqueue hne
  rw [List.cons_append] at hrest
  obtain ⟨rfl, rfl⟩ := List.cons.inj hrest
  refine .ok ⟨?_, ⟨_, hmore⟩, ⟨_, hnext⟩⟩
  rw [hqueue]
  rfl

/-- No comment waits to be taken by a token, and nothing is amiss. -/
theorem Delivers.untroubled (h : Delivers ks σ) : σ.cursor.comments = [] ∧ σ.spoiled? = none := by
  obtain ⟨count, hstation⟩ := h
  obtain ⟨rest, m, hat⟩ := hstation.exists_at
  exact ⟨hat.comments, by rw [spoiled?, hat.spoiled]; rfl⟩

end TokenStream

end Yaml

/-! ## Events of delivered tokens

A parser to which tokens are delivered, none of them an anchor or a tag, yields the events of mappings, sequences and
plain or quoted scalars one by one. No comment and no flaw comes in between.
-/

namespace Yaml

open TokenStream (Delivers)

namespace Parser

variable {p : Parser} {k : TokenKind} {ks : List TokenKind} {e e' : Expectation} {pending : List Expectation}
  {value : Bytes} {style : ScalarStyle}

/-- A parser that expects something now and behind the current nodes, with the tokens that are delivered to it. No
comment stands before the next node, and no flaw was met. -/
structure Poised (e : Expectation) (pending : List Expectation) (ks : List TokenKind) (p : Parser) : Prop where
  expected : p.expected = e
  pending : p.pending = pending
  delivers : Delivers ks p.tokens
  heading : p.heading = []
  noted : p.noted = none

namespace Poised

theorem flaw? (h : Poised e pending ks p) : p.flaw? = none := by
  rw [Parser.flaw?, h.delivers.untroubled.2, h.noted]

theorem claim (h : Poised e pending ks p) (t : Token) : p.claim t = p := by
  have hcomments := h.delivers.untroubled.1
  have hheading := h.heading
  obtain ⟨⟨⟨rest, mark, breaks, window, comments⟩, _⟩, _, _, _, _, heading, _⟩ := p
  dsimp only at hcomments hheading
  rw [hcomments, hheading]
  rfl

/-- The parser with another expectation, to whose node tokens are delivered as before. -/
theorem expecting (h : Poised e pending ks p) (e' : Expectation) : Poised e' pending ks { p with expected := e' } :=
  ⟨rfl, h.pending, h.delivers, h.heading, h.noted⟩

theorem after (h : Poised e pending ks p) (e' : Expectation) : Poised e (e' :: pending) ks (p.after e') :=
  ⟨h.expected, congrArg (e' :: ·) h.pending, h.delivers, h.heading, h.noted⟩

theorem headed (h : Poised e pending ks p) : Poised e pending ks p.headed :=
  ⟨h.expected, h.pending, h.delivers, rfl, h.noted⟩

theorem resume (h : Poised e (e' :: pending) ks p) : Poised e' pending ks p.resume := by
  rw [Parser.resume, h.pending]
  exact ⟨rfl, rfl, h.delivers, h.heading, h.noted⟩

theorem leave (h : Poised e (e' :: pending) ks p) : Poised e' pending ks p.leave := by
  have hresumed := h.resume
  exact ⟨hresumed.expected, hresumed.pending, hresumed.delivers, hresumed.heading, hresumed.noted⟩

/-- The first token is at hand, and behind it the others are delivered. -/
theorem head (h : Poised e pending (k :: ks) p) :
    Gives p.head fun r => r.1.kind = k ∧ Poised e pending (k :: ks) r.2 ∧ Poised e pending ks r.2.next := by
  obtain ⟨⟨t, τ⟩, heq, hkind, hdelivers, hnext⟩ := h.delivers.head
  have hpoised : Poised e pending (k :: ks) { p with tokens := τ } :=
    ⟨h.expected, h.pending, hdelivers, h.heading, h.noted⟩
  rw [Parser.head, heq]
  dsimp only
  rw [hpoised.claim]
  exact .ok ⟨hkind, hpoised, h.expected, h.pending, hnext, h.heading, h.noted⟩

/-- The start of a collection is passed. -/
theorem enter (h : Poised e pending (k :: ks) p) : Gives p.enter (Poised e pending ks) := by
  refine h.head.bind ?_
  rintro ⟨t, p⟩ ⟨-, -, hnext⟩
  exact .ok ⟨hnext.expected, hnext.pending, hnext.delivers, hnext.heading, hnext.noted⟩

/-! ### Nodes -/

/-- A node without properties starts with its content. -/
theorem properties (h : Poised e pending (k :: ks) p) (hanchor : ∀ name, k ≠ .anchor name)
    (htag : ∀ handle suffix, k ≠ .tag handle suffix) :
    Gives p.properties fun r => r.1 = [] ∧ r.2.1 = [] ∧ Poised e pending (k :: ks) r.2.2 := by
  refine h.head.bind ?_
  rintro ⟨t, p⟩ ⟨hkind, hpoised, -⟩
  dsimp only at hkind ⊢
  split
  next name heq => exact absurd (hkind.symm.trans heq) (hanchor name)
  next handle suffix heq => exact absurd (hkind.symm.trans heq) (htag handle suffix)
  next => exact .ok ⟨rfl, rfl, hpoised⟩

/-- The tokens that start a collection of a block or a flow, with the event and what is expected then. -/
inductive Opens : TokenKind → EventKind → Expectation → Prop where
  | mapping : Opens .blockMappingStart (.mappingStart [] []) .blockMappingFirst
  | sequence : Opens .blockSequenceStart (.sequenceStart [] []) .blockSequenceFirst
  | flow : Opens .flowSequenceStart (.sequenceStart [] []) .flowSequenceFirst

/-- A collection without properties starts. -/
theorem node_opening (h : Poised e pending (k :: ks) p) {kind : EventKind} (hopens : Opens k kind e') (indentless : Bool) :
    Gives (p.node true indentless) fun r => r.1.kind = kind ∧ Poised e' pending (k :: ks) r.2 := by
  rw [node]
  refine h.head.bind ?_
  rintro ⟨first, p⟩ ⟨hfirst, hpoised, -⟩
  have hproperties : Gives p.properties fun r => r.1 = [] ∧ r.2.1 = [] ∧ Poised e pending (k :: ks) r.2.2 := by
    cases hopens <;> exact hpoised.properties (by simp) (by simp)
  dsimp only at hfirst ⊢
  rw [hfirst]
  cases hopens <;>
    · refine hproperties.bind ?_
      rintro ⟨anchor, tag, p⟩ ⟨rfl, rfl, hpoised⟩
      refine hpoised.head.bind ?_
      rintro ⟨t, p⟩ ⟨hkind, hpoised, -⟩
      dsimp only at hkind ⊢
      rw [hkind]
      exact .ok ⟨rfl, rfl, hpoised.pending, hpoised.delivers, by first | exact hpoised.heading | rfl, hpoised.noted⟩

/-- A scalar without properties is a node of its own. -/
theorem node_scalar (h : Poised e (e' :: pending) (.scalar value style :: ks) p) (block indentless : Bool) :
    Gives (p.node block indentless) fun r => r.1.kind = .scalar [] [] value style ∧ Poised e' pending ks r.2 := by
  rw [node]
  refine h.head.bind ?_
  rintro ⟨first, p⟩ ⟨hfirst, hpoised, -⟩
  dsimp only at hfirst ⊢
  rw [hfirst]
  refine (hpoised.properties (by simp) (by simp)).bind ?_
  rintro ⟨anchor, tag, p⟩ ⟨rfl, rfl, hpoised⟩
  refine hpoised.head.bind ?_
  rintro ⟨t, p⟩ ⟨hkind, -, hnext⟩
  dsimp only at hkind hnext ⊢
  rw [hkind]
  exact .ok ⟨rfl, hnext.headed.resume⟩

/-! ### Mappings -/

/-- A key of a mapping. -/
theorem blockMappingKey_key (h : Poised e pending (.key :: .scalar value style :: ks) p) :
    Gives p.blockMappingKey fun r => r.1.kind = .scalar [] [] value style ∧ Poised .blockMappingValue pending ks r.2 := by
  refine h.head.bind ?_
  rintro ⟨t, p⟩ ⟨hkind, -, hnext⟩
  dsimp only at hkind hnext ⊢
  rw [hkind]
  refine hnext.head.bind ?_
  rintro ⟨u, p⟩ ⟨hkind', hpoised, -⟩
  dsimp only at hkind' ⊢
  rw [hkind']
  exact (hpoised.after .blockMappingValue).node_scalar true true

/-- The end of a mapping. -/
theorem blockMappingKey_end (h : Poised e (e' :: pending) (.blockEnd :: ks) p) :
    Gives p.blockMappingKey fun r => r.1.kind = .mappingEnd ∧ Poised e' pending ks r.2 := by
  refine h.head.bind ?_
  rintro ⟨t, p⟩ ⟨hkind, hpoised, hnext⟩
  dsimp only at hkind hnext ⊢
  rw [hkind]
  have hheaded : p.headed.next = p.next.headed := rfl
  exact .ok ⟨rfl, by rw [hheaded]; exact hnext.headed.leave⟩

/-- A scalar as the value of a key. -/
theorem step_scalarValue (h : Poised .blockMappingValue pending (.value :: .scalar value style :: ks) p) :
    Gives p.step fun r => r.1.kind = .scalar [] [] value style ∧ Poised .blockMappingKey pending ks r.2 := by
  rw [step, h.expected]
  refine h.head.bind ?_
  rintro ⟨t, p⟩ ⟨hkind, -, hnext⟩
  dsimp only at hkind hnext ⊢
  rw [hkind]
  refine hnext.head.bind ?_
  rintro ⟨u, p⟩ ⟨hkind', hpoised, -⟩
  dsimp only at hkind' ⊢
  rw [hkind']
  exact (hpoised.after .blockMappingKey).node_scalar true true

/-- A collection as the value of a key. -/
theorem step_openingValue (h : Poised .blockMappingValue pending (.value :: k :: ks) p) {kind : EventKind}
    (hopens : Opens k kind e') :
    Gives p.step fun r => r.1.kind = kind ∧ Poised e' (.blockMappingKey :: pending) (k :: ks) r.2 := by
  rw [step, h.expected]
  refine h.head.bind ?_
  rintro ⟨t, p⟩ ⟨hkind, -, hnext⟩
  dsimp only at hkind hnext ⊢
  rw [hkind]
  refine hnext.head.bind ?_
  rintro ⟨u, p⟩ ⟨hkind', hpoised, -⟩
  dsimp only at hkind' ⊢
  have hnode := (hpoised.after .blockMappingKey).node_opening hopens true
  rw [hkind']
  cases hopens <;> exact hnode

/-! ### Sequences -/

/-- A scalar as an entry of a sequence. -/
theorem blockSequenceEntry_scalar (h : Poised e pending (.blockEntry :: .scalar value style :: ks) p) :
    Gives p.blockSequenceEntry fun r =>
      r.1.kind = .scalar [] [] value style ∧ Poised .blockSequenceEntry pending ks r.2 := by
  refine h.head.bind ?_
  rintro ⟨t, p⟩ ⟨hkind, hpoised, hnext⟩
  dsimp only at hkind hpoised hnext ⊢
  rw [hkind]
  dsimp only
  rw [hpoised.heading]
  refine hnext.head.bind ?_
  rintro ⟨u, p⟩ ⟨hkind', hpoised', -⟩
  dsimp only at hkind' ⊢
  rw [hkind']
  exact (hpoised'.after .blockSequenceEntry).node_scalar true false

/-- The end of a sequence. -/
theorem blockSequenceEntry_end (h : Poised e (e' :: pending) (.blockEnd :: ks) p) :
    Gives p.blockSequenceEntry fun r => r.1.kind = .sequenceEnd ∧ Poised e' pending ks r.2 := by
  refine h.head.bind ?_
  rintro ⟨t, p⟩ ⟨hkind, -, hnext⟩
  dsimp only at hkind hnext ⊢
  rw [hkind]
  exact .ok ⟨rfl, hnext.leave⟩

/-- The end of an empty sequence between brackets. -/
theorem step_bracket (h : Poised .flowSequenceFirst (e' :: pending) (.flowSequenceStart :: .flowSequenceEnd :: ks) p) :
    Gives p.step fun r => r.1.kind = .sequenceEnd ∧ Poised e' pending ks r.2 := by
  rw [step, h.expected]
  refine h.enter.bind ?_
  intro p hpoised
  refine hpoised.head.bind ?_
  rintro ⟨t, p⟩ ⟨hkind, -, hnext⟩
  dsimp only at hkind hnext ⊢
  rw [hkind]
  dsimp only
  rw [flowSequenceItem, hkind]
  have hheaded : p.headed.next = p.next.headed := rfl
  exact .ok ⟨rfl, by rw [hheaded]; exact hnext.headed.leave⟩

end Poised

/-! ### First and later parts -/

/-- A key of a block mapping is expected, or its end. The first one comes behind the token that starts the block. -/
inductive AtKey (pending : List Expectation) (ks : List TokenKind) (p : Parser) : Prop where
  | first (h : Poised .blockMappingFirst pending (.blockMappingStart :: ks) p)
  | later (h : Poised .blockMappingKey pending ks p)

theorem AtKey.step (h : AtKey pending ks p) {good : Event × Parser → Prop}
    (hnext : ∀ e q, Poised e pending ks q → Gives q.blockMappingKey good) : Gives p.step good := by
  cases h with
  | first h =>
      rw [Parser.step, h.expected]
      exact h.enter.bind (hnext _)
  | later h =>
      rw [Parser.step, h.expected]
      exact hnext _ p h

/-- An entry of a block sequence is expected, or its end. The first one comes behind the token that starts the block. -/
inductive AtEntry (pending : List Expectation) (ks : List TokenKind) (p : Parser) : Prop where
  | first (h : Poised .blockSequenceFirst pending (.blockSequenceStart :: ks) p)
  | later (h : Poised .blockSequenceEntry pending ks p)

theorem AtEntry.step (h : AtEntry pending ks p) {good : Event × Parser → Prop}
    (hnext : ∀ e q, Poised e pending ks q → Gives q.blockSequenceEntry good) : Gives p.step good := by
  cases h with
  | first h =>
      rw [Parser.step, h.expected]
      exact h.enter.bind (hnext _)
  | later h =>
      rw [Parser.step, h.expected]
      exact hnext _ p h

/-! ### Documents -/

namespace Poised

/-- The start of the stream. -/
theorem step_streamStart (h : Poised .streamStart pending (.streamStart :: ks) p) :
    Gives p.step fun r => r.1.kind = .streamStart ∧ Poised .documentStart pending ks r.2 := by
  rw [step, h.expected]
  refine h.head.bind ?_
  rintro ⟨t, p⟩ ⟨-, -, hnext⟩
  exact .ok ⟨rfl, hnext.expecting .documentStart⟩

/-- No directives stand before a block. -/
theorem directives (h : Poised e pending (.blockMappingStart :: ks) p) (count : Nat) (versioned : Bool) :
    Gives (directives count versioned p) (Poised e pending (.blockMappingStart :: ks)) := by
  cases count with
  | zero => exact .ok h
  | succ count =>
      rw [Parser.directives]
      refine h.head.bind ?_
      rintro ⟨t, p⟩ ⟨hkind, hpoised, -⟩
      dsimp only at hkind ⊢
      rw [hkind]
      exact .ok ⟨hpoised.expected, hpoised.pending, hpoised.delivers, hpoised.heading, hpoised.noted⟩

/-- A document starts with its root. -/
theorem step_documentStart (h : Poised .documentStart pending (.blockMappingStart :: ks) p) :
    Gives p.step fun r =>
      r.1.kind = .documentStart ∧ Poised .blockNode (.documentEnd :: pending) (.blockMappingStart :: ks) r.2 := by
  rw [step, h.expected]
  refine h.head.bind ?_
  rintro ⟨t, p⟩ ⟨hkind, hpoised, -⟩
  dsimp only at hkind ⊢
  rw [hkind]
  refine (hpoised.directives p.tokens.bound false).bind ?_
  intro p hpoised
  have hbelow : Comment.belowGap p.heading = [] := by rw [hpoised.heading]; rfl
  exact .ok ⟨rfl, rfl, congrArg (Expectation.documentEnd :: ·) hpoised.pending, hpoised.delivers, hbelow, hpoised.noted⟩

/-- The root is a mapping. -/
theorem step_root (h : Poised .blockNode pending (.blockMappingStart :: ks) p) :
    Gives p.step fun r =>
      r.1.kind = .mappingStart [] [] ∧ Poised .blockMappingFirst pending (.blockMappingStart :: ks) r.2 := by
  rw [step, h.expected]
  exact h.node_opening .mapping false

/-- The document ends with the stream. -/
theorem step_documentEnd (h : Poised .documentEnd pending (.streamEnd :: ks) p) :
    Gives p.step fun r => r.1.kind = .documentEnd ∧ r.2.flaw? = none := by
  rw [step, h.expected]
  refine h.head.bind ?_
  rintro ⟨t, p⟩ ⟨hkind, hpoised, -⟩
  dsimp only at hkind ⊢
  rw [hkind]
  exact .ok ⟨rfl, (hpoised.expecting .nothing).flaw?⟩

end Poised

end Parser

end Yaml

end MobilitySweep
