import MobilitySweep.Proofs.Yaml.Stations

/-! # Fetching the tokens of a row

From each place in a row the next token is fetched without a flaw, and the place behind it is known. Behind a scalar or
an empty list the stream stands between rows again.
-/

namespace MobilitySweep

namespace Yaml

open Cursor

namespace TokenStream

variable {σ : TokenStream} {text rest : List Char} {m : Mark} {c : Cursor} {depth : Nat} {rows : List Row}

/-! ## Scalars -/

/-- A quote starts a quoted scalar. -/
theorem content_quoted {single : Bool} (hat : At (quote single :: rest) m σ.cursor) :
    σ.content = σ.keyLike (quotedScalar single σ.bound) := by
  have hhead : σ.cursor.head = quote single := hat.head_eq
  rw [content]
  cases single <;> simp [hhead, quote]

theorem firstColumn_le (hfits : Row.Fits depth rows) (hdepth : 0 < depth) : (Row.firstColumn rows : Int) ≤ indentOf depth := by
  obtain ⟨k, rfl⟩ := Nat.exists_eq_add_one_of_ne_zero hdepth.ne'
  have hfirst := hfits.firstDepth_le
  rw [Row.firstColumn, indentOf]
  omega

theorem kinds_behindScalar (σ : TokenStream) (t : Token) (allowed : Bool) (c : Cursor) :
    (σ.behindScalar t allowed c).kinds = σ.kinds ++ [t.kind] := by
  simp [kinds, behindScalar]

theorem bound_behindScalar (σ : TokenStream) (t : Token) (allowed : Bool) (c : Cursor) :
    (σ.behindScalar t allowed c).bound = σ.bound := by
  rw [behindScalar]
  rcases σ.saved_cases with h | h <;> rw [h]

/-- A scalar at the end of its row is fetched. -/
theorem Within.content_scalar {s : Spelling} (h : Within depth (s.chars ++ '\n' :: Row.text rows) σ) (hkeyless : Keyless σ)
    (hs : s.Legible) (hdepth : 0 < depth) (hfits : Row.Fits depth rows) :
    Gives σ.content fun σ' => Between depth rows σ' ∧ σ'.kinds = σ.kinds ++ [s.kind] := by
  obtain ⟨m, -, hright, hat⟩ := h.place
  have hbound := h.bound
  have hcolumn : indentOf depth < σ.cursor.mark.column := by rwa [hat.mark_eq]
  have hnext := hfits.mono (Nat.le_succ depth)
  cases hs with
  | @plain text htext hstart =>
      obtain ⟨x, more, htext', hsolid⟩ := htext.exists_cons
      have hfirst : IsSolid (first text) := by rwa [htext']
      rw [content_plain h.inside.flat hstart hfirst hat]
      have hlength : text.length + Row.firstColumn rows + (Row.content rows).length + 2 < σ.bound := by
        rw [Row.text_eq] at hbound
        simp only [List.length_append, List.length_cons, List.length_replicate] at hbound
        omega
      rw [Row.text_eq] at hat
      have hscalar := plainScalar_line htext (firstColumn_le hfits hdepth) hfits.starts.1 hright
        (by omega : text.length + Row.firstColumn rows + 1 < σ.bound) hat
      rw [← h.inside.indent] at hscalar
      refine (plain_gives (.inl hkeyless) h.inside.flat hscalar).mono ?_
      rintro _ ⟨t, allowed, c, ⟨hkind, hallowed, m', hm', hat'⟩, rfl⟩
      obtain ⟨hinside, huntied, htrailing⟩ := behindScalar_spec hkeyless h.inside hcolumn t allowed c
      refine ⟨⟨hinside, huntied, htrailing, hnext, .here ⟨⟨m', hm', hat'⟩, fun _ => hallowed, ?_⟩⟩, ?_⟩
      · rw [bound_behindScalar]
        omega
      · rw [kinds_behindScalar, show t.kind = _ from hkind]
        rfl
  | @quoted single code text htext =>
      have hat' : At (quote single :: (text.flatMap code ++ quote single :: '\n' :: Row.text rows)) m σ.cursor := by
        simpa using hat
      rw [content_quoted hat']
      have hlength : text.length + (Row.text rows).length + 3 < σ.bound := by
        have hcode := htext.length_le
        simp only [List.length_append, List.length_cons, List.length_nil] at hbound
        omega
      have hscalar := quotedScalar_text htext (by rw [first_cons]; decide) (by omega : text.length + 1 < σ.bound) hat'
      refine (keyLike_gives (.inl hkeyless) h.inside.flat hscalar).mono ?_
      rintro _ ⟨t, c, ⟨hkind, i, hc⟩, rfl⟩
      obtain ⟨hinside, huntied, htrailing⟩ := behindScalar_spec hkeyless h.inside hcolumn t false c
      refine ⟨⟨hinside, huntied, htrailing, hnext, .line hc ?_⟩, ?_⟩
      · rw [bound_behindScalar]
        omega
      · rw [kinds_behindScalar, show t.kind = _ from hkind]
        rfl

/-- The stream stands before the scalar of a row. -/
structure BeforeScalar (depth : Nat) (s : Spelling) (rows : List Row) (σ : TokenStream) : Prop where
  within : Within depth (' ' :: (s.chars ++ '\n' :: Row.text rows)) σ
  keyless : Keyless σ
  legible : s.Legible
  deep : 0 < depth
  fits : Row.Fits depth rows

/-- Behind the scalar of a row the stream stands before the next row. -/
theorem BeforeScalar.fetch {s : Spelling} (h : BeforeScalar depth s rows σ) :
    Gives σ.fetch fun σ' => Between depth rows σ' ∧ σ'.kinds = σ.kinds ++ [s.kind] := by
  obtain ⟨hsolid, hcomment⟩ := h.legible.first ('\n' :: Row.text rows)
  have hwithin : Within depth (List.replicate 1 ' ' ++ (s.chars ++ '\n' :: Row.text rows)) σ := h.within
  refine hwithin.fetch hsolid hcomment fun c _ hc target => ?_
  refine (hc.content_scalar h.keyless h.legible h.deep h.fits).bind ?_
  rintro σ' ⟨hbetween, hkinds⟩
  refine (hbetween.passComment target).mono ?_
  rintro σ'' ⟨hbehind, hqueue⟩
  refine ⟨hbehind, ?_⟩
  rw [kinds, hqueue, ← kinds, hkinds]
  rfl

/-! ## Names -/

/-- The stream stands behind a name in a block of some depth, which may still have to be opened. -/
structure Keyed (depth deep : Nat) (front : List Token) (t : Token) (rest : List Char) (σ : TokenStream) : Prop where
  within : Within depth (':' :: rest) σ
  right : indentOf deep < σ.cursor.mark.column
  opens : depth = deep ∨ depth + 1 = deep
  shallow : deep ≤ 3
  queue : σ.queue = front ++ [t]
  key : ∃ key, σ.keys = [key] ∧ key.possible = true ∧ key.token = σ.passed + front.length ∧
    σ.awaited = [(key.token, 0)] ∧ (key.mark.column : Int) = indentOf deep ∧
    key.mark.line = σ.cursor.mark.line ∧ σ.cursor.mark.index ≤ key.mark.index + 1024

/-- A colon behind a name makes it a key, and opens the block of the row where that is missing. -/
theorem Keyed.valueIndicator {deep : Nat} {front : List Token} {t : Token} (h : Keyed depth deep front t rest σ) :
    Gives σ.valueIndicator fun σ' => Within deep rest σ' ∧ Keyless σ' ∧ σ'.keyAllowed = false ∧
      σ'.kinds = front.map Token.kind ++ (if depth < deep then [TokenKind.blockMappingStart] else []) ++
        [TokenKind.key, t.kind, .value] := by
  obtain ⟨key, hkeys, hpossible, htoken, hawaited, hcolumn, hline, hindex⟩ := h.key
  have hopen : σ.keyOpen key = .ok true := by
    rw [keyOpen, hpossible, hline]
    simp [Nat.not_lt.mpr hindex]
  -- The key indicator stands before the name, and the start of the block before both.
  have hinserted := insertBefore_eq h.queue ⟨.key, key.mark, key.mark⟩
  have hmoved := h.within.inside.moved σ.cursor (front ++ ⟨.key, key.mark, key.mark⟩ :: [t]) σ.keyAllowed σ.keys σ.awaited
  have hopened := hmoved.openBlock h.opens h.shallow hcolumn rfl (.inl rfl) .blockMappingStart key.mark
  obtain ⟨m, -, -, hat⟩ := h.within.place
  have hright : indentOf deep < m.column := by
    rw [← hat.mark_eq]
    exact h.right
  rw [TokenStream.valueIndicator, hkeys]
  refine .bind_of_eq hopen ?_
  rw [if_pos rfl, List.head?_cons, Option.getD_some, htoken, hinserted]
  refine .bind_of_eq hopened ?_
  refine .ok ⟨⟨(hmoved.opened h.shallow []).moved _ _ _ _ _, ⟨m.ahead 1, ?_, ?_, hat.skip⟩, ?_⟩,
    ⟨⟨false, key.required, σ.passed + front.length, key.mark⟩, ?_, rfl, ?_⟩, rfl, ?_⟩
  · simp
  · simp only [Mark.column_ahead]
    omega
  · have hbound : (':' :: rest).length + 1 < σ.bound := h.within.bound
    rw [List.length_cons] at hbound
    exact Nat.lt_of_succ_lt hbound
  · simp [take, append, unawait, opened, hkeys]
  · simp [take, append, unawait, opened, withoutKey, hawaited, htoken]
  · simp [kinds, take, append, unawait, opened, ← kinds_openers depth deep .blockMappingStart key.mark]

/-- A colon with white space behind it is taken for a value indicator. -/
theorem content_colon (hblank : isBlankOrEnd (first rest) = true)
    (hat : At (':' :: rest) m σ.cursor) : σ.content = σ.valueIndicator := by
  have hhead : σ.cursor.head = ':' := hat.head_eq
  have hpeek : isBlankOrEnd (σ.cursor.peek 1) = true := by
    rw [hat.peek_eq]
    exact hblank
  rw [content]
  simp [hhead, hpeek]

/-- Behind a name its colon is fetched; what is held follows. -/
theorem Keyed.fetch {deep : Nat} {front : List Token} {t : Token} (h : Keyed depth deep front t rest σ)
    (hblank : isBlankOrEnd (first rest) = true) (hcomment : At.Uncommented rest) :
    Gives σ.fetch fun σ' => Within deep rest σ' ∧ Keyless σ' ∧ σ'.keyAllowed = false ∧
      σ'.kinds = front.map Token.kind ++ (if depth < deep then [TokenKind.blockMappingStart] else []) ++
        [TokenKind.key, t.kind, .value] := by
  have hwithin : Within depth (List.replicate 0 ' ' ++ ':' :: rest) σ := h.within
  refine hwithin.fetch (by rw [first_cons]; decide) (by rw [first_cons]; decide) fun c hmark hc target => ?_
  have hkeyed : Keyed depth deep front t rest { σ with cursor := c } := by
    refine ⟨hc, ?_, h.opens, h.shallow, h.queue, ?_⟩
    · rw [hmark]
      exact h.right
    · rw [hmark]
      exact h.key
  obtain ⟨m, -, -, hat⟩ := hc.place
  rw [content_colon hblank hat]
  refine hkeyed.valueIndicator.bind ?_
  rintro σ' ⟨hbehind, hkeyless, hallowed, hkinds⟩
  obtain ⟨m', hcolumn, hright, hat'⟩ := hbehind.place
  refine (passComment_gives target hcomment hat').mono ?_
  rintro _ ⟨c', rfl, hc'⟩
  exact ⟨⟨hbehind.inside.moved _ _ _ _ _, ⟨m', hcolumn, hright, hc'⟩, hbehind.bound⟩, hkeyless, hallowed, hkinds⟩

/-! ## Empty lists -/

/-- The stream stands before an empty list. -/
structure BeforeBrackets (depth : Nat) (rows : List Row) (σ : TokenStream) : Prop where
  within : Within depth (' ' :: '[' :: ']' :: '\n' :: Row.text rows) σ
  keyless : Keyless σ
  not_allowed : σ.keyAllowed = false
  fits : Row.Fits (depth + 1) rows

/-- The stream stands inside an empty list. -/
structure Bracketed (depth : Nat) (rows : List Row) (σ : TokenStream) : Prop where
  outside : Inside depth { σ with flowLevel := 0 }
  flow : σ.flowLevel = 1
  keys : ∃ inner outer, σ.keys = [inner, outer] ∧ inner.possible = false ∧ outer.possible = false
  awaited : σ.awaited = []
  place : ∃ m : Mark, m.column ≠ 0 ∧ At (']' :: '\n' :: Row.text rows) m σ.cursor
  bound : (Row.text rows).length + 2 < σ.bound
  fits : Row.Fits (depth + 1) rows

/-- An opening bracket starts a list. -/
theorem Within.content_bracket (h : Within depth ('[' :: ']' :: '\n' :: Row.text rows) σ) (hkeyless : Keyless σ)
    (hallowed : σ.keyAllowed = false) (hfits : Row.Fits (depth + 1) rows) :
    Gives σ.content fun σ' => Bracketed depth rows σ' ∧ σ'.kinds = σ.kinds ++ [TokenKind.flowSequenceStart] := by
  obtain ⟨key, hkeys, hpossible, hawaited⟩ := hkeyless
  obtain ⟨m, hcolumn, -, hat⟩ := h.place
  have hflat := h.inside.flat
  have hbound := h.bound
  simp only [List.length_cons] at hbound
  have hopened : σ.openFlow = .ok { σ with
      keys := [⟨false, false, σ.nextNumber, σ.cursor.mark⟩, key]
      flowLevel := 1 } := by
    rw [openFlow, hflat, hkeys]
    exact if_neg (by simp [depthLimit])
  rw [content, hat.head_eq]
  change Gives (σ.openCollection .flowSequenceStart) _
  rw [openCollection, saveKey_of_not_allowed hallowed]
  refine .bind_of_eq rfl (.bind_of_eq hopened (.ok ⟨⟨?_, rfl, ⟨_, _, rfl, rfl, hpossible⟩, hawaited, ?_, ?_, hfits⟩, ?_⟩))
  · exact ⟨h.inside.started, rfl, h.inside.indent, h.inside.indents, h.inside.shallow⟩
  · exact ⟨m.ahead 1, by simp, hat.skip⟩
  · change _ < σ.bound
    omega
  · simp [kinds, take, append]

/-- A closing bracket ends a list. -/
theorem Bracketed.content (h : Bracketed depth rows σ) :
    Gives σ.content fun σ' => Between depth rows σ' ∧ σ'.kinds = σ.kinds ++ [TokenKind.flowSequenceEnd] := by
  obtain ⟨m, hcolumn, hat⟩ := h.place
  obtain ⟨inner, outer, hkeys, hinner, houter⟩ := h.keys
  have hremoved : σ.removeKey = .ok σ := by
    rw [removeKey, hkeys]
    simp [hinner]
  have hclosed : σ.closeFlow = { σ with flowLevel := 0, keys := [outer] } := by
    rw [closeFlow, h.flow, hkeys]
    simp [unawait, h.awaited, withoutKey]
  rw [TokenStream.content, hat.head_eq]
  change Gives (σ.closeCollection .flowSequenceEnd) _
  rw [closeCollection]
  refine .bind_of_eq hremoved ?_
  rw [hclosed]
  have hkeyless (queue : List Token) (c : Cursor) : Keyless { σ with
      cursor := c
      queue := queue
      flowLevel := 0
      keyAllowed := false
      keys := [outer] } := ⟨outer, rfl, houter, h.awaited⟩
  refine .ok ⟨⟨h.outside.moved _ _ _ _ _, .inl (hkeyless _ _), (hkeyless _ _).trailing, h.fits, .line hat.skip h.bound⟩, ?_⟩
  simp [kinds, take, append]

/-- An empty list is fetched up to its opening bracket. -/
theorem BeforeBrackets.fetch (h : BeforeBrackets depth rows σ) :
    Gives σ.fetch fun σ' => Bracketed depth rows σ' ∧ σ'.kinds = σ.kinds ++ [TokenKind.flowSequenceStart] := by
  have hwithin : Within depth (List.replicate 1 ' ' ++ '[' :: ']' :: '\n' :: Row.text rows) σ := h.within
  refine hwithin.fetch (by rw [first_cons]; decide) (by rw [first_cons]; decide) fun c _ hc target => ?_
  refine (hc.content_bracket h.keyless h.not_allowed h.fits).bind ?_
  rintro σ' ⟨hbracketed, hkinds⟩
  obtain ⟨m, hcolumn, hat⟩ := hbracketed.place
  refine (passComment_gives target (uncommented_of_solid (by decide) (by decide)) hat).mono ?_
  rintro _ ⟨c', rfl, hc'⟩
  exact ⟨⟨hbracketed.outside.moved _ _ _ _ _, hbracketed.flow, hbracketed.keys, hbracketed.awaited, ⟨m, hcolumn, hc'⟩,
    hbracketed.bound, hbracketed.fits⟩, hkinds⟩

/-- The closing bracket of an empty list is fetched. -/
theorem Bracketed.fetch (h : Bracketed depth rows σ) :
    Gives σ.fetch fun σ' => Between depth rows σ' ∧ σ'.kinds = σ.kinds ++ [TokenKind.flowSequenceEnd] := by
  obtain ⟨m, hcolumn, hat⟩ := h.place
  have hbound := h.bound
  have hsolid : IsSolid (first (']' :: '\n' :: Row.text rows)) := by rw [first_cons]; decide
  have hskip (c : Cursor) (hc : At (']' :: '\n' :: Row.text rows) m c) :
      Gives ({ σ with cursor := c }.skipBlank c.mark σ.bound) fun σ' =>
        ∃ c', σ' = { σ with cursor := c' } ∧ At (']' :: '\n' :: Row.text rows) m c' := by
    have hc' : At (List.replicate 0 ' ' ++ ']' :: '\n' :: Row.text rows) m c := hc
    exact skipBlank_here (σ := { σ with cursor := c }) c.mark ⟨hsolid.isBlank, hsolid.isBreak⟩
      (by rw [first_cons]; decide) (Nat.zero_lt_of_lt hbound) (Nat.zero_lt_of_lt hbound) hc'
  have hstarted : σ.started = true := h.outside.started
  refine fetch_gives hstarted hat hskip ?_
  rintro _ ⟨c, rfl, hc⟩ mark
  rw [closeBlocks, if_neg (by simp [h.flow])]
  refine (hc.need 4).mono fun c' hc' => ?_
  rw [fetchHere_eq hsolid (.inl hcolumn) (.inr hcolumn) hc']
  have hmoved : Bracketed depth rows { σ with cursor := c' } :=
    ⟨h.outside.moved _ _ _ _ _, h.flow, h.keys, h.awaited, ⟨m, hcolumn, hc'⟩, hbound, h.fits⟩
  refine hmoved.content.bind ?_
  rintro σ' ⟨hbetween, hkinds⟩
  refine (hbetween.passComment _).mono ?_
  rintro σ'' ⟨hbehind, hqueue⟩
  refine ⟨hbehind, ?_⟩
  rw [kinds, hqueue, ← kinds, hkinds]
  rfl

/-! ## Starts of rows -/

theorem target_cons (r : Row) (rows : List Row) : target (r :: rows) = r.depth := Nat.max_eq_right r.depth_pos

/-- White space follows the colon of a row. -/
theorem first_held (held : Holding) (rest : List Char) : isBlankOrEnd (first (held.chars ++ '\n' :: rest)) = true := by
  cases held <;> exact rfl

/-- No comment follows the colon of a row. -/
theorem uncommented_held {held : Holding} (h : held.Legible) (rest : List Char) :
    At.Uncommented (held.chars ++ '\n' :: rest) := by
  cases held with
  | settings | items => exact uncommented_line
  | scalar s =>
      obtain ⟨hsolid, hcomment⟩ := Spelling.Legible.first h ('\n' :: rest)
      obtain ⟨x, more, hchars⟩ : ∃ x more, s.chars ++ '\n' :: rest = x :: more := List.exists_cons_of_ne_nil (by simp)
      rw [hchars, first_cons] at hsolid hcomment
      rw [Holding.chars, List.cons_append, hchars, At.Uncommented, List.dropWhile_cons_of_pos (by decide)]
      exact uncommented_of_solid hsolid hcomment
  | nothing =>
      rw [At.Uncommented, show Holding.nothing.chars ++ '\n' :: rest = ' ' :: '[' :: ']' :: '\n' :: rest from rfl,
        List.dropWhile_cons_of_pos (by decide)]
      exact uncommented_of_solid (by decide) (by decide)

/-- A name at the start of a row is queued, and may be a key. -/
theorem AtRow.content_name {name : List Char} {held : Holding} (h : AtRow (.named name held :: rows) σ)
    (hinside : Inside depth σ) (huntied : Keyless σ ∨ MayBeKey σ) (hname : IsName name)
    (hopens : depth = (Row.named name held).depth ∨ depth + 1 = (Row.named name held).depth) :
    Gives σ.content fun σ' => ∃ t, t.kind = Row.nameKind name ∧
      Keyed depth (Row.named name held).depth σ.queue t (held.chars ++ '\n' :: Row.text rows) σ' := by
  obtain ⟨m, hcolumn, hat⟩ := h.place
  have hallowed := h.allowed (List.cons_ne_nil _ _)
  have hbound := h.bound
  rw [Row.content, Row.chars, List.append_assoc, List.cons_append] at hat hbound
  rw [List.length_append] at hbound
  have hpos := List.length_pos_of_ne_nil hname.word.ne_nil
  have hindent : (m.column : Int) = indentOf (Row.named name held).depth := by
    rw [hcolumn, firstColumn_eq, target_cons]
  have hle : indentOf depth ≤ indentOf (Row.named name held).depth := by
    rcases hopens with hopens | hopens
    · rw [hopens]
    · exact (indentOf_lt_iff.mpr (by omega)).le
  have hsolid : IsSolid (first name) := by simpa using hname.solid []
  rw [content_plain hinside.flat (.inl hname.start) hsolid hat]
  have hscalar := plainScalar_key hname.word (.inr ⟨rfl, first_held held (Row.text rows)⟩) σ.indent
    (hname.undivided m _) (by omega : name.length < σ.bound) hat
  refine (plain_gives huntied hinside.flat hscalar).mono ?_
  rintro _ ⟨t, allowed, c, ⟨hkind, -, hc⟩, rfl⟩
  have hsaved : σ.saved = { σ with keys := [σ.keyHere], awaited := [(σ.nextNumber, 0)] } := by
    rw [saved, if_pos hallowed]
  have hcursor : σ.cursor.mark = m := hat.mark_eq
  have hright : indentOf (Row.named name held).depth < (m.ahead name.length).column := by
    simp only [Mark.column_ahead]
    omega
  rw [behindScalar, hsaved]
  refine ⟨t, hkind, ⟨hinside.moved _ _ _ _ _, ⟨m.ahead name.length, ?_, hle.trans_lt hright, hc⟩, ?_⟩, ?_, hopens,
    Row.depth_le _, rfl, σ.keyHere, rfl, rfl, rfl, rfl, ?_, ?_, ?_⟩
  · simp only [Mark.column_ahead]
    omega
  · change _ < σ.bound
    omega
  · rw [hc.mark_eq]
    exact hright
  · rw [← hindent, ← hcursor]
    rfl
  · rw [hc.mark_eq, ← hcursor]
    rfl
  · rw [hc.mark_eq, ← hcursor]
    exact Nat.add_le_add_left (hname.short.trans (by decide)) _

theorem min_depth {r : Row} {rows : List Row} (h : Row.Fits (depth + 1) (r :: rows)) :
    min depth r.depth = r.depth ∨ min depth r.depth + 1 = r.depth := by
  have hle : r.depth ≤ depth + 1 := h.2.1
  omega

/-- The name of the next row is fetched behind the blocks that end before it. -/
theorem Between.fetch_name {name : List Char} {held : Holding} (h : Between depth (.named name held :: rows) σ) :
    Gives σ.fetch fun σ' => ∃ front t, t.kind = Row.nameKind name ∧
      Keyed (min depth (Row.named name held).depth) (Row.named name held).depth front t (held.chars ++ '\n' :: Row.text rows) σ' ∧
      front.map Token.kind = σ.kinds ++ List.replicate (depth - (Row.named name held).depth) .blockEnd := by
  obtain ⟨⟨hname, hheld⟩, -, -⟩ := h.fits
  refine h.fetch fun σ' hinside huntied hrow hkinds => ?_
  rw [target_cons] at hinside hkinds
  obtain ⟨m, hcolumn, hat⟩ := hrow.place
  rw [Row.content, Row.chars, List.append_assoc, List.cons_append] at hat
  rw [fetchHere_eq (hname.solid _) (hname.undivided m _) (.inl (hname.ne (by decide) _)) hat]
  refine (hrow.content_name hinside huntied hname (min_depth h.fits)).bind ?_
  rintro σ'' ⟨t, hkind, hkeyed⟩
  obtain ⟨m', hcolumn', hright, hat'⟩ := hkeyed.within.place
  refine (passComment_gives _ (uncommented_of_solid (by decide) (by decide)) hat').mono ?_
  rintro _ ⟨c, rfl, hc⟩
  refine ⟨σ'.queue, t, hkind, ⟨⟨hkeyed.within.inside.moved _ _ _ _ _, ⟨m', hcolumn', hright, hc⟩, hkeyed.within.bound⟩,
    ?_, hkeyed.opens, hkeyed.shallow, hkeyed.queue, ?_⟩, hkinds⟩
  · have := hkeyed.right
    rwa [hat'.mark_eq, ← hc.mark_eq] at this
  · have := hkeyed.key
    rwa [hat'.mark_eq, ← hc.mark_eq] at this

/-- An entry indicator at the start of a row is queued, and opens the list where that is missing. -/
theorem AtRow.content_item {s : Spelling} (h : AtRow (.item s :: rows) σ) (hinside : Inside depth σ)
    (huntied : Keyless σ ∨ MayBeKey σ) (hfits : Row.Fits (depth + 1) (.item s :: rows)) :
    Gives σ.content fun σ' => BeforeScalar 3 s rows σ' ∧ (∃ t, σ'.queue.getLast? = some t ∧ t.kind = .blockEntry) ∧
      σ'.kinds = σ.kinds ++ (if depth < 3 then [TokenKind.blockSequenceStart] else []) ++ [TokenKind.blockEntry] := by
  obtain ⟨m, hcolumn, hat⟩ := h.place
  have hallowed := h.allowed (List.cons_ne_nil _ _)
  have hbound : ('-' :: ' ' :: (s.chars ++ '\n' :: Row.text rows)).length + 1 < σ.bound := h.bound
  simp only [List.length_cons] at hbound
  have hat' : At ('-' :: ' ' :: (s.chars ++ '\n' :: Row.text rows)) m σ.cursor := hat
  have hdepth : depth = 3 ∨ depth + 1 = 3 := by
    have hshallow := hinside.shallow
    have hle : 3 ≤ depth + 1 := hfits.2.1
    omega
  have hindent : (σ.cursor.mark.column : Int) = indentOf 3 := by
    rw [hat.mark_eq, hcolumn, firstColumn_eq, target_cons]
    rfl
  have hopened := hinside.openBlock hdepth (le_refl 3) hindent (List.append_nil σ.queue).symm (.inr ⟨rfl, rfl⟩)
    .blockSequenceStart σ.cursor.mark
  have hcontent : σ.content = σ.blockEntry := by
    have hhead : σ.cursor.head = '-' := hat'.head_eq
    have hpeek : isBlankOrEnd (σ.cursor.peek 1) = true := by
      rw [hat'.peek_eq]
      exact rfl
    rw [content]
    simp [hhead, hpeek]
  obtain ⟨key, hremoved⟩ := removeKey_eq (σ := σ.opened 3 (σ.queue ++ (openers depth 3 .blockSequenceStart σ.cursor.mark ++ [])))
    huntied
  rw [hcontent, blockEntry]
  rw [if_neg (by simp [hallowed])]
  refine .bind_of_eq hopened (.bind_of_eq hremoved (.ok ⟨⟨⟨?_, ⟨m.ahead 1, ?_, ?_, hat'.skip⟩, ?_⟩, ?_, hfits.1,
    Nat.succ_pos 2, hfits.2.2⟩, ⟨_, List.getLast?_concat, rfl⟩, ?_⟩))
  · exact (hinside.opened (le_refl 3) []).moved _ _ _ _ _
  · simp
  · rw [← hindent, hat.mark_eq]
    simp
  · change _ < σ.bound
    simp only [List.length_cons]
    omega
  · exact ⟨_, rfl, rfl, rfl⟩
  · simp [kinds, take, append, unkeyed, opened, ← kinds_openers depth 3 .blockSequenceStart σ.cursor.mark]

/-- The entry indicator of the next row is fetched behind the blocks that end before it. -/
theorem Between.fetch_item {s : Spelling} (h : Between depth (.item s :: rows) σ) :
    Gives σ.fetch fun σ' => BeforeScalar 3 s rows σ' ∧
      σ'.kinds = σ.kinds ++ (if depth < 3 then [TokenKind.blockSequenceStart] else []) ++ [TokenKind.blockEntry] := by
  refine h.fetch fun σ' hinside huntied hrow hkinds => ?_
  have hshallow : min depth 3 = depth := Nat.min_eq_left h.inside.shallow
  rw [target_cons, show (Row.item s).depth = 3 from rfl, hshallow] at hinside
  rw [target_cons, show (Row.item s).depth = 3 from rfl, Nat.sub_eq_zero_of_le h.inside.shallow, List.replicate_zero,
    List.append_nil] at hkinds
  obtain ⟨m, hcolumn, hat⟩ := hrow.place
  have hm : m.column ≠ 0 := by
    rw [hcolumn]
    exact Nat.succ_ne_zero 7
  have hsolid : IsSolid (first (Row.content (.item s :: rows))) := (by decide : IsSolid '-')
  rw [fetchHere_eq hsolid (.inl hm) (.inr hm) hat]
  refine (hrow.content_item hinside huntied h.fits).bind ?_
  rintro σ'' ⟨hbefore, ⟨t, hlast, hkind⟩, hkinds'⟩
  -- What follows on the line of an entry indicator belongs to the entry.
  have hpass (target : Nat) : σ''.passComment target = .ok σ'' := by
    obtain ⟨kind, start, stop⟩ := t
    obtain rfl : kind = .blockEntry := hkind
    rw [TokenStream.passComment, hlast]
    rfl
  rw [hpass]
  exact .ok ⟨hbefore, by rw [hkinds', hkinds]⟩

/-! ## The end and the start of a stream -/

/-- At the end of the stream all blocks end. -/
theorem Between.fetch_end (h : Between depth [] σ) :
    Gives σ.fetch fun σ' => Between 0 [] σ' ∧
      σ'.kinds = σ.kinds ++ List.replicate depth TokenKind.blockEnd ++ [TokenKind.streamEnd] := by
  refine h.fetch fun σ' hinside huntied hrow hkinds => ?_
  obtain ⟨m, hcolumn, hat⟩ := hrow.place
  have hm : m.column = 0 := hcolumn
  have hmark : σ'.cursor.mark.column = 0 := by rw [hat.mark_eq, hm]
  obtain ⟨ends, hends, hclosed⟩ := hinside.closeBlocks 0 σ'.cursor.mark
  rw [Nat.min_zero] at hclosed
  obtain ⟨key, hremoved⟩ := removeKey_eq (σ := σ'.closed 0 ends) huntied
  have hend : σ'.fetchHere = σ'.streamEnd := by
    rw [fetchHere, hat.head_eq]
    exact if_pos (by decide)
  rw [hend, streamEnd, if_pos hmark]
  refine .bind_of_eq ((congrArg removeKey hclosed).trans hremoved) (.ok ⟨⟨?_, .inl ?_, ?_, trivial, .here ⟨⟨m, hcolumn, hat⟩,
    fun h => absurd rfl h, hrow.bound⟩⟩, ?_⟩)
  · exact ⟨hinside.started, hinside.flat, rfl, rfl, Nat.zero_le 3⟩
  · exact ⟨_, rfl, rfl, rfl⟩
  · simp [Trailing, append, unkeyed]
  · have hcount : List.replicate (depth - target []) TokenKind.blockEnd ++
        List.replicate (min depth (target []) - 0) .blockEnd = List.replicate depth .blockEnd := by
      rw [List.replicate_append_replicate]
      congr 1
      omega
    rw [← hcount, ← hends, ← List.append_assoc, ← hkinds]
    simp [kinds, append, unkeyed, closed]

/-- The stream at the start of a document. -/
structure Fresh (rows : List Row) (σ : TokenStream) : Prop where
  unstarted : σ.started = false
  flat : σ.flowLevel = 0
  indent : σ.indent = -1
  indents : σ.indents = []
  awaited : σ.awaited = []
  queue : σ.queue = []
  fits : Row.Fits 1 rows
  at_start : At (Row.text rows) ⟨0, 0, 0⟩ σ.cursor
  bound : (Row.text rows).length + 1 < σ.bound

/-- The first token is the start of the stream. -/
theorem Fresh.fetch (h : Fresh rows σ) : Gives σ.fetch fun σ' => Between 0 rows σ' ∧ σ'.kinds = [.streamStart] := by
  have hcolumn : Row.firstColumn rows = 0 := by
    have hdepth := h.fits.firstDepth_le
    rw [Row.firstColumn]
    omega
  have hat := h.at_start
  have hbound := h.bound
  rw [Row.text_eq, hcolumn] at hat hbound
  rw [TokenStream.fetch]
  refine (during_gives (hat.need 1)).bind fun c hc => ?_
  dsimp only
  rw [if_pos (by simp [h.unstarted])]
  exact .ok ⟨⟨⟨rfl, h.flat, h.indent, h.indents, Nat.zero_le 3⟩, .inl ⟨_, rfl, rfl, h.awaited⟩,
    by simp [Trailing, h.awaited], h.fits, .here ⟨⟨_, hcolumn.symm, hc⟩, fun _ => rfl, hbound⟩⟩, rfl⟩

end TokenStream

end Yaml

end MobilitySweep
