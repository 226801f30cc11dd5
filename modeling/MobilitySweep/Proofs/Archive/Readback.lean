import Mathlib
import MobilitySweep.Archive.Logs

/-! # Reading archives back

What is packed is unpacked: the header is passed over, the stored blocks give back the text piece by piece, and
the trailer agrees with it.
-/

namespace MobilitySweep

namespace Archive

theorem length_littleEndian (width n : Nat) : (littleEndian width n).length = width := by
  induction width generalizing n with
  | zero => rfl
  | succ width ih => rw [littleEndian, List.length_cons, ih]

theorem length_trailer (text : Bytes) : (trailer text).length = 8 := by
  simp [trailer, length_littleEndian]

theorem takeExactly_append {count : Nat} {piece : Bytes} (h : piece.length = count) (rest : Bytes) :
    takeExactly count (piece ++ rest) = .ok (piece, rest) := by
  subst h
  simp [takeExactly]

/-! ## Stored blocks -/

/-- The three bits in front of a stored block fill its first byte. -/
theorem take?_three (b : UInt8) (rest : Bytes) (offset : Nat) :
    BitSource.take? ⟨b :: rest, offset, 0, 0⟩ 3 = some (b.toNat % 8, ⟨rest, offset + 1, b.toNat / 8, 5⟩) := by
  simp [BitSource.take?, BitSource.need?, BitSource.fill, BitSource.more?, BitSource.drop]

/-- The length of a stored block comes twice, once as what is missing to the limit. -/
theorem storedBlock_append {a b c d : UInt8} {piece : Bytes} (hlength : a.toNat + 256 * b.toNat = piece.length)
    (hmissing : c.toNat + 256 * d.toNat + piece.length = storedLimit) (rest output : Bytes) (offset size : Nat)
    (codes : Codes) :
    storedBlock ⟨⟨a :: b :: c :: d :: (piece ++ rest), offset, 0, 5⟩, output, size, codes⟩ =
      (⟨⟨rest, offset + 4 + piece.length, 0, 0⟩, piece.reverse ++ output, size + piece.length, codes⟩, none) := by
  have hmissing' : c.toNat + 256 * d.toNat + piece.length = 65535 := hmissing
  simp [storedBlock, BitSource.drop, hlength, hmissing']

/-- A stored block gives back its piece. -/
theorem block_storedPiece (final : Bool) {piece : Bytes} (h : piece.length ≤ storedLimit) (rest output : Bytes)
    (offset size : Nat) (codes : Codes) :
    block ⟨⟨storedPiece final piece ++ rest, offset, 0, 0⟩, output, size, codes⟩ =
      (final, ⟨⟨rest, offset + 1 + 4 + piece.length, 0, 0⟩, piece.reverse ++ output, size + piece.length, codes⟩,
        none) := by
  have hpair {n : Nat} (hn : n ≤ storedLimit) :
      (UInt8.ofNat (n % 256)).toNat + 256 * (UInt8.ofNat (n / 256 % 256)).toNat = n := by
    unfold storedLimit at hn
    simp only [UInt8.toNat_ofNat', Nat.mod_mod, Nat.reducePow]
    omega
  have hsum : storedLimit - piece.length + piece.length = storedLimit := Nat.sub_add_cancel h
  have hmissing := (congrArg (· + piece.length) (hpair (Nat.sub_le storedLimit piece.length))).trans hsum
  have hblock := storedBlock_append (hpair h) hmissing rest output (offset + 1) size codes
  cases final <;>
    simp only [block, storedPiece, littleEndian, if_true, Bool.false_eq_true, if_false, List.cons_append,
      List.nil_append, take?_three] <;>
    exact Prod.ext rfl hblock

/-- Stored blocks give back their text. -/
theorem blocks_stored (count : Nat) {text : Bytes} (h : text.length ≤ count) (rest output : Bytes)
    (offset size : Nat) (codes : Codes) {budget : Nat} (hbudget : count < budget) :
    ∃ end', blocks budget ⟨⟨stored count text ++ rest, offset, 0, 0⟩, output, size, codes⟩ =
      (⟨⟨rest, end', 0, 0⟩, text.reverse ++ output, size + text.length, codes⟩, none) := by
  induction count generalizing text output offset size budget with
  | zero =>
      obtain ⟨budget, rfl⟩ := Nat.exists_eq_add_of_lt hbudget
      refine ⟨offset + 1 + 4 + text.length, ?_⟩
      rw [stored, blocks, block_storedPiece true (h.trans (Nat.zero_le _))]
  | succ count ih =>
      obtain ⟨budget, rfl⟩ := Nat.exists_eq_succ_of_ne_zero (Nat.ne_of_gt (Nat.lt_of_le_of_lt (Nat.zero_le _) hbudget))
      rw [stored]
      split
      next hshort =>
        refine ⟨offset + 1 + 4 + text.length, ?_⟩
        rw [blocks, block_storedPiece true hshort]
      next hlong =>
        have htake : (text.take storedLimit).length ≤ storedLimit := List.length_take_le _ _
        have hdrop : (text.drop storedLimit).length ≤ count := by
          rw [List.length_drop]
          unfold storedLimit at *
          omega
        obtain ⟨end', hblocks⟩ := ih hdrop ((text.take storedLimit).reverse ++ output)
          (offset + 1 + 4 + (text.take storedLimit).length) (size + (text.take storedLimit).length)
          (Nat.lt_of_succ_lt_succ hbudget)
        refine ⟨end', ?_⟩
        rw [List.append_assoc, blocks, block_storedPiece false htake]
        dsimp only
        rw [hblocks, ← List.append_assoc, ← List.reverse_append, List.take_append_drop, Nat.add_assoc,
          ← List.length_append, List.take_append_drop]

theorem length_stored (count : Nat) (text : Bytes) : text.length < (stored count text).length := by
  induction count generalizing text with
  | zero =>
      simp [stored, storedPiece, length_littleEndian]
      omega
  | succ count ih =>
      rw [stored]
      split
      next =>
        simp [storedPiece, length_littleEndian]
        omega
      next =>
        have hrest := ih (text.drop storedLimit)
        simp only [storedPiece, List.length_append, List.length_cons, List.length_take, List.length_drop] at hrest ⊢
        omega

theorem readMember_stored (text : Bytes) : readMember (stored text.length text ++ trailer text) = (text, .ok []) := by
  have hbudget : text.length < 8 * (stored text.length text ++ trailer text).length + 1 := by
    have hlength := length_stored text.length text
    rw [List.length_append]
    omega
  obtain ⟨end', hblocks⟩ := blocks_stored text.length (Nat.le_refl _) (trailer text) [] 0 0 .none hbudget
  have hsums : takeExactly 8 (trailer text) = .ok (trailer text, []) := by
    simpa using takeExactly_append (length_trailer text) []
  rw [readMember, inflate, BitSource.ofBytes, hblocks]
  simp [hsums, bind, Except.bind]

theorem unpack_stored (text : Bytes) : unpack (stored text.length text ++ trailer text) = (text, none) := by
  have hend : readHeader [] = .error .ended := rfl
  simp [unpack, readMembers, readMember_stored, hend]

/-! ## Headers -/

theorem takeText_append {name : Bytes} (hname : 0 ∉ name) (hlimit : name.length < headerTextLimit) (rest : Bytes) :
    takeText (name ++ 0 :: rest) = .ok (name, rest) := by
  obtain ⟨more, hmore⟩ := Nat.exists_eq_add_of_lt hlimit
  have hpiece : ((name ++ 0 :: rest).take headerTextLimit).takeWhile (· ≠ 0) = name := by
    rw [hmore, Nat.add_assoc, List.take_length_add_append, List.take_succ_cons, List.takeWhile_append_of_pos]
    · simp
    · exact fun b hb => decide_eq_true fun hzero => hname (hzero ▸ hb)
  have hlength : name.length ≠ headerTextLimit := Nat.ne_of_lt hlimit
  simp only [takeText, hpiece, hlength, if_false]
  simp

theorem readHeader_named {name : Bytes} (hname : 0 ∉ name) (hlimit : name.length < headerTextLimit) (time : Nat)
    (rest : Bytes) : ∃ header, readHeader (headerStart nameFlag time ++ name ++ [0] ++ rest) = .ok (header, rest) := by
  have hfixed : takeExactly 10 (headerStart nameFlag time ++ (name ++ 0 :: rest)) =
      .ok (headerStart nameFlag time, name ++ 0 :: rest) :=
    takeExactly_append (by simp [headerStart, length_littleEndian]) _
  have htext := takeText_append hname hlimit rest
  refine ⟨⟨Utf8.encode (name.map fun b => Char.ofNat b.toNat)⟩, ?_⟩
  have hinput : headerStart nameFlag time ++ name ++ [0] ++ rest =
      headerStart nameFlag time ++ (name ++ 0 :: rest) := by simp
  rw [readHeader, hinput, hfixed]
  simp only [bind, Except.bind, headerStart, nameFlag, List.cons_append, List.take_succ_cons, List.take_zero,
    List.getD_cons_succ, List.getD_cons_zero]
  have hextra : flagged 8 4 = false := rfl
  have hnamed : flagged 8 8 = true := rfl
  have hcomment : flagged 8 16 = false := rfl
  have hsum : flagged 8 2 = false := rfl
  simp [hextra, hnamed, hcomment, hsum, htext, pure, Except.pure]

theorem length_decodeScan (done : List Glyph) (passed : Nat) (text : Bytes) :
    (Utf8.decodeScan done passed text).length ≤ done.length + text.length := by
  induction text generalizing done passed with
  | nil =>
      cases passed <;> simp [Utf8.decodeScan]
  | cons b rest ih =>
      cases passed with
      | succ passed =>
          refine (ih done passed).trans ?_
          simp
      | zero =>
          unfold Utf8.decodeScan
          split
          all_goals
            refine (ih _ _).trans ?_
            simp only [List.length_cons]
            omega

theorem of_mapM {α β : Type} {f : α → Option β} {items : List α} {values : List β} (h : items.mapM f = some values) :
    values.length = items.length ∧ ∀ value ∈ values, ∃ item, f item = some value := by
  induction items generalizing values with
  | nil =>
      obtain rfl : [] = values := by simpa using h
      simp
  | cons item items ih =>
      simp only [List.mapM_cons, Option.bind_eq_bind, Option.bind_eq_some_iff] at h
      obtain ⟨value, hvalue, rest, hrest, h⟩ := h
      obtain rfl : value :: rest = values := by simpa using h
      obtain ⟨hlength, hmembers⟩ := ih hrest
      refine ⟨by simp [hlength], ?_⟩
      simp only [List.mem_cons, forall_eq_or_imp]
      exact ⟨⟨item, hvalue⟩, hmembers⟩

/-- A name in a header has no end mark inside, and is no longer than it was written. -/
theorem of_headerName? {name header : Bytes} (h : headerName? name = some header) :
    0 ∉ header ∧ header.length ≤ name.length := by
  obtain ⟨hlength, hmembers⟩ := of_mapM h
  constructor
  · intro hzero
    obtain ⟨g, hg⟩ := hmembers 0 hzero
    cases g with
    | stray b => cases hg
    | char c =>
        dsimp only at hg
        split at hg
        next hrange =>
          have hbyte := congrArg (Option.map UInt8.toNat) hg
          simp only [Bool.and_eq_true, decide_eq_true_eq] at hrange
          simp at hbyte
          omega
        next => cases hg
  · have hdecode : (Utf8.decode name).length ≤ name.length := by
      simpa [Utf8.decode] using length_decodeScan [] 0 name
    exact hlength.trans_le hdecode

/-- What was packed under a name that fits into a header is unpacked. -/
theorem unpack_pack {name text archive : Bytes} {time : Nat} (h : pack? name time text = some archive)
    (hname : name.length < headerTextLimit) :
    ∃ header body, readHeader archive = .ok (header, body) ∧ unpack body = (text, none) := by
  obtain ⟨latin, hlatin, rfl⟩ := Option.map_eq_some_iff.mp h
  obtain ⟨hmark, hlength⟩ := of_headerName? hlatin
  obtain ⟨header, hheader⟩ :=
    readHeader_named hmark (hlength.trans_lt hname) time (stored text.length text ++ trailer text)
  exact ⟨header, _, by simpa using hheader, unpack_stored text⟩

/-- An archive gives back what was packed into it, as far as the limit goes. -/
theorem decompress_of_pack {files : Files} {path name text archive : Bytes} {time : Nat}
    (hcontent : files.contentAt path = .ok (.bytes archive)) (h : pack? name time text = some archive)
    (hname : name.length < headerTextLimit) : decompress files path = delivered text none := by
  obtain ⟨header, body, hheader, hbody⟩ := unpack_pack h hname
  unfold Files.contentAt at hcontent
  rw [decompress]
  cases hopen : files.openFile path with
  | error fault => simp [hopen, bind, Except.bind] at hcontent
  | ok opened =>
      have hread : Files.readOpened path opened = .ok (.bytes archive) := by
        simpa [hopen, bind, Except.bind] using hcontent
      simp [hread, Content.toBytes, hheader, hbody]

end Archive

end MobilitySweep
