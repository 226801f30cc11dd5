import MobilitySweep.Proofs.Files.Names
import MobilitySweep.Proofs.Mobility.Course
import MobilitySweep.Proofs.Number.Numerals
import MobilitySweep.Proofs.Text.Words

/-! # Traces read back

What a run writes is read as the samples that its ticks yield. All numbers of a trace are whole numbers of 53
significant bits, wherever the herd goes, and their lines are plain text.
-/

namespace MobilitySweep

/-! ## Lines of samples -/

namespace Binary64

/-- A whole number. -/
def IsWhole (x : Binary64) : Prop := ∃ negative n, Held n ∧ n < 2 ^ 1024 ∧ x = .finite negative (n * one)

theorem IsWhole.isFinite {x : Binary64} (h : x.IsWhole) : x.IsFinite := by
  obtain ⟨negative, n, hheld, hbound, rfl⟩ := h
  exact isFinite_iff.mpr ⟨negative, n * one, hheld.mul_one, mul_one_lt hbound, rfl⟩

end Binary64

namespace Bytes

theorem blank_eq : ((" " : String) : Bytes) = [32] := by decide +kernel

theorem newline_eq : (("\n" : String) : Bytes) = [10] := by decide +kernel

theorem isGraphic_of_isDigit {b : UInt8} (hb : isDigit b) : IsGraphic b := by
  have hrange := isDigit_iff.mp hb
  unfold IsGraphic
  omega

end Bytes

namespace Decimal

open Bytes

theorem ofInt64_isWord (n : Int64) : IsWord (ofInt64 n) := by
  refine ⟨?_, fun b hb => ?_⟩
  · unfold ofInt64 ofInt
    split
    · exact List.cons_ne_nil _ _
    · exact ofNat_ne_nil _
  · rcases sign_or_isDigit_of_mem_ofInt64 hb with rfl | hdigit
    · exact ⟨by decide, by decide⟩
    · exact isGraphic_of_isDigit hdigit

end Decimal

namespace Fixed

open Bytes

/-- The text of a whole number. -/
theorem render_whole {places : Nat} (hplaces : 0 < places) (negative : Bool) (n : Nat) :
    render places (.finite negative (n * Binary64.one)) =
      Reading.sign negative ++ (Decimal.ofNat n ++ 46 :: Decimal.padded places 0) := by
  have hpower : 0 < 10 ^ places := Nat.pow_pos (by decide)
  have hwhole : n * 10 ^ places / Nat.pow 10 places = n := Nat.mul_div_cancel n hpower
  have hrest : n * 10 ^ places % Nat.pow 10 places = 0 := Nat.mul_mod_left n _
  rw [render, scaled_whole, pointed, if_neg (Nat.ne_of_gt hplaces), hwhole, hrest, List.append_assoc,
    List.singleton_append]
  rfl

theorem render_isWord {x : Binary64} (hx : x.IsFinite) {places : Nat} (hplaces : 0 < places) :
    IsWord (render places x) := by
  obtain ⟨negative, units, -, -, rfl⟩ := Binary64.isFinite_iff.mp hx
  rw [render, pointed_eq hplaces]
  refine ⟨by simp, ?_⟩
  intro b hb
  rcases List.mem_append.mp hb with hb | hb
  · cases negative with
    | false => cases hb
    | true =>
        rw [List.mem_singleton.mp hb]
        exact ⟨by decide, by decide⟩
  · rcases List.mem_append.mp hb with hb | hb
    · exact isGraphic_of_isDigit (Decimal.isDigit_of_mem_ofNat hb)
    · rcases List.mem_cons.mp hb with rfl | hb
      · exact ⟨by decide, by decide⟩
      · exact isGraphic_of_isDigit (Decimal.isDigit_of_mem_padded hb)

theorem length_render_le {x : Binary64} (hx : x.IsWhole) {places : Nat} (hplaces : 0 < places) :
    (render places x).length ≤ 312 + places := by
  obtain ⟨negative, n, -, hbound, rfl⟩ := hx
  have hsign : (Reading.sign negative).length ≤ 1 := by cases negative <;> decide
  have hdigits : (Decimal.ofNat n).length ≤ 310 :=
    (Decimal.length_ofNat_le (by decide)).mpr (hbound.trans (by decide +kernel))
  have hzeros : (Decimal.padded places 0).length = places :=
    Decimal.length_padded hplaces (Nat.pow_pos (by decide))
  rw [render_whole hplaces]
  simp only [List.length_append, List.length_cons]
  omega

theorem read_render_isWhole {x : Binary64} (hx : x.IsWhole) {places : Nat} (hplaces : 0 < places) (hfew : places ≤ 330) :
    Reading.read (render places x) = .ok x := by
  obtain ⟨negative, n, hheld, hbound, rfl⟩ := hx
  have hexact : Binary64.one ∣ n * Binary64.one * 10 ^ places := (Nat.dvd_mul_left _ n).mul_right _
  rw [read_render_held hplaces hfew hheld.mul_one (Binary64.mul_one_lt hbound), reread_of_dvd hheld.mul_one hexact]

end Fixed

namespace Sample

open Bytes

/-- A sample at a whole time and place. -/
structure IsWhole (s : Sample) : Prop where
  time : s.time.IsWhole
  x : s.x.IsWhole
  y : s.y.IsWhole

/-- A sample whose numbers are finite. -/
structure IsFinite (s : Sample) : Prop where
  time : s.time.IsFinite
  x : s.x.IsFinite
  y : s.y.IsFinite

theorem IsWhole.isFinite {s : Sample} (h : s.IsWhole) : s.IsFinite := ⟨h.time.isFinite, h.x.isFinite, h.y.isFinite⟩

theorem IsFinite.isWord {s : Sample} (h : s.IsFinite) :
    IsWord (Fixed.render 2 s.time) ∧ IsWord (Fixed.render 6 s.x) ∧ IsWord (Fixed.render 6 s.y) :=
  ⟨Fixed.render_isWord h.time (by decide), Fixed.render_isWord h.x (by decide), Fixed.render_isWord h.y (by decide)⟩

theorem line_eq (s : Sample) : s.line = Decimal.ofInt64 s.node ++
    32 :: (Fixed.render 2 s.time ++ 32 :: (Fixed.render 6 s.x ++ 32 :: Fixed.render 6 s.y)) := by
  simp [line, blank_eq]

section

variable {s : Sample}

theorem length_line_le (h : s.IsWhole) : s.line.length ≤ Trace.lineLimit := by
  have hnode := Decimal.length_ofInt64_le s.node
  have htime := Fixed.length_render_le h.time (by decide : 0 < 2)
  have hx := Fixed.length_render_le h.x (by decide : 0 < 6)
  have hy := Fixed.length_render_le h.y (by decide : 0 < 6)
  rw [line_eq]
  simp only [List.length_append, List.length_cons, Trace.lineLimit]
  omega

/-- A line has four words. -/
theorem words_line (h : s.IsFinite) : Blank.words s.line =
    [Decimal.ofInt64 s.node, Fixed.render 2 s.time, Fixed.render 6 s.x, Fixed.render 6 s.y] := by
  have hnode := Decimal.ofInt64_isWord s.node
  obtain ⟨htime, hx, hy⟩ := h.isWord
  have hplace := ascii_append hx.ascii hy.ascii
  rw [line_eq, Blank.words_append hnode (ascii_append htime.ascii hplace), Blank.words_append htime hplace,
    Blank.words_append hx hy.ascii, Blank.words_word hy]

/-- A line is read as the numbers that are read from its fields. -/
theorem read_line_eq (h : s.IsFinite) {time x y : Binary64} (htime : Reading.read (Fixed.render 2 s.time) = .ok time)
    (hx : Reading.read (Fixed.render 6 s.x) = .ok x) (hy : Reading.read (Fixed.render 6 s.y) = .ok y) :
    read s.line = .ok ⟨s.node, time, x, y⟩ := by
  simp only [read, words_line h, readNumber, Decimal.read_ofInt64, htime, hx, hy, Except.mapError, bind, Except.bind,
    pure, Except.pure]

/-- The line of a sample at a whole time and place is read as that sample. -/
theorem read_line (h : s.IsWhole) : read s.line = .ok s :=
  read_line_eq h.isFinite (Fixed.read_render_isWhole h.time (by decide) (by decide))
    (Fixed.read_render_isWhole h.x (by decide) (by decide)) (Fixed.read_render_isWhole h.y (by decide) (by decide))

end

end Sample

/-! ## Lines as a normal form

The line of a sample is read as one that has the same line. Where the places of the line hold the numbers exactly, it is
the same sample.
-/

namespace Binary64

/-- A number that consists of whole parts, so many of which make one. -/
def InParts (parts : Nat) : Binary64 → Prop
  | .finite _ units => one ∣ parts * units
  | _ => False

instance (parts : Nat) : DecidablePred (InParts parts)
  | .finite _ units => inferInstanceAs (Decidable (one ∣ parts * units))
  | .infinite _ => isFalse id
  | .nan => isFalse id

end Binary64

namespace Fixed

/-- A finite number is read from its text as one that has the same text, and as itself if it consists of parts that the
places hold. -/
theorem exists_read_render {x : Binary64} (hx : x.IsFinite) {places : Nat} (hplaces : 0 < places) (hfew : places ≤ 330) :
    ∃ y, Reading.read (render places x) = .ok y ∧ y.IsFinite ∧ render places y = render places x ∧
      ∀ parts, parts ∣ 10 ^ places → x.InParts parts → y = x := by
  obtain ⟨negative, units, hheld, hbound, rfl⟩ := Binary64.isFinite_iff.mp hx
  refine ⟨_, read_render_held hplaces hfew hheld hbound negative, ?_, render_reread hheld negative, ?_⟩
  · exact Binary64.isFinite_iff.mpr ⟨negative, _, Binary64.nearestUnits_held _ _, reread_lt places hheld hbound, rfl⟩
  · intro parts hparts hwhole
    have hexact : Binary64.one ∣ units * 10 ^ places := by
      apply Dvd.dvd.trans hwhole
      rw [Nat.mul_comm parts]
      exact Nat.mul_dvd_mul_left units hparts
    rw [reread_of_dvd hheld hexact]

end Fixed

namespace Sample

/-- Every line of a sample with finite numbers is read, as a sample of the same node that has the same line. A time in
quarters and coordinates in 64ths are read as they were, whatever their size. -/
theorem line_is_normal_form {s : Sample} (h : s.IsFinite) :
    ∃ parsed, read s.line = .ok parsed ∧ parsed.IsFinite ∧ parsed.node = s.node ∧ parsed.line = s.line ∧
      (s.time.InParts 4 → s.x.InParts 64 → s.y.InParts 64 → parsed = s) := by
  obtain ⟨time, htime, htimeFinite, htimeAlike, htimeExact⟩ :=
    Fixed.exists_read_render h.time (by decide : 0 < 2) (by decide)
  obtain ⟨x, hx, hxFinite, hxAlike, hxExact⟩ := Fixed.exists_read_render h.x (by decide : 0 < 6) (by decide)
  obtain ⟨y, hy, hyFinite, hyAlike, hyExact⟩ := Fixed.exists_read_render h.y (by decide : 0 < 6) (by decide)
  refine ⟨⟨s.node, time, x, y⟩, read_line_eq h htime hx hy, ⟨htimeFinite, hxFinite, hyFinite⟩, rfl, ?_, ?_⟩
  · simp only [line, htimeAlike, hxAlike, hyAlike]
  · intro hquarters hcolumn hrow
    rw [htimeExact 4 (by decide) hquarters, hxExact 64 (by decide) hcolumn, hyExact 64 (by decide) hrow]

/-- Places that are half way are rounded to even ones, and the sign of what is rounded to zero is kept: such a sample is
read as another one, with the same line. -/
theorem half_way_places_are_normal :
    let tied : Sample := ⟨-7, .ofBits 0x3FC0000000000000, .ofBits 0xBF80000000000000, .ofBits 0x8000000000000001⟩
    let exact : Sample := ⟨3, .ofBits 0x3FF8000000000000, .ofBits 0x3FD0000000000000, .ofBits 0xC001000000000000⟩
    tied.line = "-7 0.12 -0.007812 -0.000000" ∧
      (∃ parsed, read tied.line = .ok parsed ∧ parsed.line = tied.line ∧ parsed ≠ tied) ∧
      exact.line = "3 1.50 0.250000 -2.125000" ∧ read exact.line = .ok exact := by
  intro tied exact
  have htied : tied.IsFinite := by
    refine ⟨⟨0x3FC0000000000000, ?_⟩, ⟨0xBF80000000000000, ?_⟩, ⟨0x8000000000000001, ?_⟩⟩ <;> decide +kernel
  have hexact : exact.IsFinite := by
    refine ⟨⟨0x3FF8000000000000, ?_⟩, ⟨0x3FD0000000000000, ?_⟩, ⟨0xC001000000000000, ?_⟩⟩ <;> decide +kernel
  obtain ⟨parsed, hread, -, -, hline, -⟩ := line_is_normal_form htied
  obtain ⟨same, hsame, -, -, -, hequal⟩ := line_is_normal_form hexact
  refine ⟨by decide +kernel, ⟨parsed, hread, hline, ?_⟩, by decide +kernel, ?_⟩
  · rintro rfl
    revert hread
    decide +kernel
  · rw [hsame, hequal] <;> decide +kernel

end Sample

/-! ## Traces -/

namespace Trace

open Bytes

theorem newline_notMem_header : (10 : UInt8) ∉ header := by decide +kernel

theorem readLine_header : readLine header = .ok none := by decide +kernel

theorem newline_notMem_line {s : Sample} (h : s.IsWhole) : (10 : UInt8) ∉ s.line := by
  have hword {word : Bytes} (h : IsWord word) : (10 : UInt8) ∉ word := fun hmem =>
    absurd (h.graphic 10 hmem).1 (by decide)
  have hnode := hword (Decimal.ofInt64_isWord s.node)
  obtain ⟨htime, hx, hy⟩ := h.isFinite.isWord
  have hblank : (10 : UInt8) ≠ 32 := by decide
  simp only [Sample.line_eq, List.mem_append, List.mem_cons, hnode, hword htime, hword hx, hword hy, hblank, or_self,
    not_false_eq_true]

/-- A line starts with its node index, so it is no comment, and it has nothing to trim. -/
theorem readLine_line {s : Sample} (h : s.IsWhole) : readLine s.line = .ok (some s) := by
  have hnode := Decimal.ofInt64_isWord s.node
  obtain ⟨htime, hx, hy⟩ := h.isFinite.isWord
  obtain ⟨b, rest, hfirst⟩ := List.exists_cons_of_ne_nil hnode.ne_nil
  have hmem : b ∈ Decimal.ofInt64 s.node := hfirst ▸ List.mem_cons_self
  obtain ⟨more, hline⟩ : ∃ more, s.line = b :: more := ⟨_, by rw [Sample.line_eq, hfirst]; rfl⟩
  have hascii : ∀ c ∈ s.line, c.toNat < 128 := by
    rw [Sample.line_eq]
    exact ascii_append hnode.ascii (ascii_append htime.ascii (ascii_append hx.ascii hy.ascii))
  have hlast : s.line.getLast? = (Fixed.render 6 s.y).getLast? := by
    have hsplit : s.line = Decimal.ofInt64 s.node ++
        32 :: (Fixed.render 2 s.time ++ 32 :: (Fixed.render 6 s.x ++ [32])) ++ Fixed.render 6 s.y := by
      simp [Sample.line_eq]
    rw [hsplit, List.getLast?_append_of_ne_nil _ hy.ne_nil]
  have htrim : Blank.trim s.line = s.line := by
    refine Blank.trim_graphic hascii (fun c hc => ?_) fun c hc => ?_
    · rw [hline] at hc
      exact Option.some.inj hc ▸ hnode.graphic b hmem
    · rw [hlast] at hc
      exact hy.graphic c (List.mem_of_getLast? hc)
  have hmark : b ≠ ('#' : UInt8) := by
    rcases Decimal.sign_or_isDigit_of_mem_ofInt64 hmem with rfl | hdigit
    · decide
    · exact Reading.digit_ne hdigit (by decide)
  have hread := Sample.read_line h
  rw [hline] at htrim hread ⊢
  simp only [readLine, htrim, hmark, if_false, hread, Except.map]

section

variable {pieces : List Bytes} {rest : Bytes}

theorem splitOn_lines (hpieces : ∀ piece ∈ pieces, (10 : UInt8) ∉ piece) (hrest : (10 : UInt8) ∉ rest) :
    splitOn 10 (pieces.flatMap (· ++ [10]) ++ rest) = pieces ++ [rest] := by
  induction pieces with
  | nil => exact splitOn_piece hrest
  | cons piece pieces ih =>
      have hmore := ih fun other hother => hpieces other (List.mem_cons_of_mem piece hother)
      rw [splitOn_eq] at hmore ⊢
      rw [List.flatMap_cons, List.append_assoc, List.append_assoc, List.singleton_append,
        List.splitOn_append_cons_self_of_not_mem (hpieces piece List.mem_cons_self), hmore]
      rfl

/-- The lines of a text are those that are terminated, and what follows them unless it is empty. -/
theorem lines_eq (hpieces : ∀ piece ∈ pieces, (10 : UInt8) ∉ piece) (hrest : (10 : UInt8) ∉ rest) :
    lines (pieces.flatMap (· ++ [10]) ++ rest) = pieces ++ if rest.isEmpty then [] else [rest] := by
  have hsplit : splitOn ('\n' : UInt8) (pieces.flatMap (· ++ [10]) ++ rest) = pieces ++ [rest] :=
    splitOn_lines hpieces hrest
  rw [lines, hsplit, List.reverse_append]
  cases rest <;> simp

/-- Terminated lines are the lines of their text. -/
theorem lines_terminated (hpieces : ∀ piece ∈ pieces, (10 : UInt8) ∉ piece) :
    lines (pieces.flatMap (· ++ [10])) = pieces := by
  simpa using lines_eq hpieces (List.not_mem_nil : (10 : UInt8) ∉ ([] : Bytes))

end

theorem readLines_samples {samples : List Sample} (h : ∀ s ∈ samples, s.IsWhole) (number : Nat) (found : List Sample) :
    readLines number found (samples.map Sample.line) = .ok (found.reverse ++ samples) := by
  induction samples generalizing number found with
  | nil => simp [readLines]
  | cons s samples ih =>
      have hs := h s List.mem_cons_self
      rw [List.map_cons, readLines, if_neg (Nat.not_lt.mpr (Sample.length_line_le hs)), readLine_line hs]
      dsimp only
      rw [ih fun other hother => h other (List.mem_cons_of_mem s hother)]
      simp

/-- A trace of whole samples is read as these samples. -/
theorem read_text {samples : List Sample} (h : ∀ s ∈ samples, s.IsWhole) : read (text samples) = .ok samples := by
  have htext : text samples = (header :: samples.map Sample.line).flatMap (· ++ [10]) := by
    rw [List.flatMap_cons, List.flatMap_map, text, body, newline_eq]
  have hlines : ∀ piece ∈ header :: samples.map Sample.line, (10 : UInt8) ∉ piece := by
    intro piece hpiece
    rcases List.mem_cons.mp hpiece with rfl | hpiece
    · exact newline_notMem_header
    · obtain ⟨s, hs, rfl⟩ := List.mem_map.mp hpiece
      exact newline_notMem_line (h s hs)
  have hshort : ¬ lineLimit < header.length := by decide +kernel
  rw [read, htext, lines_terminated hlines, readLines, if_neg hshort, readLine_header]
  dsimp only
  exact readLines_samples h _ []

end Trace

/-! ## Coordinates of a run -/

namespace Coordinate

/-- A coordinate that a herd can reach: moves of one unit are lost in rounding before they lead beyond 64 bits. -/
structure IsReachable (c : Int) : Prop where
  held : Binary64.Held c.natAbs
  bound : c.natAbs ≤ 2 ^ 64

theorem natAbs_ofInt (n : Int) : (ofInt n).natAbs = Root.rounded n.natAbs := by
  unfold ofInt
  split
  · rw [Int.natAbs_neg, Int.natAbs_natCast]
  · exact Int.natAbs_natCast _

theorem ofInt_held (n : Int) : Binary64.Held (ofInt n).natAbs := by
  rw [natAbs_ofInt]
  exact Root.rounded_held _

theorem ofInt_isReachable {n : Int} (h : n.natAbs ≤ 2 ^ 64 + 1) : IsReachable (ofInt n) := by
  refine ⟨ofInt_held n, ?_⟩
  rw [natAbs_ofInt]
  rcases Nat.lt_or_eq_of_le h with hlt | heq
  · exact Root.rounded_le_of_held (Binary64.held_two_pow 64) (Nat.le_of_lt_succ hlt)
  · rw [heq]
    decide +kernel

/-- A tick leads a coordinate no further than its destination. -/
theorem approach_isReachable {position destination : Int} (hposition : IsReachable position)
    (hdestination : Binary64.Held destination.natAbs) : IsReachable (approach position destination) := by
  have hbound := hposition.bound
  unfold approach Coordinate
  split
  next hlt =>
    have hnext : IsReachable (ofInt (position + 1)) := ofInt_isReachable (by omega)
    have hnear := hnext.bound
    rcases min_choice (ofInt (position + 1)) destination with heq | heq
    · rwa [heq]
    · have hpassed : destination ≤ ofInt (position + 1) := min_eq_right_iff.mp heq
      rw [heq]
      exact ⟨hdestination, by omega⟩
  next =>
    split
    next hlt =>
      have hnext : IsReachable (ofInt (position - 1)) := ofInt_isReachable (by omega)
      have hnear := hnext.bound
      rcases max_choice (ofInt (position - 1)) destination with heq | heq
      · rwa [heq]
      · have hpassed : destination ≥ ofInt (position - 1) := max_eq_right_iff.mp heq
        rw [heq]
        exact ⟨hdestination, by omega⟩
    next => exact hposition

theorem toBinary64_isWhole {c : Int} (h : IsReachable c) : (toBinary64 c).IsWhole :=
  ⟨c < 0, c.natAbs, h.held, h.bound.trans_lt (by decide +kernel), rfl⟩

end Coordinate

namespace Node

open Coordinate

/-- A node that stands somewhere a herd can reach, wherever it is heading. -/
structure IsReachable (n : Node) : Prop where
  x : Coordinate.IsReachable n.x
  y : Coordinate.IsReachable n.y
  destX : Binary64.Held n.destX.natAbs
  destY : Binary64.Held n.destY.natAbs

theorem advance_isReachable {n : Node} (h : n.IsReachable) : n.advance.IsReachable :=
  ⟨approach_isReachable h.x h.destX, approach_isReachable h.y h.destY, h.destX, h.destY⟩

theorem gridNode_isReachable (side : Nat) (distance : Int64) (index : Nat) :
    (Generator.gridNode side distance index).IsReachable := by
  have hcell (n : Int64) : Coordinate.IsReachable (ofInt n.toInt) := by
    have hlow := n.le_toInt
    have hhigh := n.toInt_lt
    exact ofInt_isReachable (by omega)
  exact ⟨hcell _, hcell _, (hcell _).held, (hcell _).held⟩

theorem sample_isWhole {n : Node} (h : n.IsReachable) {tick : Nat} (htick : tick ≤ 2 ^ 64) :
    (sample tick n).IsWhole :=
  ⟨toBinary64_isWhole (ofInt_isReachable (by omega)), toBinary64_isWhole h.x, toBinary64_isWhole h.y⟩

end Node

namespace Generator

variable {γ : Type} [DrawSource γ]

/-- All nodes of all ticks stand where a herd can reach. -/
theorem steps_isReachable {p : Params} {o : Options} {source : γ} {start : Generator γ}
    (h : create p o source = .ok start) (count : Nat) : ∀ n ∈ (steps count [] start).2.nodes, n.IsReachable := by
  refine steps_forall (fun n hn => Node.advance_isReachable hn) (fun n hn => ?_) (fun n other hn hother => ?_)
    (fun n hn => ?_) count
  · exact ⟨hn.x, hn.y, Coordinate.ofInt_held _, hn.destY⟩
  · exact ⟨hn.x, hn.y, hother.destX, hother.destY⟩
  · obtain ⟨-, -, rfl⟩ := create_eq h
    obtain ⟨index, -, rfl⟩ := List.mem_map.mp hn
    exact Node.gridNode_isReachable _ _ index

/-- Whenever a run is split, what it writes is read as the samples of the ticks that are left. -/
theorem trace_reads_as_samples {p : Params} {o : Options} {source : γ} {start : Generator γ}
    (hcreate : create p o source = .ok start) (passed : Nat) :
    let g := (steps passed [] start).2
    (g.run .unlimited).2.2 = none ∧ (steps g.remaining [] g).2.step = none ∧
      Trace.read g.traceText = .ok ((steps g.remaining [] g).1.flatMap StepResult.samples) := by
  intro g
  have hreached (count : Nat) := steps_isReachable hcreate count
  have hcounted := (create_counted hcreate).steps passed
  obtain ⟨hlater, -⟩ := steps_later (g := g) le_rfl
  have hwhole : ∀ s ∈ g.samples, s.IsWhole := by
    intro s hs
    rw [samples_eq hcounted.interval hcounted.period] at hs
    obtain ⟨count, hcount, hs⟩ := List.mem_flatMap.mp hs
    obtain ⟨n, hn, rfl⟩ := List.mem_map.mp hs
    have hleft := List.mem_range.mp (List.mem_filter.mp hcount).1
    have htotal := (steps passed [] start).2.total.toInt_lt
    refine Node.sample_isWhole (hreached (passed + (count + 1)) n ?_) ?_
    · rw [← herd, ← herd_add]
      exact hn
    · unfold remaining at hleft
      omega
  obtain ⟨htext, hrun⟩ := run_unlimited g
  refine ⟨by rw [hrun], ?_, ?_⟩
  · rw [step_eq_none_iff, hlater.remaining, Nat.sub_self]
  · rw [htext, Trace.read_text hwhole, samples]

/-- The trace of fifteen ticks of four nodes has the eight samples of the two sampled ticks. -/
theorem fifteen_ticks_read_as_samples :
    ∃ start : Generator Pcg, create ⟨1, 2, 1⟩ ⟨4, 10, 10, 7⟩ (Pcg.ofSeed 7) = .ok start ∧
      Trace.read start.traceText = .ok ((steps 15 [] start).1.flatMap StepResult.samples) := by
  obtain ⟨start, hcreate⟩ := exists_create (p := ⟨1, 2, 1⟩) (o := ⟨4, 10, 10, 7⟩) (by decide) (by decide +kernel)
    (Pcg.ofSeed 7)
  obtain ⟨-, -, hread⟩ := trace_reads_as_samples hcreate 0
  have hremaining : start.remaining = 15 := create_remaining hcreate (by decide) (by decide)
  exact ⟨start, hcreate, hremaining ▸ hread⟩

end Generator

end MobilitySweep
