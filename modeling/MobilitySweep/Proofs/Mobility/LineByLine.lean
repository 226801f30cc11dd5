import MobilitySweep.Proofs.Mobility.Readback

/-! # Traces line by line

What a text is read as depends on its lines alone: every line that is neither blank nor a comment carries a sample,
and the first of them that is no sample is reported with its number among all lines. How lines end, whether the last
one ends at all and what blank lines and comments stand between them makes no difference to the samples.
-/

namespace MobilitySweep

namespace Trace

/-! ## Lines and what they carry -/

/-- Whether a line is to carry a sample: it is neither blank nor a comment. -/
def bears (line : Bytes) : Bool :=
  match Blank.trim line with
  | [] => false
  | b :: _ => b ≠ '#'

/-- What a line that is to carry a sample is read as, without the white space around it. -/
def sampleIn (line : Bytes) : Except Sample.Malformed Sample := Sample.read (Blank.trim line)

/-- The samples that lines carry, in order. -/
def Carry (lines : List Bytes) (samples : List Sample) : Prop :=
  List.Forall₂ (fun line sample => sampleIn line = .ok sample) (lines.filter bears) samples

/-- The first line that is to carry a sample and does not, counted from zero over all lines. -/
structure FirstFault (lines : List Bytes) (index : Nat) (cause : Sample.Malformed) : Prop where
  line : ∃ line, lines[index]? = some line ∧ bears line = true ∧ sampleIn line = .error cause
  before : ∀ line ∈ lines.take index, bears line = true → ∃ sample, sampleIn line = .ok sample

theorem readLine_eq (line : Bytes) : readLine line = if bears line then (sampleIn line).map some else .ok none := by
  unfold readLine bears sampleIn
  cases Blank.trim line with
  | nil => rfl
  | cons b rest =>
      by_cases hmark : b = ('#' : UInt8)
      · simp [hmark]
      · simp [hmark]

section

variable {line : Bytes} {rest : List Bytes}

theorem carry_nil {samples : List Sample} : Carry [] samples ↔ samples = [] := by
  simp [Carry]

theorem carry_of_not_bears (h : bears line = false) (samples : List Sample) :
    Carry (line :: rest) samples ↔ Carry rest samples := by
  simp [Carry, h]

theorem carry_of_bears (h : bears line = true) {sample : Sample} (hline : sampleIn line = .ok sample)
    (samples : List Sample) : Carry (line :: rest) samples ↔ ∃ more, Carry rest more ∧ samples = sample :: more := by
  simp only [Carry, List.filter_cons_of_pos h, List.forall₂_cons_left_iff, hline, Except.ok.injEq]
  constructor
  · rintro ⟨_, more, rfl, hmore, rfl⟩
    exact ⟨more, hmore, rfl⟩
  · rintro ⟨more, hmore, rfl⟩
    exact ⟨sample, more, rfl, hmore, rfl⟩

theorem not_carry (h : bears line = true) {cause : Sample.Malformed} (hline : sampleIn line = .error cause)
    (samples : List Sample) : ¬ Carry (line :: rest) samples := by
  simp [Carry, List.filter_cons_of_pos h, List.forall₂_cons_left_iff, hline]

theorem firstFault_zero {cause : Sample.Malformed} :
    FirstFault (line :: rest) 0 cause ↔ bears line = true ∧ sampleIn line = .error cause := by
  constructor
  · rintro ⟨⟨found, hfound, hbears, hcause⟩, -⟩
    obtain rfl : line = found := by simpa using hfound
    exact ⟨hbears, hcause⟩
  · rintro ⟨hbears, hcause⟩
    exact ⟨⟨line, rfl, hbears, hcause⟩, by simp⟩

theorem firstFault_succ {index : Nat} {cause : Sample.Malformed} :
    FirstFault (line :: rest) (index + 1) cause ↔
      (bears line = true → ∃ sample, sampleIn line = .ok sample) ∧ FirstFault rest index cause := by
  constructor
  · rintro ⟨hline, hbefore⟩
    refine ⟨hbefore line (by simp), by simpa using hline, ?_⟩
    intro other hother
    exact hbefore other (by simp [hother])
  · rintro ⟨hfirst, hline, hbefore⟩
    refine ⟨by simpa using hline, ?_⟩
    intro other hother
    rcases List.mem_cons.mp (List.take_succ_cons ▸ hother) with rfl | hother
    · exact hfirst
    · exact hbefore other hother

/-- The first fault is that of the first line, or it lies behind a first line without fault. -/
theorem exists_firstFault_cons {P : Nat → Sample.Malformed → Prop} :
    (∃ index cause, FirstFault (line :: rest) index cause ∧ P index cause) ↔
      (∃ cause, bears line = true ∧ sampleIn line = .error cause ∧ P 0 cause) ∨
        (bears line = true → ∃ sample, sampleIn line = .ok sample) ∧
          ∃ index cause, FirstFault rest index cause ∧ P (index + 1) cause := by
  constructor
  · rintro ⟨_ | index, cause, hfault, hP⟩
    · obtain ⟨hbears, hcause⟩ := firstFault_zero.mp hfault
      exact .inl ⟨cause, hbears, hcause, hP⟩
    · obtain ⟨hfirst, hrest⟩ := firstFault_succ.mp hfault
      exact .inr ⟨hfirst, index, cause, hrest, hP⟩
  · rintro (⟨cause, hbears, hcause, hP⟩ | ⟨hfirst, index, cause, hrest, hP⟩)
    · exact ⟨0, cause, firstFault_zero.mpr ⟨hbears, hcause⟩, hP⟩
    · exact ⟨index + 1, cause, firstFault_succ.mpr ⟨hfirst, hrest⟩, hP⟩

end

/-! ## Reading lines -/

/-- Lines are read if none of them is too long and each carries its sample. -/
theorem readLines_eq_ok_iff {lines : List Bytes} {number : Nat} {found samples : List Sample} :
    readLines number found lines = .ok samples ↔
      (∀ line ∈ lines, line.length ≤ lineLimit) ∧ ∃ more, Carry lines more ∧ samples = found.reverse ++ more := by
  induction lines generalizing number found with
  | nil => simp [readLines, carry_nil, eq_comm]
  | cons line rest ih =>
      rw [readLines, readLine_eq]
      by_cases hlong : lineLimit < line.length
      · simp [hlong]
      · rw [if_neg hlong]
        cases hbears : bears line with
        | false => simp [ih, carry_of_not_bears hbears, Nat.not_lt.mp hlong]
        | true =>
            cases hline : sampleIn line with
            | error cause => simp [Except.map, not_carry hbears hline]
            | ok sample => simp [Except.map, ih, carry_of_bears hbears hline, Nat.not_lt.mp hlong]

/-- If no line is too long, the first one that does not carry its sample is reported with its number. -/
theorem readLines_eq_error_iff {lines : List Bytes} (hshort : ∀ line ∈ lines, line.length ≤ lineLimit)
    {number : Nat} {found : List Sample} {fault : Unreadable} :
    readLines number found lines = .error fault ↔
      ∃ index cause, FirstFault lines index cause ∧ fault = .line (number + index) cause := by
  induction lines generalizing number found with
  | nil =>
      have hnone (index : Nat) (cause : Sample.Malformed) : ¬ FirstFault [] index cause := by
        rintro ⟨⟨line, hline, -⟩, -⟩
        cases hline
      simp [readLines, hnone]
  | cons line rest ih =>
      obtain ⟨hfirst, hrest⟩ := List.forall_mem_cons.mp hshort
      rw [readLines, if_neg (Nat.not_lt.mpr hfirst), readLine_eq, exists_firstFault_cons]
      cases hbears : bears line with
      | false => simp [ih hrest, Nat.add_comm, Nat.add_left_comm]
      | true =>
          cases hline : sampleIn line with
          | error cause => simp [Except.map, eq_comm]
          | ok sample => simp [Except.map, ih hrest, Nat.add_comm, Nat.add_left_comm]

/-- Lines that contribute the same are read alike. -/
theorem readLines_congr {lines others : List Bytes}
    (h : List.Forall₂ (fun line other => readLine line = readLine other ∧ line.length ≤ lineLimit ∧
      other.length ≤ lineLimit) lines others) (number : Nat) (found : List Sample) :
    readLines number found lines = readLines number found others := by
  induction h generalizing number found with
  | nil => rfl
  | cons hline _ ih =>
      obtain ⟨hsame, hfirst, hsecond⟩ := hline
      simp only [readLines, if_neg (Nat.not_lt.mpr hfirst), if_neg (Nat.not_lt.mpr hsecond), hsame, ih]

/-- The end of a line that has a carriage return before its line feed contributes nothing. -/
theorem readLine_concat_return (line : Bytes) : readLine (line ++ [13]) = readLine line := by
  rw [readLine, readLine, Blank.trim_concat (by decide) (by decide)]

end Trace

/-! ## Texts laid out in lines -/

/-- How a line ends. -/
inductive LineEnd where
  | feed
  | returnFeed
deriving DecidableEq, Repr

/-- The bytes before the line feed that ends a line. -/
def LineEnd.mark : LineEnd → Bytes
  | feed => []
  | returnFeed => [13]

/-- The bytes that end a line. -/
def LineEnd.bytes (e : LineEnd) : Bytes := e.mark ++ [10]

/-- A text laid out in lines: those that are ended, each with its end, and what follows the last line feed. -/
structure Lined where
  ended : List (Bytes × LineEnd)
  rest : Bytes
  ended_free : ∀ line ∈ ended, (10 : UInt8) ∉ line.1
  rest_free : (10 : UInt8) ∉ rest

namespace Lined

/-- The text. -/
def text (l : Lined) : Bytes := l.ended.flatMap (fun line => line.1 ++ line.2.bytes) ++ l.rest

/-- The lines without their ends. What follows the last line feed is a line unless it is empty. -/
def lines (l : Lined) : List Bytes := l.ended.map Prod.fst ++ if l.rest.isEmpty then [] else [l.rest]

/-- All lines, with their ends, are shorter than 64 KiB. -/
structure Short (l : Lined) : Prop where
  ended : ∀ line ∈ l.ended, (line.1 ++ line.2.bytes).length < 64 * 1024
  rest : l.rest.length < 64 * 1024

/-- Every text is laid out in lines. -/
theorem exists_text_eq (text : Bytes) : ∃ l : Lined, l.text = text := by
  induction text with
  | nil => exact ⟨⟨[], [], by simp, by simp⟩, rfl⟩
  | cons b text ih =>
      obtain ⟨⟨ended, rest, hended, hrest⟩, rfl⟩ := ih
      by_cases hfeed : b = 10
      · subst hfeed
        exact ⟨⟨([], .feed) :: ended, rest, by simpa using hended, hrest⟩, by simp [Lined.text, LineEnd.bytes, LineEnd.mark]⟩
      · cases ended with
        | nil => exact ⟨⟨[], b :: rest, by simp, by simp [Ne.symm hfeed, hrest]⟩, by simp [Lined.text]⟩
        | cons first ended =>
            obtain ⟨hfirst, hmore⟩ := List.forall_mem_cons.mp hended
            refine ⟨⟨(b :: first.1, first.2) :: ended, rest, ?_, hrest⟩, by simp [Lined.text]⟩
            intro line hline
            rcases List.mem_cons.mp hline with rfl | hline
            · simp [Ne.symm hfeed, hfirst]
            · exact hmore line hline

section

variable {l : Lined}

theorem lines_text (l : Lined) :
    Trace.lines l.text = l.ended.map (fun line => line.1 ++ line.2.mark) ++ if l.rest.isEmpty then [] else [l.rest] := by
  have htext : l.text = (l.ended.map fun line => line.1 ++ line.2.mark).flatMap (· ++ [10]) ++ l.rest := by
    simp [text, LineEnd.bytes, List.flatMap_map]
  rw [htext]
  refine Trace.lines_eq (fun piece hpiece => ?_) l.rest_free
  obtain ⟨⟨line, e⟩, hline, rfl⟩ := List.mem_map.mp hpiece
  have hfree := l.ended_free _ hline
  cases e <;> simp [LineEnd.mark, hfree]

theorem Short.lines (h : l.Short) : ∀ line ∈ l.lines, line.length ≤ Trace.lineLimit := by
  intro line hline
  rcases List.mem_append.mp hline with hline | hline
  · obtain ⟨ended, hended, rfl⟩ := List.mem_map.mp hline
    have hlength := h.ended ended hended
    rw [List.length_append] at hlength
    unfold Trace.lineLimit
    omega
  · have hrest := h.rest
    have hlast : line = l.rest := by
      split at hline
      next => cases hline
      next => exact List.mem_singleton.mp hline
    subst hlast
    exact Nat.le_of_lt_succ hrest

/-- How lines end makes no difference to what they are read as. -/
theorem read_text (h : l.Short) : Trace.read l.text = Trace.readLines 1 [] l.lines := by
  rw [Trace.read, lines_text, Lined.lines]
  apply Trace.readLines_congr
  apply List.rel_append
  · rw [List.forall₂_map_left_iff, List.forall₂_map_right_iff, List.forall₂_same]
    intro line hline
    have hlength := h.ended line hline
    simp only [LineEnd.bytes, List.length_append, List.length_singleton] at hlength ⊢
    refine ⟨?_, ?_, ?_⟩
    · cases line.2 with
      | feed => rw [LineEnd.mark, List.append_nil]
      | returnFeed => exact Trace.readLine_concat_return line.1
    · unfold Trace.lineLimit
      omega
    · unfold Trace.lineLimit
      omega
  · rw [List.forall₂_same]
    intro line hline
    have hlimit := h.lines line (List.mem_append_right _ hline)
    exact ⟨rfl, hlimit, hlimit⟩

end

theorem read_eq_ok_iff {l : Lined} (h : l.Short) {samples : List Sample} :
    Trace.read l.text = .ok samples ↔ Trace.Carry l.lines samples := by
  rw [read_text h, Trace.readLines_eq_ok_iff]
  constructor
  · rintro ⟨-, more, hmore, rfl⟩
    exact hmore
  · intro hcarry
    exact ⟨h.lines, samples, hcarry, rfl⟩

theorem read_eq_error_iff {l : Lined} (h : l.Short) {fault : Trace.Unreadable} :
    Trace.read l.text = .error fault ↔
      ∃ index cause, Trace.FirstFault l.lines index cause ∧ fault = .line (index + 1) cause := by
  rw [read_text h, Trace.readLines_eq_error_iff h.lines]
  simp only [Nat.add_comm 1]

/-- A text that ends with a line feed has nothing behind its last one. -/
theorem rest_eq_nil {l : Lined} (h : l.text.getLast? = some 10) : l.rest = [] := by
  by_contra hrest
  rw [text, List.getLast?_append_of_ne_nil _ hrest] at h
  exact l.rest_free (List.mem_of_getLast? h)

end Lined

namespace Trace

/-- Behind a text that ends with a line feed, the lines of another one follow those of the first. -/
theorem lines_append {first : Bytes} (hfirst : first.getLast? = some 10) (second : Bytes) :
    lines (first ++ second) = lines first ++ lines second := by
  obtain ⟨l, rfl⟩ := Lined.exists_text_eq first
  obtain ⟨other, rfl⟩ := Lined.exists_text_eq second
  have hnone := Lined.rest_eq_nil hfirst
  have htext : l.text ++ other.text =
      (⟨l.ended ++ other.ended, other.rest, List.forall_mem_append.mpr ⟨l.ended_free, other.ended_free⟩,
        other.rest_free⟩ : Lined).text := by
    simp [Lined.text, hnone]
  rw [htext, Lined.lines_text, Lined.lines_text, Lined.lines_text]
  simp [hnone]

/-- A trace is read line by line. Every text is laid out in lines, and if they are shorter than 64 KiB, its samples
are those that the lines carry, unless one of them is faulty: then the first such line is reported with its number,
counted from one over all lines. So the samples depend on the lines that carry one and on nothing between them, how
lines end makes no difference at all, and the samples of two texts are read from one text behind the other. -/
theorem trace_reads_line_by_line :
    (∀ text : Bytes, ∃ l : Lined, l.text = text) ∧
    (∀ l : Lined, l.Short →
      (∀ samples, read l.text = .ok samples ↔ Carry l.lines samples) ∧
      ∀ fault, read l.text = .error fault ↔
        ∃ index cause, FirstFault l.lines index cause ∧ fault = .line (index + 1) cause) ∧
    (∀ l other : Lined, l.Short → other.Short →
      (l.lines.filter bears = other.lines.filter bears →
        ∀ samples, read l.text = .ok samples ↔ read other.text = .ok samples) ∧
      (l.lines = other.lines → read l.text = read other.text)) ∧
    ∀ (first second : Bytes) (samples more : List Sample), first.getLast? = some 10 →
      read first = .ok samples → read second = .ok more → read (first ++ second) = .ok (samples ++ more) := by
  refine ⟨Lined.exists_text_eq, fun l hl => ⟨fun samples => Lined.read_eq_ok_iff hl, fun fault => Lined.read_eq_error_iff hl⟩,
    fun l other hl hother => ⟨fun hsame samples => ?_, fun hsame => ?_⟩, ?_⟩
  · rw [Lined.read_eq_ok_iff hl, Lined.read_eq_ok_iff hother, Carry, Carry, hsame]
  · rw [Lined.read_text hl, Lined.read_text hother, hsame]
  · intro first second samples more hfirst hsamples hmore
    obtain ⟨hshort, _, hcarry, rfl⟩ := readLines_eq_ok_iff.mp hsamples
    obtain ⟨hshort', _, hcarry', rfl⟩ := readLines_eq_ok_iff.mp hmore
    rw [read, lines_append hfirst, readLines_eq_ok_iff]
    refine ⟨List.forall_mem_append.mpr ⟨hshort, hshort'⟩, _, ?_, rfl⟩
    rw [Carry, List.filter_append]
    exact List.rel_append hcarry hcarry'

/-- A comment, a blank line and a sample before a line that carries none. -/
def straying : Lined where
  ended := [("# cows", .returnFeed), ("", .feed), (" 0 1 2 3", .returnFeed), ("moo", .feed)]
  rest := "1 1 2 3"
  ended_free := by decide
  rest_free := by decide

theorem straying_line_is_numbered : straying.Short ∧ read straying.text = .error (.line 4 (.fieldCount 1)) := by
  have hshort : straying.Short := ⟨by decide, by decide⟩
  have hone : ∀ line ∈ straying.lines.take 3, bears line = true → line = " 0 1 2 3" := by decide
  have hbefore : ∀ line ∈ straying.lines.take 3, bears line = true → ∃ sample, sampleIn line = .ok sample := by
    intro line hline hbears
    rw [hone line hline hbears]
    exact ⟨⟨0, .ofInt 1, .ofInt 2, .ofInt 3⟩, by decide +kernel⟩
  have hfault : FirstFault straying.lines 3 (.fieldCount 1) :=
    ⟨⟨"moo", by decide, by decide, by decide⟩, hbefore⟩
  exact ⟨hshort, ((trace_reads_line_by_line.2.1 straying hshort).2 _).mpr ⟨3, _, hfault, rfl⟩⟩

end Trace

end MobilitySweep
