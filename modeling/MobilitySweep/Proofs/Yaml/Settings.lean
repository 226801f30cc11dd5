import MobilitySweep.Config.Printer
import MobilitySweep.Proofs.Yaml.Spellings

/-! # Settings as they are printed

A setting is printed as its name with a spelling behind it, or with spellings on lines of their own. These lines are
rows that can be read wherever rows of settings can stand.
-/

namespace MobilitySweep

namespace Yaml

/-! ## Labels -/

/-- A name that sections and settings are printed with: small letters and low lines that mean nothing else. -/
structure IsLabel (name : String) : Prop where
  some : name.toList ≠ []
  short : name.toList.length ≤ 1000
  letters : ∀ x ∈ name.toList, x = '_' ∨ 97 ≤ x.toNat ∧ x.toNat ≤ 122
  text : classify true name = .text name

namespace IsLabel

variable {name : String}

theorem letter_spec {x : Char} (h : x = '_' ∨ 97 ≤ x.toNat ∧ x.toNat ≤ 122) :
    IsFair x ∧ IsSolid x ∧ isBreak x = false ∧ isMarkup x = false ∧ x ≠ '.' ∧ x ≠ ':' ∧ x ≠ '#' ∧ x ≠ '<' := by
  have hletters : ∀ n < 123, 97 ≤ n → IsFair (Char.ofNat n) ∧ IsSolid (Char.ofNat n) ∧ isBreak (Char.ofNat n) = false ∧
      isMarkup (Char.ofNat n) = false ∧ Char.ofNat n ≠ '.' ∧ Char.ofNat n ≠ ':' ∧ Char.ofNat n ≠ '#' ∧
      Char.ofNat n ≠ '<' := by decide
  rcases h with rfl | h
  · decide
  · have hx := hletters x.toNat (by omega) h.1
    rwa [Char.ofNat_toNat] at hx

theorem isName (h : IsLabel name) : IsName name.toList := by
  have hspec : ∀ x ∈ name.toList, _ := fun x hx => letter_spec (h.letters x hx)
  have hword : IsPlainWord name.toList := by
    refine ⟨h.some, fun x hx => (hspec x hx).2.1, fun hlast => ?_, fun hhead => ?_⟩
    · exact (hspec _ (List.mem_of_getLast? hlast)).2.2.2.2.2.1 rfl
    · exact (hspec _ (List.mem_of_head? hhead)).2.2.2.2.2.2.1 rfl
  obtain ⟨x, word, hname⟩ := List.exists_cons_of_ne_nil h.some
  have hx := hspec x (by rw [hname]; exact List.mem_cons_self)
  refine ⟨hword, ?_, ?_, h.short⟩
  · rw [hname]
    exact hx.2.2.2.1
  · rw [hname]
    exact hx.2.2.2.2.1

theorem fair (h : IsLabel name) : ∀ x ∈ name.toList, IsFair x := fun x hx => (letter_spec (h.letters x hx)).1

/-- A label asks for nothing to be merged. -/
theorem ne_merge (h : IsLabel name) : (name : Bytes) ≠ ("<<" : String) := by
  intro heq
  have hchars : name.toList = ['<', '<'] := by
    have hencode : Utf8.encode name.toList = Utf8.encode ['<', '<'] := heq
    simpa only [Utf8.characters_encode] using congrArg Utf8.characters hencode
  have hmem : '<' ∈ name.toList := by rw [hchars]; exact List.mem_cons_self
  exact (letter_spec (h.letters _ hmem)).2.2.2.2.2.2.2 rfl

end IsLabel

/-! ## Settings -/

/-- A setting that is written as some bytes and can be read where settings stand. -/
structure Setting.Writes (s : Setting) (written : Bytes) : Prop where
  fits : ∀ {rest : List Row}, Row.Fits 2 rest → Row.Fits 2 (s.rows ++ rest)
  fair : ∀ x ∈ Row.text s.rows, IsFair x
  encoded : Utf8.encode (Row.text s.rows) = written

/-- A spelling does not end its line, so that a line break follows it. -/
theorem Spelling.Writes.line {s : Spelling} {written : Bytes} (h : s.Writes written) :
    Printed.line written = written ++ Utf8.encode ['\n'] := by
  have hends : Printed.endsLine written = false := by
    rw [Printed.endsLine, List.any_eq_false, ← h.encoded]
    intro c hc hsuffix
    have hlast := Utf8.getLast?_of_isSuffix (List.isSuffixOf_iff_suffix.mp hsuffix)
    have hbreak : isBreak c = true := by
      fin_cases hc <;> decide
    exact absurd hbreak (by simp [(h.fair c (List.mem_of_getLast? hlast)).2])
  rw [Printed.line, hends, if_neg (by simp)]
  rfl

theorem isFair_blank : IsFair ' ' := by decide

theorem isFair_break : IsFair '\n' := by decide

variable {name : String} {written : Bytes}

theorem writes_scalar (hname : IsLabel name) {s : Spelling} (hs : s.Writes written) :
    Setting.Writes ⟨name.toList, .scalar s⟩ (Config.setting name written) := by
  refine ⟨fun hrest => ⟨⟨hname.isName, hs.legible⟩, le_rfl, hrest⟩, ?_, ?_⟩
  · have hcolon : IsFair ':' := by decide
    intro x hx
    simp only [Setting.rows, Row.text, Row.chars, Holding.chars, Row.column, Row.depth, List.mem_append, List.mem_replicate,
      List.mem_cons, List.not_mem_nil, or_false] at hx
    rcases hx with ⟨-, rfl⟩ | (hx | rfl | rfl | hx) | rfl
    · exact isFair_blank
    · exact hname.fair x hx
    · exact hcolon
    · exact isFair_blank
    · exact (hs.fair x hx).1
    · exact isFair_break
  · rw [Config.setting, hs.line]
    simp only [Setting.rows, Row.text, Row.chars, Holding.chars, Row.column, Row.depth, Utf8.encode_append, Utf8.encode_cons,
      Utf8.encode_nil, hs.encoded, List.append_assoc]
    rfl

/-- The items of a list can be read where items stand. -/
theorem fits_items {items : List Spelling} (hitems : ∀ s ∈ items, s.Legible) {rest : List Row} (hrest : Row.Fits 2 rest) :
    Row.Fits 3 (items.map Row.item ++ rest) := by
  induction items with
  | nil => exact hrest.mono (by decide)
  | cons s items ih =>
      rw [List.forall_mem_cons] at hitems
      exact ⟨hitems.1, le_rfl, ih hitems.2⟩

theorem writes_items {items : List Spelling} {texts : List Bytes} (h : List.Forall₂ Spelling.Writes items texts) :
    (∀ s ∈ items, s.Legible) ∧ (∀ x ∈ Row.text (items.map Row.item), IsFair x) ∧
      Utf8.encode (Row.text (items.map Row.item)) = texts.flatMap fun item => ("        - " : Bytes) ++ Printed.line item := by
  induction h with
  | nil => exact ⟨by simp, by simp [Row.text], rfl⟩
  | @cons s text items texts hs _ ih =>
      obtain ⟨hlegible, hfair, hencoded⟩ := ih
      have hdash : IsFair '-' := by decide
      refine ⟨List.forall_mem_cons.mpr ⟨hs.legible, hlegible⟩, fun x hx => ?_, ?_⟩
      · simp only [List.map_cons, Row.text, Row.chars, Row.column, Row.depth, List.mem_append, List.mem_replicate,
          List.mem_cons] at hx
        rcases hx with ⟨-, rfl⟩ | (rfl | rfl | hx) | rfl | hx
        · exact isFair_blank
        · exact hdash
        · exact isFair_blank
        · exact (hs.fair x hx).1
        · exact isFair_break
        · exact hfair x hx
      · rw [List.flatMap_cons, hs.line, ← hencoded]
        simp only [List.map_cons, Row.text, Row.chars, Row.column, Row.depth, Utf8.encode_append, Utf8.encode_cons,
          Utf8.encode_nil, hs.encoded, List.append_assoc]
        rfl

theorem writes_list (hname : IsLabel name) {items : List Spelling} {texts : List Bytes}
    (h : List.Forall₂ Spelling.Writes items texts) :
    Setting.Writes ⟨name.toList, .list items⟩ (Config.listSetting name texts) := by
  obtain ⟨hlegible, hfair, hencoded⟩ := writes_items h
  have hcolon : IsFair ':' := by decide
  cases h with
  | nil =>
      have hbrackets : ∀ x ∈ " []".toList, IsFair x := by
        intro x hx
        have hx : x ∈ [' ', '[', ']'] := hx
        simp only [List.mem_cons, List.not_mem_nil, or_false] at hx
        rcases hx with rfl | rfl | rfl <;> exact isFair_of_ascii (by decide)
      have hline : Printed.line "[]" = Utf8.encode ['[', ']', '\n'] := by decide +kernel
      refine ⟨fun hrest => ⟨⟨hname.isName, trivial⟩, le_rfl, hrest⟩, fun x hx => ?_, ?_⟩
      · simp only [Setting.rows, Row.text, Row.chars, Holding.chars, Row.column, Row.depth, List.mem_append,
          List.mem_replicate, List.mem_cons, List.not_mem_nil, or_false] at hx
        rcases hx with ⟨-, rfl⟩ | (hx | rfl | hx) | rfl
        · exact isFair_blank
        · exact hname.fair x hx
        · exact hcolon
        · exact hbrackets x hx
        · exact isFair_break
      · rw [Config.listSetting, List.isEmpty_nil, if_pos rfl, Config.setting, hline]
        simp only [Setting.rows, Row.text, Row.chars, Holding.chars, Row.column, Row.depth, Utf8.encode_append,
          Utf8.encode_cons, Utf8.encode_nil, List.append_assoc]
        rfl
  | @cons s text items texts hs hrest =>
      refine ⟨fun hrest => ⟨⟨hname.isName, trivial⟩, le_rfl, fits_items hlegible hrest⟩, fun x hx => ?_, ?_⟩
      · simp only [Setting.rows, Row.text, Row.chars, Holding.chars, Row.column, Row.depth, List.mem_append,
          List.mem_replicate, List.mem_cons, List.not_mem_nil, or_false] at hx
        rcases hx with ⟨-, rfl⟩ | (hx | rfl) | rfl | hx
        · exact isFair_blank
        · exact hname.fair x hx
        · exact hcolon
        · exact isFair_break
        · exact hfair x hx
      · rw [Config.listSetting, List.isEmpty_cons, if_neg (by simp), ← hencoded]
        simp only [Setting.rows, Row.text, Row.chars, Holding.chars, Row.column, Row.depth, Utf8.encode_append,
          Utf8.encode_cons, Utf8.encode_nil, List.append_assoc]
        rfl

end Yaml

end MobilitySweep
