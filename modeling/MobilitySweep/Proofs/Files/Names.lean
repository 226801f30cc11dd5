import Mathlib
import MobilitySweep.Files.Operations

/-! # Last names of paths

Normalising a path, putting a directory before it or an ending behind it keeps its last name, as long as that
is a plain one.
-/

namespace MobilitySweep

namespace Bytes

theorem foldl_splitOn (separator : UInt8) (text piece : Bytes) (pieces : List Bytes) :
    let last := text.foldl (fun (state : Bytes × List Bytes) b =>
      if b = separator then ([], state.1.reverse :: state.2) else (b :: state.1, state.2)) (piece, pieces)
    (last.1.reverse :: last.2).reverse = pieces.reverse ++ List.splitOnPPrepend (· == separator) text piece := by
  induction text generalizing piece pieces with
  | nil => simp
  | cons b text ih =>
      rw [List.foldl_cons]
      split
      next heq =>
        refine (ih [] (piece.reverse :: pieces)).trans ?_
        simp [List.splitOnPPrepend_cons_pos, heq]
      next hne =>
        refine (ih (b :: piece) pieces).trans ?_
        rw [List.splitOnPPrepend_cons_neg (by simpa using hne)]

theorem splitOn_eq (separator : UInt8) (text : Bytes) : splitOn separator text = List.splitOn separator text :=
  (foldl_splitOn separator text [] []).trans (List.nil_append _)

theorem joinWith_eq (separator : UInt8) (parts : List Bytes) :
    joinWith [separator] parts = [separator].intercalate parts := by
  induction parts with
  | nil => rfl
  | cons piece rest ih =>
      cases rest with
      | nil => simp [joinWith]
      | cons next rest => simp [joinWith, ih]

/-- Behind the last separator is the last piece. -/
theorem splitOn_append {separator : UInt8} {piece : Bytes} (h : separator ∉ piece) (front : Bytes) :
    splitOn separator (front ++ separator :: piece) = splitOn separator front ++ [piece] := by
  simp only [splitOn_eq, List.splitOn_append_cons_self, List.splitOn_eq_singleton h]

theorem splitOn_piece {separator : UInt8} {piece : Bytes} (h : separator ∉ piece) :
    splitOn separator piece = [piece] := by
  rw [splitOn_eq, List.splitOn_eq_singleton h]

end Bytes

namespace Path

/-- A name that stands for itself in a path. -/
structure Plain (name : Bytes) : Prop where
  ne_nil : name ≠ []
  noSlash : ('/' : UInt8) ∉ name
  ne_here : name ≠ here
  ne_above : name ≠ above

instance (name : Bytes) : Decidable (Plain name) :=
  decidable_of_iff (name ≠ [] ∧ ('/' : UInt8) ∉ name ∧ name ≠ here ∧ name ≠ above)
    ⟨fun ⟨hne, hslash, hhere, habove⟩ => ⟨hne, hslash, hhere, habove⟩,
      fun h => ⟨h.ne_nil, h.noSlash, h.ne_here, h.ne_above⟩⟩

/-- A path with a given text behind its last slash. -/
def EndsIn (name path : Bytes) : Prop := path = name ∨ ∃ front, path = front ++ ('/' : UInt8) :: name

section

variable {name path : Bytes}

theorem EndsIn.ne_nil (h : EndsIn name path) (hname : Plain name) : path ≠ [] := by
  rcases h with rfl | ⟨front, rfl⟩
  · exact hname.ne_nil
  · simp

theorem EndsIn.pieces (h : EndsIn name path) (hname : Plain name) : ∃ before, pieces path = before ++ [name] := by
  rcases h with rfl | ⟨front, rfl⟩
  · exact ⟨[], Bytes.splitOn_piece hname.noSlash⟩
  · exact ⟨_, Bytes.splitOn_append hname.noSlash front⟩

/-- The last name of a path. -/
theorem EndsIn.getLast?_names (h : EndsIn name path) (hname : Plain name) :
    (names path).getLast? = some name := by
  obtain ⟨before, hpieces⟩ := h.pieces hname
  have hkept : (!name.isEmpty) = true := by simpa using hname.ne_nil
  rw [names, hpieces, List.filter_append, List.filter_singleton, hkept]
  simp

theorem EndsIn.endsWithSlash (h : EndsIn name path) (hname : Plain name) : Files.endsWithSlash path = false := by
  have hlast : path.getLast? = name.getLast? := by
    rcases h with rfl | ⟨front, rfl⟩
    · rfl
    · rw [List.getLast?_append_of_ne_nil _ (by simp), List.getLast?_cons_of_ne_nil hname.ne_nil]
  unfold Files.endsWithSlash
  rw [hlast, beq_eq_false_iff_ne]
  exact fun hslash => hname.noSlash (List.mem_of_getLast? hslash)

/-- An ending becomes part of the last name. -/
theorem EndsIn.append (h : EndsIn name path) (ending : Bytes) : EndsIn (name ++ ending) (path ++ ending) := by
  rcases h with rfl | ⟨front, rfl⟩
  · exact Or.inl rfl
  · exact Or.inr ⟨front, by simp⟩

theorem EndsIn.behind (h : EndsIn name path) (front : Bytes) : EndsIn name (front ++ ('/' : UInt8) :: path) := by
  rcases h with rfl | ⟨rest, rfl⟩
  · exact Or.inr ⟨front, rfl⟩
  · exact Or.inr ⟨front ++ ('/' : UInt8) :: rest, by simp⟩

theorem slash_eq : (("/" : String) : Bytes) = [('/' : UInt8)] := by decide +kernel

theorem joinWith_endsIn (before : List Bytes) : EndsIn name (Bytes.joinWith "/" (before ++ [name])) := by
  induction before with
  | nil => exact Or.inl rfl
  | cons piece before ih =>
      have hjoin : Bytes.joinWith "/" (piece :: before ++ [name]) =
          piece ++ ('/' : UInt8) :: Bytes.joinWith "/" (before ++ [name]) := by
        rw [List.cons_append, Bytes.joinWith, slash_eq]
        · simp
        · simp
      rw [hjoin]
      exact ih.behind piece

theorem EndsIn.clean (h : EndsIn name path) (hname : Plain name) : EndsIn name (clean path) := by
  obtain ⟨before, hpieces⟩ := h.pieces hname
  have hcomponents : ∃ parts, components path = parts ++ [name] := by
    refine ⟨(before.foldl (push (isAbsolute path)) []).reverse, ?_⟩
    have hpush : ∀ stack, push (isAbsolute path) stack name = name :: stack := by
      intro stack
      simp [push, hname.ne_nil, hname.ne_here, hname.ne_above]
    rw [components, hpieces, List.foldl_append, List.foldl_cons, List.foldl_nil, hpush, List.reverse_cons]
  obtain ⟨parts, hparts⟩ := hcomponents
  have hend : EndsIn name (Bytes.joinWith "/" (parts ++ [name])) := joinWith_endsIn parts
  rw [Path.clean, ofComponents, hparts]
  split
  next =>
    rw [slash_eq]
    exact hend.behind []
  next =>
    rw [if_neg (by simp)]
    exact hend

/-- A directory in front of a path leaves its last name. -/
theorem EndsIn.join (h : EndsIn name path) (hname : Plain name) (front : Bytes) :
    EndsIn name (join [front, path]) := by
  have hempty : path.isEmpty = false := by simpa using h.ne_nil hname
  by_cases hfront : front.isEmpty = true
  · simp only [Path.join, hfront, hempty, if_true, Bool.false_eq_true, if_false]
    exact h.clean hname
  · simp only [Path.join, Bool.eq_false_iff.mpr hfront, Bool.false_eq_true, if_false, Bytes.joinWith, slash_eq]
    refine EndsIn.clean ?_ hname
    simpa using h.behind front

end

end Path

end MobilitySweep
