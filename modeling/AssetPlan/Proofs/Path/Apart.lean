import AssetPlan.Path.Parts
import AssetPlan.Proofs.Text.Split

/-! # Paths that differ in a name

Two texts that agree up to a place where each has a plain character, not the same one, are apart:
whatever is put before or behind them, and whatever directory they are joined to, they have
different segments.
-/

namespace AssetPlan.Path

open Text

/-- A character that neither separates segments nor stands for a directory. -/
def Plain (c : Char) : Prop := c ≠ '/' ∧ c ≠ '.'

/-- The texts first differ in two plain characters. -/
inductive Apart : List Char → List Char → Prop
  | here {c c' : Char} (differ : c ≠ c') (plain : Plain c) (plain' : Plain c')
    (rest rest' : List Char) : Apart (c :: rest) (c' :: rest')
  | there (c : Char) {x y : List Char} (later : Apart x y) : Apart (c :: x) (c :: y)

/-- The segments of a path in order, without those that stand for nothing. -/
def components (p : List Char) : List Segment :=
  (split '/' p).filter fun segment => segment ≠ [] ∧ segment ≠ Path.here

namespace Apart

variable {x y : List Char}

theorem append_left (apart : Apart x y) (front : List Char) : Apart (front ++ x) (front ++ y) := by
  induction front with
  | nil => exact apart
  | cons c front ih => exact .there c ih

theorem append_right (apart : Apart x y) (back back' : List Char) :
    Apart (x ++ back) (y ++ back') := by
  induction apart with
  | here differ plain plain' rest rest' => exact .here differ plain plain' _ _
  | there c _ ih => exact .there c ih

theorem isAbsolute_eq (apart : Apart x y) : isAbsolute x = isAbsolute y := by
  cases apart with
  | here _ plain plain' => simp [isAbsolute, plain.1, plain'.1]
  | there c later => rfl

theorem joinChars (apart : Apart x y) (base : List Char) :
    Apart (joinChars base x) (joinChars base y) := by
  simp only [Path.joinChars, apart.isAbsolute_eq]
  split
  · exact apart
  · split
    · exact apart.append_left base
    · exact (apart.there '/').append_left base

/-- The segment of a plain character stands for something. -/
theorem components_plain {front : List Char} {c : Char} (free : '/' ∉ front) (plain : Plain c)
    (rest : List Char) :
    ∃ piece others, components (front ++ c :: rest) = (front ++ c :: piece) :: others := by
  obtain ⟨piece, pieces, _, added⟩ := split_cons_of_ne plain.1 rest
  obtain ⟨_, _, found, whole⟩ := split_append_of_not_mem free (c :: rest)
  cases added.symm.trans found
  have counts : front ++ c :: piece ≠ [] ∧ front ++ c :: piece ≠ Path.here := by
    refine ⟨by simp, fun same => ?_⟩
    have member : c ∈ Path.here := same ▸ List.mem_append_right _ List.mem_cons_self
    exact plain.2 (List.mem_singleton.mp member)
  have first : components (front ++ c :: rest) = (front ++ c :: piece) ::
      pieces.filter fun segment => segment ≠ [] ∧ segment ≠ Path.here := by
    rw [components, whole, List.filter_cons, if_pos (decide_eq_true counts)]
  exact ⟨piece, _, first⟩

/-- Texts that are apart have different segments, also behind the start of a segment. -/
theorem components_append_ne (apart : Apart x y) {front : List Char} (free : '/' ∉ front) :
    components (front ++ x) ≠ components (front ++ y) := by
  induction apart generalizing front with
  | here differ plain plain' rest rest' =>
    obtain ⟨piece, _, first⟩ := components_plain free plain rest
    obtain ⟨piece', _, second⟩ := components_plain free plain' rest'
    rw [first, second]
    intro same
    obtain ⟨segment, _⟩ := List.cons_eq_cons.mp same
    exact differ (List.cons_eq_cons.mp (List.append_cancel_left segment)).1
  | there c _ ih =>
    by_cases separates : c = '/'
    · subst separates
      simp only [components, split_append_sep, List.filter_append]
      intro same
      exact ih List.not_mem_nil (List.append_cancel_left same)
    · have longer : '/' ∉ front ++ [c] := by simp [free, Ne.symm separates]
      have apart := ih longer
      rwa [List.append_assoc, List.append_assoc] at apart

theorem components_ne (apart : Apart x y) : components x ≠ components y :=
  apart.components_append_ne List.not_mem_nil

end Apart

end AssetPlan.Path
