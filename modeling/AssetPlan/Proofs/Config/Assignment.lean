import AssetPlan.Proofs.Config.Assigned
import AssetPlan.Proofs.Text.Blank

/-! # Assignments as they are written

An assignment is divided at its first `=`. The key before it is trimmed and names a path by its
segments, and the text behind it is taken as it stands. So an assignment is refused exactly if it
has no `=` or a segment of its key is empty, and one that is written from a path and a raw text is
read back as them.
-/

namespace AssetPlan.Config

open Text Value

variable {assignment : String} {keys : List String}

/-- What stands before the first `=`. -/
def assignedKey (assignment : String) : String :=
  .ofList (assignment.toList.takeWhile (· ≠ '='))

/-- What stands behind the first `=`. -/
def assignedText (assignment : String) : String :=
  .ofList (assignment.toList.dropWhile (· ≠ '=')).tail

/-- The keys that an assignment names. -/
def assignedPath (assignment : String) : List String :=
  dottedPath (trimmedKey (assignedKey assignment))

theorem not_mem_assignedKey (assignment : String) : '=' ∉ (assignedKey assignment).toList := by
  intro member
  rw [assignedKey, String.toList_ofList] at member
  simpa using List.mem_takeWhile_imp member

theorem assignedKey_append_assignedText (divided : '=' ∈ assignment.toList) :
    assignedKey assignment ++ "=" ++ assignedText assignment = assignment := by
  obtain ⟨before, after, whole, free⟩ := List.eq_append_cons_of_mem divided
  have kept : ∀ c ∈ before, decide (c ≠ '=') = true := fun c member =>
    decide_eq_true fun same => free (same ▸ member)
  rw [← String.toList_inj, assignedKey, assignedText, whole,
    List.takeWhile_append_of_pos kept, List.dropWhile_append_of_pos kept]
  simp

/-- An assignment without `=` is refused as a whole, one with an empty segment by its key. -/
theorem parseAssignment_eq (assignment : String) :
    parseAssignment assignment =
      if '=' ∈ assignment.toList then
        if "" ∈ assignedPath assignment then
          .error (.invalid (.assignmentKey (assignedKey assignment)))
        else .ok (nest (assignedPath assignment) (rawValue (assignedText assignment)))
      else .error (.invalid (.assignmentWithoutValue assignment)) := by
  by_cases divided : '=' ∈ assignment.toList
  · rw [if_pos divided, assignedPath, ← parseAssignment_append (not_mem_assignedKey assignment),
      assignedKey_append_assignedText divided]
  · rw [if_neg divided, parseAssignment, splitOnce_eq_none_iff.mpr divided]

theorem parseAssignment_eq_ok_iff {layer : Value} :
    parseAssignment assignment = .ok layer ↔
      '=' ∈ assignment.toList ∧ "" ∉ assignedPath assignment ∧
        layer = nest (assignedPath assignment) (rawValue (assignedText assignment)) := by
  rw [parseAssignment_eq]
  split
  next divided =>
    rw [and_iff_right divided]
    split
    next empty => simp [empty]
    next full => simp [full, eq_comm]
  next whole => simp [whole]

theorem exists_error_parseAssignment_iff :
    (∃ e, parseAssignment assignment = .error e) ↔
      '=' ∉ assignment.toList ∨ "" ∈ assignedPath assignment := by
  rw [Except.exists_error_iff]
  simp only [parseAssignment_eq_ok_iff, exists_and_left, exists_eq, and_true, not_and_or, not_not]

/-- A blank key is one empty segment. -/
theorem empty_mem_assignedPath (blank : isBlankText (assignedKey assignment)) :
    "" ∈ assignedPath assignment := by
  rw [assignedPath, dottedPath, trimmedKey, isBlankText_iff.mp blank]
  decide

theorem toList_joinTexts (keys : List String) :
    (joinTexts "." keys).toList = join ['.'] (keys.map String.toList) := by
  rw [joinTexts, String.toList_intercalate, join]
  rfl

/-- The segments of a dotted key are the keys that it is joined from. -/
theorem dottedPath_joinTexts (nonempty : keys ≠ []) (dotless : ∀ key ∈ keys, '.' ∉ key.toList) :
    dottedPath (joinTexts "." keys) = keys := by
  rw [dottedPath, toList_joinTexts,
    split_join (by simpa using nonempty) (by simpa using dotless), List.map_map]
  simp [Function.comp_def]

theorem not_mem_joinTexts {c : Char} (other : c ≠ '.') (free : ∀ key ∈ keys, c ∉ key.toList) :
    c ∉ (joinTexts "." keys).toList := by
  intro member
  rw [toList_joinTexts] at member
  rcases mem_join member with same | ⟨piece, inKeys, inside⟩
  · exact other same
  · obtain ⟨key, known, rfl⟩ := List.mem_map.mp inKeys
    exact free key known inside

theorem nest_append (front back : List String) (leaf : Value) :
    nest (front ++ back) leaf = nest front (nest back leaf) :=
  List.foldr_append

/-- Before the end of its path a nested value is alone in a mapping. -/
theorem reach_nest_front (front back : List String) (key : String) (leaf : Value) :
    (nest (front ++ key :: back) leaf).reach front = some (.object [(key, nest back leaf)]) := by
  rw [nest_append, reach_nest]
  rfl

/-- An assignment is refused exactly if it has no `=` or an empty segment in its trimmed key, as a
blank key has. One that is written from keys and a raw text is read as a mapping with one key at
each level that ends in what the raw text stands for. -/
theorem parseAssignment_written :
    (∀ assignment, (∃ e, parseAssignment assignment = .error e) ↔
      '=' ∉ assignment.toList ∨ "" ∈ assignedPath assignment) ∧
    (∀ assignment, isBlankText (assignedKey assignment) →
      ∃ e, parseAssignment assignment = .error e) ∧
    ∀ (keys : List String) (raw : String), keys ≠ [] →
      (∀ key ∈ keys, key ≠ "" ∧ '.' ∉ key.toList ∧ '=' ∉ key.toList) →
      trimmedKey (joinTexts "." keys) = joinTexts "." keys →
      ∃ layer, parseAssignment (joinTexts "." keys ++ "=" ++ raw) = .ok layer ∧
        (∀ front key back, keys = front ++ key :: back →
          ∃ inner, layer.reach front = some (.object [(key, inner)])) ∧
        layer.reach keys = some (match Json.read? raw with
          | some v => v
          | none => .string raw) := by
  refine ⟨fun _ => exists_error_parseAssignment_iff,
    fun _ blank => exists_error_parseAssignment_iff.mpr (.inr (empty_mem_assignedPath blank)), ?_⟩
  intro keys raw nonempty plain trimmed
  have path : dottedPath (trimmedKey (joinTexts "." keys)) = keys := by
    rw [trimmed, dottedPath_joinTexts nonempty fun key member => (plain key member).2.1]
  have full : "" ∉ keys := fun member => (plain "" member).1 rfl
  have divided : '=' ∉ (joinTexts "." keys).toList :=
    not_mem_joinTexts (by decide) fun key member => (plain key member).2.2
  refine ⟨nest keys (rawValue raw), ?_, ?_, ?_⟩
  · rw [parseAssignment_append divided, path, if_neg full]
  · rintro front key back rfl
    exact ⟨_, reach_nest_front front back key _⟩
  · rw [reach_nest, rawValue]
    cases Json.read? raw <;> rfl

/-- The text behind the first `=` keeps its blanks, its dots and its further `=`, and where it is
JSON it is read as such. -/
theorem parseAssignment_written_define :
    (∃ e, parseAssignment "output..path=x" = .error e) ∧ (∃ e, parseAssignment " =x" = .error e) ∧
      (∃ layer, parseAssignment "define.QUERY= a=b. c" = .ok layer ∧
        (∃ inner, layer.reach ["define"] = some (.object [("QUERY", inner)])) ∧
        layer.reach ["define", "QUERY"] = some (.string " a=b. c")) ∧
      ∃ layer, parseAssignment "define.LEVELS=[1, [false, null]]" = .ok layer ∧
        (∃ inner, layer.reach ["define"] = some (.object [("LEVELS", inner)])) ∧
        layer.reach ["define", "LEVELS"] =
          some (.array [.int 1, .array [.bool false, .null]]) := by
  obtain ⟨refused, blank, written⟩ := parseAssignment_written
  refine ⟨(refused _).mpr (.inr (by decide)), blank _ (by decide), ?_, ?_⟩
  · obtain ⟨layer, parsed, alone, leaf⟩ := written ["define", "QUERY"] " a=b. c"
      (by decide) (by decide) (by decide)
    exact ⟨layer, parsed, alone ["define"] "QUERY" [] rfl, leaf⟩
  · obtain ⟨layer, parsed, alone, leaf⟩ := written ["define", "LEVELS"] "[1, [false, null]]"
      (by decide) (by decide) (by decide)
    exact ⟨layer, parsed, alone ["define"] "LEVELS" [] rfl, leaf⟩

end AssetPlan.Config
