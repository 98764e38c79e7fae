import AssetPlan.Path.Parts
import AssetPlan.Proofs.Path.Walk

/-! # What file names are made of

A file name is a segment of its path that is a name, and its stem and extension divide it at its
last dot. Seven pairs of shapes are all that a stem and an extension can have.
-/

namespace AssetPlan.Path

open Text

variable {c : Char} {p name extension : List Char}

theorem dropIdleFront_end (cs : List Char) : dropIdleFront cs <:+ cs := by
  fun_induction dropIdleFront cs with
  | case1 => exact List.suffix_refl _
  | case2 rest _ ih => exact ih.trans (List.suffix_cons _ _)
  | case3 rest ih => exact ih.trans (List.suffix_cons _ _)
  | case4 => exact List.suffix_refl _

theorem trimEnd_front (p : List Char) : trimEnd p <+: p := by
  rw [trimEnd, ← List.reverse_suffix, List.reverse_reverse]
  exact dropIdleFront_end _

/-- A file name is a segment, and not one that stands for a directory. -/
theorem of_fileName?_eq_some (found : fileName? p = some name) :
    name ∈ split '/' (trimEnd p) ∧ name ≠ [] ∧ name ≠ here ∧ name ≠ up := by
  rw [fileName?] at found
  split at found
  next => cases found
  next last atEnd =>
    split at found
    next => cases found
    next isName =>
      cases found
      exact ⟨List.mem_of_getLast? atEnd, by simpa using isName⟩

/-- A segment that stands for something is not dropped from the end of a path. -/
theorem dropIdleFront_append {segment : Segment} (nonempty : segment ≠ [])
    (notHere : segment ≠ here) (free : '/' ∉ segment) (cs : List Char) :
    dropIdleFront (segment ++ cs) = segment ++ cs := by
  obtain ⟨c, rest, rfl⟩ := List.exists_cons_of_ne_nil nonempty
  rw [List.mem_cons, not_or] at free
  rw [List.cons_append]
  by_cases dot : c = '.'
  · subst dot
    have more : rest ≠ [] := fun empty => notHere (congrArg (List.cons '.') empty)
    obtain ⟨d, rest, rfl⟩ := List.exists_cons_of_ne_nil more
    have other : d ≠ '/' := fun same => free.2 (same ▸ List.mem_cons_self)
    simp [dropIdleFront, other]
  · simp [dropIdleFront, dot, Ne.symm free.1]

theorem trimEnd_append (nonempty : name ≠ []) (notHere : name ≠ here) (free : '/' ∉ name)
    (front : List Char) : trimEnd (front ++ name) = front ++ name := by
  rw [trimEnd, List.reverse_append, dropIdleFront_append, ← List.reverse_append,
    List.reverse_reverse]
  · exact mt List.reverse_eq_nil_iff.mp nonempty
  · exact mt List.reverse_eq_iff.mp notHere
  · exact mt List.mem_reverse.mp free

/-- The last segment is the file name, unless it stands for a directory. -/
theorem fileName?_of_split {init : List Segment} (pieces : split '/' p = init ++ [name])
    (nonempty : name ≠ []) (notHere : name ≠ here) (notUp : name ≠ up) :
    fileName? p = some name := by
  have free : '/' ∉ name :=
    not_mem_of_mem_split (pieces ▸ List.mem_append_right _ List.mem_cons_self)
  obtain ⟨front, same⟩ : ∃ front, p = front ++ name := by
    rw [← join_split '/' p, pieces]
    by_cases first : init = []
    · exact ⟨[], by rw [first, List.nil_append, join_singleton, List.nil_append]⟩
    · refine ⟨Text.join ['/'] init ++ ['/'], ?_⟩
      rw [join_append first (List.cons_ne_nil _ _), join_singleton, List.append_assoc,
        List.singleton_append]
  have trimmed : trimEnd p = p := same ▸ trimEnd_append nonempty notHere free front
  simp [fileName?, trimmed, pieces, nonempty, notHere, notUp]

/-- A file name is part of its path and has no slash. -/
theorem mem_of_mem_fileName? (found : fileName? p = some name) (inside : c ∈ name) :
    c ∈ p ∧ c ≠ '/' := by
  obtain ⟨segment, _⟩ := of_fileName?_eq_some found
  refine ⟨(trimEnd_front p).subset (mem_of_mem_split segment inside), ?_⟩
  rintro rfl
  exact not_mem_of_mem_split segment inside

/-- The stem and the extension make up the name; without an extension the stem is all of it. -/
theorem stemAndExtension_cases (name : List Char) :
    stemAndExtension name = (name, none) ∨
      ∃ stem extension, stemAndExtension name = (stem, some extension) ∧ stem ≠ [] ∧
        '.' ∉ extension ∧ stem ++ '.' :: extension = name := by
  rw [stemAndExtension]
  split
  next => exact .inl rfl
  next => exact .inl rfl
  next stem extension nonempty found =>
    exact .inr ⟨stem, extension, rfl, nonempty, not_mem_of_splitLast found, splitLast_append found⟩

theorem mem_of_mem_stem (inside : c ∈ stem p) : c ∈ p ∧ c ≠ '/' := by
  rw [stem] at inside
  split at inside
  next => cases inside
  next name found =>
    refine mem_of_mem_fileName? found ?_
    rcases stemAndExtension_cases name with whole | ⟨stem, extension, divided, _, _, same⟩
    · rwa [whole] at inside
    · rw [divided] at inside
      exact same ▸ List.mem_append_left _ inside

theorem mem_of_mem_extension? (found : extension? p = some extension) (inside : c ∈ extension) :
    c ∈ p ∧ c ≠ '/' := by
  obtain ⟨name, isName, atEnd⟩ := Option.bind_eq_some_iff.mp found
  refine mem_of_mem_fileName? isName ?_
  rcases stemAndExtension_cases name with whole | ⟨stem, extension, divided, _, _, same⟩
  · rw [whole] at atEnd
    cases atEnd
  · rw [divided] at atEnd
    cases atEnd
    exact same ▸ List.mem_append_right _ (List.mem_cons_of_mem _ inside)

/-- The extension with the dot before it. -/
def dottedExtension (p : List Char) : List Char :=
  ((extension? p).map fun e => '.' :: e).getD []

/-- A file name is the stem and the extension with its dot; the stem is not empty, and the extension
has no other dot. -/
theorem stem_append_dottedExtension (found : fileName? p = some name) :
    stem p ≠ [] ∧
      (dottedExtension p = [] ∨ ∃ e, dottedExtension p = '.' :: e ∧ '.' ∉ e) ∧
      stem p ++ dottedExtension p = name := by
  rw [dottedExtension, stem, extension?, found]
  dsimp only [Option.bind_some]
  rcases stemAndExtension_cases name with whole | ⟨stem, extension, divided, nonempty, noDot, same⟩
  · rw [whole]
    exact ⟨(of_fileName?_eq_some found).2.1, .inl rfl, List.append_nil name⟩
  · rw [divided]
    exact ⟨nonempty, .inr ⟨extension, rfl, noDot⟩, same⟩

/-- The shapes of the stem and the extension of a path. -/
def shapes (p : List Char) : Shape × Shape :=
  (.of (stem p), .of (dottedExtension p))

theorem shapes_of_fileName?_eq_none (missing : fileName? p = none) :
    shapes p = (.empty, .empty) := by
  rw [shapes, dottedExtension, stem, extension?, missing]
  rfl

theorem shapes_of_fileName?_eq_some (found : fileName? p = some name) :
    shapes p = (.of (stemAndExtension name).1,
      .of (((stemAndExtension name).2.map fun e => '.' :: e).getD [])) := by
  rw [shapes, dottedExtension, stem, extension?, found]
  rfl

/-- One path for each pair of shapes. -/
def samples : List (List Char) :=
  [[], ['a'], ['.', '.', 'a'], ['.', '.', '.'], ['.', '.', '.', 'a'], ['a', '.'], ['a', '.', 'b']]

/-- A stem that is `..` or one dot, too, comes before an extension, but the name is not `..`. -/
theorem exists_sample (p : List Char) : ∃ sample ∈ samples, shapes sample = shapes p := by
  cases found : fileName? p with
  | none =>
    rw [shapes_of_fileName?_eq_none found]
    exact ⟨[], by decide, by decide⟩
  | some name =>
    obtain ⟨_, nonempty, notHere, notUp⟩ := of_fileName?_eq_some found
    rw [shapes_of_fileName?_eq_some found]
    rcases stemAndExtension_cases name with whole | ⟨stem, extension, divided, hasStem, noDot, same⟩
    · have shape : Shape.of name = .name := by
        rcases Shape.of_cases name with ⟨same, _⟩ | ⟨same, _⟩ | ⟨same, _⟩ | ⟨_, shape⟩
        · exact (nonempty same).elim
        · exact (notHere same).elim
        · exact (notUp same).elim
        · exact shape
      rw [whole, shape]
      exact ⟨['a'], by decide, rfl⟩
    · rw [divided]
      dsimp only [Option.map_some, Option.getD_some]
      cases extension with
      | nil =>
        rcases Shape.of_cases stem with ⟨empty, _⟩ | ⟨rfl, _⟩ | ⟨_, shape⟩ | ⟨_, shape⟩
        · exact (hasStem empty).elim
        · exact (notUp same.symm).elim
        · exact ⟨['.', '.', '.'], by decide, by rw [shape]; decide⟩
        · exact ⟨['a', '.'], by decide, by rw [shape]; decide⟩
      | cons c rest =>
        have named : Shape.of ('.' :: c :: rest) = .name := by
          have other : c ≠ '.' := fun same => noDot (same ▸ List.mem_cons_self)
          rw [Shape.of_cons, Shape.of_cons_of_ne other]
          rfl
        rw [named]
        rcases Shape.of_cases stem with ⟨empty, _⟩ | ⟨_, shape⟩ | ⟨_, shape⟩ | ⟨_, shape⟩
        · exact (hasStem empty).elim
        · exact ⟨['.', '.', 'a'], by decide, by rw [shape]; decide⟩
        · exact ⟨['.', '.', '.', 'a'], by decide, by rw [shape]; decide⟩
        · exact ⟨['a', '.', 'b'], by decide, by rw [shape]; decide⟩

end AssetPlan.Path
