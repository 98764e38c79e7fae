import AssetPlan.Proofs.Path.Normal

/-! # Canonical paths

A path is canonical if it is an optional slash and segments with single slashes between them, where
each segment stands for something and `..` stands behind `..` only. Then no segment takes another
one away, so a canonical path is its own normal form, and normal forms are canonical.
-/

namespace AssetPlan.Path

open Text

variable {p : List Char} {segment : Segment} {stack segments : List Segment}

/-- An optional slash, and segments with single slashes between them. Each segment stands for
something and has no slash of either kind, and before a `..` there is nothing else. -/
def IsCanonical (p : List Char) : Prop :=
  ∃ segments : List Segment,
    (p = Text.join ['/'] segments ∨ p = '/' :: Text.join ['/'] segments) ∧
    (∀ segment ∈ segments, segment ≠ [] ∧ segment ≠ here ∧ '/' ∉ segment ∧ '\\' ∉ segment) ∧
    segments.Pairwise fun earlier later => later = up → earlier = up

/-- A segment is added if it stands for something and has no name to take away. -/
theorem keep_eq_cons (some : segment ≠ [] ∧ segment ≠ here)
    (climbing : segment = up → ∀ earlier ∈ stack, earlier = up) :
    keep stack segment = segment :: stack := by
  rw [keep.eq_def, if_neg (not_or.mpr some)]
  split
  next climb =>
    subst climb
    cases stack with
    | nil => rfl
    | cons top below => simp [climbing rfl top]
  next => rfl

/-- All segments are kept if none before a climb is a name; the induction moves them from the text
to the stack, in whose order before the rest of the text this remains true. -/
theorem foldl_keep_eq (some : ∀ segment ∈ segments, segment ≠ [] ∧ segment ≠ here)
    (climbing : (stack.reverse ++ segments).Pairwise fun earlier later =>
      later = up → earlier = up) :
    segments.foldl keep stack = segments.reverse ++ stack := by
  induction segments generalizing stack with
  | nil => rfl
  | cons segment rest ih =>
    obtain ⟨first, later⟩ := List.forall_mem_cons.mp some
    have before : segment = up → ∀ earlier ∈ stack, earlier = up := by
      intro climb earlier member
      have order := (List.pairwise_append.mp climbing).2.2
      exact order earlier (List.mem_reverse.mpr member) segment List.mem_cons_self climb
    rw [List.foldl_cons, keep_eq_cons first before, ih later]
    · simp
    · simpa using climbing

/-- Segments that are all kept are those of the normal form. -/
theorem normalSegments_join
    (settled : ∀ segment ∈ segments,
      segment ≠ [] ∧ segment ≠ here ∧ '/' ∉ segment ∧ '\\' ∉ segment)
    (climbing : segments.Pairwise fun earlier later => later = up → earlier = up) :
    normalSegments (Text.join ['/'] segments) = segments := by
  by_cases empty : segments = []
  · subst empty
    rfl
  have slashes : slashed (Text.join ['/'] segments) = Text.join ['/'] segments :=
    slashed_join fun segment member => (settled segment member).2.2.2
  have divided : split '/' (Text.join ['/'] segments) = segments :=
    split_join empty fun segment member => (settled segment member).2.2.1
  have some : ∀ segment ∈ segments, segment ≠ [] ∧ segment ≠ here :=
    fun segment member => ⟨(settled segment member).1, (settled segment member).2.1⟩
  have all : segments.foldl keep [] = segments.reverse ++ [] := foldl_keep_eq some climbing
  rw [normalSegments, slashes, divided, all, List.append_nil, List.reverse_reverse]

/-- A slash at the front adds no segment. -/
theorem normalSegments_slash (p : List Char) : normalSegments ('/' :: p) = normalSegments p := by
  have front : split '/' (slashed ('/' :: p)) = [] :: split '/' (slashed p) := rfl
  have start : keep [] [] = [] := rfl
  rw [normalSegments, front, List.foldl_cons, start, normalSegments]

/-- A canonical path is its own normal form. -/
theorem normalChars_of_isCanonical (canonical : IsCanonical p) : normalChars p = p := by
  obtain ⟨segments, rfl | rfl, settled, climbing⟩ := canonical
  · have relative : isAbsolute (slashed (Text.join ['/'] segments)) = false := by
      rw [slashed_join fun segment member => (settled segment member).2.2.2]
      apply isAbsolute_join
      intro segment member
      exact ⟨(settled segment member).1, (settled segment member).2.2.1⟩
    rw [normalChars_of_relative relative, normalSegments_join settled climbing]
  · have absolute : isAbsolute (slashed ('/' :: Text.join ['/'] segments)) = true := rfl
    rw [normalChars_of_absolute absolute, normalSegments_slash, normalSegments_join settled climbing]

theorem isCanonical_normalChars (p : List Char) : IsCanonical (normalChars p) := by
  refine ⟨normalSegments p, ?_, fun segment => of_mem_normalSegments, ?_⟩
  · cases absolute : isAbsolute (slashed p) with
    | false => exact .inl (normalChars_of_relative absolute)
    | true => exact .inr (normalChars_of_absolute absolute)
  · rw [← Route.segments_of, Route.segments_eq, List.pairwise_append]
    refine ⟨?_, ?_, ?_⟩
    · simp [List.pairwise_replicate]
    · apply List.pairwise_of_forall_mem_list
      intro earlier _ later member climb
      exact (((Route.of p).named later (List.mem_reverse.mp member)).2.2 climb).elim
    · intro earlier climb later _ _
      exact List.eq_of_mem_replicate climb

/-- The paths that are their own normal form are the canonical ones. -/
theorem normalChars_eq_self_iff : normalChars p = p ↔ IsCanonical p :=
  ⟨fun same => same ▸ isCanonical_normalChars p, normalChars_of_isCanonical⟩

theorem normalize_eq_self_iff {p : String} : normalize p = p ↔ IsCanonical p.toList := by
  rw [← normalChars_eq_self_iff, normalize, ← String.toList_inj, String.toList_ofList]

/-- The segments of a canonical path have no backslashes exactly if the path has none. -/
theorem isCanonical_iff : IsCanonical p ↔
    '\\' ∉ p ∧ ∃ segments : List Segment,
      (p = Text.join ['/'] segments ∨ p = '/' :: Text.join ['/'] segments) ∧
      (∀ segment ∈ segments, segment ≠ [] ∧ segment ≠ here ∧ '/' ∉ segment) ∧
      segments.Pairwise fun earlier later => later = up → earlier = up := by
  constructor
  · intro canonical
    have slashes : '\\' ∉ p := by
      rw [← normalChars_of_isCanonical canonical, ← slashed_normalChars]
      exact not_mem_slashed _
    obtain ⟨segments, spelled, settled, climbing⟩ := canonical
    refine ⟨slashes, segments, spelled, fun segment member => ?_, climbing⟩
    obtain ⟨nonempty, notHere, free, _⟩ := settled segment member
    exact ⟨nonempty, notHere, free⟩
  · rintro ⟨slashes, segments, spelled, settled, climbing⟩
    refine ⟨segments, spelled, fun segment member => ?_, climbing⟩
    obtain ⟨nonempty, notHere, free⟩ := settled segment member
    refine ⟨nonempty, notHere, free, fun bad => slashes ?_⟩
    have inside : '\\' ∈ Text.join ['/'] segments := mem_join_of_mem member bad
    rcases spelled with rfl | rfl
    · exact inside
    · exact List.mem_cons_of_mem _ inside

/-- A path is the normal form of some path exactly if it is its own normal form, and exactly if it
has no backslash and is an optional slash and segments with single slashes between them, none of
them empty or `.`, and no `..` behind another segment. -/
theorem exists_normalize_eq_iff (s : String) :
    ((∃ p, s = normalize p) ↔ normalize s = s) ∧
    (normalize s = s ↔
      '\\' ∉ s.toList ∧ ∃ segments : List Segment,
        (s.toList = Text.join ['/'] segments ∨ s.toList = '/' :: Text.join ['/'] segments) ∧
        (∀ segment ∈ segments, segment ≠ [] ∧ segment ≠ here ∧ '/' ∉ segment) ∧
        segments.Pairwise fun earlier later => later = up → earlier = up) ∧
    normalize (normalize s) = normalize s := by
  refine ⟨⟨?_, fun same => ⟨s, same.symm⟩⟩, ?_, normalize_normalize s⟩
  · rintro ⟨p, rfl⟩
    exact normalize_normalize p
  · rw [normalize_eq_self_iff, isCanonical_iff]

end AssetPlan.Path
