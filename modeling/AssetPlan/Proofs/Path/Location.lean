import AssetPlan.Path.Parts
import AssetPlan.Proofs.Text.Split

/-! # The location a path names

A directory is the stack of its names, the deepest on top. Seen from a directory, a path names the
location its segments lead to one by one; `..` takes away the name on top, and the root has none.
Joined to a directory, a path that is relative and never leads above its start stays below that
directory, and no other path stays below all directories.
-/

namespace AssetPlan.Path

open Text

/-- The directory that a segment leads to. -/
def enter (dir : List Segment) (segment : Segment) : List Segment :=
  if segment = [] ∨ segment = here then dir
  else if segment = up then dir.tail
  else segment :: dir

/-- The location that a path names seen from a directory. -/
def locate (start : List Segment) (p : List Char) : List Segment :=
  (split '/' p).foldl enter (if isAbsolute p then [] else start)

/-- Seen from anywhere, `p` names a location at least `n` names below that of `dir`. -/
def Below (n : Nat) (dir p : List Char) : Prop :=
  ∀ start, ∃ names, locate start p = names ++ locate start dir ∧ n ≤ names.length

/-- The depth below the start after one more segment; none above the start. -/
def descend (depth : Nat) (segment : Segment) : Option Nat :=
  if segment = [] ∨ segment = here then some depth
  else if segment = up then
    match depth with
    | 0 => none
    | depth + 1 => some depth
  else some (depth + 1)

/-- How deep below its start a path ends, if it is relative and never leads above the start. -/
def depth? (p : List Char) : Option Nat :=
  if isAbsolute p then none else (split '/' p).foldlM descend 0

/-- The path ends at least `n` names below its start and never leads above it. -/
def staysBelow (n : Nat) (p : List Char) : Bool :=
  (depth? p).any (n ≤ ·)

variable {start dir names : List Segment} {segment : Segment} {segments : List Segment}
  {base part p : List Char} {depth : Nat}

theorem locate_of_isAbsolute (absolute : isAbsolute p = true) (start : List Segment) :
    locate start p = (split '/' p).foldl enter [] := by
  rw [locate, if_pos absolute]

theorem locate_of_relative (relative : isAbsolute p = false) (start : List Segment) :
    locate start p = (split '/' p).foldl enter start := by
  rw [locate, if_neg (by simp [relative])]

/-- After a slash the path goes on from where it is. -/
theorem locate_append_slash (nonempty : base ≠ []) (part : List Char) (start : List Segment) :
    locate start (base ++ '/' :: part) = (split '/' part).foldl enter (locate start base) := by
  have same : isAbsolute (base ++ '/' :: part) = isAbsolute base := by
    obtain ⟨c, rest, rfl⟩ := List.exists_cons_of_ne_nil nonempty
    rfl
  rw [locate, same, split_append_sep, List.foldl_append, locate]

/-- A slash at the end of a path leads nowhere. -/
theorem locate_append_slash_end (nonempty : base ≠ []) (start : List Segment) :
    locate start (base ++ ['/']) = locate start base :=
  locate_append_slash nonempty [] start

/-- A relative part goes on from the base. -/
theorem locate_joinChars (relative : isAbsolute part = false) (base : List Char)
    (start : List Segment) :
    locate start (joinChars base part) = locate (locate start base) part := by
  rw [joinChars, if_neg (by simp [relative]), locate_of_relative relative (locate start base)]
  by_cases empty : base = []
  · subst empty
    exact locate_of_relative relative start
  split
  next marked =>
    have last : base.getLast? = some '/' := by simpa [empty] using marked
    obtain ⟨front, rfl⟩ := List.getLast?_eq_some_iff.mp last
    rw [List.append_assoc, List.singleton_append]
    by_cases root : front = []
    · subst root
      rfl
    · rw [locate_append_slash root, locate_append_slash_end root]
  next => exact locate_append_slash empty part start

/-- One step: below the start, a segment that does not lead above it changes the names below
only. -/
theorem enter_append (below : descend names.length segment = some depth) (dir : List Segment) :
    enter (names ++ dir) segment = enter names segment ++ dir ∧
      (enter names segment).length = depth := by
  unfold descend at below
  unfold enter
  split at below
  next idle => simp_all
  next =>
    split at below
    next =>
      cases names with
      | nil => cases below
      | cons top names => simp_all
    next => simp_all

/-- Segments that never lead above the start change the names below only. -/
theorem foldl_enter_append (names : List Segment)
    (below : segments.foldlM descend names.length = some depth) (dir : List Segment) :
    segments.foldl enter (names ++ dir) = segments.foldl enter names ++ dir ∧
      (segments.foldl enter names).length = depth := by
  induction segments generalizing names with
  | nil =>
    cases below
    exact ⟨rfl, rfl⟩
  | cons segment rest ih =>
    rw [List.foldlM_cons] at below
    obtain ⟨next, first, later⟩ := Option.bind_eq_some_iff.mp below
    obtain ⟨same, length⟩ := enter_append first dir
    rw [List.foldl_cons, List.foldl_cons, same]
    exact ih _ (length ▸ later)

/-- Joined to a directory, a path with a depth leads that deep below the directory. -/
theorem locate_joinChars_of_depth? (known : depth? part = some depth) (base : List Char)
    (start : List Segment) :
    ∃ names, locate start (joinChars base part) = names ++ locate start base ∧
      names.length = depth := by
  rw [depth?] at known
  split at known
  next => cases known
  next absolute =>
    have relative := Bool.eq_false_iff.mpr absolute
    obtain ⟨same, length⟩ := foldl_enter_append [] known (locate start base)
    refine ⟨(split '/' part).foldl enter [], ?_, length⟩
    rw [locate_joinChars relative, locate_of_relative relative]
    exact same

theorem below_joinChars {n : Nat} (stays : staysBelow n part = true) (base : List Char) :
    Below n base (joinChars base part) := fun start => by
  rw [staysBelow] at stays
  cases known : depth? part with
  | none =>
    rw [known] at stays
    cases stays
  | some depth =>
    obtain ⟨names, same, rfl⟩ := locate_joinChars_of_depth? known base start
    exact ⟨names, same, by simpa [known] using stays⟩

/-- The names of a location come from the start or from the path. -/
theorem mem_of_mem_foldl_enter (member : segment ∈ segments.foldl enter dir) :
    segment ∈ dir ∨ segment ∈ segments := by
  induction segments generalizing dir with
  | nil => exact .inl member
  | cons first rest ih =>
    rcases ih member with entered | later
    · unfold enter at entered
      split at entered
      next => exact .inl entered
      next =>
        split at entered
        next => exact .inl (List.mem_of_mem_tail entered)
        next =>
          rcases List.mem_cons.mp entered with rfl | earlier
          · exact .inr List.mem_cons_self
          · exact .inl earlier
    · exact .inr (List.mem_cons_of_mem _ later)

/-- A segment that leads above the start is `..` at the start itself. -/
theorem descend_eq_none_iff : descend depth segment = none ↔ depth = 0 ∧ segment = up := by
  unfold descend
  split
  next idle => rcases idle with rfl | rfl <;> simp [up, here]
  next =>
    split
    next => cases depth <;> simp_all
    next other => simp [other]

/-- Segments that lead above the directory they start in do not lead back into it without its
name. -/
theorem not_mem_foldl_enter (names : List Segment)
    (above : segments.foldlM descend names.length = none) {fresh : Segment}
    (other : fresh ∉ segments) :
    fresh ∉ segments.foldl enter (names ++ [fresh]) := by
  induction segments generalizing names with
  | nil => cases above
  | cons segment rest ih =>
    rw [List.mem_cons, not_or] at other
    rw [List.foldlM_cons] at above
    rw [List.foldl_cons]
    cases first : descend names.length segment with
    | none =>
      obtain ⟨empty, rfl⟩ := descend_eq_none_iff.mp first
      obtain rfl := List.eq_nil_of_length_eq_zero empty
      exact fun member => (mem_of_mem_foldl_enter member).elim List.not_mem_nil other.2
    | some depth =>
      obtain ⟨same, length⟩ := enter_append first [fresh]
      rw [first] at above
      rw [same]
      exact ih _ (length ▸ above) other.2

/-- A name that is longer than every segment of a path. -/
def freshName (p : List Char) : Segment :=
  List.replicate (p.length + 1) 'a'

theorem freshName_not_mem_split (p : List Char) : freshName p ∉ split '/' p := fun member => by
  have short := length_le_of_mem_split member
  rw [freshName, List.length_replicate] at short
  exact Nat.not_succ_le_self _ short

theorem isAbsolute_freshName (p : List Char) : isAbsolute (freshName p) = false := rfl

theorem locate_freshName (p : List Char) (start : List Segment) :
    locate start (freshName p) = freshName p :: start := by
  have free : '/' ∉ freshName p := fun member => by
    cases List.eq_of_mem_replicate member
  have other : ∀ segment ∈ [[], here, up], freshName p ≠ segment := by
    simp [freshName, here, up, List.replicate_succ]
  rw [locate_of_relative (isAbsolute_freshName p), split_of_not_mem free, List.foldl_cons,
    List.foldl_nil, enter, if_neg, if_neg] <;> simp_all

/-- Joined to a directory of a fresh name, a path without a depth leaves it. -/
theorem freshName_not_mem_locate (unknown : depth? part = none) :
    freshName part ∉ locate [] (joinChars (freshName part) part) := by
  have other := freshName_not_mem_split part
  rw [depth?] at unknown
  split at unknown
  next absolute =>
    rw [joinChars, if_pos absolute, locate_of_isAbsolute absolute]
    exact fun member => (mem_of_mem_foldl_enter member).elim List.not_mem_nil other
  next absolute =>
    have relative := Bool.eq_false_iff.mpr absolute
    rw [locate_joinChars relative, locate_freshName, locate_of_relative relative]
    exact not_mem_foldl_enter [] unknown other

/-- Joined to a directory of a fresh name, a path that does not stay below its start does not stay
below that directory. -/
theorem not_below_joinChars {n : Nat} (leaves : staysBelow n part = false) :
    ¬ Below n (freshName part) (joinChars (freshName part) part) := fun below => by
  obtain ⟨names, same, deep⟩ := below []
  rw [staysBelow] at leaves
  cases known : depth? part with
  | none =>
    refine freshName_not_mem_locate known ?_
    rw [same, locate_freshName]
    exact List.mem_append_right _ List.mem_cons_self
  | some depth =>
    obtain ⟨names', same', length⟩ := locate_joinChars_of_depth? known (freshName part) []
    obtain rfl : names = names' := List.append_cancel_right (same.symm.trans same')
    simp [known, ← length, deep] at leaves

end AssetPlan.Path
