import AssetPlan.Proofs.Path.Normal

/-! # Paths that lead back

A path joined to a directory may climb out of it and come back. Climbing leads away from the last
names of the directory, and an absolute path from all of them; the path ends in the directory or
below it exactly if it goes on along these names. Above the start of a relative directory there are
names that no path can know.
-/

namespace AssetPlan.Path

open Text

/-- The way of a path with slashes of one kind only. -/
def Route.along (p : List Char) : Route := (split '/' p).foldl next start

/-- The names of a directory that a path joined to it leads away from, seen from somewhere; the last
of them stands on top. -/
def departed (start : List Segment) (root part : List Char) : List Segment :=
  if isAbsolute part then locate start root
  else (locate start root).take (Route.along part).climbs

/-- The names of a directory that a path joined to it leads away from, if they are all written in
the directory. -/
def departed? (root part : List Char) : Option (List Segment) :=
  if isAbsolute part then
    if isAbsolute root then some (Route.along root).names else none
  else if isAbsolute root = true ∨ (Route.along part).climbs ≤ (Route.along root).names.length then
    some ((Route.along root).names.take (Route.along part).climbs)
  else none

/-- Joined to the directory, the path goes on along the names that it leads away from. -/
def LeadsBack (root part : List Char) : Prop :=
  ∃ names ∈ departed? root part, names <:+ (Route.along part).names

instance (root part : List Char) : Decidable (LeadsBack root part) :=
  inferInstanceAs (Decidable (∃ names ∈ departed? root part, names <:+ (Route.along part).names))

variable {root part dir p : List Char} {start names : List Segment}

theorem locate_eq_endFrom (start : List Segment) (p : List Char) :
    locate start p = (Route.along p).endFrom (if isAbsolute p then [] else start) := by
  rw [locate, Route.along, Route.endFrom_foldl_next]
  rfl

theorem Route.endFrom_nil (r : Route) : r.endFrom [] = r.names := by
  simp [endFrom]

theorem below_zero_iff : Below 0 dir p ↔ ∀ start, locate start dir <:+ locate start p := by
  refine forall_congr' fun start => exists_congr fun names => ?_
  simp [eq_comm]

/-- What is left of a list after its front stands behind the names exactly if the front ends
them. -/
theorem suffix_append_drop_iff {l : List Segment} {n : Nat} :
    l <:+ names ++ l.drop n ↔ l.take n <:+ names := by
  have parts : l.take n ++ l.drop n <:+ names ++ l.drop n ↔ l.take n <:+ names :=
    List.suffix_append_self_iff
  rwa [List.take_append_drop] at parts

/-- Joined to a directory, a path ends in it or below it exactly if, seen from anywhere, it goes on
along the names that it leads away from. -/
theorem below_joinChars_iff_departed :
    Below 0 root (joinChars root part) ↔
      ∀ start, departed start root part <:+ (Route.along part).names := by
  rw [below_zero_iff]
  refine forall_congr' fun start => ?_
  rw [departed]
  cases absolute : isAbsolute part with
  | true =>
    rw [joinChars, if_pos absolute, locate_eq_endFrom start part, absolute, if_pos rfl,
      Route.endFrom_nil, if_pos rfl]
  | false =>
    rw [locate_joinChars absolute, locate_eq_endFrom _ part, absolute,
      if_neg Bool.false_ne_true, if_neg Bool.false_ne_true, Route.endFrom, suffix_append_drop_iff]

/-- The names that are written in the directory are the same seen from anywhere. -/
theorem departed_eq (known : departed? root part = some names) (start : List Segment) :
    departed start root part = names := by
  rw [departed?] at known
  rw [departed, locate_eq_endFrom]
  split at known
  next absolute =>
    split at known
    next rooted =>
      cases known
      rw [if_pos absolute, if_pos rooted, Route.endFrom_nil]
    next => cases known
  next relative =>
    split at known
    next written =>
      cases known
      rw [if_neg relative]
      rcases written with rooted | short
      · rw [if_pos rooted, Route.endFrom_nil]
      · rw [Route.endFrom, List.take_append_of_le_length short]
    next => cases known

/-- From a place of one name more than a relative directory climbs, its location ends in that
name. -/
theorem locate_replicate (relative : isAbsolute root = false) (name : Segment) :
    locate (List.replicate ((Route.along root).climbs + 1) name) root =
      (Route.along root).names ++ [name] := by
  rw [locate_eq_endFrom, relative, if_neg Bool.false_ne_true, Route.endFrom, List.drop_replicate,
    Nat.add_sub_cancel_left, List.replicate_one]

/-- A path that leads above the start of a relative directory leads away from the names there. -/
theorem mem_departed (unknown : departed? root part = none) (name : Segment) :
    name ∈ departed (List.replicate ((Route.along root).climbs + 1) name) root part := by
  rw [departed?] at unknown
  rw [departed]
  split at unknown
  next absolute =>
    split at unknown
    next => cases unknown
    next relative =>
      rw [if_pos absolute, locate_replicate (Bool.eq_false_iff.mpr relative)]
      simp
  next absolute =>
    split at unknown
    next => cases unknown
    next written =>
      obtain ⟨relative, far⟩ := not_or.mp written
      rw [if_neg absolute, locate_replicate (Bool.eq_false_iff.mpr relative), List.take_of_length_le]
      · simp
      · rw [List.length_append, List.length_singleton]
        omega

/-- The names of a way are among the segments of its path. -/
theorem Route.mem_split_of_mem_names {name : Segment} (member : name ∈ (along p).names) :
    name ∈ split '/' p :=
  (names_foldl_next _ _ name member).resolve_left List.not_mem_nil

/-- Joined to a directory, a path ends in it or below it exactly if it leads back. -/
theorem below_joinChars_iff : Below 0 root (joinChars root part) ↔ LeadsBack root part := by
  rw [below_joinChars_iff_departed, LeadsBack]
  cases left : departed? root part with
  | some names => simp [departed_eq left]
  | none =>
    refine iff_of_false (fun back => ?_) (by simp)
    have written := (back _).subset (mem_departed left (freshName part))
    exact freshName_not_mem_split part (Route.mem_split_of_mem_names written)

/-- The paths that lead back into all directories are those that never lead away. -/
theorem forall_leadsBack_iff :
    (∀ root, LeadsBack root part) ↔ isAbsolute part = false ∧ (Route.along part).climbs = 0 := by
  constructor
  · intro back
    -- the empty directory has no names to lead away from
    obtain ⟨names, left, _⟩ := back []
    rw [departed?] at left
    split at left
    next => cases left
    next relative =>
      split at left
      next written =>
        rcases written with rooted | short
        · cases rooted
        · exact ⟨Bool.eq_false_iff.mpr relative, Nat.eq_zero_of_le_zero short⟩
      next => cases left
  · rintro ⟨relative, level⟩ root
    refine ⟨[], ?_, List.nil_suffix⟩
    simp [departed?, relative, level]

/-- A path that never leads away ends below by its names. -/
theorem below_joinChars_of_level (relative : isAbsolute part = false)
    (level : (Route.along part).climbs = 0) (root : List Char) :
    Below (Route.along part).names.length root (joinChars root part) := by
  intro start
  refine ⟨(Route.along part).names, ?_, Nat.le_refl _⟩
  rw [locate_joinChars relative, locate_eq_endFrom _ part, relative, if_neg Bool.false_ne_true,
    Route.endFrom, level, List.drop_zero]

end AssetPlan.Path
