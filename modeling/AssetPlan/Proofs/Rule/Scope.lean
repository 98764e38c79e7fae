import AssetPlan.Proofs.Except
import AssetPlan.Proofs.Path.Scope
import AssetPlan.Rule.Definition

/-! # What scopes admit

The directories of a compiled scope are normal forms that are not empty. If such a directory is
relative and does not climb, exactly those relative paths are in scope that name it or something
below it, seen from anywhere. If it climbs, what is in scope lies in it as well, but for one case:
a directory that only climbs has paths in scope that climb further, and these leave it.
-/

namespace AssetPlan.Definition

open AssetPlan.Path

variable {engine : Engine} {d : Definition} {index : Nat} {rule : Rule} {dir entry p : String}

/-- The directory of a scope entry is the normal form of the entry, if that has segments. -/
theorem scopeDirectory?_eq (entry : String) :
    scopeDirectory? entry =
      if normalSegments entry.toList = [] then none else some (Path.normalize entry) := by
  rw [scopeDirectory?]
  split_ifs with trimmed empty empty
  · rfl
  · rw [withoutTrailingSlashes_normalChars empty, List.isEmpty_iff] at trimmed
    exact (normalChars_ne_nil empty trimmed).elim
  · rw [withoutTrailingSlashes_of_normalSegments_eq_nil empty] at trimmed
    exact (trimmed rfl).elim
  · rw [withoutTrailingSlashes_normalChars empty, Path.normalize]

/-- Each directory of a compiled rule is the normal form of a scope entry, and has a segment. -/
theorem exists_entry_of_compileWith (compiled : d.compileWith engine index = .ok rule)
    (stored : dir ∈ rule.scope) :
    ∃ entry ∈ d.scope, dir = Path.normalize entry ∧ normalSegments entry.toList ≠ [] := by
  obtain ⟨matcher, _, compiled⟩ := Except.bind_eq_ok_iff.mp compiled
  obtain ⟨scope, each, compiled⟩ := Except.bind_eq_ok_iff.mp compiled
  split at compiled
  next => cases compiled
  next =>
    cases compiled
    obtain ⟨entry, member, found⟩ := (Except.forall_mem_of_mapM each).2 dir stored
    refine ⟨entry, member, ?_⟩
    rw [scopeDirectory?_eq] at found
    split_ifs at found with empty
    obtain rfl : Path.normalize entry = dir := Except.ok.inj found
    exact ⟨rfl, empty⟩

/-- A compiled directory that is relative comes from a relative entry. -/
theorem exists_relative_entry (compiled : d.compileWith engine index = .ok rule)
    (stored : dir ∈ rule.scope) (relative : isRelative dir) :
    ∃ entry, dir = Path.normalize entry ∧ isRelative entry ∧ normalSegments entry.toList ≠ [] := by
  obtain ⟨entry, _, rfl, some⟩ := exists_entry_of_compileWith compiled stored
  exact ⟨entry, rfl, by rwa [isRelative_normalize] at relative, some⟩

/-- A path is in a scope directory that does not climb exactly if it lies in the directory, seen
from anywhere. So the spelling of the path makes no difference, and what lies in a sibling whose
name starts with that of the directory is out. -/
theorem isUnder_scope_iff (compiled : d.compileWith engine index = .ok rule)
    (stored : dir ∈ rule.scope) (relative : isRelative dir) (level : climbs dir = 0)
    (relativePath : isRelative p) :
    (isUnder (Path.normalize p) dir = true ↔ ∀ start, LiesIn start dir p) ∧
      (∀ q, isRelative q → (∀ start, location start q = location start p) →
        isUnder (Path.normalize q) dir = isUnder (Path.normalize p) dir) ∧
      ∀ (more : String) (start : List Segment), more ≠ "" → '/' ∉ more.toList →
        '\\' ∉ more.toList → LiesIn start (dir ++ more) p →
          isUnder (Path.normalize p) dir = false := by
  obtain ⟨entry, rfl, relativeEntry, some⟩ := exists_relative_entry compiled stored relative
  have inside := isUnder_normalize_iff_liesIn relativePath relativeEntry some level
  refine ⟨inside, ?_, ?_⟩
  · intro q relative' same
    rw [(normalize_eq_iff relative' relativePath).mpr same]
  · intro more start longer free free' sibling
    have named := names_ne_nil level relativeEntry some
    rw [Bool.eq_false_iff]
    intro under
    exact not_liesIn_of_sibling relativeEntry named longer free free' sibling
      (inside.mp under start)

/-- An entry and a path in spellings of their own, and a path in a sibling with a longer name. -/
theorem isUnder_scope_iff_assets :
    ∃ rule, ({ contains := some "", scope := ["./src//assets/"] } : Definition).compileWith
        patternEngine 0 = .ok rule ∧
      "src/assets" ∈ rule.scope ∧ isRelative "src/assets" ∧ climbs "src/assets" = 0 ∧
      (∀ start, LiesIn start "src/assets" "src\\x/..//./assets/a.png") ∧
      LiesIn [] ("src/assets" ++ "-old") "src/./assets-old/a.png" ∧
      isUnder (Path.normalize "src/./assets-old/a.png") "src/assets" = false := by
  let rule : Rule := { matcher := .contains "", scope := ["src/assets"] }
  have compiled : ({ contains := some "", scope := ["./src//assets/"] } : Definition).compileWith
      patternEngine 0 = .ok rule := rfl
  have stored : "src/assets" ∈ rule.scope := List.mem_singleton.mpr rfl
  have relative : isRelative "src/assets" := by decide
  have level : climbs "src/assets" = 0 := by decide
  have under : isUnder (Path.normalize "src\\x/..//./assets/a.png") "src/assets" = true := by decide
  have sibling : LiesIn [] ("src/assets" ++ "-old") "src/./assets-old/a.png" := by
    unfold LiesIn
    decide
  refine ⟨rule, compiled, stored, relative, level, ?_, sibling, ?_⟩
  · exact (isUnder_scope_iff compiled stored relative level (by decide)).1.mp under
  · exact (isUnder_scope_iff compiled stored relative level (by decide)).2.2 "-old" []
      (by decide) (by decide) (by decide) sibling

/-- What is in a scope directory climbs alike and lies in it, seen from anywhere, or it climbs
further, seen from somewhere it leaves the directory, and the directory only climbs. So scope
directories are sound exactly if they do not only climb. -/
theorem isUnder_scope_iff_climbs (compiled : d.compileWith engine index = .ok rule)
    (stored : dir ∈ rule.scope) (relative : isRelative dir) :
    (∀ p, isRelative p →
      (isUnder (Path.normalize p) dir = true ↔
        climbs (Path.normalize p) = climbs dir ∧ (∀ start, LiesIn start dir p) ∨
        climbs dir < climbs (Path.normalize p) ∧ climbsOnly dir) ∧
      (climbs dir < climbs (Path.normalize p) →
        ∃ start, climbs (Path.normalize p) ≤ start.length ∧ ¬ LiesIn start dir p)) ∧
    ((∀ p, isRelative p → isUnder (Path.normalize p) dir = true →
        climbs (Path.normalize p) ≤ climbs dir ∧ ∀ start, LiesIn start dir p) ↔
      ¬ climbsOnly dir) := by
  obtain ⟨entry, rfl, relativeEntry, some⟩ := exists_relative_entry compiled stored relative
  have under (p : String) (relativePath : isRelative p) :=
    isUnder_normalize_iff_climbs relativePath relativeEntry some
  refine ⟨fun p relativePath => ⟨under p relativePath,
    exists_not_liesIn relativePath relativeEntry⟩, ?_⟩
  constructor
  · intro sound only
    obtain ⟨further, admitted⟩ := isUnder_normalize_climb relativeEntry some only
    have relativeMore := isRelative_normalize_append relativeEntry some "/.."
    exact absurd (sound _ relativeMore admitted).1 (Nat.not_le.mpr further)
  · intro named p relativePath admitted
    rcases (under p relativePath).mp admitted with ⟨alike, inside⟩ | ⟨_, only⟩
    · exact ⟨alike.le, inside⟩
    · exact absurd only named

/-- A directory that climbs to a name is sound. -/
theorem isUnder_scope_iff_climbs_lib :
    ∃ rule, ({ contains := some "", scope := ["..\\lib"] } : Definition).compileWith
        patternEngine 0 = .ok rule ∧
      "../lib" ∈ rule.scope ∧ isRelative "../lib" ∧ 0 < climbs "../lib" ∧
      (∀ start, LiesIn start "../lib" "src/../../lib/a.png") ∧
      ∀ p, isRelative p → isUnder (Path.normalize p) "../lib" = true →
        climbs (Path.normalize p) ≤ climbs "../lib" ∧ ∀ start, LiesIn start "../lib" p := by
  let rule : Rule := { matcher := .contains "", scope := ["../lib"] }
  have compiled : ({ contains := some "", scope := ["..\\lib"] } : Definition).compileWith
      patternEngine 0 = .ok rule := rfl
  have stored : "../lib" ∈ rule.scope := List.mem_singleton.mpr rfl
  have relative : isRelative "../lib" := by decide
  have named : ¬ climbsOnly "../lib" := by
    unfold climbsOnly
    decide
  have sound := (isUnder_scope_iff_climbs compiled stored relative).2.mpr named
  exact ⟨rule, compiled, stored, relative, by decide,
    (sound "src/../../lib/a.png" (by decide) (by decide)).2, sound⟩

/-- A path that climbs further than a directory that only climbs is in scope, and lies outside. -/
theorem isUnder_scope_parent :
    ∃ rule, ({ contains := some "", scope := [".."] } : Definition).compileWith
        patternEngine 0 = .ok rule ∧
      ".." ∈ rule.scope ∧ isRelative ".." ∧ 0 < climbs ".." ∧
      isRelative "../../a.png" ∧ isUnder (Path.normalize "../../a.png") ".." = true ∧
      climbs ".." < climbs (Path.normalize "../../a.png") ∧
      climbs (Path.normalize "../../a.png") ≤ [['b'], ['a']].length ∧
      ¬ LiesIn [['b'], ['a']] ".." "../../a.png" := by
  refine ⟨_, rfl, List.mem_singleton.mpr rfl, by decide, by decide, by decide, by decide,
    by decide, by decide, ?_⟩
  unfold LiesIn
  decide

end AssetPlan.Definition
