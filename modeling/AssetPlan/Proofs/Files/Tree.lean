import AssetPlan.Files.Tree
import AssetPlan.Proofs.Rule.Confinement

/-! # Paths in a file tree

Walking along a path takes its segments one by one and fails at the first that is missing. Where it
does not fail, it ends at the location that the path names seen from the working directory, so paths
to one location lead to one node. A table that passes in a tree has every required directory there:
at the location of its entry, and below that of the root if the entry leads back into the root.
-/

namespace AssetPlan

namespace FileTree

variable {t : FileTree} {place next : List String} {path : String}

/-- A place of a tree as a location. -/
def location (place : List String) : List Path.Segment := place.map String.toList

theorem location_enter {segment : String} (entered : t.enter place segment = .ok next) :
    location next = Path.enter (location place) segment.toList := by
  have spelled (s : String) : segment.toList = s.toList ↔ segment = s := String.toList_inj
  have idle : segment.toList = [] ∨ segment.toList = Path.here ↔ segment = "" ∨ segment = "." :=
    or_congr (spelled "") (spelled ".")
  have above : segment.toList = Path.up ↔ segment = ".." := spelled ".."
  simp only [Path.enter, idle, above]
  unfold enter at entered
  split at entered
  next => cases entered
  next entries _ =>
    split_ifs at entered ⊢
    · cases entered
      rfl
    · cases entered
      rw [List.drop_one, location, List.map_tail]
      rfl
    · cases entered
      rfl

theorem location_foldlM {segments : List String}
    (walked : segments.foldlM t.enter place = .ok next) :
    location next = (segments.map String.toList).foldl Path.enter (location place) := by
  induction segments generalizing place with
  | nil =>
    cases walked
    rfl
  | cons segment rest ih =>
    rw [List.foldlM_cons] at walked
    obtain ⟨middle, entered, later⟩ := Except.bind_eq_ok_iff.mp walked
    rw [List.map_cons, List.foldl_cons, ← location_enter entered]
    exact ih later

/-- A path that can be walked along leads to the location it names. -/
theorem location_walk (walked : t.walk path = .ok place) :
    location place = Path.locate (location working) path.toList := by
  obtain ⟨⟨origin, segments⟩, started, walked⟩ := Except.bind_eq_ok_iff.mp walked
  unfold start at started
  split_ifs at started with _ _ _ absolute
  all_goals
    cases started
    rw [location_foldlM walked, List.map_map, Path.locate, Path.isAbsolute]
    simp [absolute, location, Function.comp_def]

/-- Paths to one location lead to one node. -/
theorem node?_unique {p q : String} {node node' : FileNode}
    (same : Path.locate (location working) p.toList = Path.locate (location working) q.toList)
    (found : t.node? p = some node) (found' : t.node? q = some node') : node = node' := by
  unfold node? at found found'
  split at found
  next place walked =>
    split at found'
    next place' walked' =>
      rw [← location_walk walked, ← location_walk walked'] at same
      have spelled : Function.Injective String.toList := fun _ _ => String.toList_inj.mp
      obtain rfl : place = place' := List.map_injective_iff.mpr spelled same
      cases found
      cases found'
      rfl
    next => cases found'
  next => cases found

theorem isDir_eq_true_iff : t.isDir path = true ↔
    ∃ place, t.walk path = .ok place ∧ (t.nodeAt place).isDirectory = true := by
  rw [isDir, node?]
  cases t.walk path <;> simp

end FileTree

namespace RuleTable

open FileTree (location working)
open AssetPlan.Path (LeadsBack locate)

/-- A table that passes in a tree has a directory there at the location of each entry that may not
be absent, and it is the root or lies below it if the entry leads back into the root. -/
theorem exists_directory_of_checkScopes {table : RuleTable} {t : FileTree} {root : String}
    (passes : (table.checkScopes t.isDir root).result = .ok ()) {rule : Rule}
    (inTable : rule ∈ table) (required : rule.optionalScope = false) {entry : String}
    (stored : entry ∈ rule.scope) :
    ∃ place, (t.nodeAt place).isDirectory = true ∧
      location place = locate (location working) (Path.join root entry).toList ∧
      (LeadsBack root.toList entry.toList →
        locate (location working) root.toList <:+ location place) := by
  have present := result_checkScopes_eq_ok_iff.mp passes rule inTable required entry stored
  obtain ⟨place, walked, directory⟩ := FileTree.isDir_eq_true_iff.mp present
  refine ⟨place, directory, FileTree.location_walk walked, fun back => ?_⟩
  rw [FileTree.location_walk walked]
  exact Path.below_zero_iff.mp (below_join_iff.mpr back) _

end RuleTable

end AssetPlan
