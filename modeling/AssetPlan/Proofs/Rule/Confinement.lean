import AssetPlan.Proofs.Path.Return
import AssetPlan.Proofs.Rule.Compilation
import AssetPlan.Proofs.Rule.Presence

/-! # Checked directories and the root

The directories that the check of a table looks for are the scope entries joined to a root. Nothing
keeps an entry from climbing or from starting at a root of its own, so a table may pass with a
directory that lies beside the root. An entry stays inside a given root if it leads back into it,
and inside all roots if it is relative and does not climb.
-/

namespace AssetPlan.RuleTable

open AssetPlan.Path (Below LeadsBack Route climbs isRelative normalSegments)
open Definition (Engine)

variable {engine : Engine} {defs : List Definition} {table : RuleTable} {rule : Rule}
  {entry dir root : String}

/-- Whenever the table passes, the directories that were looked for are the root or lie below it. -/
def ChecksBelow (table : RuleTable) : Prop :=
  ∀ isDir root, (table.checkScopes isDir root).result = .ok () →
    ∀ rule ∈ table, rule.optionalScope = false → ∀ entry ∈ rule.scope,
      Below 0 root.toList (Path.join root entry).toList

theorem below_join_iff :
    Below 0 root.toList (Path.join root dir).toList ↔ LeadsBack root.toList dir.toList := by
  rw [Path.join, String.toList_ofList, Path.below_joinChars_iff]

/-- The rules of a compiled table come from definitions. -/
theorem exists_definition (compiled : compileFrom engine 0 defs = .ok table)
    (inTable : rule ∈ table) :
    ∃ (d : Definition) (index : Nat), d.compileWith engine index = .ok rule := by
  obtain ⟨length, each⟩ := getElem?_of_compileFrom compiled
  obtain ⟨i, inside, rfl⟩ := List.mem_iff_getElem.mp inTable
  obtain ⟨rule, stands, first⟩ := each i _ (List.getElem?_eq_getElem (length ▸ inside))
  obtain ⟨_, rfl⟩ := List.getElem?_eq_some_iff.mp stands
  exact ⟨_, _, first⟩

theorem along_normalize (entry : String) :
    Route.along (Path.normalize entry).toList = Route.of entry.toList := by
  have same : Route.of (Path.normalChars entry.toList) =
      Route.along (Path.slashed (Path.normalChars entry.toList)) := rfl
  rw [Path.normalize, String.toList_ofList, ← Route.of_normalChars, same, Path.slashed_normalChars]

theorem isAbsolute_normalize_iff (entry : String) :
    Path.isAbsolute (Path.normalize entry).toList = false ↔ isRelative (Path.normalize entry) := by
  rw [Path.isRelative_normalize, isRelative, Bool.not_eq_true', Path.normalize,
    String.toList_ofList, Path.isAbsolute_normalChars]

/-- An entry stays inside all roots exactly if it is relative and does not climb. -/
theorem forall_below_join_iff (entry : String) :
    (∀ root, Below 0 root.toList (Path.join root (Path.normalize entry)).toList) ↔
      isRelative (Path.normalize entry) ∧ climbs (Path.normalize entry) = 0 := by
  have roots : (∀ root : String, LeadsBack root.toList (Path.normalize entry).toList) ↔
      ∀ root, LeadsBack root (Path.normalize entry).toList := by
    refine ⟨fun back root => ?_, fun back root => back root.toList⟩
    simpa using back (String.ofList root)
  simp only [below_join_iff]
  rw [roots, Path.forall_leadsBack_iff, isAbsolute_normalize_iff, along_normalize]
  refine and_congr_right fun relative => ?_
  rw [Path.isRelative_normalize] at relative
  rw [Path.climbs_normalize relative]

/-- An entry that is relative and does not climb has a name, so it leads below the root. -/
theorem below_join_of_level (some : normalSegments entry.toList ≠ [])
    (relative : isRelative (Path.normalize entry)) (level : climbs (Path.normalize entry) = 0)
    (root : String) : Below 1 root.toList (Path.join root (Path.normalize entry)).toList := by
  have relativeEntry : isRelative entry := Path.isRelative_normalize entry ▸ relative
  have named := Path.names_ne_nil level relativeEntry some
  rw [Path.climbs_normalize relativeEntry, ← along_normalize] at level
  intro start
  rw [Path.join, String.toList_ofList]
  obtain ⟨names, same, deep⟩ := Path.below_joinChars_of_level
    ((isAbsolute_normalize_iff entry).mpr relative) level root.toList start
  rw [along_normalize] at deep
  have one : 1 ≤ (Route.of entry.toList).names.length := List.length_pos_of_ne_nil named
  exact ⟨names, same, one.trans deep⟩

/-- In a table that passes, the directory of an entry that may not be absent is the root or lies
below it exactly if the entry leads back into the root. So passing vouches for all roots exactly if
no such entry is absolute or climbs, and then the directories lie below the root. -/
theorem checked_below_iff (compiled : compileFrom engine 0 defs = .ok table) :
    (∀ isDir root, (table.checkScopes isDir root).result = .ok () →
      ∀ rule ∈ table, rule.optionalScope = false → ∀ entry ∈ rule.scope,
        isDir (Path.join root entry) = true ∧
        (Below 0 root.toList (Path.join root entry).toList ↔
          LeadsBack root.toList entry.toList) ∧
        (isRelative entry → climbs entry = 0 →
          Below 1 root.toList (Path.join root entry).toList)) ∧
    (table.ChecksBelow ↔ ∀ rule ∈ table, rule.optionalScope = false → ∀ entry ∈ rule.scope,
      isRelative entry ∧ climbs entry = 0) := by
  have written (rule : Rule) (inTable : rule ∈ table) (dir : String) (stored : dir ∈ rule.scope) :
      ∃ entry, dir = Path.normalize entry ∧ normalSegments entry.toList ≠ [] := by
    obtain ⟨d, index, first⟩ := exists_definition compiled inTable
    obtain ⟨entry, _, same, some⟩ := Definition.exists_entry_of_compileWith first stored
    exact ⟨entry, same, some⟩
  refine ⟨?_, ?_, ?_⟩
  · intro isDir root passes rule inTable required dir stored
    refine ⟨result_checkScopes_eq_ok_iff.mp passes rule inTable required dir stored,
      below_join_iff, ?_⟩
    obtain ⟨entry, rfl, some⟩ := written rule inTable dir stored
    exact fun relative level => below_join_of_level some relative level root
  · intro below rule inTable required dir stored
    obtain ⟨entry, rfl, _⟩ := written rule inTable dir stored
    refine (forall_below_join_iff entry).mp fun root => ?_
    -- where all directories exist, the table passes
    have passes : (table.checkScopes (fun _ => true) root).result = .ok () :=
      result_checkScopes_eq_ok_iff.mpr fun _ _ _ _ _ => rfl
    exact below _ root passes rule inTable required _ stored
  · intro level isDir root _ rule inTable required dir stored
    obtain ⟨entry, rfl, _⟩ := written rule inTable dir stored
    exact (forall_below_join_iff entry).mpr (level rule inTable required _ stored) root

/-- An entry that climbs out of one root and back stays inside it, while a plain one stays inside
all roots. -/
theorem checked_below_iff_assets :
    ∃ table : RuleTable,
      compileFrom Definition.patternEngine 0
        [{ contains := some ".png", scope := ["./src//assets/"] },
          { contains := some ".css", scope := ["../app/styles"], optionalScope := true }] =
        .ok table ∧
      table.ChecksBelow ∧
      ∃ climbing : RuleTable,
        compileFrom Definition.patternEngine 0
          [{ contains := some ".css", scope := ["../app/styles"] }] = .ok climbing ∧
        (climbing.checkScopes (fun _ => true) "site/app").result = .ok () ∧
        Below 0 "site/app".toList (Path.join "site/app" "../app/styles").toList ∧
        ¬ climbing.ChecksBelow := by
  let images : Rule := { matcher := .contains ".png", scope := ["src/assets"] }
  let vendor : Rule :=
    { matcher := .contains ".css", scope := ["../app/styles"], optionalScope := true }
  let styles : Rule := { matcher := .contains ".css", scope := ["../app/styles"] }
  have compiled : compileFrom Definition.patternEngine 0
      [{ contains := some ".png", scope := ["./src//assets/"] },
        { contains := some ".css", scope := ["../app/styles"], optionalScope := true }] =
      .ok [images, vendor] := rfl
  have compiled' : compileFrom Definition.patternEngine 0
      [{ contains := some ".css", scope := ["../app/styles"] }] = .ok [styles] := rfl
  have passes : (checkScopes (fun _ => true) "site/app" [styles]).result = .ok () := rfl
  obtain ⟨inside, all⟩ := checked_below_iff compiled'
  refine ⟨_, compiled, (checked_below_iff compiled).2.mpr ?_, _, compiled', passes, ?_, ?_⟩
  · simp only [List.forall_mem_cons, images, vendor]
    decide
  · exact ((inside _ _ passes styles (by simp) rfl "../app/styles" (by simp [styles])).2.1).mpr
      (by decide)
  · intro below
    have level := all.mp below styles (by simp) rfl "../app/styles" (by simp [styles])
    exact absurd level.2 (by decide)

/-- A table passes with a directory that lies beside the root. -/
theorem checkScopes_beside_root :
    ∃ table : RuleTable,
      compileFrom Definition.patternEngine 0 [{ contains := some "", scope := ["../lib"] }] =
        .ok table ∧
      (table.checkScopes (fun dir => ["app", "lib", "app/../lib"].contains dir) "app").result =
        .ok () ∧
      (∃ rule ∈ table, rule.optionalScope = false ∧ "../lib" ∈ rule.scope) ∧
      ¬ Below 0 "app".toList (Path.join "app" "../lib").toList := by
  let rule : Rule := { matcher := .contains "", scope := ["../lib"] }
  refine ⟨[rule], rfl, rfl, ⟨rule, by simp, rfl, by simp [rule]⟩, ?_⟩
  rw [below_join_iff]
  decide

end AssetPlan.RuleTable
