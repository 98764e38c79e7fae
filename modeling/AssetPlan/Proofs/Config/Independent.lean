import AssetPlan.Proofs.Config.Assignment

/-! # Assignments to independent paths

Of two independent paths neither leads to the other. Values at such paths are merged without a
conflict and in any order: two of them commute (`commutes_nest`), and a sequence of layers that
commute with one another may be permuted (`foldlM_merge_perm`). The layer of such assignments has
at each path what was assigned there, and it has nothing off these paths.
-/

namespace AssetPlan.Config

open Entries Value

/-- Both orders of two values have the same results. -/
def Commutes (a b : Value) : Prop := ∀ merged, Merges a b merged ↔ Merges b a merged

theorem Commutes.symm {a b : Value} (commutes : Commutes a b) : Commutes b a := fun merged =>
  (commutes merged).symm

private theorem joined?_comm {x y : Option Value}
    (commutes : ∀ a b, x = some a → y = some b → Commutes a b) (result : Option Value) :
    joined? x y = some result ↔ joined? y x = some result := by
  cases x with
  | none => simp
  | some a =>
    cases y with
    | none => simp
    | some b =>
      simp only [joined?_some_eq_some_iff]
      exact exists_congr fun merged => and_congr_left fun _ => commutes a b rfl rfl merged

/-- Mappings commute if what they have at common keys does. -/
theorem commutes_object {xs ys : Entries} (ascendingX : Ascending xs) (ascendingY : Ascending ys)
    (commutes : ∀ key a b, find? key xs = some a → find? key ys = some b → Commutes a b) :
    Commutes (.object xs) (.object ys) := by
  intro merged
  have both (result : Entries) :
      mergeEntries xs ys = .ok result ↔ mergeEntries ys xs = .ok result := by
    rw [mergeEntries_eq_ok_iff ascendingX ascendingY, mergeEntries_eq_ok_iff ascendingY ascendingX]
    exact and_congr_right fun _ => forall_congr' fun key => joined?_comm (commutes key) _
  simp only [← merge_eq_ok_iff, merge_object, Except.map_eq_ok_iff, both]

/-- Layers that commute may be merged in either order, whatever lies below them. -/
theorem merges_swap {base a b : Value} (below : base.Ordered) (orderedA : a.Ordered)
    (orderedB : b.Ordered) (commutes : Commutes a b) (merged : Value) :
    (∃ lower, Merges base a lower ∧ Merges lower b merged) ↔
      ∃ lower, Merges base b lower ∧ Merges lower a merged := by
  rw [regroups_of_ordered below orderedA orderedB merged,
    regroups_of_ordered below orderedB orderedA merged]
  exact exists_congr fun above => and_congr_left fun _ => commutes above

/-- The order of layers that commute with one another does not matter. -/
theorem foldlM_merge_perm {layers layers' : List Value} (perm : layers.Perm layers')
    (commute : layers.Pairwise Commutes) (ordered : ∀ layer ∈ layers, layer.Ordered)
    {base merged : Value} (below : base.Ordered) :
    layers.foldlM merge base = .ok merged ↔ layers'.foldlM merge base = .ok merged := by
  induction perm generalizing base with
  | nil => exact Iff.rfl
  | cons layer _ ih =>
    obtain ⟨first, later⟩ := List.forall_mem_cons.mp ordered
    simp only [foldlM_merge_cons_eq_ok_iff]
    exact exists_congr fun lower => and_congr_right fun merges =>
      ih (List.pairwise_cons.mp commute).2 later (merges.ordered below first)
  | swap a b rest =>
    obtain ⟨orderedB, orderedA, _⟩ : b.Ordered ∧ a.Ordered ∧ ∀ layer ∈ rest, layer.Ordered := by
      simpa only [List.forall_mem_cons] using ordered
    have commutes : Commutes b a := (List.pairwise_cons.mp commute).1 a List.mem_cons_self
    -- only the order of the first two differs; whatever they make together, the rest goes on from it
    have either := merges_swap below orderedB orderedA commutes
    simp only [foldlM_merge_cons_eq_ok_iff]
    constructor
    · rintro ⟨lower, first, upper, second, success⟩
      obtain ⟨lower, first, second⟩ := (either upper).mp ⟨lower, first, second⟩
      exact ⟨lower, first, upper, second, success⟩
    · rintro ⟨lower, first, upper, second, success⟩
      obtain ⟨lower, first, second⟩ := (either upper).mpr ⟨lower, first, second⟩
      exact ⟨lower, first, upper, second, success⟩
  | trans perm _ ih ih' =>
    have commute' := perm.pairwise commute Commutes.symm
    have ordered' := fun layer member => ordered layer (perm.mem_iff.mpr member)
    exact (ih commute ordered below).trans (ih' commute' ordered' below)

/-- Neither path leads to the other. -/
def Independent (p q : List String) : Prop := ¬ p <+: q ∧ ¬ q <+: p

instance (p q : List String) : Decidable (Independent p q) := inferInstanceAs (Decidable (_ ∧ _))

namespace Independent

variable {p q : List String}

theorem symm (independent : Independent p q) : Independent q p := And.symm independent

/-- A path that goes on stays independent. -/
theorem append (independent : Independent p q) (rest : List String) :
    Independent p (q ++ rest) := by
  refine ⟨fun leads => ?_, fun leads => independent.2 ((List.prefix_append q rest).trans leads)⟩
  rcases List.prefix_or_prefix_of_prefix leads (List.prefix_append q rest) with first | second
  · exact independent.1 first
  · exact independent.2 second

theorem reach_nest (independent : Independent p q) (leaf : Value) : (nest p leaf).reach q = none :=
  reach_nest_of_apart independent.2 independent.1 leaf

end Independent

/-- Values at independent paths commute. -/
theorem commutes_nest {p q : List String} (independent : Independent p q) (v w : Value) :
    Commutes (nest p v) (nest q w) := by
  induction p generalizing q with
  | nil => exact (independent.1 List.nil_prefix).elim
  | cons key p ih =>
    cases q with
    | nil => exact (independent.2 List.nil_prefix).elim
    | cons key' q =>
      refine commutes_object (List.pairwise_singleton _ _) (List.pairwise_singleton _ _) ?_
      intro asked a b foundA foundB
      simp only [find?_cons, find?_nil, Option.ite_none_right_eq_some, Option.some.injEq]
        at foundA foundB
      obtain ⟨rfl, rfl⟩ := foundA
      obtain ⟨rfl, rfl⟩ := foundB
      simp only [Independent, List.prefix_cons_inj] at independent
      exact ih independent

section Family

variable {α : Type} {path : α → List String} {leaf : α → Value} {as : List α} {a : α}
  {layer v : Value} {keys : List String}

/-- The paths of any two members are independent. -/
def IndependentPaths (path : α → List String) (as : List α) : Prop :=
  as.Pairwise fun a b => Independent (path a) (path b)

instance (path : α → List String) (as : List α) : Decidable (IndependentPaths path as) :=
  inferInstanceAs (Decidable (List.Pairwise _ _))

/-- One layer for each member, with the member's value at its path. -/
def nestAll (path : α → List String) (leaf : α → Value) (as : List α) : List Value :=
  as.map fun a => nest (path a) (leaf a)

theorem ordered_nestAll (path : α → List String) (ordered : ∀ a, (leaf a).Ordered)
    (as : List α) : ∀ layer ∈ nestAll path leaf as, layer.Ordered :=
  List.forall_mem_map.mpr fun a _ => ordered_nest (path a) (ordered a)

theorem commute_nestAll (independent : IndependentPaths path as) (leaf : α → Value) :
    (nestAll path leaf as).Pairwise Commutes :=
  independent.map _ fun a b apart => commutes_nest apart (leaf a) (leaf b)

/-- On the path of one member and beyond it, no other member has a value. -/
theorem valuesAt_nestAll (independent : IndependentPaths path as) (member : a ∈ as)
    (leaf : α → Value) (query : List String) :
    valuesAt (nestAll path leaf as) (path a ++ query) = ((leaf a).reach query).toList := by
  induction as with
  | nil => cases member
  | cons first rest ih =>
    obtain ⟨others, later⟩ := List.pairwise_cons.mp independent
    rw [nestAll, List.map_cons, valuesAt_cons]
    rcases List.mem_cons.mp member with rfl | inRest
    · have nothing : valuesAt (nestAll path leaf rest) (path a ++ query) = [] := by
        rw [valuesAt, List.filterMap_eq_nil_iff, nestAll, List.forall_mem_map]
        exact fun other known => ((others other known).symm.append query).reach_nest _
      rw [reach_nest_append, ← nestAll, nothing, List.append_nil]
    · rw [((others a inRest).append query).reach_nest, ← nestAll, ih later inRest]
      rfl

/-- A value that is found before the end of a path is one of the mappings around the leaf. -/
theorem classOf_of_reach_nest {path : List String} {leaf : Value} (before : ¬ path <+: keys)
    (found : (nest path leaf).reach keys = some v) : v.classOf = .mapping := by
  have leads : keys <+: path := by
    by_contra off
    rw [Independent.reach_nest ⟨before, off⟩] at found
    cases found
  obtain ⟨back, rfl⟩ := leads
  cases back with
  | nil => simp at before
  | cons key back =>
    rw [reach_nest_front] at found
    cases found
    rfl

theorem compatible_nestAll (independent : IndependentPaths path as) (leaf : α → Value) :
    Compatible (nestAll path leaf as) := by
  intro keys
  -- past the end of one path only its member has a value, and before all ends there are mappings
  by_cases ends : ∃ a ∈ as, path a <+: keys
  · obtain ⟨a, member, query, rfl⟩ := ends
    rw [valuesAt_nestAll independent member]
    cases (leaf a).reach query with
    | none => exact ⟨.scalar, List.forall_mem_nil _⟩
    | some v => exact ⟨v.classOf, List.forall_mem_singleton.mpr rfl⟩
  · refine ⟨.mapping, fun v known => ?_⟩
    obtain ⟨_, inLayers, found⟩ := List.mem_filterMap.mp known
    obtain ⟨a, member, rfl⟩ := List.mem_map.mp inLayers
    exact classOf_of_reach_nest (fun leads => ends ⟨a, member, leads⟩) found

theorem exists_mergeLayers_nestAll (independent : IndependentPaths path as)
    (inside : ∀ a, path a ≠ []) (ordered : ∀ a, (leaf a).Ordered) :
    ∃ layer, mergeLayers (nestAll path leaf as) = .ok layer := by
  have mappings : ∀ layer ∈ nestAll path leaf as, layer.classOf = .mapping := by
    refine List.forall_mem_map.mpr fun a _ => ?_
    obtain ⟨key, keys, same⟩ := List.exists_cons_of_ne_nil (inside a)
    rw [same]
    rfl
  exact (exists_foldlM_merge_iff (ordered_nestAll path ordered as)).mpr
    ((compatible_empty_cons _).mpr ⟨mappings, compatible_nestAll independent leaf⟩)

/-- The merge has each member's value at its path. -/
theorem reach_of_mergeLayers_nestAll (independent : IndependentPaths path as)
    (inside : ∀ a, path a ≠ []) (ordered : ∀ a, (leaf a).Ordered)
    (success : mergeLayers (nestAll path leaf as) = .ok layer) (member : a ∈ as) :
    layer.reach (path a) = some (leaf a) := by
  have alone := valuesAt_nestAll independent member leaf []
  rw [List.append_nil] at alone
  have atPath := mergeValues_valuesAt (ordered_nestAll path ordered as) success (path a)
  rw [valuesAt_empty_cons _ (inside a), alone] at atPath
  exact (Except.ok.inj atPath).symm

/-- The merge has values on the paths of the members only. -/
theorem exists_of_reach_mergeLayers (nonempty : as ≠ []) (ordered : ∀ a, (leaf a).Ordered)
    (success : mergeLayers (nestAll path leaf as) = .ok layer)
    (found : layer.reach keys = some v) : ∃ a ∈ as, keys <+: path a ∨ path a <+: keys := by
  by_cases root : keys = []
  · obtain ⟨a, member⟩ := List.exists_mem_of_ne_nil as nonempty
    exact ⟨a, member, .inl (root ▸ List.nil_prefix)⟩
  · by_contra off
    have nothing : valuesAt (nestAll path leaf as) keys = [] := by
      rw [valuesAt, List.filterMap_eq_nil_iff, nestAll, List.forall_mem_map]
      intro a member
      have apart : Independent (path a) keys :=
        ⟨fun beyond => off ⟨a, member, .inr beyond⟩, fun before => off ⟨a, member, .inl before⟩⟩
      exact apart.reach_nest (leaf a)
    have absent := reach_eq_none_iff_valuesAt (ordered_nestAll path ordered as) success keys
    rw [valuesAt_empty_cons _ root, found] at absent
    cases absent.mpr nothing

/-- Another order of the members has the same merge. -/
theorem mergeLayers_nestAll_perm {as' : List α} (perm : as'.Perm as)
    (independent : IndependentPaths path as) (ordered : ∀ a, (leaf a).Ordered) :
    mergeLayers (nestAll path leaf as') = .ok layer ↔
      mergeLayers (nestAll path leaf as) = .ok layer :=
  (foldlM_merge_perm (perm.symm.map _) (commute_nestAll independent leaf)
    (ordered_nestAll path ordered as) (by decide)).symm

end Family

theorem mapM_parseAssignment {assignments : List String}
    (parsed : ∀ a ∈ assignments, ∃ layer, parseAssignment a = .ok layer) :
    assignments.mapM parseAssignment =
      .ok (nestAll assignedPath (fun a => rawValue (assignedText a)) assignments) := by
  induction assignments with
  | nil => rfl
  | cons assignment rest ih =>
    obtain ⟨⟨layer, first⟩, later⟩ := List.forall_mem_cons.mp parsed
    obtain ⟨_, _, same⟩ := parseAssignment_eq_ok_iff.mp first
    rw [same] at first
    exact Except.mapM_cons_eq_ok_iff.mpr ⟨_, _, first, ih later, rfl⟩

theorem assignedPath_ne_nil (assignment : String) : assignedPath assignment ≠ [] := by
  simp [assignedPath, dottedPath, Text.split_ne_nil]

/-- Some assignments that can be read make the merge of their layers. -/
theorem parseAssignments_eq_ok_iff {assignments : List String} {values : List Value} {layer : Value}
    (nonempty : assignments ≠ []) (parsed : assignments.mapM parseAssignment = .ok values) :
    parseAssignments assignments = .ok (some layer) ↔ mergeLayers values = .ok layer := by
  rw [parseAssignments_eq parsed, if_neg (mt List.isEmpty_iff.mp nonempty), Except.map_eq_ok_iff]
  simp only [Except.mapError_eq_ok_iff, Option.some.injEq, exists_eq_right]

/-- Assignments to independent paths make one layer, whatever their order. It has at each path what
was assigned there, and the path to any value in it runs along one of theirs. -/
theorem parseAssignments_independent (assignments : List String) (nonempty : assignments ≠ [])
    (parsed : ∀ a ∈ assignments, ∃ layer, parseAssignment a = .ok layer)
    (independent : IndependentPaths assignedPath assignments) :
    ∃ layer, parseAssignments assignments = .ok (some layer) ∧
      (∀ permuted, permuted.Perm assignments → parseAssignments permuted = .ok (some layer)) ∧
      (∀ a ∈ assignments, layer.reach (assignedPath a) = some (rawValue (assignedText a))) ∧
      ∀ keys v, layer.reach keys = some v →
        ∃ a ∈ assignments, keys <+: assignedPath a ∨ assignedPath a <+: keys := by
  have ordered : ∀ a, (rawValue (assignedText a)).Ordered := fun a => ordered_rawValue _
  obtain ⟨layer, success⟩ := exists_mergeLayers_nestAll independent assignedPath_ne_nil ordered
  have whole := (parseAssignments_eq_ok_iff nonempty (mapM_parseAssignment parsed)).mpr success
  have assigned := fun a (member : a ∈ assignments) =>
    reach_of_mergeLayers_nestAll independent assignedPath_ne_nil ordered success member
  refine ⟨layer, whole, fun permuted perm => ?_, assigned, fun keys v found => ?_⟩
  · have parsed' : ∀ a ∈ permuted, ∃ layer, parseAssignment a = .ok layer :=
      fun a member => parsed a (perm.mem_iff.mp member)
    have nonempty' : permuted ≠ [] := fun empty =>
      nonempty (List.Perm.nil_eq (empty ▸ perm)).symm
    rw [parseAssignments_eq_ok_iff nonempty' (mapM_parseAssignment parsed'),
      mergeLayers_nestAll_perm perm independent ordered]
    exact success
  · exact exists_of_reach_mergeLayers nonempty ordered success found

/-- Two assignments below one key, and two beside them; the text of the last is JSON. -/
theorem parseAssignments_independent_output :
    let assignments :=
      ["mode=production", "output.path=build", "output.public_path=/app/", "devtool=false"]
    let permuted :=
      ["output.public_path=/app/", "devtool=false", "mode=production", "output.path=build"]
    (∀ a ∈ assignments, ∃ layer, parseAssignment a = .ok layer) ∧
      IndependentPaths assignedPath assignments ∧ permuted.Perm assignments ∧
      ∃ layer, parseAssignments assignments = .ok (some layer) ∧
        parseAssignments permuted = .ok (some layer) ∧
        layer.reach ["output", "path"] = some (.string "build") ∧
        layer.reach ["devtool"] = some (.bool false) := by
  intro assignments permuted
  have parsed : ∀ a ∈ assignments, ∃ layer, parseAssignment a = .ok layer := by
    simp only [assignments, List.forall_mem_cons]
    exact ⟨⟨_, rfl⟩, ⟨_, rfl⟩, ⟨_, rfl⟩, ⟨_, rfl⟩, List.forall_mem_nil _⟩
  have independent : IndependentPaths assignedPath assignments := by decide +kernel
  have perm : permuted.Perm assignments := by decide
  obtain ⟨layer, whole, anyOrder, assigned, _⟩ :=
    parseAssignments_independent assignments (by decide) parsed independent
  have path : assignedPath "output.path=build" = ["output", "path"] := by decide
  have text : rawValue (assignedText "output.path=build") = .string "build" := rfl
  have found := assigned "output.path=build" (by decide)
  rw [path, text] at found
  have devtool : assignedPath "devtool=false" = ["devtool"] := by decide
  have json : rawValue (assignedText "devtool=false") = .bool false := rfl
  have found' := assigned "devtool=false" (by decide)
  rw [devtool, json] at found'
  exact ⟨parsed, independent, perm, layer, whole, anyOrder permuted perm, found, found'⟩

end AssetPlan.Config
