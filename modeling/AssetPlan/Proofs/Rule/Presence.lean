import AssetPlan.Proofs.Except
import AssetPlan.Rule.Table
import Mathlib.Data.Prod.Lex
import Mathlib.Order.Bounds.Basic

/-! # Presence of scope directories

The check of a table takes its scope entries rule by rule and in each rule one by one, and ends at
the first that is required and names no directory. So it reports the least of the places of such
entries, in the order of the places. It reads nothing of the rules whose directories may be absent,
and the more directories there are, the later is the place that it reports.
-/

namespace AssetPlan

namespace Rule

variable {rule : Rule} {entry : String}

/-- The entries of a rule whose directories may not be absent. -/
def requiredScope (rule : Rule) : List String :=
  if rule.optionalScope then [] else rule.scope

theorem mem_requiredScope_iff :
    entry ∈ rule.requiredScope ↔ rule.optionalScope = false ∧ entry ∈ rule.scope := by
  unfold requiredScope
  cases rule.optionalScope <;> simp

/-- The first required entry of a rule that names no directory below the root. -/
def firstMissing? (isDir : String → Bool) (root : String) (rule : Rule) : Option String :=
  rule.requiredScope.find? fun entry => !isDir (Path.join root entry)

theorem firstMissing?_eq_none_iff {isDir : String → Bool} {root : String} :
    rule.firstMissing? isDir root = none ↔
      ∀ entry ∈ rule.requiredScope, isDir (Path.join root entry) = true := by
  simp [firstMissing?]

theorem firstMissing?_eq_some_iff {isDir : String → Bool} {root : String} :
    rule.firstMissing? isDir root = some entry ↔
      ∃ j : Nat, rule.requiredScope[j]? = some entry ∧ isDir (Path.join root entry) = false ∧
        ∀ (i : Nat) (earlier : String), rule.requiredScope[i]? = some earlier →
          isDir (Path.join root earlier) = false → j ≤ i := by
  rw [firstMissing?, List.find?_eq_some_iff_getElem]
  constructor
  · rintro ⟨absent, j, inside, rfl, first⟩
    refine ⟨j, List.getElem?_eq_getElem inside, by simpa using absent, ?_⟩
    intro i earlier stands absent'
    obtain ⟨_, rfl⟩ := List.getElem?_eq_some_iff.mp stands
    by_contra before
    have present := first i (by omega)
    simp [absent'] at present
  · rintro ⟨j, stands, absent, first⟩
    obtain ⟨inside, rfl⟩ := List.getElem?_eq_some_iff.mp stands
    refine ⟨by simpa using absent, j, inside, rfl, fun i before => ?_⟩
    by_contra missing
    have later := first i _ (List.getElem?_eq_getElem (by omega)) (by simpa using missing)
    omega

end Rule

namespace RuleTable

/-- The entry that is required at a place, which is that of the rule and then that of the entry
within its scope. -/
def required? (table : RuleTable) (place : Nat ×ₗ Nat) : Option String :=
  table[(ofLex place).1]?.bind fun rule => rule.requiredScope[(ofLex place).2]?

/-- The places of the required entries that name no directory below the root. -/
def missing (isDir : String → Bool) (root : String) (table : RuleTable) : Set (Nat ×ₗ Nat) :=
  {place | ∃ entry, table.required? place = some entry ∧ isDir (Path.join root entry) = false}

/-- The failure is that of the required entry at a place, which is the first that is missing. -/
structure FirstMissing (isDir : String → Bool) (root : String) (table : RuleTable)
    (place : Nat ×ₗ Nat) (failure : RuleError) : Prop where
  least : IsLeast (table.missing isDir root) place
  reported : ∃ entry, table.required? place = some entry ∧
    failure = .missingScope (ofLex place).1 entry (Path.join root entry)

variable {isDir isDir' : String → Bool} {root : String} {table table' : RuleTable} {rule : Rule}
  {rest : List Rule} {place place' : Nat ×ₗ Nat} {failure failure' : RuleError} {entry : String}
  {index i j : Nat}

/-- Entries that may be absent end no check. -/
theorem result_checkScope_of_optional (optional : rule.optionalScope = true) (scope : List String) :
    (checkScope isDir root rule index scope).result = .ok () := by
  induction scope with
  | nil => rfl
  | cons entry rest ih =>
    rw [checkScope]
    split
    next => exact ih
    next => simp [ih, Except.ok_bind]

theorem result_checkScope_of_required (required : rule.optionalScope = false)
    (scope : List String) :
    (checkScope isDir root rule index scope).result =
      match scope.find? fun entry => !isDir (Path.join root entry) with
      | none => .ok ()
      | some entry => .error (.missingScope index entry (Path.join root entry)) := by
  induction scope with
  | nil => rfl
  | cons entry rest ih =>
    rw [checkScope]
    split
    next present => rw [ih, List.find?_cons_of_neg (by simp [present])]
    next absent => simp [absent, required]

/-- The check of a rule ends at the first required entry that is missing. -/
theorem result_checkScope (isDir : String → Bool) (root : String) (rule : Rule) (index : Nat) :
    (checkScope isDir root rule index rule.scope).result =
      match rule.firstMissing? isDir root with
      | none => .ok ()
      | some entry => .error (.missingScope index entry (Path.join root entry)) := by
  rw [Rule.firstMissing?, Rule.requiredScope]
  cases optional : rule.optionalScope with
  | true => exact result_checkScope_of_optional optional rule.scope
  | false => exact result_checkScope_of_required optional rule.scope

theorem result_checkScopesFrom_eq_ok_iff {rules : List Rule} :
    (checkScopesFrom isDir root index rules).result = .ok () ↔
      ∀ rule ∈ rules, rule.firstMissing? isDir root = none := by
  induction rules generalizing index with
  | nil => exact iff_of_true rfl (List.forall_mem_nil _)
  | cons rule rest ih =>
    rw [checkScopesFrom, Logged.result_bind, result_checkScope, List.forall_mem_cons]
    cases rule.firstMissing? isDir root with
    | none => simpa [Except.ok_bind] using ih
    | some entry => exact iff_of_false nofun nofun

/-- A table passes exactly if all entries that may not be absent name directories. -/
theorem result_checkScopes_eq_ok_iff :
    (table.checkScopes isDir root).result = .ok () ↔
      ∀ rule ∈ table, rule.optionalScope = false → ∀ entry ∈ rule.scope,
        isDir (Path.join root entry) = true := by
  rw [checkScopes, result_checkScopesFrom_eq_ok_iff]
  simp only [Rule.firstMissing?_eq_none_iff, Rule.mem_requiredScope_iff, and_imp]
  exact forall₂_congr fun rule _ => ⟨fun present required entry => present entry required,
    fun present entry required => present required entry⟩

theorem missing_eq_empty_iff :
    table.missing isDir root = ∅ ↔ (table.checkScopes isDir root).result = .ok () := by
  rw [checkScopes, result_checkScopesFrom_eq_ok_iff]
  simp only [Rule.firstMissing?_eq_none_iff, Set.eq_empty_iff_forall_notMem]
  constructor
  · intro empty rule inTable entry inScope
    obtain ⟨i, atRule⟩ := List.mem_iff_getElem?.mp inTable
    obtain ⟨j, atEntry⟩ := List.mem_iff_getElem?.mp inScope
    by_contra absent
    apply empty (toLex (i, j))
    exact ⟨entry, by simp [required?, atRule, atEntry], by simpa using absent⟩
  · rintro present place ⟨entry, stands, absent⟩
    obtain ⟨rule, atRule, atEntry⟩ := Option.bind_eq_some_iff.mp stands
    have found := present rule (List.mem_of_getElem? atRule) entry (List.mem_of_getElem? atEntry)
    rw [absent] at found
    cases found

theorem succ_mem_missing_cons_iff :
    toLex (i + 1, j) ∈ missing isDir root (rule :: rest) ↔
      toLex (i, j) ∈ missing isDir root rest :=
  Iff.rfl

/-- What is missing from the first rule comes before what is missing from the others. -/
theorem isLeast_missing_cons_of_some (found : rule.firstMissing? isDir root = some entry) :
    ∃ j, required? (rule :: rest) (toLex (0, j)) = some entry ∧
      IsLeast (missing isDir root (rule :: rest)) (toLex (0, j)) := by
  obtain ⟨j, stands, absent, first⟩ := Rule.firstMissing?_eq_some_iff.mp found
  refine ⟨j, stands, ⟨entry, stands, absent⟩, ?_⟩
  rintro ⟨i', j'⟩ ⟨other, stands', absent'⟩
  apply Prod.Lex.toLex_le_toLex.mpr
  cases i' with
  | zero => exact .inr ⟨rfl, first j' other stands' absent'⟩
  | succ i' => exact .inl (Nat.succ_pos i')

/-- If nothing is missing from the first rule, the others decide. -/
theorem isLeast_missing_cons_of_none (present : rule.firstMissing? isDir root = none)
    (least : IsLeast (missing isDir root rest) (toLex (i, j))) :
    IsLeast (missing isDir root (rule :: rest)) (toLex (i + 1, j)) := by
  refine ⟨succ_mem_missing_cons_iff.mpr least.1, ?_⟩
  rintro ⟨i', j'⟩ member
  apply Prod.Lex.toLex_le_toLex.mpr
  cases i' with
  | zero =>
    obtain ⟨other, stands, absent⟩ := member
    have found := Rule.firstMissing?_eq_none_iff.mp present other (List.mem_of_getElem? stands)
    rw [absent] at found
    cases found
  | succ i' =>
    have before := Prod.Lex.toLex_le_toLex.mp (least.2 (succ_mem_missing_cons_iff.mp member))
    simpa using before

/-- What the check of rules reports stands at the first place where something is missing; the
induction is on the rules, whose first one stands at place `index`. -/
theorem exists_isLeast_missing {rules : List Rule}
    (failed : (checkScopesFrom isDir root index rules).result = .error failure) :
    ∃ i j entry, IsLeast (missing isDir root rules) (toLex (i, j)) ∧
      required? rules (toLex (i, j)) = some entry ∧
      failure = .missingScope (index + i) entry (Path.join root entry) := by
  induction rules generalizing index with
  | nil => cases failed
  | cons rule rest ih =>
    rw [checkScopesFrom, Logged.result_bind, result_checkScope] at failed
    cases first : rule.firstMissing? isDir root with
    | some entry =>
      rw [first] at failed
      cases failed
      obtain ⟨j, stands, least⟩ := isLeast_missing_cons_of_some first
      exact ⟨0, j, entry, least, stands, rfl⟩
    | none =>
      rw [first] at failed
      obtain ⟨i, j, entry, least, stands, rfl⟩ := ih failed
      refine ⟨i + 1, j, entry, isLeast_missing_cons_of_none first least, stands, ?_⟩
      rw [Nat.add_right_comm, Nat.add_assoc]

theorem FirstMissing.eq (first : FirstMissing isDir root table place failure)
    (first' : FirstMissing isDir root table place' failure') :
    place = place' ∧ failure = failure' := by
  obtain rfl := first.least.unique first'.least
  obtain ⟨entry, stands, rfl⟩ := first.reported
  obtain ⟨entry', stands', rfl⟩ := first'.reported
  obtain rfl := Option.some.inj (stands.symm.trans stands')
  exact ⟨rfl, rfl⟩

/-- A table fails exactly with the first of its required entries that is missing. -/
theorem result_checkScopes_eq_error_iff :
    (table.checkScopes isDir root).result = .error failure ↔
      ∃ place, FirstMissing isDir root table place failure := by
  have reports {failure : RuleError}
      (failed : (table.checkScopes isDir root).result = .error failure) :
      ∃ place, FirstMissing isDir root table place failure := by
    obtain ⟨i, j, entry, least, stands, same⟩ := exists_isLeast_missing failed
    rw [Nat.zero_add] at same
    exact ⟨toLex (i, j), least, entry, stands, same⟩
  refine ⟨reports, ?_⟩
  rintro ⟨place, first⟩
  cases outcome : (table.checkScopes isDir root).result with
  | ok =>
    have member := first.least.1
    rw [missing_eq_empty_iff.mpr outcome] at member
    exact member.elim
  | error failure' =>
    obtain ⟨place', first'⟩ := reports outcome
    rw [(first.eq first').2]

/-- Nothing but the required entries and their directories decides a check. -/
theorem result_checkScopes_congr
    (same : ∀ place, table'.required? place = table.required? place)
    (alike : ∀ place entry, table.required? place = some entry →
      isDir' (Path.join root entry) = isDir (Path.join root entry)) :
    (table'.checkScopes isDir' root).result = (table.checkScopes isDir root).result := by
  have places : table'.missing isDir' root = table.missing isDir root := by
    ext place
    simp only [missing, Set.mem_ofPred_eq, same]
    refine exists_congr fun entry => and_congr_right fun stands => ?_
    rw [alike place entry stands]
  have failures (failure : RuleError) :
      (table'.checkScopes isDir' root).result = .error failure ↔
        (table.checkScopes isDir root).result = .error failure := by
    rw [result_checkScopes_eq_error_iff, result_checkScopes_eq_error_iff]
    refine exists_congr fun place => ⟨fun first => ⟨?_, ?_⟩, fun first => ⟨?_, ?_⟩⟩
    · exact places ▸ first.least
    · simpa only [same] using first.reported
    · exact places.symm ▸ first.least
    · simpa only [same] using first.reported
  cases outcome : (table.checkScopes isDir root).result with
  | error failure => exact (failures failure).mpr outcome
  | ok =>
    rw [← missing_eq_empty_iff] at outcome ⊢
    rw [places, outcome]

/-- The scope of an optional rule holds no required entries. -/
theorem required?_set (stands : table[i]? = some rule) (optional : rule.optionalScope = true)
    (scope : List String) (place : Nat ×ₗ Nat) :
    required? (table.set i { rule with scope := scope }) place = table.required? place := by
  rw [required?, required?]
  by_cases same : i = (ofLex place).1
  · obtain ⟨inside, rfl⟩ := List.getElem?_eq_some_iff.mp stands
    simp [← same, inside, Rule.requiredScope, optional]
  · rw [List.getElem?_set_ne same]

theorem missing_subset (more : ∀ dir, isDir dir = true → isDir' dir = true) :
    table.missing isDir' root ⊆ table.missing isDir root := by
  rintro place ⟨entry, stands, absent⟩
  refine ⟨entry, stands, ?_⟩
  by_contra present
  simp [more _ (by simpa using present)] at absent

/-- A table passes exactly if all entries that may not be absent name directories, and fails with
the first of them that does not. Neither the scopes of optional rules nor directories that only these
name have a part in it. With more directories a table that passed passes still, and the place that
is reported does not move to the front. -/
theorem checkScopes_first_missing (isDir : String → Bool) (root : String) (table : RuleTable) :
    ((table.checkScopes isDir root).result = .ok () ↔
      ∀ rule ∈ table, rule.optionalScope = false → ∀ entry ∈ rule.scope,
        isDir (Path.join root entry) = true) ∧
    (∀ failure, (table.checkScopes isDir root).result = .error failure ↔
      ∃ place, FirstMissing isDir root table place failure) ∧
    (∀ i rule, table[i]? = some rule → rule.optionalScope = true → ∀ scope,
      (checkScopes isDir root (table.set i { rule with scope := scope })).result =
        (table.checkScopes isDir root).result) ∧
    (∀ isDir' : String → Bool, (∀ rule ∈ table, rule.optionalScope = false →
        ∀ entry ∈ rule.scope, isDir' (Path.join root entry) = isDir (Path.join root entry)) →
      (table.checkScopes isDir' root).result = (table.checkScopes isDir root).result) ∧
    ∀ isDir' : String → Bool, (∀ dir, isDir dir = true → isDir' dir = true) →
      ((table.checkScopes isDir root).result = .ok () →
        (table.checkScopes isDir' root).result = .ok ()) ∧
      ∀ place place' failure failure', FirstMissing isDir root table place failure →
        FirstMissing isDir' root table place' failure' → place ≤ place' := by
  refine ⟨result_checkScopes_eq_ok_iff, fun failure => result_checkScopes_eq_error_iff,
    ?_, ?_, fun isDir' more => ⟨?_, ?_⟩⟩
  · intro i rule stands optional scope
    exact result_checkScopes_congr (required?_set stands optional scope) fun _ _ _ => rfl
  · intro isDir' alike
    refine result_checkScopes_congr (fun _ => rfl) fun place entry stands => ?_
    obtain ⟨rule, atRule, atEntry⟩ := Option.bind_eq_some_iff.mp stands
    obtain ⟨required, inScope⟩ := Rule.mem_requiredScope_iff.mp (List.mem_of_getElem? atEntry)
    exact alike rule (List.mem_of_getElem? atRule) required entry inScope
  · intro passes
    rw [← missing_eq_empty_iff] at passes ⊢
    exact Set.subset_eq_empty (missing_subset more) passes
  · intro place place' failure failure' first first'
    exact first'.least.mono first.least (missing_subset more)

/-- An optional rule is passed over, and with more directories a later rule is reported. -/
theorem checkScopes_first_missing_assets :
    let vendor : Rule :=
      { matcher := .contains ".css", scope := ["node_modules"], optionalScope := true }
    let images : Rule := { matcher := .contains ".png", scope := ["src", "assets", "assets"] }
    let fonts : Rule := { matcher := .contains ".woff", scope := ["fonts"] }
    let table : RuleTable := [vendor, images, fonts]
    let few (dir : String) : Bool := dir == "app/src"
    let more (dir : String) : Bool := dir == "app/src" || dir == "app/assets"
    ∃ place place', FirstMissing few "app" table place (.missingScope 1 "assets" "app/assets") ∧
      FirstMissing more "app" table place' (.missingScope 2 "fonts" "app/fonts") ∧
      place ≤ place' := by
  intro vendor images fonts table few more
  have added (dir : String) (known : few dir = true) : more dir = true := by simp_all [few, more]
  obtain ⟨_, reports, _, _, grows⟩ := checkScopes_first_missing few "app" table
  obtain ⟨_, reports', _⟩ := checkScopes_first_missing more "app" table
  have failed : (table.checkScopes few "app").result =
      .error (.missingScope 1 "assets" "app/assets") := rfl
  have failed' : (table.checkScopes more "app").result =
      .error (.missingScope 2 "fonts" "app/fonts") := rfl
  obtain ⟨place, first⟩ := (reports _).mp failed
  obtain ⟨place', first'⟩ := (reports' _).mp failed'
  exact ⟨place, place', first, first', (grows more added).2 _ _ _ _ first first'⟩

end RuleTable

end AssetPlan
