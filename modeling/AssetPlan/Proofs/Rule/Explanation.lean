import AssetPlan.Rule.Explanation
import Mathlib.Logic.Basic

/-! # Explanations agree with decisions

A table decides by the first rule that matches the normal form of a path. An explanation walks over
all rules with a mark that tells whether one has matched; it names the rule that the table decides
for, and shows for each rule its own outcome up to the first match and none behind it.
-/

namespace AssetPlan.RuleTable

/-- The rule at place `i` matches the path, and none before it does. -/
structure FirstMatch (path : String) (rules : List Rule) (i : Nat) (rule : Rule) : Prop where
  place : rules[i]? = some rule
  matched : rule.check path = .matched
  least : ∀ j < i, ∀ earlier, rules[j]? = some earlier → earlier.check path ≠ .matched

theorem FirstMatch.not_nil {path : String} {i : Nat} {rule : Rule} :
    ¬ FirstMatch path [] i rule :=
  fun first => nomatch first.place

theorem firstMatch_zero_iff {path : String} {r rule : Rule} {rest : List Rule} :
    FirstMatch path (r :: rest) 0 rule ↔ r = rule ∧ rule.check path = .matched :=
  ⟨fun first => ⟨Option.some.inj first.place, first.matched⟩,
    fun ⟨same, matched⟩ => ⟨congrArg some same, matched, fun _ before => nomatch before⟩⟩

theorem firstMatch_succ_iff {path : String} {r rule : Rule} {rest : List Rule} {i : Nat} :
    FirstMatch path (r :: rest) (i + 1) rule ↔
      r.check path ≠ .matched ∧ FirstMatch path rest i rule := by
  constructor
  · rintro ⟨place, matched, least⟩
    refine ⟨least 0 i.succ_pos r rfl, place, matched, fun j before => ?_⟩
    exact least (j + 1) (Nat.succ_lt_succ before)
  · rintro ⟨missed, place, matched, least⟩
    refine ⟨place, matched, fun j before earlier found => ?_⟩
    cases j with
    | zero => exact Option.some.inj found ▸ missed
    | succ j => exact least j (Nat.lt_of_succ_lt_succ before) earlier found

/-- What is decided from a place on, the rules being tried in order. -/
theorem resolveFrom_eq_matched_iff {path : String} {index i : Nat} {rules : List Rule}
    {rule : Rule} :
    resolveFrom path index rules = .matched i rule ↔
      ∃ k, i = index + k ∧ FirstMatch path rules k rule := by
  induction rules generalizing index with
  | nil =>
    constructor
    · exact fun same => nomatch same
    · rintro ⟨_, _, first⟩
      exact first.not_nil.elim
  | cons r rest ih =>
    rw [resolveFrom]
    split
    next here =>
      constructor
      · rintro ⟨⟩
        exact ⟨0, rfl, firstMatch_zero_iff.mpr ⟨rfl, here⟩⟩
      · rintro ⟨k, rfl, first⟩
        cases k with
        | zero => rw [(firstMatch_zero_iff.mp first).1, Nat.add_zero]
        | succ k => exact absurd here (firstMatch_succ_iff.mp first).1
    next missed =>
      rw [ih]
      constructor
      · rintro ⟨k, rfl, first⟩
        exact ⟨k + 1, by omega, firstMatch_succ_iff.mpr ⟨missed, first⟩⟩
      · rintro ⟨k, rfl, first⟩
        cases k with
        | zero =>
          obtain ⟨rfl, matched⟩ := firstMatch_zero_iff.mp first
          exact absurd matched missed
        | succ k => exact ⟨k, by omega, (firstMatch_succ_iff.mp first).2⟩

theorem resolveFrom_eq_passThrough_iff {path : String} {index : Nat} {rules : List Rule} :
    resolveFrom path index rules = .passThrough ↔ ∀ rule ∈ rules, rule.check path ≠ .matched := by
  induction rules generalizing index with
  | nil => simp [resolveFrom]
  | cons r rest ih =>
    rw [resolveFrom, List.forall_mem_cons]
    split
    next here => simp [here]
    next missed => simp [missed, ih]

theorem resolve_eq_matched_iff {table : RuleTable} {path : String} {i : Nat} {rule : Rule} :
    table.resolve path = .matched i rule ↔ FirstMatch (Path.normalize path) table i rule := by
  rw [resolve, resolveFrom_eq_matched_iff]
  simp

/-- The decision about a path stands at the place that it names. -/
theorem rule?_resolve (table : RuleTable) (path : String) :
    ((table.resolve path).index?.bind fun i => table[i]?) = (table.resolve path).rule? := by
  cases decided : table.resolve path with
  | passThrough => rfl
  | matched i rule => exact (resolve_eq_matched_iff.mp decided).place

/-- The entry of a rule, `decided` telling whether one before has matched. -/
def entryOf (path : String) (index : Nat) (decided : Bool) (rule : Rule) : TraceEntry :=
  { index := index
    label := rule.label index
    matcher := rule.matcher.describe
    scope := rule.scope
    outcome := if decided then .notEvaluated else .ofCheck (rule.check path) }

@[simp] theorem ofCheck_eq_matched_iff {c : Check} : Outcome.ofCheck c = .matched ↔ c = .matched := by
  cases c <;> simp [Outcome.ofCheck]

theorem traceFrom_cons (path : String) (index : Nat) (decided : Bool) (rule : Rule)
    (rest : List Rule) :
    traceFrom path index decided (rule :: rest) = entryOf path index decided rule ::
      traceFrom path (index + 1) (decided || rule.check path == .matched) rest := by
  rw [traceFrom, entryOf]
  congr 2
  cases decided with
  | true => rfl
  | false => cases rule.check path <;> rfl

theorem length_traceFrom (path : String) (index : Nat) (decided : Bool) (rules : List Rule) :
    (traceFrom path index decided rules).length = rules.length := by
  induction rules generalizing index decided with
  | nil => rfl
  | cons rule rest ih => rw [traceFrom_cons, List.length_cons, List.length_cons, ih]

/-- The invariant of the walk: the mark before a place tells whether one of the rules in front of
it has matched. -/
theorem getElem?_traceFrom (path : String) (index : Nat) (decided : Bool) (rules : List Rule)
    (k : Nat) :
    (traceFrom path index decided rules)[k]? = rules[k]?.map
      (entryOf path (index + k)
        (decided || (rules.take k).any fun rule => rule.check path == .matched)) := by
  induction rules generalizing index decided k with
  | nil => simp [traceFrom]
  | cons rule rest ih =>
    rw [traceFrom_cons]
    cases k with
    | zero => simp
    | succ k =>
      have place : index + 1 + k = index + (k + 1) := by omega
      rw [List.getElem?_cons_succ, List.getElem?_cons_succ, ih, List.take_succ_cons, List.any_cons,
        Bool.or_assoc, place]

/-- The first entry with a match is that of the rule that decides. -/
theorem find?_traceFrom (path : String) (index : Nat) (rules : List Rule) :
    ((traceFrom path index false rules).find? fun t => t.outcome == .matched).map TraceEntry.index =
      (resolveFrom path index rules).index? := by
  induction rules generalizing index with
  | nil => rfl
  | cons rule rest ih =>
    rw [traceFrom_cons, resolveFrom]
    split
    next here =>
      have hit : (entryOf path index false rule).outcome = .matched := by simp [entryOf, here]
      rw [List.find?_cons_of_pos (by simp [hit])]
      rfl
    next missed =>
      have miss : (entryOf path index false rule).outcome ≠ .matched := by simp [entryOf, missed]
      have unmarked : (false || rule.check path == .matched) = false := by simp [missed]
      rw [List.find?_cons_of_neg (by simp [miss]), unmarked, ih]

/-- The mark before a place is set exactly if the first match stands in front of it. -/
theorem FirstMatch.any_take_iff {path : String} {rules : List Rule} {i : Nat} {rule : Rule}
    (first : FirstMatch path rules i rule) (k : Nat) :
    ((rules.take k).any fun r => r.check path == .matched) ↔ i < k := by
  simp only [List.any_eq_true, beq_iff_eq]
  constructor
  · rintro ⟨r, member, matched⟩
    obtain ⟨j, before, rfl⟩ := List.mem_take_iff_getElem.mp member
    have inTable : rules[j]? = some rules[j] := List.getElem?_eq_getElem (by omega)
    have notEarlier : ¬ j < i := fun earlier => first.least j earlier _ inTable matched
    omega
  · intro behind
    refine ⟨rule, ?_, first.matched⟩
    have kept : (rules.take k)[i]? = some rule := by
      rw [List.getElem?_take_of_lt behind, first.place]
    exact List.mem_of_getElem? kept

/-- The outcome shown for the rule at place `k` if the rule at place `winner` decides: its own,
unless it stands behind the winner. -/
def shownOutcome (winner : Option Nat) (k : Nat) (own : Check) : Outcome :=
  match winner with
  | none => .ofCheck own
  | some i => if i < k then .notEvaluated else .ofCheck own

/-- The outcome that the walk shows is decided by the rule that the table decides for. -/
theorem outcome_entryOf (table : RuleTable) (path : String) (k : Nat) (rule : Rule) :
    (entryOf (Path.normalize path) k
      ((table.take k).any fun r => r.check (Path.normalize path) == .matched) rule).outcome =
      shownOutcome (table.resolve path).index? k (rule.check (Path.normalize path)) := by
  cases decided : table.resolve path with
  | matched i winner =>
    have marked := (resolve_eq_matched_iff.mp decided).any_take_iff k
    simp only [entryOf, marked, Resolution.index?, shownOutcome]
  | passThrough =>
    have missed := resolveFrom_eq_passThrough_iff.mp decided
    have unmarked : ¬ (table.take k).any fun r => r.check (Path.normalize path) == .matched := by
      simp only [List.any_eq_true, beq_iff_eq, not_exists, not_and]
      exact fun r member => missed r (List.mem_of_mem_take member)
    simp only [entryOf, unmarked, Resolution.index?, shownOutcome, Bool.false_eq_true, if_false]

theorem matchedRule_explain (table : RuleTable) (path : String) :
    (table.explain path).matchedRule = (table.resolve path).index? :=
  find?_traceFrom _ 0 table

/-- Each rule has one entry in the trace, at its place. -/
theorem getElem?_trace_explain (table : RuleTable) (path : String) (k : Nat) :
    (table.explain path).trace[k]? = table[k]?.map fun rule =>
      { index := k
        label := rule.label k
        matcher := rule.matcher.describe
        scope := rule.scope
        outcome :=
          shownOutcome (table.resolve path).index? k (rule.check (Path.normalize path)) } := by
  change (traceFrom (Path.normalize path) 0 false table)[k]? = _
  rw [getElem?_traceFrom]
  cases place : table[k]? with
  | none => rfl
  | some rule =>
    rw [Option.map_some, Option.map_some, Nat.zero_add, Bool.false_or,
      ← outcome_entryOf]
    rfl

/-- A match is shown for the rule that decides only. -/
theorem shownOutcome_eq_matched_iff (table : RuleTable) (path : String) {k : Nat} {rule : Rule}
    (place : table[k]? = some rule) :
    shownOutcome (table.resolve path).index? k (rule.check (Path.normalize path)) = .matched ↔
      (table.resolve path).index? = some k := by
  cases decided : table.resolve path with
  | passThrough =>
    have missed := resolveFrom_eq_passThrough_iff.mp decided rule (List.mem_of_getElem? place)
    simp [Resolution.index?, shownOutcome, missed]
  | matched i winner =>
    have first := resolve_eq_matched_iff.mp decided
    rw [Resolution.index?, Option.some.injEq, shownOutcome]
    split
    next behind => exact iff_of_false (fun same => nomatch same) (by omega)
    next upTo =>
      rw [ofCheck_eq_matched_iff]
      constructor
      · intro matched
        have notEarlier : ¬ k < i := fun earlier => first.least k earlier rule place matched
        omega
      · rintro rfl
        cases first.place.symm.trans place
        exact first.matched

/-- A table decides by the first rule that matches, and its explanation is that of this decision:
it names the rule with what the rule carries, and its trace shows for each rule its own outcome up
to the first match, and behind it that the rule was not evaluated. -/
theorem explain_first_match (table : RuleTable) (path : String) :
    (∀ i rule, table.resolve path = .matched i rule ↔
        FirstMatch (Path.normalize path) table i rule) ∧
      (table.resolve path = .passThrough ↔
        ∀ rule ∈ table, rule.check (Path.normalize path) ≠ .matched) ∧
      (table.explain path).path = Path.normalize path ∧
      (table.explain path).matchedRule = (table.resolve path).index? ∧
      (table.explain path).matchedLabel = (table.resolve path).rule?.bind Rule.name ∧
      (table.explain path).pipeline =
        ((table.resolve path).pipeline?.map Pipeline.loaders).getD [] ∧
      (table.explain path).output =
        ((table.resolve path).rule?.bind Rule.output).map OutputPolicy.kind ∧
      (table.explain path).trace.length = table.length ∧
      ∀ k rule, table[k]? = some rule → ∃ entry, (table.explain path).trace[k]? = some entry ∧
        entry.index = k ∧ entry.label = rule.label k ∧
        entry.outcome = shownOutcome (table.resolve path).index? k
          (rule.check (Path.normalize path)) ∧
        (entry.outcome = .matched ↔ (table.resolve path).index? = some k) := by
  have winner : ((table.explain path).matchedRule.bind fun i => table[i]?) =
      (table.resolve path).rule? := by
    rw [matchedRule_explain, rule?_resolve]
  have label : (table.explain path).matchedLabel = (table.resolve path).rule?.bind Rule.name := by
    rw [← winner]
    rfl
  have pipeline : (table.explain path).pipeline =
      ((table.resolve path).pipeline?.map Pipeline.loaders).getD [] := by
    rw [Resolution.pipeline?, ← winner, Option.map_map]
    rfl
  have output : (table.explain path).output =
      ((table.resolve path).rule?.bind Rule.output).map OutputPolicy.kind := by
    rw [← winner]
    rfl
  refine ⟨fun i rule => resolve_eq_matched_iff, resolveFrom_eq_passThrough_iff, rfl,
    matchedRule_explain table path, label, pipeline, output, length_traceFrom _ _ _ _, ?_⟩
  intro k rule place
  refine ⟨_, by rw [getElem?_trace_explain, place, Option.map_some], rfl, rfl, rfl, ?_⟩
  exact shownOutcome_eq_matched_iff table path place

/-- A rule out of scope comes first, a nested condition decides, and the rule behind it would match
as well. -/
theorem explain_first_match_logo :
    let vendor : Rule :=
      { name := some "vendor", matcher := .contains ".svg", scope := ["node_modules"] }
    let logo : Rule :=
      { matcher := .all [.all [.contains "logo", .predicate fun path => path.length < 20],
          .contains ".svg"]
        pipeline := [{ loader := "svg-loader" }]
        output := some .resource }
    let svg : Rule := { name := some "svg", matcher := .contains ".svg" }
    let table : RuleTable := [vendor, logo, svg]
    let e := table.explain "./src/../src\\logo.svg"
    (e.matchedRule = some 1 ∧ e.matchedLabel = none ∧ e.pipeline = ["svg-loader"] ∧
        e.output = some "resource") ∧
      (∃ entry, e.trace[0]? = some entry ∧ entry.outcome = .scopeExcluded) ∧
      (∃ entry, e.trace[1]? = some entry ∧ entry.label = "#1" ∧ entry.outcome = .matched) ∧
      ∃ entry, e.trace[2]? = some entry ∧ entry.outcome = .notEvaluated := by
  intro vendor logo svg table e
  have decided : table.resolve "./src/../src\\logo.svg" = .matched 1 logo := by rfl
  obtain ⟨_, _, _, rule, label, pipeline, output, _, trace⟩ :=
    explain_first_match table "./src/../src\\logo.svg"
  rw [decided] at rule label pipeline output trace
  obtain ⟨entry₀, place₀, _, _, outcome₀, _⟩ := trace 0 vendor rfl
  obtain ⟨entry₁, place₁, _, label₁, _, outcome₁⟩ := trace 1 logo rfl
  obtain ⟨entry₂, place₂, _, _, outcome₂, _⟩ := trace 2 svg rfl
  exact ⟨⟨rule, label, pipeline, output⟩, ⟨entry₀, place₀, outcome₀⟩,
    ⟨entry₁, place₁, label₁, outcome₁.mpr rfl⟩, ⟨entry₂, place₂, outcome₂⟩⟩

end AssetPlan.RuleTable
