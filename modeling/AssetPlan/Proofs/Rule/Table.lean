import AssetPlan.Proofs.Except
import AssetPlan.Rule.Table

/-! # Tables that are continued

Rules are compiled and tried in order, so rules that follow change nothing for those before them:
the table of the first definitions stands at the front of the table of all, and a path that it
resolves is resolved to the same rule.
-/

namespace AssetPlan.RuleTable

/-- Compiling in two parts, the second at the places after the first. -/
theorem compileFrom_append (engine : Definition.Engine) (index : Nat) (defs more : List Definition) :
    compileFrom engine index (defs ++ more) = (do
      let first ← compileFrom engine index defs
      let later ← compileFrom engine (index + defs.length) more
      .ok (first ++ later)) := by
  induction defs generalizing index with
  | nil =>
    simp only [List.nil_append, compileFrom, Except.ok_bind, List.length_nil, Nat.add_zero]
    exact (bind_pure _).symm
  | cons d rest ih =>
    have place : index + 1 + rest.length = index + (d :: rest).length := by
      rw [List.length_cons]
      omega
    simp only [List.cons_append, compileFrom, ih, place, bind_assoc, Except.ok_bind]

theorem compile_front {defs all : List Definition} {rules table : RuleTable}
    (front : defs <+: all) (first : compile defs = .ok rules) (whole : compile all = .ok table) :
    rules <+: table := by
  obtain ⟨more, rfl⟩ := front
  rw [compile, compileFrom_append, ← compile, first, Except.ok_bind] at whole
  obtain ⟨later, _, same⟩ := Except.bind_eq_ok_iff.mp whole
  cases same
  exact List.prefix_append rules later

/-- Rules that follow decide only about paths that the first rules let through. -/
theorem resolveFrom_append (path : String) (index : Nat) (rules more : List Rule) :
    resolveFrom path index (rules ++ more) =
      match resolveFrom path index rules with
      | .matched i rule => .matched i rule
      | .passThrough => resolveFrom path (index + rules.length) more := by
  induction rules generalizing index with
  | nil => rfl
  | cons rule rest ih =>
    rw [List.cons_append, resolveFrom, resolveFrom]
    split
    · rfl
    · rw [ih, List.length_cons, Nat.add_right_comm, Nat.add_assoc]

theorem resolve_of_front {rules table : RuleTable} (front : rules <+: table) {path : String}
    {i : Nat} {rule : Rule} (resolved : rules.resolve path = .matched i rule) :
    table.resolve path = .matched i rule := by
  obtain ⟨more, rfl⟩ := front
  rw [resolve] at resolved
  rw [resolve, resolveFrom_append, resolved]

/-- A longer table lets no path through that a shorter one resolves. -/
theorem passThrough_of_front {rules table : RuleTable} (front : rules <+: table) {path : String}
    (passed : table.resolve path = .passThrough) : rules.resolve path = .passThrough := by
  cases resolved : rules.resolve path with
  | passThrough => rfl
  | matched i rule =>
    rw [resolve_of_front front resolved] at passed
    cases passed

end AssetPlan.RuleTable
