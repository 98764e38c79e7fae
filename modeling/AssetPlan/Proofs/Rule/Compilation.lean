import AssetPlan.Proofs.Rule.Scope
import AssetPlan.Rule.Table

/-! # What compiling definitions judges and keeps

A definition is judged in four respects, one after the other: its pattern, the presence of a
matcher, its scope entries and its loader names. The first fault of the first definition that has
one is reported. Definitions without faults become rules in their order, each of which checks a path
as its definition says: first what the path must contain, then the directories it must lie under.
-/

namespace AssetPlan

namespace Matcher

theorem isMatch_both (m other : Matcher) (path : String) :
    (m.both other).isMatch path = (m.isMatch path && other.isMatch path) := by
  have allMatch_append (matchers : List Matcher) :
      allMatch path (matchers ++ [other]) =
        (allMatch path matchers && other.isMatch path) := by
    induction matchers with
    | nil => simp [allMatch]
    | cons first rest ih => simp [allMatch, ih, Bool.and_assoc]
  cases m with
  | all matchers => exact allMatch_append matchers
  | _ => simp [both, isMatch, allMatch]

end Matcher

namespace Rule

variable {rule : Rule} {path : String}

theorem inScope_eq_true_iff : rule.inScope path = true ↔
    rule.scope = [] ∨ ∃ dir ∈ rule.scope, Path.isUnder path dir = true := by
  rw [inScope, Bool.or_eq_true, List.isEmpty_iff, List.any_eq_true]

theorem inScope_eq_false_iff : rule.inScope path = false ↔
    rule.scope ≠ [] ∧ ∀ dir ∈ rule.scope, Path.isUnder path dir = false := by
  rw [← Bool.not_eq_true, inScope_eq_true_iff]
  simp

theorem check_eq_matcherMiss_iff :
    rule.check path = .matcherMiss ↔ rule.matcher.isMatch path = false := by
  rw [check]
  cases rule.matcher.isMatch path <;> cases rule.inScope path <;> simp

theorem check_eq_scopeExcluded_iff :
    rule.check path = .scopeExcluded ↔
      rule.matcher.isMatch path = true ∧ rule.inScope path = false := by
  rw [check]
  cases rule.matcher.isMatch path <;> cases rule.inScope path <;> simp

theorem check_eq_matched_iff :
    rule.check path = .matched ↔
      rule.matcher.isMatch path = true ∧ rule.inScope path = true := by
  rw [check]
  cases rule.matcher.isMatch path <;> cases rule.inScope path <;> simp

end Rule

namespace Definition

variable {engine : Engine} {d : Definition} {index : Nat} {failure : RuleError} {rule : Rule}

/-- The pattern can be read, if there is one. -/
def ReadsPattern (engine : Engine) (d : Definition) : Prop :=
  ∀ source, d.test = some source → ∃ found, engine source d.ignoreCase = .ok found

/-- There is something that a path must contain. -/
def HasMatcher (d : Definition) : Prop := d.test ≠ none ∨ d.contains ≠ none

/-- A scope entry leads somewhere else than to where it starts. -/
def NamesDirectory (entry : String) : Prop :=
  Path.normalize entry ≠ "" ∧ Path.normalize entry ≠ "/"

instance : DecidablePred NamesDirectory := fun _ => inferInstanceAs (Decidable (_ ∧ _))

/-- The definition has no faults. -/
structure Compilable (engine : Engine) (d : Definition) : Prop where
  pattern : d.ReadsPattern engine
  matcher : d.HasMatcher
  scope : ∀ entry ∈ d.scope, NamesDirectory entry
  loaders : ∀ step ∈ d.pipeline, Text.isBlankText step.loader = false

/-- The first fault of a definition that stands at a place of its table. -/
inductive FirstFault (engine : Engine) (d : Definition) (index : Nat) : RuleError → Prop
  | invalidPattern {source : String} {cause : Pattern.PatternError} (test : d.test = some source)
    (refused : engine source d.ignoreCase = .error cause) :
    FirstFault engine d index (.invalidPattern index source cause)
  | missingMatcher (pattern : d.ReadsPattern engine) (missing : ¬ d.HasMatcher) :
    FirstFault engine d index (.missingMatcher index)
  | emptyScope (pattern : d.ReadsPattern engine) (matcher : d.HasMatcher) {entry : String}
    (member : entry ∈ d.scope) (empty : ¬ NamesDirectory entry) :
    FirstFault engine d index (.emptyScope index)
  | emptyLoader (pattern : d.ReadsPattern engine) (matcher : d.HasMatcher)
    (scope : ∀ entry ∈ d.scope, NamesDirectory entry) {place : Nat} {step : Step}
    (stands : d.pipeline[place]? = some step) (blank : Text.isBlankText step.loader = true)
    (first : ∀ j < place, ∀ earlier, d.pipeline[j]? = some earlier →
      Text.isBlankText earlier.loader = false) :
    FirstFault engine d index (.emptyLoader index place)

/-- The pattern, if there is one, is found in the path, and the text, if there is one, stands in
it. -/
def Admits (engine : Engine) (d : Definition) (path : String) : Prop :=
  (∀ source found, d.test = some source → engine source d.ignoreCase = .ok found →
    found path = true) ∧
  ∀ needle, d.contains = some needle → needle.toList <:+: path.toList

theorem compileMatcher_of_refused {source : String} {cause : Pattern.PatternError}
    (test : d.test = some source) (refused : engine source d.ignoreCase = .error cause) :
    d.compileMatcher engine index = .error (.invalidPattern index source cause) := by
  simp only [compileMatcher, test, refused]

theorem compileMatcher_of_missing (missing : ¬ d.HasMatcher) :
    d.compileMatcher engine index = .error (.missingMatcher index) := by
  have ⟨noTest, noText⟩ : d.test = none ∧ d.contains = none := by
    simpa [HasMatcher] using missing
  simp only [compileMatcher, noTest, noText]

theorem admits_iff_of_read {source : String} {found : String → Bool} {path : String}
    (test : d.test = some source) (read : engine source d.ignoreCase = .ok found) :
    d.Admits engine path ↔ found path = true ∧
      ∀ needle, d.contains = some needle → needle.toList <:+: path.toList := by
  refine and_congr_left fun _ => ⟨fun holds => holds source found test read, ?_⟩
  intro holds source' found' test' read'
  cases test.symm.trans test'
  cases read.symm.trans read'
  exact holds

/-- A matcher holds on the paths that its definition admits. -/
theorem exists_compileMatcher (pattern : d.ReadsPattern engine) (matcher : d.HasMatcher)
    (index : Nat) : ∃ m, d.compileMatcher engine index = .ok m ∧
      ∀ path, m.isMatch path = true ↔ d.Admits engine path := by
  cases test : d.test with
  | none =>
    cases text : d.contains with
    | none => exact absurd matcher (by simp [HasMatcher, test, text])
    | some needle =>
      refine ⟨.contains needle, by simp only [compileMatcher, test, text], fun path => ?_⟩
      simp [Matcher.isMatch, Admits, test, text, Text.occursIn_iff]
  | some source =>
    obtain ⟨found, read⟩ := pattern source test
    cases text : d.contains with
    | none =>
      refine ⟨.pattern source found, by simp only [compileMatcher, test, read, text],
        fun path => ?_⟩
      simp [Matcher.isMatch, admits_iff_of_read test read, text]
    | some needle =>
      refine ⟨(Matcher.pattern source found).both (.contains needle),
        by simp only [compileMatcher, test, read, text], fun path => ?_⟩
      rw [Matcher.isMatch_both, Bool.and_eq_true, admits_iff_of_read test read]
      simp [Matcher.isMatch, text, Text.occursIn_iff]

section Scopes

variable {scope : List String} {entry : String}

theorem namesDirectory_iff (entry : String) :
    NamesDirectory entry ↔ Path.normalSegments entry.toList ≠ [] := by
  constructor
  · rintro ⟨nonempty, notRoot⟩ none
    cases absolute : Path.isAbsolute (Path.slashed entry.toList) with
    | true =>
      apply notRoot
      rw [Path.normalize, Path.normalChars_of_absolute absolute, none]
      rfl
    | false =>
      apply nonempty
      rw [Path.normalize, Path.normalChars_of_relative absolute, none]
      rfl
  · intro some
    -- neither text has a segment, and the normal form has those of the entry
    have other {text : String} (none : (Path.Route.of text.toList).segments = []) :
        Path.normalize entry ≠ text := by
      rintro rfl
      rw [Path.normalize, String.toList_ofList, Path.Route.of_normalChars,
        Path.Route.segments_of] at none
      exact some none
    exact ⟨other rfl, other rfl⟩

theorem scopeDirectory?_of_names (named : NamesDirectory entry) :
    scopeDirectory? entry = some (Path.normalize entry) := by
  rw [scopeDirectory?_eq, if_neg ((namesDirectory_iff entry).mp named)]

theorem scopeDirectory?_of_not (empty : ¬ NamesDirectory entry) :
    scopeDirectory? entry = none := by
  rw [scopeDirectory?_eq, if_pos (not_not.mp (mt (namesDirectory_iff entry).mpr empty))]

theorem compileScope_cons (index : Nat) (entry : String) (rest : List String) :
    compileScope index (entry :: rest) =
      match scopeDirectory? entry with
      | none => .error (.emptyScope index)
      | some dir => (compileScope index rest).map (dir :: ·) := by
  rw [compileScope, List.mapM_cons]
  cases scopeDirectory? entry with
  | none => rfl
  | some dir =>
    change (compileScope index rest >>= fun dirs => .ok (dir :: dirs)) = _
    cases compileScope index rest <;> rfl

/-- A scope is compiled to the normal forms of its entries. -/
theorem compileScope_of_names (named : ∀ entry ∈ scope, NamesDirectory entry) :
    compileScope index scope = .ok (scope.map Path.normalize) := by
  induction scope with
  | nil => rfl
  | cons entry rest ih =>
    obtain ⟨first, others⟩ := List.forall_mem_cons.mp named
    rw [compileScope_cons, scopeDirectory?_of_names first, ih others]
    rfl

theorem compileScope_of_mem (member : entry ∈ scope) (empty : ¬ NamesDirectory entry) :
    compileScope index scope = .error (.emptyScope index) := by
  induction scope with
  | nil => cases member
  | cons first rest ih =>
    rw [compileScope_cons]
    by_cases named : NamesDirectory first
    · rw [scopeDirectory?_of_names named]
      rcases List.mem_cons.mp member with rfl | later
      · exact absurd named empty
      · rw [ih later]
        rfl
    · rw [scopeDirectory?_of_not named]

end Scopes

section Loaders

variable {steps : List Step}

theorem blankStep?_eq (start : Nat) (steps : List Step) :
    blankStep? start steps =
      (steps.findIdx? fun step => Text.isBlankText step.loader).map (start + ·) := by
  induction steps generalizing start with
  | nil => rfl
  | cons step rest ih =>
    rw [blankStep?, List.findIdx?_cons]
    cases Text.isBlankText step.loader with
    | true => rfl
    | false =>
      have place (i : Nat) : start + 1 + i = start + (i + 1) := by omega
      rw [if_neg Bool.false_ne_true, if_neg Bool.false_ne_true, ih, Option.map_map]
      exact congrArg (Option.map · _) (funext place)

theorem blankStep?_of_named (named : ∀ step ∈ steps, Text.isBlankText step.loader = false) :
    blankStep? 0 steps = none := by
  rw [blankStep?_eq, Option.map_eq_none_iff, List.findIdx?_eq_none_iff]
  exact named

theorem blankStep?_of_first {place : Nat} {step : Step} (stands : steps[place]? = some step)
    (blank : Text.isBlankText step.loader = true)
    (first : ∀ j < place, ∀ earlier, steps[j]? = some earlier →
      Text.isBlankText earlier.loader = false) : blankStep? 0 steps = some place := by
  obtain ⟨inside, rfl⟩ := List.getElem?_eq_some_iff.mp stands
  have found : steps.findIdx? (fun step => Text.isBlankText step.loader) = some place := by
    rw [List.findIdx?_eq_some_iff_getElem]
    refine ⟨inside, blank, fun j before => ?_⟩
    have earlier := first j before _ (List.getElem?_eq_getElem (by omega))
    simpa using earlier
  rw [blankStep?_eq, found, Option.map_some, Nat.zero_add]

end Loaders

/-- The rule of a definition, but for the matcher. -/
def ruleWith (d : Definition) (matcher : Matcher) : Rule where
  name := d.name
  matcher := matcher
  scope := d.scope.map Path.normalize
  optionalScope := d.optionalScope
  pipeline := d.pipeline
  output := d.output

theorem compileWith_of_compilable (sound : d.Compilable engine) (index : Nat) :
    ∃ m, d.compileWith engine index = .ok (d.ruleWith m) ∧
      ∀ path, m.isMatch path = true ↔ d.Admits engine path := by
  obtain ⟨m, compiled, admits⟩ := exists_compileMatcher sound.pattern sound.matcher index
  refine ⟨m, ?_, admits⟩
  rw [compileWith, compiled, Except.ok_bind, compileScope_of_names sound.scope, Except.ok_bind,
    blankStep?_of_named sound.loaders]
  rfl

theorem compileWith_of_fault (fault : d.FirstFault engine index failure) :
    d.compileWith engine index = .error failure := by
  rw [compileWith]
  cases fault with
  | invalidPattern test refused => rw [compileMatcher_of_refused test refused]; rfl
  | missingMatcher _ missing => rw [compileMatcher_of_missing missing]; rfl
  | emptyScope pattern matcher member empty =>
    obtain ⟨m, compiled, _⟩ := exists_compileMatcher pattern matcher index
    rw [compiled, Except.ok_bind, compileScope_of_mem member empty]
    rfl
  | emptyLoader pattern matcher scope stands blank first =>
    obtain ⟨m, compiled, _⟩ := exists_compileMatcher pattern matcher index
    rw [compiled, Except.ok_bind, compileScope_of_names scope, Except.ok_bind,
      blankStep?_of_first stands blank first]

/-- A definition that is not fit to be compiled has a first fault. -/
theorem compilable_or_fault (engine : Engine) (d : Definition) (index : Nat) :
    d.Compilable engine ∨ ∃ failure, d.FirstFault engine index failure := by
  by_cases pattern : d.ReadsPattern engine
  case neg =>
    simp only [ReadsPattern, not_forall] at pattern
    obtain ⟨source, test, unread⟩ := pattern
    obtain ⟨cause, refused⟩ := Except.exists_error_iff.mpr unread
    exact .inr ⟨_, .invalidPattern test refused⟩
  by_cases matcher : d.HasMatcher
  case neg => exact .inr ⟨_, .missingMatcher pattern matcher⟩
  by_cases scope : ∀ entry ∈ d.scope, NamesDirectory entry
  case neg =>
    simp only [not_forall] at scope
    obtain ⟨entry, member, empty⟩ := scope
    exact .inr ⟨_, .emptyScope pattern matcher member empty⟩
  cases found : d.pipeline.findIdx? fun step => Text.isBlankText step.loader with
  | none => exact .inl ⟨pattern, matcher, scope, List.findIdx?_eq_none_iff.mp found⟩
  | some place =>
    obtain ⟨inside, blank, first⟩ := List.findIdx?_eq_some_iff_getElem.mp found
    refine .inr ⟨_, .emptyLoader pattern matcher scope (List.getElem?_eq_getElem inside) blank ?_⟩
    intro j before earlier stands
    obtain ⟨_, rfl⟩ := List.getElem?_eq_some_iff.mp stands
    simpa using first j before

theorem exists_compileWith_iff (index : Nat) :
    (∃ rule, d.compileWith engine index = .ok rule) ↔ d.Compilable engine := by
  constructor
  · rintro ⟨rule, compiled⟩
    rcases compilable_or_fault engine d index with sound | ⟨failure, fault⟩
    · exact sound
    · cases compiled.symm.trans (compileWith_of_fault fault)
  · intro sound
    obtain ⟨m, compiled, _⟩ := compileWith_of_compilable sound index
    exact ⟨_, compiled⟩

theorem compileWith_eq_error_iff :
    d.compileWith engine index = .error failure ↔ d.FirstFault engine index failure := by
  refine ⟨fun failed => ?_, compileWith_of_fault⟩
  rcases compilable_or_fault engine d index with sound | ⟨other, fault⟩
  · obtain ⟨rule, compiled⟩ := (exists_compileWith_iff index).mpr sound
    cases failed.symm.trans compiled
  · cases failed.symm.trans (compileWith_of_fault fault)
    exact fault

/-- The rule carries what the definition carries and checks a path as the definition says: it misses
what the definition does not admit, and excludes the rest if it lies under none of its directories.
The directories are normal forms, and each covers only the paths that continue its segments. -/
structure RealizedBy (engine : Engine) (d : Definition) (rule : Rule) : Prop where
  name : rule.name = d.name
  optionalScope : rule.optionalScope = d.optionalScope
  pipeline : rule.pipeline = d.pipeline
  output : rule.output = d.output
  scope : rule.scope = d.scope.map Path.normalize
  missed : ∀ path, rule.check path = .matcherMiss ↔ ¬ d.Admits engine path
  excluded : ∀ path, rule.check path = .scopeExcluded ↔
    d.Admits engine path ∧ rule.scope ≠ [] ∧ ∀ dir ∈ rule.scope, Path.isUnder path dir = false
  matched : ∀ path, rule.check path = .matched ↔
    d.Admits engine path ∧ (rule.scope = [] ∨ ∃ dir ∈ rule.scope, Path.isUnder path dir = true)
  directory : ∀ dir ∈ rule.scope, Path.normalize dir = dir ∧
    Path.withoutTrailingSlashes dir.toList ≠ [] ∧
    ∀ path, Path.isUnder path dir = true ↔
      Text.split '/' dir.toList <+: Text.split '/' path.toList

theorem directory_of_names {entry : String} (named : NamesDirectory entry) :
    Path.normalize (Path.normalize entry) = Path.normalize entry ∧
      Path.withoutTrailingSlashes (Path.normalize entry).toList ≠ [] ∧
      ∀ path, Path.isUnder path (Path.normalize entry) = true ↔
        Text.split '/' (Path.normalize entry).toList <+: Text.split '/' path.toList := by
  have some := (namesDirectory_iff entry).mp named
  have trimmed : Path.withoutTrailingSlashes (Path.normalize entry).toList =
      (Path.normalize entry).toList := by
    rw [Path.normalize, String.toList_ofList, Path.withoutTrailingSlashes_normalChars some]
  have nonempty : (Path.normalize entry).toList ≠ [] := by
    rw [Path.normalize, String.toList_ofList]
    exact Path.normalChars_ne_nil some
  have under (path : String) : Path.isUnder path (Path.normalize entry) = true ↔
      Text.split '/' (Path.normalize entry).toList <+: Text.split '/' path.toList := by
    rw [Path.isUnder, Path.isUnderChars_iff, trimmed, or_iff_right nonempty]
  rw [trimmed]
  exact ⟨Path.normalize_normalize entry, nonempty, under⟩

theorem realizedBy_of_compileWith (compiled : d.compileWith engine index = .ok rule) :
    d.RealizedBy engine rule := by
  have sound : d.Compilable engine := (exists_compileWith_iff index).mp ⟨rule, compiled⟩
  obtain ⟨m, same, admits⟩ := compileWith_of_compilable sound index
  obtain rfl : rule = d.ruleWith m := Except.ok.inj (compiled.symm.trans same)
  refine ⟨rfl, rfl, rfl, rfl, rfl, fun path => ?_, fun path => ?_, fun path => ?_, ?_⟩
  · rw [Rule.check_eq_matcherMiss_iff, ← admits, Bool.not_eq_true]
    rfl
  · rw [Rule.check_eq_scopeExcluded_iff, Rule.inScope_eq_false_iff, ← admits]
    rfl
  · rw [Rule.check_eq_matched_iff, Rule.inScope_eq_true_iff, ← admits]
    rfl
  · intro dir stored
    obtain ⟨entry, member, rfl⟩ := List.mem_map.mp stored
    exact directory_of_names (sound.scope entry member)

end Definition

namespace RuleTable

open Definition (Engine)

variable {engine : Engine} {index : Nat} {defs : List Definition} {table : RuleTable}
  {failure : RuleError}

theorem exists_compileFrom_iff (index : Nat) :
    (∃ table, compileFrom engine index defs = .ok table) ↔ ∀ d ∈ defs, d.Compilable engine := by
  induction defs generalizing index with
  | nil => exact iff_of_true ⟨[], rfl⟩ (List.forall_mem_nil _)
  | cons d rest ih =>
    rw [List.forall_mem_cons, ← ih (index + 1), ← Definition.exists_compileWith_iff index]
    constructor
    · rintro ⟨table, compiled⟩
      obtain ⟨rule, first, compiled⟩ := Except.bind_eq_ok_iff.mp compiled
      obtain ⟨rules, later, _⟩ := Except.bind_eq_ok_iff.mp compiled
      exact ⟨⟨rule, first⟩, rules, later⟩
    · rintro ⟨⟨rule, first⟩, rules, later⟩
      refine ⟨rule :: rules, ?_⟩
      rw [compileFrom, first, Except.ok_bind, later, Except.ok_bind]

/-- The failure is that of the first definition with a fault. -/
theorem compileFrom_eq_error_iff (index : Nat) :
    compileFrom engine index defs = .error failure ↔
      ∃ i d, defs[i]? = some d ∧ (∀ earlier ∈ defs.take i, earlier.Compilable engine) ∧
        d.FirstFault engine (index + i) failure := by
  induction defs generalizing index with
  | nil => exact iff_of_false nofun fun ⟨_, _, stands, _⟩ => nomatch stands
  | cons d rest ih =>
    have place (i : Nat) : index + 1 + i = index + (i + 1) := by omega
    rw [compileFrom, Except.bind_eq_error_iff, Definition.compileWith_eq_error_iff]
    constructor
    · rintro (fault | ⟨rule, first, failed⟩)
      · exact ⟨0, d, rfl, List.forall_mem_nil _, fault⟩
      · have sound : d.Compilable engine :=
          (Definition.exists_compileWith_iff index).mp ⟨rule, first⟩
        rcases Except.bind_eq_error_iff.mp failed with failed | ⟨_, _, impossible⟩
        · obtain ⟨i, later, stands, before, fault⟩ := (ih (index + 1)).mp failed
          exact ⟨i + 1, later, stands, List.forall_mem_cons.mpr ⟨sound, before⟩, place i ▸ fault⟩
        · cases impossible
    · rintro ⟨i, later, stands, before, fault⟩
      cases i with
      | zero =>
        obtain rfl : d = later := Option.some.inj stands
        exact .inl fault
      | succ i =>
        obtain ⟨sound, before⟩ := List.forall_mem_cons.mp before
        obtain ⟨rule, first⟩ := (Definition.exists_compileWith_iff index).mpr sound
        have failed : compileFrom engine (index + 1) rest = .error failure :=
          (ih (index + 1)).mpr ⟨i, later, stands, before, (place i).symm ▸ fault⟩
        exact .inr ⟨rule, first, Except.bind_eq_error_iff.mpr (.inl failed)⟩

/-- Each definition has its rule, at its place. -/
theorem getElem?_of_compileFrom (compiled : compileFrom engine index defs = .ok table) :
    table.length = defs.length ∧ ∀ (i : Nat) (d : Definition), defs[i]? = some d →
      ∃ rule, table[i]? = some rule ∧ d.compileWith engine (index + i) = .ok rule := by
  induction defs generalizing index table with
  | nil =>
    cases compiled
    exact ⟨rfl, fun _ _ stands => nomatch stands⟩
  | cons d rest ih =>
    obtain ⟨rule, first, compiled⟩ := Except.bind_eq_ok_iff.mp compiled
    obtain ⟨rules, later, same⟩ := Except.bind_eq_ok_iff.mp compiled
    cases same
    obtain ⟨length, others⟩ := ih later
    refine ⟨congrArg (· + 1) length, fun i other stands => ?_⟩
    cases i with
    | zero =>
      obtain rfl : d = other := Option.some.inj stands
      exact ⟨rule, rfl, first⟩
    | succ i =>
      have place : index + 1 + i = index + (i + 1) := by omega
      exact place ▸ others i other stands

/-- Definitions are compiled exactly if none has a fault, and else the first fault of the first
definition that has one is reported. Each definition becomes the rule at its place, which checks
paths as the definition says. -/
theorem compileFrom_by_definition (engine : Engine) (defs : List Definition) :
    ((∃ table, compileFrom engine 0 defs = .ok table) ↔ ∀ d ∈ defs, d.Compilable engine) ∧
    (∀ failure, compileFrom engine 0 defs = .error failure ↔
      ∃ i d, defs[i]? = some d ∧ (∀ earlier ∈ defs.take i, earlier.Compilable engine) ∧
        d.FirstFault engine i failure) ∧
    ∀ table, compileFrom engine 0 defs = .ok table →
      table.length = defs.length ∧
        ∀ (i : Nat) (d : Definition), defs[i]? = some d →
          ∃ rule, table[i]? = some rule ∧ d.RealizedBy engine rule := by
  refine ⟨exists_compileFrom_iff 0, fun failure => ?_, fun table compiled => ?_⟩
  · simpa only [Nat.zero_add] using compileFrom_eq_error_iff 0
  · obtain ⟨length, each⟩ := getElem?_of_compileFrom compiled
    refine ⟨length, fun i d stands => ?_⟩
    obtain ⟨rule, found, first⟩ := each i d stands
    exact ⟨rule, found, Definition.realizedBy_of_compileWith first⟩

/-- An engine whose patterns stand for themselves, and have no groups. -/
def literalEngine : Engine := fun source _ =>
  if '(' ∈ source.toList then .error .groupUnclosed
  else .ok fun path => Text.occursIn source.toList path.toList

/-- Of two faults of the second definition the scope is reported, and the first definition alone
becomes a rule with two directories. -/
theorem compileFrom_by_definition_logo :
    let logo : Definition :=
      { test := some "logo", contains := some ".svg", scope := ["./src//assets/", "..\\lib"] }
    let fonts : Definition :=
      { contains := some "fonts", scope := ["src", "a/.."], pipeline := [{ loader := " " }] }
    compileFrom literalEngine 0 [logo, fonts] = .error (.emptyScope 1) ∧
      ∃ table rule, compileFrom literalEngine 0 [logo] = .ok table ∧ table[0]? = some rule ∧
        rule.scope = ["src/assets", "../lib"] ∧
        rule.check "../lib/logo.svg" = .matched ∧
        rule.check "../library/logo.svg" = .scopeExcluded ∧
        rule.check "src/assets/logo.png" = .matcherMiss := by
  intro logo fonts
  have sound : logo.Compilable literalEngine := by
    refine ⟨fun source test => ?_, .inl nofun, by decide, List.forall_mem_nil _⟩
    cases test
    exact ⟨_, rfl⟩
  have admits (path : String) : logo.Admits literalEngine path ↔
      Text.occursIn "logo".toList path.toList = true ∧
        Text.occursIn ".svg".toList path.toList = true := by
    rw [Definition.admits_iff_of_read rfl rfl]
    simp [logo, Text.occursIn_iff]
  constructor
  · refine ((compileFrom_by_definition literalEngine [logo, fonts]).2.1 _).mpr
      ⟨1, fonts, rfl, List.forall_mem_singleton.mpr sound, ?_⟩
    exact .emptyScope nofun (.inr nofun) (List.mem_cons_of_mem _ List.mem_cons_self) (by decide)
  · obtain ⟨succeeds, _, each⟩ := compileFrom_by_definition literalEngine [logo]
    obtain ⟨table, compiled⟩ := succeeds.mpr (List.forall_mem_singleton.mpr sound)
    obtain ⟨rule, stands, realized⟩ := (each table compiled).2 0 logo rfl
    have scope : rule.scope = ["src/assets", "../lib"] := realized.scope
    refine ⟨table, rule, compiled, stands, scope, ?_, ?_, ?_⟩
    · rw [realized.matched, scope, admits]
      decide
    · rw [realized.excluded, scope, admits]
      decide
    · rw [realized.missed, admits]
      decide

end RuleTable

end AssetPlan
