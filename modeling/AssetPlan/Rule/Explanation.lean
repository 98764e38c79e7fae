import AssetPlan.Rule.Table
import AssetPlan.Value.Json.Writer

/-! # Explanations

How a table came to its decision about a path, rule by rule. Rules behind the first match are not
evaluated. An explanation has a JSON form and a form for people.
-/

namespace AssetPlan

open Schema

/-- The outcome of a rule in an explanation. -/
inductive Outcome where
  | matched
  | matcherMiss
  | scopeExcluded
  /-- an earlier rule matched -/
  | notEvaluated
deriving DecidableEq, Repr

namespace Outcome

def ofCheck : Check → Outcome
  | .matched => .matched
  | .matcherMiss => .matcherMiss
  | .scopeExcluded => .scopeExcluded

def variants : List (String × Outcome) :=
  [("matched", .matched), ("matcher-miss", .matcherMiss), ("scope-excluded", .scopeExcluded),
    ("not-evaluated", .notEvaluated)]

def name : Outcome → String
  | .matched => "matched"
  | .matcherMiss => "matcher-miss"
  | .scopeExcluded => "scope-excluded"
  | .notEvaluated => "not-evaluated"

/-- The outcome as people read it. -/
def words : Outcome → String
  | .matched => "MATCHED"
  | .matcherMiss => "matcher miss"
  | .scopeExcluded => "scope excluded"
  | .notEvaluated => "not evaluated"

def read : Reader Outcome := variant variants

def write (o : Outcome) : Value := .string o.name

end Outcome

/-- What an explanation says about one rule. -/
structure TraceEntry where
  index : Nat
  label : String
  matcher : String
  scope : List String
  outcome : Outcome
deriving DecidableEq, Repr

namespace TraceEntry

def read : Reader TraceEntry :=
  openRecord "RuleTrace" (TraceEntry.mk <$> required "index" (natural "usize")
    <*> required "label" text
    <*> required "matcher" text
    <*> withDefault "scope" [] (list text)
    <*> required "outcome" Outcome.read)

def write (t : TraceEntry) : Value :=
  .object (writeField "index" (.int t.index)
    ++ writeField "label" (.string t.label)
    ++ writeField "matcher" (.string t.matcher)
    ++ writeList "scope" .string t.scope
    ++ writeField "outcome" t.outcome.write)

/-- A text filled up with blanks to a width in characters. -/
def padded (width : Nat) (s : String) : String :=
  s ++ .ofList (List.replicate (width - s.length) ' ')

/-- The line of the form for people. -/
def line (t : TraceEntry) : String :=
  let scope :=
    if !t.scope.isEmpty && t.outcome == .scopeExcluded then
      " (scope: " ++ Text.joinTexts ", " t.scope ++ ")"
    else ""
  s!"  [{t.index}] {padded 16 t.label} {padded 40 t.matcher} {t.outcome.words}{scope}\n"

end TraceEntry

/-- How a table came to its decision about a path. -/
structure Explanation where
  /-- the normal form that was tested -/
  path : String
  matchedRule : Option Nat
  matchedLabel : Option String
  /-- the loaders of the rule that matched -/
  pipeline : List String
  /-- the kind of its output policy -/
  output : Option String
  trace : List TraceEntry
deriving DecidableEq, Repr

namespace Explanation

def read : Reader Explanation :=
  openRecord "Explanation" (Explanation.mk <$> required "path" text
    <*> omittable "matched_rule" (natural "usize")
    <*> optional "matched_label" text
    <*> required "pipeline" (list text)
    <*> optional "output" text
    <*> required "trace" (list TraceEntry.read))

def write (e : Explanation) : Value :=
  .object (writeField "path" (.string e.path)
    ++ writeField "matched_rule" ((e.matchedRule.map fun n : Nat => Value.int n).getD .null)
    ++ writeOptional "matched_label" .string e.matchedLabel
    ++ writeField "pipeline" (.texts e.pipeline)
    ++ writeOptional "output" .string e.output
    ++ writeField "trace" (.array (e.trace.map TraceEntry.write)))

def isPassThrough (e : Explanation) : Bool := e.matchedRule.isNone

/-- The JSON form. -/
def json (e : Explanation) : String := e.write.pretty

/-- The line that tells the decision. -/
def decision (e : Explanation) : String :=
  match e.matchedRule, e.matchedLabel with
  | some index, some label => s!"decision: rule {index} ({label})\n"
  | some index, none => s!"decision: rule {index}\n"
  | none, _ => "decision: pass-through (no rule applies)\n"

/-- The form for people. -/
def report (e : Explanation) : String :=
  s!"path: {e.path}\n" ++ e.decision
    ++ (if e.pipeline.isEmpty then ""
      else "pipeline: " ++ Text.joinTexts " -> " e.pipeline ++ "\n")
    ++ (match e.output with
      | some kind => s!"output: {kind}\n"
      | none => "")
    ++ "\ntrace:\n" ++ String.join (e.trace.map TraceEntry.line)

end Explanation

namespace RuleTable

/-- The trace of rules, the first of them at place `index`; `decided` tells whether one before has
matched. -/
def traceFrom (path : String) (index : Nat) (decided : Bool) : List Rule → List TraceEntry
  | [] => []
  | rule :: rest =>
    let outcome := if decided then .notEvaluated else Outcome.ofCheck (rule.check path)
    let entry : TraceEntry :=
      { index := index
        label := rule.label index
        matcher := rule.matcher.describe
        scope := rule.scope
        outcome := outcome }
    entry :: traceFrom path (index + 1) (decided || outcome == .matched) rest

/-- Explains the decision about a path. -/
def explain (table : RuleTable) (path : String) : Explanation :=
  let path := Path.normalize path
  let trace := traceFrom path 0 false table
  let winner := (trace.find? fun t => t.outcome == .matched).map TraceEntry.index
  let rule := winner.bind fun index => table[index]?
  { path := path
    matchedRule := winner
    matchedLabel := rule.bind Rule.name
    pipeline := (rule.map fun r => Pipeline.loaders r.pipeline).getD []
    output := (rule.bind Rule.output).map OutputPolicy.kind
    trace := trace }

end RuleTable

end AssetPlan
