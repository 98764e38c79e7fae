import AssetPlan.Output.Placement

/-! # How emitted files come about

A file is emitted under the template of its rule's policy, or under the template of the whole output
if the policy has none, and is put where joining it to the output directory leads. Under an inline
policy the size of the asset decides whether there is a file at all.
-/

namespace AssetPlan

/-- The template that names the files of a policy. -/
def OutputPolicy.template? (output : OutputSettings) : OutputPolicy → Option String
  | .hashedFile filename => some (filename.getD output.assetFilename)
  | .inline _ _ filename => some (filename.getD output.assetFilename)
  | .resource => none

/-- The template that names the files of a rule. -/
def Rule.template? (output : OutputSettings) (rule : Rule) : Option String :=
  rule.output.bind (OutputPolicy.template? output)

/-- The names of an asset as it is placed. -/
def assetNames (path : String) (content : Content.Bytes) : AssetNames :=
  .of (Path.normalChars path.toList) (Content.hash content).toList

/-- The file part of an asset path in normal form. -/
def assetFile (path : String) : List Char := (splitQuery (Path.normalize path).toList).1

/-- The query of an asset path in normal form. -/
def assetQuery (path : String) : List Char := (splitQuery (Path.normalize path).toList).2

variable {digest : Digest} {rule : Rule} {index : Nat} {content : Content.Bytes}
  {output : OutputSettings} {path source template file outputPath url : String} {size : Nat}
  {inlineFallback : Bool} {p : Placement}

theorem emit_eq_ok_iff :
    emit digest source content template output inlineFallback = .ok p ↔
      ∃ file, (Template.parse template.toList).render
          (.of source.toList (digest content).toList) = .ok file ∧
        p = .emitted source (.ofList file)
          (.ofList (Path.joinChars output.path.toList (splitQuery file).1))
          (.ofList (Path.publicChars output.publicPath.toList file))
          content.length inlineFallback := by
  rw [emit]
  split
  next failed => simp [failed]
  next file named => simp [named, eq_comm]

/-- A rule with a policy places assets under it. -/
theorem placeWith_eq {policy : OutputPolicy} (known : rule.output = some policy) :
    placeWith digest rule index path content output =
      placeUnder digest policy (Path.normalize path) content output := by
  rw [placeWith, known]

section Inline

variable {oversize : OversizePolicy} {filename : Option String} {bound : Nat}

theorem within_or_over (limit : Option Nat) (size : Nat) :
    (∀ bound ∈ limit, size ≤ bound) ∨ ∃ bound, limit = some bound ∧ bound < size := by
  cases limit with
  | none => exact .inl nofun
  | some bound =>
    rcases Nat.lt_or_ge bound size with exceeds | within
    · exact .inr ⟨bound, rfl, exceeds⟩
    · refine .inl fun known same => ?_
      cases same
      exact within

/-- Up to its limit, an asset becomes a part of the module. -/
theorem placeUnder_inline_within {limit : Option Nat}
    (within : ∀ bound ∈ limit, content.length ≤ bound) :
    placeUnder digest (.inline limit oversize filename) source content output =
      .ok (.inlined source (dataUri source content) content.length) := by
  have kept : limit.filter (· < content.length) = none := by
    rw [Option.filter_eq_none_iff]
    intro bound known
    simpa using within bound known
  simp only [placeUnder, kept]

/-- Over its limit, an asset is emitted or refused. -/
theorem placeUnder_inline_over (exceeds : bound < content.length) :
    placeUnder digest (.inline (some bound) oversize filename) source content output =
      match oversize with
      | .emit => emit digest source content (filename.getD output.assetFilename) output true
      | .error => .error (.overInlineLimit source content.length bound) := by
  have exceeded : (some bound).filter (· < content.length) = some bound := by
    simp [Option.filter, exceeds]
  cases oversize <;> simp only [placeUnder, exceeded]

end Inline

/-- An emitted file is emitted under the template of its rule. -/
theorem emit_of_placeWith (placed : placeWith digest rule index path content output =
      .ok (.emitted source file outputPath url size inlineFallback)) :
    ∃ template fallback, rule.template? output = some template ∧
      emit digest (Path.normalize path) content template output fallback =
        .ok (.emitted source file outputPath url size inlineFallback) := by
  rw [Rule.template?]
  cases known : rule.output with
  | none =>
    rw [placeWith, known] at placed
    cases placed
  | some policy =>
    rw [placeWith_eq known] at placed
    cases policy with
    | hashedFile filename => exact ⟨_, _, rfl, placed⟩
    | resource => cases placed
    | inline limit oversize filename =>
      rcases within_or_over limit content.length with within | ⟨bound, rfl, exceeds⟩
      · rw [placeUnder_inline_within within] at placed
        cases placed
      · rw [placeUnder_inline_over exceeds] at placed
        cases oversize with
        | emit => exact ⟨_, _, rfl, placed⟩
        | error => cases placed

end AssetPlan
