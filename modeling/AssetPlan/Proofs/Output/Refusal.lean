import AssetPlan.Proofs.Except
import AssetPlan.Proofs.Output.Placement

/-! # Why placing fails

Whether a template names files at all is a matter of its tokens: if one of them stands for nothing,
no asset gets a file name under it. So placing an asset under a policy fails for two reasons only,
which the policy and the size of the asset decide.
-/

namespace AssetPlan

namespace Template

/-- The first token of a template that stands for nothing. -/
def unknown? (t : Template) : Option (List Char) :=
  (t.pieces.map Prod.snd).find? fun token => (Placeholder.ofToken? token).isNone

theorem renderPieces_eq_error_iff {names : AssetNames} {tail token : List Char}
    {pieces : List (List Char × List Char)} :
    renderPieces names tail pieces = .error token ↔
      (pieces.map Prod.snd).find? (fun token => (Placeholder.ofToken? token).isNone) =
        some token := by
  induction pieces with
  | nil =>
    rw [renderPieces, List.map_nil, List.find?_nil]
    exact iff_of_false nofun nofun
  | cons piece rest ih =>
    obtain ⟨literal, first⟩ := piece
    rw [renderPieces, List.map_cons, List.find?_cons]
    cases known : Placeholder.ofToken? first with
    | none => simp
    | some placeholder =>
      rw [Option.isNone_some, ← ih]
      cases renderPieces names tail rest <;> simp [Except.map]

/-- The token that keeps a file from being named does not depend on the asset. -/
theorem render_eq_error_iff {names : AssetNames} {t : Template} {token : List Char} :
    t.render names = .error token ↔ t.unknown? = some token :=
  renderPieces_eq_error_iff

theorem exists_render_iff {names : AssetNames} {t : Template} :
    (∃ file, t.render names = .ok file) ↔ t.unknown? = none := by
  cases outcome : t.render names with
  | ok file =>
    refine iff_of_true ⟨file, rfl⟩ ?_
    rw [Option.eq_none_iff_forall_ne_some]
    intro token unknown
    rw [render_eq_error_iff.mpr unknown] at outcome
    cases outcome
  | error token =>
    rw [render_eq_error_iff.mp outcome]
    exact iff_of_false nofun nofun

end Template

/-- The template under which a policy emits an asset of a size, if it emits it. -/
def OutputPolicy.emitting? (output : OutputSettings) (size : Nat) : OutputPolicy → Option String
  | .hashedFile filename => some (filename.getD output.assetFilename)
  | .inline (some limit) .emit filename =>
    if limit < size then some (filename.getD output.assetFilename) else none
  | _ => none

/-- An inline policy emits an asset over its limit, unless it refuses it. -/
theorem OutputPolicy.emitting?_inline_eq_some_iff {output : OutputSettings} {size : Nat}
    {limit : Option Nat} {oversize : OversizePolicy} {filename : Option String}
    {template : String} :
    (OutputPolicy.inline limit oversize filename).emitting? output size = some template ↔
      (∃ bound, limit = some bound ∧ bound < size) ∧ oversize = .emit ∧
        filename.getD output.assetFilename = template := by
  cases limit <;> cases oversize <;> simp [emitting?]

/-- Why a policy refuses an asset of a size. -/
inductive OutputPolicy.Refuses (output : OutputSettings) (source : String) (size : Nat) :
    OutputPolicy → PlaceError → Prop
  | overLimit {limit : Nat} {filename : Option String} (exceeds : limit < size) :
    Refuses output source size (.inline (some limit) .error filename)
      (.overInlineLimit source size limit)
  | unknownToken {policy : OutputPolicy} {template : String} {token : List Char}
    (emits : policy.emitting? output size = some template)
    (unknown : (Template.parse template.toList).unknown? = some token) :
    Refuses output source size policy (.unknownPlaceholder template (.ofList token))

variable {digest : Digest} {rule : Rule} {policy : OutputPolicy} {index : Nat}
  {content : Content.Bytes} {output : OutputSettings} {path source template : String}
  {inlineFallback : Bool} {failure : PlaceError}

theorem emit_eq_error_iff :
    emit digest source content template output inlineFallback = .error failure ↔
      ∃ token, (Template.parse template.toList).unknown? = some token ∧
        failure = .unknownPlaceholder template (.ofList token) := by
  rw [emit]
  split
  next token failed => simp [Template.render_eq_error_iff.mp failed, eq_comm]
  next file named => simp [Template.exists_render_iff.mp ⟨file, named⟩]

/-- A policy that emits an asset refuses it for the template alone. -/
theorem refuses_iff_of_emitting (emits : policy.emitting? output content.length = some template) :
    policy.Refuses output source content.length failure ↔
      emit digest source content template output inlineFallback = .error failure := by
  rw [emit_eq_error_iff]
  constructor
  · rintro (exceeds | ⟨emits', unknown⟩)
    · cases emits
    · obtain rfl := Option.some.inj (emits.symm.trans emits')
      exact ⟨_, unknown, rfl⟩
  · rintro ⟨token, unknown, rfl⟩
    exact .unknownToken emits unknown

theorem not_refuses_resource :
    ¬ OutputPolicy.resource.Refuses output source content.length failure := by
  rintro (_ | ⟨emits, _⟩)
  cases emits

/-- Under its limit, an asset is not refused. -/
theorem not_refuses_inline {limit : Option Nat} {oversize : OversizePolicy}
    {filename : Option String} (within : ∀ bound ∈ limit, content.length ≤ bound) :
    ¬ (OutputPolicy.inline limit oversize filename).Refuses output source content.length
        failure := by
  rintro (exceeds | ⟨emits, _⟩)
  · exact Nat.not_lt.mpr (within _ rfl) exceeds
  · obtain ⟨⟨bound, rfl, exceeds⟩, _⟩ := OutputPolicy.emitting?_inline_eq_some_iff.mp emits
    exact Nat.not_lt.mpr (within bound rfl) exceeds

/-- A policy that emits an asset emits it under its template. -/
theorem exists_placeUnder_eq_emit (emits : policy.emitting? output content.length = some template) :
    ∃ inlineFallback, placeUnder digest policy source content output =
      emit digest source content template output inlineFallback := by
  cases policy with
  | hashedFile filename =>
    cases emits
    exact ⟨false, rfl⟩
  | resource => cases emits
  | inline limit oversize filename =>
    obtain ⟨⟨bound, rfl, exceeds⟩, rfl, rfl⟩ := OutputPolicy.emitting?_inline_eq_some_iff.mp emits
    exact ⟨true, placeUnder_inline_over exceeds⟩

theorem placeUnder_eq_error_iff : placeUnder digest policy source content output = .error failure ↔
    policy.Refuses output source content.length failure := by
  cases policy with
  | hashedFile filename => exact (refuses_iff_of_emitting rfl).symm
  | resource => exact iff_of_false nofun not_refuses_resource
  | inline limit oversize filename =>
    rcases within_or_over limit content.length with within | ⟨bound, rfl, exceeds⟩
    · rw [placeUnder_inline_within within]
      exact iff_of_false nofun (not_refuses_inline within)
    · rw [placeUnder_inline_over exceeds]
      cases oversize with
      | emit =>
        have emits : (OutputPolicy.inline (some bound) .emit filename).emitting? output
            content.length = some (filename.getD output.assetFilename) := if_pos exceeds
        exact (refuses_iff_of_emitting emits).symm
      | error =>
        constructor
        · intro refused
          cases refused
          exact .overLimit exceeds
        · rintro (_ | ⟨emits, _⟩)
          · rfl
          · cases emits

/-- Placing under a policy fails exactly if the policy refuses the asset. -/
theorem placeWith_eq_error_iff (known : rule.output = some policy) :
    placeWith digest rule index path content output = .error failure ↔
      policy.Refuses output (Path.normalize path) content.length failure := by
  rw [placeWith_eq known]
  exact placeUnder_eq_error_iff

end AssetPlan
