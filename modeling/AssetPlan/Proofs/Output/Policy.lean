import AssetPlan.Proofs.Output.Placement
import AssetPlan.Proofs.Path.Canonical

/-! # Assets under inline and resource policies

An inline asset stays in the module up to its limit, whatever the templates are. Over the limit it
is refused or it falls back to a file, and then it is placed as a rule places it that emits all its
assets. A resource stays where it is, but its reference is brought to normal form: the location is
that of the reference as it is written, and the text is the same only if it was canonical.
-/

namespace AssetPlan

variable {rule : Rule} {limit : Option Nat} {oversize : OversizePolicy}
  {filename : Option String}

/-- The same failure, or the same emitted file with the mark that a limit was exceeded. -/
inductive FallsBack : Except PlaceError Placement → Except PlaceError Placement → Prop
  | refused (failure : PlaceError) : FallsBack (.error failure) (.error failure)
  | emitted (source file outputPath url : String) (size : Nat) :
    FallsBack (.ok (.emitted source file outputPath url size false))
      (.ok (.emitted source file outputPath url size true))

theorem fallsBack_emit (digest : Digest) (source : String) (content : Content.Bytes)
    (template : String) (output : OutputSettings) :
    FallsBack (emit digest source content template output false)
      (emit digest source content template output true) := by
  rw [emit, emit]
  split
  next => apply FallsBack.refused
  next => apply FallsBack.emitted

/-- A rule with an inline policy as one that emits all its assets. -/
def Rule.emitting (rule : Rule) (filename : Option String) : Rule :=
  { rule with output := some (.hashedFile filename) }

/-- Up to its limit an inline asset is placed in the module, and cannot fail. Over it, the asset is
refused with its size and the limit, or it is placed as under the policy that emits all assets, but
for the mark of the fallback. -/
theorem place_inline (known : rule.output = some (.inline limit oversize filename)) (index : Nat)
    (path : String) (content : Content.Bytes) (output : OutputSettings) :
    ((∀ bound ∈ limit, content.length ≤ bound) →
      place rule index path content output = .ok (.inlined (Path.normalize path)
        (dataUri (Path.normalize path) content) content.length)) ∧
    ∀ bound ∈ limit, bound < content.length →
      (oversize = .error → place rule index path content output =
        .error (.overInlineLimit (Path.normalize path) content.length bound)) ∧
      (oversize = .emit → FallsBack (place (rule.emitting filename) index path content output)
        (place rule index path content output)) := by
  rw [place, placeWith_eq known]
  refine ⟨placeUnder_inline_within, ?_⟩
  rintro bound rfl exceeds
  rw [placeUnder_inline_over exceeds]
  constructor
  · rintro rfl
    rfl
  · rintro rfl
    rw [placeWith_eq rfl]
    apply fallsBack_emit

/-- A picture at the limit stays in the module, and one byte more puts it into a file. -/
theorem place_inline_photo :
    let rule : Rule :=
      { matcher := .contains ".png"
        output := some (.inline (some 4) .emit (some "images/[name][ext]")) }
    let output : OutputSettings := ⟨"dist", "[name].js", "[hash][ext]", "/", none⟩
    place rule 0 "src/photo.png" [0x31, 0x32, 0x33, 0x34] output =
        .ok (.inlined "src/photo.png" "data:image/png;base64,MTIzNA==" 4) ∧
      place rule 0 "src/photo.png" [0x31, 0x32, 0x33, 0x34, 0x35] output =
        .ok (.emitted "src/photo.png" "images/photo.png" "dist/images/photo.png"
          "/images/photo.png" 5 true) := by
  intro rule output
  have parsed : Template.parse "images/[name][ext]".toList =
      ⟨[("images/".toList, "name".toList), ([], "ext".toList)], []⟩ := by
    simp [Template.parse, Text.splitOnce]
  have emitted : place (rule.emitting (some "images/[name][ext]")) 0 "src/photo.png"
      [0x31, 0x32, 0x33, 0x34, 0x35] output =
        .ok (.emitted "src/photo.png" "images/photo.png" "dist/images/photo.png"
          "/images/photo.png" 5 false) := by
    refine emit_eq_ok_iff.mpr ⟨"images/photo.png".toList,
      (congrArg (Template.render _) parsed).trans ?_, by decide⟩
    rfl
  have known : rule.output = some (.inline (some 4) .emit (some "images/[name][ext]")) := rfl
  obtain ⟨within, _⟩ := place_inline known 0 "src/photo.png" [0x31, 0x32, 0x33, 0x34] output
  obtain ⟨_, beyond⟩ := place_inline known 0 "src/photo.png" [0x31, 0x32, 0x33, 0x34, 0x35] output
  constructor
  · have source : Path.normalize "src/photo.png" = "src/photo.png" := by decide
    have uri : dataUri "src/photo.png" [0x31, 0x32, 0x33, 0x34] =
        "data:image/png;base64,MTIzNA==" := by decide
    rw [within (by simp), source, uri]
    rfl
  · have back := (beyond 4 rfl (by decide)).2 rfl
    rw [emitted] at back
    generalize place rule 0 "src/photo.png" [0x31, 0x32, 0x33, 0x34, 0x35] output = placed at back
    cases back
    rfl

/-- A resource is placed whatever its content and the output are. Its reference is the normal form
of its path, which names the same location from everywhere and is the path itself exactly if that is
canonical. -/
theorem place_resource (known : rule.output = some .resource) (index : Nat) (path : String)
    (content : Content.Bytes) (output : OutputSettings) :
    ∃ p, place rule index path content output = .ok p ∧ p.reference = Path.normalize path ∧
      (∀ start, Path.location start p.reference = Path.location start path) ∧
      (p.reference = path ↔ Path.IsCanonical path.toList) := by
  refine ⟨.referenced (Path.normalize path) (Path.normalize path), placeWith_eq known, rfl,
    Path.location_normalize path, Path.normalize_eq_self_iff⟩

/-- A font above with a query behind it is referred to as it is written. -/
theorem place_resource_fonts :
    let rule : Rule := { matcher := .contains ".woff", output := some .resource }
    let output : OutputSettings := ⟨"dist", "[name].js", "[id]", "/", none⟩
    ∃ p, place rule 0 "../fonts/pf.woff?v=1" [0x78] output = .ok p ∧
      p.reference = "../fonts/pf.woff?v=1" := by
  intro rule output
  have known : rule.output = some .resource := rfl
  obtain ⟨p, placed, _, _, same⟩ := place_resource known 0 "../fonts/pf.woff?v=1" [0x78] output
  refine ⟨p, placed, same.mpr ⟨[Path.up, "fonts".toList, "pf.woff?v=1".toList], .inl ?_, ?_, ?_⟩⟩
  · decide
  · simp only [List.forall_mem_cons]
    decide
  · decide

/-- A reference to a file of the same directory loses the `./` at its front. -/
theorem place_resource_specifier :
    let rule : Rule := { matcher := .contains "", output := some .resource }
    let output : OutputSettings := ⟨"dist", "[name].js", "[name][ext]", "/", none⟩
    ∃ p, place rule 0 "./fonts/pf.svg" [0x78] output = .ok p ∧ p.reference = "fonts/pf.svg" ∧
      p.reference ≠ "./fonts/pf.svg" := by
  intro rule output
  have normal : Path.normalize "./fonts/pf.svg" = "fonts/pf.svg" := by decide
  refine ⟨.referenced "fonts/pf.svg" "fonts/pf.svg", ?_, rfl, by decide⟩
  rw [place, placeWith_eq rfl, normal]
  rfl

end AssetPlan
