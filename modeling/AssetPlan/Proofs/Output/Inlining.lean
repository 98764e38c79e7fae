import AssetPlan.Proofs.Content.Base64
import AssetPlan.Proofs.Output.Placement

/-! # Contents inside references

An inlined asset is referred to by an address that holds its media type and its content. The type
ends at the first semicolon and depends on the extension only, and what stands behind it is read
back as the content byte for byte. So the references to one asset differ exactly if its contents do.
-/

namespace AssetPlan

namespace Content

/-- The media type of every extension is in the table, or the one for all others. -/
theorem mediaTypeOf_mem (extension : String) :
    mediaTypeOf extension ∈ unknownMediaType :: mediaTypes.map Prod.snd := by
  rw [mediaTypeOf]
  cases found : mediaTypes.lookup extension with
  | none => exact List.mem_cons_self
  | some type =>
    obtain ⟨before, after, same, _⟩ := List.lookup_eq_some_iff.mp found
    have listed : (extension, type) ∈ mediaTypes := by
      rw [same]
      exact List.mem_append_right _ List.mem_cons_self
    exact List.mem_cons_of_mem _ (List.mem_map_of_mem listed)

/-- No media type has a character that divides an address. -/
theorem mediaTypeOf_plain (extension : String) :
    ',' ∉ (mediaTypeOf extension).toList ∧ ';' ∉ (mediaTypeOf extension).toList := by
  have all : ∀ type ∈ unknownMediaType :: mediaTypes.map Prod.snd,
      ',' ∉ type.toList ∧ ';' ∉ type.toList := by decide
  exact all _ (mediaTypeOf_mem extension)

end Content

variable {digest : Digest} {rule : Rule} {index : Nat} {content content' : Content.Bytes}
  {output : OutputSettings} {path source uri : String} {size : Nat}

/-- The extension of the file of an asset, in lower case. -/
def assetExtension (path : String) : String := Content.lowerExtension (assetFile path)

theorem dataUri_eq (path : String) (content : Content.Bytes) :
    dataUri (Path.normalize path) content =
      "data:" ++ Content.mediaTypeOf (assetExtension path) ++ ";base64," ++
        .ofList (Content.Base64.encode content) := by
  rw [dataUri, Content.mediaType, String.toList_ofList, assetExtension]
  rfl

/-- An asset becomes a part of the module exactly under an inline policy and up to its limit. -/
theorem placeWith_eq_inlined_iff :
    placeWith digest rule index path content output = .ok (.inlined source uri size) ↔
      (∃ limit oversize filename, rule.output = some (.inline limit oversize filename) ∧
        ∀ bound ∈ limit, content.length ≤ bound) ∧
      Placement.inlined source uri size = .inlined (Path.normalize path)
        (dataUri (Path.normalize path) content) content.length := by
  constructor
  · intro placed
    cases known : rule.output with
    | none =>
      rw [placeWith, known] at placed
      cases placed
    | some policy =>
      rw [placeWith_eq known] at placed
      cases policy with
      | hashedFile filename =>
        obtain ⟨file, _, same⟩ := emit_eq_ok_iff.mp placed
        cases same
      | resource => cases placed
      | inline limit oversize filename =>
        rcases within_or_over limit content.length with within | ⟨bound, rfl, exceeds⟩
        · rw [placeUnder_inline_within within] at placed
          exact ⟨⟨limit, oversize, filename, rfl, within⟩, (Except.ok.inj placed).symm⟩
        · rw [placeUnder_inline_over exceeds] at placed
          cases oversize with
          | emit =>
            obtain ⟨file, _, same⟩ := emit_eq_ok_iff.mp placed
            cases same
          | error => cases placed
  · rintro ⟨⟨limit, oversize, filename, known, within⟩, same⟩
    rw [placeWith_eq known, placeUnder_inline_within within, same]

/-- The addresses of one asset are the same exactly if the contents are. -/
theorem dataUri_inj :
    dataUri (Path.normalize path) content = dataUri (Path.normalize path) content' ↔
      content = content' := by
  rw [dataUri_eq, dataUri_eq, String.append_right_inj, String.ofList_inj,
    Content.Base64.encode_inj]

/-- An inlined asset is referred to by its media type and a payload of four characters for each
three bytes begun. The type is that of the extension in lower case and has no character that divides
the address, and the payload is the one text that is read as the content. So the references of two
placements of an asset are the same exactly if the contents are. -/
theorem inlined_reference
    (placed : place rule index path content output = .ok (.inlined source uri size)) :
    (∃ payload : String,
      (Placement.inlined source uri size).reference =
        "data:" ++ Content.mediaTypeOf (assetExtension path) ++ ";base64," ++ payload ∧
      payload.length = 4 * ((content.length + 2) / 3) ∧
      ∀ text, Content.Base64.decode? text = some content ↔ text = payload.toList) ∧
    (',' ∉ (Content.mediaTypeOf (assetExtension path)).toList ∧
      ';' ∉ (Content.mediaTypeOf (assetExtension path)).toList) ∧
    ∀ rule' index' content' output' source' uri' size',
      place rule' index' path content' output' = .ok (.inlined source' uri' size') →
        ((Placement.inlined source uri size).reference =
          (Placement.inlined source' uri' size').reference ↔ content = content') := by
  obtain ⟨_, same⟩ := placeWith_eq_inlined_iff.mp placed
  cases same
  refine ⟨⟨.ofList (Content.Base64.encode content), dataUri_eq path content, ?_, ?_⟩,
    Content.mediaTypeOf_plain _, ?_⟩
  · rw [String.length_ofList, Content.Base64.length_encode]
  · intro text
    rw [String.toList_ofList, Content.Base64.decode?_eq_some_iff, eq_comm]
  · intro rule' index' content' output' source' uri' size' placed'
    obtain ⟨_, same⟩ := placeWith_eq_inlined_iff.mp placed'
    cases same
    exact dataUri_inj

/-- A picture with its extension in capitals and a query behind it. -/
theorem inlined_reference_photo :
    let rule : Rule := { matcher := .contains "", output := some (.inline (some 4) .error none) }
    let output : OutputSettings := ⟨"dist", "[name].js", "[hash][ext]", "/", none⟩
    place rule 0 "./src/Photo.PNG?v=1" [0x31, 0x32, 0x33, 0x34] output =
        .ok (.inlined "src/Photo.PNG?v=1" "data:image/png;base64,MTIzNA==" 4) ∧
      (∀ text, Content.Base64.decode? text = some [0x31, 0x32, 0x33, 0x34] ↔
        text = "MTIzNA==".toList) ∧
      ∀ content source uri size, place rule 0 "./src/Photo.PNG?v=1" content output =
        .ok (.inlined source uri size) → uri = "data:image/png;base64,MTIzNA==" →
          [0x31, 0x32, 0x33, 0x34] = content := by
  intro rule output
  have normal : Path.normalize "./src/Photo.PNG?v=1" = "src/Photo.PNG?v=1" := by decide
  have type : Content.mediaTypeOf (assetExtension "./src/Photo.PNG?v=1") = "image/png" := by decide
  have uri : dataUri "src/Photo.PNG?v=1" [0x31, 0x32, 0x33, 0x34] =
      "data:image/png;base64,MTIzNA==" := by decide
  have spelled : "data:image/png;base64,MTIzNA==" =
      "data:" ++ "image/png" ++ ";base64," ++ "MTIzNA==" := by decide
  have placed : place rule 0 "./src/Photo.PNG?v=1" [0x31, 0x32, 0x33, 0x34] output =
      .ok (.inlined "src/Photo.PNG?v=1" "data:image/png;base64,MTIzNA==" 4) := by
    refine placeWith_eq_inlined_iff.mpr ⟨⟨some 4, .error, none, rfl, by simp⟩, ?_⟩
    rw [normal, uri]
    rfl
  obtain ⟨⟨payload, same, _, read⟩, _, told⟩ := inlined_reference placed
  obtain rfl : payload = "MTIzNA==" := by
    rw [type, Placement.reference, spelled] at same
    exact ((String.append_right_inj _).mp same).symm
  refine ⟨placed, read, fun content source uri size placed' same' => ?_⟩
  exact (told rule 0 content output source uri size placed').mp same'.symm

end AssetPlan
