import AssetPlan.Proofs.Config.Layers
import AssetPlan.Proofs.Text.Bytes

/-! # The conflict that is reported

Two values conflict at a path if both have something there, and not of one class. A merge fails
exactly if there is such a path. Entries are visited in key order and each is merged to the end
before the next, so the conflict that is reported is the first in the order of key lists, where a
list comes before its continuations.
-/

namespace AssetPlan.Config

open Entries Value

/-- Both values have something at the end of the path, and it is not of one class. -/
def ConflictsAt (base overlay : Value) (keys : List String) : Prop :=
  ∃ v w, base.reach keys = some v ∧ overlay.reach keys = some w ∧ v.classOf ≠ w.classOf

/-- A conflict tells where two values first conflict and what kinds of values stand there. Paths are
in the order of their keys, and keys in the order of their bytes. -/
structure Conflict.TellsFirst (c : Conflict) (base overlay : Value) : Prop where
  kinds : ∃ v w, base.reach c.keys = some v ∧ overlay.reach c.keys = some w ∧
    v.classOf ≠ w.classOf ∧ c.base = .of v ∧ c.overlay = .of w
  first : ∀ keys, ConflictsAt base overlay keys →
    keys = c.keys ∨ List.Lex Text.BytesBelow c.keys keys

variable {base overlay : Value} {entries above : Entries} {c : Conflict} {keys : List String}

theorem merge_eq_error_iff :
    merge base overlay = .error c ↔
      base.classOf ≠ overlay.classOf ∧ c = ⟨[], .of base, .of overlay⟩ ∨
        ∃ entries above, base = .object entries ∧ overlay = .object above ∧
          mergeEntries entries above = .error c := by
  cases overlay with
  | object above =>
    cases base with
    | object entries =>
      rw [merge_object]
      cases found : mergeEntries entries above <;> simp [Except.map, found]
    | _ => simp [merge, classOf, Kind.of, eq_comm]
  | _ => cases base <;> simp [merge, classOf, isScalar, Kind.of, eq_comm]

theorem mergeEntries_cons_eq_error_iff {key : String} {w : Value} {rest : List (String × Value)} :
    mergeEntries entries ((key, w) :: rest) = .error c ↔
      (∃ v inner, find? key entries = some v ∧ merge v w = .error inner ∧ c = inner.under key) ∨
        ∃ value, joined? (find? key entries) (some w) = some (some value) ∧
          mergeEntries (Entries.insert key value entries) rest = .error c := by
  rw [mergeEntries]
  cases find? key entries with
  | none => simp
  | some v =>
    rw [joined?_some]
    cases found : merge v w <;> simp [Except.toOption, found, eq_comm]

/-- A merge of mappings fails at the first key whose values cannot be merged. -/
theorem first_of_mergeEntries_eq_error (ascending : Ascending above)
    (failure : mergeEntries entries above = .error c) :
    ∃ key v w inner, find? key entries = some v ∧ find? key above = some w ∧
      merge v w = .error inner ∧ c = inner.under key ∧
      ∀ query < key, ∃ result, joined? (find? query entries) (find? query above) = some result := by
  induction above generalizing entries with
  | nil =>
    rw [mergeEntries] at failure
    cases failure
  | cons entry rest ih =>
    obtain ⟨key, w⟩ := entry
    rcases mergeEntries_cons_eq_error_iff.mp failure with
      ⟨v, inner, found, failure, same⟩ | ⟨value, atKey, failure⟩
    · refine ⟨key, v, w, inner, found, by rw [find?_cons, if_pos rfl], failure, same, ?_⟩
      intro query before
      -- the key is the overlay's first one
      have absent : find? query ((key, w) :: rest) = none := by
        rw [find?_eq_none_iff]
        intro member
        rcases List.mem_cons.mp member with rfl | later
        · exact lt_irrefl _ before
        · exact lt_asymm before ((ascending_cons_iff.mp ascending).1 query later)
      exact ⟨_, by rw [absent, joined?_none_right]⟩
    · obtain ⟨later, v, x, inner, found, foundAbove, failure, same, free⟩ := ih ascending.tail failure
      have after : key < later :=
        (ascending_cons_iff.mp ascending).1 later (mem_keys_iff.mpr ⟨x, foundAbove⟩)
      rw [find?_insert, if_neg after.ne] at found
      refine ⟨later, v, x, inner, found, ?_, failure, same, fun query before => ?_⟩
      · rwa [find?_cons, if_neg after.ne]
      · rw [← joined?_rest ascending query atKey]
        exact free query before

/-- Where a merge succeeds, the values have the same class at each path that leads into both. -/
theorem Merges.not_conflictsAt {merged : Value} (merges : Merges base overlay merged)
    (ordered : overlay.Ordered) (keys : List String) : ¬ ConflictsAt base overlay keys := by
  rintro ⟨v, w, foundBelow, foundAbove, differ⟩
  have joins := merges.joined?_reach ordered keys
  rw [foundBelow, foundAbove] at joins
  obtain ⟨inner, merges, _⟩ := joined?_some_eq_some_iff.mp joins
  exact differ merges.classOf_eq.2.symm

theorem ConflictsAt.symm (conflicts : ConflictsAt base overlay keys) :
    ConflictsAt overlay base keys := by
  obtain ⟨v, w, foundBelow, foundAbove, differ⟩ := conflicts
  exact ⟨w, v, foundAbove, foundBelow, differ.symm⟩

theorem conflictsAt_nil_iff : ConflictsAt base overlay [] ↔ base.classOf ≠ overlay.classOf := by
  simp [ConflictsAt]

/-- Inside of mappings, values conflict at a path if those at its first key conflict at its rest. -/
theorem conflictsAt_cons_iff {key : String} :
    ConflictsAt (.object entries) (.object above) (key :: keys) ↔
      ∃ v w, find? key entries = some v ∧ find? key above = some w ∧ ConflictsAt v w keys := by
  simp only [ConflictsAt, reach_cons, get?_object, Option.bind_eq_some_iff]
  constructor
  · rintro ⟨x, y, ⟨v, foundBelow, insideBelow⟩, ⟨w, foundAbove, insideAbove⟩, differ⟩
    exact ⟨v, w, foundBelow, foundAbove, x, y, insideBelow, insideAbove, differ⟩
  · rintro ⟨v, w, foundBelow, foundAbove, x, y, insideBelow, insideAbove, differ⟩
    exact ⟨x, y, ⟨v, foundBelow, insideBelow⟩, ⟨w, foundAbove, insideAbove⟩, differ⟩

/-- Values of different classes conflict before all that is inside of them. -/
theorem Conflict.tellsFirst_root (differ : base.classOf ≠ overlay.classOf) :
    Conflict.TellsFirst ⟨[], .of base, .of overlay⟩ base overlay where
  kinds := ⟨base, overlay, rfl, rfl, differ, rfl, rfl⟩
  first := by
    intro keys _
    cases keys with
    | nil => exact .inl rfl
    | cons key keys => exact .inr .nil

/-- The conflict at the first key whose values conflict is the first conflict. -/
theorem Conflict.TellsFirst.under {key : String} {v w : Value} (tells : c.TellsFirst v w)
    (foundBelow : find? key entries = some v) (foundAbove : find? key above = some w)
    (free : ∀ query < key, ∀ keys, ¬ ConflictsAt (.object entries) (.object above) (query :: keys)) :
    (c.under key).TellsFirst (.object entries) (.object above) where
  kinds := by
    obtain ⟨x, y, insideBelow, insideAbove, rest⟩ := tells.kinds
    refine ⟨x, y, ?_, ?_, rest⟩
    · rw [Conflict.under, reach_cons, get?_object, foundBelow, Option.bind_some, insideBelow]
    · rw [Conflict.under, reach_cons, get?_object, foundAbove, Option.bind_some, insideAbove]
  first := by
    intro keys conflicts
    cases keys with
    | nil => exact (conflictsAt_nil_iff.mp conflicts rfl).elim
    | cons query keys =>
      rcases lt_trichotomy query key with before | rfl | after
      · exact (free query before keys conflicts).elim
      · obtain ⟨x, y, atBelow, atAbove, conflicts⟩ := conflictsAt_cons_iff.mp conflicts
        rw [foundBelow] at atBelow
        rw [foundAbove] at atAbove
        cases atBelow
        cases atAbove
        rcases tells.first keys conflicts with rfl | later
        · exact .inl rfl
        · exact .inr (.cons later)
      · exact .inr (.rel (Text.bytesBelow_iff.mpr after))

/-- A merge that fails reports the first conflict. -/
theorem tellsFirst_of_merge_eq_error (ordered : overlay.Ordered)
    (failure : merge base overlay = .error c) : c.TellsFirst base overlay := by
  induction overlay using byEntries generalizing base c with
  | scalar w scalar =>
    rcases merge_eq_error_iff.mp failure with ⟨differ, rfl⟩ | ⟨_, _, _, rfl, _⟩
    · exact Conflict.tellsFirst_root differ
    · cases scalar
  | array more =>
    rcases merge_eq_error_iff.mp failure with ⟨differ, rfl⟩ | ⟨_, _, _, same, _⟩
    · exact Conflict.tellsFirst_root differ
    · cases same
  | object above ih =>
    rcases merge_eq_error_iff.mp failure with ⟨differ, rfl⟩ | ⟨entries, _, rfl, same, failure⟩
    · exact Conflict.tellsFirst_root differ
    · cases same
      obtain ⟨ascending, values⟩ := ordered_object_iff.mp ordered
      obtain ⟨key, v, w, inner, foundBelow, foundAbove, atKey, rfl, free⟩ :=
        first_of_mergeEntries_eq_error ascending failure
      have tells : inner.TellsFirst v w := ih key w foundAbove (values.of_find? foundAbove) atKey
      refine tells.under foundBelow foundAbove fun query before keys conflicts => ?_
      obtain ⟨x, y, atBelow, atAbove, inside⟩ := conflictsAt_cons_iff.mp conflicts
      obtain ⟨result, joins⟩ := free query before
      rw [atBelow, atAbove] at joins
      obtain ⟨merged, merges, _⟩ := joined?_some_eq_some_iff.mp joins
      exact merges.not_conflictsAt (values.of_find? atAbove) keys inside

/-- The first conflict is one only. -/
theorem Conflict.TellsFirst.eq {c' : Conflict} (tells : c.TellsFirst base overlay)
    (tells' : c'.TellsFirst base overlay) : c = c' := by
  obtain ⟨v, w, foundBelow, foundAbove, differ, kindBelow, kindAbove⟩ := tells.kinds
  obtain ⟨x, y, foundBelow', foundAbove', differ', kindBelow', kindAbove'⟩ := tells'.kinds
  have place : c.keys = c'.keys := by
    rcases tells.first _ ⟨x, y, foundBelow', foundAbove', differ'⟩ with same | before
    · exact same.symm
    rcases tells'.first _ ⟨v, w, foundBelow, foundAbove, differ⟩ with same | after
    · exact same
    have other {s t : String} : Text.BytesBelow s t → ¬ Text.BytesBelow t s := by
      rw [Text.bytesBelow_iff, Text.bytesBelow_iff]
      exact lt_asymm
    exact (List.lex_asymm other before after).elim
  rw [place, foundBelow'] at foundBelow
  rw [place, foundAbove'] at foundAbove
  cases foundBelow
  cases foundAbove
  obtain ⟨keys, below, above⟩ := c
  obtain ⟨keys', below', above'⟩ := c'
  simp only at place kindBelow kindAbove kindBelow' kindAbove'
  rw [place, kindBelow, kindAbove, kindBelow', kindAbove']

/-- A merge fails exactly if the values conflict at some path. -/
theorem exists_merge_eq_error_iff (ordered : overlay.Ordered) :
    (∃ c, merge base overlay = .error c) ↔ ∃ keys, ConflictsAt base overlay keys := by
  constructor
  · rintro ⟨c, failure⟩
    obtain ⟨v, w, foundBelow, foundAbove, differ, _⟩ :=
      (tellsFirst_of_merge_eq_error ordered failure).kinds
    exact ⟨c.keys, v, w, foundBelow, foundAbove, differ⟩
  · rintro ⟨keys, conflicts⟩
    rw [Except.exists_error_iff]
    rintro ⟨merged, success⟩
    exact (merge_eq_ok_iff.mp success).not_conflictsAt ordered keys conflicts

/-- A merge fails exactly if the values conflict at some path, so in both directions alike; the
conflict it reports is the first, by its keys, which make up the path in dotted form, and by the
kinds of the values there. -/
theorem merge_reports_first (base overlay : Value) (orderedBase : base.Ordered)
    (orderedOverlay : overlay.Ordered) :
    ((∃ c, merge base overlay = .error c) ↔ ∃ keys, ConflictsAt base overlay keys) ∧
    ((∃ c, merge base overlay = .error c) ↔ ∃ c, merge overlay base = .error c) ∧
    ∀ c, (merge base overlay = .error c ↔ c.TellsFirst base overlay) ∧
      c.path = if c.keys = [] then "<root>" else ".".intercalate c.keys := by
  have fails : (∃ c, merge base overlay = .error c) ↔ ∃ keys, ConflictsAt base overlay keys :=
    exists_merge_eq_error_iff orderedOverlay
  refine ⟨fails, ?_, fun c => ⟨⟨tellsFirst_of_merge_eq_error orderedOverlay, fun tells => ?_⟩, ?_⟩⟩
  · rw [fails, exists_merge_eq_error_iff orderedBase]
    exact exists_congr fun keys => ⟨ConflictsAt.symm, ConflictsAt.symm⟩
  · obtain ⟨v, w, foundBelow, foundAbove, differ, _⟩ := tells.kinds
    obtain ⟨c', failure⟩ := fails.mpr ⟨c.keys, v, w, foundBelow, foundAbove, differ⟩
    rw [tells.eq (tellsFirst_of_merge_eq_error orderedOverlay failure)]
    exact failure
  · simp only [Conflict.path, List.isEmpty_iff, Text.joinTexts]

/-- Of three conflicts the one below the key `a` is the first, although the dotted form of another
one comes before its own. -/
theorem merge_reports_first_dotted :
    let base : Value := .object [("a", .object [("z", .array [])]), ("a.b", .null), ("c", .null)]
    let overlay : Value :=
      .object [("a", .object [("z", .bool true)]), ("a.b", .array []), ("c", .object [])]
    base.Ordered ∧ overlay.Ordered ∧ ∃ c, merge base overlay = .error c ∧ c.path = "a.z" ∧
      c.TellsFirst base overlay ∧ ∃ c', merge overlay base = .error c' := by
  intro base overlay
  have orderedBase : base.Ordered := by decide
  have orderedOverlay : overlay.Ordered := by decide
  obtain ⟨_, reversed, reports⟩ := merge_reports_first base overlay orderedBase orderedOverlay
  have failure : merge base overlay = .error ⟨["a", "z"], .sequence, .bool⟩ := by rfl
  refine ⟨orderedBase, orderedOverlay, _, failure, ?_, ?_, ?_⟩
  · rw [(reports _).2]
    decide
  · exact (reports _).1.mp failure
  · exact reversed.mp ⟨_, failure⟩

end AssetPlan.Config
