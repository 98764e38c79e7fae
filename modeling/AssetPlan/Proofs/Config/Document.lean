import AssetPlan.Command.Run
import AssetPlan.Proofs.Config.Merge
import AssetPlan.Proofs.Config.Project
import Mathlib.Order.Bounds.Basic

/-! # Documents of projects

A document is taken apart into what is common to all environments and the environments' layers, and
put together again from them. Nothing is lost on the way: a project that is read from a document is
read again from its own document, and a document that names environments is the document of its
project. What cannot be taken apart is reported with the first environment that is at fault.
-/

namespace AssetPlan

open Config Entries Value

theorem Value.isObject_iff {v : Value} : v.isObject ↔ v.classOf = .mapping := by
  cases v <;> simp [isObject, classOf]

theorem Value.reach_singleton (v : Value) (key : String) : v.reach [key] = v.get? key :=
  Option.bind_fun_some _

namespace Project

/-- A document that can be taken apart: a mapping, and if it has environments then a mapping of
mappings. -/
structure IsDocument (v : Value) : Prop where
  mapping : v.classOf = .mapping
  environments : ∀ w, v.get? environmentsKey = some w → w.classOf = .mapping
  layers : ∀ name layer, v.reach [environmentsKey, name] = some layer → layer.classOf = .mapping

/-- The environments of a document that are no mappings. -/
def unfit (v : Value) : Set String :=
  {name | ∃ layer, v.reach [environmentsKey, name] = some layer ∧ layer.classOf ≠ .mapping}

/-- The common part of a project is a mapping without environments, and each of its layers is a
mapping. -/
structure IsApart (p : Project) : Prop where
  ordered : p.Ordered
  common : p.common.classOf = .mapping
  free : p.common.get? environmentsKey = none
  layers : ∀ name layer, p.select name = some layer → layer.classOf = .mapping

/-- The names whose layers are no mappings. -/
def misfits (environments : Entries) : Set String :=
  {name | ∃ layer, find? name environments = some layer ∧ layer.classOf ≠ .mapping}

theorem firstBadEnvironment?_eq_none_iff {environments : Entries}
    (ascending : Ascending environments) :
    firstBadEnvironment? environments = none ↔
      ∀ name layer, find? name environments = some layer → layer.classOf = .mapping := by
  induction environments with
  | nil => exact iff_of_true rfl fun _ _ found => nomatch found
  | cons entry rest ih =>
    obtain ⟨first, v⟩ := entry
    rw [firstBadEnvironment?]
    split
    next fits =>
      rw [ih ascending.tail]
      constructor
      · intro later name layer found
        rw [find?_cons] at found
        split at found
        next =>
          cases found
          exact isObject_iff.mp fits
        next => exact later name layer found
      · intro all name layer found
        refine all name layer ?_
        rw [find?_cons, if_neg ?_, found]
        rintro rfl
        rw [ascending.find?_tail] at found
        cases found
    next misfit =>
      refine iff_of_false nofun fun all => misfit (isObject_iff.mpr (all first v ?_))
      rw [find?_cons, if_pos rfl]

theorem isLeast_of_firstBadEnvironment? {environments : Entries}
    (ascending : Ascending environments) {name : String}
    (bad : firstBadEnvironment? environments = some name) :
    IsLeast (misfits environments) name := by
  induction environments with
  | nil => cases bad
  | cons entry rest ih =>
    obtain ⟨first, v⟩ := entry
    have above := (ascending_cons_iff.mp ascending).1
    rw [firstBadEnvironment?] at bad
    split at bad
    next fits =>
      -- the first layer fits, so all misfits stand behind it, at larger names
      obtain ⟨⟨layer, found, misfit⟩, least⟩ := ih ascending.tail bad
      constructor
      · refine ⟨layer, ?_, misfit⟩
        rw [find?_cons, if_neg ?_, found]
        exact (above name (mem_keys_iff.mpr ⟨layer, found⟩)).ne
      · rintro other ⟨layer', found', misfit'⟩
        rw [find?_cons] at found'
        split at found'
        next =>
          cases found'
          exact (misfit' (isObject_iff.mp fits)).elim
        next => exact least ⟨layer', found', misfit'⟩
    next misfit =>
      cases bad
      constructor
      · exact ⟨v, by rw [find?_cons, if_pos rfl], mt isObject_iff.mpr misfit⟩
      · rintro other ⟨layer', found', _⟩
        rw [find?_cons] at found'
        split at found'
        next same => exact same.le
        next => exact (above other (mem_keys_iff.mpr ⟨layer', found'⟩)).le

theorem firstBadEnvironment?_eq_some_iff {environments : Entries}
    (ascending : Ascending environments) {name : String} :
    firstBadEnvironment? environments = some name ↔
      IsLeast (misfits environments) name := by
  refine ⟨isLeast_of_firstBadEnvironment? ascending, fun least => ?_⟩
  cases bad : firstBadEnvironment? environments with
  | none =>
    obtain ⟨layer, found, misfit⟩ := least.1
    exact (misfit ((firstBadEnvironment?_eq_none_iff ascending).mp bad name layer found)).elim
  | some other => rw [(isLeast_of_firstBadEnvironment? ascending bad).unique least]

/-- The environments that a document's mapping has; none if it does not name any. -/
def HasEnvironments (entries environments : Entries) : Prop :=
  (find? environmentsKey entries = none ∧ environments = []) ∨
    find? environmentsKey entries = some (.object environments)

/-- A mapping is taken apart if its environments have layers that are mappings. -/
theorem ofValue_object_eq_ok_iff {entries : Entries} {source : Source} {p : Project} :
    ofValue (.object entries) source = .ok p ↔
      ∃ environments, HasEnvironments entries environments ∧
        firstBadEnvironment? environments = none ∧
        ⟨.object (erase environmentsKey entries), environments, source, none⟩ = p := by
  simp only [ofValue, HasEnvironments]
  cases find? environmentsKey entries with
  | none => simp [firstBadEnvironment?]
  | some w =>
    cases w with
    | object environments => cases found : firstBadEnvironment? environments <;> simp [found]
    | _ => simp

theorem HasEnvironments.ascending {entries environments : Entries}
    (has : HasEnvironments entries environments) (ordered : (Value.object entries).Ordered) :
    Ascending environments := by
  rcases has with ⟨_, rfl⟩ | found
  · exact ascending_nil
  · exact (ordered_object_iff.mp ((ordered_object_iff.mp ordered).2.of_find? found)).1

theorem HasEnvironments.find?_eq {entries environments : Entries}
    (has : HasEnvironments entries environments) (name : String) :
    find? name environments = (Value.object entries).reach [environmentsKey, name] := by
  rw [reach_cons, get?_object]
  rcases has with ⟨missing, rfl⟩ | found
  · rw [missing]
    rfl
  · rw [found, Option.bind_some, reach_singleton, get?_object]

variable {v : Value} {source : Source} {p : Project}

/-- Only mappings are taken apart. -/
theorem exists_entries_of_ofValue (success : ofValue v source = .ok p) :
    ∃ entries environments, v = .object entries ∧ HasEnvironments entries environments ∧
      firstBadEnvironment? environments = none ∧
      ⟨.object (erase environmentsKey entries), environments, source, none⟩ = p := by
  cases v with
  | object entries =>
    obtain ⟨environments, has, fit, same⟩ := ofValue_object_eq_ok_iff.mp success
    exact ⟨entries, environments, rfl, has, fit, same⟩
  | _ => cases success

theorem isDocument_of_ofValue (ordered : v.Ordered) (success : ofValue v source = .ok p) :
    IsDocument v := by
  obtain ⟨entries, environments, rfl, has, fit, _⟩ := exists_entries_of_ofValue success
  refine ⟨rfl, fun w found => ?_, fun name layer reached => ?_⟩
  · rcases has with ⟨missing, _⟩ | found'
    · cases missing.symm.trans found
    · cases found'.symm.trans found
      rfl
  · rw [← has.find?_eq] at reached
    exact (firstBadEnvironment?_eq_none_iff (has.ascending ordered)).mp fit name layer reached

theorem IsDocument.exists_ofValue (sound : IsDocument v) (ordered : v.Ordered) (source : Source) :
    ∃ p, ofValue v source = .ok p := by
  obtain ⟨entries, rfl⟩ := classOf_eq_mapping_iff.mp sound.mapping
  obtain ⟨environments, has⟩ : ∃ environments, HasEnvironments entries environments := by
    cases found : find? environmentsKey entries with
    | none => exact ⟨[], .inl ⟨found, rfl⟩⟩
    | some w =>
      obtain ⟨environments, rfl⟩ := classOf_eq_mapping_iff.mp (sound.environments w found)
      exact ⟨environments, .inr found⟩
  have fit : firstBadEnvironment? environments = none := by
    rw [firstBadEnvironment?_eq_none_iff (has.ascending ordered)]
    intro name layer found
    rw [has.find?_eq] at found
    exact sound.layers name layer found
  exact ⟨_, ofValue_object_eq_ok_iff.mpr ⟨environments, has, fit, rfl⟩⟩

theorem exists_ofValue_iff (ordered : v.Ordered) :
    (∃ p, ofValue v source = .ok p) ↔ IsDocument v :=
  ⟨fun ⟨_, success⟩ => isDocument_of_ofValue ordered success,
    fun sound => sound.exists_ofValue ordered source⟩

theorem ofValue_eq_environmentNotTable_iff {name : String} :
    ofValue v source = .error (.invalid (.environmentNotTable name)) ↔
      ∃ environments, v.get? environmentsKey = some (.object environments) ∧
        firstBadEnvironment? environments = some name := by
  cases v with
  | object entries =>
    simp only [ofValue, get?_object]
    cases find? environmentsKey entries with
    | none => simp
    | some w =>
      cases w with
      | object environments => cases found : firstBadEnvironment? environments <;> simp [found]
      | _ => simp
  | _ => simp [ofValue, get?]

/-- The environment that is reported is the first one that is no mapping. -/
theorem ofValue_eq_environmentNotTable_iff_isLeast (ordered : v.Ordered) {name : String} :
    ofValue v source = .error (.invalid (.environmentNotTable name)) ↔ IsLeast (unfit v) name := by
  have unfit_eq {environments : Entries}
      (found : v.get? environmentsKey = some (.object environments)) :
      unfit v = misfits environments := by
    simp only [unfit, misfits, reach_cons, reach_nil, found, Option.bind_some, Option.bind_fun_some,
      get?_object]
  have ascending {environments : Entries}
      (found : v.get? environmentsKey = some (.object environments)) : Ascending environments := by
    cases v with
    | object entries => exact HasEnvironments.ascending (.inr found) ordered
    | _ => cases found
  rw [ofValue_eq_environmentNotTable_iff]
  constructor
  · rintro ⟨environments, found, bad⟩
    rw [unfit_eq found]
    exact (firstBadEnvironment?_eq_some_iff (ascending found)).mp bad
  · intro least
    obtain ⟨layer, reached, _⟩ := least.1
    obtain ⟨w, found, inside⟩ := Option.bind_eq_some_iff.mp reached
    cases w with
    | object environments =>
      refine ⟨environments, found, (firstBadEnvironment?_eq_some_iff (ascending found)).mpr ?_⟩
      rwa [unfit_eq found] at least
    | _ => cases inside

theorem isApart_of_ofValue (ordered : v.Ordered) (success : ofValue v source = .ok p) :
    p.IsApart := by
  have ordered' := ordered_of_ofValue ordered success
  obtain ⟨entries, environments, rfl, has, fit, rfl⟩ := exists_entries_of_ofValue success
  refine ⟨ordered', rfl, ?_, ?_⟩
  · rw [get?_object, (ordered_object_iff.mp ordered).1.find?_erase, if_pos rfl]
  · exact (firstBadEnvironment?_eq_none_iff (has.ascending ordered)).mp fit

/-- The document of a project is taken apart into the project. -/
theorem IsApart.ofValue_document (apart : p.IsApart) (source : Source) :
    ofValue p.document source = .ok { p with source := source, root := none } := by
  obtain ⟨common, environments, _, _⟩ := p
  obtain ⟨entries, rfl⟩ := classOf_eq_mapping_iff.mp apart.common
  have ascending := (ordered_object_iff.mp apart.ordered.common).1
  have ascending' := (ordered_object_iff.mp apart.ordered.environments).1
  refine ofValue_object_eq_ok_iff.mpr ⟨environments, .inr ?_, ?_, ?_⟩
  · rw [find?_insert, if_pos rfl]
  · exact (firstBadEnvironment?_eq_none_iff ascending').mpr apart.layers
  · rw [ascending.erase_insert apart.free]

/-- A document that names environments is the document of its project. -/
theorem document_of_ofValue (ordered : v.Ordered) (success : ofValue v source = .ok p)
    (named : (v.get? environmentsKey).isSome) : p.document = v := by
  obtain ⟨entries, environments, rfl, has, _, rfl⟩ := exists_entries_of_ofValue success
  rcases has with ⟨missing, _⟩ | found
  · rw [get?_object, missing] at named
    cases named
  · exact congrArg Value.object ((ordered_object_iff.mp ordered).1.insert_erase found)

theorem eq_of_ofValue (success : ofValue v source = .ok p) :
    { p with source := source, root := none } = p := by
  obtain ⟨_, _, _, _, _, rfl⟩ := exists_entries_of_ofValue success
  rfl

theorem get?_common_of_ofValue (ordered : v.Ordered) (success : ofValue v source = .ok p)
    (key : String) : p.common.get? key = if environmentsKey = key then none else v.get? key := by
  obtain ⟨_, _, rfl, _, _, rfl⟩ := exists_entries_of_ofValue success
  exact (ordered_object_iff.mp ordered).1.find?_erase key environmentsKey

theorem select_of_ofValue (success : ofValue v source = .ok p) (name : String) :
    p.select name = v.reach [environmentsKey, name] := by
  obtain ⟨_, _, rfl, has, _, rfl⟩ := exists_entries_of_ofValue success
  exact has.find?_eq name

theorem isApart_of_find {name : String} (found : Preset.find name = .ok p) : p.IsApart := by
  have ordered := Preset.ordered_of_find found
  rw [Preset.find] at found
  split at found
  next =>
    cases found
    refine ⟨ordered, rfl, rfl, fun name layer selected => ?_⟩
    rw [select, find?_cons, find?_nil] at selected
    split at selected
    next =>
      cases selected
      rfl
    next => cases selected
  next => cases found

/-- A document is taken apart without loss: the common part is the document without its
environments, each environment has the layer that stands there, and the project's own document gives
the project again, as does the document that a preset is printed as. -/
theorem ofValue_lossless (v : Value) (source : Source) (ordered : v.Ordered) :
    ((∃ p, ofValue v source = .ok p) ↔ IsDocument v) ∧
    (∀ name, ofValue v source = .error (.invalid (.environmentNotTable name)) ↔
      IsLeast (unfit v) name) ∧
    (∀ p, ofValue v source = .ok p →
      (p.common.classOf = .mapping ∧ p.common.Ordered ∧
        ∀ key, p.common.get? key = if environmentsKey = key then none else v.get? key) ∧
      (∀ name, p.select name = v.reach [environmentsKey, name]) ∧
      ofValue p.document source = .ok p ∧
      ((v.get? environmentsKey).isSome → p.document = v)) ∧
    ∀ name p, Preset.find name = .ok p →
      Command.runPreset name = .printed p.document.pretty ∧
      ofValue p.document source = .ok { p with source := source, root := none } := by
  refine ⟨exists_ofValue_iff ordered, fun name => ?_, fun p success => ?_, fun name p found => ?_⟩
  · exact ofValue_eq_environmentNotTable_iff_isLeast ordered
  · have apart := isApart_of_ofValue ordered success
    refine ⟨⟨apart.common, apart.ordered.common, get?_common_of_ofValue ordered success⟩,
      select_of_ofValue success, ?_, document_of_ofValue ordered success⟩
    rw [apart.ofValue_document, eq_of_ofValue success]
  · refine ⟨?_, (isApart_of_find found).ofValue_document source⟩
    rw [Command.runPreset, found]

/-- An environment may have the name of the key that holds the environments, and may be empty. -/
theorem ofValue_lossless_environments :
    let v : Value := .object [
      ("environments", .object [("environments", .object []),
        ("production", .object [("environments", .null)])]),
      ("mode", .string "none")]
    let source : Source := { origin := .project }
    v.Ordered ∧ ∃ p, ofValue v source = .ok p ∧ p.common = .object [("mode", .string "none")] ∧
      p.select "environments" = some (.object []) ∧ p.document = v ∧
      ofValue p.document source = .ok p := by
  intro v source
  have ordered : v.Ordered := by decide
  obtain ⟨p, success, common⟩ : ∃ p, ofValue v source = .ok p ∧
      p.common = .object [("mode", .string "none")] := ⟨_, rfl, rfl⟩
  obtain ⟨_, layers, again, rejoined⟩ := (ofValue_lossless v source ordered).2.2.1 p success
  exact ⟨ordered, p, success, common, layers "environments", rejoined rfl, again⟩

end Project

end AssetPlan
