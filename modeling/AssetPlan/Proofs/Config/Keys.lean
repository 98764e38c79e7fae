import AssetPlan.Proofs.Config.Build
import AssetPlan.Proofs.Schema.Form

/-! # Misspelled keys

A configuration that is accepted has no undeclared key: not at its top, not in a section, a rule, a
pipeline step or a plugin. Free keys stand in the options of plugins and steps only. There is one
gap. The output policy of a rule refuses an unknown type, but a key that its type does not have is
ignored, so that a misspelled limit leaves the asset without one.
-/

namespace AssetPlan

open Schema

namespace Form

def plugin : Form := record [("name", scalar), ("options", options)]

def step : Form := record [("loader", scalar), ("options", options)]

def outputSettings : Form :=
  record [("path", scalar), ("filename", scalar), ("asset_filename", scalar),
    ("public_path", scalar), ("chunk_filename", scalar)]

def resolveSettings : Form :=
  record [("extensions", list scalar), ("plugins", list plugin), ("symlinks", scalar),
    ("cache_with_context", scalar)]

def optimization : Form := record [("minimizers", list plugin)]

/-- What a policy of each type has beside the type. -/
def policyFields : OutputPolicy.Kind → List (String × Form)
  | .hashedFile => [("filename", scalar)]
  | .inline =>
    [("limit", scalar), ("oversize", variant (OversizePolicy.variants.map Prod.fst)),
      ("filename", scalar)]
  | .resource => []

/-- A policy; if it is `closed`, it has the fields of its type only. -/
def policy (closed : Bool) : Form :=
  tagged closed OutputPolicy.tag
    (OutputPolicy.kinds.map fun (name, kind) => (name, policyFields kind))

/-- The fields of a rule before its policy, which is the last. -/
def ruleFront : List (String × Form) :=
  [("name", scalar), ("test", scalar), ("case_insensitive", scalar), ("contains", scalar),
    ("scope", list scalar), ("optional_scope", scalar), ("pipeline", list step)]

def ruleFields (policy : Form) : List (String × Form) := ruleFront ++ [("output", nullable policy)]

/-- The sections of a configuration behind its rules. -/
def sectionsBack : List (String × Form) :=
  [("plugins", list plugin), ("resolve", resolveSettings), ("optimization", optimization)]

/-- The sections of a configuration, where the source map style and a rule have the given forms. -/
def sections (devtool rule : Form) : List (String × Form) :=
  ("mode", scalar) :: ("devtool", devtool) :: ("output", outputSettings) :: ("rules", list rule) ::
    sectionsBack

/-- A whole configuration; `closed` tells whether policies have the fields of their type only. -/
def configuration (closed : Bool) : Form :=
  record (sections scalar (record (ruleFields (policy closed))))

/-- The value `p` stands in the configuration `v` as the policy of a rule. -/
def PolicyOf (v p : Value) : Prop :=
  ∃ rules rule, FieldOf "rules" 3 v (.array rules) ∧ rule ∈ rules ∧ FieldOf "output" 7 rule p ∧
    p ≠ .null

end Form

theorem Plugin.keepsTo_read : KeepsTo Plugin.read Form.plugin :=
  keepsTo_record _ <|
    (Record.keepsTo_field keepsTo_text "name" _ _).map Plugin.mk
      |>.seq (Record.keepsTo_field keepsTo_mapping "options" _ _)

theorem Step.keepsTo_read : KeepsTo Step.read Form.step :=
  keepsTo_record _ <|
    (Record.keepsTo_field keepsTo_text "loader" _ _).map Step.mk
      |>.seq (Record.keepsTo_field keepsTo_mapping "options" _ _)

theorem OutputSettings.keepsTo_read : KeepsTo OutputSettings.read Form.outputSettings :=
  keepsTo_record _ <|
    (Record.keepsTo_field keepsTo_text "path" _ _).map OutputSettings.mk
      |>.seq (Record.keepsTo_field keepsTo_text "filename" _ _)
      |>.seq (Record.keepsTo_field keepsTo_text "asset_filename" _ _)
      |>.seq (Record.keepsTo_field keepsTo_text "public_path" _ _)
      |>.seq (Record.keepsTo_field keepsTo_text.scalar_nullable "chunk_filename" _ _)

theorem ResolveSettings.keepsTo_read : KeepsTo ResolveSettings.read Form.resolveSettings :=
  keepsTo_record _ <|
    (Record.keepsTo_field keepsTo_text.list "extensions" _ _).map ResolveSettings.mk
      |>.seq (Record.keepsTo_field Plugin.keepsTo_read.list "plugins" _ _)
      |>.seq (Record.keepsTo_field keepsTo_flag.scalar_nullable "symlinks" _ _)
      |>.seq (Record.keepsTo_field keepsTo_flag.scalar_nullable "cache_with_context" _ _)

theorem Optimization.keepsTo_read : KeepsTo Optimization.read Form.optimization :=
  keepsTo_record _ <|
    (Record.keepsTo_field Plugin.keepsTo_read.list "minimizers" _ _).map Optimization.mk

namespace OutputPolicy

theorem keepsTo_oversize : KeepsTo (variantWith isNothing OversizePolicy.variants)
    (Form.variant (OversizePolicy.variants.map Prod.fst)) := by
  intro v a success
  cases v with
  | object entries =>
    match entries, success with
    | [(name, inner)], success =>
      obtain ⟨_, known, _⟩ := Except.bind_eq_ok_iff.mp success
      intro key member
      obtain rfl := List.mem_singleton.mp member
      simp only [variantWith.find] at known
      split at known
      next found => exact List.mem_map_of_mem (Entries.mem_of_lookup found)
      next => cases known
    | [], success => cases success
    | _ :: _ :: _, success => cases success
  | string => exact rfl
  | _ => cases success

theorem keepsTo_fields (kind : Kind) : (fields kind).KeepsTo (Form.policyFields kind) := by
  cases kind with
  | hashedFile =>
    exact (Record.keepsTo_field keepsTo_text.scalar_nullable "filename" _ _).map _
  | inline =>
    exact (Record.keepsTo_field (KeepsTo.scalar_nullable (keepsTo_natural _)) "limit" _ _).map inline
      |>.seq (Record.keepsTo_field keepsTo_oversize "oversize" _ _)
      |>.seq (Record.keepsTo_field keepsTo_text.scalar_nullable "filename" _ _)
  | resource =>
    exact
      { names := rfl
        entry := fun member => nomatch member
        items := by
          intro _ _ _ _ _ success _ placed
          cases success
          exact placed }

theorem readKind_eq_ok {v : Value} {kind : Kind} (success : readKind v = .ok kind) :
    ∃ name, v = .string name ∧ (name, kind) ∈ kinds := by
  cases v with
  | string name =>
    simp only [readKind] at success
    split at success
    next found =>
      cases success
      exact ⟨name, rfl, Entries.mem_of_lookup found⟩
    next => cases success
  | _ => cases success

theorem keepsTo_read : KeepsTo OutputPolicy.read (Form.policy false) := by
  intro v a success
  cases v with
  | object entries =>
    rw [read] at success
    split at success
    next => cases success
    next v found =>
      obtain ⟨kind, ofKind, success⟩ := Except.bind_eq_ok_iff.mp success
      obtain ⟨_, accepted, _⟩ := Except.bind_eq_ok_iff.mp success
      obtain ⟨name, rfl, known⟩ := readKind_eq_ok ofKind
      refine ⟨name, Form.policyFields kind, found, List.mem_map_of_mem known, ?_⟩
      intro key w atKey
      by_cases isTag : key = tag
      · exact .inl isTag
      · rw [← Entries.find?_erase_of_ne isTag] at atKey
        rcases checkEntries_find? accepted atKey with ⟨declared, checked⟩ | ⟨undeclared, _⟩
        · exact .inr (.inl ((keepsTo_fields kind).entry declared checked))
        · rw [(keepsTo_fields kind).names] at undeclared
          exact .inr (.inr ⟨rfl, undeclared⟩)
  | array items =>
    cases items with
    | nil => cases success
    | cons v items =>
      obtain ⟨kind, ofKind, success⟩ := Except.bind_eq_ok_iff.mp success
      obtain ⟨⟨policy, rest⟩, taken, complete⟩ := Except.bind_eq_ok_iff.mp success
      obtain ⟨name, rfl, known⟩ := readKind_eq_ok ofKind
      refine ⟨name, Form.policyFields kind, items, rfl, List.mem_map_of_mem known, ?_⟩
      dsimp only at complete
      split at complete
      next none =>
        rw [List.isEmpty_iff.mp none] at taken
        exact (keepsTo_fields kind).placed taken
      next => cases complete
  | _ => cases success

end OutputPolicy

theorem Definition.keepsTo_read :
    KeepsTo Definition.read (Form.record (Form.ruleFields (Form.policy false))) :=
  keepsTo_record _ <|
    (Record.keepsTo_field keepsTo_text.scalar_nullable "name" _ _).map Definition.mk
      |>.seq (Record.keepsTo_field keepsTo_text.scalar_nullable "test" _ _)
      |>.seq (Record.keepsTo_field keepsTo_flag "case_insensitive" _ _)
      |>.seq (Record.keepsTo_field keepsTo_text.scalar_nullable "contains" _ _)
      |>.seq (Record.keepsTo_field keepsTo_text.list "scope" _ _)
      |>.seq (Record.keepsTo_field keepsTo_flag "optional_scope" _ _)
      |>.seq (Record.keepsTo_field Step.keepsTo_read.list "pipeline" _ _)
      |>.seq (Record.keepsTo_field OutputPolicy.keepsTo_read.nullable "output" _ _)

/-- Reading alone takes any source map style. -/
theorem Sections.keepsTo_read :
    KeepsTo Sections.read (Form.record (Form.sections (fun _ => True)
      (Form.record (Form.ruleFields (Form.policy false))))) :=
  keepsTo_record _ <|
    (Record.keepsTo_field keepsTo_text.scalar_nullable "mode" _ _).map Sections.mk
      |>.seq (Record.keepsTo_field (fun _ => trivial) "devtool" _ _)
      |>.seq (Record.keepsTo_field OutputSettings.keepsTo_read "output" _ _)
      |>.seq (Record.keepsTo_field Definition.keepsTo_read.list "rules" _ _)
      |>.seq (Record.keepsTo_field Plugin.keepsTo_read.list "plugins" _ _)
      |>.seq (Record.keepsTo_field ResolveSettings.keepsTo_read "resolve" _ _)
      |>.seq (Record.keepsTo_field Optimization.keepsTo_read "optimization" _ _)

/-- The source map style is taken as it stands at its field. -/
theorem Sections.devtool_of_read {v w : Value} {s : Sections} (success : Sections.read v = .ok s)
    (found : Form.FieldOf "devtool" 1 v w) : nullable anything w = .ok s.devtool := by
  cases v with
  | object entries =>
    obtain ⟨_, atDevtool, _⟩ := Sections.ofFields_of_read success
    simp only [Form.FieldOf] at found
    simpa only [Schema.optional, Record.field, found] using atDevtool
  | array items =>
    rcases items with _ | ⟨mode, _ | ⟨devtool, rest⟩⟩
    · cases found
    · cases found
    · cases found
      rw [Sections.read, record] at success
      obtain ⟨expected, taken⟩ := ofItems_of_recordWith success
      simp only [Record.ofItems_seq_eq_ok_iff, Record.ofItems_map_eq_ok_iff] at taken
      obtain ⟨_, _, ⟨_, _, ⟨_, _, ⟨_, _, ⟨_, _, ⟨_, _, ⟨mode, atMode, rfl⟩, devtool, atDevtool, rfl⟩,
        _, _, rfl⟩, _, _, rfl⟩, _, _, rfl⟩, _, _, rfl⟩, _, _, rfl⟩ := taken
      obtain ⟨_, rfl⟩ := Record.ofItems_field_cons_eq_ok_iff.mp atMode
      exact (Record.ofItems_field_cons_eq_ok_iff.mp atDevtool).1
  | _ => exact found.elim

namespace BuildConfig

theorem scalar_of_readDevtool {w : Value} {devtool : Option Value} {style : Option String}
    (taken : nullable anything w = .ok devtool) (judged : readDevtool devtool = .ok style) :
    Form.scalar w := by
  cases w with
  | array items =>
    cases taken
    cases judged
  | object entries =>
    cases taken
    cases judged
  | _ => exact rfl

theorem form_of_ofValue {v : Value} {b : BuildConfig} (accepted : ofValue v = .ok b) :
    Form.configuration false v := by
  obtain ⟨s, success, judged⟩ := ofValue_eq_ok_iff.mp accepted
  obtain ⟨_, style, judged, _⟩ := ofSections_eq_ok_iff.mp judged
  exact Form.record_refine [("mode", Form.scalar)] _ (Sections.keepsTo_read success)
    fun w found => scalar_of_readDevtool (Sections.devtool_of_read success found) judged

end BuildConfig

namespace Form

variable {v w : Value} {closed : Bool}

theorem rules_of_configuration (holds : configuration closed v) (found : FieldOf "rules" 3 v w) :
    list (record (ruleFields (policy closed))) w :=
  record_field [("mode", scalar), ("devtool", scalar), ("output", outputSettings)] sectionsBack
    (by decide) holds found

theorem policy_of_rule (holds : record (ruleFields (policy closed)) v)
    (found : FieldOf "output" 7 v w) : nullable (policy closed) w :=
  record_field ruleFront [] (by decide) holds found

theorem policy_of_configuration {p : Value} (holds : configuration closed v)
    (stands : PolicyOf v p) : policy closed p := by
  obtain ⟨rules, rule, atRules, member, atOutput, present⟩ := stands
  have listed := rules_of_configuration holds atRules
  exact (policy_of_rule (listed rule member) atOutput).resolve_left present

/-- A policy that is a mapping names its type. -/
theorem kind_of_policy {entries : Entries} (holds : policy closed (.object entries)) :
    ∃ name kind, Entries.find? OutputPolicy.tag entries = some (.string name) ∧
      OutputPolicy.kinds.lookup name = some kind := by
  obtain ⟨name, fields, typed, known, _⟩ := holds
  obtain ⟨⟨_, kind⟩, member, same⟩ := List.mem_map.mp known
  cases same
  have once : ∀ entry ∈ OutputPolicy.kinds,
      OutputPolicy.kinds.lookup entry.1 = some entry.2 := by decide
  exact ⟨name, kind, typed, once _ member⟩

/-- A configuration has declared keys only, exactly if its policies have. -/
theorem configuration_true_iff (holds : configuration false v) :
    configuration true v ↔ ∀ p, PolicyOf v p → policy true p := by
  constructor
  · exact fun closed p => policy_of_configuration closed
  · intro policies
    refine record_refine [("mode", scalar), ("devtool", scalar), ("output", outputSettings)]
      sectionsBack holds ?_
    intro w atRules
    have listed := rules_of_configuration holds atRules
    cases w with
    | array rules =>
      intro rule member
      refine record_refine ruleFront [] (listed rule member) ?_
      intro p atOutput
      by_cases absent : p = .null
      · exact .inl absent
      · exact .inr (policies p ⟨rules, rule, atRules, member, atOutput, absent⟩)
    | _ => exact listed.elim

end Form

namespace OutputPolicy

theorem checkEntries_insert {fields : Record OutputPolicy} {key : String}
    (undeclared : key ∉ fields.names) (v : Value) (entries : Entries) :
    checkEntries fields false (Entries.insert key v entries) =
      checkEntries fields false entries := by
  induction entries with
  | nil => simp [Entries.insert, checkEntries, undeclared]
  | cons entry rest ih =>
    obtain ⟨k, w⟩ := entry
    rw [Entries.insert]
    split
    next same =>
      subst same
      simp [checkEntries, undeclared]
    next => split <;> simp [checkEntries, undeclared, ih]

theorem checkEntries_erase_insert {fields : Record OutputPolicy} {key : String}
    (undeclared : key ∉ fields.names) (other : key ≠ tag) (v : Value) (entries : Entries) :
    checkEntries fields false (Entries.erase tag (Entries.insert key v entries)) =
      checkEntries fields false (Entries.erase tag entries) := by
  induction entries with
  | nil => simp [Entries.insert, Entries.erase, checkEntries, undeclared, other]
  | cons entry rest ih =>
    obtain ⟨k, w⟩ := entry
    rw [Entries.insert]
    split
    next same =>
      subst same
      simp [Entries.erase, checkEntries, undeclared, other]
    next =>
      split
      next => simp [Entries.erase, checkEntries, undeclared, other]
      next =>
        rw [Entries.erase, Entries.erase]
        split
        next => exact checkEntries_insert undeclared v rest
        next => simp [checkEntries, ih]

/-- A policy is read from its declared fields alone. -/
theorem ofFields_insert {kind : Kind} {key : String} (undeclared : key ∉ (fields kind).names)
    (v : Value) (entries : Entries) :
    ((fields kind).ofFields fun query => Entries.find? query (Entries.insert key v entries)) =
      (fields kind).ofFields fun query => Entries.find? query entries := by
  have kept : ∀ name ∈ (fields kind).names,
      Entries.find? name (Entries.insert key v entries) = Entries.find? name entries := by
    intro name declared
    have other : key ≠ name := fun same => undeclared (same ▸ declared)
    rw [Entries.find?_insert, if_neg other]
  cases kind with
  | hashedFile =>
    have filename := kept "filename" (by decide)
    simp only [fields, Functor.map, Schema.optional, Record.field, filename]
  | inline =>
    have limit := kept "limit" (by decide)
    have oversize := kept "oversize" (by decide)
    have filename := kept "filename" (by decide)
    simp only [fields, Functor.map, Seq.seq, Schema.optional, withDefault, Record.field, limit,
      oversize, filename]
  | resource => rfl

/-- A key that the type of a policy does not have changes nothing about what is read. -/
theorem read_insert_undeclared {entries : Entries} {name key : String} {kind : Kind}
    (typed : Entries.find? tag entries = some (.string name)) (known : kinds.lookup name = some kind)
    (undeclared : key ∉ (fields kind).names) (other : key ≠ tag) (v : Value) :
    read (.object (Entries.insert key v entries)) = read (.object entries) := by
  simp only [read, Entries.find?_insert, if_neg other, typed, readKind, known, Except.ok_bind,
    checkEntries_erase_insert undeclared other]
  have same := ofFields_insert undeclared v entries
  simp only [Entries.find?_insert] at same
  rw [same]

end OutputPolicy

namespace BuildConfig

/-- A configuration that is accepted has declared keys only, outside of options and policies; so it
has everywhere, if each policy has the fields of its type only. Whatever stands in a policy at a key
that its type does not have, the policy is read as without it. -/
theorem ofValue_declared (v : Value) (b : BuildConfig) (accepted : ofValue v = .ok b) :
    Form.configuration false v ∧
      (Form.configuration true v ↔ ∀ p, Form.PolicyOf v p → Form.policy true p) ∧
      ∀ entries, Form.PolicyOf v (.object entries) →
        ∃ name kind, Entries.find? OutputPolicy.tag entries = some (.string name) ∧
          OutputPolicy.kinds.lookup name = some kind ∧
          ∀ key w, key ≠ OutputPolicy.tag → key ∉ (Form.policyFields kind).map Prod.fst →
            OutputPolicy.read (.object (Entries.insert key w entries)) =
              OutputPolicy.read (.object entries) := by
  have holds := form_of_ofValue accepted
  refine ⟨holds, Form.configuration_true_iff holds, fun entries stands => ?_⟩
  obtain ⟨name, kind, typed, known⟩ :=
    Form.kind_of_policy (Form.policy_of_configuration holds stands)
  refine ⟨name, kind, typed, known, fun key w other undeclared => ?_⟩
  rw [← (OutputPolicy.keepsTo_fields kind).names] at undeclared
  exact OutputPolicy.read_insert_undeclared typed known undeclared other w

/-- A policy in the middle of a rule that is given by its places, with options around it. It is read
the same with a misspelled second limit. -/
theorem ofValue_declared_images :
    let options : Value := .object [("anything", .object [("at", .string "all")])]
    let policy : Value := .object [("limit", .int 5000), ("type", .string "inline")]
    let v : Value := .object [
      ("output", .object [("asset_filename", .string "[hash][ext]"),
        ("filename", .string "[name].js"), ("path", .string "dist"), ("public_path", .string "/")]),
      ("plugins", .array [.object [("name", .string "html"), ("options", options)]]),
      ("rules", .array [.array [.string "images", .null, .bool false, .string ".png", .array [],
        .bool false, .array [.object [("loader", .string "png"), ("options", options)]], policy]])]
    let misspelled : Value :=
      .object [("limit", .int 5000), ("limti", .int 7), ("type", .string "inline")]
    ∃ b, ofValue v = .ok b ∧ Form.configuration false v ∧ Form.configuration true v ∧
      OutputPolicy.read misspelled = OutputPolicy.read policy := by
  intro options policy v misspelled
  obtain ⟨b, accepted⟩ : ∃ b, ofValue v = .ok b := ⟨_, rfl⟩
  have closed : Form.policy true policy := by
    refine ⟨"inline", Form.policyFields .inline, rfl, by simp [OutputPolicy.kinds], ?_⟩
    intro key w found
    obtain rfl | rfl : key = "limit" ∨ key = "type" := by
      simpa [Entries.keys] using Entries.mem_keys_iff.mpr ⟨w, found⟩
    · cases found
      exact .inr (.inl ⟨Form.scalar, List.mem_cons_self, rfl⟩)
    · exact .inl rfl
  obtain ⟨holds, closes, ignores⟩ := ofValue_declared v b accepted
  refine ⟨b, accepted, holds, closes.mpr ?_, ?_⟩
  · rintro p ⟨rules, rule, atRules, member, atOutput, _⟩
    cases atRules
    obtain rfl := List.mem_singleton.mp member
    cases atOutput
    exact closed
  · have stands : Form.PolicyOf v policy :=
      ⟨_, _, rfl, List.mem_singleton_self _, rfl, by simp [policy]⟩
    obtain ⟨name, kind, typed, known, same⟩ := ignores _ stands
    cases typed
    cases known
    exact same "limti" (.int 7) (by decide) (by decide)

/-- A misspelled limit is accepted, and the rule has none. -/
theorem ofValue_misspelled_limit :
    let policy : Value := .object [("limti", .int 5000), ("type", .string "inline")]
    let v : Value := .object [
      ("output", .object [("asset_filename", .string "[hash][ext]"),
        ("filename", .string "[name].js"), ("path", .string "dist"), ("public_path", .string "/")]),
      ("rules", .array [.object [("contains", .string ".svg"), ("output", policy)]])]
    ∃ b, ofValue v = .ok b ∧ b.rules.map Rule.output = [some (.inline none .emit none)] ∧
      ¬ Form.configuration true v := by
  intro policy v
  refine ⟨_, rfl, rfl, fun closed => ?_⟩
  have policies := (Form.configuration_true_iff (form_of_ofValue (v := v) rfl)).mp closed
  have spelled : Form.policy true policy :=
    policies policy ⟨_, _, rfl, List.mem_singleton_self _, rfl, nofun⟩
  obtain ⟨kind, fields, typed, known, keys⟩ := spelled
  obtain rfl : kind = "inline" := by cases typed; rfl
  obtain rfl : fields = Form.policyFields .inline := by simpa [OutputPolicy.kinds] using known
  rcases keys "limti" (.int 5000) rfl with isTag | ⟨form, declared, _⟩ | ⟨opened, _⟩
  · exact absurd isTag (by decide)
  · simp [Form.policyFields] at declared
  · cases opened

end BuildConfig

end AssetPlan
