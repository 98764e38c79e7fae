import AssetPlan.Proofs.Toml.Moment
import AssetPlan.Proofs.Value.Entries
import AssetPlan.Toml.Parser

/-! # What documents hold

Every date-time that a document spells is in range. The readers of numbers see to it, and reading
arrays, building tables and taking marked tables for date-times only pass values on.
-/

namespace AssetPlan.Toml

/-- Every date-time inside is in range. -/
inductive Proper : Toml → Prop
  | string (s : String) : Proper (.string s)
  | integer (n : Int) : Proper (.integer n)
  | float (x : Decimal.Double) : Proper (.float x)
  | boolean (b : Bool) : Proper (.boolean b)
  | moment {m : Moment} (inRange : m.InRange) : Proper (.moment m)
  | array {items : List Toml} (each : ∀ t ∈ items, Proper t) : Proper (.array items)
  | table {entries : List (String × Toml)} (each : ∀ entry ∈ entries, Proper entry.2) :
      Proper (.table entries)

variable {cs rest : List Char}

theorem inBase_lt {digits : List Nat} (small : ∀ d ∈ digits, d < 10) :
    inBase 10 digits < Nat.pow 10 digits.length := by
  suffices shifted : ∀ n, digits.foldl (fun n d => n * 10 + d) n <
      (n + 1) * Nat.pow 10 digits.length by
    simpa [inBase] using shifted 0
  induction digits with
  | nil => simp
  | cons d digits ih =>
    obtain ⟨first, later⟩ := List.forall_mem_cons.mp small
    intro n
    calc
      _ < (n * 10 + d + 1) * Nat.pow 10 digits.length := ih later (n * 10 + d)
      _ ≤ (n + 1) * 10 * Nat.pow 10 digits.length := Nat.mul_le_mul_right _ (by omega)
      _ = (n + 1) * Nat.pow 10 (digits.length + 1) := by
        rw [Nat.pow_eq, Nat.pow_eq, Nat.pow_succ, Nat.mul_assoc, Nat.mul_comm 10]

/-- At most nine digits are counted, and they are filled up to nine. -/
theorem nanoseconds_lt {n : Nat} (success : nanoseconds cs = some (n, rest)) : n < 1000000000 := by
  unfold nanoseconds at success
  split at success
  next after =>
    dsimp only at success
    split at success
    · cases success
    cases success
    let counted := ((after.takeWhile Char.isDigit).take 9).map fun c => c.toNat - 48
    have short : counted.length ≤ 9 := by
      rw [List.length_map]
      exact List.length_take_le _ _
    have digits : ∀ d ∈ counted, d < 10 := by
      intro d member
      obtain ⟨c, inside, rfl⟩ := List.mem_map.mp member
      have decimal : c.isDigit = true := List.mem_takeWhile_imp (List.mem_of_mem_take inside)
      have last : c.toNat ≤ 57 := (Char.isDigit_iff_toNat.mp decimal).2
      omega
    calc
      inBase 10 counted * Nat.pow 10 (9 - counted.length)
        < Nat.pow 10 counted.length * Nat.pow 10 (9 - counted.length) := by
          exact Nat.mul_lt_mul_of_pos_right (inBase_lt digits) (Nat.pow_pos (by decide))
      _ = Nat.pow 10 9 := by
        rw [Nat.pow_eq, Nat.pow_eq, ← Nat.pow_add, Nat.add_sub_cancel' short]
      _ = 1000000000 := by decide
  next => cases success; decide

theorem inRange_of_time {t : Time} (success : time cs = some (t, rest)) : t.InRange := by
  simp only [time, Option.bind_eq_bind, Option.bind_eq_some_iff] at success
  obtain ⟨_, _, _, _, _, _, _, _, _, _, ⟨n, _⟩, fraction, same⟩ := success
  cases same
  exact nanoseconds_lt fraction

theorem inRange_of_dateTime {m : Moment} (success : dateTime cs = some (m, rest)) : m.InRange := by
  have alone (d : Option Date) (o : Option Offset) : Moment.InRange ⟨d, none, o⟩ := nofun
  have timed (d : Option Date) (o : Option Offset) {t : Time} (inRange : t.InRange) :
      Moment.InRange ⟨d, some t, o⟩ := by
    rintro _ ⟨⟩
    exact inRange
  unfold dateTime at success
  split at success
  next =>
    obtain ⟨⟨t, _⟩, read, same⟩ := Option.map_eq_some_iff.mp success
    cases same
    exact timed none none (inRange_of_time read)
  next d after _ =>
    dsimp only at success
    split at success
    · split at success
      · split at success
        · cases success
          exact alone d none
        next t after read =>
          obtain ⟨⟨o, _⟩, _, same⟩ := Option.map_eq_some_iff.mp success
          cases same
          exact timed d o (inRange_of_time read)
      · cases success
        exact alone d none
    · cases success
      exact alone d none

theorem inRange_of_momentOf? {m : Moment} (success : momentOf? cs = some m) : m.InRange := by
  unfold momentOf? at success
  split at success
  next read =>
    cases success
    exact inRange_of_dateTime read
  next => cases success

namespace Table

variable {t next : Table} {key : String} {item : Item} {entries : List (String × Item)}

theorem entryValues_eq_map (entries : List (String × Item)) :
    entryValues entries = entries.map fun entry => (entry.1, itemValue entry.2) := by
  induction entries with
  | nil => rw [entryValues, List.map_nil]
  | cons entry rest ih => rw [entryValues, ih, List.map_cons]

theorem tableValues_eq_map (ts : List Table) : tableValues ts = ts.map toToml := by
  induction ts with
  | nil => rw [tableValues, List.map_nil]
  | cons t rest ih => rw [tableValues, ih, List.map_cons, toToml]

/-- A table is finished properly exactly if each of its items is. -/
theorem proper_toToml_iff :
    t.toToml.Proper ↔ ∀ entry ∈ t.entries, (itemValue entry.2).Proper := by
  obtain ⟨implicit, dotted, entries⟩ := t
  rw [toToml, tableEntries, entryValues_eq_map]
  constructor
  · intro proper entry member
    cases proper with
    | table each => exact each _ (List.mem_map_of_mem member)
  · intro each
    refine .table fun entry member => ?_
    obtain ⟨item, inside, rfl⟩ := List.mem_map.mp member
    exact each item inside

theorem proper_table_iff : (itemValue (.table t)).Proper ↔ t.toToml.Proper := by
  rw [itemValue, toToml]

theorem proper_tables_iff {ts : List Table} :
    (itemValue (.tables ts)).Proper ↔ ∀ t ∈ ts, t.toToml.Proper := by
  rw [itemValue, tableValues_eq_map]
  constructor
  · intro proper t member
    cases proper with
    | array each => exact each _ (List.mem_map_of_mem member)
  · intro each
    refine .array fun v member => ?_
    obtain ⟨t, inside, rfl⟩ := List.mem_map.mp member
    exact each t inside

theorem proper_fresh (implicit dotted : Bool) : (fresh implicit dotted).toToml.Proper :=
  proper_toToml_iff.mpr (List.forall_mem_nil _)

theorem mem_put {entry : String × Item} (member : entry ∈ put key item entries) :
    entry = (key, item) ∨ entry ∈ entries := by
  induction entries with
  | nil => exact .inl (List.mem_singleton.mp member)
  | cons first rest ih =>
    rw [put] at member
    split at member
    next same =>
      rcases List.mem_cons.mp member with rfl | later
      · exact .inl (by rw [same])
      · exact .inr (List.mem_cons_of_mem _ later)
    next =>
      rcases List.mem_cons.mp member with rfl | later
      · exact .inr List.mem_cons_self
      · exact (ih later).imp_right (List.mem_cons_of_mem _)

theorem proper_set (proper : t.toToml.Proper) (value : (itemValue item).Proper) (key : String) :
    (t.set key item).toToml.Proper := by
  refine proper_toToml_iff.mpr fun entry member => ?_
  rcases mem_put member with rfl | old
  · exact value
  · exact proper_toToml_iff.mp proper entry old

theorem proper_setLast (proper : t.toToml.Proper) (value : (itemValue item).Proper)
    (key : String) : (t.setLast key item).toToml.Proper := by
  refine proper_toToml_iff.mpr fun entry member => ?_
  rcases List.mem_append.mp member with old | last
  · exact proper_toToml_iff.mp proper entry (List.mem_of_mem_filter old)
  · obtain rfl := List.mem_singleton.mp last
    exact value

theorem proper_of_lookup (proper : t.toToml.Proper) (found : t.entries.lookup key = some item) :
    (itemValue item).Proper :=
  proper_toToml_iff.mp proper (key, item) (Entries.mem_of_lookup found)

/-- A change that keeps tables proper keeps the whole proper, wherever in it the table stands. -/
theorem proper_of_at? {dotted : Bool} {change : Table → Option Table} {path : List String}
    (kept : ∀ {inner next}, inner.toToml.Proper → change inner = some next → next.toToml.Proper)
    (proper : t.toToml.Proper) (success : t.at? dotted change path = some next) :
    next.toToml.Proper := by
  induction path generalizing t next with
  | nil => exact kept proper success
  | cons key path ih =>
    rw [at?] at success
    split at success
    next =>
      obtain ⟨inner, changed, same⟩ := Option.bind_eq_some_iff.mp success
      cases same
      exact proper_set proper (proper_table_iff.mpr (ih (proper_fresh _ _) changed)) key
    next => cases success
    next inner found =>
      split at success
      next => cases success
      next =>
        obtain ⟨changed, success', same⟩ := Option.bind_eq_some_iff.mp success
        cases same
        have inner' := ih (proper_table_iff.mp (proper_of_lookup proper found)) success'
        exact proper_set proper (proper_table_iff.mpr inner') key
    next ts found =>
      split at success
      next => cases success
      next last before reversed =>
        obtain ⟨changed, success', same⟩ := Option.bind_eq_some_iff.mp success
        cases same
        have each := proper_tables_iff.mp (proper_of_lookup proper found)
        have shape : ts = before.reverse ++ [last] := by
          rw [← List.reverse_reverse ts, reversed, List.reverse_cons]
        rw [shape, List.forall_mem_append, List.forall_mem_singleton] at each
        have last' := ih each.2 success'
        refine proper_set proper (proper_tables_iff.mpr ?_) key
        exact List.forall_mem_append.mpr ⟨each.1, List.forall_mem_singleton.mpr last'⟩

theorem proper_of_addValue {path : List String} {v : Toml} (proper : t.toToml.Proper)
    (value : v.Proper) (success : t.addValue path key v = some next) : next.toToml.Proper := by
  refine proper_of_at? (fun {inner next} innerProper changed => ?_) proper success
  split at changed
  · cases changed
  · split at changed
    · cases changed
    · cases changed
      exact proper_set innerProper (by rwa [itemValue]) key

theorem proper_of_addHeader {path : List String} (proper : t.toToml.Proper)
    (success : t.addHeader path key = some next) : next.toToml.Proper := by
  refine proper_of_at? (fun {parent next} parentProper changed => ?_) proper success
  split at changed
  next =>
    cases changed
    exact proper_set parentProper (proper_table_iff.mpr (proper_fresh false false)) key
  next inner found =>
    split at changed
    · cases changed
      have inner' := proper_toToml_iff.mp
        (proper_table_iff.mp (proper_of_lookup parentProper found))
      have headed : (mk false false inner.entries).toToml.Proper := proper_toToml_iff.mpr inner'
      exact proper_setLast parentProper (proper_table_iff.mpr headed) key
    · cases changed
  next => cases changed

theorem proper_of_addToArray {path : List String} (proper : t.toToml.Proper)
    (success : t.addToArray path key = some next) : next.toToml.Proper := by
  have one : ∀ t ∈ [fresh false false], t.toToml.Proper :=
    List.forall_mem_singleton.mpr (proper_fresh false false)
  refine proper_of_at? (fun {parent next} parentProper changed => ?_) proper success
  split at changed
  next =>
    cases changed
    exact proper_set parentProper (proper_tables_iff.mpr one) key
  next ts found =>
    cases changed
    have each := proper_tables_iff.mp (proper_of_lookup parentProper found)
    exact proper_set parentProper
      (proper_tables_iff.mpr (List.forall_mem_append.mpr ⟨each, one⟩)) key
  next => cases changed

end Table

theorem proper_of_inlineTable? {pairs : List (List String × String × Toml)} {v : Toml}
    (each : ∀ pair ∈ pairs, pair.2.2.Proper) (success : inlineTable? pairs = some v) :
    v.Proper := by
  obtain ⟨t, folded, same⟩ := Option.bind_eq_some_iff.mp success
  cases same
  clear success
  have proper := Table.proper_fresh false false
  generalize Table.fresh false false = start at folded proper
  -- the tables between the pairs are proper, whichever the first one is
  induction pairs generalizing start with
  | nil =>
    cases folded
    exact proper
  | cons pair rest ih =>
    obtain ⟨first, later⟩ := List.forall_mem_cons.mp each
    obtain ⟨middle, added, folded⟩ := Option.bind_eq_some_iff.mp folded
    exact ih later middle folded (Table.proper_of_addValue proper first added)

theorem proper_of_bounded {n : Int} {v : Toml} (success : bounded n = some v) : v.Proper := by
  obtain ⟨_, same⟩ := Option.ite_none_right_eq_some.mp success
  cases same
  exact .integer n

theorem proper_of_readInteger {v : Toml} (success : readInteger cs = some (v, rest)) :
    v.Proper := by
  unfold readInteger at success
  split at success
  all_goals
    obtain ⟨_, _, success⟩ := Option.bind_eq_some_iff.mp success
    obtain ⟨_, checked, same⟩ := Option.map_eq_some_iff.mp success
    cases same
    exact proper_of_bounded checked

theorem proper_of_floatOf {negative : Bool} {whole fraction : List Nat} {e : Int} {v : Toml}
    (success : floatOf negative whole fraction e = some v) : v.Proper := by
  simp only [floatOf] at success
  split at success
  · cases success
    exact .float _
  · obtain ⟨_, same⟩ := Option.ite_none_right_eq_some.mp success
    cases same
    exact .float _

theorem proper_of_readFloat {v : Toml} (success : readFloat cs = some (v, rest)) :
    v.Proper := by
  unfold readFloat at success
  dsimp only at success
  split at success
  · cases success
    exact .float _
  · cases success
    exact .float _
  · obtain ⟨⟨whole, left⟩, _, success⟩ := Option.bind_eq_some_iff.mp success
    dsimp only at success
    split at success
    · obtain ⟨_, _, success⟩ := Option.bind_eq_some_iff.mp success
      obtain ⟨_, _, success⟩ := Option.bind_eq_some_iff.mp success
      obtain ⟨_, read, same⟩ := Option.map_eq_some_iff.mp success
      cases same
      exact proper_of_floatOf read
    · obtain ⟨_, _, success⟩ := Option.bind_eq_some_iff.mp success
      obtain ⟨_, _, success⟩ := Option.bind_eq_some_iff.mp success
      obtain ⟨_, read, same⟩ := Option.map_eq_some_iff.mp success
      cases same
      exact proper_of_floatOf read

theorem proper_of_scalar {v : Toml} (success : scalar cs = some (v, rest)) : v.Proper := by
  unfold scalar at success
  split at success
  iterate 2
    · obtain ⟨_, _, same⟩ := Option.map_eq_some_iff.mp success
      cases same
      exact .string _
  iterate 2
    · cases success
      exact .boolean _
  · cases spelled : dateTime cs with
    | some read =>
      rw [spelled] at success
      cases success
      exact .moment (inRange_of_dateTime spelled)
    | none =>
      cases decimal : readFloat cs with
      | some read =>
        rw [spelled, decimal] at success
        cases success
        exact proper_of_readFloat decimal
      | none =>
        rw [spelled, decimal] at success
        exact proper_of_readInteger success

theorem proper_of_arrayItems {read : Reader Toml}
    (sound : ∀ {cs v rest}, read cs = some (v, rest) → v.Proper) {fuel : Nat} {vs : List Toml}
    (success : arrayItems read fuel cs = some (vs, rest)) : ∀ v ∈ vs, v.Proper := by
  induction fuel generalizing cs vs rest with
  | zero => cases success
  | succ fuel ih =>
    obtain ⟨_, _, success⟩ := Option.bind_eq_some_iff.mp success
    dsimp only at success
    split at success
    · cases success
      exact List.forall_mem_nil _
    · obtain ⟨⟨v, left⟩, here, success⟩ := Option.bind_eq_some_iff.mp success
      obtain ⟨_, _, success⟩ := Option.bind_eq_some_iff.mp success
      split at success
      · cases success
        exact List.forall_mem_singleton.mpr (sound here)
      · obtain ⟨⟨vs, _⟩, later, same⟩ := Option.bind_eq_some_iff.mp success
        cases same
        exact List.forall_mem_cons.mpr ⟨sound here, ih later⟩
      · cases success

theorem proper_of_inlinePairs {read : Reader Toml}
    (sound : ∀ {cs v rest}, read cs = some (v, rest) → v.Proper) {fuel : Nat}
    {pairs : List (List String × String × Toml)}
    (success : inlinePairs read fuel cs = some (pairs, rest)) :
    ∀ pair ∈ pairs, pair.2.2.Proper := by
  induction fuel generalizing cs pairs rest with
  | zero => cases success
  | succ fuel ih =>
    obtain ⟨⟨⟨path, last⟩, _⟩, _, success⟩ := Option.bind_eq_some_iff.mp success
    obtain ⟨_, _, success⟩ := Option.bind_eq_some_iff.mp success
    obtain ⟨⟨v, left⟩, here, success⟩ := Option.bind_eq_some_iff.mp success
    dsimp only at success
    split at success
    · cases success
      exact List.forall_mem_singleton.mpr (sound here)
    · obtain ⟨⟨pairs, _⟩, later, same⟩ := Option.bind_eq_some_iff.mp success
      cases same
      exact List.forall_mem_cons.mpr ⟨sound here, ih later⟩
    · cases success

theorem proper_of_value {depth : Nat} {v : Toml} (success : value depth cs = some (v, rest)) :
    v.Proper := by
  induction depth generalizing cs v rest with
  | zero => exact proper_of_scalar success
  | succ depth ih =>
    rw [value.eq_def] at success
    dsimp only at success
    split at success
    · obtain ⟨⟨vs, _⟩, listed, same⟩ := Option.map_eq_some_iff.mp success
      cases same
      exact .array (proper_of_arrayItems ih listed)
    · split at success
      · cases success
        exact .table (List.forall_mem_nil _)
      · obtain ⟨⟨pairs, _⟩, listed, success⟩ := Option.bind_eq_some_iff.mp success
        obtain ⟨t, built, same⟩ := Option.bind_eq_some_iff.mp success
        cases same
        exact proper_of_inlineTable? (proper_of_inlinePairs ih listed) built
    · exact proper_of_scalar success

/-- The value that a statement gives, if it gives one, is proper. -/
def Statement.Proper : Statement → Prop
  | .entry _ _ v => v.Proper
  | .header _ _ | .arrayHeader _ _ => True

theorem proper_of_statement {s : Statement} (success : statement cs = some (s, rest)) :
    s.Proper := by
  unfold statement at success
  split at success
  · simp only [Option.bind_eq_bind, Option.bind_eq_some_iff] at success
    obtain ⟨_, _, _, _, _, _, _, _, same⟩ := success
    cases same
    trivial
  · simp only [Option.bind_eq_bind, Option.bind_eq_some_iff] at success
    obtain ⟨_, _, _, _, _, _, same⟩ := success
    cases same
    trivial
  · simp only [Option.bind_eq_bind, Option.bind_eq_some_iff] at success
    obtain ⟨_, _, _, _, ⟨v, _⟩, read, _, _, same⟩ := success
    cases same
    exact proper_of_value read

theorem proper_of_add {d next : Document} {s : Statement} (proper : d.root.toToml.Proper)
    (given : s.Proper) (success : d.add s = some next) : next.root.toToml.Proper := by
  cases s with
  | entry path key v =>
    obtain ⟨root, added, same⟩ := Option.bind_eq_some_iff.mp success
    cases same
    exact Table.proper_of_at? (fun inner => Table.proper_of_addValue inner given) proper added
  | header path key =>
    obtain ⟨root, added, same⟩ := Option.bind_eq_some_iff.mp success
    cases same
    exact Table.proper_of_addHeader proper added
  | arrayHeader path key =>
    obtain ⟨root, added, same⟩ := Option.bind_eq_some_iff.mp success
    cases same
    exact Table.proper_of_addToArray proper added

theorem proper_of_statements {fuel : Nat} {d next : Document} (proper : d.root.toToml.Proper)
    (success : statements fuel d cs = some next) : next.root.toToml.Proper := by
  induction fuel generalizing d cs with
  | zero => cases success
  | succ fuel ih =>
    rw [statements] at success
    split at success
    · cases success
      exact proper
    · obtain ⟨_, _, success⟩ := Option.bind_eq_some_iff.mp success
      exact ih proper success
    · split at success
      · exact ih proper success
      · obtain ⟨⟨s, _⟩, read, success⟩ := Option.bind_eq_some_iff.mp success
        obtain ⟨d', added, success⟩ := Option.bind_eq_some_iff.mp success
        exact ih (proper_of_add proper (proper_of_statement read) added) success

theorem proper_of_readMarksOfItems? {items vs : List Toml}
    (each : ∀ t ∈ items, ∀ {v}, readMarks? t = some v → v.Proper)
    (success : readMarksOfItems? items = some vs) : ∀ v ∈ vs, v.Proper := by
  induction items generalizing vs with
  | nil =>
    cases success
    exact List.forall_mem_nil _
  | cons t rest ih =>
    obtain ⟨first, later⟩ := List.forall_mem_cons.mp each
    obtain ⟨v, read, success⟩ := Option.bind_eq_some_iff.mp success
    obtain ⟨vs, reads, same⟩ := Option.bind_eq_some_iff.mp success
    cases same
    exact List.forall_mem_cons.mpr ⟨first read, ih later reads⟩

theorem proper_of_readMarksOfEntries? {entries vs : List (String × Toml)}
    (each : ∀ entry ∈ entries, ∀ {v}, readMarks? entry.2 = some v → v.Proper)
    (success : readMarksOfEntries? entries = some vs) : ∀ entry ∈ vs, entry.2.Proper := by
  induction entries generalizing vs with
  | nil =>
    cases success
    exact List.forall_mem_nil _
  | cons entry rest ih =>
    obtain ⟨first, later⟩ := List.forall_mem_cons.mp each
    obtain ⟨v, read, success⟩ := Option.bind_eq_some_iff.mp success
    obtain ⟨vs, reads, same⟩ := Option.bind_eq_some_iff.mp success
    cases same
    exact List.forall_mem_cons.mpr ⟨first read, ih later reads⟩

/-- Tables that are taken for date-times spell ones that are in range. -/
theorem Proper.readMarks? {t v : Toml} (proper : t.Proper) (success : t.readMarks? = some v) :
    v.Proper := by
  induction proper generalizing v with
  | string s =>
    cases success
    exact .string s
  | integer n =>
    cases success
    exact .integer n
  | float x =>
    cases success
    exact .float x
  | boolean b =>
    cases success
    exact .boolean b
  | moment inRange =>
    cases success
    exact .moment inRange
  | array _ ih =>
    obtain ⟨vs, read, rfl⟩ := Option.map_eq_some_iff.mp success
    exact .array (proper_of_readMarksOfItems? ih read)
  | table _ ih =>
    rw [Toml.readMarks?] at success
    split at success
    · obtain ⟨m, spelled, rfl⟩ := Option.map_eq_some_iff.mp success
      exact .moment (inRange_of_momentOf? spelled)
    · cases success
    · obtain ⟨vs, read, rfl⟩ := Option.map_eq_some_iff.mp success
      exact .table (proper_of_readMarksOfEntries? ih read)

/-- Every date-time in a document is in range. -/
theorem proper_of_parse? {text : String} {t : Toml} (success : parse? text = some t) :
    t.Proper := by
  obtain ⟨d, read, success⟩ := Option.bind_eq_some_iff.mp success
  have empty : ({} : Document).root.toToml.Proper := Table.proper_fresh false false
  exact (proper_of_statements empty read).readMarks? success

end AssetPlan.Toml
