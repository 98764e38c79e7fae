import AssetPlan.Value.Basic
import Mathlib.Data.String.Basic

/-! # Entries as finite maps

Looking up a key after an insertion needs no order. With the keys in order, entries are determined
by what is found at each key.
-/

namespace AssetPlan.Entries

theorem mem_of_lookup {α : Type} {key : String} {a : α} {entries : List (String × α)}
    (found : entries.lookup key = some a) : (key, a) ∈ entries := by
  obtain ⟨before, after, rfl, _⟩ := List.lookup_eq_some_iff.mp found
  exact List.mem_append_right _ List.mem_cons_self

@[simp] theorem find?_nil (key : String) : find? key [] = none := rfl

theorem find?_cons (query key : String) (v : Value) (rest : Entries) :
    find? query ((key, v) :: rest) = if key = query then some v else find? query rest := rfl

/-- An insertion changes what is found at its own key only. -/
theorem find?_insert (query key : String) (v : Value) (entries : Entries) :
    find? query (insert key v entries) = if key = query then some v else find? query entries := by
  induction entries with
  | nil => rfl
  | cons entry rest ih =>
    obtain ⟨k, w⟩ := entry
    simp only [insert]
    split
    next same =>
      subst same
      by_cases asked : key = query <;> simp [find?_cons, asked]
    next other =>
      split
      · rfl
      · by_cases asked : k = query
        · subst asked
          simp [find?_cons, other]
        · simp [find?_cons, asked, ih]

theorem mem_of_find? {key : String} {v : Value} {entries : Entries}
    (found : find? key entries = some v) : (key, v) ∈ entries := by
  induction entries with
  | nil => cases found
  | cons entry rest ih =>
    obtain ⟨k, w⟩ := entry
    rw [find?_cons] at found
    split at found
    next same =>
      cases found
      exact same ▸ List.mem_cons_self
    next => exact List.mem_cons_of_mem _ (ih found)

theorem mem_keys_iff {key : String} {entries : Entries} :
    key ∈ entries.keys ↔ ∃ v, find? key entries = some v := by
  induction entries with
  | nil => simp [keys]
  | cons entry rest ih =>
    obtain ⟨k, w⟩ := entry
    change key ∈ k :: keys rest ↔ _
    rw [List.mem_cons, ih, find?_cons]
    by_cases same : k = key
    · simp [same]
    · simp [same, Ne.symm same]

theorem find?_eq_none_iff {key : String} {entries : Entries} :
    find? key entries = none ↔ key ∉ entries.keys := by
  rw [mem_keys_iff, Option.eq_none_iff_forall_ne_some, not_exists]

theorem mem_keys_insert {query key : String} {v : Value} {entries : Entries} :
    query ∈ (insert key v entries).keys ↔ query = key ∨ query ∈ entries.keys := by
  rw [mem_keys_iff, mem_keys_iff, find?_insert]
  by_cases same : key = query
  · simp [same]
  · simp [same, Ne.symm same]

theorem find?_append (key : String) (xs ys : Entries) :
    find? key (xs ++ ys) = (find? key xs).or (find? key ys) := by
  induction xs with
  | nil => rfl
  | cons entry rest ih =>
    obtain ⟨k, v⟩ := entry
    rw [List.cons_append, find?_cons, find?_cons, ih]
    split <;> rfl

/-- Where no key stands twice, each entry is what is found at its key. -/
theorem find?_of_mem_of_nodup {key : String} {v : Value} {entries : Entries}
    (distinct : entries.keys.Nodup) (member : (key, v) ∈ entries) :
    find? key entries = some v := by
  induction entries with
  | nil => cases member
  | cons entry rest ih =>
    obtain ⟨k, w⟩ := entry
    obtain ⟨first, distinct⟩ := List.nodup_cons.mp distinct
    rcases List.mem_cons.mp member with same | later
    · cases same
      rw [find?_cons, if_pos rfl]
    · have inRest : key ∈ keys rest := List.mem_map_of_mem later
      have other : k ≠ key := fun same => first (same ▸ inRest)
      rw [find?_cons, if_neg other, ih distinct later]

theorem erase_sublist (key : String) (entries : Entries) :
    List.Sublist (erase key entries) entries := by
  induction entries with
  | nil => exact .slnil
  | cons entry rest ih =>
    rw [erase]
    split
    · exact List.sublist_cons_self entry rest
    · exact ih.cons_cons entry

theorem find?_erase_of_ne {key query : String} (other : query ≠ key) (entries : Entries) :
    find? query (erase key entries) = find? query entries := by
  induction entries with
  | nil => rfl
  | cons entry rest ih =>
    obtain ⟨k, v⟩ := entry
    rw [erase]
    split
    next same => rw [find?_cons, if_neg (same ▸ other.symm)]
    next => rw [find?_cons, find?_cons, ih]

theorem erase_of_find?_eq_none {key : String} {entries : Entries}
    (missing : find? key entries = none) : erase key entries = entries := by
  induction entries with
  | nil => rfl
  | cons entry rest ih =>
    obtain ⟨k, v⟩ := entry
    rw [find?_cons] at missing
    split at missing
    next => cases missing
    next other => rw [erase, if_neg other, ih missing]

theorem ascending_nil : Ascending [] := List.Pairwise.nil

theorem ascending_cons_iff {key : String} {v : Value} {rest : Entries} :
    Ascending ((key, v) :: rest) ↔ (∀ k ∈ keys rest, key < k) ∧ Ascending rest :=
  List.pairwise_cons

theorem Ascending.tail {entry : String × Value} {rest : Entries}
    (ascending : Ascending (entry :: rest)) : Ascending rest :=
  (ascending_cons_iff.mp ascending).2

/-- The first key does not stand again. -/
theorem Ascending.find?_tail {key : String} {v : Value} {rest : Entries}
    (ascending : Ascending ((key, v) :: rest)) : find? key rest = none :=
  find?_eq_none_iff.mpr fun member =>
    lt_irrefl key ((ascending_cons_iff.mp ascending).1 key member)

theorem Ascending.nodup_keys {entries : Entries} (ascending : Ascending entries) :
    entries.keys.Nodup :=
  ascending.imp fun below => below.ne

/-- Each entry is what is found at its key. -/
theorem Ascending.find?_of_mem {entries : Entries} (ascending : Ascending entries) {key : String}
    {v : Value} (member : (key, v) ∈ entries) : find? key entries = some v :=
  find?_of_mem_of_nodup ascending.nodup_keys member

/-- Before the first key, an entry is put in front. -/
theorem Ascending.insert_eq_cons {key : String} {v : Value} {rest : Entries}
    (ascending : Ascending ((key, v) :: rest)) : Entries.insert key v rest = (key, v) :: rest := by
  cases rest with
  | nil => rfl
  | cons entry rest =>
    obtain ⟨k, w⟩ := entry
    have below : key < k := (ascending_cons_iff.mp ascending).1 k List.mem_cons_self
    rw [Entries.insert, if_neg below.ne, if_pos below]

theorem Ascending.insert {entries : Entries} (ascending : Ascending entries) (key : String)
    (v : Value) : Ascending (insert key v entries) := by
  induction entries with
  | nil => exact List.pairwise_singleton _ _
  | cons entry rest ih =>
    obtain ⟨k, w⟩ := entry
    obtain ⟨above, rest'⟩ := ascending_cons_iff.mp ascending
    simp only [Entries.insert]
    split
    next same =>
      subst same
      exact ascending_cons_iff.mpr ⟨above, rest'⟩
    next other =>
      split
      next below =>
        refine ascending_cons_iff.mpr ⟨?_, ascending⟩
        intro query member
        rcases List.mem_cons.mp member with rfl | later
        · exact below
        · exact below.trans (above query later)
      next notBelow =>
        refine ascending_cons_iff.mpr ⟨?_, ih rest'⟩
        intro query member
        rcases mem_keys_insert.mp member with rfl | later
        · exact lt_of_le_of_ne (not_lt.mp notBelow) (Ne.symm other)
        · exact above query later

theorem Ascending.erase {entries : Entries} (ascending : Ascending entries) (key : String) :
    Ascending (erase key entries) :=
  List.Pairwise.sublist ((erase_sublist key entries).map Prod.fst) ascending

/-- Entries in key order are determined by what is found in them. -/
theorem Ascending.ext {xs ys : Entries} (ascendingX : Ascending xs) (ascendingY : Ascending ys)
    (same : ∀ key, find? key xs = find? key ys) : xs = ys := by
  induction xs generalizing ys with
  | nil =>
    cases ys with
    | nil => rfl
    | cons entry rest => simpa [find?_cons entry.1 entry.1] using same entry.1
  | cons entry rest ih =>
    obtain ⟨k, v⟩ := entry
    cases ys with
    | nil => simpa [find?_cons] using same k
    | cons entry' rest' =>
      obtain ⟨k', v'⟩ := entry'
      obtain ⟨aboveX, tailX⟩ := ascending_cons_iff.mp ascendingX
      obtain ⟨aboveY, tailY⟩ := ascending_cons_iff.mp ascendingY
      -- each first key stands in the other entries, so neither can be below the other
      have first : k = k' := by
        by_contra different
        have inY : k ∈ keys ((k', v') :: rest') :=
          mem_keys_iff.mpr ⟨v, by rw [← same, find?_cons, if_pos rfl]⟩
        have inX : k' ∈ keys ((k, v) :: rest) :=
          mem_keys_iff.mpr ⟨v', by rw [same, find?_cons, if_pos rfl]⟩
        have below := aboveX k' ((List.mem_cons.mp inX).resolve_left (Ne.symm different))
        exact lt_asymm below (aboveY k ((List.mem_cons.mp inY).resolve_left different))
      subst first
      have value : v = v' := by simpa [find?_cons] using same k
      subst value
      congr 1
      apply ih tailX tailY
      intro key
      by_cases asked : k = key
      · subst asked
        rw [ascendingX.find?_tail, ascendingY.find?_tail]
      · simpa [find?_cons, asked] using same key

theorem Ascending.find?_erase {entries : Entries} (ascending : Ascending entries)
    (query key : String) :
    find? query (Entries.erase key entries) = if key = query then none else find? query entries := by
  split
  next same =>
    subst same
    induction entries with
    | nil => rfl
    | cons entry rest ih =>
      obtain ⟨k, v⟩ := entry
      rw [Entries.erase]
      split
      next first =>
        subst first
        exact ascending.find?_tail
      next other => rw [find?_cons, if_neg other, ih ascending.tail]
  next other => exact find?_erase_of_ne (Ne.symm other) entries

/-- An entry that is taken out and put back stands where it stood. -/
theorem Ascending.insert_erase {entries : Entries} (ascending : Ascending entries) {key : String}
    {v : Value} (found : find? key entries = some v) :
    Entries.insert key v (Entries.erase key entries) = entries := by
  refine ((ascending.erase key).insert key v).ext ascending fun query => ?_
  rw [find?_insert, ascending.find?_erase]
  split
  next same => rw [← same, found]
  next => rfl

/-- An entry that is put in and taken out leaves the others. -/
theorem Ascending.erase_insert {entries : Entries} (ascending : Ascending entries) {key : String}
    (missing : find? key entries = none) (v : Value) :
    Entries.erase key (Entries.insert key v entries) = entries := by
  have ascending' := ascending.insert key v
  refine (ascending'.erase key).ext ascending fun query => ?_
  rw [ascending'.find?_erase, find?_insert]
  split
  next same => rw [← same, missing]
  next => rfl

end AssetPlan.Entries
