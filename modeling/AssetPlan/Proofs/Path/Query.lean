import AssetPlan.Proofs.Path.Normal

/-! # Normal forms of paths with a query

A path is brought to normal form with the query behind it, so the slashes of the query divide
segments too and its first one belongs to the last segment of the path. The normal form is that of
the path with the query behind it only if no segment of the query is dropped and the path has
nothing to drop at its end, where the query keeps it.
-/

namespace AssetPlan.Path

open Text

variable {p q : List Char} {segment : Segment}

/-- Segments that do not name anything are made of dots. -/
theorem isName_of_mem {c : Char} (inside : c ∈ segment) (other : c ≠ '.') : IsName segment := by
  refine ⟨List.ne_nil_of_mem inside, ?_, ?_⟩
  · rintro rfl
    exact other (by simpa [here] using inside)
  · rintro rfl
    exact other (by simpa [up] using inside)

namespace Route

variable {r : Route}

/-- A segment that stands for nothing leaves the way as it is; a name, and a climb that no name is
there for, is added; and another climb takes a name away. -/
theorem next_cases (r : Route) (segment : Segment) :
    (segment = [] ∨ segment = here) ∧ r.next segment = r ∨
      (IsName segment ∨ segment = up ∧ r.names = []) ∧
        (r.next segment).segments = r.segments ++ [segment] ∨
      segment = up ∧ r.names ≠ [] ∧ ∃ name, r.segments = (r.next segment).segments ++ [name] := by
  by_cases idle : segment = [] ∨ segment = here
  · exact .inl ⟨idle, dif_pos idle⟩
  have added (other : keep r.stack segment = segment :: r.stack) :
      (r.next segment).segments = r.segments ++ [segment] := by
    rw [segments, stack_next, other, List.reverse_cons, segments]
  obtain ⟨nonempty, notHere⟩ := not_or.mp idle
  by_cases climbing : segment = up
  · obtain ⟨climbs, names, named⟩ := r
    cases names with
    | nil =>
      refine .inr (.inl ⟨.inr ⟨climbing, rfl⟩, added ?_⟩)
      subst climbing
      cases climbs <;> rfl
    | cons name names =>
      refine .inr (.inr ⟨climbing, List.cons_ne_nil _ _, name, ?_⟩)
      rw [next, dif_neg idle, dif_pos climbing]
      simp [segments, stack]
  · refine .inr (.inl ⟨.inl ⟨nonempty, notHere, climbing⟩, added ?_⟩)
    rw [keep.eq_def, if_neg idle, if_neg climbing]

theorem segments_next_of_isName (named : IsName segment) (r : Route) :
    (r.next segment).segments = r.segments ++ [segment] := by
  rcases next_cases r segment with ⟨idle, _⟩ | ⟨_, added⟩ | ⟨climbing, _⟩
  · exact (idle.elim named.1 named.2.1).elim
  · exact added
  · exact (named.2.2 climbing).elim

theorem segments_foldl_next_of_isName {segments : List Segment}
    (named : ∀ segment ∈ segments, IsName segment) (r : Route) :
    (segments.foldl next r).segments = r.segments ++ segments := by
  induction segments generalizing r with
  | nil => rw [List.foldl_nil, List.append_nil]
  | cons segment rest ih =>
    obtain ⟨first, later⟩ := List.forall_mem_cons.mp named
    rw [List.foldl_cons, ih later, segments_next_of_isName first, List.append_assoc,
      List.singleton_append]

/-- Behind a segment that is no climb there are names only. -/
theorem isName_of_segments_eq {before rest : List Segment}
    (divided : r.segments = before ++ segment :: rest) (other : segment ≠ up) :
    ∀ name ∈ rest, IsName name := by
  have inNames : segment :: rest ⊆ r.names.reverse := by
    rw [segments_eq] at divided
    rcases List.append_eq_append_iff.mp divided with ⟨_, _, names⟩ | ⟨climbed, climbs, names⟩
    · rw [names]
      exact List.subset_append_right _ _
    · cases climbed with
      | nil =>
        rw [names, List.nil_append]
        exact List.Subset.refl _
      | cons first climbed =>
        obtain ⟨rfl, _⟩ := List.cons_eq_cons.mp names
        have climb : segment ∈ List.replicate r.climbs up := by
          rw [climbs]
          exact List.mem_append_right _ List.mem_cons_self
        exact (other (List.eq_of_mem_replicate climb)).elim
  intro name member
  exact r.named name (List.mem_reverse.mp (inNames (List.mem_cons_of_mem _ member)))

theorem mem_segments_foldl_next {segments : List Segment}
    (member : segment ∈ (segments.foldl next start).segments) :
    segment = up ∨ segment ∈ segments := by
  refine (eq_up_or_mem_names member).imp_right fun inside => ?_
  exact (names_foldl_next _ _ segment inside).resolve_left List.not_mem_nil

/-- The way of a path up to its last segment. -/
def before (p : List Char) : Route := (split '/' (slashed p)).dropLast.foldl next start

end Route

/-- The last segment of a path, as it is written. -/
def lastSegment (p : List Char) : Segment :=
  (split '/' (slashed p)).getLast (split_ne_nil _ _)

theorem dropLast_append_lastSegment (p : List Char) :
    split '/' (slashed p) = (split '/' (slashed p)).dropLast ++ [lastSegment p] :=
  (List.dropLast_concat_getLast _).symm

theorem Route.of_eq_next (p : List Char) : of p = (before p).next (lastSegment p) := by
  rw [of, dropLast_append_lastSegment, List.foldl_append]
  rfl

/-- The normal form of a path up to its last segment, which is as it is written. -/
def openChars (p : List Char) : List Char :=
  (if isAbsolute (slashed p) then ['/'] else []) ++
    Text.join ['/'] ((Route.before p).segments ++ [lastSegment p])

/-- The last segment of a path stands in its normal form: it is a name, or a climb that no name is
there for, or there is nothing at all. -/
def EndsNormal (p : List Char) : Prop :=
  IsName (lastSegment p) ∨ lastSegment p = up ∧ (Route.before p).names = [] ∨
    lastSegment p = [] ∧ (Route.before p).segments = []

instance (p : List Char) : Decidable (EndsNormal p) :=
  inferInstanceAs (Decidable (_ ∨ _ ∧ _ ∨ _ ∧ _))

theorem openChars_eq_normalChars_iff : openChars p = normalChars p ↔ EndsNormal p := by
  rw [openChars, normalChars, ← Route.segments_of, Route.of_eq_next, List.append_cancel_left_eq,
    EndsNormal]
  generalize lastSegment p = last
  generalize Route.before p = r
  have longer := length_join_concat '/' r.segments last
  rcases r.next_cases last with ⟨idle, same⟩ | ⟨kept, added⟩ | ⟨rfl, names, name, taken⟩
  · rw [same]
    constructor
    · intro equal
      rw [equal] at longer
      have none : last.length = 0 ∧ r.segments = [] := by
        split at longer
        next first => exact ⟨by omega, first⟩
        next => omega
      exact .inr (.inr ⟨List.eq_nil_of_length_eq_zero none.1, none.2⟩)
    · rintro (named | ⟨rfl, _⟩ | ⟨rfl, first⟩)
      · exact (idle.elim named.1 named.2.1).elim
      · rcases idle with empty | same
        · cases empty
        · cases same
      · rw [first]
        rfl
  · rw [added]
    exact iff_of_true rfl (kept.imp_right .inl)
  · have shorter := length_join_concat '/' (r.next up).segments name
    rw [← taken] at shorter
    refine iff_of_false (fun equal => ?_) ?_
    · rw [equal] at longer
      have positive : 0 < up.length := by decide
      omega
    · rintro (named | ⟨_, none⟩ | ⟨empty, _⟩)
      · exact named.2.2 rfl
      · exact names none
      · cases empty

theorem not_mem_openChars {c : Char} (free : c ∉ p) (notSlash : c ≠ '/') (notDot : c ≠ '.') :
    c ∉ openChars p := by
  have slashedFree : c ∉ slashed p := fun inside => by
    obtain ⟨known, member, same⟩ := List.mem_map.mp inside
    split at same
    next => exact notSlash same.symm
    next => exact free (same ▸ member)
  have written : ∀ segment ∈ (Route.before p).segments ++ [lastSegment p],
      segment = up ∨ segment ∈ split '/' (slashed p) := by
    rw [dropLast_append_lastSegment, List.forall_mem_append, List.forall_mem_singleton]
    refine ⟨fun segment member => ?_, .inr (by simp)⟩
    exact (Route.mem_segments_foldl_next member).imp_right (List.mem_append_left _)
  intro inside
  rcases List.mem_append.mp inside with root | inside
  · split at root
    next => exact notSlash (List.mem_singleton.mp root)
    next => cases root
  · rcases mem_join inside with same | ⟨segment, member, inside⟩
    · exact notSlash same
    · rcases written segment member with rfl | member
      · exact notDot (by simpa [up] using inside)
      · exact slashedFree (mem_of_mem_split member inside)

/-- Normalization passes a query over: it has no backslash, and behind its slashes it has names
only. -/
def PassedOver (q : List Char) : Prop :=
  '\\' ∉ q ∧ ∀ segment ∈ (split '/' q).tail, IsName segment

instance (q : List Char) : Decidable (PassedOver q) :=
  inferInstanceAs (Decidable (_ ∧ _))

section Query

variable (started : q.head? = some '?')

include started

/-- The first piece of a query has its question mark. -/
theorem exists_split_query : ∃ first rest, split '/' q = first :: rest ∧ '?' ∈ first := by
  obtain ⟨after, rfl⟩ := List.head?_eq_some_iff.mp started
  obtain ⟨piece, pieces, _, added⟩ :=
    split_cons_of_ne (show '?' ≠ '/' by decide) after
  exact ⟨_, _, added, List.mem_cons_self⟩

theorem isAbsolute_append_query (p : List Char) :
    isAbsolute (slashed (p ++ q)) = isAbsolute (slashed p) := by
  obtain ⟨after, rfl⟩ := List.head?_eq_some_iff.mp started
  cases p <;> rfl

/-- A query that is passed over stands behind a path that keeps its last segment. -/
theorem normalChars_append (passed : PassedOver q) (p : List Char) :
    normalChars (p ++ q) = openChars p ++ q := by
  obtain ⟨first, rest, divided, inside⟩ := exists_split_query started
  have named : ∀ segment ∈ (lastSegment p ++ first) :: rest, IsName segment := by
    rw [List.forall_mem_cons]
    refine ⟨isName_of_mem (List.mem_append_right _ inside) (by decide), ?_⟩
    simpa only [divided, List.tail_cons] using passed.2
  have pieces : split '/' (slashed (p ++ q)) =
      (split '/' (slashed p)).dropLast ++ (lastSegment p ++ first) :: rest := by
    have same : slashed (p ++ q) = slashed p ++ q := by
      rw [slashed_append, slashed_eq_self passed.1]
    rw [same]
    exact split_append (dropLast_append_lastSegment p) divided
  have segments : normalSegments (p ++ q) =
      (Route.before p).segments ++ (lastSegment p ++ first) :: rest := by
    rw [← Route.segments_of, Route.of, pieces, List.foldl_append,
      Route.segments_foldl_next_of_isName named]
    rfl
  rw [normalChars, isAbsolute_append_query started, segments, ← join_append_join, ← divided,
    join_split, openChars, List.append_assoc]

/-- A normal form only ends in queries that are passed over. -/
theorem passedOver_of_normalChars_eq {front : List Char} (ends : normalChars p = front ++ q) :
    PassedOver q := by
  have free : '\\' ∉ normalChars p := slashed_normalChars p ▸ not_mem_slashed (normalChars p)
  rw [ends, List.mem_append, not_or] at free
  refine ⟨free.2, ?_⟩
  obtain ⟨first, rest, divided, inside⟩ := exists_split_query started
  have joined : ∃ front, Text.join ['/'] (normalSegments p) = front ++ q := by
    cases absolute : isAbsolute (slashed p) with
    | false => exact ⟨front, normalChars_of_relative absolute ▸ ends⟩
    | true =>
      rw [normalChars_of_absolute absolute] at ends
      rcases List.cons_eq_append_iff.mp ends with ⟨_, same⟩ | ⟨front, _, same⟩
      · rw [same] at started
        cases started
      · exact ⟨front, same⟩
  obtain ⟨front, same⟩ := joined
  have some : normalSegments p ≠ [] := by
    intro empty
    rw [empty] at same
    obtain ⟨_, none⟩ := List.append_eq_nil_iff.mp same.symm
    rw [none] at started
    cases started
  have segments := split_join_normalSegments some
  rw [same, split_append (List.dropLast_concat_getLast (split_ne_nil '/' front)).symm divided,
    ← Route.segments_of] at segments
  have notUp : (split '/' front).getLast (split_ne_nil '/' front) ++ first ≠ up :=
    (isName_of_mem (List.mem_append_right _ inside) (by decide)).2.2
  rw [divided, List.tail_cons]
  exact Route.isName_of_segments_eq segments.symm notUp

/-- The normal form of a path with a query is that of the path with the query behind it exactly if
the query is passed over and the path has nothing to drop at its end. -/
theorem normalChars_append_eq_iff :
    normalChars (p ++ q) = normalChars p ++ q ↔ PassedOver q ∧ EndsNormal p := by
  constructor
  · intro same
    have passed := passedOver_of_normalChars_eq started same
    rw [normalChars_append started passed, List.append_cancel_right_eq] at same
    exact ⟨passed, openChars_eq_normalChars_iff.mp same⟩
  · rintro ⟨passed, ends⟩
    rw [normalChars_append started passed, openChars_eq_normalChars_iff.mpr ends]

end Query

end AssetPlan.Path
