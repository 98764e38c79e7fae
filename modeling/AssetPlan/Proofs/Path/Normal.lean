import AssetPlan.Path.Normal
import AssetPlan.Proofs.Path.Location

/-! # Normal forms and the locations they name

A path that is relative leads up some directories and then down along names: it has a route. One
segment more takes the route and the location it leads to one step further, so the normal form,
which spells the route, names the location that the path names. Seen from all directories different
routes lead to different locations, so relative paths have one normal form exactly if they cannot
be told apart by their locations.
-/

namespace AssetPlan.Path

open Text

/-- The location that a path names seen from a directory, where both slashes separate segments. -/
def location (start : List Segment) (p : String) : List Segment :=
  locate start (slashed p.toList)

/-- The path starts from the directory it is seen from. -/
def isRelative (p : String) : Bool := !isAbsolute (slashed p.toList)

/-- A segment that names something. -/
def IsName (segment : Segment) : Prop := segment ≠ [] ∧ segment ≠ here ∧ segment ≠ up

instance (segment : Segment) : Decidable (IsName segment) :=
  inferInstanceAs (Decidable (segment ≠ [] ∧ segment ≠ here ∧ segment ≠ up))

theorem IsName.enter_eq {segment : Segment} (named : IsName segment) (dir : List Segment) :
    enter dir segment = segment :: dir := by
  obtain ⟨nonempty, notHere, notUp⟩ := named
  rw [enter, if_neg (not_or.mpr ⟨nonempty, notHere⟩), if_neg notUp]

/-- A name with more behind it is a name too. -/
theorem IsName.append {segment : Segment} (named : IsName segment) (more : List Char) :
    IsName (segment ++ more) := by
  obtain ⟨nonempty, notHere, notUp⟩ := named
  obtain ⟨c, cs, rfl⟩ := List.exists_cons_of_ne_nil nonempty
  refine ⟨List.cons_ne_nil _ _, fun same => ?_, fun same => ?_⟩
  · obtain ⟨rfl, rest⟩ := List.cons_eq_cons.mp same
    rw [(List.append_eq_nil_iff.mp rest).1] at notHere
    exact notHere rfl
  · obtain ⟨rfl, rest⟩ := List.cons_eq_cons.mp same
    rcases List.append_eq_singleton_iff.mp rest with ⟨front, _⟩ | ⟨front, _⟩
    · rw [front] at notHere
      exact notHere rfl
    · rw [front] at notUp
      exact notUp rfl

/-- The way from a directory up so many directories and then down along names, the last of them on
top. -/
@[ext]
structure Route where
  climbs : Nat
  names : List Segment
  named : ∀ name ∈ names, IsName name

namespace Route

/-- The way that ends where it starts. -/
def start : Route := ⟨0, [], List.forall_mem_nil _⟩

/-- The way that goes one segment further. -/
def next (r : Route) (segment : Segment) : Route :=
  if idle : segment = [] ∨ segment = here then r
  else if climbing : segment = up then
    match r with
    | ⟨climbs, [], named⟩ => ⟨climbs + 1, [], named⟩
    | ⟨climbs, _ :: names, named⟩ => ⟨climbs, names, (List.forall_mem_cons.mp named).2⟩
  else
    { r with
      names := segment :: r.names
      named := List.forall_mem_cons.mpr
        ⟨⟨fun empty => idle (.inl empty), fun same => idle (.inr same), climbing⟩, r.named⟩ }

/-- The way of a path. -/
def of (p : List Char) : Route := (split '/' (slashed p)).foldl next start

/-- The segments of the way, the last of them on top. -/
def stack (r : Route) : List Segment := r.names ++ List.replicate r.climbs up

/-- The segments of the way in path order. -/
def segments (r : Route) : List Segment := r.stack.reverse

/-- The location at the end of the way from a directory. -/
def endFrom (r : Route) (dir : List Segment) : List Segment := r.names ++ dir.drop r.climbs

variable {r r' : Route} {segment : Segment}

theorem stack_next (r : Route) (segment : Segment) :
    (r.next segment).stack = keep r.stack segment := by
  unfold next keep
  split
  next => rfl
  next =>
    split
    next =>
      obtain ⟨climbs, names, named⟩ := r
      cases names with
      | nil => cases climbs <;> simp [stack, List.replicate_succ]
      | cons top names =>
        have other : top ≠ up := (named top List.mem_cons_self).2.2
        simp [stack, other]
    next => rfl

theorem endFrom_next (r : Route) (segment : Segment) (dir : List Segment) :
    (r.next segment).endFrom dir = enter (r.endFrom dir) segment := by
  unfold next enter
  split
  next => rfl
  next =>
    split
    next =>
      obtain ⟨climbs, names, named⟩ := r
      cases names <;> simp [endFrom]
    next => rfl

theorem names_next (r : Route) (segment : Segment) :
    ∀ name ∈ (r.next segment).names, name ∈ r.names ∨ name = segment := by
  intro name member
  unfold next at member
  split at member
  next => exact .inl member
  next =>
    split at member
    next =>
      obtain ⟨climbs, names, named⟩ := r
      cases names with
      | nil => cases member
      | cons top names => exact .inl (List.mem_cons_of_mem _ member)
    next => exact (List.mem_cons.mp member).symm

theorem stack_foldl_next (segments : List Segment) (r : Route) :
    (segments.foldl next r).stack = segments.foldl keep r.stack := by
  induction segments generalizing r with
  | nil => rfl
  | cons segment rest ih => rw [List.foldl_cons, List.foldl_cons, ih, stack_next]

theorem endFrom_foldl_next (segments : List Segment) (r : Route) (dir : List Segment) :
    (segments.foldl next r).endFrom dir = segments.foldl enter (r.endFrom dir) := by
  induction segments generalizing r with
  | nil => rfl
  | cons segment rest ih => rw [List.foldl_cons, List.foldl_cons, ih, endFrom_next]

theorem names_foldl_next (segments : List Segment) (r : Route) :
    ∀ name ∈ (segments.foldl next r).names, name ∈ r.names ∨ name ∈ segments := by
  induction segments generalizing r with
  | nil => exact fun name member => .inl member
  | cons segment rest ih =>
    intro name member
    rcases ih _ name member with earlier | later
    · rcases names_next r segment name earlier with earlier | rfl
      · exact .inl earlier
      · exact .inr List.mem_cons_self
    · exact .inr (List.mem_cons_of_mem _ later)

theorem segments_of (p : List Char) : (of p).segments = normalSegments p := by
  rw [segments, of, stack_foldl_next]
  rfl

theorem endFrom_of (p : List Char) (dir : List Segment) :
    (of p).endFrom dir = (split '/' (slashed p)).foldl enter dir := by
  rw [of, endFrom_foldl_next]
  rfl

theorem segments_eq (r : Route) : r.segments = List.replicate r.climbs up ++ r.names.reverse := by
  rw [segments, stack, List.reverse_append, List.reverse_replicate]

theorem eq_up_or_mem_names (member : segment ∈ r.segments) : segment = up ∨ segment ∈ r.names := by
  rw [segments_eq, List.mem_append, List.mem_reverse] at member
  exact member.imp_left List.eq_of_mem_replicate

/-- Following the segments of a way leads to its end. -/
theorem foldl_enter_segments (r : Route) (dir : List Segment) :
    r.segments.foldl enter dir = r.endFrom dir := by
  have climb (n : Nat) : (List.replicate n up).foldl enter dir = dir.drop n := by
    induction n with
    | zero => rfl
    | succ n ih =>
      rw [List.replicate_succ', List.foldl_append, ih, List.foldl_cons, List.foldl_nil]
      exact List.tail_drop
  have descend (names : List Segment) (named : ∀ name ∈ names, IsName name)
      (below : List Segment) : names.reverse.foldl enter below = names ++ below := by
    induction names with
    | nil => rfl
    | cons name names ih =>
      obtain ⟨first, others⟩ := List.forall_mem_cons.mp named
      rw [List.reverse_cons, List.foldl_append, ih others, List.foldl_cons, List.foldl_nil,
        first.enter_eq, List.cons_append]
  rw [segments_eq, List.foldl_append, climb, descend _ r.named, endFrom]

/-- Ways that lead to the same locations from all directories are the same. -/
theorem eq_of_endFrom (same : ∀ dir, r.endFrom dir = r'.endFrom dir) : r = r' := by
  have names : r.names = r'.names := by simpa [endFrom] using same []
  have climbs : r.climbs = r'.climbs := by
    have lengths := congrArg List.length (same (List.replicate (r.climbs + r'.climbs) []))
    simp only [endFrom, names, List.length_append, List.length_drop, List.length_replicate]
      at lengths
    omega
  exact Route.ext climbs names

end Route

variable {p q : List Char}

theorem slashed_eq_self (free : '\\' ∉ p) : slashed p = p := by
  have kept : ∀ c ∈ p, (if c = '\\' then '/' else c) = id c := by
    rintro c member
    rw [if_neg (ne_of_mem_of_not_mem member free), id]
  rw [slashed, List.map_congr_left kept, List.map_id]

theorem slashed_join {segments : List Segment} (free : ∀ segment ∈ segments, '\\' ∉ segment) :
    slashed (Text.join ['/'] segments) = Text.join ['/'] segments := by
  apply slashed_eq_self
  intro member
  rcases mem_join member with same | ⟨segment, inside, bad⟩
  · cases same
  · exact free segment inside bad

theorem slashed_append (p q : List Char) : slashed (p ++ q) = slashed p ++ slashed q :=
  List.map_append

theorem not_mem_slashed (p : List Char) : '\\' ∉ slashed p := by
  intro member
  obtain ⟨c, _, same⟩ := List.mem_map.mp member
  split at same
  next => cases same
  next other => exact other same

/-- A segment of a normal form stands for something and has no slashes of either kind. -/
theorem of_mem_normalSegments {segment : Segment} (member : segment ∈ normalSegments p) :
    segment ≠ [] ∧ segment ≠ here ∧ '/' ∉ segment ∧ '\\' ∉ segment := by
  rw [← Route.segments_of] at member
  rcases Route.eq_up_or_mem_names member with rfl | inside
  · decide
  · obtain ⟨nonempty, notHere, _⟩ := (Route.of p).named segment inside
    have source : segment ∈ split '/' (slashed p) :=
      (Route.names_foldl_next _ _ segment inside).resolve_left List.not_mem_nil
    exact ⟨nonempty, notHere, not_mem_of_mem_split source,
      fun bad => not_mem_slashed p (mem_of_mem_split source bad)⟩

theorem normalChars_of_relative (relative : isAbsolute (slashed p) = false) :
    normalChars p = Text.join ['/'] (normalSegments p) := by
  rw [normalChars, relative]
  rfl

theorem normalChars_of_absolute (absolute : isAbsolute (slashed p) = true) :
    normalChars p = '/' :: Text.join ['/'] (normalSegments p) := by
  rw [normalChars, absolute]
  rfl

theorem slashed_normalChars (p : List Char) : slashed (normalChars p) = normalChars p := by
  have same : slashed (Text.join ['/'] (normalSegments p)) = Text.join ['/'] (normalSegments p) :=
    slashed_join fun _ member => (of_mem_normalSegments member).2.2.2
  cases absolute : isAbsolute (slashed p) with
  | false => rwa [normalChars_of_relative absolute]
  | true =>
    rw [normalChars_of_absolute absolute]
    exact congrArg (List.cons '/') same

theorem split_join_normalSegments (some : normalSegments p ≠ []) :
    split '/' (Text.join ['/'] (normalSegments p)) = normalSegments p :=
  split_join some fun _ member => (of_mem_normalSegments member).2.2.1

/-- Segments that are not empty do not start with a slash. -/
theorem isAbsolute_join {segments : List Segment}
    (bounded : ∀ segment ∈ segments, segment ≠ [] ∧ '/' ∉ segment) :
    isAbsolute (Text.join ['/'] segments) = false := by
  cases segments with
  | nil => rfl
  | cons segment rest =>
    obtain ⟨nonempty, free⟩ := bounded segment List.mem_cons_self
    obtain ⟨c, cs, rfl⟩ := List.exists_cons_of_ne_nil nonempty
    have other : c ≠ '/' := fun same => free (same ▸ List.mem_cons_self)
    by_cases last : rest = []
    · rw [last, join_singleton]
      simp [isAbsolute, other]
    · rw [join_cons last]
      simp [isAbsolute, other]

/-- A normal form is absolute exactly if its path is. -/
theorem isAbsolute_normalChars (p : List Char) :
    isAbsolute (normalChars p) = isAbsolute (slashed p) := by
  cases absolute : isAbsolute (slashed p) with
  | true => rw [normalChars_of_absolute absolute]; rfl
  | false =>
    rw [normalChars_of_relative absolute]
    apply isAbsolute_join
    intro segment member
    obtain ⟨nonempty, _, free, _⟩ := of_mem_normalSegments member
    exact ⟨nonempty, free⟩

/-- A path leads to the end of its way, which starts at the root if the path is absolute. -/
theorem locate_slashed (start : List Segment) (p : List Char) :
    locate start (slashed p) =
      (Route.of p).endFrom (if isAbsolute (slashed p) then [] else start) := by
  rw [locate, ← Route.endFrom_of]

/-- From any directory, the text of a normal form leads to the end of the way of its path. -/
theorem foldl_enter_normalChars (p : List Char) (dir : List Segment) :
    (split '/' (normalChars p)).foldl enter dir = (Route.of p).endFrom dir := by
  have joined : (split '/' (Text.join ['/'] (normalSegments p))).foldl enter dir =
      (Route.of p).endFrom dir := by
    rw [← Route.foldl_enter_segments, Route.segments_of]
    by_cases empty : normalSegments p = []
    · rw [empty]
      rfl
    · rw [split_join_normalSegments empty]
  cases absolute : isAbsolute (slashed p) with
  | true =>
    rw [normalChars_of_absolute absolute, split, if_pos rfl, List.foldl_cons]
    exact joined
  | false => rwa [normalChars_of_relative absolute]

/-- The normal form of a path has the way of the path. -/
theorem Route.of_normalChars (p : List Char) : Route.of (normalChars p) = Route.of p := by
  apply Route.eq_of_endFrom
  intro dir
  rw [Route.endFrom_of, slashed_normalChars, foldl_enter_normalChars]

theorem normalChars_normalChars (p : List Char) : normalChars (normalChars p) = normalChars p := by
  rw [normalChars.eq_def (normalChars p), slashed_normalChars, isAbsolute_normalChars,
    ← Route.segments_of, Route.of_normalChars, Route.segments_of, normalChars.eq_def p]

theorem normalize_normalize (p : String) : normalize (normalize p) = normalize p := by
  rw [normalize, normalize, String.toList_ofList, normalChars_normalChars]

theorem isRelative_normalize (p : String) : isRelative (normalize p) = isRelative p := by
  rw [isRelative, isRelative, normalize, String.toList_ofList, slashed_normalChars,
    isAbsolute_normalChars]

/-- The normal form names the same location. -/
theorem location_normalize (p : String) (start : List Segment) :
    location start (normalize p) = location start p := by
  rw [location, location, normalize, String.toList_ofList, locate_slashed, locate_slashed,
    Route.of_normalChars, slashed_normalChars, isAbsolute_normalChars]

/-- A path that is relative leads to the end of its way. -/
theorem location_of_relative {p : String} (relative : isRelative p) (start : List Segment) :
    location start p = (Route.of p.toList).endFrom start := by
  rw [isRelative, Bool.not_eq_true'] at relative
  rw [location, locate_slashed, relative]
  rfl

theorem normalize_of_relative {p : String} (relative : isRelative p) :
    normalize p = .ofList (Text.join ['/'] (Route.of p.toList).segments) := by
  rw [isRelative, Bool.not_eq_true'] at relative
  rw [normalize, normalChars_of_relative relative, Route.segments_of]

/-- Relative paths have one normal form exactly if they name the same location from every
directory. -/
theorem normalize_eq_iff {p q : String} (relative : isRelative p) (relative' : isRelative q) :
    normalize p = normalize q ↔ ∀ start, location start p = location start q := by
  constructor
  · intro same start
    rw [← location_normalize p, same, location_normalize]
  · intro same
    have route : Route.of p.toList = Route.of q.toList := by
      apply Route.eq_of_endFrom
      intro dir
      rw [← location_of_relative relative, ← location_of_relative relative', same]
    rw [normalize_of_relative relative, normalize_of_relative relative', route]

/-- The normal form of a path names the location that the path names, and it is the same for
relative paths exactly if these name the same location from every directory. -/
theorem normalize_by_location :
    (∀ (p : String) (start : List Segment), location start (normalize p) = location start p) ∧
    ∀ p q : String, isRelative p → isRelative q →
      (normalize p = normalize q ↔ ∀ start, location start p = location start q) :=
  ⟨location_normalize, fun _ _ relative relative' => normalize_eq_iff relative relative'⟩

/-- Two spellings that lead up one directory, also from the root, and down again. -/
theorem normalize_by_location_climbing :
    isRelative "src\\.././..//a/b" ∧ isRelative "../a/./c\\../b" ∧
      ∀ start, location start "src\\.././..//a/b" = location start "../a/./c\\../b" := by
  have relative : isRelative "src\\.././..//a/b" := by decide
  have relative' : isRelative "../a/./c\\../b" := by decide
  have same : normalize "src\\.././..//a/b" = normalize "../a/./c\\../b" := by decide
  exact ⟨relative, relative', (normalize_by_location.2 _ _ relative relative').mp same⟩

end AssetPlan.Path
