import AssetPlan.Path.Scope
import AssetPlan.Proofs.Path.Normal
import AssetPlan.Proofs.Text.Blank

/-! # Prefixes and ways

A path lies under a directory prefix if its segments start with those of the prefix. Between normal
forms of relative paths this compares their ways: either both climb alike and the names of the one
continue those of the other, or the prefix only climbs and the path climbs further. In the first
case the path ends in the directory or below it, seen from anywhere, and in the second it does not.
-/

namespace AssetPlan.Path

open Text

/-- How many `..` segments a path starts with. -/
def climbs (p : String) : Nat := ((split '/' p.toList).takeWhile (· = up)).length

/-- The path has `..` segments only. -/
def climbsOnly (p : String) : Prop := ∀ segment ∈ split '/' p.toList, segment = up

/-- Seen from a directory, `p` names the directory that `dir` names or something below it. -/
def LiesIn (start : List Segment) (dir p : String) : Prop := location start dir <:+ location start p

variable {p dir : String}

theorem isUnderChars_iff {p dir : List Char} :
    isUnderChars p dir = true ↔ withoutTrailingSlashes dir = [] ∨
      split '/' (withoutTrailingSlashes dir) <+: split '/' p := by
  rw [isUnderChars, Bool.or_eq_true, List.isEmpty_iff, split_prefix_iff]
  refine or_congr_right ?_
  split
  next missing =>
    have other (rest : List Char) : withoutTrailingSlashes dir ++ rest ≠ p := fun same => by
      rw [dropStart?_eq_some_iff.mpr same] at missing
      cases missing
    have notSame : p ≠ withoutTrailingSlashes dir := fun same =>
      other [] (by rw [same, List.append_nil])
    simp [notSame, Ne.symm (other _)]
  next rest found =>
    obtain rfl := dropStart?_eq_some_iff.mp found
    cases rest <;> simp

theorem exists_append_slashes (p : List Char) :
    ∃ n, p = withoutTrailingSlashes p ++ List.replicate n '/' :=
  ⟨_, (dropTrailing_append_replicate '/' p).symm⟩

theorem getLast?_withoutTrailingSlashes (p : List Char) :
    (withoutTrailingSlashes p).getLast? ≠ some '/' := by
  intro last
  have nonempty : withoutTrailingSlashes p ≠ [] := fun empty => by
    rw [empty] at last
    cases last
  rw [List.getLast?_eq_some_getLast nonempty, Option.some_inj] at last
  exact List.rdropWhile_last_not (· == '/') p nonempty (beq_iff_eq.mpr last)

/-- A text is cut at one place only: in front of slashes, and not behind one. -/
theorem withoutTrailingSlashes_eq_iff {p front : List Char} :
    withoutTrailingSlashes p = front ↔
      (∃ n, p = front ++ List.replicate n '/') ∧ front.getLast? ≠ some '/' := by
  constructor
  · rintro rfl
    exact ⟨exists_append_slashes p, getLast?_withoutTrailingSlashes p⟩
  · rintro ⟨⟨n, rfl⟩, ends⟩
    have slashes : (List.replicate n '/').dropWhile (· == '/') = [] := by
      rw [List.dropWhile_replicate, if_pos (beq_self_eq_true '/')]
    have same : withoutTrailingSlashes front = front :=
      List.rdropWhile_eq_self_iff.mpr fun nonempty slash => ends (by
        rw [List.getLast?_eq_some_getLast nonempty, beq_iff_eq.mp slash])
    rw [withoutTrailingSlashes, dropTrailing, List.reverse_append, List.reverse_replicate,
      List.dropWhile_append, slashes, List.isEmpty_nil, if_pos rfl]
    exact same

namespace Route

variable {r r' : Route}

/-- A row of climbs and names starts with another one if the names do after as many climbs, or if
the other one has no names and fewer climbs. -/
private theorem replicate_append_prefix_iff {n m : Nat} {xs ys : List Segment} (named : up ∉ xs)
    (named' : up ∉ ys) :
    List.replicate n up ++ xs <+: List.replicate m up ++ ys ↔
      m = n ∧ xs <+: ys ∨ n < m ∧ xs = [] := by
  induction n generalizing m with
  | zero =>
    cases m with
    | zero => simp
    | succ m =>
      cases xs with
      | nil => simp
      | cons x xs =>
        have other : x ≠ up := fun same => named (same ▸ List.mem_cons_self)
        simp [List.replicate_succ, List.cons_prefix_cons, other]
  | succ n ih =>
    cases m with
    | zero =>
      cases ys with
      | nil => simp [List.replicate_succ]
      | cons y ys =>
        have other : up ≠ y := fun same => named' (same ▸ List.mem_cons_self)
        simp [List.replicate_succ, List.cons_prefix_cons, other]
    | succ m =>
      simp only [List.replicate_succ, List.cons_append, List.cons_prefix_cons, true_and, ih,
        Nat.add_left_inj, Nat.add_lt_add_iff_right]

theorem up_not_mem_names (r : Route) : up ∉ r.names := fun member => (r.named up member).2.2 rfl

theorem segments_prefix_iff :
    r'.segments <+: r.segments ↔
      r.climbs = r'.climbs ∧ r'.names <:+ r.names ∨ r'.climbs < r.climbs ∧ r'.names = [] := by
  have named (r : Route) : up ∉ r.names.reverse := by
    rw [List.mem_reverse]
    exact r.up_not_mem_names
  rw [segments_eq, segments_eq, replicate_append_prefix_iff (named r') (named r),
    List.reverse_prefix, List.reverse_eq_nil_iff]

theorem endFrom_suffix_iff (alike : r.climbs = r'.climbs) (dir : List Segment) :
    r'.endFrom dir <:+ r.endFrom dir ↔ r'.names <:+ r.names := by
  rw [endFrom, endFrom, alike, List.suffix_append_self_iff]

/-- From a directory of fresh names, a way that climbs further does not lead back into the directory
that the other one leads to. -/
theorem exists_not_endFrom_suffix (further : r'.climbs < r.climbs) :
    ∃ dir, dir.length = r.climbs ∧ ¬ r'.endFrom dir <:+ r.endFrom dir := by
  refine ⟨List.replicate r.climbs (freshName r.names.flatten), List.length_replicate, ?_⟩
  intro inside
  have member : freshName r.names.flatten ∈ r.names := by
    have left : 0 < r.climbs - r'.climbs := by omega
    have below : freshName r.names.flatten ∈
        r'.endFrom (List.replicate r.climbs (freshName r.names.flatten)) := by
      rw [endFrom, List.drop_replicate]
      exact List.mem_append_right _ (List.mem_replicate.mpr ⟨by omega, rfl⟩)
    simpa [endFrom] using inside.subset below
  have short := (List.sublist_flatten_of_mem member).length_le
  rw [freshName, List.length_replicate] at short
  omega

/-- Below a way that does not climb, from anywhere, are those that do not climb and go on from its
names. -/
theorem forall_endFrom_suffix_iff (level : r'.climbs = 0) :
    (∀ dir, r'.endFrom dir <:+ r.endFrom dir) ↔ r.climbs = r'.climbs ∧ r'.names <:+ r.names := by
  constructor
  · intro inside
    have alike : r.climbs = r'.climbs := by
      by_contra different
      have further : r'.climbs < r.climbs := by omega
      obtain ⟨dir, _, outside⟩ := exists_not_endFrom_suffix further
      exact outside (inside dir)
    exact ⟨alike, (endFrom_suffix_iff alike []).mp (inside [])⟩
  · rintro ⟨alike, names⟩ dir
    exact (endFrom_suffix_iff alike dir).mpr names

end Route

/-- A text that ends in a segment that is not empty has no slashes at its end. -/
theorem withoutTrailingSlashes_append {last : Segment} (some : last ≠ []) (free : '/' ∉ last)
    (front : List Char) : withoutTrailingSlashes (front ++ last) = front ++ last := by
  change List.rdropWhile (· == '/') _ = _
  rw [List.rdropWhile_eq_self_iff]
  intro nonempty
  rw [List.getLast_append_of_ne_nil nonempty some, beq_iff_eq]
  exact ne_of_mem_of_not_mem (List.getLast_mem some) free

/-- A normal form with segments ends in one of them, so it has no slashes at its end. -/
theorem withoutTrailingSlashes_normalChars {p : List Char} (some : normalSegments p ≠ []) :
    withoutTrailingSlashes (normalChars p) = normalChars p := by
  obtain ⟨init, last, found⟩ := (List.eq_nil_or_concat' (normalSegments p)).resolve_left some
  have member : last ∈ normalSegments p := found ▸ List.mem_append_right _ List.mem_cons_self
  obtain ⟨someLast, _, free, _⟩ := of_mem_normalSegments member
  obtain ⟨front, same⟩ : ∃ front, Text.join ['/'] (normalSegments p) = front ++ last := by
    rw [found]
    by_cases single : init = []
    · exact ⟨[], by rw [single, List.nil_append, join_singleton, List.nil_append]⟩
    · refine ⟨Text.join ['/'] init ++ ['/'], ?_⟩
      rw [join_append single (List.cons_ne_nil _ _), join_singleton, List.append_assoc,
        List.singleton_append]
  rw [normalChars, same, ← List.append_assoc]
  exact withoutTrailingSlashes_append someLast free _

/-- Without segments nothing but slashes is left. -/
theorem withoutTrailingSlashes_of_normalSegments_eq_nil {p : List Char}
    (none : normalSegments p = []) : withoutTrailingSlashes (normalChars p) = [] := by
  cases absolute : isAbsolute (slashed p) with
  | true => rw [normalChars_of_absolute absolute, none]; rfl
  | false => rw [normalChars_of_relative absolute, none]; rfl

theorem normalChars_ne_nil {p : List Char} (some : normalSegments p ≠ []) :
    normalChars p ≠ [] := fun empty => by
  rw [← Route.segments_of, ← Route.of_normalChars, empty] at some
  exact some rfl

/-- The segments of the text of a normal form; the empty text has one, which is empty. -/
theorem split_normalize (relative : isRelative p) :
    split '/' (normalize p).toList =
      if normalSegments p.toList = [] then [[]] else normalSegments p.toList := by
  rw [normalize_of_relative relative, String.toList_ofList, Route.segments_of]
  split
  next empty =>
    rw [empty]
    rfl
  next some => exact split_join_normalSegments some

/-- Under a normal form that is not empty lie the paths whose normal form goes on from it. -/
theorem isUnder_normalize_iff (relative : isRelative p) (relativeDir : isRelative dir)
    (some : normalSegments dir.toList ≠ []) :
    isUnder (normalize p) (normalize dir) = true ↔
      normalSegments dir.toList <+: normalSegments p.toList := by
  have trimmed : withoutTrailingSlashes (normalize dir).toList = (normalize dir).toList := by
    rw [normalize, String.toList_ofList, withoutTrailingSlashes_normalChars some]
  have pieces : split '/' (normalize dir).toList = normalSegments dir.toList := by
    rw [split_normalize relativeDir, if_neg some]
  have nonempty : (normalize dir).toList ≠ [] := by
    rw [normalize, String.toList_ofList]
    exact normalChars_ne_nil some
  rw [isUnder, isUnderChars_iff, trimmed, pieces, split_normalize relative]
  split
  next empty =>
    -- the empty piece of an empty text is no segment of the directory
    obtain ⟨segment, rest, found⟩ := List.exists_cons_of_ne_nil some
    have first : segment ∈ normalSegments dir.toList := found ▸ List.mem_cons_self
    have other : segment ≠ [] := (of_mem_normalSegments first).1
    simp [nonempty, empty, found, List.cons_prefix_cons, other]
  next => simp [nonempty]

/-- The climbs of a normal form are those of the way. -/
theorem climbs_normalize (relative : isRelative p) :
    climbs (normalize p) = (Route.of p.toList).climbs := by
  rw [climbs, split_normalize relative, ← Route.segments_of, Route.segments_eq]
  generalize Route.of p.toList = r
  split
  next empty =>
    have none : r.climbs = 0 := by simpa using (List.append_eq_nil_iff.mp empty).1
    rw [none]
    rfl
  next =>
    have climbing : ∀ segment ∈ List.replicate r.climbs up, decide (segment = up) = true :=
      fun segment member => decide_eq_true (List.eq_of_mem_replicate member)
    have named : r.names.reverse.takeWhile (· = up) = [] := by
      rw [List.takeWhile_eq_nil_iff]
      intro nonempty first
      have member : up ∈ r.names.reverse := of_decide_eq_true first ▸ List.getElem_mem nonempty
      exact r.up_not_mem_names (List.mem_reverse.mp member)
    rw [List.takeWhile_append_of_pos climbing, named, List.append_nil, List.length_replicate]

theorem climbsOnly_normalize_iff (relative : isRelative p) (some : normalSegments p.toList ≠ []) :
    climbsOnly (normalize p) ↔ (Route.of p.toList).names = [] := by
  rw [climbsOnly, split_normalize relative, if_neg some, ← Route.segments_of, Route.segments_eq]
  generalize Route.of p.toList = r
  constructor
  · intro only
    rw [List.eq_nil_iff_forall_not_mem]
    intro name member
    have same : name = up := only name (List.mem_append_right _ (List.mem_reverse.mpr member))
    exact r.up_not_mem_names (same ▸ member)
  · intro none segment member
    rw [none, List.reverse_nil, List.append_nil] at member
    exact List.eq_of_mem_replicate member

/-- Seen from a directory, a path lies in a normal form if its way ends at or below the end of the
other way. -/
theorem liesIn_normalize_iff (relative : isRelative p) (relativeDir : isRelative dir)
    (start : List Segment) :
    LiesIn start (normalize dir) p ↔
      (Route.of dir.toList).endFrom start <:+ (Route.of p.toList).endFrom start := by
  rw [LiesIn, location_normalize, location_of_relative relativeDir, location_of_relative relative]

/-- A way that does not climb has a name if it has a segment. -/
theorem names_ne_nil (level : climbs (normalize dir) = 0) (relative : isRelative dir)
    (some : normalSegments dir.toList ≠ []) : (Route.of dir.toList).names ≠ [] := by
  intro none
  rw [climbs_normalize relative] at level
  rw [← Route.segments_of, Route.segments_eq, level, none] at some
  exact some rfl

/-- Under a normal form that does not climb lie the paths that lie in it, seen from anywhere. -/
theorem isUnder_normalize_iff_liesIn (relative : isRelative p) (relativeDir : isRelative dir)
    (some : normalSegments dir.toList ≠ []) (level : climbs (normalize dir) = 0) :
    isUnder (normalize p) (normalize dir) = true ↔ ∀ start, LiesIn start (normalize dir) p := by
  have named := names_ne_nil level relativeDir some
  rw [climbs_normalize relativeDir] at level
  simp only [liesIn_normalize_iff relative relativeDir]
  rw [isUnder_normalize_iff relative relativeDir some, ← Route.segments_of, ← Route.segments_of,
    Route.segments_prefix_iff, Route.forall_endFrom_suffix_iff level]
  exact or_iff_left fun further => named further.2

/-- Under a normal form lie the paths that climb alike and lie in it and, if it only climbs, those
that climb further. -/
theorem isUnder_normalize_iff_climbs (relative : isRelative p) (relativeDir : isRelative dir)
    (some : normalSegments dir.toList ≠ []) :
    isUnder (normalize p) (normalize dir) = true ↔
      climbs (normalize p) = climbs (normalize dir) ∧ (∀ start, LiesIn start (normalize dir) p) ∨
      climbs (normalize dir) < climbs (normalize p) ∧ climbsOnly (normalize dir) := by
  rw [isUnder_normalize_iff relative relativeDir some, ← Route.segments_of, ← Route.segments_of,
    Route.segments_prefix_iff, climbsOnly_normalize_iff relativeDir some,
    climbs_normalize relative, climbs_normalize relativeDir]
  refine or_congr_left (and_congr_right fun alike => ?_)
  simp only [liesIn_normalize_iff relative relativeDir, Route.endFrom_suffix_iff alike,
    forall_const]

/-- A path that climbs further than a normal form does not lie in it, seen from a directory deep
enough for its climbs. -/
theorem exists_not_liesIn (relative : isRelative p) (relativeDir : isRelative dir)
    (further : climbs (normalize dir) < climbs (normalize p)) :
    ∃ start, climbs (normalize p) ≤ start.length ∧ ¬ LiesIn start (normalize dir) p := by
  rw [climbs_normalize relative, climbs_normalize relativeDir] at further
  obtain ⟨start, deep, outside⟩ := Route.exists_not_endFrom_suffix further
  refine ⟨start, ?_, ?_⟩
  · rw [climbs_normalize relative, deep]
  · rwa [liesIn_normalize_iff relative relativeDir]

/-- What is written behind a normal form with segments leaves it relative. -/
theorem isRelative_normalize_append (relative : isRelative p)
    (some : normalSegments p.toList ≠ []) (more : String) : isRelative (normalize p ++ more) := by
  obtain ⟨c, rest, found⟩ := List.exists_cons_of_ne_nil (normalChars_ne_nil some)
  have first : isRelative (normalize p) := by rwa [isRelative_normalize]
  rw [isRelative, normalize, String.toList_ofList, slashed_normalChars, found] at first
  rwa [isRelative, String.toList_append, slashed_append, normalize, String.toList_ofList,
    slashed_normalChars, found]

/-- The way of a path goes on with the segments behind a slash. -/
theorem Route.of_append_slash (p q : List Char) :
    Route.of (p ++ '/' :: q) = (split '/' (slashed q)).foldl Route.next (Route.of p) := by
  have slash : slashed ('/' :: q) = '/' :: slashed q := rfl
  rw [Route.of, Route.of, slashed_append, slash, split_append_sep, List.foldl_append]

/-- One more climb behind a normal form that only climbs is taken to lie under it. -/
theorem isUnder_normalize_climb (relative : isRelative dir)
    (some : normalSegments dir.toList ≠ []) (only : climbsOnly (normalize dir)) :
    climbs (normalize dir) < climbs (normalize (normalize dir ++ "/..")) ∧
      isUnder (normalize (normalize dir ++ "/..")) (normalize dir) = true := by
  have relativeMore := isRelative_normalize_append relative some "/.."
  have further : climbs (normalize dir) < climbs (normalize (normalize dir ++ "/..")) := by
    rw [climbsOnly_normalize_iff relative some] at only
    have text : (normalize dir ++ "/..").toList = normalChars dir.toList ++ '/' :: up := by
      rw [String.toList_append, normalize, String.toList_ofList]
      rfl
    rw [climbs_normalize relative, climbs_normalize relativeMore, text, Route.of_append_slash,
      Route.of_normalChars]
    generalize Route.of dir.toList = r at only
    obtain ⟨climbs, names, named⟩ := r
    obtain rfl : names = [] := only
    exact Nat.lt_succ_self climbs
  exact ⟨further,
    (isUnder_normalize_iff_climbs relativeMore relative some).mpr (.inr ⟨further, only⟩)⟩

/-- Behind a normal form that ends in a name, more text makes this name longer. -/
theorem location_normalize_append {last : Segment} {above : List Segment} {more : String}
    (relative : isRelative dir) (names : (Route.of dir.toList).names = last :: above)
    (free : '/' ∉ more.toList) (free' : '\\' ∉ more.toList) (start : List Segment) :
    location start (normalize dir ++ more) =
      (last ++ more.toList) :: (above ++ start.drop (Route.of dir.toList).climbs) := by
  have named : IsName last := (Route.of dir.toList).named last (names ▸ List.mem_cons_self)
  obtain ⟨init, segments⟩ : ∃ init, (Route.of dir.toList).segments = init ++ [last] := by
    rw [Route.segments_eq, names, List.reverse_cons, ← List.append_assoc]
    exact ⟨_, rfl⟩
  have parent : init.foldl enter start = above ++ start.drop (Route.of dir.toList).climbs := by
    have whole := (Route.of dir.toList).foldl_enter_segments start
    rw [segments, List.foldl_append, List.foldl_cons, List.foldl_nil, named.enter_eq,
      Route.endFrom, names, List.cons_append] at whole
    exact (List.cons_eq_cons.mp whole).2
  rw [Route.segments_of] at segments
  have some : normalSegments dir.toList ≠ [] := by simp [segments]
  have pieces : split '/' (normalChars dir.toList) = init ++ [last] := by
    have text := split_normalize relative
    rwa [if_neg some, segments, normalize, String.toList_ofList] at text
  have relativeMore := isRelative_normalize_append relative some more
  rw [isRelative, Bool.not_eq_true'] at relativeMore
  rw [location, locate_of_relative relativeMore, String.toList_append, slashed_append, normalize,
    String.toList_ofList, slashed_normalChars, slashed_eq_self free', split_append_end pieces free,
    List.foldl_append, List.foldl_cons, List.foldl_nil, (named.append _).enter_eq, parent]

/-- A path that lies in a sibling whose name starts with that of a directory does not lie in the
directory. -/
theorem not_liesIn_of_sibling {more : String} {start : List Segment} (relative : isRelative dir)
    (named : (Route.of dir.toList).names ≠ []) (longer : more ≠ "") (free : '/' ∉ more.toList)
    (free' : '\\' ∉ more.toList) (sibling : LiesIn start (normalize dir ++ more) p) :
    ¬ LiesIn start (normalize dir) p := by
  intro inside
  obtain ⟨last, above, names⟩ := List.exists_cons_of_ne_nil named
  rw [LiesIn, location_normalize_append relative names free free'] at sibling
  rw [LiesIn, location_normalize, location_of_relative relative, Route.endFrom, names,
    List.cons_append] at inside
  have nested := List.suffix_of_suffix_length_le inside sibling (by simp)
  have same := nested.eq_of_length (by simp)
  have nothing : more.toList = [] := by simpa using (List.cons_eq_cons.mp same).1
  exact longer (String.toList_eq_nil_iff.mp nothing)

end AssetPlan.Path
