import AssetPlan.Text.Split
import Mathlib.Logic.Basic

/-! # Pieces of a text

What splitting at a separator gives: a separator between two texts divides their pieces, no piece
holds the separator, and the division at the last separator leaves none behind it.
-/

namespace AssetPlan.Text

variable {sep c : Char} {cs before after piece : List Char}

theorem split_cons_of_ne (other : c ≠ sep) (cs : List Char) :
    ∃ piece pieces, split sep cs = piece :: pieces ∧ split sep (c :: cs) = (c :: piece) :: pieces := by
  cases found : split sep cs with
  | nil => exact (split_ne_nil sep cs found).elim
  | cons piece pieces =>
    refine ⟨piece, pieces, rfl, ?_⟩
    rw [split, if_neg other, found]

/-- A separator divides the pieces of both sides. -/
theorem split_append_sep (sep : Char) (cs ds : List Char) :
    split sep (cs ++ sep :: ds) = split sep cs ++ split sep ds := by
  induction cs with
  | nil => simp [split]
  | cons c rest ih =>
    by_cases same : c = sep
    · simp [split, same, ih]
    · obtain ⟨piece, pieces, found, added⟩ := split_cons_of_ne same rest
      obtain ⟨_, _, found', added'⟩ := split_cons_of_ne same (rest ++ sep :: ds)
      rw [ih, found, List.cons_append] at found'
      cases found'
      rw [List.cons_append, added', added, List.cons_append]

theorem split_of_not_mem (free : sep ∉ cs) : split sep cs = [cs] := by
  induction cs with
  | nil => rfl
  | cons c rest ih =>
    rw [List.mem_cons, not_or] at free
    rw [split, if_neg (Ne.symm free.1), ih free.2]

/-- A text without the separator stands in front of the first piece. -/
theorem split_append_of_not_mem (free : sep ∉ before) (cs : List Char) :
    ∃ piece pieces, split sep cs = piece :: pieces ∧
      split sep (before ++ cs) = (before ++ piece) :: pieces := by
  induction before with
  | nil =>
    obtain ⟨piece, pieces, found⟩ := List.exists_cons_of_ne_nil (split_ne_nil sep cs)
    exact ⟨piece, pieces, found, found⟩
  | cons c rest ih =>
    rw [List.mem_cons, not_or] at free
    obtain ⟨piece, pieces, found, behind⟩ := ih free.2
    obtain ⟨_, _, behind', added⟩ := split_cons_of_ne (Ne.symm free.1) (rest ++ cs)
    cases behind.symm.trans behind'
    exact ⟨piece, pieces, found, added⟩

theorem forall_mem_split {P : Char → Prop} (holds : ∀ c ∈ cs, c ≠ sep → P c) :
    ∀ piece ∈ split sep cs, ∀ c ∈ piece, P c := by
  induction cs with
  | nil => simp [split]
  | cons c rest ih =>
    obtain ⟨first, later⟩ := List.forall_mem_cons.mp holds
    by_cases same : c = sep
    · rw [split, if_pos same]
      exact List.forall_mem_cons.mpr ⟨List.forall_mem_nil _, ih later⟩
    · obtain ⟨piece, pieces, found, added⟩ := split_cons_of_ne same rest
      have below := ih later
      rw [found, List.forall_mem_cons] at below
      rw [added, List.forall_mem_cons, List.forall_mem_cons]
      exact ⟨⟨first same, below.1⟩, below.2⟩

theorem not_mem_of_mem_split (member : piece ∈ split sep cs) : sep ∉ piece := fun inside =>
  forall_mem_split (fun _ _ other => other) piece member sep inside rfl

theorem mem_of_mem_split (member : piece ∈ split sep cs) (inside : c ∈ piece) : c ∈ cs :=
  forall_mem_split (fun _ known _ => known) piece member c inside

theorem length_le_of_mem_split (member : piece ∈ split sep cs) : piece.length ≤ cs.length := by
  induction cs generalizing piece with
  | nil => simp_all [split]
  | cons c rest ih =>
    rw [List.length_cons]
    by_cases same : c = sep
    · rw [split, if_pos same] at member
      rcases List.mem_cons.mp member with rfl | later
      · exact Nat.zero_le _
      · exact Nat.le_succ_of_le (ih later)
    · obtain ⟨first, pieces, found, added⟩ := split_cons_of_ne same rest
      rw [added] at member
      rcases List.mem_cons.mp member with rfl | later
      · have short := ih (found ▸ List.mem_cons_self : first ∈ split sep rest)
        exact Nat.succ_le_succ short
      · have short := ih (found ▸ List.mem_cons_of_mem _ later : piece ∈ split sep rest)
        exact Nat.le_succ_of_le short

theorem split_eq_splitOn (sep : Char) (cs : List Char) : split sep cs = cs.splitOn sep := by
  induction cs with
  | nil => rfl
  | cons c rest ih =>
    rw [List.splitOn_cons_eq_if_modifyHead, ← ih]
    by_cases same : c = sep
    · rw [split, if_pos same, if_pos (beq_iff_eq.mpr same)]
    · obtain ⟨piece, pieces, found, added⟩ := split_cons_of_ne same rest
      rw [if_neg (mt beq_iff_eq.mp same), added, found, List.modifyHead_cons]

/-- Joining the pieces of a text gives it back. -/
theorem join_split (sep : Char) (cs : List Char) : join [sep] (split sep cs) = cs := by
  rw [split_eq_splitOn, join, List.intercalate_splitOn]

/-- Pieces without the separator are the pieces of what they are joined to. -/
theorem split_join {pieces : List (List Char)} (nonempty : pieces ≠ [])
    (free : ∀ piece ∈ pieces, sep ∉ piece) : split sep (join [sep] pieces) = pieces := by
  rw [split_eq_splitOn, join, List.splitOn_intercalate sep free nonempty]

theorem join_singleton (sep : Char) (piece : List Char) : join [sep] [piece] = piece :=
  List.intercalate_singleton

theorem join_cons {pieces : List (List Char)} (more : pieces ≠ []) (piece : List Char) :
    join [sep] (piece :: pieces) = piece ++ sep :: join [sep] pieces := by
  rw [join, List.intercalate_cons_of_ne_nil more, List.append_assoc, List.singleton_append, join]

theorem join_append {front back : List (List Char)} (someFront : front ≠ [])
    (someBack : back ≠ []) :
    join [sep] (front ++ back) = join [sep] front ++ sep :: join [sep] back := by
  induction front with
  | nil => exact (someFront rfl).elim
  | cons piece rest ih =>
    by_cases last : rest = []
    · subst last
      rw [List.singleton_append, join_cons someBack, join_singleton]
    · have more : rest ++ back ≠ [] := fun empty => last (List.append_eq_nil_iff.mp empty).1
      rw [List.cons_append, join_cons more, join_cons last, ih last, List.append_assoc,
        List.cons_append]

/-- Where two joined texts meet, the last piece of the first and the first piece of the second are
one piece. -/
theorem join_append_join (init rest : List (List Char)) (last first : List Char) :
    join [sep] (init ++ [last]) ++ join [sep] (first :: rest) =
      join [sep] (init ++ (last ++ first) :: rest) := by
  induction init with
  | nil =>
    rw [List.nil_append, List.nil_append, join_singleton]
    by_cases single : rest = []
    · rw [single, join_singleton, join_singleton]
    · rw [join_cons single, join_cons single, List.append_assoc]
  | cons piece init ih =>
    have more : init ++ [last] ≠ [] := by simp
    have more' : init ++ (last ++ first) :: rest ≠ [] := by simp
    rw [List.cons_append, List.cons_append, join_cons more, join_cons more', List.append_assoc,
      List.cons_append, ih]

/-- The pieces of two texts one behind the other. -/
theorem split_append {ds : List Char} {init rest : List (List Char)} {last first : List Char}
    (front : split sep cs = init ++ [last]) (back : split sep ds = first :: rest) :
    split sep (cs ++ ds) = init ++ (last ++ first) :: rest := by
  have whole : cs ++ ds = join [sep] (init ++ (last ++ first) :: rest) := by
    rw [← join_append_join, ← front, ← back, join_split, join_split]
  have free : ∀ piece ∈ init ++ [last], sep ∉ piece := fun piece member =>
    not_mem_of_mem_split (front ▸ member)
  have free' : ∀ piece ∈ first :: rest, sep ∉ piece := fun piece member =>
    not_mem_of_mem_split (back ▸ member)
  rw [List.forall_mem_append, List.forall_mem_singleton] at free
  rw [List.forall_mem_cons] at free'
  rw [whole, split_join (by simp)]
  refine List.forall_mem_append.mpr ⟨free.1, List.forall_mem_cons.mpr ⟨?_, free'.2⟩⟩
  rw [List.mem_append, not_or]
  exact ⟨free.2, free'.1⟩

/-- What stands behind the last piece belongs to it. -/
theorem split_append_end {init : List (List Char)} {last : List Char}
    (pieces : split sep cs = init ++ [last]) (free : sep ∉ after) :
    split sep (cs ++ after) = init ++ [last ++ after] :=
  split_append pieces (split_of_not_mem free)

/-- One more piece makes the text longer by the piece, and by a separator unless it is the first. -/
theorem length_join_concat (sep : Char) (pieces : List (List Char)) (piece : List Char) :
    (join [sep] (pieces ++ [piece])).length =
      (join [sep] pieces).length + piece.length + if pieces = [] then 0 else 1 := by
  by_cases first : pieces = []
  · rw [first, List.nil_append, join_singleton, if_pos rfl]
    exact (Nat.zero_add _).symm
  · rw [join_append first (List.cons_ne_nil _ _), join_singleton, if_neg first, List.length_append,
      List.length_cons, Nat.add_assoc]

theorem mem_join {pieces : List (List Char)} (member : c ∈ join [sep] pieces) :
    c = sep ∨ ∃ piece ∈ pieces, c ∈ piece := by
  induction pieces with
  | nil => cases member
  | cons piece rest ih =>
    by_cases last : rest = []
    · subst last
      rw [join_singleton] at member
      exact .inr ⟨piece, List.mem_cons_self, member⟩
    · rw [join_cons last, List.mem_append, List.mem_cons] at member
      rcases member with inside | same | later
      · exact .inr ⟨piece, List.mem_cons_self, inside⟩
      · exact .inl same
      · rcases ih later with same | ⟨other, inRest, inside⟩
        · exact .inl same
        · exact .inr ⟨other, List.mem_cons_of_mem _ inRest, inside⟩

theorem mem_join_of_mem {pieces : List (List Char)} (member : piece ∈ pieces) (inside : c ∈ piece) :
    c ∈ join [sep] pieces := by
  obtain ⟨front, back, rfl⟩ := List.append_of_mem member
  have behind : c ∈ join [sep] (piece :: back) := by
    by_cases last : back = []
    · rwa [last, join_singleton]
    · rw [join_cons last]
      exact List.mem_append_left _ inside
  by_cases first : front = []
  · rwa [first, List.nil_append]
  · rw [join_append first (List.cons_ne_nil _ _)]
    exact List.mem_append_right _ (List.mem_cons_of_mem _ behind)

theorem not_mem_of_splitOnce (found : splitOnce sep cs = some (before, after)) : sep ∉ before := by
  induction cs generalizing before with
  | nil => cases found
  | cons c rest ih =>
    rw [splitOnce] at found
    split at found
    next =>
      cases found
      exact List.not_mem_nil
    next other =>
      obtain ⟨⟨first, _⟩, inner, same⟩ := Option.map_eq_some_iff.mp found
      cases same
      rw [List.mem_cons, not_or]
      exact ⟨Ne.symm other, ih inner⟩

theorem splitOnce_eq_none_iff : splitOnce sep cs = none ↔ sep ∉ cs := by
  induction cs with
  | nil => simp [splitOnce]
  | cons c rest ih =>
    rw [splitOnce, List.mem_cons, not_or]
    split
    next same => simp [same]
    next other => simp [ih, Ne.symm other]

/-- A text is divided at its first separator. -/
theorem splitOnce_of_not_mem (free : sep ∉ before) (after : List Char) :
    splitOnce sep (before ++ sep :: after) = some (before, after) := by
  induction before with
  | nil => simp [splitOnce]
  | cons c rest ih =>
    rw [List.mem_cons, not_or] at free
    rw [List.cons_append, splitOnce, if_neg (Ne.symm free.1), ih free.2, Option.map_some]

theorem splitLast_append (found : splitLast sep cs = some (before, after)) :
    before ++ sep :: after = cs := by
  obtain ⟨⟨last, first⟩, inner, same⟩ := Option.map_eq_some_iff.mp found
  cases same
  have whole := congrArg List.reverse (splitOnce_append inner)
  rwa [List.reverse_append, List.reverse_cons, List.append_assoc, List.singleton_append,
    List.reverse_reverse] at whole

theorem not_mem_of_splitLast (found : splitLast sep cs = some (before, after)) : sep ∉ after := by
  obtain ⟨⟨last, first⟩, inner, same⟩ := Option.map_eq_some_iff.mp found
  cases same
  exact fun member => not_mem_of_splitOnce inner (List.mem_reverse.mp member)

theorem dropStart?_eq_some_iff {front text rest : List Char} :
    dropStart? front text = some rest ↔ front ++ rest = text := by
  fun_induction dropStart? front text with
  | case1 text => exact Option.some_inj.trans eq_comm
  | case2 => simp
  | case3 c front cs ih => rw [ih, List.cons_append, List.cons.injEq, and_iff_right rfl]
  | case4 p front c cs other => simp [other]

/-- A text starts with another one, up to a separator or its end, exactly if its pieces start with
the pieces of that one. -/
theorem split_prefix_iff {front text : List Char} :
    split sep front <+: split sep text ↔ text = front ∨ ∃ rest, text = front ++ sep :: rest := by
  constructor
  · rintro ⟨more, same⟩
    have whole : text = join [sep] (split sep front ++ more) := by rw [same, join_split]
    by_cases ends : more = []
    · left
      rw [whole, ends, List.append_nil, join_split]
    · right
      rw [whole, join_append (split_ne_nil sep front) ends, join_split]
      exact ⟨_, rfl⟩
  · rintro (rfl | ⟨rest, rfl⟩)
    · exact List.prefix_refl _
    · rw [split_append_sep]
      exact List.prefix_append _ _

theorem occursIn_iff {needle cs : List Char} : occursIn needle cs = true ↔ needle <:+: cs := by
  induction cs with
  | nil => rw [occursIn, List.isEmpty_iff, List.infix_nil]
  | cons c rest ih =>
    rw [occursIn, Bool.or_eq_true, List.isPrefixOf_iff_prefix, ih, List.infix_cons_iff]

end AssetPlan.Text
