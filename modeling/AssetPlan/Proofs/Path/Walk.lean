import AssetPlan.Proofs.Path.Location

/-! # Walking along a path character by character

One reading from left to right tells how deep below its start the file part of an address ends: it
remembers how deep the segments so far have led and what the segment it is in looks like. Texts that
take every walk to the same place are interchangeable wherever they stand.
-/

namespace AssetPlan.Path

open Text

/-- What a segment looks like. -/
inductive Shape where
  | empty
  | here
  | up
  | name
deriving DecidableEq, Repr

namespace Shape

/-- The shape after one more character. -/
def push (shape : Shape) (c : Char) : Shape :=
  if c = '.' then
    match shape with
    | empty => here
    | here => up
    | up => name
    | name => name
  else name

/-- The shape of a text without slashes. -/
def of (cs : List Char) : Shape := cs.foldl push empty

/-- The shape of two texts of given shapes in a row. -/
def append : Shape → Shape → Shape
  | empty, shape => shape
  | shape, empty => shape
  | here, here => up
  | _, _ => name

/-- The depth below the start after a segment of a shape; none above the start. -/
def descend (depth : Nat) : Shape → Option Nat
  | empty => some depth
  | here => some depth
  | up => if depth = 0 then none else some (depth - 1)
  | name => some (depth + 1)

theorem push_eq_append (shape : Shape) (c : Char) : shape.push c = shape.append (empty.push c) := by
  unfold push
  split <;> cases shape <;> rfl

theorem append_assoc (first second third : Shape) :
    (first.append second).append third = first.append (second.append third) := by
  cases first <;> cases second <;> cases third <;> rfl

theorem foldl_push (shape : Shape) (cs : List Char) : cs.foldl push shape = shape.append (of cs) := by
  induction cs generalizing shape with
  | nil => cases shape <;> rfl
  | cons c rest ih =>
    rw [of, List.foldl_cons, List.foldl_cons, ih, ih (empty.push c), push_eq_append shape,
      append_assoc]

theorem of_append (cs ds : List Char) : of (cs ++ ds) = (of cs).append (of ds) :=
  List.foldl_append.trans (foldl_push (of cs) ds)

theorem of_cons (c : Char) (cs : List Char) : of (c :: cs) = (empty.push c).append (of cs) :=
  of_append [c] cs

theorem of_cons_of_ne {c : Char} (other : c ≠ '.') (cs : List Char) : of (c :: cs) = name := by
  rw [of_cons, push, if_neg other]
  cases of cs <;> rfl

/-- The segments that are no names have shapes of their own, and all others have one shape. -/
theorem of_cases (cs : List Char) :
    cs = [] ∧ of cs = empty ∨ cs = Path.here ∧ of cs = here ∨ cs = Path.up ∧ of cs = up ∨
      (cs ≠ [] ∧ cs ≠ Path.here ∧ cs ≠ Path.up) ∧ of cs = name := by
  induction cs with
  | nil => exact .inl ⟨rfl, rfl⟩
  | cons c rest ih =>
    by_cases dot : c = '.'
    · subst dot
      rw [of_cons]
      rcases ih with ⟨rfl, _⟩ | ⟨rfl, _⟩ | ⟨rfl, _⟩ | ⟨⟨nonempty, notHere, _⟩, shape⟩
      · exact .inr (.inl ⟨rfl, rfl⟩)
      · exact .inr (.inr (.inl ⟨rfl, rfl⟩))
      · exact .inr (.inr (.inr ⟨by decide, rfl⟩))
      · rw [shape]
        have longer : ∀ known : List Char, rest ≠ known → '.' :: rest ≠ '.' :: known :=
          fun _ other same => other (List.cons.inj same).2
        exact .inr (.inr (.inr ⟨⟨nofun, longer _ nonempty, longer _ notHere⟩, rfl⟩))
    · have other : ∀ known : List Char, c :: rest ≠ '.' :: known :=
        fun _ same => dot (List.cons.inj same).1
      exact .inr (.inr (.inr ⟨⟨nofun, other _, other _⟩, of_cons_of_ne dot rest⟩))

/-- Where a segment leads depends on its shape only. -/
theorem descend_of (depth : Nat) (segment : Segment) :
    (of segment).descend depth = Path.descend depth segment := by
  rcases of_cases segment with ⟨rfl, _⟩ | ⟨rfl, _⟩ | ⟨rfl, _⟩ | ⟨⟨nonempty, notHere, notUp⟩, shape⟩
  · rfl
  · rfl
  · cases depth <;> rfl
  · rw [shape, descend, Path.descend.eq_def, if_neg (not_or.mpr ⟨nonempty, notHere⟩), if_neg notUp]

end Shape

/-- Where a walk along an address is. -/
inductive Walk where
  /-- before the first character -/
  | start
  /-- in a segment of some shape, below so many directories -/
  | inside (depth : Nat) (shape : Shape)
  /-- in the query, after a file so many directories below the start -/
  | query (depth : Nat)
  /-- above the start, or away from it -/
  | outside
deriving DecidableEq, Repr

namespace Walk

/-- One character further. -/
def next : Walk → Char → Walk
  | start, c =>
    if c = '?' then query 0
    else if c = '/' then outside
    else inside 0 (Shape.empty.push c)
  | inside depth shape, c =>
    if c = '?' then ((shape.descend depth).map query).getD outside
    else if c = '/' then ((shape.descend depth).map fun depth => inside depth .empty).getD outside
    else inside depth (shape.push c)
  | query depth, _ => query depth
  | outside, _ => outside

/-- How deep below the start the file is whose address ends here. -/
def depth? : Walk → Option Nat
  | start => some 0
  | inside depth shape => shape.descend depth
  | query depth => some depth
  | outside => none

/-- A whole text further. -/
def along (cs : List Char) (walk : Walk) : Walk := cs.foldl next walk

/-- A text of a shape further, if it has no slashes and no question marks. -/
def past (shape : Shape) : Walk → Walk
  | start => if shape = .empty then start else inside 0 shape
  | inside depth before => inside depth (before.append shape)
  | query depth => query depth
  | outside => outside

variable {cs : List Char} {depth : Nat}

theorem along_append (cs ds : List Char) : along (cs ++ ds) = along ds ∘ along cs :=
  funext fun _ => List.foldl_append

@[simp]
theorem along_query (cs : List Char) (depth : Nat) : along cs (query depth) = query depth := by
  induction cs with
  | nil => rfl
  | cons c rest ih => exact ih

@[simp]
theorem along_outside (cs : List Char) : along cs outside = outside := by
  induction cs with
  | nil => rfl
  | cons c rest ih => exact ih

/-- From within a segment, the walk finds out where the rest of the path leads. -/
theorem depth?_along_inside (piece : Segment) (free : '/' ∉ piece) (cs : List Char) :
    (along cs (inside depth (.of piece))).depth? =
      (split '/' (piece ++ cs.takeWhile (· != '?'))).foldlM Path.descend depth := by
  induction cs generalizing depth piece with
  | nil =>
    rw [List.takeWhile_nil, List.append_nil, split_of_not_mem free, List.foldlM_cons,
      ← Shape.descend_of, along, List.foldl_nil, Walk.depth?]
    exact (bind_pure _).symm
  | cons c rest ih =>
    rw [along, List.foldl_cons, ← along]
    by_cases mark : c = '?'
    · rw [next, if_pos mark, List.takeWhile_cons_of_neg (by simp [mark]), List.append_nil,
        split_of_not_mem free, List.foldlM_cons, ← Shape.descend_of]
      cases (Shape.of piece).descend depth <;> simp [Walk.depth?]
    rw [List.takeWhile_cons_of_pos (by simp [mark])]
    by_cases slash : c = '/'
    · subst slash
      rw [split_append_sep, split_of_not_mem free, List.singleton_append, List.foldlM_cons,
        ← Shape.descend_of, next, if_neg mark, if_pos rfl]
      cases (Shape.of piece).descend depth with
      | none => simp [Walk.depth?]
      | some depth => exact ih [] List.not_mem_nil
    · have longer : Shape.of (piece ++ [c]) = (Shape.of piece).push c := List.foldl_append
      have free' : '/' ∉ piece ++ [c] := by simp [free, Ne.symm slash]
      rw [next, if_neg mark, if_neg slash, ← longer, ih _ free', List.append_assoc,
        List.singleton_append]

/-- A walk from the start finds out the depth of the file of an address. -/
theorem depth?_along_start (cs : List Char) :
    (along cs start).depth? = Path.depth? (cs.takeWhile (· != '?')) := by
  cases cs with
  | nil => rfl
  | cons c rest =>
    rw [along, List.foldl_cons, ← along]
    by_cases mark : c = '?'
    · subst mark
      rw [next, if_pos rfl, along_query]
      rfl
    rw [List.takeWhile_cons_of_pos (by simp [mark]), Path.depth?]
    by_cases slash : c = '/'
    · subst slash
      simp [next, Walk.depth?, isAbsolute]
    · have free : '/' ∉ [c] := by simp [Ne.symm slash]
      rw [next, if_neg mark, if_neg slash, if_neg (by simp [isAbsolute, slash])]
      exact depth?_along_inside [c] free rest

/-- Without slashes and question marks, only the shape of a text counts. -/
theorem along_eq_past (free : ∀ c ∈ cs, c ≠ '/' ∧ c ≠ '?') : along cs = past (.of cs) := by
  induction cs with
  | nil =>
    funext walk
    cases walk with
    | inside depth shape => cases shape <;> rfl
    | _ => rfl
  | cons c rest ih =>
    obtain ⟨⟨slash, mark⟩, later⟩ := List.forall_mem_cons.mp free
    have nonempty : Shape.of (c :: rest) ≠ .empty := by
      rcases Shape.of_cases (c :: rest) with ⟨same, _⟩ | ⟨_, shape⟩ | ⟨_, shape⟩ | ⟨_, shape⟩ <;>
        simp_all
    funext walk
    rw [along, List.foldl_cons, ← along, ih later]
    cases walk with
    | start => rw [next, if_neg mark, if_neg slash, past, past, if_neg nonempty, Shape.of_cons]
    | inside depth shape =>
      rw [next, if_neg mark, if_neg slash, past, past, Shape.of_cons, Shape.push_eq_append,
        Shape.append_assoc]
    | _ => rfl

/-- All queries end the file alike. -/
theorem along_question_mark (cs ds : List Char) : along ('?' :: cs) = along ('?' :: ds) := by
  have closed : ∀ walk, (∃ depth, next walk '?' = query depth) ∨ next walk '?' = outside := by
    intro walk
    cases walk with
    | start => exact .inl ⟨0, rfl⟩
    | inside depth shape =>
      rw [next, if_pos rfl]
      cases shape.descend depth with
      | none => exact .inr rfl
      | some depth => exact .inl ⟨depth, rfl⟩
    | query depth => exact .inl ⟨depth, rfl⟩
    | outside => exact .inr rfl
  funext walk
  rw [along, List.foldl_cons, along, List.foldl_cons, ← along, ← along]
  rcases closed walk with ⟨depth, found⟩ | found
  · rw [found, along_query, along_query]
  · rw [found, along_outside, along_outside]

end Walk

end AssetPlan.Path
