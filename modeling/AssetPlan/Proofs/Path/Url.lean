import AssetPlan.Path.Url
import AssetPlan.Proofs.Path.Scope

/-! # Joining public addresses

Below a path that is not empty, joining puts one slash in place of all slashes where the two texts
meet, and changes nothing else. The text in the middle of three is empty, or slashes only, or has a
core that keeps its two ends apart; in each case it does not matter which join comes first.
-/

namespace AssetPlan.Path

open Text

variable {p front back : List Char}

theorem exists_front (p : List Char) :
    ∃ front n, p = front ++ List.replicate n '/' ∧ front.getLast? ≠ some '/' := by
  obtain ⟨n, cut⟩ := exists_append_slashes p
  exact ⟨_, n, cut, getLast?_withoutTrailingSlashes p⟩

theorem exists_back (p : List Char) :
    ∃ n back, p = List.replicate n '/' ++ back ∧ back.head? ≠ some '/' := by
  induction p with
  | nil => exact ⟨0, [], rfl, nofun⟩
  | cons c rest ih =>
    by_cases slash : c = '/'
    · obtain ⟨n, back, rfl, starts⟩ := ih
      exact ⟨n + 1, back, by rw [slash, List.replicate_succ, List.cons_append], starts⟩
    · exact ⟨0, c :: rest, rfl, fun first => slash (Option.some.inj first)⟩

theorem dropWhile_slashes_append (n : Nat) (starts : back.head? ≠ some '/') :
    (List.replicate n '/' ++ back).dropWhile (· == '/') = back := by
  have slashes : ∀ c ∈ List.replicate n '/', (c == '/') = true := fun c member =>
    beq_iff_eq.mpr (List.eq_of_mem_replicate member)
  rw [List.dropWhile_append_of_pos slashes]
  cases back with
  | nil => rfl
  | cons c rest =>
    rw [List.dropWhile_cons, if_neg]
    exact fun slash => starts (congrArg some (beq_iff_eq.mp slash))

/-- A text that starts with no slash is empty, or a core that ends in none and slashes behind. -/
theorem exists_core (starts : p.head? ≠ some '/') :
    p = [] ∨ ∃ core n, p = core ++ List.replicate n '/' ∧ core ≠ [] ∧
      core.head? ≠ some '/' ∧ core.getLast? ≠ some '/' := by
  obtain ⟨core, n, rfl, ends⟩ := exists_front p
  cases core with
  | nil =>
    left
    cases n with
    | zero => rfl
    | succ n => exact absurd rfl starts
  | cons c core => exact .inr ⟨c :: core, n, rfl, List.cons_ne_nil c core, starts, ends⟩

theorem publicChars_nil (file : List Char) : publicChars [] file = file := rfl

/-- Where the texts meet, one slash stands in place of all. -/
theorem publicChars_slashes (front : List Char) {m : Nat}
    (nonempty : front ++ List.replicate m '/' ≠ []) (ends : front.getLast? ≠ some '/')
    (n : Nat) (starts : back.head? ≠ some '/') :
    publicChars (front ++ List.replicate m '/') (List.replicate n '/' ++ back) =
      front ++ '/' :: back := by
  have cut : withoutTrailingSlashes (front ++ List.replicate m '/') = front :=
    withoutTrailingSlashes_eq_iff.mpr ⟨⟨m, rfl⟩, ends⟩
  rw [publicChars, if_neg (mt List.isEmpty_iff.mp nonempty), cut, dropWhile_slashes_append n starts]

/-- A joined path that ends in one slash joins on as without it. -/
theorem publicChars_end {m : Nat} (nonempty : front ++ List.replicate m '/' ≠ [])
    (ends : front.getLast? ≠ some '/') (file : List Char) :
    publicChars (front ++ ['/']) file = publicChars (front ++ List.replicate m '/') file := by
  obtain ⟨n, back, rfl, starts⟩ := exists_back file
  rw [publicChars_slashes front nonempty ends n starts]
  exact publicChars_slashes front (m := 1) (by simp) ends n starts

theorem publicChars_assoc (a b c : List Char) :
    publicChars (publicChars a b) c = publicChars a (publicChars b c) := by
  by_cases empty : a = []
  · rw [empty, publicChars_nil, publicChars_nil]
  obtain ⟨front, m, rfl, ends⟩ := exists_front a
  obtain ⟨n, inner, rfl, starts⟩ := exists_back b
  obtain ⟨k, back, rfl, starts'⟩ := exists_back c
  rw [publicChars_slashes front empty ends n starts]
  rcases exists_core starts with rfl | ⟨core, l, rfl, solid, coreStarts, coreEnds⟩
  · rw [publicChars_end empty ends, List.append_nil]
    cases n with
    | zero => rw [List.replicate_zero, publicChars_nil]
    | succ n =>
      -- the middle text is slashes only, so its join with the last one starts with a slash
      have join := publicChars_slashes [] (m := n + 1) (by simp) nofun k starts'
      rw [List.nil_append, List.nil_append] at join
      rw [join, publicChars_slashes front empty ends k starts']
      exact (publicChars_slashes front empty ends 1 starts').symm
  · -- the core ends the first join, and it starts the second one behind the slashes in front of it
    have endOf (before : List Char) : (before ++ core).getLast? ≠ some '/' := by
      rwa [List.getLast?_append_of_ne_nil before solid]
    have startOf (after : List Char) : (core ++ after).head? ≠ some '/' := by
      rwa [List.head?_append_of_ne_nil core solid]
    have first : publicChars (front ++ '/' :: (core ++ List.replicate l '/'))
        (List.replicate k '/' ++ back) = front ++ '/' :: (core ++ '/' :: back) := by
      have joined := publicChars_slashes (front ++ '/' :: core) (m := l) (by simp)
        (by simpa using endOf (front ++ ['/'])) k starts'
      simpa using joined
    have last : publicChars (List.replicate n '/' ++ (core ++ List.replicate l '/'))
        (List.replicate k '/' ++ back) = List.replicate n '/' ++ (core ++ '/' :: back) := by
      have joined := publicChars_slashes (List.replicate n '/' ++ core) (m := l)
        (by simp [solid]) (endOf _) k starts'
      simpa using joined
    rw [first, last, publicChars_slashes front empty ends n (startOf _)]

/-- The paths differ at most in how many slashes stand at their ends. -/
def AlikeToSlashes (base base' : String) : Prop :=
  ∃ (front : List Char) (m n : Nat),
    base.toList = front ++ List.replicate m '/' ∧ base'.toList = front ++ List.replicate n '/'

/-- The files differ at most in how many slashes stand at their starts. -/
def AlikeFromSlashes (file file' : String) : Prop :=
  ∃ (back : List Char) (m n : Nat),
    file.toList = List.replicate m '/' ++ back ∧ file'.toList = List.replicate n '/' ++ back

theorem withoutTrailingSlashes_of_alike {base base' : String} (alike : AlikeToSlashes base base') :
    withoutTrailingSlashes base.toList = withoutTrailingSlashes base'.toList := by
  obtain ⟨front, m, n, same, same'⟩ := alike
  obtain ⟨cut, k, rfl, ends⟩ := exists_front front
  have trimmed (l : Nat) :
      withoutTrailingSlashes (cut ++ List.replicate k '/' ++ List.replicate l '/') = cut :=
    withoutTrailingSlashes_eq_iff.mpr
      ⟨⟨k + l, by rw [List.append_assoc, List.replicate_append_replicate]⟩, ends⟩
  rw [same, same', trimmed, trimmed]

theorem dropWhile_of_alike {file file' : String} (alike : AlikeFromSlashes file file') :
    file.toList.dropWhile (· == '/') = file'.toList.dropWhile (· == '/') := by
  obtain ⟨back, m, n, same, same'⟩ := alike
  obtain ⟨k, cut, rfl, starts⟩ := exists_back back
  have trimmed (l : Nat) :
      (List.replicate l '/' ++ (List.replicate k '/' ++ cut)).dropWhile (· == '/') = cut := by
    rw [← List.append_assoc, List.replicate_append_replicate, dropWhile_slashes_append _ starts]
  rw [same, same', trimmed, trimmed]

theorem publicUrl_eq {base : String} (nonempty : base ≠ "") (file : String) :
    (publicUrl base file).toList =
      withoutTrailingSlashes base.toList ++ '/' :: file.toList.dropWhile (· == '/') := by
  have solid : ¬ base.toList.isEmpty = true :=
    mt List.isEmpty_iff.mp (mt String.toList_eq_nil_iff.mp nonempty)
  rw [publicUrl, String.toList_ofList, publicChars, if_neg solid]

/-- Joining is associative and leaves a file below the empty path alone. Below another path the
address is the path without the slashes at its end, one slash, and the file without the slashes at
its start, so these slashes make no difference. -/
theorem publicUrl_joins :
    (∀ a b c, publicUrl (publicUrl a b) c = publicUrl a (publicUrl b c)) ∧
    (∀ file, publicUrl "" file = file) ∧
    (∀ base file, base ≠ "" → ∃ front m n back,
      base.toList = front ++ List.replicate m '/' ∧ front.getLast? ≠ some '/' ∧
      file.toList = List.replicate n '/' ++ back ∧ back.head? ≠ some '/' ∧
      (publicUrl base file).toList = front ++ '/' :: back) ∧
    ∀ base base' file file', base ≠ "" → base' ≠ "" → AlikeToSlashes base base' →
      AlikeFromSlashes file file' → publicUrl base file = publicUrl base' file' := by
  refine ⟨fun a b c => ?_, fun file => String.ofList_toList, ?_, ?_⟩
  · simp only [publicUrl, String.toList_ofList, publicChars_assoc]
  · intro base file nonempty
    obtain ⟨front, m, cut, ends⟩ := exists_front base.toList
    obtain ⟨n, back, cut', starts⟩ := exists_back file.toList
    refine ⟨front, m, n, back, cut, ends, cut', starts, ?_⟩
    rw [publicUrl_eq nonempty, cut', dropWhile_slashes_append n starts,
      withoutTrailingSlashes_eq_iff.mpr ⟨⟨m, cut⟩, ends⟩]
  · intro base base' file file' nonempty nonempty' alike alike'
    rw [← String.toList_inj, publicUrl_eq nonempty, publicUrl_eq nonempty',
      withoutTrailingSlashes_of_alike alike, dropWhile_of_alike alike']

/-- A site with slashes at its end, and a file with slashes at its start. -/
theorem publicUrl_joins_site :
    (∃ front m n back, "/cdn//".toList = front ++ List.replicate m '/' ∧
      front.getLast? ≠ some '/' ∧ "//img/a.png".toList = List.replicate n '/' ++ back ∧
      back.head? ≠ some '/' ∧ (publicUrl "/cdn//" "//img/a.png").toList = front ++ '/' :: back) ∧
    AlikeToSlashes "/cdn//" "/cdn" ∧ AlikeFromSlashes "//img/a.png" "/img/a.png" ∧
    publicUrl "/cdn//" "//img/a.png" = "/cdn/img/a.png" ∧
    publicUrl "/cdn//" "//img/a.png" = publicUrl "/cdn" "/img/a.png" := by
  have base : AlikeToSlashes "/cdn//" "/cdn" := ⟨"/cdn".toList, 2, 0, by decide, by decide⟩
  have file : AlikeFromSlashes "//img/a.png" "/img/a.png" :=
    ⟨"img/a.png".toList, 2, 1, by decide, by decide⟩
  obtain ⟨_, _, parts, alike⟩ := publicUrl_joins
  exact ⟨parts _ _ (by decide), base, file, by decide,
    alike _ _ _ _ (by decide) (by decide) base file⟩

end AssetPlan.Path
