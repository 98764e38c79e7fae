import AssetPlan.Proofs.Rule.Compilation

/-! # Scopes within scopes

A directory prefix is compared by segments, whatever the spelling of the texts: the slashes at its
end are cut off, and then it is empty or its segments are the first ones of the path. A cut text
ends in no slash, so where its segments start those of another text, they also start those of the
other text cut. Lying under a directory is therefore reflexive and transitive, and a scope whose
directories lie in another scope admits no path that the other one excludes.
-/

namespace AssetPlan.Path

open Text

variable {p front dir outer : List Char}

/-- What is left of a text starts with each front of the text that ends in no slash. -/
theorem split_prefix_withoutTrailingSlashes (ends : front.getLast? ≠ some '/')
    (fits : split '/' front <+: split '/' p) :
    split '/' front <+: split '/' (withoutTrailingSlashes p) := by
  rw [split_prefix_iff] at fits ⊢
  rcases fits with rfl | ⟨rest, same⟩
  · left
    exact withoutTrailingSlashes_eq_iff.mpr ⟨⟨0, (List.append_nil p).symm⟩, ends⟩
  obtain ⟨n, cut⟩ := exists_append_slashes p
  rcases List.append_eq_append_iff.mp (same.symm.trans cut) with ⟨more, longer, back⟩ |
    ⟨more, shorter, back⟩
  · cases more with
    | nil => exact .inl (by rw [longer, List.append_nil])
    | cons c more =>
      cases back
      exact .inr ⟨more, longer⟩
  · -- the front would end in what was cut off
    left
    cases more using List.reverseRecOn with
    | nil => rw [shorter, List.append_nil]
    | append_singleton more c =>
      have slash : c = '/' := List.eq_of_mem_replicate (n := n) (by rw [back]; simp)
      exact absurd (by rw [shorter, ← List.append_assoc, List.getLast?_concat, slash]) ends

theorem isUnderChars_self (p : List Char) : isUnderChars p p = true := by
  refine isUnderChars_iff.mpr (.inr (split_prefix_iff.mpr ?_))
  obtain ⟨n, cut⟩ := exists_append_slashes p
  cases n with
  | zero => exact .inl (by rwa [List.replicate_zero, List.append_nil] at cut)
  | succ n => exact .inr ⟨List.replicate n '/', cut⟩

theorem isUnderChars_trans (inner : isUnderChars p dir = true)
    (nested : isUnderChars dir outer = true) : isUnderChars p outer = true := by
  rw [isUnderChars_iff] at inner nested ⊢
  rcases nested with all | nested
  · exact .inl all
  have cut := split_prefix_withoutTrailingSlashes (getLast?_withoutTrailingSlashes outer) nested
  rcases inner with empty | inner
  · left
    rw [empty, split_prefix_iff] at cut
    rcases cut with same | ⟨rest, same⟩
    · exact same.symm
    · exact (List.append_eq_nil_iff.mp same.symm).1
  · exact .inr (cut.trans inner)

end AssetPlan.Path

namespace AssetPlan

open AssetPlan.Path Text

/-- What is in a scope is in each scope that its directories are in. -/
theorem Rule.inScope_of_nested {inner outer : Rule} {path : String} (confined : inner.scope ≠ [])
    (nested : ∀ dir ∈ inner.scope, outer.inScope dir = true)
    (admitted : inner.inScope path = true) : outer.inScope path = true := by
  obtain ⟨dir, member, under⟩ := (inScope_eq_true_iff.mp admitted).resolve_left confined
  rcases inScope_eq_true_iff.mp (nested dir member) with anywhere | ⟨above, stored, within⟩
  · exact inScope_eq_true_iff.mpr (.inl anywhere)
  · exact inScope_eq_true_iff.mpr (.inr ⟨above, stored, isUnderChars_trans under within⟩)

/-- A path lies under a directory prefix exactly if the prefix without the slashes at its end is
empty or has segments that the segments of the path start with. Every path lies under itself, and
what lies under a directory lies under the directories above it, so a scope inside another scope
admits no path that the other one excludes. -/
theorem isUnder_by_segments :
    (∀ path dir : String, ∃ cut n, dir.toList = cut ++ List.replicate n '/' ∧
      cut.getLast? ≠ some '/' ∧
      (isUnder path dir = true ↔ cut = [] ∨ split '/' cut <+: split '/' path.toList)) ∧
    (∀ path, isUnder path path = true) ∧
    (∀ path dir outer, isUnder path dir = true → isUnder dir outer = true →
      isUnder path outer = true) ∧
    ∀ inner outer : Rule, inner.scope ≠ [] → (∀ dir ∈ inner.scope, outer.inScope dir = true) →
      ∀ path, inner.inScope path = true → outer.inScope path = true := by
  refine ⟨fun path dir => ?_, fun path => isUnderChars_self path.toList, ?_, ?_⟩
  · obtain ⟨n, cut⟩ := exists_append_slashes dir.toList
    exact ⟨_, n, cut, getLast?_withoutTrailingSlashes dir.toList, isUnderChars_iff⟩
  · exact fun path dir outer => isUnderChars_trans
  · exact fun inner outer confined nested path => Rule.inScope_of_nested confined nested

/-- Directories with slashes at their ends, and a path with an empty segment. -/
theorem isUnder_by_segments_assets :
    isUnder "src/assets//a.png" "src/assets/" = true ∧ isUnder "src/assets/" "src//" = true ∧
      isUnder "src/assets//a.png" "src//" = true ∧
      ∃ inner outer : Rule, inner.scope = ["src/assets/"] ∧ outer.scope = ["lib", "src//"] ∧
        (∀ dir ∈ inner.scope, outer.inScope dir = true) ∧
        inner.inScope "src/assets//a.png" = true ∧ outer.inScope "src/assets//a.png" = true := by
  have inside : isUnder "src/assets//a.png" "src/assets/" = true := by decide
  have nested : isUnder "src/assets/" "src//" = true := by decide
  let inner : Rule := { matcher := .contains "", scope := ["src/assets/"] }
  let outer : Rule := { matcher := .contains "", scope := ["lib", "src//"] }
  have within : ∀ dir ∈ inner.scope, outer.inScope dir = true := by decide
  have admitted : inner.inScope "src/assets//a.png" = true := by decide
  obtain ⟨_, _, trans, scopes⟩ := isUnder_by_segments
  exact ⟨inside, nested, trans _ _ _ inside nested, inner, outer, rfl, rfl, within, admitted,
    scopes inner outer (List.cons_ne_nil _ _) within _ admitted⟩

end AssetPlan
