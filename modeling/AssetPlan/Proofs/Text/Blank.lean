import AssetPlan.Text.Blank
import Mathlib.Data.List.DropRight

/-! # Trimmed texts

Trimming leaves nothing of a text exactly if the text is blank. Where one character is cut off the
end, as often as it stands there, putting it back that often gives the text again.
-/

namespace AssetPlan.Text

variable {cs : List Char} {s : String}

theorem trim_eq_nil_iff : trim cs = [] ↔ ∀ c ∈ cs, isBlank c := by
  have trailing : trim cs = (cs.dropWhile isBlank).rdropWhile isBlank := rfl
  rw [trailing, List.rdropWhile_eq_nil_iff]
  constructor
  · intro dropped c member
    rw [← List.takeWhile_append_dropWhile (p := isBlank) (l := cs), List.mem_append] at member
    rcases member with front | back
    · exact List.mem_takeWhile_imp front
    · exact dropped c back
  · intro blank c member
    exact blank c ((List.dropWhile_sublist isBlank).subset member)

theorem isBlankText_iff : isBlankText s ↔ trim s.toList = [] := by
  rw [isBlankText, List.all_eq_true, trim_eq_nil_iff]

theorem dropTrailing_prefix_self (p : Char → Bool) (cs : List Char) : dropTrailing p cs <+: cs :=
  List.rdropWhile_prefix p cs

theorem dropTrailing_append_replicate (c : Char) (cs : List Char) :
    dropTrailing (· == c) cs ++
      List.replicate (cs.length - (dropTrailing (· == c) cs).length) c = cs := by
  have parts : dropTrailing (· == c) cs ++ cs.rtakeWhile (· == c) = cs :=
    List.rdropWhile_append_rtakeWhile
  have same : ∀ d ∈ cs.rtakeWhile (· == c), d = c := by
    intro d member
    have holds := List.mem_rtakeWhile_imp (p := fun d => d == c) member
    exact beq_iff_eq.mp holds
  have count : cs.length - (dropTrailing (· == c) cs).length =
      (cs.rtakeWhile (· == c)).length := by
    have long := congrArg List.length parts
    rw [List.length_append] at long
    omega
  rw [count, ← List.eq_replicate_of_mem same, parts]

end AssetPlan.Text
