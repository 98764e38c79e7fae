import AssetPlan.Output.Template
import AssetPlan.Proofs.Text.Split
import Mathlib.Data.List.Induction
import Mathlib.Data.Nat.Digits.Defs

/-! # The tokens that stand for something

A token is known if it is one of three names, or a name of the digest, alone or with a number of
digits behind a colon. The number is a decimal numeral, read by place values; a plus sign may stand
before it, and it may have any number of leading zeros.
-/

namespace AssetPlan.Placeholder

open Text

/-- The number that decimal digits spell, the last of them counting the ones. -/
def decimalValue (digits : List Char) : Nat :=
  Nat.ofDigits 10 (digits.reverse.map fun c => c.toNat - '0'.toNat)

/-- The text is a decimal number below `2 ^ 64`, perhaps behind a plus sign, and `n` its value. -/
def SpellsNumber (cs : List Char) (n : Nat) : Prop :=
  ∃ digits, (cs = digits ∨ cs = '+' :: digits) ∧ digits ≠ [] ∧ (∀ c ∈ digits, c.isDigit = true) ∧
    decimalValue digits = n ∧ n < Nat.pow 2 64

/-- The name of the digest in a token. -/
def IsDigestName (key : List Char) : Prop := key = "hash".toList ∨ key = "contenthash".toList

/-- The token stands for the placeholder. -/
inductive Spells : List Char → Placeholder → Prop
  | name : Spells "name".toList .name
  | ext : Spells "ext".toList .ext
  | query : Spells "query".toList .query
  | digest {key : List Char} (named : IsDigestName key) : Spells key (.hash 20)
  | digits {key number : List Char} {n : Nat} (named : IsDigestName key)
    (spelled : SpellsNumber number n) : Spells (key ++ ':' :: number) (.hash n)

variable {cs digits key token : List Char} {n : Nat} {p : Placeholder}

/-- Reading digits from the left, each shifts those before it by one place. -/
theorem foldl_digits_eq (digits : List Char) :
    digits.foldl (fun n c => n * 10 + (c.toNat - 48)) 0 = decimalValue digits := by
  induction digits using List.reverseRecOn with
  | nil => rfl
  | append_singleton front c ih =>
    rw [List.foldl_append, ih, List.foldl_cons, List.foldl_nil, decimalValue, decimalValue,
      List.reverse_append, List.reverse_singleton, List.singleton_append, List.map_cons,
      Nat.ofDigits_cons]
    have zero : '0'.toNat = 48 := rfl
    omega

/-- Digits are a number if there are any, and the number is not too large. -/
theorem judged_eq_some_iff (digits : List Char) :
    (if digits.isEmpty || digits.any (!·.isDigit) then none
      else if decimalValue digits < Nat.pow 2 64 then some (decimalValue digits) else none) =
        some n ↔
      digits ≠ [] ∧ (∀ c ∈ digits, c.isDigit = true) ∧ decimalValue digits = n ∧
        n < Nat.pow 2 64 := by
  rw [Option.ite_none_left_eq_some, Option.ite_none_right_eq_some, Option.some_inj]
  simp only [Bool.or_eq_true, List.isEmpty_iff, List.any_eq_true, Bool.not_eq_true', not_or,
    not_exists, not_and, Bool.not_eq_false, and_assoc]
  constructor
  · rintro ⟨nonempty, decimal, small, rfl⟩
    exact ⟨nonempty, decimal, rfl, small⟩
  · rintro ⟨nonempty, decimal, rfl, small⟩
    exact ⟨nonempty, decimal, small, rfl⟩

theorem number?_eq_some_iff : number? cs = some n ↔ SpellsNumber cs n := by
  have plus : '+'.isDigit = false := by decide
  by_cases signed : ∃ rest, cs = '+' :: rest
  · obtain ⟨rest, rfl⟩ := signed
    rw [number?]
    simp only [foldl_digits_eq]
    rw [judged_eq_some_iff]
    constructor
    · exact fun judged => ⟨rest, .inr rfl, judged⟩
    · rintro ⟨digits, rfl | same, nonempty, decimal, value⟩
      · cases plus.symm.trans (decimal '+' List.mem_cons_self)
      · cases same
        exact ⟨nonempty, decimal, value⟩
  · have unsigned : ∀ rest, cs = '+' :: rest → False := fun rest same => signed ⟨rest, same⟩
    simp only [number?, foldl_digits_eq]
    rw [judged_eq_some_iff]
    constructor
    · exact fun judged => ⟨cs, .inl rfl, judged⟩
    · rintro ⟨digits, rfl | rfl, judged⟩
      · exact judged
      · exact (unsigned digits rfl).elim

theorem isHashKey_iff : isHashKey key = true ↔ IsDigestName key := by
  simp [isHashKey, IsDigestName]

theorem colon_not_mem (named : IsDigestName key) : ':' ∉ key := by
  rcases named with rfl | rfl <;> decide

/-- A token is known exactly if it is spelled as one of the placeholders. -/
theorem ofToken?_eq_some_iff : ofToken? token = some p ↔ Spells token p := by
  constructor
  · intro known
    rw [ofToken?] at known
    split at known
    next key number divided =>
      rw [Option.ite_none_right_eq_some, isHashKey_iff] at known
      obtain ⟨named, spelled⟩ := known
      obtain ⟨n, read, rfl⟩ := Option.map_eq_some_iff.mp spelled
      rw [← splitOnce_append divided]
      exact .digits named (number?_eq_some_iff.mp read)
    next =>
      split_ifs at known with isName isExt isQuery isKey
      · cases known
        exact beq_iff_eq.mp isName ▸ .name
      · cases known
        exact beq_iff_eq.mp isExt ▸ .ext
      · cases known
        exact beq_iff_eq.mp isQuery ▸ .query
      · cases known
        exact .digest (isHashKey_iff.mp isKey)
  · intro spells
    cases spells with
    | name => rfl
    | ext => rfl
    | query => rfl
    | digest named => rcases named with rfl | rfl <;> rfl
    | digits named spelled =>
      rw [ofToken?, splitOnce_of_not_mem (colon_not_mem named)]
      simp only [isHashKey_iff.mpr named, if_true, number?_eq_some_iff.mpr spelled,
        Option.map_some]

end AssetPlan.Placeholder
