import Mathlib.Logic.Basic

/-! # Taking successful computations apart

When a computation that may fail succeeds, each of its steps has succeeded. These are the
inversion lemmas for `Except` beside those that the library has for `Option`.
-/

namespace Except

variable {ε ε' α β γ : Type}

theorem ok_bind (a : α) (f : α → Except ε β) : (.ok a : Except ε α) >>= f = f a := rfl

theorem exists_error_iff {x : Except ε α} : (∃ e, x = .error e) ↔ ¬ ∃ a, x = .ok a := by
  cases x <;> simp

theorem mapError_bind (x : Except ε α) (f : α → Except ε β) (g : ε → ε') :
    (x >>= f).mapError g = x.mapError g >>= fun a => (f a).mapError g := by
  cases x <;> rfl

theorem map_bind (x : Except ε α) (f : α → Except ε β) (g : β → γ) :
    (x >>= f).map g = x >>= fun a => (f a).map g := by
  cases x <;> rfl

theorem bind_eq_ok_iff {x : Except ε α} {f : α → Except ε β} {b : β} :
    x >>= f = .ok b ↔ ∃ a, x = .ok a ∧ f a = .ok b := by
  cases x with
  | error e =>
    constructor
    · intro success
      cases success
    · rintro ⟨a, success, _⟩
      cases success
  | ok a =>
    constructor
    · exact fun success => ⟨a, rfl, success⟩
    · rintro ⟨a, same, success⟩
      cases same
      exact success

theorem bind_eq_error_iff {x : Except ε α} {f : α → Except ε β} {e : ε} :
    x >>= f = .error e ↔ x = .error e ∨ ∃ a, x = .ok a ∧ f a = .error e := by
  cases x with
  | error e' =>
    constructor
    · intro failure
      cases failure
      exact .inl rfl
    · rintro (same | ⟨a, success, _⟩)
      · cases same
        rfl
      · cases success
  | ok a =>
    constructor
    · exact fun failure => .inr ⟨a, rfl, failure⟩
    · rintro (same | ⟨b, same, failure⟩)
      · cases same
      · cases same
        exact failure

theorem toOption_eq_some_iff {x : Except ε α} {a : α} : x.toOption = some a ↔ x = .ok a := by
  cases x <;> simp [Except.toOption]

theorem map_eq_ok_iff {x : Except ε α} {f : α → β} {b : β} :
    x.map f = .ok b ↔ ∃ a, x = .ok a ∧ f a = b := by
  cases x <;> simp [Except.map]

theorem mapError_ok (a : α) (f : ε → ε') : (.ok a : Except ε α).mapError f = .ok a := rfl

theorem mapError_error (e : ε) (f : ε → ε') : (.error e : Except ε α).mapError f = .error (f e) :=
  rfl

theorem mapError_eq_ok_iff {x : Except ε α} {f : ε → ε'} {a : α} :
    x.mapError f = .ok a ↔ x = .ok a := by
  cases x <;> simp [mapError_ok, mapError_error]

theorem mapError_eq_error_iff {x : Except ε α} {f : ε → ε'} {e' : ε'} :
    x.mapError f = .error e' ↔ ∃ e, x = .error e ∧ f e = e' := by
  cases x <;> simp [mapError_ok, mapError_error]

variable {f : α → Except ε β}

theorem mapM_cons_eq_ok_iff {a : α} {rest : List α} {bs : List β} :
    (a :: rest).mapM f = .ok bs ↔
      ∃ b later, f a = .ok b ∧ rest.mapM f = .ok later ∧ bs = b :: later := by
  rw [List.mapM_cons, bind_eq_ok_iff]
  constructor
  · rintro ⟨b, first, success⟩
    obtain ⟨later, others, same⟩ := bind_eq_ok_iff.mp success
    cases same
    exact ⟨b, later, first, others, rfl⟩
  · rintro ⟨b, later, first, others, rfl⟩
    exact ⟨b, first, bind_eq_ok_iff.mpr ⟨later, others, rfl⟩⟩

/-- Each input has given one of the results, and each result comes from one of the inputs. -/
theorem forall_mem_of_mapM {as : List α} {bs : List β} (success : as.mapM f = .ok bs) :
    (∀ a ∈ as, ∃ b ∈ bs, f a = .ok b) ∧ ∀ b ∈ bs, ∃ a ∈ as, f a = .ok b := by
  induction as generalizing bs with
  | nil =>
    cases success
    exact ⟨List.forall_mem_nil _, List.forall_mem_nil _⟩
  | cons a rest ih =>
    obtain ⟨b, later, first, others, rfl⟩ := mapM_cons_eq_ok_iff.mp success
    obtain ⟨given, source⟩ := ih others
    constructor
    · refine List.forall_mem_cons.mpr ⟨⟨b, List.mem_cons_self, first⟩, fun x member => ?_⟩
      obtain ⟨y, result, same⟩ := given x member
      exact ⟨y, List.mem_cons_of_mem _ result, same⟩
    · refine List.forall_mem_cons.mpr ⟨⟨a, List.mem_cons_self, first⟩, fun y result => ?_⟩
      obtain ⟨x, member, same⟩ := source y result
      exact ⟨x, List.mem_cons_of_mem _ member, same⟩

end Except
