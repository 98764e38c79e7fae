import AssetPlan.Journal.Event

/-! # Computations that report events

A logged computation carries the events reported so far beside its result, also when it fails. The
result of a sequence is the sequence of the results: reporting never changes what is computed.
-/

namespace AssetPlan

/-- A result or an error with the events that led to it. -/
structure Logged (ε α : Type) where
  events : List Event
  result : Except ε α

namespace Logged

variable {ε α β : Type}

def pure (a : α) : Logged ε α := ⟨[], .ok a⟩

/-- Goes on with the result; an error ends the sequence. -/
def bind (x : Logged ε α) (f : α → Logged ε β) : Logged ε β :=
  match x.result with
  | .error e => ⟨x.events, .error e⟩
  | .ok a => ⟨x.events ++ (f a).events, (f a).result⟩

instance : Monad (Logged ε) where
  pure := Logged.pure
  bind := Logged.bind

/-- A computation without events. -/
def ofExcept (result : Except ε α) : Logged ε α := ⟨[], result⟩

/-- Reports one event. -/
def report (e : Event) : Logged ε Unit := ⟨[e], .ok ()⟩

/-- Reports several events. -/
def reportAll (es : List Event) : Logged ε Unit := ⟨es, .ok ()⟩

@[simp] theorem result_pure (a : α) : (Pure.pure a : Logged ε α).result = .ok a := rfl

@[simp] theorem result_bind (x : Logged ε α) (f : α → Logged ε β) :
    (x >>= f).result = x.result >>= fun a => (f a).result := by
  change (Logged.bind x f).result = _
  unfold Logged.bind
  cases x.result <;> rfl

@[simp] theorem result_ofExcept (r : Except ε α) : (ofExcept r).result = r := rfl

@[simp] theorem result_report (e : Event) : (report e : Logged ε Unit).result = .ok () := rfl

@[simp] theorem result_reportAll (es : List Event) :
    (reportAll es : Logged ε Unit).result = .ok () := rfl

end Logged

end AssetPlan
