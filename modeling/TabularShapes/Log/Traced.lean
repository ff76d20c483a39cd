import TabularShapes.Log.Event

/-! Computations that report events while they run and may fail. Events that were reported before a
failure stay reported. -/

namespace TabularShapes

open Log (Event)

/-- The events of a run, in order, and its result. -/
structure Traced (ε α : Type) where
  events : List Event
  result : Except ε α

namespace Traced

variable {ε ε' α β : Type}

def of (result : Except ε α) : Traced ε α := ⟨[], result⟩

def report (e : Event) : Traced ε Unit := ⟨[e], .ok ()⟩

/-- Goes on with the value of the first run, unless it failed. -/
def andThen (x : Traced ε α) (f : α → Traced ε β) : Traced ε β :=
  match x.result with
  | .ok a => let y := f a; ⟨x.events ++ y.events, y.result⟩
  | .error e => ⟨x.events, .error e⟩

instance : Monad (Traced ε) where
  pure a := of (.ok a)
  bind := andThen

instance : MonadLift (Except ε) (Traced ε) := ⟨of⟩

def mapError (f : ε → ε') (x : Traced ε α) : Traced ε' α := ⟨x.events, x.result.mapError f⟩

@[simp] theorem events_pure (a : α) : (pure a : Traced ε α).events = [] := rfl

@[simp] theorem result_pure (a : α) : (pure a : Traced ε α).result = .ok a := rfl

@[simp] theorem events_report (e : Event) : (report e : Traced ε Unit).events = [e] := rfl

@[simp] theorem result_report (e : Event) : (report e : Traced ε Unit).result = .ok () := rfl

@[simp] theorem events_of (r : Except ε α) : (of r).events = [] := rfl

@[simp] theorem result_of (r : Except ε α) : (of r).result = r := rfl

@[simp] theorem liftM_eq_of (r : Except ε α) : (liftM r : Traced ε α) = of r := rfl

@[simp] theorem events_mapError (f : ε → ε') (x : Traced ε α) :
    (x.mapError f).events = x.events := rfl

@[simp] theorem result_mapError (f : ε → ε') (x : Traced ε α) :
    (x.mapError f).result = x.result.mapError f := rfl

theorem bind_of_ok {x : Traced ε α} {a : α} (h : x.result = .ok a) (f : α → Traced ε β) :
    x >>= f = ⟨x.events ++ (f a).events, (f a).result⟩ := by
  show andThen x f = _
  simp [andThen, h]

theorem bind_of_error {x : Traced ε α} {e : ε} (h : x.result = .error e) (f : α → Traced ε β) :
    x >>= f = ⟨x.events, .error e⟩ := by
  show andThen x f = _
  simp [andThen, h]

@[simp] theorem result_bind (x : Traced ε α) (f : α → Traced ε β) :
    (x >>= f).result = x.result >>= fun a => (f a).result := by
  cases h : x.result with
  | ok a => rw [bind_of_ok h]; rfl
  | error e => rw [bind_of_error h]; rfl

end Traced

end TabularShapes
