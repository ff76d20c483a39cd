import TabularShapes.Log.Traced

/-! Computations on a state that report events while they run and may fail. What was done to the state
before a failure stays done. -/

namespace TabularShapes

open Log (Event)

structure Stateful (σ ε α : Type) where
  /-- From the state that is found to the state that is left, with the events and the result. -/
  run : σ → σ × Traced ε α

namespace Stateful

variable {σ ε ε' α β : Type}

/-- A run that leaves the state alone. -/
def of (x : Traced ε α) : Stateful σ ε α := ⟨fun s => (s, x)⟩

def fail (e : ε) : Stateful σ ε α := of (.of (.error e))

def report (e : Event) : Stateful σ ε Unit := of (.report e)

/-- Goes on from the state and with the value that the first run leaves, unless it failed. -/
def andThen (x : Stateful σ ε α) (f : α → Stateful σ ε β) : Stateful σ ε β := ⟨fun s =>
  let (s₁, y) := x.run s
  match y.result with
  | .ok a => let (s₂, z) := (f a).run s₁; (s₂, ⟨y.events ++ z.events, z.result⟩)
  | .error e => (s₁, ⟨y.events, .error e⟩)⟩

instance : Monad (Stateful σ ε) where
  pure a := of (pure a)
  bind := andThen

instance : MonadLift (Traced ε) (Stateful σ ε) := ⟨of⟩

instance : MonadStateOf σ (Stateful σ ε) where
  get := ⟨fun s => (s, pure s)⟩
  set s := ⟨fun _ => (s, pure ())⟩
  modifyGet f := ⟨fun s => ((f s).2, pure (f s).1)⟩

def mapError (f : ε → ε') (x : Stateful σ ε α) : Stateful σ ε' α := ⟨fun s =>
  ((x.run s).1, (x.run s).2.mapError f)⟩

variable {s : σ} {x : Stateful σ ε α} {f : α → Stateful σ ε β}

@[simp] theorem run_modify (f : σ → σ) (s : σ) :
    (modify f : Stateful σ ε PUnit).run s = (f s, pure ()) := rfl

theorem liftM_except (r : Except ε α) :
    (liftM r : Stateful σ ε α) = liftM (Traced.of r) := rfl

@[simp] theorem run_mapError (f : ε → ε') (x : Stateful σ ε α) (s : σ) :
    (x.mapError f).run s = ((x.run s).1, (x.run s).2.mapError f) := rfl

theorem run_bind_of_ok {a : α} (h : (x.run s).2.result = .ok a) : (x >>= f).run s =
    (((f a).run (x.run s).1).1, ⟨(x.run s).2.events ++ ((f a).run (x.run s).1).2.events,
      ((f a).run (x.run s).1).2.result⟩) := by
  show (andThen x f).run s = _
  simp only [andThen, h]

theorem run_bind_of_error {e : ε} (h : (x.run s).2.result = .error e) :
    (x >>= f).run s = ((x.run s).1, ⟨(x.run s).2.events, .error e⟩) := by
  show (andThen x f).run s = _
  simp only [andThen, h]

theorem run_lift_bind_of_ok {x : Traced ε α} {a : α} (h : x.result = .ok a) :
    ((liftM x : Stateful σ ε α) >>= f).run s = (((f a).run s).1,
      ⟨x.events ++ ((f a).run s).2.events, ((f a).run s).2.result⟩) :=
  run_bind_of_ok h

theorem run_lift_bind_of_error {x : Traced ε α} {e : ε} (h : x.result = .error e) :
    ((liftM x : Stateful σ ε α) >>= f).run s = (s, ⟨x.events, .error e⟩) :=
  run_bind_of_error h

/-- Events and results are composed as without a state. -/
@[simp] theorem snd_run_bind (x : Stateful σ ε α) (f : α → Stateful σ ε β) (s : σ) :
    ((x >>= f).run s).2 = (x.run s).2 >>= fun a => ((f a).run (x.run s).1).2 := by
  cases h : (x.run s).2.result with
  | ok a => rw [run_bind_of_ok h, Traced.bind_of_ok h]
  | error e => rw [run_bind_of_error h, Traced.bind_of_error h]

end Stateful

end TabularShapes
