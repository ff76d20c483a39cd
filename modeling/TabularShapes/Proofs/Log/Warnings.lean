import TabularShapes.Log.Filter
import TabularShapes.Log.Traced

/-! The warnings among the events of a run. Those of a run in two parts are those of the first and
then, unless it failed, those of the second. A run is quiet if it warns of nothing, however it
ends. -/

namespace TabularShapes

namespace Log

def Event.warns (e : Event) : Bool := e.level == .warn

/-- No event matters more than a warning, so that the filter for warnings shows nothing else. -/
theorem Filter.shows_warnings (e : Event) : Filter.warnings.shows e = e.warns := by
  have hfits : ({ rank := Level.warn.rank } : Directive).fits e = true := rfl
  have hshows : Filter.warnings.shows e = decide (e.level.rank ≤ Level.warn.rank) := by
    simp [Filter.shows, Filter.decisive?, Filter.warnings, hfits]
  rw [hshows]
  cases e <;> rfl

end Log

namespace Traced

open Log (Event)

variable {ε ε' α β : Type}

def warnings (x : Traced ε α) : List Event := x.events.filter Event.warns

def Quiet (x : Traced ε α) : Prop := x.warnings = []

@[simp] theorem warnings_of (r : Except ε α) : (of r).warnings = [] := rfl

@[simp] theorem warnings_pure (a : α) : (pure a : Traced ε α).warnings = [] := rfl

@[simp] theorem warnings_mapError (f : ε → ε') (x : Traced ε α) :
    (x.mapError f).warnings = x.warnings := rfl

theorem warnings_report (e : Event) :
    (report e : Traced ε Unit).warnings = if e.warns then [e] else [] := by
  simp [warnings, List.filter_cons]

section Bind

variable {x : Traced ε α} {f : α → Traced ε β}

theorem warnings_bind_of_ok {a : α} (h : x.result = .ok a) :
    (x >>= f).warnings = x.warnings ++ (f a).warnings := by
  rw [bind_of_ok h, warnings, List.filter_append]
  rfl

theorem warnings_bind_of_error {e : ε} (h : x.result = .error e) :
    (x >>= f).warnings = x.warnings := by
  rw [bind_of_error h]
  rfl

/-- What follows a run without warnings of its own keeps those of the run. -/
theorem warnings_bind_of_quiet (hf : ∀ a, (f a).Quiet) : (x >>= f).warnings = x.warnings := by
  cases h : x.result with
  | ok a => rw [warnings_bind_of_ok h, hf a, List.append_nil]
  | error e => exact warnings_bind_of_error h

theorem Quiet.bind (hx : x.Quiet) (hf : ∀ a, (f a).Quiet) : (x >>= f).Quiet :=
  (warnings_bind_of_quiet hf).trans hx

end Bind

theorem Quiet.of (r : Except ε α) : (Traced.of r).Quiet := rfl

theorem Quiet.pure (a : α) : (Pure.pure a : Traced ε α).Quiet := rfl

theorem Quiet.mapError {x : Traced ε α} (hx : x.Quiet) (f : ε → ε') : (x.mapError f).Quiet := hx

theorem Quiet.report {e : Event} (h : e.warns = false) : (Traced.report e : Traced ε Unit).Quiet := by
  simp [Quiet, warnings_report, h]

end Traced

end TabularShapes
