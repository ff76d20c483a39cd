import TabularShapes.Proofs.Outcome
import TabularShapes.Session

/-! What a session holds after any run of operations. It is read off the readings, the compilations
and the resets of the run alone: the profile comes from the last reading that succeeded, unless a
reset followed, and the schema from the last compilation of that profile that succeeded. -/

namespace TabularShapes.Session

open Table (Dialect Source)

inductive Operation
  | withDialect (d : Dialect)
  | withCompiler (c : Compiler)
  | readText (text : String)
  | read (source : Source)
  | compile
  | write (layout : Layout)
  | convert (text : String) (layout : Layout)
  | reset

def textSource (text : String) : Source := { bytes := Text.utf8 text }

/-- The session after an operation, which may have failed. -/
def after (s : Session) : Operation → Session
  | .withDialect dialect => { s with dialect }
  | .withCompiler compiler => { s with compiler }
  | .readText text => (s.read (textSource text)).1
  | .read source => (s.read source).1
  | .compile => s.compile.1
  | .write _ => s
  | .convert text layout => (s.convert (textSource text) layout).1
  | .reset => s.reset

def run (ops : List Operation) : Session := ops.foldl after {}

/-- What decides about profile and schema, with the setting in force at the time. -/
inductive Deed
  | read (d : Dialect) (source : Source)
  | compile (c : Compiler)
  | reset

/-- How tables are read and profiles are compiled at some point of a run. -/
structure Settings where
  dialect : Dialect := {}
  compiler : Compiler := .default

def Settings.after (p : Settings) : Operation → Settings
  | .withDialect dialect => { p with dialect }
  | .withCompiler compiler => { p with compiler }
  | _ => p

/-- A conversion is a reading, and a compilation if the reading succeeds. -/
def Settings.deeds (p : Settings) : Operation → List Deed
  | .readText text => [.read p.dialect (textSource text)]
  | .read source => [.read p.dialect source]
  | .compile => [.compile p.compiler]
  | .convert text _ =>
    .read p.dialect (textSource text) ::
      match (shapesOf p.dialect (textSource text)).result with
      | .ok _ => [.compile p.compiler]
      | .error _ => []
  | .reset => [.reset]
  | .withDialect _ | .withCompiler _ | .write _ => []

def history (p : Settings) : List Operation → List Deed
  | [] => []
  | op :: ops => p.deeds op ++ history (p.after op) ops

namespace Deed

/-- The deed is a reading that succeeds, and these are the shapes that its rows make. -/
def Yields (shapes : List Profile.Shape) : Deed → Prop
  | read d source => ∃ rows, (Profile.read d source).result = .ok rows ∧
      Profile.groupRows rows = .ok shapes
  | _ => False

/-- After the deed nothing is left of the profile before: it is a reading that succeeds or a reset. -/
def Renews : Deed → Prop
  | read d source => ∃ shapes, Yields shapes (read d source)
  | compile _ => False
  | reset => True

/-- The deed is a compilation that succeeds on the shapes with this result. -/
def Compiles (shapes : List Profile.Shape) (r : Schema × List Warning) : Deed → Prop
  | compile c => (c.compile shapes).result = .ok r
  | _ => False

end Deed

/-- The last deed with the property is `x`, and `since` are those after it. -/
def LastOf (P : Deed → Prop) (h : List Deed) (x : Deed) (since : List Deed) : Prop :=
  (∃ before, h = before ++ x :: since) ∧ P x ∧ ∀ y ∈ since, ¬ P y

def LastReading (h : List Deed) (shapes : List Profile.Shape) (since : List Deed) : Prop :=
  ∃ x, LastOf Deed.Renews h x since ∧ x.Yields shapes

/-- The last compilation that succeeds on the shapes has this result. -/
def LastCompilation (h : List Deed) (shapes : List Profile.Shape) (r : Schema × List Warning) :
    Prop :=
  ∃ x since, LastOf (fun x => ∃ r, x.Compiles shapes r) h x since ∧ x.Compiles shapes r

variable {s : Session} {h since : List Deed} {x y : Deed} {P : Deed → Prop}
  {shapes : List Profile.Shape} {r : Schema × List Warning} {d : Dialect} {c : Compiler}
  {source : Source} {layout : Layout}

theorem not_lastOf_nil : ¬ LastOf P [] x since := by
  rintro ⟨⟨before, h⟩, -⟩
  simp at h

theorem lastOf_concat_iff : LastOf P (h ++ [y]) x since ↔
    (P y ∧ x = y ∧ since = []) ∨ ¬ P y ∧ ∃ since', since = since' ++ [y] ∧ LastOf P h x since' := by
  constructor
  · rintro ⟨⟨before, he⟩, hx, hs⟩
    rcases List.eq_nil_or_concat since with rfl | ⟨since', z, rfl⟩
    · left
      obtain ⟨-, rfl⟩ : h = before ∧ y = x := by simpa using List.append_inj' he rfl
      exact ⟨hx, rfl, rfl⟩
    · right
      rw [List.concat_eq_append, ← List.cons_append, ← List.append_assoc] at he
      rw [List.concat_eq_append] at hs ⊢
      obtain ⟨rfl, rfl⟩ : h = before ++ x :: since' ∧ y = z := by
        simpa using List.append_inj' he rfl
      exact ⟨hs y (by simp), since', rfl, ⟨before, rfl⟩, hx, fun z hz => hs z (by simp [hz])⟩
  · rintro (⟨hy, rfl, rfl⟩ | ⟨hy, since', rfl, ⟨before, rfl⟩, hx, hs⟩)
    · exact ⟨⟨h, rfl⟩, hy, by simp⟩
    · refine ⟨⟨before, by simp⟩, hx, fun z hz => ?_⟩
      rcases List.mem_append.1 hz with hz | hz
      · exact hs z hz
      · rw [List.mem_singleton.1 hz]
        exact hy

theorem lastReading_concat_iff : LastReading (h ++ [y]) shapes since ↔
    (y.Yields shapes ∧ since = []) ∨
      ¬ y.Renews ∧ ∃ since', since = since' ++ [y] ∧ LastReading h shapes since' := by
  simp only [LastReading, lastOf_concat_iff]
  constructor
  · rintro ⟨x, ⟨-, rfl, rfl⟩ | ⟨hy, since', rfl, hl⟩, hx⟩
    · exact .inl ⟨hx, rfl⟩
    · exact .inr ⟨hy, since', rfl, x, hl, hx⟩
  · rintro (⟨hy, rfl⟩ | ⟨hy, since', rfl, x, hl, hx⟩)
    · have hr : y.Renews := by
        cases y with
        | read d source => exact ⟨shapes, hy⟩
        | compile c => exact hy.elim
        | reset => trivial
      exact ⟨y, .inl ⟨hr, rfl, rfl⟩, hy⟩
    · exact ⟨x, .inr ⟨hy, since', rfl, hl⟩, hx⟩

theorem lastReading_concat_iff_of_not (hy : ¬ y.Renews) : LastReading (h ++ [y]) shapes since ↔
    ∃ since', since = since' ++ [y] ∧ LastReading h shapes since' := by
  simp only [LastReading, lastOf_concat_iff, hy, false_and, false_or, not_false_eq_true, true_and]
  constructor
  · rintro ⟨x, ⟨since', rfl, hl⟩, hx⟩
    exact ⟨since', rfl, x, hl, hx⟩
  · rintro ⟨since', rfl, x, hl, hx⟩
    exact ⟨x, ⟨since', rfl, hl⟩, hx⟩

theorem lastCompilation_concat_iff : LastCompilation (h ++ [y]) shapes r ↔
    y.Compiles shapes r ∨ (∀ r, ¬ y.Compiles shapes r) ∧ LastCompilation h shapes r := by
  simp only [LastCompilation, lastOf_concat_iff, not_exists]
  constructor
  · rintro ⟨x, since, ⟨-, rfl, -⟩ | ⟨hy, since', -, hl⟩, hx⟩
    · exact .inl hx
    · exact .inr ⟨hy, x, since', hl, hx⟩
  · rintro (hy | ⟨hy, x, since, hl, hx⟩)
    · exact ⟨y, [], .inl ⟨⟨r, hy⟩, rfl, rfl⟩, hy⟩
    · exact ⟨x, _, .inr ⟨hy, since, rfl, hl⟩, hx⟩

theorem shapesOf_eq_ok_iff :
    (shapesOf d source).result = .ok shapes ↔ (Deed.read d source).Yields shapes := by
  simp only [shapesOf, Traced.result_bind, Traced.result_mapError, bind_eq_ok_iff,
    mapError_eq_ok_iff, Deed.Yields]
  refine exists_congr fun rows => and_congr_right fun _ => ?_
  simp [Profile.group, bind_eq_ok_iff]

/-! ### One step -/

theorem read_of_ok (h : (shapesOf s.dialect source).result = .ok shapes) :
    s.read source = ({ s with profile := some shapes, compiled := none },
      ⟨(shapesOf s.dialect source).events ++ [.profileLoaded shapes.length], .ok ()⟩) := by
  unfold Session.read
  rw [Stateful.run_lift_bind_of_ok h]
  rfl

theorem read_of_error {e : SessionError} (h : (shapesOf s.dialect source).result = .error e) :
    s.read source = (s, ⟨(shapesOf s.dialect source).events, .error e⟩) := by
  unfold Session.read
  rw [Stateful.run_lift_bind_of_error h]

theorem compile_of_none (h : s.profile = none) :
    s.compile = (s, .of (.error (.notReady .compile))) := by
  unfold Session.compile
  rw [h]
  rfl

theorem compile_of_ok (hp : s.profile = some shapes)
    (hr : (s.compiler.compile shapes).result = .ok r) : s.compile =
      ({ s with compiled := some r }, ⟨(s.compiler.compile shapes).events, .ok ()⟩) := by
  have h : ((s.compiler.compile shapes).mapError SessionError.compile).result = .ok r :=
    mapError_eq_ok_iff.2 hr
  unfold Session.compile
  simp only [hp]
  rw [Stateful.run_lift_bind_of_ok h]
  simp [hp]

theorem compile_of_error {e : CompileError} (hp : s.profile = some shapes)
    (hr : (s.compiler.compile shapes).result = .error e) :
    s.compile = (s, ⟨(s.compiler.compile shapes).events, .error (.compile e)⟩) := by
  have h : ((s.compiler.compile shapes).mapError SessionError.compile).result =
      .error (.compile e) := mapError_eq_error_iff.2 ⟨e, hr, rfl⟩
  unfold Session.compile
  simp only [hp]
  rw [Stateful.run_lift_bind_of_error h]
  rfl

theorem read_compile_of_ok (h : (shapesOf s.dialect source).result = .ok shapes)
    (hr : (s.compiler.compile shapes).result = .ok r) : (s.read source).1.compile =
      ({ s with profile := some shapes, compiled := some r },
        ⟨(s.compiler.compile shapes).events, .ok ()⟩) := by
  rw [read_of_ok h]
  exact compile_of_ok (s := { s with profile := some shapes, compiled := none }) rfl hr

theorem read_compile_of_error {e : CompileError} (h : (shapesOf s.dialect source).result = .ok shapes)
    (hr : (s.compiler.compile shapes).result = .error e) : (s.read source).1.compile =
      ({ s with profile := some shapes, compiled := none },
        ⟨(s.compiler.compile shapes).events, .error (.compile e)⟩) := by
  rw [read_of_ok h]
  exact compile_of_error (s := { s with profile := some shapes, compiled := none }) rfl hr

/-- The session holds what the deeds so far amount to. -/
structure Reflects (s : Session) (h : List Deed) : Prop where
  profile : ∀ shapes, s.profile = some shapes ↔ ∃ since, LastReading h shapes since
  compiled : ∀ r, s.compiled = some r ↔
    ∃ shapes since, LastReading h shapes since ∧ LastCompilation since shapes r

theorem not_lastReading_nil : ¬ LastReading [] shapes since := by
  rintro ⟨x, hl, -⟩
  exact not_lastOf_nil hl

theorem not_lastCompilation_nil : ¬ LastCompilation [] shapes r := by
  rintro ⟨x, since, hl, -⟩
  exact not_lastOf_nil hl

theorem Reflects.initial : Reflects {} [] :=
  ⟨fun shapes => by simp [not_lastReading_nil], fun r => by simp [not_lastReading_nil]⟩

/-- A deed that neither renews nor compiles what is held leaves the session as it is. -/
theorem Reflects.keep (hs : Reflects s h) (hy : ¬ y.Renews)
    (hc : ∀ shapes, s.profile = some shapes → ∀ r, ¬ y.Compiles shapes r) :
    Reflects s (h ++ [y]) := by
  refine ⟨fun shapes => ?_, fun r => ?_⟩
  · rw [hs.profile]
    simp [lastReading_concat_iff_of_not hy]
  · rw [hs.compiled]
    constructor
    · rintro ⟨shapes, since, hl, hr⟩
      have hp := (hs.profile shapes).2 ⟨since, hl⟩
      exact ⟨shapes, _, (lastReading_concat_iff_of_not hy).2 ⟨since, rfl, hl⟩,
        lastCompilation_concat_iff.2 (.inr ⟨hc shapes hp, hr⟩)⟩
    · rintro ⟨shapes, _, hl, hr⟩
      obtain ⟨since, rfl, hl₀⟩ := (lastReading_concat_iff_of_not hy).1 hl
      have hp := (hs.profile shapes).2 ⟨since, hl₀⟩
      rcases lastCompilation_concat_iff.1 hr with hr | ⟨-, hr⟩
      · exact (hc shapes hp r hr).elim
      · exact ⟨shapes, since, hl₀, hr⟩

theorem Reflects.read_ok (hy : (Deed.read d source).Yields shapes) :
    Reflects { s with profile := some shapes, compiled := none } (h ++ [.read d source]) := by
  -- a reading starts afresh, so that there is nothing since
  have hone : ∀ shapes' since, LastReading (h ++ [.read d source]) shapes' since ↔
      shapes' = shapes ∧ since = [] := by
    intro shapes' since
    rw [lastReading_concat_iff]
    constructor
    · rintro (⟨hy', rfl⟩ | ⟨hn, -⟩)
      · exact ⟨by simpa using (shapesOf_eq_ok_iff.2 hy').symm.trans (shapesOf_eq_ok_iff.2 hy), rfl⟩
      · exact (hn ⟨shapes, hy⟩).elim
    · rintro ⟨rfl, rfl⟩
      exact .inl ⟨hy, rfl⟩
  exact ⟨fun shapes' => by simp [hone, eq_comm], fun r => by simp [hone, not_lastCompilation_nil]⟩

theorem Reflects.reset : Reflects s.reset (h ++ [.reset]) := by
  have hnone : ∀ shapes since, ¬ LastReading (h ++ [.reset]) shapes since := by
    intro shapes since hl
    rcases lastReading_concat_iff.1 hl with ⟨hy, -⟩ | ⟨hy, -⟩
    · exact hy
    · exact hy trivial
  exact ⟨fun shapes => by simp [hnone, Session.reset], fun r => by simp [hnone, Session.reset]⟩

theorem Reflects.read (hs : Reflects s h) (source : Source) :
    Reflects (s.read source).1 (h ++ [.read s.dialect source]) := by
  cases hd : (shapesOf s.dialect source).result with
  | ok shapes =>
    rw [read_of_ok hd]
    exact .read_ok (shapesOf_eq_ok_iff.1 hd)
  | error e =>
    rw [read_of_error hd]
    refine hs.keep ?_ fun _ _ _ hc => hc
    rintro ⟨shapes, hy⟩
    rw [shapesOf_eq_ok_iff.2 hy] at hd
    cases hd

theorem Reflects.compile_ok (hs : Reflects s h) (hp : s.profile = some shapes)
    (hc : (Deed.compile c).Compiles shapes r) :
    Reflects { s with compiled := some r } (h ++ [.compile c]) := by
  have hn : ¬ (Deed.compile c).Renews := fun hy => hy
  refine ⟨fun shapes' => ?_, fun r' => ?_⟩
  · show s.profile = some shapes' ↔ _
    rw [hs.profile]
    simp [lastReading_concat_iff_of_not hn]
  · obtain ⟨since, hl⟩ := (hs.profile shapes).1 hp
    constructor
    · intro h
      cases h
      exact ⟨shapes, _, (lastReading_concat_iff_of_not hn).2 ⟨since, rfl, hl⟩,
        lastCompilation_concat_iff.2 (.inl hc)⟩
    · rintro ⟨shapes', _, hl', hr'⟩
      obtain ⟨since', rfl, hl₀⟩ := (lastReading_concat_iff_of_not hn).1 hl'
      obtain rfl : shapes = shapes' := by
        simpa using hp.symm.trans ((hs.profile shapes').2 ⟨since', hl₀⟩)
      rcases lastCompilation_concat_iff.1 hr' with hc' | ⟨hc', -⟩
      · exact congrArg some (by simpa [Deed.Compiles] using hc.symm.trans hc')
      · exact (hc' r hc).elim

theorem Reflects.compile (hs : Reflects s h) :
    Reflects s.compile.1 (h ++ [.compile s.compiler]) := by
  have hn : ¬ (Deed.compile s.compiler).Renews := fun hy => hy
  cases hp : s.profile with
  | none =>
    rw [compile_of_none hp]
    refine hs.keep hn fun shapes hp' => ?_
    rw [hp] at hp'
    cases hp'
  | some shapes =>
    cases hr : (s.compiler.compile shapes).result with
    | ok r =>
      rw [compile_of_ok hp hr]
      exact hs.compile_ok hp hr
    | error e =>
      rw [compile_of_error hp hr]
      refine hs.keep hn fun shapes' hp' r hc => ?_
      obtain rfl : shapes = shapes' := Option.some.inj (hp.symm.trans hp')
      cases hr.symm.trans hc

def settings (s : Session) : Settings := ⟨s.dialect, s.compiler⟩

theorem settings_read (s : Session) (source : Source) :
    (s.read source).1.settings = s.settings := by
  cases h : (shapesOf s.dialect source).result with
  | ok shapes => rw [read_of_ok h]; rfl
  | error e => rw [read_of_error h]

theorem settings_compile (s : Session) : s.compile.1.settings = s.settings := by
  cases hp : s.profile with
  | none => rw [compile_of_none hp]
  | some shapes =>
    cases hr : (s.compiler.compile shapes).result with
    | ok r => rw [compile_of_ok hp hr]; rfl
    | error e => rw [compile_of_error hp hr]

theorem convert_of_read_error {e : SessionError} (h : (s.read source).2.result = .error e) :
    (s.convert source layout).1 = (s.read source).1 := by
  unfold convert
  rw [Stateful.run_bind_of_error (x := .mk fun s : Session => s.read source) h]

/-- What a conversion leaves behind is what its compilation does, as no writing changes a session. -/
theorem convert_of_read_ok (h : (s.read source).2.result = .ok ()) :
    (s.convert source layout).1 = (s.read source).1.compile.1 := by
  unfold convert
  rw [Stateful.run_bind_of_ok (x := .mk fun s : Session => s.read source) h]
  cases hc : (s.read source).1.compile.2.result with
  | ok u => rw [Stateful.run_bind_of_ok (x := .mk compile) hc]; rfl
  | error e => rw [Stateful.run_bind_of_error (x := .mk compile) hc]

theorem settings_after (s : Session) (op : Operation) :
    (s.after op).settings = s.settings.after op := by
  cases op with
  | readText text => exact settings_read s _
  | read source => exact settings_read s source
  | compile => exact settings_compile s
  | convert text layout =>
    rw [after]
    cases h : (s.read (textSource text)).2.result with
    | ok u =>
      rw [convert_of_read_ok h, settings_compile, settings_read]
      rfl
    | error e =>
      rw [convert_of_read_error h, settings_read]
      rfl
  | withDialect | withCompiler | write | reset => rfl

theorem Reflects.after (hs : Reflects s h) (op : Operation) :
    Reflects (s.after op) (h ++ s.settings.deeds op) := by
  cases op with
  | readText text => exact hs.read (textSource text)
  | read source => exact hs.read source
  | compile => exact hs.compile
  | reset => exact .reset
  | convert text layout =>
    have hread := hs.read (textSource text)
    rw [Session.after, Settings.deeds, settings]
    dsimp only
    cases hd : (shapesOf s.dialect (textSource text)).result with
    | ok shapes =>
      have hc := hread.compile
      have hset : (s.read (textSource text)).1.compiler = s.compiler :=
        congrArg Settings.compiler (settings_read s _)
      rw [hset, List.append_assoc] at hc
      rw [convert_of_read_ok (by rw [read_of_ok hd])]
      exact hc
    | error e =>
      rw [convert_of_read_error (by rw [read_of_error hd])]
      exact hread
  | withDialect | withCompiler | write =>
    rw [Settings.deeds, List.append_nil]
    exact ⟨hs.profile, hs.compiled⟩

theorem Reflects.foldl (hs : Reflects s h) (ops : List Operation) :
    Reflects (ops.foldl Session.after s) (h ++ history s.settings ops) := by
  induction ops generalizing s h with
  | nil =>
    rw [history, List.append_nil]
    exact hs
  | cons op ops ih =>
    have hrest := ih (hs.after op)
    rw [settings_after, List.append_assoc] at hrest
    exact hrest

theorem reflects_run (ops : List Operation) : Reflects (run ops) (history {} ops) :=
  Reflects.initial.foldl ops

theorem schema_and_warnings_iff {schema : Schema} {ws : List Warning} :
    s.schema = some schema ∧ s.warnings = ws ↔ s.compiled = some (schema, ws) := by
  cases h : s.compiled <;> simp [Session.schema, warnings, h, Prod.ext_iff]

theorem Reflects.profile_of_compiled (hs : Reflects s h) (hr : s.compiled = some r) :
    ∃ shapes, s.profile = some shapes := by
  obtain ⟨shapes, since, hl, -⟩ := (hs.compiled r).1 hr
  exact ⟨shapes, (hs.profile shapes).2 ⟨since, hl⟩⟩

/-- After every run of operations a session holds the profile of the last reading that succeeded
since the last reset, read as was set at the time, and the schema and the warnings of the last
compilation of that very profile that succeeded, compiled as was set at the time. -/
theorem run_holds (ops : List Operation) :
    (∀ schema, (run ops).schema = some schema → ∃ shapes, (run ops).profile = some shapes) ∧
    (∀ shapes, (run ops).profile = some shapes ↔
      ∃ since, LastReading (history {} ops) shapes since) ∧
    (∀ schema ws, (run ops).schema = some schema ∧ (run ops).warnings = ws ↔
      ∃ shapes since, (run ops).profile = some shapes ∧
        LastReading (history {} ops) shapes since ∧ LastCompilation since shapes (schema, ws)) ∧
    ((run ops).schema = none → (run ops).warnings = []) ∧
    ((run ops).stage = .empty ↔ (run ops).profile = none) ∧
    ((run ops).stage = .hasProfile ↔
      (∃ shapes, (run ops).profile = some shapes) ∧ (run ops).schema = none) ∧
    ((run ops).stage = .hasSchema ↔ ∃ schema, (run ops).schema = some schema) := by
  have hs := reflects_run ops
  have hp : ∀ r, (run ops).compiled = some r → ∃ shapes, (run ops).profile = some shapes :=
    fun r => hs.profile_of_compiled
  refine ⟨fun schema h => ?_, hs.profile, fun schema ws => ?_, fun h => ?_, ?_⟩
  · obtain ⟨r, hr, -⟩ := Option.map_eq_some_iff.1 h
    exact hp r hr
  · rw [schema_and_warnings_iff, hs.compiled]
    refine exists_congr fun shapes => exists_congr fun since => ?_
    rw [hs.profile, iff_and_self]
    exact fun h => ⟨since, h.1⟩
  · rw [warnings, Option.map_eq_none_iff.1 h]
    rfl
  · simp only [stage, Session.schema]
    cases hc : (run ops).compiled with
    | some r =>
      obtain ⟨shapes, hprofile⟩ := hp r hc
      simp [hprofile]
    | none => cases (run ops).profile <;> simp

/-- A schema is dropped when a profile is read again, and a conversion that fails to read leaves
everything as it is. -/
example :
    let text := "propertyId,shapeId\nname,Person"
    [[], [.readText text], [.readText text, .compile], [.readText text, .compile, .readText text],
      [.readText text, .compile, .convert "" {}]].map (fun ops => (run ops).stage) =
        [.empty, .hasProfile, .hasSchema, .hasProfile, .hasSchema] := by
  decide +kernel

end TabularShapes.Session
