import TabularShapes.Proofs.Session.History

/-! What operations leave behind that fail, and what a conversion depends on. A failure changes
nothing, apart from a conversion that comes as far as reading its text. The result of a conversion
is that of its four steps on the text, whatever was done to the session before. -/

namespace TabularShapes.Session

open Table (Source)

def error? (s : Session) : Operation → Option SessionError
  | .readText text => failure? (s.read (textSource text)).2.result
  | .read source => failure? (s.read source).2.result
  | .compile => failure? s.compile.2.result
  | .write layout => failure? (s.write layout)
  | .convert text layout => failure? (s.convert (textSource text) layout).2.result
  | .withDialect _ | .withCompiler _ | .reset => none

/-- From the text of a profile to the text of its schema, without a session. -/
def chain (p : Settings) (text : String) (layout : Layout) :
    Except SessionError (String × List Warning) := do
  let rows ← (Profile.readText p.dialect text).result.mapError .read
  let shapes ← (Profile.groupRows rows).mapError .group
  let (schema, warnings) ← (p.compiler.compile shapes).result.mapError .compile
  return (schema.write layout, warnings)

def fresh (p : Settings) : Session := { dialect := p.dialect, compiler := p.compiler }

def settingsAfter (ops : List Operation) : Settings := ops.foldl Settings.after {}

variable {s : Session} {source : Source} {text : String} {layout : Layout} {e : SessionError}

theorem settings_run (ops : List Operation) : (run ops).settings = settingsAfter ops := by
  have hfold : ∀ s : Session,
      (ops.foldl Session.after s).settings = ops.foldl Settings.after s.settings := by
    induction ops with
    | nil => intro s; rfl
    | cons op ops ih =>
      intro s
      rw [List.foldl_cons, List.foldl_cons, ih, settings_after]
  exact hfold {}

theorem result_shapesOf (d : Table.Dialect) (source : Source) :
    (shapesOf d source).result = (Profile.read d source).result.mapError .read >>= fun rows =>
      (Profile.groupRows rows).mapError .group := by
  simp only [shapesOf, Traced.result_bind, Traced.result_mapError]
  congr 1
  funext rows
  cases h : Profile.groupRows rows <;> simp [Profile.group, h] <;> rfl

theorem result_read (s : Session) (source : Source) :
    (s.read source).2.result = (shapesOf s.dialect source).result.map fun _ => () := by
  cases h : (shapesOf s.dialect source).result with
  | ok shapes => rw [read_of_ok h]; rfl
  | error e => rw [read_of_error h]; rfl

theorem result_compile_of_profile {shapes : List Profile.Shape} (h : s.profile = some shapes) :
    s.compile.2.result =
      ((s.compiler.compile shapes).result.mapError .compile).map fun _ => () := by
  cases hr : (s.compiler.compile shapes).result with
  | ok r => rw [compile_of_ok h hr]; rfl
  | error e => rw [compile_of_error h hr]; rfl

theorem result_convert (s : Session) (source : Source) (layout : Layout) :
    (s.convert source layout).2.result = (s.read source).2.result >>= fun _ =>
      (s.read source).1.compile.2.result >>= fun _ =>
        (s.read source).1.compile.1.write layout := by
  simp only [convert, Stateful.snd_run_bind, Traced.result_bind]
  rfl

theorem convert_of_compile_error {shapes : List Profile.Shape} {e : CompileError} (layout : Layout)
    (hd : (shapesOf s.dialect source).result = .ok shapes)
    (hr : (s.compiler.compile shapes).result = .error e) :
    (s.convert source layout).1 = { s with profile := some shapes, compiled := none } ∧
      (s.convert source layout).2.result = .error (.compile e) := by
  constructor
  · rw [convert_of_read_ok (by rw [read_of_ok hd]), read_compile_of_error hd hr]
  · rw [result_convert, read_compile_of_error hd hr, read_of_ok hd]
    rfl

theorem convert_of_ok {shapes : List Profile.Shape} {r : Schema × List Warning} (layout : Layout)
    (hd : (shapesOf s.dialect source).result = .ok shapes)
    (hr : (s.compiler.compile shapes).result = .ok r) :
    (s.convert source layout).1 = { s with profile := some shapes, compiled := some r } ∧
      (s.convert source layout).2.result = .ok (r.1.write layout) := by
  constructor
  · rw [convert_of_read_ok (by rw [read_of_ok hd]), read_compile_of_ok hd hr]
  · rw [result_convert, read_compile_of_ok hd hr, read_of_ok hd]
    rfl

/-! ### What a failure leaves -/

theorem fst_read_of_error (h : (s.read source).2.result = .error e) : (s.read source).1 = s := by
  rw [result_read, map_eq_error_iff] at h
  rw [read_of_error h]

theorem fst_compile_of_error (h : s.compile.2.result = .error e) : s.compile.1 = s := by
  cases hp : s.profile with
  | none => rw [compile_of_none hp]
  | some shapes =>
    cases hr : (s.compiler.compile shapes).result with
    | error e' => rw [compile_of_error hp hr]
    | ok r =>
      rw [compile_of_ok hp hr] at h
      cases h

theorem holds_of_read_ok (h : (s.read source).2.result = .ok ()) :
    (s.read source).1.stage = .hasProfile ∧ (s.read source).1.schema = none ∧
      ((fresh s.settings).read source).1 = (s.read source).1 := by
  rw [result_read] at h
  obtain ⟨shapes, hshapes, -⟩ := map_eq_ok_iff.1 h
  have hfresh : (shapesOf (fresh s.settings).dialect source).result = .ok shapes := hshapes
  rw [read_of_ok hshapes, read_of_ok hfresh]
  exact ⟨rfl, rfl, rfl⟩

theorem write_of_compile_ok (h : s.compile.2.result = .ok ()) (layout : Layout) :
    ∃ text, s.compile.1.write layout = .ok text := by
  cases hp : s.profile with
  | none =>
    rw [compile_of_none hp] at h
    cases h
  | some shapes =>
    rw [result_compile_of_profile hp] at h
    obtain ⟨r, hr, -⟩ := map_eq_ok_iff.1 h
    rw [compile_of_ok hp (mapError_eq_ok_iff.1 hr)]
    exact ⟨r.1.write layout, rfl⟩

/-- An operation that fails changes nothing, unless it is a conversion. -/
theorem after_of_error {op : Operation} (hop : ∀ text layout, op ≠ .convert text layout)
    (h : s.error? op = some e) : s.after op = s := by
  cases op with
  | readText text => exact fst_read_of_error (failure?_eq_some_iff.1 h)
  | read source => exact fst_read_of_error (failure?_eq_some_iff.1 h)
  | compile => exact fst_compile_of_error (failure?_eq_some_iff.1 h)
  | write layout => rfl
  | convert text layout => exact absurd rfl (hop text layout)
  | withDialect | withCompiler | reset => cases h

/-- A conversion that fails has failed to read, and changes nothing, or to compile, and leaves what
was read. -/
theorem after_convert_of_error (h : s.error? (.convert text layout) = some e) :
    (s.error? (.readText text) = some e ∧ s.after (.convert text layout) = s) ∨
      (s.error? (.readText text) = none ∧
        s.after (.convert text layout) = s.after (.readText text) ∧
        s.after (.convert text layout) = (fresh s.settings).after (.readText text) ∧
        (s.after (.convert text layout)).stage = .hasProfile ∧
        (s.after (.convert text layout)).schema = none) := by
  have hfail : failure? (s.convert (textSource text) layout).2.result = some e := h
  rw [failure?_eq_some_iff, result_convert, bind_eq_error_iff] at hfail
  rcases hfail with hr | ⟨⟨⟩, hr, hrest⟩
  · left
    refine ⟨failure?_eq_some_iff.2 hr, ?_⟩
    rw [after, convert_of_read_error hr, fst_read_of_error hr]
  · right
    obtain ⟨hstage, hschema, hfresh⟩ := holds_of_read_ok hr
    have hcompile : (s.read (textSource text)).1.compile.2.result = .error e := by
      rcases bind_eq_error_iff.1 hrest with hc | ⟨⟨⟩, hc, hw⟩
      · exact hc
      · -- what was compiled can always be written
        obtain ⟨out, hout⟩ := write_of_compile_ok hc layout
        rw [hout] at hw
        cases hw
    have hafter : s.after (.convert text layout) = (s.read (textSource text)).1 := by
      rw [after, convert_of_read_ok hr, fst_compile_of_error hcompile]
    rw [hafter]
    exact ⟨failure?_eq_none_iff.2 ⟨(), hr⟩, rfl, hfresh.symm, hstage, hschema⟩

theorem chain_eq (s : Session) (text : String) (layout : Layout) :
    chain s.settings text layout = (shapesOf s.dialect (textSource text)).result >>= fun shapes =>
      ((s.compiler.compile shapes).result.mapError .compile).map fun r =>
        (r.1.write layout, r.2) := by
  rw [result_shapesOf]
  unfold chain settings Profile.readText textSource
  dsimp only
  cases (Profile.read s.dialect { bytes := Text.utf8 text }).result with
  | error e => rfl
  | ok rows =>
    cases Profile.groupRows rows with
    | error e => rfl
    | ok shapes => rfl

theorem convert_eq_chain (s : Session) (text : String) (layout : Layout) :
    (s.convert (textSource text) layout).2.result = (chain s.settings text layout).map (·.1) := by
  rw [chain_eq]
  cases hd : (shapesOf s.dialect (textSource text)).result with
  | error e =>
    rw [result_convert, read_of_error hd]
    rfl
  | ok shapes =>
    cases hr : (s.compiler.compile shapes).result with
    | error e =>
      rw [(convert_of_compile_error layout hd hr).2]
      simp only [bind, Except.bind, Except.mapError, Except.map, hr]
    | ok r =>
      rw [(convert_of_ok layout hd hr).2]
      simp only [bind, Except.bind, Except.mapError, Except.map, hr]

theorem after_convert_of_chain {out : String} {ws : List Warning}
    (h : chain s.settings text layout = .ok (out, ws)) :
    (s.after (.convert text layout)).warnings = ws ∧
      (s.after (.convert text layout)).write layout = .ok out ∧
      s.after (.convert text layout) = (fresh s.settings).after (.convert text layout) := by
  rw [chain_eq] at h
  obtain ⟨shapes, hshapes, hcompiled⟩ := bind_eq_ok_iff.1 h
  obtain ⟨r, hr, hout⟩ := map_eq_ok_iff.1 hcompiled
  cases hout
  have hafter : ∀ s' : Session, s'.settings = s.settings → s'.after (.convert text layout) =
      { dialect := s.dialect, compiler := s.compiler, profile := some shapes
        compiled := some r } := by
    intro s' hs'
    obtain ⟨hd, hc⟩ : s'.dialect = s.dialect ∧ s'.compiler = s.compiler := by
      simpa [settings] using hs'
    rw [← hd] at hshapes
    rw [← hc] at hr
    rw [after, (convert_of_ok layout hshapes (mapError_eq_ok_iff.1 hr)).1, hd, hc]
  rw [hafter s rfl, hafter (fresh s.settings) rfl]
  exact ⟨rfl, rfl, rfl⟩

/-- After every run of operations, a failure leaves the session as it is, and a conversion that
fails after its reading leaves what the reading alone would leave. A conversion gives what the four
steps give on its text under the last settings, and keeps their warnings. -/
theorem run_fails_cleanly (ops : List Operation) :
    (∀ op e, (∀ text layout, op ≠ .convert text layout) → (run ops).error? op = some e →
      (run ops).after op = run ops) ∧
    (∀ text layout e, (run ops).error? (.convert text layout) = some e →
      ((run ops).error? (.readText text) = some e ∧
        (run ops).after (.convert text layout) = run ops) ∨
      ((run ops).error? (.readText text) = none ∧
        (run ops).after (.convert text layout) = (run ops).after (.readText text) ∧
        (run ops).after (.convert text layout) =
          (fresh (settingsAfter ops)).after (.readText text) ∧
        ((run ops).after (.convert text layout)).stage = .hasProfile ∧
        ((run ops).after (.convert text layout)).schema = none)) ∧
    ∀ text layout,
      ((run ops).convert (textSource text) layout).2.result =
        (chain (settingsAfter ops) text layout).map (·.1) ∧
      ∀ out ws, chain (settingsAfter ops) text layout = .ok (out, ws) →
        ((run ops).after (.convert text layout)).warnings = ws ∧
        ((run ops).after (.convert text layout)).write layout = .ok out ∧
        (run ops).after (.convert text layout) =
          (fresh (settingsAfter ops)).after (.convert text layout) := by
  rw [← settings_run ops]
  refine ⟨?_, ?_, ?_⟩
  · intro op e hop h
    exact after_of_error hop h
  · intro text layout e h
    exact after_convert_of_error h
  · intro text layout
    refine ⟨convert_eq_chain (run ops) text layout, ?_⟩
    intro out ws h
    exact after_convert_of_chain h

/-- A profile whose only reference is to a shape that is not there. -/
def ghostly : String := "propertyId,shapeId,valueShape\nname,Person,Ghost"

def plain : String := "propertyId,shapeId\nname,Person"

def busy : List Operation := [.readText plain, .compile]

theorem run_fails_cleanly_of_busy :
    ((run busy).error? (.readText "") = some (.read .missingHeader) ∧
      (run busy).after (.readText "") = run busy) ∧
    ((run busy).error? (.convert ghostly {}) =
        some (.compile (.danglingReference "Ghost" "Person" "name")) ∧
      ((run busy).after (.convert ghostly {})).stage = .hasProfile) ∧
    ∃ out, chain (settingsAfter busy) plain {} = .ok (out, []) ∧
      ((run busy).after (.convert plain {})).write {} = .ok out := by
  obtain ⟨hkeeps, hconverts, hchain⟩ := run_fails_cleanly busy
  have hempty : (run busy).error? (.readText "") = some (.read .missingHeader) := by
    decide +kernel
  have hghost : (run busy).error? (.convert ghostly {}) =
      some (.compile (.danglingReference "Ghost" "Person" "name")) := by decide +kernel
  have hplain : (chain (settingsAfter busy) plain {}).toOption.map (·.2) = some [] := by
    decide +kernel
  refine ⟨⟨hempty, hkeeps _ _ (by simp) hempty⟩, ⟨hghost, ?_⟩, ?_⟩
  · rcases hconverts _ _ _ hghost with ⟨hread, -⟩ | ⟨-, -, -, hstage, -⟩
    · have hnone : (run busy).error? (.readText ghostly) = none := by decide +kernel
      rw [hnone] at hread
      cases hread
    · exact hstage
  · cases h : chain (settingsAfter busy) plain {} with
    | error e => simp [h, Except.toOption] at hplain
    | ok r =>
      obtain ⟨out, ws⟩ := r
      obtain rfl : ws = [] := by simpa [h, Except.toOption] using hplain
      exact ⟨out, rfl, ((hchain plain {}).2 out [] h).2.1⟩

end TabularShapes.Session
