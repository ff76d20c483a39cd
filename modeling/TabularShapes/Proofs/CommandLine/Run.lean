import TabularShapes.Proofs.CommandLine.Options
import TabularShapes.Proofs.Writing.Room

/-! What a run of the command line leaves behind. It delivers what the library makes of its input
under its options, or it fails and leaves nothing. -/

namespace TabularShapes.CommandLine

open Log (Filter)
open Session (Settings fresh)

def Surroundings.Holds (w : Surroundings) (text : String) : Prop :=
  text.utf8ByteSize ≤ min maxBytes w.room

structure Starts (o : Options) (w : Surroundings) (p : Settings) (layout : Layout)
    (source : Table.Source) : Prop where
  means : o.Means p layout
  source : w.source o.file = .ok source

/-- The library writes the text for the input, as it would in a memory without bounds. -/
def Writes (o : Options) (w : Surroundings) (text : String) : Prop :=
  ∃ p layout source, Starts o w p layout source ∧
    ((fresh p).convert source layout).2.result = .ok text

/-- The library writes the text for the input, and there is room for it and for the end of its last
line. -/
def Yields (o : Options) (w : Surroundings) (text : String) : Prop :=
  Writes o w text ∧ w.Holds (endLine text)

def BreaksOff (o : Options) (w : Surroundings) : Prop :=
  ∃ text, Writes o w text ∧ ¬ w.Holds (endLine text)

/-- The text that the library would write has a margin that is wider than any text. -/
def WideMargin (o : Options) (w : Surroundings) : Prop :=
  ∃ p layout source schema, Starts o w p layout source ∧
    ((fresh p).convert source layout).1.schema = some schema ∧ schema.Overflows layout

/-- The text can be brought to where it is asked for. Standard output takes every empty text. -/
structure Options.Deliverable (o : Options) (w : Surroundings) (text : String) : Prop where
  printed : o.output = none → text = "" ∨ w.refusal = none
  placed : ∀ path, o.output = some path → ∃ place, w.files.place path = .ok place

variable {o : Options} {w : Surroundings} {p p' : Settings} {layout layout' : Layout}
  {source source' : Table.Source} {f : Failure} {text : String} {effect : Effect}

theorem endLine_eq (text : String) : (endLine text = text ∨ endLine text = text ++ "\n") ∧
    (endLine text = text ++ "\n" ↔ text ≠ "" ∧ text.toList.getLast? ≠ some '\n') := by
  have hne : text ≠ text ++ "\n" := by simp [← String.toList_inj]
  unfold endLine
  split
  · next h =>
    have hempty : text = "" := by simpa using h
    simp [hempty]
  · next h => simp [h, hne]
  · next c h hc =>
    have hempty : text ≠ "" := by
      rintro rfl
      cases hc
    simpa [hempty, hc] using h

theorem utf8ByteSize_endLine (text : String) : text.utf8ByteSize ≤ (endLine text).utf8ByteSize ∧
    (endLine text).utf8ByteSize ≤ text.utf8ByteSize + 1 := by
  rcases (endLine_eq text).1 with h | h
  · simp [h]
  · rw [h, String.utf8ByteSize_append]
    exact ⟨Nat.le_add_right .., Nat.le_refl _⟩

theorem Starts.unique (h : Starts o w p layout source) (h' : Starts o w p' layout' source') :
    p' = p ∧ layout' = layout ∧ source' = source := by
  -- both are read off the one plan that the options have
  have hplan := Options.plan_eq_ok_iff.2 ⟨p, layout, h.means, rfl⟩
  have hplan' := Options.plan_eq_ok_iff.2 ⟨p', layout', h'.means, rfl⟩
  obtain ⟨dialect, compiler⟩ := p
  obtain ⟨dialect', compiler'⟩ := p'
  rw [hplan] at hplan'
  have hsource := h.source.symm.trans h'.source
  cases hplan'
  cases hsource
  exact ⟨rfl, rfl, rfl⟩

theorem Starts.writes_iff (h : Starts o w p layout source) :
    Writes o w text ↔ ((fresh p).convert source layout).2.result = .ok text := by
  refine ⟨?_, fun hm => ⟨p, layout, source, h, hm⟩⟩
  rintro ⟨p', layout', source', h', hm⟩
  obtain ⟨rfl, rfl, rfl⟩ := h.unique h'
  exact hm

theorem Writes.unique {text' : String} (h : Writes o w text) (h' : Writes o w text') :
    text' = text := by
  obtain ⟨p, layout, source, hstarts, hm⟩ := h
  exact Except.ok.inj ((hstarts.writes_iff.1 h').symm.trans hm)

theorem Writes.breaksOff_iff (h : Writes o w text) :
    BreaksOff o w ↔ ¬ w.Holds (endLine text) := by
  refine ⟨?_, fun hb => ⟨text, h, hb⟩⟩
  rintro ⟨text', h', hb⟩
  rwa [h.unique h'] at hb

theorem Yields.not_breaksOff (h : Yields o w text) : ¬ BreaksOff o w := by
  rw [h.1.breaksOff_iff, not_not]
  exact h.2

theorem Starts.wideMargin_iff (h : Starts o w p layout source) : WideMargin o w ↔
    ∃ schema, ((fresh p).convert source layout).1.schema = some schema ∧
      schema.Overflows layout := by
  refine ⟨?_, fun ⟨schema, hs⟩ => ⟨p, layout, source, schema, h, hs⟩⟩
  rintro ⟨p', layout', source', schema, h', hs⟩
  obtain ⟨rfl, rfl, rfl⟩ := h.unique h'
  exact ⟨schema, hs⟩

/-! ### From the input to the text -/

theorem writeSchema_eq_ok_iff {s : Session} {schema : Schema} {room : Nat}
    (hs : s.schema = some schema) : writeSchema s layout room = .ok text ↔
      text = endLine (schema.write layout) ∧ text.utf8ByteSize ≤ min maxBytes room := by
  simp only [writeSchema, hs, mapError_eq_ok_iff, bind_eq_ok_iff, make_eq_ok_iff]
  constructor
  · rintro ⟨_, ⟨rfl, -⟩, ⟨⟩, hsize, h⟩
    cases h
    exact ⟨rfl, grow_eq_ok_iff.1 hsize⟩
  · rintro ⟨rfl, hsize⟩
    exact ⟨_, ⟨rfl, (utf8ByteSize_endLine _).1.trans hsize⟩, (), grow_eq_ok_iff.2 hsize, rfl⟩

theorem size_of_writeSchema_error {s : Session} {schema : Schema} {room : Nat}
    (hs : s.schema = some schema) (h : writeSchema s layout room = .error f) :
    ∃ e, f = .cannotMake e ∧ min maxBytes room < (endLine (schema.write layout)).utf8ByteSize ∧
      (e = .tooLong ↔ maxBytes ≤ room ∨ schema.Overflows layout) := by
  simp only [writeSchema, hs, mapError_eq_error_iff] at h
  obtain ⟨e, h, rfl⟩ := h
  refine ⟨e, rfl, ?_⟩
  rcases bind_eq_error_iff.1 h with h | ⟨text, htext, h⟩
  · obtain ⟨hsize, he⟩ := size_of_make_error h
    exact ⟨Nat.lt_of_lt_of_le hsize (utf8ByteSize_endLine _).1, he⟩
  · -- the text is made, and the end of its last line is one byte too many
    obtain ⟨rfl, hfits⟩ := make_eq_ok_iff.1 htext
    rcases bind_eq_error_iff.1 h with h | ⟨⟨⟩, -, h⟩
    · obtain ⟨hsize, rfl⟩ := grow_eq_error_iff.1 h
      have hover : ¬ schema.Overflows layout := by
        rintro ⟨hm, hwide⟩
        have := indent_le_utf8ByteSize hm
        omega
      simp [hsize, hover]
    · cases h

/-- How the work of the library ends: with its text, with an error that is reported, or with a text
that cannot be made. -/
inductive Ends (w : Surroundings) (p : Settings) (layout : Layout) (source : Table.Source) :
    Except Failure String → Prop
  | text {text : String} (h : ((fresh p).convert source layout).2.result = .ok text)
      (hsize : w.Holds (endLine text)) : Ends w p layout source (.ok (endLine text))
  | fault {e : SessionError} {f : Failure}
      (h : ((fresh p).convert source layout).2.result = .error e) (hf : f.code? = some 1) :
      Ends w p layout source (.error f)
  | broken {text : String} {e : SizeError}
      (h : ((fresh p).convert source layout).2.result = .ok text)
      (hsize : ¬ w.Holds (endLine text))
      (he : e = .tooLong ↔ maxBytes ≤ w.room ∨
        ∃ schema, ((fresh p).convert source layout).1.schema = some schema ∧
          schema.Overflows layout) :
      Ends w p layout source (.error (.cannotMake e))

theorem text_eq (o : Options) (p : Settings) (layout : Layout) (room : Nat)
    (source : Table.Source) : (o.planFor p layout).text room source =
      (((fresh p).read source).2.mapError .cannotRead >>= fun _ =>
        ((fresh p).read source).1.compile.2.mapError .cannotCompile >>= fun _ =>
          Traced.report (.profileCompiled ((fresh p).read source).1.compile.1.warnings.length) >>=
            fun _ => Traced.of (writeSchema ((fresh p).read source).1.compile.1 layout room)) := by
  simp only [Plan.text, Stateful.snd_run_bind]
  rfl

theorem result_text (o : Options) (p : Settings) (layout : Layout) (room : Nat)
    (source : Table.Source) : ((o.planFor p layout).text room source).result =
      (((fresh p).read source).2.result.mapError .cannotRead >>= fun _ =>
        ((fresh p).read source).1.compile.2.result.mapError .cannotCompile >>= fun _ =>
          writeSchema ((fresh p).read source).1.compile.1 layout room) := by
  rw [text_eq]
  simp only [Traced.result_bind, Traced.result_mapError, Traced.result_report, Traced.result_of]
  rfl

theorem ends_text (o : Options) (w : Surroundings) (p : Settings) (layout : Layout)
    (source : Table.Source) :
    Ends w p layout source ((o.planFor p layout).text w.room source).result := by
  rw [result_text]
  cases hd : (Session.shapesOf (fresh p).dialect source).result with
  | error e =>
    have hconvert : ((fresh p).convert source layout).2.result = .error e := by
      rw [Session.result_convert, Session.read_of_error hd]
      rfl
    rw [Session.read_of_error hd]
    exact .fault hconvert rfl
  | ok shapes =>
    cases hr : ((fresh p).compiler.compile shapes).result with
    | error e =>
      rw [Session.read_compile_of_error hd hr, Session.read_of_ok hd]
      exact .fault (Session.convert_of_compile_error layout hd hr).2 rfl
    | ok r =>
      obtain ⟨hstate, hconvert⟩ := Session.convert_of_ok layout hd hr
      rw [Session.read_compile_of_ok hd hr, Session.read_of_ok hd]
      simp only [Except.mapError, bind, Except.bind]
      generalize hs : ({ fresh p with profile := some shapes, compiled := some r } : Session) = s₂
      have hschema : s₂.schema = some r.1 := by
        rw [← hs]
        rfl
      cases hw : writeSchema s₂ layout w.room with
      | ok text =>
        obtain ⟨rfl, hsize⟩ := (writeSchema_eq_ok_iff hschema).1 hw
        exact .text hconvert hsize
      | error f =>
        obtain ⟨e, rfl, hsize, he⟩ := size_of_writeSchema_error hschema hw
        refine .broken hconvert (Nat.not_le_of_lt hsize) ?_
        rw [he, hstate, hs, hschema]
        simp

/-! ### From the text to its place -/

inductive Refusal : Failure → Prop
  | cannotPrint (error : FileError) : Refusal (.cannotPrint error)
  | cannotWrite (path : String) (error : FileError) : Refusal (.cannotWrite path error)

inductive Delivers (o : Options) (w : Surroundings) (text : String) :
    Effect → Except Failure Unit → Prop
  | printed (hd : o.Deliverable w text) (hout : o.output = none) :
      Delivers o w text { output := text } (.ok ())
  | placed {path : String} {place : Location} (hd : o.Deliverable w text)
      (hout : o.output = some path) (hplace : w.files.place path = .ok place) :
      Delivers o w text { written := some (place, text) } (.ok ())
  | refused {f : Failure} (hd : ¬ o.Deliverable w text) (hf : Refusal f) :
      Delivers o w text {} (.error f)

theorem Options.deliverable_of_none (hout : o.output = none) :
    o.Deliverable w text ↔ text = "" ∨ w.refusal = none := by
  refine ⟨fun hd => hd.printed hout, fun h => ⟨fun _ => h, ?_⟩⟩
  rw [hout]
  exact nofun

theorem Options.deliverable_of_some {path : String} (hout : o.output = some path) :
    o.Deliverable w text ↔ ∃ place, w.files.place path = .ok place := by
  refine ⟨fun hd => hd.placed path hout, fun h => ⟨?_, fun path' hpath => ?_⟩⟩
  · rw [hout]
    exact nofun
  · cases hout.symm.trans hpath
    exact h

theorem delivers_print (hout : o.output = none) :
    Delivers o w text (((w.print text).mapError Failure.cannotPrint).run {}).1
      (((w.print text).mapError Failure.cannotPrint).run {}).2.result := by
  have hd : o.Deliverable w text ↔ _ := Options.deliverable_of_none hout
  simp only [Surroundings.print]
  cases hrefusal : w.refusal with
  | none =>
    have hempty : "" ++ text = text := by simp
    simp only [Stateful.run_mapError, Stateful.run_modify, hempty]
    exact .printed (hd.2 (.inr hrefusal)) hout
  | some error =>
    by_cases htext : text = ""
    · subst htext
      exact .printed (hd.2 (.inl rfl)) hout
    · simp only [htext, if_false]
      refine .refused (hd.not.2 ?_) (.cannotPrint error)
      simp [htext, hrefusal]

theorem delivers_deliver (o : Options) (w : Surroundings) (text : String) :
    Delivers o w text ((w.deliver o.output text).run {}).1
      ((w.deliver o.output text).run {}).2.result := by
  cases hout : o.output with
  | none => exact delivers_print hout
  | some path =>
    have hd : o.Deliverable w text ↔ _ := Options.deliverable_of_some hout
    simp only [Surroundings.deliver]
    cases hplace : w.files.place path with
    | ok place => exact .placed (hd.2 ⟨place, hplace⟩) hout hplace
    | error e =>
      refine .refused (hd.not.2 ?_) (.cannotWrite path e)
      simp [hplace]

theorem exists_of_source_error (h : w.source o.file = .error f) :
    ∃ path e, f = .cannotOpen path e := by
  cases hfile : o.file with
  | none => simp [Surroundings.source, hfile] at h
  | some path =>
    simp only [Surroundings.source, hfile, mapError_eq_error_iff] at h
    obtain ⟨e, -, rfl⟩ := h
    exact ⟨path, e, rfl⟩

/-! ### From the arguments to the end -/

/-- What is delivered is the text that was made, and nothing else has an effect. -/
theorem convert_of_starts (h : Starts o w p layout source) :
    (∀ text, ((o.planFor p layout).text w.room source).result = .ok text →
      (convert o w).1 = ((w.deliver o.output text).run {}).1 ∧
        (convert o w).2.result = ((w.deliver o.output text).run {}).2.result) ∧
    ∀ f, ((o.planFor p layout).text w.room source).result = .error f →
      (convert o w).1 = {} ∧ (convert o w).2.result = .error f := by
  have hplan := Options.plan_eq_ok_iff.2 ⟨p, layout, h.means, rfl⟩
  have hsource : (Traced.of (w.source (o.planFor p layout).file)).result = .ok source := h.source
  unfold convert
  rw [Stateful.run_lift_bind_of_ok hplan]
  simp only [Stateful.liftM_except]
  rw [Stateful.run_lift_bind_of_ok hsource]
  refine ⟨fun text htext => ?_, fun f htext => ?_⟩
  · rw [Stateful.run_lift_bind_of_ok htext]
    exact ⟨rfl, rfl⟩
  · rw [Stateful.run_lift_bind_of_error htext]
    exact ⟨rfl, rfl⟩

/-- A run that has no plan or no input has no effect. -/
theorem convert_of_not_starts (h : ¬ ∃ p layout source, Starts o w p layout source) :
    (convert o w).1 = {} ∧ ∃ f, (convert o w).2.result = .error f ∧
      (Options.Misuse f ∨ ∃ path e, f = .cannotOpen path e) := by
  unfold convert
  cases hplan : o.plan.result with
  | error f =>
    rw [Stateful.run_lift_bind_of_error hplan]
    exact ⟨rfl, f, rfl, .inl (Options.misuse_of_plan hplan)⟩
  | ok plan =>
    obtain ⟨p, layout, hmeans, rfl⟩ := Options.plan_eq_ok_iff.1 hplan
    cases hsource : w.source o.file with
    | ok source => exact absurd ⟨p, layout, source, hmeans, hsource⟩ h
    | error f =>
      have hf : (Traced.of (w.source (o.planFor p layout).file)).result = .error f := hsource
      rw [Stateful.run_lift_bind_of_ok hplan]
      simp only [Stateful.liftM_except]
      rw [Stateful.run_lift_bind_of_error hf]
      exact ⟨rfl, f, rfl, .inr (exists_of_source_error hsource)⟩

/-- How a conversion ends: its text is delivered, it fails with a report, or it breaks off. -/
inductive Finishes (o : Options) (w : Surroundings) : Effect → Except Failure Unit → Prop
  | printed {text : String} (hy : Yields o w text) (hd : o.Deliverable w (endLine text))
      (hout : o.output = none) : Finishes o w { output := endLine text } (.ok ())
  | placed {text path : String} {place : Location} (hy : Yields o w text)
      (hd : o.Deliverable w (endLine text)) (hout : o.output = some path)
      (hplace : w.files.place path = .ok place) :
      Finishes o w { written := some (place, endLine text) } (.ok ())
  | failed {f : Failure} (hb : ¬ BreaksOff o w)
      (hy : ∀ text, Yields o w text → ¬ o.Deliverable w (endLine text)) (hf : f.code? = some 1) :
      Finishes o w {} (.error f)
  | broken {e : SizeError} (hb : BreaksOff o w)
      (he : e = .tooLong ↔ maxBytes ≤ w.room ∨ WideMargin o w) :
      Finishes o w {} (.error (.cannotMake e))

theorem Refusal.code? (h : Refusal f) : f.code? = some 1 := by
  cases h <;> rfl

theorem Finishes.of_not_writes (hnone : ∀ text, ¬ Writes o w text) (hf : f.code? = some 1) :
    Finishes o w {} (.error f) := by
  refine .failed ?_ (fun text hy => absurd hy.1 (hnone text)) hf
  rintro ⟨text, hm, -⟩
  exact hnone text hm

theorem finishes_convert (o : Options) (w : Surroundings) :
    Finishes o w (convert o w).1 (convert o w).2.result := by
  by_cases hstarts : ∃ p layout source, Starts o w p layout source
  · obtain ⟨p, layout, source, hs⟩ := hstarts
    obtain ⟨hok, herror⟩ := convert_of_starts hs
    have hends := ends_text o w p layout source
    generalize htext : ((o.planFor p layout).text w.room source).result = result at hends
    cases hends with
    | @text text h hsize =>
      have hm : Writes o w text := hs.writes_iff.2 h
      obtain ⟨heffect, hresult⟩ := hok _ htext
      rw [heffect, hresult]
      have hdelivers := delivers_deliver o w (endLine text)
      generalize ((w.deliver o.output (endLine text)).run {}).1 = effect at hdelivers
      generalize ((w.deliver o.output (endLine text)).run {}).2.result = result at hdelivers
      cases hdelivers with
      | printed hd hout => exact .printed ⟨hm, hsize⟩ hd hout
      | placed hd hout hplace => exact .placed ⟨hm, hsize⟩ hd hout hplace
      | refused hd hf =>
        refine .failed (fun hb => hm.breaksOff_iff.1 hb hsize) (fun text' hy => ?_) hf.code?
        rwa [hm.unique hy.1]
    | fault h hf =>
      obtain ⟨heffect, hresult⟩ := herror _ htext
      rw [heffect, hresult]
      refine .of_not_writes (fun text hm => ?_) hf
      have hok := hs.writes_iff.1 hm
      rw [h] at hok
      cases hok
    | broken h hsize he =>
      obtain ⟨heffect, hresult⟩ := herror _ htext
      rw [heffect, hresult]
      refine .broken ⟨_, hs.writes_iff.2 h, hsize⟩ ?_
      rw [he, hs.wideMargin_iff]
  · obtain ⟨heffect, f, hf, hfault⟩ := convert_of_not_starts hstarts
    rw [heffect, hf]
    have hcode : f.code? = some 1 := by
      rcases hfault with h | ⟨path, e, rfl⟩
      · exact h.code?
      · rfl
    refine .of_not_writes ?_ hcode
    rintro text ⟨p, layout, source, hs, -⟩
    exact hstarts ⟨p, layout, source, hs⟩

/-! ### Runs -/

variable {args : List String}

def Surroundings.Readable (w : Surroundings) : Prop :=
  ∃ filter, Filter.ofSetting? w.logSetting = some filter

theorem exists_run_eq (h : Options.ofArguments args = .ok o) (hlog : w.Readable) :
    ∃ events, run args w =
      Outcome.ofConversion (convert o w).1 (convert o w).2.result events := by
  obtain ⟨filter, hfilter⟩ := hlog
  unfold run
  rw [h]
  dsimp only
  rw [hfilter]
  exact ⟨_, rfl⟩

theorem run_of_unreadable (h : Options.ofArguments args = .ok o) (hlog : ¬ w.Readable) :
    run args w = { code := some Failure.breakCode } := by
  unfold run
  rw [h]
  cases hfilter : Filter.ofSetting? w.logSetting with
  | none => rfl
  | some filter => exact absurd ⟨filter, hfilter⟩ hlog

/-- A new session that has a schema after a conversion has just written it. -/
theorem convert_of_schema {schema : Schema}
    (h : ((fresh p).convert source layout).1.schema = some schema) :
    ((fresh p).convert source layout).2.result = .ok (schema.write layout) := by
  cases hd : (Session.shapesOf (fresh p).dialect source).result with
  | error e =>
    have hread : ((fresh p).read source).2.result = .error e := by rw [Session.read_of_error hd]
    rw [Session.convert_of_read_error hread, Session.read_of_error hd] at h
    cases h
  | ok shapes =>
    cases hr : ((fresh p).compiler.compile shapes).result with
    | error e =>
      rw [(Session.convert_of_compile_error layout hd hr).1] at h
      cases h
    | ok r =>
      obtain ⟨hstate, hconvert⟩ := Session.convert_of_ok layout hd hr
      rw [hstate] at h
      obtain rfl : r.1 = schema := Option.some.inj h
      exact hconvert

/-- A margin that is wider than any text is part of a text for which there is no room. -/
theorem WideMargin.breaksOff (h : WideMargin o w) : BreaksOff o w := by
  obtain ⟨p, layout, source, schema, hs, hschema, hm, hwide⟩ := h
  refine ⟨_, hs.writes_iff.2 (convert_of_schema hschema), fun hsize => ?_⟩
  have hmargin := indent_le_utf8ByteSize hm
  have hend := (utf8ByteSize_endLine (schema.write layout)).1
  rw [Surroundings.Holds] at hsize
  omega

theorem code?_cannotMake (e : SizeError) : ((Failure.cannotMake e).code? = some Failure.breakCode ∨
    (Failure.cannotMake e).code? = none) ∧
    ((Failure.cannotMake e).code? = some Failure.breakCode ↔ e = .tooLong) := by
  cases e <;> decide

theorem outcome_of_finishes {result : Except Failure Unit} (hf : Finishes o w effect result)
    (events : List Log.Event) : let r := Outcome.ofConversion effect result events
    (r.code = some 0 ↔ ∃ text, Yields o w text ∧ o.Deliverable w (endLine text)) ∧
    (∀ text, Yields o w text → r.code = some 0 →
      (o.output = none ∧ r.output = endLine text ∧ r.written = none) ∨
        ∃ path place, o.output = some path ∧ w.files.place path = .ok place ∧
          r.output = "" ∧ r.written = some (place, endLine text)) ∧
    (r.code ≠ some 0 → r.output = "" ∧ r.written = none) ∧
    (r.code = some 1 ↔ r.code ≠ some 0 ∧ ¬ BreaksOff o w) ∧
    (BreaksOff o w → (r.code = some Failure.breakCode ∨ r.code = none) ∧
      (r.code = some Failure.breakCode ↔ maxBytes ≤ w.room ∨ WideMargin o w)) := by
  intro r
  cases hf with
  | @printed text hy hd hout =>
    have hcode : r.code = some 0 := rfl
    refine ⟨iff_of_true hcode ⟨text, hy, hd⟩, fun text' hy' _ => .inl ?_,
      fun hne => absurd hcode hne, by simp [hcode], fun hb => absurd hb hy.not_breaksOff⟩
    rw [hy.1.unique hy'.1]
    exact ⟨hout, rfl, rfl⟩
  | @placed text path place hy hd hout hplace =>
    have hcode : r.code = some 0 := rfl
    refine ⟨iff_of_true hcode ⟨text, hy, hd⟩, fun text' hy' _ => .inr ?_,
      fun hne => absurd hcode hne, by simp [hcode], fun hb => absurd hb hy.not_breaksOff⟩
    rw [hy.1.unique hy'.1]
    exact ⟨path, place, hout, hplace, rfl, rfl⟩
  | failed hb hy hf =>
    have hcode : r.code = some 1 := hf
    have hne : r.code ≠ some 0 := by simp [hcode]
    refine ⟨iff_of_false hne ?_, fun _ _ hzero => absurd hzero hne, fun _ => ⟨rfl, rfl⟩,
      iff_of_true hcode ⟨hne, hb⟩, fun hb' => absurd hb' hb⟩
    rintro ⟨text, hy', hd⟩
    exact hy text hy' hd
  | @broken e hb he =>
    have hnone : ∀ text, ¬ Yields o w text := fun text hy => hy.not_breaksOff hb
    have hcode : (r.code = some Failure.breakCode ∨ r.code = none) ∧
        (r.code = some Failure.breakCode ↔ e = .tooLong) := code?_cannotMake e
    have hne : ∀ n, n ≠ Failure.breakCode → r.code ≠ some n := by
      intro n hn hr
      rcases hcode.1 with h | h
      · exact hn (Option.some.inj (hr.symm.trans h))
      · rw [hr] at h
        cases h
    refine ⟨iff_of_false (hne 0 (by decide)) ?_, fun text hy => absurd hy (hnone text),
      fun _ => ⟨rfl, rfl⟩, iff_of_false (hne 1 (by decide)) fun h => h.2 hb,
      fun _ => ⟨hcode.1, hcode.2.trans he⟩⟩
    rintro ⟨text, hy, -⟩
    exact hnone text hy

/-- A run delivers what the library makes of its input under its options, with a line end after it
where it has none, to standard output or to a file and nowhere else. A run that does not ends with
the code of a reported failure and leaves nothing, unless the library breaks off over a text for which
there is no room, or the setting of the log cannot be read. There is none for a text with a margin
that is wider than any text. -/
theorem run_all_or_nothing (h : Options.ofArguments args = .ok o) (w : Surroundings) :
    ((run args w).code = some 0 ↔
      w.Readable ∧ ∃ text, Yields o w text ∧ o.Deliverable w (endLine text)) ∧
    (∀ text, Yields o w text → (run args w).code = some 0 →
      ((endLine text = text ∨ endLine text = text ++ "\n") ∧
        (endLine text = text ++ "\n" ↔ text ≠ "" ∧ text.toList.getLast? ≠ some '\n')) ∧
      ((o.output = none ∧ (run args w).output = endLine text ∧ (run args w).written = none) ∨
        ∃ path place, o.output = some path ∧ w.files.place path = .ok place ∧
          (run args w).output = "" ∧ (run args w).written = some (place, endLine text))) ∧
    ((run args w).code ≠ some 0 → (run args w).output = "" ∧ (run args w).written = none) ∧
    ((run args w).code = some 1 ↔
      (run args w).code ≠ some 0 ∧ w.Readable ∧ ¬ BreaksOff o w) ∧
    (BreaksOff o w → w.Readable →
      ((run args w).code = some Failure.breakCode ∨ (run args w).code = none) ∧
      ((run args w).code = some Failure.breakCode ↔ maxBytes ≤ w.room ∨ WideMargin o w)) ∧
    (WideMargin o w → BreaksOff o w) := by
  by_cases hlog : w.Readable
  · obtain ⟨events, hrun⟩ := exists_run_eq h hlog
    obtain ⟨hzero, htext, hnothing, hone, hbreak⟩ :=
      outcome_of_finishes (finishes_convert o w) events
    rw [← hrun] at hzero htext hnothing hone hbreak
    refine ⟨?_, fun text hy hcode => ⟨endLine_eq text, htext text hy hcode⟩, hnothing, ?_,
      fun hb _ => hbreak hb, WideMargin.breaksOff⟩
    · simp only [hzero, hlog, true_and]
    · simp only [hone, hlog, true_and]
  · rw [run_of_unreadable h hlog]
    have hbreak : ∀ n, n ≠ Failure.breakCode → some Failure.breakCode ≠ some n :=
      fun n hn h => hn (Option.some.inj h).symm
    refine ⟨?_, fun _ _ hzero => absurd hzero (hbreak 0 (by decide)), fun _ => ⟨rfl, rfl⟩, ?_,
      fun _ hr => absurd hr hlog, WideMargin.breaksOff⟩
    · exact iff_of_false (hbreak 0 (by decide)) fun h => hlog h.1
    · exact iff_of_false (hbreak 1 (by decide)) fun h => hlog h.2.1

def piped : Surroundings := { input := { bytes := Text.utf8 "shapeId,propertyId\nA,p\n" } }

theorem yields_of_piped : ∃ text, Yields { output := some "a.json" } piped text := by
  obtain ⟨⟨dialect, compiler⟩, layout, hmeans, hplan⟩ := Options.plan_eq_ok_iff.1
    (rfl : ({ output := some "a.json" } : Options).plan.result = .ok _)
  have hs : Starts { output := some "a.json" } piped ⟨dialect, compiler⟩ layout piped.input :=
    ⟨hmeans, rfl⟩
  simp only [Options.planFor, fresh, Plan.mk.injEq, Session.mk.injEq] at hplan
  obtain ⟨⟨rfl, rfl, -, -⟩, rfl, -, -⟩ := hplan
  -- the bytes are bounded by the characters, which are quicker to count
  have hcount : ((fresh {}).convert piped.input { format := .shexJ }).1.schema.map
      (fun s => (s.document.chars 2 0).length) = some 338 := by decide +kernel
  obtain ⟨schema, hschema, hlength⟩ := Option.map_eq_some_iff.1 hcount
  refine ⟨_, hs.writes_iff.2 (convert_of_schema hschema), ?_⟩
  have hsize : (schema.write { format := .shexJ }).utf8ByteSize ≤ 4 * 338 := by
    rw [← hlength]
    exact utf8ByteSize_ofList_le _
  exact (utf8ByteSize_endLine _).2.trans ((Nat.succ_le_succ hsize).trans (by decide))

/-- The schema of that profile goes to a file in the syntax of its extension. -/
theorem run_all_or_nothing_of_piped :
    Options.ofArguments ["--output", "a.json"] = .ok { output := some "a.json" } ∧
    (run ["--output", "a.json"] piped).code = some 0 ∧
    (run ["--output", "a.json"] piped).output = "" ∧
    ∃ text, Yields { output := some "a.json" } piped text ∧
      (run ["--output", "a.json"] piped).written = some (["a.json"], endLine text) := by
  have hargs : Options.ofArguments ["--output", "a.json"] = .ok { output := some "a.json" } := by
    decide +kernel
  have hat : piped.files.place "a.json" = .ok ["a.json"] := by decide +kernel
  obtain ⟨hzero, htext, -⟩ := run_all_or_nothing hargs piped
  obtain ⟨text, hy⟩ := yields_of_piped
  have hcode : (run ["--output", "a.json"] piped).code = some 0 := by
    refine hzero.2 ⟨⟨_, rfl⟩, text, hy, nofun, fun path hpath => ?_⟩
    cases hpath
    exact ⟨_, hat⟩
  obtain ⟨-, ⟨hout, -⟩ | ⟨path, place, hpath, hplace, hnothing, hwritten⟩⟩ := htext text hy hcode
  · cases hout
  · obtain rfl : "a.json" = path := Option.some.inj hpath
    rw [hat] at hplace
    cases hplace
    exact ⟨hargs, hcode, hnothing, text, hy, hwritten⟩

/-- A margin that no text can have: the run neither succeeds nor fails with a report. -/
theorem run_breaks_off_of_piped :
    Options.ofArguments ["--indent", "9223372036854775808"] =
      .ok { indent := some 9223372036854775808 } ∧
    (run ["--indent", "2"] piped).code = some 0 ∧
    (run ["--indent", "9223372036854775808"] piped).code = some 101 ∧
    (run ["--indent", "9223372036854775808"] piped).report = none := by
  refine ⟨?_, ?_, ?_, ?_⟩ <;> decide +kernel

end TabularShapes.CommandLine
