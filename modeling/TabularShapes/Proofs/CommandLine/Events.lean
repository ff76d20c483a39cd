import TabularShapes.Proofs.CommandLine.Run
import TabularShapes.Proofs.Compile.Events

/-! What a run of the command line logs. Nothing but the choice of the syntax and the compilation warns
of anything, so that the log of a run that succeeds is the warning about an unknown extension, if
there is one, and then the warnings that the compilation returns. -/

namespace TabularShapes

open Log (Event Filter)

/-! ### Reading is quiet -/

namespace Profile

theorem quiet_rowsOf (h : Header) (failure : Option String) (rs : List Table.Record) :
    (rowsOf h failure rs).Quiet := by
  induction rs with
  | nil => exact .bind (.of _) fun _ => .pure _
  | cons r rest ih =>
    refine .bind (.of _) fun fields => ?_
    split
    · exact ih
    · refine .bind (.of _) fun row => ?_
      refine .bind (.report rfl) fun _ => ?_
      exact .bind ih fun _ => .pure _

theorem quiet_read (d : Table.Dialect) (source : Table.Source) : (read d source).Quiet := by
  refine .bind (.of _) fun r => ?_
  refine .bind (quiet_rowsOf r.1 source.failureMet r.2) fun rows => ?_
  exact .bind (.report rfl) fun _ => .pure _

theorem quiet_group (rows : List Row) : (group rows).Quiet := by
  refine .bind (.of _) fun shapes => ?_
  exact .bind (.report rfl) fun _ => .pure _

end Profile

namespace Session

variable {s : Session}

theorem quiet_read (s : Session) (source : Table.Source) : (s.read source).2.Quiet := by
  have hshapes : (shapesOf s.dialect source).Quiet :=
    .bind (Profile.quiet_read _ _) fun rows => (Profile.quiet_group rows).mapError _
  unfold read
  simp only [Stateful.snd_run_bind]
  refine .bind hshapes fun shapes => ?_
  exact .bind (.report rfl) fun _ => .pure _

theorem warnings_compile {shapes : List Profile.Shape} (h : s.profile = some shapes) :
    s.compile.2.warnings = (s.compiler.compile shapes).warnings := by
  cases hr : (s.compiler.compile shapes).result with
  | ok r => rw [compile_of_ok h hr]; rfl
  | error e => rw [compile_of_error h hr]; rfl

end Session

namespace CommandLine

open Session (Settings fresh)

variable {o : Options} {w : Surroundings} {p : Settings} {layout : Layout} {source : Table.Source}
  {args : List String} {text : String}

/-- The output file whose extension stands for no syntax, where none is asked for. -/
def Options.unknownExtension? (o : Options) : Option String :=
  match o.format with
  | some _ => none
  | none => o.output.filter fun path => ((extension? path).bind Format.ofExtension?).isNone

theorem warnings_chooseFormat (o : Options) :
    o.chooseFormat.warnings = o.unknownExtension?.toList.map Event.extensionUnknown := by
  unfold Options.chooseFormat Options.unknownExtension?
  split
  · next hname => rw [hname]; rfl
  · next hname hout => rw [hname, hout]; rfl
  · next path hname hout =>
    rw [hname, hout]
    cases hf : (extension? path).bind Format.ofExtension? with
    | some format => simp [Option.filter, hf]
    | none => simp [Option.filter, hf]; rfl

theorem warnings_plan (o : Options) :
    o.plan.warnings = o.unknownExtension?.toList.map Event.extensionUnknown := by
  rw [← warnings_chooseFormat]
  refine Traced.warnings_bind_of_quiet fun _ => ?_
  refine .bind (.of _) fun _ => ?_
  exact .bind (.of _) fun _ => .pure _

/-- A text that is made comes from a profile that is read and compiled, and making it logs what the
compilation returns. -/
theorem warnings_text {room : ℕ} (h : ((o.planFor p layout).text room source).result = .ok text) :
    ∃ shapes schema ws, (Session.shapesOf p.dialect source).result = .ok shapes ∧
      (p.compiler.compile shapes).result = .ok (schema, ws) ∧
      ((o.planFor p layout).text room source).warnings = ws.map Warning.event := by
  rw [result_text] at h
  obtain ⟨⟨⟩, hread, h⟩ := bind_eq_ok_iff.1 h
  obtain ⟨⟨⟩, hcompile, -⟩ := bind_eq_ok_iff.1 h
  have hresult := mapError_eq_ok_iff.1 hread
  rw [Session.result_read] at hresult
  obtain ⟨shapes, hshapes, -⟩ := map_eq_ok_iff.1 hresult
  have hprofile : ((fresh p).read source).1.profile = some shapes := by
    rw [Session.read_of_ok hshapes]
  have hcompiler : ((fresh p).read source).1.compiler = p.compiler := by
    rw [Session.read_of_ok hshapes]
    rfl
  have hcompiled := mapError_eq_ok_iff.1 hcompile
  rw [Session.result_compile_of_profile hprofile, hcompiler] at hcompiled
  obtain ⟨⟨schema, ws⟩, hr, -⟩ := map_eq_ok_iff.1 hcompiled
  have hok := mapError_eq_ok_iff.1 hr
  refine ⟨shapes, schema, ws, hshapes, hok, ?_⟩
  rw [text_eq, Traced.warnings_bind_of_ok hread, Traced.warnings_mapError, Session.quiet_read,
    List.nil_append]
  -- after the compilation only the number of its warnings is reported
  refine (Traced.warnings_bind_of_quiet fun _ => ?_).trans ?_
  · exact .bind (.report rfl) fun _ => .of _
  · rw [Traced.warnings_mapError, Session.warnings_compile hprofile, hcompiler]
    exact Compiler.warnings_of_compile hok

theorem quiet_deliver (w : Surroundings) (output : Option String) (text : String) (effect : Effect) :
    ((w.deliver output text).run effect).2.Quiet := by
  cases output with
  | none =>
    simp only [Surroundings.deliver, Surroundings.print]
    split
    · split <;> exact .of _
    · exact .pure _
  | some path =>
    simp only [Surroundings.deliver, Stateful.snd_run_bind]
    exact .bind (.of _) fun _ => .pure _

theorem snd_convert (o : Options) (w : Surroundings) : (convert o w).2 =
    (o.plan >>= fun plan => Traced.of (w.source plan.file) >>= fun source =>
      plan.text w.room source >>= fun text => ((w.deliver plan.output text).run {}).2) := by
  simp only [convert, Stateful.snd_run_bind]
  rfl

theorem warnings_convert (h : (convert o w).2.result = .ok ()) :
    ∃ p layout source shapes schema ws, Starts o w p layout source ∧
      (Session.shapesOf p.dialect source).result = .ok shapes ∧
      (p.compiler.compile shapes).result = .ok (schema, ws) ∧
      (convert o w).2.warnings =
        o.unknownExtension?.toList.map Event.extensionUnknown ++ ws.map Warning.event := by
  rw [snd_convert] at h ⊢
  have hresult := h
  simp only [Traced.result_bind, Traced.result_of, bind_eq_ok_iff] at hresult
  obtain ⟨plan, hplan, source, hsource, text, htext, -⟩ := hresult
  obtain ⟨p, layout, hmeans, rfl⟩ := Options.plan_eq_ok_iff.1 hplan
  obtain ⟨shapes, schema, ws, hshapes, hcompiled, hwarnings⟩ := warnings_text htext
  refine ⟨p, layout, source, shapes, schema, ws, ⟨hmeans, hsource⟩, hshapes, hcompiled, ?_⟩
  rw [Traced.warnings_bind_of_ok hplan, warnings_plan, hsource,
    Traced.warnings_bind_of_ok (Traced.result_of _), Traced.warnings_of, List.nil_append, ← hwarnings]
  congr 1
  exact Traced.warnings_bind_of_quiet fun _ => quiet_deliver ..

theorem events_run (h : Options.ofArguments args = .ok o) (hjson : o.jsonLogs = true)
    (hlog : w.logSetting = none) : (run args w).events = (convert o w).2.warnings := by
  have hfilter : Filter.ofSetting? w.logSetting = some Filter.warnings := by
    rw [hlog]
    rfl
  have hshown : (convert o w).2.events.filter Filter.warnings.shows = (convert o w).2.warnings :=
    List.filter_congr fun e _ => Filter.shows_warnings e
  simp only [run, h, hfilter, hjson, if_true, hshown]
  cases (convert o w).2.result <;> rfl

theorem Failure.code?_ne_zero (f : Failure) : f.code? ≠ some 0 := by
  cases f with
  | cannotMake e => cases e <;> simp [code?, breakCode]
  | _ => simp [code?]

theorem convert_of_run (h : Options.ofArguments args = .ok o)
    (hcode : (run args w).code = some 0) : (convert o w).2.result = .ok () := by
  by_cases hlog : w.Readable
  · obtain ⟨events, hrun⟩ := exists_run_eq h hlog
    rw [hrun] at hcode
    cases hd : (convert o w).2.result with
    | ok u => rfl
    | error f =>
      rw [hd] at hcode
      exact absurd hcode f.code?_ne_zero
  · rw [run_of_unreadable h hlog] at hcode
    cases hcode

/-- What is logged is what is returned. A compilation that succeeds warns of what it returns, in order,
one that fails has warned of the references that were dropped before the place that offends, and a
strict one never warns. A run that succeeds and logs as JSON, without a setting of its own, therefore
shows the warnings of its compilation, after the one about an unknown extension if there is one. -/
theorem logged_as_returned :
    (∀ (c : Compiler) shapes schema ws, (c.compile shapes).result = .ok (schema, ws) →
      (c.compile shapes).warnings = ws.map Warning.event) ∧
    (∀ (c : Compiler) shapes e, (c.compile shapes).result = .error e →
      ∃ before p, c.FailsAt shapes before p e ∧
        (c.compile shapes).warnings = (before.filterMap (c.dropped? shapes)).map Warning.event) ∧
    (∀ c : Compiler, c.lenient = false → ∀ shapes, (c.compile shapes).warnings = []) ∧
    ∀ args o w, Options.ofArguments args = .ok o → o.jsonLogs = true → w.logSetting = none →
      (run args w).code = some 0 →
      ∃ p layout source shapes schema ws, Starts o w p layout source ∧
        (Session.shapesOf p.dialect source).result = .ok shapes ∧
        (p.compiler.compile shapes).result = .ok (schema, ws) ∧
        (run args w).events =
          o.unknownExtension?.toList.map Event.extensionUnknown ++ ws.map Warning.event := by
  refine ⟨fun c shapes schema ws => Compiler.warnings_of_compile,
    fun c shapes e => Compiler.warnings_of_error,
    fun c hc shapes => Compiler.warnings_of_strict hc shapes, ?_⟩
  intro args o w hargs hjson hlog hcode
  obtain ⟨p, layout, source, shapes, schema, ws, hstarts, hshapes, hcompiled, hwarnings⟩ :=
    warnings_convert (convert_of_run hargs hcode)
  refine ⟨p, layout, source, shapes, schema, ws, hstarts, hshapes, hcompiled, ?_⟩
  rw [events_run hargs hjson hlog, hwarnings]

/-- Two references to no shape, the second of which comes after a name that cannot be read. -/
def broken : Profile.Shape :=
  { id := "A", statements := [{ property := "p", valueShape := some "B" }, { property := "o:q" },
      { property := "r", valueShape := some "C" }] }

def dangling : Surroundings :=
  { input := { bytes := Text.utf8 "shapeId,propertyId,valueShape\nA,p,B\n" } }

theorem logged_as_returned_of_dangling :
    (∃ before p,
      Compiler.default.leniently.FailsAt [broken] before p (.undeclaredPrefix "o:q" "o") ∧
      (before.filterMap (Compiler.default.leniently.dropped? [broken])).map Warning.event =
        [.referenceDropped "B" "A" "p"]) ∧
    (Compiler.default.strictly.compile [broken]).warnings = [] ∧
    (run ["--lenient", "--json-logs", "--output", "a.txt"] dangling).code = some 0 ∧
    (run ["--lenient", "--json-logs", "--output", "a.txt"] dangling).events =
      [.extensionUnknown "a.txt", .referenceDropped "B" "A" "p"] ∧
    ∃ p layout source shapes schema ws,
      Starts { lenient := true, jsonLogs := true, output := some "a.txt" } dangling p layout source ∧
      (p.compiler.compile shapes).result = .ok (schema, ws) ∧
      ws.map Warning.event = [.referenceDropped "B" "A" "p"] := by
  have hargs : Options.ofArguments ["--lenient", "--json-logs", "--output", "a.txt"] =
      .ok { lenient := true, jsonLogs := true, output := some "a.txt" } := by
    decide +kernel
  have hcode : (run ["--lenient", "--json-logs", "--output", "a.txt"] dangling).code = some 0 := by
    decide +kernel
  have hevents : (run ["--lenient", "--json-logs", "--output", "a.txt"] dangling).events =
      [.extensionUnknown "a.txt", .referenceDropped "B" "A" "p"] := by
    decide +kernel
  have herror : (Compiler.default.leniently.compile [broken]).result =
      .error (.undeclaredPrefix "o:q" "o") :=
    failure?_eq_some_iff.1 (by decide +kernel)
  have hwarnings : (Compiler.default.leniently.compile [broken]).warnings =
      [.referenceDropped "B" "A" "p"] := by
    decide +kernel
  obtain ⟨-, hfails, hstrict, hrun⟩ := logged_as_returned
  obtain ⟨before, q, hfailsAt, hdropped⟩ := hfails _ _ _ herror
  obtain ⟨p, layout, source, shapes, schema, ws, hstarts, -, hcompiled, hlogged⟩ :=
    hrun _ _ _ hargs rfl rfl hcode
  refine ⟨⟨before, q, hfailsAt, hdropped.symm.trans hwarnings⟩, hstrict _ rfl _,
    hcode, hevents, p, layout, source, shapes, schema, ws, hstarts, hcompiled, ?_⟩
  have hunknown : ({ lenient := true, jsonLogs := true, output := some "a.txt" } :
      Options).unknownExtension? = some "a.txt" := by
    decide +kernel
  rw [hevents, hunknown] at hlogged
  exact (List.cons.inj hlogged).2.symm

end CommandLine

end TabularShapes
