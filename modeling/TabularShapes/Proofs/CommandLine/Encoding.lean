import TabularShapes.Proofs.CommandLine.Run
import TabularShapes.Proofs.Profile.Records
import TabularShapes.Proofs.Table.Characters

/-! Input that is text is never refused for its encoding. A reader whose delimiter and quote are ASCII
cuts a text into texts, and the command line takes no other delimiter. What is then left to fail over
is the profile: its header and its rows. -/

namespace TabularShapes

open Text (IsText utf8)
open Table (Dialect Source)

namespace Profile

variable {d : Dialect} {source : Source} {failure : Option String} {header : Header}
  {rs rest : List Table.Record} {e : ReadError}

inductive Fault : ReadError → Prop
  | missingHeader : Fault .missingHeader
  | missingColumn : Fault (.missingColumn .propertyId)
  | row {line : ℕ} {e : ReadError} (h : RowFault line e) : Fault e

theorem recordTexts_of_isText {r : Table.Record} (h : r.IsText) :
    ∃ fields, recordTexts r = .ok fields := by
  obtain ⟨fields, hfields⟩ := h.exists_texts
  exact ⟨fields, mapError_eq_ok_iff.2 hfields⟩

theorem fault_of_recordRow? {r : Table.Record} (hr : r.IsText)
    (h : recordRow? header r = .error e) : Fault e := by
  obtain ⟨fields, hfields⟩ := recordTexts_of_isText hr
  rcases recordRow?_eq_error_iff.1 h with h | ⟨_, -, -, h⟩
  · rw [hfields] at h
    cases h
  · exact .row (rowFault_of_row h)

theorem fault_of_rowsOf (hrs : ∀ r ∈ rs, r.IsText)
    (h : (rowsOf header failure rs).result = .error e) : ending failure = .error e ∨ Fault e := by
  rcases rowsOf_eq_error_iff.1 h with ⟨before, r, after, rfl, -, h⟩ | ⟨-, h⟩
  · exact .inr (fault_of_recordRow? (hrs r (by simp)) h)
  · exact .inl h

theorem fault_of_headerOf (hrs : ∀ r ∈ rs, r.IsText) (h : headerOf failure rs = .error e) :
    ending failure = .error e ∨ Fault e := by
  rcases headerOf_eq_error h with ⟨r, hr, h⟩ | h | rfl | rfl
  · obtain ⟨fields, hfields⟩ := recordTexts_of_isText (hrs r hr)
    rw [hfields] at h
    cases h
  · exact .inl h
  · exact .inr .missingHeader
  · exact .inr .missingColumn

theorem fault_of_read (hd : d.Ascii) (hsource : IsText source.bytes)
    (h : (read d source).result = .error e) : ending source.failureMet = .error e ∨ Fault e := by
  have hrecords : ∀ r ∈ Table.records d source, r.IsText :=
    fun r hr => Table.isText_of_mem_records hd hsource hr
  rw [result_read, bind_eq_error_iff] at h
  rcases h with h | ⟨⟨header, rest⟩, hheader, h⟩
  · exact fault_of_headerOf hrecords h
  · obtain ⟨before, r, fields, hsplit, -⟩ := headerOf_eq_ok_iff.1 hheader
    refine fault_of_rowsOf (fun r' hr' => hrecords r' ?_) h
    rw [hsplit]
    exact List.mem_append_right _ (List.mem_cons_of_mem _ hr')

end Profile

namespace CommandLine

open Session (Settings fresh)

variable {o : Options} {w : Surroundings} {p : Settings} {layout : Layout} {source : Source}
  {f : Failure} {e : SessionError}

/-- The error of the library that lies behind a failure. -/
def Failure.error? : Failure → Option SessionError
  | cannotRead error | cannotCompile error | cannotSerialize error => some error
  | _ => none

theorem Refusal.error? (h : Refusal f) : f.error? = none := by
  cases h <;> rfl

theorem exists_starts_of_convert_error (h : (convert o w).2.result = .error f)
    (he : f.error? = some e) : ∃ p layout source, Starts o w p layout source ∧
      ((o.planFor p layout).text w.room source).result = .error f := by
  by_cases hstarts : ∃ p layout source, Starts o w p layout source
  · obtain ⟨p, layout, source, hs⟩ := hstarts
    obtain ⟨hok, herror⟩ := convert_of_starts hs
    cases htext : ((o.planFor p layout).text w.room source).result with
    | ok text =>
      rw [(hok text htext).2] at h
      have hdelivers := delivers_deliver o w text
      rw [h] at hdelivers
      generalize ((w.deliver o.output text).run {}).1 = effect at hdelivers
      cases hdelivers with
      | refused hd hf =>
        rw [hf.error?] at he
        cases he
    | error f' =>
      rw [(herror f' htext).2] at h
      cases h
      exact ⟨p, layout, source, hs, htext⟩
  · obtain ⟨-, f', hf, hfault⟩ := convert_of_not_starts hstarts
    cases h.symm.trans hf
    rcases hfault with h | ⟨path, e', rfl⟩
    · cases h <;> cases he
    · cases he

theorem compile_ne_read (s : Session) (e : Profile.ReadError) :
    s.compile.2.result ≠ .error (.read e) := by
  intro h
  cases hprofile : s.profile with
  | none =>
    rw [Session.compile_of_none hprofile] at h
    cases h
  | some shapes =>
    rw [Session.result_compile_of_profile hprofile, map_eq_error_iff, mapError_eq_error_iff] at h
    obtain ⟨e', -, h⟩ := h
    cases h

theorem writeSchema_ne_read {s : Session} {room : Nat} (h : writeSchema s layout room = .error f)
    (e : Profile.ReadError) : f.error? ≠ some (.read e) := by
  intro he
  cases hs : s.schema with
  | none =>
    rw [writeSchema, hs] at h
    cases h
    cases he
  | some schema =>
    obtain ⟨e', rfl, -⟩ := size_of_writeSchema_error hs h
    cases he

theorem read_error_of_session {s : Session} {e : Profile.ReadError}
    (h : (s.read source).2.result = .error (.read e)) :
    (Profile.read s.dialect source).result = .error e := by
  rw [Session.result_read, map_eq_error_iff, Session.result_shapesOf, bind_eq_error_iff] at h
  rcases h with h | ⟨rows, -, h⟩
  · obtain ⟨_, h, ⟨⟩⟩ := mapError_eq_error_iff.1 h
    exact h
  · obtain ⟨_, -, ⟨⟩⟩ := mapError_eq_error_iff.1 h

theorem read_error_of_text {e : Profile.ReadError}
    (h : ((o.planFor p layout).text w.room source).result = .error f)
    (he : f.error? = some (.read e)) :
    (Profile.read p.dialect source).result = .error e := by
  rw [result_text, bind_eq_error_iff] at h
  rcases h with h | ⟨⟨⟩, -, h⟩
  · obtain ⟨_, hread, rfl⟩ := mapError_eq_error_iff.1 h
    cases he
    exact read_error_of_session hread
  · rcases bind_eq_error_iff.1 h with h | ⟨⟨⟩, -, h⟩
    · obtain ⟨_, hcompile, rfl⟩ := mapError_eq_error_iff.1 h
      cases he
      exact absurd hcompile (compile_ne_read _ e)
    · exact absurd he (writeSchema_ne_read h e)

theorem Options.Means.ascii_dialect (h : o.Means p layout) : p.dialect.Ascii := by
  have hc := h.ascii
  rw [h.dialect]
  refine ⟨(by decide : (0x22 : UInt8).toNat < 128), ?_⟩
  rw [UInt8.toNat_ofNat']
  omega

/-- A reader with an ASCII delimiter and an ASCII quote cuts a text into texts, and fails over it for
what its header or its rows say. The command line finds a malformed table only in what is no text. -/
theorem text_never_malformed :
    (∀ (d : Dialect) (text : String), d.Ascii →
      (∀ r ∈ Table.records d { bytes := utf8 text }, ∀ f ∈ r.fields, ∃ t, utf8 t = f) ∧
      ∀ e, (Profile.readText d text).result = .error e → Profile.Fault e) ∧
    ∀ (o : Options) (w : Surroundings) (f : Failure) (fault : Table.Malformation),
      (convert o w).2.result = .error f → f.error? = some (.read (.malformed fault)) →
        ∃ source, w.source o.file = .ok source ∧ ¬IsText source.bytes := by
  refine ⟨fun d text hd => ⟨fun r hr f hf => ?_, fun e he => ?_⟩, fun o w f fault hconvert hf => ?_⟩
  · exact (Table.isText_of_mem_records hd (Text.isText_utf8 text) hr f hf).exists_utf8
  · rcases Profile.fault_of_read hd (Text.isText_utf8 text) he with h | h
    · rw [Source.failureMet_bytes] at h
      cases h
    · exact h
  · obtain ⟨p, layout, source, hstarts, htext⟩ := exists_starts_of_convert_error hconvert hf
    refine ⟨source, hstarts.source, fun hsource => ?_⟩
    have hread := read_error_of_text htext hf
    rcases Profile.fault_of_read hstarts.means.ascii_dialect hsource hread with h | h
    · cases hmet : source.failureMet <;> rw [hmet] at h <;> cases h
    · cases h with
      | row h => cases h

/-- The delimiter and the quote of the reader are both the line feed; the input of the command line
starts within a character. -/
theorem text_never_malformed_of_line_feeds :
    (∃ e, (Profile.readText { delimiter := 0x0A, quote := 0x0A } "é\n").result = .error e ∧
      Profile.Fault e) ∧
    ∃ source, ({ input := { bytes := [0xA9] } } : Surroundings).source none = .ok source ∧
      ¬IsText source.bytes := by
  obtain ⟨htext, hconvert⟩ := text_never_malformed
  have hread : (Profile.readText { delimiter := 0x0A, quote := 0x0A } "é\n").result =
      .error (.missingColumn .propertyId) :=
    failure?_eq_some_iff.1 (by decide +kernel)
  have hfails : (convert {} { input := { bytes := [0xA9] } }).2.result =
      .error (.cannotRead (.read (.malformed ⟨⟨0, 1, 0⟩, 0, 0⟩))) :=
    failure?_eq_some_iff.1 (by decide +kernel)
  exact ⟨⟨_, hread, (htext _ _ ⟨by decide, by decide⟩).2 _ hread⟩, hconvert _ _ _ _ hfails rfl⟩

end CommandLine

end TabularShapes
