import TabularShapes.CommandLine.Run
import TabularShapes.Proofs.Name.Writing
import TabularShapes.Proofs.Session.Conversion

/-! What the options of the command line mean: how a profile is read and compiled, and how the schema
is written. The plan of a run is what its options mean, and where they mean nothing the run fails
with a report. -/

namespace TabularShapes.CommandLine

open Session (Settings)

/-! ### Declarations of namespaces -/

/-- A text that declares a namespace: its abbreviation and its IRI with an equals sign between them,
both of them valid. -/
structure Declares (text : String) (p : String × String) : Prop where
  written : text = p.1 ++ "=" ++ p.2
  space : isPrefixName p.1.toList = true
  iri : isIri p.2.toList = true

namespace Options

variable {o : Options} {c c' : Compiler} {f : Failure}

theorem declares_iff {text : String} {p : String × String} :
    Declares text p ↔ ∃ space iri, Text.cutAt '=' text.toList = some (space, iri) ∧
      p = (String.ofList space, String.ofList iri) ∧ isPrefixName space = true ∧
      isIri iri = true := by
  refine ⟨?_, ?_⟩
  · rintro ⟨rfl, hs, hi⟩
    have hequals : '=' ∉ p.1.toList := by
      intro h
      have hchar := (mem_prefixName hs h).1
      revert hchar
      decide
    have hchars : (p.1 ++ "=" ++ p.2).toList = p.1.toList ++ '=' :: p.2.toList := by simp
    refine ⟨p.1.toList, p.2.toList, ?_, by simp, hs, hi⟩
    rw [hchars, Text.cutAt_append _ hequals]
  · rintro ⟨space, iri, hcut, rfl, hs, hi⟩
    obtain ⟨htext, -⟩ := Text.eq_of_cutAt hcut
    refine ⟨?_, by simpa using hs, by simpa using hi⟩
    apply String.toList_injective
    simp [htext]

theorem declare_cons_eq_ok_iff {text : String} {texts : List String} :
    declare c (text :: texts) = .ok c' ↔ ∃ p, Declares text p ∧
      declare { c with prefixes := c.prefixes.declare p.1 p.2 } texts = .ok c' := by
  simp only [declares_iff]
  rw [declare]
  cases hcut : Text.cutAt '=' text.toList with
  | none => simp
  | some parts =>
    obtain ⟨space, iri⟩ := parts
    simp only [bind_eq_ok_iff, mapError_eq_ok_iff, Compiler.withPrefix_eq_ok_iff,
      String.toList_ofList]
    refine ⟨?_, ?_⟩
    · rintro ⟨_, ⟨hs, hi, rfl⟩, hrest⟩
      exact ⟨_, ⟨space, iri, rfl, rfl, hs, hi⟩, hrest⟩
    · rintro ⟨_, ⟨_, _, h, rfl, hs, hi⟩, hrest⟩
      cases h
      exact ⟨_, ⟨hs, hi, rfl⟩, hrest⟩

theorem declare_eq_ok_iff {texts : List String} :
    declare c texts = .ok c' ↔ ∃ pairs, List.Forall₂ Declares texts pairs ∧
      c' = { c with prefixes := c.prefixes.declareAll pairs } := by
  induction texts generalizing c with
  | nil => simp [declare, PrefixMap.declareAll, eq_comm]
  | cons text texts ih =>
    simp only [declare_cons_eq_ok_iff, ih, List.forall₂_cons_left_iff]
    refine ⟨?_, ?_⟩
    · rintro ⟨p, hp, pairs, hpairs, rfl⟩
      exact ⟨p :: pairs, ⟨p, pairs, hp, hpairs, rfl⟩, rfl⟩
    · rintro ⟨_, ⟨p, pairs, hp, hpairs, rfl⟩, rfl⟩
      exact ⟨p, hp, pairs, hpairs, rfl⟩

/-! ### What options mean -/

/-- The syntax that the options ask for: the one of the given name, else that of the extension of the
output file, else the compact one. -/
@[mk_iff]
structure Asks (o : Options) (format : Format) : Prop where
  named : ∀ name, o.format = some name → Format.ofName? name = some format
  guessed : o.format = none →
    format = ((o.output.bind extension?).bind Format.ofExtension?).getD .shexC

structure Means (o : Options) (p : Settings) (layout : Layout) : Prop where
  format : o.Asks layout.format
  indent : layout.indent = o.indent.getD 2
  labels : layout.labels = o.labels
  colours : layout.colours = o.colours
  ascii : (o.delimiter.getD ',').toNat < 128
  dialect : p.dialect = { delimiter := UInt8.ofNat (o.delimiter.getD ',').toNat }
  /-- Declarations stand in the place of the default namespaces. -/
  prefixes : ∃ pairs, List.Forall₂ Declares o.prefixes pairs ∧
    p.compiler.prefixes =
      if o.prefixes = [] then Compiler.defaultPrefixes else PrefixMap.declareAll ∅ pairs
  resolver : p.compiler.resolver =
    if o.resolvePrefixes then p.compiler.prefixes.resolver else Resolver.none
  lenient : p.compiler.lenient = o.lenient

theorem chooseFormat_eq_ok_iff {format : Format} :
    o.chooseFormat.result = .ok format ↔ o.Asks format := by
  have hdefault : (default : Format) = .shexC := rfl
  rw [asks_iff]
  unfold chooseFormat
  split
  · next name hname =>
    cases hf : Format.ofName? name <;> simp [hname, hf, eq_comm]
  · next hname hout => simp [hname, hout, hdefault, eq_comm]
  · next path hname hout =>
    cases hf : (extension? path).bind Format.ofExtension? with
    | some found => simp [hname, hout, hf, eq_comm]
    | none =>
      simp only [Traced.result_bind, bind_eq_ok_iff]
      simp [hname, hout, hf, hdefault, eq_comm]

theorem chooseDelimiter_eq_ok_iff {b : UInt8} :
    o.chooseDelimiter = .ok b ↔ (o.delimiter.getD ',').toNat < 128 ∧
      b = UInt8.ofNat (o.delimiter.getD ',').toNat := by
  unfold chooseDelimiter
  dsimp only
  split
  · next h => simp [h, eq_comm]
  · next h => simp [h]

/-- The compiler to which declarations are added: without any it keeps the default namespaces. -/
def start (texts : List String) : Compiler :=
  if texts.isEmpty then .default else Compiler.default.withoutPrefixes

theorem resolver_start (texts : List String) : (start texts).resolver = Resolver.none := by
  unfold start
  split <;> rfl

theorem declareAll_start {texts : List String} {pairs : List (String × String)}
    (h : List.Forall₂ Declares texts pairs) : (start texts).prefixes.declareAll pairs =
      if texts = [] then Compiler.defaultPrefixes else PrefixMap.declareAll ∅ pairs := by
  cases h <;> rfl

theorem chooseCompiler_eq (o : Options) :
    o.chooseCompiler = (declare (start o.prefixes) o.prefixes).map fun c =>
      { c with
        resolver := if o.resolvePrefixes then c.prefixes.resolver else c.resolver
        lenient := o.lenient } := by
  unfold chooseCompiler start
  cases o.resolvePrefixes <;> rfl

theorem chooseCompiler_eq_ok_iff :
    o.chooseCompiler = .ok c ↔
      (∃ pairs, List.Forall₂ Declares o.prefixes pairs ∧ c.prefixes =
        if o.prefixes = [] then Compiler.defaultPrefixes else PrefixMap.declareAll ∅ pairs) ∧
      c.resolver = (if o.resolvePrefixes then c.prefixes.resolver else Resolver.none) ∧
      c.lenient = o.lenient := by
  simp only [chooseCompiler_eq, map_eq_ok_iff, declare_eq_ok_iff]
  refine ⟨?_, ?_⟩
  · rintro ⟨_, ⟨pairs, hpairs, rfl⟩, rfl⟩
    exact ⟨⟨pairs, hpairs, declareAll_start hpairs⟩, by rw [resolver_start], rfl⟩
  · rintro ⟨⟨pairs, hpairs, hprefixes⟩, hresolver, hlenient⟩
    refine ⟨_, ⟨pairs, hpairs, rfl⟩, ?_⟩
    obtain ⟨m, resolver, lenient⟩ := c
    dsimp only at hprefixes hresolver hlenient ⊢
    rw [declareAll_start hpairs, ← hprefixes, resolver_start, ← hresolver, hlenient]

def planFor (o : Options) (p : Settings) (layout : Layout) : Plan :=
  { session := Session.fresh p, layout, file := o.file, output := o.output }

theorem plan_eq_ok_iff {plan : Plan} :
    o.plan.result = .ok plan ↔ ∃ p layout, o.Means p layout ∧ plan = o.planFor p layout := by
  simp only [Options.plan, Traced.result_bind, bind_eq_ok_iff, chooseFormat_eq_ok_iff, Traced.liftM_eq_of,
    Traced.result_of, chooseDelimiter_eq_ok_iff, chooseCompiler_eq_ok_iff, Traced.result_pure]
  refine ⟨?_, ?_⟩
  · rintro ⟨format, hformat, b, ⟨hascii, rfl⟩, c, ⟨hprefixes, hresolver, hlenient⟩, hplan⟩
    cases hplan
    exact ⟨⟨_, c⟩, _, ⟨hformat, rfl, rfl, rfl, hascii, rfl, hprefixes, hresolver, hlenient⟩, rfl⟩
  · rintro ⟨⟨dialect, c⟩, ⟨format, indent, labels, colours⟩, h, rfl⟩
    obtain ⟨hformat, rfl, rfl, rfl, hascii, rfl, hprefixes, hresolver, hlenient⟩ := h
    exact ⟨format, hformat, _, ⟨hascii, rfl⟩, c, ⟨hprefixes, hresolver, hlenient⟩, rfl⟩

/-! ### Options that mean nothing -/

/-- What can be wrong with options. -/
inductive Misuse : Failure → Prop
  | unknownFormat (name : String) : Misuse (.unknownFormat name)
  | wideDelimiter (c : Char) : Misuse (.wideDelimiter c)
  | declarationForm (text : String) : Misuse (.declarationForm text)
  | declarationRefused (text : String) (error : NameError) :
      Misuse (.declarationRefused text error)

theorem misuse_of_declare {texts : List String} (h : declare c texts = .error f) : Misuse f := by
  induction texts generalizing c with
  | nil => cases h
  | cons text texts ih =>
    rw [declare] at h
    split at h
    · cases h
      exact .declarationForm text
    · rcases bind_eq_error_iff.1 h with h | ⟨c', -, h⟩
      · obtain ⟨e, -, rfl⟩ := mapError_eq_error_iff.1 h
        exact .declarationRefused text e
      · exact ih h

theorem misuse_of_plan (h : o.plan.result = .error f) : Misuse f := by
  simp only [Options.plan, Traced.result_bind, bind_eq_error_iff, Traced.liftM_eq_of,
    Traced.result_of, Traced.result_pure] at h
  rcases h with h | ⟨format, -, h | ⟨b, -, h | ⟨c, -, h⟩⟩⟩
  · unfold chooseFormat at h
    split at h
    · next name _ =>
      rw [Traced.result_of] at h
      split at h <;> cases h
      exact .unknownFormat name
    · cases h
    · split at h <;> cases h
  · unfold chooseDelimiter at h
    dsimp only at h
    split at h <;> cases h
    exact .wideDelimiter _
  · rw [chooseCompiler_eq, map_eq_error_iff] at h
    exact misuse_of_declare h
  · cases h

theorem Misuse.code? (h : Misuse f) : f.code? = some 1 := by
  cases h <;> rfl

end Options

end TabularShapes.CommandLine
