import TabularShapes.Proofs.Iri.Continuation

/-! What may follow an absolute IRI. The end of an abbreviated name goes on as the last part of the
namespace before it, and the two are an IRI together, unless the namespace ends in its authority and
what then follows the host is no port. -/

namespace TabularShapes.Iri

variable {cs rest tail : List Char} {c : Char} {allowed stop : Char → Bool}

/-! ### Ports and hosts -/

def isPort : List Char → Bool
  | [] => true
  | c :: digits => c == ':' && digits.all Char.isDigit

/-- What follows the host: its port. -/
def afterHost : List Char → List Char
  | '[' :: cs => match Text.cutAt ']' cs with
    | some (_, rest) => rest
    | none => []
  | cs => cs.dropWhile (· ≠ ':')

/-- The host and its port. A user name ends at the first `@`, and holds no bracket. -/
def hostAndPort (cs : List Char) : List Char :=
  match cs.dropWhile fun c => !(c == '@' || c == '[') with
  | '@' :: host => host
  | _ => cs

/-- The authority of an IRI that ends in it: what follows `//`, if neither a path nor a query nor a
fragment does. -/
def openAuthority? (cs : List Char) : Option (List Char) :=
  match Text.cutAt ':' cs with
  | some (_, '/' :: '/' :: authority) =>
    if authority.any endsAuthority then none else some authority
  | _ => none

/-- Whether the characters that stand where a port does are one, in an IRI that ends in its
authority. -/
def hasSoundPort (cs : List Char) : Bool :=
  (openAuthority? cs).all fun authority => isPort (afterHost (hostAndPort authority))

theorem any_endsAuthority_eq_false (h : AllAuthorityChars cs) : cs.any endsAuthority = false := by
  rw [List.any_eq_false]
  intro c hc
  simp [endsAuthority_of_isAuthorityChar (h c hc)]

theorem any_endsAuthority_of_digits (h : cs.all Char.isDigit = true) :
    cs.any endsAuthority = false := by
  refine any_endsAuthority_eq_false fun c hc => isAuthorityChar_of_isAddressChar ?_
  exact isAddressChar_of_isDigit (List.all_eq_true.1 h c hc)

theorem isDigit_of_endsAuthority (h : endsAuthority c = true) : c.isDigit = false := by
  simp only [endsAuthority, Bool.or_eq_true, beq_iff_eq] at h
  rcases h with (rfl | rfl) | rfl <;> decide

theorem portOnward_eq_ok_iff : portOnward cs = .ok () ↔ cs.all Char.isDigit = true ∨
    ∃ digits c rest, cs = digits ++ c :: rest ∧ digits.all Char.isDigit = true ∧
      endsAuthority c = true ∧ pathOnward (c :: rest) = .ok () := by
  refine ⟨?_, ?_⟩
  · intro h
    rw [portOnward] at h
    split at h
    · next hd => exact .inl (by simpa using hd)
    · next c rest hd =>
      split at h
      · next hc =>
        refine .inr ⟨cs.takeWhile Char.isDigit, c, rest, ?_, by simp, hc, h⟩
        rw [← hd, List.takeWhile_append_dropWhile]
      · cases h
  · rintro (h | ⟨digits, c, rest, rfl, hd, hc, hp⟩)
    · have hrest : cs.dropWhile Char.isDigit = [] := by simpa using h
      rw [portOnward, hrest]
    · have hrest : (digits ++ c :: rest).dropWhile Char.isDigit = c :: rest := by
        rw [List.dropWhile_append_of_pos (by simpa using hd),
          List.dropWhile_cons_of_neg (by simp [isDigit_of_endsAuthority hc])]
      rw [portOnward, hrest]
      simp [hc, hp]

theorem portOnward_append (h : portOnward cs = .ok ()) (ht : AllAuthorityChars tail)
    (hor : cs.any endsAuthority = true ∨ (cs ++ tail).all Char.isDigit = true) :
    portOnward (cs ++ tail) = .ok () := by
  refine portOnward_eq_ok_iff.2 (hor.symm.imp_right ?_)
  intro hends
  obtain hd | ⟨digits, c, rest, rfl, hd, hc, hp⟩ := portOnward_eq_ok_iff.1 h
  · rw [any_endsAuthority_of_digits hd] at hends
    cases hends
  · exact ⟨digits, c, rest ++ tail, by simp, hd, hc, pathOnward_append hp ht⟩

theorem isDigit_of_portOnward (h : portOnward cs = .ok ()) (hopen : cs.any endsAuthority = false) :
    cs.all Char.isDigit = true := by
  obtain hd | ⟨digits, c, rest, rfl, hd, hc, hp⟩ := portOnward_eq_ok_iff.1 h
  · exact hd
  · simp [hc] at hopen

theorem afterBracket_eq_ok_iff : afterBracket cs = .ok () ↔ cs = [] ∨
    (∃ port, cs = ':' :: port ∧ portOnward port = .ok ()) ∨
    ∃ c rest, cs = c :: rest ∧ endsAuthority c = true ∧ pathOnward cs = .ok () := by
  rw [afterBracket.eq_def]
  split
  · simp
  · simp [endsAuthority]
  · next c rest hc =>
    have hcolon : c ≠ ':' := hc
    split
    · next he => simp [hcolon, he]
    · next he => simp [hcolon, he]

theorem afterBracket_of_isPort (h : isPort cs = true) : afterBracket cs = .ok () := by
  cases cs with
  | nil => rfl
  | cons c digits =>
    simp only [isPort, Bool.and_eq_true, beq_iff_eq] at h
    obtain ⟨rfl, hd⟩ := h
    exact portOnward_eq_ok_iff.2 (.inl hd)

theorem afterBracket_append (h : afterBracket cs = .ok ()) (ht : AllAuthorityChars tail)
    (hor : cs.any endsAuthority = true ∨ isPort (cs ++ tail) = true) :
    afterBracket (cs ++ tail) = .ok () := by
  rcases hor with hends | hport
  · obtain rfl | ⟨port, rfl, hp⟩ | ⟨c, rest, rfl, hc, hp⟩ := afterBracket_eq_ok_iff.1 h
    · cases hends
    · exact portOnward_append hp ht (.inl (by simpa [endsAuthority] using hends))
    · refine afterBracket_eq_ok_iff.2 (.inr (.inr ⟨c, rest ++ tail, rfl, hc, ?_⟩))
      exact pathOnward_append hp ht
  · exact afterBracket_of_isPort hport

theorem isPort_of_afterBracket (h : afterBracket cs = .ok ())
    (hopen : cs.any endsAuthority = false) : isPort cs = true := by
  obtain rfl | ⟨port, rfl, hp⟩ | ⟨c, rest, rfl, hc, -⟩ := afterBracket_eq_ok_iff.1 h
  · rfl
  · have hdigits := isDigit_of_portOnward hp (by simpa [endsAuthority] using hopen)
    simp [isPort, hdigits]
  · simp [hc] at hopen

theorem hostOnward_bracket_iff : hostOnward ('[' :: cs) = .ok () ↔
    ∃ address rest, cs = address ++ ']' :: rest ∧ ']' ∉ address ∧
      bracketed address = .ok () ∧ afterBracket rest = .ok () := by
  rw [hostOnward]
  cases hcut : Text.cutAt ']' cs with
  | none =>
    have hmem : ']' ∉ cs := Text.cutAt_eq_none_iff.1 hcut
    refine ⟨?_, ?_⟩
    · intro h
      cases h
    · rintro ⟨address, rest, rfl, -⟩
      simp at hmem
  | some parts =>
    obtain ⟨address, rest⟩ := parts
    obtain ⟨rfl, hmem⟩ := Text.eq_of_cutAt hcut
    simp only [bind_eq_ok_iff]
    refine ⟨?_, ?_⟩
    · rintro ⟨⟨⟩, hb, ha⟩
      exact ⟨address, rest, rfl, hmem, hb, ha⟩
    · rintro ⟨address', rest', heq, hmem', hb, ha⟩
      -- the first closing bracket ends the address
      rw [heq, Text.cutAt_append _ hmem'] at hcut
      cases hcut
      exact ⟨(), hb, ha⟩

theorem hostOnward_name_iff (hb : ∀ cs', cs ≠ '[' :: cs') : hostOnward cs = .ok () ↔
    ∃ rest, component isPlain (fun c => c == ':' || endsAuthority c) cs = .ok rest ∧
      afterBracket rest = .ok () := by
  rw [hostOnward.eq_def]
  split
  · next cs' => exact absurd rfl (hb cs')
  · simp only [bind_eq_ok_iff]
    refine exists_congr fun rest => and_congr_right fun hc => ?_
    have hs := (component_eq_ok hc).1
    split
    · rfl
    · next hcolon =>
      cases rest with
      | nil => exact iff_of_true rfl rfl
      | cons c rest =>
        have hne : c ≠ ':' := fun h => hcolon rest (by rw [h])
        have hends : endsAuthority c = true := by simpa [StopsBefore, hne] using hs
        simp [afterBracket_eq_ok_iff, hne, hends]

theorem dropWhile_of_component {p : Char → Bool} (h : component allowed stop cs = .ok rest)
    (hread : ∀ c, allowed c = true ∨ c = '%' ∨ isHexDigit c = true → p c = true)
    (hstop : ∀ c ∈ cs, stop c = true → p c = false) : cs.dropWhile p = rest := by
  obtain ⟨hs, read, rfl, hall⟩ := component_eq_ok h
  rw [List.dropWhile_append_of_pos fun c hc => hread c (hall c hc)]
  cases rest with
  | nil => rfl
  | cons c rest => exact List.dropWhile_cons_of_neg (by simp [hstop c (by simp) hs])

/-- Where neither a path nor a query nor a fragment ends it, a name is followed by what stands from
its first colon on. -/
theorem afterHost_of_component
    (h : component isPlain (fun c => c == ':' || endsAuthority c) cs = .ok rest)
    (hb : ∀ cs', cs ≠ '[' :: cs') (hopen : cs.any endsAuthority = false) :
    afterHost cs = rest := by
  have hread : ∀ c, isPlain c = true ∨ c = '%' ∨ isHexDigit c = true →
      decide (c ≠ ':') = true := by
    intro c hc
    rw [decide_eq_true_eq]
    rintro rfl
    rcases hc with hc | hc | hc <;> exact absurd hc (by decide)
  rw [afterHost.eq_def]
  split
  · next cs' => exact absurd rfl (hb cs')
  · refine dropWhile_of_component h hread ?_
    intro c hc hs
    have hends : endsAuthority c = false := by simpa using List.any_eq_false.1 hopen c hc
    simpa [hends] using hs

theorem ne_bracket_append (hb : ∀ cs', cs ≠ '[' :: cs') (ht : AllAuthorityChars tail) :
    ∀ cs', cs ++ tail ≠ '[' :: cs' := by
  rintro cs' h
  cases cs with
  | nil =>
    obtain rfl : tail = '[' :: cs' := h
    exact absurd (ht '[' List.mem_cons_self) (by decide)
  | cons c cs => exact hb cs (by rw [(List.cons.inj h).1])

theorem any_endsAuthority_append (ht : AllAuthorityChars tail) :
    (cs ++ tail).any endsAuthority = cs.any endsAuthority := by
  rw [List.any_append, any_endsAuthority_eq_false ht, Bool.or_false]

/-- A component that allows authority characters stops before the authority ends. -/
theorem any_endsAuthority_of_component (h : component allowed stop cs = .ok rest)
    (hall : ∀ c, allowed c = true → isAuthorityChar c = true) :
    cs.any endsAuthority = rest.any endsAuthority := by
  obtain ⟨-, read, rfl, hread⟩ := component_eq_ok h
  have hnone : read.any endsAuthority = false := by
    rw [List.any_eq_false]
    intro c hc
    rcases hread c hc with hc | rfl | hc
    · simp [endsAuthority_of_isAuthorityChar (hall c hc)]
    · decide
    · have hauthority := isAuthorityChar_of_isAddressChar (isAddressChar_of_isHexDigit hc)
      simp [endsAuthority_of_isAuthorityChar hauthority]
  rw [List.any_append, hnone, Bool.false_or]

theorem isAuthorityChar_of_isPlain (h : isPlain c = true) : isAuthorityChar c = true := by
  simp [isAuthorityChar, h]

theorem component_name_append (ht : AllAuthorityChars tail)
    (h : component isPlain (fun c => c == ':' || endsAuthority c) cs = .ok rest) :
    ∃ rest', component isPlain (fun c => c == ':' || endsAuthority c) (cs ++ tail) = .ok rest' ∧
      (rest ≠ [] → rest' = rest ++ tail) := by
  rw [component_append h]
  split
  · next hnil =>
    rw [component_of_forall]
    · exact ⟨_, rfl, fun hne => absurd hnil hne⟩
    · intro c hc
      refine ⟨ne_percent_of_isAuthorityChar (ht c hc), ?_⟩
      have hauthority := ht c hc
      simp only [isAuthorityChar, Bool.or_eq_true] at hauthority
      rcases hauthority with hplain | hcolon
      · exact .inr hplain
      · exact .inl (by simp [hcolon])
  · exact ⟨_, rfl, fun _ => rfl⟩

theorem hostOnward_append (h : hostOnward cs = .ok ()) (ht : AllAuthorityChars tail)
    (hor : cs.any endsAuthority = true ∨ isPort (afterHost (cs ++ tail)) = true) :
    hostOnward (cs ++ tail) = .ok () := by
  by_cases hb : ∃ cs', cs = '[' :: cs'
  · obtain ⟨cs, rfl⟩ := hb
    obtain ⟨address, rest, rfl, hmem, haddress, ha⟩ := hostOnward_bracket_iff.1 h
    refine hostOnward_bracket_iff.2 ⟨address, rest ++ tail, by simp, hmem, haddress, ?_⟩
    refine afterBracket_append ha ht (hor.imp ?_ ?_)
    · intro hends
      have hnone : address.any endsAuthority = false := any_endsAuthority_eq_false fun c hc =>
        isAuthorityChar_of_isAddressChar (bracketed_eq_ok haddress c hc)
      simpa [endsAuthority, hnone] using hends
    · intro hport
      simpa [afterHost, Text.cutAt_append (rest ++ tail) hmem] using hport
  · have hb : ∀ cs', cs ≠ '[' :: cs' := fun cs' h => hb ⟨cs', h⟩
    obtain ⟨rest, hc, ha⟩ := (hostOnward_name_iff hb).1 h
    obtain ⟨rest', hc', happend⟩ := component_name_append ht hc
    have hends := any_endsAuthority_of_component hc fun _ => isAuthorityChar_of_isPlain
    refine (hostOnward_name_iff (ne_bracket_append hb ht)).2 ⟨rest', hc', ?_⟩
    by_cases hopen : cs.any endsAuthority = true
    · have hne : rest ≠ [] := by
        rintro rfl
        rw [hends] at hopen
        cases hopen
      rw [happend hne]
      exact afterBracket_append ha ht (.inl (hends ▸ hopen))
    · have hopen' : (cs ++ tail).any endsAuthority = false := by
        rw [any_endsAuthority_append ht]
        simpa using hopen
      rw [← afterHost_of_component hc' (ne_bracket_append hb ht) hopen']
      exact afterBracket_of_isPort (hor.resolve_left hopen)

theorem isPort_of_hostOnward (h : hostOnward cs = .ok ())
    (hopen : cs.any endsAuthority = false) : isPort (afterHost cs) = true := by
  by_cases hb : ∃ cs', cs = '[' :: cs'
  · obtain ⟨cs, rfl⟩ := hb
    obtain ⟨address, rest, rfl, hmem, -, ha⟩ := hostOnward_bracket_iff.1 h
    have hrest : rest.any endsAuthority = false := by
      simp only [List.any_cons, List.any_append, Bool.or_eq_false_iff] at hopen
      exact hopen.2.2.2
    simpa [afterHost, Text.cutAt_append rest hmem] using isPort_of_afterBracket ha hrest
  · have hb : ∀ cs', cs ≠ '[' :: cs' := fun cs' h => hb ⟨cs', h⟩
    obtain ⟨rest, hc, ha⟩ := (hostOnward_name_iff hb).1 h
    have hends := any_endsAuthority_of_component hc fun _ => isAuthorityChar_of_isPlain
    rw [afterHost_of_component hc hb hopen]
    exact isPort_of_afterBracket ha (hends ▸ hopen)

/-! ### Authorities -/

theorem authorityOnward_eq_ok_iff : authorityOnward cs = .ok () ↔ ∃ rest,
    component isAuthorityChar (fun c => c == '@' || c == '[' || endsAuthority c) cs = .ok rest ∧
      ((∃ host, rest = '@' :: host ∧ hostOnward host = .ok ()) ∨
        (∀ host, rest ≠ '@' :: host) ∧ hostOnward cs = .ok ()) := by
  simp only [authorityOnward, bind_eq_ok_iff]
  refine exists_congr fun rest => and_congr_right fun _ => ?_
  split
  · simp
  · next hne =>
    have hne' : ∀ host, rest ≠ '@' :: host := hne
    simp [hne']

/-- Where neither a path nor a query nor a fragment ends it, an authority is a user name and a host,
or a host alone. -/
theorem hostAndPort_of_component
    (h : component isAuthorityChar (fun c => c == '@' || c == '[' || endsAuthority c) cs = .ok rest)
    (hopen : cs.any endsAuthority = false) :
    (∀ host, rest = '@' :: host → hostAndPort cs = host) ∧
      ((∀ host, rest ≠ '@' :: host) → hostAndPort cs = cs) := by
  have hrest : (cs.dropWhile fun c => !(c == '@' || c == '[')) = rest := by
    refine dropWhile_of_component h ?_ ?_
    · intro c hc
      rw [Bool.not_eq_true', Bool.eq_false_iff]
      intro hsign
      simp only [Bool.or_eq_true, beq_iff_eq] at hsign
      rcases hsign with rfl | rfl <;> rcases hc with hc | hc | hc <;> exact absurd hc (by decide)
    · intro c hc hs
      have hends : endsAuthority c = false := by simpa using List.any_eq_false.1 hopen c hc
      simpa only [hends, Bool.or_false, Bool.not_eq_false'] using hs
  rw [hostAndPort, hrest]
  refine ⟨?_, ?_⟩
  · rintro host rfl
    rfl
  · intro hne
    split
    · next host => exact absurd rfl (hne host)
    · rfl

theorem authorityOnward_append (h : authorityOnward cs = .ok ()) (ht : AllAuthorityChars tail)
    (hor : cs.any endsAuthority = true ∨ isPort (afterHost (hostAndPort (cs ++ tail))) = true) :
    authorityOnward (cs ++ tail) = .ok () := by
  obtain ⟨rest, hc, hhost⟩ := authorityOnward_eq_ok_iff.1 h
  have hends := any_endsAuthority_of_component hc fun _ h => h
  have hstop : ∀ c, isAuthorityChar c = true →
      (c == '@' || c == '[' || endsAuthority c) = false := by
    intro c hc
    rw [endsAuthority_of_isAuthorityChar hc, Bool.or_false, Bool.eq_false_iff]
    intro hsign
    simp only [Bool.or_eq_true, beq_iff_eq] at hsign
    rcases hsign with rfl | rfl <;> exact absurd hc (by decide)
  have hc' : component isAuthorityChar (fun c => c == '@' || c == '[' || endsAuthority c)
      (cs ++ tail) = .ok (if rest = [] then [] else rest ++ tail) := by
    rw [component_append hc, component_of_allAuthorityChars ht (fun _ h => h) hstop]
    split <;> rfl
  have hopen : ¬ cs.any endsAuthority = true → (cs ++ tail).any endsAuthority = false := by
    intro h
    rw [any_endsAuthority_append ht]
    simpa using h
  refine authorityOnward_eq_ok_iff.2 ⟨_, hc', ?_⟩
  rcases hhost with ⟨host, rfl, hh⟩ | ⟨hne, hh⟩
  · refine .inl ⟨host ++ tail, rfl, hostOnward_append hh ht ?_⟩
    by_cases hcs : cs.any endsAuthority = true
    · left
      simpa [hcs, endsAuthority] using hends.symm
    · right
      rw [← (hostAndPort_of_component hc' (hopen hcs)).1 (host ++ tail) rfl]
      exact hor.resolve_left hcs
  · have hne' : ∀ host, (if rest = [] then [] else rest ++ tail) ≠ '@' :: host := by
      intro host
      cases rest with
      | nil => simp
      | cons c rest =>
        intro heq
        exact hne rest (by simp_all)
    refine .inr ⟨hne', hostOnward_append hh ht ?_⟩
    by_cases hcs : cs.any endsAuthority = true
    · exact .inl hcs
    · right
      rw [← (hostAndPort_of_component hc' (hopen hcs)).2 hne']
      exact hor.resolve_left hcs

theorem isPort_of_authorityOnward (h : authorityOnward cs = .ok ())
    (hopen : cs.any endsAuthority = false) : isPort (afterHost (hostAndPort cs)) = true := by
  obtain ⟨rest, hc, hhost⟩ := authorityOnward_eq_ok_iff.1 h
  rcases hhost with ⟨host, rfl, hh⟩ | ⟨hne, hh⟩
  · rw [(hostAndPort_of_component hc hopen).1 host rfl]
    refine isPort_of_hostOnward hh ?_
    have hends := any_endsAuthority_of_component hc fun _ h => h
    simpa [hopen, endsAuthority] using hends
  · rw [(hostAndPort_of_component hc hopen).2 hne]
    exact isPort_of_hostOnward hh hopen

/-! ### Namespaces go on -/

theorem scheme?_append (h : scheme? cs = some rest) (tail : List Char) :
    scheme? (cs ++ tail) = some (rest ++ tail) := by
  cases cs with
  | nil => cases h
  | cons c cs =>
    rw [scheme?] at h
    split at h
    · next hc =>
      split at h
      · next r hd =>
        cases h
        have happend : (cs ++ tail).dropWhile isSchemeChar = ':' :: (rest ++ tail) := by
          rw [List.dropWhile_append, hd]
          rfl
        simp [scheme?, hc, happend]
      · cases h
    · cases h

theorem cutAt_of_scheme? (h : scheme? cs = some rest) :
    ∃ scheme, Text.cutAt ':' cs = some (scheme, rest) := by
  cases cs with
  | nil => cases h
  | cons c cs =>
    rw [scheme?] at h
    split at h
    · next hc =>
      split at h
      · next r hd =>
        cases h
        have hcut : c :: cs = (c :: cs.takeWhile isSchemeChar) ++ ':' :: rest := by
          rw [List.cons_append, ← hd, List.takeWhile_append_dropWhile]
        have hcolon : ':' ∉ c :: cs.takeWhile isSchemeChar := by
          intro hmem
          rcases List.mem_cons.1 hmem with rfl | hmem
          · exact absurd hc (by decide)
          · exact absurd (List.mem_takeWhile_imp hmem) (by decide)
        exact ⟨_, by rw [hcut, Text.cutAt_append _ hcolon]⟩
      · cases h
    · cases h

theorem afterScheme_eq_ok_iff : afterScheme cs = .ok () ↔
    (∃ authority, cs = '/' :: '/' :: authority ∧ authorityOnward authority = .ok ()) ∨
      (∀ authority, cs ≠ '/' :: '/' :: authority) ∧ pathOnward cs = .ok () := by
  rw [afterScheme.eq_def]
  split
  · simp
  · next hne =>
    have hne' : ∀ authority, cs ≠ '/' :: '/' :: authority := hne
    simp [hne']

theorem openAuthority?_eq_some_iff (h : scheme? cs = some rest) {authority : List Char} :
    openAuthority? cs = some authority ↔
      rest = '/' :: '/' :: authority ∧ authority.any endsAuthority = false := by
  obtain ⟨scheme, hcut⟩ := cutAt_of_scheme? h
  rw [openAuthority?, hcut]
  split
  · next scheme' authority' heq =>
    cases heq
    by_cases hends : authority'.any endsAuthority = true
    · simp only [hends, if_true]
      refine iff_of_false (by simp) ?_
      rintro ⟨heq, hopen⟩
      cases heq
      rw [hends] at hopen
      cases hopen
    · rw [if_neg hends, Option.some.injEq]
      refine ⟨?_, ?_⟩
      · rintro rfl
        exact ⟨rfl, by simpa using hends⟩
      · rintro ⟨heq, -⟩
        cases heq
        rfl
  · next hne =>
    refine iff_of_false (by simp) ?_
    rintro ⟨rfl, -⟩
    exact hne scheme authority rfl

theorem hasSoundPort_iff : hasSoundPort cs = true ↔
    ∀ authority, openAuthority? cs = some authority →
      isPort (afterHost (hostAndPort authority)) = true := by
  cases h : openAuthority? cs <;> simp [hasSoundPort, h]

/-- An IRI that ends in its authority has a port there, or nothing follows its host. -/
theorem hasSoundPort_of_isIri (h : isIri cs = true) : hasSoundPort cs = true := by
  obtain ⟨rest, hs, hr⟩ := isIri_iff.1 h
  rw [hasSoundPort_iff]
  intro authority ha
  obtain ⟨rfl, hopen⟩ := (openAuthority?_eq_some_iff hs).1 ha
  exact isPort_of_authorityOnward hr hopen

theorem slashes_append (ht : AllAuthorityChars tail)
    (hne : ∀ authority, cs ≠ '/' :: '/' :: authority) :
    ∀ authority, cs ++ tail ≠ '/' :: '/' :: authority := by
  have hslash : '/' ∉ tail := fun hmem => absurd (ht '/' hmem) (by decide)
  intro authority heq
  match cs with
  | [] => exact hslash (by simp [show tail = '/' :: '/' :: authority from heq])
  | [c] =>
    have htail : tail = '/' :: authority := (List.cons.inj heq).2
    exact hslash (by simp [htail])
  | c :: d :: cs =>
    simp only [List.cons_append, List.cons.injEq] at heq
    obtain ⟨rfl, rfl, -⟩ := heq
    exact hne cs rfl

/-- An IRI goes on as one with any characters of an authority, as long as a port is one. -/
theorem isIri_append_iff (h : isIri cs = true) (ht : AllAuthorityChars tail) :
    isIri (cs ++ tail) = true ↔ hasSoundPort (cs ++ tail) = true := by
  refine ⟨hasSoundPort_of_isIri, ?_⟩
  intro hport
  obtain ⟨rest, hs, hr⟩ := isIri_iff.1 h
  have hs' := scheme?_append hs tail
  refine isIri_iff.2 ⟨rest ++ tail, hs', ?_⟩
  obtain ⟨authority, rfl, ha⟩ | ⟨hne, hp⟩ := afterScheme_eq_ok_iff.1 hr
  · refine authorityOnward_append ha ht (or_iff_not_imp_left.2 ?_)
    intro hopen
    refine hasSoundPort_iff.1 hport _ ((openAuthority?_eq_some_iff hs').2 ⟨rfl, ?_⟩)
    rw [any_endsAuthority_append ht]
    simpa using hopen
  · exact afterScheme_eq_ok_iff.2 (.inr ⟨slashes_append ht hne, pathOnward_append hp ht⟩)

/-- Where an IRI does not end in its authority, nothing that follows is taken for a port. -/
theorem hasSoundPort_append (h : isIri cs = true) (ht : AllAuthorityChars tail)
    (hclosed : openAuthority? cs = none) : hasSoundPort (cs ++ tail) = true := by
  obtain ⟨rest, hs, hr⟩ := isIri_iff.1 h
  rw [hasSoundPort_iff]
  intro authority ha
  obtain ⟨heq, hopen⟩ := (openAuthority?_eq_some_iff (scheme?_append hs tail)).1 ha
  obtain ⟨authority', rfl, -⟩ | ⟨hne, -⟩ := afterScheme_eq_ok_iff.1 hr
  · obtain rfl : authority' ++ tail = authority := by simpa using heq
    rw [any_endsAuthority_append ht] at hopen
    rw [(openAuthority?_eq_some_iff hs).2 ⟨rfl, hopen⟩] at hclosed
    cases hclosed
  · exact absurd heq (slashes_append ht hne authority)

end TabularShapes.Iri
