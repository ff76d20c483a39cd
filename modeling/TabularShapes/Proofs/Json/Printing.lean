import TabularShapes.Proofs.Json.Reading
import Mathlib.Data.List.TakeWhile

/-! A JSON value that is printed, on one line or with any indentation, and read again is the same
value, whatever characters its texts hold. -/

namespace TabularShapes.Json

mutual

def datum : Json → Datum
  | .text s => .text s
  | .number n => .number n
  | .array items => .array (itemData items)
  | .object members => .ofMembers (memberData members)

def itemData : List Json → List Datum
  | [] => []
  | v :: vs => v.datum :: itemData vs

def memberData : List (String × Json) → List (String × Datum)
  | [] => []
  | (k, v) :: ms => (k, v.datum) :: memberData ms

end

mutual

def tokens : Json → List Token
  | .text s => [.text s]
  | .number n => [.scalar (.number n)]
  | .array [] => [.arrayOpen, .arrayClose]
  | .array (v :: vs) => .arrayOpen :: (v.tokens ++ itemTokens vs)
  | .object [] => [.objectOpen, .objectClose]
  | .object ((k, v) :: ms) => .objectOpen :: .text k :: .colon :: (v.tokens ++ memberTokens ms)

def itemTokens : List Json → List Token
  | [] => [.arrayClose]
  | v :: vs => .comma :: (v.tokens ++ itemTokens vs)

def memberTokens : List (String × Json) → List Token
  | [] => [.objectClose]
  | (k, v) :: ms => .comma :: .text k :: .colon :: (v.tokens ++ memberTokens ms)

end

/-! ### From tokens to values -/

/-- No value starts with the sign that closes an array. -/
theorem parse_items {v : Json} {outer : List Frame} {ts : List Token} :
    parse outer (.arrayOpen :: (v.tokens ++ ts)) = parse (.items [] :: outer) (v.tokens ++ ts) := by
  cases v with
  | text | number => simp [tokens, parse]
  | array items => cases items <;> simp [tokens, parse]
  | object members => cases members <;> simp [tokens, parse]

mutual

theorem parse_tokens (v : Json) (outer : List Frame) (ts : List Token) :
    parse outer (v.tokens ++ ts) = parseAfter outer v.datum ts := by
  match v with
  | .text s => simp [tokens, parse, datum]
  | .number n => simp [tokens, parse, datum]
  | .array [] => simp [tokens, parse, datum, itemData]
  | .array (v :: vs) =>
    rw [tokens, List.cons_append, List.append_assoc, parse_items, parse_tokens v,
      parseAfter_itemTokens vs]
    rfl
  | .object [] => simp [tokens, parse, datum, memberData]
  | .object ((k, v) :: ms) =>
    rw [tokens, List.cons_append, List.cons_append, List.cons_append, List.append_assoc, parse,
      parse_tokens v, parseAfter_memberTokens ms]
    rfl

theorem parseAfter_itemTokens (vs : List Json) (before : List Datum) (d : Datum)
    (outer : List Frame) (ts : List Token) :
    parseAfter (.items before :: outer) d (itemTokens vs ++ ts) =
      parseAfter outer (.array (before ++ d :: itemData vs)) ts := by
  match vs with
  | [] => rfl
  | v :: vs =>
    rw [itemTokens, List.cons_append, List.append_assoc, parseAfter, parse_tokens v,
      parseAfter_itemTokens vs, List.append_assoc]
    rfl

theorem parseAfter_memberTokens (ms : List (String × Json)) (before : List (String × Datum))
    (k : String) (d : Datum) (outer : List Frame) (ts : List Token) :
    parseAfter (.member before k :: outer) d (memberTokens ms ++ ts) =
      parseAfter outer (.ofMembers (before ++ (k, d) :: memberData ms)) ts := by
  match ms with
  | [] => rfl
  | (k', v) :: ms =>
    rw [memberTokens, List.cons_append, List.cons_append, List.cons_append, List.append_assoc,
      parseAfter, parse_tokens v, parseAfter_memberTokens ms, List.append_assoc]
    rfl

end

/-! ### From characters to tokens -/

/-- The characters lead from one mode to another and give the tokens. -/
def Gives (m : Mode) (cs : List Char) (ts : List Token) (m' : Mode) : Prop :=
  ∀ rest, scan m (cs ++ rest) = (scan m' rest).map (ts ++ ·)

variable {m m' m'' : Mode} {a b cs rest : List Char} {ts us : List Token} {c : Char}

theorem Gives.refl : Gives m [] [] m := by
  intro rest
  simp

theorem Gives.trans (h : Gives m a ts m') (h' : Gives m' b us m'') :
    Gives m (a ++ b) (ts ++ us) m'' := by
  intro rest
  rw [List.append_assoc, h, h', Option.map_map]
  simp [Function.comp_def]

theorem Gives.step (h : m.feed c = some (m', ts)) : Gives m [c] ts m' := by
  intro rest
  rw [List.singleton_append, scan, h]
  cases hr : scan m' rest <;> simp [hr]

theorem hexDigit?_hexDigit {n : Nat} (h : n < 16) : Text.hexDigit? (hexDigit n) = some n := by
  revert n
  decide

theorem gives_backslash {taken : List Char} : Gives (.text taken) ['\\'] [] (.escape taken) :=
  .step rfl

theorem gives_hexDigit {taken : List Char} {digits : List Nat} {n : Nat} (h : n < 16)
    (hl : digits.length < 3) :
    Gives (.hex taken none digits) [hexDigit n] [] (.hex taken none (digits ++ [n])) := by
  refine .step ?_
  have hlength : (digits ++ [n]).length < 4 := by
    rw [List.length_append, List.length_singleton]
    omega
  simp only [Mode.feed, hexDigit?_hexDigit h, Option.bind_eq_bind, Option.bind_some]
  rw [if_pos hlength]
  rfl

/-- The escape of a control character is read as that character. -/
theorem gives_control {taken : List Char} (h : c.toNat < 32) :
    Gives (.text taken) ['\\', 'u', '0', '0', hexDigit (c.toNat / 16), hexDigit (c.toNat % 16)] []
      (.text (c :: taken)) := by
  have hu : Gives (.escape taken) ['u'] [] (.hex taken none []) := .step rfl
  have hdigits : Gives (.hex taken none []) ['0', '0', hexDigit (c.toNat / 16)] []
      (.hex taken none [0, 0, c.toNat / 16]) :=
    (gives_hexDigit (n := 0) (by omega) (by simp)).trans
      ((gives_hexDigit (n := 0) (by omega) (by simp)).trans
        (gives_hexDigit (by omega) (by simp)))
  have hlast : Gives (.hex taken none [0, 0, c.toNat / 16]) [hexDigit (c.toNat % 16)] []
      (.text (c :: taken)) := by
    refine .step ?_
    have hvalue : [0, 0, c.toNat / 16, c.toNat % 16].foldl (16 * · + ·) 0 = c.toNat := by
      simp only [List.foldl_cons, List.foldl_nil]
      omega
    have hunit : takeUnit taken none c.toNat = some (.text (c :: taken)) := by
      rw [takeUnit, if_neg (by omega), if_neg (by omega), Char.ofNat_toNat]
    simp only [Mode.feed, hexDigit?_hexDigit (Nat.mod_lt _ (by omega : 16 > 0)),
      Option.bind_eq_bind, Option.bind_some, List.cons_append, List.nil_append, hvalue, hunit]
    rfl
  exact gives_backslash.trans (hu.trans (hdigits.trans hlast))

theorem gives_escapeChar (c : Char) (taken : List Char) :
    Gives (.text taken) (escapeChar c) [] (.text (c :: taken)) := by
  have hescape : ∀ e c, (Mode.escape taken).feed e = some (.text (c :: taken), []) →
      Gives (.text taken) ['\\', e] [] (.text (c :: taken)) := by
    intro e c h
    exact gives_backslash.trans (.step h)
  unfold escapeChar
  split
  · exact hescape _ _ rfl
  · exact hescape _ _ rfl
  · exact hescape _ _ rfl
  · exact hescape _ _ rfl
  · exact hescape _ _ rfl
  · exact hescape _ _ rfl
  · exact hescape _ _ rfl
  · next hquote hback _ _ _ _ _ =>
    split
    · next h => exact gives_control h
    · next h =>
      refine .step ?_
      rw [Mode.feed, if_neg hquote, if_neg hback, if_neg h]

theorem gives_escape (cs taken : List Char) :
    Gives (.text taken) (cs.flatMap escapeChar) [] (.text (cs.reverse ++ taken)) := by
  induction cs generalizing taken with
  | nil => exact .refl
  | cons c cs ih =>
    rw [List.flatMap_cons, List.reverse_cons, List.append_assoc]
    exact (gives_escapeChar c taken).trans (ih _)

theorem gives_quote (s : String) : Gives .outside (quote s) [.text s] .outside := by
  have hopen : Gives .outside ['"'] [] (.text []) := .step rfl
  have hclose : Gives (.text (s.toList.reverse ++ [])) ['"'] [.text s] .outside := by
    refine .step ?_
    rw [Mode.feed, if_pos rfl, List.append_nil, List.reverse_reverse, String.ofList_toList]
  exact hopen.trans ((gives_escape s.toList []).trans hclose)

/-! ### Numbers -/

theorem toDigits_zero_cons {n : Nat} (h : Nat.toDigits 10 n = '0' :: rest) : rest = [] := by
  induction n using Nat.strongRecOn generalizing rest with
  | ind n ih =>
    rw [Nat.toDigits_eq_if (by decide)] at h
    split at h
    · exact (List.cons.inj h).2.symm
    · next hn =>
      cases hq : Nat.toDigits 10 (n / 10) with
      | nil => exact absurd hq Nat.toDigits_ne_nil
      | cons c cs =>
        rw [hq, List.cons_append] at h
        obtain ⟨rfl, -⟩ := List.cons.inj h
        have hcs : cs = [] := ih (n / 10) (by omega) hq
        have hvalue : Nat.ofDigitChars 10 (Nat.toDigits 10 (n / 10)) 0 = n / 10 :=
          Nat.ofDigitChars_toDigits (by decide) (by decide)
        rw [hq, hcs] at hvalue
        have hzero : n / 10 = 0 := hvalue.symm
        omega

theorem isDecimal_toDigits (n : Nat) : Text.isDecimal (Nat.toDigits 10 n) = true := by
  have hne : Nat.toDigits 10 n ≠ [] := Nat.toDigits_ne_nil
  simp only [Text.isDecimal, Bool.and_eq_true, Bool.not_eq_true', List.isEmpty_eq_false_iff,
    List.all_eq_true]
  exact ⟨hne, fun c hc => Nat.isDigit_of_mem_toDigits (by decide) (by decide) hc⟩

theorem whole?_toDigits (n : Nat) : whole? (Nat.toDigits 10 n) = some (Nat.toDigits 10 n) := by
  unfold whole?
  split
  · next rest h =>
    have hrest : rest = [] := toDigits_zero_cons h
    rw [if_pos hrest, h, hrest]
  · rw [if_pos (isDecimal_toDigits n)]

theorem unsigned?_toDigits (n : Nat) : unsigned? (Nat.toDigits 10 n) = some (n : ℚ) := by
  have hdigit : ∀ c ∈ Nat.toDigits 10 n, c.isDigit = true := fun c hc =>
    Nat.isDigit_of_mem_toDigits (by decide) (by decide) hc
  have hexp : ∀ c ∈ Nat.toDigits 10 n, (!(c == 'e' || c == 'E')) = true := by
    intro c hc
    have := hdigit c hc
    rcases eq_or_ne c 'e' with rfl | he
    · exact absurd this (by decide)
    · rcases eq_or_ne c 'E' with rfl | hE
      · exact absurd this (by decide)
      · simp [he, hE]
  have hpoint : ∀ c ∈ Nat.toDigits 10 n, (c != '.') = true := by
    intro c hc
    have := hdigit c hc
    rcases eq_or_ne c '.' with rfl | hne
    · exact absurd this (by decide)
    · simp [hne]
  have hvalue : Text.digitsValue (Nat.toDigits 10 n) = n :=
    Nat.ofDigitChars_toDigits (by decide) (by decide)
  simp only [unsigned?]
  rw [List.takeWhile_eq_self_iff.2 hexp, List.dropWhile_eq_nil_iff.2 hexp,
    List.takeWhile_eq_self_iff.2 hpoint, List.dropWhile_eq_nil_iff.2 hpoint, whole?_toDigits]
  simp [fraction?, exponent?, hvalue]

theorem toList_toString (n : Int) :
    (toString n).toList = Nat.toDigits 10 n.natAbs ∧ n = n.natAbs ∨
      (toString n).toList = '-' :: Nat.toDigits 10 n.natAbs ∧ n = -n.natAbs := by
  cases n with
  | ofNat m =>
    left
    exact ⟨String.toList_ofList, rfl⟩
  | negSucc m =>
    right
    refine ⟨?_, rfl⟩
    show ("-" ++ String.ofList (Nat.toDigits 10 (m + 1))).toList = _
    have hdigits : (String.ofList (Nat.toDigits 10 (m + 1))).toList = Nat.toDigits 10 (m + 1) :=
      String.toList_ofList
    rw [String.toList_append, hdigits]
    rfl

theorem number?_toString (n : Int) : number? (toString n).toList = some (n : ℚ) := by
  rcases toList_toString n with ⟨htext, hn⟩ | ⟨htext, hn⟩
  · have hsign : number? (Nat.toDigits 10 n.natAbs) = unsigned? (Nat.toDigits 10 n.natAbs) := by
      unfold number?
      split
      · next rest h =>
        have := Nat.isDigit_of_mem_toDigits (by decide) (by decide)
          (h ▸ List.mem_cons_self : '-' ∈ Nat.toDigits 10 n.natAbs)
        exact absurd this (by decide)
      · rfl
    rw [htext, hsign, unsigned?_toDigits, hn]
    rfl
  · rw [htext, number?, unsigned?_toDigits, Option.map_some, hn]
    simp

theorem isWordChar_toString {n : Int} (h : c ∈ (toString n).toList) : isWordChar c = true := by
  have hdigit : ∀ c ∈ Nat.toDigits 10 n.natAbs, isWordChar c = true := by
    intro c hc
    have := Nat.isDigit_of_mem_toDigits (by decide) (by decide) hc
    simp [isWordChar, Char.isAlphanum, this]
  rcases toList_toString n with ⟨htext, -⟩ | ⟨htext, -⟩
  · exact hdigit c (htext ▸ h)
  · rw [htext] at h
    rcases List.mem_cons.1 h with rfl | h
    · decide
    · exact hdigit c h

theorem scalar?_toString (n : Int) : scalar? (toString n).toList = some (.number n) := by
  have hword : ∀ w, number? w = none → (toString n).toList ≠ w := by
    rintro w hw rfl
    rw [number?_toString] at hw
    cases hw
  rw [scalar?, if_neg (hword _ (by decide)), if_neg (hword _ (by decide)),
    if_neg (hword _ (by decide)), number?_toString]
  rfl

/-- What comes next does not go on with a word. -/
def Delimited (rest : List Char) : Prop := ∀ c ∈ rest.head?, isWordChar c = false

theorem feedOutside_of_isWordChar (h : isWordChar c = true) :
    feedOutside c = some (.word [c], []) := by
  have hne : ∀ x, isWordChar x = false → c ≠ x := by
    rintro x hx rfl
    rw [h] at hx
    cases hx
  have hsign : sign? c = none := by
    unfold sign?
    split
    · exact (hne '[' (by decide) rfl).elim
    · exact (hne ']' (by decide) rfl).elim
    · exact (hne '\x7b' (by decide) rfl).elim
    · exact (hne '\x7d' (by decide) rfl).elim
    · exact (hne ',' (by decide) rfl).elim
    · exact (hne ':' (by decide) rfl).elim
    · rfl
  have hspace : isSpace c = false := by
    simp [isSpace, hne ' ' (by decide), hne '\t' (by decide), hne '\n' (by decide),
      hne '\r' (by decide)]
  simp [feedOutside, hsign, hspace, hne '"' (by decide), h]

theorem gives_word (cs taken : List Char) (h : ∀ c ∈ cs, isWordChar c = true) :
    Gives (.word taken) cs [] (.word (cs.reverse ++ taken)) := by
  induction cs generalizing taken with
  | nil => exact .refl
  | cons c cs ih =>
    rw [List.reverse_cons, List.append_assoc]
    have hstep : Gives (.word taken) [c] [] (.word (c :: taken)) :=
      .step (by rw [Mode.feed, if_pos (h c List.mem_cons_self)])
    exact hstep.trans (ih _ fun x hx => h x (List.mem_cons_of_mem _ hx))

/-- A word ends where something else begins. -/
theorem scan_word {d : Datum} (hne : cs ≠ []) (hw : ∀ c ∈ cs, isWordChar c = true)
    (hd : scalar? cs = some d) (h : Delimited rest) :
    scan .outside (cs ++ rest) = (scan .outside rest).map (.scalar d :: ·) := by
  have hword : Gives .outside cs [] (.word cs.reverse) := by
    cases cs with
    | nil => exact (hne rfl).elim
    | cons c cs =>
      have hfirst : Gives .outside [c] [] (.word [c]) :=
        .step (feedOutside_of_isWordChar (hw c List.mem_cons_self))
      rw [List.reverse_cons]
      exact hfirst.trans (gives_word cs [c] fun x hx => hw x (List.mem_cons_of_mem _ hx))
  rw [hword rest]
  cases rest with
  | nil => simp [scan, Mode.finish, hd]
  | cons c rest =>
    have hc : isWordChar c = false := h c rfl
    simp only [scan, Mode.feed, List.reverse_reverse, hc, hd]
    cases hf : feedOutside c with
    | none => simp
    | some p =>
      obtain ⟨m, ts⟩ := p
      cases hr : scan m rest <;> simp [hr]

/-! ### Values -/

theorem delimited_cons (h : isWordChar c = false) : Delimited (c :: rest) := by
  intro x hx
  cases hx
  exact h

theorem delimited_lineBreak (indent depth : Nat) (h : Delimited rest) :
    Delimited (lineBreak indent depth ++ rest) := by
  unfold lineBreak
  split
  · exact h
  · exact delimited_cons (by decide)

theorem gives_spaces (n : Nat) : Gives .outside (List.replicate n ' ') [] .outside := by
  induction n with
  | zero => exact .refl
  | succ n ih =>
    have hspace : Gives .outside [' '] [] .outside := .step rfl
    rw [List.replicate_succ]
    exact hspace.trans ih

theorem gives_lineBreak (indent depth : Nat) :
    Gives .outside (lineBreak indent depth) [] .outside := by
  unfold lineBreak
  split
  · exact .refl
  · have hbreak : Gives .outside ['\n'] [] .outside := .step rfl
    exact hbreak.trans (gives_spaces _)

theorem gives_sign {t : Token} (h : sign? c = some t) : Gives .outside [c] [t] .outside := by
  refine .step ?_
  rw [Mode.feed, feedOutside, h]

theorem gives_colon (indent : Nat) : Gives .outside (colon indent) [.colon] .outside := by
  have hcolon : Gives .outside [':'] [.colon] .outside := gives_sign rfl
  unfold colon
  split
  · exact hcolon
  · exact hcolon.trans (gives_spaces 1)

/-- The characters are read as the tokens, unless more of a word follows. -/
def Writes (cs : List Char) (ts : List Token) : Prop :=
  ∀ rest, Delimited rest → scan .outside (cs ++ rest) = (scan .outside rest).map (ts ++ ·)

theorem Gives.writes (h : Gives .outside cs ts .outside) : Writes cs ts := fun rest _ => h rest

theorem Writes.prepend (h : Writes b us) (h' : Gives .outside a ts .outside) :
    Writes (a ++ b) (ts ++ us) := by
  intro rest hrest
  rw [List.append_assoc, h', h rest hrest, Option.map_map]
  simp [Function.comp_def]

theorem Writes.append (h : Writes a ts) (h' : Writes b us) (hb : ∀ rest, Delimited (b ++ rest)) :
    Writes (a ++ b) (ts ++ us) := by
  intro rest hrest
  rw [List.append_assoc, h _ (hb rest), h' rest hrest, Option.map_map]
  simp [Function.comp_def]

theorem writes_number (n : Int) : Writes (toString n).toList [.scalar (.number n)] := by
  intro rest hrest
  have hne : (toString n).toList ≠ [] := by
    rcases toList_toString n with ⟨htext, -⟩ | ⟨htext, -⟩
    · rw [htext]
      exact Nat.toDigits_ne_nil
    · rw [htext]
      exact List.cons_ne_nil _ _
  exact scan_word hne (fun c hc => isWordChar_toString hc) (scalar?_toString n) hrest

variable (indent depth depth' : Nat)

def itemChars (vs : List Json) : List Char :=
  moreItems indent depth vs ++ (lineBreak indent depth' ++ [']'])

def memberChars (ms : List (String × Json)) : List Char :=
  moreMembers indent depth ms ++ (lineBreak indent depth' ++ ['\x7d'])

theorem delimited_itemChars (vs : List Json) (rest : List Char) :
    Delimited (itemChars indent depth depth' vs ++ rest) := by
  cases vs with
  | nil =>
    rw [itemChars, moreItems, List.nil_append, List.append_assoc]
    exact delimited_lineBreak _ _ (delimited_cons (by decide))
  | cons v vs => exact delimited_cons (by decide)

theorem delimited_memberChars (ms : List (String × Json)) (rest : List Char) :
    Delimited (memberChars indent depth depth' ms ++ rest) := by
  cases ms with
  | nil =>
    rw [memberChars, moreMembers, List.nil_append, List.append_assoc]
    exact delimited_lineBreak _ _ (delimited_cons (by decide))
  | cons m ms => exact delimited_cons (by decide)

mutual

theorem writes_chars (v : Json) (depth : Nat) : Writes (v.chars indent depth) v.tokens := by
  match v with
  | .text s => exact (gives_quote s).writes
  | .number n => exact writes_number n
  | .array [] =>
    have hopen : Gives .outside ['['] [.arrayOpen] .outside := gives_sign rfl
    have hclose : Gives .outside [']'] [.arrayClose] .outside := gives_sign rfl
    exact (hopen.trans hclose).writes
  | .array (v :: vs) =>
    have hopen : Gives .outside ['['] [.arrayOpen] .outside := gives_sign rfl
    have hchars : chars indent depth (.array (v :: vs)) = '[' :: lineBreak indent (depth + 1) ++
        (v.chars indent (depth + 1) ++ itemChars indent (depth + 1) depth vs) := by
      simp [chars, itemChars]
    rw [hchars]
    exact ((writes_chars v (depth + 1)).append (writes_itemChars vs (depth + 1) depth)
      (delimited_itemChars _ _ _ vs)).prepend (hopen.trans (gives_lineBreak _ _))
  | .object [] =>
    have hopen : Gives .outside ['\x7b'] [.objectOpen] .outside := gives_sign rfl
    have hclose : Gives .outside ['\x7d'] [.objectClose] .outside := gives_sign rfl
    exact (hopen.trans hclose).writes
  | .object ((k, v) :: ms) =>
    have hopen : Gives .outside ['\x7b'] [.objectOpen] .outside := gives_sign rfl
    have hkey := ((gives_lineBreak indent (depth + 1)).trans (gives_quote k)).trans
      (gives_colon indent)
    have hchars : chars indent depth (.object ((k, v) :: ms)) =
        ['\x7b'] ++ (lineBreak indent (depth + 1) ++ quote k ++ colon indent) ++
          (v.chars indent (depth + 1) ++ memberChars indent (depth + 1) depth ms) := by
      simp [chars, memberChars]
    rw [hchars]
    exact ((writes_chars v (depth + 1)).append (writes_memberChars ms (depth + 1) depth)
      (delimited_memberChars _ _ _ ms)).prepend (hopen.trans hkey)

theorem writes_itemChars (vs : List Json) (depth depth' : Nat) :
    Writes (itemChars indent depth depth' vs) (itemTokens vs) := by
  match vs with
  | [] =>
    have hclose : Gives .outside [']'] [.arrayClose] .outside := gives_sign rfl
    exact ((gives_lineBreak indent depth').trans hclose).writes
  | v :: vs =>
    have hcomma : Gives .outside [','] [.comma] .outside := gives_sign rfl
    have hchars : itemChars indent depth depth' (v :: vs) = ',' :: lineBreak indent depth ++
        (v.chars indent depth ++ itemChars indent depth depth' vs) := by
      simp [itemChars, moreItems]
    rw [hchars]
    exact ((writes_chars v depth).append (writes_itemChars vs depth depth')
      (delimited_itemChars _ _ _ vs)).prepend (hcomma.trans (gives_lineBreak _ _))

theorem writes_memberChars (ms : List (String × Json)) (depth depth' : Nat) :
    Writes (memberChars indent depth depth' ms) (memberTokens ms) := by
  match ms with
  | [] =>
    have hclose : Gives .outside ['\x7d'] [.objectClose] .outside := gives_sign rfl
    exact ((gives_lineBreak indent depth').trans hclose).writes
  | (k, v) :: ms =>
    have hcomma : Gives .outside [','] [.comma] .outside := gives_sign rfl
    have hkey := ((gives_lineBreak indent depth).trans (gives_quote k)).trans (gives_colon indent)
    have hchars : memberChars indent depth depth' ((k, v) :: ms) =
        [','] ++ (lineBreak indent depth ++ quote k ++ colon indent) ++
          (v.chars indent depth ++ memberChars indent depth depth' ms) := by
      simp [memberChars, moreMembers]
    rw [hchars]
    exact ((writes_chars v depth).append (writes_memberChars ms depth depth')
      (delimited_memberChars _ _ _ ms)).prepend (hcomma.trans hkey)

end

/-- Reading undoes printing. -/
theorem read_print (indent : Nat) (v : Json) : read (v.print indent) = some v.datum := by
  have hend : Delimited [] := by simp [Delimited]
  have hscan : scan .outside (v.chars indent 0) = some v.tokens := by
    have h := writes_chars indent v 0 [] hend
    rw [List.append_nil] at h
    rw [h]
    simp [scan, Mode.finish]
  have hparse : parse [] v.tokens = some v.datum := by
    have h := parse_tokens v [] []
    rw [List.append_nil] at h
    exact h
  rw [read, print, String.toList_ofList, hscan, Option.bind_some, hparse]

end TabularShapes.Json
