import TabularShapes.Proofs.Outcome
import TabularShapes.Writing.Write
import Mathlib.Data.List.Infix

/-! What a memory has room for. A text that is made fits, with its margin as a part of it, so that
whether a text can be made depends on its size alone. The margin matters for how the making fails: more
bytes may be asked for at once than any text has. -/

namespace TabularShapes

variable {room size : Nat} {e : SizeError} {s : Schema} {layout : Layout} {text : String}

theorem reserve_eq_ok_iff : reserve room size = .ok () ↔ size ≤ min maxBytes room := by
  unfold reserve
  split
  · exact iff_of_false nofun (by omega)
  · split
    · exact iff_of_false nofun (by omega)
    · exact iff_of_true rfl (by omega)

theorem reserve_eq_error_iff : reserve room size = .error e ↔
    min maxBytes room < size ∧ e = if maxBytes < size then .tooLong else .noRoom := by
  unfold reserve
  split
  · have hsize : min maxBytes room < size := by omega
    simp [hsize, eq_comm]
  · split
    · have hsize : min maxBytes room < size := by omega
      simp [hsize, eq_comm]
    · exact iff_of_false nofun (by omega)

theorem grow_eq_ok_iff : grow room size = .ok () ↔ size ≤ min maxBytes room := by
  rw [grow, reserve_eq_ok_iff]
  omega

theorem grow_eq_error_iff : grow room size = .error e ↔
    min maxBytes room < size ∧ e = if maxBytes ≤ room then .tooLong else .noRoom := by
  rw [grow, reserve_eq_error_iff]
  have hless : min maxBytes room < min size (min maxBytes room + 1) ↔ min maxBytes room < size := by
    omega
  rw [hless]
  refine and_congr_right fun h => ?_
  have hlong : maxBytes < min size (min maxBytes room + 1) ↔ maxBytes ≤ room := by omega
  simp only [hlong]

/-! ### The margin -/

theorem utf8ByteSize_replicate (n : Nat) :
    (String.ofList (List.replicate n ' ')).utf8ByteSize = n := by
  induction n with
  | zero => rfl
  | succ n ih =>
    rw [List.replicate_succ', String.ofList_append, String.utf8ByteSize_append, ih]
    rfl

theorem le_utf8ByteSize {n : Nat} (h : List.replicate n ' ' <:+: text.toList) :
    n ≤ text.utf8ByteSize := by
  obtain ⟨before, after, h⟩ := h
  have htext : text =
      String.ofList before ++ String.ofList (List.replicate n ' ') ++ String.ofList after := by
    rw [← String.ofList_append, ← String.ofList_append, h, String.ofList_toList]
  rw [htext, String.utf8ByteSize_append, String.utf8ByteSize_append, utf8ByteSize_replicate]
  omega

/-- No character takes more than four bytes. -/
theorem utf8ByteSize_ofList_le (cs : List Char) :
    (String.ofList cs).utf8ByteSize ≤ 4 * cs.length := by
  induction cs with
  | nil => exact Nat.le_refl 0
  | cons c cs ih =>
    have hsize := c.utf8Size_le_four
    have hcons : String.ofList (c :: cs) = String.singleton c ++ String.ofList cs := by
      rw [String.singleton_eq_ofList, ← String.ofList_append, List.singleton_append]
    rw [hcons, String.utf8ByteSize_append, String.utf8ByteSize_singleton, List.length_cons]
    omega

theorem infix_join {t : String} {ts : List String} (h : t ∈ ts) :
    t.toList <:+: (String.join ts).toList := by
  rw [String.toList_join, List.flatMap_def]
  exact List.infix_of_mem_flatten (List.mem_map_of_mem h)

namespace Compact

theorem mem_constraints (layout : Layout) (margin : String) {ks : List Constraint} (h : ks ≠ []) :
    ∃ line ∈ constraints layout margin ks, Piece.plain margin ∈ line := by
  have hone : ∀ last k, ∃ line ∈ constraint layout margin last k, Piece.plain margin ∈ line :=
    fun last k => ⟨_, List.mem_append_right _ List.mem_cons_self, by simp⟩
  match ks with
  | [] => exact absurd rfl h
  | [k] => exact hone true k
  | k :: k' :: rest =>
    obtain ⟨line, hline, hmargin⟩ := hone false k
    exact ⟨line, List.mem_append_left _ hline, hmargin⟩

theorem mem_shapes {gap : Bool} {ds : List Declaration} {d : Declaration} {line : Line} (hd : d ∈ ds)
    (h : line ∈ shape layout d) : line ∈ shapes layout gap ds := by
  induction ds generalizing gap with
  | nil => cases hd
  | cons d' ds ih =>
    rw [shapes, List.mem_append, List.mem_append]
    rcases List.mem_cons.1 hd with rfl | hd
    · exact .inl (.inr h)
    · exact .inr (ih hd)

/-- Where a shape has constraints, some line starts with the margin. -/
theorem exists_margin (layout : Layout) (h : s.declarations.any (!·.isEmpty) = true) :
    ∃ line ∈ lines layout s,
      Piece.plain (String.ofList (List.replicate layout.indent ' ')) ∈ line := by
  obtain ⟨d, hd, hempty⟩ := List.any_eq_true.1 h
  have hne : d.isEmpty = false := by simpa using hempty
  have hks : d.constraints ≠ [] := by simpa [Declaration.isEmpty] using hne
  obtain ⟨line, hline, hmargin⟩ :=
    mem_constraints layout (String.ofList (List.replicate layout.indent ' ')) hks
  refine ⟨line, List.mem_append_right _ (mem_shapes hd ?_), hmargin⟩
  rw [shape, hne]
  exact List.mem_append_right _ (List.mem_append_left _ (List.mem_append_right _ hline))

end Compact

theorem infix_margin (h : s.hasMargin layout = true) :
    List.replicate layout.indent ' ' <:+: (s.write layout).toList := by
  cases hformat : layout.format with
  | shexC =>
    rw [Schema.hasMargin, hformat] at h
    obtain ⟨line, hline, hpiece⟩ := Compact.exists_margin layout h
    rw [Schema.write, hformat]
    -- the margin is a piece of a line of the text
    have hshown := infix_join (List.mem_map_of_mem (f := Line.shown layout.colours) hline)
    have hjoined := infix_join (List.mem_map_of_mem (f := Piece.shown layout.colours) hpiece)
    have hplain : ∀ t, (Piece.plain t).shown layout.colours = t := by
      intro t
      cases layout.colours <;> rfl
    rw [hplain, String.toList_ofList] at hjoined
    refine hjoined.trans (.trans ?_ hshown)
    rw [Line.shown, String.toList_append]
    exact List.infix_append_left
  | shexJ =>
    rw [Schema.hasMargin, hformat] at h
    have hindent : layout.indent ≠ 0 := by simpa using h
    rw [Schema.write, hformat]
    simp only [Json.print, String.toList_ofList, Schema.document, Json.chars, Json.lineBreak,
      hindent, if_false, Nat.zero_add, Nat.mul_one]
    exact ⟨['\x7b', '\n'], _, by simp only [List.cons_append, List.nil_append, List.append_assoc]; rfl⟩

/-! ### Texts -/

theorem indent_le_utf8ByteSize (h : s.hasMargin layout = true) :
    layout.indent ≤ (s.write layout).utf8ByteSize :=
  le_utf8ByteSize (infix_margin h)

/-- More bytes are asked for at once than any text has. -/
def Schema.Overflows (s : Schema) (layout : Layout) : Prop :=
  s.hasMargin layout = true ∧ maxBytes < layout.indent

theorem make_eq (s : Schema) (layout : Layout) (room : Nat) : s.make layout room =
    (if s.hasMargin layout then reserve room layout.indent else .ok ()) >>= fun _ =>
      (grow room (s.write layout).utf8ByteSize).map fun _ => s.write layout := by
  unfold Schema.make
  split <;> rfl

theorem make_eq_ok_iff : s.make layout room = .ok text ↔
    text = s.write layout ∧ text.utf8ByteSize ≤ min maxBytes room := by
  rw [make_eq, bind_eq_ok_iff]
  constructor
  · rintro ⟨⟨⟩, -, h⟩
    obtain ⟨⟨⟩, hgrow, rfl⟩ := map_eq_ok_iff.1 h
    exact ⟨rfl, grow_eq_ok_iff.1 hgrow⟩
  · rintro ⟨rfl, hsize⟩
    refine ⟨(), ?_, map_eq_ok_iff.2 ⟨(), grow_eq_ok_iff.2 hsize, rfl⟩⟩
    split
    · next h => exact reserve_eq_ok_iff.2 ((indent_le_utf8ByteSize h).trans hsize)
    · rfl

/-- A text that is not made is too great, and how its making fails is read off the sizes. -/
theorem size_of_make_error (h : s.make layout room = .error e) :
    min maxBytes room < (s.write layout).utf8ByteSize ∧
      (e = .tooLong ↔ maxBytes ≤ room ∨ s.Overflows layout) := by
  constructor
  · by_contra hsize
    rw [make_eq_ok_iff.2 ⟨rfl, Nat.le_of_not_lt hsize⟩] at h
    cases h
  · rw [make_eq, bind_eq_error_iff] at h
    rcases h with h | ⟨⟨⟩, hmargin, h⟩
    · -- the margin is not made
      split at h
      · next hm =>
        obtain ⟨hsize, rfl⟩ := reserve_eq_error_iff.1 h
        rw [Schema.Overflows, hm]
        split
        · next hlong => simp [hlong]
        · next hlong =>
          have hroom : ¬maxBytes ≤ room := by omega
          simp [hlong, hroom]
      · cases h
    · -- the margin is made, and so is no wider than a text
      obtain ⟨-, rfl⟩ := grow_eq_error_iff.1 (map_eq_error_iff.1 h)
      have hover : ¬s.Overflows layout := by
        rintro ⟨hm, hlong⟩
        rw [if_pos hm, reserve_eq_ok_iff] at hmargin
        omega
      simp [hover]

end TabularShapes
