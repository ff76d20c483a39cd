/-! Text cut at places that are given as numbers of UTF-8 bytes. A place inside a character cuts
nothing. -/

namespace TabularShapes.Text

def byteLength : List Char → Nat
  | [] => 0
  | c :: rest => c.utf8Size + byteLength rest

/-- What is left after the first `n` bytes, unless they end inside a character. -/
def dropBytes? : Nat → List Char → Option (List Char)
  | 0, cs => some cs
  | _ + 1, [] => none
  | n + 1, c :: rest => if c.utf8Size ≤ n + 1 then dropBytes? (n + 1 - c.utf8Size) rest else none

/-- The first `n` bytes, unless they end inside a character. -/
def takeBytes? : Nat → List Char → Option (List Char)
  | 0, _ => some []
  | _ + 1, [] => none
  | n + 1, c :: rest =>
    if c.utf8Size ≤ n + 1 then (takeBytes? (n + 1 - c.utf8Size) rest).map (c :: ·) else none

/-- What stands between two places, unless one of them lies inside a character. -/
def slice? (cs : List Char) (start stop : Nat) : Option (List Char) :=
  (dropBytes? start cs).bind (takeBytes? (stop - start))

/-- The characters, each with the number of bytes before it, counted from `start`. -/
def marks (start : Nat) : List Char → List (Nat × Char)
  | [] => []
  | c :: rest => (start, c) :: marks (start + c.utf8Size) rest

theorem dropBytes?_append (a b : List Char) : dropBytes? (byteLength a) (a ++ b) = some b := by
  induction a with
  | nil => simp [byteLength, dropBytes?]
  | cons c rest ih =>
    obtain ⟨n, hn⟩ := Nat.exists_eq_succ_of_ne_zero (Nat.pos_iff_ne_zero.1 c.utf8Size_pos)
    have h : byteLength (c :: rest) = n + byteLength rest + 1 := by simp [byteLength, hn]; omega
    rw [h, List.cons_append, dropBytes?, if_pos (by omega),
      show n + byteLength rest + 1 - c.utf8Size = byteLength rest by omega, ih]

theorem takeBytes?_append (a b : List Char) : takeBytes? (byteLength a) (a ++ b) = some a := by
  induction a with
  | nil => simp [byteLength, takeBytes?]
  | cons c rest ih =>
    obtain ⟨n, hn⟩ := Nat.exists_eq_succ_of_ne_zero (Nat.pos_iff_ne_zero.1 c.utf8Size_pos)
    have h : byteLength (c :: rest) = n + byteLength rest + 1 := by simp [byteLength, hn]; omega
    rw [h, List.cons_append, takeBytes?, if_pos (by omega),
      show n + byteLength rest + 1 - c.utf8Size = byteLength rest by omega, ih, Option.map_some]

/-- Between the ends of two parts stands the second. -/
theorem slice?_append (a b c : List Char) :
    slice? (a ++ (b ++ c)) (byteLength a) (byteLength a + byteLength b) = some b := by
  rw [slice?, dropBytes?_append, Option.bind_some, Nat.add_sub_cancel_left, takeBytes?_append]

end TabularShapes.Text
