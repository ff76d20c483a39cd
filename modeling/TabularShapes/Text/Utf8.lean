/-! UTF-8 in both directions. A sequence of bytes is read as a character when it is the encoding of
that character, so overlong forms, surrogates and values past the last code point are refused. -/

namespace TabularShapes.Text

def encode (cs : List Char) : List UInt8 := cs.flatMap String.utf8EncodeChar

def utf8 (s : String) : List UInt8 := encode s.toList

def pairOf (a b : UInt8) : Char := Char.ofNat (a.toNat % 32 * 64 + b.toNat % 64)

def tripleOf (a b c : UInt8) : Char :=
  Char.ofNat (a.toNat % 16 * 4096 + b.toNat % 64 * 64 + c.toNat % 64)

def quadOf (a b c d : UInt8) : Char :=
  Char.ofNat (a.toNat % 8 * 262144 + b.toNat % 64 * 4096 + c.toNat % 64 * 64 + d.toNat % 64)

/-- The characters that the bytes encode, or the offset of the first byte of what encodes none;
`offset` bytes have gone before. -/
def decodeFrom (offset : Nat) : List UInt8 → Except Nat (List Char)
  | [] => .ok []
  | a :: r₁ =>
    if String.utf8EncodeChar (Char.ofNat a.toNat) = [a] then
      (decodeFrom (offset + 1) r₁).map (Char.ofNat a.toNat :: ·)
    else match r₁ with
      | [] => .error offset
      | b :: r₂ =>
        if String.utf8EncodeChar (pairOf a b) = [a, b] then
          (decodeFrom (offset + 2) r₂).map (pairOf a b :: ·)
        else match r₂ with
          | [] => .error offset
          | c :: r₃ =>
            if String.utf8EncodeChar (tripleOf a b c) = [a, b, c] then
              (decodeFrom (offset + 3) r₃).map (tripleOf a b c :: ·)
            else match r₃ with
              | [] => .error offset
              | d :: r₄ =>
                if String.utf8EncodeChar (quadOf a b c d) = [a, b, c, d] then
                  (decodeFrom (offset + 4) r₄).map (quadOf a b c d :: ·)
                else .error offset

/-- The text that the bytes encode, or the length of the longest part at the start that is text. -/
def decode (bytes : List UInt8) : Except Nat String := (decodeFrom 0 bytes).map String.ofList

end TabularShapes.Text
