import MonascaNotification.Python.Url

/-!
# `urllib.parse.unquote`

An escape stands for a byte, and the bytes between two other characters are decoded together as
UTF-8 (`errors='replace'`). Bytes that are no UTF-8 become U+FFFD, one for each longest beginning
of a character.
-/

namespace MonascaNotification.Urlparse

/-! ## UTF-8 -/

/-- Where the decoder stands: between characters, or inside of one. -/
inductive Utf8 where
  | start
  /--
  The bits so far, how many bytes are still to come after the next one, and the bounds of the
  next one.
  -/
  | inside (bits more lower upper : Nat)
  deriving DecidableEq

/-- U+FFFD -/
def replacement : Char := '\uFFFD'

/-- The first byte of a character. -/
def Utf8.first (byte : Nat) : List Char × Utf8 :=
  if byte < 0x80 then ([Char.ofNat byte], .start)
  else if 0xC2 ≤ byte ∧ byte ≤ 0xDF then ([], .inside (byte - 0xC0) 0 0x80 0xBF)
  else if 0xE0 ≤ byte ∧ byte ≤ 0xEF then
    ([], .inside (byte - 0xE0) 1 (if byte = 0xE0 then 0xA0 else 0x80)
      (if byte = 0xED then 0x9F else 0xBF))
  else if 0xF0 ≤ byte ∧ byte ≤ 0xF4 then
    ([], .inside (byte - 0xF0) 2 (if byte = 0xF0 then 0x90 else 0x80)
      (if byte = 0xF4 then 0x8F else 0xBF))
  else ([replacement], .start)

/-- One byte: the characters that are finished, and the next state. -/
def Utf8.next (byte : Nat) : Utf8 → List Char × Utf8
  | .start => first byte
  | .inside bits more lower upper =>
    if lower ≤ byte ∧ byte ≤ upper then
      match more with
      | 0 => ([Char.ofNat (64 * bits + (byte - 0x80))], .start)
      | more + 1 => ([], .inside (64 * bits + (byte - 0x80)) more 0x80 0xBF)
    else
      -- the byte begins the next character
      (replacement :: (first byte).1, (first byte).2)

/-- A character that is not finished. -/
def Utf8.flush : Utf8 → List Char
  | .start => []
  | .inside _ _ _ _ => [replacement]

/-! ## Escapes -/

/-- What a text is read as: bytes, and the characters that are not ASCII. -/
inductive Piece where
  | byte (b : Nat)
  | char (c : Char)

/-- `unquote_to_bytes`, for the parts that are ASCII. -/
def pieces : List Char → List Piece
  | '%' :: a :: b :: rest =>
    match hexValue a, hexValue b with
    | some x, some y => .byte (16 * x + y) :: pieces rest
    | _, _ => .byte '%'.toNat :: pieces (a :: b :: rest)
  | c :: rest => (if c.toNat < 0x80 then .byte c.toNat else .char c) :: pieces rest
  | [] => []

def decode : Utf8 → List Piece → List Char
  | state, [] => state.flush
  | state, .byte b :: rest => (state.next b).1 ++ decode (state.next b).2 rest
  | state, .char c :: rest => state.flush ++ c :: decode .start rest

/-- `urllib.parse.unquote`. -/
def unquote (s : List Char) : List Char := decode .start (pieces s)

example : unquote "a%20b%C3%A9%zz%E2%82".toList = "a bé%zz\uFFFD".toList := by decide +kernel

end MonascaNotification.Urlparse
