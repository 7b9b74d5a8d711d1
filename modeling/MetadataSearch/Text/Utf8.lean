/-!
# UTF-8

- `Text.byteSize` counts the bytes of a text.
- `Text.encode` gives them.
- `Text.decode?` reads the bytes of a text, and no others.
- `Text.decodeLossy` reads any bytes. It is a machine that takes one byte at a time and remembers the
  character it is in. A byte that cannot go on ends the character: what was read of it becomes one
  replacement character, and the byte starts afresh.
-/

namespace MetadataSearch.Text

/-- The length in bytes. -/
def byteSize (text : List Char) : Nat := text.foldr (fun c size => c.utf8Size + size) 0

def encode (text : List Char) : List UInt8 := text.flatMap String.utf8EncodeChar

/-- What stands for bytes that are no character. -/
def replacement : Char := '\uFFFD'

/-- A character of which the first bytes are read: how many are still owed, the bounds of the next
one, and the bits so far. -/
structure Pending where
  owed : Nat
  low : Nat
  high : Nat
  bits : Nat

/-- A byte between characters. -/
def beginChar (b : UInt8) : List Char × Option Pending :=
  let n := b.toNat
  if n < 0x80 then ([Char.ofNat n], none)
  else if n < 0xC2 then ([replacement], none)
  else if n < 0xE0 then ([], some ⟨1, 0x80, 0xBF, n - 0xC0⟩)
  else if n < 0xF0 then
    ([], some ⟨2, if n == 0xE0 then 0xA0 else 0x80, if n == 0xED then 0x9F else 0xBF, n - 0xE0⟩)
  else if n < 0xF5 then
    ([], some ⟨3, if n == 0xF0 then 0x90 else 0x80, if n == 0xF4 then 0x8F else 0xBF, n - 0xF0⟩)
  else ([replacement], none)

/-- One byte: the characters it completes and the one it leaves open. -/
def takeByte (pending : Option Pending) (b : UInt8) : List Char × Option Pending :=
  match pending with
  | none => beginChar b
  | some p =>
    let n := b.toNat
    if p.low ≤ n && n ≤ p.high then
      let bits := p.bits * 64 + n % 64
      if p.owed ≤ 1 then ([Char.ofNat bits], none)
      else ([], some ⟨p.owed - 1, 0x80, 0xBF, bits⟩)
    else
      let (chars, next) := beginChar b
      (replacement :: chars, next)

def decodeFrom (pending : Option Pending) : List UInt8 → List Char
  | [] => if pending.isSome then [replacement] else []
  | b :: rest =>
    let (chars, next) := takeByte pending b
    chars ++ decodeFrom next rest

/-- The text of any bytes. -/
def decodeLossy (bytes : List UInt8) : List Char := decodeFrom none bytes

/-- The text whose bytes these are, if there is one. -/
def decode? (bytes : List UInt8) : Option (List Char) :=
  if encode (decodeLossy bytes) = bytes then some (decodeLossy bytes) else none

end MetadataSearch.Text
