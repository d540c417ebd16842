/-!
The characters of a sequence of bytes in UTF-8. A part of the bytes that is no character is read as
one replacement character, as long as it could still have become a character, and is marked unsound.
-/

namespace SuiteDraft

/-- A character, the number of its bytes and whether they were in order. -/
structure Glyph where
  char : Char
  width : Nat
  sound : Bool := true
  deriving DecidableEq

namespace Glyph

def broken (width : Nat) : Glyph := ⟨'\ufffd', width, false⟩

/-- A character that has begun: how many bytes it lacks, the range of the next one, the bits so far
and the bytes so far. -/
structure Pending where
  lacks : Nat
  low : Nat
  high : Nat
  bits : Nat
  width : Nat

/-- What a byte leads to: a whole glyph or the beginning of one. -/
inductive Progress where
  | whole (glyph : Glyph)
  | begun (pending : Pending)

def start (b : Nat) : Progress :=
  if b < 0x80 then .whole ⟨Char.ofNat b, 1, true⟩
  else if 0xC2 ≤ b && b ≤ 0xDF then .begun ⟨1, 0x80, 0xBF, b - 0xC0, 1⟩
  else if b == 0xE0 then .begun ⟨2, 0xA0, 0xBF, 0, 1⟩
  else if b == 0xED then .begun ⟨2, 0x80, 0x9F, 0xD, 1⟩
  else if 0xE1 ≤ b && b ≤ 0xEF then .begun ⟨2, 0x80, 0xBF, b - 0xE0, 1⟩
  else if b == 0xF0 then .begun ⟨3, 0x90, 0xBF, 0, 1⟩
  else if 0xF1 ≤ b && b ≤ 0xF3 then .begun ⟨3, 0x80, 0xBF, b - 0xF0, 1⟩
  else if b == 0xF4 then .begun ⟨3, 0x80, 0x8F, 4, 1⟩
  else .whole (broken 1)

-- What a byte leads to after a beginning; nothing when it does not belong there.
def Pending.next? (p : Pending) (b : Nat) : Option Progress :=
  if p.low ≤ b && b ≤ p.high then
    let bits := p.bits * 64 + (b - 0x80)
    if p.lacks ≤ 1 then some (.whole ⟨Char.ofNat bits, p.width + 1, true⟩)
    else some (.begun ⟨p.lacks - 1, 0x80, 0xBF, bits, p.width + 1⟩)
  else none

-- The glyphs of bytes that follow a beginning, if there is one.
def ofBytesAfter : Option Pending → List UInt8 → List Glyph
  | none, [] => []
  | some p, [] => [broken p.width]
  | none, b :: rest =>
    match start b.toNat with
    | .whole g => g :: ofBytesAfter none rest
    | .begun p => ofBytesAfter (some p) rest
  | some p, b :: rest =>
    match p.next? b.toNat with
    | some (.whole g) => g :: ofBytesAfter none rest
    | some (.begun q) => ofBytesAfter (some q) rest
    | none =>
      match start b.toNat with
      | .whole g => broken p.width :: g :: ofBytesAfter none rest
      | .begun q => broken p.width :: ofBytesAfter (some q) rest

def ofBytes (bytes : List UInt8) : List Glyph := ofBytesAfter none bytes

def ofText (text : String) : List Glyph := text.toList.map fun c => ⟨c, c.utf8Size, true⟩

def textOf (glyphs : List Glyph) : String := String.ofList (glyphs.map (·.char))

example : ofBytes [0x61, 0xC3, 0xA9] = [⟨'a', 1, true⟩, ⟨'é', 2, true⟩] := by decide
example : ofBytes [0xE2, 0x82, 0x41] = [broken 2, ⟨'A', 1, true⟩] := by decide
example : ofBytes [0xED, 0xA0, 0x80] = [broken 1, broken 1, broken 1] := by decide

end Glyph

end SuiteDraft
