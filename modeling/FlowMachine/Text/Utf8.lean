/-!
# Reading UTF-8

Bytes are read strictly: no overlong forms, no halves of pairs, nothing beyond the last code point.
When they cannot be read, the first flaw is reported with the bytes it covers: a character that
breaks off covers its good bytes, and a character that the end of the bytes cuts short covers them
all.
-/
namespace FlowMachine.Text

/-- Why a character cannot be read. -/
inductive Utf8Cause where
  | badStart
  | badContinuation
  | cutShort
deriving DecidableEq, Repr

/-- The first character that cannot be read: where it starts, its first byte and how many bytes it
covers. -/
structure Utf8Flaw where
  position : Nat
  byte : UInt8
  width : Nat
  cause : Utf8Cause
deriving DecidableEq, Repr

namespace Utf8Cause

def text : Utf8Cause → String
  | .badStart => "invalid start byte"
  | .badContinuation => "invalid continuation byte"
  | .cutShort => "unexpected end of data"

end Utf8Cause

/-- Two lower-case hexadecimal digits. -/
def hexByte (b : UInt8) : String :=
  let digits := Nat.toDigits 16 b.toNat
  String.ofList (List.replicate (2 - digits.length) '0' ++ digits)

namespace Utf8Flaw

def message (f : Utf8Flaw) : String :=
  if f.width ≤ 1 then
    s!"'utf-8' codec can't decode byte 0x{hexByte f.byte} in position {f.position}: {f.cause.text}"
  else
    let last := f.position + f.width - 1
    s!"'utf-8' codec can't decode bytes in position {f.position}-{last}: {f.cause.text}"

end Utf8Flaw

/-- What the bytes behind a first byte have to be: the interval of the second byte, and how many
bytes follow it. -/
def continuation? (b : UInt8) : Option (UInt8 × UInt8 × Nat) :=
  if b < 0xC2 then none
  else if b < 0xE0 then some (0x80, 0xBF, 0)
  else if b == 0xE0 then some (0xA0, 0xBF, 1)
  else if b == 0xED then some (0x80, 0x9F, 1)
  else if b < 0xF0 then some (0x80, 0xBF, 1)
  else if b == 0xF0 then some (0x90, 0xBF, 2)
  else if b < 0xF4 then some (0x80, 0xBF, 2)
  else if b == 0xF4 then some (0x80, 0x8F, 2)
  else none

/-- Reads bytes that continue a character, `width` bytes of which are read: the width of the whole
character, or the cause why it breaks off and the width until there. -/
def readContinuation (width : Nat) : Nat → List UInt8 → Except (Utf8Cause × Nat) Nat
  | 0, _ => .ok width
  | _ + 1, [] => .error (.cutShort, width)
  | n + 1, b :: bs =>
    if 0x80 ≤ b && b ≤ 0xBF then readContinuation (width + 1) n bs
    else .error (.badContinuation, width)

/-- The width of the character at the front of bytes. -/
def characterWidth (b : UInt8) (bs : List UInt8) : Except (Utf8Cause × Nat) Nat :=
  if b < 0x80 then .ok 1
  else
    match continuation? b with
    | none => .error (.badStart, 1)
    | some (low, high, more) =>
      match bs with
      | [] => .error (.cutShort, 1)
      | second :: rest =>
        if low ≤ second && second ≤ high then readContinuation 2 more rest
        else .error (.badContinuation, 1)

/-- The first flaw in bytes that start at a position, after passing over `skip` bytes that are
read. -/
def flawFrom (position : Nat) : Nat → List UInt8 → Option Utf8Flaw
  | _, [] => none
  | skip + 1, _ :: bs => flawFrom (position + 1) skip bs
  | 0, b :: bs =>
    match characterWidth b bs with
    | .ok width => flawFrom (position + 1) (width - 1) bs
    | .error (cause, width) => some ⟨position, b, width, cause⟩

/-- Reads bytes as a text. -/
def decode (bytes : ByteArray) : Except Utf8Flaw String :=
  match String.fromUTF8? bytes with
  | some s => .ok s
  | none => .error ((flawFrom 0 0 bytes.toList).getD ⟨0, 0, 0, .badStart⟩)

/-- A byte that only continues a character. -/
def isContinuation (b : UInt8) : Bool := 0x80 ≤ b && b ≤ 0xBF

/-- Where the character starts that the byte at a position belongs to. -/
def characterStart (bytes : ByteArray) : Nat → Nat
  | 0 => 0
  | n + 1 => if (bytes[n + 1]?).any isContinuation then characterStart bytes n else n + 1

namespace Utf8Flaw

/-- The byte that shows the flaw. -/
def shownAt (f : Utf8Flaw) : Nat :=
  if f.cause == .badContinuation then f.position + f.width else f.position

/-- The flaw as told by a reader that takes bytes in chunks. It counts from the chunk that shows the
flaw, together with the bytes in front that belong to its first character. What the end of all bytes
cuts short is a chunk of its own. -/
def inChunks (size : Nat) (bytes : ByteArray) (f : Utf8Flaw) : Utf8Flaw :=
  let start := match f.cause with
    | .cutShort => f.position
    | _ => min f.position (characterStart bytes (f.shownAt / size * size))
  { f with position := f.position - start }

end Utf8Flaw

/-- What is written is read back. -/
theorem decode_toUTF8 (s : String) : decode s.toUTF8 = .ok s := by
  have valid : s.toUTF8.IsValidUTF8 := s.isValidUTF8
  have read : String.fromUTF8? s.toUTF8 = some s := by
    simp only [String.fromUTF8?, valid, ↓reduceDIte]
    rfl
  rw [decode, read]

end FlowMachine.Text
