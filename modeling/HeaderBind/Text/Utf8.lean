import HeaderBind.Text.Hex

/-!
# `HeaderBind.Text.Utf8`: file contents as text

A file holds bytes; `decode` reads them as UTF-8 and otherwise reports the first ill-formed
sequence: where it starts, which bytes belong to it and what is wrong. A sequence is cut off at
the first byte that no well-formed sequence has at that place.
-/

set_option autoImplicit false

namespace HeaderBind.Utf8

open HeaderBind.Text

/-- What is wrong with a sequence of bytes. -/
inductive Reason where
  /-- The first byte starts no sequence. -/
  | invalidStart
  /-- A byte after the first one cannot stand where it stands. -/
  | invalidContinuation
  /-- The bytes end inside a sequence. -/
  | unexpectedEnd
  deriving DecidableEq, Repr

/-- The wording of a reason. -/
def Reason.message : Reason → String
  | .invalidStart => "invalid start byte"
  | .invalidContinuation => "invalid continuation byte"
  | .unexpectedEnd => "unexpected end of data"

/-- The first ill-formed sequence: its place, its bytes and what is wrong with it. -/
structure Fault where
  start : Nat
  bytes : List UInt8
  reason : Reason
  deriving DecidableEq, Repr

/-- The wording of a fault. A single byte is named, several are named by their places. -/
def Fault.message (fault : Fault) : String :=
  let what := match fault.bytes with
    | [byte] =>
      let digits := String.ofList (hexDigits 2 byte.toNat)
      s!"byte 0x{digits} in position {fault.start}"
    | bytes => s!"bytes in position {fault.start}-{fault.start + bytes.length - 1}"
  s!"'utf-8' codec can't decode {what}: {fault.reason.message}"

/-- The ranges that the bytes after a first byte must lie in, one range a byte; none for a byte
that starts no sequence. The second byte is restricted where a wider range would admit a longer
form than needed, a surrogate or a value past the last code point. -/
def continuations? (lead : UInt8) : Option (List (UInt8 × UInt8)) :=
  let tail := (0x80, 0xbf)
  if lead < 0x80 then some []
  else if lead < 0xc2 then none
  else if lead < 0xe0 then some [tail]
  else if lead = 0xe0 then some [(0xa0, 0xbf), tail]
  else if lead = 0xed then some [(0x80, 0x9f), tail]
  else if lead < 0xf0 then some [tail, tail]
  else if lead = 0xf0 then some [(0x90, 0xbf), tail, tail]
  else if lead < 0xf4 then some [tail, tail, tail]
  else if lead = 0xf4 then some [(0x80, 0x8f), tail, tail]
  else none

/-- Matches the bytes after a first byte against their ranges: how many fit, and what is wrong
with the next one, if anything. -/
def matchTail : List (UInt8 × UInt8) → List UInt8 → Nat × Option Reason
  | [], _ => (0, none)
  | _ :: _, [] => (0, some .unexpectedEnd)
  | (low, high) :: ranges, byte :: bytes =>
    if low ≤ byte && byte ≤ high then
      let (count, reason) := matchTail ranges bytes
      (count + 1, reason)
    else (0, some .invalidContinuation)

/-- The first ill-formed sequence of the bytes, which start at `position`. The first number counts
the bytes that still belong to the sequence before them. -/
def firstFault? : (skip : Nat) → (position : Nat) → List UInt8 → Option Fault
  | _, _, [] => none
  | skip + 1, position, _ :: bytes => firstFault? skip (position + 1) bytes
  | 0, position, lead :: bytes =>
    match continuations? lead with
    | none => some ⟨position, [lead], .invalidStart⟩
    | some ranges =>
      match matchTail ranges bytes with
      | (count, some reason) => some ⟨position, lead :: bytes.take count, reason⟩
      | (count, none) => firstFault? count (position + 1) bytes

/-- The text that the bytes encode. -/
def decode (bytes : ByteArray) : Except Fault String :=
  match String.fromUTF8? bytes with
  | some text => .ok text
  | none => .error ((firstFault? 0 0 bytes.toList).getD ⟨0, [], .unexpectedEnd⟩)

/-- The bytes that encode a text. -/
def encode (text : String) : ByteArray :=
  text.toUTF8

/-- Whatever was encoded is decoded again. -/
theorem decode_encode (text : String) : decode (encode text) = .ok text := by
  have h : String.fromUTF8? text.toByteArray = some text := by
    unfold String.fromUTF8?
    rw [dif_pos text.isValidUTF8]
    rfl
  simp [decode, encode, h]

end HeaderBind.Utf8
