/-
Reading fields of a message body (`crates/common/src/checked_bytes.rs` and the readers
of `crates/protocol/src/codec.rs`).

Every reader takes the body and an offset and returns the field with the offset behind
it, as the `&mut usize` of the source. Integers are big-endian. Allocation does not
fail here (`fallible_vec`).
-/

import Saguaro.Common.Error
import Saguaro.Lib.Bytes

namespace Saguaro

namespace Bytes

/-- The integer that the bytes stand for, most significant first. -/
def beValue (bytes : Bytes) : Nat := bytes.foldl (fun value byte => 256 * value + byte.toNat) 0

/-- `from_be_bytes` of a signed integer type that has the width of the bytes. -/
def beInt (bytes : Bytes) : Int :=
  let value := bytes.beValue
  if 2 * value < 2 ^ (8 * bytes.length) then value else value - 2 ^ (8 * bytes.length)

end Bytes

namespace Protocol

def protocolError (message : String) : DbError := .protocol .syntaxError message

/-- `std::str::from_utf8`. -/
def fromUtf8 (bytes : Bytes) : Option String := String.fromUTF8? ⟨bytes.toArray⟩

/-- `SliceReadErrorKind`. -/
inductive SliceReadErrorKind where
  | positionOutOfBounds
  | lengthOverflow
  | truncated
  | trailingBytes
  deriving DecidableEq, Repr

structure SliceReadError where
  kind : SliceReadErrorKind
  position : Nat
  requested : Nat
  remaining : Nat
  deriving DecidableEq, Repr

/-- `Display for SliceReadError`. -/
def SliceReadError.display (err : SliceReadError) : String :=
  match err.kind with
  | .positionOutOfBounds => s!"byte position {err.position} is outside the input"
  | .lengthOverflow => s!"byte range at {err.position} with length {err.requested} overflows"
  | .truncated => s!"byte range at {err.position} needs {err.requested} bytes but only " ++
      s!"{err.remaining} remain"
  | .trailingBytes => s!"{err.remaining} trailing bytes remain at position {err.position}"

/-- `CheckedSliceReader`. -/
structure SliceReader where
  bytes : Bytes
  position : Nat

namespace SliceReader

/-- `CheckedSliceReader::at`. -/
def startAt (bytes : Bytes) (position : Nat) : Except SliceReadError SliceReader :=
  if position > bytes.length then .error ⟨.positionOutOfBounds, position, 0, 0⟩
  else .ok ⟨bytes, position⟩

def remaining (reader : SliceReader) : Nat := reader.bytes.length - reader.position

def take (reader : SliceReader) (len : Nat) : Except SliceReadError (Bytes × SliceReader) :=
  let stop := reader.position + len
  if stop ≥ 2 ^ 64 then .error ⟨.lengthOverflow, reader.position, len, reader.remaining⟩
  else if stop > reader.bytes.length then
    .error ⟨.truncated, reader.position, len, reader.remaining⟩
  else .ok ((reader.bytes.drop reader.position).take len, { reader with position := stop })

/-- `read_i16_be`, `read_i32_be`, `read_i64_be`: an integer of `width` bytes. -/
def readIntBe (reader : SliceReader) (width : Nat) : Except SliceReadError (Int × SliceReader) :=
  (reader.take width).map fun (bytes, reader) => (bytes.beInt, reader)

def finish (reader : SliceReader) : Except SliceReadError Unit :=
  if reader.remaining = 0 then .ok ()
  else .error ⟨.trailingBytes, reader.position, 0, reader.remaining⟩

end SliceReader

/-- `.map_err(..)`. -/
def mapErr {α : Type} (result : Except SliceReadError α) (message : SliceReadError → String) :
    Result α := result.mapError fun err => protocolError (message err)

def readerAt (bytes : Bytes) (offset : Nat) (what : String) : Result SliceReader :=
  mapErr (SliceReader.startAt bytes offset) fun err =>
    s!"{what} has an invalid offset: {err.display}"

/-- `read_i32`: the bytes are one integer. -/
def readI32 (bytes : Bytes) : Result Int := do
  let (value, reader) ← mapErr (SliceReader.readIntBe ⟨bytes, 0⟩ 4) fun _ =>
    "integer field is incomplete"
  mapErr reader.finish fun _ => "integer field has trailing bytes"
  return value

def readI16At (bytes : Bytes) (offset : Nat) : Result (Int × Nat) := do
  let reader ← readerAt bytes offset "int16 field"
  let (value, reader) ← mapErr (reader.readIntBe 2) fun err =>
    s!"message is truncated reading int16: {err.display}"
  return (value, reader.position)

def readI32At (bytes : Bytes) (offset : Nat) : Result (Int × Nat) := do
  let reader ← readerAt bytes offset "int32 field"
  let (value, reader) ← mapErr (reader.readIntBe 4) fun err =>
    s!"message is truncated reading int32: {err.display}"
  return (value, reader.position)

/-- `usize::try_from`. -/
def tryUsize (value : Int) (message : String) : Result Nat :=
  if value < 0 then .error (protocolError message) else .ok value.toNat

/-- Read a non-negative `int16` count field. -/
def readCount (bytes : Bytes) (offset : Nat) (what : String) : Result (Nat × Nat) := do
  let (count, offset) ← readI16At bytes offset
  return (← tryUsize count s!"{what} count is negative", offset)

/-- `for _ in 0..count`, with a reader that moves the offset. -/
def readMany {α : Type} (read : Nat → Result (α × Nat)) : Nat → Nat → Result (List α × Nat)
  | 0, offset => .ok ([], offset)
  | count + 1, offset => do
      let (value, offset) ← read offset
      let (values, offset) ← readMany read count offset
      return (value :: values, offset)

def readI16Array (bytes : Bytes) (offset : Nat) (what : String) : Result (List Int × Nat) := do
  let (count, offset) ← readCount bytes offset what
  readMany (readI16At bytes) count offset

def readCstr (bytes : Bytes) (offset : Nat) : Result (String × Nat) :=
  let remaining := bytes.drop offset
  if remaining.contains 0 then
    let value := remaining.takeWhile (· ≠ 0)
    match fromUtf8 value with
    | some text => .ok (text, offset + value.length + 1)
    | none => .error (protocolError "string field is not valid UTF-8")
  else .error (protocolError "string field is not nul terminated")

def requireConsumed (body : Bytes) (offset : Nat) : Result Unit := do
  let reader ← readerAt body offset "message"
  mapErr reader.finish fun _ => "message has unexpected trailing bytes"

def decodeNulTerminatedText (bytes : Bytes) (error : String) : Result String :=
  if bytes.contains 0 then
    let text := bytes.takeWhile (· ≠ 0)
    if text.length + 1 = bytes.length then
      match fromUtf8 text with
      | some text => .ok text
      | none => .error (protocolError "message text is not valid UTF-8")
    else .error (protocolError "message has bytes after nul terminator")
  else .error (protocolError error)

end Protocol

end Saguaro
