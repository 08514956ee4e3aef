/-
Decoding what the client sends (`PostgresCodec::decode` in
`crates/protocol/src/codec.rs`).

The codec keeps the bytes of an unfinished frame. Each call appends a chunk to them
and takes the complete frames off; the first byte of a frame says whether it is a
tagged message or of the startup kind. A call that fails returns the error only. The
connection ends then (`serve` in `crates/server/src/connection/mod.rs`), so the codec
that a failed call leaves behind is not modelled.
-/

import Saguaro.Protocol.Reader

namespace Saguaro.Protocol

def SSL_REQUEST_CODE : Int := 80877103
def GSSENC_REQUEST_CODE : Int := 80877104
def CANCEL_REQUEST_CODE : Int := 80877102
def POSTGRES_PROTOCOL_V3 : Int := 196608
def MAX_FRAME_LEN : Nat := 1024 * 1024

inductive StatementKind where
  | statement
  | portal
  deriving DecidableEq, Repr

inductive ClientMessage where
  | startup (user : String) (database applicationName : Option String)
  | sslRequest
  | gssEncRequest
  | cancelRequest (processId secretKey : Int)
  | query (sql : String)
  | parse (name query : String) (paramTypes : List Int)
  | bind (portal statement : String) (paramFormats : List Int) (params : List (Option Bytes))
      (resultFormats : List Int)
  | describe (kind : StatementKind) (name : String)
  | execute (portal : String) (maxRows : Int)
  | close (kind : StatementKind) (name : String)
  | sync
  | flush
  | copyData (bytes : Bytes)
  | copyDone
  | copyFail (message : String)
  | terminate
  deriving DecidableEq, Repr

/-- `FrameLength::parse`. -/
def FrameLength.parse (raw : Int) (minimum : Nat) (what : String) : Result Nat := do
  let value ← tryUsize raw s!"{what} length is invalid"
  Result.failIf (value < minimum) (protocolError s!"{what} length is too short")
  Result.failIf (value > MAX_FRAME_LEN) (protocolError s!"{what} length exceeds maximum frame size")
  return value

/-! ### Bodies -/

/-- What the parameters of a startup packet have set so far. -/
structure StartupParams where
  user : Option String := none
  database : Option String := none
  applicationName : Option String := none

def StartupParams.set (params : StartupParams) (key value : String) : StartupParams :=
  if key = "user" then { params with user := some value }
  else if key = "database" then { params with database := some value }
  else if key = "application_name" then { params with applicationName := some value }
  else params

/-- The loop of `decode_startup_params`; each round takes at least one byte. -/
def readStartupParams (bytes : Bytes) : Nat → Nat → StartupParams → Result StartupParams
  | 0, _, params => .ok params
  | rounds + 1, offset, params => do
      let (key, offset) ← readCstr bytes offset
      if key.isEmpty then return params
      let (value, offset) ← readCstr bytes offset
      readStartupParams bytes rounds offset (params.set key value)

def decodeStartupParams (bytes : Bytes) : Result (String × Option String × Option String) := do
  let params ← readStartupParams bytes (bytes.length + 1) 0 {}
  match params.user with
  | none => throw (protocolError "startup message is missing user")
  | some user => return (user, params.database, params.applicationName)

def decodeParse (body : Bytes) : Result ClientMessage := do
  let (name, offset) ← readCstr body 0
  let (query, offset) ← readCstr body offset
  let (count, offset) ← readCount body offset "parse parameter type"
  let (paramTypes, offset) ← readMany (readI32At body) count offset
  requireConsumed body offset
  return .parse name query paramTypes

def readParamValue (bytes : Bytes) (offset : Nat) : Result (Option Bytes × Nat) := do
  let (length, offset) ← readI32At bytes offset
  if length = -1 then return (none, offset)
  let length ← tryUsize length "bind parameter has invalid length"
  let reader ← readerAt bytes offset "bind parameter"
  let (slice, reader) ← mapErr (reader.take length) fun err =>
    s!"bind parameter is invalid: {err.display}"
  return (some slice, reader.position)

def decodeBind (body : Bytes) : Result ClientMessage := do
  let (portal, offset) ← readCstr body 0
  let (statement, offset) ← readCstr body offset
  let (paramFormats, offset) ← readI16Array body offset "bind parameter format"
  let (count, offset) ← readCount body offset "bind parameter"
  let (params, offset) ← readMany (readParamValue body) count offset
  let (resultFormats, offset) ← readI16Array body offset "bind result format"
  requireConsumed body offset
  return .bind portal statement paramFormats params resultFormats

def readKind (bytes : Bytes) (offset : Nat) : Result (StatementKind × Nat) := do
  let reader ← readerAt bytes offset "describe/close message"
  let (tag, reader) ← mapErr (reader.take 1) fun _ => "describe/close message is truncated"
  match tag with
  | [0x53] => return (.statement, reader.position)
  | [0x50] => return (.portal, reader.position)
  | _ => throw (protocolError "describe/close target must be 'S' or 'P'")

/-- `decode_describe` and `decode_close`. -/
def decodeKindAndName (message : StatementKind → String → ClientMessage) (body : Bytes) :
    Result ClientMessage := do
  let (kind, offset) ← readKind body 0
  let (name, offset) ← readCstr body offset
  requireConsumed body offset
  return message kind name

def decodeDescribe : Bytes → Result ClientMessage := decodeKindAndName .describe

def decodeClose : Bytes → Result ClientMessage := decodeKindAndName .close

def decodeExecute (body : Bytes) : Result ClientMessage := do
  let (portal, offset) ← readCstr body 0
  let (maxRows, offset) ← readI32At body offset
  requireConsumed body offset
  return .execute portal maxRows

/-- A message without a body. -/
def decodeEmpty (length : Nat) (message : ClientMessage) (error : String) : Result ClientMessage :=
  if length ≠ 4 then .error (protocolError error) else .ok message

/-- The `match tag` of `decode_tagged`. -/
def decodeBody (tag : UInt8) (length : Nat) (body : Bytes) : Result ClientMessage :=
  match tag with
  | 0x51 => (decodeNulTerminatedText body "query message is not nul terminated").map .query -- Q
  | 0x58 => decodeEmpty length .terminate "terminate message has invalid length" -- X
  | 0x50 => decodeParse body -- P
  | 0x42 => decodeBind body -- B
  | 0x44 => decodeDescribe body -- D
  | 0x45 => decodeExecute body -- E
  | 0x43 => decodeClose body -- C
  | 0x53 => decodeEmpty length .sync "sync message has invalid length" -- S
  | 0x48 => decodeEmpty length .flush "flush message has invalid length" -- H
  | 0x64 => .ok (.copyData body) -- d
  | 0x63 => decodeEmpty length .copyDone "CopyDone message has invalid length" -- c
  | 0x66 => -- f
      (decodeNulTerminatedText body "CopyFail message is not nul terminated").map .copyFail
  | _ => .error (protocolError "unsupported frontend message tag")

/-- The tags that `decode` takes for tagged messages: Q X P B D E C H S d c f. -/
def isTagged (tag : UInt8) : Bool :=
  [0x51, 0x58, 0x50, 0x42, 0x44, 0x45, 0x43, 0x48, 0x53, 0x64, 0x63, 0x66].contains tag

/-- The part of `decode_startup_style` behind the length. -/
def decodeStartupPacket (packet : Bytes) : Result ClientMessage := do
  let length := packet.length
  let code ← readI32 ((packet.drop 4).take 4)
  if length = 8 ∧ code = SSL_REQUEST_CODE then return .sslRequest
  if length = 8 ∧ code = GSSENC_REQUEST_CODE then return .gssEncRequest
  if length = 16 ∧ code = CANCEL_REQUEST_CODE then
    let processId ← readI32 ((packet.drop 8).take 4)
    let secretKey ← readI32 ((packet.drop 12).take 4)
    return .cancelRequest processId secretKey
  if code ≠ POSTGRES_PROTOCOL_V3 then
    throw (protocolError "unsupported PostgreSQL startup protocol")
  let (user, database, applicationName) ← decodeStartupParams (packet.drop 8)
  return .startup user database applicationName

/-! ### Frames -/

/-- The length field that stands at `offset`. -/
def frameLength (buffer : Bytes) (offset minimum : Nat) (what : String) : Result Nat := do
  FrameLength.parse (← readI32 ((buffer.drop offset).take 4)) minimum what

/-- What both kinds of frames have in common: the length does not count the bytes in front of
it and has to be at least `minimum`; nothing happens as long as the frame is not complete. -/
def decodeFrame (buffer : Bytes) (offset minimum : Nat) (what : String)
    (decode : Nat → Bytes → Result ClientMessage) : Result (Option (ClientMessage × Bytes)) := do
  if buffer.length < offset + 4 then return none
  let length ← frameLength buffer offset minimum what
  let total := offset + length
  if buffer.length < total then return none
  let message ← decode length (buffer.take total)
  return some (message, buffer.drop total)

/-- `decode_startup_style`. -/
def decodeStartupStyle (buffer : Bytes) : Result (Option (ClientMessage × Bytes)) :=
  decodeFrame buffer 0 8 "startup packet" fun _ packet => decodeStartupPacket packet

/-- `decode_tagged`. -/
def decodeTagged (tag : UInt8) (buffer : Bytes) : Result (Option (ClientMessage × Bytes)) :=
  decodeFrame buffer 1 4 "tagged message" fun length packet => decodeBody tag length (packet.drop 5)

/-- One round of the loop of `decode`: `none` if the frame at the front is not complete. -/
def decodeNext : Bytes → Result (Option (ClientMessage × Bytes))
  | [] => .ok none
  | tag :: rest =>
    if isTagged tag then decodeTagged tag (tag :: rest)
    else if tag = 0 then decodeStartupStyle (tag :: rest)
    else .error (protocolError "unsupported frontend message tag")

/-- The loop of `decode`; a round takes at least one byte. -/
def decodeLoop : Nat → Bytes → List ClientMessage → Result (List ClientMessage × Bytes)
  | 0, buffer, messages => .ok (messages, buffer)
  | rounds + 1, buffer, messages => do
      match ← decodeNext buffer with
      | none => return (messages, buffer)
      | some (message, buffer) => decodeLoop rounds buffer (messages ++ [message])

/-- `PostgresCodec`. -/
structure PostgresCodec where
  buffer : Bytes
  deriving DecidableEq

namespace PostgresCodec

def new : PostgresCodec := ⟨[]⟩

/-- `ProtocolCodec::decode`. -/
def decode (codec : PostgresCodec) (buf : Bytes) : Result (List ClientMessage × PostgresCodec) := do
  let buffer := codec.buffer ++ buf
  let (messages, buffer) ← decodeLoop buffer.length buffer []
  return (messages, ⟨buffer⟩)

/-- The messages that `serve` gets from the codec, chunk by chunk, up to the first error. -/
def decodeAll : PostgresCodec → List Bytes → List ClientMessage × Option DbError
  | _, [] => ([], none)
  | codec, chunk :: chunks =>
    match codec.decode chunk with
    | .error err => ([], some err)
    | .ok (messages, codec) =>
      let (more, err) := decodeAll codec chunks
      (messages ++ more, err)

end PostgresCodec

end Saguaro.Protocol
