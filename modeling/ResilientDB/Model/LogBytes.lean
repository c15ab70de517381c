import ResilientDB.Library.Except
import ResilientDB.Library.Framing
import ResilientDB.Model.Recovery

-- `size_t` has eight bytes, least significant first. The formats of the messages are parameters.

namespace ResilientDB.Model
open Library

structure LogCodec where
  parseRequest : Bytes → Option Request
  serializeRequest : Request → Bytes
  parseSignature : Bytes → Option SignatureInfo
  serializeSignature : SignatureInfo → Bytes
  parseInfo : Bytes → Option SystemInfoData
  serializeInfo : SystemInfoData → Bytes
  parse_request : ∀ request, parseRequest (serializeRequest request) = some request
  parse_signature : ∀ signature, parseSignature (serializeSignature signature) = some signature
  parse_info : ∀ info, parseInfo (serializeInfo info) = some info

-- A read behind the end, and a position that does not fit an `int`.
inductive LogFault
  | outOfRange
  | overflow
deriving DecidableEq, Repr

def appendData (buffer data : Bytes) : Bytes := buffer ++ encodeLE 8 data.length ++ data

def flushBuffer (file buffer : Bytes) : Bytes :=
  if buffer.length = 0 then file else file ++ encodeLE 8 buffer.length ++ buffer

def writeLoop (data : Bytes) : List Int → Nat → Int → Bytes → Except LogFault (Option Bytes)
  | [], len, _, file => .ok (if len = 0 then some file else none)
  | result :: results, len, pos, file =>
    if len = 0 then .ok (some file)
    else if pos < 0 ∨ data.length < pos + len then .error .outOfRange
    else
      let writeLen := toInt32 result
      if 2 ^ 31 ≤ pos + writeLen then .error .overflow
      else
        writeLoop data results (toUInt64 (len - writeLen)) (pos + writeLen)
          (file ++ (data.drop pos.toNat).take result.toNat)

def write (file data : Bytes) (results : List Int) : Except LogFault (Option Bytes) :=
  writeLoop data results data.length 0 file

def flush (file buffer : Bytes) (first second : List Int) : Except LogFault (Option Bytes) :=
  if buffer.length = 0 then .ok (some file)
  else do
    match ← write file (encodeLE 8 buffer.length) first with
    | none => .ok none
    | some file => write file buffer second

namespace LogCodec

variable (codec : LogCodec)

def writeSystemInfo (file : Bytes) (info : SystemInfoData) : Bytes :=
  flushBuffer file (appendData [] (codec.serializeInfo info))

def writeLog (file : Bytes) (entry : LogEntry) : Bytes :=
  let data := codec.serializeRequest entry.request
  let sig := codec.serializeSignature entry.signature
  flushBuffer file (appendData (appendData [] data) sig)

def openFile (file : Bytes) (info : SystemInfoData) : Bytes :=
  if toInt32 file.length = 0 then codec.writeSystemInfo file info else file

end LogCodec

def parseItems : Nat → Nat → Bytes → Except LogFault (List Bytes)
  | 0, _, _ => .ok []
  | fuel + 1, pos, data =>
    if data = [] then .ok []
    else
      match takeExact 8 data with
      | none => .error .outOfRange
      | some (length, rest) =>
        let len := decodeLE length
        if 2 ^ 31 ≤ pos + 8 + len then .error .overflow
        else do
          let items ← parseItems fuel (pos + 8 + len) (rest.drop len)
          .ok (rest.take len :: items)

def parseRawData (data : Bytes) : Except LogFault (List Bytes) := parseItems data.length 0 data

namespace LogCodec

variable (codec : LogCodec)

def pairItems : List Bytes → Except LogFault (List LogEntry)
  | [] => .ok []
  | [data] => if (codec.parseRequest data).isNone then .ok [] else .error .outOfRange
  | data :: sig :: rest =>
    match codec.parseRequest data, codec.parseSignature sig with
    | some request, some signature => do
      let entries ← pairItems rest
      .ok (⟨signature, request⟩ :: entries)
    | _, _ => .ok []

def parseData (data : Bytes) : Except LogFault (List LogEntry) := do
  let items ← parseRawData data
  codec.pairItems items

-- A buffer without a request drops what was read before.
def readBuffers : Nat → Bytes → List LogEntry → Except LogFault (List LogEntry)
  | 0, _, requestList => .ok requestList
  | fuel + 1, file, requestList =>
    match readFrame file with
    | none => .ok requestList
    | some (data, rest) => do
      let list ← codec.parseData data
      if list = [] then .ok [] else readBuffers fuel rest (requestList ++ list)

-- Nothing is called back without a record of `WriteSystemInfo`.
def readLogsFromFiles (ckpt : Int) (file : Bytes) : Except LogFault ReplayedLogs :=
  match readFrame file with
  | none => .ok { info := none, entries := [] }
  | some (data, rest) => do
    let dataList ← parseRawData data
    match dataList.head?.bind codec.parseInfo with
    | none => .ok { info := none, entries := [] }
    | some info => do
      let requestList ← codec.readBuffers rest.length rest []
      .ok {
        info := some info
        entries := (requestList.filter fun entry => toUInt64 ckpt < entry.request.seq).map fun entry =>
          { entry with request := { entry.request with isRecovery := true } } }

-- The file is read for its bounds and opened for writing.
def switchFile (file : Bytes) (info : SystemInfoData) : Except LogFault Bytes := do
  let _ ← codec.readLogsFromFiles 0 file
  .ok (codec.openFile file info)

end LogCodec
end ResilientDB.Model
