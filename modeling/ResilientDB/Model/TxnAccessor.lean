import ResilientDB.Library.Framing
import ResilientDB.Model.Config

-- Each of the four functions above `recv` tests its result in its own way.

namespace ResilientDB.Model
open Library

structure Chunk where
  bytes : Bytes
  nonempty : bytes ≠ [] := by decide
  small : bytes.length < 2 ^ 31 := by decide

-- Timeouts and a closed socket are errors of `recv`.
inductive Arrival
  | bytes (chunk : Chunk)
  | closed
  | error

structure Received where
  ret : Int
  data : Bytes := []
  rest : List Arrival := []

def Chunk.drop (chunk : Chunk) (len : Nat) (more : len < chunk.bytes.length) : Chunk where
  bytes := chunk.bytes.drop len
  nonempty := by simpa using more
  small := by
    have small := chunk.small
    simp only [List.length_drop]
    omega

def recv (len : Nat) : List Arrival → Received
  | [] => { ret := -1 }
  | .bytes chunk :: rest =>
    if more : len < chunk.bytes.length then
      { ret := len, data := chunk.bytes.take len, rest := .bytes (chunk.drop len more) :: rest }
    else { ret := chunk.bytes.length, data := chunk.bytes, rest := rest }
  | .closed :: rest => { ret := 0, rest := .closed :: rest }
  | .error :: rest => { ret := -1, rest := rest }

def recvLoop : Nat → Nat → Bytes → List Arrival → Received
  | 0, _, got, arrivals => { ret := toInt32 got.length, data := got, rest := arrivals }
  | turns + 1, len, got, arrivals =>
    if len = 0 then { ret := toInt32 got.length, data := got, rest := arrivals }
    else
      let call := recv len arrivals
      if call.ret ≤ 0 then { ret := call.ret, data := got, rest := call.rest }
      else recvLoop turns (len - call.data.length) (got ++ call.data) call.rest

def recvInternal (len : Nat) (arrivals : List Arrival) : Received := recvLoop len len [] arrivals

namespace TcpSocket

def recv (arrivals : List Arrival) : Received :=
  let length := recvInternal 8 arrivals
  if length.ret ≤ 0 then { length with data := [] }
  else recvInternal (decodeLE length.data) length.rest

end TcpSocket

structure QueryCodec where
  parseMessage : Bytes → Option Bytes
  parseQueryResponse : Bytes → Option (List (Nat × Bytes))
  parse_message_nil : parseMessage [] = some []
  parse_response_nil : parseQueryResponse [] = some []

namespace NetChannel

def recv (arrivals : List Arrival) : Int × Bytes :=
  let received := TcpSocket.recv arrivals
  (received.ret, if received.ret > 0 then received.data else [])

def recvRawMessageStr (codec : QueryCodec) (arrivals : List Arrival) : Int × Bytes :=
  let (ret, recvStr) := recv arrivals
  if ret ≤ 0 then (ret, [])
  else
    match codec.parseMessage recvStr with
    | none => (-1, [])
    | some data => (0, data)

def recvRawMessage {α : Type} (codec : QueryCodec) (parse : Bytes → Option α) (arrivals : List Arrival) :
    Int × Option α :=
  let (ret, respData) := recv arrivals
  if ret < 0 then (-1, none)
  else
    match codec.parseMessage respData with
    | none => (-1, none)
    | some data =>
      match parse data with
      | none => (-1, none)
      | some message => (0, some message)

end NetChannel

structure QueryChannel where
  sendRet : Int := 0
  arrivals : List Arrival := []

def TransactionConstructor.sendRequest {α : Type} (parse : Bytes → Option α) (channel : QueryChannel) :
    Int × Option α :=
  if channel.sendRet = 0 then
    let (ret, respStr) := NetChannel.recv channel.arrivals
    if ret ≥ 0 then
      match parse respStr with
      | none => (-2, none)
      | some response => (0, some response)
    else (-1, none)
  else (-1, none)

structure Tally where
  recvCount : Bytes → Nat := fun _ => 0
  finalStr : Bytes := []
  success : Bool := false

namespace ResDBTxnAccessor

variable (config : ResDBConfig) (codec : QueryCodec)

def answerOf (channel : QueryChannel) : Option Bytes :=
  if channel.sendRet ≠ 0 then none
  else
    let (ret, responseStr) := NetChannel.recvRawMessageStr codec channel.arrivals
    if ret = 0 then some responseStr else none

def addAnswer (tally : Tally) (responseStr : Bytes) : Tally :=
  let count := tally.recvCount responseStr + 1
  let counted := { tally with recvCount := Function.update tally.recvCount responseStr count }
  if count = config.getMinClientReceiveNum then { counted with finalStr := responseStr, success := true } else counted

def runThread (tally : Tally) (thread : ReplicaInfo × QueryChannel) : Tally :=
  match answerOf codec thread.2 with
  | none => tally
  | some responseStr => addAnswer config tally responseStr

def getTxn (threads : List (ReplicaInfo × QueryChannel)) : Except String (List (Nat × Bytes)) :=
  let tally := threads.foldl (runThread config codec) {}
  if tally.success ∧ tally.finalStr = [] then .ok []
  else if tally.finalStr = [] then .error "recv data fail."
  else
    match codec.parseQueryResponse tally.finalStr with
    | none => .error "recv data fail."
    | some transactions => .ok transactions

end ResDBTxnAccessor
end ResilientDB.Model
