import ResilientDB.Library.Framing
import ResilientDB.Library.TransitionSystem
import ResilientDB.Model.Message

-- A step is one access to the queue or the flag.

namespace ResilientDB.Model
open Library

-- `ParseFromArray` takes the size as an `int`; protobuf restores what it has serialised.
structure BroadcastCodec where
  serialize : List Bytes → Bytes
  parseFromArray : Bytes → Int → Option (List Bytes)
  parse_serialize : ∀ data, parseFromArray (serialize data) (toInt32 (serialize data).length) = some data
  nonempty : ∀ data, data ≠ [] → serialize data ≠ []

def pushBatch {α : Type} (batchSize : Nat) (queue : List (List α)) (data : α) : List (List α) :=
  match queue.getLast? with
  | none => [[data]]
  | some back =>
    if batchSize ≤ back.length then queue ++ [[data]] else queue.dropLast ++ [back ++ [data]]

def popBatch {α : Type} : List (List α) → List α × List (List α)
  | [] => ([], [])
  | item :: rest => (item, rest)

inductive BatchEvent (α : Type)
  | push (data : α)
  | pop (list : List α)

def batchQueue (α : Type) (batchSize : Nat) : System (List (List α)) (BatchEvent α) where
  initial queue := queue = []
  step queue event queue' := match event with
    | .push data => queue' = pushBatch batchSize queue data
    | .pop list => popBatch queue = (list, queue')

-- `stop` has found no data and not cleared `in_process_` yet.
inductive ClientCall
  | none
  | onSendNewMessage
  | stop
  | onSendMessage
  | onSend
  | reConnect
deriving DecidableEq

structure AsyncReplicaClient where
  queue : List Bytes := []
  inProcess : Bool := false
  pendingData : Bytes := []
  dataSize : Nat := 0
  sendingData : Bytes := []
  sendingDataSize : Nat := 0
  sendingDataIdx : Nat := 0
  status : Nat := 0
  isConnected : Bool := false
  next : ClientCall := .none

namespace AsyncReplicaClient

variable (c : AsyncReplicaClient)

-- Under the lock of `SendMessageFromPool` only the chain comes between the halves.
def push (data : Bytes) : AsyncReplicaClient := { c with queue := c.queue ++ [data] }

def wake : AsyncReplicaClient :=
  if c.inProcess then c else { c with inProcess := true, next := .onSendNewMessage }

def onSendNewMessage : AsyncReplicaClient :=
  match c.queue with
  | [] => { c with next := .stop }
  | data :: rest =>
    if data = [] then { c with queue := rest, next := .stop }
    else { c with queue := rest, pendingData := data, status := 0, next := .onSendMessage }

def onSendMessage : AsyncReplicaClient :=
  if c.status = 0 then
    { c with
      dataSize := c.pendingData.length, sendingDataSize := 8, sendingData := encodeLE 8 c.pendingData.length
      sendingDataIdx := 0, status := 1, next := .onSend }
  else if c.status = 1 then
    { c with
      sendingDataSize := c.dataSize, sendingData := c.pendingData, sendingDataIdx := 0, status := 2, next := .onSend }
  else { c with status := 0, next := .onSendNewMessage }

def onSend (sendSize : Nat) : AsyncReplicaClient :=
  let idx := c.sendingDataIdx + sendSize
  { c with sendingDataIdx := idx, next := if c.sendingDataSize ≤ idx then .onSendMessage else .onSend }

def step (sendSize : Nat) : Option (AsyncReplicaClient × Bytes) :=
  match c.next with
  | .none => none
  | .onSendNewMessage => some (c.onSendNewMessage, [])
  | .stop => some ({ c with inProcess := false, next := .none }, [])
  | .onSendMessage => some (c.onSendMessage, [])
  | .onSend =>
    if c.isConnected = false then some ({ c with next := .reConnect }, [])
    else if c.sendingDataIdx + sendSize ≤ c.sendingDataSize then
      some (c.onSend sendSize, (c.sendingData.drop c.sendingDataIdx).take sendSize)
    else none
  | .reConnect => some ({ c with isConnected := true, status := 0, next := .onSendMessage }, [])

end AsyncReplicaClient

structure Session where
  status : Bool := false
  dataSize : Nat := 0
  needSize : Nat := 8
  currentIdx : Nat := 0
  recvBuffer : Bytes := []
  isClosed : Bool := false
  handing : Option (List Bytes) := none

namespace Session

variable (codec : BroadcastCodec) (s : Session)

def startRead : Session :=
  if s.status = false then { s with dataSize := 0, needSize := 8, currentIdx := 0, recvBuffer := [] }
  else { s with needSize := s.dataSize, currentIdx := 0, recvBuffer := [] }

def readDone : Session :=
  if s.status then { s with handing := some ((codec.parseFromArray s.recvBuffer (toInt32 s.dataSize)).getD []) }
  else
    let dataSize := decodeLE s.recvBuffer
    if 10 ^ 10 < dataSize then { s with dataSize := dataSize, isClosed := true }
    else startRead { s with dataSize := dataSize, status := true }

def onRead (bytes : Bytes) : Session :=
  let read := { s with recvBuffer := s.recvBuffer ++ bytes, currentIdx := s.currentIdx + bytes.length }
  if read.needSize ≤ read.currentIdx then read.readDone codec else read

def acceptorHandler : Option (Session × List Bytes) :=
  s.handing.map fun handing =>
    match handing with
    | entry :: rest => ({ s with handing := some rest }, [entry])
    | [] => (startRead { s with handing := none, status := false }, [])

end Session

structure Endpoint where
  ip : String
  port : Nat
deriving DecidableEq

structure Link where
  client : AsyncReplicaClient := {}
  wire : Bytes := []
  session : Session := {}
  input : List Bytes := []

structure ReplicaCommunicator where
  replicas : List Endpoint
  tcpBatch : Nat
  codec : BroadcastCodec
  distinct : replicas.Nodup

inductive BroadcastThread
  | waiting
  | sending (broadcastData : List Bytes) (data : Bytes) (replicas : List Endpoint)
  | waking (broadcastData : List Bytes) (data : Bytes) (replica : Endpoint) (rest : List Endpoint)
deriving DecidableEq

structure Transport where
  sent : List Bytes := []
  batchQueue : List (List Bytes) := []
  thread : BroadcastThread := .waiting
  link : Endpoint → Link := fun _ => {}

inductive TransportEvent
  | sendMessage (data : Bytes)
  | broadcast
  | client (replica : Endpoint) (sendSize : Nat)
  | read (replica : Endpoint) (size : Nat)
  | acceptorHandler (replica : Endpoint)

namespace Transport

variable (communicator : ReplicaCommunicator) (s : Transport)

def setLink (replica : Endpoint) (link : Link) : Transport := { s with link := Function.update s.link replica link }

def sendMessage (data : Bytes) : Transport :=
  { s with sent := s.sent ++ [data], batchQueue := pushBatch communicator.tcpBatch s.batchQueue data }

-- `Pop` takes what there is when the time is over.
def pop : Option Transport :=
  match s.batchQueue with
  | [] => none
  | batch :: rest =>
    let popped := { s with batchQueue := rest }
    if batch = [] then some popped
    else some { popped with thread := .sending batch (communicator.codec.serialize batch) communicator.replicas }

def broadcast : Option Transport :=
  match s.thread with
  | .waiting => s.pop communicator
  | .sending _ _ [] => some { s with thread := .waiting }
  | .sending broadcastData data (replica :: rest) =>
    let link := s.link replica
    some { s.setLink replica { link with client := link.client.push data } with
      thread := .waking broadcastData data replica rest }
  | .waking broadcastData data replica rest =>
    let link := s.link replica
    some { s.setLink replica { link with client := link.client.wake } with
      thread := .sending broadcastData data rest }

def act : TransportEvent → Option Transport
  | .sendMessage data => some (s.sendMessage communicator data)
  | .broadcast => s.broadcast communicator
  | .client replica sendSize =>
    let link := s.link replica
    (link.client.step sendSize).map fun next =>
      s.setLink replica { link with client := next.1, wire := link.wire ++ next.2 }
  | .read replica size =>
    let link := s.link replica
    if link.session.isClosed = false ∧ link.session.handing = none ∧ 0 < size ∧ size ≤ link.wire.length ∧
        link.session.currentIdx + size ≤ link.session.needSize then
      some (s.setLink replica { link with
        session := link.session.onRead communicator.codec (link.wire.take size), wire := link.wire.drop size })
    else none
  | .acceptorHandler replica =>
    let link := s.link replica
    link.session.acceptorHandler.map fun next =>
      s.setLink replica { link with session := next.1, input := link.input ++ next.2 }

end Transport

def transport (communicator : ReplicaCommunicator) : System Transport TransportEvent where
  initial s := s = {}
  step s event s' := s.act communicator event = some s'

structure SenderThreads where
  client : AsyncReplicaClient := {}
  pushed : Nat := 0
  loaded : Nat := 0

inductive SenderEvent
  | push (data : Bytes)
  | load
  | compareExchange
  | chain (result : Option Nat)
deriving DecidableEq

namespace AsyncReplicaClient

variable (c : AsyncReplicaClient)

def handle (result : Option Nat) : Option AsyncReplicaClient :=
  match c.next, result with
  | .none, _ => none
  | .onSendNewMessage, _ => some c.onSendNewMessage
  | .stop, _ => some { c with inProcess := false, next := .none }
  | .onSendMessage, _ => some c.onSendMessage
  | .onSend, none => some { c with next := .reConnect }
  | .onSend, some sendSize =>
    if c.sendingDataIdx + sendSize ≤ c.sendingDataSize then some (c.onSend sendSize) else none
  | .reConnect, none => some c
  | .reConnect, some _ => some { c with status := 0, next := .onSendMessage }

end AsyncReplicaClient

namespace SenderThreads

variable (s : SenderThreads)

def load : SenderThreads :=
  if s.client.inProcess then { s with pushed := s.pushed - 1 }
  else { s with pushed := s.pushed - 1, loaded := s.loaded + 1 }

def compareExchange : SenderThreads :=
  if s.client.inProcess then { s with loaded := s.loaded - 1 }
  else
    { s with
      client := { s.client with inProcess := true, next := .onSendNewMessage }
      loaded := s.loaded - 1 }

def act : SenderEvent → Option SenderThreads
  | .push data => some { s with client := s.client.push data, pushed := s.pushed + 1 }
  | .load => if s.pushed = 0 then none else some s.load
  | .compareExchange => if s.loaded = 0 then none else some s.compareExchange
  | .chain result => (s.client.handle result).map fun client => { s with client := client }

end SenderThreads

def senderThreads : System SenderThreads SenderEvent where
  initial s := s = {}
  step s event s' := s.act event = some s'

end ResilientDB.Model
