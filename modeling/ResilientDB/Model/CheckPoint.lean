import ResilientDB.Library.OrderedMap
import ResilientDB.Model.Config
import Mathlib.Data.Prod.Lex
import Mathlib.Data.String.Basic
import Mathlib.Order.Lattice.Nat
import ResilientDB.Library.TransitionSystem

-- A turn of `UpdateStableCheckPointStatus` takes the lock twice.

namespace ResilientDB.Model
open Library

structure ChainState where
  maxSeq : Nat := 0
  data : Nat → Option Request := fun _ => none

def ChainState.put (s : ChainState) (request : Request) : ChainState where
  maxSeq := request.seq
  data := Function.update s.data request.seq (some request)

-- The last two fields are locals of the two threads.
structure CheckPointManager where
  isCheckPointEnabled : Bool := false
  txnDb : ChainState := {}
  senderCkpt : OrderedMap (Nat ×ₗ String) (Finset Nat) := .empty
  signCkpt : OrderedMap (Nat ×ₗ String) (List SignatureInfo) := .empty
  currentStableSeq : Nat := 0
  dataQueue : List Request := []
  stableCkpt : StableCheckPoint := {}
  newData : Nat := 0
  lastSeq : Nat := 0
  lastHash : String := ""
  highestPreparedSeq : Nat := 0
  committableSeq : Nat := 0
  committableHash : String := ""
  committableSeqSignal : Nat := 0
  lastCommittableSeq : Nat := 0
  lastCkptSeq : Nat := 0

namespace CheckPointManager

variable (env : Env) (config : ResDBConfig) (m : CheckPointManager)

def create : CheckPointManager where
  isCheckPointEnabled := config.enableViewchange || config.isEnableCheckpoint

def addCommitData (request : Request) : CheckPointManager :=
  if m.isCheckPointEnabled then { m with dataQueue := m.dataQueue ++ [request] }
  else { m with txnDb := m.txnDb.put request }

-- Of the argument only the sequence number is read.
def isValidCheckpointProof (stableCkpt : StableCheckPoint) : Bool :=
  let senders := (m.stableCkpt.signatures.map fun signature => toUInt32 signature.nodeId).toFinset
  m.stableCkpt.signatures.all (fun signature => env.verifyMessage m.stableCkpt.hash signature) &&
    (config.getMinDataReceiveNum ≤ senders.card || (stableCkpt.seq = 0 && senders.card = 0))

def addCheckPoint (sender : Nat) (data : CheckPointData) : CheckPointManager :=
  let key := toLex (data.seq, data.hash)
  let senders := (m.senderCkpt.find? key).getD ∅
  if sender ∈ senders then m
  else { m with
    senderCkpt := m.senderCkpt.assign key (insert sender senders)
    signCkpt := m.signCkpt.alter key fun old => old.getD [] ++ [data.hashSignature]
    newData := m.newData + 1 }

def processCheckPoint (request : Request) : CheckPointManager × Int :=
  match env.codec.parseCheckPointData request.data with
  | none => (m, -2)
  | some data =>
    if data.seq % config.checkPointWaterMark ≠ 0 then (m, -2)
    else if env.verifyMessage data.hash data.hashSignature = false then (m, -2)
    else (m.addCheckPoint (toUInt32 request.senderId) data, 0)

def getHash (h1 h2 : String) : String := env.calculateHash (h1 ++ h2)

def chainHash : String → List Request → Option String
  | hash, [] => some hash
  | hash, request :: rest =>
    if env.calculateHash request.data ≠ request.hash then none
    else chainHash (getHash env hash request.hash) rest

def catchUp (senders : Finset Nat) : List ReplicaInfo → CheckPointManager × List Request
  | [] => (m, [])
  | replica :: rest =>
    if toUInt32 replica.id ∈ senders ∧ m.lastSeq < m.committableSeq then
      match env.getRequestFromReplica (m.lastSeq + 1) m.committableSeq replica with
      | none => catchUp senders rest
      | some requests =>
        if chainHash env m.lastHash requests = some m.committableHash then
          ({ m with lastCommittableSeq := m.committableSeq, highestPreparedSeq := m.committableSeq },
            requests)
        else catchUp senders rest
    else catchUp senders rest

def visitCkpt (state : CheckPointManager × List Request × Nat × String)
    (entry : (Nat ×ₗ String) × Finset Nat) : CheckPointManager × List Request × Nat × String :=
  let (m, handed, stable) := state
  let (seq, hash) := ofLex entry.1
  let (m, handed) :=
    if config.getMinCheckpointReceiveNum ≤ entry.2.card then
      let m := { m with
        committableSeq := seq, committableHash := hash, committableSeqSignal := m.committableSeqSignal + 1 }
      if m.lastSeq < m.committableSeq ∧ m.lastCommittableSeq < m.committableSeq then
        let (m, requests) := m.catchUp env entry.2 config.replicas
        (m, handed ++ requests)
      else (m, handed)
    else (m, handed)
  (m, handed, if config.getMinDataReceiveNum ≤ entry.2.card then (seq, hash) else stable)

def setStable (seq : Nat) (hash : String) : CheckPointManager :=
  if m.currentStableSeq < seq then
    { m with
      stableCkpt := ⟨seq, hash, (m.signCkpt.find? (toLex (seq, hash))).getD []⟩
      senderCkpt := m.senderCkpt.eraseIf fun key => (ofLex key).1 ≤ seq
      signCkpt := m.signCkpt.eraseIf fun key => (ofLex key).1 ≤ seq
      currentStableSeq := seq }
  else m

def updateStableCheckPointStatus : CheckPointManager × List Request :=
  if m.newData = 0 then (m, [])
  else
    let (visited, handed, seq, hash) := m.senderCkpt.entries.foldl (visitCkpt env config) (m, [], 0, "")
    (setStable { visited with newData := 0 } seq hash, handed)

def broadcastCheckPoint (seq : Nat) (hash : String) : Option Request :=
  match env.signMessage hash with
  | none => none
  | some signature =>
    let data : CheckPointData := { seq := seq, hash := hash, hashSignature := signature }
    some { newRequest .checkpoint {} config.selfId with data := env.codec.serializeCheckPointData data }

def updateCheckPointStatus : CheckPointManager × Option Request :=
  match m.dataQueue with
  | [] => (m, none)
  | request :: rest =>
    let m := { m with dataQueue := rest }
    if request.seq ≠ m.lastSeq + 1 then (m, none)
    else
      let m := { m with
        lastHash := getHash env m.lastHash request.hash, lastSeq := m.lastSeq + 1
        txnDb := m.txnDb.put request }
      if request.seq = m.lastCkptSeq + config.checkPointWaterMark then
        let m := { m with lastCkptSeq := request.seq }
        (m, if request.isRecovery then none else broadcastCheckPoint env config m.lastCkptSeq m.lastHash)
      else (m, none)

end CheckPointManager

namespace CheckPointManager

variable (env : Env) (config : ResDBConfig) (m : CheckPointManager)

def chooseStable : CheckPointManager × List Request × Nat × String :=
  let (visited, handed, seq, hash) := m.senderCkpt.entries.foldl (visitCkpt env config) (m, [], 0, "")
  ({ visited with newData := 0 }, handed, seq, hash)

theorem updateStableCheckPointStatus_eq : m.updateStableCheckPointStatus env config =
    if m.newData = 0 then (m, [])
    else
      let (chosen, handed, seq, hash) := m.chooseStable env config
      (chosen.setStable seq hash, handed) := rfl

def processQuery : List Nat → List Request
  | [] => []
  | i :: rest =>
    match m.txnDb.data i with
    | none => []
    | some request =>
      { data := request.data, hash := request.hash, seq := request.seq, proxyId := request.proxyId } ::
        processQuery rest

end CheckPointManager

structure Choice where
  seq : Nat
  hash : String
  counted : OrderedMap (Nat ×ₗ String) (Finset Nat)

structure CheckPointThreads where
  manager : CheckPointManager
  choice : Option Choice := none
  queued : List Request := []
  popped : List Request := []
  broadcasts : List (Nat × String) := []
  committed : List Request := []

inductive CheckPointEvent
  | addCommitData (request : Request)
  | updateCheckPointStatus (env : Env)
  | processCheckPoint (env : Env) (request : Request)
  | chooseStable (env : Env)
  | setStable

namespace CheckPointThreads

variable (config : ResDBConfig) (s : CheckPointThreads)

def addCommitData (request : Request) : CheckPointThreads :=
  { s with
    manager := s.manager.addCommitData request
    queued := if s.manager.isCheckPointEnabled then s.queued ++ [request] else s.queued }

def updateCheckPointStatus (env : Env) : CheckPointThreads :=
  let (manager, sent) := s.manager.updateCheckPointStatus env config
  { s with
    manager := manager
    popped := s.popped ++ s.manager.dataQueue.head?.toList
    broadcasts := s.broadcasts ++ (sent.map fun _ => (manager.lastCkptSeq, manager.lastHash)).toList }

def processCheckPoint (env : Env) (request : Request) : CheckPointThreads :=
  { s with manager := (s.manager.processCheckPoint env config request).1 }

def chooseStable (env : Env) : CheckPointThreads :=
  let (manager, handed, seq, hash) := s.manager.chooseStable env config
  { s with
    manager := manager
    choice := some ⟨seq, hash, s.manager.senderCkpt⟩
    committed := s.committed ++ handed }

def setStable (choice : Choice) : CheckPointThreads :=
  { s with manager := s.manager.setStable choice.seq choice.hash, choice := none }

def act : CheckPointEvent → Option CheckPointThreads
  | .addCommitData request => some (s.addCommitData request)
  | .updateCheckPointStatus env => some (s.updateCheckPointStatus config env)
  | .processCheckPoint env request => some (s.processCheckPoint config env request)
  | .chooseStable env =>
    if s.choice.isNone ∧ s.manager.newData ≠ 0 then some (s.chooseStable config env) else none
  | .setStable => s.choice.map s.setStable

end CheckPointThreads

def checkPointThreads (config : ResDBConfig) : System CheckPointThreads CheckPointEvent where
  initial s := s = { manager := .create config }
  step s event s' := s.act config event = some s'

end ResilientDB.Model
