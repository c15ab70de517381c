import ResilientDB.Model.CheckPoint
import ResilientDB.Model.Collector
import ResilientDB.Model.Execution

namespace ResilientDB.Model
open Library

structure SystemInfo where
  primaryId : Nat
  view : Nat := 1
deriving DecidableEq, Repr

inductive ViewChangeStatus
  | none
  | readyViewChange
  | readyNewView
  | viewChangeFail
deriving DecidableEq, Repr

inductive ViewChangeTimerType
  | complaint
  | viewchange
  | newview
deriving DecidableEq, Repr

structure ViewChangeTimeout where
  type : ViewChangeTimerType
  view : Nat
  proxyId : Nat
  hash : String
  startTime : Nat
deriving DecidableEq, Repr

structure ViewChangeManager where
  status : ViewChangeStatus := .none
  started : Bool := false
  viewChangeCounter : Nat := 1
  newViewIsSent : Bool := false
  viewchangeRequest : OrderedMap Nat (OrderedMap Nat ViewChangeMessage) := .empty
  -- in the order in which the queue gives them out
  viewchangeTimeoutMinHeap : OrderedMap Nat (List ViewChangeTimeout) := .empty
  lastSeqValue : Nat := 0

structure Replica where
  config : ResDBConfig
  systemInfo : SystemInfo
  nextSeq : Nat := 1
  collectorPool : LockFreeCollectorPool
  transactionExecutor : TransactionExecutor := {}
  duplicateManager : DuplicateManager := {}
  checkpointManager : CheckPointManager
  viewChangeManager : ViewChangeManager := {}
  lastCommittedTime : Nat → Nat := fun _ => 0
  needQc : Bool := false
  -- the queues of `Commitment` and `ConsensusManagerPBFT`
  commitmentComplained : List (Context × Request) := []
  requestPending : List (Context × Request) := []
  requestComplained : List (Context × Request) := []

inductive Outgoing
  | broadCast (request : Request)
  | sendMessage (request : Request) (receiver : Int)
  | response (response : BatchUserResponse)
deriving DecidableEq, Repr

def Outgoing.request? : Outgoing → Option Request
  | .broadCast request => some request
  | .sendMessage request _ => some request
  | .response _ => none

structure Outcome where
  replica : Replica
  ret : Int
  sent : List Outgoing := []
  committed : List Request := []

inductive CollectorResultCode
  | ok
  | invalid
  | stateChanged
deriving DecidableEq, Repr

def CollectorResultCode.toInt : CollectorResultCode → Int
  | .ok => 0
  | .invalid => -2
  | .stateChanged => 1

structure MessageAdded where
  replica : Replica
  code : CollectorResultCode
  committed : Option Request := none

namespace Replica

def create (config : ResDBConfig) : Replica where
  config := config
  systemInfo := { primaryId := toUInt32 (config.replicas.head config.nonempty).id }
  collectorPool := .create config.maxProcessTxn config.enableViewchange
  checkpointManager := .create config

variable (r : Replica)

def getCurrentPrimary : Int := r.systemInfo.primaryId

def getCurrentView : Nat := r.systemInfo.view

def setNextSeq (seq : Nat) : Replica := { r with nextSeq := seq }

def assignNextSeq : Option (Nat × Replica) :=
  let maxExecutedSeq := toUInt32 r.transactionExecutor.getMaxPendingExecutedSeq
  if subUInt64 r.nextSeq maxExecutedSeq > r.config.maxProcessTxn then none
  else some (r.nextSeq, { r with nextSeq := addUInt64 r.nextSeq 1 })

def getHighestPreparedSeq : Nat := r.checkpointManager.highestPreparedSeq

def setHighestPreparedSeq (seq : Nat) : Replica :=
  { r with checkpointManager := { r.checkpointManager with highestPreparedSeq := seq } }

def raiseHighestPreparedSeq (seq : Nat) : Replica :=
  if r.getHighestPreparedSeq < seq then r.setHighestPreparedSeq seq else r

def getTransactionState (seq : Nat) : TransactionStatue := (r.collectorPool.getCollector seq).status

def getPreparedProof (seq : Nat) : List RequestInfo := (r.collectorPool.getCollector seq).preparedProof

def commitMessage (message : Option Request) : Replica :=
  match message with
  | some request => { r with transactionExecutor := r.transactionExecutor.commit request }
  | none => r

def setLastCommittedTime (now : Nat) (proxyId : Int) : Replica :=
  { r with lastCommittedTime := Function.update r.lastCommittedTime (toUInt64 (toInt32 proxyId)) now }

def addConsensusMsg (env : Env) (signature : SignatureInfo) (request : Request) :
    Except Fault MessageAdded := do
  let result ← (r.collectorPool.getCollector request.seq).addConsensusMsg r.config
    { currentView := r.getCurrentView
      maxPendingExecutedSeq := r.transactionExecutor.getMaxPendingExecutedSeq
      address := env.address, signature := signature, request := request }
  let pool := r.collectorPool.setCollector request.seq result.collector
  let handed := { r with collectorPool := pool }.commitMessage result.committed
  let timed := if result.ret = 1 then handed.setLastCommittedTime env.now request.proxyId else handed
  let code : CollectorResultCode :=
    if result.ret ≠ 1 ∧ result.ret ≠ 0 then .invalid
    else if result.changed then .stateChanged else .ok
  .ok { replica := timed, code := code, committed := result.committed }

def sendResponse (request : Request) : List Outgoing :=
  if r.transactionExecutor.needResponse ∧ toInt32 request.proxyId ≠ 0 then
    [.response {
      hash := request.hash, proxyId := toInt32 request.proxyId, seq := request.seq
      currentView := r.getCurrentView, primaryId := toInt32 r.getCurrentPrimary }]
  else []

def takeMessage : Replica := { r with transactionExecutor := r.transactionExecutor.takeMessage }

def passNext : Option Replica :=
  match r.transactionExecutor.passNext with
  | none => none
  | some executor => some { r with
    transactionExecutor := executor, collectorPool := r.collectorPool.update (executor.nextExecuteSeq - 1) }

def executeMessage (env : Env) : Replica × List Outgoing :=
  match r.transactionExecutor.executeQueue with
  | [] => (r, [])
  | request :: rest =>
    let executed := { r with
      transactionExecutor := { r.transactionExecutor with executeQueue := rest }
      duplicateManager := r.duplicateManager.addExecuted env.now request.hash request.seq
      checkpointManager := r.checkpointManager.addCommitData request }
    (executed, if request.isRecovery then [] else
      if r.transactionExecutor.needResponse ∧ toInt32 request.proxyId ≠ 0 then
        [.response {
          hash := request.hash, proxyId := toInt32 request.proxyId, seq := request.seq
          currentView := request.currentView, primaryId := toInt32 r.getCurrentPrimary }]
      else [])

def updateRecentHash (time : Nat) : Replica :=
  { r with duplicateManager := r.duplicateManager.updateRecentHash time }

def updateStableCheckPointStatus (env : Env) : Replica × List Request :=
  let (manager, requests) := r.checkpointManager.updateStableCheckPointStatus env r.config
  ({ r with
    checkpointManager := manager
    transactionExecutor := requests.foldl TransactionExecutor.commit r.transactionExecutor }, requests)

def updateCheckPointStatus (env : Env) : Replica × List Outgoing :=
  let (manager, message) := r.checkpointManager.updateCheckPointStatus env r.config
  ({ r with checkpointManager := manager }, (message.map Outgoing.broadCast).toList)

end Replica

namespace Replica

variable (r : Replica)

def proposeRequest (userRequest : Request) : Outcome :=
  match r.assignNextSeq with
  | none =>
    let response : Request :=
      { type := .response, senderId := toInt32 r.config.selfId, proxyId := userRequest.proxyId, ret := -2
        hash := userRequest.hash }
    { replica := { r with duplicateManager := r.duplicateManager.eraseProposed userRequest.hash }
      ret := -2, sent := [.sendMessage response userRequest.proxyId] }
  | some (seq, assigned) =>
    { replica := assigned, ret := 0
      sent := [.broadCast { userRequest with
        type := .prePrepare, currentView := r.getCurrentView, seq := seq
        senderId := toInt32 r.config.selfId, primaryId := toInt32 r.config.selfId }] }

def processNewRequest (env : Env) (context : Context) (userRequest : Request) : Outcome :=
  if context.signature.signature = "" then { replica := r, ret := -2 }
  else if r.duplicateManager.checkIfExecuted userRequest.hash ≠ 0 then
    let seq := r.duplicateManager.checkIfExecuted userRequest.hash
    { replica := r, ret := -2, sent := r.sendResponse { userRequest with seq := seq } }
  else if r.config.selfId ≠ r.getCurrentPrimary then
    { replica := { r with commitmentComplained := r.commitmentComplained ++ [(context, userRequest)] }
      ret := -3, sent := [.sendMessage userRequest r.getCurrentPrimary] }
  else if env.verifyMessage userRequest.data (userRequest.dataSignature.getD {}) = false then
    { replica := r, ret := -2 }
  else if env.preVerify userRequest = false then { replica := r, ret := -2 }
  else
    let (proposed, duplicateManager) := r.duplicateManager.checkAndAddProposed env.now userRequest.hash
    if proposed then { replica := r, ret := -2 }
    else proposeRequest { r with duplicateManager := duplicateManager } userRequest

def resultOf (added : MessageAdded) (sent : List Outgoing) : Outcome where
  replica := added.replica
  ret := if added.code = .invalid then -2 else 0
  sent := sent
  committed := added.committed.toList

def recoveryResult (added : MessageAdded) : Outcome where
  replica := added.replica
  ret := added.code.toInt
  committed := added.committed.toList

def addProposal (env : Env) (context : Context) (request : Request) : Except Fault Outcome := do
  let prepareRequest := { newRequest .prepare request r.config.selfId with data := "" }
  let added ← r.addConsensusMsg env context.signature request
  .ok (resultOf added (if added.code = .stateChanged then [.broadCast prepareRequest] else []))

def processProposeMsg (env : Env) (context : Context) (request : Request) : Except Fault Outcome :=
  if env.faulty ∨ context.signature.signature = "" then .ok { replica := r, ret := -2 }
  else if request.isRecovery then
    if r.nextSeq = 0 ∨ request.seq = r.nextSeq then do
      let added ← (r.setNextSeq (addUInt64 request.seq 1)).addConsensusMsg env context.signature request
      .ok (recoveryResult added)
    else .ok { replica := r, ret := 0 }
  else if request.senderId ≠ r.getCurrentPrimary then .ok { replica := r, ret := -2 }
  else if request.senderId ≠ r.config.selfId then
    if env.preVerify request = false then .ok { replica := r, ret := -2 }
    else if env.verifyMessage request.data (request.dataSignature.getD {}) = false then
      .ok { replica := r, ret := -2 }
    else
      let (proposed, duplicateManager) := r.duplicateManager.checkAndAddProposed env.now request.hash
      if proposed then .ok { replica := r, ret := -2 }
      else addProposal { r with duplicateManager := duplicateManager } env context request
  else r.addProposal env context request

-- The signature is cleared but stays present.
def commitRequest (env : Env) (request : Request) : Option Request :=
  let unsigned := { newRequest .commit request r.config.selfId with dataSignature := some {} }
  if r.needQc then (env.signMessage unsigned.hash).map fun signature =>
    { unsigned with dataSignature := some signature }
  else some unsigned

def processPrepareMsg (env : Env) (context : Context) (request : Request) : Except Fault Outcome :=
  if context.signature.signature = "" then .ok { replica := r, ret := -2 }
  else if request.isRecovery then do
    let added ← r.addConsensusMsg env context.signature request
    .ok (recoveryResult added)
  else do
    let added ← r.addConsensusMsg env context.signature request
    if added.code = .stateChanged then
      let raised := { added with replica := added.replica.raiseHighestPreparedSeq request.seq }
      match r.commitRequest env request with
      | none => .ok { resultOf raised [] with ret := -2 }
      | some vote => .ok (resultOf raised [.broadCast vote])
    else .ok (resultOf added [])

def processCommitMsg (env : Env) (context : Context) (request : Request) : Except Fault Outcome :=
  if context.signature.signature = "" then .ok { replica := r, ret := -2 }
  else do
    let added ← r.addConsensusMsg env context.signature request
    .ok (if request.isRecovery then recoveryResult added else resultOf added [])

end Replica

end ResilientDB.Model
