import ResilientDB.Model.Replica

-- Counters may wrap; a loop up to the largest value of its type does not end.

namespace ResilientDB.Model
open Library

def uint64Loop (first last : Nat) : Except Fault (List Nat) :=
  if last = maxUInt64 then .error .endlessLoop else .ok (List.range' first (last + 1 - first))

def int32Loop (first last : Int) : Except Fault (List Int) :=
  if first ≤ last ∧ last = 2 ^ 31 - 1 then .error .endlessLoop
  else .ok ((List.range (last + 1 - first).toNat).map fun (i : Nat) => first + i)

namespace ViewChangeManager

def addTimer (v : ViewChangeManager) (env : Env) (config : ResDBConfig) (key : Nat)
    (timer : ViewChangeTimeout) : ViewChangeManager :=
  let heap := (v.viewchangeTimeoutMinHeap.find? key).getD []
  if heap.length < config.maxClientComplaintNum then
    { v with viewchangeTimeoutMinHeap :=
        v.viewchangeTimeoutMinHeap.assign key (heap.insertIdx (min env.address heap.length) timer) }
  else { v with viewchangeTimeoutMinHeap := v.viewchangeTimeoutMinHeap.assign key heap }

def addRequest (v : ViewChangeManager) (message : ViewChangeMessage) (sender : Nat) :
    ViewChangeManager × Nat :=
  let stored := ((v.viewchangeRequest.find? message.viewNumber).getD .empty).assign sender message
  ({ v with viewchangeRequest := v.viewchangeRequest.assign message.viewNumber stored }, stored.size)

end ViewChangeManager

namespace Replica

variable (r : Replica)

def setViewChangeManager (v : ViewChangeManager) : Replica := { r with viewChangeManager := v }

def mayStart : Replica := r.setViewChangeManager { r.viewChangeManager with started := true }

def changeStatue (status : ViewChangeStatus) : Replica :=
  r.setViewChangeManager { r.viewChangeManager with status := status }

def isInViewChange : Bool := r.viewChangeManager.status ≠ .none

def isValidPrepared (env : Env) (stableSeq : Nat) (prepared : PreparedMessage) : Bool :=
  if prepared.seq ≤ stableSeq then true
  else if prepared.proof.length < r.config.getMinDataReceiveNum then false
  else prepared.proof.all fun proof => proof.request.seq = prepared.seq &&
    env.verifyMessage (env.codec.serializeRequest proof.request) proof.signature

def isValidViewChangeMsg (env : Env) (message : ViewChangeMessage) : Bool :=
  if message.viewNumber ≤ r.getCurrentView then false
  else if r.checkpointManager.isValidCheckpointProof env r.config message.stableCkpt = false then false
  else message.preparedMsg.all (r.isValidPrepared env message.stableCkpt.seq)

def isNextPrimary (viewNumber : Nat) : Bool := r.config.primaryOf viewNumber = r.config.selfId

def setCurrentViewAndNewPrimary (viewNumber : Nat) : Replica :=
  { r with systemInfo := { primaryId := toUInt32 (r.config.primaryOf viewNumber), view := viewNumber } }

def addPreparedMsg (preparedMsg : OrderedMap Nat Request) (message : PreparedMessage) :
    Except Fault (OrderedMap Nat Request) :=
  match message.proof with
  | [] => .error .missingProof
  | proof :: _ => .ok (preparedMsg.assign message.seq proof.request)

def collectPreparedMsg (message : NewViewMessage) : Except Fault (OrderedMap Nat Request) :=
  (message.viewchangeMessages.flatMap fun msg => msg.preparedMsg).foldlM addPreparedMsg .empty

def minStable (message : NewViewMessage) : Nat :=
  (message.viewchangeMessages.map fun msg => msg.stableCkpt.seq).foldl min maxUInt64

def maxStable (message : NewViewMessage) : Nat :=
  (message.viewchangeMessages.map fun msg => msg.stableCkpt.seq).foldl max 0

def redoRequest (env : Env) (needSign : Bool) (viewNumber : Nat) (preparedMsg : OrderedMap Nat Request)
    (i : Nat) : Option Request :=
  match preparedMsg.find? i with
  | none =>
    let userRequest := { newRequest .prePrepare {} r.config.selfId with
      seq := i, currentView := viewNumber, hash := "null" ++ toString i }
    if needSign then (env.signMessage "").map fun signature =>
      { userRequest with dataSignature := some signature }
    else some userRequest
  | some prepared =>
    some { newRequest .commit prepared r.config.selfId with seq := i, currentView := viewNumber }

def getPrepareMsg (env : Env) (message : NewViewMessage) (needSign : Bool) :
    Except Fault (List Request) := do
  let preparedMsg ← collectPreparedMsg message
  let maxSeq := match preparedMsg.last? with
    | some (seq, _) => seq
    | none => 1
  let sequence ← uint64Loop (addUInt64 (minStable message) 1) maxSeq
  .ok (sequence.filterMap (r.redoRequest env needSign message.viewNumber preparedMsg))

def checkNewView (env : Env) (message : NewViewMessage) : Except Fault (Option Nat) :=
  if message.viewNumber ≠ addUInt64 r.getCurrentView r.viewChangeManager.viewChangeCounter then .ok none
  else if message.viewchangeMessages.all (r.isValidViewChangeMsg env) = false then .ok none
  else do
    let requestList ← r.getPrepareMsg env message false
    if requestList.length ≠ message.request.length then .ok none
    else if requestList.map (fun request => request.data) ≠ message.request.map (fun request => request.data)
      then .ok none
    else
      let seqs := requestList.map fun request => request.seq
      let first := addUInt64 (minStable message) 1
      if (List.range' first (maxStable message + 1 - first)).all (fun i => seqs.contains i) = false then
        .ok none
      else .ok (some (if seqs = [] then maxStable message else seqs.foldl max 0))

-- The pointer to the collectors is set only with view changes enabled.
def redo (state : Replica × List Outgoing) (request : Request) :
    Except Fault (Replica × List Outgoing) :=
  let (r, sent) := state
  if request.type = .prePrepare then
    if r.config.enableViewchange = false then .error .nullPool
    else do
      let hashes ← (r.collectorPool.getCollector request.seq).getAllStoredHash
      let erased := hashes.foldl DuplicateManager.eraseProposed r.duplicateManager
      .ok ({ r with duplicateManager := erased }, sent ++ [.sendMessage request r.config.selfId])
  else
    .ok (r.raiseHighestPreparedSeq request.seq, sent ++ [.broadCast request])

def installNewView (message : NewViewMessage) (maxSeq : Nat) : Except Fault Outcome := do
  let installed := (r.setCurrentViewAndNewPrimary message.viewNumber).setNextSeq (addUInt64 maxSeq 1)
  let (redone, sent) ← message.request.foldlM redo (installed, [])
  .ok { replica := redone.changeStatue .none
        ret := if r.config.selfId = redone.getCurrentPrimary then -4 else 0
        sent := sent }

def processNewView (env : Env) (request : Request) : Except Fault Outcome :=
  match env.codec.parseNewView request.data with
  | none => .ok { replica := r, ret := -2 }
  | some message => do
    let accepted ← r.checkNewView env message
    match accepted with
    | none => .ok { replica := r, ret := -2 }
    | some maxSeq => r.installNewView message maxSeq

def sendNewViewMsg (env : Env) (viewNumber : Nat) : Except Fault (Replica × List Outgoing) :=
  if r.viewChangeManager.newViewIsSent then .ok (r, [])
  else do
    let sender := r.setViewChangeManager { r.viewChangeManager with newViewIsSent := true }
    let requests := (r.viewChangeManager.viewchangeRequest.find? viewNumber).getD .empty
    let message : NewViewMessage :=
      { viewNumber := viewNumber
        viewchangeMessages := requests.entries.map fun entry => { entry.2 with viewNumber := viewNumber } }
    let requestList ← sender.getPrepareMsg env message true
    let data := env.codec.serializeNewView { message with request := requestList }
    .ok (sender, [.broadCast { newRequest .newview {} r.config.selfId with data := data }])

def selfTimer (env : Env) (type : ViewChangeTimerType) : Replica :=
  let key := toUInt64 r.config.selfId
  r.setViewChangeManager (r.viewChangeManager.addTimer env r.config key
    { type := type, view := r.getCurrentView, proxyId := key, hash := "null", startTime := env.now })

def processViewChange (env : Env) (request : Request) : Except Fault Outcome :=
  match env.codec.parseViewChange request.data with
  | none => .ok { replica := r, ret := -2 }
  | some message =>
    if r.isValidViewChangeMsg env message = false then .ok { replica := r, ret := -2 }
    else
      let (manager, size) := r.viewChangeManager.addRequest message (toUInt32 request.senderId)
      let stored := r.setViewChangeManager manager
      if r.config.getMinDataReceiveNum ≤ size then do
        let (answered, sent) ←
          if r.isNextPrimary message.viewNumber then stored.sendNewViewMsg env message.viewNumber
          else .ok (stored.selfTimer env .newview, [])
        .ok { replica := answered.changeStatue .readyNewView, ret := 0, sent := sent }
      else .ok { replica := stored, ret := 0 }

def preparedEntry (i : Int) : Except Fault (Option PreparedMessage) :=
  let seq := toUInt64 i
  if TransactionStatue.readyCommit ≤ r.getTransactionState seq then
    let proofs := r.getPreparedProof seq
    if proofs.length < r.config.getMinDataReceiveNum then .error .assertion
    else .ok (some { seq := seq, proof := proofs.map fun info => ⟨info.request, info.signature⟩ })
  else .ok none

def sendViewChangeMsg (env : Env) : Except Fault (List Outgoing) := do
  let stableCkpt := r.checkpointManager.stableCkpt
  let sequence ← int32Loop (toInt32 (addUInt64 stableCkpt.seq 1)) (toInt32 r.getHighestPreparedSeq)
  let entries ← sequence.mapM r.preparedEntry
  let message : ViewChangeMessage :=
    { viewNumber := addUInt64 r.getCurrentView r.viewChangeManager.viewChangeCounter
      stableCkpt := stableCkpt, preparedMsg := entries.filterMap id }
  let data := env.codec.serializeViewChange message
  .ok [.broadCast { newRequest .viewchange {} r.config.selfId with data := data }]

def timeoutHandler (env : Env) : Except Fault (Replica × List Outgoing) :=
  if r.viewChangeManager.started = false ∨ r.config.isClient then .ok (r, [])
  else do
    let v := r.viewChangeManager
    let counter := match v.status with
      | .none => 1
      | .readyNewView => (v.viewChangeCounter + 1) % 2 ^ 32
      | _ => v.viewChangeCounter
    let changed := r.setViewChangeManager { v with viewChangeCounter := counter, status := .readyViewChange }
    let sent ← changed.sendViewChangeMsg env
    .ok (changed.selfTimer env .viewchange, sent)

def addComplaintTimer (env : Env) (proxyId : Nat) (hash : String) : Replica :=
  r.setViewChangeManager (r.viewChangeManager.addTimer env r.config proxyId
    { type := .complaint, view := r.getCurrentView, proxyId := proxyId, hash := hash, startTime := env.now })

def popTimer : List (Nat × List ViewChangeTimeout) → Option (Nat × ViewChangeTimeout × List ViewChangeTimeout)
  | [] => none
  | (_, []) :: rest => popTimer rest
  | (key, timer :: heap) :: _ => some (key, timer, heap)

def monitorTimeout (env : Env) : Except Fault (Replica × List Outgoing) :=
  match popTimer r.viewChangeManager.viewchangeTimeoutMinHeap.entries with
  | none => .ok (r, [])
  | some (key, timer, heap) =>
    let popped := r.setViewChangeManager { r.viewChangeManager with
      viewchangeTimeoutMinHeap := r.viewChangeManager.viewchangeTimeoutMinHeap.assign key heap }
    let status := r.viewChangeManager.status
    if timer.view ≠ r.getCurrentView then .ok (popped, [])
    else
      match timer.type with
      | .newview =>
        if status = .readyNewView then popped.timeoutHandler env else .ok (popped, [])
      | .viewchange =>
        if status = .readyViewChange then (popped.changeStatue .viewChangeFail).timeoutHandler env
        else .ok (popped, [])
      | .complaint =>
        if status = .none ∧ r.lastCommittedTime timer.proxyId ≤ timer.startTime then do
          let (fired, sent) ← popped.timeoutHandler env
          if fired.viewChangeManager.status ≠ .readyViewChange then .error .assertion
          else .ok (fired, sent)
        else .ok (popped, [])

def monitorCheckpointState : Replica :=
  if r.checkpointManager.committableSeqSignal = 0 then r
  else
    let seen := { r with checkpointManager :=
      { r.checkpointManager with committableSeqSignal := r.checkpointManager.committableSeqSignal - 1 } }
    let value := r.checkpointManager.committableSeq
    if r.viewChangeManager.lastSeqValue = value then seen
    else
      let noted := seen.setViewChangeManager { r.viewChangeManager with lastSeqValue := value }
      if r.isInViewChange then noted.changeStatue .none else noted

end Replica
end ResilientDB.Model
