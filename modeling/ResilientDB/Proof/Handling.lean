import ResilientDB.Proof.CheckPoint
import ResilientDB.Proof.Collector
import ResilientDB.Model.ConsensusManager

namespace ResilientDB.Proof
open Model Library List

variable {r r' : Replica} {env : Env} {request : Request}

def deliveryOf (r : Replica) (env : Env) (signature : SignatureInfo) (request : Request) : Delivery where
  currentView := r.getCurrentView
  maxPendingExecutedSeq := r.transactionExecutor.getMaxPendingExecutedSeq
  address := env.address
  signature := signature
  request := request

theorem commit_nextExecuteSeq (e : TransactionExecutor) (message : Request) :
    (e.commit message).nextExecuteSeq = e.nextExecuteSeq := by
  unfold TransactionExecutor.commit
  split <;> rfl

theorem commitMessage_nextExecuteSeq (r : Replica) (message : Option Request) :
    (r.commitMessage message).transactionExecutor.nextExecuteSeq = r.transactionExecutor.nextExecuteSeq := by
  cases message with
  | none => rfl
  | some request => exact commit_nextExecuteSeq _ _

theorem assignNextSeq_spec {seq : Nat} (assigned : r.assignNextSeq = some (seq, r')) :
    seq = r.nextSeq ∧ r' = r.setNextSeq (addUInt64 r.nextSeq 1) := by
  unfold Replica.assignNextSeq at assigned
  dsimp only at assigned
  split at assigned
  · cases assigned
  · rw [Option.some.injEq, Prod.mk.injEq] at assigned
    exact ⟨assigned.1.symm, assigned.2.symm⟩

variable {context : Context} {outcome : Outcome} {state state' : Replica × List Outgoing} {result : AddResult}

def queues (r : Replica) : List (Context × Request) :=
  r.commitmentComplained ++ r.requestPending ++ r.requestComplained

def complaints (r : Replica) : List (Context × Request) := r.commitmentComplained ++ r.requestComplained

def Changes (result : AddResult) : Prop := (result.ret = 0 ∨ result.ret = 1) ∧ result.changed = true
deriving Decidable

def proposalOf (r : Replica) (request : Request) : Request :=
  { request with
    type := .prePrepare, currentView := r.getCurrentView, seq := r.nextSeq
    senderId := toInt32 r.config.selfId, primaryId := toInt32 r.config.selfId }

def Answers (r : Replica) (env : Env) (request vote : Request) : Prop :=
  request.type = .prePrepare ∧ vote = { newRequest .prepare request r.config.selfId with data := "" } ∨
    request.type = .prepare ∧ r.commitRequest env request = some vote

def Requeues (r : Replica) (item : Context × Request) (complained moved : List (Context × Request)) : Prop :=
  complained = r.commitmentComplained ∧ moved = r.requestComplained ∨
    item.2.type = .newTxns ∧ r.config.selfId ≠ r.getCurrentPrimary ∧
      complained = (r.commitmentComplained ++ [item]).tail ∧
      moved = r.requestComplained ++ (r.commitmentComplained ++ [item]).head?.toList

theorem Requeues.mem {item other : Context × Request} {complained moved : List (Context × Request)}
    (requeues : Requeues r item complained moved) (member : other ∈ complained ++ moved) :
    other ∈ complaints r ∨ item.2.type = .newTxns ∧ other = item := by
  rcases requeues with ⟨rfl, rfl⟩ | ⟨type, -, rfl, rfl⟩
  · exact .inl member
  · cases waiting : r.commitmentComplained with
    | nil => simp_all [complaints]
    | cons first rest =>
      simp only [complaints, waiting, mem_append, mem_cons]
      simp [waiting] at member
      tauto

theorem addTimer_eq (v : ViewChangeManager) (env : Env) (config : ResDBConfig) (key : Nat)
    (timer : ViewChangeTimeout) :
    ∃ timers, v.addTimer env config key timer = { v with viewchangeTimeoutMinHeap := timers } := by
  unfold ViewChangeManager.addTimer
  dsimp only
  split
  · exact ⟨_, rfl⟩
  · exact ⟨_, rfl⟩

theorem selfTimer_eq (r : Replica) (env : Env) (type : ViewChangeTimerType) :
    ∃ timers, r.selfTimer env type =
      { r with viewChangeManager := { r.viewChangeManager with viewchangeTimeoutMinHeap := timers } } := by
  obtain ⟨timers, same⟩ := addTimer_eq r.viewChangeManager env r.config (toUInt64 r.config.selfId)
    { type := type, view := r.getCurrentView, proxyId := toUInt64 r.config.selfId, hash := "null"
      startTime := env.now }
  exact ⟨timers, congrArg (fun manager => { r with viewChangeManager := manager }) same⟩

def storeView (r : Replica) (message : ViewChangeMessage) (sender : Nat) : Replica :=
  r.setViewChangeManager (r.viewChangeManager.addRequest message sender).1

def viewSenders (r : Replica) (view : Nat) : Nat :=
  ((r.viewChangeManager.viewchangeRequest.find? view).getD .empty).size

inductive ViewChanging (r : Replica) (env : Env) (request : Request) : Outcome → Prop
  | rejected : (∀ message, env.codec.parseViewChange request.data = some message →
        r.isValidViewChangeMsg env message = false) →
      ViewChanging r env request { replica := r, ret := -2 }
  | stored {message : ViewChangeMessage} {stored : Replica} :
      env.codec.parseViewChange request.data = some message → r.isValidViewChangeMsg env message = true →
      stored = storeView r message (toUInt32 request.senderId) →
      viewSenders stored message.viewNumber < r.config.getMinDataReceiveNum →
      ViewChanging r env request { replica := stored, ret := 0 }
  | announced {message : ViewChangeMessage} {stored r' : Replica} {sent : List Outgoing} :
      env.codec.parseViewChange request.data = some message → r.isValidViewChangeMsg env message = true →
      stored = storeView r message (toUInt32 request.senderId) →
      r.config.getMinDataReceiveNum ≤ viewSenders stored message.viewNumber →
      r.isNextPrimary message.viewNumber = true → stored.sendNewViewMsg env message.viewNumber = .ok (r', sent) →
      ViewChanging r env request { replica := r'.changeStatue .readyNewView, ret := 0, sent := sent }
  | waiting {message : ViewChangeMessage} {stored : Replica} :
      env.codec.parseViewChange request.data = some message → r.isValidViewChangeMsg env message = true →
      stored = storeView r message (toUInt32 request.senderId) →
      r.config.getMinDataReceiveNum ≤ viewSenders stored message.viewNumber →
      r.isNextPrimary message.viewNumber = false →
      ViewChanging r env request
        { replica := (stored.selfTimer env .newview).changeStatue .readyNewView, ret := 0 }

theorem addRequest_size (v : ViewChangeManager) (message : ViewChangeMessage) (sender : Nat) :
    (v.addRequest message sender).2 =
      (((v.addRequest message sender).1.viewchangeRequest.find? message.viewNumber).getD .empty).size := by
  simp [ViewChangeManager.addRequest, OrderedMap.find?_assign]

theorem processViewChange_changing (ran : r.processViewChange env request = .ok outcome) :
    ViewChanging r env request outcome := by
  unfold Replica.processViewChange at ran
  cases parsed : env.codec.parseViewChange request.data with
  | none =>
    simp only [parsed] at ran
    cases ran
    exact .rejected (by simp [parsed])
  | some message =>
    simp only [parsed] at ran
    split at ran
    · rename_i invalid
      cases ran
      exact .rejected (by simp [parsed, invalid])
    rename_i valid
    have accepted : r.isValidViewChangeMsg env message = true := by simpa using valid
    rw [addRequest_size] at ran
    split at ran
    · rename_i quorum
      split_ifs at ran with primary
      · obtain ⟨⟨r', sent⟩, answer, ran⟩ := bind_eq_ok.mp ran
        cases ran
        exact .announced parsed accepted rfl quorum primary answer
      · cases ran
        exact .waiting parsed accepted rfl quorum (by simpa using primary)
    · rename_i few
      cases ran
      exact .stored parsed accepted rfl (not_le.mp few)

theorem sendNewViewMsg_eq {viewNumber : Nat} {r' : Replica} {sent : List Outgoing}
    (ran : r.sendNewViewMsg env viewNumber = .ok (r', sent)) :
    r' = r.setViewChangeManager { r.viewChangeManager with newViewIsSent := true } ∧
      (r.viewChangeManager.newViewIsSent = true → sent = []) := by
  unfold Replica.sendNewViewMsg at ran
  split at ran
  · rename_i already
    cases ran
    rw [← already]
    exact ⟨rfl, fun _ => rfl⟩
  · rename_i first
    dsimp only at ran
    obtain ⟨requests, -, ran⟩ := bind_eq_ok.mp ran
    cases ran
    exact ⟨rfl, fun already => absurd already first⟩

theorem ViewChanging.frame (changing : ViewChanging r env request outcome) :
    ∃ manager ret sent, ret ≠ -4 ∧
      outcome = { replica := { r with viewChangeManager := manager }, ret := ret, sent := sent } := by
  cases changing with
  | rejected => exact ⟨_, _, _, by decide, rfl⟩
  | stored _ _ same =>
    rw [same]
    exact ⟨_, _, _, by decide, rfl⟩
  | announced _ _ same _ _ answer =>
    rw [(sendNewViewMsg_eq answer).1, same]
    exact ⟨_, _, _, by decide, rfl⟩
  | @waiting message stored _ _ same =>
    obtain ⟨timers, timed⟩ := selfTimer_eq stored env .newview
    rw [timed, same]
    exact ⟨_, _, _, by decide, rfl⟩

theorem raiseHighestPreparedSeq_max (r : Replica) (seq : Nat) :
    r.raiseHighestPreparedSeq seq = r.setHighestPreparedSeq (max r.getHighestPreparedSeq seq) := by
  unfold Replica.raiseHighestPreparedSeq
  split_ifs with less
  · rw [Nat.max_eq_right less.le]
  · rw [Nat.max_eq_left (not_lt.mp less)]
    rfl

structure Redoing (r : Replica) (requests : List Request) (redone : Replica) : Prop where
  frame : ∃ duplicates highest, redone = { r with
    duplicateManager := duplicates
    checkpointManager := { r.checkpointManager with highestPreparedSeq := highest } }
  raises : r.getHighestPreparedSeq ≤ redone.getHighestPreparedSeq
  bounded : ∀ bound, r.getHighestPreparedSeq < bound → (∀ request ∈ requests, request.seq < bound) →
    redone.getHighestPreparedSeq < bound

theorem redo_cases (ran : Replica.redo state request = .ok state') :
    (∃ duplicates, state' = ({ state.1 with duplicateManager := duplicates },
      state.2 ++ [.sendMessage request state.1.config.selfId])) ∨
    state' = (state.1.raiseHighestPreparedSeq request.seq, state.2 ++ [.broadCast request]) := by
  unfold Replica.redo at ran
  dsimp only at ran
  split at ran
  · split at ran
    · cases ran
    obtain ⟨hashes, -, ran⟩ := bind_eq_ok.mp ran
    exact .inl ⟨_, (Except.ok.inj ran).symm⟩
  · exact .inr (Except.ok.inj ran).symm

theorem redo_redoing (ran : Replica.redo state request = .ok state') :
    Redoing state.1 [request] state'.1 := by
  rcases redo_cases ran with ⟨duplicates, rfl⟩ | rfl
  · exact ⟨⟨_, _, rfl⟩, le_rfl, fun _ below _ => below⟩
  · rw [raiseHighestPreparedSeq_max]
    refine ⟨⟨_, _, rfl⟩, Nat.le_max_left _ _, fun bound below all => ?_⟩
    exact max_lt below (all request (mem_singleton_self _))

theorem Redoing.append {first second : List Request} {r' r'' : Replica} (one : Redoing r first r')
    (two : Redoing r' second r'') : Redoing r (first ++ second) r'' := by
  obtain ⟨⟨duplicates, highest, rfl⟩, raises, bounded⟩ := one
  obtain ⟨⟨duplicates', highest', rfl⟩, raises', bounded'⟩ := two
  refine ⟨⟨duplicates', highest', rfl⟩, raises.trans raises', fun bound below all => ?_⟩
  exact bounded' bound (bounded bound below fun request member => all request (mem_append_left _ member))
    fun request member => all request (mem_append_right _ member)

theorem foldlM_redoing {requests : List Request}
    (ran : requests.foldlM Replica.redo state = .ok state') : Redoing state.1 requests state'.1 := by
  induction requests generalizing state with
  | nil =>
    simp only [foldlM_nil, pure, Except.pure, Except.ok.injEq] at ran
    subst ran
    exact ⟨⟨_, _, rfl⟩, le_rfl, fun _ below _ => below⟩
  | cons request rest ih =>
    rw [foldlM_cons, bind_eq_ok] at ran
    obtain ⟨next, first, ran⟩ := ran
    exact (redo_redoing first).append (ih ran)

inductive NewViewing (r : Replica) (env : Env) (request : Request) (outcome : Outcome) : Prop
  | refused : (∀ message maxSeq, env.codec.parseNewView request.data = some message →
        r.checkNewView env message ≠ .ok (some maxSeq)) →
      outcome = { replica := r, ret := -2 } → NewViewing r env request outcome
  | installed {message : NewViewMessage} {maxSeq : Nat} {redone : Replica} {sent : List Outgoing} :
      env.codec.parseNewView request.data = some message → r.checkNewView env message = .ok (some maxSeq) →
      message.request.foldlM Replica.redo
        ((r.setCurrentViewAndNewPrimary message.viewNumber).setNextSeq (addUInt64 maxSeq 1), []) =
          .ok (redone, sent) →
      outcome = { replica := redone.changeStatue .none
                  ret := if r.config.selfId = redone.getCurrentPrimary then -4 else 0
                  sent := sent } → NewViewing r env request outcome

theorem processNewView_viewing (ran : r.processNewView env request = .ok outcome) :
    NewViewing r env request outcome := by
  unfold Replica.processNewView at ran
  cases parsed : env.codec.parseNewView request.data with
  | none =>
    simp only [parsed] at ran
    cases ran
    exact .refused (by simp [parsed]) rfl
  | some message =>
    simp only [parsed] at ran
    obtain ⟨accepted, checked, ran⟩ := bind_eq_ok.mp ran
    cases accepted with
    | none =>
      cases ran
      refine .refused (fun other maxSeq same => ?_) rfl
      cases parsed.symm.trans same
      simp [checked]
    | some maxSeq =>
      obtain ⟨⟨redone, sent⟩, loop, ran⟩ := bind_eq_ok.mp ran
      cases ran
      exact .installed parsed checked loop rfl

abbrev inNewView (r : Replica) (info : SystemInfo) (nextSeq : Nat) (duplicates : DuplicateManager) (highest : Nat)
    (status : ViewChangeStatus) : Replica :=
  { r with
    systemInfo := info, nextSeq := nextSeq, duplicateManager := duplicates
    checkpointManager := { r.checkpointManager with highestPreparedSeq := highest }
    viewChangeManager := { r.viewChangeManager with status := status } }

theorem NewViewing.frame (viewing : NewViewing r env request outcome) :
    ∃ info nextSeq duplicates highest status ret sent, outcome =
      { replica := inNewView r info nextSeq duplicates highest status, ret := ret, sent := sent } := by
  cases viewing with
  | refused _ same => exact ⟨_, _, _, _, _, _, _, same⟩
  | @installed message maxSeq redone sent _ _ loop after =>
    obtain ⟨duplicates, highest, same⟩ := (foldlM_redoing loop).frame
    dsimp only at same
    subst same
    exact ⟨_, _, duplicates, highest, .none, _, _, after⟩

structure Adds (r : Replica) (env : Env) (signature : SignatureInfo) (request : Request)
    (added : MessageAdded) (result : AddResult) : Prop where
  counted : (r.collectorPool.getCollector request.seq).addConsensusMsg r.config
    (deliveryOf r env signature request) = .ok result
  replica : ∃ times, added.replica = { r with
    collectorPool := r.collectorPool.setCollector request.seq result.collector
    transactionExecutor := (r.commitMessage result.committed).transactionExecutor, lastCommittedTime := times }
  code : added.code = .stateChanged ↔ Changes result
  committed : added.committed = result.committed

theorem commitMessage_executor (r : Replica) (message : Option Request) :
    r.commitMessage message = { r with transactionExecutor := (r.commitMessage message).transactionExecutor } := by
  cases message with
  | none => rfl
  | some request => rfl

theorem addConsensusMsg_added {signature : SignatureInfo} {added : MessageAdded}
    (ran : r.addConsensusMsg env signature request = .ok added) :
    ∃ result, Adds r env signature request added result := by
  unfold Replica.addConsensusMsg at ran
  obtain ⟨result, counted, ran⟩ := bind_eq_ok.mp ran
  dsimp only at ran
  rw [commitMessage_executor] at ran
  have executor : (Replica.commitMessage { r with
      collectorPool := r.collectorPool.setCollector request.seq result.collector }
      result.committed).transactionExecutor = (r.commitMessage result.committed).transactionExecutor := by
    cases result.committed with
    | none => rfl
    | some message => rfl
  rw [executor] at ran
  refine ⟨result, counted, ?_, ?_, ?_⟩
  · cases ran
    dsimp only
    split
    · exact ⟨_, rfl⟩
    · exact ⟨r.lastCommittedTime, rfl⟩
  · cases ran
    dsimp only
    unfold Changes
    split_ifs with invalid changed
    · simp only [false_iff]
      rintro ⟨zero | one, -⟩
      · exact invalid.2 zero
      · exact invalid.1 one
    · have valid : result.ret = 0 ∨ result.ret = 1 := by tauto
      simp [changed, valid]
    · simp [changed]
  · cases ran
    rfl

structure Vetted (r : Replica) (env : Env) (context : Context) (request : Request) : Prop where
  working : env.faulty = false
  signed : context.signature.signature ≠ ""
  fresh : request.isRecovery = false
  primary : request.senderId = r.getCurrentPrimary
  other : request.senderId ≠ r.config.selfId
  checked : env.preVerify request = true
  verified : env.verifyMessage request.data (request.dataSignature.getD {}) = true

structure HashRecorded (r : Replica) (env : Env) (context : Context) (request : Request) : Prop where
  vetted : Vetted r env context request
  new : request.hash ∉ r.duplicateManager.proposedHashSet

def answerOf (r : Replica) (env : Env) (request : Request) (added : MessageAdded) : Outcome :=
  if request.isRecovery then Replica.recoveryResult added
  else if request.type = .prePrepare then
    Replica.resultOf added (if added.code = .stateChanged
      then [.broadCast { newRequest .prepare request r.config.selfId with data := "" }] else [])
  else if request.type = .prepare ∧ added.code = .stateChanged then
    let raised := { added with replica := added.replica.raiseHighestPreparedSeq request.seq }
    match r.commitRequest env request with
    | none => { Replica.resultOf raised [] with ret := -2 }
    | some vote => Replica.resultOf raised [.broadCast vote]
  else Replica.resultOf added []

structure Admits (r : Replica) (env : Env) (context : Context) (request : Request) (duplicates : DuplicateManager)
    (nextSeq : Nat) : Prop where
  signed : context.signature.signature ≠ ""
  next : nextSeq = if request.type = .prePrepare ∧ request.isRecovery = true then addUInt64 request.seq 1 else r.nextSeq
  replayed : request.type = .prePrepare → request.isRecovery = true →
    env.faulty = false ∧ (r.nextSeq = 0 ∨ request.seq = r.nextSeq)
  proposed : request.type = .prePrepare → request.isRecovery = false → request.senderId = r.getCurrentPrimary ∧
    (request.senderId ≠ r.config.selfId → env.verifyMessage request.data (request.dataSignature.getD {}) = true)
  recorded : duplicates = r.duplicateManager ∨ HashRecorded r env context request

def Refuses (r : Replica) (env : Env) (context : Context) (request : Request) : Prop :=
  context.signature.signature = "" ∨ request.type = .prePrepare ∧
    (request.isRecovery = true → env.faulty = true ∨ r.nextSeq ≠ 0 ∧ request.seq ≠ r.nextSeq)

abbrev counting (r : Replica) (seq : Nat) (result : AddResult) (duplicates : DuplicateManager) (nextSeq highest : Nat)
    (times : Nat → Nat) : Replica :=
  { r with
    collectorPool := r.collectorPool.setCollector seq result.collector
    transactionExecutor := (r.commitMessage result.committed).transactionExecutor
    checkpointManager := { r.checkpointManager with highestPreparedSeq := highest }
    duplicateManager := duplicates, nextSeq := nextSeq, lastCommittedTime := times }

structure Gives (r : Replica) (env : Env) (context : Context) (request : Request) (outcome : Outcome)
    (result : AddResult) : Prop where
  phase : IsPhase request.type
  admits : Admits r env context request outcome.replica.duplicateManager outcome.replica.nextSeq
  counted : (r.collectorPool.getCollector request.seq).addConsensusMsg r.config
    (deliveryOf r env context.signature request) = .ok result
  pool : outcome.replica.collectorPool = r.collectorPool.setCollector request.seq result.collector
  executor : outcome.replica.transactionExecutor = (r.commitMessage result.committed).transactionExecutor
  highest : outcome.replica.checkpointManager = { r.checkpointManager with
    highestPreparedSeq := if request.type = .prepare ∧ request.isRecovery = false ∧ Changes result
      then max r.getHighestPreparedSeq request.seq else r.getHighestPreparedSeq }
  systemInfo : outcome.replica.systemInfo = r.systemInfo
  committed : outcome.committed = result.committed.toList
  answers : ∀ message ∈ outcome.sent.filterMap Outgoing.request?, Changes result ∧ request.isRecovery = false ∧
    Answers r env request message
  ret : outcome.ret ≠ -4

theorem Gives.nextSeq (gives : Gives r env context request outcome result)
    (fresh : request.isRecovery = false) : outcome.replica.nextSeq = r.nextSeq := by
  rw [gives.admits.next, if_neg (by simp [fresh])]

theorem Gives.proposer (gives : Gives r env context request outcome result)
    (fresh : request.isRecovery = false) (type : request.type = .prePrepare) :
    request.senderId = r.getCurrentPrimary :=
  (gives.admits.proposed type fresh).1

inductive Handling (r : Replica) (env : Env) (context : Context) (request : Request) : Outcome → Prop
  | idle {duplicates : DuplicateManager} {timers : OrderedMap Nat (List ViewChangeTimeout)}
      {complained moved : List (Context × Request)} {ret : Int} {sent : List Outgoing} :
      Requeues r (context, request) complained moved →
      (∀ message ∈ sent.filterMap Outgoing.request?, message.type = .newTxns ∨ message.type = .response) →
      ret ≠ -4 →
      Handling r env context request
        { replica := { r with
            duplicateManager := duplicates, commitmentComplained := complained, requestComplained := moved
            viewChangeManager := { r.viewChangeManager with viewchangeTimeoutMinHeap := timers } }
          ret := ret, sent := sent }
  | assigned {duplicates : DuplicateManager} : request.type = .newTxns →
      r.config.selfId = r.getCurrentPrimary → r.assignNextSeq ≠ none →
      Handling r env context request
        { replica := { r with duplicateManager := duplicates, nextSeq := addUInt64 r.nextSeq 1 }
          ret := 0, sent := [.broadCast (proposalOf r request)] }
  | added {result : AddResult} {duplicates : DuplicateManager} {nextSeq highest : Nat} {times : Nat → Nat} {ret : Int}
      {sent : List Outgoing} :
      Gives r env context request
        { replica := counting r request.seq result duplicates nextSeq highest times
          ret := ret, sent := sent, committed := result.committed.toList } result →
      Handling r env context request
        { replica := counting r request.seq result duplicates nextSeq highest times
          ret := ret, sent := sent, committed := result.committed.toList }
  | checkpointed {data : CheckPointData} {senders : OrderedMap (Nat ×ₗ String) (Finset Nat)}
      {signs : OrderedMap (Nat ×ₗ String) (List SignatureInfo)} {new : Nat} : request.type = .checkpoint →
      env.codec.parseCheckPointData request.data = some data → data.seq % r.config.checkPointWaterMark = 0 →
      env.verifyMessage data.hash data.hashSignature = true →
      r.checkpointManager.addCheckPoint (toUInt32 request.senderId) data =
        { r.checkpointManager with senderCkpt := senders, signCkpt := signs, newData := new } →
      Handling r env context request
        { replica := { r with checkpointManager :=
            { r.checkpointManager with senderCkpt := senders, signCkpt := signs, newData := new } }
          ret := 0 }
  | viewChanged {manager : ViewChangeManager} {ret : Int} {sent : List Outgoing} : request.type = .viewchange →
      ViewChanging r env request { replica := { r with viewChangeManager := manager }, ret := ret, sent := sent } →
      ret ≠ -4 →
      Handling r env context request
        { replica := { r with viewChangeManager := manager }, ret := ret, sent := sent }
  | newView {info : SystemInfo} {nextSeq highest : Nat} {duplicates : DuplicateManager}
      {status : ViewChangeStatus} {ret : Int} {sent : List Outgoing} : request.type = .newview →
      NewViewing r env request
        { replica := inNewView r info nextSeq duplicates highest status, ret := ret, sent := sent } →
      Handling r env context request
        { replica := inNewView r info nextSeq duplicates highest status, ret := ret, sent := sent }

theorem Handling.nothing (ret : Int) (other : ret ≠ -4 := by simp) :
    Handling r env context request { replica := r, ret := ret } :=
  .idle (.inl ⟨rfl, rfl⟩) (by simp) other

theorem proposeRequest_handling (duplicates : DuplicateManager) (type : request.type = .newTxns)
    (primary : r.config.selfId = r.getCurrentPrimary) :
    (Replica.proposeRequest { r with duplicateManager := duplicates } request).ret ≠ -3 ∧
    Handling r env context request (Replica.proposeRequest { r with duplicateManager := duplicates } request) := by
  unfold Replica.proposeRequest
  cases found : Replica.assignNextSeq { r with duplicateManager := duplicates } with
  | none => exact ⟨by simp, .idle (.inl ⟨rfl, rfl⟩) (by simp [Outgoing.request?]) (by simp)⟩
  | some pair =>
    obtain ⟨seq, assigned⟩ := pair
    have room : r.assignNextSeq ≠ none := by
      unfold Replica.assignNextSeq at found ⊢
      dsimp only at found ⊢
      split at found
      · cases found
      · rename_i fits
        rw [if_neg fits]
        simp
    obtain ⟨rfl, rfl⟩ := assignNextSeq_spec found
    exact ⟨by simp, .assigned type primary room⟩

theorem processNewRequest_cases (type : request.type = .newTxns) :
    (r.processNewRequest env context request).ret ≠ -3 ∧
      Handling r env context request (r.processNewRequest env context request) ∨
    r.config.selfId ≠ r.getCurrentPrimary ∧ r.processNewRequest env context request =
      { replica := { r with commitmentComplained := r.commitmentComplained ++ [(context, request)] }
        ret := -3, sent := [.sendMessage request r.getCurrentPrimary] } := by
  have refused : (-2 : Int) ≠ -3 ∧ Handling r env context request { replica := r, ret := -2 } :=
    ⟨by decide, .nothing _⟩
  unfold Replica.processNewRequest
  split
  · exact .inl refused
  split
  · refine .inl ⟨by simp, .idle (.inl ⟨rfl, rfl⟩) ?_ (by simp)⟩
    unfold Replica.sendResponse
    split <;> simp [Outgoing.request?]
  split
  · rename_i backup
    exact .inr ⟨backup, rfl⟩
  rename_i primary
  split
  · exact .inl refused
  split
  · exact .inl refused
  generalize r.duplicateManager.checkAndAddProposed env.now request.hash = checked
  obtain ⟨proposed, duplicates⟩ := checked
  dsimp only
  split
  · exact .inl refused
  · exact .inl (proposeRequest_handling duplicates type (not_not.mp primary))

theorem complain_eq (r : Replica) (env : Env) (request : Request) :
    ∃ timers, r.complain env request = { r with
      commitmentComplained := r.commitmentComplained.tail
      requestComplained := r.requestComplained ++ r.commitmentComplained.head?.toList
      viewChangeManager := { r.viewChangeManager with viewchangeTimeoutMinHeap := timers } } := by
  obtain ⟨timers, same⟩ := addTimer_eq r.viewChangeManager env r.config (toUInt64 request.proxyId)
    { type := .complaint, view := r.getCurrentView, proxyId := toUInt64 request.proxyId, hash := request.hash
      startTime := env.now }
  exact ⟨timers, congrArg (fun manager => { r with
    commitmentComplained := r.commitmentComplained.tail
    requestComplained := r.requestComplained ++ r.commitmentComplained.head?.toList
    viewChangeManager := manager }) same⟩

theorem complain_handling (type : request.type = .newTxns) (backup : r.config.selfId ≠ r.getCurrentPrimary) :
    Handling r env context request
      { replica := Replica.complain
          { r with commitmentComplained := r.commitmentComplained ++ [(context, request)] } env request
        ret := -3, sent := [.sendMessage request r.getCurrentPrimary] } := by
  obtain ⟨timers, same⟩ := complain_eq
    { r with commitmentComplained := r.commitmentComplained ++ [(context, request)] } env request
  rw [same]
  exact .idle (.inr ⟨type, backup, rfl, rfl⟩) (by simp [Outgoing.request?, type]) (by decide)

inductive PhaseCall (r : Replica) (env : Env) (context : Context) (request : Request)
    (called : Except Fault Outcome) : Prop
  | refused {ret : Int} : Refuses r env context request → ret ≠ -4 → called = .ok { replica := r, ret := ret } →
      PhaseCall r env context request called
  | counted {duplicates : DuplicateManager} {nextSeq : Nat} : Admits r env context request duplicates nextSeq →
      called = (Replica.addConsensusMsg { r with duplicateManager := duplicates, nextSeq := nextSeq } env
        context.signature request >>= fun added => .ok (answerOf r env request added)) →
      PhaseCall r env context request called

theorem resultOf_ret (added : MessageAdded) (sent : List Outgoing) : (Replica.resultOf added sent).ret ≠ -4 := by
  unfold Replica.resultOf
  dsimp only
  split <;> decide

theorem recoveryResult_ret (added : MessageAdded) : (Replica.recoveryResult added).ret ≠ -4 := by
  unfold Replica.recoveryResult
  cases added.code <;> simp [CollectorResultCode.toInt]

structure Closes (r : Replica) (env : Env) (request : Request) (added : MessageAdded) (outcome : Outcome) : Prop where
  replica : outcome.replica = if request.type = .prepare ∧ request.isRecovery = false ∧ added.code = .stateChanged
    then added.replica.raiseHighestPreparedSeq request.seq else added.replica
  committed : outcome.committed = added.committed.toList
  answers : ∀ message ∈ outcome.sent.filterMap Outgoing.request?, added.code = .stateChanged ∧
    request.isRecovery = false ∧ Answers r env request message
  ret : outcome.ret ≠ -4

theorem answerOf_closes (added : MessageAdded) : Closes r env request added (answerOf r env request added) := by
  unfold answerOf
  split
  · rename_i recovery
    exact ⟨by simp [Replica.recoveryResult, recovery], rfl, by simp [Replica.recoveryResult], recoveryResult_ret _⟩
  rename_i recovery
  have fresh : request.isRecovery = false := by simpa using recovery
  split
  · rename_i type
    refine ⟨by simp [Replica.resultOf, type], rfl, fun message member => ?_, resultOf_ret _ _⟩
    simp only [Replica.resultOf] at member
    split_ifs at member with state
    · simp only [Outgoing.request?, filterMap_cons, filterMap_nil, mem_singleton] at member
      exact ⟨state, fresh, .inl ⟨type, member⟩⟩
    · simp at member
  split_ifs with both
  · obtain ⟨type, state⟩ := both
    dsimp only
    cases made : r.commitRequest env request with
    | none => exact ⟨by simp [Replica.resultOf, type, fresh, state], rfl, by simp [Replica.resultOf], by simp⟩
    | some vote =>
      refine ⟨by simp [Replica.resultOf, type, fresh, state], rfl, fun message member => ?_, resultOf_ret _ _⟩
      simp only [Replica.resultOf, Outgoing.request?, filterMap_cons, filterMap_nil,
        mem_singleton] at member
      exact ⟨state, fresh, .inr ⟨type, member ▸ made⟩⟩
  · refine ⟨?_, rfl, by simp [Replica.resultOf], resultOf_ret _ _⟩
    rw [if_neg fun all => both ⟨all.1, all.2.2⟩]
    rfl

theorem addProposal_phase (duplicates : DuplicateManager) (type : request.type = .prePrepare)
    (signed : context.signature.signature ≠ "") (fresh : request.isRecovery = false)
    (proposed : request.senderId = r.getCurrentPrimary ∧ (request.senderId ≠ r.config.selfId →
      env.verifyMessage request.data (request.dataSignature.getD {}) = true))
    (recorded : duplicates = r.duplicateManager ∨ HashRecorded r env context request) :
    PhaseCall r env context request
      (Replica.addProposal { r with duplicateManager := duplicates } env context request) := by
  have admits : Admits r env context request duplicates r.nextSeq :=
    ⟨signed, by simp [fresh], by simp [fresh], fun _ _ => proposed, recorded⟩
  refine .counted admits ?_
  simp only [answerOf, fresh, type, Bool.false_eq_true, ↓reduceIte]
  rfl

theorem processProposeMsg_phase (type : request.type = .prePrepare) :
    PhaseCall r env context request (r.processProposeMsg env context request) := by
  unfold Replica.processProposeMsg
  split
  · rename_i refused
    refine .refused ?_ (by decide) rfl
    exact refused.symm.imp_right fun faulty => ⟨type, fun _ => .inl faulty⟩
  rename_i accepted
  push Not at accepted
  obtain ⟨working, signed⟩ := accepted
  have works : env.faulty = false := by simpa using working
  split
  · rename_i recovery
    split_ifs with next
    · have admits : Admits r env context request r.duplicateManager (addUInt64 request.seq 1) :=
        ⟨signed, by simp [type, recovery], fun _ _ => ⟨works, next⟩, by simp [recovery], .inl rfl⟩
      refine .counted admits ?_
      simp only [answerOf, recovery, ↓reduceIte]
      rfl
    · exact .refused (.inr ⟨type, fun _ => .inr (not_or.mp next)⟩) (by decide) rfl
  rename_i recovery
  have fresh : request.isRecovery = false := by simpa using recovery
  have refused {ret : Int} (other : ret ≠ -4) :
      PhaseCall r env context request (.ok { replica := r, ret := ret }) :=
    .refused (.inr ⟨type, fun replayed => absurd replayed recovery⟩) other rfl
  split
  · exact refused (by decide)
  rename_i sender
  have primary := not_not.mp sender
  split
  · rename_i other
    split
    · exact refused (by decide)
    rename_i checked
    split_ifs with verified
    · exact refused (by decide)
    have vetted : Vetted r env context request :=
      ⟨works, signed, fresh, primary, other, by simpa using checked, by simpa using verified⟩
    unfold DuplicateManager.checkAndAddProposed
    split_ifs with known
    · exact refused (by decide)
    · exact addProposal_phase _ type signed fresh ⟨primary, fun _ => vetted.verified⟩ (.inr ⟨vetted, known⟩)
  · rename_i own
    exact addProposal_phase r.duplicateManager type signed fresh ⟨primary, fun other => absurd other own⟩ (.inl rfl)

theorem processPrepareMsg_phase (type : request.type = .prepare) :
    PhaseCall r env context request (r.processPrepareMsg env context request) := by
  unfold Replica.processPrepareMsg
  split
  · rename_i unsigned
    exact .refused (.inl unsigned) (by decide) rfl
  rename_i signed
  have admits : Admits r env context request r.duplicateManager r.nextSeq :=
    ⟨signed, by simp [type], by simp [type], by simp [type], .inl rfl⟩
  refine .counted admits ?_
  split_ifs with recovery
  · simp only [answerOf, recovery, ↓reduceIte]
  · refine congrArg (_ >>= ·) (funext fun added => ?_)
    simp only [answerOf, recovery, type, reduceCtorEq, ↓reduceIte, true_and, Bool.false_eq_true]
    split
    · cases r.commitRequest env request <;> rfl
    · rfl

theorem processCommitMsg_phase (type : request.type = .commit) :
    PhaseCall r env context request (r.processCommitMsg env context request) := by
  unfold Replica.processCommitMsg
  split
  · rename_i unsigned
    exact .refused (.inl unsigned) (by decide) rfl
  · rename_i signed
    have admits : Admits r env context request r.duplicateManager r.nextSeq :=
      ⟨signed, by simp [type], by simp [type], by simp [type], .inl rfl⟩
    refine .counted admits ?_
    simp [answerOf, type]

theorem internalConsensusCommit_phase (phase : IsPhase request.type) :
    PhaseCall r env context request (r.internalConsensusCommit env context request) := by
  unfold Replica.internalConsensusCommit
  rcases phase with type | type | type
  · rw [type]
    exact processProposeMsg_phase type
  · rw [type]
    exact processPrepareMsg_phase type
  · rw [type]
    exact processCommitMsg_phase type

theorem phase_handling (phase : IsPhase request.type)
    (ran : r.internalConsensusCommit env context request = .ok outcome) : Handling r env context request outcome := by
  cases internalConsensusCommit_phase phase with
  | refused _ other same =>
    cases ran.symm.trans same
    exact .nothing _ other
  | @counted duplicates nextSeq admits same =>
    obtain ⟨added, counted, done⟩ := bind_eq_ok.mp (same.symm.trans ran)
    cases done
    obtain ⟨result, adds⟩ := addConsensusMsg_added counted
    obtain ⟨replica, committed, answers, ret⟩ := @answerOf_closes r env request added
    obtain ⟨times, frame⟩ := adds.replica
    have executor : (Replica.commitMessage { r with duplicateManager := duplicates, nextSeq := nextSeq }
        result.committed).transactionExecutor = (r.commitMessage result.committed).transactionExecutor := by
      cases result.committed <;> rfl
    simp only [raiseHighestPreparedSeq_max, adds.code] at replica
    rw [frame, executor] at replica
    rw [adds.committed] at committed
    simp only [adds.code] at answers
    generalize answerOf r env request added = outcome at replica committed answers ret ⊢
    obtain ⟨r', ret', sent, handed⟩ := outcome
    dsimp only at replica committed answers ret
    have whole : r' = counting r request.seq result duplicates nextSeq
        (if request.type = .prepare ∧ request.isRecovery = false ∧ Changes result
          then max r.getHighestPreparedSeq request.seq else r.getHighestPreparedSeq) times := by
      rw [replica]
      split <;> rfl
    rw [whole, committed]
    exact .added ⟨phase, admits, adds.counted, rfl, rfl, rfl, rfl, rfl, answers, ret⟩

theorem processCheckPoint_handling (type : request.type = .checkpoint) :
    Handling r env context request
      { replica := { r with checkpointManager := (r.checkpointManager.processCheckPoint env r.config request).1 }
        ret := (r.checkpointManager.processCheckPoint env r.config request).2 } := by
  unfold CheckPointManager.processCheckPoint
  cases parsed : env.codec.parseCheckPointData request.data with
  | none => exact .nothing _
  | some data =>
    dsimp only
    split_ifs with off forged
    · exact .nothing _
    · exact .nothing _
    · obtain ⟨senders, signs, new, same⟩ := addCheckPoint_eq r.checkpointManager (toUInt32 request.senderId) data
      rw [same]
      exact .checkpointed type parsed (not_not.mp off) (by simpa using forged) same

theorem commit_handling (ran : r.internalConsensusCommit env context request = .ok outcome) :
    Handling r env context request outcome := by
  cases type : request.type with
  | newTxns =>
    simp only [Replica.internalConsensusCommit, type] at ran
    rcases processNewRequest_cases type with ⟨accepted, handling⟩ | ⟨backup, same⟩
    · rw [if_neg accepted] at ran
      cases ran
      exact handling
    · rw [same] at ran
      cases ran
      exact complain_handling type backup
  | prePrepare => exact phase_handling (.inl type) ran
  | prepare => exact phase_handling (.inr (.inl type)) ran
  | commit => exact phase_handling (.inr (.inr type)) ran
  | checkpoint =>
    simp only [Replica.internalConsensusCommit, type] at ran
    cases ran
    exact processCheckPoint_handling type
  | viewchange =>
    simp only [Replica.internalConsensusCommit, type] at ran
    have changing := processViewChange_changing ran
    obtain ⟨manager, ret, sent, other, rfl⟩ := changing.frame
    exact .viewChanged type changing other
  | newview =>
    simp only [Replica.internalConsensusCommit, type] at ran
    have viewing := processNewView_viewing ran
    obtain ⟨info, nextSeq, duplicates, highest, status, ret, sent, rfl⟩ := viewing.frame
    exact .newView type viewing
  | _ =>
    simp only [Replica.internalConsensusCommit, type] at ran
    cases ran
    exact .nothing _

end ResilientDB.Proof
