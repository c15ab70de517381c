import ResilientDB.Proof.CommitCerts
import ResilientDB.Proof.Collectors

namespace ResilientDB.Proof
open Model Library List

variable {cluster : Cluster} {p : Int} {net net' : Network} {event : NetworkEvent} {r r' : Replica}
  {sent : List Outgoing} {handed log executed : List Request} {request : Request} {k : Nat} {config : ResDBConfig}
  {env : Env} {trace : List (Transition Network NetworkEvent)}

-- No answer to a query for missing requests.
def NoCatchUp : NetworkEvent → Prop
  | .updateStableCheckPointStatus _ env => ∀ first last replica, env.getRequestFromReplica first last replica = none
  | _ => True

def primaryNetwork (cluster : Cluster) (p : Int) : System Network NetworkEvent where
  initial net := (network cluster).initial net ∧ ∀ i, cluster.honest i →
    (net.replica i).getCurrentPrimary = p ∧ (net.replica i).transactionExecutor.outOfOrder = false
  step net event net' := (network cluster).step net event net' ∧ NoCatchUp event

def assigned (p : Int) (net : Network) : List Request :=
  net.sent.filter fun message => message.type = .prePrepare ∧ message.senderId = p

def executesIn (r : Replica) : NetworkEvent → List Request
  | .executeMessage _ _ => r.transactionExecutor.executeQueue.head?.toList
  | _ => []

def executedBy (i : Int) : List (Transition Network NetworkEvent) → List Request
  | [] => []
  | t :: past => executedBy i past ++ if t.event.replicaId = i then executesIn (t.before.replica i) t.event else []

def Listed (log : List Request) (request : Request) : Prop := ∃ entry ∈ log, batchOf request = batchOf entry

def Numbered (log : List Request) : Prop := log.map (fun entry => entry.seq) = List.range' 1 log.length

structure Follows (log executed : List Request) (r : Replica) : Prop where
  stocked : Stocked (Listed log) r.transactionExecutor
  held : ∀ s info, Holding (r.collectorPool.getCollector s) info → info.request ∈ log
  started : 1 ≤ r.transactionExecutor.nextExecuteSeq
  bounded : r.transactionExecutor.nextExecuteSeq ≤ log.length + 1
  ordered : (executed ++ r.transactionExecutor.executeQueue).map batchOf =
    (log.take (r.transactionExecutor.nextExecuteSeq - 1)).map batchOf

theorem Listed.mono {more : List Request} (listed : Listed log request) : Listed (log ++ more) request := by
  obtain ⟨entry, member, same⟩ := listed
  exact ⟨entry, mem_append_left _ member, same⟩

theorem Follows.mono (follows : Follows log executed r) (more : List Request) : Follows (log ++ more) executed r := by
  have bounded := follows.bounded
  refine ⟨follows.stocked.mono fun _ => Listed.mono, ?_, follows.started, ?_, ?_⟩
  · intro s info holding
    exact mem_append_left _ (follows.held s info holding)
  · rw [length_append]
    omega
  · rw [take_append_of_le_length (by omega)]
    exact follows.ordered

theorem Follows.congr (follows : Follows log executed r) (executor : r'.transactionExecutor = r.transactionExecutor)
    (pool : r'.collectorPool = r.collectorPool) : Follows log executed r' := by
  constructor
  · rw [executor]
    exact follows.stocked
  · rw [pool]
    exact follows.held
  · rw [executor]
    exact follows.started
  · rw [executor]
    exact follows.bounded
  · rw [executor]
    exact follows.ordered

theorem Numbered.get {entry : Request} (numbered : Numbered log) (found : log[k]? = some entry) :
    entry.seq = k + 1 := by
  have seq : (log.map fun entry => entry.seq)[k]? = some entry.seq := by
    rw [getElem?_map, found]
    rfl
  rw [numbered, getElem?_range'] at seq
  · simp at seq
    omega
  · exact (List.getElem?_eq_some_iff.mp found).1

theorem Listed.take (numbered : Numbered log) (listed : Listed log request)
    (seq : request.seq = k + 1) : k < log.length ∧
      (log.take k ++ [request]).map batchOf = (log.take (k + 1)).map batchOf := by
  obtain ⟨entry, member, same⟩ := listed
  obtain ⟨n, found⟩ := mem_iff_getElem?.mp member
  have here : entry.seq = request.seq := (congrArg (fun batch => batch.seq) same).symm
  have position := numbered.get found
  have spot : n = k := by omega
  rw [spot] at found
  refine ⟨(List.getElem?_eq_some_iff.mp found).1, ?_⟩
  rw [take_add_one, found, map_append, map_append]
  simp [same]

section

variable (follows : Follows log executed r)
include follows

theorem Follows.added {env : Env} {context : Context} {request : Request} {outcome : Outcome} {result : AddResult}
    {config : ResDBConfig} (pooled : Pooled config r) (gives : Gives r env context request outcome result)
    (proposal : request.type = .prePrepare → request ∈ log) : Follows log executed outcome.replica := by
  have executor := gives.executor
  have held : ∀ s info, Holding (outcome.replica.collectorPool.getCollector s) info → info.request ∈ log := by
    intro s
    rcases gives.collector pooled.running s with old | ⟨new, -, -, added⟩
    · rw [old]
      exact follows.held s
    · rw [new]
      exact added.held (follows.held s) fun type _ => proposal type
  cases committed : result.committed with
  | none =>
    rw [committed] at executor
    have same : outcome.replica.transactionExecutor = r.transactionExecutor := executor
    constructor
    · rw [same]
      exact follows.stocked
    · exact held
    · rw [same]
      exact follows.started
    · rw [same]
      exact follows.bounded
    · rw [same]
      exact follows.ordered
  | some message =>
    have listed : Listed log message := by
      rcases addConsensusMsg_spec (pooled.running _) gives.counted with rfl | ⟨-, added⟩
      · cases committed
      obtain ⟨info, main, rfl⟩ := added.handed_stored committed
      exact ⟨info.request, follows.held _ info (.inl main), rfl⟩
    rw [committed] at executor
    have commits : outcome.replica.transactionExecutor = r.transactionExecutor.commit message := executor
    have queued := commit_commits r.transactionExecutor message
    refine ⟨?_, held, ?_, ?_, ?_⟩
    · rw [commits]
      exact follows.stocked.commit listed
    · rw [commits, queued.next]
      exact follows.started
    · rw [commits, queued.next]
      exact follows.bounded
    · rw [commits, queued.executeQueue, queued.next]
      exact follows.ordered

theorem Follows.takeMessage : Follows log executed r.takeMessage := by
  have stocked := follows.stocked.takeMessage
  have queue : r.transactionExecutor.takeMessage.executeQueue = r.transactionExecutor.executeQueue := by
    unfold TransactionExecutor.takeMessage
    split
    · rfl
    · dsimp only
      split <;> rfl
  have next := takeMessage_nextExecuteSeq r.transactionExecutor
  unfold Replica.takeMessage
  refine ⟨stocked, follows.held, ?_, ?_, ?_⟩
  · dsimp only
    rw [next]
    exact follows.started
  · dsimp only
    rw [next]
    exact follows.bounded
  · dsimp only
    rw [next, queue]
    exact follows.ordered

theorem Follows.passNext (numbered : Numbered log)
    (pooled : Pooled config r) (passed : r.passNext = some r') : Follows log executed r' := by
  obtain ⟨executor, advanced, same⟩ := passNext_eq passed
  obtain ⟨message, passes⟩ := passNext_passes advanced
  obtain ⟨listed, seq⟩ := follows.stocked.waiting _ passes.candidate
  have started := follows.started
  have position : message.seq = (r.transactionExecutor.nextExecuteSeq - 1) + 1 := by
    rw [seq]
    omega
  obtain ⟨inside, grown⟩ := listed.take numbered position
  have background : Background r .passNext r' := .passNext passed
  have renewed : ∀ s info, Holding (r'.collectorPool.getCollector s) info → info.request ∈ log := by
    intro s
    rcases background.collectors with ⟨-, renews⟩ | ⟨pool, -⟩
    · rcases renews.collector pooled s with old | ⟨new, -⟩
      · rw [old]
        exact follows.held s
      · rw [new]
        simp [Holding]
    · rw [pool]
      exact follows.held s
  have next := passes.next
  rw [same]
  refine ⟨passes.stocked follows.stocked, by rw [same] at renewed; exact renewed, ?_, ?_, ?_⟩
  · dsimp only
    omega
  · dsimp only
    omega
  · dsimp only
    have last : executor.nextExecuteSeq - 1 = r.transactionExecutor.nextExecuteSeq - 1 + 1 := by omega
    rw [passes.executeQueue, last, ← grown, ← append_assoc, map_append, follows.ordered, ← map_append]

theorem Follows.executeMessage (env : Env) :
    Follows log (executed ++ r.transactionExecutor.executeQueue.head?.toList) (r.executeMessage env).1 := by
  unfold Replica.executeMessage
  split
  · rename_i empty
    rw [empty, head?_nil, Option.toList_none, append_nil]
    exact follows
  · rename_i request rest queue
    have ordered := follows.ordered
    rw [queue] at ordered ⊢
    refine ⟨⟨follows.stocked.queued, follows.stocked.waiting⟩, follows.held, follows.started, follows.bounded, ?_⟩
    simpa using ordered

theorem Follows.handled {env : Env} {context : Context} {request : Request} {outcome : Outcome} {config : ResDBConfig}
    (pooled : Pooled config r) (handling : Handling r env context request outcome) (inView : request.type.inView = true)
    (proposal : request.type = .prePrepare → request.senderId = r.getCurrentPrimary → request ∈ log)
    (fresh : request.isRecovery = false) : Follows log executed outcome.replica := by
  cases handling with
  | added gives => exact follows.added pooled gives fun type => proposal type (gives.proposer fresh type)
  | viewChanged type => simp [type, RequestType.inView] at inView
  | newView type => simp [type, RequestType.inView] at inView
  | _ => exact follows.congr rfl rfl

end

theorem catchUp_nothing (silent : ∀ first last replica, env.getRequestFromReplica first last replica = none)
    (m : CheckPointManager) (senders : Finset Nat) (replicas : List ReplicaInfo) :
    (m.catchUp env senders replicas).2 = [] := by
  induction replicas with
  | nil => rfl
  | cons replica rest ih =>
    simp only [CheckPointManager.catchUp, silent]
    split
    · exact ih
    · exact ih

theorem visitCkpt_nothing (config : ResDBConfig)
    (silent : ∀ first last replica, env.getRequestFromReplica first last replica = none) (state : Visit)
    (entry : (Nat ×ₗ String) × Finset Nat) (none : state.2.1 = []) :
    (CheckPointManager.visitCkpt env config state entry).2.1 = [] := by
  unfold CheckPointManager.visitCkpt
  dsimp only
  split
  · split
    · simp [none, catchUp_nothing silent]
    · exact none
  · exact none

theorem updateStable_nothing (config : ResDBConfig)
    (silent : ∀ first last replica, env.getRequestFromReplica first last replica = none) (m : CheckPointManager) :
    (m.updateStableCheckPointStatus env config).2 = [] := by
  unfold CheckPointManager.updateStableCheckPointStatus
  split
  · rfl
  · exact List.foldlRecOn (motive := fun state => state.2.1 = []) m.senderCkpt.entries
      (CheckPointManager.visitCkpt env config) (b := (m, [], 0, "")) rfl
      fun state none entry _ => visitCkpt_nothing config silent state entry none

theorem Follows.reacted (follows : Follows log executed r) (pooled : Pooled config r)
    (numbered : Numbered log) (reacts : Reacts r event r' sent handed) (silent : NoCatchUp event)
    (deliverable : ∀ i env context request, event = .deliver i env context request → request.type.inView = true ∧
      request.isRecovery = false ∧
      (request.type = .prePrepare → request.senderId = r.getCurrentPrimary → request ∈ log)) :
    Follows log (executed ++ executesIn r event) r' := by
  cases reacts with
  | handled handling =>
    obtain ⟨inView, fresh, proposal⟩ := deliverable _ _ _ _ rfl
    simp only [executesIn, append_nil]
    exact follows.handled pooled handling inView proposal fresh
  | moved same background =>
    cases event with
    | deliver i env context request => cases same
    | takeMessage i =>
      cases same
      cases background
      simp only [executesIn, append_nil]
      exact follows.takeMessage
    | passNext i =>
      cases same
      cases background with
      | passNext passed =>
        simp only [executesIn, append_nil]
        exact follows.passNext numbered pooled passed
    | executeMessage i env =>
      cases same
      cases background
      exact follows.executeMessage env
    | updateStableCheckPointStatus i env =>
      cases same
      cases background
      simp only [executesIn, append_nil]
      refine follows.congr ?_ rfl
      unfold Replica.updateStableCheckPointStatus
      dsimp only
      rw [updateStable_nothing r.config silent]
      rfl
    | _ =>
      cases same
      cases background
      simp only [executesIn, append_nil]
      exact follows.congr rfl rfl

def isProposal (p : Int) (message : Request) : Bool := decide (message.type = .prePrepare ∧ message.senderId = p)

def proposals (p : Int) (sent : List Outgoing) : List Request := (sent.filterMap Outgoing.request?).filter
  (isProposal p)

theorem proposals_eq_nil (other : ∀ message ∈ sent.filterMap Outgoing.request?, message.type ≠ .prePrepare) :
    proposals p sent = [] := by
  refine filter_eq_nil_iff.mpr fun message member proposal => ?_
  exact other message member (of_decide_eq_true proposal).1

inductive Proposes (p : Int) (r r' : Replica) : List Request → Prop
  | nothing : r'.nextSeq = r.nextSeq → Proposes p r r' []
  | next (request : Request) : r.config.selfId = p → r.assignNextSeq ≠ none → r'.nextSeq = addUInt64 r.nextSeq 1 →
      Proposes p r r' [proposalOf r request]

theorem Reacts.proposes (reacts : Reacts r event r' sent handed) (primary : r.getCurrentPrimary = p)
    (fits : toInt32 p = p)
    (deliverable : ∀ i env context request, event = .deliver i env context request → request.type.inView = true ∧
      request.isRecovery = false) : Proposes p r r' (proposals p sent) := by
  cases reacts with
  | moved _ background =>
    rw [proposals_eq_nil fun message member => by simp [threadSent_type member]]
    exact .nothing background.nextSeq
  | @handled _ _ _ request _ handling =>
    obtain ⟨inView, fresh⟩ := deliverable _ _ _ _ rfl
    cases handling with
    | idle _ types =>
      rw [proposals_eq_nil fun message member => by rcases types message member with type | type <;> simp [type]]
      exact .nothing rfl
    | assigned _ self room =>
      have own := self.trans primary
      have made : proposals p [.broadCast (proposalOf r request)] = [proposalOf r request] :=
        filter_cons_of_pos (by simp [isProposal, proposalOf, own, fits])
      rw [made]
      exact .next request own room rfl
    | added gives =>
      rw [proposals_eq_nil fun message member => ?_]
      · exact .nothing (gives.nextSeq fresh)
      · obtain ⟨-, -, answer⟩ := gives.answers message member
        rcases answer.answerTo.phase with ⟨-, type⟩ | ⟨-, type⟩ <;> simp [type]
    | checkpointed =>
      rw [proposals_eq_nil (by simp)]
      exact .nothing rfl
    | viewChanged type => simp [type, RequestType.inView] at inView
    | newView type => simp [type, RequestType.inView] at inView

theorem Reacts.systemInfo (reacts : Reacts r event r' sent handed)
    (deliverable : ∀ i env context request, event = .deliver i env context request → request.type.inView = true) :
    r'.systemInfo = r.systemInfo := by
  cases reacts with
  | moved _ background => exact background.threaded.systemInfo
  | handled handling =>
    have inView := deliverable _ _ _ _ rfl
    cases handling with
    | newView type => simp [type, RequestType.inView] at inView
    | _ => rfl

theorem assignNextSeq_small (room : r.assignNextSeq ≠ none) (fits : r.config.maxProcessTxn < 2 ^ 32)
    (small : r.nextSeq ≤ 2 ^ 33) : addUInt64 r.nextSeq 1 = r.nextSeq + 1 ∧ r.nextSeq + 1 ≤ 2 ^ 33 := by
  unfold Replica.assignNextSeq at room
  dsimp only at room
  split at room
  · exact absurd rfl room
  · rename_i window
    unfold subUInt64 toUInt32 at window
    unfold addUInt64
    omega

theorem assigned_setReplica (p i : Int) (net : Network) (r : Replica) (sent : List Outgoing) (handed : List Request) :
    assigned p (net.setReplica i r sent handed) = assigned p net ++ proposals p sent := by
  unfold assigned proposals isProposal Network.setReplica
  rw [filter_append]

structure Counting (p : Int) (net : Network) : Prop where
  next : (net.replica p).nextSeq = (assigned p net).length + 1
  small : (net.replica p).nextSeq ≤ 2 ^ 33
  numbered : Numbered (assigned p net)

structure InOrder (cluster : Cluster) (p : Int) (trace : List (Transition Network NetworkEvent)) (net : Network) :
    Prop where
  pooled : ∀ i, cluster.honest i → Pooled (cluster.configOf i) (net.replica i)
  primary : ∀ i, cluster.honest i → (net.replica i).getCurrentPrimary = p
  counting : Counting p net
  follows : ∀ i, cluster.honest i → Follows (assigned p net) (executedBy i trace) (net.replica i)

theorem InOrder.start (initial : (primaryNetwork cluster p).initial net) (honest : cluster.honest p) :
    InOrder cluster p [] net := by
  obtain ⟨⟨fresh, sent, -⟩, settings⟩ := initial
  have empty : assigned p net = [] := by
    unfold assigned
    rw [sent]
    rfl
  refine ⟨fun i here => Pooled.fresh (fresh i here), fun i here => (settings i here).1, ⟨?_, ?_, ?_⟩, fun i here => ?_⟩
  · obtain ⟨primary, outOfOrder, needResponse, needQc, same⟩ := fresh p honest
    rw [same, empty]
    rfl
  · obtain ⟨primary, outOfOrder, needResponse, needQc, same⟩ := fresh p honest
    rw [same]
    exact Nat.one_le_two_pow
  · rw [empty]
    rfl
  · obtain ⟨primary, outOfOrder, needResponse, needQc, same⟩ := fresh i here
    rw [same, empty]
    refine ⟨⟨by simp, ?_⟩, ?_, le_rfl, le_rfl, rfl⟩
    · intro entry member
      cases member
    · rintro s info (stored | other)
      · cases stored
      · cases other

theorem Numbered.append {entry : Request} (numbered : Numbered log) (seq : entry.seq = log.length + 1) :
    Numbered (log ++ [entry]) := by
  unfold Numbered at *
  rw [map_append, numbered, length_append, length_singleton, range'_concat]
  simp [seq, Nat.add_comm]

theorem Counting.step {i : Int} (before : Counting p net)
    (proposes : Proposes p (net.replica i) r' (proposals p sent)) (self : (net.replica i).config.selfId = i)
    (fits : (net.replica i).config.maxProcessTxn < 2 ^ 32) : Counting p (net.setReplica i r' sent handed) := by
  have log := assigned_setReplica p i net r' sent handed
  have replica := setReplica_replica net i p r' sent handed
  generalize proposals p sent = made at proposes log
  cases proposes with
  | nothing same =>
    rw [append_nil] at log
    have next : ((net.setReplica i r' sent handed).replica p).nextSeq = (net.replica p).nextSeq := by
      rw [replica]
      split_ifs with here
      · rw [same, here]
      · rfl
    refine ⟨?_, ?_, ?_⟩
    · rw [log, next]
      exact before.next
    · rw [next]
      exact before.small
    · rw [log]
      exact before.numbered
  | next request own room advanced =>
    have here : i = p := self.symm.trans own
    subst here
    obtain ⟨steps, small⟩ := assignNextSeq_small room fits before.small
    rw [if_pos rfl] at replica
    refine ⟨?_, ?_, ?_⟩
    · rw [log, replica, advanced, steps, before.next, length_append]
      rfl
    · rw [replica, advanced, steps]
      exact small
    · rw [log]
      exact before.numbered.append before.next

theorem InOrder.step (before : InOrder cluster p trace net)
    (honest : cluster.honest p) (fits : cluster.config.maxProcessTxn < 2 ^ 32)
    (step : (primaryNetwork cluster p).step net event net') : InOrder cluster p (⟨net, event, net'⟩ :: trace) net' := by
  obtain ⟨step, silent⟩ := step
  obtain ⟨here, allowed, r', sent, handed, reacted, rfl⟩ := step
  have reacts := react_reacts reacted
  have pooled := before.pooled event.replicaId here
  have deliverable : ∀ i env context request, event = .deliver i env context request →
      cluster.Deliverable net request := by
    rintro i env context request rfl
    exact allowed
  have primary := before.primary event.replicaId here
  have proposes := reacts.proposes primary (honest_fits honest) fun i env context request same =>
    ⟨(deliverable i env context request same).1, (deliverable i env context request same).2.1⟩
  have listed : ∀ i env context request, event = .deliver i env context request → request.type.inView = true ∧
      request.isRecovery = false ∧ (request.type = .prePrepare →
        request.senderId = (net.replica event.replicaId).getCurrentPrimary → request ∈ assigned p net) := by
    intro i env context request same
    obtain ⟨inView, fresh, source⟩ := deliverable i env context request same
    refine ⟨inView, fresh, fun type sender => ?_⟩
    rw [primary] at sender
    rcases source with client | byzantine | member
    · rw [type] at client
      cases client
    · rw [sender] at byzantine
      exact absurd byzantine honest.2
    · exact mem_filter.mpr ⟨member, by simp [type, sender]⟩
  have log := assigned_setReplica p event.replicaId net r' sent handed
  have replica := setReplica_replica net event.replicaId
  have counter : Counting p (net.setReplica event.replicaId r' sent handed) := by
    refine before.counting.step proposes ?_ ?_
    · rw [pooled.config]
      rfl
    · rw [pooled.config]
      exact fits
  refine ⟨fun i honestI => ?_, fun i honestI => ?_, counter, fun i honestI => ?_⟩
  · rw [replica]
    split_ifs with same
    · rw [same]
      exact pooled.reacted reacts
    · exact before.pooled i honestI
  · rw [replica]
    split_ifs with same
    · have info := reacts.systemInfo fun i env context request same => (deliverable i env context request same).1
      rw [← primary]
      exact congrArg (fun info => (info.primaryId : Int)) info
    · exact before.primary i honestI
  · rw [log, replica]
    apply Follows.mono
    split_ifs with same
    · have follows := (before.follows event.replicaId here).reacted pooled before.counting.numbered reacts silent listed
      rw [executedBy, if_pos same.symm, same]
      exact follows
    · rw [executedBy, if_neg fun equal => same equal.symm, append_nil]
      exact before.follows i honestI

theorem inOrder_run (honest : cluster.honest p)
    (fits : cluster.config.maxProcessTxn < 2 ^ 32) (run : (primaryNetwork cluster p).Run trace net) :
    InOrder cluster p trace net := by
  induction run with
  | initial first => exact InOrder.start first honest
  | next _ step ih => exact ih.step honest fits step

theorem executes_primary_order {trace : List (Transition Network NetworkEvent)} (honest : cluster.honest p)
    (fits : cluster.config.maxProcessTxn < 2 ^ 32) (run : (primaryNetwork cluster p).Run trace net) :
    (assigned p net).map (fun request => request.seq) = List.range' 1 (assigned p net).length ∧
      ∀ i, cluster.honest i → (executedBy i trace).map batchOf <+: (assigned p net).map batchOf := by
  have ordered := inOrder_run honest fits run
  refine ⟨ordered.counting.numbered, fun i here => ?_⟩
  have follows := ordered.follows i here
  have whole : (executedBy i trace).map batchOf <+:
      ((assigned p net).take ((net.replica i).transactionExecutor.nextExecuteSeq - 1)).map batchOf := by
    rw [← follows.ordered, map_append]
    exact prefix_append _ _
  exact whole.trans (( take_prefix _ _).map batchOf)

def silentAct (cluster : Cluster) (net : Network) (event : NetworkEvent) : Option Network :=
  match event with
  | .updateStableCheckPointStatus _ _ => none
  | _ => networkAct cluster net event

theorem silentAct_sound (cluster : Cluster) (p : Int) (net : Network) (event : NetworkEvent) (net' : Network)
    (acted : silentAct cluster net event = some net') : (primaryNetwork cluster p).step net event net' := by
  cases event with
  | updateStableCheckPointStatus i env => cases acted
  | _ => exact ⟨networkAct_sound cluster net _ net' acted, trivial⟩

def backupByzantine : Cluster := { fourCluster with byzantine := {4}, members := by decide, bound := by decide }

def passOn (receiver : Int) (message : Request) : NetworkEvent :=
  .deliver receiver plainEnv ⟨⟨message.senderId, "signature"⟩⟩ message

def phaseOf (type : RequestType) (sender : Int) : Request :=
  { type := type, hash := "a", seq := 1, currentView := 1, senderId := sender, primaryId := 1
    dataSignature := if type = .commit then some {} else none }

def clientRequest : List NetworkEvent := [passOn 1 { type := .newTxns, hash := "a" }] ++
  [1, 2, 3].map (fun i => passOn i (phaseOf .prePrepare 1)) ++
  [2, 3].flatMap (fun i => [1, 2, 3].map fun j => passOn i (phaseOf .prepare j)) ++
  [2, 3, 4].map (fun j => passOn 2 (phaseOf .commit j)) ++
  [.takeMessage 2, .passNext 2, .executeMessage 2 plainEnv]

theorem clientRequest_executed : ∃ trace net, (primaryNetwork backupByzantine 1).Run trace net ∧
    (executedBy 2 trace).map (fun request => request.hash) = ["a"] ∧
    (executedBy 2 trace).map batchOf <+: (assigned 1 net).map batchOf := by
  obtain ⟨trace, net, run, checked⟩ := System.run_of_play (silentAct_sound backupByzantine 1)
    ⟨startNetwork_initial backupByzantine 1, fun _ _ => ⟨rfl, rfl⟩⟩ clientRequest
    (fun trace _ => (executedBy 2 trace).map (fun request => request.hash) = ["a"]) (by decide)
  exact ⟨trace, net, run, checked, (executes_primary_order (by decide) (by decide) run).2 2 (by decide)⟩

end ResilientDB.Proof
