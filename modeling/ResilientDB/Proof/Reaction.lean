import ResilientDB.Model.Network
import ResilientDB.Proof.CollectorRun
import ResilientDB.Proof.Executor
import ResilientDB.Proof.Handling
import ResilientDB.Proof.Ring

namespace ResilientDB.Proof
open Model Library Option

variable {r r' : Replica} {env : Env} {context : Context} {request : Request}

def IsVote (message : Request) : Prop := message.type = .prepare ∨ message.type = .commit

structure SameControl (r r' : Replica) : Prop where
  config : r'.config = r.config
  systemInfo : r'.systemInfo = r.systemInfo
  nextExecuteSeq : r'.transactionExecutor.nextExecuteSeq = r.transactionExecutor.nextExecuteSeq

structure VoteFor (config : ResDBConfig) (request message : Request) : Prop where
  seq : message.seq = request.seq
  hash : message.hash = request.hash
  sender : message.senderId = toInt32 config.selfId
  phase : (request.type = .prePrepare ∧ message.type = .prepare) ∨ (request.type = .prepare ∧ message.type = .commit)

def Votes (r : Replica) (request : Request) (changed : Bool) (sent : List Outgoing) : Prop :=
  ∀ message ∈ sent.filterMap Outgoing.request?, changed = true ∧ VoteFor r.config request message

inductive Effect (r : Replica) : NetworkEvent → Replica → List Outgoing → List Request → Prop
  | quiet {event : NetworkEvent} {r' : Replica} {sent : List Outgoing} : SameControl r r' →
      r'.collectorPool = r.collectorPool →
      (∀ message ∈ sent.filterMap Outgoing.request?, ¬ IsVote message) → Effect r event r' sent []
  | added {i : Int} {env : Env} {context : Context} {request : Request} {result : AddResult} {r' : Replica}
      {sent : List Outgoing} : SameControl r r' → context.signature.signature ≠ "" →
      isValidMsg r.getCurrentView r.transactionExecutor.getMaxPendingExecutedSeq request = true →
      Added r.config (r.collectorPool.getCollector request.seq) request context.signature result →
      r'.collectorPool = r.collectorPool.setCollector request.seq result.collector →
      Votes r request result.changed sent →
      Effect r (.deliver i env context request) r' sent result.committed.toList
  | passed {i : Int} {r' : Replica} : r'.config = r.config → r'.systemInfo = r.systemInfo →
      r'.collectorPool = r.collectorPool.update r.transactionExecutor.nextExecuteSeq →
      r'.transactionExecutor.nextExecuteSeq = r.transactionExecutor.nextExecuteSeq + 1 →
      Effect r (.passNext i) r' [] []

theorem Answers.vote {vote : Request} (answers : Answers r env request vote) : VoteFor r.config request vote := by
  rcases answers with ⟨type, rfl⟩ | ⟨type, made⟩
  · exact ⟨rfl, rfl, rfl, .inl ⟨type, rfl⟩⟩
  · unfold Replica.commitRequest at made
    dsimp only at made
    split at made
    · obtain ⟨signature, -, rfl⟩ := map_eq_some_iff.mp made
      exact ⟨rfl, rfl, rfl, .inr ⟨type, rfl⟩⟩
    · cases made
      exact ⟨rfl, rfl, rfl, .inr ⟨type, rfl⟩⟩

theorem deliver_effect {i : Int} {outcome : Outcome} (inView : request.type.inView = true)
    (running : (r.collectorPool.getCollector request.seq).status ≠ .readyExecute)
    (ran : r.internalConsensusCommit env context request = .ok outcome) :
    Effect r (.deliver i env context request) outcome.replica outcome.sent outcome.committed := by
  cases commit_handling ran with
  | idle _ plain =>
    refine .quiet ⟨rfl, rfl, rfl⟩ rfl fun message member => ?_
    rcases plain message member with type | type <;> simp [IsVote, type]
  | assigned => exact .quiet ⟨rfl, rfl, rfl⟩ rfl (by simp [Outgoing.request?, IsVote, proposalOf])
  | @added result _ _ _ _ _ _ gives =>
    have answers := gives.answers
    have control : (r.commitMessage result.committed).transactionExecutor.nextExecuteSeq = _ :=
      commitMessage_nextExecuteSeq r _
    rcases addConsensusMsg_spec running gives.counted with rfl | ⟨valid, added⟩
    · exact .quiet ⟨rfl, rfl, control⟩ (setCollector_getCollector _) fun message member =>
        absurd (answers message member).1.2 (by simp)
    · exact .added ⟨rfl, rfl, control⟩ gives.admits.signed valid added rfl fun message member =>
        ⟨(answers message member).1.2, (answers message member).2.2.vote⟩
  | checkpointed => exact .quiet ⟨rfl, rfl, rfl⟩ rfl (by simp)
  | viewChanged type => simp [type, RequestType.inView] at inView
  | newView type => simp [type, RequestType.inView] at inView

theorem executeMessage_effect (event : NetworkEvent) :
    Effect r event (r.executeMessage env).1 (r.executeMessage env).2 [] := by
  unfold Replica.executeMessage
  split
  · exact .quiet ⟨rfl, rfl, rfl⟩ rfl (by simp)
  · refine .quiet ⟨rfl, rfl, rfl⟩ rfl ?_
    dsimp only
    split
    · simp
    split <;> simp [Outgoing.request?]

theorem updateCheckPointStatus_effect (event : NetworkEvent) :
    Effect r event (r.updateCheckPointStatus env).1 (r.updateCheckPointStatus env).2 [] := by
  refine .quiet ⟨rfl, rfl, rfl⟩ rfl ?_
  have checkpoint (message : Request)
      (sent : (r.checkpointManager.updateCheckPointStatus env r.config).2 = some message) :
      message.type = .checkpoint := by
    unfold CheckPointManager.updateCheckPointStatus CheckPointManager.broadcastCheckPoint at sent
    split at sent
    · cases sent
    dsimp only at sent
    split at sent
    · cases sent
    split at sent
    · dsimp only at sent
      split at sent
      · cases sent
      split at sent
      · cases sent
      · cases sent
        rfl
    · cases sent
  intro message member
  simp only [Replica.updateCheckPointStatus, List.mem_filterMap, mem_toList, map_eq_some_iff] at member
  obtain ⟨outgoing, ⟨sent, was, rfl⟩, same⟩ := member
  cases same
  simp [IsVote, checkpoint message was]

theorem foldl_commit_nextExecuteSeq (requests : List Request) (e : TransactionExecutor) :
    (requests.foldl TransactionExecutor.commit e).nextExecuteSeq = e.nextExecuteSeq := by
  induction requests generalizing e with
  | nil => rfl
  | cons request rest ih => rw [List.foldl_cons, ih, commit_nextExecuteSeq]

theorem react_effect {event : NetworkEvent} {sent : List Outgoing} {handed : List Request}
    (running : ∀ s, (r.collectorPool.getCollector s).status ≠ .readyExecute)
    (deliverable : ∀ i env context request, event = .deliver i env context request → request.type.inView = true)
    (reacted : Cluster.react r event = .ok (some (r', sent, handed))) : Effect r event r' sent handed := by
  cases event with
  | deliver i env context request =>
    have inView := deliverable i env context request rfl
    simp only [Cluster.react] at reacted
    obtain ⟨outcome, ran, reacted⟩ := bind_eq_ok.mp reacted
    cases reacted
    exact deliver_effect inView (running _) ran
  | takeMessage i =>
    cases reacted
    exact .quiet ⟨rfl, rfl, takeMessage_nextExecuteSeq _⟩ rfl (by simp)
  | passNext i =>
    simp only [Cluster.react, Except.ok.injEq, map_eq_some_iff] at reacted
    obtain ⟨next, passed, same⟩ := reacted
    cases same
    unfold Replica.passNext at passed
    split at passed
    · cases passed
    · rename_i executor advanced
      cases passed
      obtain ⟨message, passes⟩ := passNext_passes advanced
      have next := passes.next
      refine .passed rfl rfl ?_ next
      dsimp only
      rw [next, Nat.add_sub_cancel]
  | executeMessage i env =>
    cases reacted
    exact executeMessage_effect _
  | updateRecentHash i time =>
    cases reacted
    exact .quiet ⟨rfl, rfl, rfl⟩ rfl (by simp)
  | updateCheckPointStatus i env =>
    cases reacted
    exact updateCheckPointStatus_effect _
  | updateStableCheckPointStatus i env =>
    cases reacted
    exact .quiet ⟨rfl, rfl, foldl_commit_nextExecuteSeq _ _⟩ rfl (by simp)

end ResilientDB.Proof
