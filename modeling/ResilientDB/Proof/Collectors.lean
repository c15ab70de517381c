import ResilientDB.Proof.ServerRun

namespace ResilientDB.Proof
open Model Library

variable {config : ResDBConfig} {r r' : Replica} {env : Env} {context : Context} {request : Request}
  {outcome : Outcome} {event : ServerEvent} {vote : Request} {result : AddResult}

structure Pooled (config : ResDBConfig) (r : Replica) : Prop where
  ring : ∃ done, r.transactionExecutor.nextExecuteSeq = done + 1 ∧ Ring r.collectorPool done
  running : ∀ s, (r.collectorPool.getCollector s).status ≠ .readyExecute
  renews : r.collectorPool.enableViewchange = config.enableViewchange
  viewchange : ∀ s, (r.collectorPool.getCollector s).enableViewchange = config.enableViewchange
  config : r.config = config

structure AnswerTo (request vote : Request) : Prop where
  seq : vote.seq = request.seq
  hash : vote.hash = request.hash
  view : vote.currentView = request.currentView
  phase : request.type = .prePrepare ∧ vote.type = .prepare ∨ request.type = .prepare ∧ vote.type = .commit

theorem AnswerTo.of_prepare (answer : AnswerTo request vote) (prepare : vote.type = .prepare) :
    request.type = .prePrepare := by
  rcases answer.phase with ⟨type, -⟩ | ⟨-, type⟩
  · exact type
  · rw [prepare] at type
    cases type

theorem AnswerTo.of_commit (answer : AnswerTo request vote) (commit : vote.type = .commit) :
    request.type = .prepare := by
  rcases answer.phase with ⟨-, type⟩ | ⟨type, -⟩
  · rw [commit] at type
    cases type
  · exact type

theorem Answers.answerTo (answers : Answers r env request vote) : AnswerTo request vote := by
  rcases answers with ⟨proposal, rfl⟩ | ⟨prepare, made⟩
  · exact ⟨rfl, rfl, rfl, .inl ⟨proposal, rfl⟩⟩
  · unfold Replica.commitRequest at made
    dsimp only at made
    split at made
    · obtain ⟨signature, -, rfl⟩ := Option.map_eq_some_iff.mp made
      exact ⟨rfl, rfl, rfl, .inr ⟨prepare, rfl⟩⟩
    · cases made
      exact ⟨rfl, rfl, rfl, .inr ⟨prepare, rfl⟩⟩

theorem Handling.collectors (handling : Handling r env context request outcome) :
    (outcome.replica.collectorPool = r.collectorPool ∨ ∃ result, Gives r env context request outcome result) ∧
      outcome.replica.transactionExecutor.nextExecuteSeq = r.transactionExecutor.nextExecuteSeq := by
  cases handling with
  | added gives => exact ⟨.inr ⟨_, gives⟩, commitMessage_nextExecuteSeq r _⟩
  | _ => exact ⟨.inl rfl, rfl⟩

section

variable (gives : Gives r env context request outcome result)
include gives

theorem Gives.collector (running : ∀ s, (r.collectorPool.getCollector s).status ≠ .readyExecute) (s : Nat) :
    outcome.replica.collectorPool.getCollector s = r.collectorPool.getCollector s ∨
      (outcome.replica.collectorPool.getCollector s = result.collector ∧
        r.collectorPool.getCollector s = r.collectorPool.getCollector request.seq ∧
        isValidMsg r.getCurrentView r.transactionExecutor.getMaxPendingExecutedSeq request = true ∧
        Added r.config (r.collectorPool.getCollector s) request context.signature result) := by
  rw [gives.pool]
  rcases addConsensusMsg_spec (running request.seq) gives.counted with same | ⟨valid, added⟩
  · rw [same]
    dsimp only
    rw [setCollector_getCollector]
    exact .inl rfl
  rcases getCollector_setCollector_cases r.collectorPool request.seq s result.collector with ⟨new, here⟩ | old
  · rw [here]
    exact .inr ⟨new, rfl, valid, added⟩
  · exact .inl old

theorem Gives.notResponse : request.type ≠ .response := by
  rcases gives.phase with type | type | type <;> simp [type]

theorem Gives.view : outcome.replica.getCurrentView = r.getCurrentView := congrArg SystemInfo.view gives.systemInfo

theorem Gives.after : outcome.replica.collectorPool.getCollector request.seq = result.collector := by
  rw [gives.pool]
  exact getCollector_setCollector_same _ _ _

theorem Gives.added (running : ∀ s, (r.collectorPool.getCollector s).status ≠ .readyExecute)
    (changed : result.changed = true) :
    isValidMsg r.getCurrentView r.transactionExecutor.getMaxPendingExecutedSeq request = true ∧
      Added r.config (r.collectorPool.getCollector request.seq) request context.signature result := by
  rcases addConsensusMsg_spec (running request.seq) gives.counted with refused | added
  · rw [refused] at changed
    cases changed
  · exact added

theorem Gives.pooled (pooled : Pooled config r) (same : outcome.replica.config = r.config)
    (next : outcome.replica.transactionExecutor.nextExecuteSeq = r.transactionExecutor.nextExecuteSeq) :
    Pooled config outcome.replica := by
  have collector := gives.collector pooled.running
  have seq : result.collector.seq = (r.collectorPool.getCollector request.seq).seq := by
    rcases addConsensusMsg_spec (pooled.running request.seq) gives.counted with same | ⟨-, added⟩
    · rw [same]
    · exact added.seq
  obtain ⟨done, before, ring⟩ := pooled.ring
  refine ⟨⟨done, next.trans before, ?_⟩, ?_, ?_, ?_, same.trans pooled.config⟩
  · rw [gives.pool]
    exact ring.setCollector seq
  · intro s
    rcases collector s with old | ⟨new, -, -, added⟩
    · rw [old]
      exact pooled.running s
    · rw [new]
      exact added.running (pooled.running s)
  · rw [gives.pool]
    exact pooled.renews
  · intro s
    rcases collector s with old | ⟨new, -, -, added⟩
    · rw [old]
      exact pooled.viewchange s
    · rw [new, added.enableViewchange]
      exact pooled.viewchange s

end

theorem Pooled.congr (pooled : Pooled config r) (same : r'.config = r.config)
    (pool : r'.collectorPool = r.collectorPool)
    (next : r'.transactionExecutor.nextExecuteSeq = r.transactionExecutor.nextExecuteSeq) : Pooled config r' := by
  refine ⟨?_, ?_, ?_, ?_, same.trans pooled.config⟩
  · rw [next, pool]
    exact pooled.ring
  · rw [pool]
    exact pooled.running
  · rw [pool]
    exact pooled.renews
  · rw [pool]
    exact pooled.viewchange

theorem Pooled.handled (pooled : Pooled config r) (handling : Handling r env context request outcome) :
    Pooled config outcome.replica := by
  obtain ⟨pool, next⟩ := handling.collectors
  rcases pool with same | ⟨result, gives⟩
  · exact pooled.congr (handling_config handling) same next
  · exact gives.pooled pooled (handling_config handling) next

theorem Pooled.called {call : Call} (pooled : Pooled config call.before) (ran : Ran call) :
    Pooled config call.outcome.replica :=
  pooled.handled (commit_handling ran)

structure Renews (r r' : Replica) : Prop where
  frame : ∃ executor pool, r' = { r with transactionExecutor := executor, collectorPool := pool }
  next : r'.transactionExecutor.nextExecuteSeq = r.transactionExecutor.nextExecuteSeq + 1
  pool : r'.collectorPool = r.collectorPool.update r.transactionExecutor.nextExecuteSeq

theorem Background.collectors (moved : Background r event r') :
    (event = .passNext ∧ Renews r r') ∨ (r'.collectorPool = r.collectorPool ∧
      r'.transactionExecutor.nextExecuteSeq = r.transactionExecutor.nextExecuteSeq) := by
  cases moved with
  | takeMessage => exact .inr ⟨rfl, takeMessage_nextExecuteSeq _⟩
  | passNext passed =>
    obtain ⟨executor, advanced, rfl⟩ := passNext_eq passed
    obtain ⟨message, passes⟩ := passNext_passes advanced
    have next := passes.next
    refine .inl ⟨rfl, ⟨executor, _, rfl⟩, next, ?_⟩
    dsimp only
    rw [next, Nat.add_sub_cancel]
  | executeMessage env =>
    unfold Replica.executeMessage
    split
    · exact .inr ⟨rfl, rfl⟩
    · exact .inr ⟨rfl, rfl⟩
  | updateStableCheckPointStatus env => exact .inr ⟨rfl, foldl_commit_nextExecuteSeq _ _⟩
  | monitorTimeout env ran =>
    obtain ⟨status, counter, timers, last, rfl⟩ := monitorTimeout_timed ran
    exact .inr ⟨rfl, rfl⟩
  | monitorCheckpointState =>
    obtain ⟨signal, status, counter, timers, last, same⟩ := monitorCheckpointState_timed r
    rw [same]
    exact .inr ⟨rfl, rfl⟩
  | _ => exact .inr ⟨rfl, rfl⟩

theorem Background.nextSeq (moved : Background r event r') : r'.nextSeq = r.nextSeq := by
  rcases moved.frame with ⟨executor, pool, duplicates, manager, rfl⟩ | ⟨env, sent, -, ran⟩ | ⟨-, rfl⟩
  · rfl
  · obtain ⟨status, counter, timers, last, rfl⟩ := monitorTimeout_timed ran
    rfl
  · obtain ⟨signal, status, counter, timers, last, same⟩ := monitorCheckpointState_timed r
    rw [same]

theorem Renews.collector (renews : Renews r r') (pooled : Pooled config r) (s : Nat) :
    r'.collectorPool.getCollector s = r.collectorPool.getCollector s ∨
      (r'.collectorPool.getCollector s = { seq := renewedSeq r, enableViewchange := config.enableViewchange } ∧
        r.collectorPool.getCollector s = r.collectorPool.getCollector (renewedSeq r) ∧
        (r.collectorPool.getCollector s).seq ≤ renewedSeq r) := by
  obtain ⟨done, before, ring⟩ := pooled.ring
  have renewed := getCollector_update ring s
  rw [← before] at renewed
  rw [renews.pool, renewed, pooled.renews]
  split_ifs with slot
  · have here := ring.renewed_seq (t := s) (by rw [← before]; exact slot)
    rw [← before] at here
    refine .inr ⟨rfl, ?_, here⟩
    unfold LockFreeCollectorPool.getCollector
    rw [mask_eq_mod ring.power, mask_eq_mod ring.power, slot]
    rfl
  · exact .inl rfl

theorem Pooled.thread (pooled : Pooled config r) (moved : Background r event r') : Pooled config r' := by
  rcases moved.collectors with ⟨-, renews⟩ | ⟨pool, next⟩
  · obtain ⟨done, before, ring⟩ := pooled.ring
    have collector := renews.collector pooled
    refine ⟨⟨done + 1, ?_, ?_⟩, ?_, ?_, ?_, moved.threaded.config.trans pooled.config⟩
    · rw [renews.next, before]
    · rw [renews.pool, before]
      exact ring.update
    · intro s
      rcases collector s with old | ⟨new, -⟩
      · rw [old]
        exact pooled.running s
      · rw [new]
        simp
    · rw [renews.pool]
      refine Eq.trans ?_ pooled.renews
      unfold LockFreeCollectorPool.update
      dsimp only
      split <;> rfl
    · intro s
      rcases collector s with old | ⟨new, -⟩
      · rw [old]
        exact pooled.viewchange s
      · rw [new]
  · exact pooled.congr moved.threaded.config pool next

theorem Pooled.start (config : ResDBConfig) (outOfOrder needResponse needQc : Bool) :
    Pooled config { Replica.create config with
      transactionExecutor := { outOfOrder := outOfOrder, needResponse := needResponse }
      needQc := needQc } :=
  ⟨⟨0, rfl, Ring.create _ _⟩, fun _ => by simp [Replica.create, LockFreeCollectorPool.create,
    LockFreeCollectorPool.getCollector], rfl, fun _ => rfl, rfl⟩

variable {cluster : Cluster} {net net' : Network} {event : NetworkEvent} {sent : List Outgoing} {handed : List Request}

def threadOf : NetworkEvent → Option ServerEvent
  | .deliver _ _ _ _ => none
  | .takeMessage _ => some .takeMessage
  | .passNext _ => some .passNext
  | .executeMessage _ env => some (.executeMessage env)
  | .updateRecentHash _ time => some (.updateRecentHash time)
  | .updateCheckPointStatus _ env => some (.updateCheckPointStatus env)
  | .updateStableCheckPointStatus _ env => some (.updateStableCheckPointStatus env)

def threadSent (r : Replica) : ServerEvent → List Outgoing
  | .executeMessage env => (r.executeMessage env).2
  | .updateCheckPointStatus env => (r.updateCheckPointStatus env).2
  | _ => []

inductive Reacts (r : Replica) : NetworkEvent → Replica → List Outgoing → List Request → Prop
  | handled {i : Int} {env : Env} {context : Context} {request : Request} {outcome : Outcome} :
      Handling r env context request outcome →
      Reacts r (.deliver i env context request) outcome.replica outcome.sent outcome.committed
  | moved {event : NetworkEvent} {thread : ServerEvent} {r' : Replica} : threadOf event = some thread →
      Background r thread r' → Reacts r event r' (threadSent r thread) []

theorem react_reacts (reacted : Cluster.react r event = .ok (some (r', sent, handed))) :
    Reacts r event r' sent handed := by
  cases event with
  | deliver i env context request =>
    simp only [Cluster.react] at reacted
    obtain ⟨outcome, ran, same⟩ := bind_eq_ok.mp reacted
    cases same
    exact .handled (commit_handling ran)
  | takeMessage i =>
    cases reacted
    exact .moved rfl .takeMessage
  | passNext i =>
    simp only [Cluster.react, Except.ok.injEq, Option.map_eq_some_iff] at reacted
    obtain ⟨next, passed, same⟩ := reacted
    cases same
    exact .moved rfl (.passNext passed)
  | executeMessage i env =>
    cases reacted
    exact .moved rfl (.executeMessage env)
  | updateRecentHash i time =>
    cases reacted
    exact .moved rfl (.updateRecentHash time)
  | updateCheckPointStatus i env =>
    cases reacted
    exact .moved rfl (.updateCheckPointStatus env)
  | updateStableCheckPointStatus i env =>
    cases reacted
    exact .moved rfl (.updateStableCheckPointStatus env)

theorem Pooled.reacted {config : ResDBConfig} (pooled : Pooled config r) (reacts : Reacts r event r' sent handed) :
    Pooled config r' := by
  cases reacts with
  | handled handling => exact pooled.handled handling
  | moved _ background => exact pooled.thread background

theorem Pooled.fresh {i : Int} (fresh : cluster.Fresh i r) : Pooled (cluster.configOf i) r := by
  obtain ⟨primary, outOfOrder, needResponse, needQc, rfl⟩ := fresh
  exact (Pooled.start (cluster.configOf i) outOfOrder needResponse needQc).congr rfl rfl rfl

theorem executeMessage_sent (r : Replica) (env : Env) : (r.executeMessage env).2.filterMap Outgoing.request? = [] := by
  unfold Replica.executeMessage
  split
  · rfl
  · dsimp only
    split
    · rfl
    · split <;> rfl

theorem updateCheckPointStatus_sent {env : Env} {message : Request}
    (member : message ∈ (r.updateCheckPointStatus env).2.filterMap Outgoing.request?) : message.type = .checkpoint := by
  simp only [Replica.updateCheckPointStatus, List.mem_filterMap, Option.mem_toList, Option.map_eq_some_iff] at member
  obtain ⟨outgoing, ⟨sent, was, rfl⟩, same⟩ := member
  cases same
  unfold CheckPointManager.updateCheckPointStatus at was
  split at was
  · cases was
  dsimp only at was
  split at was
  · cases was
  split at was
  · dsimp only at was
    split at was
    · cases was
    unfold CheckPointManager.broadcastCheckPoint at was
    split at was
    · cases was
    · cases was
      rfl
  · cases was

theorem threadSent_type {thread : ServerEvent} {message : Request}
    (member : message ∈ (threadSent r thread).filterMap Outgoing.request?) : message.type = .checkpoint := by
  cases thread with
  | executeMessage env =>
    rw [threadSent, executeMessage_sent] at member
    cases member
  | updateCheckPointStatus env => exact updateCheckPointStatus_sent member
  | _ => cases member

end ResilientDB.Proof
