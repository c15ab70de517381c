import ResilientDB.Proof.Votes

namespace ResilientDB.Proof
open Model Library List

variable {config : ResDBConfig} {r r' : Replica} {event : ServerEvent} {s s' : Server} {env : Env} {context : Context}
  {request : Request} {outcome : Outcome} {trace : List (Transition Server ServerEvent)}

structure Threaded (r r' : Replica) : Prop where
  config : r'.config = r.config
  systemInfo : r'.systemInfo = r.systemInfo
  viewchangeRequest : r'.viewChangeManager.viewchangeRequest = r.viewChangeManager.viewchangeRequest
  newViewIsSent : r'.viewChangeManager.newViewIsSent = r.viewChangeManager.newViewIsSent
  pending : r'.requestPending = r.requestPending
  commitment : r'.commitmentComplained = r.commitmentComplained
  complained : r'.requestComplained = r.requestComplained

theorem Threaded.view (threaded : Threaded r r') : r'.getCurrentView = r.getCurrentView :=
  congrArg SystemInfo.view threaded.systemInfo

theorem Timed.threaded (timed : Timed r r') : Threaded r r' := by
  obtain ⟨status, counter, timers, last, rfl⟩ := timed
  exact ⟨rfl, rfl, rfl, rfl, rfl, rfl, rfl⟩

theorem passNext_eq (passed : r.passNext = some r') : ∃ executor, r.transactionExecutor.passNext = some executor ∧
    r' = { r with
      transactionExecutor := executor, collectorPool := r.collectorPool.update (executor.nextExecuteSeq - 1) } := by
  unfold Replica.passNext at passed
  split at passed
  · cases passed
  · rename_i executor advanced
    cases passed
    exact ⟨executor, advanced, rfl⟩

theorem executeMessage_eq (r : Replica) (env : Env) : ∃ executor duplicates manager, (r.executeMessage env).1 = { r with
      transactionExecutor := executor, duplicateManager := duplicates, checkpointManager := manager } := by
  unfold Replica.executeMessage
  split
  · exact ⟨_, _, _, rfl⟩
  · exact ⟨_, _, _, rfl⟩

theorem Background.frame (moved : Background r event r') : (∃ executor pool duplicates manager, r' = { r with
      transactionExecutor := executor, collectorPool := pool, duplicateManager := duplicates
      checkpointManager := manager }) ∨
    (∃ env sent, event = .monitorTimeout env ∧ r.monitorTimeout env = .ok (r', sent)) ∨
    event = .monitorCheckpointState ∧ r' = r.monitorCheckpointState := by
  cases moved with
  | passNext passed =>
    obtain ⟨executor, -, rfl⟩ := passNext_eq passed
    exact .inl ⟨_, _, _, _, rfl⟩
  | executeMessage env =>
    obtain ⟨executor, duplicates, manager, same⟩ := executeMessage_eq r env
    rw [same]
    exact .inl ⟨_, _, _, _, rfl⟩
  | monitorTimeout env ran => exact .inr (.inl ⟨env, _, rfl, ran⟩)
  | monitorCheckpointState => exact .inr (.inr ⟨rfl, rfl⟩)
  | _ => exact .inl ⟨_, _, _, _, rfl⟩

theorem Background.threaded (moved : Background r event r') : Threaded r r' := by
  rcases moved.frame with ⟨executor, pool, duplicates, manager, rfl⟩ | ⟨env, sent, -, ran⟩ | ⟨-, rfl⟩
  · exact ⟨rfl, rfl, rfl, rfl, rfl, rfl, rfl⟩
  · exact (monitorTimeout_timed ran).threaded
  · obtain ⟨signal, status, counter, timers, last, frame⟩ := monitorCheckpointState_timed r
    rw [frame]
    exact ⟨rfl, rfl, rfl, rfl, rfl, rfl, rfl⟩

theorem Background.checkpoints (moved : Background r event r') :
    (∃ env, event = .updateStableCheckPointStatus env ∧ r' = (r.updateStableCheckPointStatus env).1) ∨
    ∃ data hash seq db ckpt signal, r'.checkpointManager = { r.checkpointManager with
        dataQueue := data, lastHash := hash, lastSeq := seq, txnDb := db, lastCkptSeq := ckpt
        committableSeqSignal := signal } ∧
      (event ≠ .monitorCheckpointState → signal = r.checkpointManager.committableSeqSignal) := by
  cases moved with
  | passNext passed =>
    obtain ⟨executor, -, rfl⟩ := passNext_eq passed
    exact .inr ⟨_, _, _, _, _, _, rfl, fun _ => rfl⟩
  | executeMessage env =>
    right
    unfold Replica.executeMessage
    split
    · exact ⟨_, _, _, _, _, _, rfl, fun _ => rfl⟩
    · unfold CheckPointManager.addCommitData
      dsimp only
      split <;> exact ⟨_, _, _, _, _, _, rfl, fun _ => rfl⟩
  | updateCheckPointStatus env =>
    obtain ⟨data, hash, seq, db, ckpt, frame⟩ := updateCheckPointStatus_eq env r.config r.checkpointManager
    exact .inr ⟨data, hash, seq, db, ckpt, _, frame, fun _ => rfl⟩
  | updateStableCheckPointStatus env => exact .inl ⟨env, rfl, rfl⟩
  | monitorTimeout env ran =>
    obtain ⟨status, counter, timers, last, rfl⟩ := monitorTimeout_timed ran
    exact .inr ⟨_, _, _, _, _, _, rfl, fun _ => rfl⟩
  | monitorCheckpointState =>
    obtain ⟨signal, status, counter, timers, last, frame⟩ := monitorCheckpointState_timed r
    rw [frame]
    exact .inr ⟨_, _, _, _, _, signal, rfl, fun other => absurd rfl other⟩
  | _ => exact .inr ⟨_, _, _, _, _, _, rfl, fun _ => rfl⟩

theorem handling_config (handling : Handling r env context request outcome) : outcome.replica.config = r.config := by
  cases handling <;> rfl

theorem handling_manager (handling : Handling r env context request outcome) :
    ∃ highest senders signatures new, outcome.replica.checkpointManager = { r.checkpointManager with
      highestPreparedSeq := highest, senderCkpt := senders, signCkpt := signatures, newData := new } := by
  cases handling <;> exact ⟨_, _, _, _, rfl⟩

theorem ran_config {call : Call} (ran : Ran call) : call.outcome.replica.config = call.before.config :=
  handling_config (commit_handling ran)

theorem server_accounted (run : (server config).Run trace s) : Accounted s :=
  run.invariant (fun _ => True) Accounted (fun _ => accounted_initial)
    (fun _ _ _ before step _ => accounted_step before step) (fun _ _ => trivial)

theorem process_walk (ran : r.process envs buff = .ok (progress, ret)) : Walk (fun _ => True) r progress := by
  rcases process_received ran with ⟨-, rfl⟩ | ⟨receipt, -, -, committed⟩
  · exact .start
  · exact (consensusCommit_followed (fun _ _ => trivial) trivial committed).walk

theorem walk_invariant {known : Context × Request → Prop} {p : Progress} (walk : Walk known r p)
    {inv : Replica → List Call → Prop} {past : List Call}
    (shuffled : ∀ r calls pending complained started, inv r calls → inv (shuffle r pending complained started) calls)
    (called : ∀ calls call, inv call.before calls → Ran call → call ∈ p.calls →
      inv call.outcome.replica (calls ++ [call])) (before : inv r past) : inv p.replica (past ++ p.calls) := by
  induction walk with
  | start => simpa using before
  | shuffled pending complained started _ ih => exact shuffled _ _ pending complained started (ih called)
  | called _ here handling ih =>
    rw [← append_assoc]
    refine called _ ⟨_, _, _, _, _⟩ (ih fun calls call before ran member => ?_) handling ?_
    · exact called calls call before ran (mem_append_left _ member)
    · exact mem_append_right _ (mem_singleton_self _)

theorem server_history (run : (server config).Run trace s)
    (inv : List (Transition Server ServerEvent) → Replica → List Call → Prop)
    (start : ∀ outOfOrder needResponse needQc, inv [] { Replica.create config with
      transactionExecutor := { outOfOrder := outOfOrder, needResponse := needResponse }
      needQc := needQc } [])
    (shuffled : ∀ past r calls pending complained started, inv past r calls →
      inv past (shuffle r pending complained started) calls)
    (called : ∀ past calls call, inv past call.before calls → Ran call → call ∈ s.calls →
      inv past call.outcome.replica (calls ++ [call]))
    (processed : ∀ past before envs buff after r calls, inv past r calls →
      inv (⟨before, .process envs buff, after⟩ :: past) r calls)
    (thread : ∀ past s event r', inv past s.replica s.calls → Background s.replica event r' →
      ⟨s, event, s.setReplica r'⟩ ∈ trace → inv (⟨s, event, s.setReplica r'⟩ :: past) r' s.calls) :
    inv trace s.replica s.calls := by
  induction run with
  | initial first =>
    obtain ⟨outOfOrder, needResponse, needQc, rfl⟩ := first
    exact start outOfOrder needResponse needQc
  | @next trace s s' event earlier step ih =>
    rcases server_step step with ⟨envs, buff, progress, ret, rfl, ran, rfl⟩ | ⟨r, moved, rfl⟩
    · have before : inv trace s.replica s.calls := ih
        (fun past calls call before ran member => called past calls call before ran (mem_append_left _ member))
        (fun past s event r' before moved member => thread past s event r' before moved (mem_cons_of_mem _ member))
      exact processed _ _ _ _ _ _ _ (walk_invariant (process_walk ran) (shuffled trace)
        (fun calls call before ran member => called trace calls call before ran (mem_append_right _ member)) before)
    · refine thread _ _ _ _ (ih called ?_) moved mem_cons_self
      exact fun past s event r' before moved member => thread past s event r' before moved (mem_cons_of_mem _ member)

theorem server_invariant (run : (server config).Run trace s) (inv : Replica → List Call → Prop)
    (start : ∀ outOfOrder needResponse needQc, inv { Replica.create config with
      transactionExecutor := { outOfOrder := outOfOrder, needResponse := needResponse }
      needQc := needQc } [])
    (shuffled : ∀ r calls pending complained started, inv r calls → inv (shuffle r pending complained started) calls)
    (called : ∀ calls call, inv call.before calls → Ran call → call ∈ s.calls →
      inv call.outcome.replica (calls ++ [call]))
    (thread : ∀ s event r', inv s.replica s.calls → Background s.replica event r' →
      ⟨s, event, s.setReplica r'⟩ ∈ trace → inv r' s.calls) : inv s.replica s.calls :=
  server_history run (fun _ => inv) start (fun _ => shuffled) (fun _ => called)
    (fun _ _ _ _ _ _ _ before => before) (fun _ => thread)

theorem server_config (run : (server config).Run trace s) : s.replica.config = config := by
  refine server_invariant run (fun r _ => r.config = config) ?_ ?_ ?_ ?_
  · exact fun _ _ _ => rfl
  · exact fun _ _ _ _ _ same => same
  · exact fun _ _ same ran _ => (ran_config ran).trans same
  · exact fun _ _ _ same moved _ => moved.threaded.config.trans same

variable {envs : Nat → Env} {p next : Progress} {ret : Int}

structure QueueTypes (r : Replica) : Prop where
  pending : ∀ item ∈ r.requestPending, item.2.type.waitsForView = true
  complaints : ∀ item ∈ complaints r, item.2.type = .newTxns

def Attended (call : Call) : Prop := IsPhase call.request.type → call.before.isInViewChange = false

theorem not_isPhase_of_newTxns (type : request.type = .newTxns) : ¬ IsPhase request.type := by
  rw [type]
  rintro (other | other | other) <;> cases other

theorem waitsForView_of_isPhase (phase : IsPhase request.type) : request.type.waitsForView = true := by
  rcases phase with type | type | type <;> rw [type] <;> rfl

structure KeepsQueues (r : Replica) (context : Context) (request : Request) (r' : Replica) : Prop where
  pending : r'.requestPending = r.requestPending
  complaints : ∀ item ∈ complaints r', item ∈ complaints r ∨ request.type = .newTxns ∧ item = (context, request)

theorem KeepsQueues.of_same (pending : r'.requestPending = r.requestPending)
    (commitment : r'.commitmentComplained = r.commitmentComplained)
    (manager : r'.requestComplained = r.requestComplained) : KeepsQueues r context request r' := by
  refine ⟨pending, fun item member => .inl ?_⟩
  unfold Proof.complaints at member ⊢
  rwa [commitment, manager] at member

theorem handling_queues (handling : Handling r env context request outcome) :
    KeepsQueues r context request outcome.replica := by
  cases handling with
  | idle requeues => exact ⟨rfl, fun _ => requeues.mem⟩
  | _ => exact .of_same rfl rfl rfl

theorem handling_isInViewChange (handling : Handling r env context request outcome)
    (waits : request.type.waitsForView = true) : outcome.replica.isInViewChange = r.isInViewChange := by
  cases handling with
  | viewChanged type => simp [type, RequestType.waitsForView] at waits
  | newView type => simp [type, RequestType.waitsForView] at waits
  | _ => rfl

theorem QueueTypes.kept (types : QueueTypes r) (kept : KeepsQueues r context request r') : QueueTypes r' := by
  constructor
  · rw [kept.pending]
    exact types.pending
  · intro item member
    rcases kept.complaints item member with old | ⟨type, rfl⟩
    · exact types.complaints item old
    · exact type

structure Dispatched (p : Progress) : Prop where
  types : QueueTypes p.replica
  calls : ∀ call ∈ p.calls, Attended call

theorem Dispatched.call (before : Dispatched p) (attended : IsPhase request.type → p.replica.isInViewChange = false)
    (ran : p.call envs context request = .ok (next, ret)) :
    Dispatched next ∧ (request.type.waitsForView = true → next.replica.isInViewChange = p.replica.isInViewChange) := by
  obtain ⟨outcome, handled, rfl⟩ := call_eq ran
  have handling := commit_handling handled
  refine ⟨⟨before.types.kept (handling_queues handling), ?_⟩, handling_isInViewChange handling⟩
  exact forall_mem_snoc.mpr ⟨before.calls, attended⟩

theorem Dispatched.popPending {item : Context × Request} (before : Dispatched p)
    (outside : p.replica.isInViewChange = false) (waits : item.2.type.waitsForView = true)
    (ran : Progress.popPending envs p item = .ok next) :
    Dispatched next ∧ next.replica.isInViewChange = false := by
  obtain ⟨ret, called⟩ := popPending_call ran
  have popped : Dispatched { p with
      replica := { p.replica with requestPending := p.replica.requestPending.tail } } :=
    ⟨⟨fun other member => before.types.pending other (mem_of_mem_tail member), before.types.complaints⟩, before.calls⟩
  obtain ⟨after, same⟩ := popped.call (fun _ => outside) called
  exact ⟨after, (same waits).trans outside⟩

theorem Dispatched.popComplained {item : Context × Request} (before : Dispatched p)
    (client : item.2.type = .newTxns) (ran : Progress.popComplained envs p item = .ok next) : Dispatched next := by
  obtain ⟨ret, called⟩ := popComplained_call ran
  have popped : Dispatched { p with
      replica := { p.replica with requestComplained := p.replica.requestComplained.tail } } := by
    refine ⟨⟨before.types.pending, fun other member => before.types.complaints other ?_⟩, before.calls⟩
    rcases mem_append.mp member with old | moved
    · exact mem_append_left _ old
    · exact mem_append_right _ (mem_of_mem_tail moved)
  exact (popped.call (fun phase => absurd phase (not_isPhase_of_newTxns client)) called).1

theorem consensusCommit_dispatched (types : QueueTypes r) (enabled : r.config.enableViewchange = true)
    (ran : r.consensusCommit envs context request = .ok (next, ret)) : Dispatched next := by
  have started : Dispatched { replica := r.mayStart } := ⟨⟨types.pending, types.complaints⟩, by simp⟩
  cases consensusCommit_dispatches ran with
  | plain disabled => cases disabled.symm.trans enabled
  | waits waits =>
    refine ⟨⟨?_, types.complaints⟩, by simp⟩
    exact forall_mem_snoc.mpr ⟨types.pending, waits⟩
  | @attends drained done _ _ first called last =>
    have before : Dispatched drained ∧ (IsPhase request.type → drained.replica.isInViewChange = false) := by
      rcases first with ⟨-, other, rfl⟩ | ⟨calm, popped⟩
      · exact ⟨started, fun phase => by cases other.symm.trans (waitsForView_of_isPhase phase)⟩
      · have quiet := foldlM_invariant (fun p => Dispatched p ∧ p.replica.isInViewChange = false) popped
          ⟨started, calm⟩ fun _ item _ member before step =>
            before.1.popPending before.2 (types.pending item member) step
        exact ⟨quiet.1, fun _ => quiet.2⟩
    obtain ⟨after, -⟩ := before.1.call before.2 called
    rcases last with rfl | popped
    · exact after
    · refine foldlM_invariant Dispatched popped after fun _ item _ member before step => ?_
      exact before.popComplained (after.types.complaints item (mem_append_right _ member)) step

theorem server_attended {trace : List (Transition Server ServerEvent)} (run : (server config).Run trace s)
    (enabled : config.enableViewchange = true) : ∀ call ∈ s.calls, Attended call := by
  suffices whole : QueueTypes s.replica ∧ ∀ call ∈ s.calls, Attended call from whole.2
  induction run with
  | initial first =>
    obtain ⟨outOfOrder, needResponse, needQc, rfl⟩ := first
    refine ⟨⟨?_, ?_⟩, by simp⟩
    · intro item member
      cases member
    · intro item member
      cases member
  | next earlier step ih =>
    obtain ⟨types, calls⟩ := ih
    rcases server_step step with ⟨envs, buff, progress, ret, rfl, ran, rfl⟩ | ⟨r, moved, rfl⟩
    · rcases process_received ran with ⟨-, rfl⟩ | ⟨receipt, -, -, committed⟩
      · exact ⟨types, by simpa using calls⟩
      · have dispatched := consensusCommit_dispatched types (by rw [server_config earlier]; exact enabled) committed
        refine ⟨dispatched.types, ?_⟩
        exact forall_mem_append.mpr ⟨calls, dispatched.calls⟩
    · have same := moved.threaded
      exact ⟨types.kept (@KeepsQueues.of_same _ _ ⟨{}⟩ {} same.pending same.commitment same.complained), calls⟩

end ResilientDB.Proof
