import ResilientDB.Proof.Calls
import ResilientDB.Proof.Certificates
import ResilientDB.Proof.Timeout

namespace ResilientDB.Proof
open Model Library List Option

variable {config : ResDBConfig} {r r' : Replica} {env : Env} {context : Context} {request : Request}
  {i : Int} {count : Count} {c d : TransactionCollector} {hash buff : String} {callBack : CallBack}
  {result : AddResult} {m : CheckPointManager} {sender seq n view : Nat} {key : Nat ×ₗ String} {s s' : Server}
  {event : ServerEvent} {envs : Nat → Env} {progress : Progress} {ret : Int} {call : Call} {outcome : Outcome}

def RequestType.credited : RequestType → Bool
  | .prepare | .commit | .checkpoint | .viewchange => true
  | _ => false

theorem commit_senders (c : TransactionCollector) : c.commit.1.senders = c.senders := by
  unfold TransactionCollector.commit
  split
  · rfl
  · dsimp only
    split <;> rfl

theorem selectMainRequest_senders (selected : c.selectMainRequest hash = .ok d) : d.senders = c.senders := by
  unfold TransactionCollector.selectMainRequest at selected
  split at selected
  · cases selected
    rfl
  · cases selected
  · split at selected <;> cases selected <;> rfl

def CountsSender (request : Request) (c d : TransactionCollector) : Prop :=
  d.senders = c.senders ∨ (d.senders = (c.setSender request.type request.hash request.senderId).senders ∧
      request.type ≠ .prePrepare ∧ 0 ≤ request.senderId ∧ request.senderId < 128)

theorem countVote_counts {e : TransactionCollector} (type : request.type ≠ .prePrepare)
    (counted : d.countVote request.type request.hash request.senderId = .ok e) (same : d.senders = c.senders) :
    CountsSender request c e := by
  obtain ⟨rfl, least, most⟩ := countVote_ok counted
  refine .inr ⟨?_, type, least, most⟩
  simp only [TransactionCollector.setSender, same]

theorem addPrepare_counts {signature : SignatureInfo} (type : request.type ≠ .prePrepare)
    (ran : c.addPrepare request signature callBack = .ok result) : CountsSender request c result.collector := by
  unfold TransactionCollector.addPrepare at ran
  split at ran
  · cases ran
    exact .inl rfl
  obtain ⟨counted, vote, ran⟩ := bind_eq_ok.mp ran
  have counts := countVote_counts type vote (c := c) rfl
  dsimp only at ran
  split at ran
  · obtain ⟨selected, select, ran⟩ := bind_eq_ok.mp ran
    cases ran
    have kept := selectMainRequest_senders select
    change selected.senders = counted.senders at kept
    unfold CountsSender at counts ⊢
    rw [← kept] at counts
    exact counts
  · cases ran
    exact counts

theorem addVote_counts (type : request.type ≠ .prePrepare) (ran : c.addVote request callBack = .ok result) :
    CountsSender request c result.collector := by
  obtain ⟨counted, changed, status, vote, -, cases⟩ := addVote_cases ran
  have counts : CountsSender request c counted := by
    refine countVote_counts type vote ?_
    unfold TransactionCollector.addCert
    split
    · split <;> rfl
    · rfl
  rcases cases with rfl | rfl
  · unfold CountsSender at counts ⊢
    rw [commit_senders]
    exact counts
  · exact counts

theorem addConsensusMsg_counts {d : Delivery}
    (ran : c.addConsensusMsg config d = .ok result) : CountsSender d.request c result.collector := by
  unfold TransactionCollector.addConsensusMsg at ran
  split at ran
  · by_cases isOpen : Open c d.request
    · rw [addRequest_open isOpen] at ran
      split at ran
      · cases ran
        left
        unfold TransactionCollector.addMainRequest
        dsimp only
        split <;> rfl
      rename_i notMain
      have type : d.request.type ≠ .prePrepare := by simpa using notMain
      split at ran
      · exact addPrepare_counts type ran
      · exact addVote_counts type ran
    · rw [addRequest_closed isOpen] at ran
      cases ran
      exact .inl rfl
  · cases ran
    exact .inl rfl

theorem addCheckPoint_senders {data : CheckPointData}
    (member : n ∈ ((m.addCheckPoint sender data).senderCkpt.find? (toLex (seq, hash))).getD ∅) :
    n ∈ (m.senderCkpt.find? (toLex (seq, hash))).getD ∅ ∨ n = sender := by
  unfold CheckPointManager.addCheckPoint at member
  dsimp only at member
  split at member
  · exact .inl member
  · dsimp only at member
    rw [OrderedMap.find?_assign] at member
    split at member
    · rename_i key
      rw [getD_some, Finset.mem_insert] at member
      rw [key]
      exact member.symm
    · exact .inl member

theorem addRequest_stored {v : ViewChangeManager} {message : ViewChangeMessage}
    (changed : (((v.addRequest message sender).1.viewchangeRequest.find? view).bind fun stored => stored.find? n) ≠
      (v.viewchangeRequest.find? view).bind fun stored => stored.find? n) : n = sender := by
  by_contra other
  apply changed
  simp only [ViewChangeManager.addRequest, OrderedMap.find?_assign]
  split
  · rename_i same
    rw [bind_some, OrderedMap.find?_assign, if_neg other, same]
    cases v.viewchangeRequest.find? message.viewNumber <;> rfl
  · rfl

theorem counted_credits {delivery : Delivery} {type : RequestType} (same : delivery.request = request)
    (counted : (r.collectorPool.getCollector request.seq).addConsensusMsg r.config delivery = .ok result)
    (pool : r'.collectorPool = r.collectorPool.setCollector request.seq result.collector)
    (credits : Credits r r' i (.votes seq type hash)) :
    request.type ≠ .prePrepare ∧ (toUInt32 request.senderId : Int) = i := by
  obtain ⟨after, before⟩ := credits
  have counts := addConsensusMsg_counts counted
  rw [same] at counts
  rw [pool] at after
  rcases getCollector_setCollector_cases r.collectorPool request.seq seq result.collector with
    ⟨here, slot⟩ | elsewhere
  · rw [here] at after
    rw [slot] at before
    rcases counts with none | ⟨one, notMain, least, most⟩
    · rw [none] at after
      exact absurd after before
    · rw [one, mem_setSender] at after
      rcases after with old | ⟨-, -, sender⟩
      · exact absurd old before
      · rw [sender]
        exact ⟨notMain, by unfold toUInt32; omega⟩
  · rw [elsewhere] at after
    exact absurd after before

theorem not_credits (pool : r'.collectorPool = r.collectorPool) (ckpt : senderCkpt r' = senderCkpt r)
    (views : viewchangeRequest r' = viewchangeRequest r) : ¬ Credits r r' i count := by
  cases count with
  | votes seq type hash =>
    rintro ⟨after, before⟩
    exact before (pool ▸ after)
  | checkPoint seq hash =>
    rintro ⟨n, -, after, before⟩
    rw [ckptSenders, ckpt] at after
    exact before after
  | viewChange view =>
    rintro ⟨n, -, stored⟩
    rw [storedView, views] at stored
    exact stored rfl

theorem ViewChanging.viewchangeRequest (changing : ViewChanging r env request outcome) :
    viewchangeRequest outcome.replica = viewchangeRequest r ∨ ∃ message, viewchangeRequest outcome.replica =
      (r.viewChangeManager.addRequest message (toUInt32 request.senderId)).1.viewchangeRequest := by
  cases changing with
  | rejected => exact .inl rfl
  | stored _ _ same =>
    rw [same]
    exact .inr ⟨_, rfl⟩
  | announced _ _ same _ _ answer =>
    rw [(sendNewViewMsg_eq answer).1, same]
    exact .inr ⟨_, rfl⟩
  | @waiting message stored _ _ same =>
    obtain ⟨timers, timed⟩ := selfTimer_eq stored env .newview
    rw [timed, same]
    exact .inr ⟨message, rfl⟩

theorem handling_credits (handling : Handling r env context request outcome)
    (credits : Credits r outcome.replica i count) :
    RequestType.credited request.type = true ∧ (toUInt32 request.senderId : Int) = i := by
  cases handling with
  | added gives =>
    cases count with
    | votes seq type hash =>
      obtain ⟨notMain, sender⟩ := counted_credits rfl gives.counted rfl credits
      refine ⟨?_, sender⟩
      rcases gives.phase with main | vote | vote
      · exact absurd main notMain
      · rw [vote]
        rfl
      · rw [vote]
        rfl
    | checkPoint seq hash =>
      obtain ⟨n, -, after, before⟩ := credits
      exact absurd after before
    | viewChange view =>
      obtain ⟨n, -, stored⟩ := credits
      exact absurd rfl stored
  | checkpointed type _ _ _ added =>
    cases count with
    | votes seq type hash => exact absurd credits.1 credits.2
    | checkPoint seq hash =>
      obtain ⟨n, same, after, before⟩ := credits
      rw [ckptSenders, senderCkpt, ← added] at after
      rcases addCheckPoint_senders after with old | sender
      · exact absurd old before
      · rw [type, ← same, sender]
        exact ⟨rfl, rfl⟩
    | viewChange view =>
      obtain ⟨n, -, stored⟩ := credits
      exact absurd rfl stored
  | viewChanged type changing =>
    rcases changing.viewchangeRequest with same | ⟨message, views⟩
    · exact absurd credits (not_credits rfl rfl same)
    · cases count with
      | votes seq type hash => exact absurd credits.1 credits.2
      | checkPoint seq hash =>
        obtain ⟨n, -, after, before⟩ := credits
        exact absurd after before
      | viewChange view =>
        obtain ⟨n, same, stored⟩ := credits
        rw [storedView, views] at stored
        rw [type, ← same, addRequest_stored stored]
        exact ⟨rfl, rfl⟩
  | _ => exact absurd credits (not_credits rfl rfl rfl)

structure Shrinks (r r' : Replica) : Prop where
  queues : queues r' = queues r
  counts : ∀ i count, InCount r' i count → InCount r i count

theorem Shrinks.of_untouched (same : Untouched r r') : Shrinks r r' :=
  ⟨same.queues, fun _ _ => (inCount_congr same.pool same.senderCkpt same.viewchangeRequest).mp⟩

theorem update_senders (pool : LockFreeCollectorPool) (seq s : Nat) {type : RequestType}
    (member : i ∈ ((pool.update seq).getCollector s).senders type hash) :
    i ∈ (pool.getCollector s).senders type hash := by
  unfold LockFreeCollectorPool.update at member
  dsimp only at member
  split at member
  · exact member
  · unfold LockFreeCollectorPool.getCollector LockFreeCollectorPool.mask at member
    dsimp only at member
    by_cases renewed : s &&& ((pool.capacity <<< 1) - 1) =
        (seq &&& ((pool.capacity <<< 1) - 1)) ^^^ pool.capacity
    · rw [renewed, Function.update_self] at member
      simp at member
    · rw [Function.update_of_ne renewed] at member
      exact member

theorem passNext_shrinks (passed : r.passNext = some r') : Shrinks r r' := by
  unfold Replica.passNext at passed
  split at passed
  · cases passed
  · cases passed
    refine ⟨rfl, ?_⟩
    intro i count member
    cases count with
    | votes seq type hash => exact update_senders r.collectorPool _ seq member
    | checkPoint seq hash => exact member
    | viewChange view => exact member

theorem executeMessage_untouched (r : Replica) (env : Env) : Untouched r (r.executeMessage env).1 := by
  unfold Replica.executeMessage
  split
  · exact .refl r
  · refine ⟨rfl, rfl, ?_, rfl⟩
    simp only [senderCkpt, CheckPointManager.addCommitData]
    split <;> rfl

theorem updateCheckPointStatus_senders (m : CheckPointManager) (env : Env) (config : ResDBConfig) :
    (m.updateCheckPointStatus env config).1.senderCkpt = m.senderCkpt := by
  unfold CheckPointManager.updateCheckPointStatus
  split
  · rfl
  dsimp only
  split
  · rfl
  split <;> rfl

theorem setStable_senders (member : n ∈ ((m.setStable seq hash).senderCkpt.find? key).getD ∅) :
    n ∈ (m.senderCkpt.find? key).getD ∅ := by
  unfold CheckPointManager.setStable at member
  split at member
  · dsimp only at member
    rw [OrderedMap.find?_eraseIf] at member
    split at member
    · simp at member
    · exact member
  · exact member

theorem updateStableCheckPointStatus_senders
    (member : n ∈ ((m.updateStableCheckPointStatus env config).1.senderCkpt.find? key).getD ∅) :
    n ∈ (m.senderCkpt.find? key).getD ∅ := by
  rcases updateStable_eq env config m with same | ⟨visited, handed, seq, hash, loop, same⟩
  · rw [same] at member
    exact member
  · obtain ⟨_, _, _, _, _, frame⟩ := foldl_visitCkpt_visited env config m.senderCkpt.entries (m, [], 0, "")
    rw [loop] at frame
    rw [same] at member
    have inside := setStable_senders member
    dsimp only at frame
    rw [frame] at inside
    exact inside

theorem updateStableCheckPointStatus_shrinks (r : Replica) (env : Env) :
    Shrinks r (r.updateStableCheckPointStatus env).1 := by
  refine ⟨rfl, ?_⟩
  intro i count member
  cases count with
  | votes seq type hash => exact member
  | checkPoint seq hash =>
    obtain ⟨n, same, inside⟩ := member
    exact ⟨n, same, updateStableCheckPointStatus_senders inside⟩
  | viewChange view => exact member

theorem Timed.untouched (timed : Timed r r') : Untouched r r' := by
  obtain ⟨status, counter, timers, last, rfl⟩ := timed
  exact ⟨rfl, rfl, rfl, rfl⟩

theorem monitorCheckpointState_untouched (r : Replica) : Untouched r r.monitorCheckpointState := by
  obtain ⟨signal, timed⟩ := monitorCheckpointState_timed r
  have same := timed.untouched
  exact ⟨same.queues, same.pool, same.senderCkpt, same.viewchangeRequest⟩

inductive Background (r : Replica) : ServerEvent → Replica → Prop
  | takeMessage : Background r .takeMessage r.takeMessage
  | passNext {r' : Replica} : r.passNext = some r' → Background r .passNext r'
  | executeMessage (env : Env) : Background r (.executeMessage env) (r.executeMessage env).1
  | updateRecentHash (time : Nat) : Background r (.updateRecentHash time) (r.updateRecentHash time)
  | updateCheckPointStatus (env : Env) :
      Background r (.updateCheckPointStatus env) (r.updateCheckPointStatus env).1
  | updateStableCheckPointStatus (env : Env) :
      Background r (.updateStableCheckPointStatus env) (r.updateStableCheckPointStatus env).1
  | monitorTimeout (env : Env) {r' : Replica} {sent : List Outgoing} :
      r.monitorTimeout env = .ok (r', sent) → Background r (.monitorTimeout env) r'
  | monitorCheckpointState : Background r .monitorCheckpointState r.monitorCheckpointState

theorem server_step (step : (server config).step s event s') : (∃ envs buff progress ret, event = .process envs buff ∧
      s.replica.process envs buff = .ok (progress, ret) ∧
      s' = { replica := progress.replica, received := s.received ++ (receive (envs 0) buff).toList
             calls := s.calls ++ progress.calls }) ∨
    ∃ r, Background s.replica event r ∧ s' = s.setReplica r := by
  change s.react event = .ok (some s') at step
  cases event with
  | process envs buff =>
    simp only [Server.react] at step
    obtain ⟨⟨progress, ret⟩, ran, step⟩ := bind_eq_ok.mp step
    cases step
    exact .inl ⟨envs, buff, progress, ret, rfl, ran, rfl⟩
  | passNext =>
    simp only [Server.react, Except.ok.injEq, map_eq_some_iff] at step
    obtain ⟨next, passed, rfl⟩ := step
    exact .inr ⟨next, .passNext passed, rfl⟩
  | monitorTimeout env =>
    simp only [Server.react] at step
    obtain ⟨⟨next, sent⟩, ran, step⟩ := bind_eq_ok.mp step
    cases step
    exact .inr ⟨next, .monitorTimeout env ran, rfl⟩
  | takeMessage =>
    cases step
    exact .inr ⟨_, .takeMessage, rfl⟩
  | executeMessage env =>
    cases step
    exact .inr ⟨_, .executeMessage env, rfl⟩
  | updateRecentHash time =>
    cases step
    exact .inr ⟨_, .updateRecentHash time, rfl⟩
  | updateCheckPointStatus env =>
    cases step
    exact .inr ⟨_, .updateCheckPointStatus env, rfl⟩
  | updateStableCheckPointStatus env =>
    cases step
    exact .inr ⟨_, .updateStableCheckPointStatus env, rfl⟩
  | monitorCheckpointState =>
    cases step
    exact .inr ⟨_, .monitorCheckpointState, rfl⟩

theorem process_received (ran : r.process envs buff = .ok (progress, ret)) :
    (receive (envs 0) buff = none ∧ progress = { replica := r }) ∨ ∃ receipt, receive (envs 0) buff = some receipt ∧
        receipt.message.signature.all (receipt.env.verifyMessage receipt.message.data) = true ∧
        r.consensusCommit envs receipt.context receipt.request = .ok (progress, ret) := by
  unfold Replica.process at ran
  unfold receive
  cases parsed : (envs 0).codec.parseMessage buff with
  | none =>
    simp only [parsed] at ran
    cases ran
    exact .inl ⟨rfl, rfl⟩
  | some message =>
    simp only [parsed] at ran
    dsimp only
    cases read : (envs 0).codec.parseRequest message.data with
    | none =>
      simp only [read] at ran
      cases ran
      exact .inl ⟨rfl, rfl⟩
    | some request =>
      simp only [read] at ran
      dsimp only
      split at ran
      · rename_i heartBeat
        cases ran
        rw [if_pos heartBeat]
        exact .inl ⟨rfl, rfl⟩
      rename_i ordinary
      rw [if_neg ordinary]
      cases signature : message.signature with
      | none =>
        simp only [signature] at ran
        rw [if_neg (by simp)]
        refine .inr ⟨_, rfl, by simp [signature], ?_⟩
        simpa [Receipt.context, signature] using ran
      | some signed =>
        simp only [signature] at ran
        split at ran
        · rename_i forged
          cases ran
          rw [if_pos (by simpa using forged)]
          exact .inl ⟨rfl, rfl⟩
        · rename_i verified
          have passed : (envs 0).verifyMessage message.data signed = true := by simpa using verified
          rw [if_neg (by simp [passed])]
          refine .inr ⟨_, rfl, by simp [signature, passed], ?_⟩
          simpa [Receipt.context, signature] using ran

structure Accounted (s : Server) : Prop where
  waiting : ∀ item ∈ queues s.replica, ∃ receipt ∈ s.received, receipt.item = item
  ran : ∀ call ∈ s.calls, Ran call
  calls : ∀ call ∈ s.calls, ∃ receipt ∈ s.received, receipt.item = (call.context, call.request)
  counted : ∀ i count, InCount s.replica i count → ∃ call ∈ s.calls, Credits call.before call.outcome.replica i count
  passed : ∀ receipt ∈ s.received, receipt.message.signature.all (receipt.env.verifyMessage receipt.message.data) = true

theorem Accounted.shrinks (accounted : Accounted s) (less : Shrinks s.replica r) : Accounted (s.setReplica r) := by
  constructor
  · intro item member
    exact accounted.waiting item (less.queues ▸ member)
  · exact accounted.ran
  · exact accounted.calls
  · intro i count member
    exact accounted.counted i count (less.counts i count member)
  · exact accounted.passed

theorem Accounted.process (accounted : Accounted s) (ran : s.replica.process envs buff = .ok (progress, ret)) :
    Accounted {
      replica := progress.replica
      received := s.received ++ (receive (envs 0) buff).toList
      calls := s.calls ++ progress.calls } := by
  rcases process_received ran with ⟨nothing, rfl⟩ | ⟨receipt, received, verified, committed⟩
  · rw [nothing, toList_none, append_nil, append_nil]
    exact accounted
  rw [received, toList_some]
  have traced : Traced (fun item => ∃ known ∈ s.received ++ [receipt], known.item = item) s.replica progress := by
    refine consensusCommit_traced ?_ ?_ committed
    · intro item member
      obtain ⟨known, old, same⟩ := accounted.waiting item member
      exact ⟨known, mem_append_left _ old, same⟩
    · exact ⟨receipt, mem_append_right _ (mem_singleton_self _), rfl⟩
  constructor
  · exact traced.waiting
  · exact forall_mem_append.mpr ⟨accounted.ran, traced.ran⟩
  · intro call member
    rcases mem_append.mp member with old | new
    · obtain ⟨known, inside, same⟩ := accounted.calls call old
      exact ⟨known, mem_append_left _ inside, same⟩
    · exact traced.calls call new
  · intro i count member
    rcases traced.counted i count member with before | ⟨call, new, credits⟩
    · obtain ⟨call, old, credits⟩ := accounted.counted i count before
      exact ⟨call, mem_append_left _ old, credits⟩
    · exact ⟨call, mem_append_right _ new, credits⟩
  · exact forall_mem_snoc.mpr ⟨accounted.passed, verified⟩

theorem Background.shrinks (moved : Background r event r') : Shrinks r r' := by
  cases moved with
  | passNext passed => exact passNext_shrinks passed
  | executeMessage env => exact .of_untouched (executeMessage_untouched _ _)
  | updateCheckPointStatus env => exact .of_untouched ⟨rfl, rfl, updateCheckPointStatus_senders _ _ _, rfl⟩
  | updateStableCheckPointStatus env => exact updateStableCheckPointStatus_shrinks _ _
  | monitorTimeout env ran => exact .of_untouched (monitorTimeout_timed ran).untouched
  | monitorCheckpointState => exact .of_untouched (monitorCheckpointState_untouched _)
  | _ => exact .of_untouched ⟨rfl, rfl, rfl, rfl⟩

theorem accounted_step (accounted : Accounted s) (step : (server config).step s event s') : Accounted s' := by
  rcases server_step step with ⟨envs, buff, progress, ret, -, ran, rfl⟩ | ⟨after, moved, rfl⟩
  · exact accounted.process ran
  · exact accounted.shrinks moved.shrinks

theorem accounted_initial (first : (server config).initial s) : Accounted s := by
  obtain ⟨outOfOrder, needResponse, needQc, rfl⟩ := first
  constructor
  · intro item member
    simp [queues, Replica.create] at member
  · simp
  · simp
  · intro i count member
    cases count with
    | votes seq type hash =>
      simp [InCount, Replica.create, LockFreeCollectorPool.create, LockFreeCollectorPool.getCollector] at member
    | checkPoint seq hash =>
      obtain ⟨n, -, inside⟩ := member
      simp [ckptSenders, senderCkpt, Replica.create, CheckPointManager.create] at inside
    | viewChange view =>
      obtain ⟨n, -, inside⟩ := member
      simp [storedView, viewchangeRequest, Replica.create] at inside
  · simp

def NamesSigner (receipt : Receipt) : Prop :=
  ∃ signature ∈ receipt.message.signature, signature.nodeId = toUInt32 receipt.request.senderId
deriving Decidable

def Signs : ServerEvent → Prop
  | .process envs buff => ∀ receipt ∈ receive (envs 0) buff,
      RequestType.credited receipt.request.type = true → NamesSigner receipt
  | _ => True

instance (event : ServerEvent) : Decidable (Signs event) :=
  match event with
  | .process envs buff => inferInstanceAs (Decidable (∀ receipt ∈ receive (envs 0) buff, _))
  | .takeMessage | .passNext | .executeMessage _ | .updateRecentHash _ | .updateCheckPointStatus _
  | .updateStableCheckPointStatus _ | .monitorTimeout _ | .monitorCheckpointState =>
    inferInstanceAs (Decidable True)

theorem signed_received {trace : List (Transition Server ServerEvent)}
    (run : (server config).Run trace s) (signed : ∀ t ∈ trace, Signs t.event) :
    ∀ receipt ∈ s.received, RequestType.credited receipt.request.type = true → NamesSigner receipt := by
  refine run.invariant (fun t => Signs t.event) (fun s => ∀ receipt ∈ s.received,
    RequestType.credited receipt.request.type = true → NamesSigner receipt) ?_ ?_ signed
  · rintro s ⟨outOfOrder, needResponse, needQc, rfl⟩
    simp
  · intro s event s' before step signs
    rcases server_step step with ⟨envs, buff, progress, ret, rfl, -, rfl⟩ | ⟨after, -, rfl⟩
    · intro receipt member
      rcases mem_append.mp member with old | new
      · exact before receipt old
      · exact signs receipt (mem_toList.mp new)
    · exact before

theorem verifiedFrom_of_credits {receipt : Receipt} (accounted : Accounted s)
    (names : RequestType.credited receipt.request.type = true → NamesSigner receipt)
    (made : call ∈ s.calls) (received : receipt ∈ s.received)
    (same : receipt.item = (call.context, call.request))
    (credits : Credits call.before call.outcome.replica i count) : receipt.VerifiedFrom i := by
  obtain ⟨type, sender⟩ := handling_credits (commit_handling (accounted.ran call made)) credits
  have request : receipt.request = call.request := congrArg Prod.snd same
  rw [request] at names
  obtain ⟨signature, present, names⟩ := names type
  have passed := accounted.passed receipt received
  rw [mem_def.mp present] at passed
  refine ⟨signature, present, ?_, by simpa using passed⟩
  rw [names, request, sender]

theorem votes_authenticated {trace : List (Transition Server ServerEvent)} {s : Server}
    (run : (server config).Run trace s) (signed : ∀ t ∈ trace, Signs t.event) :
    (∀ call ∈ s.calls, ∀ i count, Credits call.before call.outcome.replica i count →
      ∃ receipt ∈ s.received, receipt.item = (call.context, call.request) ∧ receipt.VerifiedFrom i) ∧
    (∀ i count, InCount s.replica i count → ∃ call ∈ s.calls, Credits call.before call.outcome.replica i count) ∧
    ∀ (made : Receipt → Prop) (byzantine : Finset Int),
      (∀ receipt ∈ s.received, made receipt → ∀ i, receipt.VerifiedFrom i → i ∈ byzantine) →
      ∀ count (contributed : Finset Int),
        (∀ i ∈ contributed, ∃ call ∈ s.calls, Credits call.before call.outcome.replica i count ∧
          ∃ receipt ∈ s.received, made receipt ∧ receipt.item = (call.context, call.request)) →
        contributed.card ≤ byzantine.card := by
  have accounted : Accounted s := by
    refine run.invariant (fun _ => True) Accounted ?_ ?_ (fun _ _ => trivial)
    · intro s first
      exact accounted_initial first
    · intro s event s' before step _
      exact accounted_step before step
  have names := signed_received run signed
  refine ⟨?_, accounted.counted, ?_⟩
  · intro call made i count credits
    obtain ⟨receipt, received, same⟩ := accounted.calls call made
    exact ⟨receipt, received, same,
      verifiedFrom_of_credits accounted (names receipt received) made received same credits⟩
  · intro made byzantine unforgeable count contributed origin
    apply Finset.card_le_card
    intro i member
    obtain ⟨call, called, credits, receipt, received, forged, same⟩ := origin i member
    exact unforgeable receipt received forged i
      (verifiedFrom_of_credits accounted (names receipt received) called received same credits)

def voteEnv (signer : Int) : Env where
  codec :=
    { plainEnv.codec with
      parseMessage := fun buff =>
        some ⟨buff, if buff = "prepare" then some ⟨signer, "signature"⟩ else none⟩
      parseRequest := fun data =>
        if data = "prepare" then some { type := .prepare, seq := 1, currentView := 1, hash := "a", senderId := 2 }
        else if data = "checkpoint" then some { type := .checkpoint, senderId := 3 }
        else some { type := .viewchange, senderId := 4 }
      parseCheckPointData := fun _ => some { seq := 5, hash := "h", hashSignature := ⟨signer, "signature"⟩ }
      parseViewChange := fun _ => some { viewNumber := 2 } }
  verifyMessage := fun _ signature => decide (signature = ⟨signer, "signature"⟩)
  signMessage := fun _ => none

def voteFrom (signer : Int) (buff : String) : ServerEvent := .process (fun _ => voteEnv signer) buff

instance decidableExistsCast (i : Int) (good : Nat → Prop) [DecidablePred good] :
    Decidable (∃ n : Nat, (n : Int) = i ∧ good n) :=
  match i with
  | .ofNat n => decidable_of_iff (good n) (by simp)
  | .negSucc n => isFalse nofun

instance (r r' : Replica) (i : Int) (count : Count) : Decidable (Credits r r' i count) :=
  match count with
  | .votes _ _ _ => inferInstanceAs (Decidable (_ ∧ _))
  | .checkPoint _ _ | .viewChange _ => inferInstanceAs (Decidable (∃ n : Nat, (n : Int) = i ∧ _))

theorem serverAct_sound (config : ResDBConfig) (s : Server) (event : ServerEvent) (s' : Server)
    (acted : serverAct s event = some s') : (server config).step s event s' := by
  unfold serverAct at acted
  split at acted
  · rename_i next reacted
    rw [acted] at reacted
    exact reacted
  · cases acted

theorem startServer_initial (config : ResDBConfig) : (server config).initial { replica := Replica.create config } :=
  ⟨false, true, false, rfl⟩

theorem exists_server_run (config : ResDBConfig) (events : List ServerEvent)
    (goal : List (Transition Server ServerEvent) → Server → Prop) [∀ trace s, Decidable (goal trace s)]
    (checked : ((System.play serverAct ([], { replica := Replica.create config }) events).any fun p =>
      decide (goal p.1 p.2)) = true) : ∃ trace s, (server config).Run trace s ∧ goal trace s :=
  System.run_of_play (serverAct_sound config) (startServer_initial config) events goal checked

theorem signedVote_authenticated : ∃ trace s, (server fourReplicas).Run trace s ∧
    ∃ call ∈ s.calls, Credits call.before call.outcome.replica 2 (.votes 1 .prepare "a") ∧
      ∃ receipt ∈ s.received, receipt.VerifiedFrom 2 := by
  obtain ⟨trace, s, run, signed, call, made, credits⟩ := exists_server_run fourReplicas [voteFrom 2 "prepare"]
    (fun trace s => (∀ t ∈ trace, Signs t.event) ∧
      ∃ call ∈ s.calls, Credits call.before call.outcome.replica 2 (.votes 1 .prepare "a")) (by decide)
  obtain ⟨receipt, received, -, verified⟩ := (votes_authenticated run signed).1 call made 2 _ credits
  exact ⟨trace, s, run, call, made, credits, receipt, received, verified⟩

theorem forgedVotes_counted : ∃ trace s, (server fourReplicas).Run trace s ∧
    (∀ receipt ∈ s.received, ∀ i, receipt.VerifiedFrom i → i = 1) ∧
    (∃ call ∈ s.calls, Credits call.before call.outcome.replica 2 (.votes 1 .prepare "a")) ∧
    (∃ call ∈ s.calls, Credits call.before call.outcome.replica 3 (.checkPoint 5 "h")) ∧
    (∃ call ∈ s.calls, Credits call.before call.outcome.replica 4 (.viewChange 2)) := by
  obtain ⟨trace, s, run, signer, credited⟩ := exists_server_run fourReplicas
    [voteFrom 1 "prepare", voteFrom 1 "checkpoint", voteFrom 1 "viewchange"]
    (fun _ s => (∀ receipt ∈ s.received, ∀ signature ∈ receipt.message.signature, signature.nodeId = 1) ∧
      (∃ call ∈ s.calls, Credits call.before call.outcome.replica 2 (.votes 1 .prepare "a")) ∧
      (∃ call ∈ s.calls, Credits call.before call.outcome.replica 3 (.checkPoint 5 "h")) ∧
      ∃ call ∈ s.calls, Credits call.before call.outcome.replica 4 (.viewChange 2)) (by decide)
  refine ⟨trace, s, run, ?_, credited⟩
  rintro receipt received i ⟨signature, present, rfl, -⟩
  exact signer receipt received signature present

end ResilientDB.Proof
