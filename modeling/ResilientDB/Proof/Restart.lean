import ResilientDB.Model.Restart
import ResilientDB.Proof.LiveWindow
import ResilientDB.Proof.Reorder

namespace ResilientDB.Proof
open Model Library List

variable {config : ResDBConfig} {r r' : Replica} {env : Env} {signature : SignatureInfo} {request : Request}
  {outcome : Outcome}

inductive TakesBack (r : Replica) (env : Env) (signature : SignatureInfo) (request : Request) : Replica → Prop
  | skipped : request.type = .prePrepare → env.faulty = true ∨ (r.nextSeq ≠ 0 ∧ request.seq ≠ r.nextSeq) →
      TakesBack r env signature request r
  | added {result : AddResult} {times : Nat → Nat} :
      (request.type = .prePrepare → r.nextSeq = 0 ∨ request.seq = r.nextSeq) →
      (r.collectorPool.getCollector request.seq).addConsensusMsg r.config
        (deliveryOf r env signature request) = .ok result →
      TakesBack r env signature request { r with
        collectorPool := r.collectorPool.setCollector request.seq result.collector
        transactionExecutor := (r.commitMessage result.committed).transactionExecutor
        nextSeq := if request.type = .prePrepare then addUInt64 request.seq 1 else r.nextSeq
        lastCommittedTime := times }

theorem internalConsensusCommit_takesBack (phase : IsPhase request.type) (signed : signature.signature ≠ "")
    (recovery : request.isRecovery = true)
    (ran : r.internalConsensusCommit env ⟨signature⟩ request = .ok outcome) :
    TakesBack r env signature request outcome.replica := by
  have call := @internalConsensusCommit_phase r env request ⟨signature⟩ phase
  rw [ran] at call
  cases call with
  | refused refuses _ called =>
    obtain ⟨type, skips⟩ := refuses.resolve_left signed
    cases called
    exact .skipped type (skips recovery)
  | @counted duplicates nextSeq admits called =>
    obtain ⟨added, counted, done⟩ := bind_eq_ok.mp called.symm
    obtain ⟨result, adds⟩ := addConsensusMsg_added counted
    obtain ⟨times, same⟩ := adds.replica
    have after : outcome.replica = added.replica := by
      rw [← Except.ok.inj done, answerOf_closes added |>.replica, if_neg (by simp [recovery])]
    have executor : (Replica.commitMessage { r with duplicateManager := duplicates, nextSeq := nextSeq }
        result.committed).transactionExecutor = (r.commitMessage result.committed).transactionExecutor := by
      cases result.committed <;> rfl
    have kept : duplicates = r.duplicateManager :=
      admits.recorded.resolve_right fun recorded => by
        cases recovery.symm.trans recorded.vetted.fresh
    rw [after, same, executor, admits.next, kept]
    simp only [recovery, and_true]
    exact .added (fun proposal => (admits.replayed proposal recovery).2) adds.counted

theorem addConsensusMsg_replica_total (running : (r.collectorPool.getCollector request.seq).status ≠ .readyExecute)
    (unmoved : Unmoved (r.collectorPool.getCollector request.seq)) (phase : IsPhase request.type)
    (least : 0 ≤ request.senderId) (most : request.senderId < 128) :
    ∃ added, r.addConsensusMsg env signature request = .ok added := by
  obtain ⟨result, counted⟩ := @addConsensusMsg_total r.config _ (deliveryOf r env signature request) running unmoved
    phase fun _ => ⟨least, most⟩
  unfold Replica.addConsensusMsg
  change ∃ added, (TransactionCollector.addConsensusMsg r.config _ (deliveryOf r env signature request) >>= _) = _
  rw [counted]
  exact ⟨_, rfl⟩

theorem internalConsensusCommit_total (phase : IsPhase request.type)
    (running : (r.collectorPool.getCollector request.seq).status ≠ .readyExecute)
    (unmoved : Unmoved (r.collectorPool.getCollector request.seq))
    (least : 0 ≤ request.senderId) (most : request.senderId < 128) :
    ∃ outcome, r.internalConsensusCommit env ⟨signature⟩ request = .ok outcome := by
  cases @internalConsensusCommit_phase r env request ⟨signature⟩ phase with
  | refused _ _ called => exact ⟨_, called⟩
  | @counted duplicates nextSeq _ called =>
    obtain ⟨added, counted⟩ := @addConsensusMsg_replica_total { r with duplicateManager := duplicates, nextSeq :=
        nextSeq } env signature request running unmoved phase least most
    exact ⟨_, called.trans (bind_eq_ok.mpr ⟨added, counted, rfl⟩)⟩

variable {good : Request → Prop} {wanted : Nat → Prop} {received handed : List Request} {e e' : TransactionExecutor}

structure Fed (good : Request → Prop) (wanted : Nat → Prop) (received handed : List Request)
    (e : TransactionExecutor) : Prop where
  buffered : Buffered received handed e
  good : ∀ message ∈ received ++ e.commitQueue, good message
  wanted : ∀ n, wanted n → ∃ message ∈ received ++ e.commitQueue, message.seq = n

theorem Buffered.congr (buffered : Buffered received handed e) (next : e'.nextExecuteSeq = e.nextExecuteSeq)
    (candidates : e'.candidates = e.candidates) : Buffered received handed e' := by
  refine ⟨next.trans buffered.next, buffered.order, ?_⟩
  rw [next, candidates]
  exact buffered.waiting

theorem Fed.congr (fed : Fed good wanted received handed e) (next : e'.nextExecuteSeq = e.nextExecuteSeq)
    (candidates : e'.candidates = e.candidates) (queue : e'.commitQueue = e.commitQueue) :
    Fed good wanted received handed e' := by
  refine ⟨fed.buffered.congr next candidates, ?_, ?_⟩
  · rw [queue]
    exact fed.good
  · rw [queue]
    exact fed.wanted

theorem Fed.imp {better : Request → Prop} {fewer : Nat → Prop} (fed : Fed good wanted received handed e)
    (stronger : ∀ message, good message → better message) (weaker : ∀ n, fewer n → wanted n) :
    Fed better fewer received handed e :=
  ⟨fed.buffered, fun message member => stronger message (fed.good message member),
    fun n listed => fed.wanted n (weaker n listed)⟩

theorem Fed.commitMessage {message : Option Request} (fed : Fed good wanted received handed r.transactionExecutor)
    (fits : ∀ request ∈ message, good request) {more : Nat → Prop}
    (adds : ∀ n, more n → wanted n ∨ ∃ request ∈ message, request.seq = n) :
    Fed good more received handed (r.commitMessage message).transactionExecutor := by
  cases message with
  | none => exact fed.imp (fun _ holds => holds) fun n listed => (adds n listed).resolve_right (by simp)
  | some request =>
    have commits := commit_commits r.transactionExecutor request
    refine ⟨fed.buffered.congr commits.next commits.candidates, ?_, fun n listed => ?_⟩
    · change ∀ message ∈ received ++ (r.transactionExecutor.commit request).commitQueue, good message
      rw [commits.commitQueue, ← append_assoc]
      intro message member
      rcases mem_append.mp member with old | new
      · exact fed.good message old
      · exact fits message (Option.mem_some.mpr (mem_singleton.mp new).symm)
    · change ∃ message ∈ received ++ (r.transactionExecutor.commit request).commitQueue, message.seq = n
      rw [commits.commitQueue, ← append_assoc]
      rcases adds n listed with old | ⟨message, new, same⟩
      · obtain ⟨message, member, same⟩ := fed.wanted n old
        exact ⟨message, mem_append_left _ member, same⟩
      · exact ⟨message, mem_append_right _ (mem_singleton.mpr (Option.mem_some.mp new).symm), same⟩

theorem Fed.takeMessage (fed : Fed good wanted received handed e) :
    ∃ received', Fed good wanted received' handed e.takeMessage := by
  cases queue : e.commitQueue with
  | nil =>
    refine ⟨received, ?_⟩
    have same : e.takeMessage = e := by
      unfold TransactionExecutor.takeMessage
      rw [queue]
    rwa [same]
  | cons message rest =>
    have rested := takeMessage_commitQueue e
    have all : received ++ e.commitQueue = (received ++ [message]) ++ e.takeMessage.commitQueue := by
      rw [rested, queue]
      simp
    refine ⟨received ++ [message], fed.buffered.takeMessage queue, ?_, ?_⟩
    · rw [← all]
      exact fed.good
    · rw [← all]
      exact fed.wanted

theorem Fed.passNext (fed : Fed good wanted received handed e) (passed : e.passNext = some e') :
    Fed good wanted received (handed ++ e'.executeQueue.drop e.executeQueue.length) e' := by
  obtain ⟨message, buffered, pushed⟩ := fed.buffered.passNext passed
  obtain ⟨_, passes⟩ := passNext_passes passed
  rw [pushed, drop_left]
  refine ⟨buffered, ?_, ?_⟩
  · rw [passes.commitQueue]
    exact fed.good
  · rw [passes.commitQueue]
    exact fed.wanted

theorem Fed.background {event : ServerEvent} (moved : Background r event r') (runs : event.inConstructor = true)
    (idle : r.checkpointManager.newData = 0) (fed : Fed good wanted received handed r.transactionExecutor) :
    ∃ received', Fed good wanted received'
      (handed ++ r'.transactionExecutor.executeQueue.drop r.transactionExecutor.executeQueue.length)
      r'.transactionExecutor := by
  have still (same : r'.transactionExecutor = r.transactionExecutor) : ∃ received', Fed good wanted received'
      (handed ++ r'.transactionExecutor.executeQueue.drop r.transactionExecutor.executeQueue.length)
      r'.transactionExecutor := by
    rw [same, drop_length, append_nil]
    exact ⟨received, fed⟩
  cases moved with
  | takeMessage =>
    obtain ⟨received', taken⟩ := fed.takeMessage
    have pushes := (takeMessage_pushes r.transactionExecutor).executeQueue
    refine ⟨received', ?_⟩
    change Fed good wanted received' (handed ++ r.transactionExecutor.takeMessage.executeQueue.drop _) _
    rw [pushes, drop_left, append_nil]
    exact taken
  | passNext passed =>
    obtain ⟨executor, advanced, rfl⟩ := passNext_eq passed
    exact ⟨received, fed.passNext advanced⟩
  | executeMessage env =>
    unfold Replica.executeMessage
    split
    · rw [drop_length, append_nil]
      exact ⟨received, fed⟩
    · rename_i request rest queue
      dsimp only
      rw [queue, drop_eq_nil_of_le (by simp), append_nil]
      exact ⟨received, fed.congr rfl rfl rfl⟩
  | updateStableCheckPointStatus env => exact still (by rw [updateStable_idle idle])
  | monitorTimeout env ran => cases runs
  | monitorCheckpointState => cases runs
  | _ => exact still rfl

variable {logs : ReplayedLogs} {past : List LogEntry} {s s' : Restart} {event : RestartEvent} {turn : ServerEvent}
  {entry : LogEntry} {rest : List LogEntry}

def recordedView (logs : ReplayedLogs) : Nat :=
  match logs.info with
  | some info => toUInt64 info.view
  | none => 1

structure Restarted (config : ResDBConfig) (logs : ReplayedLogs) (past : List LogEntry) (s : Restart) : Prop where
  log : past ++ s.rest = logs.entries
  pooled : Pooled config s.replica
  unmoved : ∀ n, Unmoved (s.replica.collectorPool.getCollector n)
  idle : s.replica.checkpointManager.newData = 0
  view : s.replica.getCurrentView = recordedView logs

structure Replayable (entry : LogEntry) : Prop where
  recovery : entry.request.isRecovery = true
  signed : entry.signature.signature ≠ ""
  phase : IsPhase entry.request.type
  least : 0 ≤ entry.request.senderId
  most : entry.request.senderId < 128

theorem Restarted.member (restarted : Restarted config logs past s) (unread : s.rest = entry :: rest) :
    entry ∈ logs.entries := by
  rw [← restarted.log, unread]
  simp

theorem restart_step (step : (restarting config logs).step s event s') :
    (∃ env entry outcome, event = .replay env ∧ s.rest = entry :: s'.rest ∧ s'.handed = s.handed ∧
      s.replica.internalConsensusCommit env ⟨entry.signature⟩ entry.request = .ok outcome ∧
      s'.replica = outcome.replica) ∨
    ∃ thread, event = .thread thread ∧ thread.inConstructor = true ∧ Background s.replica thread s'.replica ∧
      s'.rest = s.rest ∧ s'.handed = s.handed ++ s'.replica.transactionExecutor.executeQueue.drop
        s.replica.transactionExecutor.executeQueue.length := by
  change s.act event = .ok (some s') at step
  cases event with
  | replay env =>
    simp only [Restart.act, Restart.replay] at step
    split at step
    · cases step
    · rename_i entry rest queue
      obtain ⟨outcome, ran, step⟩ := bind_eq_ok.mp step
      cases step
      exact .inl ⟨env, entry, outcome, rfl, queue, rfl, ran, rfl⟩
  | thread thread =>
    simp only [Restart.act, Restart.moveThread] at step
    split at step
    · rename_i runs
      obtain ⟨moved, reacts, step⟩ := bind_eq_ok.mp step
      simp only [Except.ok.injEq, Option.map_eq_some_iff] at step
      obtain ⟨server, rfl, rfl⟩ := step
      have took : (Model.server config).step { replica := s.replica } thread server := reacts
      rcases server_step took with ⟨_, _, _, _, rfl, -, -⟩ | ⟨next, background, rfl⟩
      · cases runs
      · exact .inr ⟨thread, rfl, runs, background, rfl, rfl⟩
    · cases step

theorem TakesBack.unmoved (takes : TakesBack r env signature request r')
    (running : ∀ n, (r.collectorPool.getCollector n).status ≠ .readyExecute)
    (unmoved : ∀ n, Unmoved (r.collectorPool.getCollector n)) (n : Nat) :
    Unmoved (r'.collectorPool.getCollector n) := by
  cases takes with
  | skipped => exact unmoved n
  | @added result _ _ counted =>
    rcases getCollector_setCollector_cases r.collectorPool request.seq n result.collector with ⟨new, -⟩ | old
    · dsimp only
      rw [new]
      rcases addConsensusMsg_spec (running request.seq) counted with refused | ⟨-, added⟩
      · rw [refused]
        exact unmoved request.seq
      · exact added.unmoved (unmoved request.seq)
    · dsimp only
      rw [old]
      exact unmoved n

theorem TakesBack.frame (takes : TakesBack r env signature request r') :
    r'.systemInfo = r.systemInfo ∧ r'.checkpointManager = r.checkpointManager := by
  cases takes with
  | skipped => exact ⟨rfl, rfl⟩
  | added => exact ⟨rfl, rfl⟩

theorem Restarted.replayed (restarted : Restarted config logs past s) (replayable : Replayable entry)
    (next : s.rest = entry :: s'.rest)
    (ran : s.replica.internalConsensusCommit env ⟨entry.signature⟩ entry.request = .ok outcome)
    (after : s'.replica = outcome.replica) : Restarted config logs (past ++ [entry]) s' := by
  have takes := internalConsensusCommit_takesBack replayable.phase replayable.signed replayable.recovery ran
  rw [← after] at takes
  obtain ⟨info, manager⟩ := takes.frame
  constructor
  · rw [← restarted.log, next]
    simp
  · rw [after]
    exact restarted.pooled.handled (commit_handling ran)
  · exact takes.unmoved restarted.pooled.running restarted.unmoved
  · rw [manager]
    exact restarted.idle
  · exact (congrArg SystemInfo.view info).trans restarted.view

theorem Background.idle (moved : Background r turn r') (idle : r.checkpointManager.newData = 0) :
    r'.checkpointManager.newData = 0 := by
  rcases moved.checkpoints with ⟨env, -, rfl⟩ | ⟨data, hash, seq, db, ckpt, signal, same, -⟩
  · rw [updateStable_idle idle]
    exact idle
  · rw [same]
    exact idle

theorem Restarted.thread (restarted : Restarted config logs past s) (moved : Background s.replica turn s'.replica)
    (same : s'.rest = s.rest) : Restarted config logs past s' := by
  refine ⟨same ▸ restarted.log, restarted.pooled.thread moved, fun n => ?_, moved.idle restarted.idle, ?_⟩
  · rcases moved.collectors with ⟨-, renews⟩ | ⟨pool, -⟩
    · rcases renews.collector restarted.pooled n with old | ⟨new, -⟩
      · rw [old]
        exact restarted.unmoved n
      · rw [new]
        exact fun moved => by cases moved
    · rw [pool]
      exact restarted.unmoved n
  · exact moved.threaded.view.trans restarted.view

theorem restarted_initial (first : (restarting config logs).initial s) : Restarted config logs [] s ∧
    s.handed = [] ∧ s.replica.nextSeq = 1 ∧
    (∃ outOfOrder needResponse, s.replica.transactionExecutor =
      { outOfOrder := outOfOrder, needResponse := needResponse }) ∧
    s.replica.collectorPool = .create config.maxProcessTxn config.enableViewchange := by
  obtain ⟨outOfOrder, needResponse, rfl⟩ := first
  have pooled := Pooled.start config outOfOrder needResponse false
  unfold ReplayedLogs.restore
  cases info : logs.info with
  | none =>
    refine ⟨⟨rfl, pooled, (fun n moved => by cases moved), rfl, ?_⟩, rfl, rfl, ⟨_, _, rfl⟩, rfl⟩
    unfold recordedView
    rw [info]
    rfl
  | some data =>
    refine ⟨⟨rfl, pooled.congr rfl rfl rfl, (fun n moved => by cases moved), rfl, ?_⟩, rfl, rfl, ⟨_, _, rfl⟩, rfl⟩
    unfold recordedView
    rw [info]
    rfl

theorem restart_invariant {trace : List (Transition Restart RestartEvent)} (run : (restarting config logs).Run trace s)
    (replayable : ∀ entry ∈ logs.entries, Replayable entry) (inv : List LogEntry → Restart → Prop)
    (allowed : Transition Restart RestartEvent → Prop)
    (start : ∀ s, (restarting config logs).initial s → inv [] s)
    (replayed : ∀ past s s' env entry, inv past s → Restarted config logs past s → s.rest = entry :: s'.rest →
      s'.handed = s.handed → TakesBack s.replica env entry.signature entry.request s'.replica →
      allowed ⟨s, .replay env, s'⟩ → inv (past ++ [entry]) s')
    (moves : ∀ past s s' thread, inv past s → Restarted config logs past s → thread.inConstructor = true →
      Background s.replica thread s'.replica → s'.rest = s.rest →
      s'.handed = s.handed ++ s'.replica.transactionExecutor.executeQueue.drop
        s.replica.transactionExecutor.executeQueue.length → inv past s')
    (meets : ∀ t ∈ trace, allowed t) : ∃ past, Restarted config logs past s ∧ inv past s := by
  refine run.invariant allowed (fun s => ∃ past, Restarted config logs past s ∧ inv past s) ?_ ?_ meets
  · exact fun s first => ⟨[], (restarted_initial first).1, start s first⟩
  · rintro s event s' ⟨past, restarted, holds⟩ step ok
    rcases restart_step step with ⟨env, entry, outcome, rfl, next, handed, ran, after⟩ |
      ⟨thread, rfl, runs, moved, same, handed⟩
    · have here := replayable entry (restarted.member next)
      have takes := internalConsensusCommit_takesBack here.phase here.signed here.recovery ran
      rw [← after] at takes
      exact ⟨past ++ [entry], restarted.replayed here next ran after,
        replayed past s s' env entry holds restarted next handed takes ok⟩
    · exact ⟨past, restarted.thread moved same, moves past s s' thread holds restarted runs moved same handed⟩

def Finished (s : Restart) : Prop :=
  s.rest = [] ∧ s.replica.transactionExecutor.commitQueue = [] ∧ s.replica.transactionExecutor.passNext = none

theorem Restarted.all (restarted : Restarted config logs past s) (finished : Finished s) : past = logs.entries := by
  rw [← restarted.log, finished.1, append_nil]

def Reads (env : Env) (t : Transition Restart RestartEvent) : Prop := ∀ other, t.event = .replay other → env = other

section Finish

variable {trace : List (Transition Restart RestartEvent)} (run : (restarting config logs).Run trace s)
include run

theorem exists_run_replayed (replayable : ∀ entry ∈ logs.entries, Replayable entry) (env : Env) :
    ∃ later s', (restarting config logs).Run (later ++ trace) s' ∧ (∀ t ∈ later, Reads env t) ∧ s'.rest = [] := by
  generalize unread : s.rest = rest
  induction rest generalizing s trace with
  | nil => exact ⟨[], s, run, by simp, unread⟩
  | cons entry rest ih =>
    obtain ⟨past, restarted, -⟩ := restart_invariant run replayable (fun _ _ => True) (fun _ => True)
      (fun _ _ => trivial) (fun _ _ _ _ _ _ _ _ _ _ _ => trivial) (fun _ _ _ _ _ _ _ _ _ _ => trivial)
      (fun _ _ => trivial)
    have here := replayable entry (restarted.member unread)
    obtain ⟨outcome, ran⟩ := @internalConsensusCommit_total s.replica env entry.signature entry.request here.phase
      (restarted.pooled.running _) (restarted.unmoved _) here.least here.most
    have step : (restarting config logs).step s (.replay env)
        { s with replica := outcome.replica, rest := rest } := by
      change s.replay env = _
      unfold Restart.replay
      rw [unread]
      dsimp only
      rw [ran]
      rfl
    obtain ⟨later, s', ran', reads, done⟩ := ih (run.next step) rfl
    exact ⟨later ++ [_], s', by simpa using ran', forall_mem_append.mpr ⟨reads, by simp [Reads]⟩, done⟩

theorem exists_run_taken (env : Env) : ∃ later s', (restarting config logs).Run (later ++ trace) s' ∧
    (∀ t ∈ later, Reads env t) ∧ s'.rest = s.rest ∧ s'.replica.transactionExecutor.commitQueue = [] := by
  generalize waiting : s.replica.transactionExecutor.commitQueue = queue
  induction queue generalizing s trace with
  | nil => exact ⟨[], s, run, by simp, rfl, waiting⟩
  | cons message rest ih =>
    have step : (restarting config logs).step s (.thread .takeMessage) _ := rfl
    have rested := takeMessage_commitQueue s.replica.transactionExecutor
    rw [waiting] at rested
    obtain ⟨later, s', ran, reads, same, done⟩ := ih (run.next step) rested
    exact ⟨later ++ [_], s', by simpa using ran, forall_mem_append.mpr ⟨reads, by simp [Reads]⟩, same, done⟩

theorem exists_run_passed (env : Env) : ∃ later s', (restarting config logs).Run (later ++ trace) s' ∧
    (∀ t ∈ later, Reads env t) ∧ s'.rest = s.rest ∧
    s'.replica.transactionExecutor.commitQueue = s.replica.transactionExecutor.commitQueue ∧
    s'.replica.transactionExecutor.passNext = none := by
  generalize size : s.replica.transactionExecutor.candidates.size = count
  induction count using Nat.strong_induction_on generalizing s trace with
  | _ count ih =>
    cases passed : s.replica.transactionExecutor.passNext with
    | none => exact ⟨[], s, run, by simp, rfl, rfl, passed⟩
    | some executor =>
      have less := passNext_size passed
      obtain ⟨message, passes⟩ := passNext_passes passed
      obtain ⟨after, moves, executes⟩ : ∃ after, s.replica.passNext = some after ∧
          after.transactionExecutor = executor := by
        unfold Replica.passNext
        rw [passed]
        exact ⟨_, rfl, rfl⟩
      have step : (restarting config logs).step s (.thread .passNext) { s with
          replica := after, handed := s.handed ++ after.transactionExecutor.executeQueue.drop
            s.replica.transactionExecutor.executeQueue.length } := by
        change s.moveThread .passNext = _
        simp only [Restart.moveThread, ServerEvent.inConstructor, ↓reduceIte, Server.react, moves]
        rfl
      rw [← executes] at less passes
      obtain ⟨later, s', ran, reads, same, queue, done⟩ := ih _ (size ▸ less) (run.next step) rfl
      exact ⟨later ++ [_], s', by simpa using ran, forall_mem_append.mpr ⟨reads, by simp [Reads]⟩, same,
        queue.trans passes.commitQueue, done⟩

theorem exists_run_finished (replayable : ∀ entry ∈ logs.entries, Replayable entry) (env : Env) :
    ∃ later s', (restarting config logs).Run (later ++ trace) s' ∧ (∀ t ∈ later, Reads env t) ∧ Finished s' := by
  obtain ⟨later, read, run', reads, unread⟩ := exists_run_replayed run replayable env
  obtain ⟨more, taken, run'', reads', same, queue⟩ := exists_run_taken run' env
  obtain ⟨last, passed, ran, reads'', same', queue', stopped⟩ := exists_run_passed run'' env
  refine ⟨last ++ (more ++ later), passed, by simpa using ran, ?_, ?_, queue'.trans queue, stopped⟩
  · exact forall_mem_append.mpr ⟨reads'', forall_mem_append.mpr ⟨reads', reads⟩⟩
  · exact same'.trans (same.trans unread)

end Finish

end ResilientDB.Proof
