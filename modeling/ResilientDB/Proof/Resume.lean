import ResilientDB.Proof.LogOrder
import ResilientDB.Proof.Recovery
import ResilientDB.Proof.Restart

namespace ResilientDB.Proof
open Model Library List

variable {config : ResDBConfig} {r r' : Replica} {env : Env} {signature : SignatureInfo} {request : Request}
  {good : Request → Prop} {wanted : Nat → Prop} {received handed : List Request} {e : TransactionExecutor}
  {logs : ReplayedLogs} {past : List LogEntry} {s s' : Restart} {turn : ServerEvent} {entry : LogEntry}
  {rest : List LogEntry}

def proposalSeqs (entries : List LogEntry) : List Nat :=
  (entries.filter fun entry => entry.request.type = .prePrepare).map fun entry => entry.request.seq

-- Not made faulty, and the executor is at most the capacity behind the replay.
def Timely (t : Transition Restart RestartEvent) : Prop :=
  match t.event with
  | .replay env => env.faulty = false ∧
      ∀ entry ∈ t.before.rest.head?, InsideWaterMark t.before.replica entry.request.seq
  | .thread _ => True

theorem proposalSeqs_append : proposalSeqs (past ++ [entry]) =
    if entry.request.type = .prePrepare then proposalSeqs past ++ [entry.request.seq] else proposalSeqs past := by
  unfold proposalSeqs
  rw [filter_append, map_append]
  split_ifs with isProposal
  · rw [filter_cons_of_pos (by simpa using isProposal)]
    rfl
  · rw [filter_cons_of_neg (by simpa using isProposal)]
    exact append_nil _

theorem TakesBack.nextSeq (takes : TakesBack r env entry.signature entry.request r') (healthy : env.faulty = false)
    (fits : entry.request.seq + 1 < 2 ^ 64) (before : r.nextSeq = nextAfter (proposalSeqs past)) :
    r'.nextSeq = nextAfter (proposalSeqs (past ++ [entry])) := by
  obtain ⟨taken, positive, -⟩ := range'_sublist_of_nextAfter (proposalSeqs past)
  rw [proposalSeqs_append]
  cases takes with
  | skipped isProposal skips =>
    have other := (skips.resolve_left (by simp [healthy])).2
    rw [if_pos isProposal, nextAfter_append, ← before, if_neg other]
  | added comes =>
    dsimp only
    split_ifs with isProposal
    · have here := (comes isProposal).resolve_left (by omega)
      rw [nextAfter_append, ← before, if_pos here, ← here]
      unfold addUInt64
      omega
    · exact before

theorem nextSeq_run {trace : List (Transition Restart RestartEvent)} (run : (restarting config logs).Run trace s)
    (replayable : ∀ entry ∈ logs.entries, Replayable entry)
    (fits : ∀ entry ∈ logs.entries, entry.request.seq + 1 < 2 ^ 64) (timely : ∀ t ∈ trace, Timely t) :
    ∃ past, Restarted config logs past s ∧ s.replica.nextSeq = nextAfter (proposalSeqs past) := by
  refine restart_invariant run replayable (fun past s => s.replica.nextSeq = nextAfter (proposalSeqs past)) Timely
    ?_ ?_ ?_ timely
  · exact fun s first => (restarted_initial first).2.2.1
  · intro past s s' env entry before restarted next _ takes timely
    exact takes.nextSeq timely.1 (fits entry (restarted.member next)) before
  · exact fun past s s' turn before _ _ moved _ _ => moved.nextSeq.trans before

theorem fed_initial (first : (restarting config logs).initial s) {wanted : Nat → Prop} (none : ∀ n, ¬ wanted n) :
    Fed good wanted [] s.handed s.replica.transactionExecutor := by
  obtain ⟨-, handed, -, ⟨outOfOrder, needResponse, executor⟩, -⟩ := restarted_initial first
  rw [handed, executor]
  exact ⟨⟨rfl, .nil, fun n => by simp [firstOf]⟩, by simp, fun n listed => absurd listed (none n)⟩

theorem Fed.handed_good (fed : Fed good wanted received handed e) {message : Request} (member : message ∈ handed) :
    good message ∧ firstOf Request.seq received message.seq = some message := by
  have first := fed.buffered.order.first member
  exact ⟨fed.good message (mem_append_left _ (mem_of_find?_eq_some first)), first⟩

theorem foreign_run {trace : List (Transition Restart RestartEvent)} (run : (restarting config logs).Run trace s)
    (replayable : ∀ entry ∈ logs.entries, Replayable entry)
    (foreign : ∀ entry ∈ logs.entries, entry.request.currentView ≠ recordedView logs) : s.handed = [] := by
  have fed := restart_invariant run replayable (fun _ s => ∃ received, Fed (fun _ => False) (fun _ => False) received
    s.handed s.replica.transactionExecutor) (fun _ => True) ?_ ?_ ?_ (fun _ _ => trivial)
  · obtain ⟨-, -, received, fed⟩ := fed
    exact eq_nil_iff_forall_not_mem.mpr fun message member => (fed.handed_good member).1
  · exact fun s first => ⟨[], fed_initial first (by simp)⟩
  · rintro past s s' env entry ⟨received, fed⟩ restarted next handed takes -
    have member := restarted.member next
    rw [handed]
    generalize s'.replica = after at takes ⊢
    cases takes with
    | skipped => exact ⟨received, fed⟩
    | @added result _ _ counted =>
      have refused : isValidMsg s.replica.getCurrentView s.replica.transactionExecutor.getMaxPendingExecutedSeq
          entry.request = false := by
        have view := foreign entry member
        rw [← restarted.view] at view
        have phase : entry.request.type ≠ .response := by
          rcases (replayable entry member).phase with type | type | type <;> simp [type]
        simp [isValidMsg, phase, view]
      unfold TransactionCollector.addConsensusMsg deliveryOf at counted
      rw [if_neg (by simp [refused])] at counted
      cases counted
      exact ⟨received, fed⟩
  · rintro past s s' turn ⟨received, fed⟩ restarted runs moved _ handed
    rw [handed]
    exact fed.background moved runs restarted.idle

variable {v n : Nat} {hashOf : Nat → String} {before : List Request} {pool : LockFreeCollectorPool} {next : Nat}

def requestsOf (entries : List LogEntry) : List Request := entries.map fun entry => entry.request

structure Rebuilt (config : ResDBConfig) (v : Nat) (hashOf : Nat → String) (before : List Request)
    (pool : LockFreeCollectorPool) (next : Nat) : Prop where
  near : ∀ message ∈ before, message.seq < next + pool.capacity
  collectors : ∀ n, n < next + pool.capacity → (pool.getCollector n).seq = n →
    Recollected config v (hashOf n) n before (pool.getCollector n)

def Ripe (config : ResDBConfig) (before : List Request) (request : Request) : Prop :=
  LoggedProposal before request ∧ CommittedIn config request.seq before

theorem Ripe.append {message : Request} (ripe : Ripe config before request) :
    Ripe config (before ++ [message]) request := by
  obtain ⟨⟨proposal, member, rest⟩, committed⟩ := ripe
  exact ⟨⟨proposal, mem_append_left _ member, rest⟩, committedIn_append.mpr (.inl committed)⟩

theorem Fed.passed (fed : Fed good wanted received handed e) (least : 1 ≤ n) (passed : n < e.nextExecuteSeq) :
    ∃ message, good message ∧ message.seq = n := by
  have next := fed.buffered.next
  have keys := fed.buffered.order.keys
  have inside : n ∈ handed.map Request.seq := by
    rw [keys, mem_range'_1]
    omega
  obtain ⟨message, member, same⟩ := mem_map.mp inside
  exact ⟨message, (fed.handed_good member).1, same⟩

theorem committedIn_other {message : Request} (other : message.seq ≠ n) :
    CommittedIn config n (before ++ [message]) ↔ CommittedIn config n before := by
  rw [committedIn_append]
  exact ⟨fun known => known.resolve_right fun here => other here.2.2.1, .inl⟩

theorem Rebuilt.append {pool' : LockFreeCollectorPool} (rebuilt : Rebuilt config v hashOf before pool next)
    (capacity : pool'.capacity = pool.capacity) (near : request.seq < next + pool.capacity)
    (collector : ∀ n, n < next + pool.capacity → (pool'.getCollector n).seq = n →
      Recollected config v (hashOf n) n (before ++ [request]) (pool'.getCollector n) ∨
        request.seq ≠ n ∧ pool'.getCollector n = pool.getCollector n) :
    Rebuilt config v hashOf (before ++ [request]) pool' next := by
  rw [← capacity] at near collector
  refine ⟨fun message member => ?_, fun n inside own => ?_⟩
  · rcases mem_append.mp member with old | new
    · rw [capacity]
      exact rebuilt.near message old
    · rw [mem_singleton.mp new]
      exact near
  · rcases collector n inside own with here | ⟨other, same⟩
    · exact here
    · rw [same] at own ⊢
      exact (rebuilt.collectors n (capacity ▸ inside) own).grow (fun _ here => other here.2)
        (fun _ here => other here.2) fun _ here => other here.2

section Message

variable {result : AddResult}
  (rebuilt : Rebuilt config v hashOf before r.collectorPool r.transactionExecutor.nextExecuteSeq)
  (fed : Fed (Ripe config before) (fun n => CommittedIn config n before) received handed r.transactionExecutor)
  (pooled : Pooled config r) (least : 1 ≤ request.seq)
  (near : request.seq < r.transactionExecutor.nextExecuteSeq + r.collectorPool.capacity)
  (counted : (r.collectorPool.getCollector request.seq).addConsensusMsg r.config
    (deliveryOf r env signature request) = .ok result)
include rebuilt fed pooled least near counted

theorem Rebuilt.late (gone : (r.collectorPool.getCollector request.seq).seq ≠ request.seq) :
    Rebuilt config v hashOf (before ++ [request]) (r.collectorPool.setCollector request.seq result.collector)
        r.transactionExecutor.nextExecuteSeq ∧
      Fed (Ripe config (before ++ [request])) (fun n => CommittedIn config n (before ++ [request])) received handed
        (r.commitMessage result.committed).transactionExecutor := by
  have refused : result.collector = r.collectorPool.getCollector request.seq ∧ result.committed = none := by
    rcases addConsensusMsg_spec (pooled.running request.seq) counted with same | ⟨-, added⟩
    · rw [same]
      exact ⟨rfl, rfl⟩
    · refine ⟨added.closed gone, ?_⟩
      cases added with
      | executed isOpen => exact absurd isOpen.2.2 gone
      | _ => rfl
  have done : CommittedIn config request.seq before := by
    obtain ⟨done, executed, ring⟩ := pooled.ring
    have old : request.seq < r.transactionExecutor.nextExecuteSeq := by
      by_contra recent
      exact gone (ring.own (by omega) (by omega))
    obtain ⟨message, ripe, same⟩ := fed.passed least old
    exact same ▸ ripe.2
  rw [refused.1, refused.2, setCollector_getCollector]
  constructor
  · refine rebuilt.append rfl near fun n inside own => .inr ⟨?_, rfl⟩
    rintro rfl
    exact gone own
  · refine fed.imp (fun _ ripe => ripe.append) fun n committed => ?_
    by_cases here : request.seq = n
    · exact here ▸ done
    · exact (committedIn_other here).mp committed

theorem Rebuilt.own (view : r.getCurrentView = v) (concerns : Concerns v (hashOf request.seq) request.seq request)
    (own : (r.collectorPool.getCollector request.seq).seq = request.seq) :
    Rebuilt config v hashOf (before ++ [request]) (r.collectorPool.setCollector request.seq result.collector)
        r.transactionExecutor.nextExecuteSeq ∧
      Fed (Ripe config (before ++ [request])) (fun n => CommittedIn config n (before ++ [request])) received handed
        (r.commitMessage result.committed).transactionExecutor := by
  have late (behind : request.seq < r.transactionExecutor.getMaxPendingExecutedSeq) :
      CommittedIn config request.seq before := by
    unfold TransactionExecutor.getMaxPendingExecutedSeq at behind
    obtain ⟨message, ripe, same⟩ := fed.passed least (by omega)
    exact same ▸ ripe.2
  obtain ⟨other, ran, follows⟩ := (rebuilt.collectors request.seq near own).step concerns env.address _ signature late
  have same : other = result := by
    unfold deliveryOf at counted
    rw [pooled.config, view, ran] at counted
    exact Except.ok.inj counted
  rw [same] at follows
  obtain ⟨done, -, ring⟩ := pooled.ring
  constructor
  · refine rebuilt.append rfl near fun n _ own => ?_
    rw [getCollector_setCollector ring.power] at own ⊢
    split_ifs at own ⊢ with slot
    · rw [follows.collector.seq] at own
      exact .inl (own ▸ follows.collector)
    · refine .inr ⟨?_, rfl⟩
      rintro rfl
      exact slot rfl
  · refine (fed.imp (fun _ ripe => ripe.append) fun _ listed => listed).commitMessage ?_ fun n committed => ?_
    · intro given handed
      obtain ⟨-, committed, proposal, member, type, seq, certs, rfl⟩ := follows.committed given handed
      exact ⟨⟨proposal, mem_append_left _ member, type, rfl, rfl⟩, seq ▸ committed⟩
    · by_cases here : request.seq = n
      · subst here
        refine (follows.complete committed).imp id fun some => ?_
        obtain ⟨message, handed⟩ := Option.isSome_iff_exists.mp some
        obtain ⟨-, -, proposal, -, -, seq, certs, rfl⟩ := follows.committed message handed
        exact ⟨_, handed, seq⟩
      · exact .inl ((committedIn_other here).mp committed)

end Message

theorem Rebuilt.start (config : ResDBConfig) :
    Rebuilt config v hashOf [] (.create config.maxProcessTxn config.enableViewchange) 1 := by
  refine ⟨by simp, fun n _ own => ?_⟩
  have fresh : (LockFreeCollectorPool.create config.maxProcessTxn config.enableViewchange).getCollector n =
      { seq := n, enableViewchange := config.enableViewchange } := by
    unfold LockFreeCollectorPool.getCollector LockFreeCollectorPool.create at own ⊢
    dsimp only at own ⊢
    rw [own]
  rw [fresh]
  exact .fresh (by simp)

section

variable (rebuilt : Rebuilt config v hashOf before r.collectorPool r.transactionExecutor.nextExecuteSeq)
  (pooled : Pooled config r)
include rebuilt pooled

theorem Rebuilt.renews (renews : Renews r r') :
    Rebuilt config v hashOf before r'.collectorPool r'.transactionExecutor.nextExecuteSeq := by
  obtain ⟨done, executed, ring⟩ := pooled.ring
  have capacity : r'.collectorPool.capacity = r.collectorPool.capacity := by
    rw [renews.pool, update_capacity]
  rw [renews.next]
  refine ⟨fun message member => ?_, fun n inside own => ?_⟩
  · have near := rebuilt.near message member
    omega
  · rw [renews.pool, executed, getCollector_update ring] at own ⊢
    split_ifs at own ⊢ with slot
    · obtain rfl : done + 1 + r.collectorPool.capacity = n := own
      refine .fresh fun message member => ?_
      have near := rebuilt.near message member
      omega
    · refine rebuilt.collectors n ?_ own
      by_contra beyond
      obtain rfl : n = done + 1 + r.collectorPool.capacity := by omega
      exact slot rfl

theorem Rebuilt.background (moved : Background r turn r') :
    Rebuilt config v hashOf before r'.collectorPool r'.transactionExecutor.nextExecuteSeq := by
  rcases moved.collectors with ⟨-, renews⟩ | ⟨pool, next⟩
  · exact rebuilt.renews pooled renews
  · rw [pool, next]
    exact rebuilt

end

theorem proposalSeqs_split : proposalSeqs (past ++ entry :: rest) =
    proposalSeqs past ++ (if entry.request.type = .prePrepare then [entry.request.seq] else []) ++
      proposalSeqs rest := by
  have split : past ++ entry :: rest = (past ++ [entry]) ++ rest := by simp
  unfold proposalSeqs
  rw [split, filter_append, map_append, filter_append, map_append]
  by_cases isProposal : entry.request.type = .prePrepare <;> simp [isProposal]

structure TakenBack (config : ResDBConfig) (v : Nat) (hashOf : Nat → String) (past : List LogEntry) (s : Restart) :
    Prop where
  nextSeq : s.replica.nextSeq = nextAfter (proposalSeqs past)
  rebuilt : Rebuilt config v hashOf (requestsOf past) s.replica.collectorPool
    s.replica.transactionExecutor.nextExecuteSeq
  fed : ∃ received, Fed (Ripe config (requestsOf past)) (fun n => CommittedIn config n (requestsOf past)) received
    s.handed s.replica.transactionExecutor

section InOrder

variable {trace : List (Transition Restart RestartEvent)} {m : Nat}
  (inOrder : proposalSeqs logs.entries = List.range' 1 m)
  (fits : ∀ entry ∈ logs.entries, 1 ≤ entry.request.seq ∧ entry.request.seq + 1 < 2 ^ 64)
  (concerns : ∀ entry ∈ logs.entries,
    Concerns (recordedView logs) (hashOf entry.request.seq) entry.request.seq entry.request)
include inOrder fits concerns

theorem TakenBack.replayed (taken : TakenBack config (recordedView logs) hashOf past s)
    (restarted : Restarted config logs past s) (unread : s.rest = entry :: s'.rest) (handed : s'.handed = s.handed)
    (takes : TakesBack s.replica env entry.signature entry.request s'.replica)
    (timely : Timely ⟨s, .replay env, s'⟩) : TakenBack config (recordedView logs) hashOf (past ++ [entry]) s' := by
  have member := restarted.member unread
  have log := restarted.log
  rw [unread] at log
  obtain ⟨received, fed⟩ := taken.fed
  have inside : entry.request.seq <
      s.replica.transactionExecutor.nextExecuteSeq + s.replica.collectorPool.capacity := by
    have mark : entry.request.seq ≤ s.replica.transactionExecutor.nextExecuteSeq - 1 +
        s.replica.collectorPool.capacity := (timely.2 entry (by simp [unread])).2
    obtain ⟨done, executed, -⟩ := restarted.pooled.ring
    omega
  rw [← log, proposalSeqs_split] at inOrder
  have key : Rebuilt config (recordedView logs) hashOf (requestsOf past ++ [entry.request]) s'.replica.collectorPool
        s'.replica.transactionExecutor.nextExecuteSeq ∧
      Fed (Ripe config (requestsOf past ++ [entry.request]))
        (fun n => CommittedIn config n (requestsOf past ++ [entry.request])) received s.handed
        s'.replica.transactionExecutor := by
    generalize s'.replica = after at takes ⊢
    cases takes with
    | skipped isProposal skips =>
      -- a proposal that comes in order is next
      rw [if_pos isProposal, append_assoc] at inOrder
      have comes := eq_nextAfter_of_range' inOrder
      rw [← taken.nextSeq] at comes
      exact absurd comes (skips.resolve_left (by simp [timely.1])).2
    | added _ counted =>
      dsimp only
      rw [commitMessage_nextExecuteSeq]
      by_cases own : (s.replica.collectorPool.getCollector entry.request.seq).seq = entry.request.seq
      · exact taken.rebuilt.own fed restarted.pooled (fits entry member).1 inside counted restarted.view
          (concerns entry member) own
      · exact taken.rebuilt.late fed restarted.pooled (fits entry member).1 inside counted own
  have requests : requestsOf (past ++ [entry]) = requestsOf past ++ [entry.request] := by simp [requestsOf]
  refine ⟨takes.nextSeq timely.1 (fits entry member).2 taken.nextSeq, ?_, received, ?_⟩
  · rw [requests]
    exact key.1
  · rw [requests, handed]
    exact key.2

theorem takenBack_run (run : (restarting config logs).Run trace s)
    (replayable : ∀ entry ∈ logs.entries, Replayable entry) (timely : ∀ t ∈ trace, Timely t) :
    ∃ past, Restarted config logs past s ∧ TakenBack config (recordedView logs) hashOf past s := by
  refine restart_invariant run replayable (TakenBack config (recordedView logs) hashOf) Timely ?_ ?_ ?_ timely
  · intro s first
    obtain ⟨-, -, nextSeq, ⟨outOfOrder, needResponse, executor⟩, pool⟩ := restarted_initial first
    refine ⟨nextSeq, ?_, [], fed_initial first fun n => atSomePoint_nil⟩
    rw [pool, executor]
    exact .start config
  · exact fun past s s' env entry taken restarted unread handed takes timely =>
      taken.replayed inOrder fits concerns restarted unread handed takes timely
  · rintro past s s' turn ⟨nextSeq, rebuilt, received, fed⟩ restarted runs moved _ handed
    refine ⟨moved.nextSeq.trans nextSeq, rebuilt.background restarted.pooled moved, ?_⟩
    rw [handed]
    exact fed.background moved runs restarted.idle

end InOrder

variable {recovery : Recovery} {listing : List LogName} {ckpt m : Nat}

-- Above the checkpoint: one proposal for each number up to `m`, and a quorum of votes for it.
structure LogHolds (config : ResDBConfig) (recovery : Recovery) (listing : List LogName) (ckpt m : Nat)
    (logs : ReplayedLogs) : Prop where
  read : recovery.readLogs listing = some logs
  stable : lastCkpt listing = ckpt
  ordered : ckpt ≤ m
  fits : m + 1 < 2 ^ 64
  above : ∀ entry ∈ logs.entries, ckpt < entry.request.seq ∧ entry.request.seq ≤ m
  signed : ∀ entry ∈ logs.entries, entry.signature.signature ≠ ""
  phase : ∀ entry ∈ logs.entries, IsPhase entry.request.type
  senders : ∀ entry ∈ logs.entries, 0 ≤ entry.request.senderId ∧ entry.request.senderId < 128
  proposals : (proposalSeqs logs.entries).Perm (List.range' (ckpt + 1) (m - ckpt))
  hash : ∀ a ∈ logs.entries, ∀ b ∈ logs.entries, a.request.seq = b.request.seq → a.request.hash = b.request.hash
  view : ∀ a ∈ logs.entries, ∀ b ∈ logs.entries, a.request.currentView = b.request.currentView
  quorums : ∀ n, ckpt < n → n ≤ m → ∀ type ∈ [RequestType.prepare, .commit],
    config.getMinDataReceiveNum ≤ (voters type n (requestsOf logs.entries)).card

def Resumed (entries : List LogEntry) (ckpt m : Nat) (s : Restart) : Prop :=
  s.handed.map (fun request => some (batchOf request)) = (List.range' (ckpt + 1) (m - ckpt)).map (fun n =>
    ((requestsOf entries).find? fun message => message.type = .prePrepare ∧ message.seq = n).map batchOf) ∧
  s.replica.nextSeq = m + 1

structure Resumable (config : ResDBConfig) (ckpt m : Nat) (logs : ReplayedLogs) : Prop where
  first : ckpt = 0
  inOrder : proposalSeqs logs.entries = List.range' 1 m
  view : ∀ entry ∈ logs.entries, entry.request.currentView = recordedView logs
  complete : ∀ n, 1 ≤ n → n ≤ m → CommittedIn config n (requestsOf logs.entries)

theorem readLogs_isRecovery (read : recovery.readLogs listing = some logs) :
    ∀ entry ∈ logs.entries, entry.request.isRecovery = true := by
  intro entry member
  unfold Recovery.readLogs at read
  obtain ⟨⟨names, last⟩, -, rfl⟩ := Option.map_eq_some_iff.mp read
  obtain ⟨file, -, inside⟩ := mem_flatMap.mp member
  unfold readLogsFromFiles at inside
  split at inside
  · cases inside
  · obtain ⟨_, -, rfl⟩ := mem_map.mp inside
    rfl

section Holds

variable (holds : LogHolds config recovery listing ckpt m logs)
include holds

theorem LogHolds.replayable : ∀ entry ∈ logs.entries, Replayable entry := fun entry member =>
  ⟨readLogs_isRecovery holds.read entry member, holds.signed entry member, holds.phase entry member,
    (holds.senders entry member).1, (holds.senders entry member).2⟩

theorem LogHolds.seqs : ∀ entry ∈ logs.entries, 1 ≤ entry.request.seq ∧ entry.request.seq + 1 < 2 ^ 64 := by
  intro entry member
  have above := holds.above entry member
  have fits := holds.fits
  omega

theorem LogHolds.concerns (view : ∀ entry ∈ logs.entries, entry.request.currentView = recordedView logs) :
    ∃ hashOf : Nat → String, ∀ entry ∈ logs.entries,
      Concerns (recordedView logs) (hashOf entry.request.seq) entry.request.seq entry.request := by
  refine ⟨fun n => ((logs.entries.find? fun entry => entry.request.seq = n).map fun entry =>
    entry.request.hash).getD "", fun entry member => ⟨holds.phase entry member, rfl, ?_, view entry member,
      fun _ => holds.senders entry member⟩⟩
  dsimp only
  cases found : logs.entries.find? fun other => other.request.seq = entry.request.seq with
  | none =>
    have missing := find?_eq_none.mp found entry member
    simp at missing
  | some other =>
    have same : other.request.seq = entry.request.seq := by simpa using find?_some found
    exact holds.hash entry member other (mem_of_find?_eq_some found) same.symm

theorem LogHolds.find_proposal {proposal : Request} (member : proposal ∈ requestsOf logs.entries)
    (type : proposal.type = .prePrepare) :
    (requestsOf logs.entries).find? (fun message => message.type = .prePrepare ∧ message.seq = proposal.seq) =
      some proposal := by
  have nodup : (proposalSeqs logs.entries).Nodup := holds.proposals.nodup_iff.mpr nodup_range'
  cases found : (requestsOf logs.entries).find? fun message => message.type = .prePrepare ∧
      message.seq = proposal.seq with
  | none =>
    have missing := find?_eq_none.mp found proposal member
    simp [type] at missing
  | some other =>
    have same : other.type = .prePrepare ∧ other.seq = proposal.seq := by simpa using find?_some found
    obtain ⟨a, insideA, rfl⟩ := mem_map.mp member
    obtain ⟨b, insideB, rfl⟩ := mem_map.mp (mem_of_find?_eq_some found)
    have equal := inj_on_of_nodup_map nodup (mem_filter.mpr ⟨insideB, by simpa using same.1⟩)
      (mem_filter.mpr ⟨insideA, by simpa using type⟩) same.2
    rw [equal]

variable {trace : List (Transition Restart RestartEvent)} (run : (restarting config logs).Run trace s)
  (finished : Finished s) (timely : ∀ t ∈ trace, Timely t)
include run finished timely

theorem LogHolds.nextSeq_iff : s.replica.nextSeq = m + 1 ↔ ckpt = 0 ∧ proposalSeqs logs.entries = List.range' 1 m := by
  have fits := fun entry member => (holds.seqs entry member).2
  obtain ⟨past, restarted, next⟩ := nextSeq_run run holds.replayable fits timely
  obtain rfl := restarted.all finished
  rw [next]
  exact nextAfter_eq_iff holds.proposals holds.ordered

theorem LogHolds.fed (inOrder : proposalSeqs logs.entries = List.range' 1 m)
    (view : ∀ entry ∈ logs.entries, entry.request.currentView = recordedView logs) :
    ∃ received, Fed (Ripe config (requestsOf logs.entries)) (fun n => CommittedIn config n (requestsOf logs.entries))
        received s.handed s.replica.transactionExecutor ∧
      firstOf Request.seq received (s.handed.length + 1) = none := by
  obtain ⟨hashOf, concerns⟩ := holds.concerns view
  obtain ⟨past, restarted, taken⟩ := takenBack_run inOrder holds.seqs concerns run holds.replayable timely
  obtain rfl := restarted.all finished
  obtain ⟨received, fed⟩ := taken.fed
  exact ⟨received, fed, fed.buffered.stopped finished.2.2⟩

theorem LogHolds.resumed (resumable : Resumable config ckpt m logs) : Resumed logs.entries ckpt m s := by
  obtain ⟨rfl, inOrder, view, complete⟩ := resumable
  obtain ⟨received, fed, stopped⟩ := holds.fed run finished timely inOrder view
  have nothing := finished.2.1
  have arrived (n : Nat) (least : 1 ≤ n) (most : n ≤ m) : ∃ message ∈ received, message.seq = n := by
    have wanted := fed.wanted n (complete n least most)
    rwa [nothing, append_nil] at wanted
  have released : s.handed.length = m := by
    apply Nat.le_antisymm
    · by_contra more
      have inside : m + 1 ∈ s.handed.map Request.seq := by
        rw [fed.buffered.order.keys, mem_range'_1]
        omega
      obtain ⟨message, member, seq⟩ := mem_map.mp inside
      obtain ⟨⟨proposal, logged, -, same, -⟩, -⟩ := (fed.handed_good member).1
      obtain ⟨entry, there, rfl⟩ := mem_map.mp logged
      have most := (holds.above entry there).2
      omega
    · by_contra fewer
      have found := firstOf_isSome.mp (arrived (s.handed.length + 1) (by omega) (by omega))
      rw [stopped] at found
      cases found
  refine ⟨?_, (holds.nextSeq_iff run finished timely).mpr ⟨rfl, inOrder⟩⟩
  have order := congrArg (List.map (Option.map batchOf)) fed.buffered.order
  rw [released, map_map, map_map] at order
  refine order.trans (map_congr_left fun n member => ?_)
  rw [mem_range'_1] at member
  obtain ⟨message, found⟩ := Option.isSome_iff_exists.mp (firstOf_isSome.mp (arrived n member.1 (by omega)))
  have inside : message ∈ received ++ s.replica.transactionExecutor.commitQueue :=
    mem_append_left _ (mem_of_find?_eq_some found)
  obtain ⟨⟨proposal, logged, type, same, contents⟩, -⟩ := fed.good message inside
  have number := key_firstOf found
  have proposed := holds.find_proposal logged type
  rw [same, number] at proposed
  rw [Function.comp_apply, found, proposed, Option.map_some, Option.map_some, contents]

theorem LogHolds.resumable (resumed : Resumed logs.entries ckpt m s) : Resumable config ckpt m logs := by
  obtain ⟨rfl, inOrder⟩ := (holds.nextSeq_iff run finished timely).mp resumed.2
  have released : s.handed.length = m := by simpa using congrArg List.length resumed.1
  have view : ∀ entry ∈ logs.entries, entry.request.currentView = recordedView logs := by
    intro entry member
    by_contra other
    have nothing := foreign_run run holds.replayable fun third inside same =>
      other ((holds.view entry member third inside).trans same)
    have above := holds.above entry member
    rw [nothing, length_nil] at released
    omega
  obtain ⟨received, fed, -⟩ := holds.fed run finished timely inOrder view
  refine ⟨rfl, inOrder, view, fun n least most => ?_⟩
  have next := fed.buffered.next
  obtain ⟨message, ripe, rfl⟩ := fed.passed least (by omega)
  exact ripe.2

end Holds

theorem replay_resumes_iff (holds : LogHolds config recovery listing ckpt m logs) :
    (∀ env trace s, (restarting config logs).Run trace s →
      ∃ later s', (restarting config logs).Run (later ++ trace) s' ∧ (∀ t ∈ later, Reads env t) ∧ Finished s') ∧
    ∀ trace s, (restarting config logs).Run trace s → Finished s → (∀ t ∈ trace, Timely t) →
      (Resumed logs.entries ckpt m s ↔ Resumable config ckpt m logs) :=
  ⟨fun env _ _ run => exists_run_finished run holds.replayable env,
    fun _ _ run finished timely => ⟨holds.resumable run finished timely, holds.resumed run finished timely⟩⟩

def loggedOf (received : List Receipt) : List LogEntry :=
  received.map fun receipt => { signature := receipt.context.signature, request := receipt.request }

def firstInfo : SystemInfoData := { view := 1, primaryId := 1 }

def stoppedLog (events : List LogEvent) : Recovery := logging (.init [] [] 10 firstInfo) events

def reopened (events : List LogEvent) : Recovery :=
  .init (stoppedLog events).directory (listingOf (stoppedLog events)) 30 firstInfo

def HoldsCheck (config : ResDBConfig) (ckpt m : Nat) (entries : List LogEntry) : Prop := (ckpt ≤ m ∧ m + 1 < 2 ^ 64) ∧
  (∀ entry ∈ entries, (ckpt < entry.request.seq ∧ entry.request.seq ≤ m) ∧ entry.signature.signature ≠ "" ∧
    IsPhase entry.request.type ∧ 0 ≤ entry.request.senderId ∧ entry.request.senderId < 128) ∧
  (proposalSeqs entries).Perm (List.range' (ckpt + 1) (m - ckpt)) ∧
  (∀ a ∈ entries, ∀ b ∈ entries, (a.request.seq = b.request.seq → a.request.hash = b.request.hash) ∧
    a.request.currentView = b.request.currentView) ∧
  ∀ n ∈ List.range' (ckpt + 1) (m - ckpt), ∀ type ∈ [RequestType.prepare, .commit],
    config.getMinDataReceiveNum ≤ (voters type n (requestsOf entries)).card
deriving Decidable

theorem logHolds_of_check (read : recovery.readLogs listing = some logs) (stable : lastCkpt listing = ckpt)
    (checked : HoldsCheck config ckpt m logs.entries) : LogHolds config recovery listing ckpt m logs := by
  obtain ⟨⟨ordered, fits⟩, each, proposals, pairs, quorums⟩ := checked
  exact {
    read := read
    stable := stable
    ordered := ordered
    fits := fits
    above := fun entry member => (each entry member).1
    signed := fun entry member => (each entry member).2.1
    phase := fun entry member => (each entry member).2.2.1
    senders := fun entry member => (each entry member).2.2.2
    proposals := proposals
    hash := fun a first b second => (pairs a first b second).1
    view := fun a first b second => (pairs a first b second).2
    quorums := fun n least most => quorums n (by rw [mem_range'_1]; omega) }

instance : DecidablePred Timely := fun t =>
  match t with
  | ⟨_, .replay _, _⟩ => inferInstanceAs (Decidable (_ ∧ _))
  | ⟨_, .thread _, _⟩ => .isTrue trivial

instance : DecidablePred Finished := fun s =>
  decidable_of_iff (s.rest = [] ∧ s.replica.transactionExecutor.commitQueue = [] ∧
    s.replica.transactionExecutor.passNext.isNone = true) (by rw [Finished, Option.isNone_iff_eq_none])

theorem restartAct_sound (config : ResDBConfig) (logs : ReplayedLogs) (s : Restart) (event : RestartEvent)
    (s' : Restart) (moved : restartAct s event = some s') : (restarting config logs).step s event s' := by
  unfold restartAct at moved
  split at moved
  · rename_i next acted
    rw [moved] at acted
    exact acted
  · cases moved

def startRestart (config : ResDBConfig) (logs : ReplayedLogs) : Restart where
  replica := logs.restore (Replica.create config)
  rest := logs.entries

theorem startRestart_initial (config : ResDBConfig) (logs : ReplayedLogs) :
    (restarting config logs).initial (startRestart config logs) := ⟨false, true, rfl⟩

def replayEvents (entries taken passed : Nat) : List RestartEvent :=
  List.replicate entries (.replay plainEnv) ++ List.replicate taken (.thread .takeMessage) ++
    List.replicate passed (.thread .passNext)

def voteEntry (type : RequestType) (seq : Nat) (hash : String) (sender : Int) : LogEntry where
  signature := ⟨sender, "signature"⟩
  request := { type := type, seq := seq, hash := hash, currentView := 1, senderId := sender }

def votesFor (seq : Nat) (hash : String) : List LogEntry :=
  [1, 2, 3].map (voteEntry .prepare seq hash) ++ [1, 2, 3].map (voteEntry .commit seq hash)

def executedEntries (seq : Nat) (hash : String) : List LogEntry := voteEntry .prePrepare seq hash 1 :: votesFor seq hash

def logEvents (entries : List LogEntry) : List LogEvent := entries.map .addRequest

def replayedOf (entries : List LogEntry) : ReplayedLogs := { info := some firstInfo, entries := entries.map recovered }

def inOrderLog : List LogEntry := executedEntries 1 "a" ++ executedEntries 2 "b"

theorem inOrderLog_resumed : ∃ logs trace s,
    LogHolds smallPool (reopened (logEvents inOrderLog)) (listingOf (stoppedLog (logEvents inOrderLog))) 0 2 logs ∧
    (restarting smallPool logs).Run trace s ∧ Finished s ∧ Resumed logs.entries 0 2 s := by
  have holds : LogHolds smallPool (reopened (logEvents inOrderLog)) (listingOf (stoppedLog (logEvents inOrderLog))) 0 2
      (replayedOf inOrderLog) :=
    logHolds_of_check (by decide +kernel) (by decide +kernel) (by decide +kernel)
  obtain ⟨trace, s, run, finished, timely⟩ := System.run_of_play
    (restartAct_sound smallPool (replayedOf inOrderLog)) (startRestart_initial smallPool _) (replayEvents 14 2 2)
    (fun trace s => Finished s ∧ ∀ t ∈ trace, Timely t) (by decide +kernel)
  refine ⟨_, trace, s, holds, run, finished, ((replay_resumes_iff holds).2 trace s run finished timely).mpr ?_⟩
  refine ⟨rfl, by decide +kernel, by decide +kernel, fun n least most => ?_⟩
  obtain rfl | rfl : n = 1 ∨ n = 2 := by omega
  · decide +kernel
  · decide +kernel

def LiveLogLost (config : ResDBConfig) (ckpt m : Nat) : Prop :=
  ∃ live t events logs, (server config).Run live t ∧ m < t.replica.transactionExecutor.nextExecuteSeq ∧
    logged events = loggedOf t.received ∧
    LogHolds config (reopened events) (listingOf (stoppedLog events)) ckpt m logs ∧
    ∃ trace s, (restarting config logs).Run trace s ∧ Finished s ∧ (∀ t ∈ trace, Timely t) ∧
      ¬ Resumed logs.entries ckpt m s

theorem liveLogLost_of_play {config : ResDBConfig} (heard : List ServerEvent) (events : List LogEvent)
    (logs : ReplayedLogs) (replays : List RestartEvent)
    (lives : ((System.play serverAct ([], { replica := Replica.create config }) heard).any fun p => decide
      (m < p.2.replica.transactionExecutor.nextExecuteSeq ∧ logged events = loggedOf p.2.received)) = true)
    (holds : LogHolds config (reopened events) (listingOf (stoppedLog events)) ckpt m logs)
    (lost : ((System.play restartAct ([], startRestart config logs) replays).any fun p => decide
      (Finished p.2 ∧ (∀ t ∈ p.1, Timely t) ∧ p.2.replica.nextSeq ≠ m + 1)) = true) : LiveLogLost config ckpt m := by
  obtain ⟨live, t, ran, passed, received⟩ := exists_server_run config heard
    (fun _ t => m < t.replica.transactionExecutor.nextExecuteSeq ∧ logged events = loggedOf t.received) lives
  obtain ⟨trace, s, run, finished, timely, other⟩ := System.run_of_play (restartAct_sound config logs)
    (startRestart_initial config logs) replays
    (fun trace s => Finished s ∧ (∀ t ∈ trace, Timely t) ∧ s.replica.nextSeq ≠ m + 1) lost
  exact ⟨live, t, events, logs, ran, passed, received, holds, trace, s, run, finished, timely,
    fun resumed => other resumed.2⟩

def hearEntry (entry : LogEntry) : ServerEvent :=
  hear entry.request.type entry.request.seq entry.request.hash entry.request.senderId

def checkpointLog : List LogEvent :=
  logEvents (executedEntries 1 "a") ++ .finishFile 1 true 20 21 firstInfo :: logEvents (executedEntries 2 "b")

def overtakingLog : List LogEntry :=
  [voteEntry .prePrepare 2 "b" 1, voteEntry .prePrepare 1 "a" 1] ++ votesFor 1 "a" ++ votesFor 2 "b"

theorem restart_loses : LiveLogLost smallPool 1 2 ∧ LiveLogLost smallPool 0 2 := by
  constructor
  · refine liveLogLost_of_play (inOrderLog.map hearEntry ++ [.takeMessage, .passNext, .takeMessage, .passNext])
      checkpointLog (replayedOf (executedEntries 2 "b")) (replayEvents 7 0 0) (by decide +kernel) ?_ (by decide +kernel)
    exact logHolds_of_check (by decide +kernel) (by decide +kernel) (by decide +kernel)
  · refine liveLogLost_of_play (overtakingLog.map hearEntry ++ [.takeMessage, .passNext, .takeMessage, .passNext])
      (logEvents overtakingLog) (replayedOf overtakingLog) (replayEvents 14 2 1) (by decide +kernel) ?_
      (by decide +kernel)
    exact logHolds_of_check (by decide +kernel) (by decide +kernel) (by decide +kernel)

end ResilientDB.Proof
