import ResilientDB.Proof.LiveWindow
import ResilientDB.Proof.Deployment

namespace ResilientDB.Proof
open Model Library List

variable {r r' : Replica} {env : Env} {context : Context} {request : Request} {outcome : Outcome} {config : ResDBConfig}
  {call : Call} {calls : List Call} {trace : List (Transition Server ServerEvent)} {s : Server} {t : Nat}

theorem assignNextSeq_iff (narrow : r.transactionExecutor.getMaxPendingExecutedSeq < 2 ^ 32) (fits : r.nextSeq < 2 ^ 64)
    (ahead : r.transactionExecutor.getMaxPendingExecutedSeq < r.nextSeq) :
    r.assignNextSeq ≠ none ↔ r.nextSeq - r.transactionExecutor.getMaxPendingExecutedSeq ≤ r.config.maxProcessTxn := by
  have whole : toUInt32 r.transactionExecutor.getMaxPendingExecutedSeq =
      r.transactionExecutor.getMaxPendingExecutedSeq := by
    unfold toUInt32
    omega
  have difference : subUInt64 r.nextSeq r.transactionExecutor.getMaxPendingExecutedSeq =
      r.nextSeq - r.transactionExecutor.getMaxPendingExecutedSeq := by
    unfold subUInt64
    omega
  unfold Replica.assignNextSeq
  dsimp only
  rw [whole, difference]
  split_ifs with full
  · simp only [ne_eq, not_true_eq_false, false_iff, not_le]
    exact full
  · simp only [ne_eq, reduceCtorEq, not_false_eq_true, true_iff]
    exact not_lt.mp full

theorem internalConsensusCommit_nextSeq (ran : r.internalConsensusCommit env context request = .ok outcome) :
    outcome.replica.nextSeq = r.nextSeq ∨ ∃ seq, outcome.replica.nextSeq = addUInt64 seq 1 := by
  cases commit_handling ran with
  | assigned => exact .inr ⟨_, rfl⟩
  | added gives =>
    have next := gives.admits.next
    split at next
    · exact .inr ⟨_, next⟩
    · exact .inl next
  | newView _ viewing =>
    cases viewing with
    | refused _ same => exact .inl (congrArg (fun outcome => outcome.replica.nextSeq) same)
    | installed _ _ loop after =>
      obtain ⟨duplicates, highest, same⟩ := (foldlM_redoing loop).frame
      have moved := congrArg (fun outcome => outcome.replica.nextSeq) after
      exact .inr ⟨_, moved.trans (congrArg Replica.nextSeq same)⟩
  | _ => exact .inl rfl

def nextSeqAfter (calls : List Call) : Nat := (calls.getLast?.elim 1 fun call => call.outcome.replica.nextSeq)

structure Windowed (config : ResDBConfig) (r : Replica) (calls : List Call) : Prop where
  same : r.config = config
  fits : r.nextSeq < 2 ^ 64
  next : r.nextSeq = nextSeqAfter calls
  chain : calls.IsChain fun first second => second.before.nextSeq = first.outcome.replica.nextSeq
  assigned : r.transactionExecutor.getMaxPendingExecutedSeq < 2 ^ 32 → ∀ call ∈ calls, ∀ t, Assigns t call →
    t ≤ r.transactionExecutor.getMaxPendingExecutedSeq + config.maxProcessTxn

theorem Windowed.called (windowed : Windowed config call.before calls) (ran : Ran call) :
    Windowed config call.outcome.replica (calls ++ [call]) := by
  have waiting := (commit_handling ran).collectors.2
  refine ⟨(ran_config ran).trans windowed.same, ?_, ?_, ?_, fun narrow other member t assigns => ?_⟩
  · rcases internalConsensusCommit_nextSeq ran with kept | ⟨seq, set⟩
    · rw [kept]
      exact windowed.fits
    · rw [set]
      exact Nat.mod_lt _ (by decide)
  · simp [nextSeqAfter]
  · refine isChain_append.mpr ⟨windowed.chain, .singleton _, fun first last second head => ?_⟩
    cases head
    rw [windowed.next, nextSeqAfter, last]
    rfl
  · simp only [TransactionExecutor.getMaxPendingExecutedSeq, waiting] at narrow ⊢
    rcases mem_append.mp member with old | new
    · exact windowed.assigned narrow other old t assigns
    · rw [mem_singleton.mp new] at assigns
      by_cases ahead : call.before.transactionExecutor.getMaxPendingExecutedSeq < call.before.nextSeq
      · have room := (assignNextSeq_iff narrow windowed.fits ahead).mp (assigns.handled ran).1
        rw [assigns.2.2, windowed.same] at room
        unfold TransactionExecutor.getMaxPendingExecutedSeq at room
        omega
      · rw [assigns.2.2] at ahead
        unfold TransactionExecutor.getMaxPendingExecutedSeq at ahead
        omega

theorem Windowed.thread {event : ServerEvent} (windowed : Windowed config r calls) (moved : Background r event r') :
    Windowed config r' calls := by
  have grows : r.transactionExecutor.getMaxPendingExecutedSeq ≤ r'.transactionExecutor.getMaxPendingExecutedSeq := by
    unfold TransactionExecutor.getMaxPendingExecutedSeq
    rcases moved.collectors with ⟨-, renews⟩ | ⟨-, next⟩
    · rw [renews.next]
      omega
    · rw [next]
  refine ⟨moved.threaded.config.trans windowed.same, ?_, ?_, windowed.chain, fun narrow call member t assigns => ?_⟩
  · rw [moved.nextSeq]
    exact windowed.fits
  · rw [moved.nextSeq]
    exact windowed.next
  · have bound := windowed.assigned (by omega) call member t assigns
    omega

theorem windowed_run (run : (server config).Run trace s) : Windowed config s.replica s.calls := by
  refine server_invariant run (Windowed config) ?_ ?_ ?_ ?_
  · exact fun _ _ _ => ⟨rfl, (by decide : 1 < 2 ^ 64), rfl, .nil, by simp⟩
  · exact fun _ _ _ _ _ windowed => ⟨windowed.same, windowed.fits, windowed.next, windowed.chain, windowed.assigned⟩
  · exact fun _ _ windowed ran _ => windowed.called ran
  · exact fun _ _ _ windowed moved _ => windowed.thread moved

theorem nextSeq_between {first second : Call} {between later : List Call}
    (chain : (first :: between ++ second :: later).IsChain fun first second =>
      second.before.nextSeq = first.outcome.replica.nextSeq)
    (kept : ∀ call ∈ between, call.outcome.replica.nextSeq = call.before.nextSeq) :
    second.before.nextSeq = first.outcome.replica.nextSeq := by
  induction between generalizing first with
  | nil => exact (isChain_cons_cons.mp chain).1
  | cons call rest ih =>
    obtain ⟨next, chain⟩ := isChain_cons_cons.mp chain
    rw [ih chain fun other member => kept other (mem_cons_of_mem _ member), kept call mem_cons_self, next]

theorem flow_control (run : (server config).Run trace s)
    (narrow : s.replica.transactionExecutor.getMaxPendingExecutedSeq < 2 ^ 32) (width : config.maxProcessTxn < 2 ^ 32) :
    (s.replica.transactionExecutor.getMaxPendingExecutedSeq < s.replica.nextSeq → (s.replica.assignNextSeq ≠ none ↔
        s.replica.nextSeq - s.replica.transactionExecutor.getMaxPendingExecutedSeq ≤ config.maxProcessTxn)) ∧
    (∀ past first between second later t t', s.calls = past ++ (first :: between ++ second :: later) →
      Assigns t first → Assigns t' second →
      (∀ call ∈ between, call.outcome.replica.nextSeq = call.before.nextSeq) → t' = t + 1) ∧
    ∀ unexecuted : Finset Nat, (∀ t ∈ unexecuted, s.replica.transactionExecutor.getMaxPendingExecutedSeq < t ∧
      ∃ call ∈ s.calls, Assigns t call) → unexecuted.card ≤ config.maxProcessTxn := by
  have windowed := windowed_run run
  have ran := (server_accounted run).ran
  refine ⟨fun ahead => ?_, ?_, fun unexecuted assigned => ?_⟩
  · rw [← windowed.same]
    exact assignNextSeq_iff narrow windowed.fits ahead
  · intro past first between second later t t' split one two kept
    have chain := windowed.chain
    rw [split] at chain
    have next := nextSeq_between (isChain_append.mp chain).2.1 kept
    have member : first ∈ s.calls := by simp [split]
    have bound := windowed.assigned narrow first member t one
    rw [two.2.2, (one.handled (ran first member)).2] at next
    rw [next]
    unfold addUInt64
    omega
  · have inside : unexecuted ⊆ Finset.Ioc s.replica.transactionExecutor.getMaxPendingExecutedSeq
        (s.replica.transactionExecutor.getMaxPendingExecutedSeq + config.maxProcessTxn) := by
      intro t member
      obtain ⟨later, call, made, assigns⟩ := assigned t member
      exact Finset.mem_Ioc.mpr ⟨later, windowed.assigned narrow call made t assigns⟩
    simpa using Finset.card_le_card inside

def primaryOne : ResDBConfig := { fourReplicas with selfInfo := ⟨1⟩ }

instance (t : Nat) (call : Call) : Decidable (Assigns t call) := inferInstanceAs (Decidable (_ ∧ _ ∧ _))

theorem two_assigned : ∃ trace s first second, (server primaryOne).Run trace s ∧ s.calls = [first, second] ∧
    Assigns 1 first ∧ Assigns 2 second ∧ s.replica.assignNextSeq ≠ none ∧
    ∀ unexecuted : Finset Nat, (∀ t ∈ unexecuted, 0 < t ∧ ∃ call ∈ s.calls, Assigns t call) →
      unexecuted.card ≤ 2048 := by
  obtain ⟨trace, s, run, checked⟩ := exists_server_run primaryOne
    [(hearFrom 1 plainEnv 0 { type := .newTxns, hash := "a" }).2,
      (hearFrom 1 plainEnv 0 { type := .newTxns, hash := "b" }).2]
    (fun _ s => s.calls.length = 2 && s.calls.head?.any (fun first => s.calls.getLast?.any fun second =>
      decide (Assigns 1 first ∧ Assigns second.before.nextSeq second ∧ s.replica.nextSeq = 3 ∧
        s.replica.transactionExecutor.getMaxPendingExecutedSeq = 0))) (by decide +kernel)
  rw [Bool.and_eq_true, decide_eq_true_iff, length_eq_two] at checked
  obtain ⟨⟨first, second, calls⟩, checked⟩ := checked
  rw [calls] at checked
  obtain ⟨one, two, next, none⟩ := of_decide_eq_true checked
  obtain ⟨accepts, inTurn, bounded⟩ := flow_control run (by rw [none]; decide) (by decide)
  rw [none] at accepts bounded
  have turn := inTurn [] first [] second [] 1 _ calls one two (by simp)
  rw [turn] at two
  refine ⟨trace, s, first, second, run, calls, one, two, (accepts (by omega)).mpr ?_, bounded⟩
  rw [next]
  decide

def backlog (k : Nat) : List Request := (List.range' (k + 1) (2 ^ 32 - k)).map fun seq => { seq := seq }

theorem backlog_next {k : Nat} (low : k < 2 ^ 32) : backlog k = { seq := k + 1 } :: backlog (k + 1) := by
  obtain ⟨rest, more⟩ : ∃ rest, 2 ^ 32 - k = rest + 1 := ⟨2 ^ 32 - k - 1, by omega⟩
  have less : 2 ^ 32 - (k + 1) = rest := by omega
  rw [backlog, backlog, more, less, range'_succ, map_cons]

def backlogEnv (sender : Int) : Env :=
  { plainEnv with
    calculateHash := fun _ => ""
    getRequestFromReplica := fun _ _ _ => some (backlog 0)
    codec := { plainEnv.codec with
      parseMessage := fun buff => some ⟨buff, some ⟨sender, "signature"⟩⟩
      parseRequest := fun _ => some { type := .checkpoint, senderId := sender }
      parseCheckPointData := fun _ => some { seq := 5 } } }

theorem backlog_chained (first size : Nat) : CheckPointManager.chainHash (backlogEnv 1) ""
    ((List.range' first size).map fun seq => { seq := seq }) = some "" := by
  induction size generalizing first with
  | zero => rfl
  | succ size ih =>
    rw [range'_succ, map_cons]
    exact ih (first + 1)

structure Polled (r : Replica) : Prop where
  config : r.config = primaryOne
  systemInfo : r.systemInfo = { primaryId := 1 }
  executor : r.transactionExecutor = {}
  nextSeq : r.nextSeq = 1
  duplicates : r.duplicateManager = {}
  newData : r.checkpointManager.newData = 2
  lastSeq : r.checkpointManager.lastSeq = 0
  lastHash : r.checkpointManager.lastHash = ""
  lastCommittableSeq : r.checkpointManager.lastCommittableSeq = 0
  votes : r.checkpointManager.senderCkpt.entries = [(toLex (5, ""), {1, 2})]

structure Rested (k : Nat) (r : Replica) : Prop where
  config : r.config = primaryOne
  systemInfo : r.systemInfo = { primaryId := 1 }
  next : r.transactionExecutor.nextExecuteSeq = k + 1
  empty : r.transactionExecutor.candidates = .empty
  waiting : r.transactionExecutor.commitQueue = backlog k
  nextSeq : r.nextSeq = k + 1
  duplicates : r.duplicateManager = {}

theorem Polled.fetches {requests : List Request} (voted : Polled r)
    (asked : ∀ first last replica, env.getRequestFromReplica first last replica = some requests)
    (chained : CheckPointManager.chainHash env "" requests = some "") :
    (r.checkpointManager.updateStableCheckPointStatus env r.config).2 = requests := by
  have sender : toUInt32 1 ∈ ({1, 2} : Finset Nat) := by decide
  rw [voted.config]
  simp [CheckPointManager.updateStableCheckPointStatus, voted.newData, voted.votes, CheckPointManager.visitCkpt,
    voted.lastSeq, voted.lastCommittableSeq, voted.lastHash, primaryOne, fourReplicas, CheckPointManager.catchUp, asked,
    chained, sender]
  rfl

theorem foldl_commit {e : TransactionExecutor} (inOrder : e.outOfOrder = false) (requests : List Request) :
    requests.foldl TransactionExecutor.commit e = { e with commitQueue := e.commitQueue ++ requests } := by
  induction requests generalizing e with
  | nil => simp
  | cons request rest ih =>
    rw [foldl_cons, TransactionExecutor.commit, if_neg (by simp [inOrder]), ih, append_assoc]
    · rfl
    · exact inOrder

theorem Polled.rested (voted : Polled r) : Rested 0 (r.updateStableCheckPointStatus (backlogEnv 1)).1 := by
  have executor : (r.updateStableCheckPointStatus (backlogEnv 1)).1.transactionExecutor =
      { commitQueue := backlog 0 } := by
    change List.foldl _ _ (r.checkpointManager.updateStableCheckPointStatus (backlogEnv 1) r.config).2 = _
    rw [voted.fetches (fun _ _ _ => rfl) (backlog_chained 1 (2 ^ 32)), voted.executor, foldl_commit rfl]
    rfl
  exact ⟨voted.config, voted.systemInfo, by rw [executor], by rw [executor], by rw [executor], voted.nextSeq,
    voted.duplicates⟩

def Attains (good : Replica → Prop) : Prop := ∃ trace s, (server primaryOne).Run trace s ∧ good s.replica

theorem attains_first : Attains (Rested 0) := by
  have played : System.play serverAct ([], { replica := Replica.create primaryOne })
      ([1, 2].map fun sender => .process (fun _ => backlogEnv sender) "checkpoint") = some _ := rfl
  obtain ⟨trace, s, run, voted⟩ : Attains Polled :=
    ⟨_, _, System.Run.play (serverAct_sound primaryOne) (.initial (startServer_initial primaryOne)) played, rfl, rfl,
      rfl, rfl, rfl, rfl, rfl, rfl, rfl, by decide⟩
  have step : (server primaryOne).step s (.updateStableCheckPointStatus (backlogEnv 1)) _ := rfl
  exact ⟨_, _, run.next step, voted.rested⟩

def asks : Request := { type := .newTxns, hash := "a" }

def asksContext : Context := ⟨⟨1, "signature"⟩⟩

def asksEnv : Env :=
  { plainEnv with codec := { plainEnv.codec with
      parseMessage := fun buff => some ⟨buff, some asksContext.signature⟩
      parseRequest := fun _ => some asks } }

def proposedOnce : DuplicateManager where
  proposedHashSet := {"a"}
  proposedHashTimeQueue := [("a", 0)]

theorem assignNextSeq_next {k : Nat} (low : k < 2 ^ 32) (config : r.config = primaryOne)
    (executed : r.transactionExecutor.nextExecuteSeq = k + 1) (next : r.nextSeq = k + 1) :
    r.assignNextSeq = some (k + 1, { r with nextSeq := k + 2 }) := by
  have whole : toUInt32 (k : Int) = k := by
    unfold toUInt32
    omega
  have difference : subUInt64 (k + 1) k = 1 := by
    unfold subUInt64
    omega
  have successor : addUInt64 (k + 1) 1 = k + 2 := by
    unfold addUInt64
    omega
  simp only [Replica.assignNextSeq, executed, TransactionExecutor.getMaxPendingExecutedSeq, Nat.add_sub_cancel, whole,
    next, difference, successor, config]
  rfl

theorem executor_passes {e : TransactionExecutor} {k : Nat} {rest : List Request} (next : e.nextExecuteSeq = k + 1)
    (empty : e.candidates = .empty) (waiting : e.commitQueue = { seq := k + 1 } :: rest) :
    e.takeMessage.passNext = some { e with
      nextExecuteSeq := k + 2, commitQueue := rest, executeQueue := e.executeQueue ++ [{ seq := k + 1 }] } := by
  obtain ⟨_, _, _, _, _, _, _⟩ := e
  cases next
  cases empty
  cases waiting
  simp [TransactionExecutor.takeMessage, TransactionExecutor.addNewData, TransactionExecutor.passNext,
    TransactionExecutor.getNextData, OrderedMap.insertNew, OrderedMap.alter, OrderedMap.alterIn,
    OrderedMap.first?, OrderedMap.eraseIf]

section

variable {k : Nat} (rested : Rested k s.replica) (low : k < 2 ^ 32)
include rested low

theorem Rested.asked : ∃ s', (server primaryOne).step s (.process (fun _ => asksEnv) "message") s' ∧
    s'.replica = { s.replica with duplicateManager := proposedOnce, nextSeq := k + 2 } := by
  have proposes : s.replica.processNewRequest asksEnv asksContext asks =
      Replica.proposeRequest { s.replica with duplicateManager := proposedOnce } asks := by
    simp only [Replica.processNewRequest, rested.duplicates, rested.config, Replica.getCurrentPrimary,
      rested.systemInfo]
    rfl
  have assigned : Replica.assignNextSeq { s.replica with duplicateManager := proposedOnce } = _ :=
    assignNextSeq_next low rested.config rested.next rested.nextSeq
  have off : s.replica.config.enableViewchange = false := by
    rw [rested.config]
    rfl
  have type : asks.type = .newTxns := rfl
  obtain ⟨done, committed, replica⟩ : ∃ done, s.replica.consensusCommit (fun _ => asksEnv) asksContext asks = .ok done ∧
      done.1.replica = { s.replica with duplicateManager := proposedOnce, nextSeq := k + 2 } := by
    unfold Replica.consensusCommit
    rw [if_pos (by simp [off])]
    simp only [Progress.call, Replica.internalConsensusCommit, type, proposes, Replica.proposeRequest, assigned]
    exact ⟨_, rfl, rfl⟩
  exact ⟨_, bind_eq_ok.mpr ⟨done, committed, rfl⟩, replica⟩

theorem Rested.passed : ∃ next, (Replica.updateRecentHash
    { s.replica with duplicateManager := proposedOnce, nextSeq := k + 2 } 20000001).takeMessage.passNext = some next ∧
      Rested (k + 1) next := by
  have passes := executor_passes rested.next rested.empty (rested.waiting.trans (backlog_next low))
  have forgotten : proposedOnce.updateRecentHash 20000001 = {} := by
    simp [proposedOnce, DuplicateManager.updateRecentHash, DuplicateManager.expireProposed,
      DuplicateManager.expireExecuted, DuplicateManager.eraseProposed]
  simp only [Replica.passNext, Replica.takeMessage, Replica.updateRecentHash, passes, forgotten]
  exact ⟨_, rfl, rested.config, rested.systemInfo, rfl, rested.empty, rfl, rfl, rfl⟩

end

theorem Attains.round {k : Nat} (attains : Attains (Rested k)) (low : k < 2 ^ 32) : Attains (Rested (k + 1)) := by
  obtain ⟨trace, s, run, rested⟩ := attains
  obtain ⟨s', asked, same⟩ := rested.asked low
  obtain ⟨next, passed, after⟩ := rested.passed low
  rw [← same] at passed
  have forgets : (server primaryOne).step s' (.updateRecentHash 20000001)
      (s'.setReplica (s'.replica.updateRecentHash 20000001)) := rfl
  have takes : (server primaryOne).step (s'.setReplica (s'.replica.updateRecentHash 20000001)) .takeMessage
      (s'.setReplica (s'.replica.updateRecentHash 20000001).takeMessage) := rfl
  have passes : (server primaryOne).step (s'.setReplica (s'.replica.updateRecentHash 20000001).takeMessage) .passNext
      (s'.setReplica next) := by
    change Except.ok (Option.map _ (s'.replica.updateRecentHash 20000001).takeMessage.passNext) = _
    rw [passed]
    rfl
  exact ⟨_, _, (((run.next asked).next forgets).next takes).next passes, after⟩

theorem attains_rested (k : Nat) (low : k ≤ 2 ^ 32) : Attains (Rested k) := by
  induction k with
  | zero => exact attains_first
  | succ k ih => exact (ih (by omega)).round (by omega)

theorem primary_stops : ∃ trace s, (server primaryOne).Run trace s ∧
    s.replica.config.selfId = s.replica.getCurrentPrimary ∧
    s.replica.transactionExecutor.getMaxPendingExecutedSeq = 2 ^ 32 ∧ s.replica.nextSeq = 2 ^ 32 + 1 ∧
    s.replica.nextSeq - s.replica.transactionExecutor.getMaxPendingExecutedSeq ≤ primaryOne.maxProcessTxn ∧
    s.replica.assignNextSeq = none := by
  obtain ⟨trace, s, run, rested⟩ := attains_rested (2 ^ 32) le_rfl
  have executed : s.replica.transactionExecutor.getMaxPendingExecutedSeq = 2 ^ 32 := by
    rw [TransactionExecutor.getMaxPendingExecutedSeq, rested.next]
    rfl
  have cut : toUInt32 ((2 ^ 32 : Nat) : Int) = 0 := by decide
  refine ⟨trace, s, run, ?_, executed, rested.nextSeq, ?_, ?_⟩
  · simp only [Replica.getCurrentPrimary, rested.config, rested.systemInfo]
    rfl
  · rw [executed, rested.nextSeq]
    decide
  · have full : subUInt64 (2 ^ 32 + 1) 0 > primaryOne.maxProcessTxn := by decide
    simp only [Replica.assignNextSeq, executed, cut, rested.nextSeq, rested.config]
    rw [if_pos full]

end ResilientDB.Proof
