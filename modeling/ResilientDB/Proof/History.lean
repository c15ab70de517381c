import ResilientDB.Library.HashChain
import ResilientDB.Proof.Collectors

namespace ResilientDB.Proof
open Model Library List

variable {config : ResDBConfig} {hash : String → String} {r r' : Replica} {s s' : Server} {event : ServerEvent}
  {past : List (Transition Server ServerEvent)} {env : Env} {request : Request} {rest : List Request}

def executes (s : Server) : ServerEvent → List Request
  | .executeMessage _ => s.replica.transactionExecutor.executeQueue.head?.toList
  | _ => []

def executions : List (Transition Server ServerEvent) → List Request
  | [] => []
  | t :: past => executions past ++ executes t.before t.event

def hashesOf (requests : List Request) : List String := requests.map fun request => request.hash

def historyHash (hash : String → String) (hashes : List String) : String := chain hash (· ++ ·) "" hashes

def signs (s : Server) : ServerEvent → Option (Nat × String)
  | .updateCheckPointStatus env =>
    let (r, sent) := s.replica.updateCheckPointStatus env
    if sent.isEmpty then none else some (r.checkpointManager.lastCkptSeq, r.checkpointManager.lastHash)
  | _ => none

def Signed (trace : List (Transition Server ServerEvent)) (seq : Nat) (ckptHash : String) : Prop :=
  ∃ t ∈ trace, signs t.before t.event = some (seq, ckptHash)
deriving Decidable

structure Ledger where
  passed : List Request
  next : Nat
  enabled : Bool
  data : List Request
  lastSeq : Nat
  lastHash : String

def ledger (r : Replica) : Ledger where
  passed := r.transactionExecutor.executeQueue
  next := r.transactionExecutor.nextExecuteSeq
  enabled := r.checkpointManager.isCheckPointEnabled
  data := r.checkpointManager.dataQueue
  lastSeq := r.checkpointManager.lastSeq
  lastHash := r.checkpointManager.lastHash

abbrev Keyed (r : Replica) : Prop := Stocked (fun _ => True) r.transactionExecutor

structure SameLedger (r r' : Replica) : Prop where
  same : ledger r' = ledger r
  keyed : Keyed r → Keyed r'

theorem SameLedger.of_managers (executor : r'.transactionExecutor = r.transactionExecutor)
    (manager : ledger { r with checkpointManager := r'.checkpointManager } = ledger r) : SameLedger r r' := by
  constructor
  · rw [← manager]
    unfold ledger
    rw [executor]
  · intro keyed
    unfold Keyed
    rwa [executor]

theorem SameLedger.commit {message : Request} (executor : r'.transactionExecutor = r.transactionExecutor.commit message)
    (manager : ledger { r with checkpointManager := r'.checkpointManager } = ledger r) : SameLedger r r' := by
  have commits := commit_commits r.transactionExecutor message
  constructor
  · rw [← manager]
    unfold ledger
    rw [executor, commits.executeQueue, commits.next]
  · intro keyed
    unfold Keyed
    rw [executor]
    exact keyed.commit trivial

theorem handling_ledger {context : Context} {outcome : Outcome}
    (handling : Handling r env context request outcome) : SameLedger r outcome.replica := by
  cases handling with
  | @added result =>
    obtain ⟨collector, ret, changed, committed⟩ := result
    cases committed with
    | none => exact .of_managers rfl rfl
    | some message => exact @SameLedger.commit r _ message rfl rfl
  | _ => exact .of_managers rfl rfl

theorem takeMessage_ledger (r : Replica) : SameLedger r r.takeMessage := by
  refine ⟨?_, Stocked.takeMessage⟩
  unfold ledger Replica.takeMessage TransactionExecutor.takeMessage
  split
  · rfl
  · dsimp only
    split <;> rfl

theorem foldl_commit_ledger (requests : List Request) (r : Replica) :
    SameLedger r { r with transactionExecutor := requests.foldl TransactionExecutor.commit r.transactionExecutor } := by
  induction requests generalizing r with
  | nil => exact .of_managers rfl rfl
  | cons request rest ih =>
    have first : SameLedger r { r with transactionExecutor := r.transactionExecutor.commit request } := .commit rfl rfl
    have others := ih { r with transactionExecutor := r.transactionExecutor.commit request }
    exact ⟨others.same.trans first.same, fun keyed => others.keyed (first.keyed keyed)⟩

theorem updateStable_ledger (env : Env) (r : Replica) : SameLedger r (r.updateStableCheckPointStatus env).1 := by
  have handed := foldl_commit_ledger (r.checkpointManager.updateStableCheckPointStatus env r.config).2 r
  have manager : ledger { r with
      checkpointManager := (r.checkpointManager.updateStableCheckPointStatus env r.config).1 } = ledger r := by
    rcases updateStable_eq env r.config r.checkpointManager with same | ⟨visited, requests, seq, ckptHash, loop, same⟩
    · rw [same]
    · have frame := foldl_visitCkpt_visited env r.config r.checkpointManager.senderCkpt.entries
        (r.checkpointManager, [], 0, "")
      rw [loop] at frame
      obtain ⟨_, _, _, _, _, frame⟩ := frame
      dsimp only at frame
      rw [same, frame]
      unfold CheckPointManager.setStable
      split <;> rfl
  constructor
  · rw [← handed.same]
    unfold ledger at manager ⊢
    simp only [Ledger.mk.injEq] at manager
    simp only [Replica.updateStableCheckPointStatus, manager]
  · exact handed.keyed

structure History (hash : String → String) (past : List (Transition Server ServerEvent)) (r : Replica) : Prop where
  keyed : Keyed r
  started : 1 ≤ (ledger r).next
  numbered : (executions past ++ (ledger r).passed).map (fun request => request.seq) =
    List.range' 1 ((ledger r).next - 1)
  bounded : (ledger r).lastSeq ≤ (executions past).length
  queue : (ledger r).enabled = true → (ledger r).data = (executions past).drop (ledger r).lastSeq
  unused : (ledger r).enabled = false → (ledger r).data = []
  hashed : (ledger r).lastHash = historyHash hash (hashesOf ((executions past).take (ledger r).lastSeq))
  signed : ∀ seq ckptHash, Signed past seq ckptHash → seq ≤ (executions past).length ∧
    ckptHash = historyHash hash (hashesOf ((executions past).take seq))

section

variable (history : History hash past r)
include history

theorem History.same (same : SameLedger r r') : History hash past r' := by
  obtain ⟨keyed, started, numbered, bounded, queue, unused, hashed, signed⟩ := history
  rw [← same.same] at started numbered bounded queue unused hashed
  exact ⟨same.keyed keyed, started, numbered, bounded, queue, unused, hashed, signed⟩

theorem History.next {t : Transition Server ServerEvent} (none : executes t.before t.event = [])
    (right : ∀ seq ckptHash, signs t.before t.event = some (seq, ckptHash) → seq ≤ (executions past).length ∧
      ckptHash = historyHash hash (hashesOf ((executions past).take seq))) : History hash (t :: past) r := by
  obtain ⟨keyed, started, numbered, bounded, queue, unused, hashed, signed⟩ := history
  have same : executions (t :: past) = executions past := by
    rw [executions, none, append_nil]
  rw [← same] at numbered bounded queue hashed signed right
  refine ⟨keyed, started, numbered, bounded, queue, unused, hashed, ?_⟩
  rintro seq ckptHash ⟨u, member, here⟩
  rcases mem_cons.mp member with rfl | old
  · exact right seq ckptHash here
  · exact signed seq ckptHash ⟨u, old, here⟩

theorem History.idle {t : Transition Server ServerEvent}
    (none : executes t.before t.event = []) (silent : signs t.before t.event = .none) :
    History hash (t :: past) r := by
  refine history.next none fun seq ckptHash here => ?_
  rw [silent] at here
  cases here

theorem History.numbers {seq : Nat} (bounded : seq ≤ (executions past).length) :
    ((executions past).take seq).map (fun request => request.seq) = List.range' 1 seq := by
  have numbered := history.numbered
  have total := congrArg List.length numbered
  rw [length_map, length_append, length_range'] at total
  obtain ⟨rest, split⟩ := Nat.exists_eq_add_of_le (show seq ≤ (ledger r).next - 1 by omega)
  have early := congrArg (List.take seq) numbered
  rw [← map_take, take_append_of_le_length bounded, split, ← range'_append_1, take_left' (by simp)] at early
  exact early

theorem History.due {n : Nat} (here : (executions past).drop n = request :: rest) : request.seq = n + 1 := by
  have entry : (executions past)[n]? = some request := by
    rw [← head?_drop, here, head?_cons]
  obtain ⟨inside, -⟩ := List.getElem?_eq_some_iff.mp entry
  have number := congrArg (fun numbers => numbers[n]?) history.numbered
  simp only [getElem?_map, getElem?_append_left inside, entry, Option.map_some] at number
  obtain ⟨short, same⟩ := List.getElem?_eq_some_iff.mp number.symm
  rw [getElem_range'_1] at same
  omega

theorem History.passNext (passed : r.passNext = some r') : History hash past r' := by
  obtain ⟨executor, advanced, same⟩ := passNext_eq passed
  obtain ⟨message, passes⟩ := passNext_passes advanced
  have seq : message.seq = r.transactionExecutor.nextExecuteSeq := (history.keyed.waiting _ passes.candidate).2
  have started := history.started
  rw [same]
  refine ⟨passes.stocked history.keyed, ?_, ?_, history.bounded, history.queue, history.unused, history.hashed,
    history.signed⟩
  · simp only [ledger, passes.next]
    omega
  · have numbered := history.numbered
    simp only [ledger] at started numbered ⊢
    have next : executor.nextExecuteSeq - 1 = r.transactionExecutor.nextExecuteSeq - 1 + 1 := by
      rw [passes.next]
      omega
    rw [passes.executeQueue, ← append_assoc, map_append, numbered, next, range'_concat, map_singleton, seq]
    congr 2
    omega

end

theorem addCommitData_spec (m : CheckPointManager) (request : Request) :
    (m.addCommitData request).lastSeq = m.lastSeq ∧ (m.addCommitData request).lastHash = m.lastHash ∧
      (m.addCommitData request).isCheckPointEnabled = m.isCheckPointEnabled ∧
      (m.addCommitData request).dataQueue = if m.isCheckPointEnabled then m.dataQueue ++ [request] else m.dataQueue :=
        by
  unfold CheckPointManager.addCommitData
  split
  · exact ⟨rfl, rfl, rfl, rfl⟩
  · exact ⟨rfl, rfl, rfl, rfl⟩

theorem History.executeMessage (history : History hash past s.replica) :
    History hash (⟨s, .executeMessage env, s'⟩ :: past) (s.replica.executeMessage env).1 := by
  have earlier : ∀ seq ckptHash, Signed (⟨s, .executeMessage env, s'⟩ :: past) seq ckptHash →
      Signed past seq ckptHash := by
    rintro seq ckptHash ⟨u, member, here⟩
    rcases mem_cons.mp member with rfl | old
    · cases here
    · exact ⟨u, old, here⟩
  unfold Replica.executeMessage
  split
  · rename_i empty
    refine history.idle ?_ rfl
    simp [executes, empty]
  rename_i request rest queue
  have more : executions (⟨s, .executeMessage env, s'⟩ :: past) = executions past ++ [request] := by
    simp [executions, executes, queue]
  obtain ⟨keyed, started, numbered, bounded, data, unused, hashed, signed⟩ := history
  have longer : (ledger s.replica).lastSeq ≤ (executions past ++ [request]).length := by
    rw [length_append]
    omega
  obtain ⟨lastSeq, lastHash, enabled, dataQueue⟩ := addCommitData_spec s.replica.checkpointManager request
  refine ⟨⟨keyed.queued, keyed.waiting⟩, started, ?_, ?_, ?_, ?_, ?_, ?_⟩
  · rw [more]
    simp only [ledger, queue] at numbered ⊢
    simpa using numbered
  · rw [more]
    simp only [ledger, lastSeq] at longer ⊢
    exact longer
  · intro on
    rw [more]
    simp only [ledger, lastSeq, dataQueue, enabled] at on data bounded ⊢
    rw [if_pos on, data on, drop_append_of_le_length bounded]
  · intro off
    simp only [ledger, dataQueue, enabled] at off unused ⊢
    rw [if_neg (by simp [off]), unused off]
  · rw [more]
    simp only [ledger, lastSeq, lastHash] at hashed bounded ⊢
    rw [hashed, take_append_of_le_length bounded]
  · intro seq ckptHash voted
    obtain ⟨short, same⟩ := signed seq ckptHash (earlier seq ckptHash voted)
    rw [more, take_append_of_le_length short, length_append]
    exact ⟨by omega, same⟩

theorem updateCheckPointStatus_next {env : Env} {m : CheckPointManager} {request : Request} {rest : List Request}
    (queue : m.dataQueue = request :: rest) (next : request.seq = m.lastSeq + 1) :
    ∃ db ckpt, (m.updateCheckPointStatus env config).1 = { m with
        dataQueue := rest, lastHash := env.calculateHash (m.lastHash ++ request.hash), lastSeq := m.lastSeq + 1
        txnDb := db, lastCkptSeq := ckpt } ∧
      ((m.updateCheckPointStatus env config).2 ≠ none → ckpt = m.lastSeq + 1) := by
  unfold CheckPointManager.updateCheckPointStatus
  simp only [queue, next, ne_eq, not_true_eq_false, ↓reduceIte]
  split
  · exact ⟨_, _, rfl, fun _ => rfl⟩
  · exact ⟨_, _, rfl, fun sent => absurd rfl sent⟩

theorem hashesOf_take_succ {requests : List Request} {n : Nat} {request : Request} {rest : List Request}
    (here : requests.drop n = request :: rest) :
    historyHash hash (hashesOf (requests.take (n + 1))) =
      hash (historyHash hash (hashesOf (requests.take n)) ++ request.hash) := by
  have head : requests[n]? = some request := by
    rw [← head?_drop, here, head?_cons]
  rw [take_add_one, head, Option.toList_some, hashesOf, map_append, map_singleton]
  exact chain_append_singleton _

theorem History.waiting {request : Request} {rest : List Request} (history : History hash past r)
    (queue : r.checkpointManager.dataQueue = request :: rest) :
    (ledger r).enabled = true ∧ (executions past).drop (ledger r).lastSeq = request :: rest := by
  have enabled : (ledger r).enabled = true := by
    by_contra off
    have empty := history.unused (by simpa using off)
    simp only [ledger, queue] at empty
    cases empty
  refine ⟨enabled, ?_⟩
  rw [← history.queue enabled]
  exact queue

theorem History.chained (history : History hash past r)
    (hashing : env.calculateHash = hash) (queue : r.checkpointManager.dataQueue = request :: rest) :
    History hash past (r.updateCheckPointStatus env).1 ∧
      ((r.checkpointManager.updateCheckPointStatus env r.config).2 ≠ none →
        (r.updateCheckPointStatus env).1.checkpointManager.lastCkptSeq =
          (ledger (r.updateCheckPointStatus env).1).lastSeq) := by
  obtain ⟨enabled, data⟩ := history.waiting queue
  have short : (ledger r).lastSeq + 1 ≤ (executions past).length := by
    have size := congrArg List.length data
    simp only [length_drop, length_cons] at size
    omega
  obtain ⟨db, ckpt, moved, fresh⟩ := @updateCheckPointStatus_next r.config env _ _ _ queue (history.due data)
  have after : (r.updateCheckPointStatus env).1.checkpointManager =
      (r.checkpointManager.updateCheckPointStatus env r.config).1 := rfl
  rw [moved] at after
  have hashed := @hashesOf_take_succ hash _ _ _ _ data
  rw [← history.hashed, ← congrFun hashing] at hashed
  refine ⟨⟨history.keyed, history.started, history.numbered, ?_, ?_, ?_, ?_, history.signed⟩, fun broadcast => ?_⟩
  · simp only [ledger, after]
    exact short
  · intro on
    simp only [ledger, after]
    rw [← tail_drop]
    exact (congrArg List.tail data).symm
  · intro off
    simp only [ledger, after] at off enabled
    rw [off] at enabled
    cases enabled
  · simp only [ledger, after]
    exact hashed.symm
  · rw [after]
    simp only [ledger, after]
    exact fresh broadcast

theorem History.updateCheckPointStatus (history : History hash past s.replica) (hashing : env.calculateHash = hash) :
    History hash (⟨s, .updateCheckPointStatus env, s.setReplica (s.replica.updateCheckPointStatus env).1⟩ :: past)
      (s.replica.updateCheckPointStatus env).1 := by
  cases queue : s.replica.checkpointManager.dataQueue with
  | nil =>
    have still : s.replica.updateCheckPointStatus env = (s.replica, []) := by
      unfold Replica.updateCheckPointStatus
      rw [updateCheckPointStatus_idle queue]
      rfl
    rw [still]
    refine history.idle rfl ?_
    simp [signs, still]
  | cons request rest =>
    obtain ⟨chained, last⟩ := history.chained hashing queue
    refine chained.next rfl ?_
    intro seq ckptHash signed
    simp only [signs] at signed
    split at signed
    · cases signed
    rename_i sent
    have broadcast : (s.replica.checkpointManager.updateCheckPointStatus env s.replica.config).2 ≠ none := by
      intro silent
      apply sent
      unfold Replica.updateCheckPointStatus
      simp [silent]
    rw [last broadcast] at signed
    cases signed
    exact ⟨chained.bounded, chained.hashed⟩

theorem History.create (config : ResDBConfig) (outOfOrder needResponse needQc : Bool) :
    History hash [] { Replica.create config with
      transactionExecutor := { outOfOrder := outOfOrder, needResponse := needResponse }, needQc := needQc } := by
  refine ⟨⟨by simp, ?_⟩, le_rfl, rfl, le_rfl, fun _ => rfl, fun _ => rfl, rfl, ?_⟩
  · intro entry member
    cases member
  · rintro seq ckptHash ⟨t, member, -⟩
    cases member

theorem History.thread {event : ServerEvent} (history : History hash past s.replica)
    (moved : Background s.replica event r')
    (hashing : ∀ env, event = .updateCheckPointStatus env → env.calculateHash = hash) :
    History hash (⟨s, event, s.setReplica r'⟩ :: past) r' := by
  cases moved with
  | takeMessage => exact (history.same (takeMessage_ledger _)).idle rfl rfl
  | passNext passed => exact (history.passNext passed).idle rfl rfl
  | executeMessage env => exact history.executeMessage
  | updateRecentHash time =>
    refine History.idle (history.same ?_) rfl rfl
    exact .of_managers rfl rfl
  | updateCheckPointStatus env => exact history.updateCheckPointStatus (hashing env rfl)
  | updateStableCheckPointStatus env => exact (history.same (updateStable_ledger env _)).idle rfl rfl
  | monitorTimeout env ran =>
    obtain ⟨status, counter, timers, last, rfl⟩ := monitorTimeout_timed ran
    refine History.idle (history.same ?_) rfl rfl
    exact .of_managers rfl rfl
  | monitorCheckpointState =>
    obtain ⟨signal, status, counter, timers, last, same⟩ := monitorCheckpointState_timed s.replica
    rw [same]
    refine History.idle (history.same ?_) rfl rfl
    exact .of_managers rfl rfl

theorem history_run {trace : List (Transition Server ServerEvent)} (run : (server config).Run trace s)
    (hashing : ∀ t ∈ trace, ∀ env, t.event = .updateCheckPointStatus env → env.calculateHash = hash) :
    History hash trace s.replica := by
  refine server_history run (fun past r _ => History hash past r) ?_ ?_ ?_ ?_ ?_
  · exact History.create config
  · intro past r calls pending complained started history
    exact history.same ⟨rfl, fun keyed => keyed⟩
  · intro past calls call history ran _
    exact history.same (handling_ledger (commit_handling ran))
  · intro past before envs buff after r calls history
    exact history.idle rfl rfl
  · intro past s event r' history moved member
    exact history.thread moved (hashing _ member)

end ResilientDB.Proof
