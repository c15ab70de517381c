import ResilientDB.Proof.CatchUp
import ResilientDB.Proof.Counter

namespace ResilientDB.Proof
open Model Library List

variable {config : ResDBConfig} {env : Env} {r r' : Replica} {s s' : Server}
  {past trace : List (Transition Server ServerEvent)} {hash : String → String} {m : CheckPointManager}
  {requests : List Request} {last seq : Nat}

structure Stored (past : List (Transition Server ServerEvent)) (d : DigestState) : Prop where
  unused : d.enabled = false → d.lastSeq = 0
  stored : ∀ n < d.lastSeq, d.stored (n + 1) = (executions past)[n]?

theorem Stored.next {d : DigestState} {t : Transition Server ServerEvent} (stored : Stored past d)
    (none : executes t.before t.event = []) : Stored (t :: past) d := by
  refine ⟨stored.unused, fun n reached => ?_⟩
  rw [executions, none, append_nil]
  exact stored.stored n reached

theorem updateStable_digestState (env : Env) (m : CheckPointManager) :
    digestState (m.updateStableCheckPointStatus env config).1 = digestState m := by
  rw [CheckPointManager.updateStableCheckPointStatus_eq]
  split_ifs
  · rfl
  · dsimp only
    rw [setStable_digestState, chooseStable_digestState]

theorem Stored.executeMessage (stored : Stored past (digestState s.replica.checkpointManager))
    (bounded : s.replica.checkpointManager.lastSeq ≤ (executions past).length) :
    Stored (⟨s, .executeMessage env, s'⟩ :: past) (digestState (s.replica.executeMessage env).1.checkpointManager) := by
  obtain ⟨unused, stored⟩ := stored
  unfold Replica.executeMessage
  split
  · rename_i empty
    refine Stored.next ⟨unused, stored⟩ ?_
    simp [executes, empty]
  rename_i request rest queue
  have more : executions (⟨s, .executeMessage env, s'⟩ :: past) = executions past ++ [request] := by
    simp [executions, executes, queue]
  dsimp only
  unfold CheckPointManager.addCommitData
  split_ifs with on
  · refine ⟨unused, fun n reached => ?_⟩
    rw [more, getElem?_append_left (reached.trans_le bounded)]
    exact stored n reached
  · have zero := unused (by simpa [digestState] using on)
    refine ⟨unused, fun n reached => ?_⟩
    exact absurd reached (by simp [digestState] at zero ⊢; omega)

theorem Stored.updateCheckPointStatus (history : History hash past r)
    (stored : Stored past (digestState r.checkpointManager)) :
    Stored past (digestState (r.updateCheckPointStatus env).1.checkpointManager) := by
  change Stored past (digestState (r.checkpointManager.updateCheckPointStatus env r.config).1)
  cases queue : r.checkpointManager.dataQueue with
  | nil =>
    rw [updateCheckPointStatus_idle queue]
    exact stored
  | cons request rest =>
    obtain ⟨enabled, data⟩ := history.waiting queue
    have head : (executions past)[r.checkpointManager.lastSeq]? = some request := by
      rw [← head?_drop]
      exact congrArg List.head? data
    rw [(updateCheckPointStatus_accept queue (history.due data)).1]
    refine ⟨fun off => ?_, fun n reached => ?_⟩
    · rw [show r.checkpointManager.isCheckPointEnabled = true from enabled] at off
      cases off
    · dsimp only at reached ⊢
      rcases Nat.lt_succ_iff_lt_or_eq.mp reached with before | rfl
      · rw [Function.update_of_ne (by omega)]
        exact stored.stored n before
      · rw [Function.update_self, head]

theorem Stored.thread {event : ServerEvent} (history : History hash past s.replica)
    (stored : Stored past (digestState s.replica.checkpointManager)) (moved : Background s.replica event r') :
    Stored (⟨s, event, s.setReplica r'⟩ :: past) (digestState r'.checkpointManager) := by
  cases moved with
  | passNext passed =>
    obtain ⟨executor, -, rfl⟩ := passNext_eq passed
    exact stored.next rfl
  | executeMessage env => exact stored.executeMessage history.bounded
  | updateCheckPointStatus env => exact (Stored.updateCheckPointStatus history stored).next rfl
  | updateStableCheckPointStatus env =>
    dsimp only [Replica.updateStableCheckPointStatus]
    rw [updateStable_digestState]
    exact stored.next rfl
  | monitorTimeout env ran =>
    obtain ⟨status, counter, timers, last, rfl⟩ := monitorTimeout_timed ran
    exact stored.next rfl
  | monitorCheckpointState =>
    obtain ⟨signal, status, counter, timers, last, same⟩ := monitorCheckpointState_timed s.replica
    rw [same]
    exact stored.next rfl
  | _ => exact stored.next rfl

theorem stored_run (run : (server config).Run trace s) (hashing : UsesHash hash trace) :
    History hash trace s.replica ∧ Stored trace (digestState s.replica.checkpointManager) := by
  refine server_history run
    (fun past r _ => History hash past r ∧ Stored past (digestState r.checkpointManager)) ?_ ?_ ?_ ?_ ?_
  · intro outOfOrder needResponse needQc
    refine ⟨History.create config outOfOrder needResponse needQc, fun _ => rfl, fun n reached => ?_⟩
    exact absurd reached (Nat.not_lt_zero n)
  · rintro past r calls pending complained started ⟨history, stored⟩
    exact ⟨history.same ⟨rfl, fun keyed => keyed⟩, stored⟩
  · rintro past calls call ⟨history, stored⟩ ran _
    have handling := commit_handling ran
    obtain ⟨highest, senders, signatures, new, same⟩ := handling_manager handling
    exact ⟨history.same (handling_ledger handling), by rwa [same]⟩
  · rintro past before envs buff after r calls ⟨history, stored⟩
    exact ⟨history.idle rfl rfl, stored.next rfl⟩
  · rintro past s event r' ⟨history, stored⟩ moved member
    exact ⟨history.thread moved (hashing _ member), stored.thread history moved⟩

def answered (request : Request) : Request :=
  { data := request.data, hash := request.hash, seq := request.seq, proxyId := request.proxyId }

theorem processQuery_eq {first : Nat} (stored : ∀ n < requests.length, m.txnDb.data (first + n) = requests[n]?) :
    m.processQuery (List.range' first requests.length) = requests.map answered := by
  induction requests generalizing first with
  | nil => rfl
  | cons request rest ih =>
    have here : m.txnDb.data first = some request := stored 0 (Nat.succ_pos _)
    have later : ∀ n < rest.length, m.txnDb.data (first + 1 + n) = rest[n]? := by
      intro n inside
      rw [Nat.add_assoc, Nat.add_comm 1 n, stored (n + 1) (Nat.succ_lt_succ inside), getElem?_cons_succ]
    simp only [length_cons, range'_succ, CheckPointManager.processQuery, here, map_cons, ih later]
    rfl

theorem chainHash_answered {start result : String} :
    CheckPointManager.chainHash env start (requests.map answered) = some result ↔
      (∀ request ∈ requests, env.calculateHash request.data = request.hash) ∧
        chain env.calculateHash (· ++ ·) start (hashesOf requests) = result := by
  rw [chainHash_eq_some, forall_mem_map, hashesOf, map_map]
  rfl

theorem Stored.answer (stored : Stored trace (digestState m))
    (bounded : m.lastSeq ≤ (executions trace).length) (reached : seq ≤ m.lastSeq) :
    m.processQuery (List.range' (last + 1) (seq - last)) = (between last seq (executions trace)).map answered := by
  have length := @length_between last seq (executions trace) (reached.trans bounded)
  rw [← length]
  refine processQuery_eq fun n inside => ?_
  rw [length] at inside
  rw [between, getElem?_drop, getElem?_take_of_lt (by omega), Nat.add_right_comm]
  exact stored.stored (last + n) (by dsimp only [digestState]; omega)

theorem take_append_between (history : List Request) (order : last ≤ seq) :
    history.take last ++ between last seq history = history.take seq := by
  have early : history.take last = (history.take seq).take last := by
    rw [take_take, Nat.min_eq_left order]
  rw [early, between, take_append_drop]

theorem answer_passes_iff (run : (server config).Run trace s) (hashing : UsesHash env.calculateHash trace)
    {last seq : Nat}
    (order : last ≤ seq) (reached : seq ≤ s.replica.checkpointManager.lastSeq) :
    CheckPointManager.chainHash env (historyHash env.calculateHash (hashesOf ((executions trace).take last)))
        (s.replica.checkpointManager.processQuery (List.range' (last + 1) (seq - last))) =
      some (historyHash env.calculateHash (hashesOf ((executions trace).take seq))) ↔
    ∀ request ∈ between last seq (executions trace), env.calculateHash request.data = request.hash := by
  obtain ⟨history, stored⟩ := stored_run run hashing
  rw [stored.answer history.bounded reached, chainHash_answered, and_iff_left]
  rw [← take_append_between (executions trace) order]
  simp only [historyHash, hashesOf, map_append, chain_append]

theorem client_batches_pass : ∃ config trace s, (server config).Run trace s ∧ s.replica.checkpointManager.lastSeq = 2 ∧
    CheckPointManager.chainHash toyEnv "" (s.replica.checkpointManager.processQuery [1, 2]) =
      some (historyHash toyHash (hashesOf ((executions trace).take 2))) := by
  obtain ⟨config, trace, s, run, hashing, -, lastSeq, hashes, data⟩ := xy_run
  refine ⟨config, trace, s, run, lastSeq, (@answer_passes_iff config toyEnv s trace run hashing 0 2 (by decide)
    lastSeq.ge).mpr ?_⟩
  rw [xy_between data, ← data_hashed_iff, data, hashes]
  decide +kernel

def hearNull (type : RequestType) (sender : Int) : ServerEvent :=
  (hearFrom sender plainEnv sender { nullOne with type := type, senderId := sender }).2

theorem null_request_fails : ∃ trace s, (server (viewConfig 4)).Run trace s ∧
    hashesOf (executions trace) = ["null1"] ∧ s.replica.checkpointManager.lastSeq = 1 ∧
    ∀ env : Env, (∀ text, (env.calculateHash text).length = 32) →
      ∀ start, CheckPointManager.chainHash env start (s.replica.checkpointManager.processQuery [1]) = none := by
  obtain ⟨trace, s, run, executed, lastSeq, answer⟩ := exists_server_run (viewConfig 4)
    (threeViewChanges 2 ++ [newViewFor (nextNewView 2) 2, hearNull .prePrepare 2] ++
      [1, 2, 3].map (hearNull .prepare) ++ [1, 2, 3].map (hearNull .commit) ++
      [.takeMessage, .passNext, .executeMessage plainEnv, .updateCheckPointStatus plainEnv])
    (fun trace s => hashesOf (executions trace) = ["null1"] ∧ s.replica.checkpointManager.lastSeq = 1 ∧
      hashesOf (s.replica.checkpointManager.processQuery [1]) = ["null1"])
    (by decide +kernel)
  refine ⟨trace, s, run, executed, lastSeq, fun env size start => ?_⟩
  obtain ⟨null, list, carries⟩ := map_eq_singleton_iff.mp answer
  have other : env.calculateHash null.data ≠ null.hash := by
    intro same
    have length := size null.data
    rw [same, carries] at length
    exact absurd length (by decide)
  rw [list, CheckPointManager.chainHash, if_pos other]

/-- The numbers from 1 on are executed once each; a beginning is hashed, stored and given to queries. -/
theorem execution_log_kept (run : (server config).Run trace s) (hashing : UsesHash hash trace) :
    (executions trace).map Request.seq = List.range' 1 (executions trace).length ∧
      s.replica.checkpointManager.lastSeq ≤ (executions trace).length ∧
      s.replica.checkpointManager.lastHash =
        historyHash hash (hashesOf ((executions trace).take s.replica.checkpointManager.lastSeq)) ∧
      ∀ last seq, seq ≤ s.replica.checkpointManager.lastSeq →
        s.replica.checkpointManager.processQuery (List.range' (last + 1) (seq - last)) =
          (between last seq (executions trace)).map answered := by
  obtain ⟨history, stored⟩ := stored_run run hashing
  refine ⟨?_, history.bounded, history.hashed, fun last seq reached => stored.answer history.bounded reached⟩
  rw [← history.numbers le_rfl, take_length]

theorem xy_log_kept : ∃ config trace s, (server config).Run trace s ∧
    s.replica.checkpointManager.processQuery [1, 2] = (between 0 2 (executions trace)).map answered := by
  obtain ⟨config, trace, s, run, hashing, -, lastSeq, -⟩ := xy_run
  exact ⟨config, trace, s, run, (execution_log_kept run hashing).2.2.2 0 2 lastSeq.ge⟩

end ResilientDB.Proof
