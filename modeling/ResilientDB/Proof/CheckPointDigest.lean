import ResilientDB.Proof.StableCheckPoint

namespace ResilientDB.Proof
open Model Library List

variable {config config' : ResDBConfig} {hash : String → String} {s s' : CheckPointThreads}
  {trace trace' : List (Transition CheckPointThreads CheckPointEvent)} {mark n : Nat}
  {requests queued popped : List Request} {digest : String} {request : Request} {env : Env} {m : CheckPointManager}
  {event : CheckPointEvent}

def accept (requests : List Request) (request : Request) : List Request :=
  if request.seq = requests.length + 1 then requests ++ [request] else requests

def acceptedOf (popped : List Request) : List Request := popped.foldl accept []

theorem acceptedOf_append (popped : List Request) (request : Request) :
    acceptedOf (popped ++ [request]) = accept (acceptedOf popped) request := by
  simp [acceptedOf]

theorem acceptedOf_seqs (popped : List Request) :
    (acceptedOf popped).map (fun request => request.seq) = List.range' 1 (acceptedOf popped).length := by
  induction popped using List.reverseRecOn with
  | nil => rfl
  | append_singleton popped request ih =>
    rw [acceptedOf_append]
    unfold accept
    split_ifs with next
    · rw [map_append, ih, length_append, length_singleton, range'_concat, map_singleton, next,
        Nat.one_mul, Nat.add_comm]
    · exact ih

structure CheckPointDue (hash : String → String) (mark : Nat) (requests : List Request) (n : Nat) (digest : String) :
    Prop where
  positive : 0 < n
  multiple : mark ∣ n
  reached : ∃ request, requests[n - 1]? = some request ∧ request.isRecovery = false
  digest : digest = historyHash hash (hashesOf (requests.take n))

theorem CheckPointDue.le (due : CheckPointDue hash mark requests n digest) : n ≤ requests.length := by
  obtain ⟨request, there, -⟩ := due.reached
  have inside := (List.getElem?_eq_some_iff.mp there).1
  omega

theorem checkPointDue_append :
    CheckPointDue hash mark (requests ++ [request]) n digest ↔ CheckPointDue hash mark requests n digest ∨
      n = requests.length + 1 ∧ mark ∣ n ∧ request.isRecovery = false ∧
        digest = historyHash hash (hashesOf (requests ++ [request])) := by
  by_cases last : n = requests.length + 1
  · subst last
    have whole : (requests ++ [request]).take (requests.length + 1) = requests ++ [request] :=
      take_of_length_le (by simp)
    constructor
    · rintro ⟨-, multiple, ⟨other, there, fresh⟩, same⟩
      rw [Nat.add_sub_cancel, getElem?_concat_length] at there
      cases there
      rw [whole] at same
      exact .inr ⟨rfl, multiple, fresh, same⟩
    · rintro (old | ⟨-, multiple, fresh, same⟩)
      · exact absurd old.le (by omega)
      · exact ⟨by omega, multiple, ⟨request, by simp, fresh⟩, by rw [whole, same]⟩
  · constructor
    · rintro ⟨positive, multiple, ⟨other, there, fresh⟩, same⟩
      have inside := (List.getElem?_eq_some_iff.mp there).1
      rw [length_append, length_singleton] at inside
      rw [getElem?_append_left (by omega)] at there
      rw [take_append_of_le_length (by omega)] at same
      exact .inl ⟨positive, multiple, ⟨other, there, fresh⟩, same⟩
    · rintro (old | ⟨here, -⟩)
      · have inside := old.le
        obtain ⟨positive, multiple, ⟨other, there, fresh⟩, same⟩ := old
        refine ⟨positive, multiple, ⟨other, ?_, fresh⟩, ?_⟩
        · rwa [getElem?_append_left (by omega)]
        · rwa [take_append_of_le_length inside]
      · exact absurd here last

theorem next_mark (mark last : Nat) : last + 1 = mark * (last / mark) + mark ↔ mark ∣ last + 1 := by
  rw [← Nat.mul_succ]
  constructor
  · exact fun same => ⟨_, same⟩
  · intro multiple
    have next := Nat.succ_div_of_dvd multiple
    rw [Nat.succ_eq_add_one, ← next, Nat.mul_div_cancel' multiple]

theorem last_mark_succ (mark last : Nat) :
    (if last + 1 = mark * (last / mark) + mark then last + 1 else mark * (last / mark)) =
      mark * ((last + 1) / mark) := by
  split_ifs with next
  · rw [Nat.mul_div_cancel' ((next_mark mark last).mp next)]
  · rw [Nat.succ_div_of_not_dvd (mt (next_mark mark last).mpr next)]

structure DigestState where
  enabled : Bool
  lastSeq : Nat
  lastHash : String
  lastCkptSeq : Nat
  dataQueue : List Request
  stored : Nat → Option Request

def digestState (m : CheckPointManager) : DigestState :=
  ⟨m.isCheckPointEnabled, m.lastSeq, m.lastHash, m.lastCkptSeq, m.dataQueue, m.txnDb.data⟩

theorem updateCheckPointStatus_skip {rest : List Request}
    (queue : m.dataQueue = request :: rest) (other : request.seq ≠ m.lastSeq + 1) :
    m.updateCheckPointStatus env config = ({ m with dataQueue := rest }, none) := by
  unfold CheckPointManager.updateCheckPointStatus
  simp only [queue, ne_eq, other, not_false_eq_true, ↓reduceIte]

theorem updateCheckPointStatus_accept {env : Env} {m : CheckPointManager} {request : Request} {rest : List Request}
    (queue : m.dataQueue = request :: rest) (next : request.seq = m.lastSeq + 1) :
    digestState (m.updateCheckPointStatus env config).1 =
      ⟨m.isCheckPointEnabled, m.lastSeq + 1, env.calculateHash (m.lastHash ++ request.hash),
        if m.lastSeq + 1 = m.lastCkptSeq + config.checkPointWaterMark then m.lastSeq + 1 else m.lastCkptSeq, rest,
        Function.update m.txnDb.data (m.lastSeq + 1) (some request)⟩ ∧
    ((m.updateCheckPointStatus env config).2.isSome = true ↔
      m.lastSeq + 1 = m.lastCkptSeq + config.checkPointWaterMark ∧ request.isRecovery = false ∧
        (env.signMessage (env.calculateHash (m.lastHash ++ request.hash))).isSome = true) := by
  unfold CheckPointManager.updateCheckPointStatus digestState
  simp only [queue, next, ne_eq, not_true_eq_false, ↓reduceIte, CheckPointManager.getHash]
  by_cases mark : m.lastSeq + 1 = m.lastCkptSeq + config.checkPointWaterMark
  · rw [if_pos mark, if_pos mark]
    refine ⟨by simp [ChainState.put, next], ?_⟩
    dsimp only
    cases request.isRecovery with
    | true => simp
    | false =>
      unfold CheckPointManager.broadcastCheckPoint
      cases signed : env.signMessage (env.calculateHash (m.lastHash ++ request.hash)) with
      | none => simp
      | some signature => simp [mark]
  · rw [if_neg mark, if_neg mark]
    exact ⟨by simp [ChainState.put, next], by simp [mark]⟩

inductive CheckPointStep (config : ResDBConfig) (s : CheckPointThreads) : CheckPointEvent → CheckPointThreads → Prop
  | addCommitData (request : Request) : CheckPointStep config s (.addCommitData request) (s.addCommitData request)
  | updateCheckPointStatus (env : Env) :
      CheckPointStep config s (.updateCheckPointStatus env) (s.updateCheckPointStatus config env)
  | processCheckPoint (env : Env) (request : Request) :
      CheckPointStep config s (.processCheckPoint env request) (s.processCheckPoint config env request)
  | chooseStable (env : Env) : CheckPointStep config s (.chooseStable env) (s.chooseStable config env)
  | setStable {choice : Choice} (pending : s.choice = some choice) :
      CheckPointStep config s .setStable (s.setStable choice)

theorem checkPointStep_of_act (step : s.act config event = some s') : CheckPointStep config s event s' := by
  cases event with
  | addCommitData request =>
    cases step
    exact .addCommitData request
  | updateCheckPointStatus env =>
    cases step
    exact .updateCheckPointStatus env
  | processCheckPoint env request =>
    cases step
    exact .processCheckPoint env request
  | chooseStable env =>
    simp only [CheckPointThreads.act, Option.ite_none_right_eq_some, Option.some.injEq] at step
    obtain ⟨-, rfl⟩ := step
    exact .chooseStable env
  | setStable =>
    obtain ⟨choice, pending, rfl⟩ := Option.map_eq_some_iff.mp step
    exact .setStable pending

theorem chooseStable_eq (env : Env) (config : ResDBConfig) (m : CheckPointManager) :
    ∃ seq ckptHash signal last highest, (m.chooseStable env config).1 = { m with
      committableSeq := seq, committableHash := ckptHash, committableSeqSignal := signal
      lastCommittableSeq := last, highestPreparedSeq := highest, newData := 0 } := by
  obtain ⟨seq, ckptHash, signal, last, highest, same⟩ :=
    foldl_visitCkpt_visited env config m.senderCkpt.entries (m, [], 0, "")
  refine ⟨seq, ckptHash, signal, last, highest, ?_⟩
  unfold CheckPointManager.chooseStable
  dsimp only
  rw [same]

theorem chooseStable_digestState (env : Env) (m : CheckPointManager) :
    digestState (m.chooseStable env config).1 = digestState m := by
  obtain ⟨seq, ckptHash, signal, last, highest, same⟩ := chooseStable_eq env config m
  rw [same]
  rfl

theorem setStable_digestState (m : CheckPointManager) (seq : Nat) (ckptHash : String) :
    digestState (m.setStable seq ckptHash) = digestState m := by
  unfold CheckPointManager.setStable
  split <;> rfl

theorem processCheckPoint_digestState (env : Env) (m : CheckPointManager) (request : Request) :
    digestState (m.processCheckPoint env config request).1 = digestState m := by
  rcases processCheckPoint_cases env config m request with same | ⟨data, -, same⟩
  · rw [same]
  · obtain ⟨senders, signs, new, added⟩ := addCheckPoint_eq m (toUInt32 request.senderId) data
    rw [same, added]
    rfl

structure Digest (config : ResDBConfig) (hash : String → String) (queued popped : List Request) (d : DigestState) :
    Prop where
  queue : queued = popped ++ d.dataQueue
  seq : d.lastSeq = (acceptedOf popped).length
  hashed : d.lastHash = historyHash hash (hashesOf (acceptedOf popped))
  ckpt : d.lastCkptSeq = config.checkPointWaterMark * (d.lastSeq / config.checkPointWaterMark)

theorem Digest.addCommitData (request : Request) (digest : Digest config hash queued popped (digestState m)) :
    Digest config hash (if m.isCheckPointEnabled then queued ++ [request] else queued) popped
      (digestState (m.addCommitData request)) := by
  obtain ⟨queue, seq, hashed, ckpt⟩ := digest
  unfold CheckPointManager.addCommitData
  split_ifs with on
  · refine ⟨?_, seq, hashed, ckpt⟩
    rw [queue, append_assoc]
    rfl
  · exact ⟨queue, seq, hashed, ckpt⟩

theorem historyHash_append (requests : List Request) (request : Request) :
    historyHash hash (hashesOf (requests ++ [request])) =
      hash (historyHash hash (hashesOf requests) ++ request.hash) := by
  simp [historyHash, hashesOf]

theorem Digest.updateCheckPointStatus (digest : Digest config hash queued popped (digestState m))
    (hashing : env.calculateHash = hash) :
    Digest config hash queued (popped ++ m.dataQueue.head?.toList)
      (digestState (m.updateCheckPointStatus env config).1) := by
  obtain ⟨queue, seq, hashed, ckpt⟩ := digest
  dsimp only [digestState] at queue seq hashed ckpt
  cases data : m.dataQueue with
  | nil =>
    rw [updateCheckPointStatus_idle data, head?_nil, Option.toList_none, append_nil]
    exact ⟨queue, seq, hashed, ckpt⟩
  | cons request rest =>
    have queue' : queued = (popped ++ [request]) ++ rest := by
      rw [queue, data, append_assoc, singleton_append]
    rw [head?_cons, Option.toList_some]
    by_cases next : request.seq = m.lastSeq + 1
    · have grown : acceptedOf (popped ++ [request]) = acceptedOf popped ++ [request] := by
        rw [acceptedOf_append, accept, if_pos (seq ▸ next)]
      rw [(updateCheckPointStatus_accept data next).1]
      refine ⟨queue', ?_, ?_, ?_⟩
      · rw [grown, length_append, length_singleton, ← seq]
      · rw [grown, historyHash_append, ← hashed, hashing]
      · dsimp only
        rw [ckpt, last_mark_succ]
    · have kept : acceptedOf (popped ++ [request]) = acceptedOf popped := by
        rw [acceptedOf_append, accept, if_neg (seq ▸ next)]
      rw [updateCheckPointStatus_skip data next]
      rw [← kept] at seq hashed
      exact ⟨queue', seq, hashed, ckpt⟩

theorem Digest.act (digest : Digest config hash s.queued s.popped (digestState s.manager))
    (step : s.act config event = some s')
    (hashing : ∀ env, event = .updateCheckPointStatus env → env.calculateHash = hash) :
    Digest config hash s'.queued s'.popped (digestState s'.manager) := by
  cases checkPointStep_of_act step with
  | addCommitData request => exact digest.addCommitData request
  | updateCheckPointStatus env => exact digest.updateCheckPointStatus (hashing env rfl)
  | processCheckPoint env request =>
    dsimp only [CheckPointThreads.processCheckPoint]
    rw [processCheckPoint_digestState]
    exact digest
  | chooseStable env =>
    dsimp only [CheckPointThreads.chooseStable]
    rw [chooseStable_digestState]
    exact digest
  | setStable =>
    dsimp only [CheckPointThreads.setStable]
    rw [setStable_digestState]
    exact digest

def HashesWith (hash : String → String) (trace : List (Transition CheckPointThreads CheckPointEvent)) : Prop :=
  ∀ t ∈ trace, ∀ env, t.event = .updateCheckPointStatus env → env.calculateHash = hash

theorem digest_run (run : (checkPointThreads config).Run trace s) (hashing : HashesWith hash trace) :
    Digest config hash s.queued s.popped (digestState s.manager) := by
  refine run.invariant (fun t => ∀ env, t.event = .updateCheckPointStatus env → env.calculateHash = hash)
    (fun s => Digest config hash s.queued s.popped (digestState s.manager)) ?_ ?_ hashing
  · rintro s rfl
    exact ⟨rfl, rfl, rfl, by simp [digestState, CheckPointManager.create]⟩
  · intro s event s' digest step same
    exact digest.act step same

structure SentWhenDue (hash : String → String) (mark : Nat) (requests : List Request)
  (broadcasts : List (Nat × String)) : Prop where
  due : ∀ n digest, (n, digest) ∈ broadcasts ↔ CheckPointDue hash mark requests n digest
  once : (broadcasts.map Prod.fst).Nodup

theorem SentWhenDue.append {mark : Nat} {requests : List Request} {request : Request} {broadcasts : List (Nat × String)}
    (before : SentWhenDue hash mark requests broadcasts) :
    SentWhenDue hash mark (requests ++ [request]) (broadcasts ++
      if mark ∣ requests.length + 1 ∧ request.isRecovery = false then
        [(requests.length + 1, historyHash hash (hashesOf (requests ++ [request])))] else []) := by
  constructor
  · intro n digest
    rw [checkPointDue_append, mem_append, before.due]
    refine or_congr_right ?_
    split_ifs with sent
    · rw [mem_singleton, Prod.mk.injEq]
      constructor
      · rintro ⟨rfl, same⟩
        exact ⟨rfl, sent.1, sent.2, same⟩
      · rintro ⟨rfl, -, -, same⟩
        exact ⟨rfl, same⟩
    · constructor
      · intro member
        cases member
      · rintro ⟨rfl, multiple, fresh, -⟩
        exact absurd ⟨multiple, fresh⟩ sent
  · split_ifs with sent
    · rw [map_append, map_singleton]
      refine nodup_append.mpr ⟨before.once, nodup_singleton _, ?_⟩
      intro n member m last same
      rw [mem_singleton] at last
      obtain ⟨⟨n', digest⟩, there, rfl⟩ := mem_map.mp member
      have bound := ((before.due n' digest).mp there).le
      dsimp only at same
      omega
    · rw [append_nil]
      exact before.once

theorem SentWhenDue.updateCheckPointStatus {broadcasts : List (Nat × String)}
    (digest : Digest config hash queued popped (digestState m))
    (before : SentWhenDue hash config.checkPointWaterMark (acceptedOf popped) broadcasts)
    (hashing : env.calculateHash = hash) (signing : ∀ text, (env.signMessage text).isSome = true) :
    SentWhenDue hash config.checkPointWaterMark (acceptedOf (popped ++ m.dataQueue.head?.toList)) (broadcasts ++
      ((m.updateCheckPointStatus env config).2.map fun _ =>
        ((m.updateCheckPointStatus env config).1.lastCkptSeq,
          (m.updateCheckPointStatus env config).1.lastHash)).toList) := by
  obtain ⟨-, seq, hashed, ckpt⟩ := digest
  dsimp only [digestState] at seq hashed ckpt
  cases data : m.dataQueue with
  | nil =>
    rw [updateCheckPointStatus_idle data, head?_nil, Option.map_none, Option.toList_none, Option.toList_none,
      append_nil,
      append_nil]
    exact before
  | cons request rest =>
    rw [head?_cons, Option.toList_some, acceptedOf_append, accept, ← seq]
    by_cases next : request.seq = m.lastSeq + 1
    · obtain ⟨after, sent⟩ := @updateCheckPointStatus_accept config env m request rest data next
      rw [ckpt, next_mark, seq] at sent
      rw [if_pos next]
      have added := @SentWhenDue.append hash _ _ request _ before
      by_cases due : config.checkPointWaterMark ∣ (acceptedOf popped).length + 1 ∧ request.isRecovery = false
      · obtain ⟨message, present⟩ := Option.isSome_iff_exists.mp (sent.mpr ⟨due.1, due.2, signing _⟩)
        have lastCkptSeq := congrArg DigestState.lastCkptSeq after
        have lastHash := congrArg DigestState.lastHash after
        dsimp only [digestState] at lastCkptSeq lastHash
        rw [ckpt, seq, if_pos ((next_mark _ _).mpr due.1)] at lastCkptSeq
        rw [hashed, hashing, ← @historyHash_append hash] at lastHash
        rw [if_pos due] at added
        rw [present, Option.map_some, Option.toList_some, lastCkptSeq, lastHash]
        exact added
      · have silent : (m.updateCheckPointStatus env config).2 = none := by
          rw [← Option.not_isSome_iff_eq_none, sent]
          exact fun all => due ⟨all.1, all.2.1⟩
        rw [if_neg due] at added
        rw [silent]
        exact added
    · rw [if_neg next, updateCheckPointStatus_skip data next, Option.map_none, Option.toList_none, append_nil]
      exact before

def CanSign (trace : List (Transition CheckPointThreads CheckPointEvent)) : Prop :=
  ∀ t ∈ trace, ∀ env, t.event = .updateCheckPointStatus env → ∀ text, (env.signMessage text).isSome = true

theorem sentWhenDue_run (run : (checkPointThreads config).Run trace s) (hashing : HashesWith hash trace)
    (signing : CanSign trace) : SentWhenDue hash config.checkPointWaterMark (acceptedOf s.popped) s.broadcasts := by
  have both := run.invariant (fun t => ∀ env, t.event = .updateCheckPointStatus env →
      env.calculateHash = hash ∧ ∀ text, (env.signMessage text).isSome = true)
    (fun s => Digest config hash s.queued s.popped (digestState s.manager) ∧
      SentWhenDue hash config.checkPointWaterMark (acceptedOf s.popped) s.broadcasts) ?_ ?_ ?_
  · exact both.2
  · rintro s rfl
    refine ⟨digest_run (.initial rfl) (by simp [HashesWith]), ⟨fun n digest => ?_, nodup_nil⟩⟩
    constructor
    · intro member
      cases member
    · intro due
      obtain ⟨request, there, -⟩ := due.reached
      simp [acceptedOf] at there
  · rintro s event s' ⟨digest, sent⟩ step allowed
    refine ⟨digest.act step fun env same => (allowed env same).1, ?_⟩
    cases checkPointStep_of_act step with
    | updateCheckPointStatus env => exact sent.updateCheckPointStatus digest (allowed env rfl).1 (allowed env rfl).2
    | _ => exact sent
  · intro t member env same
    exact ⟨hashing t member env same, signing t member env same⟩

structure Collisionless (hash : String → String) (history history' : List String) : Prop where
  fixed : ∀ x y, (hash x).length = (hash y).length
  free : ∀ x ∈ fed hash (· ++ ·) "" history ++ fed hash (· ++ ·) "" history',
    ∀ y ∈ fed hash (· ++ ·) "" history ++ fed hash (· ++ ·) "" history', hash x = hash y → x = y

structure DigestSpec (hash : String → String) (s : CheckPointThreads) : Prop where
  popped : s.popped <+: s.queued
  numbers : (acceptedOf s.popped).map (fun request => request.seq) = List.range' 1 s.manager.lastSeq
  lastHash : s.manager.lastHash = (acceptedOf s.popped).foldl (fun h request => hash (h ++ request.hash)) ""

theorem digest_spec (run : (checkPointThreads config).Run trace s) (hashing : HashesWith hash trace) :
    DigestSpec hash s := by
  obtain ⟨queue, seq, hashed, -⟩ := digest_run run hashing
  dsimp only [digestState] at queue seq hashed
  refine ⟨⟨_, queue.symm⟩, ?_, ?_⟩
  · rw [acceptedOf_seqs, seq]
  · rw [hashed, historyHash, chain, hashesOf, foldl_map]

def toyHash (text : String) : String :=
  if text = "x" then "a" else if text = "y" then "b" else if text = "a" then "h" else if text = "hb" then "g" else "f"

theorem toyHash_length (text : String) : (toyHash text).length = 1 := by
  unfold toyHash
  split_ifs <;> decide

def toyEnv : Env := { plainEnv with calculateHash := toyHash }

def ckptConfig : ResDBConfig := { fourReplicas with checkPointWaterMark := 2, isEnableCheckpoint := true }

def ckptRequest (seq : Nat) (data hash : String) : Request := { seq := seq, data := data, hash := hash }

def queueAndTake (requests : List Request) : List CheckPointEvent :=
  requests.map .addCommitData ++ requests.map fun _ => .updateCheckPointStatus toyEnv

theorem queueAndTake_env {trace : List (Transition CheckPointThreads CheckPointEvent)}
    (events : ∀ t ∈ trace, t.event ∈ queueAndTake requests) : ∀ t ∈ trace, ∀ env,
      t.event = .updateCheckPointStatus env → env = toyEnv := by
  intro t member env same
  have here := events t member
  simp only [queueAndTake, same, mem_append, mem_map, reduceCtorEq, and_false, exists_false, false_or,
    CheckPointEvent.updateCheckPointStatus.injEq] at here
  obtain ⟨-, -, rfl⟩ := here
  rfl

end ResilientDB.Proof
