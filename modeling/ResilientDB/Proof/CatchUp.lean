import ResilientDB.Proof.CheckPointBooks

namespace ResilientDB.Proof
open Model Library List

variable {config : ResDBConfig} {env : Env} {hash : String → String} {m : CheckPointManager} {s : Server}
  {trace : List (Transition Server ServerEvent)} {requests own history : List Request} {senders : Finset Nat}
  {seq size : Nat} {ckptHash : String}

theorem chainHash_eq_some {start result : String} : CheckPointManager.chainHash env start requests = some result ↔
      (∀ request ∈ requests, env.calculateHash request.data = request.hash) ∧
        chain env.calculateHash (· ++ ·) start (hashesOf requests) = result := by
  induction requests generalizing start with
  | nil => simp [CheckPointManager.chainHash, chain, hashesOf]
  | cons request rest ih =>
    rw [CheckPointManager.chainHash]
    split_ifs with other
    · simp [other]
    · rw [ih, forall_mem_cons, and_assoc]
      exact (and_iff_right (not_not.mp other)).symm

abbrev Batch := ((Nat ×ₗ String) × Finset Nat) × List Request

structure Fetched (env : Env) (config : ResDBConfig) (m : CheckPointManager) (batch : Batch) : Prop where
  counted : batch.1 ∈ m.senderCkpt.entries
  supported : config.getMinCheckpointReceiveNum ≤ batch.1.2.card
  returned : Returned env m batch.1.2 (ofLex batch.1.1).1 (ofLex batch.1.1).2 batch.2

theorem Returned.of_visited {m' : CheckPointManager}
    (returned : Returned env m' senders seq ckptHash requests) (visited : Visited m m') :
    Returned env m senders seq ckptHash requests := by
  obtain ⟨_, _, _, _, _, rfl⟩ := visited
  exact ⟨returned.ahead, returned.returned, returned.chained⟩

theorem foldl_visitCkpt_handed (entries : List ((Nat ×ₗ String) × Finset Nat)) (state : Visit) : ∃ batches : List Batch,
      (entries.foldl (CheckPointManager.visitCkpt env config) state).2.1 = state.2.1 ++ (batches.map Prod.snd).flatten ∧
      ∀ batch ∈ batches, batch.1 ∈ entries ∧ config.getMinCheckpointReceiveNum ≤ batch.1.2.card ∧
        Returned env state.1 batch.1.2 (ofLex batch.1.1).1 (ofLex batch.1.1).2 batch.2 := by
  induction entries generalizing state with
  | nil => exact ⟨[], by simp, by simp⟩
  | cons entry rest ih =>
    obtain ⟨batches, later, all⟩ := ih (CheckPointManager.visitCkpt env config state entry)
    have visited := (visitCkpt_spec env config state entry).1
    have kept : ∀ batch ∈ batches, batch.1 ∈ entry :: rest ∧
        config.getMinCheckpointReceiveNum ≤ batch.1.2.card ∧
        Returned env state.1 batch.1.2 (ofLex batch.1.1).1 (ofLex batch.1.1).2 batch.2 := fun batch member =>
      ⟨mem_cons_of_mem _ (all batch member).1, (all batch member).2.1, (all batch member).2.2.of_visited visited⟩
    rcases visitCkpt_handed env config state entry with same | ⟨requests, same, supported, returned⟩
    · exact ⟨batches, by rw [foldl_cons, later, same], kept⟩
    · refine ⟨(entry, requests) :: batches, ?_, ?_⟩
      · rw [foldl_cons, later, same, map_cons, flatten_cons, append_assoc]
      · rw [forall_mem_cons]
        exact ⟨⟨mem_cons_self, supported, returned⟩, kept⟩

theorem updateStable_handed (env : Env) (config : ResDBConfig) (m : CheckPointManager) :
    ∃ batches : List Batch, (m.updateStableCheckPointStatus env config).2 = (batches.map Prod.snd).flatten ∧
      ∀ batch ∈ batches, Fetched env config m batch := by
  rw [CheckPointManager.updateStableCheckPointStatus_eq]
  split_ifs
  · exact ⟨[], rfl, by simp⟩
  · obtain ⟨batches, handed, all⟩ := @foldl_visitCkpt_handed config env m.senderCkpt.entries (m, [], 0, "")
    exact ⟨batches, handed, fun batch member => ⟨(all batch member).1, (all batch member).2.1, (all batch member).2.2⟩⟩

def between (last seq : Nat) (history : List Request) : List Request := (history.take seq).drop last

def FitsIn (size : Nat) (text : String) : Prop := 0 < text.length ∧ text.length ≤ size

def catchUpInputs (hash : String → String) (own honest requests : List Request) : List String :=
  fed hash (· ++ ·) "" (hashesOf (own ++ requests)) ++ fed hash (· ++ ·) "" (hashesOf honest) ++
    (requests ++ honest).map fun request => request.data

structure CatchUpFree (hash : String → String) (size : Nat) (own honest requests : List Request) : Prop where
  fixed : ∀ x, (hash x).length = size
  sized : ∀ request ∈ own ++ honest, FitsIn size request.hash
  free : ∀ x ∈ catchUpInputs hash own honest requests, ∀ y ∈ catchUpInputs hash own honest requests,
    hash x = hash y → x = y

theorem first_ne_joined (fixed : ∀ x, (hash x).length = size) (a x y : String) (left : FitsIn size x)
    (right : FitsIn size y) : "" ++ x ≠ hash a ++ y := by
  intro same
  have lengths := congrArg String.length same
  rw [String.length_append, String.length_append, fixed, String.length_empty] at lengths
  obtain ⟨-, short⟩ := left
  obtain ⟨long, -⟩ := right
  omega

theorem hashesOf_fit (fit : ∀ request ∈ requests, FitsIn size request.hash) :
    ∀ x ∈ hashesOf requests, FitsIn size x := by
  intro x member
  obtain ⟨request, inside, rfl⟩ := mem_map.mp member
  exact fit request inside

theorem CatchUpFree.hashes {honest : List Request}
    (free : CatchUpFree hash size own honest requests) (nonempty : honest ≠ [])
    (matched : ∀ request ∈ requests, hash request.data = request.hash)
    (same : historyHash hash (hashesOf (own ++ requests)) = historyHash hash (hashesOf honest)) :
    hashesOf (own ++ requests) = hashesOf honest := by
  obtain ⟨fixed, sized, injective⟩ := free
  have sizedHonest : ∀ request ∈ honest, FitsIn size request.hash :=
    fun request member => sized request (mem_append_right _ member)
  have positive : 0 < size := by
    obtain ⟨first, member⟩ := exists_mem_of_ne_nil _ nonempty
    obtain ⟨least, most⟩ := sizedHonest first member
    exact least.trans_le most
  have sizedOwn : ∀ request ∈ own ++ requests, FitsIn size request.hash := by
    intro request member
    rcases mem_append.mp member with old | asked
    · exact sized request (mem_append_left _ old)
    · rw [← matched request asked, FitsIn, fixed]
      exact ⟨positive, le_rfl⟩
  have apart : TakesApart hash (· ++ ·) := takesApart_of_length fun x y => by rw [fixed, fixed]
  have fresh : ∀ a, hash a ≠ "" := by
    intro a none
    have zero := fixed a
    rw [none, String.length_empty] at zero
    omega
  refine chain_injective_of_first (fun x y left right => injective x left y right) apart fresh (first_ne_joined fixed)
    (hashesOf_fit sizedOwn) (hashesOf_fit sizedHonest) (fun input feeds => ?_) (fun input feeds => ?_) same
  · exact mem_append_left _ (mem_append_left _ (feeds_iff_mem.mp feeds))
  · exact mem_append_left _ (mem_append_right _ (feeds_iff_mem.mp feeds))

structure AtItsPlace (last seq : Nat) (history requests : List Request) : Prop where
  numbers : requests.map (fun request => request.seq) = List.range' (last + 1) (seq - last)
  data : requests.map (fun request => request.data) = (between last seq history).map fun request => request.data

structure Pinned (hash : String → String) (last seq : Nat) (history requests : List Request) : Prop where
  hashes : hashesOf requests = hashesOf (between last seq history)
  place : AtItsPlace last seq history requests ↔
    requests.map (fun request => request.seq) = List.range' (last + 1) requests.length ∧
      ∀ request ∈ between last seq history, hash request.data = request.hash

theorem data_hashed_iff : (requests.map fun request => request.data).map hash = hashesOf requests ↔
      ∀ request ∈ requests, hash request.data = request.hash := by
  rw [map_map, hashesOf, map_inj_left]
  rfl

theorem length_between {last seq : Nat} {history : List Request} (long : seq ≤ history.length) :
    (between last seq history).length = seq - last := by
  rw [between, length_drop, length_take_of_le long]

theorem pinned_of_hashes {last : Nat} {inputs : List String}
    (long : seq ≤ history.length) (hashes : hashesOf requests = hashesOf (between last seq history))
    (matched : ∀ request ∈ requests, hash request.data = request.hash)
    (free : ∀ x ∈ inputs, ∀ y ∈ inputs, hash x = hash y → x = y)
    (fetched : (requests.map fun request => request.data) ⊆ inputs)
    (executed : ((between last seq history).map fun request => request.data) ⊆ inputs) :
    Pinned hash last seq history requests := by
  have length : requests.length = seq - last := by
    rw [← length_between long]
    simpa [hashesOf] using congrArg List.length hashes
  refine ⟨hashes, ?_⟩
  rw [← data_hashed_iff] at matched ⊢
  constructor
  · rintro ⟨numbers, data⟩
    rw [length, ← data, matched]
    exact ⟨numbers, hashes⟩
  · rintro ⟨numbers, hashed⟩
    refine ⟨by rw [numbers, length], map_injective_of_free free fetched executed ?_⟩
    rw [matched, hashed, hashes]

def UsesHash (hash : String → String) (trace : List (Transition Server ServerEvent)) : Prop :=
  ∀ t ∈ trace, ∀ env, t.event = .updateCheckPointStatus env → env.calculateHash = hash

def BehindCheckPoint (hash : String → String) (seq : Nat) (ckptHash : String) (history : List Request) : Prop :=
  ∃ config trace s, (server config).Run trace s ∧ UsesHash hash trace ∧ Signed trace seq ckptHash ∧
    history = executions trace

theorem BehindCheckPoint.digest (behind : BehindCheckPoint hash seq ckptHash history) :
    seq ≤ history.length ∧ ckptHash = historyHash hash (hashesOf (history.take seq)) := by
  obtain ⟨config, trace, s, run, hashing, signed, rfl⟩ := behind
  exact (history_run run hashing).signed seq ckptHash signed

theorem returned_pinned (returned : Returned env m senders seq ckptHash requests)
    (lastSeq : own.length = m.lastSeq) (lastHash : m.lastHash = historyHash env.calculateHash (hashesOf own))
    (behind : BehindCheckPoint env.calculateHash seq ckptHash history)
    (free : CatchUpFree env.calculateHash size own (history.take seq) requests) :
    Pinned env.calculateHash m.lastSeq seq history requests := by
  obtain ⟨long, digest⟩ := behind.digest
  obtain ⟨matched, chained⟩ := chainHash_eq_some.mp returned.chained
  have nonempty : history.take seq ≠ [] := by
    have ahead := returned.ahead
    rw [← length_pos_iff, length_take_of_le long]
    omega
  have whole : historyHash env.calculateHash (hashesOf (own ++ requests)) =
      historyHash env.calculateHash (hashesOf (history.take seq)) := by
    rw [← digest, ← chained, lastHash]
    simp only [historyHash, hashesOf, map_append, chain_append]
  have hashes := congrArg (List.drop m.lastSeq) (free.hashes nonempty matched whole)
  simp only [hashesOf, map_append] at hashes
  rw [drop_left' (by rw [length_map, lastSeq]), ← map_drop] at hashes
  refine pinned_of_hashes long hashes matched free.free (fun x member => ?_) (fun x member => ?_)
  · exact mem_append_right _ (by rw [map_append]; exact mem_append_left _ member)
  · refine mem_append_right _ ?_
    rw [map_append]
    exact mem_append_right _ (map_subset _ (drop_subset _ _) member)

theorem catch_up_places_iff (run : (server config).Run trace s) (hashing : UsesHash env.calculateHash trace) :
    ∃ batches : List Batch, (s.replica.updateStableCheckPointStatus env).2 = (batches.map Prod.snd).flatten ∧
      ∀ batch ∈ batches, Fetched env config s.replica.checkpointManager batch ∧
        ∀ history size, BehindCheckPoint env.calculateHash (ofLex batch.1.1).1 (ofLex batch.1.1).2 history →
          CatchUpFree env.calculateHash size ((executions trace).take s.replica.checkpointManager.lastSeq)
            (history.take (ofLex batch.1.1).1) batch.2 →
          Pinned env.calculateHash s.replica.checkpointManager.lastSeq (ofLex batch.1.1).1 history batch.2 := by
  obtain ⟨batches, handed, all⟩ := updateStable_handed env s.replica.config s.replica.checkpointManager
  rw [server_config run] at all
  refine ⟨batches, handed, fun batch member => ⟨all batch member, fun history size behind free => ?_⟩⟩
  have own := history_run run hashing
  exact returned_pinned (all batch member).returned (length_take_of_le own.bounded) own.hashed behind free

def hearAt (env : Env) (sender : Int) (request : Request) : ServerEvent :=
  (hearFrom sender env sender { request with senderId := sender, currentView := 1 }).2

def executeAt (request : Request) : List ServerEvent :=
  [hearAt toyEnv 1 { request with type := .prePrepare }] ++
    ([1, 2, 3].map fun sender => hearAt toyEnv sender { request with type := .prepare }) ++
    ([1, 2, 3].map fun sender => hearAt toyEnv sender { request with type := .commit }) ++
    [.takeMessage, .passNext, .executeMessage toyEnv, .updateCheckPointStatus toyEnv]

theorem executeAt_env (request : Request) : ∀ event ∈ executeAt request, ∀ env,
    event = .updateCheckPointStatus env → env = toyEnv := by
  rintro event member env rfl
  simpa [executeAt, hearAt, hearFrom] using member

theorem xy_run : ∃ config trace s, (server config).Run trace s ∧ UsesHash toyHash trace ∧ Signed trace 2 "g" ∧
    s.replica.checkpointManager.lastSeq = 2 ∧ hashesOf (executions trace) = ["a", "b"] ∧
    (executions trace).map (fun request => request.data) = ["x", "y"] := by
  obtain ⟨trace, s, run, good, events⟩ := System.run_of_events
    (serverAct_sound { ckptConfig with selfInfo := ⟨1⟩ }) (startServer_initial _)
    (executeAt (ckptRequest 1 "x" "a") ++ executeAt (ckptRequest 2 "y" "b"))
    (fun trace s => Signed trace 2 "g" ∧ s.replica.checkpointManager.lastSeq = 2 ∧
      hashesOf (executions trace) = ["a", "b"] ∧ (executions trace).map (fun request => request.data) = ["x", "y"])
    (by decide +kernel)
  refine ⟨_, trace, s, run, fun t member env same => ?_, good⟩
  rcases mem_append.mp (events t member) with first | second
  · rw [executeAt_env _ _ first env same]
    rfl
  · rw [executeAt_env _ _ second env same]
    rfl

theorem xy_executed : ∃ history, BehindCheckPoint toyHash 2 "g" history ∧ hashesOf history = ["a", "b"] ∧
    history.map (fun request => request.data) = ["x", "y"] := by
  obtain ⟨config, trace, s, run, hashing, signed, -, hashes, data⟩ := xy_run
  exact ⟨executions trace, ⟨config, trace, s, run, hashing, signed, rfl⟩, hashes, data⟩

theorem xy_between (data : history.map (fun request => request.data) = ["x", "y"]) : between 0 2 history = history := by
  have short : history.length = 2 := by simpa using congrArg List.length data
  rw [between, take_of_length_le short.le, drop_zero]

theorem xy_free (hashes : hashesOf history = ["a", "b"]) (data : history.map (fun request => request.data) = ["x", "y"])
    (asked : hashesOf requests = ["a", "b"]) (got : requests.map (fun request => request.data) = ["x", "y"]) :
    CatchUpFree toyHash 1 [] (history.take 2) requests := by
  have short : history.length = 2 := by simpa using congrArg List.length data
  rw [take_of_length_le short.le]
  refine ⟨toyHash_length, fun request member => ?_, ?_⟩
  · have inside : request.hash ∈ hashesOf history := mem_map_of_mem member
    rw [hashes] at inside
    rcases mem_pair.mp inside with same | same
    · rw [same]
      exact ⟨by decide, by decide⟩
    · rw [same]
      exact ⟨by decide, by decide⟩
  · unfold catchUpInputs
    rw [map_append, nil_append, hashes, asked, got, data]
    decide +kernel

def returning (requests : List Request) : Env := { toyEnv with getRequestFromReplica := fun _ _ _ => some requests }

def heardOfTwo : List ServerEvent :=
  let env : Env := { toyEnv with codec := { toyEnv.codec with
    parseCheckPointData := fun _ => some { seq := 2, hash := "g", hashSignature := ⟨1, "signature"⟩ } } }
  [1, 2].map fun sender => hearAt env sender { type := .checkpoint }

theorem in_order_caught_up : ∃ trace s history, (server ckptConfig).Run trace s ∧
    BehindCheckPoint toyHash 2 "g" history ∧
    (s.replica.updateStableCheckPointStatus (returning [ckptRequest 1 "x" "a", ckptRequest 2 "y" "b"])).2 =
      [ckptRequest 1 "x" "a", ckptRequest 2 "y" "b"] ∧
    AtItsPlace 0 2 history [ckptRequest 1 "x" "a", ckptRequest 2 "y" "b"] := by
  obtain ⟨history, behind, hashes, data⟩ := xy_executed
  obtain ⟨trace, s, run, ⟨nothing, lastSeq, votes, list⟩, events⟩ := System.run_of_events
    (serverAct_sound ckptConfig) (startServer_initial ckptConfig) heardOfTwo
    (fun trace s => executions trace = [] ∧ s.replica.checkpointManager.lastSeq = 0 ∧
      s.replica.checkpointManager.senderCkpt.entries = [(toLex (2, "g"), {1, 2})] ∧
      (s.replica.updateStableCheckPointStatus (returning [ckptRequest 1 "x" "a", ckptRequest 2 "y" "b"])).2 =
        [ckptRequest 1 "x" "a", ckptRequest 2 "y" "b"])
    (by decide +kernel)
  have hashing : UsesHash (returning [ckptRequest 1 "x" "a", ckptRequest 2 "y" "b"]).calculateHash trace := by
    intro t member env same
    have here := events t member
    simp [heardOfTwo, hearAt, hearFrom, same] at here
  obtain ⟨batches, handed, all⟩ := catch_up_places_iff run hashing
  rw [list] at handed
  obtain ⟨batch, member⟩ : ∃ batch, batch ∈ batches := by
    refine exists_mem_of_ne_nil _ fun none => ?_
    rw [none] at handed
    cases handed
  obtain ⟨fetched, pinned⟩ := all batch member
  have key := fetched.counted
  rw [votes, mem_singleton] at key
  obtain ⟨replica, -, returned⟩ := fetched.returned.returned
  have requests : [ckptRequest 1 "x" "a", ckptRequest 2 "y" "b"] = batch.2 := Option.some.inj returned
  rw [key, ← requests, nothing, lastSeq] at pinned
  have place : AtItsPlace 0 2 history [ckptRequest 1 "x" "a", ckptRequest 2 "y" "b"] ↔ _ ∧
      ∀ request ∈ between 0 2 history, toyHash request.data = request.hash :=
    (pinned history 1 behind (xy_free hashes data rfl rfl)).place
  refine ⟨trace, s, history, run, behind, list, place.mpr ⟨rfl, ?_⟩⟩
  rw [← data_hashed_iff, xy_between data, data, hashes]
  decide +kernel

def handedAt (t : Transition Server ServerEvent) : List Request :=
  match t.event with
  | .updateStableCheckPointStatus env => (t.before.replica.updateStableCheckPointStatus env).2
  | _ => []

theorem exchanged_numbers_executed : ∃ trace s history, (server ckptConfig).Run trace s ∧
    BehindCheckPoint toyHash 2 "g" history ∧
    (∃ t ∈ trace, handedAt t = [ckptRequest 2 "x" "a", ckptRequest 1 "y" "b"]) ∧
    CatchUpFree toyHash 1 [] (history.take 2) [ckptRequest 2 "x" "a", ckptRequest 1 "y" "b"] ∧
    ¬ AtItsPlace 0 2 history [ckptRequest 2 "x" "a", ckptRequest 1 "y" "b"] ∧
    history.map (fun request => request.data) = ["x", "y"] ∧
    (executions trace).map (fun request => request.data) = ["y", "x"] := by
  obtain ⟨history, behind, hashes, data⟩ := xy_executed
  obtain ⟨trace, s, run, handed, executed⟩ := exists_server_run ckptConfig
    (heardOfTwo ++ [.updateStableCheckPointStatus (returning [ckptRequest 2 "x" "a", ckptRequest 1 "y" "b"]),
      .takeMessage, .takeMessage, .passNext, .passNext, .executeMessage toyEnv, .executeMessage toyEnv])
    (fun trace _ => (∃ t ∈ trace, handedAt t = [ckptRequest 2 "x" "a", ckptRequest 1 "y" "b"]) ∧
      (executions trace).map (fun request => request.data) = ["y", "x"])
    (by decide +kernel)
  refine ⟨trace, s, history, run, behind, handed, xy_free hashes data rfl rfl, fun place => ?_, data, executed⟩
  exact absurd place.numbers (by decide)

end ResilientDB.Proof
