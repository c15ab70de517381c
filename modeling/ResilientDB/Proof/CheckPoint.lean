import ResilientDB.Model.CheckPoint

namespace ResilientDB.Proof
open Model Library

variable {env : Env} {config : ResDBConfig} {m m' : CheckPointManager}

abbrev Visit := CheckPointManager × List Request × Nat × String

def Visited (m m' : CheckPointManager) : Prop :=
  ∃ seq hash signal last highest, m' = { m with
    committableSeq := seq, committableHash := hash, committableSeqSignal := signal
    lastCommittableSeq := last, highestPreparedSeq := highest }

theorem Visited.refl (m : CheckPointManager) : Visited m m := ⟨_, _, _, _, _, rfl⟩

theorem Visited.trans {m'' : CheckPointManager} (first : Visited m m') (second : Visited m' m'') : Visited m m'' := by
  obtain ⟨seq, hash, signal, last, highest, rfl⟩ := first
  obtain ⟨seq', hash', signal', last', highest', rfl⟩ := second
  exact ⟨seq', hash', signal', last', highest', rfl⟩

structure Returned (env : Env) (m : CheckPointManager) (senders : Finset Nat) (seq : Nat) (hash : String)
    (requests : List Request) : Prop where
  ahead : m.lastSeq < seq
  returned : ∃ replica : ReplicaInfo, toUInt32 replica.id ∈ senders ∧
    env.getRequestFromReplica (m.lastSeq + 1) seq replica = some requests
  chained : CheckPointManager.chainHash env m.lastHash requests = some hash

theorem catchUp_eq (env : Env) (m : CheckPointManager) (senders : Finset Nat) (replicas : List ReplicaInfo) :
    m.catchUp env senders replicas = (m, []) ∨
      ∃ requests, Returned env m senders m.committableSeq m.committableHash requests ∧
        m.catchUp env senders replicas = ({ m with
          lastCommittableSeq := m.committableSeq, highestPreparedSeq := m.committableSeq }, requests) := by
  induction replicas with
  | nil => exact .inl rfl
  | cons replica rest ih =>
    simp only [CheckPointManager.catchUp]
    split_ifs with asked
    · split
      · exact ih
      · rename_i requests returned
        split_ifs with chained
        · exact .inr ⟨requests, ⟨asked.2, ⟨replica, asked.1, returned⟩, chained⟩, rfl⟩
        · exact ih
    · exact ih

structure CaughtUp (config : ResDBConfig) (m : CheckPointManager) (entry : (Nat ×ₗ String) × Finset Nat)
    (m' : CheckPointManager) : Prop where
  supported : config.getMinCheckpointReceiveNum ≤ entry.2.card
  ahead : m.lastSeq < (ofLex entry.1).1
  highest : m'.highestPreparedSeq = (ofLex entry.1).1

theorem visitCkpt_handed (env : Env) (config : ResDBConfig) (state : Visit) (entry : (Nat ×ₗ String) × Finset Nat) :
    (CheckPointManager.visitCkpt env config state entry).2.1 = state.2.1 ∨
      ∃ requests, (CheckPointManager.visitCkpt env config state entry).2.1 = state.2.1 ++ requests ∧
        config.getMinCheckpointReceiveNum ≤ entry.2.card ∧
        Returned env state.1 entry.2 (ofLex entry.1).1 (ofLex entry.1).2 requests := by
  unfold CheckPointManager.visitCkpt
  dsimp only
  split
  · rename_i supported
    split
    · rcases catchUp_eq env { state.1 with
          committableSeq := (ofLex entry.1).1, committableHash := (ofLex entry.1).2
          committableSeqSignal := state.1.committableSeqSignal + 1 } entry.2 config.replicas with
        same | ⟨requests, returned, same⟩
      · rw [same]
        exact .inl (List.append_nil _)
      · rw [same]
        exact .inr ⟨requests, rfl, supported, returned.ahead, returned.returned, returned.chained⟩
    · exact .inl rfl
  · exact .inl rfl

theorem visitCkpt_spec (env : Env) (config : ResDBConfig) (state : Visit) (entry : (Nat ×ₗ String) × Finset Nat) :
    Visited state.1 (CheckPointManager.visitCkpt env config state entry).1 ∧
      ((CheckPointManager.visitCkpt env config state entry).1.highestPreparedSeq = state.1.highestPreparedSeq ∨
        CaughtUp config state.1 entry (CheckPointManager.visitCkpt env config state entry).1) := by
  unfold CheckPointManager.visitCkpt
  dsimp only
  split
  · rename_i supported
    split_ifs with behind
    · rcases catchUp_eq env { state.1 with
          committableSeq := (ofLex entry.1).1, committableHash := (ofLex entry.1).2
          committableSeqSignal := state.1.committableSeqSignal + 1 } entry.2 config.replicas with
        same | ⟨requests, -, same⟩
      · rw [same]
        exact ⟨⟨_, _, _, _, _, rfl⟩, .inl rfl⟩
      · rw [same]
        exact ⟨⟨_, _, _, _, _, rfl⟩, .inr ⟨supported, behind.1, rfl⟩⟩
    · exact ⟨⟨_, _, _, _, _, rfl⟩, .inl rfl⟩
  · exact ⟨Visited.refl _, .inl rfl⟩

theorem foldl_visitCkpt_visited (env : Env) (config : ResDBConfig) (entries : List ((Nat ×ₗ String) × Finset Nat))
    (state : Visit) : Visited state.1 (entries.foldl (CheckPointManager.visitCkpt env config) state).1 := by
  induction entries generalizing state with
  | nil => exact Visited.refl _
  | cons entry rest ih => exact (visitCkpt_spec env config state entry).1.trans (ih _)

structure Lifted (bound : Nat → Prop) (start m : CheckPointManager) : Prop where
  raised : start.highestPreparedSeq ≤ m.highestPreparedSeq
  bounded : bound m.highestPreparedSeq

theorem foldl_visitCkpt_lifted {bound : Nat → Prop} {entries : List ((Nat ×ₗ String) × Finset Nat)} {state : Visit}
    {start : CheckPointManager} (before : Lifted bound start state.1)
    (allowed : ∀ entry ∈ entries, config.getMinCheckpointReceiveNum ≤ entry.2.card →
      state.1.lastSeq < (ofLex entry.1).1 → start.highestPreparedSeq ≤ (ofLex entry.1).1 ∧ bound (ofLex entry.1).1) :
    Lifted bound start (entries.foldl (CheckPointManager.visitCkpt env config) state).1 := by
  induction entries generalizing state with
  | nil => exact before
  | cons entry rest ih =>
    obtain ⟨⟨seq, hash, signal, last, highest, frame⟩, moved⟩ := visitCkpt_spec env config state entry
    apply ih
    · rcases moved with same | caught
      · constructor
        · rw [same]
          exact before.raised
        · rw [same]
          exact before.bounded
      · obtain ⟨raises, fits⟩ := allowed entry List.mem_cons_self caught.supported caught.ahead
        constructor
        · rw [caught.highest]
          exact raises
        · rw [caught.highest]
          exact fits
    · rw [frame]
      exact fun entry member => allowed entry (List.mem_cons_of_mem _ member)

theorem addCheckPoint_eq (m : CheckPointManager) (sender : Nat) (data : CheckPointData) :
    ∃ senders signs new, m.addCheckPoint sender data =
      { m with senderCkpt := senders, signCkpt := signs, newData := new } := by
  unfold CheckPointManager.addCheckPoint
  dsimp only
  split
  · exact ⟨_, _, _, rfl⟩
  · exact ⟨_, _, _, rfl⟩

theorem processCheckPoint_cases (env : Env) (config : ResDBConfig) (m : CheckPointManager) (request : Request) :
    (m.processCheckPoint env config request).1 = m ∨ ∃ data, data.seq % config.checkPointWaterMark = 0 ∧
      (m.processCheckPoint env config request).1 = m.addCheckPoint (toUInt32 request.senderId) data := by
  unfold CheckPointManager.processCheckPoint
  split
  · exact .inl rfl
  · rename_i data parsed
    split_ifs with mark verified
    · exact .inl rfl
    · exact .inl rfl
    · exact .inr ⟨data, not_not.mp mark, rfl⟩

theorem setStable_spec (m : CheckPointManager) (seq : Nat) (hash : String) :
    m.setStable seq hash = m ∨ m.currentStableSeq < seq ∧
      (m.setStable seq hash).stableCkpt = ⟨seq, hash, (m.signCkpt.find? (toLex (seq, hash))).getD []⟩ ∧
      (m.setStable seq hash).currentStableSeq = seq := by
  unfold CheckPointManager.setStable
  split_ifs with newer
  · exact .inr ⟨newer, rfl, rfl⟩
  · exact .inl rfl

theorem setStable_highest (m : CheckPointManager) (seq : Nat) (hash : String) :
    (m.setStable seq hash).highestPreparedSeq = m.highestPreparedSeq := by
  unfold CheckPointManager.setStable
  split <;> rfl

theorem updateStable_eq (env : Env) (config : ResDBConfig) (m : CheckPointManager) :
    (m.updateStableCheckPointStatus env config).1 = m ∨ ∃ visited handed seq hash,
      m.senderCkpt.entries.foldl (CheckPointManager.visitCkpt env config) (m, [], 0, "") =
        (visited, handed, seq, hash) ∧
      (m.updateStableCheckPointStatus env config).1 = { visited with newData := 0 }.setStable seq hash := by
  unfold CheckPointManager.updateStableCheckPointStatus
  split
  · exact .inl rfl
  · exact .inr ⟨_, _, _, _, rfl, rfl⟩

theorem updateCheckPointStatus_idle (queue : m.dataQueue = []) : m.updateCheckPointStatus env config = (m, none) := by
  unfold CheckPointManager.updateCheckPointStatus
  simp only [queue]

theorem updateCheckPointStatus_eq (env : Env) (config : ResDBConfig) (m : CheckPointManager) :
    ∃ data hash seq db ckpt, (m.updateCheckPointStatus env config).1 = { m with
      dataQueue := data, lastHash := hash, lastSeq := seq, txnDb := db, lastCkptSeq := ckpt } := by
  unfold CheckPointManager.updateCheckPointStatus
  split
  · exact ⟨_, _, _, _, _, rfl⟩
  dsimp only
  split
  · exact ⟨_, _, _, _, _, rfl⟩
  split
  · exact ⟨_, _, _, _, _, rfl⟩
  · exact ⟨_, _, _, _, _, rfl⟩

end ResilientDB.Proof
