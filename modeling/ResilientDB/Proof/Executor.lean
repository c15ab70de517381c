import ResilientDB.Model.Execution

namespace ResilientDB.Proof
open Model Library List

variable {good : Request → Prop} {e e' : TransactionExecutor}

structure Stocked (good : Request → Prop) (e : TransactionExecutor) : Prop where
  queued : ∀ message ∈ e.commitQueue, good message
  waiting : ∀ entry ∈ e.candidates.entries, good entry.2 ∧ entry.2.seq = entry.1

theorem Stocked.mono {better : Request → Prop} (stocked : Stocked good e) (weaker : ∀ m, good m → better m) :
    Stocked better e :=
  ⟨fun m member => weaker m (stocked.queued m member),
    fun entry member => ⟨weaker _ (stocked.waiting entry member).1, (stocked.waiting entry member).2⟩⟩

structure Commits (e : TransactionExecutor) (message : Request) (e' : TransactionExecutor) : Prop where
  commitQueue : e'.commitQueue = e.commitQueue ++ [message]
  candidates : e'.candidates = e.candidates
  executeQueue : e'.executeQueue = e.executeQueue
  next : e'.nextExecuteSeq = e.nextExecuteSeq

theorem commit_commits (e : TransactionExecutor) (message : Request) : Commits e message (e.commit message) := by
  unfold TransactionExecutor.commit
  split
  · exact ⟨rfl, rfl, rfl, rfl⟩
  · exact ⟨rfl, rfl, rfl, rfl⟩

theorem Stocked.commit {message : Request} (stocked : Stocked good e) (listed : good message) :
    Stocked good (e.commit message) := by
  have commits := commit_commits e message
  constructor
  · rw [commits.commitQueue]
    exact forall_mem_append.mpr ⟨stocked.queued, forall_mem_singleton.mpr listed⟩
  · rw [commits.candidates]
    exact stocked.waiting

theorem mem_insertNew {m : OrderedMap Nat Request} {message : Request} {entry : Nat × Request}
    (member : entry ∈ (m.insertNew message.seq message).entries) :
    entry ∈ m.entries ∨ entry = (message.seq, message) := by
  obtain ⟨key, value⟩ := entry
  have found := OrderedMap.find?_eq_some.mpr member
  unfold OrderedMap.insertNew at found
  rw [OrderedMap.find?_alter] at found
  split_ifs at found with same
  · cases old : m.find? message.seq with
    | none =>
      rw [old] at found
      cases found
      rw [same]
      exact .inr rfl
    | some stored =>
      rw [old] at found
      cases found
      rw [same]
      exact .inl (OrderedMap.find?_eq_some.mp old)
  · exact .inl (OrderedMap.find?_eq_some.mp found)

theorem Stocked.takeMessage (stocked : Stocked good e) : Stocked good e.takeMessage := by
  unfold TransactionExecutor.takeMessage
  split
  · exact stocked
  · rename_i message rest queue
    have left (m : Request) (member : m ∈ rest) : good m :=
      stocked.queued m (by rw [queue]; exact mem_cons_of_mem _ member)
    dsimp only
    split
    · exact ⟨left, stocked.waiting⟩
    · refine ⟨left, fun entry member => ?_⟩
      rcases mem_insertNew member with old | rfl
      · exact stocked.waiting entry old
      · exact ⟨stocked.queued message (by rw [queue]; exact mem_cons_self), rfl⟩

structure Passes (e : TransactionExecutor) (message : Request) (e' : TransactionExecutor) : Prop where
  candidate : (e.nextExecuteSeq, message) ∈ e.candidates.entries
  next : e'.nextExecuteSeq = e.nextExecuteSeq + 1
  executeQueue : e'.executeQueue = e.executeQueue ++ [message]
  commitQueue : e'.commitQueue = e.commitQueue
  candidates : e'.candidates.entries ⊆ e.candidates.entries

theorem passNext_find? (passed : e.passNext = some e') : ∃ message, e.candidates.find? e.nextExecuteSeq = some message ∧
      e' = { e with
        candidates := e.candidates.eraseIf fun key => key = e.nextExecuteSeq
        executeQueue := e.executeQueue ++ [message], nextExecuteSeq := e.nextExecuteSeq + 1 } := by
  unfold TransactionExecutor.passNext TransactionExecutor.getNextData at passed
  cases first : e.candidates.first? with
  | none => simp [first] at passed
  | some entry =>
    obtain ⟨seq, message⟩ := entry
    simp only [first] at passed
    by_cases due : seq = e.nextExecuteSeq
    · subst due
      simp only [ne_eq, not_true_eq_false, ↓reduceIte, Option.some.injEq] at passed
      exact ⟨message, OrderedMap.find?_eq_some.mpr (mem_of_head? first), passed.symm⟩
    · simp [due] at passed

theorem passNext_passes (passed : e.passNext = some e') : ∃ message, Passes e message e' := by
  obtain ⟨message, found, rfl⟩ := passNext_find? passed
  exact ⟨message, OrderedMap.find?_eq_some.mp found, rfl, rfl, rfl, fun _ member => mem_of_mem_filter member⟩

theorem Passes.stocked {message : Request} (passes : Passes e message e') (stocked : Stocked good e) :
    Stocked good e' := by
  refine ⟨?_, fun entry member => ?_⟩
  · rw [passes.commitQueue]
    exact stocked.queued
  · exact stocked.waiting entry (passes.candidates member)

theorem takeMessage_nextExecuteSeq (e : TransactionExecutor) : e.takeMessage.nextExecuteSeq = e.nextExecuteSeq := by
  unfold TransactionExecutor.takeMessage
  split
  · rfl
  · dsimp only
    split <;> rfl

end ResilientDB.Proof
