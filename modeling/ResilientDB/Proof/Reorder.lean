import ResilientDB.Library.Reorder
import ResilientDB.Proof.Executor

namespace ResilientDB.Proof
open Model Library List

variable {e e' : TransactionExecutor} {received ordered : List Request}

structure Buffered (received ordered : List Request) (e : TransactionExecutor) : Prop where
  next : e.nextExecuteSeq = ordered.length + 1
  order : InKeyOrder Request.seq received ordered
  waiting : ∀ n, e.candidates.find? n = if e.nextExecuteSeq ≤ n then firstOf Request.seq received n else none

theorem find?_insertNew (m : OrderedMap Nat Request) (key other : Nat) (value : Request) :
    (m.insertNew key value).find? other = (m.find? other).or (if key = other then some value else none) := by
  unfold OrderedMap.insertNew
  rw [OrderedMap.find?_alter]
  by_cases same : other = key
  · subst same
    cases m.find? other <;> simp
  · simp [same, Ne.symm same]

theorem Buffered.takeMessage {message : Request} {rest : List Request} (buffered : Buffered received ordered e)
    (queue : e.commitQueue = message :: rest) : Buffered (received ++ [message]) ordered e.takeMessage := by
  have next := takeMessage_nextExecuteSeq e
  refine ⟨next.trans buffered.next, buffered.order.arrive message, fun n => ?_⟩
  rw [next, firstOf_append]
  unfold TransactionExecutor.takeMessage
  simp only [queue]
  by_cases stale : e.nextExecuteSeq > message.seq
  · rw [if_pos stale]
    dsimp only
    rw [buffered.waiting]
    by_cases due : e.nextExecuteSeq ≤ n
    · have other : message.seq ≠ n := by omega
      simp [other]
    · simp [due]
  · rw [if_neg stale]
    unfold TransactionExecutor.addNewData
    dsimp only
    rw [find?_insertNew, buffered.waiting]
    by_cases due : e.nextExecuteSeq ≤ n
    · simp [due]
    · have other : message.seq ≠ n := by omega
      simp [due, other]

theorem Buffered.passNext (buffered : Buffered received ordered e) (passed : e.passNext = some e') :
    ∃ message, Buffered received (ordered ++ [message]) e' ∧ e'.executeQueue = e.executeQueue ++ [message] := by
  obtain ⟨message, found, rfl⟩ := passNext_find? passed
  have next := buffered.next
  rw [buffered.waiting, if_pos le_rfl] at found
  refine ⟨message, ⟨by simp [next], buffered.order.release (next ▸ found), fun n => ?_⟩, rfl⟩
  dsimp only
  rw [OrderedMap.find?_eraseIf, buffered.waiting]
  by_cases here : n = e.nextExecuteSeq
  · simp [here]
  · by_cases due : e.nextExecuteSeq ≤ n
    · have later : e.nextExecuteSeq + 1 ≤ n := by omega
      simp [here, due, later]
    · have earlier : ¬ e.nextExecuteSeq + 1 ≤ n := by omega
      simp [here, due, earlier]

theorem passNext_size (passed : e.passNext = some e') : e'.candidates.size < e.candidates.size := by
  obtain ⟨message, found, rfl⟩ := passNext_find? passed
  exact OrderedMap.size_eraseIf_lt found

theorem passAll_done {turns : Nat} (enough : e.candidates.size ≤ turns) :
    (TransactionExecutor.passAll turns e).passNext = none := by
  induction turns generalizing e with
  | zero =>
    cases passed : e.passNext with
    | none => exact passed
    | some next =>
      have less := passNext_size passed
      omega
  | succ turns ih =>
    unfold TransactionExecutor.passAll
    cases passed : e.passNext with
    | none => exact passed
    | some next =>
      have less := passNext_size passed
      exact ih (by omega)

structure Pushes (e : TransactionExecutor) (more : List Request) (e' : TransactionExecutor) : Prop where
  executeQueue : e'.executeQueue = e.executeQueue ++ more
  executeOOOQueue : e'.executeOOOQueue = e.executeOOOQueue
  outOfOrder : e'.outOfOrder = e.outOfOrder

structure Drains (received ordered more : List Request) (e e' : TransactionExecutor) : Prop where
  buffered : Buffered received (ordered ++ more) e'
  pushes : Pushes e more e'
  commitQueue : e'.commitQueue = e.commitQueue

theorem passAll_drains (turns : Nat) (buffered : Buffered received ordered e) :
    ∃ more, Drains received ordered more e (TransactionExecutor.passAll turns e) := by
  induction turns generalizing e ordered with
  | zero =>
    unfold TransactionExecutor.passAll
    exact ⟨[], by simpa using buffered, ⟨by simp, rfl, rfl⟩, rfl⟩
  | succ turns ih =>
    unfold TransactionExecutor.passAll
    cases passed : e.passNext with
    | none => exact ⟨[], by simpa using buffered, ⟨by simp, rfl, rfl⟩, rfl⟩
    | some next =>
      obtain ⟨message, advanced, pushed⟩ := buffered.passNext passed
      obtain ⟨more, drains⟩ := ih advanced
      obtain ⟨_, -, rfl⟩ := passNext_find? passed
      refine ⟨message :: more, ?_, ⟨?_, drains.pushes.executeOOOQueue, drains.pushes.outOfOrder⟩, drains.commitQueue⟩
      · simpa using drains.buffered
      · rw [drains.pushes.executeQueue, pushed]
        simp

theorem find?_eq_none_of_passNext (least : ∀ n < e.nextExecuteSeq, e.candidates.find? n = none)
    (stopped : e.passNext = none) : e.candidates.find? e.nextExecuteSeq = none := by
  by_contra found
  obtain ⟨message, found⟩ := Option.ne_none_iff_exists'.mp found
  obtain ⟨seq, head, first⟩ := OrderedMap.first?_isSome found
  obtain ⟨there, oldest⟩ := OrderedMap.first?_eq_some first
  -- the first candidate is not older than the next one
  have next : seq = e.nextExecuteSeq := by
    refine le_antisymm (oldest _ _ found) (not_lt.mp fun older => ?_)
    rw [least seq older] at there
    cases there
  unfold TransactionExecutor.passNext TransactionExecutor.getNextData at stopped
  simp [first, next] at stopped

theorem Buffered.stopped (buffered : Buffered received ordered e) (stopped : e.passNext = none) :
    firstOf Request.seq received (ordered.length + 1) = none := by
  have missing := find?_eq_none_of_passNext (fun n below => by rw [buffered.waiting, if_neg (not_le.mpr below)]) stopped
  rwa [buffered.waiting, if_pos le_rfl, buffered.next] at missing

theorem drain_drains (buffered : Buffered received ordered e) : ∃ more, Drains received ordered more e e.drain ∧
      firstOf Request.seq received ((ordered ++ more).length + 1) = none := by
  obtain ⟨more, drains⟩ := passAll_drains e.candidates.size buffered
  exact ⟨more, drains, drains.buffered.stopped (passAll_done le_rfl)⟩

structure Threads (s : ExecutorThreads) : Prop where
  buffered : Buffered s.received s.ordered s.executor
  drained : firstOf Request.seq s.received (s.ordered.length + 1) = none
  committed : s.committed = s.received ++ s.executor.commitQueue
  inOrder : s.executor.outOfOrder = false → s.ordered = s.batches ++ s.executor.executeQueue
  outOfOrder : s.executor.outOfOrder = true → s.committed = s.batches ++ s.executor.executeOOOQueue

theorem takeMessage_pushes (e : TransactionExecutor) : Pushes e [] e.takeMessage := by
  unfold TransactionExecutor.takeMessage
  split
  · exact ⟨by simp, rfl, rfl⟩
  · dsimp only
    split
    · exact ⟨by simp, rfl, rfl⟩
    · exact ⟨by simp [TransactionExecutor.addNewData], rfl, rfl⟩

theorem takeMessage_commitQueue (e : TransactionExecutor) : e.takeMessage.commitQueue = e.commitQueue.tail := by
  unfold TransactionExecutor.takeMessage
  split
  · rename_i queue
    rw [queue]
    rfl
  · rename_i queue
    rw [queue]
    dsimp only
    split <;> rfl

theorem orderMessage_drains (buffered : Buffered received ordered e)
    (drained : firstOf Request.seq received (ordered.length + 1) = none) :
    ∃ more, Buffered (received ++ e.commitQueue.head?.toList) (ordered ++ more) e.orderMessage ∧
      firstOf Request.seq (received ++ e.commitQueue.head?.toList) ((ordered ++ more).length + 1) = none ∧
      Pushes e more e.orderMessage ∧ e.orderMessage.commitQueue = e.commitQueue.tail := by
  unfold TransactionExecutor.orderMessage
  cases queue : e.commitQueue with
  | nil =>
    obtain ⟨more, drains, done⟩ := drain_drains buffered
    exact ⟨more, by simpa using drains.buffered, by simpa using done, drains.pushes, drains.commitQueue.trans queue⟩
  | cons message rest =>
    have taken := buffered.takeMessage queue
    have pushes := takeMessage_pushes e
    have rested := takeMessage_commitQueue e
    rw [queue] at rested
    dsimp only
    split_ifs with stale
    · refine ⟨[], by simpa using taken, ?_, pushes, rested⟩
      have other : message.seq ≠ ordered.length + 1 := by
        have next := buffered.next
        omega
      rw [append_nil, head?_cons, Option.toList_some, firstOf_append, drained]
      simp [other]
    · obtain ⟨more, drains, done⟩ := drain_drains taken
      refine ⟨more, drains.buffered, done, ⟨?_, ?_, ?_⟩, drains.commitQueue.trans rested⟩
      · rw [drains.pushes.executeQueue, pushes.executeQueue, append_nil]
      · rw [drains.pushes.executeOOOQueue, pushes.executeOOOQueue]
      · rw [drains.pushes.outOfOrder, pushes.outOfOrder]

theorem Threads.commit {s : ExecutorThreads} (threads : Threads s) (message : Request) :
    Threads (s.commit message) := by
  have commits := commit_commits s.executor message
  have ordered := threads.inOrder
  have direct := threads.outOfOrder
  unfold ExecutorThreads.commit
  refine ⟨⟨?_, threads.buffered.order, ?_⟩, threads.drained, ?_, ?_, ?_⟩
  · exact commits.next.trans threads.buffered.next
  · dsimp only
    rw [commits.candidates, commits.next]
    exact threads.buffered.waiting
  · dsimp only
    rw [commits.commitQueue, threads.committed, append_assoc]
  · unfold TransactionExecutor.commit
    intro mode
    split at mode
    · rename_i other
      exact absurd mode (by simp [other])
    · rename_i other
      simpa [other] using ordered mode
  · unfold TransactionExecutor.commit
    intro mode
    split at mode
    · rename_i other
      simp [other, direct mode]
    · rename_i other
      exact absurd mode other

theorem Threads.orderMessage {s : ExecutorThreads} (threads : Threads s) : Threads s.orderMessage := by
  obtain ⟨more, buffered, drained, pushes, rested⟩ := orderMessage_drains threads.buffered threads.drained
  have ordered := threads.inOrder
  have direct := threads.outOfOrder
  unfold ExecutorThreads.orderMessage
  have pushed : s.executor.orderMessage.executeQueue.drop s.executor.executeQueue.length = more := by
    rw [pushes.executeQueue, drop_left]
  rw [← pushed] at buffered drained
  refine ⟨buffered, drained, ?_, ?_, ?_⟩
  · dsimp only
    rw [threads.committed, rested]
    cases s.executor.commitQueue <;> simp
  · dsimp only
    rw [pushed, pushes.outOfOrder, pushes.executeQueue]
    intro mode
    rw [ordered mode, append_assoc]
  · dsimp only
    rw [pushes.outOfOrder, pushes.executeOOOQueue]
    exact direct

theorem Threads.executeMessage {s : ExecutorThreads} (threads : Threads s) : Threads s.executeMessage := by
  unfold ExecutorThreads.executeMessage
  split
  · exact threads
  · rename_i request rest queue
    refine ⟨⟨threads.buffered.next, threads.buffered.order, threads.buffered.waiting⟩, threads.drained,
      threads.committed, fun mode => ?_, fun mode => ?_⟩
    · have split := threads.inOrder mode
      dsimp only at mode ⊢
      rw [if_neg (by simp [mode]), split, queue]
      simp
    · dsimp only at mode ⊢
      rw [if_pos mode]
      exact threads.outOfOrder mode

theorem Threads.executeMessageOutOfOrder {s : ExecutorThreads} (threads : Threads s)
    (mode : s.executor.outOfOrder = true) : Threads s.executeMessageOutOfOrder := by
  unfold ExecutorThreads.executeMessageOutOfOrder
  split
  · exact threads
  · rename_i request rest queue
    refine ⟨⟨threads.buffered.next, threads.buffered.order, threads.buffered.waiting⟩, threads.drained,
      threads.committed, fun other => ?_, fun _ => ?_⟩
    · exact absurd other (by simp [mode])
    · have split := threads.outOfOrder mode
      dsimp only
      rw [split, queue]
      simp

theorem Threads.act {s s' : ExecutorThreads} {event : ExecutorEvent} (threads : Threads s)
    (step : s.act event = some s') : Threads s' := by
  cases event with
  | commit message =>
    cases step
    exact threads.commit message
  | orderMessage =>
    cases step
    exact threads.orderMessage
  | executeMessage =>
    cases step
    exact threads.executeMessage
  | executeMessageOutOfOrder =>
    simp only [ExecutorThreads.act] at step
    split at step
    · rename_i mode
      cases step
      exact threads.executeMessageOutOfOrder mode
    · cases step

variable {outOfOrder : Bool} {trace : List (Transition ExecutorThreads ExecutorEvent)} {s : ExecutorThreads}

theorem threads_initial (outOfOrder : Bool) : Threads { executor := { outOfOrder := outOfOrder } } :=
  ⟨⟨rfl, .nil, fun n => by simp [firstOf]⟩, rfl, rfl, fun _ => rfl, fun _ => rfl⟩

theorem threads_run (run : (executorThreads outOfOrder).Run trace s) : Threads s :=
  run.invariant (fun _ => True) Threads (fun _ first => first ▸ threads_initial outOfOrder)
    (fun _ _ _ threads step _ => threads.act step) fun _ _ => trivial

theorem act_mode {s' : ExecutorThreads} {event : ExecutorEvent} (threads : Threads s) (step : s.act event = some s') :
    s'.executor.outOfOrder = s.executor.outOfOrder := by
  cases event with
  | commit message =>
    cases step
    simp only [ExecutorThreads.commit, TransactionExecutor.commit]
    split <;> rfl
  | orderMessage =>
    cases step
    obtain ⟨_, -, -, pushes, -⟩ := orderMessage_drains threads.buffered threads.drained
    exact pushes.outOfOrder
  | executeMessage =>
    cases step
    unfold ExecutorThreads.executeMessage
    split <;> rfl
  | executeMessageOutOfOrder =>
    simp only [ExecutorThreads.act] at step
    split at step
    · cases step
      unfold ExecutorThreads.executeMessageOutOfOrder
      split <;> rfl
    · cases step

theorem mode_run (run : (executorThreads outOfOrder).Run trace s) : s.executor.outOfOrder = outOfOrder := by
  induction run with
  | initial first => rw [first]
  | next earlier step ih => exact (act_mode (threads_run earlier) step).trans ih

theorem orderMessage_run (run : (executorThreads outOfOrder).Run trace s) :
    ∃ trace' s', (executorThreads outOfOrder).Run trace' s' ∧ s'.committed = s.committed ∧
      s'.received = s.committed := by
  generalize waiting : s.executor.commitQueue = queue
  induction queue generalizing s trace with
  | nil =>
    have committed := (threads_run run).committed
    rw [waiting, append_nil] at committed
    exact ⟨trace, s, run, rfl, committed.symm⟩
  | cons message rest ih =>
    have threads := threads_run run
    obtain ⟨_, -, -, -, rested⟩ := orderMessage_drains threads.buffered threads.drained
    have ran : (executorThreads outOfOrder).step s .orderMessage s.orderMessage := rfl
    rw [waiting] at rested
    exact ih (run.next ran) (s := s.orderMessage) rested

/-- The longest gapless sequence of what has come. -/
theorem reorder_buffer_correct (run : (executorThreads outOfOrder).Run trace s) :
    s.ordered.map Request.seq = List.range' 1 s.executor.getMaxPendingExecutedSeq ∧
      IsGreatest {k | ∀ n, 1 ≤ n → n ≤ k → ∃ message ∈ s.received, message.seq = n}
        s.executor.getMaxPendingExecutedSeq ∧
      (∀ message ∈ s.ordered, s.received.find? (fun other => other.seq = message.seq) = some message) ∧
      s.committed = s.received ++ s.executor.commitQueue ∧
      ∃ trace' s', (executorThreads outOfOrder).Run trace' s' ∧ s'.committed = s.committed ∧
        s'.received = s.committed := by
  have threads := threads_run run
  have length : s.executor.getMaxPendingExecutedSeq = s.ordered.length := by
    unfold TransactionExecutor.getMaxPendingExecutedSeq
    rw [threads.buffered.next, Nat.add_sub_cancel]
  rw [length]
  exact ⟨threads.buffered.order.keys, threads.buffered.order.greatest threads.drained,
    fun message member => threads.buffered.order.first member, threads.committed, orderMessage_run run⟩

def scattered : List Request :=
  [{ seq := 2, hash := "b" }, { seq := 2, hash := "c" }, { seq := 1, hash := "a" }, { seq := 1, hash := "d" },
    { seq := 4, hash := "e" }]

def scatteredEvents : List ExecutorEvent := scattered.map .commit ++ List.replicate 5 .orderMessage

theorem scattered_ordered : ∃ trace s, (executorThreads false).Run trace s ∧ s.received = scattered ∧
    s.ordered.map (fun message => message.hash) = ["a", "b"] ∧
    IsGreatest {k | ∀ n, 1 ≤ n → n ≤ k → ∃ message ∈ s.received, message.seq = n} 2 := by
  obtain ⟨trace, s, run, received, ordered, two⟩ := System.run_of_play ((executorThreads false).acts rfl) rfl
    scatteredEvents (fun _ s => s.received = scattered ∧ s.ordered.map (fun message => message.hash) = ["a", "b"] ∧
      s.executor.getMaxPendingExecutedSeq = 2) (by decide)
  exact ⟨trace, s, run, received, ordered, two ▸ (reorder_buffer_correct run).2.1⟩

theorem batches_inOrder (run : (executorThreads false).Run trace s) : (s.batches.map Request.seq).Nodup := by
  have threads := threads_run run
  have split := threads.inOrder (mode_run run)
  have keys := threads.buffered.order.keys
  rw [split, map_append] at keys
  have nodup : (s.batches.map Request.seq ++ s.executor.executeQueue.map Request.seq).Nodup := by
    rw [keys]
    exact nodup_range'
  exact nodup.of_append_left

theorem committed_run (messages : List Request) : ∃ trace s, (executorThreads true).Run trace s ∧
    s.committed = messages ∧ s.batches = [] := by
  induction messages using List.reverseRecOn with
  | nil => exact ⟨[], _, .initial rfl, rfl, rfl⟩
  | append_singleton rest message ih =>
    obtain ⟨trace, s, run, committed, none⟩ := ih
    have ran : (executorThreads true).step s (.commit message) (s.commit message) := rfl
    exact ⟨_, _, run.next ran, by simp [ExecutorThreads.commit, committed], none⟩

theorem executed_run (run : (executorThreads true).Run trace s) : ∃ trace' s', (executorThreads true).Run trace' s' ∧
    s'.committed = s.committed ∧ s'.batches = s.committed := by
  generalize waiting : s.executor.executeOOOQueue = queue
  induction queue generalizing s trace with
  | nil =>
    have committed := (threads_run run).outOfOrder (mode_run run)
    rw [waiting, append_nil] at committed
    exact ⟨trace, s, run, rfl, committed.symm⟩
  | cons message rest ih =>
    have ran : (executorThreads true).step s .executeMessageOutOfOrder s.executeMessageOutOfOrder :=
      if_pos (mode_run run)
    have popped : s.executeMessageOutOfOrder.executor.executeOOOQueue = rest := by
      unfold ExecutorThreads.executeMessageOutOfOrder
      rw [waiting]
    have same : s.executeMessageOutOfOrder.committed = s.committed := by
      unfold ExecutorThreads.executeMessageOutOfOrder
      rw [waiting]
    obtain ⟨trace', s', run', committed, batches⟩ := ih (run.next ran) popped
    exact ⟨trace', s', run', committed.trans same, batches.trans same⟩

theorem executes_once_iff (outOfOrder : Bool) (messages : List Request) :
    (∀ trace s, (executorThreads outOfOrder).Run trace s → s.committed = messages →
      (s.batches.map Request.seq).Nodup) ↔ outOfOrder = false ∨ (messages.map Request.seq).Nodup := by
  cases outOfOrder with
  | false => exact ⟨fun _ => .inl rfl, fun _ _ _ run _ => batches_inOrder run⟩
  | true =>
    constructor
    · intro once
      obtain ⟨trace, s, run, committed, -⟩ := committed_run messages
      obtain ⟨trace', s', run', committed', batches⟩ := executed_run run
      have distinct := once trace' s' run' (committed'.trans committed)
      rw [batches, committed] at distinct
      exact .inr distinct
    · rintro (absurd | distinct) trace s run rfl
      · cases absurd
      · rw [(threads_run run).outOfOrder (mode_run run), map_append] at distinct
        exact distinct.of_append_left

theorem twice_committed : ∃ trace s, (executorThreads true).Run trace s ∧
    s.batches.map (fun batch => batch.seq) = [1, 1] := by
  exact System.run_of_play ((executorThreads true).acts rfl) rfl
    [.commit { seq := 1, hash := "a" }, .executeMessageOutOfOrder, .commit { seq := 1, hash := "a" },
      .executeMessageOutOfOrder] _ (by decide)

end ResilientDB.Proof
