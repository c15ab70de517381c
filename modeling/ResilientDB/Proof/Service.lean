import ResilientDB.Model.Service
import ResilientDB.Proof.Reorder

namespace ResilientDB.Proof
open Model Library

variable {σ : Type} {manager : TransactionManager σ} {parseBatch : String → Option Common.BatchRequest}
  {first : σ} {s s' : Service σ} {request : Request} {requests : List Common.UserRequest}
  {event : ExecutorEvent × Int} {trace : List (Transition (Service σ) (ExecutorEvent × Int))}

theorem executeBatch_length (manager : TransactionManager σ) (requests : List Common.UserRequest) (state : σ) :
    (manager.executeBatch requests state).1.length = requests.length := by
  induction requests generalizing state with
  | nil => rfl
  | cons subRequest rest ih => exact congrArg Nat.succ (ih _)

theorem executeBatch_answer (manager : TransactionManager σ) {i : Nat} {subRequest : Common.UserRequest} (state : σ)
    (here : requests[i]? = some subRequest) :
    (manager.executeBatch requests state).1[i]? = some
      ((manager.executeData (manager.executeBatch (requests.take i) state).2 subRequest.request.data).1.getD "") := by
  induction requests generalizing state i with
  | nil => cases here
  | cons first rest ih =>
    cases i with
    | zero =>
      cases here
      rfl
    | succ i => exact ih _ here

def stateAfter (manager : TransactionManager σ) (parseBatch : String → Option Common.BatchRequest) :
    σ → List Request → σ
  | state, [] => state
  | state, request :: rest =>
    stateAfter manager parseBatch (manager.executeBatch ((parseBatch request.data).getD {}).userRequests state).2 rest

theorem stateAfter_concat (state : σ) (requests : List Request) (request : Request) :
    stateAfter manager parseBatch state (requests ++ [request]) =
      (manager.executeBatch ((parseBatch request.data).getD {}).userRequests
        (stateAfter manager parseBatch state requests)).2 := by
  induction requests generalizing state with
  | nil => rfl
  | cons first rest ih => exact ih _

structure AnswersTo (manager : TransactionManager σ) (parseBatch : String → Option Common.BatchRequest) (first : σ)
    (batches : List Request) (request : Request) (executed : ExecutedBatch) (left : σ) : Prop where
  batch : ∃ before after, batches = before ++ request :: after ∧ left = stateAfter manager parseBatch first before
  response : executed.response = (manager.executeBatch ((parseBatch request.data).getD {}).userRequests left).1
  localId : executed.localId = ((parseBatch request.data).getD {}).localId

structure Served (manager : TransactionManager σ) (parseBatch : String → Option Common.BatchRequest) (first : σ)
    (s : Service σ) : Prop where
  hasManager : s.manager = some manager
  parses : s.parseBatch = parseBatch
  threads : (executorThreads manager.isOutOfOrder).Reachable s.threads
  state : s.state = stateAfter manager parseBatch first s.threads.batches
  executed : manager.isOutOfOrder = false → ∀ entry ∈ s.executed,
    ∃ left, AnswersTo manager parseBatch first s.threads.batches entry.1 entry.2 left

theorem AnswersTo.append {batches : List Request} {executed : ExecutedBatch} {left : σ}
    (answers : AnswersTo manager parseBatch first batches request executed left) (more : List Request) :
    AnswersTo manager parseBatch first (batches ++ more) request executed left := by
  obtain ⟨before, after, split, same⟩ := answers.batch
  refine ⟨⟨before, after ++ more, ?_, same⟩, answers.response, answers.localId⟩
  rw [split, List.append_assoc, List.cons_append]

section

variable (served : Served manager parseBatch first s)
include served

theorem Served.mode : s.isOutOfOrder = manager.isOutOfOrder ∧ s.threads.executor.outOfOrder = manager.isOutOfOrder := by
  obtain ⟨trace, run⟩ := served.threads
  refine ⟨?_, mode_run run⟩
  unfold Service.isOutOfOrder
  rw [served.hasManager]
  rfl

theorem Served.executeBatch (request : Request) :
    s.executeBatch request = manager.executeBatch ((parseBatch request.data).getD {}).userRequests
      (stateAfter manager parseBatch first s.threads.batches) := by
  unfold Service.executeBatch Service.batchRequest
  rw [served.hasManager, served.parses, served.state]

theorem Served.reach (event : ExecutorEvent) {threads : ExecutorThreads}
    (step : s.threads.act event = some threads) : (executorThreads manager.isOutOfOrder).Reachable threads := by
  obtain ⟨trace, run⟩ := served.threads
  have next : (executorThreads manager.isOutOfOrder).step s.threads event threads := step
  exact ⟨_, run.next next⟩

theorem Served.executeMessage (primary : Int) : Served manager parseBatch first (s.executeMessage primary) := by
  obtain ⟨mode, threadMode⟩ := served.mode
  have reached := served.reach .executeMessage rfl
  unfold Service.executeMessage
  split
  · exact served
  rename_i request rest queue
  have batches : s.threads.executeMessage.batches =
      if manager.isOutOfOrder then s.threads.batches else s.threads.batches ++ [request] := by
    unfold ExecutorThreads.executeMessage
    rw [queue, threadMode]
  unfold Service.execute
  rw [mode]
  cases ordered : manager.isOutOfOrder with
  | true =>
    rw [ordered, if_pos rfl] at batches
    refine ⟨served.hasManager, served.parses, reached, ?_, fun inOrder => ?_⟩
    · rw [batches]
      exact served.state
    · rw [ordered] at inOrder
      cases inOrder
  | false =>
    rw [ordered, if_neg Bool.false_ne_true] at batches
    refine ⟨served.hasManager, served.parses, reached, ?_, fun _ entry member => ?_⟩
    · rw [batches, stateAfter_concat, ← served.executeBatch request]
      rfl
    · rw [batches]
      rcases List.mem_append.mp member with earlier | now
      · obtain ⟨left, answers⟩ := served.executed ordered entry earlier
        exact ⟨left, answers.append [request]⟩
      · rw [List.mem_singleton.mp now]
        refine ⟨_, ⟨s.threads.batches, [], rfl, rfl⟩, ?_, ?_⟩
        · rw [← served.executeBatch request]
          rfl
        · rw [← served.parses]
          rfl

theorem Served.executeMessageOutOfOrder
    (outOfOrder : manager.isOutOfOrder = true) : Served manager parseBatch first s.executeMessageOutOfOrder := by
  obtain ⟨mode, threadMode⟩ := served.mode
  have reached := served.reach .executeMessageOutOfOrder (if_pos (threadMode.trans outOfOrder))
  unfold Service.executeMessageOutOfOrder
  split
  · exact served
  rename_i request rest queue
  have batches : s.threads.executeMessageOutOfOrder.batches = s.threads.batches ++ [request] := by
    unfold ExecutorThreads.executeMessageOutOfOrder
    rw [queue]
  refine ⟨served.hasManager, served.parses, reached, ?_, fun inOrder => ?_⟩
  · rw [batches, stateAfter_concat, ← served.executeBatch request]
    rfl
  · rw [outOfOrder] at inOrder
    cases inOrder

theorem Served.of_threads {threads : ExecutorThreads}
    (event : ExecutorEvent) (step : s.threads.act event = some threads) (same : threads.batches = s.threads.batches) :
    Served manager parseBatch first { s with threads := threads } where
  hasManager := served.hasManager
  parses := served.parses
  threads := served.reach event step
  state := served.state.trans (by rw [same])
  executed inOrder entry member := same ▸ served.executed inOrder entry member

theorem Served.act (step : s.act event = some s') : Served manager parseBatch first s' := by
  obtain ⟨event, primary⟩ := event
  cases event with
  | commit message =>
    cases step
    exact served.of_threads (.commit message) rfl rfl
  | orderMessage =>
    cases step
    exact served.of_threads .orderMessage rfl rfl
  | executeMessage =>
    cases step
    exact served.executeMessage primary
  | executeMessageOutOfOrder =>
    simp only [Service.act] at step
    split at step
    · rename_i mode
      cases step
      exact served.executeMessageOutOfOrder (served.mode.1.symm.trans mode)
    · cases step

end

theorem served_run (run : (serving (some manager) parseBatch first).Run trace s) :
    Served manager parseBatch first s := by
  refine run.invariant (fun _ => True) (Served manager parseBatch first) ?_
    (fun _ _ _ served step _ => served.act step) fun _ _ => trivial
  rintro s rfl
  exact ⟨rfl, rfl, ⟨[], .initial rfl⟩, rfl, fun _ _ never => by cases never⟩

theorem executeMessage_postExecute {r : Replica} {env : Env} {rest : List Request} {response : ExecutedBatch}
    (queue : r.transactionExecutor.executeQueue = request :: rest)
    (same : s.needResponse = r.transactionExecutor.needResponse) (hash : response.hash = request.hash) :
    (r.executeMessage env).2 = ((s.postExecute r.getCurrentPrimary request response).map fun pushed =>
        Outgoing.response pushed.toBatchUserResponse).toList := by
  unfold Replica.executeMessage Service.postExecute
  rw [queue, same]
  dsimp only
  split
  · rfl
  split
  · rw [← hash]
    rfl
  · rfl

end ResilientDB.Proof
