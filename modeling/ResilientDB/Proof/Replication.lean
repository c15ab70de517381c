import ResilientDB.Library.Sequencer
import ResilientDB.Proof.Agreement
import ResilientDB.Proof.Service

namespace ResilientDB.Proof
open Model Library List

variable {cluster : Cluster} {net : Network} {trace : List (Transition Network NetworkEvent)} {i j : Int} {σ : Type}
  {manager : TransactionManager σ} {parseBatch : String → Option Common.BatchRequest} {first : σ} {s s' : Service σ}

-- The executor of the service gets its requests from the collectors of the replica.
structure Replicates (manager : TransactionManager σ) (parseBatch : String → Option Common.BatchRequest) (first : σ)
    (handed : List Request) (s : Service σ) : Prop where
  served : (serving (some manager) parseBatch first).Reachable s
  fed : s.threads.committed ⊆ handed

theorem Replicates.batches {handed : List Request} (replicates : Replicates manager parseBatch first handed s)
    (inOrder : manager.isOutOfOrder = false) :
    s.threads.batches.map Request.seq = (range s.threads.batches.length).map (1 + ·) ∧ s.threads.batches ⊆ handed := by
  obtain ⟨⟨_, run⟩, fed⟩ := replicates
  have served := served_run run
  obtain ⟨_, ran⟩ := served.threads
  have threads := threads_run ran
  have order := threads.buffered.order
  rw [threads.inOrder (served.mode.2.trans inOrder)] at order
  have keys := order.keys
  rw [map_append, length_append, ← range'_append_1] at keys
  constructor
  · rw [append_inj_left keys (by simp), range'_eq_map_range]
  · intro x member
    have received := mem_of_find?_eq_some (order.first (mem_append_left _ member))
    exact fed (threads.committed ▸ mem_append_left _ received)

theorem stateAfter_eq (state : σ) (requests : List Request) :
    stateAfter manager parseBatch state requests = (requests.map Request.data).foldl
      (fun state data => (manager.executeBatch ((parseBatch data).getD {}).userRequests state).2) state := by
  induction requests generalizing state with
  | nil => rfl
  | cons request rest ih => exact ih _

theorem AnswersTo.alike {xs ys : List Request} {request request' : Request} {executed executed' : ExecutedBatch}
    {state state' : σ} (answers : AnswersTo manager parseBatch first xs request executed state)
    (answers' : AnswersTo manager parseBatch first ys request' executed' state')
    (numbered : xs.map Request.seq = (range xs.length).map (1 + ·))
    (numbered' : ys.map Request.seq = (range ys.length).map (1 + ·))
    (agree : ∀ x ∈ xs, ∀ y ∈ ys, x.seq = y.seq → x.data = y.data) (same : request.seq = request'.seq) :
    executed.response = executed'.response := by
  obtain ⟨before, after, rfl, rfl⟩ := answers.batch
  obtain ⟨before', after', rfl, rfl⟩ := answers'.batch
  have position : request.seq = 1 + before.length := by
    simpa using congrArg (fun seqs => seqs[before.length]?) numbered
  have position' : request'.seq = 1 + before'.length := by
    simpa using congrArg (fun seqs => seqs[before'.length]?) numbered'
  have lengths : before.length = before'.length := by omega
  have earlier := take_map_of_keys numbered numbered' agree (n := before.length) (by simp) (by simp [lengths])
  rw [take_left, take_left' lengths.symm] at earlier
  rw [answers.response, answers'.response, stateAfter_eq, stateAfter_eq, earlier,
    agree request (by simp) request' (by simp) same]

def proposedOne : Request := { type := .prePrepare, hash := "a", senderId := 1, seq := 1, currentView := 1 }

def echoes : TransactionManager Unit where
  executeData _ data := (some data, ())

end ResilientDB.Proof
