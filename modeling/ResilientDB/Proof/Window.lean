import ResilientDB.Proof.Equivocation

namespace ResilientDB.Proof
open Model Library

variable {config : ResDBConfig} {r r' : Replica} {call : Call} {event : ServerEvent} {s : Nat}

def capacityOf (config : ResDBConfig) : Nat := getCapacity (config.maxProcessTxn * 2)

structure Early (config : ResDBConfig) (r : Replica) : Prop where
  capacity : r.collectorPool.capacity = capacityOf config
  window : r.transactionExecutor.nextExecuteSeq ≤ capacityOf config + 1
  top : highest r ≤ capacityOf config
  unused : ∀ s, capacityOf config < (r.collectorPool.getCollector s).seq →
    (r.collectorPool.getCollector s).status = .none
  stable : stableSeq r = 0
  signal : r.checkpointManager.committableSeqSignal = 0

structure WithinWindow (config : ResDBConfig) (call : Call) : Prop where
  phase : IsPhase call.request.type → call.request.seq ≤ capacityOf config
  newView : ∀ message, call.request.type = .newview → call.env.codec.parseNewView call.request.data = some message →
    Accepts call.before call.env message → ∀ request ∈ message.request, request.seq ≤ capacityOf config

-- Nothing above the capacity is passed on, and no CHECKPOINT waits.
def Undisturbed (config : ResDBConfig) (r : Replica) : ServerEvent → Prop
  | .passNext => r.transactionExecutor.nextExecuteSeq ≤ capacityOf config
  | .updateStableCheckPointStatus _ => r.checkpointManager.newData = 0
  | _ => True

instance (config : ResDBConfig) (r : Replica) (event : ServerEvent) : Decidable (Undisturbed config r event) :=
  match event with
  | .passNext => inferInstanceAs (Decidable (_ ≤ _))
  | .updateStableCheckPointStatus _ => inferInstanceAs (Decidable (_ = _))
  | .process _ _ | .takeMessage | .executeMessage _ | .updateRecentHash _ | .updateCheckPointStatus _
  | .monitorTimeout _ | .monitorCheckpointState => inferInstanceAs (Decidable True)

section

variable (early : Early config r)
include early

theorem Early.own (pooled : Pooled config r) (least : 1 ≤ s) (most : s ≤ capacityOf config) :
    (r.collectorPool.getCollector s).seq = s := by
  obtain ⟨done, next, ring⟩ := pooled.ring
  have window := early.window
  have capacity := early.capacity
  exact ring.own (by omega) (by omega)

theorem Early.used (started : (r.collectorPool.getCollector s).status ≠ .none) :
    (r.collectorPool.getCollector s).seq ≤ capacityOf config := by
  by_contra beyond
  exact started (early.unused s (not_le.mp beyond))

theorem Early.renewed_slot (pooled : Pooled config r) (due : r.transactionExecutor.nextExecuteSeq ≤ capacityOf config)
    (most : (r.collectorPool.getCollector (renewedSeq r)).seq ≤ capacityOf config) :
    (r.collectorPool.getCollector (renewedSeq r)).seq = 0 := by
  obtain ⟨done, next, ring⟩ := pooled.ring
  have residue := ring.residue (renewedSeq r)
  have positive := ring.positive
  have far : renewedSeq r = done + 1 + capacityOf config := by
    unfold renewedSeq
    rw [next, early.capacity]
  rw [early.capacity] at residue positive
  rw [far] at residue most ⊢
  rw [Nat.mod_eq_of_lt (a := (r.collectorPool.getCollector (done + 1 + capacityOf config)).seq) (by omega)] at residue
  rcases Nat.lt_or_ge (done + 1) (capacityOf config) with below | reached
  · rw [Nat.mod_eq_of_lt (a := done + 1 + capacityOf config) (by omega)] at residue
    omega
  · have full : done + 1 + capacityOf config = 2 * capacityOf config := by omega
    rw [full, Nat.mod_self] at residue
    rw [full]
    exact residue

theorem Early.spares (pooled : Pooled config r) (undisturbed : Undisturbed config r event)
    (quiet : ∀ env, event ≠ .updateStableCheckPointStatus env) : Spares r event := by
  cases event with
  | passNext =>
    intro ready
    have started : (r.collectorPool.getCollector (renewedSeq r)).status ≠ .none := by
      intro none
      rw [none] at ready
      exact absurd ready (by decide)
    rw [early.renewed_slot pooled undisturbed (early.used started)]
    exact Nat.zero_le _
  | updateStableCheckPointStatus env => exact absurd rfl (quiet env)
  | _ => trivial

theorem Early.renewsUnvoted (pooled : Pooled config r)
    (undisturbed : Undisturbed config r event) : RenewsUnvoted r event := by
  cases event with
  | passNext =>
    intro own
    obtain ⟨done, next, ring⟩ := pooled.ring
    apply early.unused
    rw [own]
    unfold renewedSeq
    rw [early.capacity, next]
    omega
  | _ => trivial

theorem Early.kept (pooled : Pooled config r) (renews : Renews r r')
    (due : r.transactionExecutor.nextExecuteSeq ≤ capacityOf config) (least : 1 ≤ s) (most : s ≤ capacityOf config) :
    r'.collectorPool.getCollector s = r.collectorPool.getCollector s := by
  rcases renews.collector pooled s with old | ⟨-, here, -⟩
  · exact old
  · have own := early.own pooled least most
    have zero := early.renewed_slot pooled due (by rw [← here, own]; exact most)
    rw [← here, own] at zero
    omega

end

theorem Added.closed {c : TransactionCollector} {request : Request} {signature : SignatureInfo} {result : AddResult}
    (added : Added config c request signature result) (other : c.seq ≠ request.seq) : result.collector = c := by
  cases added with
  | rejected => rfl
  | proposed _ isOpen => exact absurd isOpen.2.2 other
  | candidate _ isOpen => exact absurd isOpen.2.2 other
  | ignored => rfl
  | voted isOpen => exact absurd isOpen.2.2 other
  | prepared isOpen => exact absurd isOpen.2.2 other
  | executed isOpen => exact absurd isOpen.2.2 other

theorem Early.start (config : ResDBConfig) (outOfOrder needResponse needQc : Bool) :
    Early config { Replica.create config with
      transactionExecutor := { outOfOrder := outOfOrder, needResponse := needResponse }
      needQc := needQc } :=
  ⟨rfl, Nat.le_add_left 1 _, Nat.zero_le _, fun _ _ => rfl, rfl, rfl⟩

theorem Early.called (early : Early config call.before) (pooled : Pooled config call.before) (ran : Ran call)
    (within : WithinWindow config call) : Early config call.outcome.replica := by
  have handling := commit_handling ran
  obtain ⟨level, senders, signatures, new, manager⟩ := handling_manager handling
  have window : call.outcome.replica.transactionExecutor.nextExecuteSeq ≤ capacityOf config + 1 := by
    rw [handling.collectors.2]
    exact early.window
  have stable : stableSeq call.outcome.replica = 0 := by
    unfold stableSeq
    rw [manager]
    exact early.stable
  have signal : call.outcome.replica.checkpointManager.committableSeqSignal = 0 := by
    rw [manager]
    exact early.signal
  rcases call_evidence ran with same | ⟨message, type, parsed, accepted, redone⟩ | ⟨result, gives⟩
  · refine ⟨?_, window, ?_, ?_, stable, signal⟩
    · rw [same.pool]
      exact early.capacity
    · rw [same.highest]
      exact early.top
    · rw [same.pool]
      exact early.unused
  · refine ⟨?_, window, ?_, ?_, stable, signal⟩
    · rw [redone.pool]
      exact early.capacity
    · have bounded := redone.bounded (capacityOf config + 1) (Nat.lt_succ_of_le early.top)
        fun request member => Nat.lt_succ_of_le (within.newView message type parsed accepted request member)
      exact Nat.le_of_lt_succ bounded
    · rw [redone.pool]
      exact early.unused
  · refine ⟨?_, window, ?_, fun s beyond => ?_, stable, signal⟩
    · rw [gives.pool]
      exact early.capacity
    · unfold highest
      rw [gives.highest]
      dsimp only
      split
      · exact max_le early.top (within.phase gives.phase)
      · exact early.top
    · rcases gives.collector pooled.running s with old | ⟨new, here, -, added⟩
      · rw [old] at beyond ⊢
        exact early.unused s beyond
      · rw [new, added.seq] at beyond
        have other : (call.before.collectorPool.getCollector s).seq ≠ call.request.seq := by
          have most := within.phase gives.phase
          omega
        rw [new, added.closed other]
        exact early.unused s beyond

theorem updateStable_idle {env : Env} (idle : r.checkpointManager.newData = 0) :
    (r.updateStableCheckPointStatus env).1 = r := by
  unfold Replica.updateStableCheckPointStatus CheckPointManager.updateStableCheckPointStatus
  rw [if_pos idle]
  rfl

theorem monitorCheckpointState_idle (idle : r.checkpointManager.committableSeqSignal = 0) :
    r.monitorCheckpointState = r := by
  unfold Replica.monitorCheckpointState
  rw [if_pos idle]

theorem Early.congr (early : Early config r) (pool : r'.collectorPool = r.collectorPool)
    (next : r'.transactionExecutor.nextExecuteSeq = r.transactionExecutor.nextExecuteSeq)
    (level : r'.checkpointManager.highestPreparedSeq = r.checkpointManager.highestPreparedSeq)
    (stable : r'.checkpointManager.stableCkpt = r.checkpointManager.stableCkpt)
    (signal : r'.checkpointManager.committableSeqSignal = r.checkpointManager.committableSeqSignal) :
    Early config r' := by
  refine ⟨?_, ?_, ?_, ?_, ?_, signal.trans early.signal⟩
  · rw [pool]
    exact early.capacity
  · rw [next]
    exact early.window
  · unfold highest
    rw [level]
    exact early.top
  · rw [pool]
    exact early.unused
  · unfold stableSeq
    rw [stable]
    exact early.stable

theorem Early.renewed (early : Early config r) (pooled : Pooled config r) (renews : Renews r r')
    (window : r.transactionExecutor.nextExecuteSeq ≤ capacityOf config) : Early config r' := by
  obtain ⟨executor, collectors, frame⟩ := renews.frame
  have manager : r'.checkpointManager = r.checkpointManager := by rw [frame]
  refine ⟨?_, ?_, ?_, fun s beyond => ?_, ?_, ?_⟩
  · rw [renews.pool, update_capacity]
    exact early.capacity
  · rw [renews.next]
    exact Nat.succ_le_succ window
  · unfold highest
    rw [manager]
    exact early.top
  · rcases renews.collector pooled s with old | ⟨new, -⟩
    · rw [old] at beyond ⊢
      exact early.unused s beyond
    · rw [new]
  · unfold stableSeq
    rw [manager]
    exact early.stable
  · rw [manager]
    exact early.signal

theorem Early.thread (early : Early config r) (pooled : Pooled config r) (moved : Background r event r')
    (undisturbed : Undisturbed config r event) : Early config r' := by
  rcases moved.collectors with ⟨rfl, renews⟩ | ⟨pool, next⟩
  · exact early.renewed pooled renews undisturbed
  rcases moved.checkpoints with ⟨env, rfl, rfl⟩ | ⟨data, hash, seq, db, ckpt, signal, same, quiet⟩
  · rw [updateStable_idle undisturbed]
    exact early
  by_cases monitors : event = .monitorCheckpointState
  · subst monitors
    cases moved
    rw [monitorCheckpointState_idle early.signal]
    exact early
  · exact early.congr pool next (by rw [same]) (by rw [same]) (by rw [same]; exact quiet monitors)

end ResilientDB.Proof
