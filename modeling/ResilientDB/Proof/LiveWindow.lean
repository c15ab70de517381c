import ResilientDB.Proof.Window

namespace ResilientDB.Proof
open Model Library List

variable {config : ResDBConfig} {r r' : Replica} {calls : List Call} {call : Call} {event : ServerEvent} {s : Server}
  {trace : List (Transition Server ServerEvent)} {size seq : Nat} {t : Transition Server ServerEvent}

theorem capacityExponent_spec {fuel i : Nat} (least : ∀ j < i, 2 ^ j ≤ size) (fits : size < 2 ^ (i + fuel)) :
    size < 2 ^ capacityExponent size fuel i ∧ ∀ j < capacityExponent size fuel i, 2 ^ j ≤ size := by
  induction fuel generalizing i with
  | zero => exact ⟨fits, least⟩
  | succ fuel ih =>
    unfold capacityExponent
    rw [Nat.one_shiftLeft]
    split_ifs with small
    · refine ih (fun j below => ?_) (by rw [Nat.add_right_comm]; exact fits)
      rcases Nat.lt_succ_iff_lt_or_eq.mp below with earlier | rfl
      · exact least j earlier
      · exact small
    · exact ⟨not_le.mp small, least⟩

theorem getCapacity_least (small : size < 2 ^ 32) :
    IsLeast {capacity | (∃ exponent, capacity = 2 ^ exponent) ∧ size < capacity} (getCapacity size) := by
  have spec : size < 2 ^ capacityExponent size 32 0 ∧ ∀ j < capacityExponent size 32 0, 2 ^ j ≤ size :=
    capacityExponent_spec (by simp) (by simpa using small)
  unfold getCapacity
  rw [Nat.one_shiftLeft]
  refine ⟨⟨⟨_, rfl⟩, spec.1⟩, ?_⟩
  rintro capacity ⟨⟨exponent, rfl⟩, more⟩
  by_contra less
  have below : exponent < capacityExponent size 32 0 := (Nat.pow_lt_pow_iff_right (by decide)).mp (not_le.mp less)
  have most := spec.2 exponent below
  omega

def updates (pool : LockFreeCollectorPool) : Nat → LockFreeCollectorPool
  | 0 => pool
  | m + 1 => (updates pool m).update (m + 1)

theorem updates_ring (size : Nat) (viewchange : Bool) (m : Nat) : Ring (updates (.create size viewchange) m) m := by
  induction m with
  | zero => exact Ring.create size viewchange
  | succ m ih => exact ih.update

theorem updates_capacity (pool : LockFreeCollectorPool) (m : Nat) : (updates pool m).capacity = pool.capacity := by
  induction m with
  | zero => rfl
  | succ m ih => exact (update_capacity _).trans ih

def Assigns (t : Nat) (call : Call) : Prop :=
  call.request.type = .newTxns ∧ call.outcome.sent = [.broadCast (proposalOf call.before call.request)] ∧
    call.before.nextSeq = t
deriving Decidable

theorem Assigns.handled {t : Nat} (assigns : Assigns t call) (ran : Ran call) :
    call.before.assignNextSeq ≠ none ∧ call.outcome.replica.nextSeq = addUInt64 t 1 := by
  obtain ⟨type, sent, rfl⟩ := assigns
  have handling := commit_handling ran
  generalize call.outcome = outcome at sent handling
  cases handling with
  | idle _ plain =>
    dsimp only at sent
    rw [sent] at plain
    simp [Outgoing.request?, proposalOf] at plain
  | assigned _ _ room => exact ⟨room, rfl⟩
  | added gives =>
    have phase := gives.phase
    simp [IsPhase, type] at phase
  | checkpointed other => simp [type] at other
  | viewChanged other => simp [type] at other
  | newView other => simp [type] at other

theorem assignNextSeq_near (small : r.config.maxProcessTxn < 2 ^ 29) (low : r.nextSeq < 2 ^ 32)
    (room : r.assignNextSeq ≠ none) :
    r.nextSeq ≤ r.transactionExecutor.getMaxPendingExecutedSeq + r.config.maxProcessTxn := by
  unfold Replica.assignNextSeq at room
  dsimp only at room
  split_ifs at room with full
  · exact absurd rfl room
  · have cut : toUInt32 r.transactionExecutor.getMaxPendingExecutedSeq ≤
        r.transactionExecutor.getMaxPendingExecutedSeq ∧
        toUInt32 r.transactionExecutor.getMaxPendingExecutedSeq < 2 ^ 32 := by
      unfold toUInt32
      omega
    unfold subUInt64 at full
    omega

structure LiveRing (config : ResDBConfig) (r : Replica) (calls : List Call) : Prop where
  pooled : Pooled config r
  capacity : r.collectorPool.capacity = capacityOf config
  assigned : ∀ call ∈ calls, ∀ t, Assigns t call → t < 2 ^ 32 →
    t < r.transactionExecutor.nextExecuteSeq + config.maxProcessTxn

theorem handling_capacity {env : Env} {context : Context} {request : Request} {outcome : Outcome}
    (handling : Handling r env context request outcome) :
    outcome.replica.collectorPool.capacity = r.collectorPool.capacity := by
  rcases handling.collectors.1 with same | ⟨result, gives⟩
  · rw [same]
  · rw [gives.pool]
    rfl

theorem LiveRing.called (live : LiveRing config call.before calls) (small : config.maxProcessTxn < 2 ^ 29)
    (ran : Ran call) : LiveRing config call.outcome.replica (calls ++ [call]) := by
  have handling := commit_handling ran
  have next := handling.collectors.2
  have capacity := (handling_capacity handling).trans live.capacity
  refine ⟨live.pooled.called ran, capacity, fun other member t assigns low => ?_⟩
  rw [next]
  rcases mem_append.mp member with old | new
  · exact live.assigned other old t assigns low
  · rw [mem_singleton.mp new] at assigns
    have same := live.pooled.config
    have near := assignNextSeq_near (same ▸ small) (assigns.2.2 ▸ low) (assigns.handled ran).1
    obtain ⟨done, before, -⟩ := live.pooled.ring
    rw [assigns.2.2, same] at near
    unfold TransactionExecutor.getMaxPendingExecutedSeq at near
    omega

theorem LiveRing.thread (live : LiveRing config r calls) (moved : Background r event r') :
    LiveRing config r' calls := by
  refine ⟨live.pooled.thread moved, ?_, fun call member t assigns low => ?_⟩
  · rcases moved.collectors with ⟨-, renews⟩ | ⟨pool, -⟩
    · rw [renews.pool, update_capacity]
      exact live.capacity
    · rw [pool]
      exact live.capacity
  · have bound := live.assigned call member t assigns low
    rcases moved.collectors with ⟨-, renews⟩ | ⟨-, next⟩
    · rw [renews.next]
      omega
    · rw [next]
      exact bound

theorem liveRing_run (run : (server config).Run trace s) (small : config.maxProcessTxn < 2 ^ 29) :
    LiveRing config s.replica s.calls := by
  refine server_invariant run (LiveRing config) ?_ ?_ ?_ ?_
  · exact fun outOfOrder needResponse needQc => ⟨.start config outOfOrder needResponse needQc, rfl, by simp⟩
  · exact fun _ _ _ _ _ live => ⟨live.pooled.congr rfl rfl rfl, live.capacity, live.assigned⟩
  · exact fun _ _ live ran _ => live.called small ran
  · exact fun _ _ _ live moved _ => live.thread moved

theorem LiveRing.keeps (live : LiveRing config r calls) (small : config.maxProcessTxn < 2 ^ 29) {t : Nat}
    (assigned : ∃ call ∈ calls, Assigns t call) (low : t < 2 ^ 32)
    (waiting : r.transactionExecutor.nextExecuteSeq ≤ t) :
    (r.collectorPool.getCollector t).seq = t ∧
      ∀ r', r.passNext = some r' → r'.collectorPool.getCollector t = r.collectorPool.getCollector t := by
  obtain ⟨call, member, assigns⟩ := assigned
  have bound := live.assigned call member t assigns low
  obtain ⟨done, before, ring⟩ := live.pooled.ring
  have enough : config.maxProcessTxn * 2 < r.collectorPool.capacity := by
    rw [live.capacity]
    exact (getCapacity_least (by omega)).1.2
  refine ⟨ring.own (by omega) (by omega), fun r' passed => ?_⟩
  have moved : Background r .passNext r' := .passNext passed
  rcases moved.collectors with ⟨-, renews⟩ | ⟨pool, -⟩
  · rw [renews.pool, before, getCollector_update ring, if_neg]
    intro slot
    have apart := add_le_of_mod_eq slot (by omega)
    omega
  · rw [pool]

theorem ring_holds_window {size : Nat} (positive : 1 ≤ size) (small : size < 2 ^ 29) :
    (∀ viewchange, IsLeast {capacity | (∃ exponent, capacity = 2 ^ exponent) ∧ 2 * size < capacity}
      (LockFreeCollectorPool.create size viewchange).capacity) ∧
    (∀ viewchange m, (∀ i < m, ((updates (.create size viewchange) i).getCollector (i + 1)).seq = i + 1) ∧
      ∀ t, 1 ≤ t → m < t + (LockFreeCollectorPool.create size viewchange).capacity →
        t ≤ m + (LockFreeCollectorPool.create size viewchange).capacity →
        ((updates (.create size viewchange) m).getCollector t).seq = t) ∧
    ∀ config trace s t, config.maxProcessTxn = size → (server config).Run trace s →
      (∃ call ∈ s.calls, Assigns t call) → t < 2 ^ 32 → s.replica.transactionExecutor.nextExecuteSeq ≤ t →
      (s.replica.collectorPool.getCollector t).seq = t ∧ ∀ r', s.replica.passNext = some r' →
        r'.collectorPool.getCollector t = s.replica.collectorPool.getCollector t := by
  refine ⟨fun viewchange => ?_, fun viewchange m => ⟨fun i _ => ?_, fun t _ recent near => ?_⟩, ?_⟩
  · rw [Nat.mul_comm]
    exact getCapacity_least (by omega)
  · exact (updates_ring size viewchange i).next_seq
  · have capacity := updates_capacity (.create size viewchange) m
    exact (updates_ring size viewchange m).own (capacity ▸ recent) (capacity ▸ near)
  · rintro config trace s t rfl run assigned low waiting
    exact (liveRing_run run small).keeps small assigned low waiting

def onePrimary : ResDBConfig := { viewConfig 1 with maxProcessTxn := 1 }

theorem onePrimary_window : ((updates (.create 1 true) 3).getCollector 7).seq = 7 ∧
    ∃ trace s, (server onePrimary).Run trace s ∧ (∃ call ∈ s.calls, Assigns 1 call) ∧
      (s.replica.collectorPool.getCollector 1).seq = 1 := by
  have window := ring_holds_window (le_refl 1) (by decide)
  obtain ⟨trace, s, run, assigned, waiting⟩ := exists_server_run onePrimary [hear .newTxns 0 "a" 9]
    (fun _ s => (∃ call ∈ s.calls, Assigns 1 call) ∧ s.replica.transactionExecutor.nextExecuteSeq ≤ 1) (by decide)
  exact ⟨(window.2.1 true 3).2 7 (by decide) (by decide) (by decide), trace, s, run, assigned,
    (window.2.2 onePrimary trace s 1 rfl run assigned (by decide) waiting).1⟩

def TakesIn (seq : Nat) (call : Call) : Prop :=
  IsPhase call.request.type ∧ call.request.seq = seq ∧
    call.outcome.replica.collectorPool.getCollector seq ≠ call.before.collectorPool.getCollector seq

-- the water mark of the comment in `IsValidMsg`
def InsideWaterMark (r : Replica) (seq : Nat) : Prop :=
  1 ≤ seq ∧ seq ≤ r.transactionExecutor.getMaxPendingExecutedSeq + r.collectorPool.capacity
deriving Decidable

structure Inside (config : ResDBConfig) (r : Replica) (calls : List Call) : Prop where
  pooled : Pooled config r
  taken : ∀ call ∈ calls, ∀ seq, TakesIn seq call → InsideWaterMark r seq

theorem InsideWaterMark.mono (inside : InsideWaterMark r seq)
    (capacity : r'.collectorPool.capacity = r.collectorPool.capacity)
    (next : r.transactionExecutor.nextExecuteSeq ≤ r'.transactionExecutor.nextExecuteSeq) : InsideWaterMark r' seq := by
  unfold InsideWaterMark TransactionExecutor.getMaxPendingExecutedSeq at *
  omega

theorem Inside.called (inside : Inside config call.before calls) (ran : Ran call)
    (near : ∀ seq, TakesIn seq call → InsideWaterMark call.before seq) :
    Inside config call.outcome.replica (calls ++ [call]) := by
  have handling := commit_handling ran
  have capacity := handling_capacity handling
  have next := handling.collectors.2.ge
  refine ⟨inside.pooled.called ran, fun other member seq takes => ?_⟩
  rcases mem_append.mp member with old | new
  · exact (inside.taken other old seq takes).mono capacity next
  · rw [mem_singleton.mp new] at takes
    exact (near seq takes).mono capacity next

theorem Inside.thread (inside : Inside config r calls) (moved : Background r event r') : Inside config r' calls := by
  refine ⟨inside.pooled.thread moved, fun call member seq takes => ?_⟩
  rcases moved.collectors with ⟨-, renews⟩ | ⟨pool, next⟩
  · refine (inside.taken call member seq takes).mono ?_ ?_
    · rw [renews.pool, update_capacity]
    · rw [renews.next]
      exact Nat.le_succ _
  · exact (inside.taken call member seq takes).mono (by rw [pool]) next.ge

theorem inside_run (run : (server config).Run trace s)
    (near : ∀ call ∈ s.calls, ∀ seq, TakesIn seq call → InsideWaterMark call.before seq) :
    Inside config s.replica s.calls := by
  refine server_invariant run (Inside config) ?_ ?_ ?_ ?_
  · exact fun outOfOrder needResponse needQc => ⟨.start config outOfOrder needResponse needQc, by simp⟩
  · exact fun _ _ _ _ _ inside => ⟨inside.pooled.congr rfl rfl rfl, inside.taken⟩
  · exact fun _ call inside ran member => inside.called ran (near call member)
  · exact fun _ _ _ inside moved _ => inside.thread moved

theorem Inside.keeps (inside : Inside config r calls) (moved : Background r .passNext r')
    (taken : ∃ call ∈ calls, TakesIn seq call) :
    (1 ≤ seq ∧ seq < r'.transactionExecutor.nextExecuteSeq) ∨
      r'.collectorPool.getCollector seq = r.collectorPool.getCollector seq := by
  obtain ⟨call, member, takes⟩ := taken
  have within := inside.taken call member seq takes
  obtain ⟨done, before, ring⟩ := inside.pooled.ring
  unfold InsideWaterMark TransactionExecutor.getMaxPendingExecutedSeq at within
  rcases moved.collectors with ⟨-, renews⟩ | ⟨pool, -⟩
  · rw [renews.next, renews.pool, before, getCollector_update ring]
    by_cases pushed : seq < done + 1 + 1
    · exact .inl ⟨within.1, pushed⟩
    · refine .inr (if_neg fun slot => ?_)
      have apart := add_le_of_mod_eq slot (by omega)
      omega
  · exact .inr (by rw [pool])

theorem server_calls_mono (run : (server config).Run trace s) (member : t ∈ trace) : t.before.calls ⊆ s.calls := by
  induction run with
  | initial => cases member
  | @next trace s s' event earlier step ih =>
    have grows : s.calls ⊆ s'.calls := by
      rcases server_step step with ⟨_, _, _, _, -, -, rfl⟩ | ⟨_, -, rfl⟩
      · exact subset_append_left _ _
      · exact List.Subset.refl _
    rcases mem_cons.mp member with rfl | old
    · exact grows
    · exact fun call made => grows (ih old made)

/-- Inside the water mark, `Update` never replaces a collector that is not passed on yet. -/
theorem recycling_keeps (run : (server config).Run trace s)
    (near : ∀ call ∈ s.calls, ∀ seq, TakesIn seq call → InsideWaterMark call.before seq) :
    ∀ t ∈ trace, t.event = .passNext → ∀ seq, (∃ call ∈ t.before.calls, TakesIn seq call) →
      (1 ≤ seq ∧ seq < t.after.replica.transactionExecutor.nextExecuteSeq) ∨
        t.after.replica.collectorPool.getCollector seq = t.before.replica.collectorPool.getCollector seq := by
  intro t member passes seq taken
  have calls := server_calls_mono run member
  obtain ⟨past, -, ran, took⟩ := run.earlier member
  have inside := inside_run ran fun call inside => near call (calls inside)
  rcases server_step took with ⟨_, _, _, _, other, -, -⟩ | ⟨r', moved, same⟩
  · rw [passes] at other
    cases other
  · rw [passes] at moved
    rw [same]
    exact inside.keeps moved taken

def stageOf (r : Replica) (seq : Nat) : TransactionStatue := (r.collectorPool.getCollector seq).status

def MovesStage (seq : Nat) (call : Call) : Prop :=
  IsPhase call.request.type ∧ call.request.seq = seq ∧ stageOf call.outcome.replica seq ≠ stageOf call.before seq
deriving Decidable

theorem MovesStage.takesIn (moves : MovesStage seq call) : TakesIn seq call :=
  ⟨moves.1, moves.2.1, fun same => moves.2.2 (congrArg TransactionCollector.status same)⟩

def isPassNext : ServerEvent → Bool
  | .passNext => true
  | _ => false

theorem eq_passNext {event : ServerEvent} (passes : isPassNext event = true) : event = .passNext := by
  cases event with
  | passNext => rfl
  | _ => cases passes

theorem firstRequest_kept : ∃ trace s, (server smallPool).Run trace s ∧ ∃ t ∈ trace, t.event = .passNext ∧
    (∃ call ∈ t.before.calls, TakesIn 1 call) ∧
    ((1 ≤ 1 ∧ 1 < t.after.replica.transactionExecutor.nextExecuteSeq) ∨
      t.after.replica.collectorPool.getCollector 1 = t.before.replica.collectorPool.getCollector 1) := by
  obtain ⟨trace, s, run, inside, t, member, passes, call, made, moves⟩ := exists_server_run smallPool (executeSeq 1 "a")
    (fun trace s => (∀ call ∈ s.calls, InsideWaterMark call.before call.request.seq) ∧
      ∃ t ∈ trace, isPassNext t.event = true ∧ ∃ call ∈ t.before.calls, MovesStage 1 call) (by decide)
  exact ⟨trace, s, run, t, member, eq_passNext passes, ⟨call, made, moves.takesIn⟩,
    recycling_keeps run (fun call made seq takes => takes.2.1 ▸ inside call made) t member (eq_passNext passes) 1
      ⟨call, made, moves.takesIn⟩⟩

theorem slowBackup_loses : ∃ trace s, (server smallPool).Run trace s ∧ ∃ t ∈ trace, t.event = .passNext ∧
    (∃ call ∈ t.before.calls, TakesIn 5 call) ∧ t.after.replica.transactionExecutor.nextExecuteSeq ≤ 5 ∧
    t.after.replica.collectorPool.getCollector 5 ≠ t.before.replica.collectorPool.getCollector 5 := by
  obtain ⟨trace, s, run, t, member, passes, ⟨call, made, moves⟩, waiting, lost⟩ := exists_server_run smallPool
    (prepareSeq 5 "x" ++ executeSeq 1 "a")
    (fun trace _ => ∃ t ∈ trace, isPassNext t.event = true ∧ (∃ call ∈ t.before.calls, MovesStage 5 call) ∧
      t.after.replica.transactionExecutor.nextExecuteSeq ≤ 5 ∧
      stageOf t.after.replica 5 ≠ stageOf t.before.replica 5) (by decide)
  exact ⟨trace, s, run, t, member, eq_passNext passes, ⟨call, made, moves.takesIn⟩, waiting,
    fun same => lost (congrArg TransactionCollector.status same)⟩

end ResilientDB.Proof
