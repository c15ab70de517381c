import ResilientDB.Proof.Collectors
import ResilientDB.Proof.NewView

namespace ResilientDB.Proof
open Model Library List

variable {config : ResDBConfig} {r r' : Replica} {calls : List Call} {call : Call} {c : TransactionCollector}
  {request : Request} {signature : SignatureInfo} {result : AddResult}

def proofsFor (c : TransactionCollector) (hash : String) : List RequestInfo :=
  c.preparedProof.filter fun proof => proof.request.hash = hash

structure Proved (config : ResDBConfig) (c : TransactionCollector) : Prop where
  own : ∀ proof ∈ c.preparedProof, proof.request.seq = c.seq
  enough : .readyCommit ≤ c.status → config.getMinDataReceiveNum ≤ c.preparedProof.length
  counted : c.isPrepared = false → ∀ hash, (c.senders .prepare hash).card ≤ (proofsFor c hash).length

theorem unready_of_early (early : c.status ≤ .readyPrepare) : ¬ .readyCommit ≤ c.status := by
  intro ready
  exact absurd (Nat.le_trans ready early) (by decide)

theorem Proved.congr {d : TransactionCollector} (proved : Proved config c) (proofs : d.preparedProof = c.preparedProof)
    (seq : d.seq = c.seq) (status : .readyCommit ≤ d.status → .readyCommit ≤ c.status)
    (prepared : d.isPrepared = c.isPrepared) (senders : d.senders .prepare = c.senders .prepare) :
    Proved config d := by
  refine ⟨?_, fun ready => ?_, ?_⟩
  · rw [proofs, seq]
    exact proved.own
  · rw [proofs]
    exact proved.enough (status ready)
  · unfold proofsFor
    rw [proofs, prepared, senders]
    exact proved.counted

theorem voted_counted (proved : Proved config c) (unprepared : c.isPrepared = false) (request : Request)
    (signature : SignatureInfo) (hash : String) :
    (((withProof c request signature).setSender .prepare request.hash request.senderId).senders .prepare hash).card ≤
      (proofsFor (withProof c request signature) hash).length := by
  have before := proved.counted unprepared hash
  unfold proofsFor withProof at *
  rw [filter_append, length_append]
  by_cases same : hash = request.hash
  · subst same
    rw [setSender_senders]
    have grown := Finset.card_insert_le request.senderId (c.senders .prepare request.hash)
    simp only [decide_true, filter_cons_of_pos, filter_nil, length_singleton]
    omega
  · have kept : (TransactionCollector.setSender { c with preparedProof := c.preparedProof ++ [⟨request, signature⟩] }
        .prepare request.hash request.senderId).senders .prepare hash = c.senders .prepare hash := by
      simp [TransactionCollector.setSender, same]
    rw [kept]
    omega

theorem setSender_other {type other : RequestType} {hash : String} {sender : Int} (different : type ≠ other) :
    (c.setSender type hash sender).senders other = c.senders other :=
  Function.update_of_ne different.symm _ _

theorem Added.proved (added : Added config c request signature result) (proved : Proved config c)
    (enabled : c.enableViewchange = true) : Proved config result.collector := by
  have own (isOpen : Open c request) :
      ∀ proof ∈ (withProof c request signature).preparedProof, proof.request.seq = c.seq :=
    forall_mem_snoc.mpr ⟨proved.own, isOpen.2.2.symm⟩
  cases added with
  | proposed =>
    refine proved.congr rfl rfl (fun ready => ?_) rfl rfl
    dsimp only at ready
    split_ifs at ready
    · exact absurd ready (by decide)
    · exact ready
  | voted isOpen _ _ proves =>
    by_cases prepare : request.type = .prepare
    · have early := proves ⟨enabled, prepare⟩
      unfold withVote
      rw [if_pos ⟨enabled, prepare⟩, prepare]
      exact ⟨own isOpen, fun ready => absurd ready (unready_of_early early.1),
        fun _ => voted_counted proved early.2 request signature⟩
    · exact proved.congr (if_neg fun known => prepare known.2) rfl id rfl (setSender_other prepare)
  | prepared isOpen prepared =>
    have quorum := prepared.quorum
    have enough := voted_counted proved (prepared.unprepared enabled) request signature request.hash
    rw [prepared.senders, prepared.type] at quorum
    unfold withQuorum
    rw [if_pos enabled, if_pos enabled]
    exact ⟨fun proof member => own isOpen proof (mem_of_mem_filter member), fun _ => quorum.trans enough, by simp⟩
  | executed _ executed =>
    have other : request.type ≠ .prepare := by simp [executed.type]
    refine proved.congr rfl rfl (fun _ => ?_) rfl (setSender_other other)
    rw [executed.before]
    decide
  | _ => exact ⟨proved.own, proved.enough, proved.counted⟩

structure Unanimous (c : TransactionCollector) (hash : String) (d : TransactionCollector) : Prop where
  kept : .readyCommit ≤ c.status → d.preparedProof = c.preparedProof
  chosen : ¬ .readyCommit ≤ c.status → .readyCommit ≤ d.status → ∀ proof ∈ d.preparedProof, proof.request.hash = hash

theorem Added.unanimous (added : Added config c request signature result) (enabled : c.enableViewchange = true) :
    Unanimous c request.hash result.collector := by
  constructor
  · intro ready
    cases added with
    | voted _ _ _ proves => exact if_neg fun known => unready_of_early (proves known).1 ready
    | prepared _ prepared =>
      rw [prepared.before] at ready
      exact absurd ready (by decide)
    | _ => rfl
  · intro unready ready proof member
    obtain ⟨-, -, main, others, rfl⟩ := (added.became_ready ready).resolve_left unready
    dsimp only [withQuorum] at member
    rw [if_pos enabled] at member
    exact of_decide_eq_true (mem_filter.mp member).2

theorem fresh_unready (seq : Nat) (viewchange : Bool) :
    ¬ .readyCommit ≤ ({ seq := seq, enableViewchange := viewchange } : TransactionCollector).status :=
  unready_of_early (c := { seq := seq, enableViewchange := viewchange }) (Nat.zero_le _)

theorem Proved.fresh (config : ResDBConfig) (seq : Nat) (viewchange : Bool) :
    Proved config { seq := seq, enableViewchange := viewchange } :=
  ⟨by simp, fun ready => absurd ready (fresh_unready seq viewchange), by simp⟩

def highest (r : Replica) : Nat := r.checkpointManager.highestPreparedSeq

def stableSeq (r : Replica) : Nat := r.checkpointManager.stableCkpt.seq

def IsReady (r : Replica) (s : Nat) : Prop :=
  (r.collectorPool.getCollector s).seq = s ∧ .readyCommit ≤ (r.collectorPool.getCollector s).status
deriving Decidable

def OnceReady (calls : List Call) (s : Nat) : Prop := ∃ call ∈ calls, IsReady call.outcome.replica s
deriving Decidable

def Counts (s : Nat) : Prop := s < 2 ^ 31 - 1
deriving Decidable

def CompletesPrepare (config : ResDBConfig) (c : TransactionCollector) (d : Delivery) : Prop :=
  isValidMsg d.currentView d.maxPendingExecutedSeq d.request = true ∧ Open c d.request ∧
    d.request.type = .prepare ∧ c.status = .readyPrepare ∧ config.getMinDataReceiveNum ≤
      (insert d.request.senderId (c.senders .prepare d.request.hash)).card
deriving Decidable

structure Recorded (call : Call) : Prop where
  prepare : CompletesPrepare call.before.config (call.before.collectorPool.getCollector call.request.seq)
    (deliveryOf call.before call.env call.context.signature call.request) →
      call.request.isRecovery = false ∧ Counts call.request.seq
  newView : ∀ message, call.request.type = .newview → call.env.codec.parseNewView call.request.data = some message →
    (∃ maxSeq, call.before.checkNewView call.env message = .ok (some maxSeq)) →
      ∀ request ∈ message.request, Counts request.seq

def Spares (r : Replica) : ServerEvent → Prop
  | .passNext => .readyCommit ≤ (r.collectorPool.getCollector (renewedSeq r)).status →
      (r.collectorPool.getCollector (renewedSeq r)).seq ≤ stableSeq r
  | .updateStableCheckPointStatus _ => ∀ entry ∈ r.checkpointManager.senderCkpt.entries,
      r.config.getMinCheckpointReceiveNum ≤ entry.2.card → r.checkpointManager.lastSeq < (ofLex entry.1).1 →
        highest r ≤ (ofLex entry.1).1 ∧ Counts (ofLex entry.1).1
  | _ => True

structure Recording (config : ResDBConfig) (r : Replica) (calls : List Call) : Prop where
  pooled : Pooled config r
  proved : ∀ s, Proved config (r.collectorPool.getCollector s)
  raised : ∀ s, IsReady r s → s ≤ highest r
  counts : Counts (highest r)
  stable : stableSeq r ≤ r.checkpointManager.currentStableSeq
  kept : ∀ s, OnceReady calls s → stableSeq r < s → IsReady r s

theorem Recording.congr (before : Recording config r calls) (pooled : Pooled config r')
    (pool : r'.collectorPool = r.collectorPool) (raises : highest r ≤ highest r') (counts : Counts (highest r'))
    (advances : stableSeq r ≤ stableSeq r') (stable : stableSeq r' ≤ r'.checkpointManager.currentStableSeq) :
    Recording config r' calls := by
  have ready (s : Nat) : IsReady r' s ↔ IsReady r s := by
    unfold IsReady
    rw [pool]
  refine ⟨pooled, ?_, ?_, counts, stable, ?_⟩
  · rw [pool]
    exact before.proved
  · intro s here
    exact (before.raised s ((ready s).mp here)).trans raises
  · intro s once above
    exact (ready s).mpr (before.kept s once (advances.trans_lt above))

theorem Recording.append (before : Recording config call.outcome.replica calls) :
    Recording config call.outcome.replica (calls ++ [call]) := by
  refine ⟨before.pooled, before.proved, before.raised, before.counts, before.stable, fun s once above => ?_⟩
  obtain ⟨other, member, ready⟩ := once
  rcases mem_append.mp member with old | new
  · exact before.kept s ⟨other, old, ready⟩ above
  · exact mem_singleton.mp new ▸ ready

structure SameCheckpoint (r r' : Replica) : Prop where
  stable : stableSeq r' = stableSeq r
  current : r'.checkpointManager.currentStableSeq = r.checkpointManager.currentStableSeq

structure Redone (r : Replica) (message : NewViewMessage) (r' : Replica) : Prop extends SameCheckpoint r r' where
  pool : r'.collectorPool = r.collectorPool
  raises : highest r ≤ highest r'
  bounded : ∀ bound, highest r < bound → (∀ redo ∈ message.request, redo.seq < bound) → highest r' < bound

theorem NewViewing.redone {env : Env} {outcome : Outcome} (viewing : NewViewing r env request outcome) :
    outcome.replica = r ∨ ∃ message, env.codec.parseNewView request.data = some message ∧
      (∃ maxSeq, r.checkNewView env message = .ok (some maxSeq)) ∧ Redone r message outcome.replica := by
  cases viewing with
  | refused _ same => exact .inl (congrArg Outcome.replica same)
  | @installed message maxSeq redone sent parsed checked loop after =>
    obtain ⟨⟨duplicates, top, same⟩, raises, bounded⟩ := foldlM_redoing loop
    dsimp only at same raises bounded
    subst same
    rw [after]
    exact .inr ⟨message, parsed, ⟨_, checked⟩, ⟨rfl, rfl⟩, rfl, raises, bounded⟩

structure SameEvidence (r r' : Replica) : Prop extends SameCheckpoint r r' where
  pool : r'.collectorPool = r.collectorPool
  highest : highest r' = highest r

theorem call_evidence (ran : Ran call) : SameEvidence call.before call.outcome.replica ∨
      (∃ message, call.request.type = .newview ∧ call.env.codec.parseNewView call.request.data = some message ∧
        (∃ maxSeq, call.before.checkNewView call.env message = .ok (some maxSeq)) ∧
        Redone call.before message call.outcome.replica) ∨
      ∃ result, Gives call.before call.env call.context call.request call.outcome result := by
  obtain ⟨env, before, context, request, outcome⟩ := call
  have handling : Handling before env context request outcome := commit_handling ran
  cases handling with
  | added gives => exact .inr (.inr ⟨_, gives⟩)
  | newView type viewing =>
    rcases viewing.redone with same | ⟨message, parsed, accepted, redone⟩
    · dsimp only at same ⊢
      rw [same]
      exact .inl ⟨⟨rfl, rfl⟩, rfl, rfl⟩
    · exact .inr (.inl ⟨message, type, parsed, accepted, redone⟩)
  | _ => exact .inl ⟨⟨rfl, rfl⟩, rfl, rfl⟩

theorem Gives.ready {result : AddResult}
    (gives : Gives call.before call.env call.context call.request call.outcome result)
    (pooled : Pooled config call.before)
    {s : Nat} (ready : IsReady call.before s) : IsReady call.outcome.replica s := by
  obtain ⟨own, status⟩ := ready
  unfold IsReady
  rcases gives.collector pooled.running s with old | ⟨new, -, -, added⟩
  · rw [old]
    exact ⟨own, status⟩
  · rw [new, added.seq]
    exact ⟨own, added.ready status⟩

theorem Recording.given {result : AddResult} (before : Recording config call.before calls)
    (enabled : config.enableViewchange = true) (ran : Ran call) (recorded : Recorded call)
    (gives : Gives call.before call.env call.context call.request call.outcome result) :
    Recording config call.outcome.replica calls := by
  have pooled := before.pooled
  have collector := gives.collector pooled.running
  have raised : highest call.outcome.replica =
      if call.request.type = .prepare ∧ call.request.isRecovery = false ∧ Changes result
        then max (highest call.before) call.request.seq else highest call.before := by
    unfold highest
    rw [gives.highest]
    rfl
  have grows : highest call.before ≤ highest call.outcome.replica := by
    rw [raised]
    split_ifs
    · exact Nat.le_max_left _ _
    · exact le_rfl
  have stable : stableSeq call.outcome.replica = stableSeq call.before := by
    unfold stableSeq
    rw [gives.highest]
  have records {after : TransactionCollector}
      (valid : isValidMsg call.before.getCurrentView
        call.before.transactionExecutor.getMaxPendingExecutedSeq call.request = true)
      (isOpen : Open (call.before.collectorPool.getCollector call.request.seq) call.request)
      (prepared : Prepared call.before.config (call.before.collectorPool.getCollector call.request.seq)
        call.request after) : call.request.isRecovery = false ∧ Counts call.request.seq := by
    refine recorded.prepare ⟨valid, isOpen, prepared.type, prepared.before, ?_⟩
    have quorum := prepared.quorum
    rwa [prepared.senders, ← prepared.type, setSender_senders, prepared.type] at quorum
  refine ⟨pooled.called ran, fun s => ?_, fun s ready => ?_, ?_, ?_, fun s once above => ?_⟩
  · rcases collector s with old | ⟨new, -, -, added⟩
    · rw [old]
      exact before.proved s
    · rw [new]
      rw [pooled.config] at added
      exact added.proved (before.proved s) ((pooled.viewchange _).trans enabled)
  · unfold IsReady at ready
    rcases collector s with old | ⟨new, here, valid, added⟩
    · rw [old] at ready
      exact (before.raised s ready).trans grows
    · rw [new] at ready
      obtain ⟨own, status⟩ := ready
      rw [added.seq] at own
      rcases added.became_ready status with earlier | ⟨isOpen, prepared, _, _, same⟩
      · exact (before.raised s ⟨own, earlier⟩).trans grows
      · rw [here] at isOpen prepared
        obtain ⟨fresh, -⟩ := records valid isOpen prepared
        rw [raised, if_pos ⟨prepared.type, fresh, same ▸ ⟨.inl rfl, rfl⟩⟩, ← own, here, isOpen.2.2]
        exact Nat.le_max_right _ _
  · rw [raised]
    split_ifs with fires
    · obtain ⟨type, -, -, changed⟩ := fires
      obtain ⟨valid, added⟩ := gives.added pooled.running changed
      obtain ⟨isOpen, prepared⟩ := prepared_of_changed added type changed
      exact max_lt before.counts (records valid isOpen prepared).2
    · exact before.counts
  · rw [stable, gives.highest]
    exact before.stable
  · rw [stable] at above
    exact gives.ready pooled (before.kept s once above)

theorem Recording.same (before : Recording config r calls) (same : SameEvidence r r') (pooled : Pooled config r') :
    Recording config r' calls := by
  refine before.congr pooled same.pool same.highest.ge ?_ same.stable.ge ?_
  · rw [same.highest]
    exact before.counts
  · rw [same.stable, same.current]
    exact before.stable

theorem Recording.called (before : Recording config call.before calls) (enabled : config.enableViewchange = true)
    (ran : Ran call) (recorded : Recorded call) : Recording config call.outcome.replica (calls ++ [call]) := by
  have pooled := before.pooled.called ran
  apply Recording.append
  rcases call_evidence ran with same | ⟨message, type, parsed, accepted, redone⟩ | ⟨result, gives⟩
  · exact before.same same pooled
  · refine before.congr pooled redone.pool redone.raises ?_ redone.stable.ge ?_
    · exact redone.bounded _ before.counts (recorded.newView message type parsed accepted)
    · rw [redone.stable, redone.current]
      exact before.stable
  · exact before.given enabled ran recorded gives

theorem Recording.renewed (before : Recording config r calls) (renews : Renews r r') (pooled : Pooled config r')
    (spares : Spares r .passNext) : Recording config r' calls := by
  have collector := renews.collector before.pooled
  obtain ⟨executor, pool, frame⟩ := renews.frame
  have same : r'.checkpointManager = r.checkpointManager := by rw [frame]
  refine ⟨pooled, fun s => ?_, fun s ready => ?_, ?_, ?_, fun s once above => ?_⟩
  · rcases collector s with old | ⟨new, -⟩
    · rw [old]
      exact before.proved s
    · rw [new]
      exact Proved.fresh config _ _
  · unfold highest
    rw [same]
    rcases collector s with old | ⟨new, -⟩
    · unfold IsReady at ready
      rw [old] at ready
      exact before.raised s ready
    · obtain ⟨-, status⟩ := ready
      rw [new] at status
      exact absurd status (fresh_unready _ _)
  · unfold highest
    rw [same]
    exact before.counts
  · unfold stableSeq
    rw [same]
    exact before.stable
  · unfold stableSeq at above
    rw [same] at above
    have ready := before.kept s once above
    rcases collector s with old | ⟨-, here, -⟩
    · unfold IsReady
      rw [old]
      exact ready
    · have covered := spares
      unfold Spares stableSeq at covered
      rw [← here, ready.1] at covered
      exact absurd (covered ready.2) (not_le.mpr above)

theorem updateStable_recorded (before : Recording config r calls) (env : Env)
    (spares : Spares r (.updateStableCheckPointStatus env))
    (pooled : Pooled config (r.updateStableCheckPointStatus env).1) :
    Recording config (r.updateStableCheckPointStatus env).1 calls := by
  have advanced : (r.updateStableCheckPointStatus env).1.checkpointManager =
      (r.checkpointManager.updateStableCheckPointStatus env r.config).1 := rfl
  rcases updateStable_eq env r.config r.checkpointManager with same | ⟨visited, handed, seq, hash, loop, same⟩
  · rw [same] at advanced
    refine before.same ⟨⟨?_, ?_⟩, rfl, ?_⟩ pooled
    · unfold stableSeq
      rw [advanced]
    · rw [advanced]
    · unfold highest
      rw [advanced]
  have lifted : Lifted Counts r.checkpointManager visited := by
    have start : Lifted Counts r.checkpointManager (r.checkpointManager, ([] : List Request), 0, "").1 :=
      ⟨le_rfl, before.counts⟩
    have after : Lifted Counts r.checkpointManager (r.checkpointManager.senderCkpt.entries.foldl
        (CheckPointManager.visitCkpt env r.config) (r.checkpointManager, [], 0, "")).1 :=
      foldl_visitCkpt_lifted start spares
    rw [loop] at after
    exact after
  obtain ⟨_, _, _, _, _, frame⟩ := foldl_visitCkpt_visited env r.config r.checkpointManager.senderCkpt.entries
    (r.checkpointManager, [], 0, "")
  rw [loop] at frame
  dsimp only at frame
  rw [same] at advanced
  have top : highest (r.updateStableCheckPointStatus env).1 = visited.highestPreparedSeq := by
    unfold highest
    rw [advanced]
    exact setStable_highest _ _ _
  have stable : stableSeq r ≤ stableSeq (r.updateStableCheckPointStatus env).1 ∧
      stableSeq (r.updateStableCheckPointStatus env).1 ≤
        (r.updateStableCheckPointStatus env).1.checkpointManager.currentStableSeq := by
    unfold stableSeq
    rw [advanced]
    rcases setStable_spec { visited with newData := 0 } seq hash with old | ⟨newer, ckpt, current⟩
    · rw [old, frame]
      exact ⟨le_rfl, before.stable⟩
    · rw [ckpt, current]
      rw [frame] at newer
      exact ⟨before.stable.trans newer.le, le_rfl⟩
  refine before.congr pooled rfl ?_ ?_ stable.1 stable.2
  · rw [top]
    exact lifted.raised
  · rw [top]
    exact lifted.bounded

theorem Recording.thread {event : ServerEvent} (before : Recording config r calls) (moved : Background r event r')
    (spares : Spares r event) : Recording config r' calls := by
  have pooled := before.pooled.thread moved
  rcases moved.collectors with ⟨rfl, renews⟩ | ⟨pool, -⟩
  · exact before.renewed renews pooled spares
  rcases moved.checkpoints with ⟨env, rfl, rfl⟩ | ⟨data, hash, seq, db, ckpt, signal, same, -⟩
  · exact updateStable_recorded before env spares pooled
  · refine before.same ⟨⟨?_, ?_⟩, pool, ?_⟩ pooled
    all_goals
      simp only [stableSeq, highest, same]

theorem Recording.start (config : ResDBConfig) (outOfOrder needResponse needQc : Bool) :
    Recording config { Replica.create config with
      transactionExecutor := { outOfOrder := outOfOrder, needResponse := needResponse }
      needQc := needQc } [] := by
  refine ⟨Pooled.start config outOfOrder needResponse needQc, fun s => Proved.fresh config _ _,
    fun s ready => absurd ready.2 (fresh_unready _ _), Nat.sub_pos_of_lt (by decide), le_rfl, ?_⟩
  rintro s ⟨call, member, -⟩
  cases member

theorem recording_run {trace : List (Transition Server ServerEvent)} {s : Server}
    (run : (server config).Run trace s) (enabled : config.enableViewchange = true)
    (calls : ∀ call ∈ s.calls, Recorded call) (steps : ∀ t ∈ trace, Spares t.before.replica t.event) :
    Recording config s.replica s.calls := by
  refine server_invariant run (Recording config) ?_ ?_ ?_ ?_
  · exact Recording.start config
  · intro r calls pending complained started before
    exact before.same ⟨⟨rfl, rfl⟩, rfl, rfl⟩ (before.pooled.congr rfl rfl rfl)
  · exact fun _ call before ran member => before.called enabled ran (calls call member)
  · exact fun _ _ _ before moved member => before.thread moved (steps _ member)

def Covers (config : ResDBConfig) (message : ViewChangeMessage) (s : Nat) : Prop :=
  ∃ entry ∈ message.preparedMsg, entry.seq = s ∧ config.getMinDataReceiveNum ≤ entry.proof.length ∧
    ∀ proof ∈ entry.proof, proof.request.seq = s

def entryAt (r : Replica) (seq : Nat) : Option PreparedMessage :=
  if TransactionStatue.readyCommit ≤ r.getTransactionState seq then
    some { seq := seq, proof := (r.getPreparedProof seq).map fun info => ⟨info.request, info.signature⟩ }
  else none

theorem preparedEntry_eq (proved : ∀ s, Proved r.config (r.collectorPool.getCollector s)) (i : Int) :
    r.preparedEntry i = .ok (entryAt r (toUInt64 i)) := by
  unfold Replica.preparedEntry entryAt
  dsimp only
  split
  · rename_i ready
    have enough : r.config.getMinDataReceiveNum ≤ (r.getPreparedProof (toUInt64 i)).length := (proved _).enough ready
    rw [if_neg (not_lt.mpr enough)]
  · rfl

theorem toInt32_of_counts {s : Nat} (counts : Counts s) : toInt32 s = s := by
  unfold Counts at counts
  exact Int.bmod_eq_of_le (by omega) (by omega)

theorem toUInt64_of_counts {s : Nat} (counts : Counts s) : toUInt64 s = s := by
  unfold Counts at counts
  unfold toUInt64
  omega

theorem int32Loop_of_counts {first last : Nat} (counts : Counts last) :
    int32Loop first last = .ok ((List.range (last + 1 - first)).map fun i => ((first + i : Nat) : Int)) := by
  unfold Counts at counts
  unfold int32Loop
  have length : ((last : Int) + 1 - first).toNat = last + 1 - first := by omega
  rw [if_neg (by omega), length]
  simp

def viewChangeOf (r : Replica) : ViewChangeMessage where
  viewNumber := addUInt64 r.getCurrentView r.viewChangeManager.viewChangeCounter
  stableCkpt := r.checkpointManager.stableCkpt
  preparedMsg := (List.range (highest r - stableSeq r)).filterMap fun i => entryAt r (stableSeq r + 1 + i)

theorem sendViewChangeMsg_eq (proved : ∀ s, Proved r.config (r.collectorPool.getCollector s))
    (counts : Counts (highest r)) (below : stableSeq r ≤ highest r) (env : Env) :
    r.sendViewChangeMsg env = .ok [.broadCast { newRequest .viewchange {} r.config.selfId with
      data := env.codec.serializeViewChange (viewChangeOf r) }] := by
  have next : addUInt64 (stableSeq r) 1 = stableSeq r + 1 := by
    unfold Counts at counts
    unfold addUInt64
    omega
  have first : toInt32 (addUInt64 (stableSeq r) 1 : Nat) = (stableSeq r + 1 : Nat) := by
    rw [next]
    unfold Counts at counts
    exact Int.bmod_eq_of_le (by omega) (by omega)
  have loop : int32Loop (toInt32 (addUInt64 (stableSeq r) 1)) (toInt32 r.getHighestPreparedSeq) =
      .ok ((List.range (highest r - stableSeq r)).map fun i => ((stableSeq r + 1 + i : Nat) : Int)) := by
    rw [first]
    have last : toInt32 r.getHighestPreparedSeq = (highest r : Nat) := toInt32_of_counts counts
    rw [last, int32Loop_of_counts counts, Nat.add_sub_add_right]
  unfold Replica.sendViewChangeMsg
  dsimp only
  have entries : ((List.range (highest r - stableSeq r)).map fun i =>
      ((stableSeq r + 1 + i : Nat) : Int)).mapM r.preparedEntry =
      .ok ((List.range (highest r - stableSeq r)).map fun i => entryAt r (stableSeq r + 1 + i)) := by
    have total : r.preparedEntry = fun i => pure (entryAt r (toUInt64 i)) := funext fun i => preparedEntry_eq proved i
    rw [total, mapM_pure, map_map]
    refine congrArg Except.ok (map_congr_left fun i member => ?_)
    have inside := mem_range.mp member
    rw [Function.comp_apply, toUInt64_of_counts (lt_of_le_of_lt (by omega) counts)]
  unfold stableSeq at loop
  rw [loop]
  change (do
    let entries ← ((List.range (highest r - stableSeq r)).map fun i =>
      ((stableSeq r + 1 + i : Nat) : Int)).mapM r.preparedEntry
    _) = _
  rw [entries]
  simp only [bind, Except.bind, filterMap_map, Function.id_comp]
  rfl

theorem evidence_kept {trace : List (Transition Server ServerEvent)} {s : Server}
    (run : (server config).Run trace s) (enabled : config.enableViewchange = true)
    (calls : ∀ call ∈ s.calls, Recorded call) (steps : ∀ t ∈ trace, Spares t.before.replica t.event) {seq : Nat}
    (once : OnceReady s.calls seq) (above : s.replica.checkpointManager.stableCkpt.seq < seq) :
    ∃ message, (∀ env, s.replica.sendViewChangeMsg env = .ok [.broadCast { newRequest .viewchange {} config.selfId with
        data := env.codec.serializeViewChange message }]) ∧ Covers config message seq := by
  have recording := recording_run run enabled calls steps
  have same := recording.pooled.config
  have ready := recording.kept seq once above
  have raised := recording.raised seq ready
  have proved := recording.proved seq
  refine ⟨viewChangeOf s.replica, fun env => ?_, ?_⟩
  · rw [← same]
    exact sendViewChangeMsg_eq (by rw [same]; exact recording.proved) recording.counts (above.trans_le raised).le env
  · obtain ⟨own, status⟩ := ready
    refine ⟨{ seq := seq, proof := (s.replica.getPreparedProof seq).map fun info => ⟨info.request, info.signature⟩ },
      ?_, rfl, ?_, ?_⟩
    · refine mem_filterMap.mpr ⟨seq - (stableSeq s.replica + 1), ?_, ?_⟩
      · rw [mem_range]
        change stableSeq s.replica < seq at above
        omega
      · change stableSeq s.replica < seq at above
        have position : stableSeq s.replica + 1 + (seq - (stableSeq s.replica + 1)) = seq := by omega
        rw [position]
        exact if_pos status
    · rw [length_map]
      exact proved.enough status
    · intro proof member
      obtain ⟨info, inside, rfl⟩ := mem_map.mp member
      exact (proved.own info inside).trans own

def hear (type : RequestType) (seq : Nat) (hash : String) (sender : Int) : ServerEvent :=
  let request : Request := { type := type, seq := seq, hash := hash, currentView := 1, senderId := sender }
  let env : Env := { plainEnv with codec := { plainEnv.codec with
    parseMessage := fun buff => some ⟨buff, some ⟨sender, "signature"⟩⟩
    parseRequest := fun _ => some request } }
  .process (fun _ => env) "message"

def prepareSeq (seq : Nat) (hash : String) : List ServerEvent :=
  [hear .prePrepare seq hash 1, hear .prepare seq hash 1, hear .prepare seq hash 2, hear .prepare seq hash 3]

def executeSeq (seq : Nat) (hash : String) : List ServerEvent :=
  prepareSeq seq hash ++ [hear .commit seq hash 1, hear .commit seq hash 2, hear .commit seq hash 3,
    .takeMessage, .passNext]

def smallPool : ResDBConfig := { viewConfig 4 with maxProcessTxn := 1 }

def sparesCheck (r : Replica) : ServerEvent → Bool
  | .passNext => decide (.readyCommit ≤ (r.collectorPool.getCollector (renewedSeq r)).status →
      (r.collectorPool.getCollector (renewedSeq r)).seq ≤ stableSeq r)
  | .updateStableCheckPointStatus _ => false
  | _ => true

theorem spares_of_check {event : ServerEvent} (checked : sparesCheck r event = true) : Spares r event := by
  cases event with
  | passNext =>
    have spared := of_decide_eq_true checked
    exact spared
  | updateStableCheckPointStatus env => cases checked
  | _ => trivial

theorem firstRequest_covered : ∃ trace s, (server smallPool).Run trace s ∧ OnceReady s.calls 1 ∧
    stableSeq s.replica = 0 ∧ ∃ message, (∀ env, s.replica.sendViewChangeMsg env =
      .ok [.broadCast { newRequest .viewchange {} smallPool.selfId with
        data := env.codec.serializeViewChange message }]) ∧ Covers smallPool message 1 := by
  obtain ⟨trace, s, run, recorded, spared, once, stable⟩ := exists_server_run smallPool (executeSeq 1 "a")
    (fun trace s => (∀ call ∈ s.calls, call.request.type ≠ .newview ∧
        (CompletesPrepare call.before.config (call.before.collectorPool.getCollector call.request.seq)
          (deliveryOf call.before call.env call.context.signature call.request) →
            call.request.isRecovery = false ∧ Counts call.request.seq)) ∧
      (∀ t ∈ trace, sparesCheck t.before.replica t.event = true) ∧ OnceReady s.calls 1 ∧ stableSeq s.replica = 0)
    (by decide)
  refine ⟨trace, s, run, once, stable,
    evidence_kept run rfl (fun call member => ⟨(recorded call member).2, fun _ type =>
      absurd type (recorded call member).1⟩) (fun t member => spares_of_check (spared t member)) once ?_⟩
  change stableSeq s.replica < 1
  omega

def asksFirst : Env :=
  { plainEnv with codec := { plainEnv.codec with
    serializeViewChange := fun message =>
      if message.preparedMsg.any (fun entry => entry.seq = 1) then "yes" else "no" } }

theorem fiveRequests_uncovered : ∃ trace s, (server smallPool).Run trace s ∧ OnceReady s.calls 1 ∧
    stableSeq s.replica = 0 ∧ ¬ ∃ message, (∀ env, s.replica.sendViewChangeMsg env =
      .ok [.broadCast { newRequest .viewchange {} smallPool.selfId with
        data := env.codec.serializeViewChange message }]) ∧ Covers smallPool message 1 := by
  obtain ⟨trace, s, run, once, stable, answer⟩ := exists_server_run smallPool
    (executeSeq 1 "a" ++ executeSeq 2 "b" ++ executeSeq 3 "c" ++ executeSeq 4 "d" ++ executeSeq 5 "e")
    (fun _ s => OnceReady s.calls 1 ∧ stableSeq s.replica = 0 ∧ s.replica.sendViewChangeMsg asksFirst =
      .ok [.broadCast { newRequest .viewchange {} smallPool.selfId with data := "no" }]) (by decide)
  refine ⟨trace, s, run, once, stable, ?_⟩
  rintro ⟨message, built, entry, member, first, -⟩
  have here := built asksFirst
  rw [answer] at here
  simp only [asksFirst, Except.ok.injEq, List.cons.injEq, Outgoing.broadCast.injEq, Request.mk.injEq,
    any_eq_true, decide_eq_true_eq] at here
  rw [if_pos ⟨entry, member, first⟩] at here
  simp at here

variable {seq : Nat} {d : Delivery}

def HasPrepare (c : TransactionCollector) (hash : String) (view : Nat) (i : Int) : Prop :=
  ∃ proof ∈ c.preparedProof, proof.request.type = .prepare ∧ proof.request.hash = hash ∧
    proof.request.currentView = view ∧ proof.request.senderId = i
deriving Decidable

def Certificate (config : ResDBConfig) (c : TransactionCollector) : Prop :=
  ∃ hash view, ∃ signers : Finset Int, config.getMinDataReceiveNum ≤ signers.card ∧
    ∀ i ∈ signers, HasPrepare c hash view i

def OneView (c : TransactionCollector) (request : Request) : Prop :=
  ∀ i ∈ c.senders .prepare request.hash, HasPrepare c request.hash request.currentView i
deriving Decidable

structure Attested (config : ResDBConfig) (c : TransactionCollector) : Prop where
  running : c.status ≠ .readyExecute
  enabled : c.enableViewchange = true
  ready : .readyCommit ≤ c.status → Certificate config c

theorem Certificate.congr {c' : TransactionCollector} (certificate : Certificate config c)
    (proofs : c'.preparedProof = c.preparedProof) : Certificate config c' := by
  unfold Certificate HasPrepare at *
  rw [proofs]
  exact certificate

theorem withProof_hasPrepare (signature : SignatureInfo) (type : request.type = .prepare)
    (oneView : OneView c request) (i : Int) (member : i ∈ insert request.senderId (c.senders .prepare request.hash)) :
    HasPrepare (withProof c request signature) request.hash request.currentView i := by
  rcases Finset.mem_insert.mp member with rfl | counted
  · exact ⟨⟨request, signature⟩, mem_append_right _ (mem_singleton_self _), type, rfl, rfl, rfl⟩
  · obtain ⟨proof, kept, rest⟩ := oneView i counted
    exact ⟨proof, mem_append_left _ kept, rest⟩

theorem Attested.added (attested : Attested config c) (ran : c.addConsensusMsg config d = .ok result)
    (oneView : CompletesPrepare config c d → OneView c d.request) : Attested config result.collector := by
  rcases addConsensusMsg_spec attested.running ran with same | ⟨valid, added⟩
  · rw [same]
    exact attested
  refine ⟨added.running attested.running, added.enableViewchange.trans attested.enabled, fun after => ?_⟩
  by_cases before : .readyCommit ≤ c.status
  · exact (attested.ready before).congr ((added.unanimous attested.enabled).kept before)
  obtain ⟨isOpen, prepared, main, others, rfl⟩ := (added.became_ready after).resolve_left before
  have quorum := prepared.quorum
  rw [prepared.senders, prepared.type, setSender_senders] at quorum
  refine ⟨d.request.hash, d.request.currentView, _, quorum, fun i member => ?_⟩
  obtain ⟨proof, inside, type, same, rest⟩ := withProof_hasPrepare d.signature prepared.type
    (oneView ⟨valid, isOpen, prepared.type, prepared.before, quorum⟩) i member
  refine ⟨proof, ?_, type, same, rest⟩
  dsimp only [withQuorum]
  rw [if_pos attested.enabled]
  exact mem_filter.mpr ⟨inside, decide_eq_true same⟩

def prepareIn (view : Nat) (sender : Int) : Delivery :=
  let sent := message .prepare "a" sender
  { sent with currentView := view, request := { sent.request with currentView := view } }

def ballotsOf (c : TransactionCollector) : List (Int × Nat) :=
  c.preparedProof.map fun proof => (proof.request.senderId, proof.request.currentView)

theorem mem_ballotsOf {hash : String} {view : Nat} {i : Int} (prepare : HasPrepare c hash view i) :
    (i, view) ∈ ballotsOf c := by
  obtain ⟨proof, member, -, -, rfl, rfl⟩ := prepare
  exact mem_map_of_mem member

end ResilientDB.Proof
