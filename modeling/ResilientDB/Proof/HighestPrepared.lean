import ResilientDB.Model.PreparedThreads
import ResilientDB.Proof.CatchUp

namespace ResilientDB.Proof
open Model Library List Option

variable {config : ResDBConfig} {r r' : Replica} {env : Env} {context : Context} {request : Request}
  {handler handler' : Handler} {s s' : PreparedThreads} {trace : List (Transition PreparedThreads PreparedEvent)}
  {x : Nat} {signature : SignatureInfo} {added : MessageAdded} {event : PreparedEvent}

def top (s : PreparedThreads) : Nat := s.replica.getHighestPreparedSeq

theorem preparedBy_eq_some {seq : Nat} (prepared : Handler.preparedBy r r' seq = some x) :
    x = seq ∧ ¬ .readyCommit ≤ r.getTransactionState seq ∧ .readyCommit ≤ r'.getTransactionState seq := by
  unfold Handler.preparedBy at prepared
  split at prepared
  · rename_i reached
    cases prepared
    exact ⟨rfl, reached⟩
  · cases prepared

theorem addConsensusMsg_reaches (ran : r.addConsensusMsg env signature request = .ok added)
    (early : ¬ .readyCommit ≤ r.getTransactionState request.seq)
    (ready : .readyCommit ≤ added.replica.getTransactionState request.seq) : added.code = .stateChanged := by
  obtain ⟨result, adds⟩ := addConsensusMsg_added ran
  obtain ⟨times, frame⟩ := adds.replica
  unfold Replica.getTransactionState at early ready
  rw [frame] at ready
  dsimp only at ready
  rw [getCollector_setCollector_same] at ready
  have running : (r.collectorPool.getCollector request.seq).status ≠ .readyExecute := by
    intro executing
    rw [executing] at early
    exact early (by decide)
  rw [adds.code]
  rcases addConsensusMsg_spec running adds.counted with same | ⟨-, outcome⟩
  · rw [same] at ready
    exact absurd ready early
  · rcases outcome.became_ready ready with before | ⟨-, -, _, _, rfl⟩
    · exact absurd before early
    · exact ⟨.inl rfl, rfl⟩

def Compared : Handler → Prop
  | .compare seq prepared => ∀ x ∈ prepared, x = seq
  | .set read seq prepared => read < seq ∧ ∀ x ∈ prepared, x = seq
  | .setRedo read seq _ => read < seq
  | _ => True

def readBy : Handler → Option Nat
  | .set read _ _ => some read
  | .setRedo read _ _ => some read
  | _ => none

def FreshCall : Handler → Prop
  | .internalConsensusCommit _ _ request => request.type = .prepare → request.isRecovery = false
  | _ => True

inductive Writes (r r' : Replica) (handler : Handler) : Prop
  | nothing : r'.checkpointManager = r.checkpointManager → Writes r r' handler
  | counts (sender : Nat) (data : CheckPointData) :
      r'.checkpointManager = r.checkpointManager.addCheckPoint sender data → Writes r r' handler
  | seq (read seq : Nat) : readBy handler = some read → (Compared handler → read < seq) →
      r'.checkpointManager = { r.checkpointManager with highestPreparedSeq := seq } → Writes r r' handler

structure Stepped (r : Replica) (handler : Handler) (r' : Replica) (handler' : Handler) : Prop where
  config : r'.config = r.config
  writes : Writes r r' handler
  compared : Compared handler → Compared handler'
  fresh : FreshCall handler'
  returned : Compared handler → FreshCall handler → ∀ x, handler' = .returned (some x) →
    handler = .returned (some x) ∨ x ≤ r'.getHighestPreparedSeq

theorem processPrepareMsg_stepped (type : request.type = .prepare)
    (ran : Handler.processPrepareMsg r env context request = .ok (r', handler')) :
    Stepped r (.internalConsensusCommit env context request) r' handler' := by
  unfold Handler.processPrepareMsg at ran
  split at ran
  · cases ran
    exact ⟨rfl, .nothing rfl, fun _ => trivial, trivial, by simp⟩
  obtain ⟨added, counted, ran⟩ := bind_eq_ok.mp ran
  dsimp only at ran
  obtain ⟨config, same⟩ : added.replica.config = r.config ∧
      added.replica.checkpointManager = r.checkpointManager := by
    obtain ⟨result, adds⟩ := addConsensusMsg_added counted
    obtain ⟨times, frame⟩ := adds.replica
    rw [frame]
    exact ⟨rfl, rfl⟩
  split at ran
  · rename_i recovery
    cases ran
    exact ⟨config, .nothing same, fun _ => trivial, trivial,
      fun _ fresh => absurd ((fresh type).symm.trans recovery) (by decide)⟩
  split_ifs at ran with unchanged
  · cases ran
    exact ⟨config, .nothing same, fun _ x prepared => (preparedBy_eq_some prepared).1, trivial, by simp⟩
  · cases ran
    refine ⟨config, .nothing same, fun _ => trivial, trivial, fun _ _ x prepared => ?_⟩
    obtain ⟨-, early, ready⟩ := preparedBy_eq_some (Handler.returned.inj prepared)
    exact absurd (addConsensusMsg_reaches counted early ready) unchanged

theorem processNewView_stepped (ran : Handler.processNewView r env request = .ok (r', handler')) :
    Stepped r (.internalConsensusCommit env context request) r' handler' := by
  unfold Handler.processNewView at ran
  split at ran
  · cases ran
    exact ⟨rfl, .nothing rfl, fun _ => trivial, trivial, by simp⟩
  obtain ⟨accepted, -, ran⟩ := bind_eq_ok.mp ran
  split at ran
  · cases ran
    exact ⟨rfl, .nothing rfl, fun _ => trivial, trivial, by simp⟩
  · cases ran
    exact ⟨rfl, .nothing rfl, fun _ => trivial, trivial, by simp⟩

theorem redo_stepped {rest : List Request} (ran : (Handler.redo (request :: rest)).step r = .ok (r', handler')) :
    Stepped r (.redo (request :: rest)) r' handler' := by
  simp only [Handler.step] at ran
  split at ran
  · rename_i type
    obtain ⟨⟨redone, sent⟩, redid, ran⟩ := bind_eq_ok.mp ran
    cases ran
    unfold Replica.redo at redid
    dsimp only at redid
    rw [if_pos type] at redid
    split at redid
    · cases redid
    obtain ⟨hashes, -, redid⟩ := bind_eq_ok.mp redid
    cases redid
    exact ⟨rfl, .nothing rfl, fun _ => trivial, trivial, by simp⟩
  · split_ifs at ran with below
    · cases ran
      exact ⟨rfl, .nothing rfl, fun _ => below, trivial, by simp⟩
    · cases ran
      exact ⟨rfl, .nothing rfl, fun _ => trivial, trivial, by simp⟩

theorem handler_stepped (ran : handler.step r = .ok (r', handler')) : Stepped r handler r' handler' := by
  cases handler with
  | internalConsensusCommit env context request =>
    simp only [Handler.step] at ran
    split at ran
    · rename_i type
      exact processPrepareMsg_stepped type ran
    · exact processNewView_stepped ran
    · rename_i notPrepare notNewView
      obtain ⟨outcome, handled, ran⟩ := bind_eq_ok.mp ran
      cases ran
      have handling := commit_handling handled
      refine ⟨handling_config handling, ?_, fun _ => trivial, trivial, by simp⟩
      cases handling with
      | added gives =>
        have same := gives.highest
        rw [if_neg fun prepare => notPrepare prepare.1] at same
        exact .nothing same
      | newView type => exact absurd type notNewView
      | checkpointed _ _ _ _ added => exact .counts _ _ added.symm
      | _ => exact .nothing rfl
  | compare seq prepared =>
    simp only [Handler.step] at ran
    split_ifs at ran with below
    · cases ran
      exact ⟨rfl, .nothing rfl, fun compared => ⟨below, compared⟩, trivial, by simp⟩
    · cases ran
      refine ⟨rfl, .nothing rfl, fun _ => trivial, trivial, fun compared _ x same => .inr ?_⟩
      rw [compared x (Handler.returned.inj same)]
      exact not_lt.mp below
  | set read seq prepared =>
    cases ran
    refine ⟨rfl, .seq read seq rfl (fun compared => compared.1) rfl, fun _ => trivial, trivial,
      fun compared _ x same => .inr ?_⟩
    rw [compared.2 x (Handler.returned.inj same)]
    rfl
  | redo requests =>
    cases requests with
    | nil =>
      cases ran
      exact ⟨rfl, .nothing rfl, fun _ => trivial, trivial, by simp⟩
    | cons request rest => exact redo_stepped ran
  | setRedo read seq rest =>
    cases ran
    exact ⟨rfl, .seq read seq rfl (fun compared => compared) rfl, fun _ => trivial, trivial, by simp⟩
  | returned prepared =>
    cases ran
    exact ⟨rfl, .nothing rfl, fun _ => trivial, trivial, fun _ _ x same => .inl same⟩

structure SameBooks (m m' : CheckPointManager) : Prop where
  senderCkpt : m'.senderCkpt = m.senderCkpt
  committableSeq : m'.committableSeq = m.committableSeq
  currentStableSeq : m'.currentStableSeq = m.currentStableSeq
  stableCkpt : m'.stableCkpt = m.stableCkpt

inductive Moves (s : PreparedThreads) : PreparedEvent → PreparedThreads → Prop
  | call (env : Env) (context : Context) (request : Request) :
      Moves s (.internalConsensusCommit env context request)
        { s with handlers := s.handlers ++ [.internalConsensusCommit env context request] }
  | handler {i : Nat} {handler handler' : Handler} {r' : Replica} : s.handlers[i]? = some handler →
      handler.step s.replica = .ok (r', handler') →
      Moves s (.handler i) { s with replica := r', handlers := s.handlers.set i handler' }
  | begins (env : Env) : s.turn = none → Moves s (.updateStableCheckPointStatus env)
      { s with turn := some (.visit env s.replica.checkpointManager.senderCkpt.entries (0, "")) }
  | turns {turn : Turn} : s.turn = some turn → Moves s .turn (s.takeTurn turn)
  | other {event : PreparedEvent} {r' : Replica} : r'.config = s.replica.config →
      SameBooks s.replica.checkpointManager r'.checkpointManager →
      r'.getHighestPreparedSeq = s.replica.getHighestPreparedSeq →
      Moves s event { s with replica := r' }

theorem background_moves {event : ServerEvent} (acted : s.background event = some s') :
    Moves s (.background event) s' := by
  unfold PreparedThreads.background at acted
  split at acted
  · cases acted
  · cases acted
  rename_i notProcess notStable
  obtain ⟨server, reacted, rfl⟩ := map_eq_some_iff.mp acted
  rcases server_step (serverAct_sound s.replica.config _ _ _ reacted) with
    ⟨envs, buff, -, -, same, -⟩ | ⟨r, moved, rfl⟩
  · exact (notProcess envs buff same).elim
  · rcases moved.checkpoints with ⟨env, same, -⟩ | ⟨data, hash, seq, db, ckpt, signal, same, -⟩
    · exact (notStable env same).elim
    · have books : SameBooks s.replica.checkpointManager r.checkpointManager := by
        rw [same]
        exact ⟨rfl, rfl, rfl, rfl⟩
      have highest : r.getHighestPreparedSeq = s.replica.getHighestPreparedSeq := by
        unfold Replica.getHighestPreparedSeq
        rw [same]
      exact .other moved.threaded.config books highest

theorem act_moves (acted : s.act event = some s') : Moves s event s' := by
  cases event with
  | internalConsensusCommit env context request =>
    cases acted
    exact .call env context request
  | handler i =>
    obtain ⟨handler, found, acted⟩ := bind_eq_some_iff.mp acted
    split at acted
    · cases acted
    · obtain ⟨⟨r', handler'⟩, ran, rfl⟩ := map_eq_some_iff.mp acted
      exact .handler found (eq_ok_of_toOption ran)
  | updateStableCheckPointStatus env =>
    simp only [PreparedThreads.act] at acted
    split at acted
    · rename_i ready
      cases acted
      exact .begins env (isNone_iff_eq_none.mp ready.1)
    · cases acted
  | turn =>
    obtain ⟨turn, current, rfl⟩ := map_eq_some_iff.mp acted
    exact .turns current
  | mayStart =>
    cases acted
    exact .other rfl ⟨rfl, rfl, rfl, rfl⟩ rfl
  | background event => exact background_moves acted

def calledWith : PreparedEvent → Option Request
  | .internalConsensusCommit _ _ request => some request
  | _ => none

def readAt (t : Transition PreparedThreads PreparedEvent) : Option Nat :=
  match t.event with
  | .handler i => t.before.handlers[i]?.bind readBy
  | _ => none

def visitedAt (t : Transition PreparedThreads PreparedEvent) : Option ((Nat ×ₗ String) × Finset Nat) :=
  match t.event, t.before.turn with
  | .turn, some (.visit _ (entry :: _) _) => some entry
  | _, _ => none

-- No recovered PREPARE, nothing between a read and its write, and no catch-up below it.
def Serialized (t : Transition PreparedThreads PreparedEvent) : Prop :=
  (∀ request ∈ calledWith t.event, request.type = .prepare → request.isRecovery = false) ∧
  (∀ read ∈ readAt t, read = top t.before) ∧
  ∀ entry ∈ visitedAt t, t.before.replica.config.getMinCheckpointReceiveNum ≤ entry.2.card →
    t.before.replica.checkpointManager.lastSeq < (ofLex entry.1).1 → top t.before ≤ (ofLex entry.1).1
deriving Decidable

def preparedBefore : Handler → Option Nat
  | .returned prepared => prepared
  | _ => none

def preparedSeqs (s : PreparedThreads) : List Nat := s.handlers.filterMap preparedBefore

theorem mem_preparedSeqs : x ∈ preparedSeqs s ↔ .returned (some x) ∈ s.handlers := by
  unfold preparedSeqs
  rw [mem_filterMap]
  constructor
  · rintro ⟨handler, member, same⟩
    cases handler with
    | returned prepared =>
      cases same
      exact member
    | _ => cases same
  · exact fun member => ⟨_, member, rfl⟩

theorem takeTurn_frame (s : PreparedThreads) (turn : Turn) :
    (s.takeTurn turn).replica.config = s.replica.config ∧ (s.takeTurn turn).handlers = s.handlers := by
  cases turn with
  | visit env entries stable => cases entries <;> exact ⟨rfl, rfl⟩
  | setStable stable => exact ⟨rfl, rfl⟩

theorem Moves.raises (compared : ∀ handler ∈ s.handlers, Compared handler)
    (moves : Moves s event s') (serialized : Serialized ⟨s, event, s'⟩) : top s ≤ top s' := by
  cases moves with
  | call => exact le_rfl
  | handler found ran =>
    cases (handler_stepped ran).writes with
    | nothing same => exact (congrArg CheckPointManager.highestPreparedSeq same).ge
    | counts sender data same =>
      obtain ⟨senders, signs, new, frame⟩ := addCheckPoint_eq s.replica.checkpointManager sender data
      exact (congrArg CheckPointManager.highestPreparedSeq (same.trans frame)).ge
    | seq read seq reads below same =>
      have current : read = top s := by
        apply serialized.2.1
        simp only [readAt, found, bind_some, reads, mem_def]
      have raised := below (compared _ (mem_of_getElem? found))
      rw [current] at raised
      exact raised.le.trans (congrArg CheckPointManager.highestPreparedSeq same).ge
  | begins => exact le_rfl
  | @turns turn current =>
    cases turn with
    | setStable stable => exact (setStable_highest _ _ _).ge
    | visit env entries stable =>
      cases entries with
      | nil => exact le_rfl
      | cons entry rest =>
        obtain ⟨-, same | caught⟩ := visitCkpt_spec env s.replica.config (s.replica.checkpointManager, [], stable) entry
        · exact same.ge
        · have inside : entry ∈ visitedAt ⟨s, .turn, s.visitCkpt env entry rest stable⟩ := by
            simp only [visitedAt, current, mem_def]
          exact (serialized.2.2 entry inside caught.supported caught.ahead).trans caught.highest.ge
  | other _ _ same => exact same.ge

theorem Moves.compared (compared : ∀ handler ∈ s.handlers, Compared handler)
    (moves : Moves s event s') : ∀ handler ∈ s'.handlers, Compared handler := by
  cases moves with
  | call env context request =>
    intro handler member
    rcases mem_append.mp member with old | new
    · exact compared handler old
    · rw [mem_singleton.mp new]
      trivial
  | handler found ran =>
    intro handler member
    rcases mem_or_eq_of_mem_set member with old | rfl
    · exact compared handler old
    · exact (handler_stepped ran).compared (compared _ (mem_of_getElem? found))
  | begins => exact compared
  | turns => exact (takeTurn_frame s _).2 ▸ compared
  | other => exact compared

structure Bounded (s : PreparedThreads) : Prop where
  fresh : ∀ handler ∈ s.handlers, FreshCall handler
  bound : ∀ x, .returned (some x) ∈ s.handlers → x ≤ top s

theorem Moves.bounded (compared : ∀ handler ∈ s.handlers, Compared handler)
    (before : Bounded s) (moves : Moves s event s') (serialized : Serialized ⟨s, event, s'⟩) : Bounded s' := by
  have raises := moves.raises compared serialized
  cases moves with
  | call env context request =>
    constructor
    · exact forall_mem_snoc.mpr ⟨before.fresh, serialized.1 request rfl⟩
    · intro x member
      rcases mem_append.mp member with old | new
      · exact before.bound x old
      · cases mem_singleton.mp new
  | @handler i handler handler' r' found ran =>
    have inside := mem_of_getElem? found
    have stepped := handler_stepped ran
    constructor
    · intro other member
      rcases mem_or_eq_of_mem_set member with old | rfl
      · exact before.fresh other old
      · exact stepped.fresh
    · intro x member
      rcases mem_or_eq_of_mem_set member with old | same
      · exact (before.bound x old).trans raises
      · rcases stepped.returned (compared _ inside) (before.fresh _ inside) x same.symm with old | below
        · exact (before.bound x (old ▸ inside)).trans raises
        · exact below
  | @turns turn =>
    have same := (takeTurn_frame s turn).2
    exact ⟨same ▸ before.fresh, fun x member => (before.bound x (same ▸ member)).trans raises⟩
  | _ => exact ⟨before.fresh, fun x member => (before.bound x member).trans raises⟩

theorem compared_run (run : (preparedThreads config).Run trace s) : ∀ handler ∈ s.handlers, Compared handler := by
  refine run.invariant (fun _ => True) (fun s => ∀ handler ∈ s.handlers, Compared handler) ?_ ?_ (fun _ _ => trivial)
  · rintro s ⟨server, -, rfl⟩
    simp
  · exact fun s event s' compared acted _ => (act_moves acted).compared compared

theorem bounded_run (run : (preparedThreads config).Run trace s) (serialized : ∀ t ∈ trace, Serialized t) :
    Bounded s := by
  induction run with
  | initial first =>
    obtain ⟨server, -, rfl⟩ := first
    exact ⟨by simp, by simp⟩
  | next earlier acted ih =>
    exact (act_moves acted).bounded (compared_run earlier)
      (ih fun t member => serialized t (mem_cons_of_mem _ member)) (serialized _ mem_cons_self)

theorem highest_prepared_bounds (run : (preparedThreads config).Run trace s) :
    (∀ t ∈ trace, Serialized t → top t.before ≤ top t.after) ∧
    ((∀ t ∈ trace, Serialized t) → ∀ x ∈ preparedSeqs s, x ≤ top s) := by
  constructor
  · intro t member serialized
    obtain ⟨past, -, earlier, acted⟩ := run.earlier member
    exact (act_moves acted).raises (compared_run earlier) serialized
  · intro serialized x member
    exact (bounded_run run serialized).bound x (mem_preparedSeqs.mp member)

def preparedConfig : ResDBConfig := { ckptConfig with enableViewchange := true }

theorem startThreads_initial : (preparedThreads preparedConfig).initial { replica := .create preparedConfig } :=
  ⟨_, startServer_initial preparedConfig, rfl⟩

def callWith (env : Env) (sender : Int) (request : Request) : PreparedEvent :=
  .internalConsensusCommit env ⟨⟨sender, "signature"⟩⟩ { request with senderId := sender, currentView := 1 }

def almostPrepared (i : Nat) (request : Request) : List PreparedEvent :=
  [callWith toyEnv 1 { request with type := .prePrepare }, .handler i,
    callWith toyEnv 1 { request with type := .prepare }, .handler (i + 1),
    callWith toyEnv 2 { request with type := .prepare }, .handler (i + 2)]

def lastPrepare (request : Request) : PreparedEvent := callWith toyEnv 3 { request with type := .prepare }

def prepareAt (i : Nat) (request : Request) : List PreparedEvent :=
  almostPrepared i request ++ [lastPrepare request, .handler (i + 3), .handler (i + 3), .handler (i + 3)]

def catchUpAt (i : Nat) : List PreparedEvent :=
  let env : Env := { toyEnv with codec := { toyEnv.codec with
    parseCheckPointData := fun _ => some { seq := 2, hash := "g", hashSignature := ⟨1, "signature"⟩ } } }
  [callWith env 1 { type := .checkpoint }, .handler i, callWith env 2 { type := .checkpoint }, .handler (i + 1),
    .updateStableCheckPointStatus (returning [ckptRequest 1 "x" "a", ckptRequest 2 "y" "b"]), .turn]

theorem caughtUp_bounds : ∃ trace s, (preparedThreads preparedConfig).Run trace s ∧ preparedSeqs s = [1] ∧
    top s = 2 ∧ (∀ t ∈ trace, top t.before ≤ top t.after) ∧ ∀ x ∈ preparedSeqs s, x ≤ top s := by
  obtain ⟨trace, s, run, prepared, highest, serialized⟩ := System.run_of_play (System.acts _ rfl)
    startThreads_initial (.mayStart :: prepareAt 0 (ckptRequest 1 "x" "a") ++ catchUpAt 4)
    (fun trace s => preparedSeqs s = [1] ∧ top s = 2 ∧ ∀ t ∈ trace, Serialized t) (by decide +kernel)
  obtain ⟨raises, bounds⟩ := highest_prepared_bounds run
  exact ⟨trace, s, run, prepared, highest, fun t member => raises t member (serialized t member), bounds serialized⟩

def readTogether : List PreparedEvent :=
  let first := ckptRequest 1 "x" "a"
  let second := ckptRequest 2 "y" "b"
  almostPrepared 0 first ++ almostPrepared 3 second ++ [lastPrepare first, lastPrepare second, .handler 6, .handler 7,
    .handler 6, .handler 7, .handler 7, .handler 6]

theorem prepared_above_highest :
    (∃ trace s, (preparedThreads preparedConfig).Run trace s ∧ (∃ t ∈ trace, top t.after < top t.before) ∧
      2 ∈ preparedSeqs s ∧ top s = 1) ∧
    (∃ trace s, (preparedThreads preparedConfig).Run trace s ∧ (∃ t ∈ trace, top t.after < top t.before) ∧
      3 ∈ preparedSeqs s ∧ top s = 2) ∧
    ∃ trace s, (preparedThreads preparedConfig).Run trace s ∧ 1 ∈ preparedSeqs s ∧ top s = 0 := by
  refine ⟨?_, ?_, ?_⟩
  · exact System.run_of_play (System.acts _ rfl) startThreads_initial
      (.mayStart :: readTogether) _ (by decide +kernel)
  · exact System.run_of_play (System.acts _ rfl) startThreads_initial
      (.mayStart :: prepareAt 0 (ckptRequest 3 "z" "c") ++ catchUpAt 4) _ (by decide +kernel)
  · exact System.run_of_play (System.acts _ rfl) startThreads_initial
      (.mayStart :: prepareAt 0 { ckptRequest 1 "x" "a" with isRecovery := true }) _ (by decide +kernel)

end ResilientDB.Proof
