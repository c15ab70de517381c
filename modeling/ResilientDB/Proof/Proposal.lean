import ResilientDB.Proof.Calls
import ResilientDB.Proof.Certificates

namespace ResilientDB.Proof
open Model Library

variable {r : Replica} {env : Env} {context : Context} {request : Request} {config : ResDBConfig}
  {c : TransactionCollector} {result : AddResult} {call : Call}

def Holds (info : RequestInfo) (c : TransactionCollector) : Prop :=
  c.mainRequest = .stored info ∨ info ∈ c.otherMainRequest

def Adopted (call : Call) : Prop :=
  call.outcome.replica.nextSeq ≠ call.before.nextSeq ∨
    ∃ seq, call.outcome.replica.collectorPool.getCollector seq ≠ call.before.collectorPool.getCollector seq ∧
      Holds ⟨call.request, call.context.signature⟩ (call.outcome.replica.collectorPool.getCollector seq)

def Authorised (call : Call) : Prop :=
  call.request.senderId = call.before.getCurrentPrimary ∧ (call.request.senderId ≠ call.before.config.selfId →
      call.env.verifyMessage call.request.data (call.request.dataSignature.getD {}) = true)

def Takes (r : Replica) (request : Request) : Prop :=
  isValidMsg r.getCurrentView r.transactionExecutor.getMaxPendingExecutedSeq request = true ∧
    Open (r.collectorPool.getCollector request.seq) request

structure Replays (call : Call) : Prop where
  recovery : call.request.isRecovery = true
  working : call.env.faulty = false
  signed : call.context.signature.signature ≠ ""
  next : call.before.nextSeq = 0 ∨ call.request.seq = call.before.nextSeq
  effective : addUInt64 call.request.seq 1 ≠ call.before.nextSeq ∨ Takes call.before call.request

theorem addMainRequest_holds {signature : SignatureInfo} (isOpen : Open c request) (type : request.type = .prePrepare)
    (added : Added config c request signature result) :
    result.collector ≠ c ∧ Holds ⟨request, signature⟩ result.collector := by
  cases added with
  | rejected closed => exact absurd isOpen closed
  | proposed force _ _ forced free =>
    refine ⟨fun same => ?_, .inl rfl⟩
    cases force with
    | false =>
      have main := congrArg TransactionCollector.mainRequest same
      rw [free rfl] at main
      cases main
    | true =>
      have view := congrArg TransactionCollector.view same
      have newer := (forced rfl).2.1
      rw [← view] at newer
      exact absurd newer (lt_irrefl _)
  | candidate others _ _ _ members longer =>
    refine ⟨fun same => ?_, .inr ((members _).mpr (.inl rfl))⟩
    have length := congrArg (fun d => d.otherMainRequest.length) same
    simp only [longer] at length
    omega
  | ignored _ proves => cases type.symm.trans proves.2
  | voted _ other => exact absurd type other
  | prepared _ prepared => exact absurd (type.symm.trans prepared.type) (by simp)
  | executed _ executed => exact absurd (type.symm.trans executed.type) (by simp)

theorem addConsensusMsg_proposal {d : Delivery} (type : d.request.type = .prePrepare)
    (ran : c.addConsensusMsg config d = .ok result) :
    (isValidMsg d.currentView d.maxPendingExecutedSeq d.request = true ∧ Open c d.request ∧
      result.collector ≠ c ∧ Holds ⟨d.request, d.signature⟩ result.collector) ∨
    (¬ (isValidMsg d.currentView d.maxPendingExecutedSeq d.request = true ∧ Open c d.request) ∧
      result.collector = c) := by
  unfold TransactionCollector.addConsensusMsg at ran
  split at ran
  · rename_i valid
    by_cases isOpen : Open c d.request
    · rw [addRequest_open isOpen, if_pos (by simp [type])] at ran
      cases ran
      exact .inl ⟨valid, isOpen, addMainRequest_holds isOpen type (addMainRequest_spec isOpen type)⟩
    · rw [addRequest_closed isOpen] at ran
      cases ran
      exact .inr ⟨fun both => isOpen both.2, rfl⟩
  · rename_i invalid
    cases ran
    exact .inr ⟨fun both => invalid both.1, rfl⟩

theorem added_takes {added : MessageAdded} (type : request.type = .prePrepare)
    (ran : r.addConsensusMsg env context.signature request = .ok added) :
    (∃ seq, added.replica.collectorPool.getCollector seq ≠ r.collectorPool.getCollector seq ∧
      Holds ⟨request, context.signature⟩ (added.replica.collectorPool.getCollector seq)) ↔ Takes r request := by
  obtain ⟨result, adds⟩ := addConsensusMsg_added ran
  obtain ⟨times, replica⟩ := adds.replica
  rw [replica]
  rcases addConsensusMsg_proposal type adds.counted with ⟨valid, isOpen, changed, holds⟩ | ⟨refused, same⟩
  · refine ⟨fun _ => ⟨valid, isOpen⟩, fun _ => ⟨request.seq, ?_⟩⟩
    rw [getCollector_setCollector_same]
    exact ⟨changed, holds⟩
  · constructor
    · rintro ⟨seq, changed, -⟩
      rw [same, setCollector_getCollector] at changed
      exact absurd rfl changed
    · intro takes
      exact absurd takes refused

theorem adopted_of_replays (ran : Ran call) (type : call.request.type = .prePrepare) :
    Adopted call ↔ Replays call ∨ (Adopted call ∧ Authorised call ∧ call.request.isRecovery = false) := by
  have phase : IsPhase call.request.type := .inl type
  cases internalConsensusCommit_phase phase with
  | refused refuses _ called =>
    have unchanged := Except.ok.inj (ran.symm.trans called)
    have none : ¬ Adopted call := by
      rintro (moved | ⟨seq, changed, -⟩)
      · rw [unchanged] at moved
        exact moved rfl
      · rw [unchanged] at changed
        exact changed rfl
    refine ⟨fun adopted => absurd adopted none, ?_⟩
    rintro (replays | other)
    · rcases refuses.resolve_left replays.signed |>.2 replays.recovery with faulty | later
      · simp [replays.working] at faulty
      · rcases replays.next with zero | next
        · exact absurd zero later.1
        · exact absurd next later.2
    · exact other.1
  | @counted duplicates nextSeq admits called =>
    obtain ⟨added, counted, done⟩ := bind_eq_ok.mp (called.symm.trans ran)
    have after : call.outcome.replica = added.replica := by
      rw [← Except.ok.inj done, answerOf_closes added |>.replica, if_neg (by simp [type])]
    cases recovery : call.request.isRecovery with
    | true =>
      obtain ⟨working, next⟩ := admits.replayed type recovery
      have moved : call.outcome.replica.nextSeq = addUInt64 call.request.seq 1 := by
        obtain ⟨result, adds⟩ := addConsensusMsg_added counted
        obtain ⟨times, replica⟩ := adds.replica
        rw [after, replica]
        exact admits.next.trans (if_pos ⟨type, recovery⟩)
      have takes := added_takes type counted
      rw [← after] at takes
      have adopts : Adopted call ↔ addUInt64 call.request.seq 1 ≠ call.before.nextSeq ∨
          Takes call.before call.request := by
        unfold Adopted
        rw [moved]
        exact or_congr_right takes
      rw [adopts]
      constructor
      · exact fun effective => .inl ⟨recovery, working, admits.signed, next, effective⟩
      · rintro (replays | ⟨-, -, fresh⟩)
        · exact replays.effective
        · cases fresh
    | false =>
      constructor
      · exact fun adopted => .inr ⟨adopted, admits.proposed type recovery, rfl⟩
      · rintro (replays | other)
        · simp [replays.recovery] at recovery
        · exact other.1

theorem only_primary_proposes {envs : Nat → Env} {progress : Progress} {ret : Int}
    (ran : r.consensusCommit envs context request = .ok (progress, ret)) {call : Call}
    (made : call ∈ progress.calls) (type : call.request.type = .prePrepare) :
    (Adopted call → Authorised call) ↔ (Replays call → Authorised call) := by
  have traced : Traced (fun _ => True) r progress := consensusCommit_traced (by simp) trivial ran
  rw [adopted_of_replays (traced.ran call made) type]
  constructor
  · exact fun adopted replays => adopted (.inl replays)
  · rintro replayed (replays | other)
    · exact replayed replays
    · exact other.2.1

def proposal (sender : Int) (recovery : Bool) : Request where
  type := .prePrepare
  hash := "a"
  seq := 1
  currentView := 1
  senderId := sender
  isRecovery := recovery

def replicaTwo : Replica := Replica.create (fourCluster.configOf 2)

def StoresFirst (call : Call) : Prop :=
  (call.before.collectorPool.getCollector 1).mainRequest = .empty ∧
    (call.outcome.replica.collectorPool.getCollector 1).mainRequest = .stored ⟨call.request, call.context.signature⟩
deriving Decidable

theorem StoresFirst.adopted (stores : StoresFirst call) : Adopted call := by
  obtain ⟨before, after⟩ := stores
  refine .inr ⟨1, fun same => ?_, .inl after⟩
  rw [same, before] at after
  cases after

theorem primaryProposal_authorised :
    ∃ progress ret call, replicaTwo.consensusCommit (fun _ => plainEnv) ⟨⟨1, "signature"⟩⟩ (proposal 1 false) =
        .ok (progress, ret) ∧ call ∈ progress.calls ∧ call.request = proposal 1 false ∧ Adopted call ∧
      Authorised call := by
  obtain ⟨⟨progress, ret⟩, ran, call, made, stores, request⟩ : ∃ done, replicaTwo.consensusCommit (fun _ => plainEnv)
      ⟨⟨1, "signature"⟩⟩ (proposal 1 false) = .ok done ∧
        ∃ call ∈ done.1.calls, StoresFirst call ∧ call.request = proposal 1 false := by decide
  have type : call.request.type = .prePrepare := by
    rw [request]
    rfl
  refine ⟨progress, ret, call, ran, made, request, stores.adopted, ?_⟩
  refine (only_primary_proposes ran made type).mpr (fun replays => ?_) stores.adopted
  have recovery := replays.recovery
  rw [request] at recovery
  cases recovery

theorem replayedProposal_adopted :
    ∃ progress ret call, replicaTwo.consensusCommit (fun _ => plainEnv) ⟨⟨3, "signature"⟩⟩ (proposal 3 true) =
        .ok (progress, ret) ∧ call ∈ progress.calls ∧ call.request = proposal 3 true ∧ Adopted call ∧
      call.outcome.replica.nextSeq ≠ call.before.nextSeq ∧ ¬ Authorised call := by
  obtain ⟨⟨progress, ret⟩, ran, call, made, stores, request, moved, primary⟩ : ∃ done, replicaTwo.consensusCommit
      (fun _ => plainEnv) ⟨⟨3, "signature"⟩⟩ (proposal 3 true) = .ok done ∧
        ∃ call ∈ done.1.calls, StoresFirst call ∧ call.request = proposal 3 true ∧
          call.outcome.replica.nextSeq ≠ call.before.nextSeq ∧ call.before.getCurrentPrimary = 1 := by decide
  refine ⟨progress, ret, call, ran, made, request, stores.adopted, moved, ?_⟩
  rintro ⟨sender, -⟩
  rw [request, primary] at sender
  cases sender

variable {outcome : Outcome}

theorem addProposal_duplicates (ran : r.addProposal env context request = .ok outcome) :
    outcome.replica.duplicateManager = r.duplicateManager := by
  obtain ⟨added, counted, ran⟩ := bind_eq_ok.mp ran
  obtain ⟨result, adds⟩ := addConsensusMsg_added counted
  obtain ⟨times, frame⟩ := adds.replica
  cases ran
  exact (congrArg Replica.duplicateManager frame).trans rfl

theorem processProposeMsg_recorded (recorded : HashRecorded r env context request) :
    r.processProposeMsg env context request = Replica.addProposal { r with duplicateManager := { r.duplicateManager with
        proposedHashTimeQueue := r.duplicateManager.proposedHashTimeQueue ++ [(request.hash, env.now)]
        proposedHashSet := insert request.hash r.duplicateManager.proposedHashSet } } env context request := by
  obtain ⟨⟨working, signed, fresh, primary, other, checked, verified⟩, new⟩ := recorded
  unfold Replica.processProposeMsg DuplicateManager.checkAndAddProposed
  simp [working, signed, fresh, primary ▸ other, primary, checked, verified, new]

theorem processProposeMsg_unrecorded (ran : r.processProposeMsg env context request = .ok outcome)
    (unrecorded : ¬ HashRecorded r env context request) :
    outcome.replica.duplicateManager = r.duplicateManager := by
  unfold Replica.processProposeMsg at ran
  split at ran
  · cases ran
    rfl
  rename_i accepted
  push Not at accepted
  split at ran
  · split at ran
    · obtain ⟨added, counted, ran⟩ := bind_eq_ok.mp ran
      obtain ⟨result, adds⟩ := addConsensusMsg_added counted
      obtain ⟨times, frame⟩ := adds.replica
      cases ran
      exact (congrArg Replica.duplicateManager frame).trans rfl
    · cases ran
      rfl
  rename_i fresh
  split at ran
  · cases ran
    rfl
  rename_i primary
  split at ran
  · rename_i other
    split at ran
    · cases ran
      rfl
    rename_i checked
    split at ran
    · cases ran
      rfl
    rename_i verified
    have known : request.hash ∈ r.duplicateManager.proposedHashSet := by
      by_contra new
      exact unrecorded ⟨⟨by simpa using accepted.1, accepted.2, by simpa using fresh, not_not.mp primary, other,
        by simpa using checked, by simpa using verified⟩, new⟩
    simp only [DuplicateManager.checkAndAddProposed, if_pos known, if_true] at ran
    cases ran
    rfl
  · exact addProposal_duplicates ran

theorem rejected_unchanged_iff (ran : r.processProposeMsg env context request = .ok outcome) :
    outcome.replica.duplicateManager.proposedHashSet = r.duplicateManager.proposedHashSet ↔
      ¬ HashRecorded r env context request := by
  refine ⟨fun same recorded => ?_, fun unrecorded => by rw [processProposeMsg_unrecorded ran unrecorded]⟩
  rw [processProposeMsg_recorded recorded] at ran
  rw [addProposal_duplicates ran] at same
  exact recorded.new (same ▸ Finset.mem_insert_self _ _)

structure Acceptable (r : Replica) (request : Request) : Prop where
  type : request.type = .prePrepare
  takes : Takes r request
  free : (r.collectorPool.getCollector request.seq).mainRequest = .empty

theorem addMainRequest_ret {c : TransactionCollector} {address : Nat} {signature : SignatureInfo} {callBack : CallBack}
    (free : c.mainRequest = .empty) : (c.addMainRequest address request signature callBack).ret = 0 := by
  simp [TransactionCollector.addMainRequest, free]

theorem addConsensusMsg_accepts (acceptable : Acceptable r request) (env : Env) (signature : SignatureInfo) :
    ∃ added, r.addConsensusMsg env signature request = .ok added ∧ added.code ≠ .invalid := by
  obtain ⟨type, ⟨valid, isOpen⟩, free⟩ := acceptable
  unfold Replica.addConsensusMsg TransactionCollector.addConsensusMsg
  dsimp only
  rw [if_pos valid, addRequest_open isOpen, if_pos (by simp [type])]
  refine ⟨_, rfl, ?_⟩
  dsimp only
  rw [addMainRequest_ret free, if_neg (by simp)]
  split <;> simp

theorem addProposal_accepts (acceptable : Acceptable r request) :
    ∃ outcome, r.addProposal env context request = .ok outcome ∧ outcome.ret = 0 := by
  obtain ⟨added, counted, valid⟩ := addConsensusMsg_accepts acceptable env context.signature
  unfold Replica.addProposal
  exact ⟨_, bind_eq_ok.mpr ⟨added, counted, rfl⟩, if_neg valid⟩

theorem HashRecorded.accepts (recorded : HashRecorded r env context request) (acceptable : Acceptable r request) :
    ∃ outcome, r.processProposeMsg env context request = .ok outcome ∧ outcome.ret = 0 := by
  rw [processProposeMsg_recorded recorded]
  exact addProposal_accepts ⟨acceptable.type, acceptable.takes, acceptable.free⟩

theorem rejected_proposal_untraced (ran : r.processProposeMsg env context request = .ok outcome)
    (unrecorded : ¬ HashRecorded r env context request) :
    outcome.ret = -2 →
    outcome.replica.duplicateManager.proposedHashSet = r.duplicateManager.proposedHashSet ∧
    (request.hash ∉ r.duplicateManager.proposedHashSet → ∀ env' context' request', request'.hash = request.hash →
      Vetted outcome.replica env' context' request' → Acceptable outcome.replica request' →
      ∃ outcome', outcome.replica.processProposeMsg env' context' request' = .ok outcome' ∧ outcome'.ret = 0) := by
  intro rejected
  have same := (rejected_unchanged_iff ran).mpr unrecorded
  refine ⟨same, fun new env' context' request' hash vetted acceptable => ?_⟩
  exact HashRecorded.accepts ⟨vetted, by rwa [hash, same]⟩ acceptable

def proposalFrom (sender : Int) (view : Nat) : Request :=
  { type := .prePrepare, hash := "a", data := "x", senderId := sender, seq := 1, currentView := view }

def signedBy (sender : Int) : Context := ⟨⟨sender, "signature"⟩⟩

theorem proposalOfOther_untraced :
    ∃ outcome, (Replica.create fourReplicas).processProposeMsg plainEnv (signedBy 2) (proposalFrom 2 1) = .ok outcome ∧
      outcome.ret = -2 ∧ outcome.replica.duplicateManager.proposedHashSet = ∅ ∧
      ∃ outcome', outcome.replica.processProposeMsg plainEnv (signedBy 1) (proposalFrom 1 1) = .ok outcome' ∧
        outcome'.ret = 0 := by
  have ran : (Replica.create fourReplicas).processProposeMsg plainEnv (signedBy 2) (proposalFrom 2 1) =
      .ok { replica := Replica.create fourReplicas, ret := -2 } := rfl
  obtain ⟨same, accepts⟩ :=
    rejected_proposal_untraced ran (fun recorded => absurd recorded.vetted.primary (by decide)) rfl
  exact ⟨_, ran, rfl, same, accepts (by decide) plainEnv (signedBy 1) (proposalFrom 1 1) rfl
    ⟨rfl, by decide, rfl, rfl, by decide, rfl, rfl⟩ ⟨rfl, ⟨rfl, by decide⟩, rfl⟩⟩

theorem proposalOfWrongView_kept :
    ∃ outcome, (Replica.create fourReplicas).processProposeMsg plainEnv (signedBy 1) (proposalFrom 1 2) = .ok outcome ∧
      outcome.ret = -2 ∧ outcome.replica.duplicateManager.proposedHashSet = {"a"} ∧
      (Replica.create fourReplicas).duplicateManager.proposedHashSet = ∅ ∧
      ∃ outcome', outcome.replica.processProposeMsg plainEnv (signedBy 1) (proposalFrom 1 1) = .ok outcome' ∧
        outcome'.ret = -2 ∧ Vetted outcome.replica plainEnv (signedBy 1) (proposalFrom 1 1) ∧
        Acceptable outcome.replica (proposalFrom 1 1) :=
  ⟨_, rfl, rfl, by decide, rfl, _, rfl, rfl, ⟨rfl, by decide, rfl, rfl, by decide, rfl, rfl⟩, rfl, ⟨rfl, by decide⟩,
    rfl⟩

end ResilientDB.Proof
