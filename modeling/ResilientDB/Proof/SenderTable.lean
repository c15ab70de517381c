import ResilientDB.Model.ResponseManager
import ResilientDB.Proof.StoredHashes

namespace ResilientDB.Proof
open Model Library

variable {config : ResDBConfig} {c : TransactionCollector} {r : Replica} {env : Env} {envs : Nat → Env}
  {context : Context} {request : Request} {signature : SignatureInfo} {callBack : CallBack} {fault : Fault}
  {s : Server} {trace : List (Transition Server ServerEvent)}

def InSenderTable (sender : Int) : Prop := 0 ≤ sender ∧ sender < 128
deriving Decidable

structure Indexes (c : TransactionCollector) (request : Request) (isMainRequest : Bool) : Prop where
  opened : Open c request
  vote : isMainRequest = false
  early : c.enableViewchange = true → request.type = .prepare → c.status ≤ .readyPrepare ∧ c.isPrepared = false
  type : request.type.inTable = true

theorem countVote_outside {d : TransactionCollector} {type : RequestType} {hash : String} {sender : Int} :
    d.countVote type hash sender = .error .senderOutOfRange ↔ type.inTable = true ∧ ¬ InSenderTable sender := by
  unfold TransactionCollector.countVote InSenderTable
  split_ifs with wrong outside
  · simp [wrong]
  · simp only [true_iff]
    exact ⟨by simpa using wrong, by omega⟩
  · simp only [false_iff]
    rintro ⟨-, out⟩
    omega

theorem selectMainRequest_fault {hash : String} (failed : c.selectMainRequest hash = .error fault) :
    fault = .nullRequest := by
  unfold TransactionCollector.selectMainRequest at failed
  split at failed
  · cases failed
  · cases failed
    rfl
  · split at failed <;> cases failed

theorem addPrepare_outside (early : c.status ≤ .readyPrepare) (unprepared : c.isPrepared = false) :
    c.addPrepare request signature callBack = .error .senderOutOfRange ↔
      request.type.inTable = true ∧ ¬ InSenderTable request.senderId := by
  unfold TransactionCollector.addPrepare
  rw [if_neg (by simp [early, unprepared]), bind_eq_error]
  constructor
  · rintro (outside | ⟨counted, -, ran⟩)
    · exact countVote_outside.mp outside
    · dsimp only at ran
      split at ran
      · rcases bind_eq_error.mp ran with failed | ⟨selected, -, done⟩
        · cases selectMainRequest_fault failed
        · cases done
      · cases ran
  · exact fun outside => .inl (countVote_outside.mpr outside)

theorem addVote_outside : c.addVote request callBack = .error .senderOutOfRange ↔
    request.type.inTable = true ∧ ¬ InSenderTable request.senderId := by
  unfold TransactionCollector.addVote
  rw [bind_eq_error]
  constructor
  · rintro (outside | ⟨counted, -, ran⟩)
    · exact countVote_outside.mp outside
    · dsimp only at ran
      split at ran <;> cases ran
  · exact fun outside => .inl (countVote_outside.mpr outside)

theorem addRequest_outside {address : Nat} {isMainRequest : Bool} :
    c.addRequest address request signature isMainRequest callBack = .error .senderOutOfRange ↔
      Indexes c request isMainRequest ∧ ¬ InSenderTable request.senderId := by
  by_cases opened : Open c request
  · rw [addRequest_open opened]
    cases isMainRequest with
    | true =>
      simp only [↓reduceIte, reduceCtorEq, false_iff]
      rintro ⟨indexes, -⟩
      cases indexes.vote
    | false =>
      simp only [Bool.false_eq_true, ↓reduceIte]
      split
      · rename_i prepare
        by_cases counts : c.status ≤ .readyPrepare ∧ c.isPrepared = false
        · rw [addPrepare_outside counts.1 counts.2]
          constructor
          · rintro ⟨type, outside⟩
            exact ⟨⟨opened, rfl, fun _ _ => counts, type⟩, outside⟩
          · rintro ⟨indexes, outside⟩
            exact ⟨indexes.type, outside⟩
        · rw [addPrepare_late counts]
          simp only [reduceCtorEq, false_iff]
          rintro ⟨indexes, -⟩
          exact counts (indexes.early prepare.1 prepare.2)
      · rename_i other
        rw [addVote_outside]
        constructor
        · rintro ⟨type, outside⟩
          exact ⟨⟨opened, rfl, fun enabled prepare => absurd ⟨enabled, prepare⟩ other, type⟩, outside⟩
        · rintro ⟨indexes, outside⟩
          exact ⟨indexes.type, outside⟩
  · rw [addRequest_closed opened]
    simp only [reduceCtorEq, false_iff]
    rintro ⟨indexes, -⟩
    exact opened indexes.opened

structure CountedAt (r : Replica) (context : Context) (request : Request) : Prop where
  type : request.type = .prepare ∨ request.type = .commit
  signed : context.signature.signature ≠ ""
  valid : isValidMsg r.getCurrentView r.transactionExecutor.getMaxPendingExecutedSeq request = true
  indexes : Indexes (r.collectorPool.getCollector request.seq) request false

theorem addConsensusMsg_outside : r.addConsensusMsg env signature request = .error .senderOutOfRange ↔
    isValidMsg r.getCurrentView r.transactionExecutor.getMaxPendingExecutedSeq request = true ∧
      Indexes (r.collectorPool.getCollector request.seq) request (request.type = .prePrepare) ∧
      ¬ InSenderTable request.senderId := by
  unfold Replica.addConsensusMsg
  rw [bind_eq_error]
  constructor
  · rintro (failed | ⟨result, -, done⟩)
    · unfold TransactionCollector.addConsensusMsg at failed
      split at failed
      · rename_i valid
        exact ⟨valid, addRequest_outside.mp failed⟩
      · cases failed
    · cases done
  · rintro ⟨valid, outside⟩
    left
    unfold TransactionCollector.addConsensusMsg
    rw [if_pos valid]
    exact addRequest_outside.mpr outside

theorem countedAt_outside (vote : request.type = .prepare ∨ request.type = .commit) :
    CountedAt r context request ∧ ¬ InSenderTable request.senderId ↔ context.signature.signature ≠ "" ∧
        r.addConsensusMsg env context.signature request = .error .senderOutOfRange := by
  have other : decide (request.type = .prePrepare) = false := by rcases vote with type | type <;> rw [type] <;> rfl
  rw [addConsensusMsg_outside, other]
  constructor
  · rintro ⟨counted, outside⟩
    exact ⟨counted.signed, counted.valid, counted.indexes, outside⟩
  · rintro ⟨signed, valid, indexes, outside⟩
    exact ⟨⟨vote, signed, valid, indexes⟩, outside⟩

theorem processViewChange_inside : r.processViewChange env request ≠ .error .senderOutOfRange := by
  unfold Replica.processViewChange
  intro failed
  split at failed
  · cases failed
  split at failed
  · cases failed
  dsimp only at failed
  split at failed
  · split at failed
    · rcases bind_eq_error.mp failed with answer | ⟨answered, -, done⟩
      · unfold Replica.sendNewViewMsg at answer
        split at answer
        · cases answer
        · rcases bind_eq_error.mp answer with listed | ⟨list, -, done⟩
          · rcases getPrepareMsg_fault listed with fault | fault <;> cases fault
          · cases done
      · cases done
    · cases failed
  · cases failed

theorem processNewView_inside : r.processNewView env request ≠ .error .senderOutOfRange := by
  unfold Replica.processNewView
  intro failed
  split at failed
  · cases failed
  rcases bind_eq_error.mp failed with checked | ⟨accepted, -, ran⟩
  · rcases checkNewView_fault checked with fault | fault <;> cases fault
  cases accepted with
  | none => cases ran
  | some maxSeq =>
    unfold Replica.installNewView at ran
    rcases bind_eq_error.mp ran with redone | ⟨last, -, done⟩
    · have fault := foldlM_redo_fault redone
      split at fault <;> cases fault
    · cases done

theorem phase_outside (phase : IsPhase request.type) :
    r.internalConsensusCommit env context request = .error .senderOutOfRange ↔
      CountedAt r context request ∧ ¬ InSenderTable request.senderId := by
  by_cases vote : request.type = .prepare ∨ request.type = .commit
  · have notProposal : request.type ≠ .prePrepare := by rcases vote with type | type <;> simp [type]
    rw [@countedAt_outside r env context request vote]
    cases internalConsensusCommit_phase phase with
    | refused refuses _ called =>
      rw [called]
      simp [refuses.resolve_right fun proposal => notProposal proposal.1]
    | counted admits called =>
      rw [called, bind_eq_error, addConsensusMsg_outside, addConsensusMsg_outside]
      simp only [reduceCtorEq, and_false, exists_false, or_false, admits.signed, ne_eq, not_false_eq_true, true_and]
      rfl
  · have proposal : request.type = .prePrepare := phase.resolve_right vote
    refine iff_of_false (fun failed => ?_) fun counted => vote counted.1.type
    cases internalConsensusCommit_phase phase with
    | refused _ _ called => cases failed.symm.trans called
    | counted _ called =>
      rcases bind_eq_error.mp (called.symm.trans failed) with failed | ⟨added, -, done⟩
      · obtain ⟨-, indexes, -⟩ := addConsensusMsg_outside.mp failed
        have counts := indexes.vote
        rw [proposal] at counts
        cases counts
      · cases done

theorem internalConsensusCommit_outside : r.internalConsensusCommit env context request = .error .senderOutOfRange ↔
    CountedAt r context request ∧ ¬ InSenderTable request.senderId := by
  by_cases phase : IsPhase request.type
  · exact phase_outside phase
  · refine iff_of_false ?_ fun counted => phase (.inr counted.1.type)
    intro failed
    unfold Replica.internalConsensusCommit at failed
    split at failed
    · dsimp only at failed
      split at failed <;> cases failed
    · rename_i type
      exact phase (.inl type)
    · rename_i type
      exact phase (.inr (.inl type))
    · rename_i type
      exact phase (.inr (.inr type))
    · cases failed
    · exact processViewChange_inside failed
    · exact processNewView_inside failed
    · cases failed

theorem call_fault {p : Progress} (failed : p.call envs context request = .error fault) :
    p.replica.internalConsensusCommit (envs p.calls.length) context request = .error fault := by
  unfold Progress.call at failed
  dsimp only at failed
  rcases bind_eq_error.mp failed with here | ⟨outcome, -, done⟩
  · exact here
  · cases done

def FailsOn (known : Context × Request → Prop) (fault : Fault) : Prop :=
  ∃ env r item, known item ∧ Replica.internalConsensusCommit r env item.1 item.2 = .error fault

theorem consensusCommit_fault {known : Context × Request → Prop} (waiting : ∀ item ∈ queues r, known item)
    (here : known (context, request)) (failed : r.consensusCommit envs context request = .error fault) :
    FailsOn known fault := by
  have start : Followed known r { replica := r } := ⟨.start, waiting⟩
  have started : Followed known r { replica := r.mayStart } :=
    @Followed.shuffled known r { replica := r } r.requestPending r.requestComplained true start waiting
  have pending : ∀ item ∈ r.requestPending, known item := fun item member => waiting item (by simp [queues, member])
  unfold Replica.consensusCommit at failed
  split at failed
  · exact ⟨_, _, (context, request), here, call_fault failed⟩
  dsimp only at failed
  split at failed
  · cases failed
  have finish {drained : Progress} (followed : Followed known r drained)
      (failed : (drained.call envs context request >>= fun answer =>
        if answer.2 = -4 then do
          let last ← answer.1.replica.requestComplained.foldlM (Progress.popComplained envs) answer.1
          .ok (last, answer.2)
        else .ok answer) = .error fault) : FailsOn known fault := by
    rcases bind_eq_error.mp failed with called | ⟨⟨done, ret⟩, called, failed⟩
    · exact ⟨_, _, (context, request), here, call_fault called⟩
    dsimp only at failed
    split at failed
    · rcases bind_eq_error.mp failed with popped | ⟨last, -, finished⟩
      · refine foldlM_eq_error popped fun p item fault member failed => ?_
        unfold Progress.popComplained at failed
        rcases bind_eq_error.mp failed with called' | ⟨next, -, finished⟩
        · exact ⟨_, _, item, (followed.call here called).waiting item (by simp [queues, member]), call_fault called'⟩
        · cases finished
      · cases finished
    · cases failed
  split at failed
  · exact finish started failed
  · rcases bind_eq_error.mp failed with popped | ⟨drained, popped, failed⟩
    · refine foldlM_eq_error popped fun p item fault member failed => ?_
      unfold Progress.popPending at failed
      rcases bind_eq_error.mp failed with called | ⟨next, -, finished⟩
      · exact ⟨_, _, item, pending item member, call_fault called⟩
      · cases finished
    · exact finish (started.drain pending Followed.popPending popped) failed

theorem process_fault {buff : String} (failed : r.process envs buff = .error fault) :
    ∃ receipt, receive (envs 0) buff = some receipt ∧
      r.consensusCommit envs receipt.context receipt.request = .error fault := by
  unfold Replica.process at failed
  unfold receive
  cases parsed : (envs 0).codec.parseMessage buff with
  | none => simp [parsed] at failed
  | some message =>
    simp only [parsed] at failed ⊢
    cases read : (envs 0).codec.parseRequest message.data with
    | none => simp [read] at failed
    | some request =>
      simp only [read] at failed ⊢
      split at failed
      · cases failed
      rename_i ordinary
      rw [if_neg ordinary]
      cases signature : message.signature with
      | none =>
        simp only [signature] at failed
        exact ⟨_, if_neg (by simp), by simpa [Receipt.context, signature] using failed⟩
      | some signed =>
        simp only [signature] at failed
        split at failed
        · cases failed
        · rename_i verified
          exact ⟨_, if_neg (by simpa using verified), by simpa [Receipt.context, signature] using failed⟩

theorem react_inside (run : (server config).Run trace s) {buff : String}
    (inside : ∀ receipt ∈ s.received ++ (receive (envs 0) buff).toList,
      receipt.request.type = .prepare ∨ receipt.request.type = .commit → InSenderTable receipt.request.senderId) :
    s.react (.process envs buff) ≠ .error .senderOutOfRange := by
  intro failed
  rcases bind_eq_error.mp failed with processed | ⟨progress, -, done⟩
  · obtain ⟨receipt, received, committed⟩ := process_fault processed
    have waiting : ∀ item ∈ queues s.replica, ∃ receipt ∈ s.received ++ (receive (envs 0) buff).toList,
        receipt.item = item := by
      intro item member
      obtain ⟨receipt, earlier, same⟩ := (server_accounted run).waiting item member
      exact ⟨receipt, List.mem_append_left _ earlier, same⟩
    have here : ∃ other ∈ s.received ++ (receive (envs 0) buff).toList,
        other.item = (receipt.context, receipt.request) := ⟨receipt, by simp [received], rfl⟩
    obtain ⟨env, r, item, ⟨origin, member, rfl⟩, outside⟩ := consensusCommit_fault waiting here committed
    obtain ⟨counted, outside⟩ := internalConsensusCommit_outside.mp outside
    exact outside (inside origin member counted.type)
  · cases done

theorem addResponseMsg_outside (m : ResponseManager) : m.addResponseMsg signature request = .error .senderOutOfRange ↔
      (∃ batch, m.parse request.data = some batch ∧ Indexes (m.collectorPool.getCollector batch.localId)
        { request with seq := batch.localId } false) ∧ ¬ InSenderTable request.senderId := by
  unfold ResponseManager.addResponseMsg
  cases parsed : m.parse request.data with
  | none => simp
  | some batch =>
    simp only [Option.some.injEq, exists_eq_left']
    rw [bind_eq_error]
    constructor
    · rintro (failed | ⟨result, -, ran⟩)
      · exact addRequest_outside.mp failed
      · split at ran
        · cases ran
        split at ran <;> cases ran
    · exact fun outside => .inl (addRequest_outside.mpr outside)

theorem votes_inside_table (run : (server config).Run trace s) :
    (∀ envs buff, (∀ receipt ∈ s.received ++ (receive (envs 0) buff).toList,
        receipt.request.type = .prepare ∨ receipt.request.type = .commit → InSenderTable receipt.request.senderId) →
      s.react (.process envs buff) ≠ .error .senderOutOfRange) ∧
    ∀ (m : ResponseManager) signature request, InSenderTable request.senderId →
      m.addResponseMsg signature request ≠ .error .senderOutOfRange :=
  ⟨fun _ _ inside => react_inside run inside,
    fun m _ _ inside failed => ((addResponseMsg_outside m).mp failed).2 inside⟩

def prepareAs (sender : Int) : Request :=
  { type := .prepare, seq := 1, hash := "a", currentView := 1, senderId := sender }

def proxyManager : ResponseManager := ResponseManager.create fourReplicas fun _ => some { localId := 1 }

theorem votesOfReplicas_inside : ∃ trace s, (server fourReplicas).Run trace s ∧
    s.react (hearFrom 4 plainEnv 2 (prepareAs 2)).2 ≠ .error .senderOutOfRange ∧
    proxyManager.addResponseMsg {} { type := .response, senderId := 2 } ≠ .error .senderOutOfRange := by
  have run : (server fourReplicas).Run [] { replica := Replica.create fourReplicas } :=
    .initial (startServer_initial fourReplicas)
  obtain ⟨votes, responses⟩ := votes_inside_table run
  exact ⟨_, _, run, votes _ _ (by decide), responses _ _ _ (by decide)⟩

theorem sender200_indexes :
    (∃ trace s, (server fourReplicas).Run trace s ∧ ∃ envs buff receipt, receive (envs 0) buff = some receipt ∧
      receipt.VerifiedFrom 2 ∧ receipt.request.senderId = 200 ∧
      s.react (.process envs buff) = .error .senderOutOfRange) ∧
    proxyManager.processResponseMsg ⟨2, "signature"⟩ { type := .response, senderId := 200 } =
      .error .senderOutOfRange := by
  have stops : { replica := Replica.create fourReplicas : Server }.react (hearFrom 4 plainEnv 2 (prepareAs 200)).2 =
      .error .senderOutOfRange := by
    decide
  exact ⟨⟨_, _, .initial (startServer_initial fourReplicas), _, _, _, rfl, ⟨_, rfl, rfl, rfl⟩, rfl, stops⟩, by decide⟩

end ResilientDB.Proof
