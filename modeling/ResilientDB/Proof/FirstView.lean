import ResilientDB.Proof.Window

namespace ResilientDB.Proof
open Model Library List

variable {config : ResDBConfig} {r r' : Replica} {calls : List Call} {call : Call} {event : ServerEvent}
  {phase : RequestType} {s : Nat} {hash : String} {i : Int} {past : List (Transition Server ServerEvent)} {env : Env}
  {vote : Request} {message : ViewChangeMessage} {sent : List Outgoing} {server : Server}

structure FirstVote (phase : RequestType) (s : Nat) (h : String) (vote : Request) : Prop where
  type : vote.type = phase
  view : vote.currentView = 1
  seq : vote.seq = s
  hash : vote.hash = h

def SentFirst (calls : List Call) (phase : RequestType) (s : Nat) (hash : String) : Prop :=
  ∃ call ∈ calls, ∃ vote ∈ call.outcome.sent.filterMap Outgoing.request?, FirstVote phase s hash vote

def HeardFirst (calls : List Call) (phase : RequestType) (s : Nat) (hash : String) (i : Int) : Prop :=
  ∃ call ∈ calls, FirstVote phase s hash call.request ∧ call.request.senderId = i

def Quorate (config : ResDBConfig) (calls : List Call) (phase : RequestType) (s : Nat) (hash : String) : Prop :=
  ∃ voters : Finset Int, config.getMinDataReceiveNum ≤ voters.card ∧ ∀ i ∈ voters, HeardFirst calls phase s hash i

theorem HeardFirst.more (heard : HeardFirst calls phase s hash i) (call : Call) :
    HeardFirst (calls ++ [call]) phase s hash i := by
  obtain ⟨old, member, rest⟩ := heard
  exact ⟨old, mem_append_left _ member, rest⟩

theorem Quorate.more (quorate : Quorate config calls phase s hash) (call : Call) :
    Quorate config (calls ++ [call]) phase s hash := by
  obtain ⟨voters, enough, all⟩ := quorate
  exact ⟨voters, enough, fun i member => (all i member).more call⟩

theorem sentFirst_append : SentFirst (calls ++ [call]) phase s hash ↔ SentFirst calls phase s hash ∨
    ∃ vote ∈ call.outcome.sent.filterMap Outgoing.request?, FirstVote phase s hash vote := by
  simp only [SentFirst, mem_append, mem_singleton, or_and_right, exists_or, exists_eq_left]

structure InFirstView (config : ResDBConfig) (r : Replica) (calls : List Call) : Prop where
  views : ∀ s, (r.collectorPool.getCollector s).view ≤ r.getCurrentView
  heard : ∀ s phase hash, ∀ i ∈ (r.collectorPool.getCollector s).senders phase hash,
    HeardFirst calls phase (r.collectorPool.getCollector s).seq hash i
  prepared : ∀ s, .readyCommit ≤ (r.collectorPool.getCollector s).status → ∃ hash,
    (∀ proof ∈ (r.collectorPool.getCollector s).preparedProof, proof.request.hash = hash) ∧
      Quorate config calls .prepare (r.collectorPool.getCollector s).seq hash
  prepares : ∀ s hash, SentFirst calls .prepare s hash → Proposed r 1 s
  commits : ∀ s hash, SentFirst calls .commit s hash → 1 ≤ s → IsReady r s ∧
    ∀ proof ∈ (r.collectorPool.getCollector s).preparedProof, proof.request.hash = hash

theorem InFirstView.congr {later : List Call} (first : InFirstView config r calls)
    (pool : r'.collectorPool = r.collectorPool) (view : r'.getCurrentView = r.getCurrentView)
    (heard : ∀ phase s hash i, HeardFirst calls phase s hash i → HeardFirst later phase s hash i)
    (sent : ∀ phase s hash, phase = .prepare ∨ phase = .commit → SentFirst later phase s hash →
      SentFirst calls phase s hash) : InFirstView config r' later := by
  refine ⟨?_, ?_, ?_, ?_, ?_⟩
  · rw [pool, view]
    exact first.views
  · rw [pool]
    exact fun s phase hash i member => heard _ _ _ _ (first.heard s phase hash i member)
  · rw [pool]
    intro s ready
    obtain ⟨hash, all, voters, enough, voted⟩ := first.prepared s ready
    exact ⟨hash, all, voters, enough, fun i member => heard _ _ _ _ (voted i member)⟩
  · intro s hash made
    unfold Proposed
    rw [pool]
    exact first.prepares s hash (sent _ _ _ (.inl rfl) made)
  · intro s hash made least
    unfold IsReady
    rw [pool]
    exact first.commits s hash (sent _ _ _ (.inr rfl) made) least

structure Answered (r : Replica) (request : Request) (result : AddResult) (vote : Request) : Prop where
  changes : Changes result
  answer : AnswerTo request vote
  view : vote.currentView = r.getCurrentView

theorem Gives.answered {context : Context} {request : Request} {outcome : Outcome} {result : AddResult}
    (gives : Gives r env context request outcome result) (pooled : Pooled config r)
    (member : vote ∈ outcome.sent.filterMap Outgoing.request?) : Answered r request result vote := by
  obtain ⟨changes, -, answers⟩ := gives.answers vote member
  have answer := answers.answerTo
  obtain ⟨valid, -⟩ := gives.added pooled.running changes.2
  refine ⟨changes, answer, ?_⟩
  rw [answer.view]
  exact isValidMsg_view valid gives.notResponse

section
variable {result : AddResult}

theorem Gives.proofs (gives : Gives call.before call.env call.context call.request call.outcome result)
    (pooled : Pooled config call.before) (enabled : config.enableViewchange = true)
    (ready : .readyCommit ≤ (call.before.collectorPool.getCollector s).status) :
    (call.outcome.replica.collectorPool.getCollector s).preparedProof =
      (call.before.collectorPool.getCollector s).preparedProof := by
  rcases gives.collector pooled.running s with old | ⟨new, -, -, added⟩
  · rw [old]
  · rw [new]
    exact (added.unanimous ((pooled.viewchange s).trans enabled)).kept ready

section

variable (first : InFirstView config call.before calls) (view : call.before.getCurrentView = 1)
  (pooled : Pooled config call.before)
include first view pooled

theorem InFirstView.heard_given
    (gives : Gives call.before call.env call.context call.request call.outcome result) (s : Nat) (phase : RequestType)
    (hash : String) (i : Int) (member : i ∈ (call.outcome.replica.collectorPool.getCollector s).senders phase hash) :
    HeardFirst (calls ++ [call]) phase (call.outcome.replica.collectorPool.getCollector s).seq hash i := by
  rcases gives.collector pooled.running s with old | ⟨new, here, valid, added⟩
  · rw [old] at member ⊢
    exact (first.heard s phase hash i member).more call
  · rw [new] at member ⊢
    rw [added.seq]
    rcases added.senders member with earlier | ⟨type, same, sender, -, -, own⟩
    · exact (first.heard s phase hash i earlier).more call
    · refine ⟨call, mem_append_right _ (mem_singleton_self _), ⟨type.symm, ?_, own.symm, same.symm⟩, sender.symm⟩
      rw [isValidMsg_view valid gives.notResponse]
      exact view

theorem InFirstView.prepared_given (enabled : config.enableViewchange = true)
    (gives : Gives call.before call.env call.context call.request call.outcome result) (s : Nat)
    (ready : .readyCommit ≤ (call.outcome.replica.collectorPool.getCollector s).status) :
    ∃ hash, (∀ proof ∈ (call.outcome.replica.collectorPool.getCollector s).preparedProof, proof.request.hash = hash) ∧
      Quorate config (calls ++ [call]) .prepare (call.outcome.replica.collectorPool.getCollector s).seq hash := by
  have counted := first.heard_given view pooled gives s .prepare
  have kept := gives.proofs (s := s) pooled enabled
  rcases gives.collector pooled.running s with old | ⟨new, -, -, added⟩
  · rw [old] at ready ⊢
    obtain ⟨hash, all, quorate⟩ := first.prepared s ready
    exact ⟨hash, all, quorate.more call⟩
  · rw [new] at ready counted kept ⊢
    rcases added.became_ready ready with earlier | ⟨-, prepared, -⟩
    · obtain ⟨hash, all, quorate⟩ := first.prepared s earlier
      rw [kept earlier, added.seq]
      exact ⟨hash, all, quorate.more call⟩
    · refine ⟨call.request.hash, (added.unanimous ((pooled.viewchange s).trans enabled)).chosen ?_ ready,
        result.collector.senders .prepare call.request.hash, ?_, counted _⟩
      · rw [prepared.before]
        decide
      · rw [← pooled.config]
        exact prepared.quorum

end

theorem Gives.commits (gives : Gives call.before call.env call.context call.request call.outcome result)
    (pooled : Pooled config call.before) (enabled : config.enableViewchange = true)
    (member : vote ∈ call.outcome.sent.filterMap Outgoing.request?) (voted : FirstVote .commit s hash vote) :
    IsReady call.outcome.replica s ∧
      ∀ proof ∈ (call.outcome.replica.collectorPool.getCollector s).preparedProof, proof.request.hash = hash := by
  obtain ⟨⟨-, changed⟩, answer, -⟩ := gives.answered pooled member
  obtain ⟨-, added⟩ := gives.added pooled.running changed
  obtain ⟨isOpen, prepared⟩ := prepared_of_changed added (answer.of_commit voted.type) changed
  have ready : TransactionStatue.readyCommit ≤ result.collector.status := by
    rw [prepared.after]
    decide
  rw [← voted.seq, ← voted.hash, answer.seq, answer.hash]
  unfold IsReady
  rw [gives.after]
  refine ⟨⟨added.seq.trans isOpen.2.2, ready⟩, (added.unanimous ((pooled.viewchange _).trans enabled)).chosen ?_ ready⟩
  rw [prepared.before]
  decide

theorem InFirstView.given (first : InFirstView config call.before calls) (view : call.before.getCurrentView = 1)
    (pooled : Pooled config call.before) (enabled : config.enableViewchange = true)
    (gives : Gives call.before call.env call.context call.request call.outcome result) :
    InFirstView config call.outcome.replica (calls ++ [call]) := by
  have keeps := gives.keeps pooled first.views
  refine ⟨keeps.views, first.heard_given view pooled gives, first.prepared_given view pooled enabled gives,
    fun s hash made => ?_, fun s hash made least => ?_⟩
  · rcases sentFirst_append.mp made with old | ⟨vote, member, voted⟩
    · exact keeps.proposed 1 s view.ge (first.prepares s hash old)
    · have answered := gives.answered pooled member
      have fresh := (gives.newVote pooled answered.changes answered.answer).prepare voted.type
      rw [voted.view, voted.seq] at fresh
      exact fresh.2
  · rcases sentFirst_append.mp made with old | ⟨vote, member, voted⟩
    · obtain ⟨ready, all⟩ := first.commits s hash old least
      rw [gives.proofs pooled enabled ready.2]
      exact ⟨gives.ready pooled ready, all⟩
    · exact gives.commits pooled enabled member voted

end

theorem InFirstView.renewed (first : InFirstView config r calls) (early : Early config r) (pooled : Pooled config r)
    (view : r.getCurrentView = 1) (renews : Renews r r')
    (due : r.transactionExecutor.nextExecuteSeq ≤ capacityOf config) : InFirstView config r' calls := by
  have collector := renews.collector pooled
  have unvoted : RenewsUnvoted r .passNext := early.renewsUnvoted pooled due
  have keeps := renews.keeps pooled first.views unvoted
  refine ⟨keeps.views, fun s phase hash i member => ?_, fun s ready => ?_, fun s hash made => ?_,
    fun s hash made least => ?_⟩
  · rcases collector s with old | ⟨new, -⟩
    · rw [old] at member ⊢
      exact first.heard s phase hash i member
    · rw [new] at member
      simp at member
  · rcases collector s with old | ⟨new, -⟩
    · rw [old] at ready ⊢
      exact first.prepared s ready
    · rw [new] at ready
      exact absurd ready (fresh_unready _ _)
  · exact keeps.proposed 1 s view.ge (first.prepares s hash made)
  · obtain ⟨ready, all⟩ := first.commits s hash made least
    have started : (r.collectorPool.getCollector s).status ≠ .none := by
      intro none
      have late := ready.2
      rw [none] at late
      exact absurd late (by decide)
    have most := early.used started
    rw [ready.1] at most
    unfold IsReady
    rw [early.kept pooled renews due least most]
    exact ⟨ready, all⟩

-- Every entry rests on a quorum of PREPAREs, and every COMMIT of the view has an entry.
structure Reports (config : ResDBConfig) (calls : List Call) (message : ViewChangeMessage) : Prop where
  stable : message.stableCkpt.seq = 0
  entries : ∀ entry ∈ message.preparedMsg, entry.seq ≤ capacityOf config ∧ entry.proof ≠ [] ∧ ∃ hash,
    (∀ proof ∈ entry.proof, proof.request.hash = hash) ∧ Quorate config calls .prepare entry.seq hash
  covers : ∀ s hash, SentFirst calls .commit s hash → 1 ≤ s → ∃ entry ∈ message.preparedMsg, entry.seq = s ∧
    ∀ proof ∈ entry.proof, proof.request.hash = hash

theorem Reports.more (reports : Reports config calls message)
    (sent : ∀ s hash, SentFirst (calls ++ [call]) .commit s hash → SentFirst calls .commit s hash) :
    Reports config (calls ++ [call]) message := by
  refine ⟨reports.stable, fun entry member => ?_, fun s hash made => reports.covers s hash (sent s hash made)⟩
  obtain ⟨most, some, hash, all, quorate⟩ := reports.entries entry member
  exact ⟨most, some, hash, all, quorate.more call⟩

theorem mem_viewChangeOf {entry : PreparedMessage} (stable : stableSeq r = 0) :
    entry ∈ (viewChangeOf r).preparedMsg ↔ 1 ≤ entry.seq ∧ entry.seq ≤ highest r ∧
      .readyCommit ≤ r.getTransactionState entry.seq ∧
      entry.proof = (r.getPreparedProof entry.seq).map fun info => ⟨info.request, info.signature⟩ := by
  unfold viewChangeOf
  simp only [stable, mem_filterMap, mem_range, Nat.sub_zero, Nat.zero_add]
  constructor
  · rintro ⟨k, below, made⟩
    unfold entryAt at made
    split at made
    · rename_i ready
      cases made
      exact ⟨Nat.le_add_right 1 k, by dsimp only; omega, ready, rfl⟩
    · cases made
  · rintro ⟨least, most, ready, proofs⟩
    refine ⟨entry.seq - 1, by omega, ?_⟩
    have position : 1 + (entry.seq - 1) = entry.seq := by omega
    rw [position]
    unfold entryAt
    rw [if_pos ready, ← proofs]

theorem reports_viewChangeOf (first : InFirstView config r calls) (recording : Recording config r calls)
    (early : Early config r) : Reports config calls (viewChangeOf r) := by
  refine ⟨early.stable, fun entry member => ?_, fun s hash made least => ?_⟩
  · obtain ⟨least, most, ready, proofs⟩ := (mem_viewChangeOf early.stable).mp member
    have within := most.trans early.top
    have own := early.own recording.pooled least within
    obtain ⟨hash, all, quorate⟩ := first.prepared entry.seq ready
    rw [own] at quorate
    refine ⟨within, ?_, hash, ?_, quorate⟩
    · intro empty
      have enough := (recording.proved entry.seq).enough ready
      have positive := config.getMinDataReceiveNum_eq
      rw [empty] at proofs
      have none := congrArg List.length proofs
      rw [length_map] at none
      change 0 = (r.collectorPool.getCollector entry.seq).preparedProof.length at none
      omega
    · rw [proofs]
      intro proof inside
      obtain ⟨info, kept, rfl⟩ := mem_map.mp inside
      exact all info kept
  · obtain ⟨ready, all⟩ := first.commits s hash made least
    refine ⟨{ seq := s, proof := (r.getPreparedProof s).map fun info => ⟨info.request, info.signature⟩ }, ?_, rfl, ?_⟩
    · exact (mem_viewChangeOf early.stable).mpr ⟨least, recording.raised s ready, ready.2, rfl⟩
    · intro proof inside
      obtain ⟨info, kept, rfl⟩ := mem_map.mp inside
      exact all info kept

@[mk_iff]
structure MovesFirst (call : Call) (s : Nat) (h : String) : Prop where
  view : call.before.getCurrentView = 1
  type : call.request.type = .commit
  seq : call.request.seq = s
  hash : call.request.hash = h
  before : ¬ .readyExecute ≤ (call.before.collectorPool.getCollector s).status
  after : .readyExecute ≤ (call.outcome.replica.collectorPool.getCollector s).status

instance (call : Call) (s : Nat) (h : String) : Decidable (MovesFirst call s h) :=
  decidable_of_iff' _ (movesFirst_iff call s h)

def MovesOn (call : Call) : Prop :=
  ∀ message, call.request.type = .newview → call.env.codec.parseNewView call.request.data = some message →
    Accepts call.before call.env message → call.before.getCurrentView < message.viewNumber ∧
      ∀ request ∈ message.request, IsVote request → request.currentView ≠ 1

structure Steady (config : ResDBConfig) (call : Call) : Prop where
  fresh : call.request.isRecovery = false
  within : WithinWindow config call
  newView : MovesOn call

def NoWrap (r : Replica) : ServerEvent → Prop
  | .monitorTimeout _ => r.getCurrentView < addUInt64 r.getCurrentView (nextCounter r.viewChangeManager)
  | _ => True

instance (r : Replica) (event : ServerEvent) : Decidable (NoWrap r event) :=
  match event with
  | .monitorTimeout _ => inferInstanceAs (Decidable (_ < _))
  | .process _ _ | .takeMessage | .passNext | .executeMessage _ | .updateRecentHash _ | .updateCheckPointStatus _
  | .updateStableCheckPointStatus _ | .monitorCheckpointState => inferInstanceAs (Decidable True)

structure FirstView (config : ResDBConfig) (past : List (Transition Server ServerEvent)) (r : Replica)
    (calls : List Call) : Prop where
  recording : Recording config r calls
  early : Early config r
  started : 1 ≤ r.getCurrentView
  first : r.getCurrentView = 1 → InFirstView config r calls
  once : ∀ s hash hash', SentFirst calls .prepare s hash → SentFirst calls .prepare s hash' → hash' = hash
  executed : ∀ call ∈ calls, ∀ s hash, MovesFirst call s hash → Quorate config calls .commit s hash
  reports : ∀ message, Created past message → message.viewNumber = 2 →
    (r.isInViewChange = true ∨ 2 ≤ r.getCurrentView) ∧ Reports config calls message

theorem Steady.recorded (steady : Steady config call) (small : Counts (capacityOf config)) : Recorded call := by
  constructor
  · intro completes
    refine ⟨steady.fresh, lt_of_le_of_lt (steady.within.phase (.inr (.inl ?_))) small⟩
    exact completes.2.2.1
  · intro message type parsed accepted request member
    exact lt_of_le_of_lt (steady.within.newView message type parsed accepted request member) small

section

variable (before : FirstView config past call.before calls)
  (recording : Recording config call.outcome.replica (calls ++ [call])) (early : Early config call.outcome.replica)
include before recording early

theorem FirstView.aside (started : 1 ≤ call.outcome.replica.getCurrentView)
    (pool : call.outcome.replica.collectorPool = call.before.collectorPool)
    (view : call.outcome.replica.getCurrentView = 1 → call.before.getCurrentView = 1)
    (noVote : ∀ phase s hash, phase = .prepare ∨ phase = .commit →
      SentFirst (calls ++ [call]) phase s hash → SentFirst calls phase s hash)
    (left : call.before.isInViewChange = true ∨ 2 ≤ call.before.getCurrentView →
      call.outcome.replica.isInViewChange = true ∨ 2 ≤ call.outcome.replica.getCurrentView) :
    FirstView config past call.outcome.replica (calls ++ [call]) := by
  refine ⟨recording, early, started, fun here => ?_, fun s hash hash' made made' => ?_,
    fun other member s hash moves => ?_,
    fun message created two => ?_⟩
  · exact (before.first (view here)).congr pool (here.trans (view here).symm)
      (fun _ _ _ _ heard => heard.more call) noVote
  · exact before.once s hash hash' (noVote _ _ _ (.inl rfl) made) (noVote _ _ _ (.inl rfl) made')
  · rcases mem_append.mp member with old | new
    · exact (before.executed other old s hash moves).more call
    · have after := moves.after
      have earlier := moves.before
      rw [mem_singleton.mp new] at after earlier
      rw [pool] at after
      exact absurd after earlier
  · obtain ⟨out, reports⟩ := before.reports message created two
    exact ⟨left out, reports.more fun s hash => noVote _ _ _ (.inr rfl)⟩

theorem FirstView.given {result : AddResult} (enabled : config.enableViewchange = true) (attended : Attended call)
    (gives : Gives call.before call.env call.context call.request call.outcome result) :
    FirstView config past call.outcome.replica (calls ++ [call]) := by
  have pooled := before.recording.pooled
  have same := gives.view
  have given (here : call.before.getCurrentView = 1) : InFirstView config call.outcome.replica (calls ++ [call]) :=
    (before.first here).given here pooled enabled gives
  refine ⟨recording, early, same ▸ before.started, fun here => given (same ▸ here), fun s hash hash' made made' => ?_,
    fun other member s hash moves => ?_, fun message created two => ?_⟩
  · have fresh {hash hash' : String} (old : SentFirst calls .prepare s hash)
        (new : ∃ vote ∈ call.outcome.sent.filterMap Outgoing.request?, FirstVote .prepare s hash' vote) : False := by
      obtain ⟨vote, member, voted⟩ := new
      have answered := gives.answered pooled member
      have newVote := (gives.newVote pooled answered.changes answered.answer).prepare voted.type
      rw [voted.view, voted.seq] at newVote
      exact newVote.1 ((before.first (answered.view.symm.trans voted.view)).prepares s hash old)
    rcases sentFirst_append.mp made with old | new
    · rcases sentFirst_append.mp made' with old' | new'
      · exact before.once s hash hash' old old'
      · exact (fresh old new').elim
    · rcases sentFirst_append.mp made' with old' | ⟨vote', member', voted'⟩
      · exact (fresh old' new).elim
      · obtain ⟨vote, member, voted⟩ := new
        rw [← voted.hash, ← voted'.hash, (gives.answered pooled member).answer.hash,
          (gives.answered pooled member').answer.hash]
  · rcases mem_append.mp member with old | new
    · exact (before.executed other old s hash moves).more call
    obtain rfl := mem_singleton.mp new
    obtain ⟨here, type, seq, same, earlier, later⟩ := moves
    have heard := (given here).heard s .commit hash
    rcases gives.collector pooled.running s with still | ⟨new, -, -, added⟩
    · rw [still] at later
      exact absurd later earlier
    · rw [new] at later heard
      obtain ⟨own, executed⟩ := executed_of_status added type earlier later
      refine ⟨result.collector.senders .commit hash, ?_, ?_⟩
      · rw [executed.senders, ← same, ← pooled.config]
        exact executed.quorum
      · rw [added.seq, own, seq] at heard
        exact heard
  · obtain ⟨out, reports⟩ := before.reports message created two
    have beyond : 2 ≤ call.before.getCurrentView := by
      rcases out with changing | beyond
      · rw [attended gives.phase] at changing
        cases changing
      · exact beyond
    refine ⟨.inr (same ▸ beyond), reports.more fun s hash made => ?_⟩
    rcases sentFirst_append.mp made with old | ⟨vote, member, voted⟩
    · exact old
    · have view := (gives.answered pooled member).view
      rw [voted.view] at view
      omega

end

theorem FirstView.called (before : FirstView config past call.before calls) (enabled : config.enableViewchange = true)
    (small : Counts (capacityOf config)) (ran : Ran call) (steady : Steady config call) (attended : Attended call) :
    FirstView config past call.outcome.replica (calls ++ [call]) := by
  have recording := before.recording.called enabled ran (steady.recorded small)
  have early := before.early.called before.recording.pooled ran steady.within
  rcases call_kind ran with silent | ⟨result, gives⟩ | ⟨message, installs⟩
  · refine before.aside recording early (silent.view ▸ before.started) silent.pool
      (fun here => silent.view ▸ here) ?_ ?_
    · intro phase s hash isVote made
      rcases sentFirst_append.mp made with old | ⟨vote, member, voted⟩
      · exact old
      · refine absurd ?_ (silent.noVote vote member)
        unfold IsVote
        rw [voted.type]
        exact isVote
    · rw [silent.view]
      exact Or.imp_left silent.changing
  · exact before.given recording early enabled attended gives
  · obtain ⟨newer, others⟩ := steady.newView message installs.type installs.parsed installs.accepts
    have started := before.started
    have beyond : 2 ≤ call.outcome.replica.getCurrentView := by
      rw [installs.view]
      omega
    refine before.aside recording early (by omega) installs.pool (fun here => by omega) ?_ (fun _ => .inr beyond)
    intro phase s hash isVote made
    rcases sentFirst_append.mp made with old | ⟨vote, member, voted⟩
    · exact old
    · rw [installs.sent] at member
      refine absurd voted.view (others vote member ?_)
      unfold IsVote
      rw [voted.type]
      exact isVote

theorem isInViewChange_iff : r.isInViewChange = true ↔ r.viewChangeManager.status ≠ .none := by
  simp [Replica.isInViewChange]

theorem Background.isInViewChange (moved : Background r event r')
    (idle : r.checkpointManager.committableSeqSignal = 0) (other : ∀ env, event ≠ .monitorTimeout env) :
    r'.isInViewChange = r.isInViewChange := by
  rcases moved.frame with ⟨executor, pool, duplicates, manager, rfl⟩ | ⟨env, sent, same, -⟩ | ⟨-, rfl⟩
  · rfl
  · exact absurd same (other env)
  · rw [monitorCheckpointState_idle idle]

theorem InFirstView.thread (first : InFirstView config r calls) (early : Early config r) (pooled : Pooled config r)
    (view : r.getCurrentView = 1) (moved : Background r event r') (undisturbed : Undisturbed config r event) :
    InFirstView config r' calls := by
  rcases moved.collectors with ⟨rfl, renews⟩ | ⟨pool, -⟩
  · exact first.renewed early pooled view renews undisturbed
  · exact first.congr pool moved.threaded.view (fun _ _ _ _ heard => heard)
      fun _ _ _ _ made => made

theorem Recording.undisturbed (recording : Recording config r calls) (early : Early config r)
    (moved : Background r event r') (undisturbed : Undisturbed config r event) : Recording config r' calls := by
  by_cases stable : ∃ env, event = .updateStableCheckPointStatus env
  · obtain ⟨env, rfl⟩ := stable
    cases moved
    rw [updateStable_idle undisturbed]
    exact recording
  · exact recording.thread moved (early.spares recording.pooled undisturbed fun env same => stable ⟨env, same⟩)

theorem Expires.made (expires : Expires r env r' sent)
    (proved : ∀ s, Proved r.config (r.collectorPool.getCollector s)) (counts : Counts (highest r))
    (below : stableSeq r ≤ highest r) (made : sent = [.broadCast (viewChangeRequest r env message)]) :
    env.codec.serializeViewChange message = env.codec.serializeViewChange (viewChangeOf (expired r)) := by
  cases expires with
  | quiet => cases made
  | sends timers sends =>
    rw [sendViewChangeMsg_eq (r := expired r) proved counts below env, made] at sends
    simp only [Except.ok.injEq, List.cons.injEq, Outgoing.broadCast.injEq, viewChangeRequest, Request.mk.injEq] at sends
    tauto

theorem created_cons {t : Transition Server ServerEvent}
    (created : Created (t :: past) message) : Created past message ∨ (∃ env, t.event = .monitorTimeout env) ∧
      ∀ env, ∃ r', t.before.replica.monitorTimeout env =
        .ok (r', [.broadCast (viewChangeRequest t.before.replica env message)]) := by
  obtain ⟨u, member, made⟩ := created
  rcases mem_cons.mp member with rfl | old
  · exact .inr made
  · exact .inl ⟨u, old, made⟩

theorem FirstView.expires (before : FirstView config past r calls) (ran : r.monitorTimeout env = .ok (r', sent))
    (noWrap : NoWrap r (.monitorTimeout env)) (two : message.viewNumber = 2)
    (made : ∀ env, ∃ r', r.monitorTimeout env = .ok (r', [.broadCast (viewChangeRequest r env message)])) :
    r'.isInViewChange = true ∧ Reports config calls message := by
  have recording := before.recording
  have same : message = viewChangeOf (expired r) := by
    obtain ⟨r'', ran⟩ := made (tellApart message)
    refine eq_of_tellApart ((monitorTimeout_expires ran).made ?_ recording.counts ?_ rfl)
    · rw [recording.pooled.config]
      exact recording.proved
    · rw [before.early.stable]
      exact Nat.zero_le _
  constructor
  · obtain ⟨other, again⟩ := made env
    rw [ran] at again
    cases again
    cases monitorTimeout_expires ran with
    | sends timers _ => rfl
  · have view : r.getCurrentView = 1 := by
      have later : r.getCurrentView < (viewChangeOf (expired r)).viewNumber := noWrap
      rw [← same, two] at later
      have started := before.started
      omega
    rw [same]
    have reports := reports_viewChangeOf (before.first view) recording before.early
    exact ⟨reports.stable, reports.entries, reports.covers⟩

theorem FirstView.thread (before : FirstView config past server.replica server.calls)
    (moved : Background server.replica event r') (undisturbed : Undisturbed config server.replica event)
    (noWrap : NoWrap server.replica event) :
    FirstView config (⟨server, event, server.setReplica r'⟩ :: past) r' server.calls := by
  have pooled := before.recording.pooled
  have view : r'.getCurrentView = server.replica.getCurrentView := moved.threaded.view
  refine ⟨before.recording.undisturbed before.early moved undisturbed, before.early.thread pooled moved undisturbed,
    view ▸ before.started, fun here => ?_, before.once, before.executed, fun message created two => ?_⟩
  · rw [view] at here
    exact (before.first here).thread before.early pooled here moved undisturbed
  · rw [view]
    rcases created_cons created with old | ⟨⟨env, rfl⟩, made⟩
    · obtain ⟨out, reports⟩ := before.reports message old two
      refine ⟨out.imp_left fun changing => ?_, reports⟩
      by_cases timeout : ∃ env, event = .monitorTimeout env
      · obtain ⟨env, rfl⟩ := timeout
        cases moved with
        | monitorTimeout env ran =>
          cases monitorTimeout_expires ran with
          | quiet status timers still =>
            exact isInViewChange_iff.mpr (still (isInViewChange_iff.mp changing))
          | sends => rfl
      · rw [moved.isInViewChange before.early.signal fun env same => timeout ⟨env, same⟩]
        exact changing
    · cases moved with
      | monitorTimeout env ran =>
        obtain ⟨changing, reports⟩ := before.expires ran noWrap two made
        exact ⟨.inl changing, reports⟩

theorem FirstView.start (config : ResDBConfig) (outOfOrder needResponse needQc : Bool) :
    FirstView config [] { Replica.create config with
      transactionExecutor := { outOfOrder := outOfOrder, needResponse := needResponse }
      needQc := needQc } [] := by
  have nothing (phase : RequestType) (s : Nat) (hash : String) : ¬ SentFirst [] phase s hash := by
    rintro ⟨call, member, -⟩
    cases member
  refine ⟨Recording.start config outOfOrder needResponse needQc, Early.start config outOfOrder needResponse needQc,
    le_rfl, fun _ => ?_, ?_, ?_, ?_⟩
  · refine ⟨fun _ => Nat.zero_le _, ?_, fun s ready => absurd ready (fresh_unready _ _),
      fun s hash made => absurd made (nothing _ _ _), fun s hash made => absurd made (nothing _ _ _)⟩
    intro s phase hash i member
    simp [Replica.create, LockFreeCollectorPool.create, LockFreeCollectorPool.getCollector] at member
  · exact fun s hash _ made => absurd made (nothing _ _ _)
  · simp
  · rintro message ⟨t, member, -⟩
    cases member

theorem firstView_run {trace : List (Transition Server ServerEvent)}
    (run : (Model.server config).Run trace server) (enabled : config.enableViewchange = true)
    (small : Counts (capacityOf config)) (calls : ∀ call ∈ server.calls, Steady config call)
    (steps : ∀ t ∈ trace, Undisturbed config t.before.replica t.event ∧ NoWrap t.before.replica t.event) :
    FirstView config trace server.replica server.calls := by
  refine server_history run (FirstView config) ?_ ?_ ?_ ?_ ?_
  · exact FirstView.start config
  · rintro past r calls pending complained started ⟨recording, early, first, inside, once, executed, reports⟩
    have pooled : Pooled config (shuffle r pending complained started) := recording.pooled.congr rfl rfl rfl
    refine ⟨recording.same ⟨⟨rfl, rfl⟩, rfl, rfl⟩ pooled, early.congr rfl rfl rfl rfl rfl, first, fun here => ?_, once,
      executed, reports⟩
    exact (inside here).congr rfl rfl (fun _ _ _ _ heard => heard) fun _ _ _ _ made => made
  · intro past _ call before ran member
    exact before.called enabled small ran (calls call member) (server_attended run enabled call member)
  · rintro past before envs buff after r calls ⟨recording, early, first, inside, once, executed, reports⟩
    refine ⟨recording, early, first, inside, once, executed, fun message created two => ?_⟩
    rcases created_cons created with old | ⟨⟨env, kind⟩, -⟩
    · exact reports message old two
    · cases kind
  · intro past server event r' before moved member
    exact before.thread moved (steps _ member).1 (steps _ member).2

end ResilientDB.Proof
