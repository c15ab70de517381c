import ResilientDB.Proof.PreparedEvidence

namespace ResilientDB.Proof
open Model Library List

variable {config : ResDBConfig} {r r' : Replica} {calls : List Call} {call : Call} {event : ServerEvent}
  {vote request : Request} {env : Env} {context : Context} {outcome : Outcome} {result : AddResult} {s : Server}

def Broadcast (calls : List Call) (vote : Request) : Prop := ∃ call ∈ calls, Outgoing.broadCast vote ∈ call.outcome.sent

def Proposed (r : Replica) (v s : Nat) : Prop :=
  ((r.collectorPool.getCollector s).seq = s ∧ (r.collectorPool.getCollector s).status ≠ .none ∧
    v ≤ (r.collectorPool.getCollector s).view) ∨ s < (r.collectorPool.getCollector s).seq

def Settled (r : Replica) (s : Nat) : Prop :=
  ((r.collectorPool.getCollector s).seq = s ∧ .readyCommit ≤ (r.collectorPool.getCollector s).status) ∨
    s < (r.collectorPool.getCollector s).seq
deriving Decidable

structure Orderly (r : Replica) (message : NewViewMessage) : Prop where
  newer : r.getCurrentView < message.viewNumber
  phase : ∀ request ∈ message.request, request.type ≠ .prepare
  commit : ∀ request ∈ message.request, request.type = .commit →
    request.currentView = message.viewNumber ∧ Settled r request.seq
  agree : ∀ a ∈ message.request, ∀ b ∈ message.request, a.type = .commit → b.type = .commit → a.seq = b.seq →
    a.hash = b.hash

def OrderlyCall (call : Call) : Prop :=
  ∀ message, call.request.type = .newview → call.env.codec.parseNewView call.request.data = some message →
    Accepts call.before call.env message → Orderly call.before message

def RenewsUnvoted (r : Replica) : ServerEvent → Prop
  | .passNext => (r.collectorPool.getCollector (renewedSeq r)).seq = renewedSeq r →
      (r.collectorPool.getCollector (renewedSeq r)).status = .none
  | _ => True

instance (r : Replica) (event : ServerEvent) : Decidable (RenewsUnvoted r event) :=
  match event with
  | .passNext => inferInstanceAs (Decidable (_ → _))
  | .process _ _ | .takeMessage | .executeMessage _ | .updateRecentHash _ | .updateCheckPointStatus _
  | .updateStableCheckPointStatus _ | .monitorTimeout _ | .monitorCheckpointState =>
    inferInstanceAs (Decidable True)

structure Unequivocal (config : ResDBConfig) (r : Replica) (calls : List Call) : Prop where
  pooled : Pooled config r
  views : ∀ s, (r.collectorPool.getCollector s).view ≤ r.getCurrentView
  current : ∀ vote, Broadcast calls vote → IsVote vote → vote.currentView ≤ r.getCurrentView
  prepares : ∀ vote, Broadcast calls vote → vote.type = .prepare → Proposed r vote.currentView vote.seq
  commits : ∀ vote, Broadcast calls vote → vote.type = .commit → Settled r vote.seq
  once : ∀ a b, Broadcast calls a → Broadcast calls b → IsVote a → b.type = a.type →
    b.currentView = a.currentView → b.seq = a.seq → b.hash = a.hash

structure Keeps (r r' : Replica) : Prop where
  view : r.getCurrentView ≤ r'.getCurrentView
  views : ∀ s, (r'.collectorPool.getCollector s).view ≤ r'.getCurrentView
  proposed : ∀ v s, v ≤ r.getCurrentView → Proposed r v s → Proposed r' v s
  settled : ∀ s, Settled r s → Settled r' s

structure NewVote (r r' : Replica) (vote : Request) : Prop where
  current : vote.currentView ≤ r'.getCurrentView
  prepare : vote.type = .prepare → ¬ Proposed r vote.currentView vote.seq ∧ Proposed r' vote.currentView vote.seq
  commit : vote.type = .commit → (¬ Settled r vote.seq ∨ r.getCurrentView < vote.currentView) ∧ Settled r' vote.seq

theorem broadcast_append :
    Broadcast (calls ++ [call]) vote ↔ Broadcast calls vote ∨ Outgoing.broadCast vote ∈ call.outcome.sent := by
  simp [Broadcast, or_and_right, exists_or]

theorem Unequivocal.fresh (before : Unequivocal config r calls) {old new : Request} (sent : Broadcast calls old)
    (isVote : IsVote old) (vote : NewVote r r' new) (type : new.type = old.type)
    (view : new.currentView = old.currentView) (seq : new.seq = old.seq) : False := by
  rcases isVote with prepare | commit
  · have proposed := before.prepares old sent prepare
    rw [← view, ← seq] at proposed
    exact (vote.prepare (type.trans prepare)).1 proposed
  · have settled := before.commits old sent commit
    rw [← seq] at settled
    rcases (vote.commit (type.trans commit)).1 with unsettled | later
    · exact unsettled settled
    · have earlier := before.current old sent (.inr commit)
      omega

theorem Unequivocal.called (before : Unequivocal config call.before calls)
    (pooled : Pooled config call.outcome.replica) (keeps : Keeps call.before call.outcome.replica)
    (votes : ∀ vote, Outgoing.broadCast vote ∈ call.outcome.sent → IsVote vote →
      NewVote call.before call.outcome.replica vote)
    (agree : ∀ a b, Outgoing.broadCast a ∈ call.outcome.sent → Outgoing.broadCast b ∈ call.outcome.sent →
      IsVote a → b.type = a.type → b.seq = a.seq → b.hash = a.hash) :
    Unequivocal config call.outcome.replica (calls ++ [call]) := by
  refine ⟨pooled, keeps.views, ?_, ?_, ?_, ?_⟩
  · intro vote sent isVote
    rcases broadcast_append.mp sent with old | new
    · exact (before.current vote old isVote).trans keeps.view
    · exact (votes vote new isVote).current
  · intro vote sent prepare
    rcases broadcast_append.mp sent with old | new
    · exact keeps.proposed _ _ (before.current vote old (.inl prepare)) (before.prepares vote old prepare)
    · exact ((votes vote new (.inl prepare)).prepare prepare).2
  · intro vote sent commit
    rcases broadcast_append.mp sent with old | new
    · exact keeps.settled _ (before.commits vote old commit)
    · exact ((votes vote new (.inr commit)).commit commit).2
  · intro a b sentA sentB isVote type view seq
    have isVote' : IsVote b := by
      unfold IsVote
      rw [type]
      exact isVote
    rcases broadcast_append.mp sentA with oldA | newA
    · rcases broadcast_append.mp sentB with oldB | newB
      · exact before.once a b oldA oldB isVote type view seq
      · exact (before.fresh oldA isVote (votes b newB isVote') type view seq).elim
    · rcases broadcast_append.mp sentB with oldB | newB
      · exact (before.fresh oldB isVote' (votes a newA isVote) type.symm view.symm seq.symm).elim
      · exact agree a b newA newB isVote type seq

theorem Gives.keeps (gives : Gives r env context request outcome result) (pooled : Pooled config r)
    (views : ∀ s, (r.collectorPool.getCollector s).view ≤ r.getCurrentView) : Keeps r outcome.replica := by
  have collector := gives.collector pooled.running
  have later (s : Nat)
    (valid : isValidMsg r.getCurrentView r.transactionExecutor.getMaxPendingExecutedSeq request = true)
      (added : Added r.config (r.collectorPool.getCollector s) request context.signature result) :
      result.collector.view = (r.collectorPool.getCollector s).view ∨ result.collector.view = r.getCurrentView := by
    rcases added.view with old | ⟨-, new⟩
    · exact .inl old
    · exact .inr (new.trans (isValidMsg_view valid gives.notResponse))
  refine ⟨gives.view.ge, fun s => ?_, fun v s bound proposed => ?_, fun s settled => ?_⟩
  · rw [gives.view]
    rcases collector s with old | ⟨new, -, valid, added⟩
    · rw [old]
      exact views s
    · rw [new]
      rcases later s valid added with old | current
      · rw [old]
        exact views s
      · exact current.le
  · unfold Proposed
    rcases collector s with old | ⟨new, -, valid, added⟩
    · rw [old]
      exact proposed
    · rw [new, added.seq]
      refine proposed.imp (fun ⟨own, started, seen⟩ => ⟨own, added.started started, ?_⟩) id
      rcases later s valid added with old | current
      · rw [old]
        exact seen
      · rw [current]
        exact bound
  · unfold Settled
    rcases collector s with old | ⟨new, -, -, added⟩
    · rw [old]
      exact settled
    · rw [new, added.seq]
      exact settled.imp (fun ⟨own, ready⟩ => ⟨own, added.ready ready⟩) id

theorem Gives.newVote (gives : Gives r env context request outcome result) (pooled : Pooled config r)
    (changes : Changes result) (answer : AnswerTo request vote) : NewVote r outcome.replica vote := by
  obtain ⟨-, changed⟩ := changes
  obtain ⟨valid, added⟩ := gives.added pooled.running changed
  refine ⟨?_, fun prepare => ?_, fun commit => ?_⟩
  · rw [gives.view, answer.view]
    exact (isValidMsg_view valid gives.notResponse).le
  · have proposal := answer.of_prepare prepare
    obtain ⟨own, first, started, view⟩ := added.proposes proposal changed
    have here : result.collector.seq = request.seq := added.seq.trans own
    rw [answer.view, answer.seq]
    unfold Proposed
    rw [gives.after]
    refine ⟨?_, .inl ⟨here, started, view.ge⟩⟩
    rintro (⟨-, seen, least⟩ | past)
    · rcases first with none | ⟨-, older⟩
      · exact seen none
      · exact absurd least (not_le.mpr older)
    · exact absurd past (by rw [own]; exact lt_irrefl _)
  · obtain ⟨isOpen, prepared⟩ := prepared_of_changed added (answer.of_commit commit) changed
    have own : (r.collectorPool.getCollector request.seq).seq = request.seq := isOpen.2.2
    rw [answer.seq]
    unfold Settled
    rw [gives.after]
    refine ⟨.inl ?_, .inl ⟨added.seq.trans own, by rw [prepared.after]; decide⟩⟩
    rintro (⟨-, ready⟩ | past)
    · rw [prepared.before] at ready
      exact absurd ready (by decide)
    · exact absurd past (by rw [own]; exact lt_irrefl _)

theorem Unequivocal.given (before : Unequivocal config call.before calls) (ran : Ran call)
    (gives : Gives call.before call.env call.context call.request call.outcome result) :
    Unequivocal config call.outcome.replica (calls ++ [call]) := by
  have answers {vote : Request} (sent : Outgoing.broadCast vote ∈ call.outcome.sent) :
      Changes result ∧ AnswerTo call.request vote := by
    obtain ⟨changes, -, answer⟩ := gives.answers vote (mem_filterMap.mpr ⟨_, sent, rfl⟩)
    exact ⟨changes, answer.answerTo⟩
  refine before.called (before.pooled.called ran) (gives.keeps before.pooled before.views) ?_ ?_
  · intro vote sent _
    exact gives.newVote before.pooled (answers sent).1 (answers sent).2
  · intro a b sentA sentB _ _ _
    rw [(answers sentA).2.hash, (answers sentB).2.hash]

theorem Keeps.congr (pool : r'.collectorPool = r.collectorPool)
    (views : ∀ s, (r.collectorPool.getCollector s).view ≤ r.getCurrentView)
    (view : r.getCurrentView ≤ r'.getCurrentView) : Keeps r r' := by
  refine ⟨view, ?_, ?_, ?_⟩
  · intro s
    rw [pool]
    exact (views s).trans view
  · intro v s _ proposed
    unfold Proposed
    rw [pool]
    exact proposed
  · intro s settled
    unfold Settled
    rw [pool]
    exact settled

theorem ViewChanging.noVote (changing : ViewChanging r env request outcome) :
    ∀ vote ∈ outcome.sent.filterMap Outgoing.request?, ¬ IsVote vote := by
  cases changing with
  | @announced _ stored _ _ _ _ _ _ _ answer =>
    intro vote member
    cases flag : stored.viewChangeManager.newViewIsSent with
    | true =>
      rw [(sendNewViewMsg_eq answer).2 flag] at member
      cases member
    | false =>
      obtain ⟨list, -, same⟩ := sendNewViewMsg_spec flag answer
      rw [same] at member
      cases mem_singleton.mp member
      simp [IsVote, newRequest]
  | _ => simp

structure Silent (r : Replica) (outcome : Outcome) : Prop where
  pool : outcome.replica.collectorPool = r.collectorPool
  view : outcome.replica.getCurrentView = r.getCurrentView
  noVote : ∀ vote ∈ outcome.sent.filterMap Outgoing.request?, ¬ IsVote vote
  changing : r.isInViewChange = true → outcome.replica.isInViewChange = true

structure Installs (call : Call) (message : NewViewMessage) : Prop where
  type : call.request.type = .newview
  parsed : call.env.codec.parseNewView call.request.data = some message
  accepts : Accepts call.before call.env message
  pool : call.outcome.replica.collectorPool = call.before.collectorPool
  view : call.outcome.replica.getCurrentView = message.viewNumber
  sent : call.outcome.sent.filterMap Outgoing.request? = message.request

theorem ViewChanging.stays (changing : ViewChanging r env request outcome) (already : r.isInViewChange = true) :
    outcome.replica.isInViewChange = true := by
  cases changing with
  | rejected => exact already
  | stored _ _ same =>
    rw [same]
    exact already
  | announced => rfl
  | waiting => rfl

theorem call_kind (ran : Ran call) : Silent call.before call.outcome ∨
    (∃ result, Gives call.before call.env call.context call.request call.outcome result) ∨
    ∃ message, Installs call message := by
  obtain ⟨env, r, context, request, outcome⟩ := call
  have handling : Handling r env context request outcome := commit_handling ran
  cases handling with
  | idle _ types =>
    refine .inl ⟨rfl, rfl, fun vote member isVote => ?_, id⟩
    rcases types vote member with type | type
    · simp [IsVote, type] at isVote
    · simp [IsVote, type] at isVote
  | assigned =>
    refine .inl ⟨rfl, rfl, fun vote member isVote => ?_, id⟩
    simp only [Outgoing.request?, filterMap_cons, filterMap_nil, mem_singleton] at member
    rw [member] at isVote
    simp [IsVote, proposalOf] at isVote
  | added gives => exact .inr (.inl ⟨_, gives⟩)
  | checkpointed => exact .inl ⟨rfl, rfl, by simp, id⟩
  | viewChanged _ changing => exact .inl ⟨rfl, rfl, changing.noVote, changing.stays⟩
  | newView type viewing =>
    rcases processNewView_spec viewing with ⟨same, -⟩ | ⟨message, list, maxSeq, parsed, accepted, installed⟩
    · rw [same]
      exact .inl ⟨rfl, rfl, by simp, id⟩
    · exact .inr (.inr ⟨message, type, parsed, checkNewView_iff.mpr ⟨list, accepted⟩, rfl, installed.view,
        installed.sent⟩)

theorem Unequivocal.installed {message : NewViewMessage} (before : Unequivocal config call.before calls)
    (ran : Ran call)
    (installs : Installs call message) (orderly : Orderly call.before message) :
    Unequivocal config call.outcome.replica (calls ++ [call]) := by
  have view : call.before.getCurrentView ≤ call.outcome.replica.getCurrentView := by
    rw [installs.view]
    exact orderly.newer.le
  have keeps := Keeps.congr installs.pool before.views view
  have listed {vote : Request} (sent : Outgoing.broadCast vote ∈ call.outcome.sent) : vote ∈ message.request := by
    rw [← installs.sent]
    exact mem_filterMap.mpr ⟨_, sent, rfl⟩
  have isCommit {vote : Request} (sent : Outgoing.broadCast vote ∈ call.outcome.sent) (isVote : IsVote vote) :
      vote.type = .commit :=
    isVote.resolve_left (orderly.phase vote (listed sent))
  refine before.called (before.pooled.called ran) keeps ?_ ?_
  · intro vote sent isVote
    obtain ⟨inView, settled⟩ := orderly.commit vote (listed sent) (isCommit sent isVote)
    refine ⟨?_, fun prepare => absurd prepare (orderly.phase vote (listed sent)), fun _ => ⟨.inr ?_, ?_⟩⟩
    · rw [installs.view, inView]
    · rw [inView]
      exact orderly.newer
    · exact keeps.settled _ settled
  · intro a b sentA sentB isVote type seq
    have commit := isCommit sentA isVote
    exact orderly.agree b (listed sentB) a (listed sentA) (type.trans commit) commit seq

theorem Unequivocal.quiet (before : Unequivocal config call.before calls) (ran : Ran call)
    (silent : Silent call.before call.outcome) : Unequivocal config call.outcome.replica (calls ++ [call]) := by
  have noVote {vote : Request} (sent : Outgoing.broadCast vote ∈ call.outcome.sent) : ¬ IsVote vote :=
    silent.noVote vote (mem_filterMap.mpr ⟨_, sent, rfl⟩)
  refine before.called (before.pooled.called ran) (Keeps.congr silent.pool before.views silent.view.ge) ?_ ?_
  · intro vote sent isVote
    exact absurd isVote (noVote sent)
  · intro a b sent _ isVote
    exact absurd isVote (noVote sent)

theorem Unequivocal.ran (before : Unequivocal config call.before calls) (ran : Ran call) (orderly : OrderlyCall call) :
    Unequivocal config call.outcome.replica (calls ++ [call]) := by
  rcases call_kind ran with silent | ⟨result, gives⟩ | ⟨message, installs⟩
  · exact before.quiet ran silent
  · exact before.given ran gives
  · exact before.installed ran installs (orderly message installs.type installs.parsed installs.accepts)

theorem Renews.keeps (renews : Renews r r') (pooled : Pooled config r)
    (views : ∀ s, (r.collectorPool.getCollector s).view ≤ r.getCurrentView)
    (unvoted : RenewsUnvoted r .passNext) : Keeps r r' := by
  have collector := renews.collector pooled
  obtain ⟨executor, pool, frame⟩ := renews.frame
  have view : r'.getCurrentView = r.getCurrentView := by
    rw [frame]
    rfl
  -- an earlier sequence number, or no vote
  have past {s : Nat} (here : r.collectorPool.getCollector s = r.collectorPool.getCollector (renewedSeq r))
      (bound : (r.collectorPool.getCollector s).seq ≤ renewedSeq r)
      (used : (r.collectorPool.getCollector s).seq = s ∧ (r.collectorPool.getCollector s).status ≠ .none ∨
        s < (r.collectorPool.getCollector s).seq) : s < renewedSeq r := by
    rcases used with ⟨own, started⟩ | past
    · have other : s ≠ renewedSeq r := by
        rintro rfl
        exact started (unvoted own)
      omega
    · omega
  refine ⟨view.ge, fun s => ?_, fun v s _ proposed => ?_, fun s settled => ?_⟩
  · rw [view]
    rcases collector s with old | ⟨new, -⟩
    · rw [old]
      exact views s
    · rw [new]
      exact Nat.zero_le _
  · unfold Proposed
    rcases collector s with old | ⟨new, here, bound⟩
    · rw [old]
      exact proposed
    · rw [new]
      exact .inr (past here bound (proposed.imp (fun ⟨own, started, _⟩ => ⟨own, started⟩) id))
  · unfold Settled
    rcases collector s with old | ⟨new, here, bound⟩
    · rw [old]
      exact settled
    · rw [new]
      refine .inr (past here bound (settled.imp (fun ⟨own, ready⟩ => ⟨own, fun none => ?_⟩) id))
      rw [none] at ready
      exact absurd ready (by decide)

theorem Unequivocal.moved (before : Unequivocal config r calls) (pooled : Pooled config r') (keeps : Keeps r r') :
    Unequivocal config r' calls := by
  refine ⟨pooled, keeps.views, ?_, ?_, ?_, before.once⟩
  · intro vote sent isVote
    exact (before.current vote sent isVote).trans keeps.view
  · intro vote sent prepare
    exact keeps.proposed _ _ (before.current vote sent (.inl prepare)) (before.prepares vote sent prepare)
  · intro vote sent commit
    exact keeps.settled _ (before.commits vote sent commit)

theorem Unequivocal.thread (before : Unequivocal config r calls) (moved : Background r event r')
    (unvoted : RenewsUnvoted r event) : Unequivocal config r' calls := by
  have pooled := before.pooled.thread moved
  rcases moved.collectors with ⟨rfl, renews⟩ | ⟨pool, -⟩
  · exact before.moved pooled (renews.keeps before.pooled before.views unvoted)
  · have view : r'.getCurrentView = r.getCurrentView := moved.threaded.view
    exact before.moved pooled (Keeps.congr pool before.views view.ge)

theorem unequivocal_run {trace : List (Transition Server ServerEvent)}
    (run : (server config).Run trace s) (calls : ∀ call ∈ s.calls, OrderlyCall call)
    (steps : ∀ t ∈ trace, RenewsUnvoted t.before.replica t.event) : Unequivocal config s.replica s.calls := by
  have nothing (vote : Request) : ¬ Broadcast [] vote := by
    rintro ⟨call, member, -⟩
    cases member
  refine server_invariant run (Unequivocal config) ?_ ?_ ?_ ?_
  · intro outOfOrder needResponse needQc
    exact ⟨Pooled.start config outOfOrder needResponse needQc, fun s => Nat.zero_le _,
      fun vote sent => absurd sent (nothing vote), fun vote sent => absurd sent (nothing vote),
      fun vote sent => absurd sent (nothing vote), fun a b sent => absurd sent (nothing a)⟩
  · intro r calls pending complained started before
    exact before.moved (before.pooled.congr rfl rfl rfl) (Keeps.congr rfl before.views le_rfl)
  · exact fun _ call before ran member => before.ran ran (calls call member)
  · exact fun _ _ _ before moved member => before.thread moved (steps _ member)

theorem votes_unequivocal {trace : List (Transition Server ServerEvent)} {s : Server}
    (run : (server config).Run trace s) (calls : ∀ call ∈ s.calls, OrderlyCall call)
    (steps : ∀ t ∈ trace, RenewsUnvoted t.before.replica t.event) {a b : Request}
    (phase : a.type = .prepare ∨ a.type = .commit) (sentA : Broadcast s.calls a) (sentB : Broadcast s.calls b)
    (type : b.type = a.type) (view : b.currentView = a.currentView) (seq : b.seq = a.seq) : b.hash = a.hash :=
  (unequivocal_run run calls steps).once a b sentA sentB phase type view seq

def broadcasts (s : Server) (type : RequestType) (seq : Nat) (hash : String) : Bool :=
  s.calls.any fun call => call.outcome.sent.any fun message =>
    match message with
    | .broadCast vote => vote.type = type ∧ vote.currentView = 1 ∧ vote.seq = seq ∧ vote.hash = hash
    | _ => false

theorem broadcast_of_check {type : RequestType} {seq : Nat} {hash : String}
    (checked : broadcasts s type seq hash = true) : ∃ vote, Broadcast s.calls vote ∧ vote.type = type ∧
      vote.currentView = 1 ∧ vote.seq = seq ∧ vote.hash = hash := by
  obtain ⟨call, made, sends⟩ := any_eq_true.mp checked
  obtain ⟨message, sent, matching⟩ := any_eq_true.mp sends
  cases message with
  | broadCast vote => exact ⟨vote, ⟨call, made, sent⟩, of_decide_eq_true matching⟩
  | _ => cases matching

theorem firstRequest_unequivocal : ∃ trace s, (server smallPool).Run trace s ∧
    (∃ vote, Broadcast s.calls vote ∧ vote.type = .commit ∧ vote.currentView = 1 ∧ vote.seq = 1 ∧ vote.hash = "a") ∧
    ∀ vote, Broadcast s.calls vote → vote.type = .commit → vote.currentView = 1 → vote.seq = 1 → vote.hash = "a" := by
  obtain ⟨trace, s, run, plain, unvoted, sent⟩ := exists_server_run smallPool (executeSeq 1 "a")
    (fun trace s => (∀ call ∈ s.calls, call.request.type ≠ .newview) ∧
      (∀ t ∈ trace, RenewsUnvoted t.before.replica t.event) ∧ broadcasts s .commit 1 "a") (by decide)
  obtain ⟨first, sentFirst, type, view, seq, hash⟩ := broadcast_of_check sent
  refine ⟨trace, s, run, ⟨first, sentFirst, type, view, seq, hash⟩, fun vote sentVote type' view' seq' => ?_⟩
  rw [← hash]
  exact votes_unequivocal run (fun call member message isNewView => absurd isNewView (plain call member)) unvoted
    (.inr type) sentFirst sentVote (type'.trans type.symm) (view'.trans view.symm) (seq'.trans seq.symm)

theorem renewed_equivocates : ∃ trace s, (server smallPool).Run trace s ∧
    (∀ receipt ∈ s.received, receipt.request.isRecovery = false) ∧
    ∀ type, type = .prepare ∨ type = .commit → ∃ a b, Broadcast s.calls a ∧ Broadcast s.calls b ∧
      a.type = type ∧ b.type = type ∧ b.currentView = a.currentView ∧ b.seq = a.seq ∧ b.hash ≠ a.hash := by
  obtain ⟨trace, s, run, fresh, votes⟩ := exists_server_run smallPool
    (prepareSeq 5 "x" ++ executeSeq 1 "a" ++ prepareSeq 5 "y")
    (fun _ s => (∀ receipt ∈ s.received, receipt.request.isRecovery = false) ∧
      ∀ type ∈ [RequestType.prepare, .commit], broadcasts s type 5 "x" ∧ broadcasts s type 5 "y") (by decide)
  refine ⟨trace, s, run, fresh, fun type isVote => ?_⟩
  obtain ⟨x, y⟩ := votes type (by simpa using isVote)
  obtain ⟨a, sentA, typeA, viewA, seqA, hashA⟩ := broadcast_of_check x
  obtain ⟨b, sentB, typeB, viewB, seqB, hashB⟩ := broadcast_of_check y
  exact ⟨a, b, sentA, sentB, typeA, typeB, viewB.trans viewA.symm, seqB.trans seqA.symm, by simp [hashA, hashB]⟩

end ResilientDB.Proof
