import ResilientDB.Proof.FirstViewChange
import ResilientDB.Proof.HonestNewView
import ResilientDB.Proof.StableCheckPoint

namespace ResilientDB.Proof
open Model Library List

variable {config : ResDBConfig} {c : TransactionCollector} {r r' : Replica} {env : Env} {context : Context}
  {request : Request} {outcome : Outcome} {message : NewViewMessage} {calls : List Call} {s : Server}
  {trace : List (Transition Server ServerEvent)} {fault : Fault}

structure HandedOver (r : Replica) (calls : List Call) : Prop where
  held : ∀ i, ∀ info, Holding (r.collectorPool.getCollector i) info →
    info.request.seq = (r.collectorPool.getCollector i).seq
  moved : ∀ i, (r.collectorPool.getCollector i).mainRequest = .moved →
    ∃ call ∈ calls, ∃ q ∈ call.outcome.committed, q.seq = (r.collectorPool.getCollector i).seq

theorem Added.handed_over {signature : SignatureInfo} {result : AddResult}
    (added : Added config c request signature result)
    (held : ∀ info, Holding c info → info.request.seq = c.seq) (moved : result.collector.mainRequest = .moved) :
    c.mainRequest = .moved ∨ ∃ q ∈ result.committed, q.seq = c.seq := by
  cases added with
  | proposed => cases moved
  | prepared _ prepared => exact .inl (prepared.unmoved.resolve_left (not_not.mpr moved))
  | executed _ executed =>
    cases main : c.mainRequest with
    | stored info =>
      obtain ⟨-, rfl⟩ := executed.stored info main
      exact .inr ⟨_, rfl, held info (.inl main)⟩
    | empty =>
      rw [(executed.notStored (by simp [main])).2, main] at moved
      cases moved
    | moved => exact .inl rfl
  | _ => exact .inl moved

theorem Handling.committed (handling : Handling r env context request outcome) :
    outcome.replica.collectorPool = r.collectorPool ∨
      ∃ result, Gives r env context request outcome result ∧ outcome.committed = result.committed.toList := by
  cases handling with
  | added gives => exact .inr ⟨_, gives, rfl⟩
  | _ => exact .inl rfl

theorem HandedOver.congr {calls' : List Call} (before : HandedOver r calls)
    (same : r'.collectorPool = r.collectorPool) (more : calls ⊆ calls') : HandedOver r' calls' := by
  constructor
  · rw [same]
    exact before.held
  · rw [same]
    intro i moved
    obtain ⟨call, made, handed⟩ := before.moved i moved
    exact ⟨call, more made, handed⟩

theorem HandedOver.called {call : Call} (before : HandedOver call.before calls) (pooled : Pooled config call.before)
    (ran : Ran call) : HandedOver call.outcome.replica (calls ++ [call]) := by
  rcases (commit_handling ran).committed with same | ⟨result, gives, committed⟩
  · exact before.congr same (subset_append_left _ _)
  have collector := gives.collector pooled.running
  constructor
  · intro i info holding
    rcases collector i with old | ⟨new, -, -, added⟩
    · rw [old] at holding ⊢
      exact before.held i info holding
    · rw [new] at holding ⊢
      rw [added.seq]
      exact added.held (before.held i) (fun _ opened => opened.2.2.symm) info holding
  · intro i moved
    rcases collector i with old | ⟨new, -, -, added⟩
    · rw [old] at moved ⊢
      obtain ⟨earlier, made, handed⟩ := before.moved i moved
      exact ⟨earlier, mem_append_left _ made, handed⟩
    · rw [new] at moved ⊢
      rw [added.seq]
      rcases added.handed_over (before.held i) moved with already | ⟨q, handed, seq⟩
      · obtain ⟨earlier, made, handed⟩ := before.moved i already
        exact ⟨earlier, mem_append_left _ made, handed⟩
      · refine ⟨call, mem_append_right _ (mem_singleton_self _), q, ?_, seq⟩
        rw [committed]
        simpa using handed

theorem HandedOver.thread {event : ServerEvent} (before : HandedOver r calls) (pooled : Pooled config r)
    (moved : Background r event r') : HandedOver r' calls := by
  rcases moved.collectors with ⟨-, renews⟩ | ⟨same, -⟩
  · have collector := renews.collector pooled
    constructor
    · intro i info holding
      rcases collector i with old | ⟨new, -⟩
      · rw [old] at holding ⊢
        exact before.held i info holding
      · rw [new] at holding
        simp [Holding] at holding
    · intro i moved
      rcases collector i with old | ⟨new, -⟩
      · rw [old] at moved ⊢
        exact before.moved i moved
      · rw [new] at moved
        cases moved
  · exact before.congr same (List.Subset.refl _)

theorem handedOver_run (run : (server config).Run trace s) : HandedOver s.replica s.calls := by
  refine (server_invariant run (fun r calls => Pooled config r ∧ HandedOver r calls) ?_ ?_ ?_ ?_).2
  · intro outOfOrder needResponse needQc
    refine ⟨Pooled.start config outOfOrder needResponse needQc, ⟨fun i info holding => ?_, fun i moved => ?_⟩⟩
    · simp [Holding, Replica.create, LockFreeCollectorPool.create, LockFreeCollectorPool.getCollector] at holding
    · cases moved
  · rintro r calls pending complained started ⟨pooled, handed⟩
    exact ⟨pooled.congr rfl rfl rfl, handed.congr rfl (List.Subset.refl _)⟩
  · rintro calls call ⟨pooled, handed⟩ ran -
    exact ⟨pooled.called ran, handed.called pooled ran⟩
  · rintro s event r' ⟨pooled, handed⟩ moved -
    exact ⟨pooled.thread moved, handed.thread pooled moved⟩

theorem getPrepareMsg_fault {needSign : Bool} (ran : r.getPrepareMsg env message needSign = .error fault) :
    fault = .missingProof ∨ fault = .endlessLoop := by
  rw [getPrepareMsg_eq, bind_eq_error] at ran
  rcases ran with unproved | ⟨map, -, ran⟩
  · left
    unfold Replica.collectPreparedMsg at unproved
    apply foldlM_eq_error unproved
    intro map entry fault _ failed
    unfold Replica.addPreparedMsg at failed
    split at failed
    · cases failed
      rfl
    · cases failed
  · rcases bind_eq_error.mp ran with endless | ⟨_, -, done⟩
    · unfold uint64Loop at endless
      split at endless
      · cases endless
        exact .inr rfl
      · cases endless
    · cases done

theorem checkNewView_fault (ran : r.checkNewView env message = .error fault) :
    fault = .missingProof ∨ fault = .endlessLoop := by
  unfold Replica.checkNewView at ran
  split at ran
  · cases ran
  split at ran
  · cases ran
  rcases bind_eq_error.mp ran with failed | ⟨list, -, ran⟩
  · exact getPrepareMsg_fault failed
  split at ran
  · cases ran
  split at ran
  · cases ran
  dsimp only at ran
  split at ran <;> cases ran

theorem foldlM_redo_fault {requests : List Request} {state : Replica × List Outgoing}
    (ran : requests.foldlM Replica.redo state = .error fault) :
    fault = if state.1.config.enableViewchange = true then .nullRequest else .nullPool := by
  induction requests generalizing state with
  | nil => cases ran
  | cons request rest ih =>
    rw [foldlM_cons, bind_eq_error] at ran
    rcases ran with here | ⟨next, moved, ran⟩
    · obtain ⟨r, sent⟩ := state
      unfold Replica.redo at here
      dsimp only at here
      split at here
      · split at here
        · rename_i disabled
          cases here
          simp [disabled]
        · rename_i enabled
          rcases bind_eq_error.mp here with failed | ⟨hashes, -, done⟩
          · unfold TransactionCollector.getAllStoredHash at failed
            dsimp only at failed
            split at failed
            · cases failed
            · cases failed
              simp [enabled]
            · cases failed
          · cases done
      · cases here
    · obtain ⟨duplicates, highest, same⟩ := (redo_redoing moved).frame
      rw [ih ran, same]

def visited (r : Replica) (message : NewViewMessage) : List TransactionCollector :=
  (message.request.filter fun q => q.type = .prePrepare).map fun q => r.collectorPool.getCollector q.seq

theorem processNewView_null_iff : r.processNewView env request = .error .nullRequest ↔
    ∃ message, env.codec.parseNewView request.data = some message ∧ (∃ list, Accepted r env message list) ∧
      r.config.enableViewchange = true ∧ ∃ c ∈ visited r message, c.mainRequest = .moved := by
  have stopped (message : NewViewMessage) (maxSeq : Nat) : r.installNewView message maxSeq = .error .nullRequest ↔
      r.config.enableViewchange = true ∧ ∃ c ∈ visited r message, c.mainRequest = .moved := by
    unfold Replica.installNewView
    generalize start : ((r.setCurrentViewAndNewPrimary message.viewNumber).setNextSeq (addUInt64 maxSeq 1),
      ([] : List Outgoing)) = state
    have config : state.1.config = r.config := by rw [← start]; rfl
    have redoable (i : Nat) : Redoable state.1 i ↔ Redoable r i := by rw [← start]; rfl
    have loops := @foldlM_redo_ok_iff message.request state
    dsimp only
    rw [start, bind_eq_error]
    constructor
    · rintro (failed | ⟨last, -, done⟩)
      · have fault := foldlM_redo_fault failed
        rw [config] at fault
        split at fault
        · rename_i enabled
          refine ⟨enabled, ?_⟩
          have none : ¬ ∃ last, message.request.foldlM Replica.redo state = .ok last := by simp [failed]
          rw [loops] at none
          push Not at none
          obtain ⟨q, member, null, stuck⟩ := none
          rw [redoable] at stuck
          refine ⟨_, mem_map.mpr ⟨q, mem_filter.mpr ⟨member, by simp [null]⟩, rfl⟩, ?_⟩
          by_contra stored
          exact stuck ⟨enabled, stored⟩
        · cases fault
      · cases done
    · rintro ⟨enabled, c, member, moved⟩
      obtain ⟨q, inside, rfl⟩ := mem_map.mp member
      obtain ⟨listed, null⟩ := mem_filter.mp inside
      cases result : message.request.foldlM Replica.redo state with
      | error fault =>
        have same := foldlM_redo_fault result
        rw [config, if_pos enabled] at same
        exact .inl (by rw [same])
      | ok last =>
        have all := loops.mp ⟨last, result⟩ q listed (by simpa using null)
        exact absurd moved ((redoable q.seq).mp all).2
  unfold Replica.processNewView
  cases parsed : env.codec.parseNewView request.data with
  | none => simp
  | some message =>
    simp only [Option.some.injEq, exists_eq_left']
    rw [bind_eq_error, ← checkNewView_iff]
    constructor
    · rintro (failed | ⟨accepted, passed, ran⟩)
      · rcases checkNewView_fault failed with fault | fault <;> cases fault
      · cases accepted with
        | none => cases ran
        | some maxSeq => exact ⟨⟨maxSeq, passed⟩, (stopped message maxSeq).mp ran⟩
    · rintro ⟨⟨maxSeq, passed⟩, moved⟩
      exact .inr ⟨some maxSeq, passed, (stopped message maxSeq).mpr moved⟩

theorem newView_visits_stored (run : (server config).Run trace s)
    (idle : ∀ c ∈ visited s.replica message, ∀ call ∈ s.calls, ∀ q ∈ call.outcome.committed, q.seq ≠ c.seq) :
    (∀ c ∈ visited s.replica message, ∃ hashes, c.getAllStoredHash = .ok hashes) ∧
      ∀ env request, env.codec.parseNewView request.data = some message →
        s.replica.processNewView env request ≠ .error .nullRequest := by
  have stored : ∀ c ∈ visited s.replica message, c.mainRequest ≠ .moved := by
    intro c member moved
    obtain ⟨q, inside, rfl⟩ := mem_map.mp member
    obtain ⟨call, made, handed, committed, seq⟩ := (handedOver_run run).moved q.seq moved
    exact idle _ member call made handed committed seq
  refine ⟨fun c member => getAllStoredHash_ok_iff.mpr (stored c member), fun env request parsed failed => ?_⟩
  obtain ⟨other, again, -, -, c, member, moved⟩ := processNewView_null_iff.mp failed
  cases parsed.symm.trans again
  exact stored c member moved

def nullAt (seq : Nat) : NewViewMessage where
  viewNumber := 2
  request := [{ nullOne with seq := seq, hash := "null" ++ toString seq }]

theorem laterNull_stored : ∃ trace s, (server (viewConfig 4)).Run trace s ∧
    (∃ call ∈ s.calls, ∃ q ∈ call.outcome.committed, q.seq = 1) ∧
    (∀ c ∈ visited s.replica (nullAt 2), ∃ hashes, c.getAllStoredHash = .ok hashes) ∧
    s.replica.processNewView (newViewEnv (nullAt 2)) (newViewFrom 2) ≠ .error .nullRequest := by
  obtain ⟨trace, s, run, first, other⟩ := exists_server_run (viewConfig 4) ((executeFirst 4).map Prod.snd)
    (fun _ s => (∃ call ∈ s.calls, ∃ q ∈ call.outcome.committed, q.seq = 1) ∧
      ∀ c ∈ visited s.replica (nullAt 2), ∀ call ∈ s.calls, ∀ q ∈ call.outcome.committed, q.seq ≠ c.seq)
    (by decide +kernel)
  obtain ⟨stored, safe⟩ := newView_visits_stored run other
  exact ⟨trace, s, run, first, stored, safe _ _ rfl⟩

def lagCluster : Cluster := { ckptCluster with byzantine := {1}, members := by decide, bound := by decide }

def voteAt (seq : Nat) (phase : RequestType) (hash : String) (sender : Int) : Request :=
  { firstVote phase hash sender with seq := seq }

def tellAt (seq : Nat) (i : Int) (phase : RequestType) (hash : String) (sender : Int) : Int × ServerEvent :=
  hearFrom i (ckptEnv sender) sender (voteAt seq phase hash sender)

def tellCheckpoint (i sender : Int) : Int × ServerEvent :=
  hearFrom i (ckptEnv sender) sender { type := .checkpoint, senderId := sender }

def reportAhead : ViewChangeMessage where
  viewNumber := 2
  stableCkpt := ⟨1, "h", [1, 2, 3].map fun i => ⟨i, "signature"⟩⟩
  preparedMsg := [⟨2, [1, 2, 3].map fun i => ⟨voteAt 2 .prepare "b" i, ⟨i, "signature"⟩⟩⟩]

def aheadEnv : Env :=
  { plainEnv with codec := { plainEnv.codec with
      serializeViewChange := fun message => if message = viewChangeZero then "empty" else "report"
      parseViewChange := fun data => some (if data = "empty" then viewChangeZero else reportAhead) } }

def waitAhead (i : Int) : List (Int × ServerEvent) :=
  [hearFrom i plainEnv 5 { type := .newTxns, hash := "c", senderId := 5 }, (i, .monitorTimeout aheadEnv)]

def tellAhead (data : String) (sender : Int) : Int × ServerEvent :=
  hearFrom 2 aheadEnv sender { type := .viewchange, data := data, senderId := sender }

def aheadOfFour : List (Int × ServerEvent) :=
  [tellAt 1 2 .prePrepare "a" 1, tellAt 1 3 .prePrepare "a" 1] ++
    [2, 3].flatMap (fun i => [1, 2, 3].map (tellAt 1 i .prepare "a")) ++
    [2, 3].flatMap (fun i => [1, 2, 3].map (tellAt 1 i .commit "a") ++
      [(i, .takeMessage), (i, .passNext), (i, .executeMessage (ckptEnv i)),
        (i, .updateCheckPointStatus (ckptEnv i))]) ++
    [2, 3].flatMap (fun i => [1, 2, 3].map (tellCheckpoint i) ++ [(i, .updateStableCheckPointStatus (ckptEnv i))]) ++
    [tellAt 2 2 .prePrepare "b" 1, tellAt 2 3 .prePrepare "b" 1] ++
    [2, 3].flatMap (fun i => [1, 2, 3].map (tellAt 2 i .prepare "b")) ++
    [2, 3, 4].flatMap waitAhead ++ [tellAhead "report" 2, tellAhead "report" 3, tellAhead "empty" 4]

def newViewSent (call : Call) (list : List Request) : NewViewMessage :=
  { builtMessage (storedZero call) 2 with request := list }

theorem executedNull_visited : ∃ trace d, (deployment lagCluster).Run trace d ∧
    (∀ t ∈ trace, DeliversGenuine lagCluster t.before t.event.2) ∧ lagCluster.honest 2 ∧ lagCluster.honest 3 ∧
    ∃ call ∈ (d.server 2).calls, (storedZero call).viewChangeManager.newViewIsSent = false ∧
      (∀ pair ∈ viewChanges (storedZero call) 2, CreatedBy lagCluster trace pair.1 pair.2) ∧
      lagCluster.config.getMinDataReceiveNum ≤ viewSenders (storedZero call) 2 ∧
      ∃ r' list, (storedZero call).sendNewViewMsg call.env 2 = .ok (r', call.outcome.sent) ∧
        call.outcome.sent = [newViewOf (storedZero call) call.env 2 list] ∧
        (d.server 3).replica.processNewView (newViewEnv (newViewSent call list)) (newViewFrom 2) =
          .error .nullRequest := by
  obtain ⟨trace, d, run, genuine, call, made, unsent, told, enough, ⟨r', _⟩, ran, rfl, other, again, fails⟩ :=
    System.run_of_play (deploymentAct_sound lagCluster) (startDeployment_initial lagCluster) aheadOfFour
    (fun trace d => (∀ t ∈ trace, DeliversGenuine lagCluster t.before t.event.2) ∧
      ∃ call ∈ (d.server 2).calls, (storedZero call).viewChangeManager.newViewIsSent = false ∧
        (∀ pair ∈ viewChanges (storedZero call) 2, ToldBy lagCluster trace pair.1 pair.2) ∧
        3 ≤ viewSenders (storedZero call) 2 ∧
        ∃ p, (storedZero call).sendNewViewMsg call.env 2 = .ok p ∧ p.2 = call.outcome.sent ∧
          ∃ list, p.1.getPrepareMsg call.env (builtMessage (storedZero call) 2) true = .ok list ∧
            (d.server 3).replica.processNewView (newViewEnv (newViewSent call list)) (newViewFrom 2) =
              .error .nullRequest) (by decide +kernel)
  obtain ⟨list, listed, shown⟩ := sendNewViewMsg_spec unsent ran
  cases listed.symm.trans again
  exact ⟨trace, d, run, genuine, by decide, by decide, call, made, unsent,
    fun pair member => (told pair member).created, enough, r', other, ran, shown, fails⟩

end ResilientDB.Proof
