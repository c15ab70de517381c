import ResilientDB.Proof.FirstView
import ResilientDB.Proof.Deployment

namespace ResilientDB.Proof
open Model Library List

variable {cluster : Cluster} {d d' : Deployment} {event : Int × ServerEvent} {s s' : Server} {i j : Int}
  {trace : List (Transition Deployment (Int × ServerEvent))}

def Genuine (cluster : Cluster) (d : Deployment) (request : Request) : Prop :=
  request.type = .newTxns ∨ request.senderId ∈ cluster.byzantine ∨ request ∈ d.sent request.senderId
deriving Decidable

def DeliversGenuine (cluster : Cluster) (d : Deployment) : ServerEvent → Prop
  | .process envs buff => ∀ receipt ∈ receive (envs 0) buff,
      receipt.request.isRecovery = false ∧ Genuine cluster d receipt.request
  | _ => True

instance (cluster : Cluster) (d : Deployment) (event : ServerEvent) : Decidable (DeliversGenuine cluster d event) :=
  match event with
  | .process envs buff => inferInstanceAs (Decidable (∀ receipt ∈ receive (envs 0) buff, _))
  | .takeMessage | .passNext | .executeMessage _ | .updateRecentHash _ | .updateCheckPointStatus _
  | .updateStableCheckPointStatus _ | .monitorTimeout _ | .monitorCheckpointState =>
    inferInstanceAs (Decidable True)

structure Provenance (cluster : Cluster) (d : Deployment) : Prop where
  outside : ∀ i, ¬ cluster.honest i → d.sent i = []
  votes : ∀ i, ∀ vote ∈ d.sent i, IsVote vote →
    ∃ call ∈ (d.server i).calls, vote ∈ call.outcome.sent.filterMap Outgoing.request?
  received : ∀ i, cluster.honest i → ∀ receipt ∈ (d.server i).received,
    receipt.request.isRecovery = false ∧ Genuine cluster d receipt.request

theorem monitorTimeout_sent {r r' : Replica} {env : Env} {sent : List Outgoing} {message : Request}
    (ran : r.monitorTimeout env = .ok (r', sent)) (member : message ∈ sent.filterMap Outgoing.request?) :
    message.type = .viewchange := by
  have fires : sent ≠ [] := by
    rintro rfl
    cases member
  obtain ⟨_, always⟩ := monitorTimeout_any ran fires
  obtain ⟨r'', again⟩ := always env
  rw [ran] at again
  cases again
  cases mem_singleton.mp member
  rfl

theorem sends_votes (step : s.react event.2 = .ok (some s')) {vote : Request}
    (member : vote ∈ (s.sends event.2).filterMap Outgoing.request?) (isVote : IsVote vote) :
    ∃ call ∈ s'.calls, vote ∈ call.outcome.sent.filterMap Outgoing.request? := by
  unfold IsVote at isVote
  have acted : (server s.replica.config).step s event.2 s' := step
  rcases server_step acted with ⟨envs, buff, progress, ret, kind, ran, rfl⟩ | ⟨r, moved, -⟩
  · rw [kind] at member
    simp only [Server.sends, ran, mem_filterMap, mem_flatMap] at member
    obtain ⟨outgoing, ⟨call, made, inside⟩, same⟩ := member
    exact ⟨call, mem_append_right _ made, mem_filterMap.mpr ⟨outgoing, inside, same⟩⟩
  · exfalso
    generalize event.2 = thread at moved member
    cases moved with
    | executeMessage env =>
      rw [Server.sends, executeMessage_sent] at member
      cases member
    | updateCheckPointStatus env =>
      have type := updateCheckPointStatus_sent member
      simp [type] at isVote
    | monitorTimeout env ran =>
      simp only [Server.sends, ran] at member
      have type := monitorTimeout_sent ran member
      simp [type] at isVote
    | _ => cases member

theorem sent_setServer (d : Deployment) (i : Int) (s : Server) (sent : List Outgoing) (j : Int) :
    d.sent j ⊆ (d.setServer i s sent).sent j := by
  by_cases here : j = i
  · subst here
    simp only [Deployment.setServer, Function.update_self]
    exact subset_append_left _ _
  · simp only [Deployment.setServer, Function.update_of_ne here]
    exact List.Subset.refl _

theorem Genuine.mono {request : Request} (genuine : Genuine cluster d request) (more : ∀ i, d.sent i ⊆ d'.sent i) :
    Genuine cluster d' request := by
  rcases genuine with client | faulty | sent
  · exact .inl client
  · exact .inr (.inl faulty)
  · exact .inr (.inr (more _ sent))

theorem Provenance.step (before : Provenance cluster d) (step : (deployment cluster).step d event d')
    (delivers : DeliversGenuine cluster d event.2) : Provenance cluster d' := by
  obtain ⟨honest, s, ran, rfl⟩ := step
  have more := sent_setServer d event.1 s ((d.server event.1).sends event.2)
  have acted : (server (cluster.configOf event.1)).step (d.server event.1) event.2 s := ran
  have calls : (d.server event.1).calls ⊆ s.calls := by
    rcases server_step acted with ⟨envs, buff, progress, ret, -, -, rfl⟩ | ⟨r, -, rfl⟩
    · exact subset_append_left _ _
    · exact List.Subset.refl _
  refine ⟨fun i dishonest => ?_, fun i vote member isVote => ?_, fun i good receipt member => ?_⟩
  · have other : i ≠ event.1 := fun same => dishonest (same ▸ honest)
    simp only [Deployment.setServer, Function.update_of_ne other]
    exact before.outside i dishonest
  · by_cases here : i = event.1
    · subst here
      simp only [Deployment.setServer, Function.update_self] at member ⊢
      rcases mem_append.mp member with old | new
      · obtain ⟨call, made, inside⟩ := before.votes _ vote old isVote
        exact ⟨call, calls made, inside⟩
      · exact sends_votes ran new isVote
    · simp only [Deployment.setServer, Function.update_of_ne here] at member ⊢
      exact before.votes i vote member isVote
  · have known : receipt ∈ (d.server i).received ∨
        receipt.request.isRecovery = false ∧ Genuine cluster d receipt.request := by
      by_cases here : i = event.1
      · subst here
        simp only [Deployment.setServer, Function.update_self] at member
        rcases server_step acted with ⟨envs, buff, progress, ret, kind, -, rfl⟩ | ⟨r, -, rfl⟩
        · rcases mem_append.mp member with old | new
          · exact .inl old
          · rw [kind] at delivers
            exact .inr (delivers receipt (Option.mem_toList.mp new))
        · exact .inl member
      · simp only [Deployment.setServer, Function.update_of_ne here] at member
        exact .inl member
    rcases known with old | ⟨fresh, genuine⟩
    · obtain ⟨fresh, genuine⟩ := before.received i good receipt old
      exact ⟨fresh, genuine.mono more⟩
    · exact ⟨fresh, genuine.mono more⟩

theorem provenance_run (run : (deployment cluster).Run trace d)
    (delivers : ∀ t ∈ trace, DeliversGenuine cluster t.before t.event.2) : Provenance cluster d := by
  refine run.invariant (fun t => DeliversGenuine cluster t.before t.event.2) (Provenance cluster) ?_ ?_ delivers
  · rintro d ⟨first, sent⟩
    refine ⟨fun i _ => congrFun sent i, fun i vote member => ?_, fun i honest receipt member => ?_⟩
    · rw [sent] at member
      cases member
    · obtain ⟨outOfOrder, needResponse, needQc, same⟩ := first i honest
      rw [same] at member
      cases member
  · intro d event d' before step delivers
    exact before.step step delivers

theorem Provenance.call (provenance : Provenance cluster d) (run : (deployment cluster).Run trace d)
    (honest : cluster.honest i) {call : Call} (made : call ∈ (d.server i).calls) :
    call.request.isRecovery = false ∧ Genuine cluster d call.request := by
  obtain ⟨receipt, received, same⟩ := (server_accounted (deployment_local run honest)).calls call made
  have handled : receipt.request = call.request := congrArg Prod.snd same
  rw [← handled]
  exact provenance.received i honest receipt received

variable {r r' : Replica} {env : Env} {message : NewViewMessage} {s : Nat} {hash hash' : String} {phase : RequestType}

-- No number above the capacity of the ring, no checkpoint, and no honest replica is impersonated.
structure FirstWindow (cluster : Cluster) (trace : List (Transition Deployment (Int × ServerEvent))) (d : Deployment) :
    Prop where
  run : (deployment cluster).Run trace d
  enabled : cluster.config.enableViewchange = true
  delivers : ∀ t ∈ trace, DeliversGenuine cluster t.before t.event.2
  undisturbed : ∀ t ∈ trace, Undisturbed cluster.config (t.before.server t.event.1).replica t.event.2
  within : ∀ i, cluster.honest i → ∀ call ∈ (d.server i).calls, WithinWindow cluster.config call

structure ForwardOnly (cluster : Cluster) (trace : List (Transition Deployment (Int × ServerEvent))) (d : Deployment) :
    Prop where
  small : Counts (capacityOf cluster.config)
  noWrap : ∀ t ∈ trace, NoWrap (t.before.server t.event.1).replica t.event.2
  newViews : ∀ i, cluster.honest i → ∀ call ∈ (d.server i).calls, MovesOn call

theorem FirstWindow.provenance (window : FirstWindow cluster trace d) : Provenance cluster d :=
  provenance_run window.run window.delivers

theorem FirstWindow.firstView (window : FirstWindow cluster trace d) (forward : ForwardOnly cluster trace d)
    (honest : cluster.honest i) :
    FirstView (cluster.configOf i) (localTrace i trace) (d.server i).replica (d.server i).calls := by
  refine firstView_run (deployment_local window.run honest) window.enabled forward.small (fun call made => ?_)
    fun t member => ?_
  · obtain ⟨phase, newView⟩ := window.within i honest call made
    obtain ⟨fresh, -⟩ := window.provenance.call window.run honest made
    exact ⟨fresh, ⟨phase, newView⟩, forward.newViews i honest call made⟩
  · obtain ⟨u, inside, rfl, rfl⟩ := mem_localTrace member
    have undisturbed := window.undisturbed u inside
    refine ⟨?_, forward.noWrap u inside⟩
    dsimp only
    generalize u.event.2 = event at undisturbed
    cases event <;> exact undisturbed

theorem FirstWindow.heard (window : FirstWindow cluster trace d) (honest : cluster.honest i)
    (isVote : phase = .prepare ∨ phase = .commit) (heard : HeardFirst (d.server i).calls phase s hash j) :
    j ∈ cluster.ids ∧ (cluster.honest j → SentFirst (d.server j).calls phase s hash) := by
  obtain ⟨call, made, voted, rfl⟩ := heard
  have provenance := window.provenance
  obtain ⟨-, client | faulty | sent⟩ := provenance.call window.run honest made
  · rw [voted.type] at client
    simp [client] at isVote
  · exact ⟨mem_toFinset.mpr (cluster.members _ faulty), fun good => absurd faulty good.2⟩
  · have good : cluster.honest call.request.senderId := by
      by_contra dishonest
      rw [provenance.outside _ dishonest] at sent
      cases sent
    refine ⟨good.1, fun _ => ?_⟩
    obtain ⟨own, done, inside⟩ := provenance.votes _ _ sent (by unfold IsVote; rwa [voted.type])
    exact ⟨own, done, call.request, inside, voted⟩

def VotedFirst (cluster : Cluster) (d : Deployment) (phase : RequestType) (s : Nat) (hash : String) : Prop :=
  ∃ voters, (quorums cluster).quorum voters ∧ ∀ j ∈ voters, cluster.honest j → SentFirst (d.server j).calls phase s hash

theorem FirstWindow.quorate (window : FirstWindow cluster trace d) (honest : cluster.honest i)
    (isVote : phase = .prepare ∨ phase = .commit)
    (quorate : Quorate (cluster.configOf i) (d.server i).calls phase s hash) : VotedFirst cluster d phase s hash := by
  obtain ⟨voters, enough, heard⟩ := quorate
  have known (j : Int) (member : j ∈ voters) := window.heard honest isVote (heard j member)
  exact ⟨voters, ⟨fun j member => (known j member).1, enough⟩, fun j member => (known j member).2⟩

theorem same_prepared (window : FirstWindow cluster trace d) (forward : ForwardOnly cluster trace d)
    (left : VotedFirst cluster d .prepare s hash) (right : VotedFirst cluster d .prepare s hash') : hash' = hash := by
  obtain ⟨voters, quorum, sent⟩ := left
  obtain ⟨voters', quorum', sent'⟩ := right
  obtain ⟨j, member, member', honest⟩ := (quorums cluster).common _ _ quorum quorum'
  exact (window.firstView forward honest).once s hash hash' (sent j member honest) (sent' j member' honest)

def CreatedBy (cluster : Cluster) (trace : List (Transition Deployment (Int × ServerEvent))) (key : Nat)
    (message : ViewChangeMessage) : Prop :=
  ∃ j, toUInt32 j = key ∧ cluster.honest j ∧ message.viewNumber = 2 ∧ Created (localTrace j trace) message

def viewChanges (r : Replica) (view : Nat) : List (Nat × ViewChangeMessage) :=
  ((r.viewChangeManager.viewchangeRequest.find? view).getD .empty).entries

theorem builtMessage_entries {entry : PreparedMessage} {view : Nat} :
    entry ∈ preparedEntries (builtMessage r view) ↔ ∃ pair ∈ viewChanges r view, entry ∈ pair.2.preparedMsg := by
  simp [preparedEntries, builtMessage, viewChanges]

theorem viewChanges_creators (created : ∀ pair ∈ viewChanges r 2, CreatedBy cluster trace pair.1 pair.2)
    (enough : cluster.config.getMinDataReceiveNum ≤ viewSenders r 2) :
    ∃ creators, (quorums cluster).quorum creators ∧ ∀ j ∈ creators, cluster.honest j ∧
      ∃ pair ∈ viewChanges r 2, pair.2.viewNumber = 2 ∧ Created (localTrace j trace) pair.2 := by
  have keys : ((viewChanges r 2).map Prod.fst).Nodup := by
    rw [List.Nodup, pairwise_map]
    exact (((r.viewChangeManager.viewchangeRequest.find? 2).getD .empty).sorted).imp fun less => less.ne
  have named : ∀ key ∈ ((viewChanges r 2).map Prod.fst).toFinset, ∃ j, toUInt32 j = key ∧ cluster.honest j ∧
      ∃ pair ∈ viewChanges r 2, pair.2.viewNumber = 2 ∧ Created (localTrace j trace) pair.2 := by
    intro key member
    obtain ⟨pair, inside, rfl⟩ := mem_map.mp (mem_toFinset.mp member)
    obtain ⟨j, same, honest, view, made⟩ := created pair inside
    exact ⟨j, same, honest, pair, inside, view, made⟩
  obtain ⟨creators, size, all⟩ := exists_card_of_labels named
  refine ⟨creators, ⟨fun j member => (all j member).1.1, ?_⟩, all⟩
  rw [toFinset_card_of_nodup keys, length_map] at size
  exact enough.trans size.le

section

variable (window : FirstWindow cluster trace d) (forward : ForwardOnly cluster trace d)
  (created : ∀ pair ∈ viewChanges r 2, CreatedBy cluster trace pair.1 pair.2)
include window forward created

theorem FirstWindow.entries {entry : PreparedMessage} (member : entry ∈ preparedEntries (builtMessage r 2)) :
    entry.seq ≤ capacityOf cluster.config ∧ entry.proof ≠ [] ∧ ∃ hash,
      (∀ proof ∈ entry.proof, proof.request.hash = hash) ∧ VotedFirst cluster d .prepare entry.seq hash := by
  obtain ⟨pair, inside, prepared⟩ := builtMessage_entries.mp member
  obtain ⟨j, -, honest, view, made⟩ := created pair inside
  obtain ⟨-, reports⟩ := (window.firstView forward honest).reports pair.2 made view
  obtain ⟨most, proofs, hash, all, quorate⟩ := reports.entries entry prepared
  exact ⟨most, proofs, hash, all, window.quorate honest (.inl rfl) quorate⟩

theorem FirstWindow.reported (enough : cluster.config.getMinDataReceiveNum ≤ viewSenders r 2) (least : 1 ≤ s)
    (committed : VotedFirst cluster d .commit s hash) :
    entriesFor (builtMessage r 2) s ≠ [] ∧
      ∀ entry ∈ entriesFor (builtMessage r 2) s, ∀ proof ∈ entry.proof, proof.request.hash = hash := by
  obtain ⟨voters, quorum, sent⟩ := committed
  obtain ⟨creators, quorum', creates⟩ := viewChanges_creators created enough
  obtain ⟨j, member, member', honest⟩ := (quorums cluster).common _ _ quorum quorum'
  obtain ⟨-, pair, inside, view, made⟩ := creates j member'
  obtain ⟨-, reports⟩ := (window.firstView forward honest).reports pair.2 made view
  obtain ⟨entry, prepared, here, all⟩ := reports.covers s hash (sent j member honest) least
  have listed := builtMessage_entries.mpr ⟨pair, inside, prepared⟩
  have found : entry ∈ entriesFor (builtMessage r 2) s := mem_filter.mpr ⟨listed, by simpa using here⟩
  have voted {other : PreparedMessage} (member : other ∈ entriesFor (builtMessage r 2) s) : other.proof ≠ [] ∧
      ∃ hash, (∀ proof ∈ other.proof, proof.request.hash = hash) ∧ VotedFirst cluster d .prepare s hash := by
    obtain ⟨isEntry, seq⟩ := mem_filter.mp member
    have seq : other.seq = s := by simpa using seq
    rw [← seq]
    exact (window.entries forward created isEntry).2
  refine ⟨ne_nil_of_mem found, fun other member => ?_⟩
  obtain ⟨proofs, own, allOwn, prepares⟩ := voted found
  obtain ⟨-, others, allOthers, prepares'⟩ := voted member
  obtain ⟨proof, first⟩ := exists_mem_of_ne_nil _ proofs
  have same : own = hash := (allOwn proof first).symm.trans (all proof first)
  rw [← same, ← same_prepared window forward prepares prepares']
  exact allOthers

end

theorem first_view_change_keeps_commits (window : FirstWindow cluster trace d) (forward : ForwardOnly cluster trace d)
    (honest : cluster.honest i) {call : Call} (made : call ∈ (d.server i).calls) (least : 1 ≤ s)
    (moves : MovesFirst call s hash) (created : ∀ pair ∈ viewChanges r 2, CreatedBy cluster trace pair.1 pair.2)
    (enough : cluster.config.getMinDataReceiveNum ≤ viewSenders r 2)
    (unsent : r.viewChangeManager.newViewIsSent = false) (env : Env) :
    ∃ r' list, r.sendNewViewMsg env 2 = .ok (r', [newViewOf r env 2 list]) ∧ (∃ request ∈ list, request.seq = s) ∧
      ∀ request ∈ list, request.seq = s → request.type = .commit ∧ request.hash = hash := by
  have quorate := (window.firstView forward honest).executed call made s hash moves
  obtain ⟨prepared, all⟩ := window.reported forward created enough least (window.quorate honest (.inr rfl) quorate)
  have heads : ∀ entry ∈ preparedEntries (builtMessage r 2), headRequest entry ≠ none := by
    intro entry member
    obtain ⟨-, proofs, -⟩ := window.entries forward created member
    simpa [headRequest] using proofs
  have stable : Replica.minStable (builtMessage r 2) = 0 := by
    refine minStable_zero ?_ fun msg member => ?_
    · intro none
      unfold entriesFor preparedEntries at prepared
      rw [none] at prepared
      exact prepared rfl
    · obtain ⟨pair, inside, rfl⟩ := mem_map.mp member
      obtain ⟨j, -, good, view, created⟩ := created pair inside
      exact ((window.firstView forward good).reports pair.2 created view).2.stable
  have fits : lastRedo (builtMessage r 2) ≠ maxUInt64 := by
    obtain ⟨-, entry, member, last⟩ := lastRedo_spec prepared
    have most := (window.entries forward created member).1
    have small := forward.small
    unfold Counts at small
    unfold maxUInt64
    omega
  obtain ⟨r', sent, ran⟩ := sendNewViewMsg_total unsent heads fits env
  obtain ⟨list, listed, rfl⟩ := sendNewViewMsg_spec unsent ran
  exact ⟨r', list, ran, redo_unanimous listed (by rw [firstRedo, stable]; exact least) prepared all⟩

def WindowKept (cluster : Cluster) (trace : List (Transition Deployment (Int × ServerEvent))) (d : Deployment) : Prop :=
  (∀ t ∈ trace, DeliversGenuine cluster t.before t.event.2 ∧
    Undisturbed cluster.config (t.before.server t.event.1).replica t.event.2) ∧
  ∀ i ∈ cluster.ids, ∀ call ∈ (d.server i).calls,
    (IsPhase call.request.type → call.request.seq ≤ capacityOf cluster.config) ∧
      (call.request.type = .newview → ∀ message ∈ call.env.codec.parseNewView call.request.data,
        ∀ request ∈ message.request, request.seq ≤ capacityOf cluster.config)
deriving Decidable

theorem WindowKept.firstWindow (kept : WindowKept cluster trace d) (run : (deployment cluster).Run trace d)
    (enabled : cluster.config.enableViewchange = true) : FirstWindow cluster trace d := by
  refine ⟨run, enabled, fun t member => (kept.1 t member).1, fun t member => (kept.1 t member).2,
    fun i honest call made => ?_⟩
  obtain ⟨phase, newView⟩ := kept.2 i honest.1 call made
  exact ⟨phase, fun message type parsed _ => newView type message parsed⟩

def ToldBy (cluster : Cluster) (trace : List (Transition Deployment (Int × ServerEvent))) (key : Nat)
    (message : ViewChangeMessage) : Prop :=
  ∃ j ∈ cluster.ids, toUInt32 j = key ∧ cluster.honest j ∧ message.viewNumber = 2 ∧ Told (localTrace j trace) message
deriving Decidable

theorem ToldBy.created {key : Nat} {message : ViewChangeMessage} (told : ToldBy cluster trace key message) :
    CreatedBy cluster trace key message := by
  obtain ⟨j, -, same, honest, view, told⟩ := told
  exact ⟨j, same, honest, view, told.created⟩

def viewCluster : Cluster where
  config := { fourReplicas with enableViewchange := true }
  view := 1
  byzantine := {1}
  distinct := by decide
  fits := by decide
  size := by decide
  members := by decide
  bound := by decide

def firstVote (phase : RequestType) (hash : String) (sender : Int) : Request where
  type := phase
  seq := 1
  currentView := 1
  hash := hash
  senderId := sender
  dataSignature := if phase = .commit then some {} else none

def reportOf (hash : String) : ViewChangeMessage where
  viewNumber := 2
  preparedMsg := [⟨1, [1, 2, 3].map fun i => ⟨firstVote .prepare hash i, ⟨i, "signature"⟩⟩⟩]

def oldCommits (hash : String) : NewViewMessage where
  viewNumber := 2
  request := [3, 4].map (firstVote .commit hash)

def reportEnv (hash : String) : Env :=
  { plainEnv with codec := { plainEnv.codec with
      serializeViewChange := fun message => if message = viewChangeZero then "empty" else "report"
      parseViewChange := fun data => some (if data = "empty" then viewChangeZero else reportOf hash)
      parseNewView := fun _ => some (oldCommits "b") } }

def tell (i : Int) (phase : RequestType) (hash : String) (sender : Int) : Int × ServerEvent :=
  hearFrom i plainEnv sender (firstVote phase hash sender)

def waitInVain (hash : String) (i : Int) : List (Int × ServerEvent) :=
  [hearFrom i plainEnv 5 { type := .newTxns, hash := "c", senderId := 5 }, (i, .monitorTimeout (reportEnv hash))]

def tellView (i : Int) (hash data : String) (sender : Int) : Int × ServerEvent :=
  hearFrom i (reportEnv hash) sender { type := .viewchange, data := data, senderId := sender }

def prepareFirst (hash : String) : List (Int × ServerEvent) :=
  [tell 2 .prePrepare hash 1, tell 3 .prePrepare hash 1] ++ [1, 2, 3].map (tell 2 .prepare hash)

def commitFirst : List (Int × ServerEvent) :=
  prepareFirst "a" ++ [1, 2, 3].map (tell 3 .prepare "a") ++ [1, 2, 3].map (tell 2 .commit "a") ++
    [2, 3, 4].flatMap (waitInVain "a") ++ [tellView 2 "a" "report" 3, tellView 2 "a" "empty" 4]

theorem firstCommit_kept : ∃ trace d, FirstWindow viewCluster trace d ∧ ForwardOnly viewCluster trace d ∧
    (∃ call ∈ (d.server 2).calls, MovesFirst call 1 "a") ∧
    ∃ r' list, (storeView (d.server 2).replica (reportOf "a") 2).sendNewViewMsg plainEnv 2 =
        .ok (r', [newViewOf (storeView (d.server 2).replica (reportOf "a") 2) plainEnv 2 list]) ∧
      (∃ request ∈ list, request.seq = 1) ∧
      ∀ request ∈ list, request.seq = 1 → request.type = .commit ∧ request.hash = "a" := by
  obtain ⟨trace, d, run, kept, noWrap, noNewView, ⟨call, made, moves⟩, told, enough, unsent⟩ :=
    System.run_of_play (deploymentAct_sound viewCluster) (startDeployment_initial viewCluster) commitFirst
    (fun trace d => WindowKept viewCluster trace d ∧
      (∀ t ∈ trace, NoWrap (t.before.server t.event.1).replica t.event.2) ∧
      (∀ i ∈ viewCluster.ids, ∀ call ∈ (d.server i).calls, call.request.type ≠ .newview) ∧
      (∃ call ∈ (d.server 2).calls, MovesFirst call 1 "a") ∧
      (∀ pair ∈ viewChanges (storeView (d.server 2).replica (reportOf "a") 2) 2,
        ToldBy viewCluster trace pair.1 pair.2) ∧
      3 ≤ viewSenders (storeView (d.server 2).replica (reportOf "a") 2) 2 ∧
      (storeView (d.server 2).replica (reportOf "a") 2).viewChangeManager.newViewIsSent = false) (by decide +kernel)
  have window := kept.firstWindow run rfl
  have forward : ForwardOnly viewCluster trace d :=
    ⟨by decide, noWrap, fun i honest call made message type => absurd type (noNewView i honest.1 call made)⟩
  refine ⟨trace, d, window, forward, ⟨call, made, moves⟩, ?_⟩
  exact first_view_change_keeps_commits window forward (i := 2) (by decide) made le_rfl moves
    (fun pair member => (told pair member).created) enough unsent plainEnv

def tellNewView (i : Int) : Int × ServerEvent := hearFrom i (reportEnv "g") 1 { type := .newview, senderId := 1 }

def commitAnother : List (Int × ServerEvent) :=
  prepareFirst "g" ++ [3, 4].flatMap (waitInVain "g") ++ [tellNewView 3, tellNewView 4] ++
    [1, 3, 4].map (tell 2 .commit "b") ++ waitInVain "g" 2 ++
    [tellView 2 "g" "empty" 3, tellView 2 "g" "empty" 4, tellView 2 "g" "report" 2]

def lastStored (call : Call) : Replica := storeView call.before (reportOf "g") 2

def AsksForEarlier (call : Call) : Prop :=
  ∃ p, (lastStored call).sendNewViewMsg call.env 2 = .ok p ∧ p.2 = call.outcome.sent ∧
    ∃ list, p.1.getPrepareMsg call.env (builtMessage (lastStored call) 2) true = .ok list ∧
      ∃ request ∈ list, request.seq = 1 ∧ request.type = .commit ∧ request.hash = "g"
deriving Decidable

theorem earlierPrepare_kept : ∃ trace d, FirstWindow viewCluster trace d ∧ viewCluster.honest 2 ∧
    (∃ call ∈ (d.server 2).calls, MovesFirst call 1 "b") ∧
    ∃ call ∈ (d.server 2).calls, (lastStored call).viewChangeManager.newViewIsSent = false ∧
      (∀ pair ∈ viewChanges (lastStored call) 2, CreatedBy viewCluster trace pair.1 pair.2) ∧
      viewCluster.config.getMinDataReceiveNum ≤ viewSenders (lastStored call) 2 ∧
      ∃ r' list, (lastStored call).sendNewViewMsg call.env 2 = .ok (r', call.outcome.sent) ∧
        call.outcome.sent = [newViewOf (lastStored call) call.env 2 list] ∧
        ∃ request ∈ list, request.seq = 1 ∧ request.type = .commit ∧ request.hash = "g" := by
  obtain ⟨trace, d, run, kept, moved, call, made, unsent, told, enough, ⟨r', _⟩, ran, rfl, other, again, found⟩ :=
    System.run_of_play (deploymentAct_sound viewCluster) (startDeployment_initial viewCluster) commitAnother
    (fun trace d => WindowKept viewCluster trace d ∧ (∃ call ∈ (d.server 2).calls, MovesFirst call 1 "b") ∧
      ∃ call ∈ (d.server 2).calls, (lastStored call).viewChangeManager.newViewIsSent = false ∧
        (∀ pair ∈ viewChanges (lastStored call) 2, ToldBy viewCluster trace pair.1 pair.2) ∧
        3 ≤ viewSenders (lastStored call) 2 ∧ AsksForEarlier call) (by decide +kernel)
  obtain ⟨list, listed, shown⟩ := sendNewViewMsg_spec unsent ran
  cases listed.symm.trans again
  exact ⟨trace, d, kept.firstWindow run rfl, by decide, moved, call, made, unsent,
    fun pair member => (told pair member).created, enough, r', other, ran, shown, found⟩

end ResilientDB.Proof
