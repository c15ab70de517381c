import ResilientDB.Proof.Counter

namespace ResilientDB.Proof
open Model Library List

variable {config : ResDBConfig} {r r' : Replica} {env : Env} {call : Call} {calls : List Call}
  {past : List (Transition Server ServerEvent)} {s s' : Server} {outcome : Outcome} {envs : Nat → Env} {buff : String}
  {progress : Progress} {ret sender : Int} {trace : List (Transition Server ServerEvent)} {next : Replica}

def AcceptsView (call : Call) : Prop := call.request.type = .newview ∧ call.outcome.ret ≠ -2
deriving Decidable

structure Advances (config : ResDBConfig) (call : Call) : Prop where
  config : call.before.config = config
  monotone : call.before.getCurrentView ≤ call.outcome.replica.getCurrentView
  strict : AcceptsView call → call.before.getCurrentView < call.outcome.replica.getCurrentView

def InStep (config : ResDBConfig) (r : Replica) : Prop :=
  r.systemInfo.primaryId = toUInt32 (config.primaryOf r.getCurrentView)

structure SteadyView (config : ResDBConfig) (past : List (Transition Server ServerEvent)) (r : Replica)
    (calls : List Call) : Prop where
  fixed : r.config = config
  least : 1 ≤ counter r
  most : counter r ≤ 1 + timeouts past
  positive : 1 ≤ r.getCurrentView
  small : r.getCurrentView < 2 ^ 63
  primary : InStep config r
  calls : ∀ call ∈ calls, Advances config call

theorem handling_systemInfo {context : Context} {request : Request}
    (handling : Handling r env context request outcome) (other : request.type ≠ .newview) :
    outcome.replica.systemInfo = r.systemInfo := by
  cases handling with
  | newView type _ => exact absurd type other
  | _ => rfl

theorem call_systemInfo (ran : Ran call) :
    (¬ AcceptsView call ∧ call.outcome.replica.systemInfo = call.before.systemInfo) ∨
      AcceptsView call ∧
      call.outcome.replica.getCurrentView = addUInt64 call.before.getCurrentView (counter call.before) ∧
        InStep call.before.config call.outcome.replica := by
  have handling := commit_handling ran
  by_cases type : call.request.type = .newview
  · have changed : call.before.processNewView call.env call.request = .ok call.outcome := by
      unfold Ran Replica.internalConsensusCommit at ran
      rw [type] at ran
      exact ran
    rcases processNewView_spec (processNewView_viewing changed) with
      ⟨same, -⟩ | ⟨message, list, maxSeq, -, accepted, installed⟩
    · refine .inl ⟨fun accepts => accepts.2 ?_, ?_⟩
      · rw [same]
      · rw [same]
    · refine .inr ⟨⟨type, installed.ret⟩, installed.view.trans accepted.view, ?_⟩
      unfold InStep
      rw [installed.view]
      exact Int.ofNat_inj.mp installed.primary
  · exact .inl ⟨fun accepts => type accepts.1, handling_systemInfo handling type⟩

theorem SteadyView.called (steady : SteadyView config past call.before calls) (few : timeouts past < 2 ^ 32 - 1)
    (ran : Ran call) (small : call.outcome.replica.getCurrentView < 2 ^ 63) :
    SteadyView config past call.outcome.replica (calls ++ [call]) := by
  have same := handling_counter (commit_handling ran)
  have least := steady.least
  have most := steady.most
  have before := steady.small
  have info := call_systemInfo ran
  have moves : call.before.getCurrentView ≤ call.outcome.replica.getCurrentView ∧
      (AcceptsView call → call.before.getCurrentView < call.outcome.replica.getCurrentView) := by
    rcases info with ⟨refused, same⟩ | ⟨-, view, -⟩
    · have still : call.outcome.replica.getCurrentView = call.before.getCurrentView := congrArg SystemInfo.view same
      exact ⟨still.ge, fun accepts => absurd accepts refused⟩
    · unfold addUInt64 at view
      omega
  refine ⟨(ran_config ran).trans steady.fixed, by omega, by omega, steady.positive.trans moves.1, small, ?_, ?_⟩
  · rcases info with ⟨-, same⟩ | ⟨-, -, inStep⟩
    · have primary := steady.primary
      unfold InStep Replica.getCurrentView at primary ⊢
      rw [same]
      exact primary
    · exact steady.fixed ▸ inStep
  · exact forall_mem_snoc.mpr ⟨steady.calls, ⟨steady.fixed, moves.1, moves.2⟩⟩

theorem timeouts_cons (past : List (Transition Server ServerEvent)) (t : Transition Server ServerEvent) :
    timeouts (t :: past) = timeouts past + if handles t then 1 else 0 := countP_cons

theorem SteadyView.thread {event : ServerEvent} (steady : SteadyView config past s.replica s.calls)
    (moved : Background s.replica event r') (few : timeouts (⟨s, event, s.setReplica r'⟩ :: past) < 2 ^ 32 - 1) :
    SteadyView config (⟨s, event, s.setReplica r'⟩ :: past) r' s.calls := by
  have same := moved.threaded
  have value : counter r' = if handles ⟨s, event, s.setReplica r'⟩ then nextCounter s.replica.viewChangeManager
      else counter s.replica := background_counter moved
  have count := timeouts_cons past ⟨s, event, s.setReplica r'⟩
  have least := steady.least
  have most := steady.most
  have bounds : 1 ≤ counter r' ∧ counter r' ≤ 1 + timeouts (⟨s, event, s.setReplica r'⟩ :: past) := by
    by_cases handled : handles ⟨s, event, s.setReplica r'⟩ = true
    · rw [if_pos handled] at value count
      unfold nextCounter at value
      unfold counter at *
      split at value <;> omega
    · rw [if_neg handled] at value count
      omega
  have view : r'.getCurrentView = s.replica.getCurrentView := congrArg SystemInfo.view same.systemInfo
  refine ⟨same.config.trans steady.fixed, bounds.1, bounds.2, ?_, ?_, ?_, steady.calls⟩
  · exact view ▸ steady.positive
  · exact view ▸ steady.small
  · unfold InStep
    rw [view, same.systemInfo]
    exact steady.primary

theorem SteadyView.process (steady : SteadyView config past r calls) (few : timeouts past < 2 ^ 32 - 1)
    (ran : r.process envs buff = .ok (progress, ret))
    (small : ∀ call ∈ progress.calls, call.outcome.replica.getCurrentView < 2 ^ 63) :
    r.getCurrentView ≤ progress.replica.getCurrentView ∧
      SteadyView config past progress.replica (calls ++ progress.calls) := by
  have shuffled (r' : Replica) (calls' : List Call) (pending complained : List (Context × Request)) (started : Bool)
      (before : r.getCurrentView ≤ r'.getCurrentView ∧ SteadyView config past r' calls') :
      r.getCurrentView ≤ (shuffle r' pending complained started).getCurrentView ∧
        SteadyView config past (shuffle r' pending complained started) calls' := by
    obtain ⟨later, steady⟩ := before
    exact ⟨later, steady.fixed, steady.least, steady.most, steady.positive, steady.small, steady.primary, steady.calls⟩
  have called (calls' : List Call) (call : Call)
      (before : r.getCurrentView ≤ call.before.getCurrentView ∧ SteadyView config past call.before calls')
      (ran : Ran call) (member : call ∈ progress.calls) :
      r.getCurrentView ≤ call.outcome.replica.getCurrentView ∧
        SteadyView config past call.outcome.replica (calls' ++ [call]) := by
    have next := before.2.called few ran (small call member)
    have moved := next.calls call (mem_append_right _ (mem_singleton_self _))
    exact ⟨before.1.trans moved.monotone, next⟩
  exact walk_invariant (process_walk ran) shuffled called ⟨le_rfl, steady⟩

theorem primaryOf_one : toUInt32 (config.replicas.head config.nonempty).id = toUInt32 (config.primaryOf 1) := by
  unfold ResDBConfig.primaryOf
  have index : addUInt64 1 maxUInt64 % config.getReplicaNum = 0 := by
    rw [show addUInt64 1 maxUInt64 = 0 by decide, Nat.zero_mod]
  have first : 0 < config.replicas.length := config.getReplicaNum_pos
  simp only [index]
  rw [head_eq_getElem, getD_eq_getElem _ _ first]

theorem steady_run (run : (server config).Run trace s)
    (few : timeouts trace < 2 ^ 32 - 1)
    (small : ∀ call ∈ s.calls, call.outcome.replica.getCurrentView < 2 ^ 63) :
    SteadyView config trace s.replica s.calls ∧
      ∀ t ∈ trace, t.before.replica.getCurrentView ≤ t.after.replica.getCurrentView := by
  induction run with
  | initial first =>
    obtain ⟨outOfOrder, needResponse, needQc, rfl⟩ := first
    have small : 1 < 2 ^ 63 := by decide
    exact ⟨⟨rfl, le_rfl, le_rfl, le_rfl, small, primaryOf_one, by simp⟩, by simp⟩
  | @next trace s s' event earlier step ih =>
    have count := timeouts_cons trace ⟨s, event, s'⟩
    rcases server_step step with ⟨envs, buff, progress, ret, rfl, ran, rfl⟩ | ⟨r, moved, rfl⟩
    · have quiet : timeouts (⟨s, .process envs buff, _⟩ :: trace) = timeouts trace := count
      rw [quiet] at few
      obtain ⟨steady, monotone⟩ := ih few fun call member => small call (mem_append_left _ member)
      obtain ⟨later, next⟩ := steady.process few ran fun call member => small call (mem_append_right _ member)
      refine ⟨⟨next.fixed, next.least, quiet ▸ next.most, next.positive, next.small, next.primary, next.calls⟩, ?_⟩
      exact forall_mem_cons.mpr ⟨later, monotone⟩
    · obtain ⟨steady, monotone⟩ := ih (by omega) small
      refine ⟨steady.thread moved few, forall_mem_cons.mpr ⟨?_, monotone⟩⟩
      exact moved.threaded.view.ge

def serverPart (trace : List (Transition Server NodeEvent)) : List (Transition Server ServerEvent) :=
  trace.filterMap fun t =>
    match t.event with
    | .server event => some ⟨t.before, event, t.after⟩
    | .heartBeat _ _ => none

theorem node_run {trace : List (Transition Server NodeEvent)} (replica : config.isClient = false)
    (run : (node config).Run trace s) : (server config).Run (serverPart trace) s ∧
      ∀ t ∈ trace, t.after.replica.getCurrentView = t.before.replica.getCurrentView ∨
        ∃ t' ∈ serverPart trace, t'.before = t.before ∧ t'.after = t.after := by
  induction run with
  | initial first => exact ⟨.initial first, by simp⟩
  | @next trace s s' event earlier step ih =>
    obtain ⟨ran, each⟩ := ih
    cases event with
    | server event =>
      refine ⟨ran.next step, forall_mem_cons.mpr ⟨.inr ⟨_, mem_cons_self, rfl, rfl⟩, fun t member => ?_⟩⟩
      rcases each t member with still | ⟨t', inside, before, after⟩
      · exact .inl still
      · exact .inr ⟨t', mem_cons_of_mem _ inside, before, after⟩
    | heartBeat inRegion info =>
      have same : s' = s := by
        have unchanged : (s.replica.processHeartBeat inRegion info).1 = s.replica := by
          have still : s.replica.config.isClient = false := by rw [server_config ran]; exact replica
          cases info <;> simp [Replica.processHeartBeat, still]
        rw [step, unchanged]
        rfl
      subst same
      exact ⟨ran, forall_mem_cons.mpr ⟨.inl rfl, each⟩⟩

theorem server_run_node (run : (server config).Run trace s) :
    ∃ trace', (node config).Run trace' s ∧ serverPart trace' = trace := by
  induction run with
  | initial first => exact ⟨[], .initial first, rfl⟩
  | @next trace s s' event earlier step ih =>
    obtain ⟨trace', ran, same⟩ := ih
    have took : (node config).step s (.server event) s' := step
    refine ⟨_, ran.next took, ?_⟩
    change _ :: serverPart trace' = _
    rw [same]

theorem primaryOf_eq (config : ResDBConfig) {view : Nat} (positive : 1 ≤ view) (small : view < 2 ^ 63) :
    ∃ info, config.replicas[(view - 1) % config.getReplicaNum]? = some info ∧ config.primaryOf view = info.id := by
  have inside : (view - 1) % config.getReplicaNum < config.replicas.length := Nat.mod_lt _ config.getReplicaNum_pos
  have index : addUInt64 view maxUInt64 = view - 1 := by
    unfold addUInt64 maxUInt64
    omega
  refine ⟨config.replicas[(view - 1) % config.getReplicaNum], getElem?_eq_getElem inside, ?_⟩
  unfold ResDBConfig.primaryOf
  rw [index]
  dsimp only
  rw [getD_eq_getElem _ _ inside]

theorem announces_primary {v : Nat} (ran : Ran call) (announces : Announces v call) :
    call.before.config.primaryOf v = call.before.config.selfId := by
  obtain ⟨type, message, list, parsed, rfl, sent⟩ := announces
  have changed : call.before.processViewChange call.env call.request = .ok call.outcome := by
    unfold Ran Replica.internalConsensusCommit at ran
    rw [type] at ran
    exact ran
  generalize call.outcome = outcome at sent changed
  cases processViewChange_changing changed with
  | announced parsed' _ _ _ primary _ =>
    rw [parsed] at parsed'
    cases parsed'
    simpa [Replica.isNextPrimary] using primary
  | _ => cases sent

theorem server_call_config (run : (server config).Run trace s) :
    ∀ call ∈ s.calls, call.before.config = config := by
  refine (server_invariant run (fun r calls => r.config = config ∧ ∀ call ∈ calls, call.before.config = config)
    ?_ ?_ ?_ ?_).2
  · exact fun _ _ _ => ⟨rfl, by simp⟩
  · exact fun _ _ _ _ _ same => same
  · rintro calls call ⟨same, each⟩ ran -
    refine ⟨(ran_config ran).trans same, ?_⟩
    exact forall_mem_snoc.mpr ⟨each, same⟩
  · exact fun _ _ _ before moved _ => ⟨moved.threaded.config.trans before.1, before.2⟩

theorem views_in_step {trace : List (Transition Server NodeEvent)} (replica : config.isClient = false)
    (run : (node config).Run trace s) (few : timeouts (serverPart trace) < 2 ^ 32 - 1)
    (small : ∀ call ∈ s.calls, call.outcome.replica.getCurrentView < 2 ^ 63) :
    (∀ t ∈ trace, t.before.replica.getCurrentView ≤ t.after.replica.getCurrentView) ∧
      (∀ call ∈ s.calls, call.before.getCurrentView ≤ call.outcome.replica.getCurrentView ∧
        (AcceptsView call → call.before.getCurrentView < call.outcome.replica.getCurrentView)) ∧
      (∃ info, config.replicas[(s.replica.getCurrentView - 1) % config.getReplicaNum]? = some info ∧
        s.replica.systemInfo.primaryId = toUInt32 info.id) ∧
      ∀ v, (∃ call ∈ s.calls, Announces v call) → ∀ (config' : ResDBConfig) trace' s',
        config'.replicas = config.replicas → config'.isClient = false → (node config').Run trace' s' →
        ∀ call ∈ s'.calls, AcceptsView call → call.outcome.replica.getCurrentView = v →
          call.outcome.replica.systemInfo.primaryId = toUInt32 config.selfId := by
  obtain ⟨ran, each⟩ := node_run replica run
  obtain ⟨steady, monotone⟩ := steady_run ran few small
  refine ⟨fun t member => ?_, fun call member => ?_, ?_, ?_⟩
  · rcases each t member with still | ⟨t', inside, before, after⟩
    · exact still.ge
    · exact before ▸ after ▸ monotone t' inside
  · have advances := steady.calls call member
    exact ⟨advances.monotone, advances.strict⟩
  · obtain ⟨info, there, same⟩ := primaryOf_eq config steady.positive steady.small
    exact ⟨info, there, steady.primary.trans (by rw [same])⟩
  · rintro v ⟨announcing, made, announces⟩ config' trace' s' same replica' run' call member accepts rfl
    have primary := announces_primary ((server_accounted ran).ran announcing made) announces
    rw [server_call_config ran announcing made] at primary
    have ran' := (node_run replica' run').1
    rcases call_systemInfo ((server_accounted ran').ran call member) with ⟨refused, -⟩ | ⟨-, -, inStep⟩
    · exact absurd accepts refused
    · rw [server_call_config ran' call member] at inStep
      unfold InStep at inStep
      rw [inStep, ← primary]
      unfold ResDBConfig.primaryOf ResDBConfig.getReplicaNum
      rw [same]

theorem viewTwo_adopted : ∃ trace s trace' s' call, (node (viewConfig 2)).Run trace s ∧
    (∃ announcing ∈ s.calls, Announces 2 announcing) ∧ (node (viewConfig 4)).Run trace' s' ∧ call ∈ s'.calls ∧
    AcceptsView call ∧ call.outcome.replica.getCurrentView = 2 ∧ call.outcome.replica.systemInfo.primaryId = 2 := by
  obtain ⟨trace, s, run, none, small, announcing, made, type, parsed, sent⟩ := exists_server_run (viewConfig 2) viewTwo
    (fun trace s => timeouts trace = 0 ∧ (∀ call ∈ s.calls, call.outcome.replica.getCurrentView < 2 ^ 63) ∧
      ∃ call ∈ s.calls, call.request.type = .viewchange ∧
        call.env.codec.parseViewChange call.request.data = some { viewNumber := 2 } ∧ call.outcome.sent =
          [newViewOf (storeView call.before { viewNumber := 2 } (toUInt32 call.request.senderId)) call.env 2 []])
    (by decide)
  obtain ⟨trace', s', run', call, member, accepts, two⟩ := exists_server_run (viewConfig 4)
    (threeViewChanges 2 ++ [newViewFor (nextNewView 2) 2])
    (fun _ s => ∃ call ∈ s.calls, AcceptsView call ∧ call.outcome.replica.getCurrentView = 2) (by decide)
  have announces : Announces 2 announcing := ⟨type, _, [], parsed, rfl, sent⟩
  obtain ⟨nodeTrace, nodeRun, part⟩ := server_run_node run
  obtain ⟨nodeTrace', nodeRun', -⟩ := server_run_node run'
  have adopted := (views_in_step rfl nodeRun (by rw [part, none]; decide) small).2.2.2 2 ⟨announcing, made, announces⟩
    (viewConfig 4) nodeTrace' s' rfl rfl nodeRun' call member accepts two
  exact ⟨nodeTrace, s, nodeTrace', s', call, nodeRun, ⟨announcing, made, announces⟩, nodeRun', member, accepts, two,
    adopted⟩

def replicaIn (status : ViewChangeStatus) (counter : Nat) (timers : List ViewChangeTimerType) : Replica :=
  (Replica.create (viewConfig 4)).setViewChangeManager
    { status := status, started := true, viewChangeCounter := counter
      viewchangeRequest := OrderedMap.empty.assign 2
        (((OrderedMap.empty.assign 1 viewChangeZero).assign 2 viewChangeZero).assign 3 viewChangeZero)
      viewchangeTimeoutMinHeap := OrderedMap.empty.assign 4 (timers.map fun type => ⟨type, 1, 4, "null", 0⟩) }

theorem replicaIn_sends (status : ViewChangeStatus) (counter : Nat) (timers : List ViewChangeTimerType) :
    (replicaIn status counter timers).sendViewChangeMsg plainEnv = .ok [.broadCast
      (viewChangeRequest (replicaIn status counter timers) plainEnv { viewNumber := addUInt64 1 counter })] := by
  have loop : int32Loop (toInt32 (addUInt64 0 1)) (toInt32 0) = .ok [] := by
    unfold int32Loop
    rw [if_neg (by decide)]
    rfl
  exact bind_eq_ok.mpr ⟨[], loop, rfl⟩

theorem replicaIn_expires (counter : Nat) :
    ∃ sent, (replicaIn .readyNewView counter [.newview]).monitorTimeout plainEnv =
      .ok (replicaIn .readyViewChange ((counter + 1) % 2 ^ 32) [.viewchange], sent) := by
  have running : ¬ ((replicaIn .readyNewView counter []).viewChangeManager.started = false ∨
      (replicaIn .readyNewView counter []).config.isClient = true) := by
    simp [replicaIn, Replica.setViewChangeManager, Replica.create, viewConfig, fourReplicas]
  have handled : ∃ sent, (replicaIn .readyNewView counter []).timeoutHandler plainEnv =
      .ok (replicaIn .readyViewChange ((counter + 1) % 2 ^ 32) [.viewchange], sent) := by
    rw [timeoutHandler_eq, if_neg running]
    exact ⟨_, bind_eq_ok.mpr ⟨_, replicaIn_sends .readyViewChange ((counter + 1) % 2 ^ 32) [.viewchange], rfl⟩⟩
  exact handled

def askEnv (sender : Int) : Env :=
  { plainEnv with
    address := 1
    codec := { plainEnv.codec with
      parseMessage := fun buff => some ⟨buff, some ⟨1, "signature"⟩⟩
      parseRequest := fun _ => some { type := .viewchange, senderId := sender }
      parseViewChange := fun _ => some viewChangeZero } }

def askedBy (sender : Int) : ServerEvent := .process (fun _ => askEnv sender) ""

structure Stays (r : Replica) (s : Server) : Prop where
  replica : s.replica = r
  calls : ∀ call ∈ s.calls, call.outcome.replica.getCurrentView = 1

theorem Stays.timeout {sent : List Outgoing} (stays : Stays r s)
    (ran : r.monitorTimeout plainEnv = .ok (next, sent)) :
    ∃ s', (server (viewConfig 4)).step s (.monitorTimeout plainEnv) s' ∧ Stays next s' := by
  obtain ⟨rfl, views⟩ := stays
  exact ⟨_, bind_eq_ok.mpr ⟨_, ran, rfl⟩, rfl, views⟩

theorem Stays.asked {counter : Nat} (stays : Stays (replicaIn .readyViewChange counter [.viewchange]) s) :
    ∃ s', (server (viewConfig 4)).step s (askedBy 1) s' ∧
      Stays (replicaIn .readyNewView counter [.viewchange, .newview]) s' := by
  obtain ⟨replica, received, calls⟩ := s
  obtain ⟨rfl, views⟩ := stays
  refine ⟨_, by with_unfolding_all exact rfl, rfl, fun call member => ?_⟩
  rcases mem_append.mp member with old | new
  · exact views call old
  · rw [mem_singleton.mp new]
    rfl

def waitingIn (counter : Nat) : Replica := replicaIn .readyNewView counter [.newview]

theorem waitingIn_reached : ∃ trace s, (server (viewConfig 4)).Run trace s ∧ Stays (waitingIn 1) s ∧
    timeouts trace = 0 := by
  have played : ∃ present, System.play serverAct ([], { replica := Replica.create (viewConfig 4) })
      ([1, 2, 3].map askedBy) = some present ∧ Stays (waitingIn 1) present.2 ∧ timeouts present.1 = 0 :=
    ⟨_, by with_unfolding_all exact rfl, ⟨rfl, by decide⟩, rfl⟩
  obtain ⟨present, played, stays, none⟩ := played
  exact ⟨_, _, System.Run.play (serverAct_sound _) (.initial (startServer_initial _)) played, stays, none⟩

theorem waitingIn_round {counter : Nat}
    (run : (server (viewConfig 4)).Run trace s) (stays : Stays (waitingIn counter) s) :
    ∃ trace' s', (server (viewConfig 4)).Run trace' s' ∧ Stays (waitingIn ((counter + 1) % 2 ^ 32)) s' ∧
      timeouts trace' = timeouts trace + 1 := by
  obtain ⟨sent, expired⟩ := replicaIn_expires counter
  obtain ⟨s₁, step₁, stays₁⟩ := stays.timeout expired
  obtain ⟨s₂, step₂, stays₂⟩ := stays₁.asked
  obtain ⟨s₃, step₃, stays₃⟩ : ∃ s', (server (viewConfig 4)).step s₂ (.monitorTimeout plainEnv) s' ∧
      Stays (waitingIn ((counter + 1) % 2 ^ 32)) s' := stays₂.timeout rfl
  refine ⟨_, s₃, ((run.next step₁).next step₂).next step₃, stays₃, ?_⟩
  have first : handles ⟨s, .monitorTimeout plainEnv, s₁⟩ = true := by
    unfold handles
    rw [stays.replica]
    rfl
  have third : handles ⟨s₂, .monitorTimeout plainEnv, s₃⟩ = false := by
    unfold handles
    rw [stays₂.replica]
    rfl
  rw [timeouts_cons, timeouts_cons, timeouts_cons, first, third]
  rfl

theorem waitingIn_rounds (rounds : Nat) : ∃ trace s, (server (viewConfig 4)).Run trace s ∧
    Stays (waitingIn ((1 + rounds) % 2 ^ 32)) s ∧ timeouts trace = rounds := by
  induction rounds with
  | zero => exact waitingIn_reached
  | succ rounds ih =>
    obtain ⟨trace, s, run, stays, count⟩ := ih
    obtain ⟨trace', s', run', stays', count'⟩ := waitingIn_round run stays
    refine ⟨trace', s', run', ?_, by rw [count', count]⟩
    rwa [Nat.mod_add_mod] at stays'

def sameNewView : NewViewMessage :=
  { viewNumber := 1, request := [nullOne], viewchangeMessages := [viewChangeZero, viewChangeZero, viewChangeZero] }

def bigConfig : ResDBConfig := { replicas := [⟨2 ^ 32 + 1⟩], selfInfo := ⟨2 ^ 32 + 1⟩ }

theorem wrapped_accepts :
    (∃ trace s, (node (viewConfig 4)).Run trace s ∧ timeouts (serverPart trace) < 2 ^ 32 ∧
      (∀ call ∈ s.calls, call.outcome.replica.getCurrentView < 2 ^ 63) ∧
      ∃ call ∈ s.calls, AcceptsView call ∧ ¬ call.before.getCurrentView < call.outcome.replica.getCurrentView) ∧
    ∃ s, (node bigConfig).Run [] s ∧ ∀ info,
      bigConfig.replicas[(s.replica.getCurrentView - 1) % bigConfig.getReplicaNum]? = some info →
      (s.replica.systemInfo.primaryId : Int) ≠ info.id := by
  constructor
  · obtain ⟨trace, s, run, stays, count⟩ := waitingIn_rounds (2 ^ 32 - 1)
    obtain ⟨replica, received, calls⟩ := s
    obtain ⟨same, views⟩ := stays
    have zero : replica = waitingIn 0 := same
    subst zero
    obtain ⟨⟨progress, ret⟩, ran, still, call, member, accepts, same⟩ : ∃ done, (waitingIn 0).process
        (fun _ => { newViewEnv sameNewView with codec := { (newViewEnv sameNewView).codec with
          parseMessage := fun buff => some ⟨buff, some ⟨1, "signature"⟩⟩
          parseRequest := fun _ => some (newViewFrom 1) } }) "" = .ok done ∧
        (∀ call ∈ done.1.calls, call.outcome.replica.getCurrentView = 1) ∧
        ∃ call ∈ done.1.calls, AcceptsView call ∧
          ¬ call.before.getCurrentView < call.outcome.replica.getCurrentView := by decide
    have step : (server (viewConfig 4)).step ⟨waitingIn 0, received, calls⟩ (.process _ "") _ :=
      bind_eq_ok.mpr ⟨_, ran, rfl⟩
    obtain ⟨trace', run', part⟩ := server_run_node (run.next step)
    refine ⟨trace', _, run', ?_, fun call member => ?_, call, mem_append_right _ member, accepts, same⟩
    · have quiet : timeouts (serverPart trace') = timeouts trace := by rw [part]; exact timeouts_cons trace _
      rw [quiet, count]
      decide
    · have view : call.outcome.replica.getCurrentView = 1 := by
        rcases mem_append.mp member with old | new
        · exact views call old
        · exact still call new
      rw [view]
      decide
  · refine ⟨_, .initial (startServer_initial bigConfig), fun info there => ?_⟩
    have first : info = ⟨2 ^ 32 + 1⟩ := by
      cases there
      rfl
    rw [first]
    decide

end ResilientDB.Proof
