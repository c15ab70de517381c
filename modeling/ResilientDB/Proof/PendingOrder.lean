import ResilientDB.Model.CommitThread
import ResilientDB.Proof.ServerRun

namespace ResilientDB.Proof
open Model Library List

variable {config : ResDBConfig} {r r' : Replica} {env : Env} {context : Context} {request : Request}
  {outcome : Outcome} {s s' : CommitThread} {event : CommitEvent} {trace : List (Transition CommitThread CommitEvent)}
  {put : List (Context × Request)} {point : CommitPoint} {ret : Int}

theorem NewViewing.primary (viewing : NewViewing r env request outcome) (ret : outcome.ret = -4) :
    r.config.selfId = outcome.replica.getCurrentPrimary := by
  cases viewing with
  | refused _ same => simp [same] at ret
  | installed _ _ _ after =>
    rw [after] at ret ⊢
    dsimp only at ret
    split at ret
    · assumption
    · cases ret

structure Puts (r : Replica) (item : Context × Request) (put : List (Context × Request)) (outcome : Outcome) :
    Prop where
  config : outcome.replica.config = r.config
  pending : outcome.replica.requestPending = r.requestPending
  commitment : outcome.replica.commitmentComplained = []
  complained : outcome.replica.requestComplained = r.requestComplained ++ put
  own : put = [] ∨ put = [item] ∧ item.2.type = .newTxns ∧ r.config.selfId ≠ r.getCurrentPrimary
  primary : item.2.type = .newTxns → outcome.replica.getCurrentPrimary = r.getCurrentPrimary
  ret : outcome.ret = -4 → r.config.selfId = outcome.replica.getCurrentPrimary

theorem internalConsensusCommit_puts {item : Context × Request} (empty : r.commitmentComplained = [])
    (ran : r.internalConsensusCommit env item.1 item.2 = .ok outcome) : ∃ put, Puts r item put outcome := by
  cases commit_handling ran with
  | idle requeues _ other =>
    rcases requeues with ⟨rfl, rfl⟩ | ⟨type, backup, rfl, rfl⟩
    · exact ⟨[], rfl, rfl, empty, (append_nil _).symm, .inl rfl, fun _ => rfl, fun four => absurd four other⟩
    · refine ⟨[item], rfl, rfl, by simp [empty], by simp [empty], .inr ⟨rfl, type, backup⟩, fun _ => rfl, ?_⟩
      exact fun four => absurd four other
  | added gives =>
    exact ⟨[], rfl, rfl, empty, (append_nil _).symm, .inl rfl, fun _ => rfl, fun four => absurd four gives.ret⟩
  | viewChanged _ _ other =>
    exact ⟨[], rfl, rfl, empty, (append_nil _).symm, .inl rfl, fun _ => rfl, fun four => absurd four other⟩
  | newView type viewing =>
    refine ⟨[], rfl, rfl, empty, (append_nil _).symm, .inl rfl, fun other => ?_, viewing.primary⟩
    cases type.symm.trans other
  | _ => exact ⟨[], rfl, rfl, empty, (append_nil _).symm, .inl rfl, fun _ => rfl, by simp⟩

def waitingOf (item : Context × Request) : List (Context × Request) := if item.2.type.waitsForView then [item] else []

def passingAt : CommitPoint → List (Context × Request)
  | .commitPending popped _ => [popped]
  | .commit item => waitingOf item
  | _ => []

def resubmittingAt : CommitPoint → List (Context × Request)
  | .commitComplained popped => [popped]
  | _ => []

def isNext : CommitEvent → Bool
  | .next _ => true
  | _ => false

def arrivedIn (t : Transition CommitThread CommitEvent) : List (Context × Request) :=
  match t.event with
  | .consensusCommit context request => waitingOf (context, request)
  | _ => []

def passedIn (t : Transition CommitThread CommitEvent) : List (Context × Request) :=
  if isNext t.event then passingAt t.before.point else []

def resubmittedIn (t : Transition CommitThread CommitEvent) : List (Context × Request) :=
  if isNext t.event then resubmittingAt t.before.point else []

def putIn (t : Transition CommitThread CommitEvent) : List (Context × Request) :=
  t.after.replica.requestComplained.drop t.before.replica.requestComplained.length

-- What a call has taken and not passed yet.
def heldAt : CommitPoint → List (Context × Request)
  | .commitPending popped _ => [popped]
  | _ => []

def currentAt : CommitPoint → List (Context × Request)
  | .mayStart item | .isInViewChange item | .addPendingRequest item | .popPendingRequest item
  | .commitPending _ item | .commit item => waitingOf item
  | _ => []

def isResubmitting : CommitPoint → Bool
  | .popComplainedRequest | .commitComplained _ => true
  | _ => false

structure QueueState (s : CommitThread) : Prop where
  enabled : s.replica.config.enableViewchange = true
  waits : ∀ item, s.point = .addPendingRequest item → item.2.type.waitsForView = true
  drained : ∀ item, s.point = .commit item → item.2.type.waitsForView = true → s.replica.requestPending = []
  commitment : s.replica.commitmentComplained = []
  types : ∀ item ∈ resubmittingAt s.point ++ s.replica.requestComplained, item.2.type = .newTxns
  primary : isResubmitting s.point = true → s.replica.config.selfId = s.replica.getCurrentPrimary

structure Conserves (t : Transition CommitThread CommitEvent) : Prop where
  order : passedIn t ++ heldAt t.after.point ++ t.after.replica.requestPending ++ currentAt t.after.point =
    heldAt t.before.point ++ t.before.replica.requestPending ++ currentAt t.before.point ++ arrivedIn t
  complaints : resubmittedIn t ++ resubmittingAt t.after.point ++ t.after.replica.requestComplained =
    resubmittingAt t.before.point ++ t.before.replica.requestComplained ++ putIn t
  own : (putIn t).Sublist (passedIn t)

theorem putIn_append (same : s'.replica.requestComplained = s.replica.requestComplained ++ put) :
    putIn ⟨s, event, s'⟩ = put := by
  unfold putIn
  rw [same, drop_left]

theorem putIn_same (same : s'.replica.requestComplained = s.replica.requestComplained) :
    putIn ⟨s, event, s'⟩ = [] := putIn_append (by rw [same, append_nil])

theorem QueueState.aside (ready : QueueState s) (same : Threaded s.replica r) : QueueState { s with replica := r } where
  enabled := by
    dsimp only
    rw [same.config]
    exact ready.enabled
  waits := ready.waits
  drained item here waits := same.pending.trans (ready.drained item here waits)
  commitment := same.commitment.trans ready.commitment
  types := by
    dsimp only
    rw [same.complained]
    exact ready.types
  primary resubmits := by
    have before := ready.primary resubmits
    unfold Replica.getCurrentPrimary at before ⊢
    dsimp only
    rw [same.config, same.systemInfo]
    exact before

theorem conserves_aside (pending : r.requestPending = s.replica.requestPending)
    (complained : r.requestComplained = s.replica.requestComplained) (other : isNext event = false)
    (nothing : arrivedIn ⟨s, event, { s with replica := r }⟩ = []) : Conserves ⟨s, event, { s with replica := r }⟩ := by
  have none : putIn ⟨s, event, { s with replica := r }⟩ = [] := putIn_same complained
  refine ⟨?_, ?_, ?_⟩
  · rw [nothing]
    simp [passedIn, other, pending]
  · rw [none]
    simp [resubmittedIn, other, complained]
  · rw [none]
    exact nil_sublist _

theorem conserves_moves (complained : r.requestComplained = s.replica.requestComplained)
    (idle : passingAt s.point = []) (none : resubmittingAt s.point = []) (resubmits : resubmittingAt point = [])
    (same : heldAt point ++ r.requestPending ++ currentAt point =
      heldAt s.point ++ s.replica.requestPending ++ currentAt s.point) :
    Conserves ⟨s, .next env, { replica := r, point := point }⟩ := by
  have nothing : putIn ⟨s, .next env, { replica := r, point := point }⟩ = [] := putIn_same complained
  refine ⟨?_, ?_, ?_⟩
  · simpa [passedIn, isNext, idle, arrivedIn] using same
  · rw [nothing]
    simp [resubmittedIn, isNext, none, resubmits, complained]
  · rw [nothing]
    exact nil_sublist _

theorem Puts.conserves {item : Context × Request}
    (puts : Puts s.replica item put outcome) (own : put.Sublist (passingAt s.point))
    (resubmits : resubmittingAt point = [])
    (same : passingAt s.point ++ heldAt point ++ s.replica.requestPending ++ currentAt point =
      heldAt s.point ++ s.replica.requestPending ++ currentAt s.point) :
    Conserves ⟨s, .next env, { replica := outcome.replica, point := point }⟩ := by
  have new : putIn ⟨s, .next env, { replica := outcome.replica, point := point }⟩ = put := putIn_append puts.complained
  refine ⟨?_, ?_, ?_⟩
  · simpa [passedIn, isNext, arrivedIn, puts.pending] using same
  · rw [new]
    simp [resubmittedIn, isNext, resubmits, puts.complained]
  · rw [new]
    exact own

theorem Puts.types {item : Context × Request} {old : List (Context × Request)} (puts : Puts r item put outcome)
    (types : ∀ other ∈ old ++ r.requestComplained, other.2.type = .newTxns) :
    ∀ other ∈ outcome.replica.requestComplained, other.2.type = .newTxns := by
  intro other member
  rw [puts.complained] at member
  rcases mem_append.mp member with before | new
  · exact types other (mem_append_right _ before)
  · rcases puts.own with none | ⟨one, type, -⟩
    · rw [none] at new
      cases new
    · rw [one, mem_singleton] at new
      rw [new]
      exact type

theorem next_conserves (ready : QueueState s) (ran : s.next env s.point = .ok s') :
    QueueState s' ∧ Conserves ⟨s, .next env, s'⟩ := by
  obtain ⟨enabled, waits, drained, commitment, types, primary⟩ := ready
  obtain ⟨r, point⟩ := s
  dsimp only at enabled waits drained commitment types primary
  cases point with
  | idle =>
    cases ran
    exact ⟨⟨enabled, waits, drained, commitment, types, primary⟩, conserves_moves rfl rfl rfl rfl rfl⟩
  | mayStart item =>
    simp only [CommitThread.next, if_pos enabled] at ran
    cases ran
    exact ⟨⟨enabled, by simp, by simp, commitment, types, by simp [isResubmitting]⟩,
      conserves_moves rfl rfl rfl rfl rfl⟩
  | isInViewChange item =>
    simp only [CommitThread.next] at ran
    split at ran
    · split at ran
      · rename_i waiting
        cases ran
        refine ⟨⟨enabled, ?_, by simp, commitment, types, by simp [isResubmitting]⟩,
          conserves_moves rfl rfl rfl rfl rfl⟩
        intro other same
        cases same
        exact waiting
      · rename_i passes
        cases ran
        refine ⟨⟨enabled, by simp, ?_, commitment, types, by simp [isResubmitting]⟩,
          conserves_moves rfl rfl rfl rfl rfl⟩
        intro other same waiting
        cases same
        exact absurd waiting passes
    · cases ran
      exact ⟨⟨enabled, by simp, by simp, commitment, types, by simp [isResubmitting]⟩,
        conserves_moves rfl rfl rfl rfl rfl⟩
  | addPendingRequest item =>
    cases ran
    refine ⟨⟨enabled, by simp, by simp, commitment, types, by simp [isResubmitting]⟩,
      conserves_moves rfl rfl rfl rfl ?_⟩
    simp [heldAt, currentAt, waitingOf, waits item rfl]
  | popPendingRequest item =>
    simp only [CommitThread.next] at ran
    split at ran
    · rename_i empty
      cases ran
      exact ⟨⟨enabled, by simp, fun _ _ _ => empty, commitment, types, by simp [isResubmitting]⟩,
        conserves_moves rfl rfl rfl rfl rfl⟩
    · rename_i popped rest queue
      cases ran
      refine ⟨⟨enabled, by simp, by simp, commitment, types, by simp [isResubmitting]⟩,
        conserves_moves rfl rfl rfl rfl ?_⟩
      dsimp only
      rw [queue]
      rfl
  | commitPending popped item =>
    simp only [CommitThread.next] at ran
    obtain ⟨outcome, handled, ran⟩ := bind_eq_ok.mp ran
    cases ran
    obtain ⟨put, puts⟩ := internalConsensusCommit_puts commitment handled
    refine ⟨⟨puts.config ▸ enabled, by simp, by simp, puts.commitment, puts.types types, by simp [isResubmitting]⟩,
      puts.conserves ?_ rfl ?_⟩
    · rcases puts.own with none | ⟨one, -⟩
      · rw [none]
        exact nil_sublist _
      · rw [one]
        exact .refl _
    · rfl
  | commit item =>
    simp only [CommitThread.next] at ran
    obtain ⟨outcome, handled, ran⟩ := bind_eq_ok.mp ran
    cases ran
    obtain ⟨put, puts⟩ := internalConsensusCommit_puts commitment handled
    refine ⟨⟨puts.config ▸ enabled, ?_, ?_, puts.commitment, ?_, ?_⟩, puts.conserves ?_ ?_ ?_⟩
    · split <;> simp
    · split <;> simp
    · split
      · exact puts.types types
      · exact puts.types types
    · intro resubmits
      split_ifs at resubmits with primary
      · dsimp only
        rw [puts.config]
        exact puts.ret primary.2
      · cases resubmits
    · rcases puts.own with none | ⟨one, type, -⟩
      · rw [none]
        exact nil_sublist _
      · rw [one]
        simp [passingAt, waitingOf, type, RequestType.waitsForView]
    · split <;> rfl
    · have after (point : CommitPoint) (done : heldAt point = []) (none : currentAt point = []) :
          passingAt (.commit item) ++ heldAt point ++ r.requestPending ++ currentAt point =
            heldAt (.commit item) ++ r.requestPending ++ currentAt (.commit item) := by
        rw [done, none]
        cases waiting : item.2.type.waitsForView with
        | false => simp [passingAt, heldAt, currentAt, waitingOf, waiting]
        | true => simp [passingAt, heldAt, currentAt, drained item rfl waiting]
      split
      · exact after _ rfl rfl
      · exact after _ rfl rfl
  | popComplainedRequest =>
    simp only [CommitThread.next] at ran
    split at ran
    · cases ran
      exact ⟨⟨enabled, by simp, by simp, commitment, types, by simp [isResubmitting]⟩,
        conserves_moves rfl rfl rfl rfl rfl⟩
    · rename_i popped rest queue
      cases ran
      rw [queue] at types
      have nothing (s' : CommitThread) (same : s'.replica.requestComplained = rest) :
          putIn ⟨⟨r, .popComplainedRequest⟩, .next env, s'⟩ = [] := by
        simp [putIn, same, queue]
      refine ⟨⟨enabled, by simp, by simp, commitment, types, fun _ => primary rfl⟩, ?_, ?_, ?_⟩
      · simp [passedIn, isNext, passingAt, heldAt, currentAt, arrivedIn]
      · rw [nothing _ rfl]
        simp [resubmittedIn, isNext, resubmittingAt, queue]
      · rw [nothing _ rfl]
        exact nil_sublist _
  | commitComplained popped =>
    simp only [CommitThread.next] at ran
    obtain ⟨outcome, handled, ran⟩ := bind_eq_ok.mp ran
    cases ran
    obtain ⟨put, puts⟩ := internalConsensusCommit_puts commitment handled
    have own := primary rfl
    have client : popped.2.type = .newTxns := types popped mem_cons_self
    have none : put = [] := by
      rcases puts.own with none | ⟨-, -, backup⟩
      · exact none
      · exact absurd own backup
    refine ⟨⟨puts.config ▸ enabled, by simp, by simp, puts.commitment, puts.types types, fun _ => ?_⟩,
      puts.conserves ?_ rfl rfl⟩
    · dsimp only
      rw [puts.config, puts.primary client]
      exact own
    · rw [none]
      exact nil_sublist _

theorem act_conserves (ready : QueueState s) (acted : s.act event = some s') :
    QueueState s' ∧ Conserves ⟨s, event, s'⟩ := by
  cases event with
  | consensusCommit context request =>
    simp only [CommitThread.act] at acted
    split at acted
    · rename_i idle
      cases acted
      have complaints := ready.types
      rw [idle] at complaints
      have nothing : putIn ⟨s, .consensusCommit context request, { s with point := .mayStart (context, request) }⟩ =
        [] := putIn_same rfl
      refine ⟨⟨ready.enabled, by simp, by simp, ready.commitment, complaints, by simp [isResubmitting]⟩, ?_, ?_, ?_⟩
      · simp [passedIn, isNext, arrivedIn, idle, heldAt, currentAt]
      · rw [nothing]
        simp [resubmittedIn, isNext, idle, resubmittingAt]
      · rw [nothing]
        exact nil_sublist _
    · cases acted
  | next env =>
    simp only [CommitThread.act] at acted
    split at acted
    · cases acted
    · exact next_conserves ready (eq_ok_of_toOption acted)
  | changeStatus status =>
    cases acted
    exact ⟨ready.aside ⟨rfl, rfl, rfl, rfl, rfl, rfl, rfl⟩, conserves_aside rfl rfl rfl rfl⟩
  | setPrimary primaryId =>
    simp only [CommitThread.act] at acted
    split at acted
    · rename_i responds
      cases acted
      refine ⟨⟨ready.enabled, ready.waits, ready.drained, ready.commitment, ready.types, fun resubmits => ?_⟩,
        conserves_aside rfl rfl rfl rfl⟩
      unfold CommitThread.responds at responds
      split at responds
      · rename_i here
        simp [here, isResubmitting] at resubmits
      · cases responds
    · cases acted
  | background event =>
    simp only [CommitThread.act, CommitThread.background] at acted
    split at acted
    · cases acted
    rename_i notProcess
    obtain ⟨server, reacted, rfl⟩ := Option.map_eq_some_iff.mp acted
    rcases server_step (serverAct_sound s.replica.config _ _ _ reacted) with
      ⟨envs, buff, -, -, same, -⟩ | ⟨r, moved, rfl⟩
    · exact (notProcess envs buff same).elim
    · have same := moved.threaded
      exact ⟨ready.aside same, conserves_aside same.pending same.complained rfl rfl⟩

theorem queueState_run (run : (commitThread config).Run trace s) (enabled : config.enableViewchange = true) :
    QueueState s := by
  refine run.invariant (fun _ => True) QueueState ?_ ?_ fun _ _ => trivial
  · rintro s ⟨server, ⟨outOfOrder, needResponse, needQc, rfl⟩, rfl⟩
    exact ⟨enabled, by simp, by simp, rfl, by simp [resubmittingAt, Replica.create], by simp [isResubmitting]⟩
  · exact fun s event s' ready acted _ => (act_conserves ready acted).1

theorem conserved_run (run : (commitThread config).Run trace s) (enabled : config.enableViewchange = true) :
    System.history passedIn trace ++ heldAt s.point ++ s.replica.requestPending ++ currentAt s.point =
      System.history arrivedIn trace ∧
    System.history resubmittedIn trace ++ resubmittingAt s.point ++ s.replica.requestComplained =
      System.history putIn trace ∧
    (System.history putIn trace).Sublist (System.history passedIn trace) := by
  induction run with
  | initial first =>
    obtain ⟨server, ⟨outOfOrder, needResponse, needQc, rfl⟩, rfl⟩ := first
    exact ⟨rfl, rfl, .refl _⟩
  | next earlier acted ih =>
    obtain ⟨order, complaints, own⟩ := ih
    have conserves := (act_conserves (queueState_run earlier enabled) acted).2
    simp only [System.history_cons]
    refine ⟨?_, ?_, own.append conserves.own⟩
    · have step := conserves.order
      rw [← order]
      simp only [append_assoc] at step ⊢
      rw [step]
    · have step := conserves.complaints
      rw [← complaints]
      simp only [append_assoc] at step ⊢
      rw [step]

theorem buffered_in_order (run : (commitThread config).Run trace s) (enabled : config.enableViewchange = true) :
    (s.point = .idle → System.history passedIn trace ++ s.replica.requestPending = System.history arrivedIn trace) ∧
    System.history passedIn trace ++ heldAt s.point ++ s.replica.requestPending ++ currentAt s.point =
      System.history arrivedIn trace ∧
    System.history resubmittedIn trace ++ resubmittingAt s.point ++ s.replica.requestComplained =
      System.history putIn trace ∧
    (System.history putIn trace).Sublist (System.history passedIn trace) := by
  obtain ⟨order, complaints, own⟩ := conserved_run run enabled
  refine ⟨fun idle => ?_, order, complaints, own⟩
  rw [idle] at order
  simpa [heldAt, currentAt] using order

def viewchangeConfig : ResDBConfig := { fourReplicas with enableViewchange := true }

def messageOf (type : RequestType) (seq : Nat) : CommitEvent :=
  .consensusCommit ⟨⟨2, "signature"⟩⟩ { type := type, hash := "a", seq := seq, senderId := 2, currentView := 1 }

def nextSteps (count : Nat) : List CommitEvent := List.replicate count (.next plainEnv)

def interrupted : List CommitEvent :=
  messageOf .newTxns 0 :: nextSteps 4 ++ [.changeStatus .readyViewChange, messageOf .prepare 1] ++ nextSteps 3 ++
    [messageOf .commit 2] ++ nextSteps 1 ++ [.changeStatus .none] ++ nextSteps 2 ++ [.changeStatus .readyViewChange] ++
    nextSteps 3 ++ [messageOf .prepare 3] ++ nextSteps 3

theorem interrupted_in_order : ∃ trace s, (commitThread viewchangeConfig).Run trace s ∧
    (System.history passedIn trace).length = 3 ∧ s.replica.requestPending.length = 1 ∧
    (System.history putIn trace).length = 1 ∧
    System.history passedIn trace ++ s.replica.requestPending = System.history arrivedIn trace := by
  obtain ⟨trace, s, run, passed, pending, put, idle⟩ := System.run_of_play
    ((commitThread viewchangeConfig).acts rfl) ⟨_, startServer_initial viewchangeConfig, rfl⟩ interrupted
    (fun trace s => (System.history passedIn trace).length = 3 ∧ s.replica.requestPending.length = 1 ∧
      (System.history putIn trace).length = 1 ∧ s.point = .idle) (by decide +kernel)
  exact ⟨trace, s, run, passed, pending, put, (buffered_in_order run rfl).1 idle⟩

end ResilientDB.Proof
