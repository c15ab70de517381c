import ResilientDB.Model.Server
import ResilientDB.Proof.Handling

namespace ResilientDB.Proof
open Model Library

variable {r r' : Replica} {env : Env} {sent : List Outgoing}

def nextCounter (v : ViewChangeManager) : Nat :=
  match v.status with
  | .none => 1
  | .readyNewView => (v.viewChangeCounter + 1) % 2 ^ 32
  | _ => v.viewChangeCounter

def expired (r : Replica) : Replica :=
  r.setViewChangeManager { r.viewChangeManager with
    viewChangeCounter := nextCounter r.viewChangeManager, status := .readyViewChange }

def withTimers (r : Replica) (timers : OrderedMap Nat (List ViewChangeTimeout)) : Replica :=
  r.setViewChangeManager { r.viewChangeManager with viewchangeTimeoutMinHeap := timers }

inductive Expires (r : Replica) (env : Env) : Replica → List Outgoing → Prop
  | quiet (status : ViewChangeStatus) (timers : OrderedMap Nat (List ViewChangeTimeout)) :
      (r.viewChangeManager.status ≠ .none → status ≠ .none) →
      Expires r env (withTimers (r.changeStatue status) timers) []
  | sends {sent : List Outgoing} (timers : OrderedMap Nat (List ViewChangeTimeout)) :
      (expired r).sendViewChangeMsg env = .ok sent → Expires r env (withTimers (expired r) timers) sent

theorem timeoutHandler_eq (r : Replica) (env : Env) :
    r.timeoutHandler env = if r.viewChangeManager.started = false ∨ r.config.isClient then .ok (r, [])
      else (expired r).sendViewChangeMsg env >>= fun sent => .ok ((expired r).selfTimer env .viewchange, sent) := by
  unfold Replica.timeoutHandler
  split
  · rfl
  · rfl

theorem monitorTimeout_cases (r : Replica) : (∃ timers, ∀ env, r.monitorTimeout env = .ok (withTimers r timers, [])) ∨
      ∃ status timers, (status = r.viewChangeManager.status ∨
          r.viewChangeManager.status = .readyViewChange ∧ status = .viewChangeFail) ∧
        ∀ env r' sent, (r.monitorTimeout env = .ok (r', sent) →
            (withTimers (r.changeStatue status) timers).timeoutHandler env = .ok (r', sent)) ∧
          ((withTimers (r.changeStatue status) timers).timeoutHandler env = .ok (r', sent) →
            r'.viewChangeManager.status = .readyViewChange → r.monitorTimeout env = .ok (r', sent)) := by
  unfold Replica.monitorTimeout
  cases popped : Replica.popTimer r.viewChangeManager.viewchangeTimeoutMinHeap.entries with
  | none => exact .inl ⟨r.viewChangeManager.viewchangeTimeoutMinHeap, fun _ => rfl⟩
  | some timer =>
    obtain ⟨key, timer, heap⟩ := timer
    dsimp only
    by_cases stale : timer.view ≠ r.getCurrentView
    · simp only [if_pos stale]
      exact .inl ⟨_, fun _ => rfl⟩
    simp only [if_neg stale]
    cases timer.type with
    | newview =>
      by_cases due : r.viewChangeManager.status = .readyNewView
      · simp only [if_pos due]
        exact .inr ⟨r.viewChangeManager.status, _, .inl rfl, fun _ _ _ => ⟨id, fun ran _ => ran⟩⟩
      · simp only [if_neg due]
        exact .inl ⟨_, fun _ => rfl⟩
    | viewchange =>
      by_cases due : r.viewChangeManager.status = .readyViewChange
      · simp only [if_pos due]
        exact .inr ⟨.viewChangeFail, _, .inr ⟨due, rfl⟩, fun _ _ _ => ⟨id, fun ran _ => ran⟩⟩
      · simp only [if_neg due]
        exact .inl ⟨_, fun _ => rfl⟩
    | complaint =>
      by_cases due : r.viewChangeManager.status = .none ∧ r.lastCommittedTime timer.proxyId ≤ timer.startTime
      · simp only [if_pos due]
        refine .inr ⟨r.viewChangeManager.status, r.viewChangeManager.viewchangeTimeoutMinHeap.assign key heap,
          .inl rfl, fun env r' sent => ⟨fun ran => ?_, fun ran ready => ?_⟩⟩
        · obtain ⟨⟨fired, messages⟩, handled, ran⟩ := bind_eq_ok.mp ran
          dsimp only at ran
          split at ran
          · cases ran
          · cases ran
            exact handled
        · exact bind_eq_ok.mpr ⟨(r', sent), ran, if_neg (not_not.mpr ready)⟩
      · simp only [if_neg due]
        exact .inl ⟨_, fun _ => rfl⟩

theorem monitorTimeout_expires (ran : r.monitorTimeout env = .ok (r', sent)) : Expires r env r' sent := by
  rcases monitorTimeout_cases r with ⟨timers, dropped⟩ | ⟨status, timers, reached, handled⟩
  · cases (dropped env).symm.trans ran
    exact .quiet r.viewChangeManager.status timers id
  · replace ran := (handled env r' sent).1 ran
    have still : r.viewChangeManager.status ≠ .none → status ≠ .none := by
      rcases reached with rfl | ⟨-, rfl⟩
      · exact id
      · simp
    have counter : nextCounter (withTimers (r.changeStatue status) timers).viewChangeManager =
        nextCounter r.viewChangeManager := by
      rcases reached with rfl | ⟨before, rfl⟩
      · rfl
      · simp [nextCounter, before, withTimers, Replica.changeStatue, Replica.setViewChangeManager]
    have same : expired (withTimers (r.changeStatue status) timers) = withTimers (expired r) timers := by
      unfold expired
      rw [counter]
      rfl
    rw [timeoutHandler_eq] at ran
    split at ran
    · cases ran
      exact .quiet status timers still
    · obtain ⟨messages, made, ran⟩ := bind_eq_ok.mp ran
      obtain ⟨timers', timed⟩ := selfTimer_eq (withTimers (expired r) timers) env .viewchange
      rw [same] at made ran
      rw [timed] at ran
      cases ran
      exact .sends timers' made

def Timed (r r' : Replica) : Prop :=
  ∃ status counter timers last, r' = { r with viewChangeManager := { r.viewChangeManager with
    status := status, viewChangeCounter := counter, viewchangeTimeoutMinHeap := timers, lastSeqValue := last } }

theorem monitorTimeout_timed (ran : r.monitorTimeout env = .ok (r', sent)) : Timed r r' := by
  cases monitorTimeout_expires ran with
  | quiet status timers => exact ⟨status, _, timers, _, rfl⟩
  | sends timers => exact ⟨_, _, timers, _, rfl⟩

theorem monitorCheckpointState_timed (r : Replica) :
    ∃ signal, Timed { r with checkpointManager := { r.checkpointManager with committableSeqSignal := signal } }
      r.monitorCheckpointState := by
  unfold Replica.monitorCheckpointState
  split
  · exact ⟨r.checkpointManager.committableSeqSignal, _, _, _, _, rfl⟩
  dsimp only
  split
  · exact ⟨r.checkpointManager.committableSeqSignal - 1, _, _, _, _, rfl⟩
  split
  · exact ⟨r.checkpointManager.committableSeqSignal - 1, _, _, _, _, rfl⟩
  · exact ⟨r.checkpointManager.committableSeqSignal - 1, _, _, _, _, rfl⟩

def viewChangeRequest (r : Replica) (env : Env) (message : ViewChangeMessage) : Request :=
  { newRequest .viewchange {} r.config.selfId with data := env.codec.serializeViewChange message }

def Created (past : List (Transition Server ServerEvent)) (message : ViewChangeMessage) : Prop :=
  ∃ t ∈ past, (∃ env, t.event = .monitorTimeout env) ∧ ∀ env, ∃ r', t.before.replica.monitorTimeout env =
      .ok (r', [.broadCast (viewChangeRequest t.before.replica env message)])

theorem sendViewChangeMsg_any (ran : r.sendViewChangeMsg env = .ok sent) :
    ∃ message, ∀ env, r.sendViewChangeMsg env = .ok [.broadCast (viewChangeRequest r env message)] := by
  unfold Replica.sendViewChangeMsg at ran ⊢
  obtain ⟨sequence, looped, ran⟩ := bind_eq_ok.mp ran
  obtain ⟨entries, mapped, -⟩ := bind_eq_ok.mp ran
  exact ⟨_, fun env => bind_eq_ok.mpr ⟨sequence, looped, bind_eq_ok.mpr ⟨entries, mapped, rfl⟩⟩⟩

theorem timeoutHandler_any (ran : r.timeoutHandler env = .ok (r', sent)) (fires : sent ≠ []) :
    ∃ message, ∀ env, ∃ r', r'.viewChangeManager.status = .readyViewChange ∧
      r.timeoutHandler env = .ok (r', [.broadCast (viewChangeRequest r env message)]) := by
  rw [timeoutHandler_eq] at ran
  split at ran
  · cases ran
    exact absurd rfl fires
  · rename_i running
    obtain ⟨messages, made, -⟩ := bind_eq_ok.mp ran
    obtain ⟨message, always⟩ := sendViewChangeMsg_any made
    refine ⟨message, fun env => ⟨(expired r).selfTimer env .viewchange, ?_, ?_⟩⟩
    · obtain ⟨timers, timed⟩ := selfTimer_eq (expired r) env .viewchange
      rw [timed]
      rfl
    · rw [timeoutHandler_eq, if_neg running, always]
      rfl

theorem monitorTimeout_any (ran : r.monitorTimeout env = .ok (r', sent)) (fires : sent ≠ []) :
    ∃ message, ∀ env, ∃ r', r.monitorTimeout env = .ok (r', [.broadCast (viewChangeRequest r env message)]) := by
  rcases monitorTimeout_cases r with ⟨timers, dropped⟩ | ⟨status, timers, -, handled⟩
  · cases (dropped env).symm.trans ran
    exact absurd rfl fires
  · obtain ⟨message, always⟩ := timeoutHandler_any ((handled env r' sent).1 ran) fires
    refine ⟨message, fun env => ?_⟩
    obtain ⟨r', ready, same⟩ := always env
    exact ⟨r', (handled env r' _).2 same ready⟩

def tellApart (message : ViewChangeMessage) : Env where
  codec :=
    { parseMessage := fun _ => none, parseRequest := fun _ => none, serializeRequest := fun _ => ""
      parseCheckPointData := fun _ => none, serializeCheckPointData := fun _ => "", parseViewChange := fun _ => none
      serializeViewChange := fun m => if m = message then "this" else "other"
      parseNewView := fun _ => none, serializeNewView := fun _ => "" }
  verifyMessage _ _ := true
  signMessage _ := none

theorem eq_of_tellApart {message other : ViewChangeMessage}
    (same : (tellApart message).codec.serializeViewChange message =
    (tellApart message).codec.serializeViewChange other) :
    message = other := by
  by_contra different
  simp [tellApart, Ne.symm different] at same

def isTimeout : ServerEvent → Bool
  | .monitorTimeout _ => true
  | _ => false

def Told (past : List (Transition Server ServerEvent)) (message : ViewChangeMessage) : Prop :=
  ∃ t ∈ past, isTimeout t.event = true ∧ (t.before.replica.monitorTimeout (tellApart message)).toOption.map Prod.snd =
    some [.broadCast (viewChangeRequest t.before.replica (tellApart message) message)]
deriving Decidable

theorem Told.created {past : List (Transition Server ServerEvent)} {message : ViewChangeMessage}
    (told : Told past message) : Created past message := by
  obtain ⟨t, member, timeout, sent⟩ := told
  obtain ⟨⟨r', _⟩, value, rfl⟩ := Option.map_eq_some_iff.mp sent
  have ran := eq_ok_of_toOption value
  obtain ⟨other, always⟩ := monitorTimeout_any ran (by simp)
  have same : message = other := by
    obtain ⟨r'', again⟩ := always (tellApart message)
    rw [ran] at again
    simp only [Except.ok.injEq, Prod.mk.injEq, List.cons.injEq, Outgoing.broadCast.injEq, viewChangeRequest,
      Request.mk.injEq] at again
    exact eq_of_tellApart (by tauto)
  refine ⟨t, member, ?_, same ▸ always⟩
  cases kind : t.event with
  | monitorTimeout env => exact ⟨env, rfl⟩
  | _ =>
    rw [kind] at timeout
    cases timeout

end ResilientDB.Proof
