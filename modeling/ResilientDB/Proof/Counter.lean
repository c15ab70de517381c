import ResilientDB.Proof.Announce
import ResilientDB.Proof.NewView

namespace ResilientDB.Proof
open Model Library

variable {config : ResDBConfig} {r r' : Replica} {env : Env} {sent : List Outgoing} {s : Server}
  {trace : List (Transition Server ServerEvent)}

def counter (r : Replica) : Nat := r.viewChangeManager.viewChangeCounter

def isDue (r : Replica) (timer : ViewChangeTimeout) : Bool :=
  match timer.type with
  | .newview => r.viewChangeManager.status = .readyNewView
  | .viewchange => r.viewChangeManager.status = .readyViewChange
  | .complaint => r.viewChangeManager.status = .none ∧ r.lastCommittedTime timer.proxyId ≤ timer.startTime

def runsHandler (r : Replica) : Bool :=
  match Replica.popTimer r.viewChangeManager.viewchangeTimeoutMinHeap.entries with
  | none => false
  | some (_, timer, _) =>
    timer.view = r.getCurrentView ∧ isDue r timer = true ∧ r.viewChangeManager.started = true ∧
      r.config.isClient = false

def handles (t : Transition Server ServerEvent) : Bool := isTimeout t.event && runsHandler t.before.replica

def timeouts (trace : List (Transition Server ServerEvent)) : Nat := trace.countP handles

def missed : List (Transition Server ServerEvent) → Nat
  | [] => 0
  | t :: past =>
    if handles t then
      match t.before.replica.viewChangeManager.status with
      | .none => 0
      | .readyNewView => missed past + 1
      | _ => missed past
    else missed past

theorem timeoutHandler_counter (ran : r.timeoutHandler env = .ok (r', sent)) :
    counter r' = if r.viewChangeManager.started = true ∧ r.config.isClient = false
      then nextCounter r.viewChangeManager else counter r := by
  rw [timeoutHandler_eq] at ran
  split_ifs at ran with off
  · cases ran
    rw [if_neg]
    rintro ⟨started, replica⟩
    simp [started, replica] at off
  · obtain ⟨messages, -, ran⟩ := bind_eq_ok.mp ran
    obtain ⟨timers, timed⟩ := selfTimer_eq (expired r) env .viewchange
    rw [timed] at ran
    cases ran
    rw [if_pos (by simpa [not_or] using off)]
    rfl

theorem monitorTimeout_counter (ran : r.monitorTimeout env = .ok (r', sent)) :
    counter r' = if runsHandler r then nextCounter r.viewChangeManager else counter r := by
  unfold Replica.monitorTimeout at ran
  unfold runsHandler
  cases popped : Replica.popTimer r.viewChangeManager.viewchangeTimeoutMinHeap.entries with
  | none =>
    rw [popped] at ran
    cases ran
    rfl
  | some timer =>
    obtain ⟨key, timer, heap⟩ := timer
    rw [popped] at ran
    dsimp only at ran ⊢
    by_cases stale : timer.view ≠ r.getCurrentView
    · rw [if_pos stale] at ran
      cases ran
      simp [stale, counter, Replica.setViewChangeManager]
    rw [if_neg stale] at ran
    have current := not_not.mp stale
    cases type : timer.type with
    | newview =>
      rw [type] at ran
      dsimp only at ran
      split_ifs at ran with due
      · rw [timeoutHandler_counter ran]
        simp [current, isDue, type, due, counter, Replica.setViewChangeManager, nextCounter]
      · cases ran
        simp [isDue, type, due, counter, Replica.setViewChangeManager]
    | viewchange =>
      rw [type] at ran
      dsimp only at ran
      split_ifs at ran with due
      · rw [timeoutHandler_counter ran]
        simp [current, isDue, type, due, counter, Replica.setViewChangeManager, Replica.changeStatue, nextCounter]
      · cases ran
        simp [isDue, type, due, counter, Replica.setViewChangeManager]
    | complaint =>
      rw [type] at ran
      dsimp only at ran
      split_ifs at ran with due
      · obtain ⟨⟨fired, messages⟩, handled, ran⟩ := bind_eq_ok.mp ran
        dsimp only at ran
        split_ifs at ran
        cases ran
        rw [timeoutHandler_counter handled]
        simp [current, isDue, type, due, counter, Replica.setViewChangeManager, nextCounter]
      · cases ran
        simp [isDue, type, due, counter, Replica.setViewChangeManager]

theorem monitorCheckpointState_counter (r : Replica) : counter r.monitorCheckpointState = counter r := by
  unfold Replica.monitorCheckpointState
  split
  · rfl
  dsimp only
  split
  · rfl
  · split <;> rfl

theorem background_counter {event : ServerEvent} (moved : Background r event r') :
    counter r' = if isTimeout event && runsHandler r then nextCounter r.viewChangeManager else counter r := by
  cases moved with
  | monitorTimeout env ran => simpa [isTimeout] using monitorTimeout_counter ran
  | monitorCheckpointState => simpa [isTimeout] using monitorCheckpointState_counter r
  | passNext passed =>
    obtain ⟨executor, -, rfl⟩ := passNext_eq passed
    rfl
  | executeMessage env =>
    obtain ⟨executor, duplicates, manager, same⟩ := executeMessage_eq r env
    rw [same]
    rfl
  | _ => rfl

theorem viewChanging_counter {request : Request} {outcome : Outcome} (changing : ViewChanging r env request outcome) :
    counter outcome.replica = counter r := by
  cases changing with
  | rejected => rfl
  | stored _ _ same =>
    rw [same]
    rfl
  | announced _ _ same _ _ answer =>
    rw [(sendNewViewMsg_eq answer).1, same]
    rfl
  | @waiting message stored _ _ same =>
    obtain ⟨timers, timed⟩ := selfTimer_eq stored env .newview
    rw [timed, same]
    rfl

theorem handling_counter {context : Context} {request : Request} {outcome : Outcome}
    (handling : Handling r env context request outcome) : counter outcome.replica = counter r := by
  cases handling with
  | viewChanged _ changing => exact viewChanging_counter changing
  | _ => rfl

theorem counter_run (run : (server config).Run trace s) : counter s.replica = (1 + missed trace) % 2 ^ 32 := by
  refine server_history run (fun past r _ => counter r = (1 + missed past) % 2 ^ 32) ?_ ?_ ?_ ?_ ?_
  · exact fun _ _ _ => rfl
  · exact fun _ _ _ _ _ _ same => same
  · exact fun _ _ _ same ran _ => (handling_counter (commit_handling ran)).trans same
  · exact fun _ _ _ _ _ _ _ same => same
  · intro past s event r' same moved _
    have value : counter r' = if handles ⟨s, event, s.setReplica r'⟩ then nextCounter s.replica.viewChangeManager
        else counter s.replica := background_counter moved
    rw [value, missed]
    by_cases handled : handles ⟨s, event, s.setReplica r'⟩ = true
    · rw [if_pos handled, if_pos handled]
      unfold nextCounter
      unfold counter at same
      cases s.replica.viewChangeManager.status with
      | none => rfl
      | readyNewView =>
        dsimp only
        omega
      | readyViewChange => exact same
      | viewChangeFail => exact same
    · rw [if_neg handled, if_neg handled]
      exact same

def ExpectsView (r : Replica) (view : Nat) : Prop :=
  view = addUInt64 r.getCurrentView r.viewChangeManager.viewChangeCounter

theorem counter_reset_iff (run : (server config).Run trace s) :
    (s.replica.viewChangeManager.status = .none → s.replica.viewChangeManager.viewChangeCounter = 1 ∧
        ExpectsView s.replica (addUInt64 s.replica.getCurrentView 1)) ↔
      (s.replica.viewChangeManager.status = .none → missed trace % 2 ^ 32 = 0) := by
  have value := counter_run run
  refine imp_congr_right fun _ => ?_
  unfold ExpectsView addUInt64
  unfold counter at value
  omega

def newViewFor (message : NewViewMessage) (sender : Int) : ServerEvent :=
  let env := newViewEnv message
  .process (fun _ => { env with codec := { env.codec with
    parseMessage := fun buff => some ⟨buff, some ⟨sender, "signature"⟩⟩
    parseRequest := fun _ => some (newViewFrom sender) } }) "newview"

def nextNewView (view : Nat) : NewViewMessage where
  viewNumber := view
  request := [{ nullOne with currentView := view }]
  viewchangeMessages := List.replicate 3 { viewNumber := view }

def threeViewChanges (view : Nat) : List ServerEvent :=
  [viewChangeFor view 1, viewChangeFor view 2, viewChangeFor view 3]

theorem completed_resets : ∃ trace s, (server (viewConfig 4)).Run trace s ∧ s.replica.getCurrentView = 2 ∧
    s.replica.viewChangeManager.status = .none ∧ s.replica.viewChangeManager.viewChangeCounter = 1 ∧
    ExpectsView s.replica 3 := by
  obtain ⟨trace, s, run, view, idle, none⟩ := exists_server_run (viewConfig 4)
    (threeViewChanges 2 ++ [newViewFor (nextNewView 2) 2])
    (fun trace s => s.replica.getCurrentView = 2 ∧ s.replica.viewChangeManager.status = .none ∧
      missed trace = 0) (by decide)
  obtain ⟨one, next⟩ := (counter_reset_iff run).mpr (fun _ => by simp [none]) idle
  rw [view] at next
  exact ⟨trace, s, run, view, idle, one, next⟩

theorem failed_keeps : ∃ trace s, (server (viewConfig 4)).Run trace s ∧ s.replica.viewChangeManager.status = .none ∧
    s.replica.viewChangeManager.viewChangeCounter = 2 ∧ s.replica.getCurrentView = 3 ∧ ¬ ExpectsView s.replica 4 := by
  obtain ⟨trace, s, run, idle, two, view⟩ := exists_server_run (viewConfig 4)
    (threeViewChanges 2 ++ [.monitorTimeout viewEnv] ++ threeViewChanges 3 ++ [newViewFor (nextNewView 3) 3])
    (fun _ s => s.replica.viewChangeManager.status = .none ∧
      s.replica.viewChangeManager.viewChangeCounter = 2 ∧ s.replica.getCurrentView = 3) (by decide)
  refine ⟨trace, s, run, idle, two, view, ?_⟩
  unfold ExpectsView
  rw [two, view]
  decide

end ResilientDB.Proof
