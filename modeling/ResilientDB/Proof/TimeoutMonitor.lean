import ResilientDB.Model.TimeoutMonitor

namespace ResilientDB.Proof
open Model Library

variable {m m' : TimeoutMonitor} {event : MonitorEvent} {hash : String}
  {trace : List (Transition TimeoutMonitor MonitorEvent)}

def AddsBatch (hash : String) : MonitorEvent → Prop
  | .addWaitingResponseRequest request _ => request.hash = hash
  | _ => False

instance : Decidable (AddsBatch hash event) := by
  unfold AddsBatch
  split <;> infer_instance

theorem act_looking (moved : m.act event = some m') (looks : m'.thread = .looking hash) :
    m.thread ≠ .looking hash ∧ m'.waitingResponseBatches hash ≠ none ∨
    m.thread = .looking hash ∧ (m'.waitingResponseBatches hash = none ↔
      event = .removeWaitingResponseRequest hash ∨ m.waitingResponseBatches hash = none ∧ ¬ AddsBatch hash event) := by
  cases event with
  | addWaitingResponseRequest request now =>
    cases moved
    refine .inr ⟨looks, ?_⟩
    by_cases same : request.hash = hash
    · simp [TimeoutMonitor.addWaitingResponseRequest, AddsBatch, same]
    · simp [TimeoutMonitor.addWaitingResponseRequest, AddsBatch, same, Function.update_of_ne (Ne.symm same)]
  | semPost =>
    simp only [TimeoutMonitor.act] at moved
    split_ifs at moved
    cases moved
    exact .inr ⟨looks, by simp [AddsBatch]⟩
  | removeWaitingResponseRequest other =>
    cases moved
    refine .inr ⟨looks, ?_⟩
    by_cases same : other = hash
    · simp [same]
    · simp [AddsBatch, same, Function.update_of_ne (Ne.symm same)]
  | semWait =>
    simp only [TimeoutMonitor.act] at moved
    split_ifs at moved
    cases moved
    cases looks
  | popTimeout =>
    simp only [TimeoutMonitor.act] at moved
    split_ifs at moved
    cases moved
    unfold TimeoutMonitor.popTimeout at looks
    split at looks <;> cases looks
  | checkTimeOut =>
    simp only [TimeoutMonitor.act] at moved
    split at moved
    · rename_i sleeper sleeps
      cases moved
      dsimp only at looks
      split_ifs at looks with found
      cases looks
      exact .inl ⟨by rw [sleeps]; nofun, Option.isSome_iff_ne_none.mp found⟩
    · cases moved
  | getTimeOutRequest =>
    simp only [TimeoutMonitor.act] at moved
    split at moved
    · obtain ⟨p, -, rfl⟩ := Option.map_eq_some_iff.mp moved
      cases looks
    · cases moved

theorem lookup_vanished_iff (run : monitoring.Run trace m) (looks : m.thread = .looking hash) :
    m.waitingResponseBatches hash = none ↔
      ∃ later t past, trace = later ++ t :: past ∧ t.event = .removeWaitingResponseRequest hash ∧
        t.before.thread = .looking hash ∧
        ∀ u ∈ later, u.before.thread = .looking hash ∧ ¬ AddsBatch hash u.event := by
  induction run with
  | initial first =>
    cases first
    cases looks
  | @next trace m m' event earlier step ih =>
    rcases act_looking step looks with ⟨other, there⟩ | ⟨looking, changes⟩
    · refine iff_of_false there ?_
      rintro ⟨later, t, past, split, -, before, between⟩
      cases later with
      | nil =>
        cases split
        exact other before
      | cons u later =>
        cases split
        exact other (between _ List.mem_cons_self).1
    rw [changes]
    constructor
    · rintro (rfl | ⟨absent, kept⟩)
      · exact ⟨[], _, trace, rfl, rfl, looking, by simp⟩
      · obtain ⟨later, t, past, rfl, removes, before, between⟩ := (ih looking).mp absent
        exact ⟨_ :: later, t, past, rfl, removes, before, List.forall_mem_cons.mpr ⟨⟨looking, kept⟩, between⟩⟩
    · rintro ⟨later, t, past, split, removes, before, between⟩
      cases later with
      | nil =>
        cases split
        exact .inl removes
      | cons u later =>
        cases split
        obtain ⟨here, between⟩ := List.forall_mem_cons.mp between
        exact .inr ⟨(ih looking).mpr ⟨later, t, past, rfl, removes, before, between⟩, here.2⟩

def untilFound (hash : String) : List MonitorEvent :=
  [.addWaitingResponseRequest { hash := hash } 0, .semPost, .semWait, .popTimeout, .checkTimeOut]

theorem found_stays : ∃ trace m, monitoring.Run trace m ∧ m.thread = .looking "h" ∧
    m.waitingResponseBatches "h" ≠ none := by
  obtain ⟨trace, m, run, looks, kept⟩ := System.run_of_play (monitoring.acts rfl) rfl
    (untilFound "h" ++ [.removeWaitingResponseRequest "g"])
    (fun trace m => m.thread = .looking "h" ∧ ∀ t ∈ trace, t.event ≠ .removeWaitingResponseRequest "h") (by decide)
  refine ⟨trace, m, run, looks, fun gone => ?_⟩
  obtain ⟨later, t, past, rfl, removes, -⟩ := (lookup_vanished_iff run looks).mp gone
  exact kept t (by simp) removes

theorem response_hides_request : ∃ trace m, monitoring.Run trace m ∧ m.thread = .looking "h" ∧
    m.waitingResponseBatches "h" = none ∧ m.act .getTimeOutRequest = none := by
  obtain ⟨trace, m, run, looks, gone⟩ := System.run_of_play (monitoring.acts rfl) rfl
    (untilFound "h" ++ [.removeWaitingResponseRequest "h"])
    (fun _ m => m.thread = .looking "h" ∧ m.waitingResponseBatches "h" = none) (by decide)
  exact ⟨trace, m, run, looks, gone, by simp [TimeoutMonitor.act, looks, TimeoutMonitor.getTimeOutRequest, gone]⟩

end ResilientDB.Proof
