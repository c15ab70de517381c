import ResilientDB.Model.Transport

namespace ResilientDB.Proof
open Model Library

variable {s s' : SenderThreads} {event : SenderEvent} {trace : List (Transition SenderThreads SenderEvent)}

def Quiet (s : SenderThreads) : Prop := s.pushed = 0 ∧ s.loaded = 0 ∧ s.client.next = .none
deriving Decidable

def Misses (t : Transition SenderThreads SenderEvent) : Prop :=
  t.event = .load ∧ t.before.client.next = .stop ∨ t.event = .push []
deriving Decidable

structure LookedAfter (s : SenderThreads) : Prop where
  flag : s.client.inProcess = true ↔ s.client.next ≠ .none
  filled : [] ∉ s.client.queue
  stopping : s.client.next = .stop → s.client.queue = [] ∨ 0 < s.pushed
  stopped : s.client.next = .none → s.client.queue = [] ∨ 0 < s.pushed + s.loaded

theorem handle_cases {c c' : AsyncReplicaClient} {result : Option Nat} (moved : c.handle result = some c') :
    c.next = .stop ∧ c' = { c with inProcess := false, next := .none } ∨
    c.next = .onSendNewMessage ∧ c' = c.onSendNewMessage ∨
    c.next ≠ .none ∧ c'.queue = c.queue ∧ c'.inProcess = c.inProcess ∧ c'.next ≠ .none ∧ c'.next ≠ .stop := by
  unfold AsyncReplicaClient.handle at moved
  cases next : c.next with
  | none => simp [next] at moved
  | stop =>
    simp only [next, Option.some.injEq] at moved
    exact .inl ⟨rfl, moved.symm⟩
  | onSendNewMessage =>
    simp only [next, Option.some.injEq] at moved
    exact .inr (.inl ⟨rfl, moved.symm⟩)
  | onSendMessage =>
    simp only [next, Option.some.injEq] at moved
    subst moved
    refine .inr (.inr ⟨nofun, ?_⟩)
    unfold AsyncReplicaClient.onSendMessage
    split_ifs <;> simp
  | onSend =>
    refine .inr (.inr ⟨nofun, ?_⟩)
    cases result with
    | none =>
      simp only [next, Option.some.injEq] at moved
      subst moved
      simp
    | some sendSize =>
      simp only [next] at moved
      split_ifs at moved
      cases moved
      unfold AsyncReplicaClient.onSend
      dsimp only
      split_ifs <;> simp
  | reConnect =>
    refine .inr (.inr ⟨nofun, ?_⟩)
    cases result with
    | none =>
      simp only [next, Option.some.injEq] at moved
      subst moved
      simp [next]
    | some sendSize =>
      simp only [next, Option.some.injEq] at moved
      subst moved
      simp

theorem LookedAfter.step (looked : LookedAfter s) (moved : s.act event = some s') (hit : ¬ Misses ⟨s, event, s'⟩) :
    LookedAfter s' := by
  obtain ⟨flag, filled, stopping, stopped⟩ := looked
  cases event with
  | push data =>
    cases moved
    have some : [] ≠ data := fun empty => hit (.inr (by rw [← empty]))
    exact ⟨flag, by simp [AsyncReplicaClient.push, filled, some], fun _ => .inr (Nat.succ_pos _),
      fun _ => .inr (Nat.add_pos_left (Nat.succ_pos _) _)⟩
  | load =>
    simp only [SenderThreads.act] at moved
    split_ifs at moved with waits
    cases moved
    have running : s.client.next ≠ .stop := fun stops => hit (.inl ⟨rfl, stops⟩)
    unfold SenderThreads.load
    split_ifs with set
    · exact ⟨flag, filled, fun stops => absurd stops running, fun ends => absurd ends (flag.mp set)⟩
    · exact ⟨flag, filled, fun stops => absurd stops running, fun _ => .inr (by dsimp only; omega)⟩
  | compareExchange =>
    simp only [SenderThreads.act] at moved
    split_ifs at moved with waits
    cases moved
    unfold SenderThreads.compareExchange
    split_ifs with set
    · exact ⟨flag, filled, stopping, fun ends => absurd ends (flag.mp set)⟩
    · exact ⟨by simp, filled, nofun, nofun⟩
  | chain result =>
    obtain ⟨client, handled, rfl⟩ := Option.map_eq_some_iff.mp moved
    rcases handle_cases handled with ⟨stops, rfl⟩ | ⟨begins, rfl⟩ | ⟨runs, queue, same, next, running⟩
    · exact ⟨by simp, filled, nofun, fun _ => (stopping stops).imp_right fun more => by dsimp only; omega⟩
    · have set := flag.mpr (by rw [begins]; nofun)
      unfold AsyncReplicaClient.onSendNewMessage
      cases waiting : s.client.queue with
      | nil => exact ⟨by simp [set], by simp, fun _ => .inl rfl, nofun⟩
      | cons data rest =>
        rw [waiting] at filled
        have some : data ≠ [] := fun empty => filled (by simp [empty])
        simp only [some, if_false]
        exact ⟨by simp [set], fun member => filled (List.mem_cons_of_mem _ member), nofun, nofun⟩
    · refine ⟨?_, by rw [queue]; exact filled, fun stops => absurd stops running, fun ends => absurd ends next⟩
      rw [same]
      exact iff_of_true (flag.mpr runs) next

theorem queue_empty_unless_missed (run : senderThreads.Run trace s) (quiet : Quiet s) :
    s.client.queue = [] ∨ ∃ t ∈ trace, Misses t := by
  by_cases missed : ∃ t ∈ trace, Misses t
  · exact .inr missed
  · simp only [not_exists, not_and] at missed
    have looked : LookedAfter s := run.invariant (fun t => ¬ Misses t) LookedAfter (by
        rintro first rfl
        exact ⟨by simp, by simp, nofun, fun _ => .inl rfl⟩)
      (fun _ _ _ looked moved hit => looked.step moved hit) missed
    refine .inl ((looked.stopped quiet.2.2).resolve_right ?_)
    rw [quiet.1, quiet.2.1]
    simp

def sendsOne : List SenderEvent :=
  [.push [7], .load, .compareExchange] ++ [none, none, some 8, none, some 1, none, none].map .chain

theorem sendsOne_empties : ∃ trace s, senderThreads.Run trace s ∧ Quiet s ∧ s.client.queue = [] := by
  obtain ⟨trace, s, run, quiet, hit⟩ := System.run_of_play (senderThreads.acts rfl) rfl
    (sendsOne ++ [.chain none])
    (fun trace s => Quiet s ∧ ¬ ∃ t ∈ trace, Misses t) (by decide)
  exact ⟨trace, s, run, quiet, (queue_empty_unless_missed run quiet).resolve_right hit⟩

theorem second_message_waits : ∃ trace s, senderThreads.Run trace s ∧ Quiet s ∧ s.client.queue = [[8]] :=
  System.run_of_play (senderThreads.acts rfl) rfl (sendsOne ++ [.push [8], .load, .chain none]) _ (by decide)

end ResilientDB.Proof
