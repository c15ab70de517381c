import ResilientDB.Model.TimerThreads
import ResilientDB.Proof.CollectorRun

namespace ResilientDB.Proof
open Model Library List Option

variable {config : ResDBConfig} {s s' : TimerThreads} {event : TimerEvent} {key : Nat}
  {object other : TimerObject} {heap : TimerHeap} {entries : List (Nat × TimerHeap)}
  {trace : List (Transition TimerThreads TimerEvent)}

theorem find?_push (s : TimerThreads) (config : ResDBConfig) (key other : Nat) (object : TimerObject) :
    (s.push config key object).viewchangeTimeoutMinHeap.find? other =
      if other = key then
        some (if (s.heapOf key).size < config.maxClientComplaintNum then (s.heapOf key).push object else s.heapOf key)
      else s.viewchangeTimeoutMinHeap.find? other := by
  unfold TimerThreads.push
  dsimp only
  split
  · rw [OrderedMap.find?_assign]
  · rw [OrderedMap.find?_assign]

theorem popFirst_eq (popped : TimerThreads.popFirst entries = some (key, object, heap)) :
    ∃ full, (key, full) ∈ entries ∧ full.pop? = some (object, heap) := by
  induction entries with
  | nil => cases popped
  | cons entry rest ih =>
    obtain ⟨first, full⟩ := entry
    simp only [TimerThreads.popFirst] at popped
    split at popped
    · obtain ⟨full', member, taken⟩ := ih popped
      exact ⟨full', mem_cons_of_mem _ member, taken⟩
    · rename_i taken
      cases popped
      exact ⟨full, mem_cons_self, taken⟩

theorem popFirst_heapOf (popped : TimerThreads.popFirst s.viewchangeTimeoutMinHeap.entries = some (key, object, heap)) :
    (s.heapOf key).pop? = some (object, heap) := by
  obtain ⟨full, member, taken⟩ := popFirst_eq popped
  rw [TimerThreads.heapOf, OrderedMap.find?_eq_some.mpr member]
  exact taken

inductive Ticks (config : ResDBConfig) (s : TimerThreads) : TimerEvent → TimerThreads → Prop
  | pushes {event : TimerEvent} {key : Nat} {object : TimerObject} :
      TimerThreads.pushed config event = some (key, object) → Ticks config s event (s.push config key object)
  | pops {event : TimerEvent} {key signal : Nat} {object : TimerObject} {heap : TimerHeap} :
      TimerThreads.pushed config event = none → (s.heapOf key).pop? = some (object, heap) →
      Ticks config s event { viewchangeTimeoutMinHeap := s.viewchangeTimeoutMinHeap.assign key heap
                             viewchangeTimerSignal := signal }
  | waits {event : TimerEvent} {signal : Nat} : TimerThreads.pushed config event = none →
      Ticks config s event { s with viewchangeTimerSignal := signal }

theorem act_ticks (acted : s.act config event = some s') : Ticks config s event s' := by
  unfold TimerThreads.act at acted
  split at acted
  · rename_i pushed
    split at acted
    · cases acted
    · cases acted
      exact .pushes pushed
  · rename_i none
    split at acted
    · cases acted
    · dsimp only at acted
      split at acted
      · cases acted
        exact .waits none
      · rename_i popped
        cases acted
        exact .pops none (popFirst_heapOf popped)

theorem mem_push_heapOf {other : Nat} {x : TimerObject} (member : x ∈ ((s.push config key object).heapOf other).items) :
    x ∈ (s.heapOf other).items ∨ other = key ∧ x = object := by
  unfold TimerThreads.heapOf at member
  rw [find?_push] at member
  split at member
  · rename_i same
    rw [same]
    rw [getD_some] at member
    split at member
    · rcases PriorityQueue.mem_push.mp member with new | old
      · exact .inr ⟨rfl, new⟩
      · exact .inl old
    · exact .inl member
  · exact .inl member

theorem mem_pop_heapOf {other signal : Nat} {x : TimerObject} (popped : (s.heapOf key).pop? = some (object, heap))
    (member : x ∈ (TimerThreads.heapOf { viewchangeTimeoutMinHeap := s.viewchangeTimeoutMinHeap.assign key heap
                                         viewchangeTimerSignal := signal } other).items) :
    x ∈ (s.heapOf other).items := by
  unfold TimerThreads.heapOf at member
  rw [OrderedMap.find?_assign] at member
  split at member
  · rename_i same
    rw [same, PriorityQueue.pop?_items popped]
    exact mem_cons_of_mem _ member
  · exact member

def Opposed (a b : TimerObject) : Prop := a.timer.timeoutTime < b.timer.timeoutTime → b.address < a.address
deriving Decidable

-- A new timer has a lower address than the earlier ones and a higher one than the later.
def OpposedPush (config : ResDBConfig) (t : Transition TimerThreads TimerEvent) : Prop :=
  ∀ pair ∈ TimerThreads.pushed config t.event, ∀ queued ∈ (t.before.heapOf pair.1).items,
    Opposed queued pair.2 ∧ Opposed pair.2 queued
deriving Decidable

def OpposedHeaps (s : TimerThreads) : Prop := ∀ key, ∀ a ∈ (s.heapOf key).items, ∀ b ∈ (s.heapOf key).items, Opposed a b

theorem opposed_refl (a : TimerObject) : Opposed a a := fun less => absurd less (lt_irrefl _)

theorem OpposedHeaps.step (heaps : OpposedHeaps s) (ticks : Ticks config s event s')
    (opposed : OpposedPush config ⟨s, event, s'⟩) : OpposedHeaps s' := by
  cases ticks with
  | waits => exact heaps
  | pops none popped =>
    intro key a inside b inside'
    exact heaps key a (mem_pop_heapOf popped inside) b (mem_pop_heapOf popped inside')
  | pushes pushed =>
    intro key a inside b inside'
    have both := opposed _ (mem_def.mpr pushed)
    rcases mem_push_heapOf inside with old | ⟨rfl, rfl⟩
    · rcases mem_push_heapOf inside' with old' | ⟨rfl, rfl⟩
      · exact heaps key a old b old'
      · exact (both a old).1
    · rcases mem_push_heapOf inside' with old' | ⟨-, rfl⟩
      · exact (both b old').2
      · exact opposed_refl _

theorem opposedHeaps_run (run : (timerThreads config).Run trace s) (opposed : ∀ t ∈ trace, OpposedPush config t) :
    OpposedHeaps s := by
  refine run.invariant (OpposedPush config) OpposedHeaps ?_ ?_ opposed
  · rintro s rfl key a inside
    cases inside
  · exact fun s event s' heaps acted opposed => heaps.step (act_ticks acted) opposed

def firesIn (t : Transition TimerThreads TimerEvent) : Option (Nat × TimerObject) :=
  if t.event = .monitoringViewChangeTimeOut then
    (TimerThreads.popFirst t.before.viewchangeTimeoutMinHeap.entries).map fun popped => (popped.1, popped.2.1)
  else none

theorem firesIn_greatest {t : Transition TimerThreads TimerEvent} (fires : firesIn t = some (key, object)) :
    ∀ other ∈ (t.before.heapOf key).items, other.address ≤ object.address := by
  unfold firesIn at fires
  split at fires
  · obtain ⟨⟨key', object', heap⟩, popped, same⟩ := map_eq_some_iff.mp fires
    cases same
    exact fun other member => PriorityQueue.key_le_of_pop? (popFirst_heapOf popped) member
  · cases fires

theorem mem_of_firesIn {t : Transition TimerThreads TimerEvent} (fires : firesIn t = some (key, object)) :
    object ∈ (t.before.heapOf key).items := by
  unfold firesIn at fires
  split at fires
  · obtain ⟨⟨key', object', heap⟩, popped, same⟩ := map_eq_some_iff.mp fires
    cases same
    rw [PriorityQueue.pop?_items (popFirst_heapOf popped)]
    exact mem_cons_self
  · cases fires

theorem timers_fire_in_order (run : (timerThreads config).Run trace s) (opposed : ∀ t ∈ trace, OpposedPush config t) :
    ∀ t ∈ trace, ∀ key object, firesIn t = some (key, object) → object ∈ (t.before.heapOf key).items ∧
      ∀ other ∈ (t.before.heapOf key).items, object.timer.timeoutTime ≤ other.timer.timeoutTime := by
  intro t member key object fires
  obtain ⟨past, sub, earlier, -⟩ := run.earlier member
  have heaps := opposedHeaps_run earlier fun u inside => opposed u (sub inside)
  refine ⟨mem_of_firesIn fires, fun other queued => ?_⟩
  by_contra later
  have below := heaps key other queued object (mem_of_firesIn fires) (not_le.mp later)
  exact absurd (firesIn_greatest fires other queued) (not_le.mpr below)

def twoComplaints (first second : Nat) : List TimerEvent :=
  [.addComplaintTimer 7 "a" 1 0 first, .addComplaintTimer 7 "b" 1 1000000 second, .monitoringViewChangeTimeOut]

def firstTimer (address : Nat) : TimerObject :=
  ⟨address, { type := .complaint, view := 1, proxyId := 7, hash := "a", startTime := 0 }⟩

def secondTimer (address : Nat) : TimerObject :=
  ⟨address, { type := .complaint, view := 1, proxyId := 7, hash := "b", startTime := 1000000 }⟩

theorem fallingAddresses_in_order : ∃ t past, (timerThreads fourReplicas).Run (t :: past) t.after ∧
    firesIn t = some (7, firstTimer 200) ∧ (t.before.heapOf 7).items = [firstTimer 200, secondTimer 100] ∧
    ∀ other ∈ (t.before.heapOf 7).items, (firstTimer 200).timer.timeoutTime ≤ other.timer.timeoutTime := by
  obtain ⟨t, past, run, fires, queued, opposed⟩ := System.last_of_play
    ((timerThreads fourReplicas).acts rfl) rfl (twoComplaints 200 100)
    (fun t past => firesIn t = some (7, firstTimer 200) ∧
      (t.before.heapOf 7).items = [firstTimer 200, secondTimer 100] ∧
      ∀ u ∈ t :: past, OpposedPush fourReplicas u) (by decide +kernel)
  exact ⟨t, past, run, fires, queued, (timers_fire_in_order run opposed t mem_cons_self 7 (firstTimer 200) fires).2⟩

theorem risingAddresses_out_of_order : ∃ t past, (timerThreads fourReplicas).Run (t :: past) t.after ∧
    firesIn t = some (7, secondTimer 200) ∧
    ∃ other ∈ (t.before.heapOf 7).items, other.timer.timeoutTime < (secondTimer 200).timer.timeoutTime := by
  exact System.last_of_play ((timerThreads fourReplicas).acts rfl) rfl (twoComplaints 100 200) _
    (by decide +kernel)

end ResilientDB.Proof
