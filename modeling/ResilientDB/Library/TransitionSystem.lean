import Mathlib.Algebra.BigOperators.Group.List.Basic
import Mathlib.Algebra.Ring.Nat

namespace ResilientDB.Library
open List

theorem forall_mem_snoc {α : Type*} {p : α → Prop} {xs : List α} {x : α} :
    (∀ y ∈ xs ++ [x], p y) ↔ (∀ y ∈ xs, p y) ∧ p x := by
  rw [forall_mem_append, forall_mem_singleton]

structure Transition (σ ε : Type*) where
  before : σ
  event : ε
  after : σ

structure System (σ ε : Type*) where
  initial : σ → Prop
  step : σ → ε → σ → Prop

namespace System

variable {σ ε α β : Type*} {system : System σ ε}

inductive Run (system : System σ ε) : List (Transition σ ε) → σ → Prop
  | initial {state : σ} : system.initial state → Run system [] state
  | next {trace : List (Transition σ ε)} {state after : σ} {event : ε} :
      Run system trace state → system.step state event after →
      Run system (⟨state, event, after⟩ :: trace) after

def Reachable (system : System σ ε) (state : σ) : Prop := ∃ trace, system.Run trace state

theorem Run.invariant {trace : List (Transition σ ε)} {state : σ} (run : system.Run trace state)
    (allowed : Transition σ ε → Prop) (inv : σ → Prop)
    (start : ∀ s, system.initial s → inv s)
    (preserved : ∀ s e s', inv s → system.step s e s' → allowed ⟨s, e, s'⟩ → inv s')
    (meets : ∀ t ∈ trace, allowed t) : inv state := by
  induction run with
  | initial first => exact start _ first
  | next earlier step ih =>
    have meetsEarlier := fun t member => meets t (mem_cons_of_mem _ member)
    exact preserved _ _ _ (ih meetsEarlier) step (meets _ mem_cons_self)

theorem Run.earlier {trace : List (Transition σ ε)} {state : σ} (run : system.Run trace state)
    {t : Transition σ ε} (member : t ∈ trace) :
    ∃ past, past ⊆ trace ∧ system.Run past t.before ∧ system.step t.before t.event t.after := by
  induction run with
  | initial first => cases member
  | @next trace s s' e earlier step ih =>
    rcases mem_cons.mp member with rfl | old
    · exact ⟨trace, subset_cons_self _ _, earlier, step⟩
    · obtain ⟨past, sub, ran, took⟩ := ih old
      exact ⟨past, subset_cons_of_subset _ sub, ran, took⟩

theorem Run.suffix {trace past : List (Transition σ ε)} {state : σ} (run : system.Run trace state)
    {t : Transition σ ε} (suffix : t :: past <:+ trace) :
    system.Run past t.before ∧ system.step t.before t.event t.after := by
  induction run with
  | initial first => simp at suffix
  | next earlier step ih =>
    rcases suffix_cons_iff.mp suffix with same | older
    · cases same
      exact ⟨earlier, step⟩
    · exact ih older

theorem Run.last {past : List (Transition σ ε)} {state : σ} {t : Transition σ ε} (run : system.Run (t :: past) state) :
    system.Run (t :: past) t.after := by
  cases run with
  | next earlier step => exact .next earlier step

/-- What a step establishes and every step keeps. -/
theorem Run.persists {trace : List (Transition σ ε)} {state : σ} (run : system.Run trace state)
    (fact : σ → Prop) (kept : ∀ s e s', fact s → system.step s e s' → fact s')
    {t : Transition σ ε} (member : t ∈ trace) (holds : fact t.after) : fact state := by
  induction run with
  | initial first => cases member
  | next earlier step ih =>
    rcases mem_cons.mp member with rfl | old
    · exact holds
    · exact kept _ _ _ (ih old) step

theorem Run.since {later past : List (Transition σ ε)} {t : Transition σ ε} {state : σ}
    (run : system.Run (later ++ t :: past) state) (inv : σ → Prop) (allowed : Transition σ ε → Prop)
    (start : inv t.after)
    (preserved : ∀ s e s', system.Reachable s → inv s → system.step s e s' → allowed ⟨s, e, s'⟩ → inv s')
    (meets : ∀ u ∈ later, allowed u) : inv state := by
  induction later generalizing state with
  | nil =>
    cases run with
    | next earlier step => exact start
  | cons u later ih =>
    cases run with
    | next earlier step =>
      have meetsEarlier := fun v member => meets v (mem_cons_of_mem _ member)
      exact preserved _ _ _ ⟨_, earlier⟩ (ih earlier meetsEarlier) step (meets _ mem_cons_self)

def history (part : Transition σ ε → List α) (trace : List (Transition σ ε)) : List α := trace.reverse.flatMap part

@[simp] theorem history_nil (part : Transition σ ε → List α) : history part [] = [] := rfl

@[simp] theorem history_cons (part : Transition σ ε → List α) (t : Transition σ ε) (trace : List (Transition σ ε)) :
    history part (t :: trace) = history part trace ++ part t := by
  simp [history]

def play (act : σ → ε → Option σ) : List (Transition σ ε) × σ → List ε → Option (List (Transition σ ε) × σ)
  | past, [] => some past
  | (trace, state), event :: events =>
    match act state event with
    | some after => play act (⟨state, event, after⟩ :: trace, after) events
    | none => none

section

variable {act : σ → ε → Option σ} {events : List ε} {past present : List (Transition σ ε) × σ}

theorem play_cons {event : ε} {trace : List (Transition σ ε)} {state : σ}
    (played : play act (trace, state) (event :: events) = some present) :
    ∃ after, act state event = some after ∧ play act (⟨state, event, after⟩ :: trace, after) events = some present := by
  simp only [System.play] at played
  cases moved : act state event with
  | none => simp [moved] at played
  | some after =>
    simp only [moved] at played
    exact ⟨after, rfl, played⟩

theorem play_events (played : play act past events = some present) :
    present.1.map (fun t => t.event) = events.reverse ++ past.1.map fun t => t.event := by
  induction events generalizing past with
  | nil =>
    cases played
    rfl
  | cons event events ih =>
    obtain ⟨after, -, rest⟩ := play_cons played
    rw [ih rest]
    simp

theorem Run.play (sound : ∀ s e s', act s e = some s' → system.step s e s') (run : system.Run past.1 past.2)
    (played : play act past events = some present) : system.Run present.1 present.2 := by
  induction events generalizing past with
  | nil =>
    cases played
    exact run
  | cons event events ih =>
    obtain ⟨after, moved, rest⟩ := play_cons played
    exact ih (run.next (sound _ _ _ moved)) rest

end

theorem acts (system : System σ ε) {act : σ → ε → Option σ} (same : system.step = fun s e s' => act s e = some s')
    (s : σ) (e : ε) (s' : σ) (acted : act s e = some s') : system.step s e s' := same ▸ acted

section

variable {act : σ → ε → Option σ} (sound : ∀ s e s', act s e = some s' → system.step s e s') {state : σ}
  (first : system.initial state) (events : List ε)
include sound first

theorem run_of_events (goal : List (Transition σ ε) → σ → Prop) [∀ trace last, Decidable (goal trace last)]
    (checked : ((play act ([], state) events).any fun p => decide (goal p.1 p.2)) = true) :
    ∃ trace last, system.Run trace last ∧ goal trace last ∧ ∀ t ∈ trace, t.event ∈ events := by
  obtain ⟨p, played, good⟩ := (Option.any_eq_true _ _).mp checked
  refine ⟨p.1, p.2, Run.play sound (.initial first) played, of_decide_eq_true good, fun t member => ?_⟩
  have inside := mem_map_of_mem (f := fun t => t.event) member
  rw [play_events played] at inside
  simpa using inside

theorem run_of_play (goal : List (Transition σ ε) → σ → Prop) [∀ trace last, Decidable (goal trace last)]
    (checked : ((play act ([], state) events).any fun p => decide (goal p.1 p.2)) = true) :
    ∃ trace last, system.Run trace last ∧ goal trace last := by
  obtain ⟨trace, last, run, good, -⟩ := run_of_events sound first events goal checked
  exact ⟨trace, last, run, good⟩

theorem last_of_play (goal : Transition σ ε → List (Transition σ ε) → Prop) [∀ t past, Decidable (goal t past)]
    (checked : ((play act ([], state) events).any fun p => p.1.head?.any fun t => decide (goal t p.1.tail)) = true) :
    ∃ t past, system.Run (t :: past) t.after ∧ goal t past := by
  obtain ⟨⟨trace, last⟩, played, good⟩ := (Option.any_eq_true _ _).mp checked
  have run : system.Run trace last := Run.play sound (.initial first) played
  cases trace with
  | nil => cases good
  | cons t past => exact ⟨t, past, run.last, of_decide_eq_true good⟩

theorem split_of_play (count : Nat)
    (goal : List (Transition σ ε) → Transition σ ε → List (Transition σ ε) → σ → Prop)
    [∀ later t past last, Decidable (goal later t past last)]
    (checked : ((play act ([], state) events).any fun p =>
      p.1[count]?.any fun t => decide (goal (p.1.take count) t (p.1.drop (count + 1)) p.2)) = true) :
    ∃ later t past last, system.Run (later ++ t :: past) last ∧ goal later t past last := by
  obtain ⟨⟨trace, last⟩, played, good⟩ := (Option.any_eq_true _ _).mp checked
  obtain ⟨t, found, good⟩ := (Option.any_eq_true _ _).mp good
  obtain ⟨inside, rfl⟩ := List.getElem?_eq_some_iff.mp found
  refine ⟨_, _, _, last, ?_, of_decide_eq_true good⟩
  rw [getElem_cons_drop, take_append_drop]
  exact Run.play sound (.initial first) played

end

def Steps (system : System α β) : α → α → Prop := Relation.ReflTransGen fun s s' => ∃ e, system.step s e s'

theorem Steps.refl {system : System α β} (s : α) : system.Steps s s := Relation.ReflTransGen.refl

theorem Steps.single {system : System α β} {s s' : α} {e : β} (step : system.step s e s') :
    system.Steps s s' := Relation.ReflTransGen.single ⟨e, step⟩

theorem Reachable.steps {system : System α β} {s s' : α} (reachable : system.Reachable s)
    (more : system.Steps s s') : system.Reachable s' := by
  induction more with
  | refl => exact reachable
  | tail _ step ih =>
    obtain ⟨trace, run⟩ := ih
    obtain ⟨e, took⟩ := step
    exact ⟨_, run.next took⟩

theorem Run.simulation {abstract : System α β} (abs : σ → α) {trace : List (Transition σ ε)}
    {state : σ} (run : system.Run trace state)
    (allowed : Transition σ ε → Prop) (inv : σ → Prop)
    (start : ∀ s, system.initial s → inv s ∧ abstract.initial (abs s))
    (preserved : ∀ s e s', inv s → system.step s e s' → allowed ⟨s, e, s'⟩ → inv s' ∧ abstract.Steps (abs s) (abs s'))
    (meets : ∀ t ∈ trace, allowed t) : inv state ∧ abstract.Reachable (abs state) := by
  refine run.invariant allowed (fun s => inv s ∧ abstract.Reachable (abs s)) ?_ ?_ meets
  · intro s first
    exact ⟨(start s first).1, [], .initial (start s first).2⟩
  · rintro s e s' ⟨holds, reached⟩ step ok
    obtain ⟨holds', more⟩ := preserved s e s' holds step ok
    exact ⟨holds', reached.steps more⟩

end System

structure ThreadPool (σ τ : Type*) where
  shared : σ
  threads : List τ

inductive ThreadEvent (μ : Type*)
  | call (message : μ)
  | turn (thread : Nat)

variable {σ τ μ : Type*} {initial : σ → Prop} {start : μ → τ} {step : σ → τ → σ → τ → Prop} {s : ThreadPool σ τ}
  {trace : List (Transition (ThreadPool σ τ) (ThreadEvent μ))}

def interleaving (initial : σ → Prop) (start : μ → τ) (step : σ → τ → σ → τ → Prop) :
    System (ThreadPool σ τ) (ThreadEvent μ) where
  initial s := initial s.shared ∧ s.threads = []
  step s event s' := match event with
    | .call message => s' = { s with threads := s.threads ++ [start message] }
    | .turn i => ∃ thread shared thread', s.threads[i]? = some thread ∧ step s.shared thread shared thread' ∧
        s' = { shared := shared, threads := s.threads.set i thread' }

theorem interleaving_invariant (run : (interleaving initial start step).Run trace s) (inv : σ → Prop)
    (holds : σ → τ → Prop) (guarantee : σ → σ → Prop)
    (first : ∀ shared, initial shared → inv shared)
    (starts : ∀ shared message, inv shared → holds shared (start message))
    (keeps : ∀ shared thread shared' thread', inv shared → holds shared thread →
      step shared thread shared' thread' → inv shared' ∧ holds shared' thread' ∧ guarantee shared shared')
    (stable : ∀ shared shared' thread, inv shared → guarantee shared shared' → holds shared thread →
      holds shared' thread) :
    (inv s.shared ∧ ∀ thread ∈ s.threads, holds s.shared thread) ∧
      ∀ t ∈ trace, t.after.shared = t.before.shared ∨ guarantee t.before.shared t.after.shared := by
  induction run with
  | initial begins =>
    obtain ⟨begins, empty⟩ := begins
    exact ⟨⟨first _ begins, by simp [empty]⟩, by simp⟩
  | @next trace s s' event earlier took ih =>
    obtain ⟨⟨before, each⟩, past⟩ := ih
    cases event with
    | call message =>
      cases took
      refine ⟨⟨before, fun thread member => ?_⟩, fun t member => ?_⟩
      · rcases mem_append.mp member with old | new
        · exact each thread old
        · rw [mem_singleton.mp new]
          exact starts _ message before
      · rcases mem_cons.mp member with rfl | old
        · exact .inl rfl
        · exact past t old
    | turn i =>
      obtain ⟨thread, shared, thread', found, moved, rfl⟩ := took
      obtain ⟨after, own, guaranteed⟩ := keeps _ _ _ _ before (each thread (mem_of_getElem? found)) moved
      refine ⟨⟨after, fun other member => ?_⟩, fun t member => ?_⟩
      · rcases mem_or_eq_of_mem_set member with old | rfl
        · exact stable _ _ _ before guaranteed (each other old)
        · exact own
      · rcases mem_cons.mp member with rfl | old
        · exact .inr guaranteed
        · exact past t old

theorem sum_set {threads : List τ} {i : Nat} {thread : τ} (tokens : τ → Nat) (found : threads[i]? = some thread)
    (thread' : τ) :
    ((threads.set i thread').map tokens).sum + tokens thread = (threads.map tokens).sum + tokens thread' := by
  induction threads generalizing i with
  | nil => simp at found
  | cons head rest ih =>
    cases i with
    | zero =>
      cases found
      simp only [set_cons_zero, map_cons, sum_cons]
      omega
    | succ i =>
      have tail := ih (i := i) found
      simp only [set_cons_succ, map_cons, sum_cons]
      omega

theorem interleaving_tokens (run : (interleaving initial start step).Run trace s) (stored : σ → Nat)
    (tokens : τ → Nat) (bound : Nat) (first : ∀ shared, initial shared → stored shared ≤ bound)
    (starts : ∀ message, tokens (start message) = 0)
    (keeps : ∀ shared thread shared' thread', step shared thread shared' thread' →
      stored shared' + tokens thread' ≤ stored shared + tokens thread) :
    stored s.shared + (s.threads.map tokens).sum ≤ bound := by
  induction run with
  | initial begins =>
    obtain ⟨begins, empty⟩ := begins
    simpa [empty] using first _ begins
  | @next trace s s' event earlier took ih =>
    cases event with
    | call message =>
      cases took
      simpa [starts message] using ih
    | turn i =>
      obtain ⟨thread, shared, thread', found, moved, rfl⟩ := took
      have passed := keeps _ _ _ _ moved
      have sum := sum_set tokens found thread'
      simp only
      omega

end ResilientDB.Library
