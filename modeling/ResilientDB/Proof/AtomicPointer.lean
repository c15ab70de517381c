import ResilientDB.Model.AtomicPointer

namespace ResilientDB.Proof
open Model Library List

abbrev PtrTransition := Transition PtrThreads (ThreadEvent PtrCall)

variable {s s' : PtrThreads} {event : ThreadEvent PtrCall} {trace : List PtrTransition}

def isSetting : PtrStep → Bool
  | .storePtr _ | .storeFlag _ => true
  | _ => false

-- A `Set` and a `Clear` are both under way.
def Overlaps (s : PtrThreads) : Prop := (∃ step ∈ s.threads, isSetting step = true) ∧ .clearPtr ∈ s.threads
deriving Decidable

def stepOf (t : PtrTransition) : Option PtrStep :=
  match t.event with
  | .turn i => t.before.threads[i]?
  | .call _ => none

def Exchanges (t : PtrTransition) : Prop := ∃ value, stepOf t = some (.exchange value) ∧ t.before.shared.v = 0

inductive PtrMoves (s : PtrThreads) (event : ThreadEvent PtrCall) : PtrThreads → Prop
  | call (call : PtrCall) : event = .call call → PtrMoves s event { s with threads := s.threads ++ [call.start] }
  | turn {i : Nat} {step next : PtrStep} {shared : AtomicUniquePtr} : event = .turn i → s.threads[i]? = some step →
      s.shared.act step = some (shared, next) → PtrMoves s event { shared := shared, threads := s.threads.set i next }

theorem pointer_moves (step : pointerThreads.step s event s') : PtrMoves s event s' := by
  cases event with
  | call call =>
    cases step
    exact .call call rfl
  | turn i =>
    obtain ⟨step, found, acted⟩ := Option.bind_eq_some_iff.mp step
    obtain ⟨⟨shared, next⟩, moved, rest⟩ := Option.bind_eq_some_iff.mp acted
    cases rest
    exact .turn rfl found moved

structure Guarded (s : PtrThreads) : Prop where
  single : ∀ (i j : Nat) (a b : PtrStep), s.threads[i]? = some a → s.threads[j]? = some b → isSetting a = true →
    isSetting b = true → i = j
  taken : ∀ (i : Nat) (a : PtrStep), s.threads[i]? = some a → isSetting a = true → s.shared.v = 1
  emptied : ∀ i : Nat, s.threads[i]? = some .clearPtr → s.shared.v = 0
  stored : ∀ (i value : Nat), s.threads[i]? = some (.storeFlag value) → s.shared.ptr = some value
  present : s.shared.v = 2 → s.shared.ptr ≠ none

theorem Guarded.quiet (guarded : Guarded s) (same : s'.shared = s.shared)
    (quiet : ∀ (i : Nat) (a : PtrStep), s'.threads[i]? = some a →
      s.threads[i]? = some a ∨ isSetting a = false ∧ a ≠ .clearPtr) : Guarded s' := by
  have setting (i : Nat) (a : PtrStep) (found : s'.threads[i]? = some a) (sets : isSetting a = true) :
      s.threads[i]? = some a :=
    (quiet i a found).resolve_right fun other => Bool.false_ne_true (other.1.symm.trans sets)
  refine ⟨fun i j a b first second sets sets' => ?_, fun i a found sets => ?_, fun i found => ?_,
    fun i value found => ?_, ?_⟩
  · exact guarded.single i j a b (setting i a first sets) (setting j b second sets') sets sets'
  · exact same ▸ guarded.taken i a (setting i a found sets) sets
  · exact same ▸ guarded.emptied i ((quiet i _ found).resolve_right fun other => other.2 rfl)
  · exact same ▸ guarded.stored i value (setting i _ found rfl)
  · exact same ▸ guarded.present

theorem Guarded.step (guarded : Guarded s) (apart : ¬ Overlaps s') (moves : PtrMoves s event s') : Guarded s' := by
  cases moves with
  | call call =>
    refine guarded.quiet rfl fun i a found => ?_
    rw [getElem?_append] at found
    split_ifs at found
    · exact .inl found
    · rw [mem_singleton.mp (mem_of_getElem? found)]
      cases call <;> exact .inr ⟨rfl, nofun⟩
  | @turn i step next shared _ found acted =>
    have here (j : Nat) (a : PtrStep) (after : (s.threads.set i next)[j]? = some a) :
        j = i ∧ a = next ∨ j ≠ i ∧ s.threads[j]? = some a := by
      grind
    have alone (j k : Nat) (a : PtrStep) (first : (s.threads.set i next)[j]? = some a) (sets : isSetting a = true) :
        (s.threads.set i next)[k]? ≠ some .clearPtr := fun second =>
      apart ⟨⟨a, mem_of_getElem? first, sets⟩, mem_of_getElem? second⟩
    have rest (same : shared = s.shared) (quiet : isSetting next = false ∧ next ≠ .clearPtr) :
        Guarded { shared := shared, threads := s.threads.set i next } := by
      refine guarded.quiet same fun j a after => ?_
      rcases here j a after with ⟨-, rfl⟩ | ⟨-, old⟩
      · exact .inr quiet
      · exact .inl old
    obtain ⟨single, taken, emptied, stored, present⟩ := guarded
    cases step with
    | exchange value =>
      simp only [AtomicUniquePtr.act, Option.some.injEq] at acted
      split_ifs at acted with free
      · cases acted
        constructor <;> grind [isSetting]
      · cases acted
        exact rest rfl ⟨rfl, nofun⟩
    | hasSet | hasCleared | referenced => cases acted
    | load | get =>
      cases acted
      exact rest rfl ⟨by grind [isSetting], by grind⟩
    | _ =>
      cases acted
      constructor <;> grind [isSetting]

theorem guarded_run (run : pointerThreads.Run trace s) (apart : ∀ t ∈ trace, ¬ Overlaps t.after) : Guarded s := by
  refine run.invariant (fun t => ¬ Overlaps t.after) Guarded ?_ ?_ apart
  · rintro _ rfl
    constructor <;> simp
  · exact fun _ _ _ guarded step apart => guarded.step apart (pointer_moves step)

theorem stepOf_acts {step : PtrStep} (takes : stepOf ⟨s, event, s'⟩ = some step) (moves : PtrMoves s event s') :
    ∃ (i : Nat) (next : PtrStep), s.threads[i]? = some step ∧ s.shared.act step = some (s'.shared, next) := by
  cases moves with
  | call call same =>
    cases same
    cases takes
  | turn same found acted =>
    cases same
    cases takes.symm.trans found
    exact ⟨_, _, found, acted⟩

theorem act_taken {p p' : AtomicUniquePtr} {step next : PtrStep} (acted : p.act step = some (p', next))
    (taken : p.v ≠ 0) :
    step = .clearFlag ∨ isSetting step = true ∧ p'.v ≠ 0 ∨ step = .clearPtr ∧ p'.v = p.v ∨ p' = p := by
  cases step with
  | exchange value =>
    rw [AtomicUniquePtr.act, if_neg taken] at acted
    cases acted
    exact .inr (.inr (.inr rfl))
  | storePtr value =>
    cases acted
    exact .inr (.inl ⟨rfl, taken⟩)
  | storeFlag value =>
    cases acted
    exact .inr (.inl ⟨rfl, Nat.succ_ne_zero 1⟩)
  | clearFlag => exact .inl rfl
  | clearPtr =>
    cases acted
    exact .inr (.inr (.inl ⟨rfl, rfl⟩))
  | load | get =>
    cases acted
    exact .inr (.inr (.inr rfl))
  | hasSet | hasCleared | referenced => cases acted

theorem pointer_holds (run : pointerThreads.Run trace s) :
    (∀ later t middle u past, trace = later ++ t :: (middle ++ u :: past) → Exchanges t → Exchanges u →
      ∃ c ∈ middle, stepOf c = some .clearFlag) ∧
    ((∀ t ∈ trace, ¬ Overlaps t.after) → (s.shared.v = 2 → s.shared.ptr ≠ none) ∧
      ∀ later u past value, trace = later ++ u :: past → stepOf u = some (.storeFlag value) →
        (∀ t ∈ later, stepOf t ≠ some .clearFlag) → s.shared = { v := 2, ptr := some value }) := by
  constructor
  · rintro later t middle u past rfl ⟨-, -, empty⟩ ⟨value, takes, zero⟩
    by_contra none
    obtain ⟨between, -⟩ := run.suffix (suffix_append later _)
    obtain ⟨-, took⟩ := between.suffix (suffix_append middle _)
    refine between.since (fun s => s.shared.v ≠ 0) (fun c => stepOf c ≠ some .clearFlag) ?_ ?_
      (fun c member clears => none ⟨c, member, clears⟩) empty
    · obtain ⟨-, next, -, acted⟩ := stepOf_acts takes (pointer_moves took)
      rw [AtomicUniquePtr.act, if_pos zero, Option.some.injEq, Prod.mk.injEq] at acted
      rw [← acted.1]
      exact Nat.succ_ne_zero 0
    · intro s event s' _ taken step other
      cases pointer_moves step with
      | call => exact taken
      | turn same found acted =>
        cases same
        rcases act_taken acted taken with rfl | ⟨-, set⟩ | ⟨-, kept⟩ | rfl
        · exact absurd found other
        · exact set
        · exact kept.trans_ne taken
        · exact taken
  · intro apart
    refine ⟨(guarded_run run apart).present, ?_⟩
    rintro later u past value rfl takes steady
    obtain ⟨ran, took⟩ := run.suffix (suffix_append later _)
    obtain ⟨laterApart, hereApart⟩ := forall_mem_append.mp apart
    obtain ⟨apartHere, pastApart⟩ := forall_mem_cons.mp hereApart
    have guarded := guarded_run ran pastApart
    have kept := run.since (fun s => Guarded s ∧ s.shared = { v := 2, ptr := some value })
      (fun c => stepOf c ≠ some .clearFlag ∧ ¬ Overlaps c.after) ?_ ?_
      fun c member => ⟨steady c member, laterApart c member⟩
    · exact kept.2
    · obtain ⟨i, next, found, acted⟩ := stepOf_acts takes (pointer_moves took)
      rw [AtomicUniquePtr.act, Option.some.injEq, Prod.mk.injEq, guarded.stored i value found] at acted
      exact ⟨guarded.step apartHere (pointer_moves took), acted.1.symm⟩
    · rintro s event s' - ⟨guarded, shared⟩ step ⟨other, apart⟩
      refine ⟨guarded.step apart (pointer_moves step), ?_⟩
      have two : s.shared.v = 2 := by rw [shared]
      cases pointer_moves step with
      | call => exact shared
      | turn same found acted =>
        cases same
        rcases act_taken acted (by omega) with rfl | ⟨setting, -⟩ | ⟨rfl, -⟩ | rfl
        · exact absurd found other
        · have one := guarded.taken _ _ found setting
          omega
        · have zero := guarded.emptied _ found
          omega
        · exact shared

def setAndReferred : List (ThreadEvent PtrCall) :=
  [.call (.set 7), .turn 0, .turn 0, .turn 0, .call .reference, .turn 1, .turn 1]

theorem setAndReferred_kept : ∃ trace s, pointerThreads.Run trace s ∧ (∀ t ∈ trace, ¬ Overlaps t.after) ∧
    s.threads = [.hasSet true, .referenced (some 7)] ∧ s.shared = { v := 2, ptr := some 7 } := by
  obtain ⟨later, u, past, s, run, takes, steady, apart, results⟩ := System.split_of_play
    (pointerThreads.acts rfl) rfl setAndReferred 3
    (fun later u past s => stepOf u = some (.storeFlag 7) ∧ (∀ t ∈ later, stepOf t ≠ some .clearFlag) ∧
      (∀ t ∈ later ++ u :: past, ¬ Overlaps t.after) ∧ s.threads = [.hasSet true, .referenced (some 7)]) (by decide)
  exact ⟨_, s, run, apart, results, ((pointer_holds run).2 apart).2 later u past 7 rfl takes steady⟩

def setWhileCleared : List (ThreadEvent PtrCall) :=
  [.call .clear, .turn 0, .call (.set 7), .turn 1, .turn 1, .turn 1, .turn 0, .call .reference, .turn 2, .turn 2]

theorem setWhileCleared_lost : ∃ trace s, pointerThreads.Run trace s ∧
    trace.reverse.filterMap stepOf = [.clearFlag, .exchange 7, .storePtr 7, .storeFlag 7, .clearPtr, .load, .get] ∧
    s.threads = [.hasCleared, .hasSet true, .referenced none] ∧ s.shared = { v := 2, ptr := none } := by
  exact System.run_of_play (pointerThreads.acts rfl) rfl setWhileCleared _ (by decide)

end ResilientDB.Proof
