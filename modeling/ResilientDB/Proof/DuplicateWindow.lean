import ResilientDB.Model.Execution

namespace ResilientDB.Proof
open Model Library Option

variable {configured : Int} {s s' : DuplicateThread} {event : DuplicateEvent} {hash : String} {seq added : Nat}
  {trace later past : List (Transition DuplicateThread DuplicateEvent)} {t : Transition DuplicateThread DuplicateEvent}

theorem frequencyUseconds_lt (configured : Int) : frequencyUseconds configured < 2 ^ 32 := by
  unfold frequencyUseconds toInt32
  split
  · have bound := Int.bmod_lt (x := configured) (m := 2 ^ 32) (by decide)
    omega
  · decide

def Behind (s : DuplicateThread) : Prop :=
  match s.phase with
  | .starting => True
  | .sleeping wakeTime => s.time ≤ wakeTime
  | _ => s.time ≤ s.clock

structure Ticking (configured : Int) (s : DuplicateThread) : Prop where
  frequency : s.frequencyUseconds = frequencyUseconds configured
  behind : Behind s

inductive DuplicateStep (s : DuplicateThread) : DuplicateEvent → DuplicateThread → Prop
  | ticks {now : Nat} : s.clock ≤ now → DuplicateStep s (.tick now) { s with clock := now }
  | proposes (hash : String) : DuplicateStep s (.checkAndAddProposed hash)
      { s with manager := (s.manager.checkAndAddProposed s.clock hash).2 }
  | erases (hash : String) : DuplicateStep s (.eraseProposed hash) { s with manager := s.manager.eraseProposed hash }
  | executes (hash : String) (seq : Nat) : DuplicateStep s (.addExecuted hash seq)
      { s with manager := s.manager.addExecuted s.clock hash seq }
  | starts : DuplicateStep s .start { s with time := s.clock, phase := .waiting }
  | sleeps : s.phase = .waiting → DuplicateStep s .sleep s.sleep
  | wakes {wakeTime : Nat} : s.phase = .sleeping wakeTime → wakeTime ≤ s.clock →
      DuplicateStep s .wake { s with phase := .proposed }
  | forgetsProposed {hash : String} {added : Nat} {rest : List (String × Nat)} : s.phase = .proposed →
      s.manager.proposedHashTimeQueue = (hash, added) :: rest → added + s.manager.windowUseconds < s.time →
      DuplicateStep s .popProposed
        { s with manager := { s.manager with proposedHashTimeQueue := rest }.eraseProposed hash }
  | leavesProposed : s.phase = .proposed →
      (∀ entry ∈ s.manager.proposedHashTimeQueue.head?, s.time ≤ entry.2 + s.manager.windowUseconds) →
      DuplicateStep s .popProposed { s with phase := .executed }
  | forgetsExecuted {hash : String} {added : Nat} {rest : List (String × Nat)} : s.phase = .executed →
      s.manager.executedHashTimeQueue = (hash, added) :: rest → added + s.manager.windowUseconds < s.time →
      DuplicateStep s .popExecuted { s with manager := { s.manager with
        executedHashTimeQueue := rest
        executedHashSet := s.manager.executedHashSet.erase hash
        executedHashSeq := Function.update s.manager.executedHashSeq hash 0 } }
  | leavesExecuted : s.phase = .executed →
      (∀ entry ∈ s.manager.executedHashTimeQueue.head?, s.time ≤ entry.2 + s.manager.windowUseconds) →
      DuplicateStep s .popExecuted { s with phase := .waiting }

theorem act_steps (acted : s.act event = some s') : DuplicateStep s event s' := by
  cases event with
  | checkAndAddProposed hash =>
    cases acted
    exact .proposes hash
  | eraseProposed hash =>
    cases acted
    exact .erases hash
  | addExecuted hash seq =>
    cases acted
    exact .executes hash seq
  | wake =>
    simp only [DuplicateThread.act] at acted
    split at acted
    · rename_i wakeTime sleeping
      simp only [ite_none_right_eq_some, Option.some.injEq] at acted
      obtain ⟨due, rfl⟩ := acted
      exact .wakes sleeping due
    · cases acted
  | popProposed =>
    simp only [DuplicateThread.act, ite_none_right_eq_some, Option.some.injEq] at acted
    obtain ⟨phase, rfl⟩ := acted
    unfold DuplicateManager.popProposed
    cases queue : s.manager.proposedHashTimeQueue with
    | nil => exact .leavesProposed phase (by simp [queue])
    | cons entry rest =>
      obtain ⟨hash, added⟩ := entry
      dsimp only
      split_ifs with old
      · exact .forgetsProposed phase queue old
      · exact .leavesProposed phase (by simpa [queue] using old)
  | popExecuted =>
    simp only [DuplicateThread.act, ite_none_right_eq_some, Option.some.injEq] at acted
    obtain ⟨phase, rfl⟩ := acted
    unfold DuplicateManager.popExecuted
    cases queue : s.manager.executedHashTimeQueue with
    | nil => exact .leavesExecuted phase (by simp [queue])
    | cons entry rest =>
      obtain ⟨hash, added⟩ := entry
      dsimp only
      split_ifs with old
      · exact .forgetsExecuted phase queue old
      · exact .leavesExecuted phase (by simpa [queue] using old)
  | _ =>
    simp only [DuplicateThread.act, ite_none_right_eq_some, Option.some.injEq] at acted
    obtain ⟨enabled, rfl⟩ := acted
    first
    | exact .ticks enabled
    | exact .starts
    | exact .sleeps enabled

theorem Ticking.step (ticking : Ticking configured s) (moved : DuplicateStep s event s') : Ticking configured s' := by
  obtain ⟨frequency, behind⟩ := ticking
  have small : s.frequencyUseconds < 2 ^ 32 := frequency ▸ frequencyUseconds_lt configured
  cases moved with
  | ticks later =>
    refine ⟨frequency, ?_⟩
    unfold Behind at behind ⊢
    dsimp only
    split
    · trivial
    · simpa only [*] using behind
    · exact (by simpa only [*] using behind : s.time ≤ s.clock).trans later
  | starts => exact ⟨frequency, le_rfl⟩
  | sleeps waiting =>
    simp only [Behind, waiting] at behind
    refine ⟨frequency, ?_⟩
    simp only [Behind, DuplicateThread.sleep, toUInt32, subUInt64]
    omega
  | wakes sleeping due =>
    simp only [Behind, sleeping] at behind
    exact ⟨frequency, behind.trans due⟩
  | leavesProposed phase | leavesExecuted phase =>
    simp only [Behind, phase] at behind
    exact ⟨frequency, behind⟩
  | _ => exact ⟨frequency, behind⟩

theorem ticking_run (run : (duplicateThread configured).Run trace s) : Ticking configured s := by
  refine run.invariant (fun _ => True) (Ticking configured) ?_ ?_ (fun _ _ => trivial)
  · rintro s ⟨start, rfl⟩
    exact ⟨rfl, trivial⟩
  · exact fun s event s' ticking acted _ => ticking.step (act_steps acted)

def Dated (queue : List (String × Nat)) (hash : String) (added : Nat) : Prop :=
  ∀ entry ∈ queue, entry.1 = hash → entry.2 = added
deriving Decidable

theorem Dated.push {queue : List (String × Nat)} (dated : Dated queue hash added) {other : String} {now : Nat}
    (same : other = hash → now = added) : Dated (queue ++ [(other, now)]) hash added := by
  exact forall_mem_snoc.mpr ⟨dated, same⟩

theorem Dated.tail {queue rest : List (String × Nat)} {entry : String × Nat} (dated : Dated queue hash added)
    (front : queue = entry :: rest) : Dated rest hash added :=
  fun other member => dated other (front ▸ List.mem_cons_of_mem _ member)

structure ProposedSince (window : Nat) (hash : String) (added : Nat) (s : DuplicateThread) : Prop where
  same : s.manager.windowUseconds = window
  live : s.clock ≤ added + window → hash ∈ s.manager.proposedHashSet ∧ Dated s.manager.proposedHashTimeQueue hash added

structure ExecutedSince (window : Nat) (hash : String) (seq added : Nat) (s : DuplicateThread) : Prop where
  same : s.manager.windowUseconds = window
  live : s.clock ≤ added + window → hash ∈ s.manager.executedHashSet ∧ s.manager.executedHashSeq hash = seq ∧
      Dated s.manager.executedHashTimeQueue hash added

theorem ProposedSince.step {window : Nat} (since : ProposedSince window hash added s) (behind : Behind s)
    (moved : DuplicateStep s event s') (kept : event ≠ .eraseProposed hash) : ProposedSince window hash added s' := by
  obtain ⟨same, live⟩ := since
  cases moved with
  | ticks later => exact ⟨same, fun young => live (later.trans young)⟩
  | proposes other =>
    unfold DuplicateManager.checkAndAddProposed
    split_ifs with known
    · exact ⟨same, live⟩
    · refine ⟨same, fun young => ?_⟩
      obtain ⟨member, dated⟩ := live young
      refine ⟨Finset.mem_insert_of_mem member, dated.push fun again => ?_⟩
      exact absurd (again ▸ member) known
  | erases other =>
    refine ⟨same, fun young => ?_⟩
    obtain ⟨member, dated⟩ := live young
    exact ⟨Finset.mem_erase.mpr ⟨fun again => kept (again ▸ rfl), member⟩, dated⟩
  | forgetsProposed phase queue old =>
    simp only [Behind, phase] at behind
    refine ⟨same, fun young => ?_⟩
    obtain ⟨member, dated⟩ := live young
    refine ⟨Finset.mem_erase.mpr ⟨fun again => ?_, member⟩, dated.tail queue⟩
    have date := dated _ (queue ▸ List.mem_cons_self) again.symm
    dsimp only at date young
    omega
  | _ => exact ⟨same, live⟩

def addsExecuted (hash : String) : DuplicateEvent → Bool
  | .addExecuted other _ => other = hash
  | _ => false

theorem ExecutedSince.step {window : Nat} (since : ExecutedSince window hash seq added s)
    (behind : Behind s) (moved : DuplicateStep s event s') (last : addsExecuted hash event = false) :
    ExecutedSince window hash seq added s' := by
  obtain ⟨same, live⟩ := since
  cases moved with
  | ticks later => exact ⟨same, fun young => live (later.trans young)⟩
  | proposes other =>
    unfold DuplicateManager.checkAndAddProposed
    split_ifs <;> exact ⟨same, live⟩
  | executes other next =>
    refine ⟨same, fun young => ?_⟩
    obtain ⟨member, value, dated⟩ := live young
    have different : other ≠ hash := of_decide_eq_false last
    refine ⟨Finset.mem_insert_of_mem member, ?_, dated.push fun again => absurd again different⟩
    exact (Function.update_of_ne different.symm _ _).trans value
  | forgetsExecuted phase queue old =>
    simp only [Behind, phase] at behind
    refine ⟨same, fun young => ?_⟩
    obtain ⟨member, value, dated⟩ := live young
    have different : hash ≠ _ := fun again => by
      have date := dated _ (queue ▸ List.mem_cons_self) again.symm
      dsimp only at date young
      omega
    exact ⟨Finset.mem_erase.mpr ⟨different, member⟩, (Function.update_of_ne different _ _).trans value,
      dated.tail queue⟩
  | _ => exact ⟨same, live⟩

theorem duplicates_remembered (run : (duplicateThread configured).Run (later ++ t :: past) s) (seq : Nat) :
    (t.event = .checkAndAddProposed hash → hash ∉ t.before.manager.proposedHashSet →
      Dated t.before.manager.proposedHashTimeQueue hash t.before.clock →
      (∀ u ∈ later, u.event ≠ .eraseProposed hash) →
      s.clock ≤ t.before.clock + s.manager.windowUseconds → s.manager.checkIfProposed hash = true) ∧
    (t.event = .addExecuted hash seq → Dated t.before.manager.executedHashTimeQueue hash t.before.clock →
      (∀ u ∈ later, addsExecuted hash u.event = false) →
      s.clock ≤ t.before.clock + s.manager.windowUseconds → s.manager.checkIfExecuted hash = seq) := by
  have added := (run.suffix (List.suffix_append later (t :: past))).2
  constructor
  · intro event new dated kept young
    rw [event] at added
    have after : ProposedSince t.before.manager.windowUseconds hash t.before.clock t.after := by
      rw [← Option.some.inj added]
      unfold DuplicateManager.checkAndAddProposed
      rw [if_neg new]
      exact ⟨rfl, fun _ => ⟨Finset.mem_insert_self _ _, dated.push fun _ => rfl⟩⟩
    have since := run.since (ProposedSince t.before.manager.windowUseconds hash t.before.clock)
      (fun u => u.event ≠ .eraseProposed hash) after
      (fun s e s' ⟨trace, run⟩ since acted kept => since.step (ticking_run run).behind (act_steps acted) kept) kept
    rw [since.same] at young
    exact decide_eq_true (since.live young).1
  · intro event dated last young
    rw [event] at added
    have after : ExecutedSince t.before.manager.windowUseconds hash seq t.before.clock t.after := by
      rw [← Option.some.inj added]
      exact ⟨rfl, fun _ => ⟨Finset.mem_insert_self _ _, Function.update_self _ _ _, dated.push fun _ => rfl⟩⟩
    have since := run.since (ExecutedSince t.before.manager.windowUseconds hash seq t.before.clock)
      (fun u => addsExecuted hash u.event = false) after
      (fun s e s' ⟨trace, run⟩ since acted last => since.step (ticking_run run).behind (act_steps acted) last) last
    rw [since.same] at young
    obtain ⟨member, value, -⟩ := since.live young
    unfold DuplicateManager.checkIfExecuted
    rw [if_pos member, value]

theorem startDuplicates_initial :
    (duplicateThread 0).initial { frequencyUseconds := frequencyUseconds 0, clock := 0 } := ⟨0, rfl⟩

def quietTurn (now : Nat) : List DuplicateEvent := [.sleep, .tick now, .wake, .popProposed, .popExecuted]

def addedOnce : List DuplicateEvent :=
  [.start, .checkAndAddProposed "a", .addExecuted "a" 7] ++ quietTurn 5000000 ++ quietTurn 10000000 ++
    quietTurn 15000000 ++ quietTurn 20000000

theorem addedOnce_remembered :
    (∃ later t past s, (duplicateThread 0).Run (later ++ t :: past) s ∧ t.event = .checkAndAddProposed "a" ∧
      s.clock = t.before.clock + s.manager.windowUseconds ∧ s.manager.checkIfProposed "a" = true) ∧
    ∃ later t past s, (duplicateThread 0).Run (later ++ t :: past) s ∧ t.event = .addExecuted "a" 7 ∧
      s.clock = t.before.clock + s.manager.windowUseconds ∧ s.manager.checkIfExecuted "a" = 7 := by
  constructor
  · obtain ⟨later, t, past, s, run, event, new, dated, kept, now⟩ := System.split_of_play
      ((duplicateThread 0).acts rfl) startDuplicates_initial addedOnce 21
      (fun later t _ s => t.event = .checkAndAddProposed "a" ∧ "a" ∉ t.before.manager.proposedHashSet ∧
        Dated t.before.manager.proposedHashTimeQueue "a" t.before.clock ∧
        (∀ u ∈ later, u.event ≠ .eraseProposed "a") ∧ s.clock = t.before.clock + s.manager.windowUseconds)
      (by decide +kernel)
    exact ⟨later, t, past, s, run, event, now, (duplicates_remembered run 7).1 event new dated kept now.le⟩
  · obtain ⟨later, t, past, s, run, event, dated, last, now⟩ := System.split_of_play
      ((duplicateThread 0).acts rfl) startDuplicates_initial addedOnce 20
      (fun later t _ s => t.event = .addExecuted "a" 7 ∧
        Dated t.before.manager.executedHashTimeQueue "a" t.before.clock ∧
        (∀ u ∈ later, addsExecuted "a" u.event = false) ∧ s.clock = t.before.clock + s.manager.windowUseconds)
      (by decide +kernel)
    exact ⟨later, t, past, s, run, event, now, (duplicates_remembered run 7).2 event dated last now.le⟩

def addedTwice : List DuplicateEvent :=
  [.start, .checkAndAddProposed "a", .addExecuted "a" 1] ++ quietTurn 5000000 ++ quietTurn 10000000 ++
    quietTurn 15000000 ++ [.eraseProposed "a", .checkAndAddProposed "a", .addExecuted "a" 2] ++ quietTurn 20000000 ++
    [.sleep, .tick 25000000, .wake, .popProposed, .popProposed, .popExecuted]

theorem addedTwice_forgotten :
    (∃ later t past s, (duplicateThread 0).Run (later ++ t :: past) s ∧ t.event = .checkAndAddProposed "a" ∧
      "a" ∉ t.before.manager.proposedHashSet ∧ (∀ u ∈ later, u.event ≠ .eraseProposed "a") ∧
      s.clock ≤ t.before.clock + s.manager.windowUseconds ∧ s.manager.checkIfProposed "a" = false) ∧
    ∃ later t past s, (duplicateThread 0).Run (later ++ t :: past) s ∧ t.event = .addExecuted "a" 2 ∧
      (∀ u ∈ later, addsExecuted "a" u.event = false) ∧
      s.clock ≤ t.before.clock + s.manager.windowUseconds ∧ s.manager.checkIfExecuted "a" = 0 := by
  constructor
  · exact System.split_of_play
      ((duplicateThread 0).acts rfl) startDuplicates_initial addedTwice 12 _ (by decide +kernel)
  · exact System.split_of_play
      ((duplicateThread 0).acts rfl) startDuplicates_initial addedTwice 11 _ (by decide +kernel)

section Cleaner

variable {limit limit' window clock clock' : Nat} {queue rest : List (String × Nat)} {set : Finset String}
  {adds adds' : String → Nat → Prop}

structure Aged (adds : String → Nat → Prop) (limit window clock : Nat) (queue : List (String × Nat))
    (set : Finset String) : Prop where
  recent : limit ≤ clock
  sorted : queue.Pairwise fun a b => a.2 ≤ b.2
  young : ∀ entry ∈ queue, adds entry.1 entry.2 ∧ entry.2 ≤ clock ∧ limit ≤ entry.2 + window
  listed : ∀ hash ∈ set, ∃ entry ∈ queue, entry.1 = hash

theorem Aged.mono (aged : Aged adds limit window clock queue set) (later : clock ≤ clock')
    (more : ∀ hash added, adds hash added → adds' hash added) : Aged adds' limit window clock' queue set := by
  refine ⟨aged.recent.trans later, aged.sorted, fun entry member => ?_, aged.listed⟩
  obtain ⟨added, past, young⟩ := aged.young entry member
  exact ⟨more _ _ added, past.trans later, young⟩

theorem Aged.push (aged : Aged adds limit window clock queue set) (new : adds hash clock) :
    Aged adds limit window clock (queue ++ [(hash, clock)]) (insert hash set) := by
  have last := Nat.le_add_right_of_le (k := window) aged.recent
  refine ⟨aged.recent, ?_, forall_mem_snoc.mpr ⟨aged.young, new, le_rfl, last⟩, fun other member => ?_⟩
  · refine List.pairwise_append.mpr ⟨aged.sorted, List.pairwise_singleton _ _, fun a inside b same => ?_⟩
    rw [List.mem_singleton.mp same]
    exact (aged.young a inside).2.1
  · rcases Finset.mem_insert.mp member with rfl | old
    · exact ⟨_, List.mem_append_right _ (List.mem_singleton_self _), rfl⟩
    · obtain ⟨entry, inside, same⟩ := aged.listed other old
      exact ⟨entry, List.mem_append_left _ inside, same⟩

theorem Aged.erase (aged : Aged adds limit window clock queue set) (hash : String) :
    Aged adds limit window clock queue (set.erase hash) :=
  ⟨aged.recent, aged.sorted, aged.young, fun other member => aged.listed other (Finset.mem_of_mem_erase member)⟩

theorem Aged.pop (aged : Aged adds limit window clock ((hash, added) :: rest) set) :
    Aged adds limit window clock rest (set.erase hash) := by
  refine ⟨aged.recent, aged.sorted.of_cons, (List.forall_mem_cons.mp aged.young).2, fun other member => ?_⟩
  obtain ⟨different, inside⟩ := Finset.mem_erase.mp member
  obtain ⟨entry, queued, same⟩ := aged.listed other inside
  rcases List.mem_cons.mp queued with rfl | later
  · exact absurd same.symm different
  · exact ⟨entry, later, same⟩

-- The first entry of the sorted queue decides.
theorem Aged.raise (aged : Aged adds limit window clock queue set) (recent : limit' ≤ clock)
    (front : ∀ entry ∈ queue.head?, limit' ≤ entry.2 + window) : Aged adds limit' window clock queue set := by
  refine ⟨recent, aged.sorted, fun entry member => ?_, aged.listed⟩
  obtain ⟨added, past, -⟩ := aged.young entry member
  refine ⟨added, past, ?_⟩
  cases queue with
  | nil => cases member
  | cons first rest =>
    have young := front first rfl
    rcases List.mem_cons.mp member with rfl | behind
    · exact young
    · have order := List.rel_of_pairwise_cons aged.sorted behind
      omega

def Called (calls : String → DuplicateEvent → Bool) (trace : List (Transition DuplicateThread DuplicateEvent))
    (hash : String) (added : Nat) : Prop :=
  ∃ t ∈ trace, calls hash t.event = true ∧ t.before.clock = added

def addsProposed (hash : String) : DuplicateEvent → Bool
  | .checkAndAddProposed other => other = hash
  | _ => false

theorem Called.cons {calls : String → DuplicateEvent → Bool} (hash : String) (added : Nat)
    (called : Called calls trace hash added) : Called calls (t :: trace) hash added := by
  obtain ⟨u, member, found⟩ := called
  exact ⟨u, List.mem_cons_of_mem _ member, found⟩

def proposedLimit (s : DuplicateThread) : Nat :=
  match s.phase with
  | .sleeping _ | .proposed => s.time - s.frequencyUseconds
  | _ => s.time

def executedLimit (s : DuplicateThread) : Nat :=
  match s.phase with
  | .starting | .waiting => s.time
  | _ => s.time - s.frequencyUseconds

structure Cleaned (trace : List (Transition DuplicateThread DuplicateEvent)) (s : DuplicateThread) : Prop where
  proposed : Aged (Called addsProposed trace) (proposedLimit s) s.manager.windowUseconds s.clock
    s.manager.proposedHashTimeQueue s.manager.proposedHashSet
  executed : Aged (Called addsExecuted trace) (executedLimit s) s.manager.windowUseconds s.clock
    s.manager.executedHashTimeQueue s.manager.executedHashSet

def Prompt (t : Transition DuplicateThread DuplicateEvent) : Prop :=
  t.event = .start → ∀ entry ∈ t.before.manager.proposedHashTimeQueue ++ t.before.manager.executedHashTimeQueue,
    t.before.clock ≤ entry.2 + t.before.manager.windowUseconds
deriving Decidable

theorem Cleaned.step (cleaned : Cleaned trace s) (behind : Behind s) (moved : DuplicateStep s event s')
    (prompt : Prompt t) (before : t.before = s) (called : t.event = event) : Cleaned (t :: trace) s' := by
  have proposed := cleaned.proposed.mono le_rfl (Called.cons (t := t))
  have executed := cleaned.executed.mono le_rfl (Called.cons (t := t))
  cases moved with
  | ticks later => exact ⟨proposed.mono later fun _ _ => id, executed.mono later fun _ _ => id⟩
  | proposes hash =>
    unfold DuplicateManager.checkAndAddProposed
    split_ifs
    · exact ⟨proposed, executed⟩
    · exact ⟨proposed.push ⟨t, List.mem_cons_self, called ▸ decide_eq_true rfl, before ▸ rfl⟩, executed⟩
  | erases hash => exact ⟨proposed.erase hash, executed⟩
  | executes hash seq =>
    exact ⟨proposed, executed.push ⟨t, List.mem_cons_self, called ▸ decide_eq_true rfl, before ▸ rfl⟩⟩
  | starts =>
    have young := List.forall_mem_append.mp (before ▸ prompt called)
    exact ⟨proposed.raise le_rfl fun entry front => young.1 entry (List.mem_of_mem_head? front),
      executed.raise le_rfl fun entry front => young.2 entry (List.mem_of_mem_head? front)⟩
  | sleeps waiting =>
    simp only [proposedLimit, executedLimit, waiting] at proposed executed
    constructor
    · simpa only [proposedLimit, DuplicateThread.sleep, Nat.add_sub_cancel] using proposed
    · simpa only [executedLimit, DuplicateThread.sleep, Nat.add_sub_cancel] using executed
  | wakes sleeping =>
    simp only [proposedLimit, executedLimit, sleeping] at proposed executed
    exact ⟨proposed, executed⟩
  | forgetsProposed phase queue =>
    rw [queue] at proposed
    exact ⟨proposed.pop, executed⟩
  | leavesProposed phase front =>
    simp only [Behind, executedLimit, phase] at behind executed
    exact ⟨proposed.raise behind front, executed⟩
  | forgetsExecuted phase queue =>
    rw [queue] at executed
    exact ⟨proposed, executed.pop⟩
  | leavesExecuted phase front =>
    simp only [Behind, proposedLimit, phase] at behind proposed
    exact ⟨proposed, executed.raise behind front⟩

theorem cleaned_run (run : (duplicateThread configured).Run trace s) (prompt : ∀ t ∈ trace, Prompt t) :
    Cleaned trace s := by
  induction run with
  | initial first =>
    obtain ⟨start, rfl⟩ := first
    constructor <;> exact ⟨Nat.zero_le _, .nil, nofun, nofun⟩
  | next earlier acted ih =>
    have cleaned := ih fun t member => prompt t (List.mem_cons_of_mem _ member)
    exact cleaned.step (ticking_run earlier).behind (act_steps acted) (prompt _ List.mem_cons_self) rfl rfl

theorem Aged.bound (aged : Aged adds limit window clock queue set) (member : hash ∈ set) {time frequency : Nat}
    (turn : time ≤ limit + frequency) :
    ∃ added, adds hash added ∧ clock ≤ added + window + frequency + (clock - time) := by
  obtain ⟨entry, queued, rfl⟩ := aged.listed hash member
  obtain ⟨added, -, young⟩ := aged.young entry queued
  exact ⟨entry.2, added, by omega⟩

def sleepTime (t : Transition DuplicateThread DuplicateEvent) : Nat := subUInt64 t.after.time t.before.clock

def OnTime (t : Transition DuplicateThread DuplicateEvent) : Prop := t.before.clock ≤ t.after.time
deriving Decidable

theorem sleepTime_le_iff (ticking : Ticking configured s) (acted : s.act .sleep = some s') (inside : s.clock < 2 ^ 64) :
    (sleepTime ⟨s, .sleep, s'⟩ ≤ s'.frequencyUseconds ↔ OnTime ⟨s, .sleep, s'⟩) ∧
      (OnTime ⟨s, .sleep, s'⟩ → s'.phase = .sleeping s'.time) := by
  have small : s.frequencyUseconds < 2 ^ 32 := ticking.frequency ▸ frequencyUseconds_lt configured
  have behind := ticking.behind
  cases act_steps acted with
  | sleeps waiting =>
    simp only [Behind, waiting] at behind
    simp only [sleepTime, OnTime, DuplicateThread.sleep, toUInt32, subUInt64, ForgetPhase.sleeping.injEq]
    omega

theorem cleaner_on_time_iff (run : (duplicateThread configured).Run trace s) (prompt : ∀ t ∈ trace, Prompt t) :
    (∀ t ∈ trace, t.event = .sleep → t.before.clock < 2 ^ 64 →
      (sleepTime t ≤ t.after.frequencyUseconds ↔ OnTime t) ∧ (OnTime t → t.after.phase = .sleeping t.after.time)) ∧
    (∀ hash ∈ s.manager.proposedHashSet, ∃ added, Called addsProposed trace hash added ∧
      s.clock ≤ added + s.manager.windowUseconds + s.frequencyUseconds + (s.clock - s.time)) ∧
    ∀ hash ∈ s.manager.executedHashSet, ∃ added, Called addsExecuted trace hash added ∧
      s.clock ≤ added + s.manager.windowUseconds + s.frequencyUseconds + (s.clock - s.time) := by
  have cleaned := cleaned_run run prompt
  refine ⟨fun t member event inside => ?_, fun hash member => cleaned.proposed.bound member ?_,
    fun hash member => cleaned.executed.bound member ?_⟩
  · obtain ⟨past, -, earlier, acted⟩ := run.earlier member
    obtain ⟨before, called, after⟩ := t
    cases event
    exact sleepTime_le_iff (ticking_run earlier) acted inside
  · unfold proposedLimit
    split <;> omega
  · unfold executedLimit
    split <;> omega

theorem addedOnce_cleaned : ∃ trace s, (duplicateThread 0).Run trace s ∧
    (∃ t ∈ trace, t.event = .sleep ∧ sleepTime t ≤ t.after.frequencyUseconds) ∧
    ∃ added, Called addsProposed trace "a" added ∧ s.clock ≤ added + 25000000 := by
  obtain ⟨trace, s, run, prompt, ⟨t, member, event, inside, onTime⟩, listed, window, frequency, now⟩ :=
    System.run_of_play ((duplicateThread 0).acts rfl) startDuplicates_initial addedOnce
      (fun trace s => (∀ t ∈ trace, Prompt t) ∧ (∃ t ∈ trace, t.event = .sleep ∧ t.before.clock < 2 ^ 64 ∧ OnTime t) ∧
        "a" ∈ s.manager.proposedHashSet ∧ s.manager.windowUseconds = 20000000 ∧ s.frequencyUseconds = 5000000 ∧
        s.clock = s.time) (by decide +kernel)
  obtain ⟨sleeps, proposed, -⟩ := cleaner_on_time_iff run prompt
  obtain ⟨added, called, young⟩ := proposed "a" listed
  exact ⟨trace, s, run, ⟨t, member, event, (sleeps t member event inside).1.mpr onTime⟩, added, called, by omega⟩

def latePass : List DuplicateEvent :=
  [.start, .checkAndAddProposed "a", .addExecuted "a" 7, .sleep, .tick 5000000, .wake, .popProposed, .tick 11000000,
    .popExecuted, .sleep, .tick 4300000000]

theorem latePass_oversleeps : ∃ later t past s, (duplicateThread 0).Run (later ++ t :: past) s ∧
    (∀ u ∈ later ++ t :: past, Prompt u) ∧ t.event = .sleep ∧ t.after.frequencyUseconds < sleepTime t ∧
    (∀ u ∈ later ++ t :: past, addsProposed "a" u.event ∨ addsExecuted "a" u.event → u.before.clock = 0) ∧
    (∀ u ∈ later ++ t :: past, u.before.phase = .waiting → u.before.clock - u.before.time ≤ 6000000) ∧
    s.manager.windowUseconds + s.frequencyUseconds + 6000000 < s.clock ∧
    "a" ∈ s.manager.proposedHashSet ∧ "a" ∈ s.manager.executedHashSet :=
  System.split_of_play ((duplicateThread 0).acts rfl) startDuplicates_initial latePass 1 _ (by decide +kernel)

end Cleaner

end ResilientDB.Proof
