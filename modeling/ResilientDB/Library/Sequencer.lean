import ResilientDB.Library.OrderedMap
import Mathlib.Data.List.Infix
import Mathlib.Data.List.Nodup
import Mathlib.Data.List.Range

-- The element with the least key is handed out if it is the next one of an increasing sequence.

namespace ResilientDB.Library
open List

variable {κ α : Type*} [LinearOrder κ]

def nextOut (expected : Nat → κ) (count : Nat) (waiting : OrderedMap κ α) : Option α :=
  match waiting.first? with
  | some (k, x) => if k = expected count then some x else none
  | none => none

def handAll (expected : Nat → κ) : Nat → List α × OrderedMap κ α → List α × OrderedMap κ α
  | 0, s => s
  | turns + 1, s =>
    match nextOut expected s.1.length s.2 with
    | none => s
    | some x => handAll expected turns (s.1 ++ [x], s.2.eraseIf fun k => k = expected s.1.length)

structure Clears (key : α → κ) (expected : Nat → κ) (position : Nat) (front : List α) : Prop where
  came : ∀ n ≤ position, ∃ x ∈ front, key x = expected n
  proper : ∀ x ∈ front, key x < expected position → ∃ n, key x = expected n

structure Sequenced (key : α → κ) (expected : Nat → κ) (arrived passed : List α) (waiting : OrderedMap κ α) : Prop where
  keys : passed.map key = (List.range passed.length).map expected
  inside : passed ⊆ arrived
  held : ∀ k x, waiting.find? k = some x ↔ key x = k ∧ x ∈ arrived ∧ x ∉ passed
  cleared : ∀ n < passed.length, ∃ front, front <+: arrived ∧ Clears key expected n front

variable {key : α → κ} {expected : Nat → κ} {arrived passed : List α} {waiting : OrderedMap κ α} {x : α} {n : Nat}

theorem nextOut_eq_some : nextOut expected n waiting = some x ↔ waiting.first? = some (expected n, x) := by
  unfold nextOut
  cases waiting.first? with
  | none => simp
  | some entry =>
    obtain ⟨k, y⟩ := entry
    by_cases due : k = expected n <;> simp [due]

namespace Sequenced

theorem nil : Sequenced key expected [] [] .empty :=
  ⟨rfl, List.Subset.refl _, by simp, fun _ below => absurd below (Nat.not_lt_zero _)⟩

section

variable (s : Sequenced key expected arrived passed waiting)
include s

theorem exists_passed (below : n < passed.length) : ∃ x ∈ passed, key x = expected n := by
  have member : expected n ∈ passed.map key := by
    rw [s.keys]
    exact mem_map_of_mem (mem_range.mpr below)
  simpa using member

theorem exists_position (member : x ∈ passed) : ∃ n < passed.length, key x = expected n := by
  have position : key x ∈ passed.map key := mem_map_of_mem member
  rw [s.keys] at position
  obtain ⟨n, below, same⟩ := mem_map.mp position
  exact ⟨n, mem_range.mp below, same.symm⟩

theorem arrive (fresh : key x ∉ arrived.map key) :
    Sequenced key expected (arrived ++ [x]) passed (waiting.assign (key x) x) := by
  have absent : ∀ y ∈ arrived, key y ≠ key x := fun y member same => fresh (same ▸ mem_map_of_mem member)
  refine ⟨s.keys, fun y member => mem_append_left _ (s.inside member), fun k y => ?_, fun n below => ?_⟩
  · rw [OrderedMap.find?_assign]
    by_cases here : k = key x
    · rw [if_pos here, here]
      constructor
      · intro same
        cases same
        exact ⟨rfl, by simp, fun member => absent x (s.inside member) rfl⟩
      · rintro ⟨same, member, -⟩
        rcases mem_append.mp member with old | new
        · exact absurd same (absent y old)
        · rw [mem_singleton.mp new]
    · rw [if_neg here, s.held]
      refine and_congr_right fun same => and_congr_left fun _ => ?_
      have other : y ≠ x := fun equal => here (by rw [← same, equal])
      simp [other]
  · obtain ⟨front, initial, clears⟩ := s.cleared n below
    exact ⟨front, initial.trans (prefix_append _ _), clears⟩

theorem held_back (mono : StrictMono expected)
    (hand : nextOut expected passed.length waiting = some x) {y : α} (member : y ∈ arrived)
    (foreign : ∀ n, key y ≠ expected n) (below : key y < expected n) : passed.length < n := by
  have stays : y ∉ passed := fun gone => by
    obtain ⟨n, -, same⟩ := s.exists_position gone
    exact foreign n same
  have there := (s.held (key y) y).mpr ⟨rfl, member, stays⟩
  have least := (OrderedMap.first?_eq_some (nextOut_eq_some.mp hand)).2 _ _ there
  exact mono.lt_iff_lt.mp (lt_of_le_of_lt least below)

section

variable (mono : StrictMono expected) (distinct : (arrived.map key).Nodup)
include mono distinct

theorem hand (hand : nextOut expected passed.length waiting = some x) :
    Sequenced key expected arrived (passed ++ [x]) (waiting.eraseIf fun k => k = expected passed.length) := by
  have found := (OrderedMap.first?_eq_some (nextOut_eq_some.mp hand)).1
  obtain ⟨due, member, -⟩ := (s.held _ _).mp found
  have keys : (passed ++ [x]).map key = (List.range (passed ++ [x]).length).map expected := by
    rw [map_append, s.keys, length_append, length_singleton, range_succ, map_append, map_singleton, map_singleton, due]
  have all : passed ++ [x] ⊆ arrived := by
    intro y member'
    rcases mem_append.mp member' with old | new
    · exact s.inside old
    · rwa [mem_singleton.mp new]
  refine ⟨keys, all, fun k y => ?_, fun n below => ?_⟩
  · simp only [OrderedMap.find?_eraseIf, decide_eq_true_eq]
    by_cases here : k = expected passed.length
    · rw [if_pos here]
      refine iff_of_false (by simp) ?_
      rintro ⟨same, arrivedY, missing⟩
      have equal : y = x := inj_on_of_nodup_map distinct arrivedY member (by rw [same, due, here])
      exact missing (by simp [equal])
    · rw [if_neg here, s.held]
      refine and_congr_right fun same => and_congr_right fun _ => ?_
      have other : y ≠ x := fun equal => here (by rw [← same, equal, due])
      simp [other]
  · rw [length_append, length_singleton] at below
    by_cases old : n < passed.length
    · exact s.cleared n old
    · obtain rfl : n = passed.length := by omega
      refine ⟨arrived, prefix_refl _, fun m most => ?_, fun y memberY smaller => ?_⟩
      · rcases most.lt_or_eq with earlier | rfl
        · obtain ⟨y, memberY, same⟩ := s.exists_passed earlier
          exact ⟨y, s.inside memberY, same⟩
        · exact ⟨x, member, due⟩
      · by_contra foreign
        rw [not_exists] at foreign
        exact lt_irrefl _ (s.held_back mono hand memberY foreign smaller)

theorem passed_of_clears (stuck : nextOut expected passed.length waiting = none)
    (clears : Clears key expected n arrived) : n < passed.length := by
  by_contra more
  obtain ⟨y, member, due⟩ := clears.came passed.length (not_lt.mp more)
  have stays : y ∉ passed := fun gone => by
    obtain ⟨m, below, same⟩ := s.exists_position gone
    exact absurd (mono.injective (due.symm.trans same)) (by omega)
  obtain ⟨k, z, first⟩ := OrderedMap.first?_isSome ((s.held _ y).mpr ⟨rfl, member, stays⟩)
  obtain ⟨found, least⟩ := OrderedMap.first?_eq_some first
  obtain ⟨rfl, memberZ, waits⟩ := (s.held _ _).mp found
  have most : key z ≤ expected passed.length := least _ y ((s.held _ y).mpr ⟨due, member, stays⟩)
  rcases most.lt_or_eq with smaller | same
  · -- a smaller key is one of the sequence, so it has been handed out
    obtain ⟨m, position⟩ := clears.proper z memberZ (smaller.trans_le (mono.monotone (not_lt.mp more)))
    have earlier : m < passed.length := mono.lt_iff_lt.mp (position ▸ smaller)
    obtain ⟨w, gone, sameKey⟩ := s.exists_passed earlier
    have equal : w = z := inj_on_of_nodup_map distinct (s.inside gone) memberZ (sameKey.trans position.symm)
    exact waits (equal ▸ gone)
  · rw [nextOut_eq_some.mpr (same ▸ first)] at stuck
    cases stuck

theorem handAll (turns : Nat) : Sequenced key expected arrived (Library.handAll expected turns (passed, waiting)).1
      (Library.handAll expected turns (passed, waiting)).2 := by
  induction turns generalizing passed waiting with
  | zero => exact s
  | succ turns ih =>
    unfold Library.handAll
    cases next : nextOut expected passed.length waiting with
    | none => exact s
    | some x => exact ih (s.hand mono distinct next)

end

end

end Sequenced

theorem handAll_stuck {turns : Nat} {s : List α × OrderedMap κ α} (enough : s.2.size ≤ turns) :
    nextOut expected (handAll expected turns s).1.length (handAll expected turns s).2 = none := by
  induction turns generalizing s with
  | zero =>
    cases next : nextOut expected s.1.length s.2 with
    | none => exact next
    | some x =>
      have less := OrderedMap.size_eraseIf_lt (OrderedMap.first?_eq_some (nextOut_eq_some.mp next)).1
      omega
  | succ turns ih =>
    unfold handAll
    cases next : nextOut expected s.1.length s.2 with
    | none => exact next
    | some x =>
      have less := OrderedMap.size_eraseIf_lt (OrderedMap.first?_eq_some (nextOut_eq_some.mp next)).1
      exact ih (by dsimp only; omega)

theorem le_length_handAll (turns : Nat) (s : List α × OrderedMap κ α) :
    s.1.length ≤ (handAll expected turns s).1.length := by
  induction turns generalizing s with
  | zero => exact le_rfl
  | succ turns ih =>
    unfold handAll
    cases next : nextOut expected s.1.length s.2 with
    | none => exact le_rfl
    | some x =>
      refine le_trans ?_ (ih _)
      simp

omit [LinearOrder κ] in
/-- Lists in the order of their keys agree as far as both go, if what they have under one key agrees. -/
theorem take_map_of_keys {β : Type*} {xs ys : List α} {value : α → β}
    (left : xs.map key = (range xs.length).map expected)
    (right : ys.map key = (range ys.length).map expected)
    (agree : ∀ x ∈ xs, ∀ y ∈ ys, key x = key y → value x = value y) (here : n ≤ xs.length) (there : n ≤ ys.length) :
    (xs.take n).map value = (ys.take n).map value := by
  refine ext_getElem (by simp [here, there]) fun m inside _ => ?_
  rw [length_map, length_take, min_eq_left here] at inside
  have first : key xs[m] = expected m := by
    simpa [inside.trans_le here] using congrArg (fun keys => keys[m]?) left
  have second : key ys[m] = expected m := by
    simpa [inside.trans_le there] using congrArg (fun keys => keys[m]?) right
  simpa using agree xs[m] (getElem_mem _) ys[m] (getElem_mem _) (first.trans second.symm)

end ResilientDB.Library
