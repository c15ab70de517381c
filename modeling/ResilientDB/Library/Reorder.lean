import Mathlib.Order.Lattice.Nat
import Mathlib.Tactic.Ring

-- Elements are released by their keys `1, 2, ...`; the first one of a key counts.

namespace ResilientDB.Library
open List Option

variable {α : Type*} {key : α → Nat} {received released : List α}

def firstOf (key : α → Nat) (received : List α) (n : Nat) : Option α := received.find? fun x => key x = n

theorem firstOf_append (key : α → Nat) (received : List α) (x : α) (n : Nat) :
    firstOf key (received ++ [x]) n = (firstOf key received n).or (if key x = n then some x else none) := by
  unfold firstOf
  rw [find?_append]
  by_cases same : key x = n <;> simp [same]

theorem key_firstOf {n : Nat} {x : α} (found : firstOf key received n = some x) : key x = n := by
  simpa using find?_some found

theorem firstOf_isSome {n : Nat} : (∃ x ∈ received, key x = n) ↔ (firstOf key received n).isSome = true := by
  simp [firstOf]

def InKeyOrder (key : α → Nat) (received released : List α) : Prop :=
  released.map some = (List.range' 1 released.length).map (firstOf key received)

theorem InKeyOrder.nil : InKeyOrder key received [] := rfl

theorem InKeyOrder.getElem? (order : InKeyOrder key received released) {n : Nat} (below : n < released.length) :
    firstOf key received (n + 1) = released[n]? := by
  have entry := congrArg (fun list => list[n]?) order
  simp only [getElem?_map, getElem?_range' below, map_some] at entry
  rw [getElem?_eq_getElem below] at entry ⊢
  simpa [Nat.add_comm] using entry.symm

theorem inKeyOrder_of_getElem? (each : ∀ n < released.length, firstOf key received (n + 1) = released[n]?) :
    InKeyOrder key received released := by
  apply ext_getElem?
  intro n
  by_cases below : n < released.length
  · have entry := each n below
    rw [getElem?_eq_getElem below] at entry
    simp only [getElem?_map, getElem?_range' below, getElem?_eq_getElem below, map_some]
    rw [Nat.one_mul, Nat.add_comm, entry]
  · have beyond : released.length ≤ n := not_lt.mp below
    simp [beyond]

section

variable (order : InKeyOrder key received released)
include order

theorem InKeyOrder.arrive (x : α) : InKeyOrder key (received ++ [x]) released := by
  apply inKeyOrder_of_getElem?
  intro n below
  rw [firstOf_append, order.getElem? below, getElem?_eq_getElem below, some_or]

theorem InKeyOrder.release {x : α}
    (next : firstOf key received (released.length + 1) = some x) : InKeyOrder key received (released ++ [x]) := by
  unfold InKeyOrder at order ⊢
  rw [map_append, order, length_append, length_singleton, range'_concat, map_append, Nat.one_mul, Nat.add_comm 1]
  simp [next]

theorem InKeyOrder.keys : released.map key = List.range' 1 released.length := by
  apply ext_getElem?
  intro n
  by_cases below : n < released.length
  · have entry := order.getElem? below
    rw [getElem?_eq_getElem below] at entry
    simp only [getElem?_map, getElem?_range' below, getElem?_eq_getElem below, map_some]
    rw [key_firstOf entry, Nat.one_mul, Nat.add_comm]
  · have beyond : released.length ≤ n := not_lt.mp below
    simp [beyond]

theorem InKeyOrder.first {x : α} (member : x ∈ released) : firstOf key received (key x) = some x := by
  obtain ⟨n, below, rfl⟩ := getElem_of_mem member
  have entry := order.getElem? below
  rw [getElem?_eq_getElem below] at entry
  rw [key_firstOf entry]
  exact entry

/-- The released keys are the longest gapless sequence from 1. -/
theorem InKeyOrder.greatest (none : firstOf key received (released.length + 1) = none) :
    IsGreatest {k | ∀ n, 1 ≤ n → n ≤ k → ∃ x ∈ received, key x = n} released.length := by
  constructor
  · intro n least most
    rw [firstOf_isSome]
    obtain ⟨n, rfl⟩ := Nat.exists_eq_add_of_le' least
    rw [order.getElem? (by omega), getElem?_eq_getElem (by omega)]
    rfl
  · intro k gapless
    by_contra more
    have found := firstOf_isSome.mp (gapless (released.length + 1) (by omega) (by omega))
    rw [none] at found
    cases found

theorem InKeyOrder.eq_of_firstOf (stopped : firstOf key received (released.length + 1) = none) {expected : List α}
    (firsts : ∀ n, firstOf key received (n + 1) = expected[n]?) : released = expected := by
  apply ext_getElem?
  intro n
  by_cases below : n < released.length
  · rw [← order.getElem? below, firsts]
  · have beyond : released.length ≤ n := not_lt.mp below
    rw [firsts, List.getElem?_eq_none_iff] at stopped
    rw [getElem?_eq_none beyond, getElem?_eq_none (stopped.trans beyond)]

end

def nextAfter (numbers : List Nat) : Nat := numbers.foldl (fun next n => if n = next then next + 1 else next) 1

theorem nextAfter_append (numbers : List Nat) (n : Nat) :
    nextAfter (numbers ++ [n]) = if n = nextAfter numbers then nextAfter numbers + 1 else nextAfter numbers := by
  unfold nextAfter
  rw [foldl_append]
  rfl

theorem range'_sublist_of_nextAfter (numbers : List Nat) :
    ∃ taken, nextAfter numbers = taken + 1 ∧ (List.range' 1 taken).Sublist numbers := by
  induction numbers using List.reverseRecOn with
  | nil => exact ⟨0, rfl, List.Sublist.refl _⟩
  | append_singleton numbers n ih =>
    obtain ⟨taken, next, inside⟩ := ih
    rw [nextAfter_append, next]
    split_ifs with comes
    · refine ⟨taken + 1, rfl, ?_⟩
      rw [range'_concat, comes, Nat.one_mul, Nat.add_comm 1]
      exact inside.append (List.Sublist.refl _)
    · exact ⟨taken, rfl, inside.trans (sublist_append_left _ _)⟩

theorem nextAfter_range' (m : Nat) : nextAfter (List.range' 1 m) = m + 1 := by
  induction m with
  | zero => rfl
  | succ m ih => rw [range'_concat, nextAfter_append, ih, Nat.one_mul, Nat.add_comm 1, if_pos rfl]

theorem eq_nextAfter_of_range' {front rest : List Nat} {n m : Nat} (split : front ++ n :: rest = List.range' 1 m) :
    n = nextAfter front := by
  have length := congrArg List.length split
  simp only [length_append, length_cons, length_range'] at length
  have parts : List.range' 1 front.length ++ List.range' (1 + 1 * front.length) (rest.length + 1) =
      List.range' 1 m := by
    rw [range'_append, length]
  obtain ⟨before, after⟩ := append_inj (split.trans parts.symm) (by simp)
  rw [range'_succ] at after
  rw [before, nextAfter_range', (List.cons.inj after).1]
  omega

theorem nextAfter_eq_iff {numbers : List Nat} {least m : Nat}
    (perm : numbers.Perm (List.range' (least + 1) (m - least))) (ordered : least ≤ m) :
    nextAfter numbers = m + 1 ↔ least = 0 ∧ numbers = List.range' 1 m := by
  constructor
  · intro through
    obtain ⟨taken, next, inside⟩ := range'_sublist_of_nextAfter numbers
    obtain rfl : taken = m := by omega
    have length := perm.length_eq
    have fewer := inside.length_le
    rw [length_range'] at length fewer
    have zero : least = 0 := by omega
    subst zero
    exact ⟨rfl, (inside.eq_of_length (by rw [length_range', length]; omega)).symm⟩
  · rintro ⟨-, rfl⟩
    exact nextAfter_range' m

end ResilientDB.Library
