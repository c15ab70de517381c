import Mathlib.Data.List.Pairwise
import Mathlib.Order.Lattice

namespace ResilientDB.Library
open List

structure PriorityQueue {α κ : Type*} [LinearOrder κ] (key : α → κ) where
  items : List α
  sorted : items.Pairwise fun a b => key b ≤ key a

namespace PriorityQueue

variable {α κ : Type*} [LinearOrder κ] {key : α → κ} {item other : α} {items : List α}

def empty : PriorityQueue key := ⟨[], .nil⟩

def rankIn (key : α → κ) (item : α) (items : List α) : Nat := (items.takeWhile fun other => key item < key other).length

theorem rankIn_le : rankIn key item items ≤ items.length := (takeWhile_sublist _).length_le

theorem insertIdx_sorted (sorted : items.Pairwise fun a b => key b ≤ key a) :
    (items.insertIdx (rankIn key item items) item).Pairwise fun a b => key b ≤ key a := by
  induction items with
  | nil => exact pairwise_singleton _ _
  | cons head rest ih =>
    obtain ⟨first, more⟩ := pairwise_cons.mp sorted
    by_cases later : key item < key head
    · have next : rankIn key item (head :: rest) = rankIn key item rest + 1 := by
        simp [rankIn, later]
      rw [next, insertIdx_succ_cons]
      refine pairwise_cons.mpr ⟨fun b member => ?_, ih more⟩
      rcases (mem_insertIdx rankIn_le).mp member with rfl | old
      · exact later.le
      · exact first b old
    · have here : rankIn key item (head :: rest) = 0 := by
        simp [rankIn, later]
      rw [here, insertIdx_zero]
      refine pairwise_cons.mpr ⟨fun b member => ?_, sorted⟩
      rcases mem_cons.mp member with rfl | old
      · exact not_lt.mp later
      · exact (first b old).trans (not_lt.mp later)

variable (q : PriorityQueue key)

def rank (item : α) : Nat := rankIn key item q.items

def push (item : α) : PriorityQueue key := ⟨q.items.insertIdx (q.rank item) item, insertIdx_sorted q.sorted⟩

def size : Nat := q.items.length

def pop? : Option (α × PriorityQueue key) :=
  match q with
  | ⟨[], _⟩ => none
  | ⟨item :: rest, sorted⟩ => some (item, ⟨rest, (pairwise_cons.mp sorted).2⟩)

variable {q} {q' : PriorityQueue key}

theorem mem_push : other ∈ (q.push item).items ↔ other = item ∨ other ∈ q.items := mem_insertIdx rankIn_le

theorem pop?_items (popped : q.pop? = some (item, q')) : q.items = item :: q'.items := by
  obtain ⟨items, sorted⟩ := q
  cases items with
  | nil => cases popped
  | cons head rest =>
    cases popped
    rfl

theorem key_le_of_pop? (popped : q.pop? = some (item, q')) (member : other ∈ q.items) : key other ≤ key item := by
  have sorted := q.sorted
  rw [pop?_items popped] at member sorted
  rcases mem_cons.mp member with rfl | later
  · exact le_rfl
  · exact (pairwise_cons.mp sorted).1 other later

end PriorityQueue
end ResilientDB.Library
