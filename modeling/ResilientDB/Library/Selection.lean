import Mathlib.Data.List.Perm.Basic
import Mathlib.Data.List.Sort

namespace ResilientDB.Library
open List

variable {α β κ : Type*} {part : α → List β} {l chosen : List α} {p : α → Bool}

theorem forall_mem_concat {a b : α} {p : α → Prop} (all : ∀ x ∈ l ++ [a], p x)
    (last : p a → p b) : ∀ x ∈ l ++ [b], p x := by
  simp only [forall_mem_append, forall_mem_singleton] at *
  exact ⟨all.1, last all.2⟩

theorem map_eq_self {f : α → α} (same : ∀ a ∈ l, f a = a) : l.map f = l := (map_congr_left same).trans (map_id l)

theorem eq_singleton {a : α} (nodup : l.Nodup) (inside : a ∈ l) (only : ∀ b ∈ l, b = a) : l = [a] := by
  cases l with
  | nil => cases inside
  | cons b rest =>
    rw [only b mem_cons_self] at nodup ⊢
    cases rest with
    | nil => rfl
    | cons c rest =>
      have same := only c (mem_cons_of_mem _ mem_cons_self)
      simp [same] at nodup

def AtSomePoint (good : List α → α → Prop) (l : List α) : Prop := ∃ front a rest, l = front ++ a :: rest ∧ good front a

theorem atSomePoint_nil {good : List α → α → Prop} : ¬ AtSomePoint good [] := by
  rintro ⟨front, a, rest, split, -⟩
  simp at split

theorem atSomePoint_append {good : List α → α → Prop} {a : α} :
    AtSomePoint good (l ++ [a]) ↔ AtSomePoint good l ∨ good l a := by
  constructor
  · rintro ⟨front, b, rest, split, holds⟩
    rcases eq_nil_or_concat rest with rfl | ⟨rest, c, rfl⟩
    · obtain ⟨rfl, same⟩ := append_inj' split rfl
      cases same
      exact .inr holds
    · have longer : l ++ [a] = (front ++ b :: rest) ++ [c] := by simpa using split
      exact .inl ⟨front, b, rest, (append_inj' longer rfl).1, holds⟩
  · rintro (⟨front, b, rest, rfl, holds⟩ | holds)
    · exact ⟨front, b, rest ++ [a], by simp, holds⟩
    · exact ⟨l, a, [], rfl, holds⟩

theorem AtSomePoint.append {good : List α → α → Prop} {rest : List α} (point : AtSomePoint good l) :
    AtSomePoint good (l ++ rest) := by
  obtain ⟨front, a, after, rfl, holds⟩ := point
  exact ⟨front, a, after ++ rest, by simp, holds⟩

instance {good : List α → α → Prop} [∀ front a, Decidable (good front a)] : Decidable (AtSomePoint good l) :=
  decidable_of_iff (∃ i : Fin l.length, good (l.take i) l[i]) <| by
    constructor
    · rintro ⟨i, holds⟩
      exact ⟨l.take i, l[i], l.drop (i + 1), by simp, holds⟩
    · rintro ⟨front, a, rest, rfl, holds⟩
      exact ⟨⟨front.length, by simp⟩, by simpa using holds⟩

def lastValue (good : α → Bool) (value : α → κ) (start : κ) (l : List α) : κ :=
  l.foldl (fun last a => if good a then value a else last) start

theorem lastValue_cons (good : α → Bool) (value : α → κ) (start : κ) (a : α) (rest : List α) :
    lastValue good value start (a :: rest) = lastValue good value (if good a then value a else start) rest := rfl

theorem lastValue_cases (good : α → Bool) (value : α → κ) (start : κ) (l : List α) :
    lastValue good value start l = start ∨ ∃ a ∈ l, good a = true ∧ lastValue good value start l = value a := by
  induction l generalizing start with
  | nil => exact .inl rfl
  | cons a rest ih =>
    rw [lastValue_cons]
    rcases ih (if good a then value a else start) with same | ⟨b, member, holds, same⟩
    · rw [same]
      split_ifs with holds
      · exact .inr ⟨a, mem_cons_self, holds, rfl⟩
      · exact .inl rfl
    · exact .inr ⟨b, mem_cons_of_mem _ member, holds, same⟩

theorem le_lastValue [LinearOrder κ] {good : α → Bool} {value : α → κ} {start : κ} {a : α}
    (ascending : l.Pairwise fun a b => value a ≤ value b) (member : a ∈ l) (holds : good a = true) :
    value a ≤ lastValue good value start l := by
  induction l generalizing start with
  | nil => cases member
  | cons b rest ih =>
    obtain ⟨least, tail⟩ := pairwise_cons.mp ascending
    rw [lastValue_cons]
    rcases mem_cons.mp member with rfl | later
    · rw [if_pos holds]
      rcases lastValue_cases good value (value a) rest with same | ⟨c, inside, -, same⟩
      · exact same.ge
      · rw [same]
        exact least c inside
    · exact ih tail later

theorem flatMap_filter_ne_nil [DecidableEq β] (l : List α) :
    (l.filter fun a => part a ≠ []).flatMap part = l.flatMap part := by
  induction l with
  | nil => rfl
  | cons a rest ih =>
    by_cases empty : part a = []
    · rw [filter_cons_of_neg (by simp [empty]), flatMap_cons, empty]
      exact ih
    · rw [filter_cons_of_pos (by simp [empty]), flatMap_cons, flatMap_cons, ih]

theorem length_flatMap_filter_le (part : α → List β) (p : α → Bool) (l : List α) :
    ((l.filter p).flatMap part).length ≤ (l.flatMap part).length := by
  induction l with
  | nil => exact le_rfl
  | cons a rest ih =>
    rw [flatMap_cons, length_append]
    by_cases holds : p a = true
    · rw [filter_cons_of_pos holds, flatMap_cons, length_append]
      omega
    · rw [filter_cons_of_neg holds]
      omega

theorem flatMap_filter_eq_iff : (l.filter p).flatMap part = l.flatMap part ↔ ∀ a ∈ l, part a ≠ [] → p a = true := by
  induction l with
  | nil => simp
  | cons a rest ih =>
    by_cases holds : p a = true
    · rw [filter_cons_of_pos holds, flatMap_cons, flatMap_cons, append_cancel_left_eq, ih]
      simp [holds]
    · rw [filter_cons_of_neg holds, flatMap_cons]
      constructor
      · intro same b member filled
        have lengths := congrArg List.length same
        have least := length_flatMap_filter_le part p rest
        rw [length_append] at lengths
        have empty : part a = [] := length_eq_zero_iff.mp (by omega)
        rw [empty, nil_append] at same
        rcases mem_cons.mp member with rfl | inside
        · exact absurd empty filled
        · exact ih.mp same b inside filled
      · intro every
        have empty : part a = [] := by
          by_contra filled
          exact holds (every a mem_cons_self filled)
        rw [empty, nil_append]
        exact ih.mpr fun b inside => every b (mem_cons_of_mem _ inside)

theorem read_chosen_iff [DecidableEq β] [LinearOrder κ] (key : α → κ) (distinct : (l.map key).Nodup)
    (ordered : l.Pairwise fun a b => part a ≠ [] → part b ≠ [] → key a < key b)
    (perm : chosen.Perm (l.filter p)) (sorted : chosen.Pairwise fun a b => key a ≤ key b) :
    chosen.flatMap part = l.flatMap part ↔ ∀ a ∈ l, part a ≠ [] → p a = true := by
  have filled : (chosen.filter fun a => part a ≠ []) = (l.filter p).filter fun a => part a ≠ [] := by
    refine List.Perm.eq_of_pairwise ?_ (sorted.filter _) ?_ (perm.filter _)
    · intro a b left right before after
      refine inj_on_of_nodup_map distinct ?_ ?_ (le_antisymm before after)
      · exact mem_of_mem_filter (perm.subset (mem_of_mem_filter left))
      · exact mem_of_mem_filter (mem_of_mem_filter right)
    · refine ((ordered.filter p).filter _).imp_of_mem fun left right before => ?_
      have filledLeft := of_decide_eq_true (mem_filter.mp left).2
      have filledRight := of_decide_eq_true (mem_filter.mp right).2
      exact (before filledLeft filledRight).le
  rw [← flatMap_filter_ne_nil chosen, filled, flatMap_filter_ne_nil, flatMap_filter_eq_iff]

end ResilientDB.Library
