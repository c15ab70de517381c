import Mathlib.Data.List.Basic
import Mathlib.Data.List.Induction

namespace ResilientDB.Library
open List

variable {α : Type*}

def chain (hash : α → α) (join : α → α → α) (start : α) (xs : List α) : α :=
  xs.foldl (fun last x => hash (join last x)) start

variable {hash : α → α} {join : α → α → α} {start : α} {xs ys : List α}

@[simp] theorem chain_append_singleton (x : α) :
    chain hash join start (xs ++ [x]) = hash (join (chain hash join start xs) x) := by
  simp [chain]

theorem chain_append : chain hash join start (xs ++ ys) = chain hash join (chain hash join start xs) ys := by
  simp [chain]

def Feeds (hash : α → α) (join : α → α → α) (start : α) (xs : List α) (input : α) : Prop :=
  ∃ ys y, ys ++ [y] <+: xs ∧ input = join (chain hash join start ys) y

theorem Feeds.mono {input : α} (feeds : Feeds hash join start xs input) (longer : xs <+: ys) :
    Feeds hash join start ys input := by
  obtain ⟨zs, z, early, same⟩ := feeds
  exact ⟨zs, z, early.trans longer, same⟩

def fed (hash : α → α) (join : α → α → α) : α → List α → List α
  | _, [] => []
  | last, x :: rest => join last x :: fed hash join (hash (join last x)) rest

theorem feeds_iff_mem {input : α} : Feeds hash join start xs input ↔ input ∈ fed hash join start xs := by
  induction xs generalizing start with
  | nil =>
    constructor
    · rintro ⟨ys, y, early, -⟩
      simp at early
    · intro member
      cases member
  | cons x rest ih =>
    rw [fed, mem_cons, ← ih]
    constructor
    · rintro ⟨ys, y, early, rfl⟩
      cases ys with
      | nil =>
        obtain ⟨rfl, -⟩ := cons_prefix_cons.mp early
        exact .inl rfl
      | cons z ys =>
        obtain ⟨rfl, shorter⟩ := cons_prefix_cons.mp early
        exact .inr ⟨ys, y, shorter, rfl⟩
    · rintro (rfl | ⟨ys, y, early, rfl⟩)
      · exact ⟨[], x, cons_prefix_cons.mpr ⟨rfl, nil_prefix⟩, rfl⟩
      · exact ⟨x :: ys, y, cons_prefix_cons.mpr ⟨rfl, early⟩, rfl⟩

def TakesApart (hash : α → α) (join : α → α → α) : Prop :=
  (∀ a x y, join a x = join a y → x = y) ∧ ∀ a b x y, join (hash a) x = join (hash b) y → hash a = hash b ∧ x = y

theorem chain_parts {x y : α} (apart : TakesApart hash join) (both : xs = [] ↔ ys = [])
    (joined : join (chain hash join start xs) x = join (chain hash join start ys) y) :
    chain hash join start xs = chain hash join start ys ∧ x = y := by
  rcases eq_nil_or_concat' xs with rfl | ⟨xs, x', rfl⟩
  · obtain rfl := both.mp rfl
    exact ⟨rfl, apart.1 _ _ _ joined⟩
  · rcases eq_nil_or_concat' ys with rfl | ⟨ys, y', rfl⟩
    · simp at both
    · simp only [chain_append_singleton] at joined ⊢
      exact apart.2 _ _ _ _ joined

theorem chain_injective {inputs : α → Prop} (free : ∀ x y, inputs x → inputs y → hash x = hash y → x = y)
    (apart : TakesApart hash join) (size : xs.length = ys.length)
    (left : ∀ input, Feeds hash join start xs input → inputs input)
    (right : ∀ input, Feeds hash join start ys input → inputs input)
    (same : chain hash join start xs = chain hash join start ys) : xs = ys := by
  induction xs using List.reverseRecOn generalizing ys with
  | nil => exact (length_eq_zero_iff.mp size.symm).symm
  | append_singleton xs x ih =>
    rcases eq_nil_or_concat' ys with rfl | ⟨ys, y, rfl⟩
    · simp at size
    simp only [chain_append_singleton] at same
    have joined := free _ _ (left _ ⟨xs, x, prefix_refl _, rfl⟩) (right _ ⟨ys, y, prefix_refl _, rfl⟩) same
    have shorter : xs.length = ys.length := by simpa using size
    have both : xs = [] ↔ ys = [] := by
      rw [← length_eq_zero_iff, ← length_eq_zero_iff, shorter]
    have parts := chain_parts apart both joined
    rw [parts.2, ih shorter (fun input feeds => left input (feeds.mono (prefix_append _ _)))
      (fun input feeds => right input (feeds.mono (prefix_append _ _))) parts.1]

/-- Lists of any lengths, if no first entry looks like an entry joined to a hash. -/
theorem chain_injective_of_first {inputs entry : α → Prop}
    (free : ∀ x y, inputs x → inputs y → hash x = hash y → x = y) (apart : TakesApart hash join)
    (fresh : ∀ a, hash a ≠ start) (first : ∀ a x y, entry x → entry y → join start x ≠ join (hash a) y)
    (entries : ∀ x ∈ xs, entry x) (entries' : ∀ y ∈ ys, entry y)
    (left : ∀ input, Feeds hash join start xs input → inputs input)
    (right : ∀ input, Feeds hash join start ys input → inputs input)
    (same : chain hash join start xs = chain hash join start ys) : xs = ys := by
  induction xs using List.reverseRecOn generalizing ys with
  | nil =>
    rcases eq_nil_or_concat' ys with rfl | ⟨ys, y, rfl⟩
    · rfl
    · rw [chain_append_singleton] at same
      exact absurd same.symm (fresh _)
  | append_singleton xs x ih =>
    rcases eq_nil_or_concat' ys with rfl | ⟨ys, y, rfl⟩
    · rw [chain_append_singleton] at same
      exact absurd same (fresh _)
    simp only [chain_append_singleton] at same
    have joined := free _ _ (left _ ⟨xs, x, prefix_refl _, rfl⟩) (right _ ⟨ys, y, prefix_refl _, rfl⟩) same
    have last := entries x (by simp)
    have last' := entries' y (by simp)
    have both : xs = [] ↔ ys = [] := by
      constructor
      · rintro rfl
        rcases eq_nil_or_concat' ys with none | ⟨ys, z, rfl⟩
        · exact none
        · rw [chain_append_singleton] at joined
          exact absurd joined (first _ x y last last')
      · rintro rfl
        rcases eq_nil_or_concat' xs with none | ⟨xs, z, rfl⟩
        · exact none
        · rw [chain_append_singleton] at joined
          exact absurd joined.symm (first _ y x last' last)
    have parts := chain_parts apart both joined
    rw [parts.2, ih (fun x member => entries x (mem_append_left _ member))
      (fun y member => entries' y (mem_append_left _ member))
      (fun input feeds => left input (feeds.mono (prefix_append _ _)))
      (fun input feeds => right input (feeds.mono (prefix_append _ _))) parts.1]

theorem map_injective_of_free {inputs : List α} (free : ∀ x ∈ inputs, ∀ y ∈ inputs, hash x = hash y → x = y)
    (left : xs ⊆ inputs) (right : ys ⊆ inputs) (same : xs.map hash = ys.map hash) : xs = ys := by
  induction xs generalizing ys with
  | nil => exact (map_eq_nil_iff.mp same.symm).symm
  | cons x xs ih =>
    cases ys with
    | nil => cases same
    | cons y ys =>
      rw [map_cons, map_cons, List.cons.injEq] at same
      rw [cons_subset] at left right
      rw [free x left.1 y right.1 same.1, ih left.2 right.2 same.2]

end ResilientDB.Library
