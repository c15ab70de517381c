import Mathlib.Order.Lattice
import Mathlib.Data.List.Pairwise

namespace ResilientDB.Library
open List Option

structure OrderedMap (κ ν : Type*) [LinearOrder κ] where
  entries : List (κ × ν)
  sorted : entries.Pairwise fun a b => a.1 < b.1

namespace OrderedMap

variable {κ ν : Type*} [LinearOrder κ]

def empty : OrderedMap κ ν := ⟨[], .nil⟩

instance : Inhabited (OrderedMap κ ν) := ⟨empty⟩

def lookupIn (key : κ) : List (κ × ν) → Option ν
  | [] => none
  | (k, v) :: rest => if key = k then some v else lookupIn key rest

def alterIn (key : κ) (change : Option ν → ν) : List (κ × ν) → List (κ × ν)
  | [] => [(key, change none)]
  | (k, v) :: rest =>
    if key < k then (key, change none) :: (k, v) :: rest
    else if key = k then (k, change (some v)) :: rest
    else (k, v) :: alterIn key change rest

theorem mem_alterIn {key : κ} {change : Option ν → ν} {entries : List (κ × ν)} {e : κ × ν}
    (member : e ∈ alterIn key change entries) : e.1 = key ∨ e ∈ entries := by
  induction entries with
  | nil =>
    simp only [alterIn, mem_singleton] at member
    exact .inl (by rw [member])
  | cons head rest ih =>
    obtain ⟨k, v⟩ := head
    simp only [alterIn] at member
    split_ifs at member with below same
    · rcases mem_cons.mp member with rfl | old
      · exact .inl rfl
      · exact .inr old
    · rcases mem_cons.mp member with rfl | old
      · exact .inl same.symm
      · exact .inr (mem_cons_of_mem _ old)
    · rcases mem_cons.mp member with rfl | old
      · exact .inr mem_cons_self
      · rcases ih old with here | there
        · exact .inl here
        · exact .inr (mem_cons_of_mem _ there)

theorem alterIn_sorted {key : κ} {change : Option ν → ν} {entries : List (κ × ν)}
    (sorted : entries.Pairwise fun a b => a.1 < b.1) :
    (alterIn key change entries).Pairwise fun a b => a.1 < b.1 := by
  induction entries with
  | nil => simp [alterIn]
  | cons head rest ih =>
    obtain ⟨k, v⟩ := head
    obtain ⟨least, tail⟩ := pairwise_cons.mp sorted
    simp only [alterIn]
    split_ifs with below same
    · refine pairwise_cons.mpr ⟨fun e member => ?_, sorted⟩
      rcases mem_cons.mp member with rfl | later
      · exact below
      · exact lt_trans below (least e later)
    · exact pairwise_cons.mpr ⟨least, tail⟩
    · refine pairwise_cons.mpr ⟨fun e member => ?_, ih tail⟩
      rcases mem_alterIn member with here | later
      · rw [here]
        exact lt_of_le_of_ne (not_lt.mp below) (Ne.symm same)
      · exact least e later

theorem lookupIn_eq_none {key : κ} {entries : List (κ × ν)}
    (above : ∀ e ∈ entries, key < e.1) : lookupIn key entries = none := by
  induction entries with
  | nil => rfl
  | cons head rest ih =>
    obtain ⟨k, v⟩ := head
    have different : key ≠ k := ne_of_lt (above (k, v) mem_cons_self)
    simp only [lookupIn, different, ↓reduceIte]
    exact ih fun e member => above e (mem_cons_of_mem _ member)

theorem lookupIn_eq_some {key : κ} {value : ν} {entries : List (κ × ν)}
    (distinct : entries.Pairwise fun a b => a.1 ≠ b.1) :
    lookupIn key entries = some value ↔ (key, value) ∈ entries := by
  induction entries with
  | nil => simp [lookupIn]
  | cons head rest ih =>
    obtain ⟨k, v⟩ := head
    obtain ⟨others, tail⟩ := pairwise_cons.mp distinct
    simp only [lookupIn, mem_cons, Prod.mk.injEq]
    split_ifs with same
    · subst same
      have absent : (key, value) ∉ rest := fun later => others _ later rfl
      simp [absent, eq_comm]
    · simp [same, ih tail]

theorem lookupIn_perm {key : κ} {xs ys : List (κ × ν)} (distinct : ys.Pairwise fun a b => a.1 ≠ b.1)
    (perm : xs.Perm ys) : lookupIn key xs = lookupIn key ys := by
  have distinct' := perm.symm.pairwise distinct fun apart => Ne.symm apart
  refine ext fun value => ?_
  rw [lookupIn_eq_some distinct', lookupIn_eq_some distinct, perm.mem_iff]

def find? (m : OrderedMap κ ν) (key : κ) : Option ν := lookupIn key m.entries

def alter (m : OrderedMap κ ν) (key : κ) (change : Option ν → ν) : OrderedMap κ ν :=
  ⟨alterIn key change m.entries, alterIn_sorted m.sorted⟩

def assign (m : OrderedMap κ ν) (key : κ) (value : ν) : OrderedMap κ ν := m.alter key fun _ => value

def insertNew (m : OrderedMap κ ν) (key : κ) (value : ν) : OrderedMap κ ν := m.alter key fun old => old.getD value

def eraseIf (m : OrderedMap κ ν) (gone : κ → Bool) : OrderedMap κ ν :=
  ⟨m.entries.filter fun e => !gone e.1, m.sorted.filter _⟩

def first? (m : OrderedMap κ ν) : Option (κ × ν) := m.entries.head?

def last? (m : OrderedMap κ ν) : Option (κ × ν) := m.entries.getLast?

def size (m : OrderedMap κ ν) : Nat := m.entries.length

variable {m : OrderedMap κ ν}

theorem distinct (m : OrderedMap κ ν) : m.entries.Pairwise fun a b => a.1 ≠ b.1 := m.sorted.imp ne_of_lt

@[simp] theorem find?_empty (key : κ) : (empty : OrderedMap κ ν).find? key = none := rfl

theorem find?_eq_some {key : κ} {value : ν} : m.find? key = some value ↔ (key, value) ∈ m.entries :=
  lookupIn_eq_some m.distinct

theorem find?_alter (key other : κ) (change : Option ν → ν) :
    (m.alter key change).find? other = if other = key then some (change (m.find? key)) else m.find? other := by
  obtain ⟨entries, sorted⟩ := m
  simp only [find?, alter]
  induction entries with
  | nil => simp [alterIn, lookupIn]
  | cons head rest ih =>
    obtain ⟨k, v⟩ := head
    obtain ⟨least, tail⟩ := pairwise_cons.mp sorted
    have tailCase := ih tail
    simp only [alterIn]
    by_cases below : key < k
    · have absent : lookupIn key ((k, v) :: rest) = none := lookupIn_eq_none fun e member => by
        rcases mem_cons.mp member with rfl | later
        · exact below
        · exact lt_trans below (least e later)
      rw [if_pos below, absent]
      simp only [lookupIn]
    · rw [if_neg below]
      by_cases same : key = k
      · subst same
        by_cases here : other = key <;> simp [lookupIn, here]
      · rw [if_neg same]
        by_cases here : other = key
        · subst here
          simp only [lookupIn, same, ↓reduceIte]
          simpa using tailCase
        · simp only [lookupIn, here, ↓reduceIte] at tailCase ⊢
          rw [tailCase]

theorem find?_assign (key other : κ) (value : ν) :
    (m.assign key value).find? other = if other = key then some value else m.find? other :=
  find?_alter key other _

theorem find?_insertNew (key other : κ) (value : ν) : (m.insertNew key value).find? other =
      if other = key then some ((m.find? key).getD value) else m.find? other :=
  find?_alter key other _

theorem ext_find? {m' : OrderedMap κ ν} (same : ∀ key, m.find? key = m'.find? key) : m = m' := by
  have entries : m.entries = m'.entries := by
    refine List.Perm.eq_of_pairwise (fun a b _ _ less greater => absurd less (lt_asymm greater)) m.sorted m'.sorted ?_
    have nodup : ∀ m : OrderedMap κ ν, m.entries.Nodup := fun m =>
      m.distinct.imp fun apart same => apart (congrArg Prod.fst same)
    refine (perm_ext_iff_of_nodup (nodup m) (nodup m')).mpr fun e => ?_
    obtain ⟨key, value⟩ := e
    rw [← find?_eq_some, ← find?_eq_some, same key]
  cases m
  cases m'
  cases entries
  rfl

theorem find?_eraseIf (gone : κ → Bool) (key : κ) :
    (m.eraseIf gone).find? key = if gone key = true then none else m.find? key := by
  obtain ⟨entries, sorted⟩ := m
  simp only [find?, eraseIf]
  induction entries with
  | nil => simp [lookupIn]
  | cons head rest ih =>
    obtain ⟨k, v⟩ := head
    have tailCase := ih (pairwise_cons.mp sorted).2
    by_cases same : key = k
    · subst same
      by_cases erased : gone key = true
      · simpa [erased] using tailCase
      · simp [erased, lookupIn]
    · by_cases erased : gone k = true <;> simp [erased, lookupIn, same, tailCase]

def collect {μ : Type*} (pick : κ → ν → Option μ) (entries : List (κ × ν)) : OrderedMap κ μ :=
  entries.foldl (fun copy e => (pick e.1 e.2).elim copy fun value => copy.insertNew e.1 value) empty

theorem find?_foldl_insertNew {μ : Type*} (pick : κ → ν → Option μ) {entries : List (κ × ν)}
    (distinct : entries.Pairwise fun a b => a.1 ≠ b.1) {copy : OrderedMap κ μ}
    (fresh : ∀ e ∈ entries, copy.find? e.1 = none) (key : κ) :
    (entries.foldl (fun copy e => (pick e.1 e.2).elim copy fun value => copy.insertNew e.1 value) copy).find? key =
      (lookupIn key entries).elim (copy.find? key) fun value => pick key value := by
  induction entries generalizing copy with
  | nil => rfl
  | cons head rest ih =>
    obtain ⟨k, v⟩ := head
    obtain ⟨others, tail⟩ := pairwise_cons.mp distinct
    have absent : lookupIn k rest = none := eq_none_iff_forall_ne_some.mpr fun value found =>
      others _ ((lookupIn_eq_some tail).mp found) rfl
    have first : copy.find? k = none := fresh (k, v) mem_cons_self
    have later : ∀ e ∈ rest, copy.find? e.1 = none := fun e member => fresh e (mem_cons_of_mem _ member)
    rw [foldl_cons]
    cases picked : pick k v with
    | none =>
      rw [elim_none, ih tail later]
      simp only [lookupIn]
      split_ifs with here
      · rw [here, absent, elim_none, elim_some, picked, first]
      · rfl
    | some value =>
      have others' : ∀ e ∈ rest, (copy.insertNew k value).find? e.1 = none := fun e member => by
        rw [find?_insertNew, if_neg (others e member).symm]
        exact later e member
      rw [elim_some, ih tail others', find?_insertNew]
      simp only [lookupIn]
      split_ifs with here
      · rw [here, absent, elim_none, elim_some, picked, first, getD_none]
      · rfl

theorem find?_collect {μ : Type*} (pick : κ → ν → Option μ) {entries : List (κ × ν)} (perm : entries.Perm m.entries)
    (key : κ) : (collect pick entries).find? key = (m.find? key).bind (pick key) := by
  have distinct := perm.symm.pairwise m.distinct fun apart => Ne.symm apart
  unfold collect
  rw [find?_foldl_insertNew pick distinct (fun _ _ => rfl), lookupIn_perm m.distinct perm]
  unfold find?
  cases lookupIn key m.entries with
  | none => rfl
  | some value => rfl

theorem dropWhile_takeWhile {least most : κ} {entries : List (κ × ν)} (sorted : entries.Pairwise fun a b => a.1 < b.1) :
    ((entries.dropWhile fun e => e.1 < least).takeWhile fun e => e.1 ≤ most) =
      entries.filter fun e => least ≤ e.1 ∧ e.1 ≤ most := by
  induction entries with
  | nil => rfl
  | cons head rest ih =>
    obtain ⟨above, tail⟩ := pairwise_cons.mp sorted
    by_cases below : head.1 < least
    · simp [below, not_le.mpr below, ih tail]
    · have reached := not_lt.mp below
      have dropped : (rest.dropWhile fun e => decide (e.1 < least)) = rest := by
        cases rest with
        | nil => rfl
        | cons next rest =>
          have next : ¬ next.1 < least := not_lt.mpr (reached.trans (above _ mem_cons_self).le)
          simp [next]
      rw [dropped] at ih
      by_cases fits : head.1 ≤ most
      · simp [below, reached, fits, ih tail]
      · have past : ∀ e ∈ rest, ¬ (least ≤ e.1 ∧ e.1 ≤ most) := fun e member both =>
          fits ((above e member).le.trans both.2)
        have empty : rest.filter (fun e => decide (least ≤ e.1 ∧ e.1 ≤ most)) = [] :=
          filter_eq_nil_iff.mpr fun e member => by simpa using past e member
        rw [dropWhile_cons_of_neg (by simpa using reached), takeWhile_cons_of_neg (by simpa using fits),
          filter_cons_of_neg (by simp [fits]), empty]

theorem length_le_alterIn (key : κ) (change : Option ν → ν) (entries : List (κ × ν)) :
    entries.length ≤ (alterIn key change entries).length := by
  induction entries with
  | nil => simp [alterIn]
  | cons head rest ih =>
    obtain ⟨k, v⟩ := head
    simp only [alterIn]
    split_ifs
    · simp
    · simp
    · simpa using ih

theorem size_le_assign (key : κ) (value : ν) : m.size ≤ (m.assign key value).size := length_le_alterIn key _ m.entries

theorem last?_eq_none : m.last? = none ↔ ∀ key, m.find? key = none := by
  unfold last? find?
  rw [getLast?_eq_none_iff]
  constructor
  · intro nil key
    rw [nil]
    rfl
  · intro absent
    cases entries : m.entries with
    | nil => rfl
    | cons head rest =>
      obtain ⟨k, v⟩ := head
      have missing := absent k
      simp [entries, lookupIn] at missing

theorem last?_eq_some {key : κ} {value : ν} (last : m.last? = some (key, value)) :
    m.find? key = some value ∧ ∀ k v, m.find? k = some v → k ≤ key := by
  have member := mem_of_getLast? last
  refine ⟨find?_eq_some.mpr member, fun k v found => ?_⟩
  obtain ⟨front, split⟩ := getLast?_eq_some_iff.mp last
  have sorted := m.sorted
  rw [split, pairwise_append] at sorted
  have inside := find?_eq_some.mp found
  rw [split, mem_append, mem_singleton] at inside
  rcases inside with before | same
  · exact le_of_lt (sorted.2.2 _ before _ (mem_singleton_self _))
  · rw [(Prod.mk.inj same).1]

theorem first?_eq_some {key : κ} {value : ν} (first : m.first? = some (key, value)) :
    m.find? key = some value ∧ ∀ k v, m.find? k = some v → key ≤ k := by
  obtain ⟨rest, split⟩ := head?_eq_some_iff.mp first
  have sorted := m.sorted
  rw [split, pairwise_cons] at sorted
  refine ⟨find?_eq_some.mpr (mem_of_head? first), fun k v found => ?_⟩
  have inside := find?_eq_some.mp found
  rw [split] at inside
  rcases mem_cons.mp inside with same | later
  · rw [(Prod.mk.inj same).1]
  · exact le_of_lt (sorted.1 _ later)

theorem first?_isSome {key : κ} {value : ν} (found : m.find? key = some value) : ∃ k v, m.first? = some (k, v) := by
  have member := find?_eq_some.mp found
  unfold first?
  cases entries : m.entries with
  | nil => simp [entries] at member
  | cons head rest => exact ⟨head.1, head.2, rfl⟩

theorem size_eraseIf_lt {key : κ} {value : ν} (found : m.find? key = some value) :
    (m.eraseIf fun k => k = key).size < m.size := by
  unfold size eraseIf
  refine length_filter_lt_length_iff_exists.mpr ⟨_, find?_eq_some.mp found, ?_⟩
  simp

end OrderedMap
end ResilientDB.Library
