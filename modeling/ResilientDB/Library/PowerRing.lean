import Mathlib.Data.Nat.Bitwise
import Mathlib.Data.Nat.ModEq
import Mathlib.Tactic.Ring

namespace ResilientDB.Library

theorem and_mask_eq_mod (value exponent : Nat) : value &&& ((2 ^ exponent) <<< 1 - 1) = value % (2 * 2 ^ exponent) := by
  have size : (2 ^ exponent) <<< 1 = 2 ^ (exponent + 1) := by
    rw [Nat.shiftLeft_eq, pow_one, pow_succ]
  rw [size, Nat.and_two_pow_sub_one_eq_mod, pow_succ, Nat.mul_comm]

theorem xor_half_eq_mod {index exponent : Nat} (inside : index < 2 * 2 ^ exponent) :
    index ^^^ 2 ^ exponent = (index + 2 ^ exponent) % (2 * 2 ^ exponent) := by
  have double : 2 * 2 ^ exponent = 2 ^ (exponent + 1) := by ring
  rw [double] at inside ⊢
  apply Nat.eq_of_testBit_eq
  intro bit
  rw [Nat.testBit_xor, Nat.testBit_two_pow, Nat.testBit_mod_two_pow, Nat.add_comm index]
  rcases Nat.lt_trichotomy bit exponent with below | rfl | above
  · rw [Nat.testBit_two_pow_add_gt below]
    simp [Nat.ne_of_gt below, Nat.lt_succ_of_lt below]
  · rw [Nat.testBit_two_pow_add_eq]
    simp
  · have clear : index.testBit bit = false :=
      Nat.testBit_lt_two_pow (lt_of_lt_of_le inside (Nat.pow_le_pow_right (by decide) above))
    have beyond : ¬ bit < exponent + 1 := by omega
    simp [clear, beyond, Nat.ne_of_lt above]

theorem add_le_of_mod_eq {a b size : Nat} (same : a % size = b % size) (below : a < b) : a + size ≤ b := by
  have apart : size ∣ b - a := (Nat.modEq_iff_dvd' (le_of_lt below)).mp same
  have far := Nat.le_of_dvd (by omega) apart
  omega

variable {capacity next n : Nat} {seqAt : Nat → Nat} {done : Set Nat}

def HandedOut (capacity : Nat) (done : Set Nat) (n : Nat) : Prop := n < 2 * capacity ∨ n - capacity ∈ done

def renewedBy (capacity n : Nat) (seqAt : Nat → Nat) (s : Nat) : Nat :=
  if seqAt n = n ∧ s % (2 * capacity) = (n + capacity) % (2 * capacity) then n + capacity else seqAt s

-- The numbers below `next` are in use.
structure LapRing (capacity : Nat) (seqAt : Nat → Nat) (done : Set Nat) (next : Nat) : Prop where
  used : ∀ n < next, HandedOut capacity done n
  below : ∀ n ∈ done, n < next
  held : ∀ s, HandedOut capacity done (seqAt s)
  live : ∀ n, n + capacity ∉ done → HandedOut capacity done n → seqAt n = n
  passed : ∀ n, n + capacity ∈ done → n < seqAt n

theorem HandedOut.insert (due : HandedOut capacity done n) (m : Nat) : HandedOut capacity (insert m done) n :=
  due.imp_right fun earlier => Set.mem_insert_of_mem m earlier

namespace LapRing

theorem start (positive : 0 < capacity) : LapRing capacity (fun s => s % (2 * capacity)) ∅ 1 := by
  constructor
  · intro n first
    exact .inl (by omega)
  · intro n never
    cases never
  · intro s
    exact .inl (Nat.mod_lt s (by omega))
  · intro n _ due
    rcases due with inside | never
    · exact Nat.mod_eq_of_lt inside
    · cases never
  · intro n never
    cases never

section

variable (ring : LapRing capacity seqAt done next)
include ring

theorem seqAt_next : seqAt next = next ↔ HandedOut capacity done next := by
  constructor
  · intro here
    rw [← here]
    exact ring.held next
  · intro due
    refine ring.live next (fun later => ?_) due
    have := ring.below _ later
    omega

theorem number (due : HandedOut capacity done next) : LapRing capacity seqAt done (next + 1) := by
  constructor
  · intro n before
    rcases Nat.lt_succ_iff_lt_or_eq.mp before with earlier | rfl
    · exact ring.used n earlier
    · exact due
  · intro n member
    exact Nat.lt_succ_of_lt (ring.below n member)
  · exact ring.held
  · exact ring.live
  · exact ring.passed

theorem half_before (used : n + capacity < next) (late : capacity ≤ n) : n ∈ done := by
  rcases ring.used _ used with inside | earlier
  · omega
  · rwa [Nat.add_sub_cancel] at earlier

theorem half_after (turns : Nat) (member : n + capacity * (turns + 1) ∈ done) : n + capacity ∈ done := by
  induction turns with
  | zero => simpa using member
  | succ turns ih =>
    have longer : n + capacity * (turns + 1 + 1) = n + capacity * (turns + 1) + capacity := by ring
    have far : capacity ≤ n + capacity * (turns + 1) := by
      rw [Nat.mul_succ]
      omega
    rw [longer] at member
    exact ih (ring.half_before (ring.below _ member) far)

theorem half_after_of_mod {m : Nat} (before : n < m)
    (same : n % (2 * capacity) = m % (2 * capacity)) (member : m ∈ done) : n + capacity ∈ done := by
  obtain ⟨turns, apart⟩ := (Nat.modEq_iff_dvd' before.le).mp same
  obtain _ | turns := turns
  · omega
  · refine ring.half_after (2 * turns + 1) ?_
    have equal : n + capacity * (2 * turns + 1 + 1) = m := by
      rw [show capacity * (2 * turns + 1 + 1) = 2 * capacity * (turns + 1) by ring]
      omega
    rwa [equal]

theorem renew_passed (used : n < next) (new : n ∉ done)
    (later : n + capacity ∈ done) : LapRing capacity seqAt (insert n done) next := by
  have first : n < capacity := by
    by_contra late
    exact new (ring.half_before (ring.below _ later) (by omega))
  constructor
  · intro m before
    exact (ring.used m before).insert n
  · rintro m (rfl | member)
    · exact used
    · exact ring.below m member
  · intro s
    exact (ring.held s).insert n
  · intro m stays due
    refine ring.live m (fun member => stays (Set.mem_insert_of_mem n member)) ?_
    rcases due with inside | rfl | earlier
    · exact .inl inside
    · exact .inl (by omega)
    · exact .inr earlier
  · rintro m (same | member)
    · omega
    · exact ring.passed m member

theorem renew_live (positive : 0 < capacity) (used : n < next) (unrenewed : n + capacity ∉ done) :
    LapRing capacity (renewedBy capacity n seqAt) (insert n done) next := by
  have here : seqAt n = n := ring.live n unrenewed (ring.used n used)
  have turn (m : Nat) : (m + capacity + capacity) % (2 * capacity) = m % (2 * capacity) := by
    rw [Nat.add_assoc, ← Nat.two_mul, Nat.add_mod_right]
  constructor
  · intro m before
    exact (ring.used m before).insert n
  · rintro m (rfl | member)
    · exact used
    · exact ring.below m member
  · intro s
    unfold renewedBy
    split
    · exact .inr (.inl (Nat.add_sub_cancel n capacity))
    · exact (ring.held s).insert n
  · intro m stays due
    have unpassed : m + capacity ∉ done := fun member => stays (Set.mem_insert_of_mem n member)
    unfold renewedBy
    split_ifs with slot
    · rcases Nat.lt_trichotomy (n + capacity) m with before | same | after
      · -- `m` is handed out by a number whole turns after `n`
        have apart := add_le_of_mod_eq slot.2.symm before
        obtain ⟨half, rfl⟩ := Nat.exists_eq_add_of_le' (show capacity ≤ m by omega)
        have member : half ∈ done := by
          rcases due with inside | same | earlier
          · omega
          · omega
          · rwa [Nat.add_sub_cancel] at earlier
        exact absurd (ring.half_after_of_mod (by omega) (Nat.ModEq.add_right_cancel' _ slot.2.symm) member) unrenewed
      · exact same
      · -- `n` was handed out by a number whole turns after `m`
        have apart := add_le_of_mod_eq slot.2 after
        have other : m + capacity ≠ n := fun same => stays (.inl same)
        obtain ⟨half, rfl⟩ := Nat.exists_eq_add_of_le' (show capacity ≤ n by omega)
        have same := slot.2.trans (turn half)
        have later : m < half := by omega
        have far := add_le_of_mod_eq same later
        exact absurd (ring.half_after_of_mod later same (ring.half_before used (by omega))) unpassed
    · refine ring.live m unpassed ?_
      rcases due with inside | same | earlier
      · exact .inl inside
      · by_cases first : m < 2 * capacity
        · exact .inl first
        · exact absurd ⟨here, by rw [← same, Nat.sub_add_cancel (by omega)]⟩ slot
      · exact .inr earlier
  · intro m member
    unfold renewedBy
    split_ifs with slot
    · by_contra late
      rcases member with same | member
      · omega
      · have same : n % (2 * capacity) = (m + capacity) % (2 * capacity) :=
          (turn n).symm.trans (Nat.ModEq.add_right capacity slot.2.symm)
        exact unrenewed (ring.half_after_of_mod (by omega) same member)
    · rcases member with rfl | member
      · exact absurd ⟨here, (turn m).symm⟩ slot
      · exact ring.passed m member

/-- Also when the number comes too late to renew a slot. -/
theorem renew (positive : 0 < capacity) (used : n < next) (new : n ∉ done) :
    LapRing capacity (renewedBy capacity n seqAt) (insert n done) next := by
  by_cases later : n + capacity ∈ done
  · have gone : seqAt n ≠ n := (ring.passed n later).ne'
    have same : renewedBy capacity n seqAt = seqAt := by
      funext s
      unfold renewedBy
      rw [if_neg fun slot => gone slot.1]
    rw [same]
    exact ring.renew_passed used new later
  · exact ring.renew_live positive used later

end

end LapRing

end ResilientDB.Library
