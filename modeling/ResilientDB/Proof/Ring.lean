import ResilientDB.Library.PowerRing
import ResilientDB.Model.Collector

namespace ResilientDB.Proof
open Model Library Function

variable {pool : LockFreeCollectorPool} {done : Nat}

structure Ring (pool : LockFreeCollectorPool) (done : Nat) : Prop where
  power : ∃ exponent, pool.capacity = 2 ^ exponent
  residue : ∀ s, (pool.getCollector s).seq % (2 * pool.capacity) = s % (2 * pool.capacity)
  recent : ∀ s, done < (pool.getCollector s).seq + pool.capacity
  bounded : ∀ s, (pool.getCollector s).seq < 2 * pool.capacity ∨ (pool.getCollector s).seq ≤ done + pool.capacity

theorem mask_eq_mod (power : ∃ exponent, pool.capacity = 2 ^ exponent) (s : Nat) :
    s &&& pool.mask = s % (2 * pool.capacity) := by
  obtain ⟨exponent, capacity⟩ := power
  unfold LockFreeCollectorPool.mask
  rw [capacity]
  exact and_mask_eq_mod s exponent

theorem getCollector_setCollector (power : ∃ exponent, pool.capacity = 2 ^ exponent) (s t : Nat)
    (c : TransactionCollector) : (pool.setCollector s c).getCollector t =
      if t % (2 * pool.capacity) = s % (2 * pool.capacity) then c else pool.getCollector t := by
  have same : (pool.setCollector s c).mask = pool.mask := rfl
  unfold LockFreeCollectorPool.getCollector
  rw [same, mask_eq_mod power]
  unfold LockFreeCollectorPool.setCollector
  rw [mask_eq_mod power]
  exact update_apply _ _ _ _

theorem getCollector_setCollector_same (pool : LockFreeCollectorPool) (seq : Nat) (c : TransactionCollector) :
    (pool.setCollector seq c).getCollector seq = c := by
  have same : (pool.setCollector seq c).mask = pool.mask := rfl
  unfold LockFreeCollectorPool.getCollector
  rw [same]
  exact update_self _ _ _

theorem getCollector_setCollector_cases (pool : LockFreeCollectorPool) (seq s : Nat) (c : TransactionCollector) :
    ((pool.setCollector seq c).getCollector s = c ∧ pool.getCollector s = pool.getCollector seq) ∨
      (pool.setCollector seq c).getCollector s = pool.getCollector s := by
  have same : (pool.setCollector seq c).mask = pool.mask := rfl
  unfold LockFreeCollectorPool.getCollector
  rw [same]
  by_cases slot : s &&& pool.mask = seq &&& pool.mask
  · rw [slot]
    exact .inl ⟨update_self _ _ _, rfl⟩
  · exact .inr (Function.update_of_ne slot _ _)

theorem setCollector_getCollector (s : Nat) : pool.setCollector s (pool.getCollector s) = pool := by
  unfold LockFreeCollectorPool.setCollector LockFreeCollectorPool.getCollector
  rw [update_eq_self]

theorem Ring.positive (ring : Ring pool done) : 0 < pool.capacity := by
  obtain ⟨exponent, capacity⟩ := ring.power
  rw [capacity]
  exact Nat.two_pow_pos exponent

theorem Ring.own (ring : Ring pool done) {t : Nat} (recent : done < t + pool.capacity)
    (near : t ≤ done + pool.capacity) : (pool.getCollector t).seq = t := by
  have residue := ring.residue t
  have late := ring.recent t
  have bounded := ring.bounded t
  rcases Nat.lt_trichotomy (pool.getCollector t).seq t with below | same | above
  · have apart := add_le_of_mod_eq residue below
    omega
  · exact same
  · have apart := add_le_of_mod_eq residue.symm above
    omega

theorem Ring.next_seq (ring : Ring pool done) : (pool.getCollector (done + 1)).seq = done + 1 := by
  have positive := ring.positive
  exact ring.own (by omega) (by omega)

theorem xor_capacity_eq_mod (power : ∃ exponent, pool.capacity = 2 ^ exponent) (s : Nat) :
    s &&& pool.mask ^^^ pool.capacity = (s + pool.capacity) % (2 * pool.capacity) := by
  rw [mask_eq_mod power]
  obtain ⟨exponent, capacity⟩ := power
  rw [capacity]
  have inside : s % (2 * 2 ^ exponent) < 2 * 2 ^ exponent :=
    Nat.mod_lt _ (Nat.mul_pos (by decide) (Nat.two_pow_pos exponent))
  rw [xor_half_eq_mod inside, Nat.mod_add_mod]

theorem getCollector_update_own {seq : Nat} (power : ∃ exponent, pool.capacity = 2 ^ exponent)
    (here : (pool.getCollector seq).seq = seq) (t : Nat) :
    (pool.update seq).getCollector t =
      if t % (2 * pool.capacity) = (seq + pool.capacity) % (2 * pool.capacity) then
        { seq := seq + pool.capacity, enableViewchange := pool.enableViewchange }
      else pool.getCollector t := by
  unfold LockFreeCollectorPool.getCollector at here ⊢
  unfold LockFreeCollectorPool.update
  simp only [here, ne_eq, not_true_eq_false, ↓reduceIte, xor_capacity_eq_mod power]
  have same (collector : Nat → TransactionCollector) :
      LockFreeCollectorPool.mask { pool with collector := collector } = pool.mask := rfl
  rw [same, mask_eq_mod power]
  exact update_apply _ _ _ _

theorem getCollector_update (ring : Ring pool done) (t : Nat) : (pool.update (done + 1)).getCollector t =
      if t % (2 * pool.capacity) = (done + 1 + pool.capacity) % (2 * pool.capacity) then
        { seq := done + 1 + pool.capacity, enableViewchange := pool.enableViewchange }
      else pool.getCollector t := getCollector_update_own ring.power ring.next_seq t

theorem update_of_ne {seq : Nat} (other : (pool.getCollector seq).seq ≠ seq) : pool.update seq = pool := by
  unfold LockFreeCollectorPool.getCollector at other
  unfold LockFreeCollectorPool.update
  dsimp only
  rw [if_pos other]

theorem update_capacity (s : Nat) : (pool.update s).capacity = pool.capacity := by
  unfold LockFreeCollectorPool.update
  dsimp only
  split <;> rfl

theorem Ring.renewed_seq (ring : Ring pool done) {t : Nat}
    (same : t % (2 * pool.capacity) = (done + 1 + pool.capacity) % (2 * pool.capacity)) :
    (pool.getCollector t).seq ≤ done + 1 + pool.capacity := by
  have residue := (ring.residue t).trans same
  have bounded := ring.bounded t
  by_contra beyond
  have apart := add_le_of_mod_eq residue.symm (by omega)
  omega

theorem capacity_create (size : Nat) (viewchange : Bool) :
    ∃ exponent, (LockFreeCollectorPool.create size viewchange).capacity = 2 ^ exponent :=
  ⟨capacityExponent (size * 2) 32 0, Nat.one_shiftLeft _⟩

theorem Ring.create (size : Nat) (viewchange : Bool) : Ring (.create size viewchange) 0 := by
  have power := capacity_create size viewchange
  have seq (s : Nat) : ((LockFreeCollectorPool.create size viewchange).getCollector s).seq =
      s % (2 * (LockFreeCollectorPool.create size viewchange).capacity) := by
    rw [← mask_eq_mod power]
    rfl
  have positive : 0 < (LockFreeCollectorPool.create size viewchange).capacity := by
    obtain ⟨exponent, capacity⟩ := power
    rw [capacity]
    exact Nat.two_pow_pos exponent
  constructor
  · exact power
  · intro s
    rw [seq, Nat.mod_mod]
  · intro s
    omega
  · intro s
    rw [seq]
    exact .inl (Nat.mod_lt _ (by omega))

theorem Ring.setCollector (ring : Ring pool done) {s : Nat} {c : TransactionCollector}
    (seq : c.seq = (pool.getCollector s).seq) : Ring (pool.setCollector s c) done := by
  have power := ring.power
  have same (t : Nat) : ((pool.setCollector s c).getCollector t).seq = (pool.getCollector t).seq ∨
      (t % (2 * pool.capacity) = s % (2 * pool.capacity) ∧
        ((pool.setCollector s c).getCollector t).seq = (pool.getCollector s).seq) := by
    rw [getCollector_setCollector power]
    by_cases slot : t % (2 * pool.capacity) = s % (2 * pool.capacity)
    · rw [if_pos slot]
      exact .inr ⟨slot, seq⟩
    · rw [if_neg slot]
      exact .inl rfl
  have capacity : (pool.setCollector s c).capacity = pool.capacity := rfl
  constructor
  · exact power
  · intro t
    rw [capacity]
    rcases same t with old | ⟨slot, old⟩
    · rw [old]
      exact ring.residue t
    · rw [old, slot]
      exact ring.residue s
  · intro t
    rw [capacity]
    rcases same t with old | ⟨-, old⟩
    · rw [old]
      exact ring.recent t
    · rw [old]
      exact ring.recent s
  · intro t
    rw [capacity]
    rcases same t with old | ⟨-, old⟩
    · rw [old]
      exact ring.bounded t
    · rw [old]
      exact ring.bounded s

theorem Ring.update (ring : Ring pool done) : Ring (pool.update (done + 1)) (done + 1) := by
  have renewed := getCollector_update ring
  have capacity : (pool.update (done + 1)).capacity = pool.capacity := update_capacity (done + 1)
  have positive := ring.positive
  constructor
  · rw [capacity]
    exact ring.power
  · intro t
    rw [capacity, renewed]
    split_ifs with slot
    · exact slot.symm
    · exact ring.residue t
  · intro t
    rw [capacity, renewed]
    split_ifs with slot
    · dsimp only
      omega
    · -- an older collector would sit in the slot that has just been renewed
      have recent := ring.recent t
      have residue := ring.residue t
      by_contra old
      have seq : (pool.getCollector t).seq + 2 * pool.capacity = done + 1 + pool.capacity := by omega
      rw [← residue, ← seq, Nat.add_mod_right] at slot
      exact slot rfl
  · intro t
    rw [capacity, renewed]
    split_ifs with slot
    · exact .inr le_rfl
    · rcases ring.bounded t with low | low
      · exact .inl low
      · exact .inr (by omega)

end ResilientDB.Proof
