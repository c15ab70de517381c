import Mathlib.Data.Finset.Card
import Mathlib.Tactic.Linarith
import ResilientDB.Library.TransitionSystem

-- An honest participant votes once for a slot, and then only for what a quorum voted for.

namespace ResilientDB.Library

variable {ρ : Type*} [DecidableEq ρ]

theorem card_inter_of_subset {members first second : Finset ρ} (hf : first ⊆ members) (hs : second ⊆ members) :
    first.card + second.card ≤ members.card + (first ∩ second).card := by
  have union := Finset.card_union_add_card_inter first second
  have inside := Finset.card_le_card (Finset.union_subset hf hs)
  omega

theorem exists_common_outside (faulty : Finset ρ) {members first second : Finset ρ} {q : Nat}
    (hf : first ⊆ members) (hs : second ⊆ members) (large₁ : q ≤ first.card)
    (large₂ : q ≤ second.card) (overlap : members.card + faulty.card < 2 * q) :
    ∃ i, i ∈ first ∧ i ∈ second ∧ i ∉ faulty := by
  have counted := card_inter_of_subset hf hs
  have shared : faulty.card < (first ∩ second).card := by omega
  obtain ⟨i, member, honest⟩ := Finset.exists_mem_notMem_of_card_lt_card shared
  exact ⟨i, (Finset.mem_inter.mp member).1, (Finset.mem_inter.mp member).2, honest⟩

theorem exists_card_of_labels {σ : Type*} {label : ρ → σ} {good : ρ → Prop} {labels : Finset σ}
    (named : ∀ n ∈ labels, ∃ i, label i = n ∧ good i) :
    ∃ set : Finset ρ, labels.card = set.card ∧ ∀ i ∈ set, good i := by
  classical
  have chosen (n : labels) : ∃ i, label i = n ∧ good i := named n n.2
  choose f named right using chosen
  refine ⟨labels.attach.image f, ?_, ?_⟩
  · rw [Finset.card_image_of_injective, Finset.card_attach]
    intro n m same
    apply Subtype.ext
    rw [← named n, ← named m, same]
  · intro i member
    obtain ⟨n, -, rfl⟩ := Finset.mem_image.mp member
    exact right n

theorem exists_min_overlap {members : Finset ρ} {q : Nat} (fits : q ≤ members.card) :
    ∃ first second, first ⊆ members ∧ second ⊆ members ∧ first.card = q ∧ second.card = q ∧
      (first ∩ second).card = 2 * q - members.card := by
  obtain ⟨first, hf, card₁⟩ := Finset.exists_subset_card_eq fits
  have room : (members \ first).card = members.card - q := by
    rw [Finset.card_sdiff_of_subset hf, card₁]
  by_cases apart : q ≤ (members \ first).card
  · obtain ⟨second, hs, card₂⟩ := Finset.exists_subset_card_eq apart
    refine ⟨first, second, hf, hs.trans Finset.sdiff_subset, card₁, card₂, ?_⟩
    have disjoint : first ∩ second = ∅ := by
      rw [← Finset.disjoint_iff_inter_eq_empty]
      exact Finset.disjoint_of_subset_right hs Finset.disjoint_sdiff
    rw [disjoint, Finset.card_empty]
    omega
  · -- the second set takes everything outside the first and fills up from inside it
    obtain ⟨shared, hshared, cardShared⟩ :=
      Finset.exists_subset_card_eq (s := first) (n := 2 * q - members.card) (by omega)
    refine ⟨first, (members \ first) ∪ shared, hf,
      Finset.union_subset Finset.sdiff_subset (hshared.trans hf), card₁, ?_, ?_⟩
    · rw [Finset.card_union_of_disjoint, room, cardShared]
      · omega
      · exact Finset.disjoint_of_subset_right hshared Finset.sdiff_disjoint
    · have common : first ∩ (members \ first ∪ shared) = shared := by
        rw [Finset.inter_union_distrib_left, Finset.inter_sdiff_self, Finset.empty_union]
        exact Finset.inter_eq_right.mpr hshared
      rw [common, cardShared]

variable {ρ κ υ : Type*}

/-- Two quorums have an honest participant in common. -/
structure QuorumSystem (ρ : Type*) where
  honest : ρ → Prop
  quorum : Finset ρ → Prop
  common : ∀ q q', quorum q → quorum q' → ∃ i, i ∈ q ∧ i ∈ q' ∧ honest i

@[ext]
structure Ballots (ρ κ υ : Type*) where
  prepared : Set (ρ × κ × υ)
  committed : Set (ρ × κ × υ)

inductive Ballot (ρ κ υ : Type*)
  | prepare (participant : ρ) (slot : κ) (value : υ)
  | commit (participant : ρ) (slot : κ) (value : υ)

namespace Ballots

def PrepareCertificate (Q : QuorumSystem ρ) (b : Ballots ρ κ υ) (slot : κ) (value : υ) : Prop :=
  ∃ q, Q.quorum q ∧ ∀ i ∈ q, Q.honest i → (i, slot, value) ∈ b.prepared

def CommitCertificate (Q : QuorumSystem ρ) (b : Ballots ρ κ υ) (slot : κ) (value : υ) : Prop :=
  ∃ q, Q.quorum q ∧ ∀ i ∈ q, Q.honest i → (i, slot, value) ∈ b.committed

end Ballots

def voting (Q : QuorumSystem ρ) : System (Ballots ρ κ υ) (Ballot ρ κ υ) where
  initial b := b.prepared = ∅ ∧ b.committed = ∅
  step b ballot b' :=
    match ballot with
    | .prepare i slot value =>
      (∀ other, (i, slot, other) ∉ b.prepared) ∧ b' = { b with prepared := insert (i, slot, value) b.prepared }
    | .commit i slot value =>
      b.PrepareCertificate Q slot value ∧ b' = { b with committed := insert (i, slot, value) b.committed }

structure Consistent (Q : QuorumSystem ρ) (b : Ballots ρ κ υ) : Prop where
  once : ∀ i slot v w, (i, slot, v) ∈ b.prepared → (i, slot, w) ∈ b.prepared → v = w
  backed : ∀ i slot v, (i, slot, v) ∈ b.committed → b.PrepareCertificate Q slot v

variable {Q : QuorumSystem ρ} {b : Ballots ρ κ υ}

theorem Ballots.PrepareCertificate.mono {b' : Ballots ρ κ υ} {slot : κ} {v : υ}
    (cert : b.PrepareCertificate Q slot v) (grows : b.prepared ⊆ b'.prepared) :
    b'.PrepareCertificate Q slot v := by
  obtain ⟨q, isQuorum, votes⟩ := cert
  exact ⟨q, isQuorum, fun i member honest => grows (votes i member honest)⟩

theorem Ballots.CommitCertificate.mono {b' : Ballots ρ κ υ} {slot : κ} {v : υ}
    (cert : b.CommitCertificate Q slot v) (grows : b.committed ⊆ b'.committed) :
    b'.CommitCertificate Q slot v := by
  obtain ⟨q, isQuorum, votes⟩ := cert
  exact ⟨q, isQuorum, fun i member honest => grows (votes i member honest)⟩

theorem voting_consistent (reachable : (voting Q).Reachable b) : Consistent Q b := by
  obtain ⟨trace, run⟩ := reachable
  refine run.invariant (fun _ => True) (Consistent Q) ?_ ?_ (fun _ _ => trivial)
  · rintro s ⟨noPrepared, noCommitted⟩
    exact ⟨by simp [noPrepared], by simp [noCommitted]⟩
  · intro s ballot s' holds step _
    cases ballot with
    | prepare i slot value =>
      obtain ⟨fresh, rfl⟩ := step
      constructor
      · intro j slot' v w hv hw
        simp only [Set.mem_insert_iff, Prod.mk.injEq] at hv hw
        rcases hv with ⟨rfl, rfl, rfl⟩ | hv
        · rcases hw with ⟨-, -, rfl⟩ | hw
          · rfl
          · exact absurd hw (fresh _)
        · rcases hw with ⟨rfl, rfl, rfl⟩ | hw
          · exact absurd hv (fresh _)
          · exact holds.once _ _ _ _ hv hw
      · intro j slot' v hv
        exact (holds.backed _ _ _ hv).mono (Set.subset_insert _ _)
    | commit i slot value =>
      obtain ⟨cert, rfl⟩ := step
      constructor
      · exact holds.once
      · intro j slot' v hv
        simp only [Set.mem_insert_iff, Prod.mk.injEq] at hv
        rcases hv with ⟨rfl, rfl, rfl⟩ | hv
        · exact cert
        · exact holds.backed _ _ _ hv

theorem Consistent.prepareCertificate_unique (holds : Consistent Q b) {slot : κ} {v w : υ}
    (hv : b.PrepareCertificate Q slot v) (hw : b.PrepareCertificate Q slot w) : v = w := by
  obtain ⟨q, isQuorum, votes⟩ := hv
  obtain ⟨q', isQuorum', votes'⟩ := hw
  obtain ⟨i, member, member', honest⟩ := Q.common q q' isQuorum isQuorum'
  exact holds.once i slot v w (votes i member honest) (votes' i member' honest)

theorem Consistent.prepareCertificate_of_commit (holds : Consistent Q b) {slot : κ} {v : υ}
    (cert : b.CommitCertificate Q slot v) : b.PrepareCertificate Q slot v := by
  obtain ⟨q, isQuorum, votes⟩ := cert
  obtain ⟨i, member, _, honest⟩ := Q.common q q isQuorum isQuorum
  exact holds.backed i slot v (votes i member honest)

end ResilientDB.Library
