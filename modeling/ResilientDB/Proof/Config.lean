import ResilientDB.Library.Quorum
import ResilientDB.Model.Config
import Mathlib.Data.Fintype.Card

namespace ResilientDB.Proof
open Model Library

abbrev ReplicaSet (config : ResDBConfig) := Finset (Fin config.getReplicaNum)

def QuorumsIntersect (config : ResDBConfig) : Prop :=
  ∀ first second : ReplicaSet config, first.card = config.getMinDataReceiveNum →
    second.card = config.getMinDataReceiveNum →
    config.getMaxMaliciousReplicaNum + 1 ≤ (first ∩ second).card

theorem quorum_overlap (config : ResDBConfig) (first second : ReplicaSet config)
    (hf : first.card = config.getMinDataReceiveNum) (hs : second.card = config.getMinDataReceiveNum) :
    4 * config.getMaxMaliciousReplicaNum + 2 ≤ config.getReplicaNum + (first ∩ second).card := by
  have counted := card_inter_of_subset (Finset.subset_univ first) (Finset.subset_univ second)
  have quorum := config.getMinDataReceiveNum_eq
  rw [Finset.card_univ, Fintype.card_fin] at counted
  omega

theorem quorumsIntersect_iff (config : ResDBConfig) :
    QuorumsIntersect config ↔ config.getReplicaNum = 3 * config.getMaxMaliciousReplicaNum + 1 := by
  have size := config.getReplicaNum_bounds
  have quorum := config.getMinDataReceiveNum_eq
  constructor
  · intro intersect
    have fits : config.getMinDataReceiveNum ≤
        (Finset.univ : ReplicaSet config).card := by
      rw [Finset.card_univ, Fintype.card_fin]
      omega
    obtain ⟨first, second, -, -, hf, hs, least⟩ := exists_min_overlap fits
    have shared := intersect first second hf hs
    rw [least, Finset.card_univ, Fintype.card_fin] at shared
    omega
  · intro exact3 first second hf hs
    have shared := quorum_overlap config first second hf hs
    omega

theorem quorum_intersection (config : ResDBConfig) :
    (∀ first second : ReplicaSet config, first.card = config.getMinDataReceiveNum →
      second.card = config.getMinDataReceiveNum →
      4 * config.getMaxMaliciousReplicaNum + 2 ≤ config.getReplicaNum + (first ∩ second).card) ∧
    (QuorumsIntersect config ↔ config.getReplicaNum = 3 * config.getMaxMaliciousReplicaNum + 1) ∧
    config.getMinDataReceiveNum ≤ config.getReplicaNum - config.getMaxMaliciousReplicaNum :=
  ⟨quorum_overlap config, quorumsIntersect_iff config, by
    have size := config.getReplicaNum_bounds
    have quorum := config.getMinDataReceiveNum_eq
    omega⟩

def sixReplicas : ResDBConfig where
  replicas := [⟨1⟩, ⟨2⟩, ⟨3⟩, ⟨4⟩, ⟨5⟩, ⟨6⟩]
  selfInfo := ⟨1⟩

theorem sixReplicas_disjoint_quorums : ¬ QuorumsIntersect sixReplicas := by
  intro intersect
  have shared := intersect ({0, 1, 2} : Finset (Fin 6)) ({3, 4, 5} : Finset (Fin 6)) (by decide) (by decide)
  revert shared
  decide

end ResilientDB.Proof
