import ResilientDB.Model.Message

namespace ResilientDB.Model

structure ReplicaInfo where
  id : Int
deriving DecidableEq, Repr

-- The length of a repeated protobuf field is an `int`, so the thresholds do not overflow.
structure ResDBConfig where
  replicas : List ReplicaInfo
  selfInfo : ReplicaInfo
  enableViewchange : Bool := false
  maxProcessTxn : Nat := 2048
  checkPointWaterMark : Nat := 5
  maxClientComplaintNum : Nat := 10
  isEnableCheckpoint : Bool := false
  isClient : Bool := false
  nonempty : replicas ≠ [] := by decide
  small : replicas.length < 2 ^ 31 := by decide

namespace ResDBConfig

variable (config : ResDBConfig)

def getReplicaNum : Nat := config.replicas.length

def getMinDataReceiveNum : Nat :=
  let f := (config.getReplicaNum - 1) / 3
  max (2 * f + 1) 1

def getMinClientReceiveNum : Nat :=
  let f := (config.getReplicaNum - 1) / 3
  max (f + 1) 1

def getMinCheckpointReceiveNum : Nat :=
  let f := (config.getReplicaNum - 1) / 3
  max (f + 1) 1

def getMaxMaliciousReplicaNum : Nat :=
  let f := (config.getReplicaNum - 1) / 3
  max f 0

def selfId : Int := config.selfInfo.id

def primaryOf (viewNumber : Nat) : Int :=
  -- `view_number - 1` in `uint64_t`
  let index := (addUInt64 viewNumber maxUInt64) % config.getReplicaNum
  (config.replicas.getD index ⟨0⟩).id

theorem getReplicaNum_pos : 0 < config.getReplicaNum :=
  List.length_pos_iff.mpr config.nonempty

theorem getMinDataReceiveNum_eq :
    config.getMinDataReceiveNum = 2 * config.getMaxMaliciousReplicaNum + 1 := by
  simp [getMinDataReceiveNum, getMaxMaliciousReplicaNum]

theorem getReplicaNum_bounds :
    3 * config.getMaxMaliciousReplicaNum + 1 ≤ config.getReplicaNum ∧
      config.getReplicaNum ≤ 3 * config.getMaxMaliciousReplicaNum + 3 := by
  have positive := config.getReplicaNum_pos
  simp only [getMaxMaliciousReplicaNum, Nat.max_zero]
  omega

end ResDBConfig

/-- What a call reads from outside: the clock, the allocator, the faulty switch, keys and answers. -/
structure Env where
  codec : Codec
  now : Nat := 0
  address : Nat := 0
  faulty : Bool := false
  verifyMessage : String → SignatureInfo → Bool
  signMessage : String → Option SignatureInfo
  preVerify : Request → Bool := fun _ => true
  calculateHash : String → String := id
  getRequestFromReplica : Nat → Nat → ReplicaInfo → Option (List Request) := fun _ _ _ => none

end ResilientDB.Model
