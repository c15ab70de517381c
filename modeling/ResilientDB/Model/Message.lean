import Mathlib.Algebra.Group.Int.Defs
import Mathlib.Algebra.Group.Nat.Defs

-- `uint64` fields are natural numbers below `2 ^ 64`, `bytes` fields are strings.

namespace ResilientDB.Model

-- `other` is a value of the `int32` field that names no type.
inductive RequestType
  | none
  | heartBeat
  | clientRequest
  | prePrepare
  | prepare
  | commit
  | clientCert
  | response
  | recoveryData
  | recoveryDataResp
  | checkpoint
  | query
  | replicaState
  | newTxns
  | geoRequest
  | viewchange
  | newview
  | customQuery
  | customConsensus
  | other (code : Int)
deriving DecidableEq, Repr

def RequestType.inTable : RequestType → Bool
  | .other code => 0 ≤ code && code < 20
  | _ => true

structure SignatureInfo where
  nodeId : Int := 0
  signature : String := ""
deriving DecidableEq, Repr

structure Request where
  type : RequestType := .none
  data : String := ""
  currentView : Nat := 0
  seq : Nat := 0
  hash : String := ""
  senderId : Int := 0
  proxyId : Int := 0
  ret : Int := 0
  dataSignature : Option SignatureInfo := none
  committedCerts : List SignatureInfo := []
  isRecovery : Bool := false
  primaryId : Int := 0
deriving DecidableEq, Repr

def toUInt32 (value : Int) : Nat := (value % 2 ^ 32).toNat

def toUInt64 (value : Int) : Nat := (value % 2 ^ 64).toNat

def toInt32 (value : Int) : Int := Int.bmod value (2 ^ 32)

def addUInt64 (a b : Nat) : Nat := (a + b) % 2 ^ 64

def subUInt64 (a b : Nat) : Nat := (2 ^ 64 + a - b) % 2 ^ 64

def maxUInt64 : Nat := 2 ^ 64 - 1

def newRequest (type : RequestType) (request : Request) (senderId : Int) : Request :=
  { request with type := type, senderId := toInt32 senderId }

structure Context where
  signature : SignatureInfo := {}
deriving DecidableEq, Repr

structure ResDBMessage where
  data : String
  signature : Option SignatureInfo := none
deriving DecidableEq, Repr

structure CheckPointData where
  seq : Nat := 0
  hash : String := ""
  hashSignature : SignatureInfo := {}
  hashs : List String := []
deriving DecidableEq, Repr

structure StableCheckPoint where
  seq : Nat := 0
  hash : String := ""
  signatures : List SignatureInfo := []
deriving DecidableEq, Repr

structure PreparedProof where
  request : Request
  signature : SignatureInfo := {}
deriving DecidableEq, Repr

structure PreparedMessage where
  seq : Nat
  proof : List PreparedProof
deriving DecidableEq, Repr

structure ViewChangeMessage where
  viewNumber : Nat
  stableCkpt : StableCheckPoint := {}
  preparedMsg : List PreparedMessage := []
deriving DecidableEq, Repr

structure NewViewMessage where
  viewNumber : Nat
  request : List Request := []
  viewchangeMessages : List ViewChangeMessage := []
deriving DecidableEq, Repr

structure Codec where
  parseMessage : String → Option ResDBMessage
  parseRequest : String → Option Request
  serializeRequest : Request → String
  parseCheckPointData : String → Option CheckPointData
  serializeCheckPointData : CheckPointData → String
  parseViewChange : String → Option ViewChangeMessage
  serializeViewChange : ViewChangeMessage → String
  parseNewView : String → Option NewViewMessage
  serializeNewView : NewViewMessage → String

structure BatchUserResponse where
  proxyId : Int := 0
  seq : Nat := 0
  currentView : Nat := 0
  hash : String := ""
  primaryId : Int := 0
deriving DecidableEq, Repr

/-- Undefined behaviour, aborts and loops without end. -/
inductive Fault
  | senderOutOfRange
  | typeOutOfRange
  | nullRequest
  | nullPool
  | missingProof
  | endlessLoop
  | assertion
deriving DecidableEq, Repr

end ResilientDB.Model
