import ResilientDB.Model.GeoExecutor

namespace ResilientDB.Model
open Library

structure GeoPBFTCommitment where
  checklist : Nat → Finset Nat := fun _ => ∅
  minSeq : Nat := 0

structure CcmResult where
  ret : Int
  broadcast : Option GeoRequest := none
  ordered : Option GeoRequest := none
deriving DecidableEq, Repr

namespace GeoPBFTCommitment

variable (env : GeoEnv) (config : GeoConfig) (c : GeoPBFTCommitment)

def verifyCerts (request : BatchUserRequest) : Bool :=
  match env.verifier with
  | none => true
  | some verifyMessage => (request.committedCerts.getD []).all fun sig => verifyMessage request.hash sig

def addNewReq (seq senderRegion : Nat) : Bool × GeoPBFTCommitment :=
  if seq < c.minSeq then (false, c)
  else
    let slot := c.checklist (seq % 2 ^ 20)
    if senderRegion ∈ slot then (false, c)
    else (true, { c with checklist := Function.update c.checklist (seq % 2 ^ 20) (insert senderRegion slot) })

def updateSeq (seq : Nat) : GeoPBFTCommitment := if seq > c.minSeq then { c with minSeq := seq } else c

def checkAndOrder (request : GeoRequest) : CcmResult :=
  match env.parseBatchUserRequest request.data with
  | none => { ret := -2 }
  | some batch =>
    if batch.committedCerts.isNone || !verifyCerts env batch then { ret := -2 }
    else if request.regionId ≠ config.selfRegionId then
      let copy := newRequest .geoRequest request.toRequest config.selfInfo.id
      { ret := 0, broadcast := some { copy with regionId := request.regionId }, ordered := some request }
    else { ret := 0, ordered := some request }

def geoProcessCcm (request : GeoRequest) : CcmResult × GeoPBFTCommitment :=
  match c.addNewReq request.seq (toUInt32 request.regionId) with
  | (false, same) => ({ ret := 1 }, same)
  | (true, added) => (checkAndOrder env config request, added)

end GeoPBFTCommitment

-- `inside` are the calls that have passed `AddNewReq`.
structure GeoNode where
  commitment : GeoPBFTCommitment := {}
  inside : List GeoRequest := []
  order : GeoOrder
  broadcasts : List GeoRequest := []
  sent : List Request := []

inductive GeoEvent
  | addNewReq (request : GeoRequest)
  | checkAndOrder (request : GeoRequest)
  | orderRound
  | postProcessExecutedMsg
  | stop
  | lastRound (turns : Nat)
deriving DecidableEq, Repr

namespace GeoNode

variable (env : GeoEnv) (config : GeoConfig) (s : GeoNode)

def addNewReq (request : GeoRequest) : GeoNode :=
  match s.commitment.addNewReq request.seq (toUInt32 request.regionId) with
  | (false, same) => { s with commitment := same }
  | (true, added) => { s with commitment := added, inside := s.inside ++ [request] }

def checkAndOrder (request : GeoRequest) : GeoNode :=
  let result := GeoPBFTCommitment.checkAndOrder env config request
  { s with
    inside := s.inside.erase request
    order := result.ordered.elim s.order s.order.orderGeoRequest
    broadcasts := s.broadcasts ++ result.broadcast.toList }

def postProcessExecutedMsg : GeoNode :=
  let popped := { s with order := s.order.getResponseMsg }
  match s.order.executor.getResponseMsg.1 with
  | none => popped
  | some response =>
    { popped with
      commitment := s.commitment.updateSeq response.seq
      sent := s.sent ++ [{
        seq := response.seq, type := .response, senderId := toInt32 config.selfInfo.id
        currentView := response.currentView, proxyId := response.proxyId
        data := env.serializeBatchUserResponse response }] }

def orderStep (event : GeoOrderEvent) : Option GeoNode :=
  (s.order.act env event).map fun order => { s with order := order }

def act : GeoEvent → Option GeoNode
  | .addNewReq request => some (s.addNewReq request)
  | .checkAndOrder request => if request ∈ s.inside then some (s.checkAndOrder env config request) else none
  | .orderRound => s.orderStep env .orderRound
  | .postProcessExecutedMsg => some (s.postProcessExecutedMsg env config)
  | .stop => s.orderStep env .stop
  | .lastRound turns => s.orderStep env (.lastRound turns)

end GeoNode

def geoNode (env : GeoEnv) (config : GeoConfig) : System GeoNode GeoEvent where
  initial s := s = { order := { executor := .create config } }
  step s event s' := s.act env config event = some s'

end ResilientDB.Model
