import ResilientDB.Library.OrderedMap
import ResilientDB.Library.TransitionSystem
import ResilientDB.Model.Config
import Mathlib.Data.Prod.Lex
import Mathlib.Order.Lattice.Nat

namespace ResilientDB.Model
open Library

structure RegionInfo where
  replicaInfo : List ReplicaInfo := []
  regionId : Int := 0
deriving DecidableEq, Repr

structure GeoConfig extends ResDBConfig where
  regions : List RegionInfo
  selfRegionId : Int
  own : (regions.find? fun region => region.regionId = selfRegionId).map RegionInfo.replicaInfo = some replicas := by
    decide
  few : regions.length < 2 ^ 30 := by decide

structure GeoRequest extends Request where
  regionId : Int := 0
deriving DecidableEq, Repr

structure UserRequest where
  request : Request
  signature : SignatureInfo := {}
  id : Int := 0
deriving DecidableEq, Repr

structure BatchUserRequest where
  userRequests : List UserRequest := []
  seq : Nat := 0
  committedCerts : Option (List SignatureInfo) := none
  hash : String := ""
  proxyId : Int := 0
deriving DecidableEq, Repr

structure GeoEnv where
  parseBatchUserRequest : String → Option BatchUserRequest
  serializeBatchUserResponse : BatchUserResponse → String
  verifier : Option (String → SignatureInfo → Bool)
  transactionManager : Option (List BatchUserRequest → BatchUserRequest → Option BatchUserResponse)

structure GeoGlobalExecutor where
  regionSize : Nat
  myRegion : Int
  executeMap : OrderedMap (Nat ×ₗ Int) GeoRequest := .empty
  nextSeq : Nat := 1
  nextRegion : Int := 1
  isStop : Bool := false
  orderQueue : List GeoRequest := []
  respQueue : List BatchUserResponse := []
  batches : List BatchUserRequest := []

def GeoRequest.key (request : GeoRequest) : Nat ×ₗ Int := toLex (request.seq, request.regionId)

namespace GeoGlobalExecutor

variable (e : GeoGlobalExecutor)

def create (config : GeoConfig) : GeoGlobalExecutor :=
  { regionSize := config.regions.length, myRegion := config.selfRegionId }

def execute (env : GeoEnv) (request : GeoRequest) : GeoGlobalExecutor :=
  match env.parseBatchUserRequest request.data with
  | none => e
  | some batch =>
    if request.data = "" then e
    else
      match env.transactionManager with
      | none => e
      | some executeBatch =>
        let executed := { e with batches := e.batches ++ [batch] }
        match executeBatch e.batches batch with
        | none => executed
        | some response =>
          if request.regionId = e.myRegion then
            { executed with
              respQueue := e.respQueue ++ [{ response with proxyId := batch.proxyId, seq := batch.seq }] }
          else executed

def orderGeoRequest (request : GeoRequest) : GeoGlobalExecutor :=
  { e with orderQueue := e.orderQueue ++ [request] }

def getResponseMsg : Option BatchUserResponse × GeoGlobalExecutor :=
  match e.respQueue with
  | [] => (none, e)
  | response :: rest => (some response, { e with respQueue := rest })

def addData : GeoGlobalExecutor :=
  match e.orderQueue with
  | [] => e
  | request :: rest => { e with orderQueue := rest, executeMap := e.executeMap.assign request.key request }

def getNextMap : Option (GeoRequest × GeoGlobalExecutor) :=
  match e.executeMap.first? with
  | none => none
  | some (key, request) =>
    if key = toLex (e.nextSeq, e.nextRegion) then
      let taken := { e with
        executeMap := e.executeMap.eraseIf fun k => k = key
        nextRegion := e.nextRegion + 1 }
      if taken.nextRegion > taken.regionSize then
        some (request, { taken with nextRegion := 1, nextSeq := taken.nextSeq + 1 })
      else some (request, taken)
    else none

end GeoGlobalExecutor

structure GeoOrder where
  executor : GeoGlobalExecutor
  arrived : List GeoRequest := []
  executed : List GeoRequest := []

inductive GeoOrderEvent
  | orderGeoRequest (request : GeoRequest)
  | orderRound
  | lastRound (turns : Nat)
  | stop
  | getResponseMsg
deriving DecidableEq, Repr

namespace GeoOrder

variable (env : GeoEnv) (s : GeoOrder)

def pushed : List GeoRequest := s.arrived ++ s.executor.orderQueue

def orderGeoRequest (request : GeoRequest) : GeoOrder := { s with executor := s.executor.orderGeoRequest request }

def addData : GeoOrder :=
  { s with executor := s.executor.addData, arrived := s.arrived ++ s.executor.orderQueue.head?.toList }

def executeNext : Nat → GeoOrder → GeoOrder
  | 0, s => s
  | turns + 1, s =>
    match s.executor.getNextMap with
    | none => s
    | some (request, next) =>
      executeNext turns { s with executor := next.execute env request, executed := s.executed ++ [request] }

def orderRound : GeoOrder :=
  let added := s.addData
  executeNext env added.executor.executeMap.size added

-- `Stop` is called while the inner loop runs.
def lastRound (turns : Nat) : GeoOrder :=
  let stopped := executeNext env turns s.addData
  { stopped with executor := { stopped.executor with isStop := true } }

def stop : GeoOrder := { s with executor := { s.executor with isStop := true } }

def getResponseMsg : GeoOrder := { s with executor := s.executor.getResponseMsg.2 }

def act : GeoOrderEvent → Option GeoOrder
  | .orderGeoRequest request => some (s.orderGeoRequest request)
  | .orderRound => if s.executor.isStop then none else some (s.orderRound env)
  | .lastRound turns => if s.executor.isStop then none else some (s.lastRound env turns)
  | .stop => some s.stop
  | .getResponseMsg => some s.getResponseMsg

end GeoOrder

def geoOrder (env : GeoEnv) (config : GeoConfig) : System GeoOrder GeoOrderEvent where
  initial s := s = { executor := .create config }
  step s event s' := s.act env event = some s'

structure Handing where
  replica : ReplicaInfo
  message : Request
  handed : Bool
deriving DecidableEq, Repr

-- `sendRawMessage n` is what the call number `n` returns.
structure GeoSender where
  isUseLongConn : Bool
  sendRawMessage : Nat → Int

namespace GeoSender

variable (sender : GeoSender)

def sendMessageInternal (message : Request) (replicas : List ReplicaInfo) (log : List Handing) : Int × List Handing :=
  replicas.foldl (fun (ret, log) replica =>
    if sender.sendRawMessage log.length = 0 then (ret + 1, log ++ [⟨replica, message, true⟩])
    else (ret, log ++ [⟨replica, message, false⟩])) (0, log)

def sendMessageFromPool (messages : List Request) (replicas : List ReplicaInfo) (log : List Handing) :
    Int × List Handing :=
  replicas.foldl (fun (ret, log) replica =>
    (ret + 1, log ++ messages.map fun message => ⟨replica, message, true⟩)) (0, log)

def sendBatchMessage (messages : List Request) (replica : ReplicaInfo) (log : List Handing) : Int × List Handing :=
  if sender.isUseLongConn then sendMessageFromPool messages [replica] log
  else
    messages.foldl (fun (ret, log) message =>
      let (sent, log) := sender.sendMessageInternal message [replica] log
      (ret + sent, log)) (0, log)

-- For a region without replicas `-1 / 3` is 0.
def sendRegion (messages : List Request) (maxFaulty : Nat) : List ReplicaInfo → Nat → List Handing → List Handing
  | [], _, log => log
  | replica :: rest, numRequestSent, log =>
    if numRequestSent > maxFaulty then log
    else
      let (ret, log) := sender.sendBatchMessage messages replica log
      sendRegion messages maxFaulty rest (if ret ≥ 0 then numRequestSent + 1 else numRequestSent) log

def sendBatchGeoMessage (config : GeoConfig) (primaryId : Int) (messages : List Request) : List Handing :=
  let (_, log) := sender.sendBatchMessage messages config.selfInfo []
  if config.selfInfo.id = primaryId then
    config.regions.foldl (fun log region =>
      if region.regionId = config.selfRegionId then log
      else sender.sendRegion messages ((region.replicaInfo.length - 1) / 3) region.replicaInfo 0 log) log
  else log

end GeoSender

end ResilientDB.Model
