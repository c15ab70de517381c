import ResilientDB.Model.ResponseManager

namespace ResilientDB.Model.Common
open Library

abbrev BatchResponse := ResponseManager.BatchResponse

structure UserRequest where
  request : Request
  signature : Option SignatureInfo := none
  id : Nat := 0
deriving DecidableEq, Repr

structure BatchRequest where
  userRequests : List UserRequest := []
  localId : Nat := 0
  proxyId : Int := 0
  createtime : Nat := 0
deriving DecidableEq, Repr

structure BatchCodec where
  serializeBatch : BatchRequest → String
  parseResponse : String → Option BatchResponse

abbrev QueueItem := SignatureInfo × Request

def signBatch (env : Env) (config : ResDBConfig) (data : String) : Option Request :=
  (env.signMessage data).map fun signature =>
    { newRequest .newTxns {} config.selfId with
      data := data, dataSignature := some signature, hash := env.calculateHash data, proxyId := toInt32 config.selfId }

structure PerformanceManager where
  config : ResDBConfig
  codec : BatchCodec
  response : Nat → Option Int := fun _ => none
  localId : Int := 1
  sendNum : Int := 0

namespace PerformanceManager

variable (m : PerformanceManager)

structure Batched where
  manager : PerformanceManager
  ret : Int
  sent : Option Request := none

-- The count and the number stay used when signing fails.
def doBatch (env : Env) (batchReq : List QueueItem) : Batched :=
  let localId := toUInt64 m.localId
  let batchRequest : BatchRequest :=
    { userRequests := batchReq.zipIdx.map fun (item, i) => { request := item.2, id := i }
      localId := localId, proxyId := toInt32 m.config.selfId, createtime := env.now }
  let counted := { m with
    localId := toInt32 (m.localId + 1)
    response := Function.update m.response localId (some ((m.response localId).getD 0 + 1)) }
  match signBatch env m.config (m.codec.serializeBatch batchRequest) with
  | none => { manager := counted, ret := -2 }
  | some newRequest =>
    { manager := { counted with sendNum := counted.sendNum + 1 }, ret := 0, sent := some newRequest }

structure ResponseAdded where
  manager : PerformanceManager
  code : CollectorResultCode
  response : Option BatchResponse := none

def addResponseMsg (request : Request) : ResponseAdded :=
  match m.codec.parseResponse request.data with
  | none => { manager := m, code := .invalid }
  | some batch =>
    match m.response batch.localId with
    | none => { manager := m, code := .ok }
    | some count =>
      if m.config.getMinClientReceiveNum ≤ count + 1 then
        { manager := { m with response := Function.update m.response batch.localId none }
          code := .stateChanged, response := some batch }
      else
        { manager := { m with response := Function.update m.response batch.localId (some (count + 1)) }
          code := .ok }

def sendResponseToClient : PerformanceManager := { m with sendNum := m.sendNum - 1 }

def processResponseMsg (request : Request) : PerformanceManager × Int :=
  if request.ret = -2 then ({ m with sendNum := m.sendNum - 1 }, 0)
  else
    let added := m.addResponseMsg request
    let answered := if added.code = .stateChanged then added.manager.sendResponseToClient else added.manager
    (answered, if added.code = .invalid then -2 else 0)

end PerformanceManager

structure ResponseManager where
  config : ResDBConfig
  codec : BatchCodec
  isPerformanceRunning : Bool := false
  response : Nat → Int := fun _ => 0
  localId : Nat := 1
  sendNum : Int := 0

namespace ResponseManager

variable (m : ResponseManager)

structure Batched where
  manager : ResponseManager
  ret : Int
  sent : Option Request := none

def doBatch (env : Env) (batchReq : List QueueItem) : Batched :=
  let batchRequest : BatchRequest :=
    { userRequests := batchReq.zipIdx.map fun (item, i) => { request := item.2, signature := some item.1, id := i }
      localId := if m.isPerformanceRunning then 0 else m.localId, createtime := env.now }
  match signBatch env m.config (m.codec.serializeBatch batchRequest) with
  | none => { manager := m, ret := -2 }
  | some newRequest => { manager := { m with sendNum := m.sendNum + 1 }, ret := 0, sent := some newRequest }

structure ResponseAdded where
  manager : ResponseManager
  code : CollectorResultCode
  response : Option Request := none

def addResponseMsg (request : Request) : ResponseAdded :=
  let count := m.response request.seq
  if count = -1 then { manager := m, code := .ok }
  else if m.config.getMinClientReceiveNum ≤ count + 1 then
    { manager := { m with response := Function.update m.response request.seq (-1) }
      code := .stateChanged, response := some request }
  else { manager := { m with response := Function.update m.response request.seq (count + 1) }, code := .ok }

def sendResponseToClient : ResponseManager := { m with sendNum := m.sendNum - 1 }

def processResponseMsg (request : Request) : ResponseManager × Int :=
  if request.ret = -2 then ({ m with sendNum := m.sendNum - 1 }, 0)
  else
    let added := m.addResponseMsg request
    let batch := added.response.bind fun response => m.codec.parseResponse response.data
    let answered := if batch.isSome then added.manager.sendResponseToClient else added.manager
    (answered, if added.code = .invalid then -2 else 0)

end ResponseManager

inductive FrameworkEvent
  | doBatch (env : Env) (batchReq : List QueueItem)
  | response (request : Request)

def PerformanceManager.react (m : PerformanceManager) : FrameworkEvent → PerformanceManager
  | .doBatch env batchReq => (m.doBatch env batchReq).manager
  | .response request => (m.processResponseMsg request).1

def ResponseManager.react (m : ResponseManager) : FrameworkEvent → ResponseManager
  | .doBatch env batchReq => (m.doBatch env batchReq).manager
  | .response request => (m.processResponseMsg request).1

def performing (config : ResDBConfig) (codec : BatchCodec) : System PerformanceManager FrameworkEvent where
  initial m := m = { config := config, codec := codec }
  step m event m' := m' = m.react event

def responding (config : ResDBConfig) (codec : BatchCodec) : System ResponseManager FrameworkEvent where
  initial m := ∃ performance, m = { config := config, codec := codec, isPerformanceRunning := performance }
  step m event m' := m' = m.react event

end ResilientDB.Model.Common
