import ResilientDB.Model.Replica

namespace ResilientDB.Model

namespace ResponseManager

structure BatchResponse where
  response : List String := []
  createtime : Nat := 0
  localId : Nat := 0
deriving DecidableEq, Repr

def mayConsensusChangeStatus (config : ResDBConfig) (type : RequestType) : CallBack :=
  fun receivedCount status _ =>
    match type with
    | .response =>
      if status = .none ∧ config.getMinClientReceiveNum ≤ receivedCount then (true, .executed) else (false, status)
    | _ => (false, status)

end ResponseManager

structure ResponseManager where
  config : ResDBConfig
  parse : String → Option ResponseManager.BatchResponse
  collectorPool : LockFreeCollectorPool
  sendNum : Int := 0
  waitingResponseBatches : String → Option Request := fun _ => none

namespace ResponseManager

def create (config : ResDBConfig) (parse : String → Option BatchResponse) : ResponseManager where
  config := config
  parse := parse
  collectorPool := .create config.maxProcessTxn false

variable (m : ResponseManager)

def addWaitingResponseRequest (request : Request) : ResponseManager :=
  if m.config.enableViewchange = false then m
  else
    match m.waitingResponseBatches request.hash with
    | some _ => m
    | none => { m with
      waitingResponseBatches := Function.update m.waitingResponseBatches request.hash (some request) }

def removeWaitingResponseRequest (hash : String) : ResponseManager :=
  if m.config.enableViewchange = false then m
  else { m with waitingResponseBatches := Function.update m.waitingResponseBatches hash none }

def sentBatch (request : Request) : ResponseManager :=
  { m with sendNum := m.sendNum + 1 }.addWaitingResponseRequest request

structure ResponseAdded where
  manager : ResponseManager
  code : CollectorResultCode
  response : Option Request := none

def addResponseMsg (signature : SignatureInfo) (request : Request) : Except Fault ResponseAdded :=
  match m.parse request.data with
  | none => .ok { manager := m.removeWaitingResponseRequest request.hash, code := .invalid }
  | some batch => do
    let numbered := { request with seq := batch.localId }
    let result ← (m.collectorPool.getCollector batch.localId).addRequest 0 numbered signature false
      (mayConsensusChangeStatus m.config request.type)
    let added := { m with collectorPool := m.collectorPool.setCollector batch.localId result.collector }
    if result.ret ≠ 0 then .ok { manager := added, code := .invalid }
    else if result.changed then
      let updated := { added with collectorPool := added.collectorPool.update batch.localId }
      .ok {
        manager := updated.removeWaitingResponseRequest request.hash
        code := .stateChanged, response := some numbered }
    else .ok { manager := added, code := .ok }

def sendResponseToClient : ResponseManager := { m with sendNum := m.sendNum - 1 }

structure Processed where
  manager : ResponseManager
  ret : Int
  sent : Option BatchResponse := none

def processResponseMsg (signature : SignatureInfo) (request : Request) : Except Fault Processed :=
  if request.ret = -2 then .ok { manager := { m with sendNum := m.sendNum - 1 }, ret := 0 }
  else do
    let added ← m.addResponseMsg signature request
    let ret := if added.code = .invalid then -2 else 0
    match added.response.bind fun response => m.parse response.data with
    | some batch =>
      if added.code = .stateChanged then
        .ok { manager := added.manager.sendResponseToClient, ret := ret, sent := some batch }
      else .ok { manager := added.manager, ret := ret }
    | none => .ok { manager := added.manager, ret := ret }

inductive Event
  | sentBatch (request : Request)
  | received (signature : SignatureInfo) (request : Request) (sent : Option BatchResponse)
deriving DecidableEq, Repr

-- The event has the call that a RESPONSE leads to.
def answering (config : ResDBConfig) (parse : String → Option BatchResponse) :
    Library.System ResponseManager Event where
  initial m := m = create config parse
  step m event m' :=
    match event with
    | .sentBatch request => m' = m.sentBatch request
    | .received signature request sent => request.type = .response ∧
        ∃ ret, m.processResponseMsg signature request = .ok { manager := m', ret := ret, sent := sent }

def answeringAct (m : ResponseManager) : Event → Option ResponseManager
  | .sentBatch request => some (m.sentBatch request)
  | .received signature request sent =>
    if request.type = .response then
      match m.processResponseMsg signature request with
      | .ok processed => if processed.sent = sent then some processed.manager else none
      | .error _ => none
    else none

end ResponseManager
end ResilientDB.Model
