import ResilientDB.Model.Framework

namespace ResilientDB.Model
open Library

structure ExecutedBatch extends BatchUserResponse, ResponseManager.BatchResponse
deriving DecidableEq, Repr

-- No executor of the repository overrides `ExecuteBatch`.
structure TransactionManager (σ : Type) where
  isOutOfOrder : Bool := false
  needResponse : Bool := true
  executeData : σ → String → Option String × σ

def TransactionManager.executeBatch {σ : Type} (manager : TransactionManager σ) :
    List Common.UserRequest → σ → List String × σ
  | [], state => ([], state)
  | subRequest :: rest, state =>
    let (response, next) := manager.executeData state subRequest.request.data
    let (more, last) := manager.executeBatch rest next
    (response.getD "" :: more, last)

structure Service (σ : Type) where
  manager : Option (TransactionManager σ)
  parseBatch : String → Option Common.BatchRequest
  threads : ExecutorThreads
  state : σ
  executed : List (Request × ExecutedBatch) := []
  responses : List ExecutedBatch := []

namespace Service

variable {σ : Type} (s : Service σ)

def isOutOfOrder : Bool := s.manager.any fun manager => manager.isOutOfOrder

def needResponse : Bool := s.manager.all fun manager => manager.needResponse

def batchRequest (request : Request) : Common.BatchRequest := (s.parseBatch request.data).getD {}

def executeBatch (request : Request) : List String × σ :=
  match s.manager with
  | some manager => manager.executeBatch (s.batchRequest request).userRequests s.state
  | none => ([], s.state)

def onlyExecute (request : Request) : Service σ := { s with state := (s.executeBatch request).2 }

def executedBatch (request : Request) (response : List String) : ExecutedBatch where
  response := response
  proxyId := toInt32 request.proxyId
  createtime := (s.batchRequest request).createtime
  localId := (s.batchRequest request).localId
  hash := request.hash

def postExecute (primary : Int) (request : Request) (response : ExecutedBatch) : Option ExecutedBatch :=
  if request.isRecovery then none
  else if s.needResponse ∧ toInt32 request.proxyId ≠ 0 then
    some { response with
      proxyId := toInt32 request.proxyId, seq := request.seq
      currentView := request.currentView, primaryId := toInt32 primary }
  else none

def execute (primary : Int) (request : Request) (needExecute : Bool) : Service σ :=
  let (response, state) := if needExecute then s.executeBatch request else ([], s.state)
  let executed := s.executedBatch request response
  { s with
    state := state, executed := s.executed ++ [(request, executed)]
    responses := s.responses ++ (s.postExecute primary request executed).toList }

def executeMessage (primary : Int) : Service σ :=
  match s.threads.executor.executeQueue with
  | [] => s
  | request :: _ => { s.execute primary request (!s.isOutOfOrder) with threads := s.threads.executeMessage }

def executeMessageOutOfOrder : Service σ :=
  match s.threads.executor.executeOOOQueue with
  | [] => s
  | request :: _ => { s.onlyExecute request with threads := s.threads.executeMessageOutOfOrder }

def act : ExecutorEvent × Int → Option (Service σ)
  | (.commit message, _) => some { s with threads := s.threads.commit message }
  | (.orderMessage, _) => some { s with threads := s.threads.orderMessage }
  | (.executeMessage, primary) => some (s.executeMessage primary)
  | (.executeMessageOutOfOrder, _) => if s.isOutOfOrder then some s.executeMessageOutOfOrder else none

end Service

def serving {σ : Type} (manager : Option (TransactionManager σ)) (parseBatch : String → Option Common.BatchRequest)
    (state : σ) : System (Service σ) (ExecutorEvent × Int) where
  initial s := s =
    { manager := manager, parseBatch := parseBatch, state := state
      threads := { executor := { outOfOrder := manager.any fun manager => manager.isOutOfOrder } } }
  step s event s' := s.act event = some s'

def responseMessage (serializeResponse : ExecutedBatch → String) (selfId : Int) (batch : ExecutedBatch) : Request :=
  { hash := batch.hash, seq := batch.seq, type := .response, senderId := selfId, currentView := batch.currentView
    proxyId := batch.proxyId, primaryId := batch.primaryId, data := serializeResponse batch }

end ResilientDB.Model
