import ResilientDB.Model.Framework

-- `ResponseManager` exists only outside of the performance mode.

namespace ResilientDB.Model.Proxy
open Library

inductive ProxyFault
  | collector (fault : Fault)
  | responseOutOfRange
  | nullSocket
deriving DecidableEq, Repr

def ofCollector {α : Type} : Except Fault α → Except ProxyFault α
  | .ok value => .ok value
  | .error fault => .error (.collector fault)

structure NetChannel where
  socket : Option Nat
deriving DecidableEq, Repr

def NetChannel.send {α : Type} (channel : NetChannel) (message : α) : Except ProxyFault (Nat × α) :=
  match channel.socket with
  | some socket => .ok (socket, message)
  | none => .error .nullSocket

structure ClientContext where
  client : Option NetChannel := none
  signature : SignatureInfo := {}
deriving DecidableEq, Repr

structure QueueItem where
  context : ClientContext
  userRequest : Request
deriving DecidableEq, Repr

structure ContextPool where
  pool : LockFreeCollectorPool
  contextList : Nat → List ClientContext := fun _ => []

namespace ContextPool

variable (c : ContextPool)

def setContextList (seq : Nat) (contexts : List ClientContext) : ContextPool × Int :=
  if (c.pool.getCollector seq).seq ≠ seq then (c, -2)
  else ({ c with contextList := Function.update c.contextList (seq &&& c.pool.mask) contexts }, 0)

def fetchContextList (seq : Nat) : List ClientContext × ContextPool :=
  if (c.pool.getCollector seq).seq ≠ seq then ([], c)
  else (c.contextList (seq &&& c.pool.mask),
    { c with contextList := Function.update c.contextList (seq &&& c.pool.mask) [] })

def update (seq : Nat) : ContextPool :=
  if (c.pool.getCollector seq).seq ≠ seq then c
  else { pool := c.pool.update seq
         contextList := Function.update c.contextList ((seq &&& c.pool.mask) ^^^ c.pool.capacity) [] }

end ContextPool

-- No run uses up the 64 bits of `local_id_`.
structure Manager where
  manager : ResponseManager
  serializeBatch : Common.BatchRequest → String
  hasVerifier : Bool := true
  contextPool : ContextPool
  localId : Nat := 1

namespace Manager

variable (m : Manager)

def config : ResDBConfig := m.manager.config

def create (config : ResDBConfig) (parse : String → Option ResponseManager.BatchResponse)
    (serializeBatch : Common.BatchRequest → String) (hasVerifier : Bool) : Manager where
  manager := .create config parse
  serializeBatch := serializeBatch
  hasVerifier := hasVerifier
  contextPool := { pool := .create config.maxProcessTxn false }

def addContextList (contexts : List ClientContext) (id : Nat) : Manager × Int :=
  let (pool, ret) := m.contextPool.setContextList id contexts
  ({ m with contextPool := pool }, ret)

def fetchContextList (id : Nat) : List ClientContext × Manager :=
  let (contexts, pool) := m.contextPool.fetchContextList id
  (contexts, { m with contextPool := pool.update id })

def userRequests (batchReq : List QueueItem) : List Common.UserRequest :=
  batchReq.zipIdx.map fun (item, i) =>
    { request := item.userRequest, signature := some item.context.signature, id := i }

def batchMessage (env : Env) (data : String) : Option Request :=
  let message : Request :=
    { newRequest .newTxns {} m.config.selfId with
      data := data, hash := env.calculateHash data, proxyId := toInt32 m.config.selfId }
  if m.hasVerifier then
    (env.signMessage data).map fun signature => { message with dataSignature := some signature }
  else some message

structure Batched where
  manager : Manager
  ret : Int
  sent : Option Request := none

-- The local id is used up also when the batch is not sent.
def doBatch (env : Env) (batchReq : List QueueItem) : Batched :=
  let batchRequest : Common.BatchRequest := { userRequests := userRequests batchReq, localId := m.localId }
  let (added, ret) := m.addContextList (batchReq.map fun item => item.context) m.localId
  let numbered := { added with localId := m.localId + 1 }
  if ret ≠ 0 then { manager := numbered, ret := ret }
  else
    match m.batchMessage env (m.serializeBatch { batchRequest with createtime := env.now }) with
    | none => { manager := numbered, ret := -2 }
    | some message =>
      { manager := { numbered with manager := numbered.manager.sentBatch message }, ret := 0, sent := some message }

def sendResponses (response : List String) : List ClientContext → Nat → Except ProxyFault (List (Nat × String))
  | [], _ => .ok []
  | context :: rest, i =>
    match context.client with
    | none => sendResponses response rest (i + 1)
    | some channel =>
      match response[i]? with
      | none => .error .responseOutOfRange
      | some answer => do
        let sent ← channel.send answer
        let more ← sendResponses response rest (i + 1)
        .ok (sent :: more)

structure Answered where
  manager : Manager
  ret : Int := 0
  sent : List (Nat × String) := []

def sendResponseToClient (batch : ResponseManager.BatchResponse) : Except ProxyFault Answered := do
  let (contexts, fetched) := m.fetchContextList batch.localId
  let sent ← sendResponses batch.response contexts 0
  .ok { manager := fetched, sent := sent }

def processResponseMsg (signature : SignatureInfo) (request : Request) : Except ProxyFault Answered := do
  let processed ← ofCollector (m.manager.processResponseMsg signature request)
  let next := { m with manager := processed.manager }
  match processed.sent with
  | none => .ok { manager := next, ret := processed.ret }
  | some batch => do
    let answered ← next.sendResponseToClient batch
    .ok { answered with ret := processed.ret }

def waits : Bool := m.config.maxProcessTxn < toUInt32 m.manager.sendNum

end Manager

inductive BatchEvent
  | doBatch (env : Env) (batchReq : List QueueItem)
  | processResponseMsg (signature : SignatureInfo) (request : Request)

def BatchEvent.isPassed : BatchEvent → Bool
  | .doBatch _ _ => true
  | .processResponseMsg _ request => request.type = .response

def Manager.act (m : Manager) : BatchEvent → Except ProxyFault Manager
  | .doBatch env batchReq => .ok (m.doBatch env batchReq).manager
  | .processResponseMsg signature request => do
    let answered ← m.processResponseMsg signature request
    .ok answered.manager

def batching (config : ResDBConfig) (parse : String → Option ResponseManager.BatchResponse)
    (serializeBatch : Common.BatchRequest → String) (hasVerifier : Bool) : System Manager BatchEvent where
  initial m := m = .create config parse serializeBatch hasVerifier
  step m event m' := event.isPassed = true ∧ m.act event = .ok m'

structure ProposeThread where
  manager : Manager
  clientBatchNum : Nat := 100
  batchQueue : List QueueItem := []
  batchReq : List QueueItem := []

namespace ProposeThread

variable (p : ProposeThread)

def newUserRequest (context : ClientContext) (needResponse : Bool) (userRequest : Request) : ProposeThread :=
  let kept := if needResponse then context else { context with client := none }
  { p with batchQueue := p.batchQueue ++ [⟨kept, userRequest⟩] }

def sendErrors : List QueueItem → Except ProxyFault (List (Nat × Unit))
  | [] => .ok []
  | item :: rest =>
    match item.context.client with
    | none => sendErrors rest
    | some channel => do
      let sent ← channel.send ()
      let more ← sendErrors rest
      .ok (sent :: more)

structure Round where
  thread : ProposeThread
  called : Option (List QueueItem × Manager.Batched) := none
  errors : List (Nat × Unit) := []

-- The vector is cleared before the loop over it.
def propose (env : Env) : Except ProxyFault Round := do
  let batched := p.manager.doBatch env p.batchReq
  let cleared : List QueueItem := []
  let errors ← if batched.ret ≠ 0 then sendErrors cleared else .ok []
  .ok { thread := { p with manager := batched.manager, batchReq := cleared }
        called := some (p.batchReq, batched), errors := errors }

def batchProposeMsg (env : Env) : Except ProxyFault Round :=
  if p.manager.waits then .ok { thread := p }
  else if p.batchReq.length < p.clientBatchNum then
    match p.batchQueue with
    | item :: rest =>
      let popped := { p with batchQueue := rest, batchReq := p.batchReq ++ [item] }
      if popped.batchReq.length < p.clientBatchNum then .ok { thread := popped } else popped.propose env
    | [] => if p.batchReq = [] then .ok { thread := p } else p.propose env
  else if p.batchReq = [] then .ok { thread := p }
  else p.propose env

end ProposeThread

inductive ProposeEvent
  | newUserRequest (context : ClientContext) (needResponse : Bool) (userRequest : Request)
  | batchProposeMsg (env : Env)
  | processResponseMsg (signature : SignatureInfo) (request : Request)

def ProposeEvent.isPassed : ProposeEvent → Bool
  | .processResponseMsg _ request => request.type = .response
  | _ => true

def ProposeThread.act (p : ProposeThread) : ProposeEvent → Except ProxyFault ProposeThread
  | .newUserRequest context needResponse userRequest => .ok (p.newUserRequest context needResponse userRequest)
  | .batchProposeMsg env => do
    let round ← p.batchProposeMsg env
    .ok round.thread
  | .processResponseMsg signature request => do
    let answered ← p.manager.processResponseMsg signature request
    .ok { p with manager := answered.manager }

def proposing (config : ResDBConfig) (parse : String → Option ResponseManager.BatchResponse)
    (serializeBatch : Common.BatchRequest → String) (hasVerifier : Bool) (clientBatchNum : Nat) :
    System ProposeThread ProposeEvent where
  initial p := p = { manager := .create config parse serializeBatch hasVerifier, clientBatchNum := clientBatchNum }
  step p event p' := event.isPassed = true ∧ p.act event = .ok p'

end ResilientDB.Model.Proxy
