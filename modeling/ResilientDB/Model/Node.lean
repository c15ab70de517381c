import ResilientDB.Model.CommitThread
import ResilientDB.Model.Proxy

namespace ResilientDB.Model.Proxy
open Library

inductive NodeFault
  | replica (fault : Fault)
  | proxy (fault : ProxyFault)
deriving DecidableEq

structure QueryRequest where
  minSeq : Nat := 0
  maxSeq : Nat := 0
deriving DecidableEq

structure QueryResponse where
  maxSeq : Nat := 0
  transactions : List Request := []
deriving DecidableEq

inductive ClientMessage
  | queryResponse (response : QueryResponse)
  | replicaState (replicaConfig : ResDBConfig)
  | customQueryResponse (respStr : String)
  | response (answer : String)
  | error

structure ClientEnv where
  parseQuery : String → Option QueryRequest
  needResponse : String → Bool
  fromPrimary : Request → Option QueryResponse

-- In the performance mode the `PerformanceManager` has no channels.
structure Node where
  replica : Replica
  thread : Option ProposeThread
  customQueryExecutor : Option (String → Option String) := none
  isTestMode : Bool := false

namespace Node

variable (n : Node)

structure Handled where
  node : Node
  sent : List (Nat × ClientMessage) := []

def send (channel : NetChannel) (message : ClientMessage) : Except NodeFault Handled :=
  match channel.send message with
  | .ok sent => .ok { node := n, sent := [sent] }
  | .error fault => .error (.proxy fault)

def queryResponse (query : QueryRequest) : QueryResponse :=
  if query.maxSeq = 0 ∧ query.minSeq = 0 then { maxSeq := subUInt64 n.replica.nextSeq 1 }
  else
    { transactions := n.replica.checkpointManager.processQuery
        (List.range' query.minSeq (query.maxSeq + 1 - query.minSeq)) }

def processQuery (client : ClientEnv) (channel : NetChannel) (request : Request) : Except NodeFault Handled :=
  if n.replica.config.isClient then
    match client.fromPrimary request with
    | some response => n.send channel (.queryResponse response)
    | none => .ok { node := n }
  else
    match client.parseQuery request.data with
    | some query => n.send channel (.queryResponse (n.queryResponse query))
    | none => .ok { node := n }

def processGetReplicaState (channel : NetChannel) : Except NodeFault Handled :=
  n.send channel (.replicaState n.replica.config)

def processCustomQuery (channel : NetChannel) (request : Request) : Except NodeFault Handled :=
  match n.customQueryExecutor with
  | none => .ok { node := n }
  | some query => n.send channel (.customQueryResponse ((query request.data).getD ""))

def newUserRequest (context : ClientContext) (needResponse : Bool) (request : Request) : Node :=
  { n with thread := n.thread.map fun thread => thread.newUserRequest context needResponse request }

def processResponseMsg (signature : SignatureInfo) (request : Request) : Except NodeFault Handled :=
  match n.thread with
  | none => .ok { node := n }
  | some thread =>
    match thread.manager.processResponseMsg signature request with
    | .ok answered =>
      .ok {
        node := { n with thread := some { thread with manager := answered.manager } }
        sent := answered.sent.map fun sent => (sent.1, .response sent.2) }
    | .error fault => .error (.proxy fault)

def dispatch (client : ClientEnv) (socket : Option Nat) (receipt : Receipt) : Except NodeFault Handled :=
  match receipt.request.type with
  | .clientRequest =>
    .ok { node := n.newUserRequest ⟨some ⟨socket⟩, receipt.context.signature⟩
            (client.needResponse receipt.message.data) receipt.request }
  | .response => n.processResponseMsg receipt.context.signature receipt.request
  | .query => n.processQuery client ⟨socket⟩ receipt.request
  | .replicaState => n.processGetReplicaState ⟨socket⟩
  | .customQuery => n.processCustomQuery ⟨socket⟩ receipt.request
  | _ => .ok { node := n }

def process (envs : Nat → Env) (client : ClientEnv) (socket : Option Nat) (buff : String) : Except NodeFault Handled :=
  match n.replica.process envs buff with
  | .error fault => .error (.replica fault)
  | .ok progress =>
    let next := { n with replica := progress.1.replica }
    match receive (envs 0) buff with
    | none => .ok { node := next }
    | some receipt => next.dispatch client socket receipt

def batchProposeMsg (env : Env) : Except NodeFault Handled :=
  if n.replica.config.isClient ∨ n.isTestMode then
    match n.thread with
    | none => .ok { node := n }
    | some thread =>
      match thread.batchProposeMsg env with
      | .ok round =>
        .ok {
          node := { n with thread := some round.thread }
          sent := round.errors.map fun sent => (sent.1, .error) }
      | .error fault => .error (.proxy fault)
  else .ok { node := n }

def background (event : ServerEvent) : Except NodeFault Handled :=
  match ({ replica := n.replica } : Server).react event with
  | .ok (some server) => .ok { node := { n with replica := server.replica } }
  | .ok none => .ok { node := n }
  | .error fault => .error (.replica fault)

end Node

inductive NodeEvent
  | process (envs : Nat → Env) (client : ClientEnv) (socket : Option Nat) (buff : String)
  | batchProposeMsg (env : Env)
  | background (event : ServerEvent)

def NodeEvent.isOwn : NodeEvent → Bool
  | .background (.process _ _) => false
  | _ => true

def Node.act (n : Node) : NodeEvent → Except NodeFault Node.Handled
  | .process envs client socket buff => n.process envs client socket buff
  | .batchProposeMsg env => n.batchProposeMsg env
  | .background event => n.background event

def node (config : ResDBConfig) (parse : String → Option ResponseManager.BatchResponse)
    (serializeBatch : Common.BatchRequest → String) : System Node NodeEvent where
  initial n := ∃ outOfOrder needResponse needQc isPerformance hasVerifier clientBatchNum customQueryExecutor isTestMode,
    n = {
      replica := { Replica.create config with
        transactionExecutor := { outOfOrder := outOfOrder, needResponse := needResponse }, needQc := needQc }
      thread :=
        if isPerformance = true then none
        else some {
          manager := .create config parse serializeBatch hasVerifier, clientBatchNum := clientBatchNum }
      customQueryExecutor := customQueryExecutor
      isTestMode := isTestMode }
  step n event n' := event.isOwn = true ∧ ∃ sent, n.act event = .ok { node := n', sent := sent }

end ResilientDB.Model.Proxy
