import ResilientDB.Model.ConsensusManager

-- Heart beats do not touch the state of the ordering.

namespace ResilientDB.Model
open Library

structure Receipt where
  env : Env
  buff : String
  message : ResDBMessage
  request : Request

namespace Receipt

variable (receipt : Receipt)

def context : Context := ⟨receipt.message.signature.getD {}⟩

def item : Context × Request := (receipt.context, receipt.request)

def VerifiedFrom (i : Int) : Prop :=
  ∃ signature, receipt.message.signature = some signature ∧ signature.nodeId = i ∧
    receipt.env.verifyMessage receipt.message.data signature = true

end Receipt

def receive (env : Env) (buff : String) : Option Receipt :=
  match env.codec.parseMessage buff with
  | none => none
  | some message =>
    match env.codec.parseRequest message.data with
    | none => none
    | some request =>
      if request.type = .heartBeat then none
      else if message.signature.all (env.verifyMessage message.data) = false then none
      else some ⟨env, buff, message, request⟩

structure Server where
  replica : Replica
  received : List Receipt := []
  calls : List Call := []

inductive ServerEvent
  | process (envs : Nat → Env) (buff : String)
  | takeMessage
  | passNext
  | executeMessage (env : Env)
  | updateRecentHash (time : Nat)
  | updateCheckPointStatus (env : Env)
  | updateStableCheckPointStatus (env : Env)
  | monitorTimeout (env : Env)
  | monitorCheckpointState

namespace Server

variable (s : Server)

def setReplica (r : Replica) : Server := { s with replica := r }

def react : ServerEvent → Except Fault (Option Server)
  | .process envs buff => do
    let (progress, _) ← s.replica.process envs buff
    .ok (some {
      replica := progress.replica
      received := s.received ++ (receive (envs 0) buff).toList
      calls := s.calls ++ progress.calls })
  | .takeMessage => .ok (some (s.setReplica s.replica.takeMessage))
  | .passNext => .ok (s.replica.passNext.map s.setReplica)
  | .executeMessage env => .ok (some (s.setReplica (s.replica.executeMessage env).1))
  | .updateRecentHash time => .ok (some (s.setReplica (s.replica.updateRecentHash time)))
  | .updateCheckPointStatus env => .ok (some (s.setReplica (s.replica.updateCheckPointStatus env).1))
  | .updateStableCheckPointStatus env =>
    .ok (some (s.setReplica (s.replica.updateStableCheckPointStatus env).1))
  | .monitorTimeout env => do
    let (next, _) ← s.replica.monitorTimeout env
    .ok (some (s.setReplica next))
  | .monitorCheckpointState => .ok (some (s.setReplica s.replica.monitorCheckpointState))

end Server

def server (config : ResDBConfig) : System Server ServerEvent where
  initial s := ∃ outOfOrder needResponse needQc,
    s = { replica := { Replica.create config with
      transactionExecutor := { outOfOrder := outOfOrder, needResponse := needResponse }
      needQc := needQc } }
  step s event s' := s.react event = .ok (some s')

def serverAct (s : Server) (event : ServerEvent) : Option Server :=
  match s.react event with
  | .ok next => next
  | .error _ => none

structure HeartBeatInfo where
  primary : Nat
  version : Nat
deriving DecidableEq, Repr

namespace Replica

variable (r : Replica)

def setPrimary (primary version : Nat) : Replica :=
  if version > r.getCurrentView then { r with systemInfo := { primaryId := primary, view := version } } else r

def processHeartBeat (inRegion : Bool) (info : Option HeartBeatInfo) : Replica × Int :=
  match info with
  | none => (r, -1)
  | some info =>
    if inRegion ∧ r.config.isClient then (r.setPrimary info.primary info.version, 0) else (r, 0)

end Replica

inductive NodeEvent
  | server (event : ServerEvent)
  | heartBeat (inRegion : Bool) (info : Option HeartBeatInfo)

def node (config : ResDBConfig) : System Server NodeEvent where
  initial := (server config).initial
  step s event s' :=
    match event with
    | .server event => (server config).step s event s'
    | .heartBeat inRegion info => s' = s.setReplica (s.replica.processHeartBeat inRegion info).1

end ResilientDB.Model
