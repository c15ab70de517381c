import ResilientDB.Model.Server

-- Messages come in any order, any number of times or never. A Byzantine replica may send anything as itself.

namespace ResilientDB.Model
open Library

/-- `3f+1` replicas with distinct identifiers, at most `f` of them Byzantine. -/
structure Cluster where
  config : ResDBConfig
  view : Nat
  byzantine : Finset Int
  distinct : (config.replicas.map fun replica => replica.id).Nodup
  fits : ∀ replica ∈ config.replicas, toInt32 replica.id = replica.id
  size : config.getReplicaNum = 3 * config.getMaxMaliciousReplicaNum + 1
  members : ∀ i ∈ byzantine, i ∈ config.replicas.map fun replica => replica.id
  bound : byzantine.card ≤ config.getMaxMaliciousReplicaNum

namespace Cluster

variable (cluster : Cluster)

def ids : Finset Int := (cluster.config.replicas.map fun replica => replica.id).toFinset

def honest (i : Int) : Prop := i ∈ cluster.ids ∧ i ∉ cluster.byzantine

instance (i : Int) : Decidable (cluster.honest i) :=
  inferInstanceAs (Decidable (i ∈ cluster.ids ∧ i ∉ cluster.byzantine))

def configOf (i : Int) : ResDBConfig := { cluster.config with selfInfo := ⟨i⟩ }

end Cluster

structure Network where
  replica : Int → Replica
  sent : List Request := []
  handed : Int → List Request := fun _ => []

inductive NetworkEvent
  | deliver (receiver : Int) (env : Env) (context : Context) (request : Request)
  | takeMessage (i : Int)
  | passNext (i : Int)
  | executeMessage (i : Int) (env : Env)
  | updateRecentHash (i : Int) (time : Nat)
  | updateCheckPointStatus (i : Int) (env : Env)
  | updateStableCheckPointStatus (i : Int) (env : Env)

namespace Network

variable (net : Network)

def setReplica (i : Int) (r : Replica) (sent : List Outgoing) (handed : List Request) : Network where
  replica := Function.update net.replica i r
  sent := net.sent ++ sent.filterMap Outgoing.request?
  handed := Function.update net.handed i (net.handed i ++ handed)

end Network

def RequestType.inView : RequestType → Bool
  | .newTxns | .prePrepare | .prepare | .commit | .checkpoint => true
  | _ => false

/-- A message is delivered as its sender has sent it. -/
def Cluster.Deliverable (cluster : Cluster) (net : Network) (request : Request) : Prop :=
  request.type.inView = true ∧ request.isRecovery = false ∧
    (request.type = .newTxns ∨ request.senderId ∈ cluster.byzantine ∨ request ∈ net.sent)

instance (cluster : Cluster) (net : Network) (request : Request) :
    Decidable (cluster.Deliverable net request) :=
  inferInstanceAs (Decidable (_ ∧ _ ∧ _))

def Cluster.react (r : Replica) : NetworkEvent → Except Fault (Option (Replica × List Outgoing × List Request))
  | .deliver _ env context request => do
    let outcome ← r.internalConsensusCommit env context request
    .ok (some (outcome.replica, outcome.sent, outcome.committed))
  | .takeMessage _ => .ok (some (r.takeMessage, [], []))
  | .passNext _ => .ok (r.passNext.map fun next => (next, [], []))
  | .executeMessage _ env => .ok (some ((r.executeMessage env).1, (r.executeMessage env).2, []))
  | .updateRecentHash _ time => .ok (some (r.updateRecentHash time, [], []))
  | .updateCheckPointStatus _ env =>
    .ok (some ((r.updateCheckPointStatus env).1, (r.updateCheckPointStatus env).2, []))
  | .updateStableCheckPointStatus _ env => .ok (some ((r.updateStableCheckPointStatus env).1, [], []))

def NetworkEvent.replicaId : NetworkEvent → Int
  | .deliver i _ _ _ | .takeMessage i | .passNext i | .executeMessage i _ | .updateRecentHash i _
  | .updateCheckPointStatus i _ | .updateStableCheckPointStatus i _ => i

def Cluster.Allowed (cluster : Cluster) (net : Network) : NetworkEvent → Prop
  | .deliver _ _ _ request => cluster.Deliverable net request
  | _ => True

instance (cluster : Cluster) (net : Network) (event : NetworkEvent) :
    Decidable (cluster.Allowed net event) :=
  match event with
  | .deliver _ _ _ request => inferInstanceAs (Decidable (cluster.Deliverable net request))
  | .takeMessage _ | .passNext _ | .executeMessage _ _ | .updateRecentHash _ _
  | .updateCheckPointStatus _ _ | .updateStableCheckPointStatus _ _ => inferInstanceAs (Decidable True)

def Cluster.Fresh (cluster : Cluster) (i : Int) (r : Replica) : Prop :=
  ∃ primary outOfOrder needResponse needQc,
    r = { Replica.create (cluster.configOf i) with
      systemInfo := { primaryId := primary, view := cluster.view }
      transactionExecutor := { outOfOrder := outOfOrder, needResponse := needResponse }
      needQc := needQc }

def network (cluster : Cluster) : System Network NetworkEvent where
  initial net := (∀ i, cluster.honest i → cluster.Fresh i (net.replica i)) ∧ net.sent = [] ∧
    net.handed = fun _ => []
  step net event net' := cluster.honest event.replicaId ∧ cluster.Allowed net event ∧
    ∃ r sent handed,
      Cluster.react (net.replica event.replicaId) event = .ok (some (r, sent, handed)) ∧
      net' = net.setReplica event.replicaId r sent handed

def Server.sends (s : Server) : ServerEvent → List Outgoing
  | .process envs buff =>
    match s.replica.process envs buff with
    | .ok (progress, _) => progress.calls.flatMap fun call => call.outcome.sent
    | .error _ => []
  | .executeMessage env => (s.replica.executeMessage env).2
  | .updateCheckPointStatus env => (s.replica.updateCheckPointStatus env).2
  | .monitorTimeout env =>
    match s.replica.monitorTimeout env with
    | .ok (_, sent) => sent
    | .error _ => []
  | _ => []

structure Deployment where
  server : Int → Server
  sent : Int → List Request := fun _ => []

def Deployment.setServer (d : Deployment) (i : Int) (s : Server) (sent : List Outgoing) : Deployment where
  server := Function.update d.server i s
  sent := Function.update d.sent i (d.sent i ++ sent.filterMap Outgoing.request?)

def deployment (cluster : Cluster) : System Deployment (Int × ServerEvent) where
  initial d := (∀ i, cluster.honest i → (server (cluster.configOf i)).initial (d.server i)) ∧ d.sent = fun _ => []
  step d event d' := cluster.honest event.1 ∧ ∃ s, (d.server event.1).react event.2 = .ok (some s) ∧
    d' = d.setServer event.1 s ((d.server event.1).sends event.2)

def deploymentAct (cluster : Cluster) (d : Deployment) (event : Int × ServerEvent) : Option Deployment :=
  if cluster.honest event.1 then
    (serverAct (d.server event.1) event.2).map fun s => d.setServer event.1 s ((d.server event.1).sends event.2)
  else none

end ResilientDB.Model
