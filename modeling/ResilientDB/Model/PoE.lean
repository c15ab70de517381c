import ResilientDB.Model.Network

namespace ResilientDB.Model
open Library

structure PoeTransaction where
  data : String := ""
  hash : String := ""
  proxyId : Int := 0
  proposer : Int := 0
  seq : Int := 0
deriving DecidableEq, Repr

structure PoeProposal where
  hash : String := ""
  proposer : Int := 0
  seq : Int := 0
deriving DecidableEq, Repr

inductive PoeMessage
  | propose (txn : PoeTransaction)
  | prepare (proposal : PoeProposal)
deriving DecidableEq, Repr

structure PoE where
  id : Int
  f : Nat
  received : String → Finset Int := fun _ => ∅
  data : String → Option PoeTransaction := fun _ => none
  seq : Int := 0

namespace PoE

variable (p : PoE)

def receiveTransaction (txn : PoeTransaction) : PoeTransaction × PoE :=
  ({ txn with seq := p.seq, proposer := p.id }, { p with seq := p.seq + 1 })

def receivePropose (txn : PoeTransaction) : PoeProposal × PoE :=
  ({ hash := txn.hash, seq := txn.seq, proposer := p.id },
    { p with data := Function.update p.data txn.hash (some txn) })

def receivePrepare (proposal : PoeProposal) : Option PoeTransaction × PoE :=
  let votes := insert proposal.proposer (p.received proposal.hash)
  let counted := { p with received := Function.update p.received proposal.hash votes }
  match p.data proposal.hash with
  | none => (none, counted)
  | some txn =>
    if 2 * p.f + 1 ≤ votes.card then
      (some txn, { counted with data := Function.update p.data proposal.hash none })
    else (none, counted)

end PoE

structure PoeReplica where
  poe : PoE
  threads : ExecutorThreads
  proposed : List PoeTransaction := []
  prepared : List PoeProposal := []
  processed : List PoeTransaction := []
  committed : List PoeTransaction := []

def PoeTransaction.request (txn : PoeTransaction) : Request :=
  { data := txn.data, seq := toUInt64 txn.seq, proxyId := txn.proxyId }

namespace PoeReplica

variable (s : PoeReplica)

def create (id : Int) (f : Nat) (outOfOrder : Bool) : PoeReplica :=
  { poe := { id := id, f := f }, threads := { executor := { outOfOrder := outOfOrder } } }

def processNewTransaction (request : Request) : PoeReplica :=
  let (txn, poe) := s.poe.receiveTransaction
    { data := request.data, hash := request.hash, proxyId := toInt32 request.proxyId }
  { s with poe := poe, proposed := s.proposed ++ [txn] }

def commitMsgInternal (txn : PoeTransaction) : PoeReplica :=
  { s with threads := s.threads.commit txn.request, committed := s.committed ++ [txn] }

def processPropose (txn : PoeTransaction) : PoeReplica :=
  let (proposal, poe) := s.poe.receivePropose txn
  { s with poe := poe, prepared := s.prepared ++ [proposal], processed := s.processed ++ [txn] }

def processPrepare (proposal : PoeProposal) : PoeReplica :=
  match s.poe.receivePrepare proposal with
  | (none, poe) => { s with poe := poe }
  | (some txn, poe) => { s with poe := poe }.commitMsgInternal txn

def processCustomConsensus : PoeMessage → PoeReplica
  | .propose txn => s.processPropose txn
  | .prepare proposal => s.processPrepare proposal

end PoeReplica

structure PoeNetwork where
  replica : Int → PoeReplica

inductive PoeEvent
  | processNewTransaction (i : Int) (request : Request)
  | deliver (i : Int) (message : PoeMessage)
  | execute (i : Int) (event : ExecutorEvent)
deriving DecidableEq, Repr

namespace PoeNetwork

variable (cluster : Cluster) (net : PoeNetwork)

def authentic : PoeMessage → Prop
  | .propose txn => cluster.honest txn.proposer → txn ∈ (net.replica txn.proposer).proposed
  | .prepare proposal => cluster.honest proposal.proposer → proposal ∈ (net.replica proposal.proposer).prepared

instance (message : PoeMessage) : Decidable (net.authentic cluster message) :=
  match message with
  | .propose _ => inferInstanceAs (Decidable (_ → _))
  | .prepare _ => inferInstanceAs (Decidable (_ → _))

def setReplica (i : Int) (s : PoeReplica) : PoeNetwork := { net with replica := Function.update net.replica i s }

def act : PoeEvent → Option PoeNetwork
  | .processNewTransaction i request =>
    if cluster.honest i then some (net.setReplica i ((net.replica i).processNewTransaction request)) else none
  | .deliver i message =>
    if cluster.honest i ∧ net.authentic cluster message then
      some (net.setReplica i ((net.replica i).processCustomConsensus message))
    else none
  | .execute _ (.commit _) => none
  | .execute i event =>
    if cluster.honest i then
      ((net.replica i).threads.act event).map fun threads =>
        net.setReplica i { net.replica i with threads := threads }
    else none

end PoeNetwork

def poeNetwork (cluster : Cluster) (outOfOrder : Bool) : System PoeNetwork PoeEvent where
  initial net := net = ⟨fun i => .create i cluster.config.getMaxMaliciousReplicaNum outOfOrder⟩
  step net event net' := net.act cluster event = some net'

end ResilientDB.Model
