import ResilientDB.Proof.Certificates

namespace ResilientDB.Proof
open Model Library

variable {cluster : Cluster} {net net' : Network} {trace : List (Transition Network NetworkEvent)}

def deliveryAt (r : Replica) (context : Context) (request : Request) : Delivery where
  currentView := r.getCurrentView
  maxPendingExecutedSeq := r.transactionExecutor.getMaxPendingExecutedSeq
  signature := context.signature
  request := request

-- The main request stored where a COMMIT completes the quorum is the one voted for.
def HandsVoted (net : Network) : NetworkEvent → Prop
  | .deliver i _ context request =>
    context.signature.signature ≠ "" →
    CompletesCommit (net.replica i).config ((net.replica i).collectorPool.getCollector request.seq)
      (deliveryAt (net.replica i) context request) →
    mainHash ((net.replica i).collectorPool.getCollector request.seq) = none ∨
      mainHash ((net.replica i).collectorPool.getCollector request.seq) = some request.hash
  | _ => True

-- The collector that is renewed has not accepted a proposal.
def RenewsFresh (net : Network) : NetworkEvent → Prop
  | .passNext i =>
    ((net.replica i).collectorPool.getCollector (renewedSeq (net.replica i))).seq = renewedSeq (net.replica i) →
    ((net.replica i).collectorPool.getCollector (renewedSeq (net.replica i))).status = .none
  | _ => True

instance (net : Network) (event : NetworkEvent) : Decidable (HandsVoted net event) :=
  match event with
  | .deliver _ _ _ _ => inferInstanceAs (Decidable (_ → _ → _ ∨ _))
  | .takeMessage _ | .passNext _ | .executeMessage _ _ | .updateRecentHash _ _
  | .updateCheckPointStatus _ _ | .updateStableCheckPointStatus _ _ => inferInstanceAs (Decidable True)

instance (net : Network) (event : NetworkEvent) : Decidable (RenewsFresh net event) :=
  match event with
  | .passNext _ => inferInstanceAs (Decidable (_ → _))
  | .deliver _ _ _ _ | .takeMessage _ | .executeMessage _ _ | .updateRecentHash _ _
  | .updateCheckPointStatus _ _ | .updateStableCheckPointStatus _ _ => inferInstanceAs (Decidable True)

theorem RenewsFresh.renewsUnused {t : Transition Network NetworkEvent} (fresh : RenewsFresh t.before t.event)
    (slots : Nat → Prop) : RenewsUnused slots t := by
  intro i event _ here
  rw [event] at fresh
  exact fresh here

def HoldsOwn (c : TransactionCollector) : Prop :=
  ∀ info, c.mainRequest = .stored info ∨ info ∈ c.otherMainRequest → info.request.seq = c.seq

theorem HoldsOwn.added {config : ResDBConfig} {c : TransactionCollector} {request : Request}
    {signature : SignatureInfo} {result : AddResult} (own : HoldsOwn c)
    (added : Added config c request signature result) : HoldsOwn result.collector := by
  unfold HoldsOwn
  rw [added.seq]
  exact added.held own fun _ isOpen => isOpen.2.2.symm

structure Agreeing (cluster : Cluster) (net : Network) : Prop where
  faithful : Faithful cluster (fun _ => True) net
  own : ∀ i, cluster.honest i → ∀ s, HoldsOwn ((net.replica i).collectorPool.getCollector s)
  handed : ∀ i, cluster.honest i → ∀ r ∈ net.handed i,
    (ballots cluster (fun _ => True) net).CommitCertificate (quorums cluster) r.seq r.hash

theorem handed_certificate {i : Int} {env : Env} {context : Context} {request : Request} {result : AddResult}
    {r : Request} (agreeing : Agreeing cluster net) (honest : cluster.honest i)
    (deliverable : cluster.Deliverable net request) (signed : context.signature.signature ≠ "")
    (valid : isValidMsg (net.replica i).getCurrentView
      (net.replica i).transactionExecutor.getMaxPendingExecutedSeq request = true)
    (added : Added (net.replica i).config ((net.replica i).collectorPool.getCollector request.seq) request
      context.signature result)
    (voted : HandsVoted net (.deliver i env context request)) (handed : result.committed = some r) :
    (ballots cluster (fun _ => True) net).CommitCertificate (quorums cluster) r.seq r.hash := by
  have live := agreeing.faithful.live i honest
  have sourced := (agreeing.faithful.sourced i honest request.seq).added agreeing.faithful.senders deliverable added
  have own := agreeing.own i honest request.seq
  simp only [HandsVoted] at voted
  generalize (net.replica i).collectorPool.getCollector request.seq = c at added voted own
  obtain ⟨isOpen, executed⟩ := added.executed_of_handed handed
  have votes := executed.quorum
  rw [executed.type, setSender_senders] at votes
  have completes : CompletesCommit (net.replica i).config c (deliveryAt (net.replica i) context request) :=
    ⟨valid, isOpen, executed.type, executed.before, votes⟩
  obtain ⟨info, stored, rfl⟩ := added.handed_stored handed
  have hash : info.request.hash = request.hash := by
    rcases voted signed completes with none | main
    · simp [mainHash, stored] at none
    · simpa [mainHash, stored] using main
  have quorum := executed.quorum
  rw [← executed.senders, live.config] at quorum
  have certificate := quorum_of_card (fun _ => True) trivial sourced (.inr rfl) quorum
  rw [added.seq, ← own info (.inl stored), ← hash] at certificate
  exact certificate

theorem agreeing_step {event : NetworkEvent} (agreeing : Agreeing cluster net)
    (step : (network cluster).step net event net') (voted : HandsVoted net event)
    (fresh : RenewsFresh net event) : Agreeing cluster net' := by
  have faithful := (network_step agreeing.faithful step (RenewsFresh.renewsUnused (t := ⟨net, event, net'⟩) fresh _)).1
  have grows := sent_grows step
  obtain ⟨honest, allowed, r', sent, handed, effect, rfl⟩ := step_effect agreeing.faithful.live step
  have live := agreeing.faithful.live event.replicaId honest
  obtain ⟨done, next, ring⟩ := live.ring
  have collectors : ∀ s, HoldsOwn (r'.collectorPool.getCollector s) := by
    intro s
    have own := agreeing.own event.replicaId honest
    cases effect with
    | quiet control pool noVote =>
      rw [pool]
      exact own s
    | added control _ valid added pool votes =>
      rw [pool, getCollector_setCollector ring.power]
      split_ifs
      · exact (own _).added added
      · exact own s
    | passed config systemInfo pool _ =>
      rw [next] at pool
      rw [pool, getCollector_update ring]
      split_ifs
      · rintro info (stored | other)
        · cases stored
        · cases other
      · exact own s
  have certificates : ∀ r ∈ handed,
      (ballots cluster (fun _ => True) net).CommitCertificate (quorums cluster) r.seq r.hash := by
    intro r member
    cases effect with
    | quiet => cases member
    | added _ signed valid added _ _ =>
      rw [Option.mem_toList] at member
      exact handed_certificate agreeing honest allowed signed valid added voted member
    | passed => cases member
  constructor
  · exact faithful
  · intro j honestJ s
    rw [setReplica_replica]
    split_ifs
    · exact collectors s
    · exact agreeing.own j honestJ s
  · intro j honestJ r member
    have before : (ballots cluster (fun _ => True) net).CommitCertificate (quorums cluster) r.seq r.hash := by
      by_cases same : j = event.replicaId
      · rw [same] at member
        simp only [Network.setReplica, Function.update_self, List.mem_append] at member
        rcases member with old | new
        · exact agreeing.handed _ honest r old
        · exact certificates r new
      · simp only [Network.setReplica, Function.update_of_ne same] at member
        exact agreeing.handed j honestJ r member
    have kept : tally cluster (fun _ => True) net .commit ⊆ tally cluster (fun _ => True) _ .commit :=
      tally_grows grows .commit
    exact before.mono kept

theorem initial_agreeing (first : (network cluster).initial net) : Agreeing cluster net := by
  constructor
  · exact (initial_faithful first).1
  · intro i honest s info held
    obtain ⟨primary, outOfOrder, needResponse, needQc, same⟩ := first.1 i honest
    rw [same] at held
    simp [LockFreeCollectorPool.getCollector, Replica.create, LockFreeCollectorPool.create] at held
  · intro i honest r member
    rw [first.2.2] at member
    cases member

theorem view_agreement (run : (network cluster).Run trace net)
    (careful : ∀ t ∈ trace, HandsVoted t.before t.event ∧ RenewsFresh t.before t.event) {i j : Int}
    (honestI : cluster.honest i) (honestJ : cluster.honest j) {r r' : Request} (handed : r ∈ net.handed i)
    (handed' : r' ∈ net.handed j) (same : r.seq = r'.seq) : r.hash = r'.hash := by
  have agreeing : Agreeing cluster net := by
    refine run.invariant (fun t => HandsVoted t.before t.event ∧ RenewsFresh t.before t.event)
      (Agreeing cluster) ?_ ?_ careful
    · intro s first
      exact initial_agreeing first
    · intro s e s' agreeing step allowed
      exact agreeing_step agreeing step allowed.1 allowed.2
  have reachable := (network_simulation _ run fun t member =>
    (careful t member).2.renewsUnused fun _ => True).2
  have consistent := voting_consistent reachable
  have first := consistent.prepareCertificate_of_commit (agreeing.handed i honestI r handed)
  have second := consistent.prepareCertificate_of_commit (agreeing.handed j honestJ r' handed')
  rw [← same] at second
  exact consistent.prepareCertificate_unique first second

theorem splitProposal_disagreement : ∃ trace net, (network fourCluster).Run trace net ∧
    fourCluster.honest 2 ∧ fourCluster.honest 4 ∧
    ∃ r ∈ net.handed 2, ∃ r' ∈ net.handed 4, r.seq = r'.seq ∧ r.hash ≠ r'.hash := by
  obtain ⟨trace, net, run, differ⟩ := System.run_of_play (networkAct_sound fourCluster)
    (startNetwork_initial fourCluster 1) splitProposal
    (fun _ net => ∃ r ∈ net.handed 2, ∃ r' ∈ net.handed 4, r.seq = r'.seq ∧ r.hash ≠ r'.hash) (by decide)
  exact ⟨trace, net, run, by decide, by decide, differ⟩

def oneProposal : List NetworkEvent :=
  [deliver 2 .prePrepare "a" 1, deliver 3 .prePrepare "a" 1, deliver 4 .prePrepare "a" 1] ++
  deliverAll 2 .prepare "a" [1, 2, 3] ++ deliverAll 3 .prepare "a" [1, 2, 3] ++
  deliverAll 4 .prepare "a" [1, 2, 3] ++ deliverAll 2 .commit "a" [2, 3, 4] ++
  deliverAll 4 .commit "a" [2, 3, 4] ++ [.takeMessage 2, .passNext 2]

theorem oneProposal_agreement : ∃ trace net, (network fourCluster).Run trace net ∧
    net.handed 2 ≠ [] ∧ net.handed 4 ≠ [] ∧
    ∀ r ∈ net.handed 2, ∀ r' ∈ net.handed 4, r.seq = r'.seq → r.hash = r'.hash := by
  obtain ⟨trace, net, run, some, some', careful⟩ := System.run_of_play (networkAct_sound fourCluster)
    (startNetwork_initial fourCluster 1) oneProposal
    (fun trace net => net.handed 2 ≠ [] ∧ net.handed 4 ≠ [] ∧
      ∀ t ∈ trace, HandsVoted t.before t.event ∧ RenewsFresh t.before t.event) (by decide)
  refine ⟨trace, net, run, some, some', fun r member r' member' same => ?_⟩
  exact view_agreement run careful (by decide) (by decide) member member' same

end ResilientDB.Proof
