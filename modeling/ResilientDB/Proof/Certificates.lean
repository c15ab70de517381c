import ResilientDB.Library.Quorum
import ResilientDB.Proof.Reaction

namespace ResilientDB.Proof
open Model Library List

variable {cluster : Cluster} {slots : Nat → Prop} {net net' : Network} {r r' : Replica} {config : ResDBConfig}
  {c : TransactionCollector} {signature : SignatureInfo} {seq : Nat} {hash : String} {i j : Int} {event : NetworkEvent}
  {t : Transition Network NetworkEvent} {request message : Request} {changed : Bool} {type : RequestType}
  {result : AddResult} {sent : List Outgoing} {handed : List Request} {context : Context}

theorem ids_card (cluster : Cluster) : cluster.ids.card = cluster.config.getReplicaNum := by
  unfold Cluster.ids
  rw [toFinset_card_of_nodup cluster.distinct, length_map]
  rfl

theorem byzantine_ids (member : i ∈ cluster.byzantine) : i ∈ cluster.ids := mem_toFinset.mpr (cluster.members i member)

theorem honest_fits (honest : cluster.honest i) : toInt32 i = i := by
  obtain ⟨replica, member, same⟩ := mem_map.mp (mem_toFinset.mp honest.1)
  have fits := cluster.fits replica member
  rwa [same] at fits

def quorums (cluster : Cluster) : QuorumSystem Int where
  honest := cluster.honest
  quorum q := q ⊆ cluster.ids ∧ cluster.config.getMinDataReceiveNum ≤ q.card
  common := by
    rintro q q' ⟨inside, large⟩ ⟨inside', large'⟩
    have size := cluster.size
    have bound := cluster.bound
    have threshold := cluster.config.getMinDataReceiveNum_eq
    have members := ids_card cluster
    obtain ⟨i, member, member', honest⟩ := exists_common_outside cluster.byzantine inside inside'
      large large' (by omega)
    exact ⟨i, member, member', inside member, honest⟩

def SentVote (net : Network) (type : RequestType) (seq : Nat) (hash : String) (i : Int) : Prop :=
  ∃ message ∈ net.sent, message.type = type ∧ message.seq = seq ∧ message.hash = hash ∧ message.senderId = i

def tally (cluster : Cluster) (slots : Nat → Prop) (net : Network) (type : RequestType) : Set (Int × Nat × String) :=
  { v | cluster.honest v.1 ∧ slots v.2.1 ∧ SentVote net type v.2.1 v.2.2 v.1 }

def ballots (cluster : Cluster) (slots : Nat → Prop) (net : Network) : Ballots Int Nat String where
  prepared := tally cluster slots net .prepare
  committed := tally cluster slots net .commit

structure Live (cluster : Cluster) (i : Int) (r : Replica) : Prop where
  config : r.config = cluster.configOf i
  view : r.getCurrentView = cluster.view
  capacity : r.collectorPool.capacity = getCapacity (cluster.config.maxProcessTxn * 2)
  ring : ∃ done, r.transactionExecutor.nextExecuteSeq = done + 1 ∧ Ring r.collectorPool done
  running : ∀ s, (r.collectorPool.getCollector s).status ≠ .readyExecute
  views : ∀ s, (r.collectorPool.getCollector s).view = 0 ∨ (r.collectorPool.getCollector s).view = cluster.view

def Sourced (cluster : Cluster) (net : Network) (c : TransactionCollector) : Prop :=
  ∀ type hash i, type = .prepare ∨ type = .commit → i ∈ c.senders type hash →
    i ∈ cluster.ids ∧ (i ∉ cluster.byzantine → SentVote net type c.seq hash i)

def Spent (r : Replica) (seq : Nat) : Prop :=
  ((r.collectorPool.getCollector seq).seq = seq ∧ (r.collectorPool.getCollector seq).status ≠ .none) ∨
    seq < (r.collectorPool.getCollector seq).seq

structure Faithful (cluster : Cluster) (slots : Nat → Prop) (net : Network) : Prop where
  live : ∀ i, cluster.honest i → Live cluster i (net.replica i)
  senders : ∀ message ∈ net.sent, IsVote message → cluster.honest message.senderId
  sourced : ∀ i, cluster.honest i → ∀ s, Sourced cluster net ((net.replica i).collectorPool.getCollector s)
  spent : ∀ i, cluster.honest i → ∀ seq hash, slots seq → SentVote net .prepare seq hash i → Spent (net.replica i) seq

def renewedSeq (r : Replica) : Nat := r.transactionExecutor.nextExecuteSeq + r.collectorPool.capacity

def RenewsUnused (slots : Nat → Prop) (t : Transition Network NetworkEvent) : Prop :=
  ∀ i, t.event = .passNext i → slots (renewedSeq (t.before.replica i)) →
    ((t.before.replica i).collectorPool.getCollector (renewedSeq (t.before.replica i))).seq =
      renewedSeq (t.before.replica i) →
    ((t.before.replica i).collectorPool.getCollector (renewedSeq (t.before.replica i))).status = .none

theorem isValidMsg_view {view executed : Nat}
    (valid : isValidMsg view executed request = true) (type : request.type ≠ .response) :
    request.currentView = view := by
  unfold isValidMsg at valid
  rw [if_neg type] at valid
  by_contra other
  rw [if_pos other] at valid
  cases valid

theorem Live.carry (live : Live cluster i r) (config : r'.config = r.config)
    (systemInfo : r'.systemInfo = r.systemInfo) (capacity : r'.collectorPool.capacity = r.collectorPool.capacity)
    (ring : ∃ done, r'.transactionExecutor.nextExecuteSeq = done + 1 ∧ Ring r'.collectorPool done)
    (collectors : ∀ s, (r'.collectorPool.getCollector s).status ≠ .readyExecute ∧
      ((r'.collectorPool.getCollector s).view = 0 ∨ (r'.collectorPool.getCollector s).view = cluster.view)) :
    Live cluster i r' where
  config := config.trans live.config
  view := by
    unfold Replica.getCurrentView
    rw [systemInfo]
    exact live.view
  capacity := capacity.trans live.capacity
  ring := ring
  running s := (collectors s).1
  views s := (collectors s).2

theorem Live.added (live : Live cluster i r) (control : SameControl r r')
    (valid : isValidMsg r.getCurrentView r.transactionExecutor.getMaxPendingExecutedSeq request = true)
    (added : Added r.config (r.collectorPool.getCollector request.seq) request signature result)
    (pool : r'.collectorPool = r.collectorPool.setCollector request.seq result.collector) :
    Live cluster i r' := by
  obtain ⟨done, next, ring⟩ := live.ring
  refine live.carry control.config control.systemInfo (by rw [pool]; rfl) ?_ fun s => ?_
  · refine ⟨done, control.nextExecuteSeq.trans next, ?_⟩
    rw [pool]
    exact ring.setCollector added.seq
  · rw [pool, getCollector_setCollector ring.power request.seq]
    split_ifs
    · refine ⟨added.running (live.running _), ?_⟩
      rcases added.view with old | ⟨type, new⟩
      · rw [old]
        exact live.views request.seq
      · have current := isValidMsg_view valid (by simp [type])
        rw [new, current]
        exact .inr live.view
    · exact ⟨live.running s, live.views s⟩

theorem Live.passed (live : Live cluster i r) (config : r'.config = r.config)
    (systemInfo : r'.systemInfo = r.systemInfo)
    (pool : r'.collectorPool = r.collectorPool.update r.transactionExecutor.nextExecuteSeq)
    (next : r'.transactionExecutor.nextExecuteSeq = r.transactionExecutor.nextExecuteSeq + 1) :
    Live cluster i r' := by
  obtain ⟨done, before, ring⟩ := live.ring
  rw [before] at pool next
  refine live.carry config systemInfo (by rw [pool, update_capacity]) ?_ fun s => ?_
  · refine ⟨done + 1, next, ?_⟩
    rw [pool]
    exact ring.update
  · rw [pool, getCollector_update ring]
    split_ifs
    · exact ⟨by simp, .inl rfl⟩
    · exact ⟨live.running s, live.views s⟩

theorem Live.quiet (live : Live cluster i r) (control : SameControl r r')
    (pool : r'.collectorPool = r.collectorPool) : Live cluster i r' := by
  obtain ⟨done, next, ring⟩ := live.ring
  refine live.carry control.config control.systemInfo (by rw [pool]) ?_ fun s => ?_
  · exact ⟨done, control.nextExecuteSeq.trans next, pool ▸ ring⟩
  · rw [pool]
    exact ⟨live.running s, live.views s⟩

theorem Live.self (live : Live cluster i r) (honest : cluster.honest i) : toInt32 r.config.selfId = i := by
  rw [live.config]
  exact honest_fits honest

theorem Spent.added (spent : Spent r seq) (power : ∃ exponent, r.collectorPool.capacity = 2 ^ exponent)
    (added : Added r.config (r.collectorPool.getCollector request.seq) request signature result)
    (pool : r'.collectorPool = r.collectorPool.setCollector request.seq result.collector) :
    Spent r' seq := by
  unfold Spent at spent ⊢
  rw [pool, getCollector_setCollector power]
  split_ifs with slot
  · -- both sequence numbers have the same collector
    have same : r.collectorPool.getCollector seq = r.collectorPool.getCollector request.seq := by
      unfold LockFreeCollectorPool.getCollector
      rw [mask_eq_mod power, mask_eq_mod power, slot]
    rw [same] at spent
    rw [added.seq]
    rcases spent with ⟨here, started⟩ | past
    · exact .inl ⟨here, added.started started⟩
    · exact .inr past
  · exact spent

theorem Spent.passed {seq done : Nat} (spent : Spent r seq) (ring : Ring r.collectorPool done)
    (unused : seq = done + 1 + r.collectorPool.capacity → (r.collectorPool.getCollector seq).seq = seq →
      (r.collectorPool.getCollector seq).status = .none)
    (pool : r'.collectorPool = r.collectorPool.update (done + 1)) : Spent r' seq := by
  unfold Spent at spent ⊢
  rw [pool, getCollector_update ring]
  split_ifs with slot
  · right
    dsimp only
    have bound := ring.renewed_seq slot
    rcases spent with ⟨here, started⟩ | past
    · have different : seq ≠ done + 1 + r.collectorPool.capacity := fun same => started (unused same here)
      omega
    · omega
  · exact spent

theorem Added.proposes (added : Added config c request signature result)
    (type : request.type = .prePrepare) (changed : result.changed = true) :
    c.seq = request.seq ∧ (c.status = .none ∨ c.view ≠ 0 ∧ c.view < request.currentView) ∧
      result.collector.status ≠ .none ∧ result.collector.view = request.currentView := by
  cases added with
  | proposed force isOpen _ forced =>
    refine ⟨isOpen.2.2, ?_, ?_, rfl⟩
    · cases force with
      | false => exact .inl (by simpa using changed)
      | true => exact .inr ⟨(forced rfl).1, (forced rfl).2.1⟩
    · dsimp only
      split_ifs with first
      · simp
      · exact first
  | prepared _ prepared => cases type.symm.trans prepared.type
  | executed _ executed => cases type.symm.trans executed.type
  | _ => cases changed

theorem proposed_of_changed (added : Added config c request signature result)
    (type : request.type = .prePrepare) (changed : result.changed = true)
    (view : c.view = 0 ∨ c.view = request.currentView) :
    c.seq = request.seq ∧ c.status = .none ∧ result.collector.status ≠ .none := by
  obtain ⟨own, fresh | ⟨started, older⟩, proposed, -⟩ := added.proposes type changed
  · exact ⟨own, fresh, proposed⟩
  · omega

theorem SentVote.mono (sent : SentVote net type seq hash i) (grows : net.sent ⊆ net'.sent) :
    SentVote net' type seq hash i := by
  obtain ⟨message, member, vote⟩ := sent
  exact ⟨message, grows member, vote⟩

theorem Sourced.mono (sourced : Sourced cluster net c) (grows : net.sent ⊆ net'.sent) : Sourced cluster net' c := by
  intro type hash i isVote member
  obtain ⟨inside, sent⟩ := sourced type hash i isVote member
  exact ⟨inside, fun honest => (sent honest).mono grows⟩

theorem Sourced.added (sourced : Sourced cluster net c)
    (senders : ∀ message ∈ net.sent, IsVote message → cluster.honest message.senderId)
    (deliverable : cluster.Deliverable net request)
    (added : Added config c request signature result) : Sourced cluster net result.collector := by
  intro type hash i isVote member
  rw [added.seq]
  rcases added.senders member with old | ⟨rfl, rfl, rfl, -, -, seq⟩
  · exact sourced type hash i isVote old
  · have notClient : request.type ≠ .newTxns := by
      rcases isVote with prepare | commit
      · simp [prepare]
      · simp [commit]
    rcases deliverable.2.2 with client | byzantine | sent
    · exact absurd client notClient
    · exact ⟨byzantine_ids byzantine, fun honest => absurd byzantine honest⟩
    · refine ⟨(senders request sent isVote).1, fun _ => ?_⟩
      exact ⟨request, sent, rfl, seq.symm, rfl, rfl⟩

theorem mem_setReplica_sent : message ∈ (net.setReplica i r sent handed).sent ↔
      message ∈ net.sent ∨ message ∈ sent.filterMap Outgoing.request? := by
  simp [Network.setReplica]

theorem setReplica_sent_grows (net : Network) (i : Int) (r : Replica) (sent : List Outgoing)
    (handed : List Request) : net.sent ⊆ (net.setReplica i r sent handed).sent :=
  fun _ member => mem_setReplica_sent.mpr (.inl member)

theorem setReplica_replica (net : Network) (i j : Int) (r : Replica) (sent : List Outgoing) (handed : List Request) :
    (net.setReplica i r sent handed).replica j = if j = i then r else net.replica j :=
  Function.update_apply _ _ _ _

theorem sentVote_setReplica : SentVote (net.setReplica i r sent handed) type seq hash j ↔
    SentVote net type seq hash j ∨ ∃ message ∈ sent.filterMap Outgoing.request?,
      message.type = type ∧ message.seq = seq ∧ message.hash = hash ∧ message.senderId = j := by
  simp only [SentVote, mem_setReplica_sent, or_and_right, exists_or]

theorem prepare_old (noVote : ∀ message ∈ sent.filterMap Outgoing.request?, ¬ IsVote message)
    (vote : SentVote (net.setReplica i r sent handed) .prepare seq hash j) : SentVote net .prepare seq hash j :=
  (sentVote_setReplica.mp vote).resolve_right fun ⟨message, new, type, _⟩ => noVote message new (.inl type)

theorem tally_same (none : ∀ message ∈ sent.filterMap Outgoing.request?, message.type = type → ¬ slots message.seq) :
    tally cluster slots (net.setReplica i r sent handed) type = tally cluster slots net type := by
  ext ⟨j, seq, hash⟩
  refine and_congr_right fun _ => and_congr_right fun slot => ?_
  rw [sentVote_setReplica, or_iff_left]
  rintro ⟨message, new, same, rfl, -⟩
  exact none message new same slot

theorem ballots_of_noVote (noVote : ∀ message ∈ sent.filterMap Outgoing.request?, ¬ IsVote message) :
    ballots cluster slots (net.setReplica i r sent handed) = ballots cluster slots net :=
  Ballots.ext (tally_same fun message new prepare => absurd (.inl prepare) (noVote message new))
    (tally_same fun message new commit => absurd (.inr commit) (noVote message new))

theorem Faithful.setReplica (faithful : Faithful cluster slots net) (honest : cluster.honest i)
    (live : Live cluster i r)
    (own : ∀ message ∈ sent.filterMap Outgoing.request?, IsVote message → message.senderId = i)
    (sourced : ∀ s, Sourced cluster net (r.collectorPool.getCollector s))
    (spent : ∀ seq hash, slots seq → SentVote (net.setReplica i r sent handed) .prepare seq hash i →
      Spent r seq) : Faithful cluster slots (net.setReplica i r sent handed) := by
  have grows := setReplica_sent_grows net i r sent handed
  constructor
  · intro j honestJ
    rw [setReplica_replica]
    split_ifs with same
    · rw [same]
      exact live
    · exact faithful.live j honestJ
  · intro message member isVote
    rcases mem_setReplica_sent.mp member with old | new
    · exact faithful.senders message old isVote
    · rw [own message new isVote]
      exact honest
  · intro j honestJ s
    rw [setReplica_replica]
    split_ifs with same
    · exact (sourced s).mono grows
    · exact (faithful.sourced j honestJ s).mono grows
  · intro j honestJ seq hash slot vote
    rw [setReplica_replica]
    split_ifs with same
    · rw [same] at vote
      exact spent seq hash slot vote
    · obtain ⟨message, member, type, rest⟩ := vote
      rcases mem_setReplica_sent.mp member with old | new
      · exact faithful.spent j honestJ seq hash slot ⟨message, old, type, rest⟩
      · have sender := own message new (.inl type)
        rw [rest.2.2] at sender
        exact absurd sender same

theorem Votes.same {other : Request} (votes : Votes r request changed sent)
    (new : message ∈ sent.filterMap Outgoing.request?) (again : other ∈ sent.filterMap Outgoing.request?) :
    other.type = message.type := by
  rcases (votes message new).2.phase with ⟨proposal, prepare⟩ | ⟨prepare, commit⟩
  · rcases (votes other again).2.phase with ⟨-, type⟩ | ⟨type, -⟩
    · rw [type, prepare]
    · cases proposal.symm.trans type
  · rcases (votes other again).2.phase with ⟨type, -⟩ | ⟨-, type⟩
    · cases prepare.symm.trans type
    · rw [type, commit]

theorem tally_insert (honest : cluster.honest i) (slot : slots request.seq)
    (self : toInt32 r.config.selfId = i) (votes : Votes r request changed sent)
    (new : message ∈ sent.filterMap Outgoing.request?) :
    tally cluster slots (net.setReplica i r' sent handed) message.type =
      insert (i, request.seq, request.hash) (tally cluster slots net message.type) := by
  have vote := (votes message new).2
  ext ⟨j, seq, hash⟩
  rw [Set.mem_insert_iff, Prod.mk.injEq, Prod.mk.injEq]
  constructor
  · rintro ⟨honestJ, slotJ, cast⟩
    rcases sentVote_setReplica.mp cast with old | ⟨other, again, -, rfl, rfl, rfl⟩
    · exact .inr ⟨honestJ, slotJ, old⟩
    · have same := (votes other again).2
      exact .inl ⟨same.sender.trans self, same.seq, same.hash⟩
  · rintro (⟨rfl, rfl, rfl⟩ | ⟨honestJ, slotJ, old⟩)
    · exact ⟨honest, slot, sentVote_setReplica.mpr
        (.inr ⟨message, new, rfl, vote.seq, vote.hash, vote.sender.trans self⟩)⟩
    · exact ⟨honestJ, slotJ, sentVote_setReplica.mpr (.inl old)⟩

theorem quorum_of_card (slots : Nat → Prop) (slot : slots c.seq) (sourced : Sourced cluster net c)
    (isVote : type = .prepare ∨ type = .commit)
    (quorum : cluster.config.getMinDataReceiveNum ≤ (c.senders type hash).card) :
    ∃ q, (quorums cluster).quorum q ∧ ∀ i ∈ q, cluster.honest i → (i, c.seq, hash) ∈ tally cluster slots net type :=
  ⟨_, ⟨fun i member => (sourced type hash i isVote member).1, quorum⟩,
    fun i member honest => ⟨honest, slot, (sourced type hash i isVote member).2 honest.2⟩⟩

theorem added_faithful (faithful : Faithful cluster slots net) (honest : cluster.honest i)
    (deliverable : cluster.Deliverable net request) (control : SameControl (net.replica i) r')
    (valid : isValidMsg (net.replica i).getCurrentView
      (net.replica i).transactionExecutor.getMaxPendingExecutedSeq request = true)
    (added : Added (net.replica i).config ((net.replica i).collectorPool.getCollector request.seq) request
      context.signature result)
    (pool : r'.collectorPool = (net.replica i).collectorPool.setCollector request.seq result.collector)
    (votes : Votes (net.replica i) request result.changed sent) :
    Faithful cluster slots (net.setReplica i r' sent handed) := by
  have live := faithful.live i honest
  obtain ⟨done, next, ring⟩ := live.ring
  have self := live.self honest
  have current := getCollector_setCollector ring.power request.seq (c := result.collector)
  apply faithful.setReplica honest (live.added control valid added pool)
  · intro message member _
    exact (votes message member).2.sender.trans self
  · intro s
    rw [pool, current]
    split_ifs
    · exact (faithful.sourced i honest request.seq).added faithful.senders deliverable added
    · exact faithful.sourced i honest s
  · intro seq hash slot vote
    obtain ⟨message, member, type, sameSeq, rest⟩ := vote
    rcases mem_setReplica_sent.mp member with old | new
    · have spent := faithful.spent i honest seq hash slot ⟨message, old, type, sameSeq, rest⟩
      exact spent.added ring.power added pool
    · obtain ⟨changed, vote⟩ := votes message new
      have proposal : request.type = .prePrepare := by
        rcases vote.phase with ⟨proposal, -⟩ | ⟨-, commit⟩
        · exact proposal
        · rw [type] at commit
          cases commit
      have view : request.currentView = cluster.view := (isValidMsg_view valid (by simp [proposal])).trans live.view
      obtain ⟨here, -, started⟩ := proposed_of_changed added proposal changed (by rw [view]; exact live.views _)
      have sameSlot : seq = request.seq := sameSeq.symm.trans vote.seq
      left
      rw [pool, current, sameSlot, if_pos rfl, added.seq]
      exact ⟨here, started⟩

theorem added_steps (faithful : Faithful cluster slots net) (honest : cluster.honest i)
    (deliverable : cluster.Deliverable net request)
    (valid : isValidMsg (net.replica i).getCurrentView
      (net.replica i).transactionExecutor.getMaxPendingExecutedSeq request = true)
    (added : Added (net.replica i).config ((net.replica i).collectorPool.getCollector request.seq) request
      context.signature result)
    (votes : Votes (net.replica i) request result.changed sent) :
    (voting (quorums cluster)).Steps (ballots cluster slots net)
      (ballots cluster slots (net.setReplica i r' sent handed)) := by
  have live := faithful.live i honest
  have self := live.self honest
  by_cases silent : ∀ message, message ∉ sent.filterMap Outgoing.request?
  · rw [ballots_of_noVote fun message member => absurd member (silent message)]
    exact .refl _
  push Not at silent
  obtain ⟨message, new⟩ := silent
  obtain ⟨changed, vote⟩ := votes message new
  have same {other : Request} (again : other ∈ sent.filterMap Outgoing.request?) := votes.same new again
  by_cases slot : slots request.seq
  · have inserted : tally cluster slots (net.setReplica i r' sent handed) message.type = _ :=
      tally_insert honest slot self votes new
    rcases vote.phase with ⟨proposal, prepare⟩ | ⟨prepare, commit⟩
    · have view : request.currentView = cluster.view := (isValidMsg_view valid (by simp [proposal])).trans live.view
      obtain ⟨here, fresh, -⟩ := proposed_of_changed added proposal changed (by rw [view]; exact live.views _)
      apply System.Steps.single (e := .prepare i request.seq request.hash)
      constructor
      · rintro other ⟨-, -, before⟩
        rcases faithful.spent i honest request.seq other slot before with ⟨-, started⟩ | past
        · exact started fresh
        · omega
      · rw [prepare] at same inserted
        exact Ballots.ext inserted (tally_same fun other again commit => by cases (same again).symm.trans commit)
    · obtain ⟨isOpen, prepared⟩ := prepared_of_changed added prepare changed
      have here := isOpen.2.2
      have sourced := (faithful.sourced i honest request.seq).added faithful.senders deliverable added
      have seq : result.collector.seq = request.seq := added.seq.trans here
      have quorum := prepared.quorum
      rw [live.config] at quorum
      have certificate := quorum_of_card slots (seq ▸ slot) sourced (.inl rfl) quorum
      rw [seq] at certificate
      apply System.Steps.single (e := .commit i request.seq request.hash)
      constructor
      · exact certificate
      · rw [commit] at same inserted
        exact Ballots.ext (tally_same fun other again prepare => by cases (same again).symm.trans prepare) inserted
  · have outside : ∀ other ∈ sent.filterMap Outgoing.request?, ¬ slots other.seq := fun other again =>
      (votes other again).2.seq ▸ slot
    have still : ballots cluster slots (net.setReplica i r' sent handed) = ballots cluster slots net :=
      Ballots.ext (tally_same fun other again _ => outside other again)
        (tally_same fun other again _ => outside other again)
    rw [still]
    exact .refl _

theorem step_effect (live : ∀ i, cluster.honest i → Live cluster i (net.replica i))
    (step : (network cluster).step net event net') :
    cluster.honest event.replicaId ∧ cluster.Allowed net event ∧ ∃ r' sent handed,
      Effect (net.replica event.replicaId) event r' sent handed ∧
      net' = net.setReplica event.replicaId r' sent handed := by
  obtain ⟨honest, allowed, r', sent, handed, reacted, same⟩ := step
  refine ⟨honest, allowed, r', sent, handed, react_effect (live _ honest).running ?_ reacted, same⟩
  rintro i env context request rfl
  exact allowed.1

theorem network_step (faithful : Faithful cluster slots net)
    (step : (network cluster).step net event net') (renews : RenewsUnused slots ⟨net, event, net'⟩) :
    Faithful cluster slots net' ∧
      (voting (quorums cluster)).Steps (ballots cluster slots net) (ballots cluster slots net') := by
  obtain ⟨honest, allowed, r', sent, handed, effect, rfl⟩ := step_effect faithful.live step
  have live := faithful.live event.replicaId honest
  cases effect with
  | quiet control pool noVote =>
    constructor
    · apply faithful.setReplica honest (live.quiet control pool)
      · intro message member isVote
        exact absurd isVote (noVote message member)
      · intro s
        rw [pool]
        exact faithful.sourced _ honest s
      · intro seq hash slot vote
        unfold Spent
        rw [pool]
        exact faithful.spent _ honest seq hash slot (prepare_old noVote vote)
    · rw [ballots_of_noVote noVote]
      exact .refl _
  | added control _ valid outcome pool votes =>
    exact ⟨added_faithful faithful honest allowed control valid outcome pool votes,
      added_steps faithful honest allowed valid outcome votes⟩
  | @passed i _ config systemInfo pool next =>
    have noVote : ∀ message ∈ ([] : List Outgoing).filterMap Outgoing.request?, ¬ IsVote message := by simp
    obtain ⟨done, before, ring⟩ := live.ring
    constructor
    · apply faithful.setReplica honest (live.passed config systemInfo pool next)
      · simp
      · intro s
        rw [before] at pool
        rw [pool, getCollector_update ring]
        split_ifs
        · intro type hash j _ member
          simp at member
        · exact faithful.sourced _ honest s
      · intro seq hash slot vote
        have spent := faithful.spent _ honest seq hash slot (prepare_old noVote vote)
        rw [before] at pool
        refine spent.passed ring ?_ pool
        rintro rfl here
        have renewed : renewedSeq (net.replica i) = done + 1 + (net.replica i).collectorPool.capacity := by
          unfold renewedSeq
          rw [show (net.replica i).transactionExecutor.nextExecuteSeq = done + 1 from before]
        have unused := renews i rfl
        dsimp only at unused
        rw [renewed] at unused
        exact unused slot here
    · rw [ballots_of_noVote noVote]
      exact .refl _

theorem Fresh.live (fresh : cluster.Fresh i r) : Live cluster i r := by
  obtain ⟨primary, outOfOrder, needResponse, needQc, rfl⟩ := fresh
  exact {
    config := rfl
    view := rfl
    capacity := rfl
    ring := ⟨0, rfl, Ring.create _ _⟩
    running := fun s => by simp [LockFreeCollectorPool.getCollector, Replica.create, LockFreeCollectorPool.create]
    views := fun s => .inl rfl }

theorem initial_faithful (first : (network cluster).initial net) :
    Faithful cluster slots net ∧ (voting (quorums cluster)).initial (ballots cluster slots net) := by
  obtain ⟨fresh, silent, -⟩ := first
  have noVote {type : RequestType} {seq : Nat} {hash : String} {i : Int} :
      ¬ SentVote net type seq hash i := by
    rintro ⟨message, member, -⟩
    rw [silent] at member
    cases member
  constructor
  · constructor
    · intro i honest
      exact Fresh.live (fresh i honest)
    · intro message member
      rw [silent] at member
      cases member
    · intro i honest s type hash j _ member
      obtain ⟨primary, outOfOrder, needResponse, needQc, same⟩ := fresh i honest
      rw [same] at member
      simp [LockFreeCollectorPool.getCollector, Replica.create, LockFreeCollectorPool.create] at member
    · intro i honest seq hash _ vote
      exact absurd vote noVote
  · constructor
    · ext v
      simp [ballots, tally, noVote]
    · ext v
      simp [ballots, tally, noVote]

theorem network_simulation (slots : Nat → Prop) {trace : List (Transition Network NetworkEvent)}
    (run : (network cluster).Run trace net) (renews : ∀ t ∈ trace, RenewsUnused slots t) :
    Faithful cluster slots net ∧ (voting (quorums cluster)).Reachable (ballots cluster slots net) := by
  refine run.simulation (ballots cluster slots) (RenewsUnused slots) (Faithful cluster slots) ?_ ?_ renews
  · intro s first
    exact initial_faithful first
  · intro s e s' faithful step allowed
    exact network_step faithful step allowed

variable {trace : List (Transition Network NetworkEvent)}

def Reaches (t : Transition Network NetworkEvent) (i : Int) (type : RequestType) (seq : Nat) (hash : String)
    (status : TransactionStatue) : Prop :=
  ∃ env context request, t.event = .deliver i env context request ∧ request.type = type ∧
    request.seq = seq ∧ request.hash = hash ∧ ¬ status ≤ (t.before.replica i).getTransactionState seq ∧
    status ≤ (t.after.replica i).getTransactionState seq

def Certified (trace : List (Transition Network NetworkEvent)) (i : Int) (seq : Nat) (hash : String) : Prop :=
  ∃ t ∈ trace, Reaches t i .prepare seq hash .readyCommit ∨ Reaches t i .commit seq hash .readyExecute

def KeptByRing (cluster : Cluster) (seq : Nat) : Prop :=
  ¬ (getCapacity (cluster.config.maxProcessTxn * 2) < seq ∧ seq < 2 * getCapacity (cluster.config.maxProcessTxn * 2))

theorem network_live (run : (network cluster).Run trace net) (honest : cluster.honest i) :
    Live cluster i (net.replica i) := by
  have faithful := (network_simulation (fun _ => False) run (fun t _ i _ => False.elim)).1
  exact faithful.live i honest

theorem renewsUnused_keptByRing (run : (network cluster).Run trace net)
    (member : t ∈ trace) : RenewsUnused (KeptByRing cluster) t := by
  obtain ⟨past, -, earlier, honest, -⟩ := run.earlier member
  intro i event kept here
  rw [event] at honest
  have live : Live cluster i (t.before.replica i) := network_live earlier honest
  obtain ⟨done, next, ring⟩ := live.ring
  have renewed : renewedSeq (t.before.replica i) = done + 1 + (t.before.replica i).collectorPool.capacity := by
    unfold renewedSeq
    rw [next]
  rw [renewed] at kept here
  have bounded := ring.bounded (done + 1 + (t.before.replica i).collectorPool.capacity)
  unfold KeptByRing at kept
  rw [← live.capacity] at kept
  omega

theorem executed_of_status (added : Added config c request signature result)
    (type : request.type = .commit) (before : ¬ TransactionStatue.readyExecute ≤ c.status)
    (after : TransactionStatue.readyExecute ≤ result.collector.status) :
    c.seq = request.seq ∧ Executed config c request result.collector result.committed := by
  cases added with
  | proposed _ _ other => cases type.symm.trans other
  | prepared _ prepared => cases type.symm.trans prepared.type
  | executed isOpen executed => exact ⟨isOpen.2.2, executed⟩
  | _ => exact absurd after before

theorem certificate_of_reaches (faithful : Faithful cluster slots net)
    (consistent : Consistent (quorums cluster) (ballots cluster slots net))
    (step : (network cluster).step net event net') (slot : slots seq)
    (reaches : Reaches ⟨net, event, net'⟩ i .prepare seq hash .readyCommit ∨
      Reaches ⟨net, event, net'⟩ i .commit seq hash .readyExecute) :
    (ballots cluster slots net).PrepareCertificate (quorums cluster) seq hash := by
  have delivered : ∃ env context request, event = .deliver i env context request ∧ request.seq = seq ∧
      request.hash = hash ∧ ∃ status, ((request.type = .prepare ∧ status = .readyCommit) ∨
        (request.type = .commit ∧ status = .readyExecute)) ∧
        ¬ status ≤ (net.replica i).getTransactionState seq ∧
        status ≤ (net'.replica i).getTransactionState seq := by
    rcases reaches with ⟨env, context, request, same, type, sameSeq, sameHash, change⟩ |
      ⟨env, context, request, same, type, sameSeq, sameHash, change⟩
    · exact ⟨env, context, request, same, sameSeq, sameHash, .readyCommit, .inl ⟨type, rfl⟩, change⟩
    · exact ⟨env, context, request, same, sameSeq, sameHash, .readyExecute, .inr ⟨type, rfl⟩, change⟩
  obtain ⟨env, context, request, rfl, rfl, rfl, status, phase, before, after⟩ := delivered
  obtain ⟨honest, allowed, r', sent, handed, effect, rfl⟩ := step_effect faithful.live step
  dsimp only [NetworkEvent.replicaId] at honest effect after
  have live := faithful.live i honest
  obtain ⟨done, -, ring⟩ := live.ring
  unfold Replica.getTransactionState at before after
  rw [setReplica_replica, if_pos rfl] at after
  cases effect with
  | quiet control pool noVote =>
    rw [pool] at after
    exact absurd after before
  | added control _ valid added pool votes =>
    have sourced := (faithful.sourced i honest request.seq).added faithful.senders allowed added
    rw [pool, getCollector_setCollector ring.power, if_pos rfl] at after
    rcases phase with ⟨prepare, rfl⟩ | ⟨commit, rfl⟩
    · obtain ⟨isOpen, prepared, -⟩ := (added.became_ready after).resolve_left before
      have here := isOpen.2.2
      have seq := added.seq.trans here
      have quorum := prepared.quorum
      rw [live.config] at quorum
      rw [← seq] at slot ⊢
      exact quorum_of_card slots slot sourced (.inl rfl) quorum
    · obtain ⟨here, executed⟩ := executed_of_status added commit before after
      have seq := added.seq.trans here
      have quorum := executed.quorum
      rw [← executed.senders, live.config] at quorum
      rw [← seq] at slot ⊢
      exact consistent.prepareCertificate_of_commit (quorum_of_card slots slot sourced (.inr rfl) quorum)

theorem sent_grows (step : (network cluster).step net event net') : net.sent ⊆ net'.sent := by
  obtain ⟨-, -, r', sent, handed, -, rfl⟩ := step
  exact setReplica_sent_grows _ _ _ _ _

theorem tally_grows (grows : net.sent ⊆ net'.sent) (type : RequestType) :
    tally cluster slots net type ⊆ tally cluster slots net' type := by
  rintro v ⟨honest, slot, vote⟩
  exact ⟨honest, slot, vote.mono grows⟩

theorem certificate_of_certified (run : (network cluster).Run trace net)
    (renews : ∀ t ∈ trace, RenewsUnused slots t) (slot : slots seq)
    (certified : Certified trace i seq hash) :
    (ballots cluster slots net).PrepareCertificate (quorums cluster) seq hash := by
  obtain ⟨t, member, reaches⟩ := certified
  obtain ⟨past, earlier, ran, step⟩ := run.earlier member
  obtain ⟨faithful, reachable⟩ := network_simulation slots ran fun u inPast => renews u (earlier inPast)
  have certificate := certificate_of_reaches faithful (voting_consistent reachable) step slot reaches
  refine run.persists (fun s => (ballots cluster slots s).PrepareCertificate (quorums cluster) seq hash)
    ?_ member (certificate.mono (tally_grows (sent_grows step) .prepare))
  intro s e s' certificate step
  exact certificate.mono (tally_grows (sent_grows step) .prepare)

theorem certificates_unique (run : (network cluster).Run trace net) {seq : Nat}
    (kept : KeptByRing cluster seq) {i j : Int} {h h' : String} (first : Certified trace i seq h)
    (second : Certified trace j seq h') : h = h' := by
  have renews : ∀ t ∈ trace, RenewsUnused (KeptByRing cluster) t :=
    fun t member => renewsUnused_keptByRing run member
  have consistent := voting_consistent (network_simulation _ run renews).2
  exact consistent.prepareCertificate_unique (certificate_of_certified run renews kept first)
    (certificate_of_certified run renews kept second)

def networkAct (cluster : Cluster) (net : Network) (event : NetworkEvent) : Option Network :=
  if cluster.honest event.replicaId ∧ cluster.Allowed net event then
    match Cluster.react (net.replica event.replicaId) event with
    | .ok (some (r, sent, handed)) => some (net.setReplica event.replicaId r sent handed)
    | _ => none
  else none

theorem networkAct_sound (cluster : Cluster) (net : Network) (event : NetworkEvent) (net' : Network)
    (acted : networkAct cluster net event = some net') : (network cluster).step net event net' := by
  unfold networkAct at acted
  split at acted
  · rename_i permitted
    split at acted
    · rename_i r sent handed reacted
      cases acted
      exact ⟨permitted.1, permitted.2, r, sent, handed, reacted, rfl⟩
    · cases acted
  · cases acted

def fourCluster : Cluster where
  config := fourReplicas
  view := 1
  byzantine := {1}
  distinct := by decide
  fits := by decide
  size := by decide
  members := by decide
  bound := by decide

def startNetwork (cluster : Cluster) (primary : Nat) : Network where
  replica i := { Replica.create (cluster.configOf i) with
    systemInfo := { primaryId := primary, view := cluster.view } }

theorem startNetwork_initial (cluster : Cluster) (primary : Nat) :
    (network cluster).initial (startNetwork cluster primary) :=
  ⟨fun _ _ => ⟨primary, false, true, false, rfl⟩, rfl, rfl⟩

def plainEnv : Env where
  codec :=
    { parseMessage := fun _ => none, parseRequest := fun _ => none, serializeRequest := fun _ => ""
      parseCheckPointData := fun _ => none, serializeCheckPointData := fun _ => ""
      parseViewChange := fun _ => none, serializeViewChange := fun _ => ""
      parseNewView := fun _ => none, serializeNewView := fun _ => "" }
  verifyMessage := fun _ _ => true
  signMessage := fun _ => some ⟨0, "signature"⟩

def deliver (receiver : Int) (type : RequestType) (hash : String) (sender : Int) : NetworkEvent :=
  .deliver receiver plainEnv ⟨⟨sender, "signature"⟩⟩
    { type := type, hash := hash, senderId := sender, seq := 1, currentView := 1
      dataSignature := if type = .commit then some {} else none }

def deliverAll (receiver : Int) (type : RequestType) (hash : String) (senders : List Int) : List NetworkEvent :=
  senders.map (deliver receiver type hash)

def splitProposal : List NetworkEvent :=
  [deliver 2 .prePrepare "a" 1, deliver 3 .prePrepare "a" 1, deliver 4 .prePrepare "b" 1] ++
  deliverAll 2 .prepare "a" [1, 2, 3] ++ deliverAll 3 .prepare "a" [1, 2, 3] ++
  deliverAll 4 .prepare "a" [1, 2, 3] ++ deliverAll 2 .commit "a" [2, 3, 4] ++
  deliverAll 4 .commit "a" [2, 3, 4]

def reachesAt (t : Transition Network NetworkEvent) (i : Int) (type : RequestType) (seq : Nat) (hash : String)
    (status : TransactionStatue) : Bool :=
  match t.event with
  | .deliver j _ _ request => decide (j = i ∧ request.type = type ∧ request.seq = seq ∧
      request.hash = hash ∧ ¬ status ≤ (t.before.replica i).getTransactionState seq ∧
      status ≤ (t.after.replica i).getTransactionState seq)
  | _ => false

theorem reaches_of_reachesAt {status : TransactionStatue} (reached : reachesAt t i type seq hash status = true) :
    Reaches t i type seq hash status := by
  unfold reachesAt at reached
  split at reached
  · rename_i j env context request event
    obtain ⟨rfl, change⟩ := of_decide_eq_true reached
    exact ⟨env, context, request, event, change⟩
  · cases reached

theorem splitProposal_certified : ∃ trace net, (network fourCluster).Run trace net ∧
    Certified trace 2 1 "a" ∧ ∀ j h, Certified trace j 1 h → h = "a" := by
  obtain ⟨trace, net, run, checked⟩ := System.run_of_play (networkAct_sound fourCluster)
    (startNetwork_initial fourCluster 1) splitProposal
    (fun trace _ => trace.any fun t => reachesAt t 2 .prepare 1 "a" .readyCommit) (by decide)
  obtain ⟨t, member, reached⟩ := any_eq_true.mp checked
  have certified : Certified trace 2 1 "a" := ⟨t, member, .inl (reaches_of_reachesAt reached)⟩
  refine ⟨trace, net, run, certified, fun j h other => ?_⟩
  exact certificates_unique run (by unfold KeptByRing; decide) other certified

end ResilientDB.Proof
