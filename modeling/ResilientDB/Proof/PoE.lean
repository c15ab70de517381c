import ResilientDB.Model.PoE
import ResilientDB.Proof.CollectorRun
import ResilientDB.Proof.Reorder

namespace ResilientDB.Proof
open Model Library List Option Function

variable {cluster : Cluster} {outOfOrder : Bool} {i : Int} {f : Nat} {s : PoeReplica} {net net' : PoeNetwork}
  {txn txn' : PoeTransaction} {proposal : PoeProposal} {trace : List (Transition PoeNetwork PoeEvent)} {hash : String}
  {p : PoE} {event : PoeEvent} {n : Nat}

structure PoeLocal (i : Int) (f : Nat) (s : PoeReplica) : Prop where
  id : s.poe.id = i
  fault : s.poe.f = f
  counter : s.poe.seq = s.proposed.length
  numbered : s.proposed.map PoeTransaction.seq = (List.range s.proposed.length).map Int.ofNat
  held : ∀ hash txn, s.poe.data hash = some txn → txn.hash = hash ∧ txn ∈ s.processed
  done : ∀ txn ∈ s.committed, txn ∈ s.processed ∧ 2 * f + 1 ≤ (s.poe.received txn.hash).card
  kept : ∀ txn ∈ s.processed, (∃ txn', s.poe.data txn.hash = some txn') ∨ ∃ txn' ∈ s.committed, txn'.hash = txn.hash
  prepared : ∀ proposal ∈ s.prepared, ∃ txn ∈ s.processed, txn.hash = proposal.hash
  voted : ∀ hash, i ∈ s.poe.received hash → ∃ txn ∈ s.processed, txn.hash = hash
  decided : ∀ hash, i ∈ s.poe.received hash → 2 * f + 1 ≤ (s.poe.received hash).card →
    ∃ txn ∈ s.committed, txn.hash = hash
  threads : Threads s.threads
  passed : s.threads.committed = s.committed.map PoeTransaction.request

theorem poeLocal_create (i : Int) (f : Nat) (outOfOrder : Bool) : PoeLocal i f (.create i f outOfOrder) where
  id := rfl
  fault := rfl
  counter := rfl
  numbered := rfl
  held _ _ none := by cases none
  done _ none := by cases none
  kept _ none := by cases none
  prepared _ none := by cases none
  voted _ none := by simp [PoeReplica.create] at none
  decided _ none := by simp [PoeReplica.create] at none
  threads := threads_initial outOfOrder
  passed := rfl

theorem PoeLocal.processNewTransaction (ok : PoeLocal i f s) (request : Request) :
    PoeLocal i f (s.processNewTransaction request) := by
  have counter := ok.counter
  refine { ok with counter := ?_, numbered := ?_ }
  · simp [PoeReplica.processNewTransaction, PoE.receiveTransaction, counter]
  · simp only [PoeReplica.processNewTransaction, PoE.receiveTransaction, map_append, map_singleton,
      length_append, length_singleton, range_succ, ok.numbered, counter]
    rfl

theorem exists_mem_more {txns : List PoeTransaction} (there : ∃ txn ∈ txns, txn.hash = hash)
    (more : List PoeTransaction) : ∃ txn ∈ txns ++ more, txn.hash = hash := by
  obtain ⟨txn, member, same⟩ := there
  exact ⟨txn, mem_append_left _ member, same⟩

theorem PoeLocal.processPropose (ok : PoeLocal i f s) (txn : PoeTransaction) : PoeLocal i f (s.processPropose txn) := by
  refine { ok with held := ?_, done := ?_, kept := ?_, prepared := ?_, voted := ?_ }
  · intro hash txn' found
    change Function.update s.poe.data txn.hash (some txn) hash = some txn' at found
    by_cases here : hash = txn.hash
    · rw [here, update_self] at found
      cases found
      exact ⟨here.symm, mem_append_right _ mem_cons_self⟩
    · rw [Function.update_of_ne here] at found
      exact ⟨(ok.held hash txn' found).1, mem_append_left _ (ok.held hash txn' found).2⟩
  · intro txn' member
    exact ⟨mem_append_left _ (ok.done txn' member).1, (ok.done txn' member).2⟩
  · intro txn' member
    change (∃ other, Function.update s.poe.data txn.hash (some txn) txn'.hash = some other) ∨ _
    by_cases here : txn'.hash = txn.hash
    · rw [here, update_self]
      exact .inl ⟨txn, rfl⟩
    · rw [Function.update_of_ne here]
      rcases mem_append.mp member with old | new
      · exact ok.kept txn' old
      · rw [mem_singleton.mp new] at here
        exact absurd rfl here
  · intro proposal member
    rcases mem_append.mp member with old | new
    · exact exists_mem_more (ok.prepared proposal old) _
    · exact ⟨txn, mem_append_right _ mem_cons_self, (congrArg PoeProposal.hash (mem_singleton.mp new)).symm⟩
  · exact fun hash vote => exists_mem_more (ok.voted hash vote) _

def votesAfter (p : PoE) (proposal : PoeProposal) : String → Finset Int :=
  Function.update p.received proposal.hash (insert proposal.proposer (p.received proposal.hash))

theorem receivePrepare_cases (p : PoE) (proposal : PoeProposal) :
    (p.receivePrepare proposal = (none, { p with received := votesAfter p proposal }) ∧
      (p.data proposal.hash = none ∨ (votesAfter p proposal proposal.hash).card < 2 * p.f + 1)) ∨
    ∃ txn, p.data proposal.hash = some txn ∧ 2 * p.f + 1 ≤ (votesAfter p proposal proposal.hash).card ∧
      p.receivePrepare proposal = (some txn, { p with
        received := votesAfter p proposal, data := Function.update p.data proposal.hash none }) := by
  unfold PoE.receivePrepare votesAfter
  simp only [update_self]
  cases found : p.data proposal.hash with
  | none => exact .inl ⟨rfl, .inl rfl⟩
  | some txn =>
    by_cases quorum : 2 * p.f + 1 ≤ (insert proposal.proposer (p.received proposal.hash)).card
    · exact .inr ⟨txn, rfl, quorum, if_pos quorum⟩
    · exact .inl ⟨if_neg quorum, .inr (not_le.mp quorum)⟩

theorem received_subset_votesAfter (p : PoE) (proposal : PoeProposal) (hash : String) :
    p.received hash ⊆ votesAfter p proposal hash := by
  unfold votesAfter
  by_cases here : hash = proposal.hash
  · rw [here, update_self]
    exact Finset.subset_insert _ _
  · rw [Function.update_of_ne here]

theorem mem_votesAfter (vote : i ∈ votesAfter p proposal hash) :
    i ∈ p.received hash ∨ hash = proposal.hash ∧ proposal.proposer = i := by
  unfold votesAfter at vote
  by_cases here : hash = proposal.hash
  · rw [here, update_self] at vote
    rcases Finset.mem_insert.mp vote with same | old
    · exact .inr ⟨here, same.symm⟩
    · exact .inl (here ▸ old)
  · rw [Function.update_of_ne here] at vote
    exact .inl vote

section

variable (ok : PoeLocal i f s)
include ok

theorem PoeLocal.votes (own : proposal.proposer = i → ∃ txn ∈ s.processed, txn.hash = proposal.hash)
    (vote : i ∈ votesAfter s.poe proposal hash) : ∃ txn ∈ s.processed, txn.hash = hash := by
  rcases mem_votesAfter vote with old | ⟨rfl, self⟩
  · exact ok.voted hash old
  · exact own self

theorem PoeLocal.done_after (member : txn ∈ s.committed) (proposal : PoeProposal) :
    txn ∈ s.processed ∧ 2 * f + 1 ≤ (votesAfter s.poe proposal txn.hash).card :=
  ⟨(ok.done txn member).1,
    (ok.done txn member).2.trans (Finset.card_le_card (received_subset_votesAfter s.poe proposal txn.hash))⟩

theorem PoeLocal.decided_other (other : hash ≠ proposal.hash)
    (vote : i ∈ votesAfter s.poe proposal hash) (quorum : 2 * f + 1 ≤ (votesAfter s.poe proposal hash).card) :
    ∃ txn ∈ s.committed, txn.hash = hash := by
  rw [votesAfter, Function.update_of_ne other] at vote quorum
  exact ok.decided hash vote quorum

section

variable (own : proposal.proposer = i → ∃ txn ∈ s.processed, txn.hash = proposal.hash)
include own

theorem PoeLocal.counted
    (undecided : s.poe.data proposal.hash = none ∨ (votesAfter s.poe proposal proposal.hash).card < 2 * s.poe.f + 1) :
    PoeLocal i f { s with poe := { s.poe with received := votesAfter s.poe proposal } } := by
  refine { ok with done := ?_, voted := ?_, decided := ?_ }
  · exact fun txn member => ok.done_after member proposal
  · exact fun hash vote => ok.votes own vote
  · intro hash vote quorum
    by_cases here : hash = proposal.hash
    · subst here
      -- it is no longer held only if it is committed
      obtain ⟨txn, member, same⟩ := ok.votes own vote
      rcases ok.kept txn member with ⟨txn', held⟩ | done
      · rw [same] at held
        rcases undecided with none | few
        · rw [none] at held
          cases held
        · rw [ok.fault] at few
          exact absurd quorum (not_le.mpr few)
      · rwa [same] at done
    · exact ok.decided_other here vote quorum

theorem PoeLocal.decides (found : s.poe.data proposal.hash = some txn)
    (quorum : 2 * s.poe.f + 1 ≤ (votesAfter s.poe proposal proposal.hash).card) :
    PoeLocal i f (PoeReplica.commitMsgInternal { s with poe := { s.poe with
      received := votesAfter s.poe proposal, data := Function.update s.poe.data proposal.hash none } } txn) := by
  obtain ⟨same, member⟩ := ok.held _ _ found
  have new : txn ∈ s.committed ++ [txn] := mem_append_right _ mem_cons_self
  refine { ok with
    held := ?_, done := ?_, kept := ?_, voted := ?_, decided := ?_, threads := ok.threads.commit _, passed := ?_ }
  · intro hash txn' held
    change Function.update s.poe.data proposal.hash none hash = some txn' at held
    by_cases here : hash = proposal.hash
    · rw [here, update_self] at held
      cases held
    · rw [Function.update_of_ne here] at held
      exact ok.held hash txn' held
  · intro txn' done
    rcases mem_append.mp done with old | here
    · exact ok.done_after old proposal
    · rw [mem_singleton.mp here]
      refine ⟨member, ?_⟩
      change 2 * f + 1 ≤ (votesAfter s.poe proposal txn.hash).card
      rwa [same, ← ok.fault]
  · intro txn' old
    change (∃ other, Function.update s.poe.data proposal.hash none txn'.hash = some other) ∨ _
    by_cases here : txn'.hash = proposal.hash
    · exact .inr ⟨txn, new, same.trans here.symm⟩
    · rw [Function.update_of_ne here]
      exact (ok.kept txn' old).imp_right fun done => exists_mem_more done _
  · exact fun hash vote => ok.votes own vote
  · intro hash vote enough
    by_cases here : hash = proposal.hash
    · exact ⟨txn, new, same.trans here.symm⟩
    · exact exists_mem_more (ok.decided_other here vote enough) _
  · change s.threads.committed ++ [txn.request] = (s.committed ++ [txn]).map PoeTransaction.request
    rw [ok.passed, map_append, map_singleton]

theorem PoeLocal.processPrepare : PoeLocal i f (s.processPrepare proposal) := by
  rcases receivePrepare_cases s.poe proposal with ⟨result, undecided⟩ | ⟨txn, found, quorum, result⟩
  · simp only [PoeReplica.processPrepare, result]
    exact ok.counted own undecided
  · simp only [PoeReplica.processPrepare, result]
    exact ok.decides own found quorum

end

end

theorem threads_act_committed {s s' : ExecutorThreads} {event : ExecutorEvent} (step : s.act event = some s')
    (thread : ∀ message, event ≠ .commit message) : s'.committed = s.committed := by
  cases event with
  | commit message => exact absurd rfl (thread message)
  | orderMessage =>
    cases step
    rfl
  | executeMessage =>
    cases step
    unfold ExecutorThreads.executeMessage
    split <;> rfl
  | executeMessageOutOfOrder =>
    simp only [ExecutorThreads.act, ite_none_right_eq_some, Option.some.injEq] at step
    obtain ⟨-, rfl⟩ := step
    unfold ExecutorThreads.executeMessageOutOfOrder
    split <;> rfl

theorem PoeLocal.execute (ok : PoeLocal i f s) {threads : ExecutorThreads} {event : ExecutorEvent}
    (step : s.threads.act event = some threads) (thread : ∀ message, event ≠ .commit message) :
    PoeLocal i f { s with threads := threads } :=
  { ok with threads := ok.threads.act step, passed := (threads_act_committed step thread).trans ok.passed }

inductive PoeStep (cluster : Cluster) (net : PoeNetwork) (i : Int) : PoeEvent → PoeReplica → Prop
  | processNewTransaction (request : Request) :
      PoeStep cluster net i (.processNewTransaction i request) ((net.replica i).processNewTransaction request)
  | propose (txn : PoeTransaction) : net.authentic cluster (.propose txn) →
      PoeStep cluster net i (.deliver i (.propose txn)) ((net.replica i).processPropose txn)
  | prepare (proposal : PoeProposal) : net.authentic cluster (.prepare proposal) →
      PoeStep cluster net i (.deliver i (.prepare proposal)) ((net.replica i).processPrepare proposal)
  | execute (threads : ExecutorThreads) (event : ExecutorEvent) : (net.replica i).threads.act event = some threads →
      (∀ message, event ≠ .commit message) →
      PoeStep cluster net i (.execute i event) { net.replica i with threads := threads }

theorem poe_act_cases (step : net.act cluster event = some net') :
    ∃ i s, cluster.honest i ∧ PoeStep cluster net i event s ∧ net' = net.setReplica i s := by
  cases event with
  | processNewTransaction i request =>
    simp only [PoeNetwork.act, ite_none_right_eq_some, Option.some.injEq] at step
    exact ⟨i, _, step.1, .processNewTransaction request, step.2.symm⟩
  | deliver i message =>
    simp only [PoeNetwork.act, ite_none_right_eq_some, Option.some.injEq] at step
    cases message with
    | propose txn => exact ⟨i, _, step.1.1, .propose txn step.1.2, step.2.symm⟩
    | prepare proposal => exact ⟨i, _, step.1.1, .prepare proposal step.1.2, step.2.symm⟩
  | execute i event =>
    have thread : ∀ message, event ≠ .commit message := by
      rintro message rfl
      cases step
    have turn : cluster.honest i ∧ ∃ threads, (net.replica i).threads.act event = some threads ∧
        net.setReplica i { net.replica i with threads := threads } = net' := by
      cases event with
      | commit message => exact absurd rfl (thread message)
      | orderMessage => simpa only [PoeNetwork.act, ite_none_right_eq_some, map_eq_some_iff] using step
      | _ =>
        simpa only [PoeNetwork.act, ite_none_right_eq_some, map_eq_some_iff] using step
    obtain ⟨honest, threads, moved, rfl⟩ := turn
    exact ⟨i, _, honest, .execute threads event moved thread, rfl⟩

theorem setReplica_self (net : PoeNetwork) (i : Int) (s : PoeReplica) : (net.setReplica i s).replica i = s :=
  update_self _ _ _

theorem setReplica_of_ne (net : PoeNetwork) (s : PoeReplica) {j : Int} (other : j ≠ i) :
    (net.setReplica i s).replica j = net.replica j :=
  Function.update_of_ne other _ _

structure PoeGlobal (cluster : Cluster) (net : PoeNetwork) : Prop where
  replica : ∀ i, cluster.honest i → PoeLocal i cluster.config.getMaxMaliciousReplicaNum (net.replica i)
  origin : ∀ i, cluster.honest i → ∀ txn ∈ (net.replica i).processed, cluster.honest txn.proposer →
    txn ∈ (net.replica txn.proposer).proposed

theorem processPrepare_records (s : PoeReplica) (proposal : PoeProposal) :
    (s.processPrepare proposal).proposed = s.proposed ∧ (s.processPrepare proposal).processed = s.processed := by
  unfold PoeReplica.processPrepare
  split <;> exact ⟨rfl, rfl⟩

theorem PoeStep.proposed (step : PoeStep cluster net i event s) : (net.replica i).proposed ⊆ s.proposed := by
  cases step with
  | processNewTransaction request => exact subset_append_left _ _
  | prepare proposal authentic =>
    rw [(processPrepare_records _ proposal).1]
    exact List.Subset.refl _
  | _ => exact List.Subset.refl _

theorem PoeStep.processed (step : PoeStep cluster net i event s) (member : txn ∈ s.processed) :
    txn ∈ (net.replica i).processed ∨ net.authentic cluster (.propose txn) := by
  cases step with
  | propose txn' authentic =>
    rcases mem_append.mp member with old | new
    · exact .inl old
    · rw [mem_singleton.mp new]
      exact .inr authentic
  | prepare proposal authentic =>
    rw [(processPrepare_records _ proposal).2] at member
    exact .inl member
  | _ => exact .inl member

theorem PoeGlobal.step (good : PoeGlobal cluster net) (step : net.act cluster event = some net') :
    PoeGlobal cluster net' := by
  obtain ⟨i, s, honest, stepped, rfl⟩ := poe_act_cases step
  have ok := good.replica i honest
  have more : ∀ j, (net.replica j).proposed ⊆ ((net.setReplica i s).replica j).proposed := by
    intro j
    by_cases here : j = i
    · rw [here, setReplica_self]
      exact stepped.proposed
    · rw [setReplica_of_ne net s here]
      exact List.Subset.refl _
  refine ⟨fun j honest' => ?_, fun j honest' txn member proposer => ?_⟩
  · by_cases here : j = i
    · subst here
      rw [setReplica_self]
      cases stepped with
      | processNewTransaction request => exact ok.processNewTransaction request
      | propose txn authentic => exact ok.processPropose txn
      | prepare proposal authentic =>
        refine ok.processPrepare fun self => ?_
        have own : proposal ∈ (net.replica proposal.proposer).prepared := authentic (self ▸ honest)
        rw [self] at own
        exact ok.prepared proposal own
      | execute threads event moved thread => exact ok.execute moved thread
    · rw [setReplica_of_ne net s here]
      exact good.replica j honest'
  · by_cases here : j = i
    · subst here
      rw [setReplica_self] at member
      rcases stepped.processed member with old | authentic
      · exact more _ (good.origin j honest' txn old proposer)
      · exact more _ (authentic proposer)
    · rw [setReplica_of_ne net s here] at member
      exact more _ (good.origin j honest' txn member proposer)

theorem poeGlobal_run (run : (poeNetwork cluster outOfOrder).Run trace net) : PoeGlobal cluster net := by
  refine run.invariant (fun _ => True) _ ?_ (fun _ _ _ good step _ => good.step step) (fun _ _ => trivial)
  rintro net rfl
  exact ⟨fun i _ => poeLocal_create i _ outOfOrder, fun i _ txn none => by cases none⟩

theorem PoeLocal.eq_of_seq (ok : PoeLocal i f s) (first : txn ∈ s.proposed) (second : txn' ∈ s.proposed)
    (same : txn.seq = txn'.seq) : txn = txn' := by
  refine inj_on_of_nodup_map ?_ first second same
  rw [ok.numbered]
  exact nodup_range.map Int.ofNat_injective

/-- Honest replicas commit one transaction under a number that one honest replica proposes. -/
theorem poe_agreement (run : (poeNetwork cluster outOfOrder).Run trace net) {proposer seq : Int}
    (honest : cluster.honest proposer)
    (owned : ∀ i, cluster.honest i → ∀ txn ∈ (net.replica i).processed, txn.seq = seq → txn.proposer = proposer)
    {i j : Int} (first : cluster.honest i) (second : cluster.honest j) (committed : txn ∈ (net.replica i).committed)
    (committed' : txn' ∈ (net.replica j).committed) (here : txn.seq = seq) (here' : txn'.seq = seq) :
    txn.hash = txn'.hash := by
  have good := poeGlobal_run run
  have source : ∀ i, cluster.honest i → ∀ txn ∈ (net.replica i).committed, txn.seq = seq →
      txn ∈ (net.replica proposer).proposed := by
    intro i here txn committed number
    have processed := ((good.replica i here).done txn committed).1
    have owner := owned i here txn processed number
    exact owner ▸ good.origin i here txn processed (owner ▸ honest)
  have same := (good.replica proposer honest).eq_of_seq (source i first txn committed here)
    (source j second txn' committed' here') (here.trans here'.symm)
  rw [same]

def poeCluster : Cluster where
  config := { fourReplicas with selfInfo := ⟨1⟩ }
  view := 1
  byzantine := ∅
  distinct := by decide
  fits := by decide
  size := by decide
  members := by decide
  bound := by decide

def decideAt (i : Int) (txn : PoeTransaction) : List PoeEvent :=
  [1, 2, 3].map (fun j => .deliver j (.propose txn)) ++
    [1, 2, 3].map fun j => .deliver i (.prepare { hash := txn.hash, proposer := j, seq := txn.seq })

def newTxn (data : String) : Request := { type := .newTxns, data := data, hash := data, proxyId := 9 }

def txnOf (proposer seq : Int) (data : String) : PoeTransaction :=
  { data := data, hash := data, proxyId := 9, proposer := proposer, seq := seq }

theorem poeCluster_honest (honest : poeCluster.honest i) : i ∈ [1, 2, 3, 4] := by
  simpa [Cluster.ids, poeCluster, fourReplicas] using honest.1

theorem one_proposer_agrees : ∃ trace net, (poeNetwork poeCluster false).Run trace net ∧
    txnOf 1 0 "a" ∈ (net.replica 1).committed ∧ (net.replica 2).committed ≠ [] ∧
    ∀ txn ∈ (net.replica 2).committed, txn.seq = 0 → txn.hash = "a" := by
  obtain ⟨trace, net, run, first, second, owned⟩ := System.run_of_play
    ((poeNetwork poeCluster false).acts rfl) rfl
    (.processNewTransaction 1 (newTxn "a") :: decideAt 1 (txnOf 1 0 "a") ++ decideAt 2 (txnOf 1 0 "a"))
    (fun _ net => txnOf 1 0 "a" ∈ (net.replica 1).committed ∧ (net.replica 2).committed ≠ [] ∧
      ∀ i ∈ ([1, 2, 3, 4] : List Int), ∀ txn ∈ (net.replica i).processed, txn.proposer = 1) (by decide +kernel)
  refine ⟨trace, net, run, first, second, fun txn committed here => ?_⟩
  exact (poe_agreement run (by decide) (fun i honest txn member _ => owned i (poeCluster_honest honest) txn member)
    (by decide) (by decide) first committed rfl here).symm

theorem two_proposers_disagree : ∃ trace net, (poeNetwork poeCluster false).Run trace net ∧
    poeCluster.honest 1 ∧ poeCluster.honest 2 ∧
    (net.replica 1).committed = [txnOf 1 0 "a"] ∧ (net.replica 2).committed = [txnOf 2 0 "b"] := by
  obtain ⟨trace, net, run, checked⟩ := System.run_of_play ((poeNetwork poeCluster false).acts rfl) rfl
    ([.processNewTransaction 1 (newTxn "a"), .processNewTransaction 2 (newTxn "b")] ++
      decideAt 1 (txnOf 1 0 "a") ++ decideAt 2 (txnOf 2 0 "b"))
    (fun _ net => (net.replica 1).committed = [txnOf 1 0 "a"] ∧
      (net.replica 2).committed = [txnOf 2 0 "b"]) (by decide +kernel)
  exact ⟨trace, net, run, by decide, by decide, checked⟩

structure CommittedOnce (s : PoeReplica) : Prop where
  distinct : (s.committed.map PoeTransaction.hash).Nodup
  gone : ∀ txn ∈ s.committed, s.poe.data txn.hash = none

theorem CommittedOnce.processPropose (once : CommittedOnce s) (fresh : txn.hash ∉ s.committed.map PoeTransaction.hash) :
    CommittedOnce (s.processPropose txn) := by
  refine ⟨once.distinct, fun txn' member => ?_⟩
  change Function.update s.poe.data txn.hash (some txn) txn'.hash = none
  have other : txn'.hash ≠ txn.hash := fun same => fresh (same ▸ mem_map_of_mem member)
  rw [Function.update_of_ne other]
  exact once.gone txn' member

theorem CommittedOnce.processPrepare (once : CommittedOnce s)
    (held : ∀ hash txn, s.poe.data hash = some txn → txn.hash = hash) (proposal : PoeProposal) :
    CommittedOnce (s.processPrepare proposal) := by
  rcases receivePrepare_cases s.poe proposal with ⟨result, -⟩ | ⟨txn, found, -, result⟩
  · simp only [PoeReplica.processPrepare, result]
    exact ⟨once.distinct, once.gone⟩
  · simp only [PoeReplica.processPrepare, result]
    have same := held _ _ found
    refine ⟨?_, fun txn' member => ?_⟩
    · change ((s.committed ++ [txn]).map PoeTransaction.hash).Nodup
      rw [map_append, map_singleton]
      refine List.Nodup.append once.distinct (nodup_singleton _) ?_
      rw [disjoint_singleton]
      intro member
      obtain ⟨txn', committed, equal⟩ := mem_map.mp member
      have none := once.gone txn' committed
      rw [equal, same, found] at none
      cases none
    · change Function.update s.poe.data proposal.hash none txn'.hash = none
      by_cases here : txn'.hash = proposal.hash
      · rw [here, update_self]
      · rw [Function.update_of_ne here]
        rcases mem_append.mp member with old | new
        · exact once.gone txn' old
        · rw [mem_singleton.mp new] at here
          exact absurd same here

-- A PROPOSE is not processed again when its transaction is committed.
def NotRepeated (i : Int) (t : Transition PoeNetwork PoeEvent) : Prop :=
  ∀ txn, t.event = .deliver i (.propose txn) → txn.hash ∉ (t.before.replica i).committed.map PoeTransaction.hash

theorem committedOnce_run (run : (poeNetwork cluster outOfOrder).Run trace net) (honest : cluster.honest i)
    (fresh : ∀ t ∈ trace, NotRepeated i t) : CommittedOnce (net.replica i) := by
  have both := run.invariant (NotRepeated i) (fun net => PoeGlobal cluster net ∧ CommittedOnce (net.replica i))
    (fun net first => by
      subst first
      exact ⟨poeGlobal_run (.initial rfl), nodup_nil, fun _ none => by cases none⟩)
    (fun net event net' both step fresh => by
      refine ⟨both.1.step step, ?_⟩
      have ok := both.1.replica i honest
      obtain ⟨j, s, -, stepped, rfl⟩ := poe_act_cases step
      by_cases here : i = j
      · subst here
        rw [setReplica_self]
        cases stepped with
        | propose txn authentic => exact both.2.processPropose (fresh txn rfl)
        | prepare proposal authentic => exact both.2.processPrepare (fun hash txn found => (ok.held hash txn found).1) _
        | _ => exact ⟨both.2.distinct, both.2.gone⟩
      · rw [setReplica_of_ne net s here]
        exact both.2)
    fresh
  exact both.2

theorem request_seq (small : n < 2 ^ 63) (here : txn.seq = Int.ofNat n) : txn.request.seq = n := by
  simp only [PoeTransaction.request, here, toUInt64, Int.ofNat_eq_natCast]
  omega

theorem PoeLocal.seq_getElem? (ok : PoeLocal i f s) (there : s.proposed[n]? = some txn) : txn.seq = Int.ofNat n := by
  have inside : n < s.proposed.length := (List.getElem?_eq_some_iff.mp there).1
  have entry := congrArg (fun list => list[n]?) ok.numbered
  simpa [there, getElem?_range inside] using entry

theorem PoeLocal.firstOf_request {proposer : PoeReplica} (ok : PoeLocal i f proposer) {k : Nat}
    (small : proposer.proposed.length ≤ 2 ^ 63) {committed : List PoeTransaction}
    (same : ∀ txn, txn ∈ committed ↔ txn ∈ proposer.proposed.take k) (n : Nat) :
    firstOf Request.seq (committed.map PoeTransaction.request) n =
      ((proposer.proposed.take k)[n]?).map PoeTransaction.request := by
  have number : ∀ {m : Nat} {txn : PoeTransaction}, (proposer.proposed.take k)[m]? = some txn →
      txn.request.seq = m := by
    intro m txn there
    have inside : proposer.proposed[m]? = some txn := by
      have below := (List.getElem?_eq_some_iff.mp there).1
      rw [length_take] at below
      rwa [getElem?_take_of_lt (by omega)] at there
    have below := (List.getElem?_eq_some_iff.mp inside).1
    exact request_seq (by omega) (ok.seq_getElem? inside)
  cases found : firstOf Request.seq (committed.map PoeTransaction.request) n with
  | none =>
    cases there : (proposer.proposed.take k)[n]? with
    | none => rfl
    | some txn =>
      have member : txn ∈ committed := (same txn).mpr (mem_of_getElem? there)
      have some := firstOf_isSome.mp ⟨txn.request, mem_map_of_mem member, number there⟩
      rw [found] at some
      cases some
  | some message =>
    obtain ⟨txn, member, rfl⟩ := mem_map.mp (mem_of_find?_eq_some found)
    obtain ⟨m, there⟩ := mem_iff_getElem?.mp ((same txn).mp member)
    have here : m = n := (number there).symm.trans (key_firstOf found)
    rw [← here, there, map_some]

theorem poe_executes (run : (poeNetwork cluster outOfOrder).Run trace net) {proposer : Int}
    (honest : cluster.honest proposer) (replica : cluster.honest i)
    (single : ∀ txn ∈ (net.replica i).processed, txn.proposer = proposer)
    (distinct : ((net.replica proposer).proposed.map PoeTransaction.hash).Nodup)
    (small : (net.replica proposer).proposed.length ≤ 2 ^ 63) (k : Nat)
    (decided : ∀ txn ∈ (net.replica proposer).proposed.take k, i ∈ (net.replica i).poe.received txn.hash ∧
      2 * cluster.config.getMaxMaliciousReplicaNum + 1 ≤ ((net.replica i).poe.received txn.hash).card)
    (others : ∀ txn ∈ (net.replica proposer).proposed.drop k, txn ∉ (net.replica i).processed ∨
      ((net.replica i).poe.received txn.hash).card < 2 * cluster.config.getMaxMaliciousReplicaNum + 1) :
    (∀ txn, txn ∈ (net.replica i).committed ↔ txn ∈ (net.replica proposer).proposed.take k) ∧
    ((∀ t ∈ trace, NotRepeated i t) → (net.replica i).committed.Perm ((net.replica proposer).proposed.take k)) ∧
    ((net.replica i).threads.executor.commitQueue = [] → (net.replica i).threads.ordered =
      (((net.replica proposer).proposed.take k).drop 1).map PoeTransaction.request) := by
  have good := poeGlobal_run run
  have ok := good.replica i replica
  have source : ∀ txn ∈ (net.replica i).processed, txn ∈ (net.replica proposer).proposed := fun txn member =>
    single txn member ▸ good.origin i replica txn member (single txn member ▸ honest)
  have same : ∀ txn, txn ∈ (net.replica i).committed ↔ txn ∈ (net.replica proposer).proposed.take k := by
    intro txn
    constructor
    · intro member
      obtain ⟨processed, quorum⟩ := ok.done txn member
      have proposed := source txn processed
      rw [← take_append_drop k (net.replica proposer).proposed] at proposed
      rcases mem_append.mp proposed with early | late
      · exact early
      · rcases others txn late with absent | few
        · exact absurd processed absent
        · exact absurd quorum (not_le.mpr few)
    · intro member
      obtain ⟨self, quorum⟩ := decided txn member
      obtain ⟨txn', committed, hash⟩ := ok.decided txn.hash self quorum
      have proposed := source txn' (ok.done txn' committed).1
      rwa [← inj_on_of_nodup_map distinct proposed (mem_of_mem_take member) hash]
  refine ⟨same, fun fresh => ?_, fun caughtUp => ?_⟩
  · have once := (committedOnce_run run replica fresh).distinct.of_map _
    have first := ((distinct.of_map _).sublist (take_sublist k _))
    exact (perm_ext_iff_of_nodup once first).mpr same
  · have threads := ok.threads
    have received : (net.replica i).threads.received = (net.replica i).committed.map PoeTransaction.request := by
      rw [← ok.passed, threads.committed, caughtUp, append_nil]
    refine threads.buffered.order.eq_of_firstOf threads.drained fun n => ?_
    rw [received, (good.replica proposer honest).firstOf_request small same, getElem?_map, getElem?_drop, Nat.add_comm]

def repeats (i : Int) (t : Transition PoeNetwork PoeEvent) : Bool :=
  match t.event with
  | .deliver j (.propose txn) => j = i && txn.hash ∈ (t.before.replica i).committed.map PoeTransaction.hash
  | _ => false

def firstTwo : List PoeTransaction := [txnOf 1 0 "a", txnOf 1 1 "b"]

theorem second_executed : ∃ trace net, (poeNetwork poeCluster false).Run trace net ∧
    (net.replica 1).proposed = firstTwo ∧ (net.replica 1).committed.Perm firstTwo ∧
    (net.replica 1).threads.ordered = [(txnOf 1 1 "b").request] := by
  obtain ⟨trace, net, run, fresh, proposed, caughtUp, single, decided⟩ := System.run_of_play
    ((poeNetwork poeCluster false).acts rfl) rfl
    ([.processNewTransaction 1 (newTxn "a"), .processNewTransaction 1 (newTxn "b")] ++
      decideAt 1 (txnOf 1 1 "b") ++ decideAt 1 (txnOf 1 0 "a") ++ List.replicate 2 (.execute 1 .orderMessage))
    (fun trace net => (∀ t ∈ trace, repeats 1 t = false) ∧ (net.replica 1).proposed = firstTwo ∧
      (net.replica 1).threads.executor.commitQueue = [] ∧ (∀ txn ∈ (net.replica 1).processed, txn.proposer = 1) ∧
      ∀ txn ∈ firstTwo, 1 ∈ (net.replica 1).poe.received txn.hash ∧
        3 ≤ ((net.replica 1).poe.received txn.hash).card) (by decide +kernel)
  have executes := @poe_executes poeCluster false 1 net trace run 1 (by decide) (by decide) single
    (by rw [proposed]; decide) (by rw [proposed]; decide) 2 (by rw [proposed]; exact decided)
    (by rw [proposed]; rintro txn ⟨⟩)
  rw [proposed] at executes
  refine ⟨trace, net, run, proposed, executes.2.1 fun t member txn event done => ?_, executes.2.2 caughtUp⟩
  simpa [repeats, event, done] using fresh t member

theorem first_never_released :
    (∃ trace net, (poeNetwork poeCluster false).Run trace net ∧ (net.replica 1).proposed = [txnOf 1 0 "a"] ∧
      (net.replica 1).poe.received "a" = {1, 2, 3} ∧ (net.replica 1).committed = [txnOf 1 0 "a"] ∧
      (net.replica 1).threads.executor.commitQueue = [] ∧ (net.replica 1).threads.ordered = []) ∧
    ∃ trace net, (poeNetwork poeCluster false).Run trace net ∧ (net.replica 1).proposed = [txnOf 1 0 "a"] ∧
      (net.replica 1).committed = [txnOf 1 0 "a", txnOf 1 0 "a"] := by
  constructor
  · exact System.run_of_play ((poeNetwork poeCluster false).acts rfl) rfl
      (.processNewTransaction 1 (newTxn "a") :: decideAt 1 (txnOf 1 0 "a") ++ [.execute 1 .orderMessage])
      _ (by decide +kernel)
  · exact System.run_of_play ((poeNetwork poeCluster false).acts rfl) rfl
      (.processNewTransaction 1 (newTxn "a") :: decideAt 1 (txnOf 1 0 "a") ++ decideAt 1 (txnOf 1 0 "a"))
      _ (by decide +kernel)

end ResilientDB.Proof
