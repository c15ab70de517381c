import ResilientDB.Proof.NewView
import ResilientDB.Proof.LogOrder

namespace ResilientDB.Proof
open Model Library List

variable {config : ResDBConfig} {viewchange : Bool} {proposal request : Request} {i : Int} {d : Delivery}
  {past deliveries : List Delivery} {c : TransactionCollector} {handed : List Request}

@[mk_iff]
structure VoteOn (proposal request : Request) : Prop where
  type : request.type = .prepare ∨ request.type = .commit
  hash : request.hash = proposal.hash
  seq : request.seq = proposal.seq
  view : request.currentView = proposal.currentView
  least : 0 ≤ request.senderId
  most : request.senderId < 128

@[mk_iff]
structure About (proposal : Request) (d : Delivery) : Prop where
  view : d.currentView = proposal.currentView
  message : d.request = proposal ∨ VoteOn proposal d.request

def OwnVote (i : Int) (type : RequestType) (d : Delivery) : Prop := d.request.type = type ∧ d.request.senderId = i
deriving Decidable

abbrev Collected := TransactionCollector × List Request

def receiveOne (config : ResDBConfig) (state : Collected) (d : Delivery) : Except Fault Collected := do
  let result ← state.1.addConsensusMsg config d
  .ok (result.collector, state.2 ++ result.committed.toList)

def receiveAll (config : ResDBConfig) (seq : Nat) (viewchange : Bool) (deliveries : List Delivery) :
    Except Fault Collected :=
  deliveries.foldlM (receiveOne config) ({ seq := seq, enableViewchange := viewchange }, [])

def AfterStatus (config : ResDBConfig) (proposal : Request) (viewchange : Bool) (past : List Delivery)
    (good : TransactionStatue → Prop) : Prop :=
  ∃ c handed, receiveAll config proposal.seq viewchange past = .ok (c, handed) ∧ good c.status

-- A number is passed only after its request was handed over.
@[mk_iff]
structure Causal (config : ResDBConfig) (proposal : Request) (viewchange : Bool) (i : Int) (past : List Delivery)
    (d : Delivery) : Prop where
  prepare : OwnVote i .prepare d → ∃ u ∈ past, u.request = proposal
  commit : OwnVote i .commit d → AfterStatus config proposal viewchange past (.readyCommit ≤ ·)
  pending : proposal.seq < d.maxPendingExecutedSeq → AfterStatus config proposal viewchange past (· = .executed)

def VotedByQuorum (config : ResDBConfig) (deliveries : List Delivery) (i : Int) (type : RequestType) : Prop :=
  ∃ voters : Finset Int, config.getMinDataReceiveNum ≤ voters.card ∧ i ∈ voters ∧
    ∀ j ∈ voters, ∃ d ∈ deliveries, OwnVote j type d

theorem About.concerns (isProposal : proposal.type = .prePrepare) (about : About proposal d) :
    Concerns proposal.currentView proposal.hash proposal.seq d.request := by
  rcases about.message with same | vote
  · rw [same]
    exact ⟨.inl isProposal, rfl, rfl, rfl, fun other => absurd isProposal other⟩
  · exact ⟨.inr vote.type, vote.seq, vote.hash, vote.view, fun _ => ⟨vote.least, vote.most⟩⟩

theorem About.eq_proposal (about : About proposal d) (type : d.request.type = .prePrepare) : d.request = proposal := by
  refine about.message.resolve_right fun vote => ?_
  rcases vote.type with other | other <;> cases type.symm.trans other

structure Gathered (config : ResDBConfig) (proposal : Request) (past : List Delivery) (c : TransactionCollector)
    (handed : List Request) : Prop where
  follows : Recollected config proposal.currentView proposal.hash proposal.seq (past.map fun d => d.request) c
  unhanded : c.status ≠ .executed → handed = []
  done : c.status = .executed → ∃ certs, handed = [{ proposal with committedCerts := proposal.committedCerts ++ certs }]

theorem Gathered.step (gathered : Gathered config proposal past c handed) (isProposal : proposal.type = .prePrepare)
    (about : ∀ u ∈ past ++ [d], About proposal u)
    (pending : proposal.seq < d.maxPendingExecutedSeq → c.status = .executed) :
    ∃ e given, receiveOne config (c, handed) d = .ok (e, given) ∧ Gathered config proposal (past ++ [d]) e given := by
  have here := about d (by simp)
  obtain ⟨view, limit, address, signature, request⟩ := d
  obtain rfl : view = proposal.currentView := here.view
  obtain ⟨result, ran, next⟩ := gathered.follows.step (here.concerns isProposal) address limit signature
    fun late => gathered.follows.done.mp (pending late)
  have collector := next.collector
  refine ⟨result.collector, handed ++ result.committed.toList, ?_, ?_⟩
  · unfold receiveOne
    rw [ran]
    rfl
  cases given : result.committed with
  | none =>
    have same : result.collector.status = .executed ↔ c.status = .executed := by
      rw [collector.done, gathered.follows.done, committedIn_append]
      refine ⟨fun done => (next.complete (committedIn_append.mpr done)).resolve_right (by simp [given]), .inl⟩
    rw [Option.toList_none, append_nil]
    refine ⟨by simpa using collector, fun active => gathered.unhanded (active ∘ same.mpr), ?_⟩
    exact fun done => gathered.done (same.mp done)
  | some r =>
    obtain ⟨fresh, done, u, member, type, -, certs, rfl⟩ := next.committed r given
    obtain ⟨e, inside, rfl⟩ := mem_map.mp member
    have same := (about e (mem_append_left _ inside)).eq_proposal type
    refine ⟨by simpa using collector, fun active => absurd (collector.done.mpr done) active, fun _ => ⟨certs, ?_⟩⟩
    rw [gathered.unhanded (fresh ∘ gathered.follows.done.mp), same]
    rfl

theorem AfterStatus.of_ran {good : TransactionStatue → Prop} (after : AfterStatus config proposal viewchange past good)
    (ran : receiveAll config proposal.seq viewchange past = .ok (c, handed)) : good c.status := by
  obtain ⟨e, given, other, holds⟩ := after
  rw [ran] at other
  cases other
  exact holds

theorem receiveAll_gathered (isProposal : proposal.type = .prePrepare) (about : ∀ d ∈ deliveries, About proposal d)
    (causal : ∀ past d later, deliveries = past ++ d :: later → Causal config proposal viewchange i past d) :
    ∃ c handed, receiveAll config proposal.seq viewchange deliveries = .ok (c, handed) ∧
      Gathered config proposal deliveries c handed := by
  induction deliveries using List.reverseRecOn with
  | nil => exact ⟨_, _, rfl, .fresh (by simp), fun _ => rfl, by simp⟩
  | append_singleton past d ih =>
    obtain ⟨c, handed, ran, gathered⟩ := ih (fun u member => about u (mem_append_left _ member))
      (fun front u later same => causal front u (later ++ [d]) (by simp [same]))
    have order := causal past d [] (by simp)
    obtain ⟨e, given, next, kept⟩ := gathered.step isProposal about fun late => (order.pending late).of_ran ran
    refine ⟨e, given, ?_, kept⟩
    rw [receiveAll, foldlM_append, ← receiveAll, ran]
    simp [bind, Except.bind, next, pure, Except.pure]

section Quorum

variable {type : RequestType} (voted : VotedByQuorum config deliveries i type)
include voted

theorem VotedByQuorum.own : ∃ front d later, deliveries = front ++ d :: later ∧ OwnVote i type d := by
  obtain ⟨voters, -, own, cast⟩ := voted
  obtain ⟨d, member, vote⟩ := cast i own
  obtain ⟨front, later, rfl⟩ := append_of_mem member
  exact ⟨front, d, later, rfl, vote⟩

theorem VotedByQuorum.card_le (isProposal : proposal.type = .prePrepare) (about : ∀ d ∈ deliveries, About proposal d) :
    config.getMinDataReceiveNum ≤ (voters type proposal.seq (deliveries.map fun d => d.request)).card := by
  obtain ⟨senders, large, -, cast⟩ := voted
  refine large.trans (Finset.card_le_card fun j member => ?_)
  obtain ⟨d, inside, kind, rfl⟩ := cast j member
  exact mem_voters.mpr ⟨d.request, mem_map_of_mem inside, kind, ((about d inside).concerns isProposal).seq, rfl⟩

end Quorum

theorem any_order_executes (isProposal : proposal.type = .prePrepare) (about : ∀ d ∈ deliveries, About proposal d)
    (causal : ∀ past d later, deliveries = past ++ d :: later → Causal config proposal viewchange i past d)
    (proposed : ∃ d ∈ deliveries, d.request = proposal) (prepared : VotedByQuorum config deliveries i .prepare)
    (committed : VotedByQuorum config deliveries i .commit) :
    ∃ c certs, receiveAll config proposal.seq viewchange deliveries =
        .ok (c, [{ proposal with committedCerts := proposal.committedCerts ++ certs }]) ∧
      c.status = .executed := by
  obtain ⟨c, handed, ran, gathered⟩ := receiveAll_gathered isProposal about causal
  have hasPrepared : PreparedIn config proposal.seq (deliveries.map fun d => d.request) := by
    obtain ⟨front, u, later, rfl, own⟩ := prepared.own
    obtain ⟨e, member, rfl⟩ := (causal front u later rfl).prepare own
    refine quorum_reached (fun _ _ => HasProposal.append) ⟨_, _, _, map_append, ?_⟩ (prepared.card_le isProposal about)
    exact ⟨⟨e.request, mem_map_of_mem member, isProposal, rfl⟩, own.1, ((about u (by simp)).concerns isProposal).seq⟩
  have hasCommitted : CommittedIn config proposal.seq (deliveries.map fun d => d.request) := by
    obtain ⟨front, u, later, rfl, own⟩ := committed.own
    obtain ⟨e, given, before, kept⟩ := receiveAll_gathered isProposal
      (fun e member => about e (mem_append_left _ member))
      (fun start e rest same => causal start e (rest ++ u :: later) (by simp [same]))
    have late := ((causal front u later rfl).commit own).of_ran before
    refine quorum_reached (fun _ _ => AtSomePoint.append) ⟨_, _, _, map_append, ?_⟩ (committed.card_le isProposal about)
    exact ⟨kept.follows.prepared.mp late, own.1, ((about u (by simp)).concerns isProposal).seq⟩
  have executed := gathered.follows.done.mpr hasCommitted
  obtain ⟨certs, same⟩ := gathered.done executed
  exact ⟨c, certs, same ▸ ran, executed⟩

def reordered : List Delivery :=
  [message .commit "a" 2, message .prepare "a" 3, message .prePrepare "a" 1, message .prepare "a" 2,
    message .commit "a" 2, message .prepare "a" 4, message .commit "a" 4, message .commit "a" 3]

instance (past : List Delivery) (good : TransactionStatue → Prop) [DecidablePred good] :
    Decidable (AfterStatus config proposal viewchange past good) :=
  decidable_of_iff (∃ p, receiveAll config proposal.seq viewchange past = .ok p ∧ good p.1.status)
    (by simp [AfterStatus])

instance : Decidable (VoteOn proposal request) := decidable_of_iff' _ (voteOn_iff proposal request)

instance : Decidable (About proposal d) := decidable_of_iff' _ (about_iff proposal d)

instance : Decidable (Causal config proposal viewchange i past d) :=
  decidable_of_iff' _ (causal_iff config proposal viewchange i past d)

theorem causal_of_indices (indices : ∀ k : Fin deliveries.length,
      Causal config proposal viewchange i (deliveries.take k) deliveries[k]) :
    ∀ past d later, deliveries = past ++ d :: later → Causal config proposal viewchange i past d := by
  intro past d later same
  subst same
  simpa using indices ⟨past.length, by simp⟩

theorem reordered_executes : ∃ c certs, receiveAll fourReplicas 1 true reordered =
      .ok (c, [{ (message .prePrepare "a" 1).request with committedCerts := certs }]) ∧ c.status = .executed :=
  @any_order_executes fourReplicas true (message .prePrepare "a" 1).request 4 reordered (by decide) (by decide)
    (causal_of_indices (by decide)) (by decide) ⟨{2, 3, 4}, by decide, by decide, by decide⟩
    ⟨{2, 3, 4}, by decide, by decide, by decide⟩

variable {r : Replica} {env : Env} {outcome : Outcome} {message : NewViewMessage} {e : TransactionCollector}
  {given : List Request} {s : Nat} {h : String}

structure CommitFor (s : Nat) (h : String) (d : Delivery) : Prop where
  valid : isValidMsg d.currentView d.maxPendingExecutedSeq d.request = true
  type : d.request.type = .commit
  seq : d.request.seq = s
  hash : d.request.hash = h

structure Ready (c : TransactionCollector) (s : Nat) : Prop where
  status : c.status = .readyCommit
  isCommitted : c.isCommitted = false
  seq : c.seq = s

theorem receiveOne_commit {d : Delivery} (ready : Ready c s) (commit : CommitFor s h d)
    (ran : receiveOne config (c, handed) d = .ok (e, given)) :
    e.status = .executed ∨ Ready e s ∧ e.senders .commit h = insert d.request.senderId (c.senders .commit h) := by
  unfold receiveOne TransactionCollector.addConsensusMsg at ran
  rw [if_pos commit.valid, bind_eq_ok] at ran
  obtain ⟨result, added, ran⟩ := ran
  cases ran
  have opened : Open c d.request := ⟨ready.isCommitted, by simp [ready.status], ready.seq.trans commit.seq.symm⟩
  have running : c.status ≠ .readyExecute := by simp [ready.status]
  cases addRequest_spec running added with
  | rejected closed => exact absurd opened closed
  | proposed _ _ type => cases commit.type.symm.trans type
  | candidate _ _ type => cases commit.type.symm.trans type
  | ignored _ proves => cases commit.type.symm.trans proves.2
  | voted =>
    refine .inr ⟨⟨ready.status, ready.isCommitted, ready.seq⟩, ?_⟩
    dsimp only
    rw [commit.type, commit.hash, setSender_senders]
  | prepared _ prepared => cases commit.type.symm.trans prepared.type
  | executed _ executed => exact .inl executed.after

theorem receiveMore_executed (done : c.status = .executed)
    (ran : deliveries.foldlM (receiveOne config) (c, handed) = .ok (e, given)) : e.status = .executed := by
  refine foldlM_invariant (fun state => state.1.status = .executed) ran done ?_
  intro state d next _ executed step
  simp only [receiveOne, addConsensusMsg_executed executed, bind, Except.bind] at step
  cases step
  exact executed

theorem commits_counted (ready : Ready c s) (commits : ∀ d ∈ deliveries, CommitFor s h d)
    (ran : deliveries.foldlM (receiveOne config) (c, handed) = .ok (e, given)) :
    e.status = .executed ∨ c.senders .commit h ⊆ e.senders .commit h ∧
      ∀ d ∈ deliveries, d.request.senderId ∈ e.senders .commit h := by
  induction deliveries generalizing c handed with
  | nil =>
    cases ran
    exact .inr ⟨Finset.Subset.refl _, by simp⟩
  | cons d rest ih =>
    rw [foldlM_cons, bind_eq_ok] at ran
    obtain ⟨⟨next, sofar⟩, first, ran⟩ := ran
    rcases receiveOne_commit ready (commits d mem_cons_self) first with done | ⟨still, senders⟩
    · exact .inl (receiveMore_executed done ran)
    · rcases ih still (fun u member => commits u (mem_cons_of_mem _ member)) ran with done | ⟨grown, counted⟩
      · exact .inl done
      · rw [senders] at grown
        refine .inr ⟨(Finset.subset_insert _ _).trans grown, ?_⟩
        intro u member
        rcases mem_cons.mp member with rfl | later
        · exact grown (Finset.mem_insert_self _ _)
        · exact counted u later

structure AllAccept (R : Finset Int) (replica : Int → Replica) (env : Int → Env) (request : Int → Request)
    (outcome : Int → Outcome) (message : NewViewMessage) : Prop where
  self : ∀ i ∈ R, (replica i).config.selfId = i
  parsed : ∀ i ∈ R, (env i).codec.parseNewView (request i).data = some message
  ran : ∀ i ∈ R, (replica i).processNewView (env i) (request i) = .ok (outcome i)
  accepted : ∀ i ∈ R, (outcome i).ret ≠ -2

def OwnVotes (R : Finset Int) (outcome : Int → Outcome) : Prop :=
  ∀ i ∈ R, ∀ q, .broadCast q ∈ (outcome i).sent → q.type = .commit → q.senderId = i

def CountsEach (R : Finset Int) (outcome : Int → Outcome) : Prop :=
  ∀ (config : ResDBConfig) (s : Nat) (h : String) (c e : TransactionCollector) (deliveries : List Delivery)
    (handed given : List Request), Ready c s → (∀ d ∈ deliveries, CommitFor s h d) →
    (∀ i ∈ R, ∃ d ∈ deliveries, .broadCast d.request ∈ (outcome i).sent) →
    deliveries.foldlM (receiveOne config) (c, handed) = .ok (e, given) →
    e.status = .executed ∨ ∀ i ∈ R, i ∈ e.senders .commit h

theorem redo_sent {state state' : Replica × List Outgoing} (ran : Replica.redo state request = .ok state')
    (q : Request) : .broadCast q ∈ state'.2 ↔ .broadCast q ∈ state.2 ∨ q = request ∧ q.type ≠ .prePrepare := by
  obtain ⟨r, sent⟩ := state
  unfold Replica.redo at ran
  dsimp only at ran
  split at ran
  · rename_i null
    split at ran
    · cases ran
    obtain ⟨hashes, -, ran⟩ := bind_eq_ok.mp ran
    cases ran
    have none : ¬ (q = request ∧ q.type ≠ .prePrepare) := fun ⟨same, other⟩ => other (same ▸ null)
    simp [none]
  · rename_i vote
    cases ran
    simp only [mem_append, mem_singleton, Outgoing.broadCast.injEq]
    constructor
    · exact Or.imp_right fun same => ⟨same, same ▸ vote⟩
    · exact Or.imp_right fun both => both.1

theorem foldlM_redo_sent {requests : List Request} {state state' : Replica × List Outgoing}
    (ran : requests.foldlM Replica.redo state = .ok state') (q : Request) :
    .broadCast q ∈ state'.2 ↔ .broadCast q ∈ state.2 ∨ q ∈ requests ∧ q.type ≠ .prePrepare := by
  induction requests generalizing state with
  | nil =>
    simp only [foldlM_nil, pure, Except.pure, Except.ok.injEq] at ran
    simp [ran]
  | cons request rest ih =>
    rw [foldlM_cons, bind_eq_ok] at ran
    obtain ⟨next, first, ran⟩ := ran
    rw [ih ran, redo_sent first, mem_cons, or_assoc, ← or_and_right]

theorem newView_broadcasts (parsed : env.codec.parseNewView request.data = some message)
    (ran : r.processNewView env request = .ok outcome) (accepted : outcome.ret ≠ -2) (q : Request) :
    .broadCast q ∈ outcome.sent ↔ q ∈ message.request ∧ q.type ≠ .prePrepare := by
  unfold Replica.processNewView at ran
  simp only [parsed] at ran
  obtain ⟨checked, -, ran⟩ := bind_eq_ok.mp ran
  cases checked with
  | none =>
    cases ran
    exact absurd rfl accepted
  | some maxSeq =>
    dsimp only at ran
    unfold Replica.installNewView at ran
    obtain ⟨⟨redone, sent⟩, loop, ran⟩ := bind_eq_ok.mp ran
    cases ran
    simpa using foldlM_redo_sent loop q

theorem redo_votes_own {R : Finset Int} {replica : Int → Replica} {env : Int → Env} {request : Int → Request}
    {outcome : Int → Outcome} (all : AllAccept R replica env request outcome message) :
    (OwnVotes R outcome ∧ CountsEach R outcome) ↔
      ∀ q ∈ message.request, q.type = .commit → ∀ i ∈ R, q.senderId = i := by
  have sends {i : Int} (member : i ∈ R) (q : Request) :=
    newView_broadcasts (all.parsed i member) (all.ran i member) (all.accepted i member) q
  constructor
  · rintro ⟨own, -⟩ q listed commit i member
    exact own i member q ((sends member q).mpr ⟨listed, by simp [commit]⟩) commit
  · intro named
    refine ⟨fun i member q sent commit => named q ((sends member q).mp sent).1 commit i member, ?_⟩
    intro config s h c e deliveries handed given ready commits delivered ran
    rcases commits_counted ready commits ran with executed | ⟨-, counted⟩
    · exact .inl executed
    · refine .inr fun i member => ?_
      obtain ⟨d, inside, sent⟩ := delivered i member
      rw [← named d.request ((sends member d.request).mp sent).1 (commits d inside).type i member]
      exact counted d inside

def provenPrimary : Replica := replicaTwo.setViewChangeManager ((((({} : ViewChangeManager).addRequest
    { viewChangeZero with preparedMsg := [⟨1, [prepareBy 1, prepareBy 2, prepareBy 3]⟩] } 2).1.addRequest
    viewChangeZero 3).1).addRequest viewChangeZero 4).1

def redoCommit : Request := { type := .commit, seq := 1, currentView := 2, hash := "a", senderId := 2 }

def replicaNumber (i : Int) : Replica := Replica.create (viewConfig i)

theorem ownNewView_votes : ∃ outcome : Int → Outcome,
    AllAccept {2} replicaNumber (fun _ => newViewEnv threeSigners) (fun _ => newViewFrom 2) outcome threeSigners ∧
      OwnVotes {2} outcome ∧ CountsEach {2} outcome := by
  obtain ⟨outcome, ran, accepted⟩ : ∃ outcome, (replicaNumber 2).processNewView (newViewEnv threeSigners)
      (newViewFrom 2) = .ok outcome ∧ outcome.ret ≠ -2 := by decide
  have all : AllAccept {2} replicaNumber (fun _ => newViewEnv threeSigners) (fun _ => newViewFrom 2)
      (fun _ => outcome) threeSigners := by
    constructor
    · decide
    · exact fun _ _ => rfl
    · intro i member
      rw [Finset.mem_singleton.mp member]
      exact ran
    · exact fun _ _ => accepted
  exact ⟨fun _ => outcome, all, (redo_votes_own all).mpr (by decide)⟩

def readyCollector : TransactionCollector := { seq := 1, enableViewchange := true, status := .readyCommit }

def redoDelivery : Delivery :=
  { currentView := 2, maxPendingExecutedSeq := 0, signature := ⟨2, "signature"⟩, request := redoCommit }

theorem redoVotes_collapse : ∃ outcome : Int → Outcome, (∃ p', provenPrimary.sendNewViewMsg plainEnv 2 =
      .ok (p', [newViewOf provenPrimary plainEnv 2 threeSigners.request])) ∧
    threeSigners = { builtMessage provenPrimary 2 with request := threeSigners.request } ∧
    AllAccept {3, 4} replicaNumber (fun _ => newViewEnv threeSigners) (fun _ => newViewFrom 2) outcome threeSigners ∧
      ¬ OwnVotes {3, 4} outcome ∧ ¬ CountsEach {3, 4} outcome := by
  obtain ⟨three, ranThree, acceptedThree⟩ : ∃ outcome, (replicaNumber 3).processNewView (newViewEnv threeSigners)
      (newViewFrom 2) = .ok outcome ∧ outcome.ret ≠ -2 := by decide
  obtain ⟨four, ranFour, acceptedFour⟩ : ∃ outcome, (replicaNumber 4).processNewView (newViewEnv threeSigners)
      (newViewFrom 2) = .ok outcome ∧ outcome.ret ≠ -2 := by decide
  have all : AllAccept {3, 4} replicaNumber (fun _ => newViewEnv threeSigners) (fun _ => newViewFrom 2)
      (fun i => if i = 3 then three else four) threeSigners := by
    constructor
    · decide
    · exact fun _ _ => rfl
    · intro i member
      rcases Finset.mem_insert.mp member with rfl | other
      · exact ranThree
      · rw [Finset.mem_singleton.mp other]
        exact ranFour
    · intro i _
      split
      · exact acceptedThree
      · exact acceptedFour
  have sends (i : Int) (member : i ∈ ({3, 4} : Finset Int)) :
      .broadCast redoCommit ∈ (if i = 3 then three else four).sent :=
    (newView_broadcasts (all.parsed i member) (all.ran i member) (all.accepted i member) redoCommit).mpr (by decide)
  refine ⟨_, by decide, by decide, all, ?_, ?_⟩
  · intro own
    exact absurd (own 3 (by decide) redoCommit (sends 3 (by decide)) rfl) (by decide)
  · intro counts
    obtain ⟨⟨e, given⟩, ran, waiting, absent⟩ : ∃ state,
        [redoDelivery, redoDelivery].foldlM (receiveOne fourReplicas) (readyCollector, []) = .ok state ∧
          state.1.status ≠ .executed ∧ 3 ∉ state.1.senders .commit "a" := by decide
    have commits : ∀ d ∈ [redoDelivery, redoDelivery], CommitFor 1 "a" d := by
      intro d member
      rw [eq_of_mem_replicate (n := 2) member]
      exact ⟨by decide, rfl, rfl, rfl⟩
    rcases counts fourReplicas 1 "a" readyCollector e _ [] given ⟨rfl, rfl, rfl⟩ commits
      (fun i member => ⟨redoDelivery, by simp, sends i member⟩) ran with executed | counted
    · exact waiting executed
    · exact absent (counted 3 (by decide))

end ResilientDB.Proof
