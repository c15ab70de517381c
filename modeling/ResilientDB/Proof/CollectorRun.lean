import ResilientDB.Library.TransitionSystem
import ResilientDB.Proof.Collector

namespace ResilientDB.Proof
open Model Library

variable {config : ResDBConfig} {seq : Nat} {viewchange : Bool} {c : TransactionCollector} {d : Delivery}
  {hash : String}

abbrev CollectorStep := Transition TransactionCollector Delivery

def collecting (config : ResDBConfig) (seq : Nat) (viewchange : Bool) : System TransactionCollector Delivery where
  initial c := c = { seq := seq, enableViewchange := viewchange }
  step c d c' := ∃ result, c.addConsensusMsg config d = .ok result ∧ result.collector = c'

def Hands (config : ResDBConfig) (t : CollectorStep) (r : Request) : Prop :=
  ∃ result, t.before.addConsensusMsg config t.event = .ok result ∧ result.committed = some r

def DeliveredVote (trace : List CollectorStep) (type : RequestType) (hash : String) (i : Int) : Prop :=
  ∃ t ∈ trace, t.event.request.type = type ∧ t.event.request.hash = hash ∧ t.event.request.senderId = i

def DeliveredQuorum (config : ResDBConfig) (trace : List CollectorStep) (type : RequestType) (hash : String) : Prop :=
  ∃ voters : Finset Int, config.getMinDataReceiveNum ≤ voters.card ∧ ∀ i ∈ voters, DeliveredVote trace type hash i

def BackedByQuorums (config : ResDBConfig) (t : CollectorStep) (past : List CollectorStep) : Prop :=
  (∀ r, Hands config t r → DeliveredQuorum config (t :: past) .commit r.hash ∧
    DeliveredQuorum config (t :: past) .prepare r.hash) ∧
  (t.before.status ≠ .executed → t.after.status = .executed → ∃ r, Hands config t r)

def CompletesCommit (config : ResDBConfig) (c : TransactionCollector) (d : Delivery) : Prop :=
  isValidMsg d.currentView d.maxPendingExecutedSeq d.request = true ∧ Open c d.request ∧
    d.request.type = .commit ∧ c.status = .readyCommit ∧ config.getMinDataReceiveNum ≤
      (insert d.request.senderId (c.senders .commit d.request.hash)).card
deriving Decidable

def CommitMatches (config : ResDBConfig) (c : TransactionCollector) (d : Delivery) : Prop :=
  CompletesCommit config c d → mainHash c = some d.request.hash ∧
    config.getMinDataReceiveNum ≤ (c.senders .prepare d.request.hash).card
deriving Decidable

theorem addConsensusMsg_spec {result : AddResult}
    (running : c.status ≠ .readyExecute) (ran : c.addConsensusMsg config d = .ok result) :
    result = ⟨c, -2, false, none⟩ ∨ (isValidMsg d.currentView d.maxPendingExecutedSeq d.request = true ∧
        Added config c d.request d.signature result) := by
  unfold TransactionCollector.addConsensusMsg at ran
  split_ifs at ran with valid
  · exact .inr ⟨valid, addRequest_spec running ran⟩
  · exact .inl (Except.ok.inj ran).symm

theorem collecting_running {trace : List CollectorStep}
    (run : (collecting config seq viewchange).Run trace c) : c.status ≠ .readyExecute := by
  refine run.invariant (fun _ => True) (fun c => c.status ≠ .readyExecute) ?_ ?_ (fun _ _ => trivial)
  · rintro c rfl
    simp
  · rintro c d c' running ⟨result, ran, rfl⟩ -
    rcases addConsensusMsg_spec running ran with rfl | ⟨-, added⟩
    · exact running
    · exact added.running running

def LetIn (t : CollectorStep) : Prop :=
  isValidMsg t.event.currentView t.event.maxPendingExecutedSeq t.event.request = true ∧ Open t.before t.event.request
deriving Decidable

theorem senders_letIn {trace : List CollectorStep} (run : (collecting config seq viewchange).Run trace c)
    {type : RequestType} {i : Int} (member : i ∈ c.senders type hash) : ∃ u ∈ trace, LetIn u ∧
      u.event.request.type = type ∧ u.event.request.hash = hash ∧ u.event.request.senderId = i := by
  induction run with
  | initial first =>
    cases first
    simp at member
  | @next trace c c' d earlier step ih =>
    obtain ⟨result, ran, rfl⟩ := step
    rcases addConsensusMsg_spec (collecting_running earlier) ran with rfl | ⟨valid, added⟩
    · obtain ⟨u, found, vote⟩ := ih member
      exact ⟨u, List.mem_cons_of_mem _ found, vote⟩
    · rcases added.senders member with counted | ⟨rfl, rfl, rfl, isOpen⟩
      · obtain ⟨u, found, vote⟩ := ih counted
        exact ⟨u, List.mem_cons_of_mem _ found, vote⟩
      · exact ⟨_, List.mem_cons_self, ⟨valid, isOpen⟩, rfl, rfl, rfl⟩

theorem deliveredQuorum_of_card {trace : List CollectorStep}
    (run : (collecting config seq viewchange).Run trace c) {type : RequestType}
    (quorum : config.getMinDataReceiveNum ≤ (c.senders type hash).card) :
    DeliveredQuorum config trace type hash :=
  ⟨c.senders type hash, quorum, fun _ member =>
    let ⟨u, found, _, vote⟩ := senders_letIn run member
    ⟨u, found, vote⟩⟩

theorem executed_backed {e : TransactionCollector} {past : List CollectorStep}
    {handed : Option Request} (ran : (collecting config seq viewchange).Run (⟨c, d, e⟩ :: past) e)
    (earlier : (collecting config seq viewchange).Run past c) (matching : CommitMatches config c d)
    (valid : isValidMsg d.currentView d.maxPendingExecutedSeq d.request = true) (isOpen : Open c d.request)
    (executed : Executed config c d.request e handed) :
    ∃ r, handed = some r ∧ DeliveredQuorum config (⟨c, d, e⟩ :: past) .commit r.hash ∧
      DeliveredQuorum config (⟨c, d, e⟩ :: past) .prepare r.hash := by
  have votes := executed.quorum
  rw [executed.type, setSender_senders] at votes
  obtain ⟨main, preparedQuorum⟩ := matching ⟨valid, isOpen, executed.type, executed.before, votes⟩
  obtain ⟨info, stored, sameHash⟩ := mainHash_eq_some.mp main
  obtain ⟨-, given⟩ := executed.stored info stored
  rw [← sameHash] at preparedQuorum
  refine ⟨_, given, ?_, ?_⟩
  · apply deliveredQuorum_of_card ran
    have counted := executed.quorum
    rw [← executed.senders, ← sameHash] at counted
    exact counted
  · obtain ⟨voters, large, delivered⟩ := deliveredQuorum_of_card earlier preparedQuorum
    refine ⟨voters, large, fun i member => ?_⟩
    obtain ⟨u, found, vote⟩ := delivered i member
    exact ⟨u, List.mem_cons_of_mem _ found, vote⟩

def fourReplicas : ResDBConfig where
  replicas := [⟨1⟩, ⟨2⟩, ⟨3⟩, ⟨4⟩]
  selfInfo := ⟨4⟩

def message (type : RequestType) (hash : String) (sender : Int) : Delivery where
  currentView := 1
  maxPendingExecutedSeq := 0
  signature := ⟨sender, "signature"⟩
  request := { type := type, hash := hash, senderId := sender, seq := 1, currentView := 1 }

def equivocation : List Delivery :=
  [message .prePrepare "b" 1, message .prepare "a" 1, message .prepare "a" 2, message .prepare "a" 3,
    message .commit "a" 2, message .commit "a" 3, message .commit "a" 4]

def collectorAct (config : ResDBConfig) (c : TransactionCollector) (d : Delivery) : Option TransactionCollector :=
  (c.addConsensusMsg config d).toOption.map fun result => result.collector

theorem collectorAct_sound (c : TransactionCollector) (d : Delivery) (c' : TransactionCollector)
    (acted : collectorAct config c d = some c') : (collecting config seq viewchange).step c d c' := by
  obtain ⟨result, ran, same⟩ := Option.map_eq_some_iff.mp acted
  exact ⟨result, eq_ok_of_toOption ran, same⟩

def HandsHash (config : ResDBConfig) (t : CollectorStep) (hash : String) : Prop :=
  ∃ result, t.before.addConsensusMsg config t.event = .ok result ∧ ∃ r, result.committed = some r ∧ r.hash = hash
deriving Decidable

theorem HandsHash.hands {t : CollectorStep} (handed : HandsHash config t hash) :
    ∃ r, Hands config t r ∧ r.hash = hash := by
  obtain ⟨result, ran, r, committed, same⟩ := handed
  exact ⟨r, ⟨result, ran, committed⟩, same⟩

def sameProposal : List Delivery :=
  [message .prePrepare "a" 1, message .prepare "a" 1, message .prepare "a" 2, message .prepare "a" 3,
    message .commit "a" 2, message .commit "a" 3, message .commit "a" 4]

end ResilientDB.Proof
