import ResilientDB.Library.Selection
import ResilientDB.Proof.CollectorRun

namespace ResilientDB.Proof
open Model Library List

variable {config : ResDBConfig} {v n : Nat} {hash : String} {past : List Request} {message : Request}
  {c : TransactionCollector} {type : RequestType}

def voters (type : RequestType) (n : Nat) (past : List Request) : Finset Int :=
  ((past.filter fun message => message.type = type ∧ message.seq = n).map fun message => message.senderId).toFinset

def HasProposal (n : Nat) (past : List Request) : Prop := ∃ message ∈ past, message.type = .prePrepare ∧ message.seq = n
deriving Decidable

def QuorumAt (config : ResDBConfig) (type : RequestType) (n : Nat) (past : List Request) (message : Request) : Prop :=
  message.type = type ∧ message.seq = n ∧ config.getMinDataReceiveNum ≤ (voters type n (past ++ [message])).card
deriving Decidable

def PreparedIn (config : ResDBConfig) (n : Nat) : List Request → Prop :=
  AtSomePoint fun past message => HasProposal n past ∧ QuorumAt config .prepare n past message

instance : Decidable (PreparedIn config n past) := inferInstanceAs (Decidable (AtSomePoint _ _))

def CommittedIn (config : ResDBConfig) (n : Nat) : List Request → Prop :=
  AtSomePoint fun past message => PreparedIn config n past ∧ QuorumAt config .commit n past message

instance : Decidable (CommittedIn config n past) := inferInstanceAs (Decidable (AtSomePoint _ _))

theorem mem_voters {i : Int} : i ∈ voters type n past ↔
    ∃ message ∈ past, message.type = type ∧ message.seq = n ∧ message.senderId = i := by
  simp [voters, and_assoc]

theorem voters_append : voters type n (past ++ [message]) =
    if message.type = type ∧ message.seq = n then insert message.senderId (voters type n past)
    else voters type n past := by
  unfold voters
  rw [filter_append, map_append, toFinset_append]
  split_ifs with counts
  · rw [filter_cons_of_pos (by simpa using counts), Finset.union_comm]
    rfl
  · rw [filter_cons_of_neg (by simpa using counts)]
    exact Finset.union_empty _

theorem hasProposal_append : HasProposal n (past ++ [message]) ↔
    HasProposal n past ∨ message.type = .prePrepare ∧ message.seq = n := by
  simp [HasProposal, or_and_right, exists_or]

theorem preparedIn_append : PreparedIn config n (past ++ [message]) ↔
    PreparedIn config n past ∨ HasProposal n past ∧ QuorumAt config .prepare n past message :=
  atSomePoint_append

theorem committedIn_append : CommittedIn config n (past ++ [message]) ↔
    CommittedIn config n past ∨ PreparedIn config n past ∧ QuorumAt config .commit n past message :=
  atSomePoint_append

theorem HasProposal.append {rest : List Request} (proposed : HasProposal n past) : HasProposal n (past ++ rest) := by
  obtain ⟨message, member, here⟩ := proposed
  exact ⟨message, mem_append_left _ member, here⟩

theorem quorum_reached {good : List Request → Prop} (grows : ∀ front rest, good front → good (front ++ rest))
    (own : AtSomePoint (fun front message => good front ∧ message.type = type ∧ message.seq = n) past)
    (quorum : config.getMinDataReceiveNum ≤ (voters type n past).card) :
    AtSomePoint (fun front message => good front ∧ QuorumAt config type n front message) past := by
  induction past using List.reverseRecOn with
  | nil => exact absurd own atSomePoint_nil
  | append_singleton past last ih =>
    rw [atSomePoint_append] at own ⊢
    by_cases here : last.type = type ∧ last.seq = n
    · refine .inr ⟨?_, here.1, here.2, quorum⟩
      rcases own with ⟨front, message, rest, rfl, holds, -⟩ | now
      · exact grows front _ holds
      · exact now.1
    · rw [voters_append, if_neg here] at quorum
      exact .inl (ih (own.resolve_right fun now => here now.2) quorum)

structure Concerns (v : Nat) (hash : String) (n : Nat) (message : Request) : Prop where
  phase : IsPhase message.type
  seq : message.seq = n
  hash : message.hash = hash
  view : message.currentView = v
  range : message.type ≠ .prePrepare → 0 ≤ message.senderId ∧ message.senderId < 128

structure Recollected (config : ResDBConfig) (v : Nat) (hash : String) (n : Nat) (past : List Request)
    (c : TransactionCollector) : Prop where
  seq : c.seq = n
  running : c.status ≠ .readyExecute
  view : c.view = 0 ∨ c.view = v
  waiting : c.status = .none → c.mainRequest = .empty
  proposed : c.status ≠ .none ↔ HasProposal n past
  stored : c.status ≠ .none → c.status ≠ .executed → ∃ proposal ∈ past, proposal.type = .prePrepare ∧
    proposal.seq = n ∧ proposal.hash = hash ∧ ∃ signature, c.mainRequest = .stored ⟨proposal, signature⟩
  unprepared : c.status ≤ .readyPrepare → c.isPrepared = false
  uncommitted : c.status ≠ .executed → c.isCommitted = false
  prepares : c.status ≤ .readyPrepare → c.senders .prepare hash = voters .prepare n past
  commits : c.status ≠ .executed → c.senders .commit hash = voters .commit n past
  prepared : .readyCommit ≤ c.status ↔ PreparedIn config n past
  done : c.status = .executed ↔ CommittedIn config n past

theorem voters_unseen (unseen : ∀ message ∈ past, message.seq ≠ n) (type : RequestType) : voters type n past = ∅ := by
  have nothing : past.filter (fun message => message.type = type ∧ message.seq = n) = [] := by
    rw [filter_eq_nil_iff]
    intro message member here
    exact unseen message member (of_decide_eq_true here).2
  unfold voters
  rw [nothing]
  rfl

theorem not_atSomePoint_unseen {good : List Request → Request → Prop} (unseen : ∀ message ∈ past, message.seq ≠ n)
    (here : ∀ front message, good front message → QuorumAt config type n front message) :
    ¬ AtSomePoint good past := by
  rintro ⟨front, message, rest, rfl, holds⟩
  exact unseen message (by simp) (here front message holds).2.1

theorem Recollected.fresh {viewchange : Bool} (unseen : ∀ message ∈ past, message.seq ≠ n) :
    Recollected config v hash n past { seq := n, enableViewchange := viewchange } where
  seq := rfl
  running := by simp
  view := .inl rfl
  waiting := fun _ => rfl
  proposed := iff_of_false (by simp) fun ⟨message, member, _, same⟩ => unseen message member same
  stored := by simp
  unprepared := fun _ => rfl
  uncommitted := fun _ => rfl
  prepares := fun _ => (voters_unseen unseen .prepare).symm
  commits := fun _ => (voters_unseen unseen .commit).symm
  prepared := iff_of_false (fun late => by cases (show TransactionStatue.readyCommit ≤ .none from late))
    (not_atSomePoint_unseen unseen fun _ _ holds => holds.2)
  done := iff_of_false (by simp) (not_atSomePoint_unseen unseen fun _ _ holds => holds.2)

theorem status_cases {status : TransactionStatue} (early : ¬ .readyCommit ≤ status) :
    status = .none ∨ status = .readyPrepare := by
  cases status with
  | none => exact .inl rfl
  | readyPrepare => exact .inr rfl
  | _ => exact absurd (by decide) early

theorem le_readyPrepare_of_not {status : TransactionStatue} (early : ¬ .readyCommit ≤ status) :
    status ≤ .readyPrepare := by
  rcases status_cases early with rfl | rfl <;> decide

theorem eq_readyCommit {status : TransactionStatue} (late : .readyCommit ≤ status) (running : status ≠ .readyExecute)
    (active : status ≠ .executed) : status = .readyCommit := by
  cases status with
  | readyCommit => rfl
  | readyExecute => exact absurd rfl running
  | executed => exact absurd rfl active
  | _ => exact absurd late (by decide)

section Steps

variable (recollected : Recollected config v hash n past c)
include recollected

theorem Recollected.stored_append (started : c.status ≠ .none) (active : c.status ≠ .executed) :
    ∃ proposal ∈ past ++ [message], proposal.type = .prePrepare ∧ proposal.seq = n ∧ proposal.hash = hash ∧
      ∃ signature, c.mainRequest = .stored ⟨proposal, signature⟩ := by
  obtain ⟨request, member, rest⟩ := recollected.stored started active
  exact ⟨request, mem_append_left _ member, rest⟩

theorem Recollected.grow (proposal : c.status = .none → ¬ (message.type = .prePrepare ∧ message.seq = n))
    (prepare : c.status ≤ .readyPrepare → ¬ (message.type = .prepare ∧ message.seq = n))
    (commit : c.status ≠ .executed → ¬ (message.type = .commit ∧ message.seq = n)) :
    Recollected config v hash n (past ++ [message]) c where
  seq := recollected.seq
  running := recollected.running
  view := recollected.view
  waiting := recollected.waiting
  proposed := by
    rw [hasProposal_append, ← recollected.proposed]
    refine ⟨.inl, fun known waits => ?_⟩
    exact known.elim (fun started => started waits) (proposal waits)
  stored := recollected.stored_append
  unprepared := recollected.unprepared
  uncommitted := recollected.uncommitted
  prepares := fun early => by
    rw [voters_append, if_neg (prepare early)]
    exact recollected.prepares early
  commits := fun active => by
    rw [voters_append, if_neg (commit active)]
    exact recollected.commits active
  prepared := by
    rw [preparedIn_append, ← recollected.prepared]
    refine ⟨.inl, fun known => ?_⟩
    by_contra early
    exact known.elim early fun here => prepare (le_readyPrepare_of_not early) ⟨here.2.1, here.2.2.1⟩
  done := by
    rw [committedIn_append, ← recollected.done]
    refine ⟨.inl, fun known => ?_⟩
    by_contra active
    exact known.elim active fun here => commit active ⟨here.2.1, here.2.2.1⟩

theorem Recollected.first {signature : SignatureInfo} (concerns : Concerns v hash n message)
    (isProposal : message.type = .prePrepare) (waiting : c.status = .none) :
    Recollected config v hash n (past ++ [message])
      { c with mainRequest := .stored ⟨message, signature⟩, view := message.currentView, status := .readyPrepare } where
  seq := recollected.seq
  running := by simp
  view := .inr concerns.view
  waiting := by simp
  proposed := iff_of_true (by simp) (hasProposal_append.mpr (.inr ⟨isProposal, concerns.seq⟩))
  stored := fun _ _ => ⟨message, by simp, isProposal, concerns.seq, concerns.hash, signature, rfl⟩
  unprepared := fun _ => recollected.unprepared (by rw [waiting]; decide)
  uncommitted := fun _ => recollected.uncommitted (by simp [waiting])
  prepares := fun _ => by
    rw [voters_append, if_neg (by simp [isProposal])]
    exact recollected.prepares (by rw [waiting]; decide)
  commits := fun _ => by
    rw [voters_append, if_neg (by simp [isProposal])]
    exact recollected.commits (by simp [waiting])
  prepared := by
    rw [preparedIn_append, ← recollected.prepared, waiting]
    dsimp only
    exact iff_of_false (by decide) fun known => known.elim (by decide) fun here => by
      cases isProposal.symm.trans here.2.1
  done := by
    rw [committedIn_append, ← recollected.done, waiting]
    exact iff_of_false (by simp) fun known => known.elim (by simp) fun here => by
      cases isProposal.symm.trans here.2.1

end Steps

theorem senders_setSender (concerns : Concerns v hash n message) (before : c.senders type hash = voters type n past) :
    (c.setSender message.type message.hash message.senderId).senders type hash = voters type n (past ++ [message]) := by
  rw [voters_append, concerns.hash]
  by_cases same : message.type = type
  · rw [if_pos ⟨same, concerns.seq⟩, same, setSender_senders, before]
  · rw [if_neg fun here => same here.1, ← before]
    ext i
    simp [mem_setSender, Ne.symm same]

theorem Recollected.hasProposal (recollected : Recollected config v hash n past c)
    (other : message.type ≠ .prePrepare) : c.status ≠ .none ↔ HasProposal n (past ++ [message]) := by
  rw [hasProposal_append, recollected.proposed]
  simp [other]

section Votes

variable {signature : SignatureInfo} (recollected : Recollected config v hash n past c)
  (concerns : Concerns v hash n message)
include recollected concerns

theorem Recollected.counted (other : message.type ≠ .prePrepare) (short : ¬ Due config c message) :
    Recollected config v hash n (past ++ [message]) (withVote c message signature) := by
  have quorum {type : RequestType} (before : c.senders type hash = voters type n past)
      (here : QuorumAt config type n past message) : config.getMinDataReceiveNum ≤ voteCount c message := by
    obtain ⟨rfl, -, enough⟩ := here
    rw [← senders_setSender concerns before, ← concerns.hash, setSender_senders] at enough
    exact enough
  exact {
    seq := recollected.seq
    running := recollected.running
    view := recollected.view
    waiting := recollected.waiting
    proposed := recollected.hasProposal other
    stored := recollected.stored_append
    unprepared := recollected.unprepared
    uncommitted := recollected.uncommitted
    prepares := fun early => senders_setSender concerns (recollected.prepares early)
    commits := fun active => senders_setSender concerns (recollected.commits active)
    prepared := by
      rw [preparedIn_append, ← recollected.prepared]
      refine ⟨.inl, fun known => ?_⟩
      by_contra early
      rcases known with late | ⟨proposed, here⟩
      · exact early late
      · have ready : c.status = .readyPrepare := (status_cases early).resolve_left (recollected.proposed.mpr proposed)
        exact short ⟨quorum (recollected.prepares (le_readyPrepare_of_not early)) here, .inl ⟨here.1, ready⟩⟩
    done := by
      rw [committedIn_append, ← recollected.done]
      refine ⟨.inl, fun known => ?_⟩
      by_contra active
      rcases known with late | ⟨prepared, here⟩
      · exact active late
      · have ready := eq_readyCommit (recollected.prepared.mpr prepared) recollected.running active
        exact short ⟨quorum (recollected.commits active) here, .inr ⟨here.1, ready⟩⟩ }

theorem Recollected.main (ready : c.status = .readyPrepare) : mainHash c = some message.hash := by
  obtain ⟨proposal, -, -, -, same, signature, stored⟩ := recollected.stored (by simp [ready]) (by simp [ready])
  exact mainHash_eq_some.mpr ⟨_, stored, same.trans concerns.hash.symm⟩

theorem Recollected.prepares_here {main : MainRequest} {others : List RequestInfo}
    (prepared : Prepared config c message (withQuorum c message signature main others)) :
    Recollected config v hash n (past ++ [message]) (withQuorum c message signature main others) := by
  have other : message.type ≠ .prePrepare := by simp [prepared.type]
  have started : c.status ≠ .none := by simp [prepared.before]
  have active : c.status ≠ .executed := by simp [prepared.before]
  have early : ¬ TransactionStatue.readyCommit ≤ .readyPrepare := by decide
  obtain rfl : main = c.mainRequest := prepared.same (recollected.main concerns prepared.before)
  exact {
    seq := recollected.seq
    running := by simp
    view := recollected.view
    waiting := by simp
    proposed := iff_of_true (by simp) ((recollected.hasProposal other).mp started)
    stored := fun _ _ => recollected.stored_append started active
    unprepared := fun before => absurd before early
    uncommitted := fun _ => recollected.uncommitted active
    prepares := fun before => absurd before early
    commits := fun _ => senders_setSender concerns (recollected.commits active)
    prepared := by
      have quorum := prepared.quorum
      rw [concerns.hash, prepared.senders,
        senders_setSender concerns (recollected.prepares (by rw [prepared.before]; decide))] at quorum
      rw [preparedIn_append]
      exact iff_of_true (Nat.le_refl _) (.inr ⟨recollected.proposed.mp started, prepared.type, concerns.seq, quorum⟩)
    done := by
      rw [committedIn_append, ← recollected.done]
      refine iff_of_false (by simp) fun known => known.elim active fun here => ?_
      cases prepared.type.symm.trans here.2.1 }

theorem Recollected.executes_here {main : MainRequest} {committed : Bool} {handed : Option Request}
    (executed : Executed config c message (withCommit c message main committed) handed) :
    Recollected config v hash n (past ++ [message]) (withCommit c message main committed) := by
  have other : message.type ≠ .prePrepare := by simp [executed.type]
  have started : c.status ≠ .none := by simp [executed.before]
  have active : c.status ≠ .executed := by simp [executed.before]
  have late : .readyCommit ≤ c.status := by
    rw [executed.before]
    decide
  have early : ¬ TransactionStatue.executed ≤ .readyPrepare := by decide
  exact {
    seq := recollected.seq
    running := by simp
    view := recollected.view
    waiting := by simp
    proposed := iff_of_true (by simp) ((recollected.hasProposal other).mp started)
    stored := fun _ running => absurd rfl running
    unprepared := fun before => absurd before early
    uncommitted := fun running => absurd rfl running
    prepares := fun before => absurd before early
    commits := fun running => absurd rfl running
    prepared := by
      rw [preparedIn_append]
      exact iff_of_true (show TransactionStatue.readyCommit ≤ .executed by decide) (.inl (recollected.prepared.mp late))
    done := by
      have counted := senders_setSender concerns (recollected.commits active)
      have quorum := executed.quorum
      rw [← concerns.hash] at counted
      rw [counted] at quorum
      rw [committedIn_append]
      exact iff_of_true rfl (.inr ⟨recollected.prepared.mp late, executed.type, concerns.seq, quorum⟩) }

end Votes

def LoggedProposal (past : List Request) (request : Request) : Prop :=
  ∃ proposal ∈ past, proposal.type = .prePrepare ∧ proposal.seq = request.seq ∧ batchOf request = batchOf proposal

structure FollowsLog (config : ResDBConfig) (v : Nat) (hash : String) (n : Nat) (past : List Request)
    (message : Request) (result : AddResult) : Prop where
  collector : Recollected config v hash n (past ++ [message]) result.collector
  committed : ∀ request ∈ result.committed, ¬ CommittedIn config n past ∧ CommittedIn config n (past ++ [message]) ∧
    ∃ proposal ∈ past, proposal.type = .prePrepare ∧ proposal.seq = n ∧
      ∃ certs, request = { proposal with committedCerts := proposal.committedCerts ++ certs }
  complete : CommittedIn config n (past ++ [message]) → CommittedIn config n past ∨ result.committed.isSome = true

theorem FollowsLog.silent {result : AddResult}
    (collector : Recollected config v hash n (past ++ [message]) result.collector)
    (recollected : Recollected config v hash n past c)
    (same : result.collector.status = .executed → c.status = .executed) (nothing : result.committed = none) :
    FollowsLog config v hash n past message result :=
  ⟨collector, by simp [nothing], fun done => .inl (recollected.done.mp (same (collector.done.mpr done)))⟩

section Step

variable (recollected : Recollected config v hash n past c) (concerns : Concerns v hash n message)
include recollected concerns

theorem Recollected.isOpen (active : c.status ≠ .executed) : Open c message :=
  ⟨recollected.uncommitted active, active, recollected.seq.trans concerns.seq.symm⟩

theorem Recollected.added {signature : SignatureInfo} {result : AddResult} (active : c.status ≠ .executed)
    (added : Added config c message signature result) : FollowsLog config v hash n past message result := by
  cases added with
  | rejected closed => exact absurd (recollected.isOpen concerns active) closed
  | proposed force _ isProposal forced unforced =>
    have notForced : force = false := by
      by_contra isForced
      obtain ⟨some, less, -⟩ := forced (by simpa using isForced)
      rcases recollected.view with zero | same
      · exact some zero
      · rw [same, concerns.view] at less
        exact Nat.lt_irrefl _ less
    have waiting : c.status = .none := by
      by_contra known
      obtain ⟨_, -, -, -, -, _, stored⟩ := recollected.stored known active
      cases (unforced notForced).symm.trans stored
    refine .silent (c := c) ?_ recollected (by simp [waiting]) rfl
    dsimp only
    rw [waiting, if_pos rfl]
    exact recollected.first concerns isProposal waiting
  | candidate others _ isProposal taken _ _ =>
    have same : Recollected config v hash n past { c with otherMainRequest := others } := by
      cases recollected
      constructor <;> assumption
    refine .silent (same.grow ?_ ?_ ?_) same id rfl
    · exact fun none => absurd (same.waiting none) taken
    · exact fun _ here => by cases isProposal.symm.trans here.1
    · exact fun _ here => by cases isProposal.symm.trans here.1
  | ignored _ proves late =>
    refine .silent (recollected.grow ?_ ?_ ?_) recollected id rfl
    · exact fun _ here => by cases proves.2.symm.trans here.1
    · exact fun early => absurd ⟨early, recollected.unprepared early⟩ late
    · exact fun _ here => by cases proves.2.symm.trans here.1
  | voted _ other short => exact .silent (recollected.counted concerns other short) recollected id rfl
  | prepared _ prepared => exact .silent (recollected.prepares_here concerns prepared) recollected (by simp) rfl
  | executed _ executed =>
    have collector := recollected.executes_here concerns executed
    have started : c.status ≠ .none := by simp [executed.before]
    obtain ⟨proposal, member, type, seq, -, signature, stored⟩ := recollected.stored started active
    obtain ⟨-, rfl⟩ := executed.stored _ stored
    refine ⟨collector, ?_, fun _ => .inr rfl⟩
    intro request handed
    cases handed
    exact ⟨fun done => active (recollected.done.mpr done), collector.done.mp rfl, proposal, member, type, seq, _, rfl⟩

theorem Recollected.step (address pending : Nat) (signature : SignatureInfo)
    (late : n < pending → CommittedIn config n past) :
    ∃ result, c.addConsensusMsg config
        { currentView := v, maxPendingExecutedSeq := pending, address := address, signature := signature
          request := message } = .ok result ∧
      FollowsLog config v hash n past message result := by
  by_cases done : c.status = .executed
  · refine ⟨_, addConsensusMsg_executed done, .silent (recollected.grow ?_ ?_ ?_) recollected id rfl⟩
    · simp [done]
    · intro early
      rw [done] at early
      exact absurd early (by decide)
    · exact fun active => absurd done active
  · have recent : ¬ message.seq < pending := by
      rw [concerns.seq]
      exact fun behind => done (recollected.done.mpr (late behind))
    have valid : isValidMsg v pending message = true := by simp [isValidMsg, concerns.view, recent]
    have unmoved : Unmoved c := by
      intro moved
      by_contra active
      by_cases waiting : c.status = .none
      · cases moved.symm.trans (recollected.waiting waiting)
      · obtain ⟨_, -, -, -, -, _, stored⟩ := recollected.stored waiting active
        cases moved.symm.trans stored
    obtain ⟨result, ran⟩ := @addConsensusMsg_total config c ⟨v, pending, address, signature, message⟩
      recollected.running unmoved concerns.phase concerns.range
    have called := ran
    unfold TransactionCollector.addConsensusMsg at called
    rw [if_pos valid] at called
    exact ⟨result, ran, recollected.added concerns done (addRequest_spec recollected.running called)⟩

end Step

end ResilientDB.Proof
