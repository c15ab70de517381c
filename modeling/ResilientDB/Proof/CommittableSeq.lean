import ResilientDB.Library.Selection
import ResilientDB.Proof.HighestPrepared

namespace ResilientDB.Proof
open Model Library List

variable {config : ResDBConfig} {r r' : Replica} {s s' : PreparedThreads} {event : PreparedEvent}
  {handler handler' : Handler} {trace : List (Transition PreparedThreads PreparedEvent)} {env : Env}

def committable (s : PreparedThreads) : Nat := s.replica.checkpointManager.committableSeq

def stableCkptSeq (s : PreparedThreads) : Nat := s.replica.checkpointManager.stableCkpt.seq

abbrev CkptEntry := (Nat ×ₗ String) × Finset Nat

def seqOf (entry : CkptEntry) : Nat := (ofLex entry.1).1

def isCommittable (config : ResDBConfig) (entry : CkptEntry) : Bool := config.getMinCheckpointReceiveNum ≤ entry.2.card

def isStable (config : ResDBConfig) (entry : CkptEntry) : Bool := config.getMinDataReceiveNum ≤ entry.2.card

theorem isCommittable_of_isStable {entry : CkptEntry} (isStable : isStable config entry = true) :
    isCommittable config entry = true := by
  have votes := of_decide_eq_true isStable
  refine decide_eq_true (le_trans ?_ votes)
  simp only [ResDBConfig.getMinCheckpointReceiveNum, ResDBConfig.getMinDataReceiveNum]
  omega

theorem ascending (m : CheckPointManager) : m.senderCkpt.entries.Pairwise fun a b => seqOf a ≤ seqOf b := by
  refine m.senderCkpt.sorted.imp fun {a b} below => ?_
  rcases Prod.Lex.lt_iff.mp below with less | ⟨same, -⟩
  · exact less.le
  · exact same.le

inductive CountingVotes (r r' : Replica) : Prop
  | same : SameBooks r.checkpointManager r'.checkpointManager → CountingVotes r r'
  | counts (sender : Nat) (data : CheckPointData) :
      r'.checkpointManager = r.checkpointManager.addCheckPoint sender data → CountingVotes r r'

inductive Booking (s : PreparedThreads) : PreparedThreads → Prop
  | counting {s' : PreparedThreads} : s'.turn = s.turn → CountingVotes s.replica s'.replica → Booking s s'
  | begins (env : Env) : s.turn = none → Booking s
      { s with turn := some (.visit env s.replica.checkpointManager.senderCkpt.entries (0, "")) }
  | turns {turn : Turn} : s.turn = some turn → Booking s (s.takeTurn turn)

theorem Stepped.counting (stepped : Stepped r handler r' handler') : CountingVotes r r' := by
  cases stepped.writes with
  | nothing same =>
    refine .same ?_
    rw [same]
    exact ⟨rfl, rfl, rfl, rfl⟩
  | counts sender data same => exact .counts sender data same
  | seq read seq reads below same =>
    refine .same ?_
    rw [same]
    exact ⟨rfl, rfl, rfl, rfl⟩

theorem act_booking (acted : s.act event = some s') : s'.replica.config = s.replica.config ∧ Booking s s' := by
  cases act_moves acted with
  | call => exact ⟨rfl, .counting rfl (.same ⟨rfl, rfl, rfl, rfl⟩)⟩
  | handler found ran => exact ⟨(handler_stepped ran).config, .counting rfl (handler_stepped ran).counting⟩
  | begins env idle => exact ⟨rfl, .begins env idle⟩
  | turns current => exact ⟨(takeTurn_frame s _).1, .turns current⟩
  | other config books => exact ⟨config, .counting rfl (.same books)⟩

theorem visitCkpt_committable (env : Env) (config : ResDBConfig) (state : Visit) (entry : CkptEntry) :
    (CheckPointManager.visitCkpt env config state entry).1.committableSeq =
      (if isCommittable config entry then seqOf entry else state.1.committableSeq) ∧
    (CheckPointManager.visitCkpt env config state entry).2.2.1 =
      if isStable config entry then seqOf entry else state.2.2.1 := by
  unfold CheckPointManager.visitCkpt isCommittable isStable
  simp only [decide_eq_true_eq]
  constructor
  · split
    · split
      · rcases catchUp_eq env { state.1 with
            committableSeq := (ofLex entry.1).1, committableHash := (ofLex entry.1).2
            committableSeqSignal := state.1.committableSeqSignal + 1 } entry.2 config.replicas with
          same | ⟨requests, -, same⟩
        · rw [same]
          rfl
        · rw [same]
          rfl
      · rfl
    · rfl
  · split <;> rfl

structure VisitsEntry (s : PreparedThreads) (env : Env) (entry : CkptEntry) (rest : List CkptEntry)
    (chosen : Nat × String) (s' : PreparedThreads) : Prop where
  value : committable s' = if isCommittable s.replica.config entry then seqOf entry else committable s
  turn : ∃ next, s'.turn = some (.visit env rest next) ∧
    next.1 = if isStable s.replica.config entry then seqOf entry else chosen.1
  table : s'.replica.checkpointManager.senderCkpt = s.replica.checkpointManager.senderCkpt
  current : s'.replica.checkpointManager.currentStableSeq = s.replica.checkpointManager.currentStableSeq
  stable : stableCkptSeq s' = stableCkptSeq s

theorem visitCkpt_visits (s : PreparedThreads) (env : Env) (entry : CkptEntry) (rest : List CkptEntry)
    (chosen : Nat × String) : VisitsEntry s env entry rest chosen (s.visitCkpt env entry rest chosen) := by
  obtain ⟨value, next⟩ := visitCkpt_committable env s.replica.config (s.replica.checkpointManager, [], chosen) entry
  obtain ⟨seq, hash, signal, last, highest, frame⟩ :=
    (visitCkpt_spec env s.replica.config (s.replica.checkpointManager, [], chosen) entry).1
  have table := congrArg CheckPointManager.senderCkpt frame
  have current := congrArg CheckPointManager.currentStableSeq frame
  have stable := congrArg (fun m => m.stableCkpt.seq) frame
  exact ⟨value, ⟨_, rfl, next⟩, table, current, stable⟩

theorem setStable_books (m : CheckPointManager) (seq : Nat) (hash : String) :
    (m.setStable seq hash).committableSeq = m.committableSeq ∧
    ((seq ≤ m.currentStableSeq ∧ m.setStable seq hash = m) ∨
      m.currentStableSeq < seq ∧ (m.setStable seq hash).currentStableSeq = seq ∧
      (m.setStable seq hash).stableCkpt.seq = seq ∧
      (m.setStable seq hash).senderCkpt = m.senderCkpt.eraseIf fun key => (ofLex key).1 ≤ seq) := by
  unfold CheckPointManager.setStable
  split_ifs with newer
  · exact ⟨rfl, .inr ⟨newer, rfl, rfl, rfl⟩⟩
  · exact ⟨rfl, .inl ⟨not_lt.mp newer, rfl⟩⟩

-- No checkpoint with enough votes lies below the value when a turn begins.
def BeginsAbove (t : Transition PreparedThreads PreparedEvent) : Prop :=
  t.before.turn.isNone = true → t.after.turn.isSome = true →
    ∀ entry ∈ t.before.replica.checkpointManager.senderCkpt.entries,
      isCommittable t.before.replica.config entry = true → committable t.before ≤ seqOf entry
deriving Decidable

def TurnAbove (config : ResDBConfig) (value : Nat) : Option Turn → Prop
  | some (.visit _ rest stable) => stable.1 ≤ value ∧ (rest.Pairwise fun a b => seqOf a ≤ seqOf b) ∧
      ∀ entry ∈ rest, isCommittable config entry = true → value ≤ seqOf entry
  | some (.setStable stable) => stable.1 ≤ value
  | none => True

structure Rising (config : ResDBConfig) (s : PreparedThreads) : Prop where
  own : s.replica.config = config
  current : s.replica.checkpointManager.currentStableSeq = stableCkptSeq s
  stable : stableCkptSeq s ≤ committable s
  turn : TurnAbove config (committable s) s.turn

theorem CountingVotes.books (counting : CountingVotes r r') :
    r'.checkpointManager.committableSeq = r.checkpointManager.committableSeq ∧
    r'.checkpointManager.currentStableSeq = r.checkpointManager.currentStableSeq ∧
    r'.checkpointManager.stableCkpt = r.checkpointManager.stableCkpt := by
  cases counting with
  | same books => exact ⟨books.committableSeq, books.currentStableSeq, books.stableCkpt⟩
  | counts sender data same =>
    obtain ⟨senders, signs, new, frame⟩ := addCheckPoint_eq r.checkpointManager sender data
    rw [same, frame]
    exact ⟨rfl, rfl, rfl⟩

theorem Rising.step (rising : Rising config s) (booking : Booking s s')
    (sameConfig : s'.replica.config = s.replica.config) (above : BeginsAbove ⟨s, event, s'⟩) :
    Rising config s' ∧ committable s ≤ committable s' := by
  obtain ⟨own, current, stable, turn⟩ := rising
  have own' := sameConfig.trans own
  cases booking with
  | counting sameTurn counting =>
    obtain ⟨value, currentStable, ckpt⟩ := counting.books
    have same : committable s' = committable s := value
    have sameStable : stableCkptSeq s' = stableCkptSeq s := congrArg StableCheckPoint.seq ckpt
    refine ⟨⟨own', ?_, ?_, ?_⟩, same.ge⟩
    · rw [currentStable, current, sameStable]
    · rw [same, sameStable]
      exact stable
    · rw [same, sameTurn]
      exact turn
  | begins env idle =>
    refine ⟨⟨own', current, stable, Nat.zero_le _, ascending _, fun entry member enough => ?_⟩, le_rfl⟩
    exact above (by simp [idle]) rfl entry member (own ▸ enough)
  | @turns turn' here =>
    rw [here] at turn
    cases turn' with
    | visit env entries chosen =>
      obtain ⟨below, ascending, floor⟩ := turn
      cases entries with
      | nil => exact ⟨⟨own', current, stable, below⟩, le_rfl⟩
      | cons entry rest =>
        obtain ⟨value, ⟨next, sameTurn, chosen'⟩, -, sameCurrent, sameStable⟩ :=
          visitCkpt_visits s env entry rest chosen
        obtain ⟨least, tail⟩ := pairwise_cons.mp ascending
        rw [own] at value chosen'
        have raised : committable s ≤ committable (s.visitCkpt env entry rest chosen) := by
          rw [value]
          split_ifs with enough
          · exact floor entry mem_cons_self enough
          · exact le_rfl
        refine ⟨⟨own', ?_, ?_, ?_⟩, raised⟩
        · exact sameCurrent.trans (current.trans sameStable.symm)
        · exact sameStable.trans_le (stable.trans raised)
        · change TurnAbove config (committable (s.visitCkpt env entry rest chosen))
            (s.visitCkpt env entry rest chosen).turn
          rw [sameTurn]
          refine ⟨?_, tail, fun later member enough => ?_⟩
          · rw [chosen']
            split_ifs with quorum
            · rw [value, if_pos (isCommittable_of_isStable quorum)]
            · exact below.trans raised
          · rw [value]
            split_ifs
            · exact least later member
            · exact floor later (mem_cons_of_mem _ member) enough
    | setStable chosen =>
      obtain ⟨value, cases⟩ := setStable_books s.replica.checkpointManager chosen.1 chosen.2
      have same : committable (s.takeTurn (.setStable chosen)) = committable s := value
      refine ⟨?_, same.ge⟩
      rcases cases with ⟨-, kept⟩ | ⟨-, now, ckpt, -⟩
      · have keptStable : stableCkptSeq (s.takeTurn (.setStable chosen)) = stableCkptSeq s :=
          congrArg (fun m => m.stableCkpt.seq) kept
        refine ⟨own', ?_, ?_, trivial⟩
        · exact (congrArg CheckPointManager.currentStableSeq kept).trans (current.trans keptStable.symm)
        · exact keptStable.trans_le (stable.trans same.ge)
      · exact ⟨own', now.trans ckpt.symm, ckpt.trans_le (turn.trans same.ge), trivial⟩

theorem rising_run (run : (preparedThreads config).Run trace s) (above : ∀ t ∈ trace, BeginsAbove t) :
    Rising config s := by
  refine run.invariant BeginsAbove (Rising config) ?_ ?_ above
  · rintro s ⟨server, ⟨outOfOrder, needResponse, needQc, rfl⟩, rfl⟩
    exact ⟨rfl, rfl, le_rfl, trivial⟩
  · intro s event s' rising acted begins
    obtain ⟨same, booking⟩ := act_booking acted
    exact (rising.step booking same begins).1

-- A checkpoint that enters the table is above the stable one.
def TimelyVotes (t : Transition PreparedThreads PreparedEvent) : Prop :=
  ∀ entry ∈ t.after.replica.checkpointManager.senderCkpt.entries,
    t.before.replica.checkpointManager.senderCkpt.find? entry.1 = none → stableCkptSeq t.before < seqOf entry
deriving Decidable

def settledSeq (config : ResDBConfig) (value : Nat) : Option Turn → Nat
  | some (.visit _ rest _) => lastValue (isCommittable config) seqOf value rest
  | _ => value

def settled (config : ResDBConfig) (s : PreparedThreads) : Nat := settledSeq config (committable s) s.turn

def chosenSeq (config : ResDBConfig) : Option Turn → Nat
  | some (.visit _ rest chosen) => lastValue (isStable config) seqOf chosen.1 rest
  | some (.setStable chosen) => chosen.1
  | none => 0

structure SettledBooks (config : ResDBConfig) (s : PreparedThreads) : Prop where
  own : s.replica.config = config
  current : s.replica.checkpointManager.currentStableSeq = stableCkptSeq s
  above : ∀ entry ∈ s.replica.checkpointManager.senderCkpt.entries, stableCkptSeq s < seqOf entry
  stable : stableCkptSeq s ≤ settled config s
  chosen : chosenSeq config s.turn ≤ settled config s
  backed : settled config s ≤ stableCkptSeq s ∨
    ∃ entry ∈ s.replica.checkpointManager.senderCkpt.entries, seqOf entry = settled config s ∧
      isCommittable config entry = true

theorem CountingVotes.table (counting : CountingVotes r r') {entry : CkptEntry}
    (member : entry ∈ r.checkpointManager.senderCkpt.entries) :
    ∃ votes, (entry.1, votes) ∈ r'.checkpointManager.senderCkpt.entries ∧ entry.2.card ≤ votes.card := by
  cases counting with
  | same books =>
    rw [books.senderCkpt]
    exact ⟨entry.2, member, le_rfl⟩
  | counts sender data same =>
    have found := OrderedMap.find?_eq_some.mpr member
    rw [same]
    unfold CheckPointManager.addCheckPoint
    dsimp only
    split
    · exact ⟨entry.2, member, le_rfl⟩
    · simp only [← OrderedMap.find?_eq_some, OrderedMap.find?_assign]
      by_cases own : entry.1 = toLex (data.seq, data.hash)
      · rw [if_pos own, ← own, found]
        exact ⟨_, rfl, Finset.card_le_card (Finset.subset_insert _ _)⟩
      · rw [if_neg own]
        exact ⟨entry.2, found, le_rfl⟩

theorem SettledBooks.counting (before : SettledBooks config s) (turn : s'.turn = s.turn)
    (sameConfig : s'.replica.config = s.replica.config) (counting : CountingVotes s.replica s'.replica)
    (timely : TimelyVotes ⟨s, event, s'⟩) : SettledBooks config s' ∧ settled config s ≤ settled config s' := by
  obtain ⟨value, current, ckpt⟩ := counting.books
  have same : settled config s' = settled config s := by
    rw [settled, turn, show committable s' = committable s from value, ← settled]
  have sameStable : stableCkptSeq s' = stableCkptSeq s := congrArg StableCheckPoint.seq ckpt
  refine ⟨⟨sameConfig.trans before.own, ?_, fun entry member => ?_, ?_, ?_, ?_⟩, same.ge⟩
  · rw [current, before.current, sameStable]
  · rw [sameStable]
    cases found : s.replica.checkpointManager.senderCkpt.find? entry.1 with
    | none => exact timely entry member found
    | some votes => exact before.above (entry.1, votes) (OrderedMap.find?_eq_some.mp found)
  · rw [same, sameStable]
    exact before.stable
  · rw [same, turn]
    exact before.chosen
  · rw [same, sameStable]
    refine before.backed.imp_right ?_
    rintro ⟨entry, member, seq, enough⟩
    obtain ⟨votes, still, more⟩ := counting.table member
    exact ⟨(entry.1, votes), still, seq, decide_eq_true ((of_decide_eq_true enough).trans more)⟩

theorem SettledBooks.begins (before : SettledBooks config s) (env : Env) (idle : s.turn = none) (begun : s' = { s with
      turn := some (.visit env s.replica.checkpointManager.senderCkpt.entries (0, "")) }) :
    SettledBooks config s' ∧ settled config s ≤ settled config s' := by
  have value : settled config s = committable s := by
    unfold settled
    rw [idle]
    rfl
  have last : settled config s' = lastValue (isCommittable config) seqOf (committable s)
      s.replica.checkpointManager.senderCkpt.entries := by
    rw [begun]
    rfl
  have atLeast (entry : CkptEntry) (member : entry ∈ s.replica.checkpointManager.senderCkpt.entries)
      (enough : isCommittable config entry = true) : seqOf entry ≤ settled config s' := by
    rw [last]
    exact le_lastValue (ascending _) member enough
  have cases := lastValue_cases (isCommittable config) seqOf (committable s)
    s.replica.checkpointManager.senderCkpt.entries
  rw [← last, ← value] at cases
  have raised : settled config s ≤ settled config s' := by
    rcases before.backed with low | ⟨entry, member, seq, enough⟩
    · rcases cases with same | ⟨entry, member, -, same⟩
      · exact same.ge
      · rw [same]
        exact low.trans (before.above entry member).le
    · rw [← seq]
      exact atLeast entry member enough
  have chosen : chosenSeq config s'.turn ≤ settled config s' := by
    have pick := lastValue_cases (isStable config) seqOf 0 s.replica.checkpointManager.senderCkpt.entries
    rw [begun]
    rcases pick with same | ⟨entry, member, quorum, same⟩
    · exact same.trans_le (Nat.zero_le _)
    · exact same.trans_le (begun ▸ atLeast entry member (isCommittable_of_isStable quorum))
  refine ⟨⟨?_, ?_, ?_, ?_, chosen, ?_⟩, raised⟩
  · rw [begun]
    exact before.own
  · rw [begun]
    exact before.current
  · rw [begun]
    exact before.above
  · rw [begun] at raised ⊢
    exact before.stable.trans raised
  · rcases cases with same | ⟨entry, member, enough, same⟩
    · rw [same, begun]
      exact before.backed
    · right
      rw [same, begun]
      exact ⟨entry, member, rfl, enough⟩

theorem SettledBooks.turns (before : SettledBooks config s) {turn : Turn} (here : s.turn = some turn) :
    SettledBooks config (s.takeTurn turn) ∧ settled config s ≤ settled config (s.takeTurn turn) := by
  obtain ⟨own, current, above, stable, chosen, backed⟩ := before
  have own' := (takeTurn_frame s turn).1.trans own
  have value : settled config s = settledSeq config (committable s) (some turn) := by
    unfold settled
    rw [here]
  rw [here] at chosen
  cases turn with
  | visit env entries stable' =>
    cases entries with
    | nil =>
      have same : settled config (s.takeTurn (.visit env [] stable')) = settled config s := value.symm
      refine ⟨⟨own', current, above, ?_, ?_, ?_⟩, same.ge⟩
      · rw [same]
        exact stable
      · rw [same]
        exact chosen
      · rw [same]
        exact backed
    | cons entry rest =>
      obtain ⟨moved, ⟨next, turn', picked⟩, table, sameCurrent, sameStable⟩ := visitCkpt_visits s env entry rest stable'
      rw [own] at moved picked
      have same : settled config (s.visitCkpt env entry rest stable') = settled config s := by
        rw [value]
        unfold settled settledSeq
        rw [turn']
        dsimp only
        rw [lastValue_cons, moved]
      have sameChosen : chosenSeq config (s.visitCkpt env entry rest stable').turn =
          chosenSeq config (some (.visit env (entry :: rest) stable')) := by
        rw [turn']
        unfold chosenSeq
        dsimp only
        rw [lastValue_cons, picked]
      change SettledBooks config (s.visitCkpt env entry rest stable') ∧
        _ ≤ settled config (s.visitCkpt env entry rest stable')
      refine ⟨⟨own', ?_, ?_, ?_, ?_, ?_⟩, same.ge⟩
      · rw [sameCurrent, current, sameStable]
      · rw [table, sameStable]
        exact above
      · rw [same, sameStable]
        exact stable
      · rw [same, sameChosen]
        exact chosen
      · rw [same, sameStable, table]
        exact backed
  | setStable chosen' =>
    obtain ⟨keeps, cases⟩ := setStable_books s.replica.checkpointManager chosen'.1 chosen'.2
    have same : settled config (s.takeTurn (.setStable chosen')) = settled config s := keeps.trans value.symm
    refine ⟨?_, same.ge⟩
    rcases cases with ⟨-, kept⟩ | ⟨newer, now, ckpt, pruned⟩
    · have after : s.takeTurn (.setStable chosen') = { s with turn := none } := by
        simp only [PreparedThreads.takeTurn, kept]
      rw [after] at same ⊢
      refine ⟨own, current, above, ?_, Nat.zero_le _, ?_⟩
      · rw [same]
        exact stable
      · rw [same]
        exact backed
    · have inTable (entry : CkptEntry) :
          entry ∈ (s.takeTurn (.setStable chosen')).replica.checkpointManager.senderCkpt.entries ↔
            entry ∈ s.replica.checkpointManager.senderCkpt.entries ∧ chosen'.1 < seqOf entry := by
        have table : (s.takeTurn (.setStable chosen')).replica.checkpointManager.senderCkpt =
          s.replica.checkpointManager.senderCkpt.eraseIf fun key => (ofLex key).1 ≤ chosen'.1 := pruned
        rw [table]
        simp [OrderedMap.eraseIf, seqOf]
      have stable' : stableCkptSeq (s.takeTurn (.setStable chosen')) = chosen'.1 := ckpt
      refine ⟨own', now.trans ckpt.symm, fun entry member => ?_, ?_, Nat.zero_le _, ?_⟩
      · rw [stable']
        exact ((inTable entry).mp member).2
      · rw [same, stable']
        exact chosen
      · rw [same, stable']
        rcases backed with low | ⟨entry, member, seq, enough⟩
        · have older : stableCkptSeq s < chosen'.1 := current ▸ newer
          exact .inl (low.trans older.le)
        · rcases le_or_gt (settled config s) chosen'.1 with below | beyond
          · exact .inl below
          · exact .inr ⟨entry, (inTable entry).mpr ⟨member, seq ▸ beyond⟩, seq, enough⟩

theorem SettledBooks.step (before : SettledBooks config s) (booking : Booking s s')
    (sameConfig : s'.replica.config = s.replica.config) (timely : TimelyVotes ⟨s, event, s'⟩) :
    SettledBooks config s' ∧ settled config s ≤ settled config s' := by
  cases booking with
  | counting turn counting => exact before.counting turn sameConfig counting timely
  | begins env idle => exact before.begins env idle rfl
  | turns here => exact before.turns here

theorem settled_run (run : (preparedThreads config).Run trace s) (timely : ∀ t ∈ trace, TimelyVotes t) :
    SettledBooks config s ∧ ∀ t ∈ trace, settled config t.before ≤ settled config s := by
  induction run with
  | initial first =>
    obtain ⟨server, ⟨outOfOrder, needResponse, needQc, rfl⟩, rfl⟩ := first
    exact ⟨⟨rfl, rfl, by simp [Replica.create, CheckPointManager.create, OrderedMap.empty], le_rfl, le_rfl,
      .inl le_rfl⟩, by simp⟩
  | next earlier acted ih =>
    obtain ⟨before, rises⟩ := ih fun t member => timely t (mem_cons_of_mem _ member)
    obtain ⟨same, booking⟩ := act_booking acted
    obtain ⟨after, raised⟩ := before.step booking same (timely _ mem_cons_self)
    refine ⟨after, fun t member => ?_⟩
    rcases mem_cons.mp member with rfl | old
    · exact raised
    · exact (rises t old).trans raised

theorem committable_rises (run : (preparedThreads config).Run trace s) : ((∀ t ∈ trace, BeginsAbove t) →
      (∀ t ∈ trace, committable t.before ≤ committable t.after) ∧ stableCkptSeq s ≤ committable s) ∧
    ((∀ t ∈ trace, TimelyVotes t) → s.turn = none →
      (∀ t ∈ trace, t.before.turn = none → committable t.before ≤ committable s) ∧
      stableCkptSeq s ≤ committable s) := by
  constructor
  · intro above
    refine ⟨fun t member => ?_, (rising_run run above).stable⟩
    obtain ⟨past, sub, earlier, acted⟩ := run.earlier member
    obtain ⟨same, booking⟩ := act_booking acted
    exact ((rising_run earlier fun u inside => above u (sub inside)).step booking same (above t member)).2
  · intro timely idle
    have between {s : PreparedThreads} (idle : s.turn = none) : settled config s = committable s := by
      unfold settled
      rw [idle]
      rfl
    obtain ⟨last, rises⟩ := settled_run run timely
    rw [← between idle]
    exact ⟨fun t member before => between before ▸ rises t member, last.stable⟩

def checkpointAt (i : Nat) (sender : Int) (seq : Nat) : List PreparedEvent :=
  let env : Env := { toyEnv with codec := { toyEnv.codec with
    parseCheckPointData := fun _ => some { seq := seq, hash := "g", hashSignature := ⟨1, "signature"⟩ } } }
  [callWith env sender { type := .checkpoint }, .handler i]

def wholeTurn (entries : Nat) : List PreparedEvent :=
  .updateStableCheckPointStatus (returning []) :: List.replicate (entries + 2) .turn

def twoCheckpoints : List PreparedEvent :=
  .mayStart :: (checkpointAt 0 1 2 ++ checkpointAt 1 2 2 ++ wholeTurn 1 ++ checkpointAt 2 1 4 ++ checkpointAt 3 2 4 ++
    checkpointAt 4 3 4 ++ wholeTurn 2)

theorem twoCheckpoints_rise : ∃ trace s, (preparedThreads preparedConfig).Run trace s ∧ committable s = 4 ∧
    stableCkptSeq s = 4 ∧ (∀ t ∈ trace, committable t.before ≤ committable t.after) ∧
    (∃ t ∈ trace, t.before.turn = none ∧ committable t.before = 2) ∧
    ∀ t ∈ trace, t.before.turn = none → committable t.before ≤ committable s := by
  obtain ⟨trace, s, run, ⟨value, stable⟩, ⟨t, member, idle, two⟩, above, timely, last⟩ :=
    System.run_of_play (System.acts _ rfl) startThreads_initial twoCheckpoints
    (fun trace s => (committable s = 4 ∧ stableCkptSeq s = 4) ∧
      (∃ t ∈ trace, t.before.turn.isNone = true ∧ committable t.before = 2) ∧ (∀ t ∈ trace, BeginsAbove t) ∧
      (∀ t ∈ trace, TimelyVotes t) ∧ s.turn.isNone = true) (by decide +kernel)
  obtain ⟨steps, between⟩ := committable_rises run
  obtain ⟨rises, -⟩ := between timely (Option.isNone_iff_eq_none.mp last)
  exact ⟨trace, s, run, value, stable, (steps above).1, ⟨t, member, Option.isNone_iff_eq_none.mp idle, two⟩, rises⟩

def lateCheckpoint : List PreparedEvent :=
  .mayStart :: (checkpointAt 0 1 4 ++ checkpointAt 1 2 4 ++ checkpointAt 2 3 4 ++ wholeTurn 1 ++ checkpointAt 3 1 2 ++
    checkpointAt 4 2 2 ++ wholeTurn 1)

def visitsAgain : List PreparedEvent :=
  .mayStart :: (checkpointAt 0 1 2 ++ checkpointAt 1 2 2 ++ checkpointAt 2 1 4 ++ checkpointAt 3 2 4 ++ wholeTurn 2 ++
    checkpointAt 4 3 2 ++ [.updateStableCheckPointStatus (returning []), .turn])

theorem committable_falls : (∃ trace s, (preparedThreads preparedConfig).Run trace s ∧ s.turn = none ∧
      (∃ t ∈ trace, committable t.after < committable t.before) ∧ committable s < stableCkptSeq s) ∧
    ∃ trace s, (preparedThreads preparedConfig).Run trace s ∧ (∀ t ∈ trace, TimelyVotes t) ∧
      ∃ t ∈ trace, committable t.after < committable t.before := by
  constructor
  · obtain ⟨trace, s, run, idle, falls⟩ := System.run_of_play (System.acts _ rfl) startThreads_initial
      lateCheckpoint (fun trace s => s.turn.isNone = true ∧ (∃ t ∈ trace, committable t.after < committable t.before) ∧
        committable s < stableCkptSeq s) (by decide +kernel)
    exact ⟨trace, s, run, Option.isNone_iff_eq_none.mp idle, falls⟩
  · exact System.run_of_play (System.acts _ rfl) startThreads_initial visitsAgain _ (by decide +kernel)

end ResilientDB.Proof
