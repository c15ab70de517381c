import ResilientDB.Proof.Redo

namespace ResilientDB.Proof
open Model Library List

variable {r : Replica} {env : Env} {request : Request} {outcome : Outcome} {message : NewViewMessage}
  {maxSeq : Nat} {list : List Request} {state state' : Replica × List Outgoing}

structure Accepted (r : Replica) (env : Env) (message : NewViewMessage) (list : List Request) : Prop where
  view : message.viewNumber = addUInt64 r.getCurrentView r.viewChangeManager.viewChangeCounter
  valid : ∀ msg ∈ message.viewchangeMessages, r.isValidViewChangeMsg env msg = true
  recomputed : r.getPrepareMsg env message false = .ok list
  data : list.map (fun request => request.data) = message.request.map fun request => request.data
  reaches : ∀ i, firstRedo message ≤ i → i ≤ Replica.maxStable message → ∃ request ∈ list, request.seq = i

theorem reaches_iff : ((List.range' (firstRedo message) (Replica.maxStable message + 1 - firstRedo message)).all
      fun i => (list.map fun request => request.seq).contains i) = true ↔
    ∀ i, firstRedo message ≤ i → i ≤ Replica.maxStable message → ∃ request ∈ list, request.seq = i := by
  simp only [all_eq_true, mem_range'_1, contains_iff_mem, mem_map]
  constructor
  · intro reaches i least most
    exact reaches i ⟨least, by omega⟩
  · intro reaches i inRange
    exact reaches i inRange.1 (by omega)

theorem checkNewView_iff :
    (∃ maxSeq, r.checkNewView env message = .ok (some maxSeq)) ↔ ∃ list, Accepted r env message list := by
  constructor
  · rintro ⟨maxSeq, checked⟩
    unfold Replica.checkNewView at checked
    split at checked
    · cases checked
    rename_i view
    split_ifs at checked with valid
    · cases checked
    obtain ⟨list, recomputed, checked⟩ := bind_eq_ok.mp checked
    split at checked
    · cases checked
    split_ifs at checked with data
    · cases checked
    dsimp only at checked
    split at checked
    · cases checked
    rename_i reaches
    refine ⟨list, not_not.mp view, by simpa using valid, recomputed, not_not.mp data, ?_⟩
    rw [Bool.not_eq_false] at reaches
    exact reaches_iff.mp reaches
  · rintro ⟨list, accepted⟩
    have valid : message.viewchangeMessages.all (r.isValidViewChangeMsg env) = true := by
      simpa using accepted.valid
    have length : list.length = message.request.length := by
      simpa using congrArg List.length accepted.data
    have reaches := reaches_iff.mpr accepted.reaches
    unfold Replica.checkNewView
    rw [if_neg (not_not.mpr accepted.view), if_neg (by simp [valid]), accepted.recomputed]
    simp only [bind, Except.bind]
    rw [if_neg (not_not.mpr length), if_neg (not_not.mpr accepted.data)]
    refine ⟨_, if_neg ?_⟩
    rw [Bool.not_eq_false]
    exact reaches

structure Installed (r : Replica) (message : NewViewMessage) (maxSeq : Nat) (outcome : Outcome) : Prop where
  ret : outcome.ret ≠ -2
  view : outcome.replica.getCurrentView = message.viewNumber
  primary : outcome.replica.getCurrentPrimary = toUInt32 (r.config.primaryOf message.viewNumber)
  nextSeq : outcome.replica.nextSeq = addUInt64 maxSeq 1
  sent : outcome.sent.filterMap Outgoing.request? = message.request

theorem redo_spec (ran : Replica.redo state request = .ok state') :
    state'.1.systemInfo = state.1.systemInfo ∧ state'.1.nextSeq = state.1.nextSeq ∧
      state'.2.filterMap Outgoing.request? = state.2.filterMap Outgoing.request? ++ [request] := by
  rcases redo_cases ran with ⟨duplicates, rfl⟩ | rfl
  · exact ⟨rfl, rfl, by simp [Outgoing.request?]⟩
  · rw [raiseHighestPreparedSeq_max]
    exact ⟨rfl, rfl, by simp [Outgoing.request?]⟩

theorem foldlM_redo {requests : List Request} (ran : requests.foldlM Replica.redo state = .ok state') :
    state'.1.systemInfo = state.1.systemInfo ∧ state'.1.nextSeq = state.1.nextSeq ∧
      state'.2.filterMap Outgoing.request? = state.2.filterMap Outgoing.request? ++ requests := by
  induction requests generalizing state with
  | nil =>
    simp only [foldlM_nil, pure, Except.pure, Except.ok.injEq] at ran
    subst ran
    simp
  | cons request rest ih =>
    rw [foldlM_cons, bind_eq_ok] at ran
    obtain ⟨next, first, ran⟩ := ran
    obtain ⟨info, seq, sent⟩ := redo_spec first
    obtain ⟨info', seq', sent'⟩ := ih ran
    refine ⟨info'.trans info, seq'.trans seq, ?_⟩
    rw [sent', sent, append_assoc, singleton_append]

theorem processNewView_spec (viewing : NewViewing r env request outcome) : (outcome = { replica := r, ret := -2 } ∧
      ∀ message list, env.codec.parseNewView request.data = some message → ¬ Accepted r env message list) ∨
    ∃ message list maxSeq, env.codec.parseNewView request.data = some message ∧
      Accepted r env message list ∧ Installed r message maxSeq outcome := by
  cases viewing with
  | refused unchecked same =>
    refine .inl ⟨same, fun message list parsed accepted => ?_⟩
    obtain ⟨maxSeq, passed⟩ := checkNewView_iff.mpr ⟨list, accepted⟩
    exact unchecked message maxSeq parsed passed
  | @installed message maxSeq redone sent parsed checked loop after =>
    obtain ⟨list, accepted⟩ := checkNewView_iff.mp ⟨maxSeq, checked⟩
    obtain ⟨info, seq, sends⟩ := foldlM_redo loop
    rw [after]
    refine .inr ⟨message, list, maxSeq, parsed, accepted, ?_, ?_, ?_, seq, by simpa using sends⟩
    · dsimp only
      split <;> simp
    · exact congrArg SystemInfo.view info
    · exact congrArg (fun info => (info.primaryId : Int)) info

section Soundness

variable (sentBy : Int → ViewChangeMessage → Prop)

def FromQuorum (r : Replica) (message : NewViewMessage) : Prop :=
  ∃ senders : Finset Int, r.config.getMinDataReceiveNum ≤ senders.card ∧
    ∀ i ∈ senders, (∃ replica ∈ r.config.replicas, replica.id = i) ∧
      ∃ msg ∈ message.viewchangeMessages, msg.viewNumber = message.viewNumber ∧ sentBy i msg

def FromNextPrimary (r : Replica) (request : Request) (message : NewViewMessage) : Prop :=
  request.senderId = r.config.primaryOf message.viewNumber

structure SoundView (r : Replica) (env : Env) (request : Request) (message : NewViewMessage)
    (outcome : Outcome) : Prop where
  view : outcome.replica.getCurrentView = message.viewNumber
  primary : outcome.replica.getCurrentPrimary = toUInt32 (r.config.primaryOf message.viewNumber)
  sender : FromNextPrimary r request message
  valid : ∀ msg ∈ message.viewchangeMessages, r.isValidViewChangeMsg env msg = true
  quorum : FromQuorum sentBy r message

theorem newView_sound (ran : r.processNewView env request = .ok outcome) :
    (outcome.replica.getCurrentView ≠ r.getCurrentView → ∃ message, env.codec.parseNewView request.data = some message ∧
        SoundView sentBy r env request message outcome) ↔
    ∀ message list, env.codec.parseNewView request.data = some message → Accepted r env message list →
      message.viewNumber ≠ r.getCurrentView →
      FromNextPrimary r request message ∧ FromQuorum sentBy r message := by
  rcases processNewView_spec
    (processNewView_viewing ran) with ⟨same, refused⟩ | ⟨message, list, maxSeq, parsed, accepted, installed⟩
  · constructor
    · intro _ message list parsed accepted
      exact absurd accepted (refused message list parsed)
    · intro _ changed
      rw [same] at changed
      exact absurd rfl changed
  · rw [parsed, installed.view]
    constructor
    · intro sound other _ same _ changed
      cases same
      obtain ⟨_, same, sound⟩ := sound changed
      cases same
      exact ⟨sound.sender, sound.quorum⟩
    · intro guarded changed
      obtain ⟨sender, quorum⟩ := guarded message list rfl accepted changed
      exact ⟨message, rfl, installed.view, installed.primary, sender, accepted.valid, quorum⟩

end Soundness

def Agrees (request recomputed : Request) : Prop :=
  request.type = recomputed.type ∧ request.seq = recomputed.seq ∧ request.hash = recomputed.hash ∧
    request.currentView = recomputed.currentView

def Declared (message : NewViewMessage) : Prop :=
  List.Forall₂ (fun request s => RedoneAs message s request) message.request
    (List.range' (firstRedo message) (lastRedo message + 1 - firstRedo message))

theorem redoneAs_agrees {s : Nat} {recomputed : Request} (as : RedoneAs message s recomputed) :
    Agrees request recomputed ↔ RedoneAs message s request := by
  obtain ⟨seq, view, as⟩ := as
  unfold Agrees RedoneAs
  rw [seq, view]
  cases won : redone message s with
  | _ =>
    simp only [won] at as
    rw [as.1, as.2]
    tauto

theorem agrees_iff_declared (ran : r.getPrepareMsg env message false = .ok list) :
    List.Forall₂ Agrees message.request list ↔ Declared message := by
  obtain ⟨-, map, found, rfl⟩ := getPrepareMsg_spec ran
  have made (s : Nat) : ∃ request, r.redoRequest env false message.viewNumber map s = some request :=
    redoRequest_exists (found s) (.inr (.inl rfl))
  choose recomputed same using made
  have mapped (sequence : List Nat) : sequence.filterMap (r.redoRequest env false message.viewNumber map) =
      sequence.map recomputed := by
    rw [← filterMap_eq_map]
    congr 1
    funext s
    exact same s
  rw [mapped, forall₂_map_right_iff]
  unfold Declared
  have pointwise : (fun request s => Agrees request (recomputed s)) =
      fun request s => RedoneAs message s request := by
    funext request s
    exact propext (redoneAs_agrees (redoRequest_some (found s) (same s)))
  rw [pointwise]

theorem newView_recomputed (ran : r.processNewView env request = .ok outcome) :
    (outcome.ret ≠ -2 → ∃ message list, env.codec.parseNewView request.data = some message ∧
      r.getPrepareMsg env message false = .ok list ∧
      outcome.sent.filterMap Outgoing.request? = message.request ∧
      List.Forall₂ Agrees message.request list) ↔
    ∀ message list, env.codec.parseNewView request.data = some message → Accepted r env message list →
      Declared message := by
  rcases processNewView_spec
    (processNewView_viewing ran) with ⟨same, refused⟩ | ⟨message, list, maxSeq, parsed, accepted, installed⟩
  · constructor
    · intro _ message list parsed accepted
      exact absurd accepted (refused message list parsed)
    · intro _ accepts
      rw [same] at accepts
      exact absurd rfl accepts
  · rw [parsed]
    constructor
    · intro agrees other _ same _
      cases same
      obtain ⟨_, list', same, recomputed, -, agree⟩ := agrees installed.ret
      cases same
      exact (agrees_iff_declared recomputed).mp agree
    · intro declared _
      exact ⟨message, list, rfl, accepted.recomputed, installed.sent,
        (agrees_iff_declared accepted.recomputed).mpr (declared message list rfl accepted)⟩

def replicaFour : Replica := Replica.create (viewConfig 4)

def newViewEnv (message : NewViewMessage) : Env :=
  { plainEnv with codec := { plainEnv.codec with parseNewView := fun _ => some message } }

def newViewFrom (sender : Int) : Request := { type := .newview, senderId := sender }

def plainNewView : NewViewMessage where
  viewNumber := 2
  request := [nullOne]
  viewchangeMessages := [viewChangeZero, viewChangeZero, viewChangeZero]

def emptyNewView : NewViewMessage where
  viewNumber := 2
  request := [{ nullOne with seq := 0, hash := "null0" }, nullOne]

def alteredNewView : NewViewMessage :=
  { plainNewView with request := [{ type := .commit, seq := 9, hash := "other", currentView := 7 }] }

theorem plainNewView_sound : ∃ outcome,
    replicaFour.processNewView (newViewEnv plainNewView) (newViewFrom 2) = .ok outcome ∧
      outcome.replica.getCurrentView ≠ replicaFour.getCurrentView ∧
      ∃ message, (newViewEnv plainNewView).codec.parseNewView (newViewFrom 2).data = some message ∧
        SoundView (fun i msg => i ∈ ({2, 3, 4} : Finset Int) ∧ msg = viewChangeZero) replicaFour
          (newViewEnv plainNewView) (newViewFrom 2) message outcome := by
  obtain ⟨outcome, ran, changed⟩ : ∃ outcome, replicaFour.processNewView (newViewEnv plainNewView) (newViewFrom 2) =
      .ok outcome ∧ outcome.replica.getCurrentView ≠ replicaFour.getCurrentView := by decide
  refine ⟨outcome, ran, changed, (newView_sound _ ran).mpr ?_ changed⟩
  intro message list parsed _ _
  cases parsed
  refine ⟨by unfold FromNextPrimary; decide, {2, 3, 4}, by decide, ?_⟩
  intro i member
  refine ⟨?_, viewChangeZero, by decide, rfl, member, rfl⟩
  revert i
  decide

theorem emptyNewView_accepted : ∃ outcome,
    replicaFour.processNewView (newViewEnv emptyNewView) (newViewFrom 3) = .ok outcome ∧
      outcome.replica.getCurrentView ≠ replicaFour.getCurrentView ∧
      ∀ sentBy, ¬ ∃ message, (newViewEnv emptyNewView).codec.parseNewView (newViewFrom 3).data = some message ∧
        SoundView sentBy replicaFour (newViewEnv emptyNewView) (newViewFrom 3) message outcome := by
  obtain ⟨outcome, ran, changed⟩ : ∃ outcome, replicaFour.processNewView (newViewEnv emptyNewView) (newViewFrom 3) =
      .ok outcome ∧ outcome.replica.getCurrentView ≠ replicaFour.getCurrentView := by decide
  refine ⟨outcome, ran, changed, ?_⟩
  rintro sentBy ⟨message, parsed, sound⟩
  cases parsed
  obtain ⟨senders, large, sent⟩ := sound.quorum
  have nobody : senders = ∅ := by
    rw [Finset.eq_empty_iff_forall_notMem]
    intro i member
    obtain ⟨-, msg, inside, -⟩ := sent i member
    cases inside
  rw [nobody] at large
  revert large
  decide

theorem plainNewView_recomputed : ∃ outcome message list,
    replicaFour.processNewView (newViewEnv plainNewView) (newViewFrom 2) = .ok outcome ∧ outcome.ret ≠ -2 ∧
      (newViewEnv plainNewView).codec.parseNewView (newViewFrom 2).data = some message ∧
      replicaFour.getPrepareMsg (newViewEnv plainNewView) message false = .ok list ∧
      outcome.sent.filterMap Outgoing.request? = message.request ∧
      List.Forall₂ Agrees message.request list := by
  obtain ⟨outcome, ran, accepted⟩ : ∃ outcome, replicaFour.processNewView (newViewEnv plainNewView) (newViewFrom 2) =
      .ok outcome ∧ outcome.ret ≠ -2 := by decide
  obtain ⟨message, list, parsed, recomputed, sent, agree⟩ := (newView_recomputed ran).mpr (by
    intro message list parsed _
    cases parsed
    exact .cons ⟨rfl, rfl, rfl, rfl⟩ .nil) accepted
  exact ⟨outcome, message, list, ran, accepted, parsed, recomputed, sent, agree⟩

theorem alteredNewView_accepted : ∃ outcome list,
    replicaFour.processNewView (newViewEnv alteredNewView) (newViewFrom 2) = .ok outcome ∧ outcome.ret ≠ -2 ∧
      replicaFour.getPrepareMsg (newViewEnv alteredNewView) alteredNewView false = .ok list ∧
      outcome.sent.filterMap Outgoing.request? = alteredNewView.request ∧
      ¬ List.Forall₂ Agrees alteredNewView.request list := by
  obtain ⟨outcome, ran, accepted, sent⟩ : ∃ outcome, replicaFour.processNewView (newViewEnv alteredNewView)
      (newViewFrom 2) = .ok outcome ∧ outcome.ret ≠ -2 ∧
        outcome.sent.filterMap Outgoing.request? = alteredNewView.request := by decide
  obtain ⟨list, recomputed, seqs⟩ : ∃ list, replicaFour.getPrepareMsg (newViewEnv alteredNewView) alteredNewView false =
      .ok list ∧ list.map (fun request => request.seq) = [1] := by decide
  refine ⟨outcome, list, ran, accepted, recomputed, sent, fun agree => ?_⟩
  cases agree with
  | cons agrees rest =>
    cases rest
    simp [← agrees.2.1] at seqs

variable {entry : PreparedMessage}

structure Reached (r : Replica) (env : Env) (message : NewViewMessage) : Prop where
  view : message.viewNumber = addUInt64 r.getCurrentView r.viewChangeManager.viewChangeCounter
  valid : ∀ msg ∈ message.viewchangeMessages, r.isValidViewChangeMsg env msg = true

def Used (message : NewViewMessage) (entry : PreparedMessage) : Prop :=
  firstRedo message ≤ entry.seq ∧ (entriesFor message entry.seq).getLast? = some entry

def isReplica (r : Replica) (i : Int) : Prop := ∃ replica ∈ r.config.replicas, replica.id = i
deriving Decidable

def Verified (env : Env) (entry : PreparedMessage) (proof : PreparedProof) : Prop :=
  proof.request.seq = entry.seq ∧ env.verifyMessage (env.codec.serializeRequest proof.request) proof.signature = true
deriving Decidable

def PreparedBy (r : Replica) (entry : PreparedMessage) (good : PreparedProof → Prop) : Prop :=
  ∃ (hash : String) (view : Nat) (signers : Finset Int), r.config.getMinDataReceiveNum ≤ signers.card ∧
    ∀ i ∈ signers, isReplica r i ∧ ∃ proof ∈ entry.proof, proof.request.type = .prepare ∧
      proof.request.hash = hash ∧ proof.request.currentView = view ∧ proof.signature.nodeId = i ∧ good proof

def Checked (message : NewViewMessage) (entry : PreparedMessage) : Prop :=
  ∃ msg ∈ message.viewchangeMessages, entry ∈ msg.preparedMsg ∧ msg.stableCkpt.seq < entry.seq
deriving Decidable

theorem isValidPrepared_iff {stable : Nat} (above : stable < entry.seq) : r.isValidPrepared env stable entry = true ↔
      r.config.getMinDataReceiveNum ≤ entry.proof.length ∧ ∀ proof ∈ entry.proof, Verified env entry proof := by
  unfold Replica.isValidPrepared Verified
  rw [if_neg (not_le.mpr above)]
  split_ifs with few
  · simp [few]
  · simp [not_lt.mp few]

theorem Reached.checked (reached : Reached r env message) (checked : Checked message entry) :
    entry.proof ≠ [] ∧ ∀ proof ∈ entry.proof, Verified env entry proof := by
  obtain ⟨msg, inside, listed, above⟩ := checked
  have valid := reached.valid msg inside
  unfold Replica.isValidViewChangeMsg at valid
  split at valid
  · cases valid
  split at valid
  · cases valid
  have passed := (isValidPrepared_iff above).mp (all_eq_true.mp valid entry listed)
  refine ⟨?_, passed.2⟩
  intro nothing
  have least := passed.1
  have positive := r.config.getMinDataReceiveNum_eq
  rw [nothing, length_nil] at least
  omega

theorem PreparedBy.imp {good better : PreparedProof → Prop} (prepared : PreparedBy r entry good)
    (improves : ∀ proof ∈ entry.proof, good proof → better proof) : PreparedBy r entry better := by
  obtain ⟨hash, view, signers, enough, signed⟩ := prepared
  refine ⟨hash, view, signers, enough, fun i member => ?_⟩
  obtain ⟨known, proof, inside, type, sameHash, sameView, signer, holds⟩ := signed i member
  exact ⟨known, proof, inside, type, sameHash, sameView, signer, improves proof inside holds⟩

def Accepts (r : Replica) (env : Env) (message : NewViewMessage) : Prop :=
  ∃ maxSeq, r.checkNewView env message = .ok (some maxSeq)

theorem evidence_verified (reached : Reached r env message) : ((∀ entry ∈ preparedEntries message, entry.proof ≠ []) ∧
      (Accepts r env message → ∀ entry, Used message entry → PreparedBy r entry (Verified env entry))) ↔
    ((∀ entry ∈ preparedEntries message, Checked message entry ∨ entry.proof ≠ []) ∧
      (Accepts r env message → ∀ entry, Used message entry →
        PreparedBy r entry fun proof => Checked message entry ∨ Verified env entry proof)) := by
  constructor
  · rintro ⟨present, certified⟩
    constructor
    · exact fun entry member => .inr (present entry member)
    · exact fun accepts entry used => (certified accepts entry used).imp fun _ _ verified => .inr verified
  · rintro ⟨present, named⟩
    constructor
    · intro entry member
      rcases present entry member with checked | some
      · exact (reached.checked checked).1
      · exact some
    · intro accepts entry used
      refine (named accepts entry used).imp fun proof inside holds => ?_
      rcases holds with checked | verified
      · exact (reached.checked checked).2 proof inside
      · exact verified

def prepareBy (i : Int) : PreparedProof where
  request := { type := .prepare, seq := 1, currentView := 1, hash := "a", senderId := i }
  signature := ⟨i, "signature"⟩

def newViewWith (entries : List PreparedMessage) (stable : Nat) : NewViewMessage where
  viewNumber := 2
  request := [{ type := .commit, seq := 1, currentView := 2, hash := "a", senderId := 2 }]
  viewchangeMessages := [{ viewNumber := 2, preparedMsg := entries, stableCkpt := { seq := stable } },
    viewChangeZero, viewChangeZero]

def threeSigners : NewViewMessage := newViewWith [⟨1, [prepareBy 1, prepareBy 2, prepareBy 3]⟩] 0

def oneSigner : NewViewMessage := newViewWith [⟨1, [prepareBy 4, prepareBy 4, prepareBy 4]⟩] 0

theorem accepts_of_check (passed : ∃ accepted, r.checkNewView env message = .ok accepted ∧ accepted.isSome = true) :
    Accepts r env message := by
  obtain ⟨accepted, ran, some⟩ := passed
  obtain ⟨maxSeq, rfl⟩ := Option.isSome_iff_exists.mp some
  exact ⟨maxSeq, ran⟩

theorem used_unique {only other : PreparedMessage} (entries : preparedEntries message = [only])
    (used : Used message other) : other = only := by
  have member := mem_of_mem_filter (mem_of_getLast? used.2)
  rw [entries] at member
  exact mem_singleton.mp member

theorem threeSigners_verified : Accepts replicaFour plainEnv threeSigners ∧
    ∃ entry, Used threeSigners entry ∧ PreparedBy replicaFour entry (Verified plainEnv entry) := by
  have reached : Reached replicaFour plainEnv threeSigners := ⟨by decide, by decide⟩
  have accepts : Accepts replicaFour plainEnv threeSigners := accepts_of_check (by decide)
  have used : Used threeSigners ⟨1, [prepareBy 1, prepareBy 2, prepareBy 3]⟩ := ⟨by decide, by decide⟩
  refine ⟨accepts, _, used, ((evidence_verified reached).mpr ⟨by decide, fun _ entry other => ?_⟩).2 accepts _ used⟩
  rw [used_unique rfl other]
  exact ⟨"a", 1, {1, 2, 3}, by decide, by decide⟩

def noProof : NewViewMessage := newViewWith [⟨1, []⟩] 5

theorem unverified_used : (∃ entry, Accepts replicaFour plainEnv oneSigner ∧ Used oneSigner entry ∧
      ¬ PreparedBy replicaFour entry (Verified plainEnv entry)) ∧
    ∃ trace s, (server (viewConfig 4)).Run trace s ∧ Reached s.replica viewEnv noProof ∧
      (∃ entry ∈ preparedEntries noProof, entry.proof = []) ∧
      s.replica.checkNewView viewEnv noProof = .error .missingProof := by
  constructor
  · refine ⟨⟨1, [prepareBy 4, prepareBy 4, prepareBy 4]⟩, accepts_of_check (by decide), ⟨by decide, by decide⟩, ?_⟩
    rintro ⟨hash, view, signers, enough, signed⟩
    have own : ∀ proof ∈ [prepareBy 4, prepareBy 4, prepareBy 4], proof.signature.nodeId = 4 := by decide
    have only : signers ⊆ {4} := by
      intro i member
      obtain ⟨-, proof, inside, -, -, -, signer, -⟩ := signed i member
      rw [← signer, own proof inside]
      exact Finset.mem_singleton_self 4
    have few := Finset.card_le_card only
    have least : replicaFour.config.getMinDataReceiveNum = 3 := by decide
    simp only [Finset.card_singleton] at few
    omega
  · obtain ⟨trace, s, run, view, valid, fault⟩ := exists_server_run (viewConfig 4) checkpoints
      (fun _ s => noProof.viewNumber = addUInt64 s.replica.getCurrentView
          s.replica.viewChangeManager.viewChangeCounter ∧
        (∀ msg ∈ noProof.viewchangeMessages, s.replica.isValidViewChangeMsg viewEnv msg = true) ∧
        s.replica.checkNewView viewEnv noProof = .error .missingProof) (by decide)
    exact ⟨trace, s, run, ⟨view, valid⟩, by decide, fault⟩

end ResilientDB.Proof
