import ResilientDB.Library.Except
import ResilientDB.Model.Collector

namespace ResilientDB.Proof
open Model Library

variable {config : ResDBConfig} {c d : TransactionCollector} {request : Request} {signature : SignatureInfo}
  {result : AddResult} {callBack : CallBack} {address : Nat} {hash : String} {sender i : Int} {isMainRequest : Bool}
  {r : Request}

def IsPhase (type : RequestType) : Prop := type = .prePrepare ∨ type = .prepare ∨ type = .commit
deriving Decidable

def Open (c : TransactionCollector) (request : Request) : Prop :=
  c.isCommitted = false ∧ c.status ≠ .executed ∧ c.seq = request.seq
deriving Decidable

def mainHash (c : TransactionCollector) : Option String :=
  match c.mainRequest with
  | .stored info => some info.request.hash
  | _ => none

theorem mainHash_eq_some :
    mainHash c = some hash ↔ ∃ info, c.mainRequest = .stored info ∧ info.request.hash = hash := by
  unfold mainHash
  cases c.mainRequest <;> simp

def batchOf (request : Request) : Request := { request with committedCerts := [] }

def withProof (c : TransactionCollector) (request : Request) (signature : SignatureInfo) : TransactionCollector :=
  { c with preparedProof := c.preparedProof ++ [⟨request, signature⟩] }

def voteCount (c : TransactionCollector) (request : Request) : Nat :=
  (insert request.senderId (c.senders request.type request.hash)).card

def Due (config : ResDBConfig) (c : TransactionCollector) (request : Request) : Prop :=
  config.getMinDataReceiveNum ≤ voteCount c request ∧
    (request.type = .prepare ∧ c.status = .readyPrepare ∨ request.type = .commit ∧ c.status = .readyCommit)

def Proves (c : TransactionCollector) (request : Request) : Prop :=
  c.enableViewchange = true ∧ request.type = .prepare
deriving Decidable

abbrev withVote (c : TransactionCollector) (request : Request) (signature : SignatureInfo) : TransactionCollector :=
  { c with
    senders := (c.setSender request.type request.hash request.senderId).senders
    preparedProof := if Proves c request then (withProof c request signature).preparedProof else c.preparedProof
    commitCerts := (c.addCert request).commitCerts }

abbrev withQuorum (c : TransactionCollector) (request : Request) (signature : SignatureInfo) (main : MainRequest)
    (others : List RequestInfo) : TransactionCollector :=
  { c with
    senders := (c.setSender request.type request.hash request.senderId).senders
    status := .readyCommit, mainRequest := main, otherMainRequest := others
    isPrepared := if c.enableViewchange then true else c.isPrepared
    preparedProof := if c.enableViewchange
      then (withProof c request signature).preparedProof.filter fun proof => proof.request.hash = request.hash
      else c.preparedProof }

abbrev withCommit (c : TransactionCollector) (request : Request) (main : MainRequest) (committed : Bool) :
    TransactionCollector :=
  { c with
    senders := (c.setSender request.type request.hash request.senderId).senders
    status := .executed, isCommitted := committed, mainRequest := main
    commitCerts := (c.addCert request).commitCerts }

structure Prepared (config : ResDBConfig) (c : TransactionCollector) (request : Request)
    (d : TransactionCollector) : Prop where
  type : request.type = .prepare
  before : c.status = .readyPrepare
  quorum : config.getMinDataReceiveNum ≤ (d.senders .prepare request.hash).card
  after : d.status = .readyCommit
  senders : d.senders = (c.setSender request.type request.hash request.senderId).senders
  unprepared : c.enableViewchange = true → c.isPrepared = false
  kept : c.enableViewchange = false → d.mainRequest = c.mainRequest
  same : mainHash c = some request.hash → d.mainRequest = c.mainRequest
  selected : c.enableViewchange = true → ∀ info, d.mainRequest = .stored info →
    info.request.hash = request.hash ∧ (c.mainRequest = .stored info ∨ info ∈ c.otherMainRequest)
  others : d.otherMainRequest = c.otherMainRequest ∨ d.otherMainRequest = []
  unmoved : d.mainRequest ≠ .moved ∨ c.mainRequest = .moved

structure Executed (config : ResDBConfig) (c : TransactionCollector) (request : Request)
    (d : TransactionCollector) (handed : Option Request) : Prop where
  type : request.type = .commit
  before : c.status = .readyCommit
  quorum : config.getMinDataReceiveNum ≤
    ((c.setSender request.type request.hash request.senderId).senders .commit request.hash).card
  after : d.status = .executed
  senders : d.senders = (c.setSender request.type request.hash request.senderId).senders
  stored : ∀ info, c.mainRequest = .stored info → d.mainRequest = .moved ∧
    handed = some { info.request with committedCerts := info.request.committedCerts ++ d.commitCerts }
  notStored : (∀ info, c.mainRequest ≠ .stored info) → handed = none ∧ d.mainRequest = c.mainRequest

inductive Added (config : ResDBConfig) (c : TransactionCollector) (request : Request)
    (signature : SignatureInfo) : AddResult → Prop
  | rejected : ¬ Open c request → Added config c request signature ⟨c, -2, false, none⟩
  | proposed (force : Bool) : Open c request → request.type = .prePrepare →
      (force = true → c.view ≠ 0 ∧ c.view < request.currentView ∧ c.isPrepared = false) →
      (force = false → c.mainRequest = .empty) →
      Added config c request signature
        { collector := { c with
            mainRequest := .stored ⟨request, signature⟩, view := request.currentView
            status := if c.status = .none then .readyPrepare else c.status }
          ret := 0, changed := decide (c.status = .none) || force }
  | candidate (others : List RequestInfo) : Open c request → request.type = .prePrepare →
      c.mainRequest ≠ .empty →
      (∀ info, info ∈ others ↔ info = ⟨request, signature⟩ ∨ info ∈ c.otherMainRequest) →
      others.length = c.otherMainRequest.length + 1 →
      Added config c request signature ⟨{ c with otherMainRequest := others }, -2, false, none⟩
  | ignored : Open c request → Proves c request → ¬ (c.status ≤ .readyPrepare ∧ c.isPrepared = false) →
      Added config c request signature ⟨c, 0, false, none⟩
  | voted : Open c request → request.type ≠ .prePrepare → ¬ Due config c request →
      (Proves c request → c.status ≤ .readyPrepare ∧ c.isPrepared = false) →
      Added config c request signature ⟨withVote c request signature, 0, false, none⟩
  | prepared {main : MainRequest} {others : List RequestInfo} : Open c request →
      Prepared config c request (withQuorum c request signature main others) →
      Added config c request signature ⟨withQuorum c request signature main others, 0, true, none⟩
  | executed {main : MainRequest} {committed : Bool} {handed : Option Request} : Open c request →
      Executed config c request (withCommit c request main committed) handed →
      Added config c request signature ⟨withCommit c request main committed, 1, true, handed⟩

theorem countVote_ok {type : RequestType}
    (counted : c.countVote type hash sender = .ok d) :
    d = c.setSender type hash sender ∧ 0 ≤ sender ∧ sender < 128 := by
  unfold TransactionCollector.countVote at counted
  split_ifs at counted with inTable inRange
  cases counted
  exact ⟨rfl, by omega, by omega⟩

theorem countVote_total {type : RequestType} (known : type.inTable = true)
    (least : 0 ≤ sender) (most : sender < 128) :
    c.countVote type hash sender = .ok (c.setSender type hash sender) := by
  unfold TransactionCollector.countVote
  rw [if_neg (by simp [known]), if_neg (by omega)]

@[simp] theorem setSender_senders (c : TransactionCollector) (type : RequestType) (hash : String)
    (sender : Int) : (c.setSender type hash sender).senders type hash =
      insert sender (c.senders type hash) := by
  simp [TransactionCollector.setSender]

theorem mem_setSender {type type' : RequestType} {hash' : String} :
    i ∈ (c.setSender type hash sender).senders type' hash' ↔
      i ∈ c.senders type' hash' ∨ (type' = type ∧ hash' = hash ∧ i = sender) := by
  simp only [TransactionCollector.setSender]
  by_cases sameType : type' = type
  · subst sameType
    by_cases sameHash : hash' = hash
    · subst sameHash
      simp [or_comm]
    · simp [sameHash]
  · simp [sameType]

theorem addCert_eq (c : TransactionCollector) (request : Request) :
    c.addCert request = { c with commitCerts := (c.addCert request).commitCerts } := by
  unfold TransactionCollector.addCert
  split
  · split_ifs <;> rfl
  · rfl

theorem addCert_other (other : request.type ≠ .commit) : c.addCert request = c := by
  unfold TransactionCollector.addCert
  split
  · rw [if_neg fun both => other both.1]
  · rfl

theorem selectMainRequest_ok (selected : c.selectMainRequest hash = .ok d) :
    ∃ main others, d = { c with mainRequest := main, otherMainRequest := others } ∧
      (∀ info, main = .stored info → info.request.hash = hash ∧
        (c.mainRequest = .stored info ∨ info ∈ c.otherMainRequest)) ∧
      (mainHash c = some hash → main = c.mainRequest) ∧
      (others = c.otherMainRequest ∨ others = []) ∧ main ≠ .moved := by
  unfold TransactionCollector.selectMainRequest at selected
  split at selected
  · rename_i empty
    cases selected
    exact ⟨c.mainRequest, c.otherMainRequest, rfl, by simp [empty], fun _ => rfl, .inl rfl, by simp [empty]⟩
  · cases selected
  · rename_i info stored
    split_ifs at selected with same
    · cases selected
      refine ⟨c.mainRequest, c.otherMainRequest, rfl, ?_, fun _ => rfl, .inl rfl, by simp [stored]⟩
      intro other eq
      rw [stored, MainRequest.stored.injEq] at eq
      exact ⟨eq ▸ same, .inl (eq ▸ stored)⟩
    · have other : mainHash c ≠ some hash := by simp [mainHash, stored, same]
      cases found : c.otherMainRequest.find? (fun other => other.request.hash = hash) with
      | none =>
        simp only [found, Except.ok.injEq] at selected
        exact ⟨.empty, [], selected.symm, by simp, fun main => absurd main other, .inr rfl, by simp⟩
      | some info' =>
        simp only [found, Except.ok.injEq] at selected
        refine ⟨.stored info', [], selected.symm, ?_, fun main => absurd main other, .inr rfl, by simp⟩
        intro chosen eq
        cases eq
        have matching := List.find?_some found
        exact ⟨by simpa using matching, .inr (List.mem_of_find?_eq_some found)⟩

theorem selectMainRequest_total {hash : String} (unmoved : c.mainRequest ≠ .moved) :
    ∃ d, c.selectMainRequest hash = .ok d := by
  unfold TransactionCollector.selectMainRequest
  cases main : c.mainRequest with
  | empty => exact ⟨_, rfl⟩
  | moved => exact absurd main unmoved
  | stored info =>
    dsimp only
    split
    · exact ⟨_, rfl⟩
    · exact ⟨_, rfl⟩

theorem addMainRequest_spec (isOpen : Open c request) (type : request.type = .prePrepare) :
    Added config c request signature
      (c.addMainRequest address request signature (mayConsensusChangeStatus config request.type)) := by
  unfold TransactionCollector.addMainRequest
  simp only [type, mayConsensusChangeStatus]
  generalize hforce : decide (c.view ≠ 0 ∧ c.view < request.currentView ∧ c.isPrepared = false) = force
  have forced : force = true → c.view ≠ 0 ∧ c.view < request.currentView ∧ c.isPrepared = false := by
    rintro rfl
    exact of_decide_eq_true hforce
  by_cases free : force = true ∨ c.mainRequest = .empty
  · have empty : (if force = true then MainRequest.empty else c.mainRequest) = .empty := by
      rcases free with rfl | free
      · rfl
      · simp [free]
    have unforced : force = false → c.mainRequest = .empty := by
      rintro rfl
      simpa using free
    have added : Added config c request signature _ := .proposed force isOpen type forced unforced
    rw [empty]
    by_cases fresh : c.status = .none <;> simpa [fresh] using added
  · push Not at free
    obtain ⟨unforced, taken⟩ := free
    have added : Added config c request signature _ :=
      .candidate (c.otherMainRequest.insertIdx (min address c.otherMainRequest.length) ⟨request, signature⟩)
        isOpen type taken (fun info => List.mem_insertIdx (Nat.min_le_right _ _))
        (List.length_insertIdx_of_le_length (Nat.min_le_right _ _) _)
    cases hmain : c.mainRequest with
    | empty => exact absurd hmain taken
    | _ => simpa [unforced, hmain] using added

theorem addPrepare_eq (config : ResDBConfig) (signature : SignatureInfo) (type : request.type = .prepare)
    (least : 0 ≤ request.senderId) (most : request.senderId < 128) (early : c.status ≤ .readyPrepare)
    (unprepared : c.isPrepared = false) :
    c.addPrepare request signature (mayConsensusChangeStatus config request.type) =
      if c.status = .readyPrepare ∧ config.getMinDataReceiveNum ≤ voteCount c request then
        (TransactionCollector.selectMainRequest
          { (withProof c request signature).setSender request.type request.hash request.senderId with
            status := .readyCommit, isPrepared := true } request.hash).map
          fun selected => { collector := selected.keepProofs request.hash, ret := 0, changed := true }
      else .ok {
        collector := (withProof c request signature).setSender request.type request.hash request.senderId
        ret := 0 } := by
  have known : request.type.inTable = true := by rw [type]; rfl
  have votes : (((withProof c request signature).setSender request.type request.hash
      request.senderId).senders request.type request.hash).card = voteCount c request := by
    rw [setSender_senders]
    rfl
  unfold TransactionCollector.addPrepare
  rw [if_neg (by simp [early, unprepared])]
  change (do
    let counted ← (withProof c request signature).countVote request.type request.hash request.senderId
    _) = _
  rw [countVote_total known least most]
  simp only [bind, Except.bind, votes]
  have status : ((withProof c request signature).setSender request.type request.hash
      request.senderId).status = c.status := rfl
  rw [status]
  simp only [mayConsensusChangeStatus, type]
  by_cases fires : c.status = .readyPrepare ∧ config.getMinDataReceiveNum ≤ voteCount c request
  · simp only [fires, and_self, ↓reduceIte]
    cases TransactionCollector.selectMainRequest _ request.hash <;> rfl
  · rw [if_neg fires, if_neg fires]
    have running : c.status ≠ .readyCommit := by
      intro committed
      rw [committed] at early
      exact absurd early (by decide)
    simp only [running, ↓reduceIte]
    rfl

theorem addPrepare_range (early : c.status ≤ .readyPrepare) (unprepared : c.isPrepared = false)
    (ran : c.addPrepare request signature callBack = .ok result) :
    0 ≤ request.senderId ∧ request.senderId < 128 := by
  unfold TransactionCollector.addPrepare at ran
  rw [if_neg (by simp [early, unprepared]), bind_eq_ok] at ran
  obtain ⟨counted, vote, -⟩ := ran
  exact (countVote_ok vote).2

theorem prepared_of_selected {selected : TransactionCollector} (enabled : c.enableViewchange = true)
    (type : request.type = .prepare) (before : c.status = .readyPrepare) (unprepared : c.isPrepared = false)
    (quorum : config.getMinDataReceiveNum ≤ voteCount c request)
    (select : TransactionCollector.selectMainRequest
      { (withProof c request signature).setSender request.type request.hash request.senderId with
        status := .readyCommit, isPrepared := true } request.hash = .ok selected) :
    ∃ main others, selected.keepProofs request.hash = withQuorum c request signature main others ∧
      Prepared config c request (withQuorum c request signature main others) := by
  obtain ⟨main, others, rfl, chosen, same, left, unmoved⟩ := selectMainRequest_ok select
  refine ⟨main, others, ?_, ?_⟩
  · unfold withQuorum
    rw [if_pos enabled, if_pos enabled]
    rfl
  · exact {
      type := type
      before := before
      quorum := by
        rw [← type]
        simpa [voteCount] using quorum
      after := rfl
      senders := rfl
      unprepared := fun _ => unprepared
      kept := fun disabled => by simp [enabled] at disabled
      same := same
      selected := fun _ info stored => chosen info stored
      others := left
      unmoved := .inl unmoved }

theorem addPrepare_late (late : ¬ (c.status ≤ .readyPrepare ∧ c.isPrepared = false)) :
    c.addPrepare request signature callBack = .ok { collector := c, ret := 0 } := by
  unfold TransactionCollector.addPrepare
  rw [if_pos (by simpa [or_iff_not_imp_left] using late)]

theorem addPrepare_spec (isOpen : Open c request) (proves : Proves c request)
    (ran : c.addPrepare request signature (mayConsensusChangeStatus config request.type) = .ok result) :
    Added config c request signature result := by
  obtain ⟨enabled, type⟩ := proves
  by_cases counts : c.status ≤ .readyPrepare ∧ c.isPrepared = false
  · obtain ⟨early, unprepared⟩ := counts
    obtain ⟨least, most⟩ := addPrepare_range early unprepared ran
    rw [addPrepare_eq config signature type least most early unprepared] at ran
    split_ifs at ran with fires
    · obtain ⟨selected, select, rfl⟩ := map_eq_ok.mp ran
      obtain ⟨main, others, same, prepared⟩ :=
        @prepared_of_selected config _ _ _ _ enabled type fires.1 unprepared fires.2 select
      rw [same]
      exact .prepared isOpen prepared
    · have voted : Added config c request signature ⟨withVote c request signature, 0, false, none⟩ := by
        refine .voted isOpen (by simp [type]) ?_ fun _ => ⟨early, unprepared⟩
        rintro ⟨quorum, ⟨-, before⟩ | ⟨commit, -⟩⟩
        · exact fires ⟨before, quorum⟩
        · cases type.symm.trans commit
      simp only [withVote, if_pos (show Proves c request from ⟨enabled, type⟩),
        addCert_other (show request.type ≠ .commit by simp [type])] at voted
      cases ran
      exact voted
  · rw [addPrepare_late counts] at ran
    cases ran
    exact .ignored isOpen ⟨enabled, type⟩ counts

theorem addVote_eq (config : ResDBConfig) (known : request.type.inTable = true) (other : request.type ≠ .prePrepare)
    (running : c.status ≠ .readyExecute)
    (least : 0 ≤ request.senderId) (most : request.senderId < 128) :
    c.addVote request (mayConsensusChangeStatus config request.type) =
      if request.type = .prepare ∧ c.status = .readyPrepare ∧
          config.getMinDataReceiveNum ≤ voteCount c request then
        .ok { collector := { c.setSender request.type request.hash request.senderId with status := .readyCommit }
              ret := 0, changed := true }
      else if request.type = .commit ∧ c.status = .readyCommit ∧
          config.getMinDataReceiveNum ≤ voteCount c request then
        let done := TransactionCollector.commit { (c.addCert request).setSender request.type request.hash
          request.senderId with status := .readyExecute }
        .ok { collector := done.1, ret := 1, changed := true, committed := done.2 }
      else .ok {
        collector := (c.addCert request).setSender request.type request.hash request.senderId
        ret := 0 } := by
  have votes : (((c.addCert request).setSender request.type request.hash
      request.senderId).senders request.type request.hash).card = voteCount c request := by
    rw [addCert_eq, setSender_senders]
    rfl
  have status : ((c.addCert request).setSender request.type request.hash request.senderId).status = c.status := by
    rw [addCert_eq]
    rfl
  unfold TransactionCollector.addVote
  rw [countVote_total known least most]
  simp only [bind, Except.bind, votes, status]
  by_cases prepares : request.type = .prepare ∧ c.status = .readyPrepare ∧
      config.getMinDataReceiveNum ≤ voteCount c request
  · obtain ⟨isPrepare, before, quorum⟩ := prepares
    simp [mayConsensusChangeStatus, isPrepare, before, quorum, addCert_other]
  rw [if_neg prepares]
  by_cases commits : request.type = .commit ∧ c.status = .readyCommit ∧
      config.getMinDataReceiveNum ≤ voteCount c request
  · obtain ⟨isCommit, before, quorum⟩ := commits
    simp [mayConsensusChangeStatus, isCommit, before, quorum]
  · have judged : mayConsensusChangeStatus config request.type (voteCount c request) c.status false =
        (false, c.status) := by
      unfold mayConsensusChangeStatus
      split <;> simp_all
    rw [if_neg commits, judged]
    simp only [running, ↓reduceIte]
    rw [← status]

theorem addVote_cases (ran : c.addVote request callBack = .ok result) :
    ∃ counted changed status, (c.addCert request).countVote request.type request.hash request.senderId = .ok counted ∧
      callBack (counted.senders request.type request.hash).card counted.status false = (changed, status) ∧
      (result = {
        collector := (TransactionCollector.commit { counted with status := status }).1, ret := 1, changed := changed
        committed := (TransactionCollector.commit { counted with status := status }).2 } ∨
      result = { collector := { counted with status := status }, ret := 0, changed := changed }) := by
  unfold TransactionCollector.addVote at ran
  obtain ⟨counted, vote, ran⟩ := bind_eq_ok.mp ran
  refine ⟨counted, _, _, vote, rfl, ?_⟩
  dsimp only at ran
  split at ran
  · exact .inl (Except.ok.inj ran).symm
  · exact .inr (Except.ok.inj ran).symm

theorem addVote_range (ran : c.addVote request callBack = .ok result) :
    request.type.inTable = true ∧ 0 ≤ request.senderId ∧ request.senderId < 128 := by
  obtain ⟨counted, -, -, vote, -⟩ := addVote_cases ran
  refine ⟨?_, (countVote_ok vote).2⟩
  unfold TransactionCollector.countVote at vote
  split at vote
  · cases vote
  · rename_i known
    simpa using known

theorem prepared_of_vote (isPrepare : request.type = .prepare) (disabled : c.enableViewchange = false)
    (before : c.status = .readyPrepare) (quorum : config.getMinDataReceiveNum ≤ voteCount c request) :
    Prepared config c request (withQuorum c request signature c.mainRequest c.otherMainRequest) where
  type := isPrepare
  before := before
  quorum := by
    rw [← isPrepare]
    simpa [voteCount] using quorum
  after := rfl
  senders := rfl
  unprepared := fun enabled => by simp [disabled] at enabled
  kept := fun _ => rfl
  same := fun _ => rfl
  selected := fun enabled => by simp [disabled] at enabled
  others := .inl rfl
  unmoved := (em (c.mainRequest = .moved)).symm

theorem executed_of_vote (isCommit : request.type = .commit) (before : c.status = .readyCommit)
    (quorum : config.getMinDataReceiveNum ≤ voteCount c request) :
    ∃ main committed handed, TransactionCollector.commit { (c.addCert request).setSender request.type request.hash
        request.senderId with status := .readyExecute } = (withCommit c request main committed, handed) ∧
      Executed config c request (withCommit c request main committed) handed := by
  rw [addCert_eq]
  have enough : config.getMinDataReceiveNum ≤
      ((c.setSender request.type request.hash request.senderId).senders .commit request.hash).card := by
    rw [← isCommit, setSender_senders]
    exact quorum
  simp only [TransactionCollector.commit, TransactionCollector.setSender, ne_eq, not_true_eq_false, ↓reduceIte]
  cases main : c.mainRequest with
  | empty =>
    exact ⟨.empty, c.isCommitted, none, rfl, isCommit, before, enough, rfl, rfl, by simp [main], by simp [main]⟩
  | moved => exact ⟨.moved, true, none, rfl, isCommit, before, enough, rfl, rfl, by simp [main], by simp [main]⟩
  | stored info => exact ⟨.moved, true, _, rfl, isCommit, before, enough, rfl, rfl, by simp [main], by simp [main]⟩

theorem addVote_spec (isOpen : Open c request) (running : c.status ≠ .readyExecute) (type : request.type ≠ .prePrepare)
    (disabled : request.type = .prepare → c.enableViewchange = false)
    (ran : c.addVote request (mayConsensusChangeStatus config request.type) = .ok result) :
    Added config c request signature result := by
  obtain ⟨known, least, most⟩ := addVote_range ran
  rw [addVote_eq config known type running least most] at ran
  split at ran
  · rename_i prepares
    obtain ⟨isPrepare, before, quorum⟩ := prepares
    have prepared := Added.prepared isOpen
      (@prepared_of_vote config _ _ signature isPrepare (disabled isPrepare) before quorum)
    unfold withQuorum at prepared
    rw [if_neg (by simp [disabled isPrepare]), if_neg (by simp [disabled isPrepare])] at prepared
    cases ran
    exact prepared
  rename_i unprepared
  split_ifs at ran with commits
  · obtain ⟨isCommit, before, quorum⟩ := commits
    obtain ⟨main, committed, handed, done, executed⟩ := @executed_of_vote config _ _ isCommit before quorum
    rw [done] at ran
    cases ran
    exact .executed isOpen executed
  · have unproved : ¬ Proves c request := fun proves => by
      cases (disabled proves.2).symm.trans proves.1
    have voted : Added config c request signature ⟨withVote c request signature, 0, false, none⟩ := by
      refine .voted isOpen type ?_ fun proves => absurd proves unproved
      rintro ⟨quorum, ⟨prepare, before⟩ | ⟨commit, before⟩⟩
      · exact unprepared ⟨prepare, before, quorum⟩
      · exact commits ⟨commit, before, quorum⟩
    simp only [withVote, if_neg unproved] at voted
    rw [addCert_eq] at ran
    cases ran
    exact voted

theorem addRequest_closed (closed : ¬ Open c request) :
    c.addRequest address request signature isMainRequest callBack = .ok { collector := c, ret := -2 } := by
  unfold TransactionCollector.addRequest
  by_cases committed : c.isCommitted = true
  · rw [if_pos committed]
  by_cases executed : c.status = .executed
  · rw [if_neg committed, if_pos executed]
  have seq : c.seq ≠ request.seq := fun same =>
    closed ⟨Bool.eq_false_of_not_eq_true committed, executed, same⟩
  rw [if_neg committed, if_neg executed, if_pos seq]

theorem addRequest_open (isOpen : Open c request) :
    c.addRequest address request signature isMainRequest callBack =
      if isMainRequest then .ok (c.addMainRequest address request signature callBack)
      else if c.enableViewchange ∧ request.type = .prepare then c.addPrepare request signature callBack
      else c.addVote request callBack := by
  obtain ⟨committed, executed, seq⟩ := isOpen
  unfold TransactionCollector.addRequest
  rw [if_neg (by simp [committed]), if_neg executed, if_neg (not_not.mpr seq)]

theorem addRequest_spec (running : c.status ≠ .readyExecute)
    (ran : c.addRequest address request signature (request.type = .prePrepare)
      (mayConsensusChangeStatus config request.type) = .ok result) :
    Added config c request signature result := by
  by_cases isOpen : Open c request
  · rw [addRequest_open isOpen] at ran
    by_cases isMain : request.type = .prePrepare
    · rw [if_pos (by simp [isMain])] at ran
      cases ran
      exact addMainRequest_spec isOpen isMain
    · rw [if_neg (by simp [isMain])] at ran
      by_cases branch : c.enableViewchange = true ∧ request.type = .prepare
      · rw [if_pos branch] at ran
        exact addPrepare_spec isOpen branch ran
      · rw [if_neg branch] at ran
        refine addVote_spec isOpen running isMain (fun isPrepare => ?_) ran
        simpa [isPrepare] using branch
  · rw [addRequest_closed isOpen] at ran
    cases ran
    exact .rejected isOpen

theorem addConsensusMsg_executed {d : Delivery} (done : c.status = .executed) :
    c.addConsensusMsg config d = .ok ⟨c, -2, false, none⟩ := by
  unfold TransactionCollector.addConsensusMsg
  split
  · exact addRequest_closed fun opened => opened.2.1 done
  · rfl

def Unmoved (c : TransactionCollector) : Prop := c.mainRequest = .moved → c.status = .executed

theorem addPrepare_total (type : request.type = .prepare) (unmoved : Unmoved c) (least : 0 ≤ request.senderId)
    (most : request.senderId < 128) :
    ∃ result, c.addPrepare request signature (mayConsensusChangeStatus config request.type) = .ok result := by
  by_cases counts : c.status ≤ .readyPrepare ∧ c.isPrepared = false
  · rw [addPrepare_eq config signature type least most counts.1 counts.2]
    split_ifs with fires
    · have kept : c.mainRequest ≠ .moved := fun moved => by cases (unmoved moved).symm.trans fires.1
      obtain ⟨d, selected⟩ := @selectMainRequest_total
        { (withProof c request signature).setSender request.type request.hash request.senderId with
          status := .readyCommit, isPrepared := true } request.hash kept
      rw [selected]
      exact ⟨_, rfl⟩
    · exact ⟨_, rfl⟩
  · exact ⟨_, addPrepare_late counts⟩

theorem addConsensusMsg_total {d : Delivery} (running : c.status ≠ .readyExecute) (unmoved : Unmoved c)
    (phase : IsPhase d.request.type)
    (range : d.request.type ≠ .prePrepare → 0 ≤ d.request.senderId ∧ d.request.senderId < 128) :
    ∃ result, c.addConsensusMsg config d = .ok result := by
  unfold TransactionCollector.addConsensusMsg
  split
  · by_cases opened : Open c d.request
    · rw [addRequest_open opened]
      split
      · exact ⟨_, rfl⟩
      · rename_i notMain
        have other : d.request.type ≠ .prePrepare := by simpa using notMain
        obtain ⟨least, most⟩ := range other
        have vote := phase.resolve_left other
        have known : d.request.type.inTable = true := by rcases vote with type | type <;> rw [type] <;> rfl
        split_ifs with branch
        · exact addPrepare_total branch.2 unmoved least most
        · rw [addVote_eq config known other running least most]
          split
          · exact ⟨_, rfl⟩
          · split
            · exact ⟨_, rfl⟩
            · exact ⟨_, rfl⟩
    · exact ⟨_, addRequest_closed opened⟩
  · exact ⟨_, rfl⟩

def Holding (c : TransactionCollector) (info : RequestInfo) : Prop :=
  c.mainRequest = .stored info ∨ info ∈ c.otherMainRequest

section Added

variable (added : Added config c request signature result)
include added

theorem Added.senders {type : RequestType}
    (member : i ∈ result.collector.senders type hash) : i ∈ c.senders type hash ∨
      (type = request.type ∧ hash = request.hash ∧ i = request.senderId ∧ Open c request) := by
  have counted (isOpen : Open c request)
      (voted : i ∈ (c.setSender request.type request.hash request.senderId).senders type hash) :
      i ∈ c.senders type hash ∨
        (type = request.type ∧ hash = request.hash ∧ i = request.senderId ∧ Open c request) := by
    rcases mem_setSender.mp voted with old | ⟨sameType, sameHash, sender⟩
    · exact .inl old
    · exact .inr ⟨sameType, sameHash, sender, isOpen⟩
  cases added with
  | voted isOpen => exact counted isOpen member
  | prepared isOpen => exact counted isOpen member
  | executed isOpen => exact counted isOpen member
  | _ => exact .inl member

theorem Added.seq : result.collector.seq = c.seq := by
  cases added <;> rfl

theorem Added.enableViewchange : result.collector.enableViewchange = c.enableViewchange := by
  cases added <;> rfl

theorem Added.view : result.collector.view = c.view ∨
    (request.type = .prePrepare ∧ result.collector.view = request.currentView) := by
  cases added with
  | proposed _ _ type => exact .inr ⟨type, rfl⟩
  | _ => exact .inl rfl

theorem Added.started (started : c.status ≠ .none) : result.collector.status ≠ .none := by
  cases added with
  | prepared => simp
  | executed => simp
  | _ => simp [started]

theorem Added.running (running : c.status ≠ .readyExecute) : result.collector.status ≠ .readyExecute := by
  cases added with
  | proposed =>
    simp only
    split_ifs
    · simp
    · exact running
  | prepared => simp
  | executed => simp
  | _ => exact running

theorem Added.ready (ready : .readyCommit ≤ c.status) : .readyCommit ≤ result.collector.status := by
  cases added with
  | proposed =>
    dsimp only
    split_ifs with fresh
    · rw [fresh] at ready
      exact absurd ready (by decide)
    · exact ready
  | prepared => exact Nat.le_refl _
  | executed => exact show TransactionStatue.readyCommit ≤ .executed by decide
  | _ => exact ready

theorem Added.became_ready (ready : .readyCommit ≤ result.collector.status) :
    .readyCommit ≤ c.status ∨ Open c request ∧ Prepared config c request result.collector ∧
      ∃ main others, result = ⟨withQuorum c request signature main others, 0, true, none⟩ := by
  cases added with
  | proposed =>
    dsimp only at ready
    split_ifs at ready
    · exact absurd ready (by decide)
    · exact .inl ready
  | prepared isOpen prepared => exact .inr ⟨isOpen, prepared, _, _, rfl⟩
  | executed _ executed =>
    rw [executed.before]
    exact .inl (by decide)
  | _ => exact .inl ready

theorem prepared_of_changed (type : request.type = .prepare) (changed : result.changed = true) :
    Open c request ∧ Prepared config c request result.collector := by
  cases added with
  | proposed _ _ other => cases type.symm.trans other
  | prepared isOpen prepared => exact ⟨isOpen, prepared⟩
  | executed _ executed => cases type.symm.trans executed.type
  | _ => cases changed

theorem Added.executed_of_handed (handed : result.committed = some r) :
    Open c request ∧ Executed config c request result.collector (some r) := by
  cases added with
  | executed isOpen executed =>
    cases handed
    exact ⟨isOpen, executed⟩
  | _ => cases handed

theorem Added.handed_stored (handed : result.committed = some r) :
    ∃ info, c.mainRequest = .stored info ∧
      r = { info.request with committedCerts := info.request.committedCerts ++ result.collector.commitCerts } := by
  obtain ⟨-, executed⟩ := added.executed_of_handed handed
  by_cases stored : ∃ info, c.mainRequest = .stored info
  · obtain ⟨info, stored⟩ := stored
    exact ⟨info, stored, Option.some.inj (executed.stored info stored).2⟩
  · cases (executed.notStored (not_exists.mp stored)).1

theorem Added.unmoved (unmoved : Unmoved c) : Unmoved result.collector := by
  intro moved
  cases added with
  | proposed => cases moved
  | prepared _ prepared =>
    have before := unmoved (prepared.unmoved.resolve_left (not_not.mpr moved))
    cases before.symm.trans prepared.before
  | executed => rfl
  | _ => exact unmoved moved

theorem Added.held {P : RequestInfo → Prop} (held : ∀ info, Holding c info → P info)
    (new : request.type = .prePrepare → Open c request → P ⟨request, signature⟩) :
    ∀ info, Holding result.collector info → P info := by
  cases added with
  | proposed _ isOpen type =>
    rintro info (stored | other)
    · cases stored
      exact new type isOpen
    · exact held info (.inr other)
  | candidate others isOpen type _ members =>
    rintro info (stored | other)
    · exact held info (.inl stored)
    · rcases (members info).mp other with rfl | old
      · exact new type isOpen
      · exact held info (.inr old)
  | prepared _ prepared =>
    rintro info (stored | other)
    · cases enabled : c.enableViewchange with
      | false => exact held info (.inl ((prepared.kept enabled).symm.trans stored))
      | true => exact held info (prepared.selected enabled info stored).2
    · rcases prepared.others with same | none
      · exact held info (.inr (same ▸ other))
      · rw [none] at other
        cases other
  | executed _ executed =>
    rintro info (stored | other)
    · by_cases main : ∃ info, c.mainRequest = .stored info
      · obtain ⟨info, main⟩ := main
        cases (executed.stored info main).1.symm.trans stored
      · have same := (executed.notStored fun info here => main ⟨info, here⟩).2
        exact absurd ⟨info, same.symm.trans stored⟩ main
    · exact held info (.inr other)
  | _ => exact held

end Added

end ResilientDB.Proof
