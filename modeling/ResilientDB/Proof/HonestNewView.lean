import ResilientDB.Proof.NewView

namespace ResilientDB.Proof
open Model Library List

variable {p p' r : Replica} {env rEnv : Env} {message message' : NewViewMessage} {list : List Request} {v : Nat}
  {needSign : Bool} {request : Request} {msg : ViewChangeMessage}

theorem getPrepareMsg_again (r : Replica) (rEnv : Env) (ran : p.getPrepareMsg env message needSign = .ok list)
    (same : message'.viewchangeMessages = message.viewchangeMessages) :
    ∃ map : OrderedMap Nat Request, (∀ s, map.find? s = redone message s) ∧
      list = (List.range' (firstRedo message) (lastRedo message + 1 - firstRedo message)).filterMap
        (p.redoRequest env needSign message.viewNumber map) ∧
      r.getPrepareMsg rEnv message' false =
        .ok ((List.range' (firstRedo message) (lastRedo message + 1 - firstRedo message)).filterMap
          (r.redoRequest rEnv false message'.viewNumber map)) := by
  obtain ⟨map, collected, loop, whole⟩ := getPrepareMsg_walk ran
  obtain ⟨-, found⟩ := foldlM_addPreparedMsg collected
  refine ⟨map, found, whole, ?_⟩
  have first : firstRedo message' = firstRedo message := by rw [firstRedo, Replica.minStable, same]; rfl
  rw [getPrepareMsg_eq, Replica.collectPreparedMsg, same, ← Replica.collectPreparedMsg, collected, first]
  simp only [bind, Except.bind]
  rw [loop]

theorem redoRequest_data {map : OrderedMap Nat Request} {s : Nat} {viewNumber : Nat} {a b : Request}
    (first : p.redoRequest env needSign viewNumber map s = some a)
    (second : r.redoRequest rEnv false viewNumber map s = some b) :
    a.data = b.data ∧ a.seq = s ∧ b.seq = s ∧ (a.type = .prePrepare ↔ map.find? s = none) := by
  unfold Replica.redoRequest at first second
  cases found : map.find? s with
  | none =>
    simp only [found] at first second
    cases second
    split at first
    · obtain ⟨signature, -, rfl⟩ := Option.map_eq_some_iff.mp first
      simp [newRequest]
    · cases first
      simp [newRequest]
  | some prepared =>
    simp only [found] at first second
    cases first
    cases second
    simp [newRequest]

structure Recomputes (message : NewViewMessage) (list again : List Request) : Prop where
  data : again.map (fun request => request.data) = list.map fun request => request.data
  covers : ∀ i, (∃ request ∈ again, request.seq = i) ↔ firstRedo message ≤ i ∧ i ≤ lastRedo message
  null : ∀ i, (∃ request ∈ list, request.type = .prePrepare ∧ request.seq = i) ↔
    firstRedo message ≤ i ∧ i ≤ lastRedo message ∧ entriesFor message i = []

theorem getPrepareMsg_recomputes (r : Replica) (rEnv : Env) (message' : NewViewMessage)
    (ran : p.getPrepareMsg env message true = .ok list)
    (signs : env.signMessage "" ≠ none) (same : message'.viewchangeMessages = message.viewchangeMessages)
    (view : message'.viewNumber = message.viewNumber) :
    ∃ again, r.getPrepareMsg rEnv message' false = .ok again ∧ Recomputes message list again := by
  have heads := (getPrepareMsg_spec ran).1
  obtain ⟨map, found, whole, recomputed⟩ := getPrepareMsg_again r rEnv ran same
  rw [view] at recomputed
  refine ⟨_, recomputed, ?_⟩
  have mine (s : Nat) : ∃ request, p.redoRequest env true message.viewNumber map s = some request :=
    redoRequest_exists (found s) (.inr (.inr signs))
  have yours (s : Nat) : ∃ request, r.redoRequest rEnv false message.viewNumber map s = some request :=
    redoRequest_exists (found s) (.inr (.inl rfl))
  choose first made using mine
  choose second remade using yours
  have mapped {f : Nat → Option Request} {g : Nat → Request} (some : ∀ s, f s = Option.some (g s)) (xs : List Nat) :
      xs.filterMap f = xs.map g := by
    rw [← filterMap_eq_map]
    exact congrArg (fun h => xs.filterMap h) (funext some)
  have facts (s : Nat) := redoRequest_data (made s) (remade s)
  have inRange (i : Nat) : i ∈ List.range' (firstRedo message) (lastRedo message + 1 - firstRedo message) ↔
      firstRedo message ≤ i ∧ i ≤ lastRedo message := by
    rw [mem_range'_1]
    omega
  rw [whole, mapped made, mapped remade]
  constructor
  · rw [map_map, map_map]
    exact map_congr_left fun s _ => (facts s).1.symm
  · intro i
    rw [← inRange]
    simp [(facts _).2.2.1]
  · intro i
    rw [← and_assoc, ← inRange, ← redone_eq_none heads, ← found]
    constructor
    · rintro ⟨request, member, type, seq⟩
      obtain ⟨s, walked, rfl⟩ := mem_map.mp member
      rw [(facts s).2.1] at seq
      subst seq
      exact ⟨walked, (facts s).2.2.2.mp type⟩
    · rintro ⟨walked, hole⟩
      exact ⟨first i, mem_map.mpr ⟨i, walked, rfl⟩, (facts i).2.2.2.mpr hole, (facts i).2.1⟩

def Redoable (r : Replica) (s : Nat) : Prop :=
  r.config.enableViewchange = true ∧ (r.collectorPool.getCollector s).mainRequest ≠ .moved

theorem getAllStoredHash_ok_iff {c : TransactionCollector} :
    (∃ hashes, c.getAllStoredHash = .ok hashes) ↔ c.mainRequest ≠ .moved := by
  unfold TransactionCollector.getAllStoredHash
  cases c.mainRequest <;> simp

theorem redo_ok_iff {sent : List Outgoing} : (∃ state, Replica.redo (r, sent) request = .ok state) ↔
      (request.type = .prePrepare → Redoable r request.seq) := by
  unfold Replica.redo Redoable
  dsimp only
  split
  · rename_i null
    split_ifs with disabled
    · simp [null, disabled]
    · rw [← getAllStoredHash_ok_iff]
      simp [null, disabled, bind_eq_ok]
  · rename_i vote
    simp [vote]

theorem foldlM_redo_ok_iff {requests : List Request} {state : Replica × List Outgoing} :
    (∃ last, requests.foldlM Replica.redo state = .ok last) ↔
      ∀ request ∈ requests, request.type = .prePrepare → Redoable state.1 request.seq := by
  induction requests generalizing state with
  | nil => simp [pure, Except.pure]
  | cons request rest ih =>
    simp only [foldlM_cons, bind_eq_ok, forall_mem_cons]
    have same {next : Replica × List Outgoing} (moved : Replica.redo state request = .ok next) (s : Nat) :
        Redoable next.1 s ↔ Redoable state.1 s := by
      obtain ⟨duplicates, highest, same⟩ := (redo_redoing moved).frame
      rw [same]
      rfl
    constructor
    · rintro ⟨last, next, moved, ran⟩
      refine ⟨redo_ok_iff.mp ⟨next, moved⟩, fun other member null => ?_⟩
      exact (same moved other.seq).mp (ih.mp ⟨last, ran⟩ other member null)
    · rintro ⟨here, others⟩
      obtain ⟨next, moved⟩ := redo_ok_iff.mpr here
      obtain ⟨last, ran⟩ := ih.mpr fun other member null => (same moved other.seq).mpr (others other member null)
      exact ⟨last, next, moved, ran⟩

theorem processNewView_ok_iff (parsed : rEnv.codec.parseNewView request.data = some message) :
    (∃ outcome, r.processNewView rEnv request = .ok outcome ∧ outcome.ret ≠ -2) ↔
      (∃ again, Accepted r rEnv message again) ∧ ∀ q ∈ message.request, q.type = .prePrepare → Redoable r q.seq := by
  rw [← checkNewView_iff]
  constructor
  · rintro ⟨outcome, ran, accepted⟩
    cases processNewView_viewing ran with
    | refused _ same => exact absurd (congrArg Outcome.ret same) accepted
    | installed read passed loop =>
      cases parsed.symm.trans read
      exact ⟨⟨_, passed⟩, foldlM_redo_ok_iff.mp ⟨_, loop⟩⟩
  · rintro ⟨⟨maxSeq, passed⟩, redoable⟩
    obtain ⟨last, loop⟩ := (@foldlM_redo_ok_iff message.request
      ((r.setCurrentViewAndNewPrimary message.viewNumber).setNextSeq (addUInt64 maxSeq 1), [])).mpr redoable
    unfold Replica.processNewView Replica.installNewView
    simp only [parsed, passed, loop, bind, Except.bind]
    refine ⟨_, rfl, ?_⟩
    dsimp only
    split <;> simp

structure Welcomes (r : Replica) (env : Env) (message : NewViewMessage) : Prop where
  view : message.viewchangeMessages ≠ [] → r.getCurrentView < message.viewNumber
  checkpoint : ∀ msg ∈ message.viewchangeMessages,
    r.checkpointManager.isValidCheckpointProof env r.config msg.stableCkpt = true
  prepared : ∀ msg ∈ message.viewchangeMessages, ∀ entry ∈ msg.preparedMsg,
    r.isValidPrepared env msg.stableCkpt.seq entry = true
  spread : Replica.maxStable message < firstRedo message ∨ Replica.maxStable message ≤ lastRedo message
  null : ∀ i, firstRedo message ≤ i → i ≤ lastRedo message → entriesFor message i = [] → Redoable r i

theorem isValidViewChangeMsg_iff : r.isValidViewChangeMsg env msg = true ↔ r.getCurrentView < msg.viewNumber ∧
      r.checkpointManager.isValidCheckpointProof env r.config msg.stableCkpt = true ∧
      ∀ entry ∈ msg.preparedMsg, r.isValidPrepared env msg.stableCkpt.seq entry = true := by
  unfold Replica.isValidViewChangeMsg
  split
  · rename_i old
    simp [not_lt.mpr old]
  · rename_i new
    split_ifs with invalid
    · simp [invalid]
    · simp [not_le.mp new, invalid]

theorem reaches_iff_spread :
    (∀ i, firstRedo message ≤ i → i ≤ Replica.maxStable message → firstRedo message ≤ i ∧ i ≤ lastRedo message) ↔
      Replica.maxStable message < firstRedo message ∨ Replica.maxStable message ≤ lastRedo message := by
  constructor
  · intro reaches
    by_contra apart
    push Not at apart
    exact absurd (reaches _ apart.1 le_rfl).2 (not_le.mpr apart.2)
  · rintro (less | most) i least below
    · omega
    · exact ⟨least, below.trans most⟩

theorem builtMessage_view (member : msg ∈ (builtMessage p v).viewchangeMessages) : msg.viewNumber = v := by
  obtain ⟨entry, -, rfl⟩ := mem_map.mp member
  rfl

theorem honest_newView_accepted {sent : List Outgoing} (unsent : p.viewChangeManager.newViewIsSent = false)
    (ran : p.sendNewViewMsg env v = .ok (p', sent)) (signs : env.signMessage "" ≠ none) :
    ∃ list, sent = [newViewOf p env v list] ∧ ∀ (r : Replica) (rEnv : Env) (request : Request),
      addUInt64 r.getCurrentView r.viewChangeManager.viewChangeCounter = v →
      rEnv.codec.parseNewView request.data = some { builtMessage p v with request := list } →
      ((∃ outcome, r.processNewView rEnv request = .ok outcome ∧ outcome.ret ≠ -2) ↔
        Welcomes r rEnv (builtMessage p v)) := by
  obtain ⟨list, made, same⟩ := sendNewViewMsg_spec unsent ran
  refine ⟨list, same, fun r rEnv request due parsed => ?_⟩
  obtain ⟨again, recomputed, recomputes⟩ :=
    getPrepareMsg_recomputes r rEnv { builtMessage p v with request := list } made signs rfl rfl
  rw [processNewView_ok_iff parsed]
  constructor
  · rintro ⟨⟨other, accepted⟩, redoable⟩
    cases recomputed.symm.trans accepted.recomputed
    have valid := fun msg member => isValidViewChangeMsg_iff.mp (accepted.valid msg member)
    constructor
    · intro some
      obtain ⟨msg, member⟩ := exists_mem_of_ne_nil _ some
      rw [← builtMessage_view member]
      exact (valid msg member).1
    · exact fun msg member => (valid msg member).2.1
    · exact fun msg member => (valid msg member).2.2
    · rw [← reaches_iff_spread]
      intro i least most
      exact (recomputes.covers i).mp (accepted.reaches i least most)
    · intro i least most hole
      obtain ⟨q, member, null, rfl⟩ := (recomputes.null i).mpr ⟨least, most, hole⟩
      exact redoable q member null
  · intro welcomes
    refine ⟨⟨again, due.symm, ?_, recomputed, recomputes.data, ?_⟩, ?_⟩
    · intro msg member
      rw [isValidViewChangeMsg_iff, builtMessage_view member]
      exact ⟨welcomes.view (ne_nil_of_mem member), welcomes.checkpoint msg member, welcomes.prepared msg member⟩
    · intro i least most
      exact (recomputes.covers i).mpr (reaches_iff_spread.mpr welcomes.spread i least most)
    · intro q member null
      obtain ⟨least, most, hole⟩ := (recomputes.null q.seq).mp ⟨q, member, null, rfl⟩
      exact welcomes.null q.seq least most hole

def freshPrimary : Replica := replicaTwo.setViewChangeManager
  ([2, 3, 4].foldl (fun v sender => (v.addRequest viewChangeZero sender).1) {})

theorem freshNewView_accepted : ∃ p' list, freshPrimary.sendNewViewMsg plainEnv 2 =
      .ok (p', [newViewOf freshPrimary plainEnv 2 list]) ∧
    ∃ outcome, replicaFour.processNewView (newViewEnv { builtMessage freshPrimary 2 with request := list })
      (newViewFrom 2) = .ok outcome ∧ outcome.ret ≠ -2 := by
  obtain ⟨⟨p', sent⟩, ran, -⟩ : ∃ p, freshPrimary.sendNewViewMsg plainEnv 2 = .ok p ∧ p.2 ≠ [] := by decide
  obtain ⟨list, rfl, accepted⟩ := honest_newView_accepted rfl ran (by decide)
  refine ⟨p', list, ran, (accepted replicaFour _ (newViewFrom 2) (by decide) rfl).mpr ?_⟩
  have nothing : ∀ msg ∈ (builtMessage freshPrimary 2).viewchangeMessages, msg.preparedMsg = [] := by decide
  have valid : ∀ msg ∈ (builtMessage freshPrimary 2).viewchangeMessages,
      replicaFour.checkpointManager.isValidCheckpointProof plainEnv replicaFour.config msg.stableCkpt = true := by
    decide
  have only : firstRedo (builtMessage freshPrimary 2) = 1 ∧ lastRedo (builtMessage freshPrimary 2) = 1 := by decide
  refine ⟨by decide, valid, fun msg member entry inside => ?_, by decide, fun i least most _ => ?_⟩
  · rw [nothing msg member] at inside
    cases inside
  · have one : i = 1 := by omega
    rw [one]
    exact ⟨by decide, by decide⟩

def sentNewView (call : Call) : NewViewMessage := { builtMessage (storedZero call) 2 with request := [nullOne] }

def RefusesSent (r : Replica) (call : Call) : Prop :=
  addUInt64 r.getCurrentView r.viewChangeManager.viewChangeCounter = 2 ∧
  ∃ outcome, r.processNewView (newViewEnv (sentNewView call)) (newViewFrom 2) = .ok outcome ∧ outcome.ret = -2
deriving Decidable

theorem laggingNewView_refused : ∃ trace s, (server (viewConfig 2)).Run trace s ∧ ∃ call ∈ s.calls,
    (viewConfig 2).getMinDataReceiveNum ≤ (builtMessage (storedZero call) 2).viewchangeMessages.length ∧
    (∀ msg ∈ (builtMessage (storedZero call) 2).viewchangeMessages, HonestlySent msg) ∧
    (∃ r', (storedZero call).sendNewViewMsg viewEnv 2 = .ok (r', [newViewOf (storedZero call) viewEnv 2 [nullOne]])) ∧
    ∀ r ∈ [s.replica, replicaFour], addUInt64 r.getCurrentView r.viewChangeManager.viewChangeCounter = 2 ∧
      ∃ outcome, r.processNewView (newViewEnv (sentNewView call)) (newViewFrom 2) = .ok outcome ∧ outcome.ret = -2 := by
  obtain ⟨trace, s, run, call, made, nulls, enough, refused⟩ := exists_server_run (viewConfig 2) lagging
    (fun _ s => ∃ call ∈ s.calls, NullsFirst call ∧ 3 ≤ (builtMessage (storedZero call) 2).viewchangeMessages.length ∧
      ∀ r ∈ [s.replica, replicaFour], RefusesSent r call) (by decide)
  have ⟨_, sending, sent, _⟩ := nulls
  rw [sent] at sending
  exact ⟨trace, s, run, call, made, enough, fun msg member => (nulls.honest msg member).2, sending, refused⟩

variable {s : Nat}

def withoutSender (request : Request) : Request := { request with senderId := 0, dataSignature := none }

def redoneRequest (message : NewViewMessage) (s : Nat) : Request :=
  match redone message s with
  | none => { type := .prePrepare, seq := s, currentView := message.viewNumber, hash := "null" ++ toString s }
  | some prepared => withoutSender { prepared with type := .commit, seq := s, currentView := message.viewNumber }

theorem redoRequest_redone {map : OrderedMap Nat Request} (found : map.find? s = redone message s)
    (signs : needSign = false ∨ env.signMessage "" ≠ none) :
    (r.redoRequest env needSign message.viewNumber map s).map withoutSender = some (redoneRequest message s) := by
  unfold Replica.redoRequest redoneRequest
  rw [found]
  cases redone message s with
  | some prepared => rfl
  | none =>
    cases needSign with
    | false => rfl
    | true =>
      cases signature : env.signMessage "" with
      | some signature => rfl
      | none => simp [signature] at signs

theorem getPrepareMsg_redone (ran : r.getPrepareMsg env message needSign = .ok list)
    (signs : needSign = false ∨ env.signMessage "" ≠ none) :
    list.map withoutSender = (List.range' (firstRedo message) (lastRedo message + 1 - firstRedo message)).map
      (redoneRequest message) := by
  obtain ⟨-, map, found, rfl⟩ := getPrepareMsg_spec ran
  rw [map_filterMap, ← filterMap_eq_map]
  exact congrArg (fun f => List.filterMap f _) (funext fun s => redoRequest_redone (found s) signs)

structure LeastStable (message : NewViewMessage) (least : Nat) : Prop where
  reported : ∃ msg ∈ message.viewchangeMessages, msg.stableCkpt.seq = least
  below : ∀ msg ∈ message.viewchangeMessages, least ≤ msg.stableCkpt.seq

theorem minStable_least (some : message.viewchangeMessages ≠ [])
    (small : ∀ msg ∈ message.viewchangeMessages, msg.stableCkpt.seq < maxUInt64) :
    LeastStable message (Replica.minStable message) := by
  have listed : (message.viewchangeMessages.map fun msg => msg.stableCkpt.seq) ≠ [] := by simpa using some
  obtain ⟨least, found⟩ := Option.isSome_iff_exists.mp (isSome_min?_of_ne_nil listed)
  obtain ⟨reported, below⟩ := min?_eq_some_iff.mp found
  obtain ⟨msg, member, same⟩ := mem_map.mp reported
  have value : Replica.minStable message = least := by
    unfold Replica.minStable
    rw [foldl_min, found, Option.getD_some]
    exact Nat.min_eq_right (same ▸ (small msg member).le)
  rw [value]
  exact ⟨⟨msg, member, same⟩, fun msg member => below _ (mem_map_of_mem member)⟩

theorem firstRedo_eq {least : Nat} (stable : LeastStable message least) (value : Replica.minStable message = least)
    (small : ∀ msg ∈ message.viewchangeMessages, msg.stableCkpt.seq < maxUInt64) : firstRedo message = least + 1 := by
  obtain ⟨msg, member, rfl⟩ := stable.reported
  have bound := small msg member
  unfold firstRedo addUInt64
  rw [value]
  exact Nat.mod_eq_of_lt (by unfold maxUInt64 at bound; omega)

theorem lastRedo_small (small : ∀ entry ∈ preparedEntries message, entry.seq < maxUInt64) :
    lastRedo message ≠ maxUInt64 := by
  unfold lastRedo
  cases greatest : ((preparedEntries message).map fun entry => entry.seq).max? with
  | none => decide
  | some last =>
    obtain ⟨reached, -⟩ := max?_eq_some_iff.mp greatest
    obtain ⟨entry, member, rfl⟩ := mem_map.mp reached
    exact (small entry member).ne

structure RedoShape (message : NewViewMessage) (list : List Request) : Prop where
  seqs : ∃ least, LeastStable message least ∧
    list.map (fun request => request.seq) = List.range' (least + 1) (lastRedo message - least)
  view : ∀ request ∈ list, request.currentView = message.viewNumber
  null : ∀ request ∈ list, entriesFor message request.seq = [] →
    request.type = .prePrepare ∧ request.data = "" ∧ request.hash = "null" ++ toString request.seq
  prepared : ∀ request ∈ list, entriesFor message request.seq ≠ [] → request.type = .commit ∧
    ∃ entry ∈ entriesFor message request.seq, ∃ proof ∈ entry.proof, request.hash = proof.request.hash

theorem redone_prepared {prepared : Request} (won : redone message s = some prepared) :
    ∃ entry ∈ entriesFor message s, ∃ proof ∈ entry.proof, prepared = proof.request := by
  unfold redone at won
  obtain ⟨entry, last, head⟩ := Option.bind_eq_some_iff.mp won
  obtain ⟨proof, first, same⟩ := Option.map_eq_some_iff.mp head
  exact ⟨entry, mem_of_getLast? last, proof, mem_of_mem_head? first, same.symm⟩

theorem redoShape_of_redone {least : Nat} (stable : LeastStable message least)
    (heads : ∀ entry ∈ preparedEntries message, headRequest entry ≠ none)
    (made : list.map withoutSender = (List.range' (least + 1) (lastRedo message - least)).map (redoneRequest message)) :
    RedoShape message list := by
  have numbered (s : Nat) : (redoneRequest message s).seq = s := by
    unfold redoneRequest
    cases redone message s <;> rfl
  have viewed (s : Nat) : (redoneRequest message s).currentView = message.viewNumber := by
    unfold redoneRequest
    cases redone message s <;> rfl
  have each (request : Request) (member : request ∈ list) :
      withoutSender request = redoneRequest message request.seq := by
    have inside : withoutSender request ∈ list.map withoutSender := mem_map_of_mem member
    rw [made] at inside
    obtain ⟨s, -, same⟩ := mem_map.mp inside
    have seq : request.seq = s := (congrArg Request.seq same).symm.trans (numbered s)
    rw [← same, seq]
  constructor
  · refine ⟨least, stable, ?_⟩
    calc list.map (fun request => request.seq)
      _ = (list.map withoutSender).map (fun request => request.seq) := by
        rw [map_map]
        rfl
      _ = List.range' (least + 1) (lastRedo message - least) := by
        rw [made, map_map]
        conv_rhs => rw [← map_id (List.range' (least + 1) (lastRedo message - least))]
        exact map_congr_left fun s _ => numbered s
  · intro request member
    have view := congrArg Request.currentView (each request member)
    exact view.trans (viewed request.seq)
  · intro request member hole
    have same := each request member
    simp only [redoneRequest, (redone_eq_none heads).mpr hole] at same
    exact ⟨congrArg Request.type same, congrArg Request.data same, congrArg Request.hash same⟩
  · intro request member covered
    have wins : redone message request.seq ≠ none := fun absent => covered ((redone_eq_none heads).mp absent)
    obtain ⟨prepared, won⟩ := Option.ne_none_iff_exists'.mp wins
    have same := each request member
    simp only [redoneRequest, won] at same
    obtain ⟨entry, inside, proof, listed, rfl⟩ := redone_prepared won
    have hash := congrArg Request.hash same
    exact ⟨congrArg Request.type same, entry, inside, proof, listed, hash⟩

theorem redo_list_shape (some : message.viewchangeMessages ≠ [])
    (proofs : ∀ entry ∈ preparedEntries message, entry.proof ≠ [])
    (stable : ∀ msg ∈ message.viewchangeMessages, msg.stableCkpt.seq < maxUInt64)
    (prepared : ∀ entry ∈ preparedEntries message, entry.seq < maxUInt64) (signs : env.signMessage "" ≠ none) :
    ∃ list, p.getPrepareMsg env message true = .ok list ∧ RedoShape message list ∧
      ∀ (r : Replica) (rEnv : Env) (requests : List Request),
        ∃ again, r.getPrepareMsg rEnv { message with request := requests } false = .ok again ∧
          RedoShape message again ∧ again.map withoutSender = list.map withoutSender := by
  have heads : ∀ entry ∈ preparedEntries message, headRequest entry ≠ none := by
    intro entry member
    simpa [headRequest] using proofs entry member
  have fits := lastRedo_small prepared
  have least := minStable_least some stable
  have first := firstRedo_eq least rfl stable
  have count : lastRedo message + 1 - firstRedo message = lastRedo message - Replica.minStable message := by omega
  obtain ⟨list, made⟩ := getPrepareMsg_total heads fits p env true
  have mine := getPrepareMsg_redone made (.inr signs)
  rw [count, first] at mine
  refine ⟨list, made, redoShape_of_redone least heads mine, fun r rEnv requests => ?_⟩
  obtain ⟨again, remade⟩ := getPrepareMsg_total heads fits r rEnv false
  have yours := getPrepareMsg_redone remade (.inl rfl)
  rw [count, first] at yours
  exact ⟨again, remade, redoShape_of_redone least heads yours, yours.trans mine.symm⟩

theorem twoEntries_shape : ∃ list,
    replicaTwo.getPrepareMsg plainEnv (twoEntries (entryOf 3 1 "a") (entryOf 1 1 "b")) true = .ok list ∧
      RedoShape (twoEntries (entryOf 3 1 "a") (entryOf 1 1 "b")) list ∧
      list.map (fun request => (request.seq, request.type, request.hash)) =
        [(1, .commit, "b"), (2, .prePrepare, "null2"), (3, .commit, "a")] := by
  obtain ⟨list, made, shape, -⟩ := @redo_list_shape replicaTwo plainEnv (twoEntries (entryOf 3 1 "a") (entryOf 1 1 "b"))
    (by decide) (by decide) (by decide) (by decide) (by decide)
  obtain ⟨again, ran, requests⟩ : ∃ list,
      replicaTwo.getPrepareMsg plainEnv (twoEntries (entryOf 3 1 "a") (entryOf 1 1 "b")) true = .ok list ∧
        list.map (fun request => (request.seq, request.type, request.hash)) =
          [(1, .commit, "b"), (2, .prePrepare, "null2"), (3, .commit, "a")] := by decide
  cases made.symm.trans ran
  exact ⟨list, made, shape, requests⟩

end ResilientDB.Proof
