import ResilientDB.Proof.Proposal
import ResilientDB.Proof.Votes

namespace ResilientDB.Proof
open Model Library List Option

variable {r r' : Replica} {env : Env} {message : NewViewMessage} {needSign : Bool} {list : List Request}
  {s : Nat} {map : OrderedMap Nat Request} {entries : List PreparedMessage} {request : Request} {viewNumber : Nat}

def preparedEntries (message : NewViewMessage) : List PreparedMessage :=
  message.viewchangeMessages.flatMap fun msg => msg.preparedMsg

def entriesFor (message : NewViewMessage) (s : Nat) : List PreparedMessage :=
  (preparedEntries message).filter fun entry => entry.seq = s

def headRequest (entry : PreparedMessage) : Option Request := entry.proof.head?.map fun proof => proof.request

def redone (message : NewViewMessage) (s : Nat) : Option Request := (entriesFor message s).getLast?.bind headRequest

def firstRedo (message : NewViewMessage) : Nat := addUInt64 (Replica.minStable message) 1

def lastRedo (message : NewViewMessage) : Nat := ((preparedEntries message).map fun entry => entry.seq).max?.getD 1

def RedoneAs (message : NewViewMessage) (s : Nat) (request : Request) : Prop :=
  request.seq = s ∧ request.currentView = message.viewNumber ∧
    match redone message s with
    | some prepared => request.type = .commit ∧ request.hash = prepared.hash
    | none => request.type = .prePrepare ∧ request.hash = "null" ++ toString s

theorem addPreparedMsg_ok {map' : OrderedMap Nat Request} {entry : PreparedMessage}
    (ran : Replica.addPreparedMsg map entry = .ok map') :
    ∃ request, headRequest entry = some request ∧ map' = map.assign entry.seq request := by
  unfold Replica.addPreparedMsg at ran
  unfold headRequest
  cases proofs : entry.proof with
  | nil => simp [proofs] at ran
  | cons proof rest =>
    simp only [proofs, Except.ok.injEq] at ran
    exact ⟨proof.request, by simp, ran.symm⟩

theorem foldlM_addPreparedMsg (ran : entries.foldlM Replica.addPreparedMsg .empty = .ok map) :
    (∀ entry ∈ entries, headRequest entry ≠ none) ∧
      ∀ s, map.find? s = (entries.filter fun entry => entry.seq = s).getLast?.bind headRequest := by
  induction entries using List.reverseRecOn generalizing map with
  | nil =>
    simp only [foldlM_nil, pure, Except.pure, Except.ok.injEq] at ran
    subst ran
    simp
  | append_singleton entries entry ih =>
    rw [foldlM_append, bind_eq_ok] at ran
    obtain ⟨before, collected, ran⟩ := ran
    rw [foldlM_cons, bind_eq_ok] at ran
    obtain ⟨after, added, ran⟩ := ran
    simp only [foldlM_nil, pure, Except.pure, Except.ok.injEq] at ran
    subst ran
    obtain ⟨heads, found⟩ := ih collected
    obtain ⟨request, head, rfl⟩ := addPreparedMsg_ok added
    constructor
    · intro other member
      rcases mem_append.mp member with old | new
      · exact heads other old
      · rw [mem_singleton.mp new, head]
        simp
    · intro s
      rw [OrderedMap.find?_assign, filter_append]
      by_cases here : s = entry.seq
      · simp [here, head]
      · have there : ¬ entry.seq = s := fun same => here same.symm
        simp [here, there, found s]

theorem foldlM_addPreparedMsg_total (heads : ∀ entry ∈ entries, headRequest entry ≠ none)
    (map : OrderedMap Nat Request) :
    ∃ map', entries.foldlM Replica.addPreparedMsg map = .ok map' := by
  induction entries generalizing map with
  | nil => exact ⟨map, rfl⟩
  | cons entry entries ih =>
    have head := heads entry mem_cons_self
    unfold headRequest at head
    cases proofs : entry.proof with
    | nil => simp [proofs] at head
    | cons proof rest =>
      obtain ⟨map', collected⟩ :=
        ih (fun other member => heads other (mem_cons_of_mem _ member)) (map.assign entry.seq proof.request)
      refine ⟨map', ?_⟩
      rw [foldlM_cons, bind_eq_ok]
      exact ⟨_, by rw [Replica.addPreparedMsg, proofs], collected⟩

theorem redone_eq_none (heads : ∀ entry ∈ preparedEntries message, headRequest entry ≠ none) :
    redone message s = none ↔ entriesFor message s = [] := by
  unfold redone
  cases last : (entriesFor message s).getLast? with
  | none => simpa using last
  | some entry =>
    have member := mem_of_getLast? last
    have head := heads entry (mem_of_mem_filter member)
    have nonempty : entriesFor message s ≠ [] := ne_nil_of_mem member
    simp [head, nonempty]

theorem lastRedo_eq (heads : ∀ entry ∈ preparedEntries message, headRequest entry ≠ none)
    (found : ∀ s, map.find? s = redone message s) :
    (map.last?.map Prod.fst).getD 1 = lastRedo message := by
  have present {entry : PreparedMessage} (member : entry ∈ preparedEntries message) :
      map.find? entry.seq ≠ none := by
    rw [found, Ne, redone_eq_none heads]
    exact ne_nil_of_mem (mem_filter.mpr ⟨member, by simp⟩)
  unfold lastRedo
  cases last : map.last? with
  | none =>
    have absent := OrderedMap.last?_eq_none.mp last
    have nothing : preparedEntries message = [] := by
      rw [eq_nil_iff_forall_not_mem]
      intro entry member
      exact present member (absent entry.seq)
    simp [nothing]
  | some pair =>
    obtain ⟨key, value⟩ := pair
    obtain ⟨here, largest⟩ := OrderedMap.last?_eq_some last
    have greatest : ((preparedEntries message).map fun entry => entry.seq).max? = some key := by
      rw [max?_eq_some_iff]
      constructor
      · rw [found] at here
        have nonempty : entriesFor message key ≠ [] := by
          rw [Ne, ← redone_eq_none heads, here]
          simp
        obtain ⟨entry, member⟩ := exists_mem_of_ne_nil _ nonempty
        obtain ⟨inside, same⟩ := mem_filter.mp member
        exact mem_map.mpr ⟨entry, inside, by simpa using same⟩
      · intro seq member
        obtain ⟨entry, inside, rfl⟩ := mem_map.mp member
        obtain ⟨request, has⟩ := ne_none_iff_exists'.mp (present inside)
        exact largest entry.seq request has
    rw [greatest]
    rfl

theorem minStable_zero (some : message.viewchangeMessages ≠ [])
    (all : ∀ msg ∈ message.viewchangeMessages, msg.stableCkpt.seq = 0) : Replica.minStable message = 0 := by
  unfold Replica.minStable
  generalize message.viewchangeMessages = messages at some all
  cases messages with
  | nil => exact absurd rfl some
  | cons first rest =>
    rw [map_cons, foldl_cons, all first mem_cons_self, Nat.min_zero]
    have low : ∀ seqs : List Nat, seqs.foldl min 0 = 0 := by
      intro seqs
      induction seqs with
      | nil => rfl
      | cons seq seqs ih => rw [foldl_cons, Nat.zero_min, ih]
    exact low _

theorem getPrepareMsg_eq (r : Replica) (env : Env) (message : NewViewMessage) (needSign : Bool) :
    r.getPrepareMsg env message needSign = (Replica.collectPreparedMsg message >>= fun map =>
      uint64Loop (firstRedo message) ((map.last?.map Prod.fst).getD 1) >>= fun sequence =>
        .ok (sequence.filterMap (r.redoRequest env needSign message.viewNumber map))) := by
  unfold Replica.getPrepareMsg
  congr 1
  funext map
  cases map.last? <;> rfl

theorem getPrepareMsg_total (heads : ∀ entry ∈ preparedEntries message, headRequest entry ≠ none)
    (fits : lastRedo message ≠ maxUInt64) (r : Replica) (env : Env) (needSign : Bool) :
    ∃ list, r.getPrepareMsg env message needSign = .ok list := by
  obtain ⟨map, collected⟩ := foldlM_addPreparedMsg_total heads .empty
  obtain ⟨-, found⟩ := foldlM_addPreparedMsg collected
  have looped : uint64Loop (firstRedo message) ((map.last?.map Prod.fst).getD 1) =
      .ok (List.range' (firstRedo message) (lastRedo message + 1 - firstRedo message)) := by
    rw [lastRedo_eq heads found, uint64Loop, if_neg fits]
  rw [getPrepareMsg_eq]
  exact ⟨_, bind_eq_ok.mpr ⟨map, collected, bind_eq_ok.mpr ⟨_, looped, rfl⟩⟩⟩

theorem getPrepareMsg_walk (ran : r.getPrepareMsg env message needSign = .ok list) :
    ∃ map : OrderedMap Nat Request, Replica.collectPreparedMsg message = .ok map ∧
      uint64Loop (firstRedo message) ((map.last?.map Prod.fst).getD 1) =
        .ok (List.range' (firstRedo message) (lastRedo message + 1 - firstRedo message)) ∧
      list = (List.range' (firstRedo message) (lastRedo message + 1 - firstRedo message)).filterMap
        (r.redoRequest env needSign message.viewNumber map) := by
  rw [getPrepareMsg_eq, bind_eq_ok] at ran
  obtain ⟨map, collected, ran⟩ := ran
  obtain ⟨heads, found⟩ := foldlM_addPreparedMsg collected
  obtain ⟨sequence, loop, ran⟩ := bind_eq_ok.mp ran
  have walks : sequence = List.range' (firstRedo message) (lastRedo message + 1 - firstRedo message) := by
    rw [lastRedo_eq heads found] at loop
    unfold uint64Loop at loop
    split at loop
    · cases loop
    · cases loop
      rfl
  rw [walks] at loop ran
  cases ran
  exact ⟨map, collected, loop, rfl⟩

theorem getPrepareMsg_spec (ran : r.getPrepareMsg env message needSign = .ok list) :
    (∀ entry ∈ preparedEntries message, headRequest entry ≠ none) ∧
      ∃ map : OrderedMap Nat Request, (∀ s, map.find? s = redone message s) ∧
        list = (List.range' (firstRedo message) (lastRedo message + 1 - firstRedo message)).filterMap
          (r.redoRequest env needSign message.viewNumber map) := by
  obtain ⟨map, collected, -, same⟩ := getPrepareMsg_walk ran
  obtain ⟨heads, found⟩ := foldlM_addPreparedMsg collected
  exact ⟨heads, map, found, same⟩

theorem redoRequest_some (found : map.find? s = redone message s)
    (made : r.redoRequest env needSign message.viewNumber map s = some request) :
    RedoneAs message s request := by
  unfold Replica.redoRequest at made
  unfold RedoneAs
  rw [← found]
  cases prepared : map.find? s with
  | none =>
    simp only [prepared] at made
    split at made
    · obtain ⟨signature, -, rfl⟩ := map_eq_some_iff.mp made
      exact ⟨rfl, rfl, rfl, rfl⟩
    · cases made
      exact ⟨rfl, rfl, rfl, rfl⟩
  | some request =>
    simp only [prepared] at made
    cases made
    exact ⟨rfl, rfl, rfl, rfl⟩

theorem redoRequest_exists (found : map.find? s = redone message s)
    (signs : redone message s ≠ none ∨ needSign = false ∨ env.signMessage "" ≠ none) :
    ∃ request, r.redoRequest env needSign message.viewNumber map s = some request := by
  unfold Replica.redoRequest
  rw [found]
  cases prepared : redone message s with
  | some request => exact ⟨_, rfl⟩
  | none =>
    cases needSign with
    | false => exact ⟨_, rfl⟩
    | true =>
      cases signature : env.signMessage "" with
      | some signature => exact ⟨_, rfl⟩
      | none => simp [prepared, signature] at signs

theorem redo_member (ran : r.getPrepareMsg env message needSign = .ok list) (member : request ∈ list) :
    firstRedo message ≤ request.seq ∧ request.seq ≤ lastRedo message ∧ RedoneAs message request.seq request := by
  obtain ⟨heads, map, found, rfl⟩ := getPrepareMsg_spec ran
  obtain ⟨s, inRange, made⟩ := mem_filterMap.mp member
  have as := redoRequest_some (found s) made
  rw [as.1]
  rw [mem_range'_1] at inRange
  exact ⟨inRange.1, by omega, as⟩

theorem redo_covers (ran : r.getPrepareMsg env message needSign = .ok list) (least : firstRedo message ≤ s)
    (most : s ≤ lastRedo message)
    (signs : redone message s ≠ none ∨ needSign = false ∨ env.signMessage "" ≠ none) :
    ∃ request ∈ list, RedoneAs message s request := by
  obtain ⟨heads, map, found, rfl⟩ := getPrepareMsg_spec ran
  obtain ⟨request, made⟩ := redoRequest_exists (r := r) (found s) signs
  refine ⟨request, mem_filterMap.mpr ⟨s, ?_, made⟩, redoRequest_some (found s) made⟩
  rw [mem_range'_1]
  exact ⟨least, by omega⟩

theorem lastRedo_spec (prepared : entriesFor message s ≠ []) :
    s ≤ lastRedo message ∧ ∃ entry ∈ preparedEntries message, entry.seq = lastRedo message := by
  obtain ⟨entry, member⟩ := exists_mem_of_ne_nil _ prepared
  obtain ⟨inside, same⟩ := mem_filter.mp member
  have key : entry.seq = s := by simpa using same
  have listed : s ∈ (preparedEntries message).map fun entry => entry.seq := mem_map.mpr ⟨entry, inside, key⟩
  unfold lastRedo
  cases greatest : ((preparedEntries message).map fun entry => entry.seq).max? with
  | none =>
    rw [max?_eq_none_iff] at greatest
    rw [greatest] at listed
    cases listed
  | some key =>
    obtain ⟨reached, most⟩ := max?_eq_some_iff.mp greatest
    exact ⟨most s listed, mem_map.mp reached⟩

theorem redo_winner (ran : r.getPrepareMsg env message needSign = .ok list) (prepared : entriesFor message s ≠ []) :
    ∃ winner, redone message s = some winner ∧ (firstRedo message ≤ s → ∃ request ∈ list, request.seq = s) ∧
      ∀ request ∈ list, request.seq = s → request.type = .commit ∧ request.hash = winner.hash := by
  have heads := (getPrepareMsg_spec ran).1
  have wins : redone message s ≠ none := fun absent => prepared ((redone_eq_none heads).mp absent)
  obtain ⟨winner, won⟩ := ne_none_iff_exists'.mp wins
  refine ⟨winner, won, fun least => ?_, fun request member seq => ?_⟩
  · obtain ⟨request, member, as⟩ := redo_covers ran least (lastRedo_spec prepared).1 (.inl wins)
    exact ⟨request, member, as.1⟩
  · obtain ⟨-, -, as⟩ := redo_member ran member
    rw [seq] at as
    obtain ⟨-, -, as⟩ := as
    simpa only [won] using as

theorem redo_unanimous {hash : String} (ran : r.getPrepareMsg env message needSign = .ok list)
    (least : firstRedo message ≤ s) (prepared : entriesFor message s ≠ [])
    (all : ∀ entry ∈ entriesFor message s, ∀ proof ∈ entry.proof, proof.request.hash = hash) :
    (∃ request ∈ list, request.seq = s) ∧
      ∀ request ∈ list, request.seq = s → request.type = .commit ∧ request.hash = hash := by
  obtain ⟨winner, won, covers, as⟩ := redo_winner ran prepared
  have same : winner.hash = hash := by
    obtain ⟨entry, last, head⟩ := bind_eq_some_iff.mp won
    obtain ⟨proof, first, rfl⟩ := map_eq_some_iff.mp head
    exact all entry (mem_of_getLast? last) proof (mem_of_head? first)
  exact ⟨covers least, same ▸ as⟩

def entryView (entry : PreparedMessage) : Nat := (entry.proof.map fun proof => proof.request.currentView).foldl max 0

def Newest (message : NewViewMessage) (s : Nat) (hash : String) : Prop :=
  ∃ entry ∈ entriesFor message s, (headRequest entry).map (fun request => request.hash) = some hash ∧
    ∀ other ∈ entriesFor message s, entryView other ≤ entryView entry
deriving Decidable

def LastIsNewest (message : NewViewMessage) (s : Nat) : Prop :=
  ∃ request, redone message s = some request ∧ Newest message s request.hash

theorem redo_keeps_newest (ran : r.getPrepareMsg env message needSign = .ok list)
    (prepared : entriesFor message s ≠ []) :
    (firstRedo message ≤ s → ∃ request ∈ list, request.seq = s) ∧
      ∀ request ∈ list, request.seq = s → (Newest message s request.hash ↔ LastIsNewest message s) := by
  obtain ⟨winner, won, covers, as⟩ := redo_winner ran prepared
  refine ⟨covers, fun request member seq => ?_⟩
  unfold LastIsNewest
  rw [(as request member seq).2]
  constructor
  · exact fun newest => ⟨winner, won, newest⟩
  · rintro ⟨other, same, newest⟩
    rw [won] at same
    cases same
    exact newest

def entryOf (seq view : Nat) (hash : String) : PreparedMessage where
  seq := seq
  proof := List.replicate 3 ⟨{ type := .prepare, seq := seq, currentView := view, hash := hash }, ⟨1, "signature"⟩⟩

def twoEntries (first second : PreparedMessage) : NewViewMessage where
  viewNumber := 5
  viewchangeMessages :=
    [{ viewNumber := 5, preparedMsg := [first] }, { viewNumber := 5, preparedMsg := [second] }, { viewNumber := 5 }]

theorem newerEntryLast_kept : ∃ list,
    replicaTwo.getPrepareMsg plainEnv (twoEntries (entryOf 1 1 "a") (entryOf 1 3 "b")) false = .ok list ∧
      ∃ request ∈ list, request.seq = 1 ∧ Newest (twoEntries (entryOf 1 1 "a") (entryOf 1 3 "b")) 1 request.hash := by
  obtain ⟨list, ran, -⟩ : ∃ list, replicaTwo.getPrepareMsg plainEnv
      (twoEntries (entryOf 1 1 "a") (entryOf 1 3 "b")) false = .ok list ∧ list ≠ [] := by decide
  obtain ⟨covers, newest⟩ := redo_keeps_newest ran (s := 1) (by decide)
  obtain ⟨request, member, seq⟩ := covers (by decide)
  refine ⟨list, ran, request, member, seq, (newest request member seq).mpr ?_⟩
  exact ⟨{ type := .prepare, seq := 1, currentView := 3, hash := "b" }, by decide, by decide⟩

theorem olderEntryLast_wins : (∀ msg ∈ (twoEntries (entryOf 1 3 "b") (entryOf 1 1 "a")).viewchangeMessages,
      replicaTwo.isValidViewChangeMsg plainEnv msg = true) ∧
    ∃ list, replicaTwo.getPrepareMsg plainEnv (twoEntries (entryOf 1 3 "b") (entryOf 1 1 "a")) false = .ok list ∧
      ∃ request ∈ list, request.seq = 1 ∧ ¬ Newest (twoEntries (entryOf 1 3 "b") (entryOf 1 1 "a")) 1 request.hash := by
  decide

def builtMessage (r : Replica) (viewNumber : Nat) : NewViewMessage :=
  { viewNumber := viewNumber
    viewchangeMessages := ((r.viewChangeManager.viewchangeRequest.find? viewNumber).getD .empty).entries.map
      fun entry => { entry.2 with viewNumber := viewNumber } }

def newViewOf (r : Replica) (env : Env) (viewNumber : Nat) (list : List Request) : Outgoing :=
  .broadCast { newRequest .newview {} r.config.selfId with
    data := env.codec.serializeNewView { builtMessage r viewNumber with request := list } }

theorem sendNewViewMsg_spec {sent : List Outgoing} (unsent : r.viewChangeManager.newViewIsSent = false)
    (ran : r.sendNewViewMsg env viewNumber = .ok (r', sent)) :
    ∃ list, r'.getPrepareMsg env (builtMessage r viewNumber) true = .ok list ∧
      sent = [newViewOf r env viewNumber list] := by
  unfold Replica.sendNewViewMsg at ran
  rw [if_neg (by simp [unsent])] at ran
  dsimp only at ran
  obtain ⟨list, made, ran⟩ := bind_eq_ok.mp ran
  cases ran
  exact ⟨list, made, rfl⟩

theorem sendNewViewMsg_total (unsent : r.viewChangeManager.newViewIsSent = false)
    (heads : ∀ entry ∈ preparedEntries (builtMessage r viewNumber), headRequest entry ≠ none)
    (fits : lastRedo (builtMessage r viewNumber) ≠ maxUInt64) (env : Env) :
    ∃ r' sent, r.sendNewViewMsg env viewNumber = .ok (r', sent) := by
  obtain ⟨list, listed⟩ := getPrepareMsg_total heads fits
    (r.setViewChangeManager { r.viewChangeManager with newViewIsSent := true }) env true
  unfold Replica.sendNewViewMsg
  rw [if_neg (by simp [unsent])]
  exact ⟨_, _, bind_eq_ok.mpr ⟨list, listed, rfl⟩⟩

def NoNullBelow (bound : Nat) (list : List Request) : Prop :=
  ∀ request ∈ list, ∀ i : Nat, request.hash = "null" ++ toString i → ¬ i ≤ bound

structure Covered (env : Env) (message : NewViewMessage) : Prop where
  prepared : ∀ i, firstRedo message ≤ i → i ≤ lastRedo message → i ≤ Replica.maxStable message →
    entriesFor message i ≠ [] ∨ env.signMessage "" = none
  notNull : ∀ s, firstRedo message ≤ s → ∀ request, redone message s = some request →
    ∀ i : Nat, request.hash = "null" ++ toString i → ¬ i ≤ Replica.maxStable message

theorem null_injective {i j : Nat} (same : "null" ++ toString i = "null" ++ toString j) : i = j := by
  have text : i.repr = j.repr := by simpa using same
  have digits : Nat.toDigits 10 i = Nat.toDigits 10 j := by
    rw [← Nat.toList_repr, ← Nat.toList_repr, text]
  calc
    i = Nat.ofDigitChars 10 (Nat.toDigits 10 i) 0 := Nat.ofDigitChars_ten_toDigits.symm
    _ = Nat.ofDigitChars 10 (Nat.toDigits 10 j) 0 := by rw [digits]
    _ = j := Nat.ofDigitChars_ten_toDigits

theorem noNullBelow_iff (ran : r.getPrepareMsg env message true = .ok list) :
    NoNullBelow (Replica.maxStable message) list ↔ Covered env message := by
  have heads := (getPrepareMsg_spec ran).1
  constructor
  · intro clean
    constructor
    · intro i least most below
      by_contra hole
      push Not at hole
      have absent : redone message i = none := (redone_eq_none heads).mpr hole.1
      obtain ⟨request, member, -, -, as⟩ := redo_covers ran least most (.inr (.inr hole.2))
      simp only [absent] at as
      exact clean request member i as.2 below
    · intro s least prepared won i null
      have nonempty : entriesFor message s ≠ [] := by
        rw [Ne, ← redone_eq_none heads, won]
        simp
      obtain ⟨request, member, -, -, as⟩ := redo_covers ran least (lastRedo_spec nonempty).1 (.inl (by simp [won]))
      simp only [won] at as
      exact clean request member i (as.2.trans null)
  · intro covered request member i null
    obtain ⟨least, most, -, -, as⟩ := redo_member ran member
    cases won : redone message request.seq with
    | none =>
      simp only [won] at as
      rw [as.2] at null
      rw [← null_injective null]
      intro below
      rcases covered.prepared request.seq least most below with prepared | unsigned
      · exact prepared ((redone_eq_none heads).mp won)
      · obtain ⟨-, map, found, rfl⟩ := getPrepareMsg_spec ran
        obtain ⟨s, -, made⟩ := mem_filterMap.mp member
        have seq := (redoRequest_some (found s) made).1
        rw [seq] at won
        simp [Replica.redoRequest, found, won, unsigned] at made
    | some prepared =>
      simp only [won] at as
      exact covered.notNull request.seq least prepared won i (as.2 ▸ null)

theorem checkpointed_never_null {viewNumber : Nat} {sent : List Outgoing}
    (unsent : r.viewChangeManager.newViewIsSent = false)
    (ran : r.sendNewViewMsg env viewNumber = .ok (r', sent)) :
    ∃ list, sent = [newViewOf r env viewNumber list] ∧
      (NoNullBelow (Replica.maxStable (builtMessage r viewNumber)) list ↔ Covered env (builtMessage r viewNumber)) := by
  obtain ⟨list, made, same⟩ := sendNewViewMsg_spec unsent ran
  exact ⟨list, same, noNullBelow_iff made⟩

def viewConfig (i : Int) : ResDBConfig := { fourReplicas with selfInfo := ⟨i⟩, enableViewchange := true }

def stableFive : StableCheckPoint := ⟨5, "h", [⟨1, "signature"⟩, ⟨2, "signature"⟩, ⟨3, "signature"⟩]⟩

def viewChangeFive : ViewChangeMessage := { viewNumber := 2, stableCkpt := stableFive }

def viewChangeZero : ViewChangeMessage := { viewNumber := 2 }

def evenPrimary : Replica := replicaTwo.setViewChangeManager
  ([2, 3, 4].foldl (fun v sender => (v.addRequest viewChangeFive sender).1) {})

theorem evenCheckpoints_noNull : ∃ r' sent list, evenPrimary.sendNewViewMsg plainEnv 2 = .ok (r', sent) ∧
    sent = [newViewOf evenPrimary plainEnv 2 list] ∧
    NoNullBelow (Replica.maxStable (builtMessage evenPrimary 2)) list := by
  obtain ⟨⟨r', sent⟩, ran, -⟩ : ∃ p, evenPrimary.sendNewViewMsg plainEnv 2 = .ok p ∧ p.2 ≠ [] := by decide
  obtain ⟨list, same, clean⟩ := checkpointed_never_null rfl ran
  refine ⟨r', sent, list, ran, same, clean.mpr ?_⟩
  have nothing : preparedEntries (builtMessage evenPrimary 2) = [] := by decide
  have least : firstRedo (builtMessage evenPrimary 2) = 6 := by decide
  have most : lastRedo (builtMessage evenPrimary 2) = 1 := by decide
  constructor
  · intro i first last
    omega
  · intro s _ request won
    simp [redone, entriesFor, nothing] at won

def wireRequests : List (String × Request) :=
  [("checkpoint1", { type := .checkpoint, senderId := 1, data := "1" }),
    ("checkpoint2", { type := .checkpoint, senderId := 2, data := "2" }),
    ("checkpoint3", { type := .checkpoint, senderId := 3, data := "3" }),
    ("viewchange2", { type := .viewchange, senderId := 2, data := "five" }),
    ("viewchange3", { type := .viewchange, senderId := 3, data := "five" }),
    ("viewchange4", { type := .viewchange, senderId := 4, data := "zero" })]

def viewEnv : Env where
  codec :=
    { plainEnv.codec with
      parseMessage := fun buff => (wireRequests.lookup buff).map fun request =>
        ⟨buff, some ⟨request.senderId, "signature"⟩⟩
      parseRequest := fun data => wireRequests.lookup data
      parseCheckPointData := fun data =>
        [("1", ⟨5, "h", ⟨1, "signature"⟩, []⟩), ("2", ⟨5, "h", ⟨2, "signature"⟩, []⟩),
          ("3", ⟨5, "h", ⟨3, "signature"⟩, []⟩)].lookup data
      parseViewChange := fun data => [("five", viewChangeFive), ("zero", viewChangeZero)].lookup data
      serializeViewChange := fun message =>
        if message = viewChangeFive then "five" else if message = viewChangeZero then "zero" else "other" }
  verifyMessage := fun _ signature => decide (signature.signature = "signature")
  signMessage := fun _ => some ⟨2, "signature"⟩

def wire (buff : String) : ServerEvent := .process (fun _ => viewEnv) buff

def checkpoints : List ServerEvent :=
  [wire "checkpoint1", wire "checkpoint2", wire "checkpoint3", .updateStableCheckPointStatus viewEnv]

def HonestlySent (msg : ViewChangeMessage) : Prop :=
  ∃ i trace s, (server (viewConfig i)).Run trace s ∧ s.replica.sendViewChangeMsg viewEnv =
    .ok [.broadCast { newRequest .viewchange {} i with data := viewEnv.codec.serializeViewChange msg }]

theorem honestlySent_of_play (i : Int) (events : List ServerEvent) (msg : ViewChangeMessage)
    (checked : ((System.play serverAct ([], { replica := Replica.create (viewConfig i) }) events).any fun p =>
      decide (p.2.replica.sendViewChangeMsg viewEnv =
        .ok [.broadCast { newRequest .viewchange {} i with data := viewEnv.codec.serializeViewChange msg }])) = true) :
    HonestlySent msg :=
  ⟨i, exists_server_run (viewConfig i) events _ checked⟩

def storedZero (call : Call) : Replica :=
  call.before.setViewChangeManager (call.before.viewChangeManager.addRequest viewChangeZero 4).1

def nullOne : Request :=
  { type := .prePrepare, senderId := 2, seq := 1, currentView := 2, hash := "null1"
    dataSignature := some ⟨2, "signature"⟩ }

def NullsFirst (call : Call) : Prop :=
  (∀ msg ∈ (builtMessage (storedZero call) 2).viewchangeMessages,
    call.before.isValidViewChangeMsg viewEnv msg = true ∧ (msg = viewChangeFive ∨ msg = viewChangeZero)) ∧
  (∃ r', (storedZero call).sendNewViewMsg viewEnv 2 = .ok (r', call.outcome.sent)) ∧
  call.outcome.sent = [newViewOf (storedZero call) viewEnv 2 [nullOne]] ∧
  1 ≤ Replica.maxStable (builtMessage (storedZero call) 2)
deriving Decidable

theorem NullsFirst.honest {call : Call} (nulls : NullsFirst call) :
    ∀ msg ∈ (builtMessage (storedZero call) 2).viewchangeMessages,
      call.before.isValidViewChangeMsg viewEnv msg = true ∧ HonestlySent msg := by
  intro msg member
  obtain ⟨valid, rfl | rfl⟩ := nulls.1 msg member
  · exact ⟨valid, honestlySent_of_play 3 checkpoints viewChangeFive (by decide)⟩
  · exact ⟨valid, honestlySent_of_play 4 [] viewChangeZero (by decide)⟩

def lagging : List ServerEvent := checkpoints ++ [wire "viewchange2", wire "viewchange3", wire "viewchange4"]

theorem laggingCheckpoint_null : ∃ trace s, (server (viewConfig 2)).Run trace s ∧ ∃ call ∈ s.calls,
      (∀ msg ∈ (builtMessage (storedZero call) 2).viewchangeMessages,
        call.before.isValidViewChangeMsg viewEnv msg = true ∧ HonestlySent msg) ∧
      (∃ r', (storedZero call).sendNewViewMsg viewEnv 2 = .ok (r', call.outcome.sent)) ∧
      ∃ list, call.outcome.sent = [newViewOf (storedZero call) viewEnv 2 list] ∧
        ¬ NoNullBelow (Replica.maxStable (builtMessage (storedZero call) 2)) list := by
  obtain ⟨trace, s, run, call, made, nulls⟩ := exists_server_run (viewConfig 2)
    lagging (fun _ s => ∃ call ∈ s.calls, NullsFirst call) (by decide)
  have ⟨_, sending, sent, below⟩ := nulls
  refine ⟨trace, s, run, call, made, nulls.honest, sending, [nullOne], sent, ?_⟩
  intro clean
  exact clean nullOne (mem_singleton_self _) 1 (by decide) below

variable {config : ResDBConfig} {m : CheckPointManager} {c : StableCheckPoint}

def nodeIds (signatures : List SignatureInfo) : Finset Int :=
  (signatures.map fun signature => signature.nodeId).toFinset

@[mk_iff]
structure SignedByQuorum (env : Env) (config : ResDBConfig) (c : StableCheckPoint) : Prop where
  verified : ∀ signature ∈ c.signatures, env.verifyMessage c.hash signature = true
  quorum : config.getMinDataReceiveNum ≤ (nodeIds c.signatures).card

instance : Decidable (SignedByQuorum env config c) := decidable_of_iff' _ (signedByQuorum_iff env config c)

def ProvenCheckPoint (env : Env) (config : ResDBConfig) (c : StableCheckPoint) : Prop :=
  SignedByQuorum env config c ∨ c.seq = 0 ∧ c.signatures = []
deriving Decidable

def NarrowIds (signatures : List SignatureInfo) : Prop :=
  ∀ signature ∈ signatures, 0 ≤ signature.nodeId ∧ signature.nodeId < 2 ^ 32

theorem card_senders {signatures : List SignatureInfo} (narrow : NarrowIds signatures) :
    (signatures.map fun signature => toUInt32 signature.nodeId).toFinset.card = (nodeIds signatures).card := by
  have image : (signatures.map fun signature => toUInt32 signature.nodeId).toFinset =
      (nodeIds signatures).image toUInt32 := by
    ext id
    simp [nodeIds]
  rw [image]
  apply Finset.card_image_of_injOn
  intro i left j right same
  simp only [nodeIds, Finset.mem_coe, List.mem_toFinset, List.mem_map] at left right
  obtain ⟨first, inside, rfl⟩ := left
  obtain ⟨second, also, rfl⟩ := right
  have low := narrow first inside
  have high := narrow second also
  simp only [toUInt32] at same
  omega

theorem card_nodeIds_eq_zero {signatures : List SignatureInfo} : (nodeIds signatures).card = 0 ↔ signatures = [] := by
  simp [nodeIds]

theorem isValidCheckpointProof_own (narrow : NarrowIds m.stableCkpt.signatures) :
    m.isValidCheckpointProof env config c = true ↔
      ProvenCheckPoint env config ⟨c.seq, m.stableCkpt.hash, m.stableCkpt.signatures⟩ := by
  unfold CheckPointManager.isValidCheckpointProof ProvenCheckPoint
  simp only [Bool.and_eq_true, List.all_eq_true, Bool.or_eq_true, decide_eq_true_eq, card_senders narrow,
    card_nodeIds_eq_zero]
  constructor
  · rintro ⟨verified, quorum | unsigned⟩
    · exact .inl ⟨verified, quorum⟩
    · exact .inr unsigned
  · rintro (⟨verified, quorum⟩ | ⟨first, unsigned⟩)
    · exact ⟨verified, .inl quorum⟩
    · rw [unsigned]
      exact ⟨by simp, .inr ⟨first, rfl⟩⟩

end ResilientDB.Proof
