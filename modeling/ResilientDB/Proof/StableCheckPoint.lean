import ResilientDB.Proof.Deployment
import ResilientDB.Proof.History

namespace ResilientDB.Proof
open Model Library List

variable {config : ResDBConfig} {r r' : Replica} {calls : List Call} {s : Server} {event : ServerEvent}

def countedData (call : Call) : Option CheckPointData :=
  if call.request.type = .checkpoint then
    match call.env.codec.parseCheckPointData call.request.data with
    | none => none
    | some data =>
      if data.seq % call.before.config.checkPointWaterMark = 0 ∧
        call.env.verifyMessage data.hash data.hashSignature = true then some data else none
  else none

def SignsAsSender (call : Call) : Prop := ∀ data ∈ countedData call, data.hashSignature.nodeId = call.request.senderId

structure SignedBy (calls : List Call) (seq : Nat) (hash : String) (signatures : List SignatureInfo) (i : Int) :
    Prop where
  kept : ∃ signature ∈ signatures, signature.nodeId = i
  counted : ∃ call ∈ calls, ∃ data ∈ countedData call, data.seq = seq ∧ data.hash = hash ∧ call.request.senderId = i

def Backed (config : ResDBConfig) (calls : List Call) (ckpt : StableCheckPoint) : Prop :=
  ∃ signers : Finset Int, config.getMinDataReceiveNum ≤ signers.card ∧
    ∀ i ∈ signers, SignedBy calls ckpt.seq ckpt.hash ckpt.signatures i

theorem SignedBy.mono {seq : Nat} {hash : String} {signatures signatures' : List SignatureInfo} {i : Int}
    {more : List Call} (signed : SignedBy calls seq hash signatures i) (kept : signatures ⊆ signatures') :
    SignedBy (calls ++ more) seq hash signatures' i := by
  obtain ⟨⟨signature, member, same⟩, call, here, rest⟩ := signed
  exact ⟨⟨signature, kept member, same⟩, call, mem_append_left _ here, rest⟩

structure CkptVotes where
  senders : OrderedMap (Nat ×ₗ String) (Finset Nat)
  signatures : OrderedMap (Nat ×ₗ String) (List SignatureInfo)
  stable : StableCheckPoint

def ckptVotes (m : CheckPointManager) : CkptVotes := ⟨m.senderCkpt, m.signCkpt, m.stableCkpt⟩

def ckptSendersIn (b : CkptVotes) (seq : Nat) (hash : String) : Finset Nat :=
  (b.senders.find? (toLex (seq, hash))).getD ∅

def ckptSignaturesIn (b : CkptVotes) (seq : Nat) (hash : String) : List SignatureInfo :=
  (b.signatures.find? (toLex (seq, hash))).getD []

structure Voted (config : ResDBConfig) (calls : List Call) (b : CkptVotes) : Prop where
  counted : ∀ seq hash, ∀ n ∈ ckptSendersIn b seq hash,
    ∃ i, toUInt32 i = n ∧ SignedBy calls seq hash (ckptSignaturesIn b seq hash) i
  stable : b.stable.seq = 0 ∨ Backed config calls b.stable

theorem Voted.more {b : CkptVotes} (voted : Voted config calls b) (later : List Call) :
    Voted config (calls ++ later) b := by
  constructor
  · intro seq hash n member
    obtain ⟨i, same, signed⟩ := voted.counted seq hash n member
    exact ⟨i, same, signed.mono (List.Subset.refl _)⟩
  · rcases voted.stable with none | ⟨signers, enough, all⟩
    · exact .inl none
    · exact .inr ⟨signers, enough, fun i member => (all i member).mono (List.Subset.refl _)⟩

theorem Voted.addCheckPoint {m : CheckPointManager} {call : Call} {data : CheckPointData}
    (voted : Voted config calls (ckptVotes m)) (counted : countedData call = some data)
    (names : data.hashSignature.nodeId = call.request.senderId) :
    Voted config (calls ++ [call]) (ckptVotes (m.addCheckPoint (toUInt32 call.request.senderId) data)) := by
  have before := voted.more [call]
  unfold CheckPointManager.addCheckPoint
  dsimp only
  split
  · exact before
  refine ⟨?_, before.stable⟩
  intro seq hash n member
  simp only [ckptSendersIn, ckptSignaturesIn, ckptVotes, OrderedMap.find?_assign, OrderedMap.find?_alter] at member ⊢
  by_cases here : toLex (seq, hash) = toLex (data.seq, data.hash)
  · obtain ⟨rfl, rfl⟩ := Prod.mk.inj (toLex.injective here)
    rw [if_pos rfl, Option.getD_some] at member ⊢
    rcases Finset.mem_insert.mp member with rfl | old
    · refine ⟨call.request.senderId, rfl, ⟨data.hashSignature, ?_, names⟩, call, ?_, data, counted, rfl, rfl, rfl⟩
      · exact mem_append_right _ (mem_singleton_self _)
      · exact mem_append_right _ (mem_singleton_self _)
    · obtain ⟨i, same, signed⟩ := voted.counted data.seq data.hash n old
      exact ⟨i, same, signed.mono (subset_append_left _ _)⟩
  · rw [if_neg here] at member ⊢
    exact before.counted seq hash n member

theorem visitCkpt_chosen (env : Env) (state : Visit) (entry : (Nat ×ₗ String) × Finset Nat) :
    (CheckPointManager.visitCkpt env config state entry).2.2 =
      if config.getMinDataReceiveNum ≤ entry.2.card then ofLex entry.1 else state.2.2 := rfl

theorem foldl_visitCkpt_chosen (env : Env) (entries : List ((Nat ×ₗ String) × Finset Nat)) (state : Visit) :
    (entries.foldl (CheckPointManager.visitCkpt env config) state).2.2 = state.2.2 ∨
      ∃ entry ∈ entries, config.getMinDataReceiveNum ≤ entry.2.card ∧
        (entries.foldl (CheckPointManager.visitCkpt env config) state).2.2 = ofLex entry.1 := by
  induction entries generalizing state with
  | nil => exact .inl rfl
  | cons entry rest ih =>
    rw [foldl_cons]
    rcases ih (CheckPointManager.visitCkpt env config state entry) with same | ⟨other, member, enough, same⟩
    · rw [same, visitCkpt_chosen]
      split
      · rename_i enough
        exact .inr ⟨entry, mem_cons_self, enough, rfl⟩
      · exact .inl rfl
    · exact .inr ⟨other, mem_cons_of_mem _ member, enough, same⟩

theorem Voted.setStable {m : CheckPointManager} {seq : Nat} {hash : String} (voted : Voted config calls (ckptVotes m))
    (chosen : (seq, hash) = (0, "") ∨ config.getMinDataReceiveNum ≤ (ckptSendersIn (ckptVotes m) seq hash).card) :
    Voted config calls (ckptVotes (m.setStable seq hash)) := by
  unfold CheckPointManager.setStable
  split
  · rename_i newer
    rcases chosen with none | enough
    · cases none
      exact absurd newer (Nat.not_lt_zero _)
    constructor
    · intro other otherHash n member
      simp only [ckptSendersIn, ckptSignaturesIn, ckptVotes, OrderedMap.find?_eraseIf] at member ⊢
      split at member
      · simp at member
      · rename_i later
        rw [if_neg later]
        exact voted.counted other otherHash n member
    · obtain ⟨signers, size, all⟩ := exists_card_of_labels (voted.counted seq hash)
      exact .inr ⟨signers, size ▸ enough, all⟩
  · exact voted

theorem Voted.updateStable {m : CheckPointManager} (voted : Voted config calls (ckptVotes m)) (env : Env) :
    Voted config calls (ckptVotes (m.updateStableCheckPointStatus env config).1) := by
  rcases updateStable_eq env config m with same | ⟨visited, requests, seq, hash, loop, same⟩
  · rw [same]
    exact voted
  · have frame := foldl_visitCkpt_visited env config m.senderCkpt.entries (m, [], 0, "")
    have chosen := @foldl_visitCkpt_chosen config env m.senderCkpt.entries (m, [], 0, "")
    rw [loop] at frame chosen
    obtain ⟨_, _, _, _, _, frame⟩ := frame
    dsimp only at frame chosen
    rw [same, frame]
    refine Voted.setStable voted (chosen.imp_right ?_)
    rintro ⟨⟨key, senders⟩, member, enough, here⟩
    have found := OrderedMap.find?_eq_some.mpr member
    have key : key = toLex (seq, hash) := congrArg toLex here.symm
    rw [key] at found
    change config.getMinDataReceiveNum ≤ ((m.senderCkpt.find? (toLex (seq, hash))).getD ∅).card
    rw [found]
    exact enough

theorem handling_ckptVotes {env : Env} {context : Context} {request : Request} {outcome : Outcome}
    (handling : Handling r env context request outcome) :
    ckptVotes outcome.replica.checkpointManager = ckptVotes r.checkpointManager ∨
      ∃ data, countedData ⟨env, r, context, request, outcome⟩ = some data ∧ outcome.replica.checkpointManager =
          r.checkpointManager.addCheckPoint (toUInt32 request.senderId) data := by
  cases handling with
  | @checkpointed data _ _ _ type parsed mark verified added =>
    refine .inr ⟨data, ?_, added.symm⟩
    unfold countedData
    simp only [type, parsed, mark, verified, ↓reduceIte, and_self]
  | _ => exact .inl rfl

theorem Voted.called {call : Call} (voted : Voted config calls (ckptVotes call.before.checkpointManager))
    (ran : Ran call) (names : SignsAsSender call) :
    Voted config (calls ++ [call]) (ckptVotes call.outcome.replica.checkpointManager) := by
  rcases handling_ckptVotes (commit_handling ran) with same | ⟨data, counted, same⟩
  · rw [same]
    exact voted.more [call]
  · rw [same]
    exact voted.addCheckPoint counted (names data counted)

theorem Voted.thread (voted : Voted config calls (ckptVotes r.checkpointManager)) (self : r.config = config)
    (moved : Background r event r') : Voted config calls (ckptVotes r'.checkpointManager) := by
  rcases moved.checkpoints with ⟨env, rfl, rfl⟩ | ⟨data, hash, seq, db, ckpt, signal, same, -⟩
  · have chosen := voted.updateStable env
    rw [← self] at chosen ⊢
    exact chosen
  · rw [same]
    exact voted

theorem stable_backed {trace : List (Transition Server ServerEvent)} (run : (server config).Run trace s)
    (names : ∀ call ∈ s.calls, SignsAsSender call) :
    s.replica.checkpointManager.stableCkpt.seq = 0 ∨ Backed config s.calls s.replica.checkpointManager.stableCkpt := by
  have voted := server_invariant run
    (fun r calls => Voted config calls (ckptVotes r.checkpointManager) ∧ r.config = config) ?_ ?_ ?_ ?_
  · exact voted.1.stable
  · intro outOfOrder needResponse needQc
    refine ⟨⟨?_, .inl rfl⟩, rfl⟩
    intro seq hash n member
    simp only [ckptVotes, ckptSendersIn] at member
    cases member
  · exact fun _ _ _ _ _ before => before
  · rintro calls call ⟨voted, self⟩ ran member
    exact ⟨voted.called ran (names call member), (ran_config ran).trans self⟩
  · rintro s event r' ⟨voted, self⟩ moved -
    exact ⟨voted.thread self moved, moved.threaded.config.trans self⟩

section Cluster

variable {cluster : Cluster} {hash : String → String} {d : Deployment} {i : Int}
  {trace : List (Transition Deployment (Int × ServerEvent))}

def Authentic (cluster : Cluster) (trace : List (Transition Deployment (Int × ServerEvent))) (call : Call) : Prop :=
  ∀ data ∈ countedData call, data.hashSignature.nodeId = call.request.senderId ∧ call.request.senderId ∈ cluster.ids ∧
    (cluster.honest call.request.senderId → Signed (localTrace call.request.senderId trace) data.seq data.hash)
deriving Decidable

def HashedBy (cluster : Cluster) (hash : String → String) (trace : List (Transition Deployment (Int × ServerEvent)))
    (input : String) : Prop :=
  ∃ i, cluster.honest i ∧ Feeds hash (· ++ ·) "" (hashesOf (executions (localTrace i trace))) input

structure CollisionFree (cluster : Cluster) (hash : String → String)
    (trace : List (Transition Deployment (Int × ServerEvent))) : Prop where
  used : ∀ t ∈ trace, ∀ env, t.event.2 = .updateCheckPointStatus env → env.calculateHash = hash
  fixed : ∀ x y, (hash x).length = (hash y).length
  free : ∀ x y, HashedBy cluster hash trace x → HashedBy cluster hash trace y → hash x = hash y → x = y

structure ExecutesHistory (past : List (Transition Server ServerEvent)) (history : List String) : Prop where
  numbers : ((executions past).take history.length).map (fun request => request.seq) = List.range' 1 history.length
  hashes : hashesOf ((executions past).take history.length) = history

structure SoundCheckPoint (cluster : Cluster) (hash : String → String)
    (trace : List (Transition Deployment (Int × ServerEvent))) (ckpt : StableCheckPoint) : Prop where
  signers : cluster.config.getMinDataReceiveNum ≤ (ckpt.signatures.map fun signature => signature.nodeId).toFinset.card
  history : ∃ history : List String, history.length = ckpt.seq ∧ historyHash hash history = ckpt.hash ∧
    ∃ replicas : Finset Int, cluster.config.getMaxMaliciousReplicaNum + 1 ≤ replicas.card ∧
      ∀ i ∈ replicas, cluster.honest i ∧ Signed (localTrace i trace) ckpt.seq ckpt.hash ∧
        ExecutesHistory (localTrace i trace) history

theorem takesApart_of_length (fixed : ∀ x y, (hash x).length = (hash y).length) : TakesApart hash (· ++ ·) := by
  constructor
  · intro a x y same
    have lists := congrArg String.toList same
    simp only [String.toList_append] at lists
    exact String.toList_inj.mp (append_cancel_left lists)
  · intro a b x y same
    have lists := congrArg String.toList same
    simp only [String.toList_append] at lists
    obtain ⟨left, right⟩ := append_inj lists (by simpa only [String.length_toList] using fixed a b)
    exact ⟨String.toList_inj.mp left, String.toList_inj.mp right⟩

theorem CollisionFree.local_run (free : CollisionFree cluster hash trace) (run : (deployment cluster).Run trace d)
    (honest : cluster.honest i) : History hash (localTrace i trace) (d.server i).replica := by
  refine history_run (deployment_local run honest) fun t member env kind => ?_
  obtain ⟨u, inside, -, rfl⟩ := mem_localTrace member
  exact free.used u inside env kind

theorem CollisionFree.same_history (free : CollisionFree cluster hash trace) (run : (deployment cluster).Run trace d)
    {j : Int} (left : cluster.honest i) (right : cluster.honest j) {seq : Nat} {ckptHash : String}
    (signed : Signed (localTrace i trace) seq ckptHash) (signed' : Signed (localTrace j trace) seq ckptHash) :
    hashesOf ((executions (localTrace i trace)).take seq) = hashesOf ((executions (localTrace j trace)).take seq) := by
  obtain ⟨short, same⟩ := (free.local_run run left).signed seq ckptHash signed
  obtain ⟨short', same'⟩ := (free.local_run run right).signed seq ckptHash signed'
  have early (past : List (Transition Server ServerEvent)) :
      hashesOf ((executions past).take seq) <+: hashesOf (executions past) := by
    unfold hashesOf
    rw [map_take]
    exact take_prefix _ _
  refine chain_injective free.free (takesApart_of_length free.fixed) ?_ (fun input feeds => ?_)
    (fun input feeds => ?_) (same.symm.trans same')
  · simp only [hashesOf, length_map, length_take]
    omega
  · exact ⟨i, left, feeds.mono (early _)⟩
  · exact ⟨j, right, feeds.mono (early _)⟩

theorem stable_checkpoint_sound (run : (deployment cluster).Run trace d) (free : CollisionFree cluster hash trace)
    (honest : cluster.honest i) (authentic : ∀ call ∈ (d.server i).calls, Authentic cluster trace call) :
    (d.server i).replica.checkpointManager.stableCkpt.seq = 0 ∨
      SoundCheckPoint cluster hash trace (d.server i).replica.checkpointManager.stableCkpt := by
  rcases stable_backed (deployment_local run honest)
    (fun call member data counted => (authentic call member data counted).1) with none | ⟨signers, enough, all⟩
  · exact .inl none
  right
  generalize (d.server i).replica.checkpointManager.stableCkpt = ckpt at all
  have signed (j : Int) (member : j ∈ signers) : j ∈ cluster.ids ∧
      (cluster.honest j → Signed (localTrace j trace) ckpt.seq ckpt.hash) := by
    obtain ⟨call, made, data, counted, seq, ckptHash, rfl⟩ := (all j member).counted
    rw [← seq, ← ckptHash]
    exact (authentic call made data counted).2
  have size := cluster.size
  have bound := cluster.bound
  have threshold := cluster.config.getMinDataReceiveNum_eq
  have large : cluster.config.getMaxMaliciousReplicaNum + 1 ≤ (signers \ cluster.byzantine).card := by
    have least := Finset.le_card_sdiff cluster.byzantine signers
    change cluster.config.getMinDataReceiveNum ≤ signers.card at enough
    omega
  have good (j : Int) (member : j ∈ signers \ cluster.byzantine) :
      cluster.honest j ∧ Signed (localTrace j trace) ckpt.seq ckpt.hash := by
    obtain ⟨inside, outside⟩ := Finset.mem_sdiff.mp member
    have here : cluster.honest j := ⟨(signed j inside).1, outside⟩
    exact ⟨here, (signed j inside).2 here⟩
  obtain ⟨j, member⟩ := Finset.card_pos.mp (Nat.lt_of_lt_of_le (Nat.succ_pos _) large)
  obtain ⟨here, own⟩ := good j member
  obtain ⟨short, same⟩ := (free.local_run run here).signed _ _ own
  have length : (hashesOf ((executions (localTrace j trace)).take ckpt.seq)).length = ckpt.seq := by
    simp only [hashesOf, length_map, length_take]
    omega
  constructor
  · refine enough.trans (Finset.card_le_card fun j member => ?_)
    obtain ⟨signature, kept, rfl⟩ := (all j member).kept
    exact mem_toFinset.mpr (mem_map_of_mem kept)
  · refine ⟨_, length, same.symm, signers \ cluster.byzantine, large, fun k inside => ?_⟩
    obtain ⟨there, vote⟩ := good k inside
    refine ⟨there, vote, ?_, ?_⟩
    · rw [length]
      exact (free.local_run run there).numbers ((free.local_run run there).signed _ _ vote).1
    · rw [length]
      exact free.same_history run there here vote own

def stableAt (d : Deployment) (i : Int) : StableCheckPoint := (d.server i).replica.checkpointManager.stableCkpt

theorem stable_signers (run : (deployment cluster).Run trace d) (honest : cluster.honest i)
    (authentic : ∀ call ∈ (d.server i).calls, Authentic cluster trace call) (reached : (stableAt d i).seq ≠ 0) :
    ∃ signers, (quorums cluster).quorum signers ∧ ∀ k ∈ signers, cluster.honest k →
      Signed (localTrace k trace) (stableAt d i).seq (stableAt d i).hash := by
  obtain ⟨signers, enough, all⟩ := (stable_backed (deployment_local run honest)
    fun call member data counted => (authentic call member data counted).1).resolve_left reached
  have signed (k : Int) (member : k ∈ signers) : k ∈ cluster.ids ∧
      (cluster.honest k → Signed (localTrace k trace) (stableAt d i).seq (stableAt d i).hash) := by
    obtain ⟨call, made, data, counted, seq, ckptHash, rfl⟩ := (all k member).counted
    unfold stableAt
    rw [← seq, ← ckptHash]
    exact (authentic call made data counted).2
  exact ⟨signers, ⟨fun k member => (signed k member).1, enough⟩, fun k member => (signed k member).2⟩

/-- One honest replica has executed both, so the shorter history begins the longer one. -/
theorem stable_checkpoints_agree {j : Int} (run : (deployment cluster).Run trace d)
    (used : ∀ t ∈ trace, ∀ env, t.event.2 = .updateCheckPointStatus env → env.calculateHash = hash)
    (honestI : cluster.honest i) (honestJ : cluster.honest j)
    (authentic : ∀ call ∈ (d.server i).calls ++ (d.server j).calls, Authentic cluster trace call)
    (reached : (stableAt d i).seq ≠ 0) (reached' : (stableAt d j).seq ≠ 0) :
    (∃ k, cluster.honest k ∧ ∀ ckpt ∈ [stableAt d i, stableAt d j],
      ckpt.seq ≤ (executions (localTrace k trace)).length ∧
      ckpt.hash = historyHash hash (hashesOf ((executions (localTrace k trace)).take ckpt.seq))) ∧
    ((stableAt d i).seq = (stableAt d j).seq → (stableAt d i).hash = (stableAt d j).hash) := by
  obtain ⟨_, quorum, signed⟩ := stable_signers run honestI (fun call member =>
    authentic call (mem_append_left _ member)) reached
  obtain ⟨_, quorum', signed'⟩ := stable_signers run honestJ (fun call member =>
    authentic call (mem_append_right _ member)) reached'
  obtain ⟨k, member, member', honest⟩ := (quorums cluster).common _ _ quorum quorum'
  have history : History hash (localTrace k trace) (d.server k).replica := by
    refine history_run (deployment_local run honest) fun t member env kind => ?_
    obtain ⟨u, inside, -, rfl⟩ := mem_localTrace member
    exact used u inside env kind
  have first := history.signed _ _ (signed k member honest)
  have second := history.signed _ _ (signed' k member' honest)
  exact ⟨⟨k, honest, by simp [first, second]⟩, fun same => by rw [first.2, second.2, same]⟩

end Cluster

def ckptCluster : Cluster where
  config := { fourReplicas with checkPointWaterMark := 1, enableViewchange := true }
  view := 1
  byzantine := {4}
  distinct := by decide
  fits := by decide
  size := by decide
  members := by decide
  bound := by decide

def shortHash (text : String) : String := if text = "a" then "h" else "g"

theorem shortHash_length (x y : String) : (shortHash x).length = (shortHash y).length := by
  unfold shortHash
  split <;> split <;> decide

def ckptEnv (signer : Int) : Env :=
  { plainEnv with
    calculateHash := shortHash
    codec := { plainEnv.codec with
      parseCheckPointData := fun _ => some { seq := 1, hash := "h", hashSignature := ⟨signer, "signature"⟩ } } }

def vote (i : Int) (type : RequestType) (sender signer : Int) : Int × ServerEvent :=
  hearFrom i (ckptEnv signer) signer { type := type, seq := 1, hash := "a", currentView := 1, senderId := sender }

def executeFirst (i : Int) : List (Int × ServerEvent) :=
  [vote i .prePrepare 1 1, vote i .prepare 1 1, vote i .prepare 2 2, vote i .prepare 3 3, vote i .commit 1 1,
    vote i .commit 2 2, vote i .commit 3 3, (i, .takeMessage), (i, .passNext), (i, .executeMessage (ckptEnv i)),
    (i, .updateCheckPointStatus (ckptEnv i))]

def firstStable : List (Int × ServerEvent) :=
  executeFirst 1 ++ executeFirst 2 ++ executeFirst 3 ++ [vote 1 .checkpoint 1 1, vote 1 .checkpoint 2 2,
    vote 1 .checkpoint 3 3, (1, .updateStableCheckPointStatus (ckptEnv 1))]

theorem executeFirst_hash (i : Int) : ∀ event ∈ executeFirst i, ∀ env, event.2 = .updateCheckPointStatus env →
    env.calculateHash = shortHash := by
  intro event member env kind
  simp only [executeFirst, mem_cons, not_mem_nil, or_false] at member
  rcases member with rfl | rfl | rfl | rfl | rfl | rfl | rfl | rfl | rfl | rfl | rfl
  all_goals
    cases kind
    try rfl

theorem firstStable_hash : ∀ event ∈ firstStable, ∀ env, event.2 = .updateCheckPointStatus env →
    env.calculateHash = shortHash := by
  intro event member env kind
  simp only [firstStable, mem_append] at member
  rcases member with ((first | second) | third) | last
  · exact executeFirst_hash 1 event first env kind
  · exact executeFirst_hash 2 event second env kind
  · exact executeFirst_hash 3 event third env kind
  · simp only [mem_cons, not_mem_nil, or_false] at last
    rcases last with rfl | rfl | rfl | rfl
    all_goals cases kind

theorem hashedBy_first {trace : List (Transition Deployment (Int × ServerEvent))} {x : String}
    (executed : ∀ i ∈ ckptCluster.ids, ckptCluster.honest i → hashesOf (executions (localTrace i trace)) = ["a"])
    (hashed : HashedBy ckptCluster shortHash trace x) : x = "a" := by
  obtain ⟨i, honest, ys, y, early, rfl⟩ := hashed
  rw [executed i honest.1 honest] at early
  have short := early.length_le
  simp only [length_append, length_singleton] at short
  obtain rfl : ys = [] := length_eq_zero_iff.mp (by omega)
  simp at early
  rw [early]
  rfl

theorem firstRequest_stable : ∃ trace d, (deployment ckptCluster).Run trace d ∧
    (d.server 1).replica.checkpointManager.stableCkpt.seq = 1 ∧
    SoundCheckPoint ckptCluster shortHash trace (d.server 1).replica.checkpointManager.stableCkpt := by
  obtain ⟨trace, d, run, ⟨stable, authentic, executed⟩, events⟩ := System.run_of_events
    (deploymentAct_sound ckptCluster) (startDeployment_initial ckptCluster) firstStable
    (fun trace d => (d.server 1).replica.checkpointManager.stableCkpt.seq = 1 ∧
      (∀ call ∈ (d.server 1).calls, Authentic ckptCluster trace call) ∧
      ∀ i ∈ ckptCluster.ids, ckptCluster.honest i → hashesOf (executions (localTrace i trace)) = ["a"]) (by decide)
  have free : CollisionFree ckptCluster shortHash trace :=
    ⟨fun t member => firstStable_hash t.event (events t member), shortHash_length,
      fun x y left right _ => (hashedBy_first executed left).trans (hashedBy_first executed right).symm⟩
  refine ⟨trace, d, run, stable, ?_⟩
  have sound := stable_checkpoint_sound run free (i := 1) (by decide) authentic
  rw [stable] at sound
  exact sound.resolve_left Nat.one_ne_zero

theorem bothStable_agree : ∃ trace d, (deployment ckptCluster).Run trace d ∧ (stableAt d 1).seq = 1 ∧
    (stableAt d 2).seq = 1 ∧ (stableAt d 1).hash = (stableAt d 2).hash := by
  obtain ⟨trace, d, run, ⟨first, second, authentic⟩, events⟩ := System.run_of_events
    (deploymentAct_sound ckptCluster) (startDeployment_initial ckptCluster)
    (firstStable ++ [vote 2 .checkpoint 1 1, vote 2 .checkpoint 2 2, vote 2 .checkpoint 3 3,
      (2, .updateStableCheckPointStatus (ckptEnv 2))])
    (fun trace d => (stableAt d 1).seq = 1 ∧ (stableAt d 2).seq = 1 ∧
      ∀ call ∈ (d.server 1).calls ++ (d.server 2).calls, Authentic ckptCluster trace call) (by decide)
  have used : ∀ t ∈ trace, ∀ env, t.event.2 = .updateCheckPointStatus env → env.calculateHash = shortHash := by
    intro t member env kind
    rcases mem_append.mp (events t member) with before | last
    · exact firstStable_hash t.event before env kind
    · simp only [mem_cons, not_mem_nil, or_false] at last
      rcases last with same | same | same | same
      all_goals simp [same, vote, hearFrom] at kind
  have agree := stable_checkpoints_agree run used (i := 1) (j := 2) (by decide) (by decide) authentic
    (by simp [first]) (by simp [second])
  exact ⟨trace, d, run, first, second, agree.2 (first.trans second.symm)⟩

def onlyFour : Env := { ckptEnv 4 with verifyMessage := fun _ signature => decide (signature.nodeId = 4) }

def underAnotherName (sender : Int) : Int × ServerEvent :=
  hearFrom 1 onlyFour 4 { type := .checkpoint, currentView := 1, senderId := sender }

theorem forged_stable : ∃ trace d, (deployment ckptCluster).Run trace d ∧ CollisionFree ckptCluster shortHash trace ∧
    ckptCluster.honest 1 ∧ (∀ receipt ∈ (d.server 1).received, receipt.VerifiedFrom 4) ∧
    (∀ call ∈ (d.server 1).calls, ∀ data ∈ countedData call, data.hashSignature.nodeId = 4) ∧
    (∀ i, ckptCluster.honest i → executions (localTrace i trace) = []) ∧
    ¬ ((d.server 1).replica.checkpointManager.stableCkpt.seq = 0 ∨
      SoundCheckPoint ckptCluster shortHash trace (d.server 1).replica.checkpointManager.stableCkpt) := by
  obtain ⟨trace, d, run, ⟨verified, signer, idle, stable⟩, events⟩ := System.run_of_events
    (deploymentAct_sound ckptCluster) (startDeployment_initial ckptCluster)
    [underAnotherName 1, underAnotherName 2, underAnotherName 3, (1, .updateStableCheckPointStatus onlyFour)]
    (fun trace d => (∀ receipt ∈ (d.server 1).received, receipt.message.signature = some ⟨4, "signature"⟩ ∧
        receipt.env.verifyMessage receipt.message.data ⟨4, "signature"⟩ = true) ∧
      (∀ call ∈ (d.server 1).calls, ∀ data ∈ countedData call, data.hashSignature.nodeId = 4) ∧
      (∀ i ∈ ckptCluster.ids, executions (localTrace i trace) = []) ∧
      (d.server 1).replica.checkpointManager.stableCkpt =
        ⟨1, "h", [⟨4, "signature"⟩, ⟨4, "signature"⟩, ⟨4, "signature"⟩]⟩) (by decide)
  have nothing : ∀ x, ¬ HashedBy ckptCluster shortHash trace x := by
    rintro x ⟨i, honest, ys, y, early, -⟩
    rw [idle i honest.1] at early
    have short := early.length_le
    simp [hashesOf] at short
  have used : ∀ t ∈ trace, ∀ env, t.event.2 = .updateCheckPointStatus env → env.calculateHash = shortHash := by
    intro t member env kind
    have inside := events t member
    simp only [mem_cons, not_mem_nil, or_false] at inside
    rcases inside with same | same | same | same
    all_goals
      rw [same] at kind
      cases kind
  refine ⟨trace, d, run, ⟨used, shortHash_length, fun x _ left => absurd left (nothing x)⟩, by decide,
    fun receipt member => ⟨_, (verified receipt member).1, rfl, (verified receipt member).2⟩, signer,
    fun i honest => idle i honest.1, ?_⟩
  rw [stable]
  rintro (none | sound)
  · cases none
  · exact absurd sound.signers (by decide)

end ResilientDB.Proof
