import ResilientDB.Model.GeoCommitment
import ResilientDB.Proof.GeoOrder

namespace ResilientDB.Proof
open Model Library List

variable {env : GeoEnv} {config : GeoConfig} {c : GeoPBFTCommitment} {request : GeoRequest} {s s' : GeoNode}
  {request' : GeoRequest}

inductive AdmissionCall
  | addNewReq (seq region : Nat)
  | updateSeq (seq : Nat)

structure Admission where
  commitment : GeoPBFTCommitment := {}
  admitted : List (Nat × Nat) := []

def Admission.call (s : Admission) : AdmissionCall → Admission
  | .addNewReq seq region =>
    match s.commitment.addNewReq seq region with
    | (true, added) => ⟨added, s.admitted ++ [(seq, region)]⟩
    | (false, same) => ⟨same, s.admitted⟩
  | .updateSeq seq => { s with commitment := s.commitment.updateSeq seq }

def admission (calls : List AdmissionCall) : Admission := calls.foldl Admission.call {}

structure AdmittedCalls (s : Admission) : Prop where
  slot : ∀ i region, region ∈ s.commitment.checklist i ↔ ∃ seq, (seq, region) ∈ s.admitted ∧ seq % 2 ^ 20 = i
  apart : ∀ seq seq' region, (seq, region) ∈ s.admitted → (seq', region) ∈ s.admitted →
    seq % 2 ^ 20 = seq' % 2 ^ 20 → seq = seq'

theorem addNewReq_cases (c : GeoPBFTCommitment) (seq region : Nat) :
    (c.addNewReq seq region = (false, c) ∧ (seq < c.minSeq ∨ region ∈ c.checklist (seq % 2 ^ 20))) ∨
    c.minSeq ≤ seq ∧ region ∉ c.checklist (seq % 2 ^ 20) ∧ c.addNewReq seq region = (true, { c with
        checklist := Function.update c.checklist (seq % 2 ^ 20) (insert region (c.checklist (seq % 2 ^ 20))) }) := by
  unfold GeoPBFTCommitment.addNewReq
  by_cases old : seq < c.minSeq
  · exact .inl ⟨if_pos old, .inl old⟩
  · rw [if_neg old]
    by_cases known : region ∈ c.checklist (seq % 2 ^ 20)
    · exact .inl ⟨if_pos known, .inr known⟩
    · exact .inr ⟨not_lt.mp old, known, if_neg known⟩

theorem addNewReq_succeeds (c : GeoPBFTCommitment) (seq region : Nat) :
    (c.addNewReq seq region).1 = true ↔ c.minSeq ≤ seq ∧ region ∉ c.checklist (seq % 2 ^ 20) := by
  rcases addNewReq_cases c seq region with ⟨same, reason⟩ | ⟨fresh, new, added⟩
  · rw [same]
    refine iff_of_false (by simp) fun both => ?_
    rcases reason with old | known
    · exact absurd both.1 (not_le.mpr old)
    · exact both.2 known
  · rw [added]
    exact iff_of_true rfl ⟨fresh, new⟩

theorem mem_update_checklist {checklist : Nat → Finset Nat} {i j region other : Nat} :
    other ∈ Function.update checklist i (insert region (checklist i)) j ↔
      other ∈ checklist j ∨ j = i ∧ other = region := by
  by_cases here : j = i
  · subst here
    rw [Function.update_self, Finset.mem_insert]
    tauto
  · rw [Function.update_of_ne here]
    tauto

theorem updateSeq_checklist (c : GeoPBFTCommitment) (seq : Nat) : (c.updateSeq seq).checklist = c.checklist := by
  unfold GeoPBFTCommitment.updateSeq
  split <;> rfl

theorem AdmittedCalls.call {s : Admission} (admitted : AdmittedCalls s) (call : AdmissionCall) :
    AdmittedCalls (s.call call) := by
  cases call with
  | updateSeq seq =>
    unfold Admission.call
    refine ⟨fun i region => ?_, admitted.apart⟩
    dsimp only
    rw [updateSeq_checklist]
    exact admitted.slot i region
  | addNewReq seq region =>
    rcases addNewReq_cases s.commitment seq region with ⟨same, -⟩ | ⟨-, new, added⟩
    · simp only [Admission.call, same]
      exact admitted
    · simp only [Admission.call, added]
      have unknown : ∀ earlier, (earlier, region) ∈ s.admitted → earlier % 2 ^ 20 ≠ seq % 2 ^ 20 :=
        fun earlier member equal => new ((admitted.slot _ _).mpr ⟨earlier, member, equal⟩)
      refine ⟨fun i other => ?_, fun a b other first second equal => ?_⟩
      · dsimp only
        rw [mem_update_checklist, admitted.slot]
        constructor
        · rintro (⟨earlier, member, slot⟩ | ⟨rfl, rfl⟩)
          · exact ⟨earlier, mem_append_left _ member, slot⟩
          · exact ⟨seq, by simp, rfl⟩
        · rintro ⟨earlier, member, slot⟩
          rcases mem_append.mp member with old | here
          · exact .inl ⟨earlier, old, slot⟩
          · cases mem_singleton.mp here
            exact .inr ⟨slot.symm, rfl⟩
      · rcases mem_append.mp first with old | here <;> rcases mem_append.mp second with old' | here'
        · exact admitted.apart a b other old old' equal
        · cases mem_singleton.mp here'
          exact absurd equal (unknown a old)
        · cases mem_singleton.mp here
          exact absurd equal.symm (unknown b old')
        · cases mem_singleton.mp here
          cases mem_singleton.mp here'
          rfl

theorem admitted_calls (calls : List AdmissionCall) : AdmittedCalls (admission calls) := by
  unfold admission
  have start : AdmittedCalls {} := ⟨by simp, fun _ _ _ none => by cases none⟩
  generalize ({} : Admission) = s at start
  induction calls generalizing s with
  | nil => exact start
  | cons call calls ih => exact ih _ (start.call call)

theorem addNewReq_once_iff (calls : List AdmissionCall) (seq region : Nat)
    (fresh : (admission calls).commitment.minSeq ≤ seq) :
    (((admission calls).commitment.addNewReq seq region).1 = true ↔ (seq, region) ∉ (admission calls).admitted) ↔
      ∀ other, (other, region) ∈ (admission calls).admitted → other % 2 ^ 20 = seq % 2 ^ 20 → other = seq := by
  have admitted := admitted_calls calls
  rw [addNewReq_succeeds, admitted.slot]
  constructor
  · intro once other member equal
    by_cases known : (seq, region) ∈ (admission calls).admitted
    · exact admitted.apart other seq region member known equal
    · exact absurd ⟨other, member, equal⟩ (once.mpr known).2
  · intro unique
    constructor
    · rintro ⟨-, unknown⟩ known
      exact unknown ⟨seq, known, rfl⟩
    · intro new
      refine ⟨fresh, ?_⟩
      rintro ⟨other, member, equal⟩
      rw [unique other member equal] at member
      exact new member

theorem admitted_once : ((admission [.addNewReq 7 1, .updateSeq 3]).commitment.addNewReq 8 1).1 = true ↔
    (8, 1) ∉ (admission [.addNewReq 7 1, .updateSeq 3]).admitted :=
  (addNewReq_once_iff [.addNewReq 7 1, .updateSeq 3] 8 1 (by decide)).mpr (by
      have all : (admission [.addNewReq 7 1, .updateSeq 3]).admitted = [(7, 1)] := by decide
      rw [all]
      intro other member
      cases mem_singleton.mp member
      decide)

theorem addNewReq_wraps : (admission [.addNewReq 0 1]).commitment.minSeq ≤ 2 ^ 20 ∧
    (2 ^ 20, 1) ∉ (admission [.addNewReq 0 1]).admitted ∧
    ((admission [.addNewReq 0 1]).commitment.addNewReq (2 ^ 20) 1).1 = false := by
  decide

def slotOf (request : GeoRequest) : Nat × Nat := (request.seq % 2 ^ 20, toUInt32 request.regionId)

structure InChecklist (s : GeoNode) : Prop where
  distinct : ((s.order.pushed ++ s.inside).map slotOf).Nodup
  marked : ∀ request ∈ s.order.pushed ++ s.inside, (slotOf request).2 ∈ s.commitment.checklist (slotOf request).1

theorem InChecklist.of_subperm (listed : InChecklist s)
    (fewer : (s'.order.pushed ++ s'.inside).Subperm (s.order.pushed ++ s.inside))
    (checklist : s'.commitment.checklist = s.commitment.checklist) : InChecklist s' := by
  refine ⟨?_, fun request member => ?_⟩
  · obtain ⟨some, perm, sub⟩ := fewer
    exact (perm.map _).nodup_iff.mp (listed.distinct.sublist (sub.map _))
  · rw [checklist]
    exact listed.marked request (fewer.subset member)

theorem InChecklist.addNewReq (listed : InChecklist s) (request : GeoRequest) : InChecklist (s.addNewReq request) := by
  rcases addNewReq_cases s.commitment request.seq (toUInt32 request.regionId) with ⟨same, -⟩ | ⟨-, new, added⟩
  · simp only [GeoNode.addNewReq, same]
    exact listed
  · simp only [GeoNode.addNewReq, added]
    refine ⟨?_, fun other member => ?_⟩
    · rw [← append_assoc, map_append]
      refine List.Nodup.append listed.distinct (nodup_singleton _) ?_
      rw [map_singleton, disjoint_singleton]
      intro member
      obtain ⟨other, inside, slot⟩ := mem_map.mp member
      have marked := listed.marked other inside
      rw [slot] at marked
      exact new marked
    · rw [← append_assoc] at member
      dsimp only
      rw [mem_update_checklist]
      rcases mem_append.mp member with old | here
      · exact .inl (listed.marked other old)
      · cases mem_singleton.mp here
        exact .inr ⟨rfl, rfl⟩

theorem checkAndOrder_ordered (passed : (GeoPBFTCommitment.checkAndOrder env config request).ordered = some request') :
    request' = request := by
  unfold GeoPBFTCommitment.checkAndOrder at passed
  cases parsed : env.parseBatchUserRequest request.data with
  | none => simp [parsed] at passed
  | some batch =>
    simp only [parsed] at passed
    split_ifs at passed
    · cases passed
      rfl
    · cases passed
      rfl

theorem InChecklist.checkAndOrder (listed : InChecklist s) (member : request ∈ s.inside) :
    InChecklist (s.checkAndOrder env config request) := by
  refine listed.of_subperm ?_ rfl
  have rest := perm_cons_erase member
  unfold GeoNode.checkAndOrder
  cases passed : (GeoPBFTCommitment.checkAndOrder env config request).ordered with
  | none =>
    simp only [passed, Option.elim_none]
    exact ((erase_sublist).append_left _).subperm
  | some request' =>
    obtain rfl := checkAndOrder_ordered passed
    simp only [passed, Option.elim_some]
    refine List.Perm.subperm ?_
    have moved : (s.order.orderGeoRequest request').pushed = s.order.pushed ++ [request'] := by
      simp [GeoOrder.pushed, GeoOrder.orderGeoRequest, GeoGlobalExecutor.orderGeoRequest]
    rw [moved, append_assoc]
    exact rest.symm.append_left _

def NodeOrdered (env : GeoEnv) (config : GeoConfig) (s : GeoNode) : Prop :=
  (geoOrder env config).Reachable s.order ∧ InChecklist s

theorem NodeOrdered.orderStep {event : GeoOrderEvent} (node : NodeOrdered env config s)
    (step : s.orderStep env event = some s') (old : ∀ request, event ≠ .orderGeoRequest request) :
    NodeOrdered env config s' := by
  obtain ⟨⟨trace, run⟩, listed⟩ := node
  obtain ⟨order, moved, rfl⟩ := Option.map_eq_some_iff.mp step
  refine ⟨⟨_, run.next moved⟩, listed.of_subperm ?_ rfl⟩
  dsimp only
  rw [act_pushed (counts_run run) moved old]

theorem NodeOrdered.checkAndOrder (node : NodeOrdered env config s) (member : request ∈ s.inside) :
    NodeOrdered env config (s.checkAndOrder env config request) := by
  refine ⟨?_, node.2.checkAndOrder member⟩
  obtain ⟨trace, run⟩ := node.1
  unfold GeoNode.checkAndOrder
  cases passed : (GeoPBFTCommitment.checkAndOrder env config request).ordered with
  | none =>
    simp only [passed, Option.elim_none]
    exact ⟨trace, run⟩
  | some request' =>
    simp only [passed, Option.elim_some]
    have moved : s.order.act env (.orderGeoRequest request') = some (s.order.orderGeoRequest request') := rfl
    exact ⟨_, run.next moved⟩

theorem NodeOrdered.postProcessExecutedMsg (node : NodeOrdered env config s) :
    NodeOrdered env config (s.postProcessExecutedMsg env config) := by
  obtain ⟨⟨trace, run⟩, listed⟩ := node
  have popped : s.order.act env .getResponseMsg = some s.order.getResponseMsg := rfl
  have pushed := act_pushed (counts_run run) popped fun _ => by simp
  unfold GeoNode.postProcessExecutedMsg
  dsimp only
  cases s.order.executor.getResponseMsg.1 with
  | none => exact ⟨⟨_, run.next popped⟩, listed.of_subperm (by dsimp only; rw [pushed]) rfl⟩
  | some response =>
    exact ⟨⟨_, run.next popped⟩, listed.of_subperm (by dsimp only; rw [pushed]) (updateSeq_checklist _ _)⟩

theorem nodeOrdered_run {trace : List (Transition GeoNode GeoEvent)}
    (run : (geoNode env config).Run trace s) : NodeOrdered env config s := by
  refine run.invariant (fun _ => True) _ ?_ ?_ (fun _ _ => trivial)
  · rintro s rfl
    exact ⟨⟨[], .initial rfl⟩, by simp [GeoOrder.pushed, GeoGlobalExecutor.create], by
      simp [GeoOrder.pushed, GeoGlobalExecutor.create]⟩
  · intro s event s' node step _
    cases event with
    | addNewReq request =>
      cases step
      refine ⟨?_, node.2.addNewReq request⟩
      unfold GeoNode.addNewReq
      split
      · exact node.1
      · exact node.1
    | checkAndOrder request =>
      simp only [geoNode, GeoNode.act, Option.ite_none_right_eq_some, Option.some.injEq] at step
      obtain ⟨member, rfl⟩ := step
      exact node.checkAndOrder member
    | postProcessExecutedMsg =>
      cases step
      exact node.postProcessExecutedMsg
    | _ => exact node.orderStep step fun _ => by simp

theorem InChecklist.keys (listed : InChecklist s) : (s.order.pushed.map GeoRequest.key).Nodup := by
  have slots := listed.distinct
  rw [map_append] at slots
  have same : s.order.pushed.map slotOf = (s.order.pushed.map GeoRequest.key).map
      fun κ => ((ofLex κ).1 % 2 ^ 20, toUInt32 (ofLex κ).2) := by
    rw [map_map]
    rfl
  rw [same] at slots
  exact slots.of_append_left.of_map _

theorem NodeOrdered.executed_iff (node : NodeOrdered env config s)
    (running : s.order.executor.isStop = false) {κ : Nat ×ₗ Int} (valid : IsGeoKey config.regions.length κ) :
    (∃ rounds, GaplessUpTo config.regions.length ((GeoOrder.orderRound env)^[rounds] s.order).executed κ) ↔
      ∃ front, front <+: s.order.pushed ∧ GaplessUpTo config.regions.length front κ ∧
        ∀ request ∈ front, request.key < κ → IsGeoKey config.regions.length request.key := by
  obtain ⟨⟨order, reached⟩, listed⟩ := node
  have arrived : (s.order.arrived.map GeoRequest.key).Nodup := listed.keys.sublist ((sublist_append_left _ _).map _)
  exact (ordered_run reached arrived).executed_iff env running listed.keys valid

theorem geo_order_progress_iff {trace : List (Transition GeoNode GeoEvent)} {s : GeoNode}
    (run : (geoNode env config).Run trace s) (running : s.order.executor.isStop = false) {κ : Nat ×ₗ Int}
    (valid : IsGeoKey config.regions.length κ) :
    (∃ rounds, GaplessUpTo config.regions.length ((GeoOrder.orderRound env)^[rounds] s.order).executed κ) ↔
      ∃ front, front <+: s.order.pushed ∧ GaplessUpTo config.regions.length front κ ∧
        ∀ request ∈ front, request.key < κ → IsGeoKey config.regions.length request.key :=
  (nodeOrdered_run run).executed_iff running valid

def letThrough (requests : List GeoRequest) : List GeoEvent :=
  requests.flatMap fun request => [.addNewReq request, .checkAndOrder request]

theorem exists_letThrough (requests : List GeoRequest)
    (checked : ((System.play (GeoNode.act geoEnv twoRegions) ([], { order := { executor := .create twoRegions } })
      (letThrough requests)).any fun p =>
        decide (p.2.order.executor.isStop = false ∧ p.2.order.pushed = requests)) = true) :
    ∃ trace s, (geoNode geoEnv twoRegions).Run trace s ∧ s.order.executor.isStop = false ∧ s.order.pushed = requests :=
  System.run_of_play ((geoNode geoEnv twoRegions).acts rfl) rfl (letThrough requests)
    (fun _ s => s.order.executor.isStop = false ∧ s.order.pushed = requests) checked

theorem rounds_progress : ∃ trace s, (geoNode geoEnv twoRegions).Run trace s ∧
    s.order.pushed = [geoRequest 3 9, geoRequest 1 2, geoRequest 1 1] ∧
    ∃ rounds, GaplessUpTo 2 ((GeoOrder.orderRound geoEnv)^[rounds] s.order).executed (toLex (1, 2)) := by
  obtain ⟨trace, s, run, running, pushed⟩ :=
    exists_letThrough [geoRequest 3 9, geoRequest 1 2, geoRequest 1 1] (by decide +kernel)
  refine ⟨trace, s, run, pushed, (geo_order_progress_iff run running (by decide)).mpr ⟨_, prefix_refl _, ?_⟩⟩
  rw [pushed]
  exact ⟨(gaplessUpTo_roundKey (R := 2) (n := 1) (by decide)).mpr (by decide), by decide⟩

theorem zero_blocks_order : ∃ trace s, (geoNode geoEnv twoRegions).Run trace s ∧ s.order.executor.isStop = false ∧
    GaplessUpTo 2 s.order.pushed (toLex (1, 1)) ∧
    ∀ rounds, ¬ GaplessUpTo 2 ((GeoOrder.orderRound geoEnv)^[rounds] s.order).executed (toLex (1, 1)) := by
  obtain ⟨trace, s, run, running, pushed⟩ := exists_letThrough [geoRequest 0 1, geoRequest 1 1] (by decide +kernel)
  have valid : IsGeoKey twoRegions.regions.length (toLex (1, 1)) := by decide
  refine ⟨trace, s, run, running, ?_, ?_⟩
  · rw [pushed]
    exact (gaplessUpTo_roundKey (R := 2) (n := 0) (by decide)).mpr (by decide)
  · rw [← not_exists]
    intro executed
    obtain ⟨front, initial, gapless, proper⟩ := ((nodeOrdered_run run).executed_iff running valid).mp executed
    obtain ⟨request, member, -⟩ := gapless _ valid le_rfl
    rw [pushed] at initial
    cases front with
    | nil => cases member
    | cons first rest =>
      obtain rfl := (cons_prefix_cons.mp initial).1
      exact absurd (proper _ mem_cons_self (by decide)) (by decide)

variable {verify : String → SignatureInfo → Bool} {batch : BatchUserRequest}

def regionReplicas (config : GeoConfig) (regionId : Int) : Finset Int :=
  (((config.regions.find? fun region => region.regionId = regionId).elim [] RegionInfo.replicaInfo).map
    ReplicaInfo.id).toFinset

def signers (config : GeoConfig) (regionId : Int) (batch : BatchUserRequest) : Finset Int :=
  (regionReplicas config regionId).filter fun id => ∃ sig ∈ batch.committedCerts.getD [], sig.nodeId = id

def certifiers (verify : String → SignatureInfo → Bool) (config : GeoConfig) (regionId : Int)
    (batch : BatchUserRequest) : Finset Int :=
  (regionReplicas config regionId).filter fun id =>
    ∃ sig ∈ batch.committedCerts.getD [], sig.nodeId = id ∧ verify batch.hash sig = true

structure RegionLedger (verify : String → SignatureInfo → Bool) (config : GeoConfig) (regionId : Int) where
  honest : Finset Int
  committed : String → Nat → List UserRequest → Prop
  digest : List UserRequest → String
  faulty : (regionReplicas config regionId \ honest).card < config.getMinDataReceiveNum
  signs : ∀ hash sig, sig.nodeId ∈ honest → verify hash sig = true → ∃ seq users, committed hash seq users
  hashed : ∀ hash seq users, committed hash seq users → digest users = hash
  collisionFree : ∀ hash seq users users', committed hash seq users → digest users' = hash → users' = users

theorem geoProcessCcm_ordered (passes : (c.geoProcessCcm env config request).1.ordered = some request') :
    (GeoPBFTCommitment.checkAndOrder env config request).ordered = some request' := by
  rcases addNewReq_cases c request.seq (toUInt32 request.regionId) with ⟨same, -⟩ | ⟨-, -, added⟩
  · simp [GeoPBFTCommitment.geoProcessCcm, same] at passes
  · simpa only [GeoPBFTCommitment.geoProcessCcm, added] using passes

theorem verified_of_ordered (passes : (GeoPBFTCommitment.checkAndOrder env config request).ordered = some request')
    (parsed : env.parseBatchUserRequest request.data = some batch) (checks : env.verifier = some verify) :
    ∀ sig ∈ batch.committedCerts.getD [], verify batch.hash sig = true := by
  simp only [GeoPBFTCommitment.checkAndOrder, parsed] at passes
  split_ifs at passes with refused
  all_goals
    simp only [Bool.or_eq_true, not_or, Bool.not_eq_true', GeoPBFTCommitment.verifyCerts, checks] at refused
    simpa using refused.2

theorem certifiers_eq_signers (verified : ∀ sig ∈ batch.committedCerts.getD [], verify batch.hash sig = true)
    (regionId : Int) : certifiers verify config regionId batch = signers config regionId batch := by
  refine Finset.filter_congr fun id _ => ⟨?_, ?_⟩
  · rintro ⟨sig, member, names, -⟩
    exact ⟨sig, member, names⟩
  · rintro ⟨sig, member, names⟩
    exact ⟨sig, member, names, verified sig member⟩

theorem RegionLedger.committed_of_quorum {regionId : Int} (ledger : RegionLedger verify config regionId)
    (quorum : config.getMinDataReceiveNum ≤ (certifiers verify config regionId batch).card) :
    ∃ seq users, ledger.committed batch.hash seq users := by
  have more := ledger.faulty.trans_le quorum
  obtain ⟨id, signed, honest⟩ := Finset.exists_mem_notMem_of_card_lt_card more
  obtain ⟨replica, sig, -, rfl, valid⟩ := Finset.mem_filter.mp signed
  simp only [Finset.mem_sdiff, not_and, not_not] at honest
  exact ledger.signs batch.hash sig (honest replica) valid

theorem geo_certified_iff (ledger : RegionLedger verify config request.regionId) (checks : env.verifier = some verify)
    (parsed : env.parseBatchUserRequest request.data = some batch)
    (passes : (c.geoProcessCcm env config request).1.ordered = some request) :
    (∀ sig ∈ batch.committedCerts.getD [], verify batch.hash sig = true) ∧
    (config.getMinDataReceiveNum ≤ (signers config request.regionId batch).card →
      ∃ seq users, ledger.committed batch.hash seq users) ∧
    (config.getMinDataReceiveNum ≤ (certifiers verify config request.regionId batch).card ∧
        ledger.committed batch.hash request.seq batch.userRequests ↔
      config.getMinDataReceiveNum ≤ (signers config request.regionId batch).card ∧
        ledger.digest batch.userRequests = batch.hash ∧ ∃ users, ledger.committed batch.hash request.seq users) := by
  have verified := verified_of_ordered (geoProcessCcm_ordered passes) parsed checks
  have same : certifiers verify config request.regionId batch = signers config request.regionId batch :=
    certifiers_eq_signers verified request.regionId
  refine ⟨verified, fun quorum => ledger.committed_of_quorum (same ▸ quorum), ?_⟩
  rw [same]
  refine and_congr_right fun _ => ⟨fun committed => ⟨ledger.hashed _ _ _ committed, _, committed⟩, ?_⟩
  rintro ⟨digest, users, committed⟩
  rwa [ledger.collisionFree _ _ _ _ committed digest]

def committedUser : UserRequest := { request := { data := "pay" } }

def forgedUser : UserRequest := { request := { data := "steal" } }

def hashSignature (id : Int) : SignatureInfo := { nodeId := id, signature := "hash" }

def verifyHash (hash : String) (sig : SignatureInfo) : Bool := hash = "hash" && sig.signature = "hash"

def certEnv : GeoEnv where
  parseBatchUserRequest data :=
    if data = "bare" then some { userRequests := [forgedUser], hash := "any", committedCerts := some [] }
    else some {
      userRequests := [if data = "right" then committedUser else forgedUser]
      hash := "hash"
      committedCerts := some [hashSignature 5, hashSignature 6, hashSignature 7] }
  serializeBatchUserResponse _ := ""
  verifier := some verifyHash
  transactionManager := none

def regionTwo : RegionLedger verifyHash twoRegions 2 where
  honest := {5, 6, 7, 8}
  committed hash seq users := hash = "hash" ∧ seq = 1 ∧ users = [committedUser]
  digest users := if users = [committedUser] then "hash" else "other"
  faulty := by decide
  signs hash sig _ valid := ⟨1, [committedUser], by
    simp only [verifyHash, Bool.and_eq_true, decide_eq_true_eq] at valid
    exact ⟨valid.1, rfl, rfl⟩⟩
  hashed := by
    rintro hash seq users ⟨rfl, -, rfl⟩
    rfl
  collisionFree := by
    rintro hash seq users users' ⟨rfl, -, rfl⟩ same
    by_contra other
    rw [if_neg other] at same
    exact absurd same (by decide)

def fromRegionTwo (data : String) (seq : Nat) : GeoRequest := { data := data, seq := seq, regionId := 2 }

def rightBatch : BatchUserRequest where
  userRequests := [committedUser]
  hash := "hash"
  committedCerts := some [hashSignature 5, hashSignature 6, hashSignature 7]

theorem right_certified : twoRegions.getMinDataReceiveNum ≤ (certifiers verifyHash twoRegions 2 rightBatch).card ∧
      regionTwo.committed rightBatch.hash 1 rightBatch.userRequests := by
  have parsed : certEnv.parseBatchUserRequest (fromRegionTwo "right" 1).data = some rightBatch := rfl
  have passes : (GeoPBFTCommitment.geoProcessCcm certEnv twoRegions {} (fromRegionTwo "right" 1)).1.ordered =
      some (fromRegionTwo "right" 1) := by decide
  have certified := @geo_certified_iff certEnv twoRegions {} (fromRegionTwo "right" 1) verifyHash rightBatch regionTwo
    rfl parsed passes
  exact certified.2.2.mpr ⟨by decide, by decide, [committedUser], rfl, rfl, rfl⟩

theorem uncertified_passes :
    ((GeoPBFTCommitment.geoProcessCcm certEnv twoRegions {} (fromRegionTwo "bare" 4)).1.ordered =
        some (fromRegionTwo "bare" 4) ∧
      ∀ batch, certEnv.parseBatchUserRequest "bare" = some batch → certifiers verifyHash twoRegions 2 batch = ∅) ∧
    (GeoPBFTCommitment.geoProcessCcm certEnv twoRegions {} (fromRegionTwo "forged" 4)).1.ordered =
        some (fromRegionTwo "forged" 4) ∧
      ∀ batch, certEnv.parseBatchUserRequest "forged" = some batch →
        twoRegions.getMinDataReceiveNum ≤ (certifiers verifyHash twoRegions 2 batch).card ∧
        batch.userRequests = [forgedUser] ∧
        (∀ seq, ¬ regionTwo.committed batch.hash seq [forgedUser]) ∧
        ∀ users, ¬ regionTwo.committed batch.hash 4 users := by
  refine ⟨⟨by decide, fun batch parsed => ?_⟩, by decide, fun batch parsed => ?_⟩
  · cases parsed
    decide
  · cases parsed
    refine ⟨by decide, rfl, ?_, ?_⟩
    · rintro seq ⟨-, -, same⟩
      exact absurd same (by decide)
    · rintro users ⟨-, same, -⟩
      exact absurd same (by decide)

inductive CcmCall
  | geoProcessCcm (request : GeoRequest)
  | updateSeq (seq : Nat)

def CcmCall.after (env : GeoEnv) (config : GeoConfig) (c : GeoPBFTCommitment) : CcmCall → GeoPBFTCommitment
  | .geoProcessCcm request => (c.geoProcessCcm env config request).2
  | .updateSeq seq => c.updateSeq seq

def checkedAs (request : GeoRequest) : Nat × Nat := (request.seq % 2 ^ 20, toUInt32 request.regionId)

theorem geoProcessCcm_state (c : GeoPBFTCommitment) (request : GeoRequest) :
    (c.geoProcessCcm env config request).2 = (c.addNewReq request.seq (toUInt32 request.regionId)).2 := by
  rcases addNewReq_cases c request.seq (toUInt32 request.regionId) with ⟨same, -⟩ | ⟨-, -, added⟩
  · simp only [GeoPBFTCommitment.geoProcessCcm, same]
  · simp only [GeoPBFTCommitment.geoProcessCcm, added]

theorem geoProcessCcm_result (c : GeoPBFTCommitment) (request : GeoRequest) : (c.geoProcessCcm env config request).1 =
      if (c.addNewReq request.seq (toUInt32 request.regionId)).1 then
        GeoPBFTCommitment.checkAndOrder env config request
      else { ret := 1 } := by
  unfold GeoPBFTCommitment.geoProcessCcm
  rcases c.addNewReq request.seq (toUInt32 request.regionId) with ⟨_ | _, after⟩ <;> rfl

structure Blocked (slot : Nat × Nat) (c c' : GeoPBFTCommitment) : Prop where
  minSeq : c'.minSeq = c.minSeq
  checklist : ∀ i region, region ∈ c'.checklist i ↔ region ∈ c.checklist i ∨ (i, region) = slot

theorem addNewReq_blocks (c : GeoPBFTCommitment) {seq : Nat} (region : Nat) (fresh : c.minSeq ≤ seq) :
    Blocked (seq % 2 ^ 20, region) c (c.addNewReq seq region).2 := by
  rcases addNewReq_cases c seq region with ⟨same, old | known⟩ | ⟨-, -, added⟩
  · omega
  · rw [same]
    refine ⟨rfl, fun i other => ⟨.inl, ?_⟩⟩
    rintro (member | here)
    · exact member
    · cases here
      exact known
  · rw [added]
    refine ⟨rfl, fun i other => ?_⟩
    rw [mem_update_checklist, Prod.mk.injEq]

theorem addNewReq_old {seq : Nat} (region : Nat) (old : seq < c.minSeq) : (c.addNewReq seq region).2 = c := by
  unfold GeoPBFTCommitment.addNewReq
  rw [if_pos old]

theorem Blocked.after {slot : Nat × Nat} {c' : GeoPBFTCommitment} (marked : Blocked slot c c') (call : CcmCall) :
    Blocked slot (call.after env config c) (call.after env config c') := by
  cases call with
  | updateSeq seq =>
    refine ⟨?_, fun i region => ?_⟩
    · simp only [CcmCall.after, GeoPBFTCommitment.updateSeq, marked.minSeq]
      split
      · rfl
      · exact marked.minSeq
    · simp only [CcmCall.after, updateSeq_checklist, marked.checklist]
  | geoProcessCcm request =>
    simp only [CcmCall.after, geoProcessCcm_state]
    rcases lt_or_ge request.seq c.minSeq with old | fresh
    · rw [addNewReq_old _ old, addNewReq_old _ (marked.minSeq ▸ old)]
      exact marked
    · have adds := addNewReq_blocks c (toUInt32 request.regionId) fresh
      have adds' := addNewReq_blocks c' (toUInt32 request.regionId) (marked.minSeq ▸ fresh)
      refine ⟨adds'.minSeq.trans (marked.minSeq.trans adds.minSeq.symm), fun i region => ?_⟩
      rw [adds'.checklist, adds.checklist, marked.checklist]
      tauto

theorem rejected_request_blocks (rejected : (c.geoProcessCcm env config request).1.ret = -2) (calls : List CcmCall)
    (later : GeoRequest) :
    ((calls.foldl (CcmCall.after env config) (c.geoProcessCcm env config request).2).geoProcessCcm env config later).1 =
      if checkedAs later = checkedAs request then { ret := 1 }
      else ((calls.foldl (CcmCall.after env config) c).geoProcessCcm env config later).1 := by
  have fresh : c.minSeq ≤ request.seq := by
    rw [geoProcessCcm_result] at rejected
    split_ifs at rejected with passes
    exact ((addNewReq_succeeds c _ _).mp passes).1
  have marked : Blocked (checkedAs request) (calls.foldl (CcmCall.after env config) c)
      (calls.foldl (CcmCall.after env config) (c.geoProcessCcm env config request).2) := by
    induction calls using List.reverseRecOn with
    | nil =>
      rw [geoProcessCcm_state]
      exact addNewReq_blocks c _ fresh
    | append_singleton calls call ih =>
      rw [foldl_append, foldl_append]
      exact ih.after call
  simp only [geoProcessCcm_result, addNewReq_succeeds, marked.minSeq, marked.checklist]
  by_cases same : checkedAs later = checkedAs request
  · rw [if_pos same, if_neg fun both => both.2 (.inr same)]
  · have other : ((later.seq % 2 ^ 20, toUInt32 later.regionId) = checkedAs request) = False := eq_false same
    simp only [same, other, or_false, if_false]

def partsEnv : GeoEnv := { certEnv with
  parseBatchUserRequest := fun data => if data = "right" then some rightBatch else none }

theorem otherSeq_passes :
    ((GeoPBFTCommitment.geoProcessCcm partsEnv twoRegions {} (fromRegionTwo "garbage" 1)).2.geoProcessCcm partsEnv
      twoRegions (fromRegionTwo "right" 2)).1.ordered = some (fromRegionTwo "right" 2) := by
  have same := @rejected_request_blocks partsEnv twoRegions {} (fromRegionTwo "garbage" 1) (by decide) []
    (fromRegionTwo "right" 2)
  exact (congrArg CcmResult.ordered same).trans (by decide)

theorem garbage_hides_request :
    let c : GeoPBFTCommitment := {}
    let after := (c.geoProcessCcm partsEnv twoRegions (fromRegionTwo "garbage" 1)).2
    (c.geoProcessCcm partsEnv twoRegions (fromRegionTwo "garbage" 1)).1.ret = -2 ∧
      (c.geoProcessCcm partsEnv twoRegions (fromRegionTwo "right" 1)).1.ordered = some (fromRegionTwo "right" 1) ∧
      (after.geoProcessCcm partsEnv twoRegions (fromRegionTwo "right" 1)).1 = { ret := 1 } := by
  decide

end ResilientDB.Proof
