import ResilientDB.Proof.Certificates
import ResilientDB.Model.Proxy
import ResilientDB.Proof.Responses

namespace ResilientDB.Proof.Proxy
open Model Model.Proxy Library Option

variable {config : ResDBConfig} {parse : String → Option ResponseManager.BatchResponse}
  {serializeBatch : Common.BatchRequest → String} {hasVerifier : Bool}
  {m m' : Manager} {p : ProposeThread} {env : Env} {batchReq : List QueueItem} {signature : SignatureInfo}
  {request message : Request} {batch : ResponseManager.BatchResponse}

def stored (m : Manager) (batchReq : List QueueItem) : ContextPool :=
  { m.contextPool with
    contextList := Function.update m.contextPool.contextList (m.localId &&& m.contextPool.pool.mask)
      (batchReq.map fun item => item.context) }

def batchOf (m : Manager) (env : Env) (batchReq : List QueueItem) : Common.BatchRequest :=
  { userRequests := Manager.userRequests batchReq, localId := m.localId, createtime := env.now }

inductive Batches (m : Manager) (env : Env) (batchReq : List QueueItem) : Manager.Batched → Prop
  | full : (m.contextPool.pool.getCollector m.localId).seq ≠ m.localId →
      Batches m env batchReq { manager := { m with localId := m.localId + 1 }, ret := -2 }
  | unsigned : (m.contextPool.pool.getCollector m.localId).seq = m.localId →
      m.batchMessage env (m.serializeBatch (batchOf m env batchReq)) = none →
      Batches m env batchReq
        { manager := { m with contextPool := stored m batchReq, localId := m.localId + 1 }, ret := -2 }
  | sent {message : Request} : (m.contextPool.pool.getCollector m.localId).seq = m.localId →
      m.batchMessage env (m.serializeBatch (batchOf m env batchReq)) = some message →
      Batches m env batchReq
        { manager := { m with
            manager := m.manager.sentBatch message, contextPool := stored m batchReq, localId := m.localId + 1 }
          ret := 0, sent := some message }

theorem doBatch_batches (m : Manager) (env : Env) (batchReq : List QueueItem) :
    Batches m env batchReq (m.doBatch env batchReq) := by
  unfold Manager.doBatch Manager.addContextList ContextPool.setContextList
  by_cases place : (m.contextPool.pool.getCollector m.localId).seq = m.localId
  · simp only [place, ne_eq, not_true_eq_false, if_false]
    cases made : m.batchMessage env (m.serializeBatch (batchOf m env batchReq)) with
    | none =>
      unfold batchOf at made
      simp only [made]
      exact .unsigned place made
    | some message =>
      unfold batchOf at made
      simp only [made]
      exact .sent place made
  · simp only [ne_eq, place, not_false_eq_true, if_true]
    exact .full place

def answered (c : ContextPool) (id : Nat) : ContextPool := (c.fetchContextList id).2.update id

inductive Responds (m : Manager) (signature : SignatureInfo) (request : Request) : Manager.Answered → Prop
  | counted {processed : ResponseManager.Processed} :
      m.manager.processResponseMsg signature request = .ok processed → processed.sent = none →
      Responds m signature request { manager := { m with manager := processed.manager }, ret := processed.ret }
  | answers {processed : ResponseManager.Processed} {batch : ResponseManager.BatchResponse}
      {sent : List (Nat × String)} :
      m.manager.processResponseMsg signature request = .ok processed → processed.sent = some batch →
      Manager.sendResponses batch.response (m.contextPool.fetchContextList batch.localId).1 0 = .ok sent →
      Responds m signature request
        { manager := { m with
            manager := processed.manager, contextPool := answered m.contextPool batch.localId }
          ret := processed.ret, sent := sent }

theorem ofCollector_ok {α : Type} {result : Except Fault α} {value : α} (ok : ofCollector result = .ok value) :
    result = .ok value := by
  cases result with
  | ok other =>
    cases ok
    rfl
  | error fault => cases ok

theorem processResponseMsg_responds {result : Manager.Answered}
    (ran : m.processResponseMsg signature request = .ok result) : Responds m signature request result := by
  unfold Manager.processResponseMsg at ran
  obtain ⟨processed, counted, ran⟩ := bind_eq_ok.mp ran
  have done := ofCollector_ok counted
  dsimp only at ran
  split at ran
  · rename_i none
    cases ran
    exact .counted done none
  · rename_i batch some
    obtain ⟨answer, sends, ran⟩ := bind_eq_ok.mp ran
    unfold Manager.sendResponseToClient at sends
    dsimp only at sends
    obtain ⟨sent, looped, sends⟩ := bind_eq_ok.mp sends
    cases sends
    cases ran
    exact .answers done some looped

inductive Acts (m : Manager) : BatchEvent → Manager → Prop
  | batches {env : Env} {batchReq : List QueueItem} {result : Manager.Batched} :
      result = m.doBatch env batchReq → Batches m env batchReq result →
      Acts m (.doBatch env batchReq) result.manager
  | responds {signature : SignatureInfo} {request : Request} {result : Manager.Answered} :
      request.type = .response → m.processResponseMsg signature request = .ok result →
      Responds m signature request result → Acts m (.processResponseMsg signature request) result.manager

theorem batching_acts {event : BatchEvent} (step : (batching config parse serializeBatch hasVerifier).step m event m') :
    Acts m event m' := by
  obtain ⟨isPassed, acted⟩ := step
  cases event with
  | doBatch env batchReq =>
    cases acted
    exact .batches rfl (doBatch_batches m env batchReq)
  | processResponseMsg signature request =>
    simp only [Manager.act] at acted
    obtain ⟨result, ran, acted⟩ := bind_eq_ok.mp acted
    cases acted
    exact .responds (of_decide_eq_true isPassed) ran (processResponseMsg_responds ran)

theorem batching_answering {trace : List (Transition Manager BatchEvent)}
    (run : (batching config parse serializeBatch hasVerifier).Run trace m) :
    (ResponseManager.answering config parse).Reachable m.manager := by
  refine (run.simulation (fun m => m.manager) (fun _ => True) (fun _ => True) ?_ ?_ fun _ _ => trivial).2
  · rintro m rfl
    exact ⟨trivial, rfl⟩
  · intro m event m' _ step _
    refine ⟨trivial, ?_⟩
    cases batching_acts step with
    | batches same batches =>
      cases batches with
      | full => exact .refl _
      | unsigned => exact .refl _
      | @sent message => exact .single (e := .sentBatch message) rfl
    | @responds signature request result type ran responds =>
      cases responds with
      | @counted processed counts quiet =>
        exact .single (e := .received signature request none) ⟨type, processed.ret, by rw [counts, ← quiet]⟩
      | @answers processed batch sent counts here looped =>
        exact .single (e := .received signature request (some batch)) ⟨type, processed.ret, by rw [counts, ← here]⟩

inductive Rounds (p : ProposeThread) (env : Env) : ProposeThread.Round → Prop
  | waits {batchQueue batchReq : List QueueItem} : p.batchReq ++ p.batchQueue = batchReq ++ batchQueue →
      Rounds p env { thread := { p with batchQueue := batchQueue, batchReq := batchReq } }
  | proposes {batchQueue batchReq : List QueueItem} : p.batchReq ++ p.batchQueue = batchReq ++ batchQueue →
      batchReq ≠ [] → Rounds p env
        { thread := { p with
            manager := (p.manager.doBatch env batchReq).manager, batchQueue := batchQueue, batchReq := [] }
          called := some (batchReq, p.manager.doBatch env batchReq) }

theorem propose_eq (p : ProposeThread) (env : Env) : p.propose env = .ok
    { thread := { p with manager := (p.manager.doBatch env p.batchReq).manager, batchReq := [] }
      called := some (p.batchReq, p.manager.doBatch env p.batchReq) } := by
  unfold ProposeThread.propose
  dsimp only
  split <;> rfl

theorem batchProposeMsg_ok (p : ProposeThread) (env : Env) : ∃ round, p.batchProposeMsg env = .ok round := by
  unfold ProposeThread.batchProposeMsg
  split
  · exact ⟨_, rfl⟩
  split
  · split
    · dsimp only
      split
      · exact ⟨_, rfl⟩
      · exact ⟨_, propose_eq _ env⟩
    · split
      · exact ⟨_, rfl⟩
      · exact ⟨_, propose_eq _ env⟩
  split
  · exact ⟨_, rfl⟩
  · exact ⟨_, propose_eq _ env⟩

theorem batchProposeMsg_rounds {round : ProposeThread.Round} (ran : p.batchProposeMsg env = .ok round) :
    Rounds p env round := by
  unfold ProposeThread.batchProposeMsg at ran
  split at ran
  · cases ran
    exact .waits rfl
  split at ran
  · split at ran
    · rename_i item rest queue
      have gathered : p.batchReq ++ p.batchQueue = (p.batchReq ++ [item]) ++ rest := by
        rw [queue, List.append_assoc, List.singleton_append]
      dsimp only at ran
      split at ran
      · cases ran
        exact .waits gathered
      · rw [propose_eq] at ran
        cases ran
        exact .proposes gathered (by simp)
    · rename_i queue
      split at ran
      · cases ran
        exact .waits rfl
      · rename_i some
        rw [propose_eq] at ran
        cases ran
        exact .proposes rfl some
  split at ran
  · cases ran
    exact .waits rfl
  · rename_i some
    rw [propose_eq] at ran
    cases ran
    exact .proposes rfl some

variable {event : BatchEvent} {t : Transition Manager BatchEvent} {past trace : List (Transition Manager BatchEvent)}

def sentIn (t : Transition Manager BatchEvent) : Option (Nat × String) :=
  match t.event with
  | .doBatch env batchReq =>
    (t.before.doBatch env batchReq).sent.map fun message => (t.before.localId, message.hash)
  | .processResponseMsg _ _ => none

def rejectedIn (t : Transition Manager BatchEvent) : Option String :=
  match t.event with
  | .doBatch _ _ => none
  | .processResponseMsg _ request => if request.ret = -2 then some request.hash else none

def answeredWith (t : Transition Manager BatchEvent) : Option ResponseManager.BatchResponse :=
  match t.event with
  | .doBatch _ _ => none
  | .processResponseMsg signature request =>
    (t.before.manager.processResponseMsg signature request).toOption.bind fun processed => processed.sent

def settles (t : Transition Manager BatchEvent) (batch : Nat × String) : Bool :=
  (answeredWith t).map (fun answer => answer.localId) = some batch.1 ∨ rejectedIn t = some batch.2

def outstanding : List (Transition Manager BatchEvent) → List (Nat × String)
  | [] => []
  | t :: past => ((outstanding past).filter fun batch => !settles t batch) ++ (sentIn t).toList

def lowers (t : Transition Manager BatchEvent) : Bool := (answeredWith t).isSome || (rejectedIn t).isSome

def SettlesOne : List (Transition Manager BatchEvent) → Prop
  | [] => True
  | t :: past => (lowers t = true → (outstanding past).countP (settles t) = 1) ∧ SettlesOne past

instance decidableSettlesOne : DecidablePred SettlesOne
  | [] => inferInstanceAs (Decidable True)
  | t :: past =>
    haveI := decidableSettlesOne past
    inferInstanceAs (Decidable ((lowers t = true → (outstanding past).countP (settles t) = 1) ∧ SettlesOne past))

theorem not_settles (quiet : lowers t = false) (batch : Nat × String) : settles t batch = false := by
  unfold lowers at quiet
  rw [Bool.or_eq_false_iff, isSome_eq_false_iff, isNone_iff_eq_none, isSome_eq_false_iff,
    isNone_iff_eq_none] at quiet
  simp [settles, quiet.1, quiet.2]

theorem length_outstanding (t : Transition Manager BatchEvent) (past : List (Transition Manager BatchEvent)) :
    (outstanding (t :: past)).length + (outstanding past).countP (settles t) =
      (outstanding past).length + (sentIn t).toList.length := by
  have parts := List.length_eq_countP_add_countP (settles t) (l := outstanding past)
  rw [List.countP_eq_length_filter (p := fun batch => ¬ settles t batch)] at parts
  simp only [Bool.not_eq_true, Bool.decide_eq_false] at parts
  rw [outstanding, List.length_append]
  omega

theorem removeWaiting_sendNum (m : ResponseManager) (hash : String) :
    (m.removeWaitingResponseRequest hash).sendNum = m.sendNum := by
  unfold ResponseManager.removeWaitingResponseRequest
  split <;> rfl

theorem sentBatch_sendNum (m : ResponseManager) (request : Request) :
    (m.sentBatch request).sendNum = m.sendNum + 1 := by
  unfold ResponseManager.sentBatch ResponseManager.addWaitingResponseRequest
  split
  · rfl
  · split <;> rfl

theorem addResponseMsg_sendNum {m : ResponseManager} {signature : SignatureInfo} {request : Request}
    {added : ResponseManager.ResponseAdded} (ran : m.addResponseMsg signature request = .ok added) :
    added.manager.sendNum = m.sendNum := by
  unfold ResponseManager.addResponseMsg at ran
  split at ran
  · cases ran
    exact removeWaiting_sendNum m _
  obtain ⟨result, -, ran⟩ := bind_eq_ok.mp ran
  dsimp only at ran
  split at ran
  · cases ran
    rfl
  split at ran
  · cases ran
    exact removeWaiting_sendNum _ _
  · cases ran
    rfl

theorem processResponseMsg_sendNum {m : ResponseManager} {signature : SignatureInfo} {request : Request}
    {processed : ResponseManager.Processed} (ran : m.processResponseMsg signature request = .ok processed) :
    processed.manager.sendNum =
      m.sendNum - if request.ret = -2 ∨ processed.sent.isSome = true then 1 else 0 := by
  unfold ResponseManager.processResponseMsg at ran
  split_ifs at ran with rejected
  · cases ran
    simp [rejected]
  obtain ⟨added, adds, ran⟩ := bind_eq_ok.mp ran
  have same := addResponseMsg_sendNum adds
  dsimp only at ran
  split at ran
  · split at ran
    · cases ran
      simp [ResponseManager.sendResponseToClient, same]
    · cases ran
      simp [rejected, same]
  · cases ran
    simp [rejected, same]

theorem act_sendNum (acts : Acts m event m') :
    m'.manager.sendNum = m.manager.sendNum + (sentIn ⟨m, event, m'⟩).toList.length -
      if lowers ⟨m, event, m'⟩ = true then 1 else 0 := by
  cases acts with
  | @batches env batchReq result same batches =>
    have quiet : lowers ⟨m, .doBatch env batchReq, result.manager⟩ = false := rfl
    rw [quiet]
    simp only [sentIn]
    rw [← same]
    cases batches with
    | full => simp
    | unsigned => simp
    | sent => simp [sentBatch_sendNum]
  | @responds signature request result type ran responds =>
    have none : sentIn ⟨m, .processResponseMsg signature request, result.manager⟩ = none := rfl
    rw [none]
    have change (processed : ResponseManager.Processed)
        (ran : m.manager.processResponseMsg signature request = .ok processed) :
        (lowers ⟨m, .processResponseMsg signature request, result.manager⟩ = true) =
          (request.ret = -2 ∨ processed.sent.isSome = true) := by
      simp only [lowers, answeredWith, rejectedIn, ran, Except.toOption, bind_some, Bool.or_eq_true]
      rw [or_comm]
      split <;> simp_all
    cases responds with
    | @counted processed counts quiet =>
      simp only [change processed counts]
      rw [processResponseMsg_sendNum counts]
      simp
    | @answers processed batch sent counts here looped =>
      simp only [change processed counts]
      rw [processResponseMsg_sendNum counts]
      simp

def smallProxy (limit : Nat) : ResDBConfig := { fourReplicas with maxProcessTxn := limit }

def numerals : List String :=
  ["0", "1", "2", "3", "4", "5", "6", "7", "8", "9", "10", "11", "12", "13", "14", "15", "16", "17"]

def serializeId (batch : Common.BatchRequest) : String := numerals.getD batch.localId "more"

def parseId (data : String) : Option ResponseManager.BatchResponse :=
  (numerals.idxOf? data).map fun id => { response := [data], localId := id }

def smallBatching (limit : Nat) : System Manager BatchEvent := batching (smallProxy limit) parseId serializeId true

def smallAct (m : Manager) (event : BatchEvent) : Option Manager :=
  if event.isPassed then (m.act event).toOption else none

theorem smallAct_sound (limit : Nat) (m : Manager) (event : BatchEvent) (m' : Manager)
    (acted : smallAct m event = some m') : (smallBatching limit).step m event m' := eq_ok_of_guarded acted

def sendOne : BatchEvent := .doBatch plainEnv [⟨⟨some ⟨some 7⟩, {}⟩, { data := "x" }⟩]

def rejection (sender : Int) (id : Nat) : BatchEvent :=
  .processResponseMsg ⟨sender, "signature"⟩
    { type := .response, senderId := sender, hash := numerals.getD id "more", ret := -2 }

def answerTo (sender : Int) (id : Nat) : Request :=
  { type := .response, senderId := sender, hash := numerals.getD id "more", data := numerals.getD id "more" }

def answerOf (sender : Int) (id : Nat) : BatchEvent := .processResponseMsg ⟨sender, "signature"⟩ (answerTo sender id)

def sentIds (trace : List (Transition Manager BatchEvent)) : List Nat :=
  trace.filterMap fun t => (sentIn t).map fun batch => batch.1

def answeredIds (trace : List (Transition Manager BatchEvent)) : List Nat :=
  trace.filterMap fun t => (answeredWith t).map fun answer => answer.localId

def slots (config : ResDBConfig) : Nat := getCapacity (config.maxProcessTxn * 2)

def IsDue (config : ResDBConfig) (trace : List (Transition Manager BatchEvent)) (id : Nat) : Prop :=
  id < 2 * slots config ∨ id - slots config ∈ answeredIds trace
deriving Decidable

def AnswersOnce (past : List (Transition Manager BatchEvent)) (t : Transition Manager BatchEvent) : Prop :=
  ∀ id ∈ ((answeredWith t).map fun answer => answer.localId).toList, id ∈ sentIds past ∧ id ∉ answeredIds past
deriving Decidable

def numberedIn (t : Transition Manager BatchEvent) : List Nat :=
  match t.event with
  | .doBatch _ _ => [t.before.localId]
  | .processResponseMsg _ _ => []

def InTurn (config : ResDBConfig) : List (Transition Manager BatchEvent) → Prop
  | [] => True
  | t :: past => (∀ id ∈ numberedIn t, IsDue config past id) ∧ AnswersOnce past t ∧ InTurn config past

instance decidableInTurn (config : ResDBConfig) : DecidablePred (InTurn config)
  | [] => inferInstanceAs (Decidable True)
  | _ :: past =>
    haveI := decidableInTurn config past
    inferInstanceAs (Decidable (_ ∧ _ ∧ _))

theorem fetchContextList_pool (c : ContextPool) (id : Nat) : (c.fetchContextList id).2.pool = c.pool := by
  unfold ContextPool.fetchContextList
  split <;> rfl

theorem answered_pool (c : ContextPool) (id : Nat) : (answered c id).pool = c.pool.update id := by
  unfold answered ContextPool.update
  rw [fetchContextList_pool]
  split_ifs with other
  · rw [fetchContextList_pool, update_of_ne other]
  · rfl

def seqAt (pool : LockFreeCollectorPool) (s : Nat) : Nat := (pool.getCollector s).seq

theorem seqAt_update {pool : LockFreeCollectorPool} (power : ∃ exponent, pool.capacity = 2 ^ exponent) (id : Nat) :
    seqAt (pool.update id) = renewedBy pool.capacity id (seqAt pool) := by
  funext s
  unfold seqAt renewedBy
  by_cases here : (pool.getCollector id).seq = id
  · rw [getCollector_update_own power here]
    by_cases slot : s % (2 * pool.capacity) = (id + pool.capacity) % (2 * pool.capacity)
    · rw [if_pos slot, if_pos ⟨here, slot⟩]
    · rw [if_neg slot, if_neg fun both => slot both.2]
  · rw [update_of_ne here, if_neg fun both => here both.1]

structure Lapped (config : ResDBConfig) (trace : List (Transition Manager BatchEvent)) (m : Manager) : Prop where
  capacity : m.contextPool.pool.capacity = slots config
  sent : ∀ id ∈ sentIds trace, id < m.localId
  ring : LapRing (slots config) (seqAt m.contextPool.pool) {id | id ∈ answeredIds trace} m.localId

theorem slots_power (config : ResDBConfig) : ∃ exponent, slots config = 2 ^ exponent :=
  capacity_create config.maxProcessTxn false

theorem slots_pos (config : ResDBConfig) : 0 < slots config := by
  obtain ⟨exponent, power⟩ := slots_power config
  rw [power]
  exact Nat.two_pow_pos exponent

theorem lapped_initial : Lapped config [] (.create config parse serializeBatch hasVerifier) where
  capacity := rfl
  sent := by simp [sentIds]
  ring := by
    have start := LapRing.start (slots_pos config)
    have same : seqAt (Manager.create config parse serializeBatch hasVerifier).contextPool.pool =
        fun s => s % (2 * slots config) := by
      funext s
      exact mask_eq_mod (capacity_create config.maxProcessTxn false) s
    have empty : {id | id ∈ answeredIds []} = (∅ : Set Nat) := by simp [answeredIds]
    rw [same, empty]
    exact start

theorem sentIds_cons : sentIds (t :: past) = ((sentIn t).map fun batch => batch.1).toList ++ sentIds past := by
  unfold sentIds
  cases now : sentIn t with
  | none => simp [now]
  | some batch => simp [now]

theorem answeredIds_cons :
    answeredIds (t :: past) = ((answeredWith t).map fun answer => answer.localId).toList ++ answeredIds past := by
  unfold answeredIds
  cases now : answeredWith t with
  | none => simp [now]
  | some answer => simp [now]

theorem answeredWith_of_ok {signature : SignatureInfo} {request : Request} {processed : ResponseManager.Processed}
    (ran : m.manager.processResponseMsg signature request = .ok processed) :
    answeredWith ⟨m, .processResponseMsg signature request, m'⟩ = processed.sent := by
  simp only [answeredWith, ran, Except.toOption, bind_some]

theorem Batches.pool {env : Env} {batchReq : List QueueItem} {result : Manager.Batched}
    (batches : Batches m env batchReq result) :
    result.manager.contextPool.pool = m.contextPool.pool ∧ result.manager.localId = m.localId + 1 := by
  cases batches <;> exact ⟨rfl, rfl⟩

theorem Acts.capacity (acts : Acts m event m') :
    m'.contextPool.pool.capacity = m.contextPool.pool.capacity := by
  cases acts with
  | batches same batches => rw [batches.pool.1]
  | responds type ran responds =>
    cases responds with
    | counted => rfl
    | answers =>
      dsimp only
      rw [answered_pool, update_capacity]

theorem capacity_run (run : (batching config parse serializeBatch hasVerifier).Run trace m) :
    m.contextPool.pool.capacity = slots config := by
  refine run.invariant (fun _ => True) (fun m => m.contextPool.pool.capacity = slots config) ?_ ?_ fun _ _ => trivial
  · rintro m rfl
    rfl
  · intro m event m' capacity step _
    rw [(batching_acts step).capacity, capacity]

theorem Lapped.act (lapped : Lapped config past m) (acts : Acts m event m')
    (due : ∀ id ∈ numberedIn ⟨m, event, m'⟩, IsDue config past id) (once : AnswersOnce past ⟨m, event, m'⟩) :
    Lapped config (⟨m, event, m'⟩ :: past) m' := by
  have power : ∃ exponent, m.contextPool.pool.capacity = 2 ^ exponent := lapped.capacity ▸ slots_power config
  have capacity := acts.capacity.trans lapped.capacity
  cases acts with
  | @batches env batchReq result same batches =>
    obtain ⟨pool, number⟩ := batches.pool
    refine ⟨capacity, ?_, ?_⟩
    · intro id member
      rw [sentIds_cons, List.mem_append] at member
      rw [number]
      rcases member with now | earlier
      · simp only [mem_toList, map_eq_some_iff] at now
        obtain ⟨batch, sent, rfl⟩ := now
        simp only [sentIn, map_eq_some_iff] at sent
        obtain ⟨message, -, rfl⟩ := sent
        exact Nat.lt_succ_self _
      · exact Nat.lt_succ_of_lt (lapped.sent id earlier)
    · rw [pool, number, answeredIds_cons]
      exact lapped.ring.number (due m.localId (List.mem_singleton_self _))
  | @responds signature request result type ran responds =>
    have before : sentIds (⟨m, .processResponseMsg signature request, result.manager⟩ :: past) = sentIds past := by
      rw [sentIds_cons]
      rfl
    cases responds with
    | @counted processed counts quiet =>
      refine ⟨capacity, before ▸ lapped.sent, ?_⟩
      rw [answeredIds_cons, answeredWith_of_ok counts, quiet]
      exact lapped.ring
    | @answers processed batch sent counts here looped =>
      obtain ⟨used, new⟩ : batch.localId ∈ sentIds past ∧ batch.localId ∉ answeredIds past := by
        refine once batch.localId ?_
        rw [answeredWith_of_ok counts, here]
        exact List.mem_singleton_self _
      refine ⟨capacity, before ▸ lapped.sent, ?_⟩
      dsimp only
      rw [answeredIds_cons, answeredWith_of_ok counts, here, answered_pool, seqAt_update power, lapped.capacity]
      have renewed := lapped.ring.renew (slots_pos config) (lapped.sent _ used) new
      have ids : {id | id ∈ [batch.localId] ++ answeredIds past} =
          insert batch.localId {id | id ∈ answeredIds past} := by
        ext id
        simp
      exact ids ▸ renewed

theorem lapped_run (run : (batching config parse serializeBatch hasVerifier).Run trace m)
    (inTurn : InTurn config trace) : Lapped config trace m := by
  induction run with
  | initial first =>
    rw [first]
    exact lapped_initial
  | @next trace m m' event earlier step ih =>
    obtain ⟨due, once, rest⟩ := inTurn
    exact (ih rest).act (batching_acts step) due once

theorem contexts_placed (run : (batching config parse serializeBatch hasVerifier).Run trace m)
    (inTurn : InTurn config trace) (contexts : List ClientContext) :
    (m.addContextList contexts m.localId).2 = 0 ↔ IsDue config trace m.localId := by
  have next := (lapped_run run inTurn).ring.seqAt_next
  refine Iff.trans ?_ next
  unfold Manager.addContextList ContextPool.setContextList seqAt
  by_cases place : (m.contextPool.pool.getCollector m.localId).seq = m.localId
  · simp [place]
  · simp [place]

def sendAndAnswer (id : Nat) : List BatchEvent := [sendOne, answerOf 1 id, answerOf 2 id]

def InLimit (limit : Nat) (trace : List (Transition Manager BatchEvent)) : Prop :=
  ∀ past ∈ trace.tails, (outstanding past).length ≤ limit
deriving Decidable

theorem answeredInTurn_placed : ∃ trace m, (smallBatching 1).Run trace m ∧ m.localId = 9 ∧
    (m.addContextList [] m.localId).2 = 0 := by
  obtain ⟨trace, m, run, inTurn, due, next⟩ := System.run_of_play (smallAct_sound 1) rfl
    ([1, 2, 3, 4, 5, 6, 7, 8].flatMap sendAndAnswer)
    (fun trace m => InTurn (smallProxy 1) trace ∧ IsDue (smallProxy 1) trace 9 ∧ m.localId = 9)
    (by decide +kernel)
  exact ⟨trace, m, run, next, (contexts_placed run inTurn []).mpr (next ▸ due)⟩

theorem skippedBatch_blocks :
    (∃ trace m, (smallBatching 1).Run trace m ∧ SettlesOne trace ∧ InLimit 1 trace ∧ outstanding trace = [] ∧
      m.localId = 9 ∧ (m.addContextList [] m.localId).2 = -2) ∧
    ∃ trace m, (smallBatching 2).Run trace m ∧ SettlesOne trace ∧ InLimit 2 trace ∧
      outstanding trace = [(9, "9")] ∧ m.localId = 17 ∧ (m.addContextList [] m.localId).2 = -2 := by
  constructor
  · exact System.run_of_play (smallAct_sound 1) rfl
      ([1, 2, 3, 4].flatMap sendAndAnswer ++ [sendOne, rejection 1 5] ++ [6, 7, 8].flatMap sendAndAnswer)
      _ (by decide +kernel)
  · exact System.run_of_play (smallAct_sound 2) rfl
      ([1, 2, 3, 4, 5, 6, 7, 8].flatMap sendAndAnswer ++ [sendOne] ++
        [10, 11, 12, 13, 14, 15, 16].flatMap sendAndAnswer) _ (by decide +kernel)

end ResilientDB.Proof.Proxy
