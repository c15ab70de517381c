import ResilientDB.Proof.InFlight
import ResilientDB.Proof.Service

namespace ResilientDB.Proof.Proxy
open Model Model.Proxy Library List

variable {config : ResDBConfig} {parse : String → Option ResponseManager.BatchResponse}
  {serializeBatch : Common.BatchRequest → String} {hasVerifier : Bool} {m m' : Manager} {event : BatchEvent}
  {env : Env} {items : List QueueItem} {message : Request} {contexts : List ClientContext} {id : Nat}
  {t : Transition Manager BatchEvent} {earlier later : List (Transition Manager BatchEvent)}

structure Kept (config : ResDBConfig) (id : Nat) (contexts : List ClientContext) (m : Manager) : Prop where
  capacity : m.contextPool.pool.capacity = slots config
  slot : (m.contextPool.pool.getCollector id).seq = id
  contexts : m.contextPool.contextList (id &&& m.contextPool.pool.mask) = contexts
  used : id < m.localId

theorem doBatch_sent (sent : (m.doBatch env items).sent = some message) :
    (m.contextPool.pool.getCollector m.localId).seq = m.localId ∧
    m.batchMessage env (m.serializeBatch (batchOf m env items)) = some message ∧
    (m.doBatch env items).manager = { m with
      manager := m.manager.sentBatch message, contextPool := stored m items, localId := m.localId + 1 } := by
  have batches := doBatch_batches m env items
  generalize m.doBatch env items = result at sent batches
  cases batches with
  | full => cases sent
  | unsigned => cases sent
  | sent place made =>
    cases sent
    exact ⟨place, made, rfl⟩

theorem batchMessage_data {data : String} (made : m.batchMessage env data = some message) : message.data = data := by
  unfold Manager.batchMessage at made
  dsimp only at made
  split at made
  · obtain ⟨signature, -, rfl⟩ := Option.map_eq_some_iff.mp made
    rfl
  · cases made
    rfl

theorem mod_ne_of_apart {capacity k : Nat} (apart : k % capacity ≠ id % capacity) :
    id % (2 * capacity) ≠ k % (2 * capacity) ∧ id % (2 * capacity) ≠ (k + capacity) % (2 * capacity) := by
  have shorter (n : Nat) : n % (2 * capacity) % capacity = n % capacity :=
    Nat.mod_mod_of_dvd n (Nat.dvd_mul_left capacity 2)
  constructor
  · intro same
    exact apart (by rw [← shorter k, ← same, shorter])
  · intro same
    exact apart (by rw [← Nat.add_mod_right k, ← shorter (k + capacity), ← same, shorter])

theorem Kept.answered {k : Nat} {processed : ResponseManager} (kept : Kept config id contexts m)
    (apart : k % slots config ≠ id % slots config) :
    Kept config id contexts { m with manager := processed, contextPool := answered m.contextPool k } := by
  have power : ∃ exponent, m.contextPool.pool.capacity = 2 ^ exponent := kept.capacity ▸ slots_power config
  rw [← kept.capacity] at apart
  obtain ⟨own, half⟩ := mod_ne_of_apart apart
  refine ⟨?_, ?_, ?_, kept.used⟩
  · dsimp only
    rw [answered_pool, update_capacity]
    exact kept.capacity
  · dsimp only
    rw [answered_pool]
    by_cases here : (m.contextPool.pool.getCollector k).seq = k
    · rw [getCollector_update_own power here, if_neg half]
      exact kept.slot
    · rw [update_of_ne here]
      exact kept.slot
  · have mask : (Proxy.answered m.contextPool k).pool.mask = m.contextPool.pool.mask := by
      unfold LockFreeCollectorPool.mask
      rw [answered_pool, update_capacity]
    dsimp only
    rw [mask, ← kept.contexts]
    unfold Proxy.answered ContextPool.update ContextPool.fetchContextList
    by_cases here : (m.contextPool.pool.getCollector k).seq = k
    · simp only [here, ne_eq, not_true_eq_false, if_false]
      rw [Function.update_of_ne, Function.update_of_ne]
      · rw [mask_eq_mod power, mask_eq_mod power]
        exact own
      · rw [xor_capacity_eq_mod power, mask_eq_mod power]
        exact half
    · simp only [here, ne_eq, not_false_eq_true, if_true]

theorem Kept.stored (kept : Kept config id contexts m)
    (place : (m.contextPool.pool.getCollector m.localId).seq = m.localId) (processed : ResponseManager) :
    Kept config id contexts
      { m with manager := processed, contextPool := stored m items, localId := m.localId + 1 } := by
  refine ⟨kept.capacity, kept.slot, ?_, Nat.lt_succ_of_lt kept.used⟩
  rw [← kept.contexts]
  refine Function.update_of_ne (fun same => ?_) _ _
  have equal : m.contextPool.pool.getCollector id = m.contextPool.pool.getCollector m.localId := by
    unfold LockFreeCollectorPool.getCollector
    exact congrArg _ same
  have number := kept.slot
  rw [equal, place] at number
  exact kept.used.ne' number

theorem Kept.act (kept : Kept config id contexts m) (acts : Acts m event m')
    (apart : ∀ answer, answeredWith ⟨m, event, m'⟩ = some answer → answer.localId % slots config ≠ id % slots config) :
    Kept config id contexts m' := by
  cases acts with
  | batches same batches =>
    cases batches with
    | full => exact ⟨kept.capacity, kept.slot, kept.contexts, Nat.lt_succ_of_lt kept.used⟩
    | unsigned place => exact kept.stored place m.manager
    | sent place => exact kept.stored place _
  | responds type ran responds =>
    cases responds with
    | counted => exact ⟨kept.capacity, kept.slot, kept.contexts, kept.used⟩
    | @answers processed batch sent counts here =>
      exact kept.answered (apart batch ((answeredWith_of_ok counts).trans here))

theorem kept_run (run : (batching config parse serializeBatch hasVerifier).Run (later ++ t :: earlier) m)
    (batched : t.event = .doBatch env items) (sent : (t.before.doBatch env items).sent = some message)
    (apart : ∀ other ∈ answeredIds later, other % slots config ≠ t.before.localId % slots config) :
    Kept config t.before.localId (items.map fun item => item.context) m := by
  obtain ⟨before, step⟩ := run.suffix (suffix_append later (t :: earlier))
  have after : t.after = (t.before.doBatch env items).manager := by
    have acted := step.2
    rw [batched] at acted
    exact (Except.ok.inj acted).symm
  refine run.since _ (fun u => ∀ answer, answeredWith u = some answer →
    answer.localId % slots config ≠ t.before.localId % slots config) ?_ ?_ ?_
  · rw [after]
    have capacity := capacity_run before
    obtain ⟨place, -, next⟩ := doBatch_sent sent
    rw [next]
    exact ⟨capacity, place, Function.update_self _ _ _, Nat.lt_succ_self _⟩
  · intro m event m' _ kept step apart
    exact kept.act (batching_acts step) apart
  · intro u member answer answered
    refine apart answer.localId (mem_filterMap.mpr ⟨u, member, ?_⟩)
    rw [answered, Option.map_some]

def delivers : List (ClientContext × String) → Except ProxyFault (List (Nat × String))
  | [] => .ok []
  | (context, answer) :: rest =>
    match context.client with
    | none => delivers rest
    | some channel => do
      let sent ← channel.send answer
      let more ← delivers rest
      .ok (sent :: more)

theorem sendResponses_delivers (before answers : List String) (same : contexts.length = answers.length) :
    Manager.sendResponses (before ++ answers) contexts before.length = delivers (contexts.zip answers) := by
  induction contexts generalizing before answers with
  | nil => rfl
  | cons context rest ih =>
    obtain _ | ⟨answer, answers⟩ := answers
    · cases same
    have tail := ih (before ++ [answer]) answers (Nat.succ.inj same)
    rw [append_assoc, singleton_append, length_append] at tail
    have here : (before ++ answer :: answers)[before.length]? = some answer := by simp
    rw [zip_cons_cons, delivers, Manager.sendResponses]
    cases context.client with
    | none => exact tail
    | some channel =>
      dsimp only
      rw [here]
      dsimp only
      rw [← tail]
      rfl

theorem Kept.processResponseMsg {signature : SignatureInfo} {response : Request} {batch : ResponseManager.BatchResponse}
    {processed : ResponseManager.Processed} (kept : Kept config id contexts m) (same : batch.localId = id)
    (matched : contexts.length = batch.response.length)
    (ran : m.manager.processResponseMsg signature response = .ok processed) (sent : processed.sent = some batch) :
    (m.processResponseMsg signature response).map (fun answered => answered.sent) =
      delivers (contexts.zip batch.response) := by
  have fetched : (m.contextPool.fetchContextList batch.localId).1 = contexts := by
    unfold ContextPool.fetchContextList
    rw [same, if_neg (not_not.mpr kept.slot)]
    exact kept.contexts
  have loop := sendResponses_delivers [] batch.response matched
  rw [nil_append, length_nil] at loop
  unfold Manager.processResponseMsg
  rw [ran]
  simp only [ofCollector, bind, Except.bind, sent]
  unfold Manager.sendResponseToClient Manager.fetchContextList
  dsimp only
  rw [fetched, loop]
  cases delivers (contexts.zip batch.response) <;> rfl

theorem answers_line_up {σ : Type} {manager : TransactionManager σ} {parseBatch : String → Option Common.BatchRequest}
    {first : σ} {s : Service σ} {steps : List (Transition (Service σ) (ExecutorEvent × Int))}
    {request : Request} {executed pushed : ExecutedBatch} {primary : Int} {serializeResponse : ExecutedBatch → String}
    (service : (serving (some manager) parseBatch first).Run steps s) (inOrder : manager.isOutOfOrder = false)
    (member : (request, executed) ∈ s.executed) (pushes : s.postExecute primary request executed = some pushed)
    (run : (batching config parse serializeBatch hasVerifier).Run (later ++ t :: earlier) m)
    (batched : t.event = .doBatch env items) (sent : (t.before.doBatch env items).sent = some message)
    (carried : request.data = message.data)
    (read : parseBatch (t.before.serializeBatch (batchOf t.before env items)) = some (batchOf t.before env items))
    (readBack : parse (serializeResponse pushed) = some pushed.toBatchResponse)
    (apart : ∀ other ∈ answeredIds later, other % slots config ≠ t.before.localId % slots config) :
    pushed.response.length = items.length ∧
    (∃ left, AnswersTo manager parseBatch first s.threads.batches request executed left ∧
      ∀ i item, items[i]? = some item → pushed.response[i]? = some ((manager.executeData
        (manager.executeBatch ((Manager.userRequests items).take i) left).2 item.userRequest.data).1.getD "")) ∧
    ∀ signature replica processed,
      m.manager.processResponseMsg signature (responseMessage serializeResponse replica pushed) = .ok processed →
      processed.sent ≠ none →
      (m.processResponseMsg signature (responseMessage serializeResponse replica pushed)).map
        (fun answered => answered.sent) = delivers ((items.map fun item => item.context).zip pushed.response) := by
  obtain ⟨-, made, -⟩ := doBatch_sent sent
  have batch : (parseBatch request.data).getD {} = batchOf t.before env items := by
    rw [carried, batchMessage_data made, read, Option.getD_some]
  obtain ⟨left, answers⟩ := (served_run service).executed inOrder _ member
  have same : pushed.toBatchResponse = executed.toBatchResponse := by
    unfold Service.postExecute at pushes
    split at pushes
    · cases pushes
    split at pushes
    · cases pushes
      rfl
    · cases pushes
  have response : pushed.response = (manager.executeBatch (Manager.userRequests items) left).1 := by
    rw [same, answers.response, batch]
    rfl
  have length : pushed.response.length = items.length := by
    rw [response, executeBatch_length]
    simp [Manager.userRequests]
  refine ⟨length, ⟨left, answers, fun i item here => ?_⟩, fun signature replica processed ran answered => ?_⟩
  · have sub : (Manager.userRequests items)[i]? = some ⟨item.userRequest, some item.context.signature, i⟩ := by
      simp [Manager.userRequests, here]
    rw [response]
    exact executeBatch_answer manager left sub
  · have id : pushed.localId = t.before.localId := by
      rw [same, answers.localId, batch]
      rfl
    have sends : processed.sent = some pushed.toBatchResponse := by
      obtain ⟨trace, answering⟩ := batching_answering run
      have parses := (collectors_marked answering).2.1
      rcases processResponseMsg_cases rfl ran with ⟨-, none⟩ | ⟨batch, result, -, counted, none | ⟨some, -⟩⟩
      · exact absurd none answered
      · exact absurd none answered
      · have parsed := counted.parsed
        rw [parses] at parsed
        rw [some, ← parsed]
        exact readBack
    exact (kept_run run batched sent apart).processResponseMsg id (by simp [length]) ran sends

def twoItems : List QueueItem := [⟨⟨some ⟨some 7⟩, {}⟩, { data := "x" }⟩, ⟨⟨some ⟨some 8⟩, {}⟩, { data := "y" }⟩]

def knowsX (isOutOfOrder : Bool) : TransactionManager Nat where
  isOutOfOrder := isOutOfOrder
  executeData count data := if data = "x" then (some "done", count + 1) else (none, count)

def parseTwo (data : String) : Option Common.BatchRequest :=
  if data = "1" then some { userRequests := Manager.userRequests twoItems, localId := 1 } else none

def batchOne : Request := { seq := 1, data := "1", hash := "1", proxyId := 5 }

def executedOne (response : List String) : ExecutedBatch :=
  { response := response, localId := 1, hash := "1", proxyId := 5 }

def pushedOne (response : List String) : ExecutedBatch := { executedOne response with seq := 1, primaryId := 1 }

def parseAnswer (response : List String) (data : String) : Option ResponseManager.BatchResponse :=
  if data = "answer" then some { response := response, localId := 1 } else none

def firstProxy (response : List String) : Manager := .create fourReplicas (parseAnswer response) serializeId true

def answerText (_ : ExecutedBatch) : String := "answer"

def responseOne (response : List String) (replica : Int) : Request :=
  responseMessage answerText replica (pushedOne response)

def executeOne : List (ExecutorEvent × Int) := [(.commit batchOne, 1), (.orderMessage, 1), (.executeMessage, 1)]

def sentTwo (response : List String) : Manager := ((firstProxy response).doBatch plainEnv twoItems).manager

def answeringProxy (response : List String) : System Manager BatchEvent :=
  batching fourReplicas (parseAnswer response) serializeId true

def sendTwo (response : List String) : Transition Manager BatchEvent :=
  ⟨firstProxy response, .doBatch plainEnv twoItems, sentTwo response⟩

def firstAnswer (response : List String) : BatchEvent := .processResponseMsg ⟨1, "signature"⟩ (responseOne response 1)

theorem answeredOnce_run (response : List String) (goal : Manager → Prop)
    (checked : ∃ m ∈ smallAct (sentTwo response) (firstAnswer response),
      answeredIds [⟨sentTwo response, firstAnswer response, m⟩] = [] ∧ goal m) :
    ∃ u m, (answeringProxy response).Run [u, sendTwo response] m ∧ answeredIds [u] = [] ∧ goal m := by
  obtain ⟨m, acted, good⟩ := checked
  have first : (answeringProxy response).step (firstProxy response) (.doBatch plainEnv twoItems) (sentTwo response) :=
    ⟨rfl, rfl⟩
  have second : (answeringProxy response).step (sentTwo response) (firstAnswer response) m :=
    smallAct_sound 1 _ _ _ acted
  exact ⟨_, m, .next (.next (.initial rfl) first) second, good⟩

theorem twoAnswers_delivered : ∃ u m, (answeringProxy ["done", ""]).Run [u, sendTwo ["done", ""]] m ∧
    (m.processResponseMsg ⟨2, "signature"⟩ (responseOne ["done", ""] 2)).map (fun answered => answered.sent) =
      .ok [(7, "done"), (8, "")] := by
  obtain ⟨steps, s, service, member, pushes⟩ := System.run_of_play
    ((serving (some (knowsX false)) parseTwo 0).acts rfl) rfl executeOne
    (fun _ s => (batchOne, executedOne ["done", ""]) ∈ s.executed ∧
      s.postExecute 1 batchOne (executedOne ["done", ""]) = some (pushedOne ["done", ""])) (by decide +kernel)
  obtain ⟨u, m, run, quiet, processed, ran, changed⟩ := answeredOnce_run ["done", ""]
    (fun m => ∃ processed, m.manager.processResponseMsg ⟨2, "signature"⟩ (responseOne ["done", ""] 2) = .ok processed ∧
      processed.sent ≠ none) (by decide +kernel)
  obtain ⟨message, sent, carried⟩ : ∃ message ∈ ((firstProxy ["done", ""]).doBatch plainEnv twoItems).sent,
      batchOne.data = message.data := by decide +kernel
  have readBack : parseAnswer ["done", ""] (answerText (pushedOne ["done", ""])) =
      some (pushedOne ["done", ""]).toBatchResponse := by decide
  have both : (answeringProxy ["done", ""]).Run ([u] ++ sendTwo ["done", ""] :: []) m := run
  obtain ⟨-, -, delivered⟩ := answers_line_up service rfl member pushes both rfl sent carried (by decide +kernel)
    readBack (by simp [quiet])
  refine ⟨u, m, run, ?_⟩
  exact delivered ⟨2, "signature"⟩ 2 processed ran changed

theorem unmatched_answers :
    (∃ steps s, (serving (some (knowsX true)) parseTwo 0).Run steps s ∧ (batchOne, executedOne []) ∈ s.executed ∧
      s.postExecute 1 batchOne (executedOne []) = some (pushedOne [])) ∧
    (∃ u m, (answeringProxy []).Run [u, sendTwo []] m ∧
      (m.processResponseMsg ⟨2, "signature"⟩ (responseOne [] 2)).map (fun answered => answered.sent) =
        .error .responseOutOfRange) ∧
    ∃ trace m, (smallBatching 1).Run trace m ∧ outstanding trace = [(5, "5")] ∧
      (m.processResponseMsg ⟨2, "signature"⟩ (answerTo 2 5)).map (fun answered => answered.sent) = .ok [] := by
  refine ⟨?_, ?_, ?_⟩
  · exact System.run_of_play (System.acts _ rfl) rfl executeOne _ (by decide +kernel)
  · obtain ⟨u, m, run, -, answers⟩ := answeredOnce_run [] (fun m =>
      (m.processResponseMsg ⟨2, "signature"⟩ (responseOne [] 2)).map (fun answered => answered.sent) =
        .error .responseOutOfRange) (by decide +kernel)
    exact ⟨u, m, run, answers⟩
  · exact System.run_of_play (smallAct_sound 1) rfl
      ([sendOne] ++ [2, 3, 4].flatMap sendAndAnswer ++ [sendOne, answerOf 1 1, answerOf 2 1, answerOf 1 5]) _
      (by decide +kernel)

section Errors
variable {p : ProposeThread} {round : ProposeThread.Round} {batch : List QueueItem} {batched : Manager.Batched}

def owed (batch : List QueueItem) : List NetChannel := batch.filterMap fun item => item.context.client

def replied (round : ProposeThread.Round) : List NetChannel := round.errors.map fun sent => ⟨some sent.1⟩

theorem owed_eq_nil : owed batch = [] ↔ ∀ item ∈ batch, item.context.client = none := by
  unfold owed
  rw [filterMap_eq_nil_iff]

theorem errors_replied (ran : p.batchProposeMsg env = .ok round) (called : round.called = some (batch, batched))
    (failed : batched.ret ≠ 0) :
    (round.thread.batchReq = [] ∧ batched = p.manager.doBatch env batch) ∧
    (replied round = owed batch ↔ ∀ item ∈ batch, item.context.client = none) := by
  rw [← owed_eq_nil]
  cases batchProposeMsg_rounds ran with
  | waits => cases called
  | proposes =>
    cases called
    exact ⟨⟨rfl, rfl⟩, eq_comm⟩

def singles : System ProposeThread ProposeEvent := proposing (smallProxy 1) parseId serializeId true 1

def singleAct (p : ProposeThread) (event : ProposeEvent) : Option ProposeThread :=
  if event.isPassed then (p.act event).toOption else none

theorem singleAct_sound (p : ProposeThread) (event : ProposeEvent) (p' : ProposeThread)
    (acted : singleAct p event = some p') : singles.step p event p' := eq_ok_of_guarded acted

def unsignedEnv : Env := { plainEnv with signMessage := fun _ => none }

def userRequest (needResponse : Bool) : ProposeEvent := .newUserRequest ⟨some ⟨some 7⟩, {}⟩ needResponse { data := "x" }

def FailsWith (env : Env) (p : ProposeThread) (good : List QueueItem → ProposeThread.Round → Prop) : Prop :=
  ∃ round, p.batchProposeMsg env = .ok round ∧ ∃ call ∈ round.called, call.2.ret ≠ 0 ∧ good call.1 round

instance (env : Env) (p : ProposeThread) (good : List QueueItem → ProposeThread.Round → Prop)
    [∀ batch, DecidablePred (good batch)] : Decidable (FailsWith env p good) :=
  inferInstanceAs (Decidable (∃ _, _ ∧ _))

theorem noChannel_replied : ∃ trace p round batch batched, singles.Run trace p ∧
    p.batchProposeMsg unsignedEnv = .ok round ∧ round.called = some (batch, batched) ∧ batched.ret ≠ 0 ∧
    batch.length = 1 ∧ replied round = owed batch := by
  obtain ⟨trace, p, run, round, ran, ⟨batch, batched⟩, called, failed, one, none⟩ := System.run_of_play
    singleAct_sound rfl [userRequest false]
    (fun _ p => FailsWith unsignedEnv p fun batch _ => batch.length = 1 ∧ owed batch = []) (by decide +kernel)
  exact ⟨trace, p, round, batch, batched, run, ran, called, failed, one,
    (errors_replied ran called failed).2.mpr (owed_eq_nil.mp none)⟩

def singleSteps (id : Nat) : List ProposeEvent :=
  [userRequest true, .batchProposeMsg plainEnv, .processResponseMsg ⟨1, "signature"⟩ (answerTo 1 id),
    .processResponseMsg ⟨2, "signature"⟩ (answerTo 2 id)]

theorem failedBatch_unanswered :
    (∃ trace p round batch batched, singles.Run trace p ∧ p.batchProposeMsg unsignedEnv = .ok round ∧
      round.called = some (batch, batched) ∧ batched.ret ≠ 0 ∧ owed batch = [⟨some 7⟩] ∧ replied round = []) ∧
    ∃ trace p round batch batched, singles.Run trace p ∧ p.batchProposeMsg plainEnv = .ok round ∧
      round.called = some (batch, batched) ∧ batched.ret ≠ 0 ∧ owed batch = [⟨some 7⟩] ∧ replied round = [] := by
  constructor
  · obtain ⟨trace, p, run, round, ran, call, called⟩ := System.run_of_play singleAct_sound rfl [userRequest true]
      (fun _ p => FailsWith unsignedEnv p fun batch round => owed batch = [⟨some 7⟩] ∧ replied round = [])
      (by decide +kernel)
    exact ⟨trace, p, round, call.1, call.2, run, ran, called⟩
  · obtain ⟨trace, p, run, round, ran, call, called⟩ := System.run_of_play singleAct_sound rfl
      ([1, 2, 3, 4].flatMap singleSteps ++ (singleSteps 5).take 2 ++
        [.processResponseMsg ⟨1, "signature"⟩ { answerTo 1 5 with ret := -2 }] ++ [6, 7, 8].flatMap singleSteps ++
        [userRequest true])
      (fun _ p => FailsWith plainEnv p fun batch round => owed batch = [⟨some 7⟩] ∧ replied round = [])
      (by decide +kernel)
    exact ⟨trace, p, round, call.1, call.2, run, ran, called⟩

end Errors

end ResilientDB.Proof.Proxy
