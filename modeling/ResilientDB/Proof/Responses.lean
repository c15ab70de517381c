import ResilientDB.Library.Quorum
import ResilientDB.Model.ResponseManager
import ResilientDB.Proof.CollectorRun
import ResilientDB.Proof.Ring

namespace ResilientDB.Proof
open Model Library ResponseManager List

variable {config : ResDBConfig} {parse : String → Option BatchResponse} {m m' : ResponseManager}
  {pool : LockFreeCollectorPool} {c : TransactionCollector} {request : Request} {signature : SignatureInfo}
  {batch : BatchResponse} {trace : List (Transition ResponseManager Event)} {t : Transition ResponseManager Event}
  {result : AddResult} {trace' : List (Transition ResponseManager Event)}

structure Tallied (config : ResDBConfig) (c : TransactionCollector) (request : Request) (result : AddResult) :
    Prop where
  isOpen : Open c request
  seq : result.collector.seq = c.seq
  senders : result.collector.senders = (c.setSender request.type request.hash request.senderId).senders
  enough : result.changed = true →
    config.getMinClientReceiveNum ≤ (result.collector.senders request.type request.hash).card

theorem commit_frame (c : TransactionCollector) : c.commit.1.seq = c.seq ∧ c.commit.1.senders = c.senders := by
  unfold TransactionCollector.commit
  split
  · exact ⟨rfl, rfl⟩
  · cases c.mainRequest <;> exact ⟨rfl, rfl⟩

theorem enough_of_changed {type : RequestType} {count : Nat} {status : TransactionStatue} {force : Bool}
    (changed : (ResponseManager.mayConsensusChangeStatus config type count status force).1 = true) :
    config.getMinClientReceiveNum ≤ count := by
  unfold ResponseManager.mayConsensusChangeStatus at changed
  split at changed
  · split at changed
    · rename_i reached
      exact reached.2
    · cases changed
  · cases changed

theorem addVote_tallied (isOpen : Open c request)
    (ran : c.addVote request (ResponseManager.mayConsensusChangeStatus config request.type) = .ok result) :
    Tallied config c request result := by
  obtain ⟨counted, changed, status, vote, judged, cases⟩ := addVote_cases ran
  obtain ⟨rfl, -⟩ := countVote_ok vote
  rw [addCert_eq] at judged cases
  rcases cases with rfl | rfl
  · refine ⟨isOpen, (commit_frame _).1, (commit_frame _).2, fun isChanged => ?_⟩
    rw [(commit_frame _).2]
    exact enough_of_changed (by rw [judged]; exact isChanged)
  · exact ⟨isOpen, rfl, rfl, fun isChanged => enough_of_changed (by rw [judged]; exact isChanged)⟩

theorem addRequest_tallied (type : request.type = .response)
    (ran : c.addRequest 0 request signature false (ResponseManager.mayConsensusChangeStatus config request.type) =
      .ok result) :
    (result.ret ≠ 0 ∧ result.collector = c) ∨ Tallied config c request result := by
  by_cases isOpen : Open c request
  · rw [addRequest_open isOpen, if_neg Bool.false_ne_true, if_neg (by simp [type])] at ran
    exact .inr (addVote_tallied isOpen ran)
  · rw [addRequest_closed isOpen] at ran
    cases ran
    exact .inl ⟨by simp, rfl⟩

structure SameCollectors (m m' : ResponseManager) : Prop where
  config : m'.config = m.config
  parse : m'.parse = m.parse
  collectorPool : m'.collectorPool = m.collectorPool

theorem removeWaiting_same (m : ResponseManager) (hash : String) :
    SameCollectors m (m.removeWaitingResponseRequest hash) := by
  unfold ResponseManager.removeWaitingResponseRequest
  split <;> exact ⟨rfl, rfl, rfl⟩

theorem sentBatch_same (m : ResponseManager) (request : Request) : SameCollectors m (m.sentBatch request) := by
  unfold ResponseManager.sentBatch ResponseManager.addWaitingResponseRequest
  split
  · exact ⟨rfl, rfl, rfl⟩
  · split <;> exact ⟨rfl, rfl, rfl⟩

theorem collector_update (pool : LockFreeCollectorPool) (seq slot : Nat) :
    (pool.update seq).collector slot = pool.collector slot ∨
      ∀ type hash, ((pool.update seq).collector slot).senders type hash = ∅ := by
  unfold LockFreeCollectorPool.update
  dsimp only
  split
  · exact .inl rfl
  · by_cases renewed : slot = (seq &&& pool.mask) ^^^ pool.capacity
    · right
      intro type hash
      subst renewed
      dsimp only
      rw [Function.update_self]
    · exact .inl (Function.update_of_ne renewed _ _)

structure CountedResponse (m : ResponseManager) (request : Request) (m' : ResponseManager) (batch : BatchResponse)
    (result : AddResult) : Prop where
  config : m'.config = m.config
  parse : m'.parse = m.parse
  parsed : m.parse request.data = some batch
  tallied : Tallied m.config (m.collectorPool.getCollector batch.localId) { request with seq := batch.localId } result
  collectorPool : m'.collectorPool = m.collectorPool.setCollector batch.localId result.collector ∨
    m'.collectorPool = (m.collectorPool.setCollector batch.localId result.collector).update batch.localId

theorem addResponseMsg_cases {added : ResponseAdded} (type : request.type = .response)
    (ran : m.addResponseMsg signature request = .ok added) :
    (SameCollectors m added.manager ∧ added.response = none) ∨
    ∃ batch result, CountedResponse m request added.manager batch result ∧ (added.response = none ∨
        added.response = some { request with seq := batch.localId } ∧ result.changed = true) := by
  unfold ResponseManager.addResponseMsg at ran
  split at ran
  · cases ran
    exact .inl ⟨removeWaiting_same m request.hash, rfl⟩
  rename_i batch parsed
  obtain ⟨result, adds, ran⟩ := bind_eq_ok.mp ran
  have numbered : ({ request with seq := batch.localId } : Request).type = .response := type
  rcases addRequest_tallied numbered adds with ⟨refused, same⟩ | tallied
  · rw [if_pos refused] at ran
    cases ran
    refine .inl ⟨⟨rfl, rfl, ?_⟩, rfl⟩
    dsimp only
    rw [same, setCollector_getCollector]
  · right
    refine ⟨batch, result, ?_⟩
    split at ran
    · cases ran
      exact ⟨⟨rfl, rfl, parsed, tallied, .inl rfl⟩, .inl rfl⟩
    split at ran
    · rename_i changed
      cases ran
      have same := removeWaiting_same { m with
        collectorPool := (m.collectorPool.setCollector batch.localId result.collector).update batch.localId }
        request.hash
      exact ⟨⟨same.config, same.parse, parsed, tallied, .inr same.collectorPool⟩, .inr ⟨rfl, changed⟩⟩
    · cases ran
      exact ⟨⟨rfl, rfl, parsed, tallied, .inl rfl⟩, .inl rfl⟩

theorem processResponseMsg_cases {processed : Processed} (type : request.type = .response)
    (ran : m.processResponseMsg signature request = .ok processed) :
    (SameCollectors m processed.manager ∧ processed.sent = none) ∨
    ∃ batch result, request.ret ≠ -2 ∧ CountedResponse m request processed.manager batch result ∧
      (processed.sent = none ∨ processed.sent = some batch ∧ result.changed = true) := by
  unfold ResponseManager.processResponseMsg at ran
  split at ran
  · cases ran
    exact .inl ⟨⟨rfl, rfl, rfl⟩, rfl⟩
  rename_i answered
  obtain ⟨added, adds, ran⟩ := bind_eq_ok.mp ran
  rcases addResponseMsg_cases type adds with ⟨same, none⟩ | ⟨batch, result, counted, none | ⟨some, changed⟩⟩
  · rw [none] at ran
    cases ran
    exact .inl ⟨same, rfl⟩
  · rw [none] at ran
    cases ran
    exact .inr ⟨batch, result, answered, counted, .inl rfl⟩
  · right
    rw [some, Option.bind_some, counted.parsed] at ran
    refine ⟨batch, result, answered, ?_⟩
    dsimp only at ran
    split at ran
    · cases ran
      exact ⟨⟨counted.config, counted.parse, counted.parsed, counted.tallied, counted.collectorPool⟩,
        .inr ⟨rfl, changed⟩⟩
    · cases ran
      exact ⟨counted, .inl rfl⟩

def AnswersWith (parse : String → Option BatchResponse) (trace : List (Transition ResponseManager Event))
    (hash : String) (localId : Nat) (sender : Int) (batch : BatchResponse) : Prop :=
  ∃ t ∈ trace, ∃ signature request sent, t.event = .received signature request sent ∧ request.ret ≠ -2 ∧
    request.hash = hash ∧ request.senderId = sender ∧ parse request.data = some batch ∧ batch.localId = localId

theorem AnswersWith.mono {hash : String} {localId : Nat}
    {sender : Int} (answers : AnswersWith parse trace hash localId sender batch) (sub : trace ⊆ trace') :
    AnswersWith parse trace' hash localId sender batch := by
  obtain ⟨t, member, rest⟩ := answers
  exact ⟨t, sub member, rest⟩

def Marked (parse : String → Option BatchResponse) (trace : List (Transition ResponseManager Event))
    (c : TransactionCollector) : Prop :=
  ∀ hash, ∀ sender ∈ c.senders .response hash, ∃ batch, AnswersWith parse trace hash c.seq sender batch

theorem Marked.mono (marked : Marked parse trace c) (sub : trace ⊆ trace') : Marked parse trace' c := by
  intro hash sender member
  obtain ⟨batch, answers⟩ := marked hash sender member
  exact ⟨batch, answers.mono sub⟩

theorem marked_of_empty (empty : ∀ type hash, c.senders type hash = ∅) : Marked parse trace c := by
  intro hash sender member
  rw [empty] at member
  cases member

theorem Tallied.marked (tallied : Tallied config c { request with seq := batch.localId } result)
    (marked : Marked parse trace c)
    (answers : AnswersWith parse trace request.hash batch.localId request.senderId batch) :
    Marked parse trace result.collector := by
  intro hash sender member
  rw [tallied.senders] at member
  rw [tallied.seq]
  rcases mem_setSender.mp member with old | ⟨-, rfl, rfl⟩
  · exact marked hash sender old
  · rw [tallied.isOpen.2.2]
    exact ⟨batch, answers⟩

theorem marked_setCollector (marked : ∀ slot, Marked parse trace (pool.collector slot))
    (new : Marked parse trace c) (seq slot : Nat) : Marked parse trace ((pool.setCollector seq c).collector slot) := by
  unfold LockFreeCollectorPool.setCollector
  dsimp only
  by_cases here : slot = seq &&& pool.mask
  · subst here
    rwa [Function.update_self]
  · rw [Function.update_of_ne here]
    exact marked slot

theorem CountedResponse.marked (counted : CountedResponse m request m' batch result)
    (marked : ∀ slot, Marked parse trace (m.collectorPool.collector slot))
    (answers : AnswersWith parse trace request.hash batch.localId request.senderId batch) (slot : Nat) :
    Marked parse trace (m'.collectorPool.collector slot) := by
  have set := marked_setCollector marked (counted.tallied.marked (marked _) answers) batch.localId
  rcases counted.collectorPool with pool | pool
  · rw [pool]
    exact set slot
  · rw [pool]
    rcases collector_update _ batch.localId slot with same | empty
    · rw [same]
      exact set slot
    · exact marked_of_empty empty

theorem collectors_marked (run : (answering config parse).Run trace m) :
    m.config = config ∧ m.parse = parse ∧ ∀ slot, Marked parse trace (m.collectorPool.collector slot) := by
  induction run with
  | initial first =>
    cases first
    exact ⟨rfl, rfl, fun slot => marked_of_empty fun _ _ => rfl⟩
  | @next trace m m' event earlier step ih =>
    obtain ⟨sameConfig, sameParse, marked⟩ := ih
    have sub := subset_cons_self ⟨m, event, m'⟩ trace
    cases event with
    | sentBatch request =>
      cases step
      have same := sentBatch_same m request
      refine ⟨same.config.trans sameConfig, same.parse.trans sameParse, fun slot => ?_⟩
      rw [same.collectorPool]
      exact (marked slot).mono sub
    | received signature request sent =>
      obtain ⟨type, ret, ran⟩ := step
      rcases processResponseMsg_cases type ran with ⟨same, -⟩ | ⟨batch, result, answered, counted, -⟩
      · refine ⟨same.config.trans sameConfig, same.parse.trans sameParse, fun slot => ?_⟩
        rw [same.collectorPool]
        exact (marked slot).mono sub
      · refine ⟨counted.config.trans sameConfig, counted.parse.trans sameParse, ?_⟩
        have parsed := counted.parsed
        rw [sameParse] at parsed
        exact counted.marked (fun slot => (marked slot).mono sub)
          ⟨_, mem_cons_self, signature, request, sent, rfl, answered, rfl, rfl, parsed, rfl⟩

/-- An honest replica has sent what the client gets. -/
theorem answer_backed (run : (answering config parse).Run trace m) (member : t ∈ trace)
    (sends : t.event = .received signature request (some batch))
    (agree : ∀ hash localId sender sender' first second, AnswersWith parse trace hash localId sender first →
      AnswersWith parse trace hash localId sender' second → first.response = second.response) :
    ∃ backers : Finset Int, config.getMinClientReceiveNum ≤ backers.card ∧
      (∀ sender ∈ backers, ∃ hash answer, AnswersWith parse trace hash batch.localId sender answer ∧
        answer.response = batch.response) ∧
      ∀ faulty : Finset Int, faulty.card ≤ config.getMaxMaliciousReplicaNum → ∃ sender ∈ backers, sender ∉ faulty := by
  obtain ⟨past, sub, earlier, step⟩ := run.earlier member
  obtain ⟨sameConfig, sameParse, marked⟩ := collectors_marked earlier
  rw [sends] at step
  obtain ⟨type, ret, ran⟩ := step
  rcases processResponseMsg_cases type ran with ⟨-, none⟩ | ⟨counted, result, answered, taken, none | ⟨some, changed⟩⟩
  · cases none
  · cases none
  cases some
  have parsed := taken.parsed
  rw [sameParse] at parsed
  have own : AnswersWith parse trace request.hash batch.localId request.senderId batch :=
    ⟨t, member, signature, request, _, sends, answered, rfl, rfl, parsed, rfl⟩
  have marks : Marked parse trace result.collector := taken.tallied.marked ((marked _).mono sub) own
  have enough := taken.tallied.enough changed
  rw [sameConfig] at enough
  have large : config.getMaxMaliciousReplicaNum < config.getMinClientReceiveNum := by
    simp [ResDBConfig.getMaxMaliciousReplicaNum, ResDBConfig.getMinClientReceiveNum]
  refine ⟨_, enough, fun sender backs => ?_, fun faulty few => Finset.exists_mem_notMem_of_card_lt_card (by omega)⟩
  rw [show ({ request with seq := batch.localId } : Request).type = .response from type] at backs
  obtain ⟨answer, answers⟩ := marks _ sender backs
  rw [taken.tallied.seq, taken.tallied.isOpen.2.2] at answers
  exact ⟨request.hash, answer, answers, agree _ _ _ _ _ _ answers own⟩

theorem answeringAct_sound (config : ResDBConfig) (parse : String → Option BatchResponse) (m : ResponseManager)
    (event : Event) (m' : ResponseManager) (moved : m.answeringAct event = some m') :
    (answering config parse).step m event m' := by
  cases event with
  | sentBatch request =>
    cases moved
    rfl
  | received signature request sent =>
    simp only [ResponseManager.answeringAct] at moved
    split at moved
    · rename_i type
      refine ⟨type, ?_⟩
      cases ran : m.processResponseMsg signature request with
      | error fault => simp [ran] at moved
      | ok processed =>
        obtain ⟨manager, ret, called⟩ := processed
        simp only [ran, Option.ite_none_right_eq_some, Option.some.injEq] at moved
        obtain ⟨rfl, rfl⟩ := moved
        exact ⟨ret, rfl⟩
    · cases moved

def parseOne (data : String) : Option BatchResponse := some { response := [data], localId := 1 }

def answer (sender : Int) (data : String) : Request :=
  { type := .response, hash := "h", senderId := sender, data := data }

def honestAnswers : List Event :=
  [.received {} (answer 1 "paid") none, .received {} (answer 2 "paid") (parseOne "paid")]

theorem honestAnswers_backed : ∃ trace m, (answering fourReplicas parseOne).Run trace m ∧
    ∃ backers : Finset Int, 2 ≤ backers.card ∧
      (∀ sender ∈ backers, ∃ hash reply, AnswersWith parseOne trace hash 1 sender reply ∧ reply.response = ["paid"]) ∧
      ∀ faulty : Finset Int, faulty.card ≤ 1 → ∃ sender ∈ backers, sender ∉ faulty := by
  obtain ⟨trace, m, run, ⟨t, member, sends⟩, listed⟩ := System.run_of_events
    (answeringAct_sound fourReplicas parseOne) rfl honestAnswers
    (fun trace _ => ∃ t ∈ trace, t.event = .received {} (answer 2 "paid") (parseOne "paid")) (by decide +kernel)
  have same : ∀ hash localId sender batch, AnswersWith parseOne trace hash localId sender batch →
      batch.response = ["paid"] := by
    rintro hash localId sender batch ⟨t, member, signature, request, sent, event, -, -, -, parsed, -⟩
    have inside := listed t member
    rw [event] at inside
    simp only [honestAnswers, mem_cons, not_mem_nil, or_false, Event.received.injEq] at inside
    rcases inside with ⟨-, rfl, -⟩ | ⟨-, rfl, -⟩
    all_goals
      cases parsed
      rfl
  refine ⟨trace, m, run, answer_backed run member sends fun _ _ _ _ _ _ answers answers' => ?_⟩
  rw [same _ _ _ _ answers, same _ _ _ _ answers']

def forgedAnswers : List Event :=
  [.received {} (answer 1 "paid") none, .received {} (answer 2 "forged") (parseOne "forged")]

theorem forgedAnswers_sent : ∃ trace m, (answering fourReplicas parseOne).Run trace m ∧
    (∃ t ∈ trace, ∃ signature request, t.event =
      .received signature request (some { response := ["forged"], localId := 1 })) ∧
    fourReplicas.getMinClientReceiveNum = 2 ∧
    ∀ hash sender reply, AnswersWith parseOne trace hash 1 sender reply → reply.response = ["forged"] → sender = 2 := by
  obtain ⟨trace, m, run, ⟨t, member, sends⟩, listed⟩ := System.run_of_events
    (answeringAct_sound fourReplicas parseOne) rfl forgedAnswers
    (fun trace _ => ∃ t ∈ trace, t.event = .received {} (answer 2 "forged") (parseOne "forged")) (by decide +kernel)
  refine ⟨trace, m, run, ⟨t, member, {}, answer 2 "forged", sends⟩, rfl, ?_⟩
  rintro hash sender reply ⟨t, member, signature, request, sent, event, -, -, rfl, parsed, -⟩ forged
  have inside := listed t member
  rw [event] at inside
  simp only [forgedAnswers, mem_cons, not_mem_nil, or_false, Event.received.injEq] at inside
  rcases inside with ⟨-, rfl, -⟩ | ⟨-, rfl, -⟩
  · cases parsed
    simp [answer] at forged
  · rfl

end ResilientDB.Proof
