import ResilientDB.Model.Node
import ResilientDB.Proof.ClientAnswers

namespace ResilientDB.Proof.Proxy
open Model Model.Proxy Library List

variable {config : ResDBConfig} {parse : String → Option ResponseManager.BatchResponse}
  {serializeBatch : Common.BatchRequest → String} {n n' : Node} {thread : ProposeThread} {m : Manager}
  {contexts : List ClientContext} {client : ClientEnv} {socket : Option Nat} {receipt : Receipt}
  {event : Proxy.NodeEvent} {trace : List (Transition Node Proxy.NodeEvent)} {context : ClientContext} {env : Env}
  {c : ContextPool} {id : Nat} {signature : SignatureInfo} {request : Request} {buff : String}

def Socketed (context : ClientContext) : Prop := ∀ channel, context.client = some channel → channel.socket ≠ none

structure Linked (thread : ProposeThread) : Prop where
  items : ∀ item ∈ thread.batchReq ++ thread.batchQueue, Socketed item.context
  stored : ∀ slot, ∀ context ∈ thread.manager.contextPool.contextList slot, Socketed context

theorem Linked.newUserRequest {needResponse : Bool} (linked : Linked thread)
    (fits : needResponse = true → Socketed context) (request : Request) :
    Linked (thread.newUserRequest context needResponse request) := by
  refine ⟨fun item member => ?_, linked.stored⟩
  unfold ProposeThread.newUserRequest at member
  rw [← append_assoc] at member
  rcases mem_append.mp member with earlier | new
  · exact linked.items item earlier
  · rw [mem_singleton.mp new]
    cases needResponse with
    | true => exact fits rfl
    | false =>
      intro channel none
      cases none

theorem doBatch_stored {batchReq : List QueueItem}
    (stored : ∀ slot, ∀ context ∈ m.contextPool.contextList slot, Socketed context)
    (items : ∀ item ∈ batchReq, Socketed item.context) (slot : Nat) (context : ClientContext)
    (member : context ∈ (m.doBatch env batchReq).manager.contextPool.contextList slot) : Socketed context := by
  have new (kept : context ∈ (Proxy.stored m batchReq).contextList slot) : Socketed context := by
    unfold Proxy.stored at kept
    dsimp only at kept
    rw [Function.update_apply] at kept
    split at kept
    · obtain ⟨item, inside, rfl⟩ := mem_map.mp kept
      exact items item inside
    · exact stored slot context kept
  have batches := doBatch_batches m env batchReq
  generalize m.doBatch env batchReq = result at member batches
  cases batches with
  | full => exact stored slot context member
  | unsigned => exact new member
  | sent => exact new member

theorem Linked.round {round : ProposeThread.Round} (linked : Linked thread)
    (rounds : Rounds thread env round) : Linked round.thread := by
  cases rounds with
  | waits gathered => exact ⟨gathered ▸ linked.items, linked.stored⟩
  | proposes gathered =>
    have items := linked.items
    rw [gathered] at items
    refine ⟨fun item member => items item (mem_append_right _ member), ?_⟩
    exact doBatch_stored linked.stored fun item member => items item (mem_append_left _ member)

theorem answered_stored {slot : Nat}
    (member : context ∈ (answered c id).contextList slot) : context ∈ c.contextList slot := by
  have cleared {contextList : Nat → List ClientContext} {index : Nat}
      (member : context ∈ Function.update contextList index [] slot) : context ∈ contextList slot := by
    rw [Function.update_apply] at member
    split at member
    · cases member
    · exact member
  unfold answered ContextPool.update ContextPool.fetchContextList at member
  split at member
  · exact member
  · exact cleared (cleared member)

theorem mem_of_fetched (member : context ∈ (c.fetchContextList id).1) : context ∈ c.contextList
    (id &&& c.pool.mask) := by
  unfold ContextPool.fetchContextList at member
  split at member
  · cases member
  · exact member

theorem sendResponses_safe (response : List String) (socketed : ∀ context ∈ contexts, Socketed context) (i : Nat) :
    Manager.sendResponses response contexts i ≠ .error .nullSocket := by
  induction contexts generalizing i with
  | nil =>
    intro failed
    cases failed
  | cons context rest ih =>
    have tail := ih (fun context member => socketed context (mem_cons_of_mem _ member)) (i + 1)
    rw [Manager.sendResponses]
    cases has : context.client with
    | none => exact tail
    | some channel =>
      obtain ⟨socket, here⟩ := Option.ne_none_iff_exists'.mp (socketed context mem_cons_self channel has)
      dsimp only
      split
      · intro failed
        cases failed
      · intro failed
        rcases bind_eq_error.mp failed with unsent | ⟨sent, -, failed⟩
        · simp [NetChannel.send, here] at unsent
        rcases bind_eq_error.mp failed with failed | ⟨more, -, failed⟩
        · exact tail failed
        · cases failed

theorem processResponseMsg_safe (stored : ∀ slot, ∀ context ∈ m.contextPool.contextList slot, Socketed context) :
    m.processResponseMsg signature request ≠ .error .nullSocket := by
  intro failed
  unfold Manager.processResponseMsg at failed
  rcases bind_eq_error.mp failed with failed | ⟨processed, -, failed⟩
  · cases ran : m.manager.processResponseMsg signature request with
    | _ => simp [ofCollector, ran] at failed
  dsimp only at failed
  split at failed
  · cases failed
  rename_i batch sent
  rcases bind_eq_error.mp failed with failed | ⟨answer, -, failed⟩
  · unfold Manager.sendResponseToClient at failed
    rcases bind_eq_error.mp failed with failed | ⟨sent, -, failed⟩
    · refine sendResponses_safe batch.response (fun context member => ?_) 0 failed
      exact stored _ context (mem_of_fetched member)
    · cases failed
  · cases failed

theorem Linked.processResponseMsg {result : Manager.Answered}
    (linked : Linked thread) (ran : thread.manager.processResponseMsg signature request = .ok result) :
    Linked { thread with manager := result.manager } := by
  refine ⟨linked.items, ?_⟩
  cases processResponseMsg_responds ran with
  | counted => exact linked.stored
  | answers => exact fun slot context member => linked.stored slot context (answered_stored member)

def LinkedNode (n : Node) : Prop := ∀ thread, n.thread = some thread → Linked thread

structure Safe (result : Except NodeFault Node.Handled) : Prop where
  linked : ∀ handled, result = .ok handled → LinkedNode handled.node
  unused : result ≠ .error (.proxy .nullSocket)

theorem Safe.of_node (linked : LinkedNode n) (sent : List (Nat × ClientMessage)) :
    Safe (.ok { node := n, sent := sent }) := by
  constructor
  · intro handled same
    cases same
    exact linked
  · intro failed
    cases failed

theorem Safe.of_send (linked : LinkedNode n) (number : Nat) (message : ClientMessage) :
    Safe (n.send ⟨some number⟩ message) := Safe.of_node linked _

def isAnswered (client : ClientEnv) (receipt : Receipt) : Bool :=
  match receipt.request.type with
  | .query => true
  | .replicaState => true
  | .customQuery => true
  | .clientRequest => client.needResponse receipt.message.data
  | _ => false

theorem processQuery_safe (linked : LinkedNode n) (number : Nat) (request : Request) :
    Safe (n.processQuery client ⟨some number⟩ request) := by
  unfold Node.processQuery
  split
  · split
    · exact .of_send linked number _
    · exact .of_node linked _
  · split
    · exact .of_send linked number _
    · exact .of_node linked _

theorem responseMsg_safe (linked : LinkedNode n) : Safe (n.processResponseMsg signature request) := by
  unfold Node.processResponseMsg
  split
  · exact .of_node linked _
  rename_i thread has
  have own := linked thread has
  split
  · rename_i answered ran
    refine .of_node (fun next same => ?_) _
    cases same
    exact own.processResponseMsg ran
  · rename_i fault ran
    refine ⟨fun handled never => (by cases never), fun failed => ?_⟩
    cases failed
    exact processResponseMsg_safe own.stored ran

theorem dispatch_safe (linked : LinkedNode n) (fits : socket = none → isAnswered client receipt = false) :
    Safe (n.dispatch client socket receipt) := by
  have socketed (answered : isAnswered client receipt = true) : ∃ number, socket = some number := by
    cases socket with
    | none => simp [fits rfl] at answered
    | some number => exact ⟨number, rfl⟩
  unfold Node.dispatch
  unfold isAnswered at socketed
  split
  · rename_i type
    refine .of_node (fun next same => ?_) _
    obtain ⟨thread, has, rfl⟩ := Option.map_eq_some_iff.mp same
    refine (linked thread has).newUserRequest (fun needs channel here => ?_) _
    obtain ⟨number, rfl⟩ := socketed (by rw [type]; exact needs)
    cases here
    simp
  · exact responseMsg_safe linked
  · rename_i type
    obtain ⟨number, rfl⟩ := socketed (by rw [type])
    exact processQuery_safe linked number _
  · rename_i type
    obtain ⟨number, rfl⟩ := socketed (by rw [type])
    exact .of_send linked number _
  · rename_i type
    obtain ⟨number, rfl⟩ := socketed (by rw [type])
    unfold Node.processCustomQuery
    split
    · exact .of_node linked _
    · exact .of_send linked number _
  · exact .of_node linked _

def Unanswered : Proxy.NodeEvent → Prop
  | .process envs client none buff =>
    ∀ receipt, receive (envs 0) buff = some receipt → isAnswered client receipt = false
  | _ => True

instance : DecidablePred Unanswered := fun event =>
  match event with
  | .process _ _ none _ => inferInstanceAs (Decidable (∀ receipt, _ = some receipt → _))
  | .process _ _ (some _) _ | .batchProposeMsg _ | .background _ => .isTrue trivial

theorem process_safe {envs : Nat → Env} (linked : LinkedNode n)
    (unanswered : Unanswered (.process envs client socket buff)) : Safe (n.process envs client socket buff) := by
  unfold Node.process
  split
  · exact ⟨fun handled never => (by cases never), fun failed => by cases failed⟩
  rename_i progress ran
  have linked : LinkedNode { n with replica := progress.1.replica } := linked
  dsimp only
  split
  · exact .of_node linked _
  · rename_i receipt received
    refine dispatch_safe linked fun none => ?_
    subst none
    exact unanswered receipt received

theorem batchProposeMsg_safe (linked : LinkedNode n) : Safe (n.batchProposeMsg env) := by
  unfold Node.batchProposeMsg
  split
  · split
    · exact .of_node linked _
    rename_i thread has
    obtain ⟨round, ran⟩ := batchProposeMsg_ok thread env
    rw [ran]
    refine .of_node (fun next same => ?_) _
    cases same
    exact (linked thread has).round (batchProposeMsg_rounds ran)
  · exact .of_node linked _

theorem background_safe {event : ServerEvent} (linked : LinkedNode n) : Safe (n.background event) := by
  unfold Node.background
  split
  · rename_i server ran
    have linked : LinkedNode { n with replica := server.replica } := linked
    exact .of_node linked _
  · exact .of_node linked _
  · exact ⟨fun handled never => (by cases never), fun failed => by cases failed⟩

theorem act_safe (linked : LinkedNode n) (unanswered : Unanswered event) : Safe (n.act event) := by
  cases event with
  | process envs client socket buff => exact process_safe linked unanswered
  | batchProposeMsg env => exact batchProposeMsg_safe linked
  | background event => exact background_safe linked

theorem linked_run (run : (node config parse serializeBatch).Run trace n)
    (unanswered : ∀ t ∈ trace, Unanswered t.event) : LinkedNode n := by
  refine run.invariant (fun t => Unanswered t.event) LinkedNode ?_ ?_ unanswered
  · rintro n ⟨_, _, _, isPerformance, _, _, _, _, rfl⟩ thread has
    dsimp only at has
    split at has
    · cases has
    · cases has
      exact ⟨fun item never => (by cases never), fun slot context never => by cases never⟩
  · rintro n event n' linked ⟨-, sent, acted⟩ quiet
    exact (act_safe linked quiet).linked _ acted

theorem null_socket_unused (run : (node config parse serializeBatch).Run trace n)
    (unanswered : ∀ t ∈ trace, Unanswered t.event) (now : Unanswered event) :
    n.act event ≠ .error (.proxy .nullSocket) :=
  (act_safe (linked_run run unanswered) now).unused

def requestOf (data : String) : Option Request :=
  [("query", { type := .query }), ("state", { type := .replicaState }), ("custom", { type := .customQuery }),
    ("client", { type := .clientRequest, data := "x" }), ("quiet client", { type := .clientRequest, data := "x" }),
    ("first", answerTo 1 1), ("second", answerTo 2 1)].lookup data

def portEnv : Env := { plainEnv with
  codec := { plainEnv.codec with parseMessage := fun buff => some { data := buff }, parseRequest := requestOf } }

def portClient : ClientEnv where
  parseQuery _ := some {}
  needResponse data := data = "client"
  fromPrimary _ := none

def arrives (buff : String) : Proxy.NodeEvent := .process (fun _ => portEnv) portClient none buff

def portNode : System Node Proxy.NodeEvent := node (smallProxy 1) parseId serializeId

def firstNode : Node where
  replica := { Replica.create (smallProxy 1) with
    transactionExecutor := { outOfOrder := false, needResponse := true }, needQc := false }
  thread := some { manager := .create (smallProxy 1) parseId serializeId true, clientBatchNum := 1 }
  customQueryExecutor := some fun _ => none
  isTestMode := true

theorem firstNode_initial : portNode.initial firstNode :=
  ⟨false, true, false, false, true, 1, some fun _ => none, true, rfl⟩

def portAct (n : Node) (event : Proxy.NodeEvent) : Option Node :=
  if event.isOwn then (n.act event).toOption.map fun handled => handled.node else none

theorem portAct_sound (n : Node) (event : Proxy.NodeEvent) (n' : Node) (acted : portAct n event = some n') :
    portNode.step n event n' := by
  unfold portAct at acted
  split at acted
  · rename_i own
    obtain ⟨handled, ran, rfl⟩ := Option.map_eq_some_iff.mp acted
    exact ⟨own, handled.sent, eq_ok_of_toOption ran⟩
  · cases acted

theorem quietClient_unused : ∃ trace n, portNode.Run trace n ∧ trace.length = 3 ∧
    n.act (arrives "second") ≠ .error (.proxy .nullSocket) := by
  obtain ⟨trace, n, run, length, unanswered⟩ := System.run_of_play portAct_sound firstNode_initial
    [arrives "quiet client", .batchProposeMsg portEnv, arrives "first"]
    (fun trace _ => trace.length = 3 ∧ ∀ t ∈ trace, Unanswered t.event) (by decide +kernel)
  exact ⟨trace, n, run, length, null_socket_unused run unanswered (by decide +kernel)⟩

theorem asynchronous_answered :
    (∀ buff ∈ ["query", "state", "custom"], firstNode.act (arrives buff) = .error (.proxy .nullSocket)) ∧
    portNode.initial firstNode ∧
    ∃ trace n, portNode.Run trace n ∧ n.act (arrives "second") = .error (.proxy .nullSocket) := by
  refine ⟨by decide +kernel, firstNode_initial, ?_⟩
  exact System.run_of_play portAct_sound firstNode_initial
    [arrives "client", .batchProposeMsg portEnv, arrives "first"]
    (fun _ n => n.act (arrives "second") = .error (.proxy .nullSocket)) (by decide +kernel)

end ResilientDB.Proof.Proxy
