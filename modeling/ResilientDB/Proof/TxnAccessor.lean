import ResilientDB.Library.Quorum
import ResilientDB.Model.TxnAccessor
import ResilientDB.Proof.CollectorRun

namespace ResilientDB.Proof
open Model Library List

variable {config : ResDBConfig} {codec : QueryCodec} {arrivals : List Arrival} {got : Bytes} {turns len : Nat}

def arrived : List Arrival → Bytes
  | .bytes chunk :: rest => chunk.bytes ++ arrived rest
  | _ => []

def closes : List Arrival → Bool
  | .bytes _ :: rest => closes rest
  | .closed :: _ => true
  | _ => false

inductive Receives (len : Nat) (got : Bytes) (arrivals : List Arrival) : Received → Prop
  | whole {data : Bytes} {rest : List Arrival} : data.length = len → arrived arrivals = data ++ arrived rest →
      closes rest = closes arrivals → Receives len got arrivals ⟨toInt32 (got ++ data).length, got ++ data, rest⟩
  | closed {received : Received} : received.ret = 0 → closes arrivals = true → (arrived arrivals).length < len →
      Receives len got arrivals received
  | failed {received : Received} : received.ret < 0 → Receives len got arrivals received

theorem Receives.empty (got : Bytes) (arrivals : List Arrival) :
    Receives 0 got arrivals ⟨toInt32 got.length, got, arrivals⟩ := by
  have whole := @Receives.whole 0 got arrivals [] arrivals rfl rfl rfl
  rwa [append_nil] at whole

theorem Receives.after {data : Bytes} {rest : List Arrival} {received : Received} (part : data.length ≤ len)
    (split : arrived arrivals = data ++ arrived rest) (same : closes rest = closes arrivals)
    (reads : Receives (len - data.length) (got ++ data) rest received) : Receives len got arrivals received := by
  cases reads with
  | @whole more tail length next still =>
    rw [append_assoc]
    refine .whole ?_ ?_ (still.trans same)
    · rw [length_append]
      omega
    · rw [split, next, append_assoc]
  | closed zero ends short =>
    refine .closed zero (same ▸ ends) ?_
    rw [split, length_append]
    omega
  | failed negative => exact .failed negative

theorem recv_bytes (chunk : Chunk) (rest : List Arrival) (some : 0 < len) :
    ∃ data tail, recv len (.bytes chunk :: rest) = ⟨data.length, data, tail⟩ ∧ 0 < data.length ∧ data.length ≤ len ∧
      chunk.bytes ++ arrived rest = data ++ arrived tail ∧ closes tail = closes rest := by
  simp only [recv]
  split_ifs with more
  · refine ⟨chunk.bytes.take len, .bytes (chunk.drop len more) :: rest, ?_, ?_, ?_, ?_, rfl⟩
    · rw [length_take_of_le more.le]
    · rw [length_take_of_le more.le]
      exact some
    · exact length_take_le len chunk.bytes
    · have joined : chunk.bytes.take len ++ chunk.bytes.drop len = chunk.bytes := take_append_drop len chunk.bytes
      calc chunk.bytes ++ arrived rest
        _ = (chunk.bytes.take len ++ chunk.bytes.drop len) ++ arrived rest := by rw [joined]
        _ = chunk.bytes.take len ++ (chunk.bytes.drop len ++ arrived rest) := append_assoc _ _ _
  · exact ⟨chunk.bytes, rest, rfl, length_pos_iff.mpr chunk.nonempty, not_lt.mp more, rfl, rfl⟩

theorem recvLoop_receives (enough : len ≤ turns) : Receives len got arrivals (recvLoop turns len got arrivals) := by
  induction turns generalizing len got arrivals with
  | zero =>
    obtain rfl : len = 0 := by omega
    exact .empty got arrivals
  | succ turns ih =>
    unfold recvLoop
    split_ifs with done
    · subst done
      exact .empty got arrivals
    cases arrivals with
    | nil => exact .failed (by simp [recv])
    | cons arrival rest =>
      cases arrival with
      | closed => exact .closed (by simp [recv]) rfl (by simp only [arrived, length_nil]; omega)
      | error => exact .failed (by simp [recv])
      | bytes chunk =>
        obtain ⟨data, tail, called, some, part, split, same⟩ := recv_bytes chunk rest (Nat.pos_of_ne_zero done)
        simp only [called]
        rw [if_neg (by omega)]
        exact Receives.after part split same (ih (by omega))

theorem recvInternal_receives (len : Nat) (arrivals : List Arrival) :
    Receives len [] arrivals (recvInternal len arrivals) :=
  recvLoop_receives le_rfl

inductive ReadsFrame (arrivals : List Arrival) : Received → Prop
  | whole {body tail : Bytes} {rest : List Arrival} : readFrame (arrived arrivals) = some (body, tail) →
      ReadsFrame arrivals ⟨toInt32 body.length, body, rest⟩
  | closed {received : Received} : received.ret = 0 → closes arrivals = true → readFrame (arrived arrivals) = none →
      ReadsFrame arrivals received
  | failed {received : Received} : received.ret < 0 → ReadsFrame arrivals received

theorem tcpRecv_readsFrame (arrivals : List Arrival) : ReadsFrame arrivals (TcpSocket.recv arrivals) := by
  unfold TcpSocket.recv
  dsimp only
  have length := recvInternal_receives 8 arrivals
  generalize recvInternal 8 arrivals = first at length
  cases length with
  | @whole data rest eight split same =>
    have positive : ¬ toInt32 (([] : Bytes) ++ data).length ≤ 0 := by
      rw [nil_append, eight]
      decide
    rw [if_neg positive]
    have header : takeExact 8 (arrived arrivals) = some (data, arrived rest) := by
      rw [split, ← eight]
      exact takeExact_append data (arrived rest)
    have body := recvInternal_receives (decodeLE data) rest
    rw [nil_append]
    generalize recvInternal (decodeLE data) rest = second at body
    cases body with
    | @whole payload tail length next still =>
      have found : readFrame (arrived arrivals) = some (payload, arrived tail) := by
        unfold readFrame
        rw [header, Option.bind_some, next, ← length]
        exact takeExact_append payload (arrived tail)
      exact .whole found
    | closed zero ends short =>
      refine .closed zero (same ▸ ends) ?_
      unfold readFrame
      rw [header, Option.bind_some]
      exact takeExact_short short
    | failed negative => exact .failed negative
  | closed zero ends short =>
    rw [if_pos zero.le]
    refine .closed zero ends ?_
    unfold readFrame
    rw [takeExact_short short]
    rfl
  | failed negative =>
    rw [if_pos negative.le]
    exact .failed negative

def decode (codec : QueryCodec) (body : Bytes) : Option (List (Nat × Bytes)) :=
  (codec.parseMessage body).bind codec.parseQueryResponse

def SendsAnswer (codec : QueryCodec) (channel : QueryChannel) (v : List (Nat × Bytes)) : Prop :=
  ∃ body tail, readFrame (arrived channel.arrivals) = some (body, tail) ∧ decode codec body = some v

def ClosedEarly (channel : QueryChannel) : Prop :=
  closes channel.arrivals = true ∧ readFrame (arrived channel.arrivals) = none

def Oversized (channel : QueryChannel) : Prop :=
  ∃ body tail, readFrame (arrived channel.arrivals) = some (body, tail) ∧ body ≠ [] ∧ toInt32 body.length = 0

theorem recv_whole {channel : QueryChannel} (ok : 0 ≤ (NetChannel.recv channel.arrivals).1) :
    (∃ body tail, readFrame (arrived channel.arrivals) = some (body, tail) ∧
      (NetChannel.recv channel.arrivals).2 = body) ∨
    (NetChannel.recv channel.arrivals).2 = [] ∧ (ClosedEarly channel ∨ Oversized channel) := by
  unfold NetChannel.recv at ok ⊢
  have reads := tcpRecv_readsFrame channel.arrivals
  generalize TcpSocket.recv channel.arrivals = result at ok reads
  dsimp only at ok ⊢
  cases reads with
  | @whole body tail rest found =>
    dsimp only at ok ⊢
    split_ifs with positive
    · exact .inl ⟨body, tail, found, rfl⟩
    · by_cases none : body = []
      · exact .inl ⟨body, tail, found, none.symm⟩
      · exact .inr ⟨rfl, .inr ⟨body, tail, found, none, by omega⟩⟩
  | closed zero ends torn => exact .inr ⟨if_neg zero.le.not_gt, .inl ⟨ends, torn⟩⟩
  | failed negative => exact absurd ok (not_le.mpr negative)

def ParsedFrom {α : Type} (channel : QueryChannel) (parse : Bytes → Option α) (result : α) : Prop :=
  (∃ body tail, readFrame (arrived channel.arrivals) = some (body, tail) ∧ parse body = some result) ∨
    parse [] = some result ∧ (ClosedEarly channel ∨ Oversized channel)

theorem parsedFrom_recv {α : Type} {channel : QueryChannel} {parse : Bytes → Option α} {result : α}
    (ok : 0 ≤ (NetChannel.recv channel.arrivals).1)
    (parsed : parse (NetChannel.recv channel.arrivals).2 = some result) : ParsedFrom channel parse result := by
  rcases recv_whole ok with ⟨body, tail, found, same⟩ | ⟨empty, cut⟩
  · exact .inl ⟨body, tail, found, same ▸ parsed⟩
  · exact .inr ⟨empty ▸ parsed, cut⟩

theorem recvRawMessageStr_parsed {channel : QueryChannel} {message : Bytes}
    (success : NetChannel.recvRawMessageStr codec channel.arrivals = (0, message)) :
    ParsedFrom channel codec.parseMessage message := by
  simp only [NetChannel.recvRawMessageStr] at success
  split_ifs at success with low
  · obtain ⟨zero, rfl⟩ := Prod.mk.inj success
    refine parsedFrom_recv zero.ge ?_
    have empty : (NetChannel.recv channel.arrivals).2 = [] := if_neg low.not_gt
    rw [empty, codec.parse_message_nil]
  · refine parsedFrom_recv (by omega) ?_
    split at success
    · cases success
    · rename_i data parsed
      cases success
      exact parsed

theorem recvRawMessage_parsed {α : Type} {parse : Bytes → Option α} {channel : QueryChannel} {result : Option α}
    (success : NetChannel.recvRawMessage codec parse channel.arrivals = (0, result)) :
    ∃ message, result = some message ∧
      ParsedFrom channel (fun body => (codec.parseMessage body).bind parse) message := by
  simp only [NetChannel.recvRawMessage] at success
  split_ifs at success with low
  · cases success
  split at success
  · cases success
  · rename_i data inner
    split at success
    · cases success
    · rename_i message outer
      cases success
      exact ⟨message, rfl, parsedFrom_recv (by omega) (by rw [inner, Option.bind_some, outer])⟩

theorem sendRequest_parsed {α : Type} {parse : Bytes → Option α} {channel : QueryChannel} {result : Option α}
    (success : TransactionConstructor.sendRequest parse channel = (0, result)) :
    ∃ response, result = some response ∧ ParsedFrom channel parse response := by
  simp only [TransactionConstructor.sendRequest] at success
  split_ifs at success with sent some
  · split at success
    · cases success
    · rename_i response parsed
      cases success
      exact ⟨response, rfl, parsedFrom_recv some parsed⟩
  · cases success
  · cases success

def oneTransaction : QueryCodec where
  parseMessage := some
  parseQueryResponse := fun data => if data = [] then some [] else some [(1, data)]
  parse_message_nil := rfl
  parse_response_nil := rfl

def sevenArrives : QueryChannel where
  arrivals := [.bytes { bytes := [1, 0, 0] }, .bytes { bytes := [0, 0, 0, 0, 0, 7] }]

theorem answerOf_sent {channel : QueryChannel} {responseStr : Bytes}
    (answer : ResDBTxnAccessor.answerOf codec channel = some responseStr) :
    (∃ body tail, readFrame (arrived channel.arrivals) = some (body, tail) ∧
      codec.parseMessage body = some responseStr) ∨
    responseStr = [] ∧ (ClosedEarly channel ∨ Oversized channel) := by
  simp only [ResDBTxnAccessor.answerOf] at answer
  split_ifs at answer with failed zero
  cases answer
  rcases recvRawMessageStr_parsed (Prod.ext zero rfl) with whole | ⟨empty, cut⟩
  · exact .inl whole
  · rw [codec.parse_message_nil] at empty
    exact .inr ⟨(Option.some.inj empty).symm, cut⟩

abbrev QueryThread := ReplicaInfo × QueryChannel

def answering (codec : QueryCodec) (threads : List QueryThread) (responseStr : Bytes) : List QueryThread :=
  threads.filter fun thread => ResDBTxnAccessor.answerOf codec thread.2 = some responseStr

structure Tallies (config : ResDBConfig) (codec : QueryCodec) (threads : List QueryThread) (tally : Tally) : Prop where
  count : ∀ responseStr, tally.recvCount responseStr = (answering codec threads responseStr).length
  enough : tally.success = true → config.getMinClientReceiveNum ≤ tally.recvCount tally.finalStr
  nothing : tally.success = false → tally.finalStr = []

theorem Tallies.thread {threads : List QueryThread} {tally : Tally} (tallies : Tallies config codec threads tally)
    (thread : QueryThread) :
    Tallies config codec (threads ++ [thread]) (ResDBTxnAccessor.runThread config codec tally thread) := by
  unfold ResDBTxnAccessor.runThread
  cases answer : ResDBTxnAccessor.answerOf codec thread.2 with
  | none =>
    refine ⟨fun responseStr => ?_, tallies.enough, tallies.nothing⟩
    rw [tallies.count]
    simp [answering, answer]
  | some own =>
    have counted (responseStr : Bytes) :
        Function.update tally.recvCount own (tally.recvCount own + 1) responseStr =
          (answering codec (threads ++ [thread]) responseStr).length := by
      by_cases same : responseStr = own
      · rw [same, Function.update_self, tallies.count]
        simp [answering, answer]
      · rw [Function.update_of_ne same, tallies.count]
        simp [answering, answer, Ne.symm same]
    simp only [ResDBTxnAccessor.addAnswer]
    split_ifs with reached
    · refine ⟨counted, fun _ => ?_, nofun⟩
      dsimp only
      rw [Function.update_self, reached]
    · refine ⟨counted, fun success => (tallies.enough success).trans ?_, tallies.nothing⟩
      dsimp only
      rw [counted, tallies.count]
      simp [answering]

theorem tallies_threads (threads : List QueryThread) :
    Tallies config codec threads (threads.foldl (ResDBTxnAccessor.runThread config codec) {}) := by
  induction threads using List.reverseRecOn with
  | nil => exact ⟨fun _ => rfl, nofun, fun _ => rfl⟩
  | append_singleton threads thread ih =>
    rw [foldl_append]
    exact ih.thread thread

theorem getTxn_ok {threads : List QueryThread} {v : List (Nat × Bytes)}
    (read : ResDBTxnAccessor.getTxn config codec threads = .ok v) :
    ∃ finalStr, codec.parseQueryResponse finalStr = some v ∧
      config.getMinClientReceiveNum ≤ (answering codec threads finalStr).length := by
  have tallies := @tallies_threads config codec threads
  unfold ResDBTxnAccessor.getTxn at read
  generalize threads.foldl (ResDBTxnAccessor.runThread config codec) {} = tally at tallies read
  have quorum (success : tally.success = true) :
      config.getMinClientReceiveNum ≤ (answering codec threads tally.finalStr).length := by
    rw [← tallies.count]
    exact tallies.enough success
  dsimp only at read
  split_ifs at read with empty missing
  · cases read
    rw [empty.2] at quorum
    exact ⟨[], codec.parse_response_nil, quorum empty.1⟩
  · have success : tally.success = true := by
      by_contra failed
      exact missing (tallies.nothing (by simpa using failed))
    cases parsed : codec.parseQueryResponse tally.finalStr with
    | none => simp [parsed] at read
    | some transactions =>
      simp only [parsed, Except.ok.injEq] at read
      exact ⟨tally.finalStr, read ▸ parsed, quorum success⟩

instance (channel : QueryChannel) (v : List (Nat × Bytes)) : Decidable (SendsAnswer codec channel v) :=
  decidable_of_iff (∃ p, readFrame (arrived channel.arrivals) = some p ∧ decode codec p.1 = some v)
    (by simp [SendsAnswer])

end ResilientDB.Proof
