import ResilientDB.Model.Transport

namespace ResilientDB.Proof
open Model Library List Option

variable {communicator : ReplicaCommunicator} {codec : BroadcastCodec} {c c' : AsyncReplicaClient} {h h' : Session}
  {link : Link} {s s' : Transport} {trace : List (Transition Transport TransportEvent)} {sendSize : Nat}
  {written buffer rest : Bytes} {batches : List (List Bytes)} {handed : List Bytes}

section Batches

variable {α : Type} {batchSize : Nat} {queue : List (List α)}

theorem pushBatch_cases (batchSize : Nat) (queue : List (List α)) (data : α) :
    (pushBatch batchSize queue data = queue ++ [[data]] ∧ ∀ back ∈ queue.getLast?, batchSize ≤ back.length) ∨
      ∃ front back, queue = front ++ [back] ∧ back.length < batchSize ∧
        pushBatch batchSize queue data = front ++ [back ++ [data]] := by
  unfold pushBatch
  cases last : queue.getLast? with
  | none =>
    rw [getLast?_eq_none_iff.mp last]
    exact .inl ⟨rfl, nofun⟩
  | some back =>
    dsimp only
    split_ifs with full
    · refine .inl ⟨rfl, fun other same => ?_⟩
      cases same
      exact full
    · exact .inr ⟨queue.dropLast, back, (dropLast_append_getLast? back last).symm, not_le.mp full, rfl⟩

theorem flatten_pushBatch (batchSize : Nat) (queue : List (List α)) (data : α) :
    (pushBatch batchSize queue data).flatten = queue.flatten ++ [data] := by
  rcases pushBatch_cases batchSize queue data with ⟨same, -⟩ | ⟨front, back, rfl, -, same⟩
  · rw [same, flatten_append, flatten_singleton]
  · simp [same]

structure Batched (batchSize : Nat) (queue : List (List α)) : Prop where
  full : ∀ batch ∈ queue.dropLast, batch.length = batchSize
  most : ∀ batch ∈ queue, batch.length ≤ batchSize

theorem Batched.push (batched : Batched batchSize queue) (positive : 1 ≤ batchSize) (data : α) :
    Batched batchSize (pushBatch batchSize queue data) := by
  rcases pushBatch_cases batchSize queue data with ⟨same, last⟩ | ⟨front, back, rfl, room, same⟩
  · rw [same]
    refine ⟨fun batch member => ?_, forall_mem_append.mpr ⟨batched.most, by simpa using positive⟩⟩
    rw [dropLast_concat] at member
    cases isLast : queue.getLast? with
    | none => simp [getLast?_eq_none_iff.mp isLast] at member
    | some back =>
      have both := member
      rw [← dropLast_append_getLast? back isLast, mem_append, mem_singleton] at both
      rcases both with inside | rfl
      · exact batched.full batch inside
      · exact le_antisymm (batched.most batch member) (last batch isLast)
  · rw [same]
    refine ⟨by simpa using batched.full, forall_mem_append.mpr ⟨?_, by simpa using Nat.succ_le_of_lt room⟩⟩
    exact (forall_mem_append.mp batched.most).1

theorem Batched.pop {item : List α} (batched : Batched batchSize (item :: queue)) : Batched batchSize queue := by
  refine ⟨fun batch member => batched.full batch ?_, fun batch member => batched.most batch (.tail _ member)⟩
  cases queue with
  | nil => cases member
  | cons next rest => exact .tail _ member

def pushedIn (t : Transition (List (List α)) (BatchEvent α)) : List α :=
  match t.event with
  | .push data => [data]
  | .pop _ => []

def poppedIn (t : Transition (List (List α)) (BatchEvent α)) : List (List α) :=
  match t.event with
  | .push _ => []
  | .pop list => [list]

theorem batch_queue_fifo {trace : List (Transition (List (List α)) (BatchEvent α))} (positive : 1 ≤ batchSize)
    (run : (batchQueue α batchSize).Run trace queue) :
    (System.history poppedIn trace).flatten ++ queue.flatten = System.history pushedIn trace ∧
      (∀ list ∈ System.history poppedIn trace, list.length ≤ batchSize) ∧
      ∀ batch ∈ queue.dropLast, batch.length = batchSize := by
  have general : Batched batchSize queue ∧
      (System.history poppedIn trace).flatten ++ queue.flatten = System.history pushedIn trace ∧
      ∀ list ∈ System.history poppedIn trace, list.length ≤ batchSize := by
    induction run with
    | initial first =>
      cases first
      exact ⟨⟨nofun, nofun⟩, rfl, nofun⟩
    | @next trace queue queue' event earlier step ih =>
      obtain ⟨batched, whole, most⟩ := ih
      cases event with
      | push data =>
        cases step
        refine ⟨batched.push positive data, ?_, by simpa [poppedIn] using most⟩
        simp [poppedIn, pushedIn, flatten_pushBatch, ← whole]
      | pop list =>
        cases queue with
        | nil =>
          cases step
          refine ⟨batched, by simpa [poppedIn, pushedIn] using whole, ?_⟩
          rw [System.history_cons]
          exact forall_mem_append.mpr ⟨most, by simp [poppedIn]⟩
        | cons item rest =>
          cases step
          refine ⟨batched.pop, by simp [poppedIn, pushedIn, ← whole], ?_⟩
          rw [System.history_cons]
          exact forall_mem_append.mpr ⟨most, by simpa [poppedIn] using batched.most _ mem_cons_self⟩
  exact ⟨general.2.1, general.2.2, general.1.full⟩

theorem batch_queue_fifo_incomplete : ∃ trace, (batchQueue Nat 2).Run trace [[2]] ∧
    System.history poppedIn trace = [[1]] ∧ [[1]].flatten ++ [[2]].flatten = System.history pushedIn trace := by
  have run : (batchQueue Nat 2).Run [⟨[], .push 2, [[2]]⟩, ⟨[[1]], .pop [1], []⟩, ⟨[], .push 1, [[1]]⟩] [[2]] :=
    .next (.next (.next (.initial rfl) rfl) rfl) rfl
  exact ⟨_, run, rfl, (batch_queue_fifo (by decide) run).1⟩

end Batches

def unsent (c : AsyncReplicaClient) : Bytes :=
  match c.next with
  | .onSendMessage => if c.status = 0 then frame c.pendingData else if c.status = 1 then c.pendingData else []
  | .onSend => c.sendingData.drop c.sendingDataIdx ++ if c.status = 1 then c.pendingData else []
  | .reConnect => frame c.pendingData
  | _ => []

structure Chained (c : AsyncReplicaClient) : Prop where
  busy : c.inProcess = true ↔ c.next ≠ .none
  message : c.next = .onSendMessage → c.status ≠ 0 → c.isConnected = true ∧ c.dataSize = c.pendingData.length
  status : c.next = .onSend → c.status ≠ 0
  sizes : c.next = .onSend → c.sendingDataSize = c.sendingData.length ∧ c.dataSize = c.pendingData.length
  first : c.next = .onSend → c.isConnected = false → unsent c = frame c.pendingData

theorem Chained.of_idle (busy : c.inProcess = true ↔ c.next ≠ .none)
    (message : c.next = .onSendMessage → c.status = 0) (sending : c.next ≠ .onSend) : Chained c :=
  ⟨busy, fun here other => absurd (message here) other, fun here => absurd here sending,
    fun here => absurd here sending, fun here => absurd here sending⟩

theorem Chained.push (chained : Chained c) (data : Bytes) : Chained (c.push data) :=
  ⟨chained.busy, chained.message, chained.status, chained.sizes, chained.first⟩

theorem unsent_idle (chained : Chained c) (idle : c.inProcess = false) : unsent c = [] := by
  have none : c.next = .none := by
    by_contra busy
    rw [chained.busy.mpr busy] at idle
    cases idle
  unfold unsent
  rw [none]

theorem wake_chained (chained : Chained c) : Chained c.wake ∧ c.wake.queue = c.queue ∧ unsent c.wake = unsent c := by
  unfold AsyncReplicaClient.wake
  split
  · exact ⟨chained, rfl, rfl⟩
  · rename_i idle
    rw [unsent_idle chained (Bool.eq_false_iff.mpr idle)]
    exact ⟨.of_idle (by simp) (by simp) (by simp), rfl, rfl⟩

inductive Sends (c c' : AsyncReplicaClient) : Bytes → Prop
  | writes {written : Bytes} : c'.queue = c.queue → unsent c = written ++ unsent c' → Sends c c' written
  | takes {data : Bytes} : c.queue = data :: c'.queue → unsent c = [] →
      unsent c' = (if data = [] then [] else frame data) → Sends c c' []

theorem onSendNewMessage_sends (chained : Chained c) (next : c.next = .onSendNewMessage) :
    Chained c.onSendNewMessage ∧ Sends c c.onSendNewMessage [] := by
  have busy : c.inProcess = true := chained.busy.mpr (by simp [next])
  have nothing : unsent c = [] := by simp only [unsent, next]
  unfold AsyncReplicaClient.onSendNewMessage
  split
  · exact ⟨.of_idle (by simp [busy]) (by simp) (by simp), .writes rfl nothing⟩
  · rename_i data rest queue
    split
    · rename_i empty
      exact ⟨.of_idle (by simp [busy]) (by simp) (by simp), .takes queue nothing (if_pos empty).symm⟩
    · rename_i some
      exact ⟨.of_idle (by simp [busy]) (by simp) (by simp), .takes queue nothing (if_neg some).symm⟩

theorem onSendMessage_sends (chained : Chained c) (next : c.next = .onSendMessage) :
    Chained c.onSendMessage ∧ Sends c c.onSendMessage [] := by
  have busy : c.inProcess = true := chained.busy.mpr (by simp [next])
  have rest : unsent c =
      if c.status = 0 then frame c.pendingData else if c.status = 1 then c.pendingData else [] := by
    simp only [unsent, next]
  unfold AsyncReplicaClient.onSendMessage
  split_ifs with zero one
  · rw [if_pos zero] at rest
    exact ⟨⟨by simp [busy], by simp, by simp, by simp, fun _ _ => rfl⟩, .writes rfl rest⟩
  · rw [if_neg zero, if_pos one] at rest
    obtain ⟨connected, size⟩ := chained.message next zero
    refine ⟨⟨by simp [busy], by simp, by simp, fun _ => ⟨size, size⟩, fun _ early => ?_⟩, .writes rfl ?_⟩
    · rw [connected] at early
      cases early
    · rw [rest]
      exact (append_nil _).symm
  · rw [if_neg zero, if_neg one] at rest
    exact ⟨.of_idle (by simp [busy]) (by simp) (by simp), .writes rfl rest⟩

theorem onSend_sends (chained : Chained c) (next : c.next = .onSend) (connected : c.isConnected = true) :
    Chained (c.onSend sendSize) ∧
      Sends c (c.onSend sendSize) ((c.sendingData.drop c.sendingDataIdx).take sendSize) := by
  have busy : c.inProcess = true := chained.busy.mpr (by simp [next])
  have status := chained.status next
  obtain ⟨sending, size⟩ := chained.sizes next
  have rest : unsent c = c.sendingData.drop c.sendingDataIdx ++ if c.status = 1 then c.pendingData else [] := by
    simp only [unsent, next]
  have cut : c.sendingData.drop c.sendingDataIdx =
      (c.sendingData.drop c.sendingDataIdx).take sendSize ++ c.sendingData.drop (c.sendingDataIdx + sendSize) := by
    rw [← drop_drop, take_append_drop]
  rw [cut, append_assoc] at rest
  unfold AsyncReplicaClient.onSend
  dsimp only
  split_ifs with whole
  · have all : c.sendingData.drop (c.sendingDataIdx + sendSize) = [] := drop_of_length_le (sending ▸ whole)
    rw [all, nil_append] at rest
    refine ⟨⟨by simp [busy], fun _ _ => ⟨connected, size⟩, by simp, by simp, by simp⟩, .writes rfl ?_⟩
    rw [rest]
    simp only [unsent, if_neg status]
  · refine ⟨⟨by simp [busy], by simp, fun _ => status, fun _ => ⟨sending, size⟩, fun _ early => ?_⟩, .writes rfl rest⟩
    rw [connected] at early
    cases early

theorem client_sends (chained : Chained c)
    (ran : c.step sendSize = some (c', written)) : Chained c' ∧ Sends c c' written := by
  unfold AsyncReplicaClient.step at ran
  split at ran
  · cases ran
  · rename_i next
    cases ran
    exact onSendNewMessage_sends chained next
  · rename_i next
    cases ran
    exact ⟨.of_idle (by simp) (by simp) (by simp), .writes rfl (by simp only [unsent, next]; rfl)⟩
  · rename_i next
    cases ran
    exact onSendMessage_sends chained next
  · rename_i next
    have busy : c.inProcess = true := chained.busy.mpr (by simp [next])
    split_ifs at ran with early
    · cases ran
      exact ⟨.of_idle (by simp [busy]) (by simp) (by simp), .writes rfl (chained.first next early)⟩
    · cases ran
      exact onSend_sends chained next (by simpa using early)
  · rename_i next
    have busy : c.inProcess = true := chained.busy.mpr (by simp [next])
    cases ran
    refine ⟨.of_idle (by simp [busy]) (by simp) (by simp), .writes rfl ?_⟩
    simp only [unsent, next]
    rfl

def partialFrame (h : Session) : Bytes :=
  if h.handing.isSome then [] else if h.status then encodeLE 8 h.dataSize ++ h.recvBuffer else h.recvBuffer

structure Reading (h : Session) : Prop where
  isOpen : h.isClosed = false
  size : h.currentIdx = h.recvBuffer.length
  handing : h.handing.isSome → h.status = true
  more : h.handing = none → h.currentIdx < h.needSize
  header : h.status = false → h.needSize = 8
  body : h.status = true → h.needSize = h.dataSize ∧ h.dataSize ≤ 10 ^ 10

def Fits (codec : BroadcastCodec) (batch : List Bytes) : Prop := batch ≠ [] ∧ (codec.serialize batch).length ≤ 10 ^ 10

def Carries (codec : BroadcastCodec) (stream : Bytes) (batches : List (List Bytes)) : Prop :=
  stream = frames (batches.map codec.serialize) ∧ ∀ batch ∈ batches, Fits codec batch

theorem Carries.small {stream : Bytes} (carries : Carries codec stream batches) :
    ∀ payload ∈ batches.map codec.serialize, payload.length < 2 ^ 64 := by
  intro payload member
  obtain ⟨batch, inside, rfl⟩ := mem_map.mp member
  have bound := (carries.2 batch inside).2
  omega

theorem Carries.append {stream : Bytes} {batches : List (List Bytes)} {batch : List Bytes}
    (carries : Carries codec stream batches) (fits : Fits codec batch) :
    Carries codec (stream ++ frame (codec.serialize batch)) (batches ++ [batch]) := by
  constructor
  · rw [carries.1, map_append, frames_append, map_singleton, frames_cons, frames_nil, append_nil]
  · exact forall_mem_snoc.mpr ⟨carries.2, fits⟩

theorem header_read (full : buffer.length = 8) (carries : Carries codec (buffer ++ rest) batches) :
    0 < decodeLE buffer ∧ decodeLE buffer ≤ 10 ^ 10 ∧ buffer = encodeLE 8 (decodeLE buffer) := by
  obtain ⟨payload, more, same, header, -⟩ := frames_header carries.1 full
  cases batches with
  | nil => cases same
  | cons batch later =>
    cases same
    obtain ⟨some, small⟩ := carries.2 batch mem_cons_self
    have size : decodeLE buffer = (codec.serialize batch).length := by
      rw [header, decodeLE_encodeLE 8 _ (by omega)]
    rw [size]
    exact ⟨length_pos_iff.mpr (codec.nonempty batch some), small, header⟩

theorem body_read (carries : Carries codec (encodeLE 8 buffer.length ++ (buffer ++ rest)) batches)
    (small : buffer.length ≤ 10 ^ 10) :
    ∃ batch later, batches = batch :: later ∧ Carries codec rest later ∧
      codec.parseFromArray buffer (toInt32 buffer.length) = some batch := by
  obtain ⟨more, same, tail⟩ := frames_body carries.1 (by omega) carries.small
  cases batches with
  | nil => cases same
  | cons batch later =>
    cases same
    exact ⟨batch, later, rfl, ⟨tail, fun other member => carries.2 other (mem_cons_of_mem _ member)⟩,
      codec.parse_serialize batch⟩

structure ReadsOn (codec : BroadcastCodec) (h' : Session) (rest : Bytes) (batches : List (List Bytes)) : Prop where
  reading : Reading h'
  carries : ∃ later, Carries codec (partialFrame h' ++ rest) later ∧
    h'.handing.getD [] ++ later.flatten = batches.flatten

theorem header_reads (reading : Reading h)
    (idle : h.handing = none) (status : h.status = false) (full : buffer.length = 8)
    (carries : Carries codec (buffer ++ rest) batches) :
    ReadsOn codec (Session.readDone codec { h with recvBuffer := buffer, currentIdx := h.needSize }) rest batches := by
  obtain ⟨some, small, header⟩ := header_read full carries
  have done : Session.readDone codec { h with recvBuffer := buffer, currentIdx := h.needSize } =
      { h with
        status := true, dataSize := decodeLE buffer, needSize := decodeLE buffer
        currentIdx := 0, recvBuffer := [] } := by
    simp only [Session.readDone, status, Session.startRead, if_neg (not_lt.mpr small)]
    rfl
  rw [done]
  refine ⟨⟨reading.isOpen, rfl, fun _ => rfl, fun _ => some, by simp, fun _ => ⟨rfl, small⟩⟩, batches, ?_, ?_⟩
  · simp only [partialFrame, idle]
    rw [header] at carries
    simpa using carries
  · simp [idle]

theorem body_reads (reading : Reading h) (status : h.status = true) (full : buffer.length = h.dataSize)
    (carries : Carries codec (encodeLE 8 h.dataSize ++ (buffer ++ rest)) batches) :
    ReadsOn codec (Session.readDone codec { h with recvBuffer := buffer, currentIdx := h.needSize }) rest batches := by
  obtain ⟨need, small⟩ := reading.body status
  rw [← full] at carries small
  obtain ⟨batch, later, rfl, tail, parsed⟩ := body_read carries small
  have done : Session.readDone codec { h with recvBuffer := buffer, currentIdx := h.needSize } =
      { h with recvBuffer := buffer, currentIdx := h.needSize, handing := some batch } := by
    rw [full] at parsed
    simp only [Session.readDone, status, parsed]
    rfl
  rw [done]
  have size : h.needSize = buffer.length := need.trans full.symm
  exact ⟨⟨reading.isOpen, size, fun _ => status, by simp, reading.header, reading.body⟩, later, tail, rfl⟩

theorem onRead_reads {bytes : Bytes} (reading : Reading h)
    (idle : h.handing = none) (fits : h.currentIdx + bytes.length ≤ h.needSize)
    (carries : Carries codec (partialFrame h ++ (bytes ++ rest)) batches) :
    ReadsOn codec (h.onRead codec bytes) rest batches := by
  have size : (h.recvBuffer ++ bytes).length = h.currentIdx + bytes.length := by
    rw [length_append, reading.size]
  unfold Session.onRead
  dsimp only
  split
  · rename_i full
    have whole : h.currentIdx + bytes.length = h.needSize := le_antisymm fits full
    rw [whole] at size ⊢
    by_cases status : h.status = true
    · have stream : partialFrame h ++ (bytes ++ rest) = encodeLE 8 h.dataSize ++ (h.recvBuffer ++ bytes ++ rest) := by
        simp [partialFrame, idle, status]
      rw [stream] at carries
      rw [(reading.body status).1] at size
      exact body_reads reading status size carries
    · have header : h.status = false := Bool.eq_false_iff.mpr status
      have stream : partialFrame h ++ (bytes ++ rest) = h.recvBuffer ++ bytes ++ rest := by
        simp [partialFrame, idle, header]
      rw [stream] at carries
      rw [reading.header header] at size
      exact header_reads reading idle header size carries
  · rename_i short
    refine ⟨⟨reading.isOpen, size.symm, reading.handing, fun _ => not_le.mp short, reading.header, reading.body⟩,
      batches, ?_, by simp [idle]⟩
    have stream : partialFrame { h with
        recvBuffer := h.recvBuffer ++ bytes, currentIdx := h.currentIdx + bytes.length } ++ rest =
          partialFrame h ++ (bytes ++ rest) := by
      unfold partialFrame
      dsimp only
      split_ifs
      · simp_all
      · simp only [append_assoc]
      · simp only [append_assoc]
    rw [stream]
    exact carries

theorem acceptorHandler_hands (reading : Reading h) (ran : h.acceptorHandler = some (h', handed)) :
    Reading h' ∧ partialFrame h' = partialFrame h ∧ handed ++ h'.handing.getD [] = h.handing.getD [] := by
  obtain ⟨handing, current, ran⟩ := map_eq_some_iff.mp ran
  have status := reading.handing (by rw [current]; rfl)
  cases handing with
  | nil =>
    cases ran
    exact ⟨⟨reading.isOpen, rfl, by simp [Session.startRead], fun _ => Nat.zero_lt_succ 7, fun _ => rfl,
      by simp [Session.startRead]⟩, by simp [partialFrame, Session.startRead, current], by
        simp [Session.startRead, current]⟩
  | cons entry rest =>
    cases ran
    exact ⟨⟨reading.isOpen, reading.size, fun _ => status, by simp, reading.header, reading.body⟩,
      by simp [partialFrame, current], by simp [current]⟩

structure Linked (codec : BroadcastCodec) (link : Link) (given : List Bytes) : Prop where
  chained : Chained link.client
  reading : Reading link.session
  flow : ∃ inflight queued : List (List Bytes),
    link.client.queue = queued.map codec.serialize ∧ (∀ batch ∈ queued, Fits codec batch) ∧
    Carries codec (partialFrame link.session ++ (link.wire ++ unsent link.client)) inflight ∧
    given = link.input ++ (link.session.handing.getD [] ++ (inflight.flatten ++ queued.flatten))

variable {given : List Bytes}

theorem linked_start (codec : BroadcastCodec) : Linked codec {} [] :=
  ⟨.of_idle (by simp) (by simp) (by simp),
    ⟨rfl, rfl, by simp, fun _ => Nat.zero_lt_succ 7, fun _ => rfl, by simp⟩, [], [], rfl, by simp, ⟨rfl, by simp⟩, rfl⟩

section

variable (linked : Linked codec link given)
include linked

theorem Linked.push {batch : List Bytes} (fits : Fits codec batch) :
    Linked codec { link with client := link.client.push (codec.serialize batch) } (given ++ batch) := by
  obtain ⟨inflight, queued, queue, each, carries, rfl⟩ := linked.flow
  refine ⟨linked.chained.push _, linked.reading, inflight, queued ++ [batch], ?_, ?_, carries, ?_⟩
  · simp [AsyncReplicaClient.push, queue]
  · exact forall_mem_snoc.mpr ⟨each, fits⟩
  · simp

theorem Linked.wake : Linked codec { link with client := link.client.wake } given := by
  obtain ⟨chained, queue, rest⟩ := wake_chained linked.chained
  obtain ⟨inflight, queued, same, each, carries, given⟩ := linked.flow
  exact ⟨chained, linked.reading, inflight, queued, queue.trans same, each, rest ▸ carries, given⟩

theorem Linked.client (ran : link.client.step sendSize = some (c', written)) :
    Linked codec { link with client := c', wire := link.wire ++ written } given := by
  obtain ⟨chained, sends⟩ := client_sends linked.chained ran
  obtain ⟨inflight, queued, queue, each, carries, given⟩ := linked.flow
  cases sends with
  | writes same rest =>
    refine ⟨chained, linked.reading, inflight, queued, same.trans queue, each, ?_, given⟩
    rw [rest] at carries
    rwa [append_assoc]
  | @takes data taken nothing rest =>
    rw [taken] at queue
    cases queued with
    | nil => cases queue
    | cons batch later =>
      rw [map_cons, List.cons.injEq] at queue
      obtain ⟨rfl, queue⟩ := queue
      have fits := each batch mem_cons_self
      rw [if_neg (codec.nonempty batch fits.1)] at rest
      refine ⟨chained, linked.reading, inflight ++ [batch], later, queue,
        fun other member => each other (mem_cons_of_mem _ member), ?_, ?_⟩
      · have whole := carries.append fits
        rw [nothing] at whole
        simpa [rest] using whole
      · rw [given]
        simp

theorem Linked.read {size : Nat} (idle : link.session.handing = none)
    (fits : link.session.currentIdx + size ≤ link.session.needSize) (there : size ≤ link.wire.length) :
    Linked codec { link with
      session := link.session.onRead codec (link.wire.take size), wire := link.wire.drop size } given := by
  obtain ⟨inflight, queued, queue, each, carries, given⟩ := linked.flow
  have cut : link.wire ++ unsent link.client =
      link.wire.take size ++ (link.wire.drop size ++ unsent link.client) := by
    rw [← append_assoc, take_append_drop]
  rw [cut] at carries
  obtain ⟨reading, later, tail, same⟩ := onRead_reads linked.reading idle (by rwa [length_take_of_le there]) carries
  refine ⟨linked.chained, reading, later, queued, queue, each, tail, ?_⟩
  rw [given, idle, getD_none, nil_append, ← same, append_assoc]

theorem Linked.hand (ran : link.session.acceptorHandler = some (h', handed)) :
    Linked codec { link with session := h', input := link.input ++ handed } given := by
  obtain ⟨reading, same, rest⟩ := acceptorHandler_hands linked.reading ran
  obtain ⟨inflight, queued, queue, each, carries, given⟩ := linked.flow
  refine ⟨linked.chained, reading, inflight, queued, queue, each, same ▸ carries, ?_⟩
  rw [given, ← rest]
  simp

theorem Linked.input_prefix : link.input <+: given := by
  obtain ⟨inflight, queued, -, -, -, rfl⟩ := linked.flow
  exact prefix_append _ _

end

structure Drained (link : Link) : Prop where
  queue : link.client.queue = []
  written : link.client.inProcess = false
  read : link.wire = []
  handed : link.session.handing = none

theorem partialFrame_short (reading : Reading h) (idle : h.handing = none)
    (carries : Carries codec (partialFrame h) batches) : batches = [] := by
  cases batches with
  | nil => rfl
  | cons batch later =>
    exfalso
    have more := reading.more idle
    rw [reading.size] at more
    have stream := carries.1
    by_cases status : h.status = true
    · have split : partialFrame h = encodeLE 8 h.dataSize ++ h.recvBuffer := by simp [partialFrame, idle, status]
      obtain ⟨need, small⟩ := reading.body status
      obtain ⟨payload, rest, -, size, body⟩ := frames_length (split.symm.trans stream) (by omega) carries.small
      have length := congrArg List.length body
      rw [length_append] at length
      omega
    · have split : partialFrame h = h.recvBuffer := by simp [partialFrame, idle, status]
      have length := congrArg List.length (split.symm.trans stream)
      have need := reading.header (Bool.eq_false_iff.mpr status)
      rw [map_cons, frames_cons, length_append, length_frame] at length
      omega

theorem Linked.drained (linked : Linked codec link given) (drained : Drained link) : link.input = given := by
  obtain ⟨inflight, queued, queue, -, carries, rfl⟩ := linked.flow
  rw [unsent_idle linked.chained drained.written, drained.read, append_nil, append_nil] at carries
  rw [partialFrame_short linked.reading drained.handed carries, drained.handed,
    map_eq_nil_iff.mp (queue.symm.trans drained.queue)]
  simp

def owed (replica : Endpoint) : BroadcastThread → List Bytes
  | .waiting => []
  | .sending broadcastData _ rest => if replica ∈ rest then broadcastData else []
  | .waking broadcastData _ _ rest => if replica ∈ rest then broadcastData else []

def Broadcasting (codec : BroadcastCodec) : BroadcastThread → Prop
  | .waiting => True
  | .sending broadcastData data rest => data = codec.serialize broadcastData ∧ Fits codec broadcastData ∧ rest.Nodup
  | .waking broadcastData data _ rest => data = codec.serialize broadcastData ∧ Fits codec broadcastData ∧ rest.Nodup

structure Flowing (communicator : ReplicaCommunicator) (s : Transport) : Prop where
  serving : Broadcasting communicator.codec s.thread
  linked : ∀ replica ∈ communicator.replicas, ∃ given, Linked communicator.codec (s.link replica) given ∧
    s.sent = given ++ (owed replica s.thread ++ s.batchQueue.flatten)

def poppedAt (t : Transition Transport TransportEvent) : Option (List Bytes) :=
  match t.event, t.before.thread with
  | .broadcast, .waiting => t.before.batchQueue.head?
  | _, _ => none

section

variable (flowing : Flowing communicator s)
include flowing

theorem Flowing.sendMessage (data : Bytes) : Flowing communicator (s.sendMessage communicator data) := by
  refine ⟨flowing.serving, fun replica member => ?_⟩
  obtain ⟨given, linked, sent⟩ := flowing.linked replica member
  refine ⟨given, linked, ?_⟩
  simp only [Transport.sendMessage, flatten_pushBatch, sent, append_assoc]

theorem Flowing.pop (waiting : s.thread = .waiting)
    (small : ∀ batch ∈ s.batchQueue.head?, (communicator.codec.serialize batch).length ≤ 10 ^ 10)
    (ran : s.pop communicator = some s') : Flowing communicator s' := by
  unfold Transport.pop at ran
  split at ran
  · cases ran
  rename_i batch rest queue
  dsimp only at ran
  rw [queue] at small
  split at ran
  · rename_i empty
    cases ran
    refine ⟨flowing.serving, fun replica member => ?_⟩
    obtain ⟨given, linked, sent⟩ := flowing.linked replica member
    rw [queue, empty] at sent
    exact ⟨given, linked, sent⟩
  · rename_i some
    cases ran
    refine ⟨⟨rfl, ⟨some, small batch rfl⟩, communicator.distinct⟩, fun replica member => ?_⟩
    obtain ⟨given, linked, sent⟩ := flowing.linked replica member
    refine ⟨given, linked, ?_⟩
    rw [queue, waiting] at sent
    simpa [owed, member] using sent

theorem Flowing.setLink {replica : Endpoint} {link : Link} {thread : BroadcastThread}
    (serving : Broadcasting communicator.codec thread)
    (here : ∀ given, Linked communicator.codec (s.link replica) given →
      ∃ more, Linked communicator.codec link (given ++ more) ∧ owed replica s.thread = more ++ owed replica thread)
    (there : ∀ other, other ≠ replica → owed other thread = owed other s.thread) :
    Flowing communicator { s.setLink replica link with thread := thread } := by
  refine ⟨serving, fun other member => ?_⟩
  obtain ⟨given, linked, sent⟩ := flowing.linked other member
  by_cases same : other = replica
  · subst same
    obtain ⟨more, linked, split⟩ := here given linked
    refine ⟨given ++ more, ?_, ?_⟩
    · simpa [Transport.setLink] using linked
    · change s.sent = given ++ more ++ (owed other thread ++ s.batchQueue.flatten)
      rw [sent, split, append_assoc, append_assoc]
  · refine ⟨given, ?_, ?_⟩
    · simpa [Transport.setLink, same] using linked
    · change s.sent = given ++ (owed other thread ++ s.batchQueue.flatten)
      rw [sent, there other same]

theorem Flowing.broadcast
    (small : ∀ batch ∈ poppedAt ⟨s, .broadcast, s'⟩, (communicator.codec.serialize batch).length ≤ 10 ^ 10)
    (ran : s.broadcast communicator = some s') : Flowing communicator s' := by
  have serving := flowing.serving
  unfold Transport.broadcast at ran
  cases thread : s.thread with
  | waiting =>
    rw [thread] at ran
    exact flowing.pop thread (by simpa only [poppedAt, thread] using small) ran
  | sending broadcastData data replicas =>
    rw [thread] at ran serving
    obtain ⟨same, fits, nodup⟩ := serving
    cases replicas with
    | nil =>
      cases ran
      refine ⟨trivial, fun replica member => ?_⟩
      obtain ⟨given, linked, sent⟩ := flowing.linked replica member
      rw [thread] at sent
      exact ⟨given, linked, sent⟩
    | cons replica rest =>
      cases ran
      obtain ⟨gone, nodup⟩ := nodup_cons.mp nodup
      refine flowing.setLink ⟨same, fits, nodup⟩ (fun given linked => ?_) (fun other differs => ?_)
      · refine ⟨broadcastData, same ▸ linked.push fits, ?_⟩
        simp [thread, owed, gone]
      · simp [thread, owed, differs]
  | waking broadcastData data replica rest =>
    rw [thread] at ran serving
    cases ran
    refine flowing.setLink serving (fun given linked => ?_) (fun other differs => ?_)
    · exact ⟨[], by simpa using linked.wake, by simp [thread, owed]⟩
    · simp [thread, owed]

theorem Flowing.step {event : TransportEvent}
    (small : ∀ batch ∈ poppedAt ⟨s, event, s'⟩, (communicator.codec.serialize batch).length ≤ 10 ^ 10)
    (acted : s.act communicator event = some s') : Flowing communicator s' := by
  have changed {replica : Endpoint} {link : Link} (here : ∀ given, Linked communicator.codec (s.link replica) given →
      Linked communicator.codec link given) : Flowing communicator (s.setLink replica link) :=
    flowing.setLink flowing.serving (fun given linked => ⟨[], by simpa using here given linked, rfl⟩) fun _ _ => rfl
  cases event with
  | sendMessage data =>
    cases acted
    exact flowing.sendMessage data
  | broadcast => exact flowing.broadcast small acted
  | client replica sendSize =>
    obtain ⟨⟨client, written⟩, ran, rfl⟩ := map_eq_some_iff.mp acted
    exact changed fun given linked => linked.client ran
  | read replica size =>
    simp only [Transport.act] at acted
    split at acted
    · rename_i ready
      cases acted
      exact changed fun given linked => linked.read ready.2.1 ready.2.2.2.2 ready.2.2.2.1
    · cases acted
  | acceptorHandler replica =>
    obtain ⟨⟨session, handed⟩, ran, rfl⟩ := map_eq_some_iff.mp acted
    exact changed fun given linked => linked.hand ran

end

theorem flowing_run (run : (transport communicator).Run trace s)
    (small : ∀ t ∈ trace, ∀ batch ∈ poppedAt t, (communicator.codec.serialize batch).length ≤ 10 ^ 10) :
    Flowing communicator s := by
  refine run.invariant
    (fun t => ∀ batch ∈ poppedAt t, (communicator.codec.serialize batch).length ≤ 10 ^ 10) _ ?_ ?_ small
  · rintro s rfl
    exact ⟨trivial, fun replica _ => ⟨[], linked_start _, rfl⟩⟩
  · exact fun s event s' flowing acted small => flowing.step small acted

def byteCode : PrefixCode UInt8 where
  encode byte := [byte]
  decode
    | [] => none
    | byte :: rest => some (byte, rest)
  decode_encode _ _ := rfl

def listCodec : BroadcastCodec where
  serialize := byteCode.list.list.encode
  parseFromArray bytes _ := byteCode.list.list.parse bytes
  parse_serialize data := byteCode.list.list.parse_encode data
  nonempty data _ := by simp [PrefixCode.list, PrefixCode.nat]

def left : Endpoint := ⟨"127.0.0.1", 20001⟩

def right : Endpoint := ⟨"127.0.0.1", 20002⟩

def twoReplicas : ReplicaCommunicator where
  replicas := [left, right]
  tcpBatch := 2
  codec := listCodec
  distinct := by decide

def twoBatches : List TransportEvent :=
  [[7], [8, 9], []].map TransportEvent.sendMessage ++ List.replicate 12 .broadcast ++
    [0, 0, 0, 0, 0, 3, 5, 0, 11, 0, 0, 0, 8, 0, 3, 0, 0, 0].map (.client left) ++ [1, 7, 4, 7].map (.read left) ++
    List.replicate 3 (.acceptorHandler left) ++ [8, 3].map (.read left) ++ List.replicate 2 (.acceptorHandler left) ++
    [0, 0, 0, 0, 0, 8, 0, 11].map (.client right) ++ [8, 11].map (.read right) ++ [.acceptorHandler right]

theorem startTransport_initial : (transport twoReplicas).initial {} := rfl

end ResilientDB.Proof
