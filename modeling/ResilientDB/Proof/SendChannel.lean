import ResilientDB.Model.SendChannel

namespace ResilientDB.Proof
open Model Library List

variable {c : SendChannel} {data stream : Bytes} {messages : List Bytes} {results : List SendResult} {turns : Nat}

def Stops (results rest : List SendResult) : Prop := SendResult.error ∈ results ∨ rest = []

theorem Stops.mono {results' rest : List SendResult} (stops : Stops results' rest) (later : results' <:+ results) :
    Stops results rest := stops.imp_left fun member => later.subset member

structure LoopWrites (size : Nat) (buf : Bytes) (results : List SendResult) (sent : Sent) : Prop where
  part : sent.wire <+: buf
  rest : sent.rest <:+ results
  outcome : sent.wire = buf ∧ sent.ret = toInt32 size ∨ sent.ret = -1 ∧ Stops results sent.rest

theorem sendLoop_loopWrites (size : Nat) (buf : Bytes) (results : List SendResult) :
    LoopWrites size buf results (sendLoop size buf results) := by
  induction results generalizing buf with
  | nil =>
    unfold sendLoop
    split_ifs with done
    · exact ⟨ nil_prefix, suffix_refl _, .inl ⟨done.symm, by dsimp only⟩⟩
    · exact ⟨ nil_prefix, suffix_refl _, .inr ⟨rfl, .inr rfl⟩⟩
  | cons result rest ih =>
    unfold sendLoop
    split_ifs with done
    · exact ⟨ nil_prefix, suffix_refl _, .inl ⟨done.symm, by dsimp only⟩⟩
    cases result with
    | error => exact ⟨ nil_prefix, suffix_cons _ _, .inr ⟨rfl, .inl mem_cons_self⟩⟩
    | sent count =>
      have writes := ih (buf.drop count)
      have joined := take_append_drop count buf
      refine ⟨?_, writes.rest.trans (suffix_cons _ _), writes.outcome.imp (And.imp_left fun all => ?_) ?_⟩
      · have longer := (prefix_append_right_inj (buf.take count)).mpr writes.part
        rwa [joined] at longer
      · dsimp only
        rw [all, joined]
      · exact And.imp_right fun stops => stops.mono (suffix_cons _ _)

structure Attempts (data : Bytes) (results : List SendResult) (sent : Sent) : Prop where
  part : sent.wire <+: frame data
  rest : sent.rest <:+ results
  outcome : sent.wire = frame data ∨ sent.ret < 0 ∧ Stops results sent.rest

theorem tcpSend_attempts (data : Bytes) (results : List SendResult) :
    Attempts data results (TcpSocket.send data results) := by
  unfold TcpSocket.send sendInternal
  have header := sendLoop_loopWrites (encodeLE 8 data.length).length (encodeLE 8 data.length) results
  generalize sendLoop (encodeLE 8 data.length).length (encodeLE 8 data.length) results = first at header
  have body := sendLoop_loopWrites data.length data first.rest
  dsimp only
  generalize sendLoop data.length data first.rest = second at body
  rcases header.outcome with ⟨written, eight⟩ | ⟨failed, stops⟩
  · rw [length_encodeLE] at eight
    rw [if_neg (by rw [eight]; decide), written]
    refine ⟨(prefix_append_right_inj _).mpr body.part, body.rest.trans header.rest, body.outcome.imp ?_ ?_⟩
    · rintro ⟨all, -⟩
      rw [all]
      rfl
    · rintro ⟨failed, stops⟩
      rw [failed]
      exact ⟨by simp, stops.mono header.rest⟩
  · rw [if_pos (by omega), if_pos failed]
    exact ⟨header.part.trans (prefix_append _ _), header.rest, .inr ⟨by simp, stops⟩⟩

def Whole (messages : List Bytes) (stream : Bytes) : Prop := ∃ payloads ⊆ messages, stream = frames payloads

def Framed (messages : List Bytes) (stream : Bytes) : Prop :=
  ∃ payloads ⊆ messages, ∃ part, stream = frames payloads ++ part ∧ (part = [] ∨ ∃ last ∈ messages, part <+: frame last)

theorem Whole.framed (whole : Whole messages stream) : Framed messages stream := by
  obtain ⟨payloads, sub, rfl⟩ := whole
  exact ⟨payloads, sub, [], (append_nil _).symm, .inl rfl⟩

theorem Whole.append (whole : Whole messages stream) (member : data ∈ messages) :
    Whole messages (stream ++ frame data) := by
  obtain ⟨payloads, sub, rfl⟩ := whole
  exact ⟨payloads ++ [data], append_subset.mpr ⟨sub, by simpa using member⟩, by simp⟩

theorem Whole.part {part : Bytes} (whole : Whole messages stream) (member : data ∈ messages)
    (initial : part <+: frame data) : Framed messages (stream ++ part) := by
  obtain ⟨payloads, sub, rfl⟩ := whole
  exact ⟨payloads, sub, part, rfl, .inr ⟨data, member, initial⟩⟩

structure KeptAlive (messages : List Bytes) (c : SendChannel) : Prop where
  long : c.longConnection = true
  earlier : ∀ stream ∈ c.earlier, Framed messages stream
  wire : Framed messages c.wire
  alive : c.longConnecting = true → Whole messages c.wire

theorem KeptAlive.connect (kept : KeptAlive messages c) :
    KeptAlive messages c.connect.2 ∧ Whole messages c.connect.2.wire := by
  have empty : Whole messages [] := ⟨[], nil_subset _, rfl⟩
  refine ⟨⟨kept.long, ?_, empty.framed, fun _ => empty⟩, empty⟩
  exact forall_mem_append.mpr ⟨kept.earlier, by simpa using kept.wire⟩

theorem KeptAlive.send (kept : KeptAlive messages c) (member : data ∈ messages) :
    KeptAlive messages (c.sendFromKeepAlive data turns).2 := by
  induction turns generalizing c with
  | zero => exact kept
  | succ turns ih =>
    unfold SendChannel.sendFromKeepAlive
    have ready : KeptAlive messages (if c.longConnecting then (0, c) else c.connect).2 ∧
        Whole messages (if c.longConnecting then (0, c) else c.connect).2.wire := by
      split_ifs with alive
      · exact ⟨kept, kept.alive alive⟩
      · exact kept.connect
    generalize (if c.longConnecting then (0, c) else c.connect) = opened at ready
    obtain ⟨kept, whole⟩ := ready
    dsimp only
    split_ifs with refused done
    · exact ih kept
    · have attempt := tcpSend_attempts data opened.2.results
      have written : (TcpSocket.send data opened.2.results).wire = frame data :=
        attempt.outcome.resolve_right fun failed => absurd failed.1 (Int.not_lt.mpr done)
      refine ⟨kept.long, kept.earlier, whole.part member attempt.part, fun _ => ?_⟩
      simp only [SendChannel.sendDataInternal, written]
      exact whole.append member
    · have attempt := tcpSend_attempts data opened.2.results
      exact ih ⟨kept.long, kept.earlier, whole.part member attempt.part, nofun⟩

structure Unfailing (messages : List Bytes) (c : SendChannel) : Prop where
  connected : c.connected = true ∧ c.longConnection = false
  earlier : c.earlier = []
  results : SendResult.error ∉ c.results
  wire : Whole messages c.wire ∨ Framed messages c.wire ∧ c.results = []

theorem Unfailing.attempt (steady : Unfailing messages c) (member : data ∈ messages) :
    Unfailing messages (c.sendDataInternal data).2 := by
  have attempt := tcpSend_attempts data c.results
  refine ⟨steady.connected, steady.earlier, fun error => steady.results (attempt.rest.subset error), ?_⟩
  unfold SendChannel.sendDataInternal
  rcases steady.wire with whole | ⟨framed, ended⟩
  · rcases attempt.outcome with written | ⟨-, stops⟩
    · refine .inl ?_
      dsimp only
      rw [written]
      exact whole.append member
    · exact .inr ⟨whole.part member attempt.part, stops.resolve_left steady.results⟩
  · have nothing : TcpSocket.send data [] = { ret := -1 } := rfl
    rw [ended, nothing]
    exact .inr ⟨by simpa using framed, rfl⟩

theorem Unfailing.send (steady : Unfailing messages c) (member : data ∈ messages) :
    Unfailing messages (c.sendRetrying data turns).2 := by
  induction turns generalizing c with
  | zero => exact steady
  | succ turns ih =>
    simp only [SendChannel.sendRetrying, steady.connected.1, if_true, ne_eq, not_true, if_false]
    split_ifs
    · exact steady.attempt member
    · exact ih (steady.attempt member)

theorem sends_framed (messages : List Bytes) (established : c.connected = true) (fresh : c.earlier = [] ∧ c.wire = [])
    (safe : c.longConnection = true ∨ SendResult.error ∉ c.results) :
    ∀ stream ∈ (c.sendAll messages).earlier ++ [(c.sendAll messages).wire], Framed messages stream := by
  have empty : Whole messages c.wire := ⟨[], nil_subset _, fresh.2⟩
  unfold SendChannel.sendAll
  cases long : c.longConnection with
  | true =>
    have kept : KeptAlive messages c := ⟨long, by simp [fresh.1], empty.framed, fun _ => empty⟩
    have all := List.foldlRecOn messages (fun c data => (c.send data).2) kept fun c kept data member => by
      simp only [SendChannel.send, kept.long, if_true]
      exact kept.send member
    exact forall_mem_append.mpr ⟨all.earlier, by simpa using all.wire⟩
  | false =>
    have steady : Unfailing messages c := ⟨⟨established, long⟩, fresh.1, safe.resolve_left (by simp [long]), .inl empty⟩
    have all := List.foldlRecOn messages (fun c data => (c.send data).2) steady fun c steady data member => by
      simp only [SendChannel.send, steady.connected.2]
      exact steady.send member
    rw [all.earlier]
    simpa using all.wire.elim Whole.framed And.left

def openChannel (long : Bool) (results : List SendResult) : SendChannel where
  connected := true
  longConnection := long
  results := results
  connects := [true, true]

theorem keptAlive_framed :
    ((openChannel true [.sent 3, .error, .sent 8, .sent 1]).sendAll [[7]]).earlier = [[], [1, 0, 0]] ∧
      Framed [[7]] [1, 0, 0] := by
  have framed := @sends_framed (openChannel true [.sent 3, .error, .sent 8, .sent 1]) [[7]] rfl ⟨rfl, rfl⟩ (.inl rfl)
  exact ⟨by decide, framed [1, 0, 0] (by decide)⟩

theorem retry_tears_frame :
    ((openChannel false [.sent 3, .error, .sent 8, .sent 1]).sendAll [[7]]).wire = [1, 0, 0] ++ frame [7] ∧
      ¬ Framed [[7]] ([1, 0, 0] ++ frame [7]) := by
  refine ⟨by decide, ?_⟩
  rintro ⟨payloads, sub, part, split, last⟩
  cases payloads with
  | nil =>
    rcases last with rfl | ⟨last, member, initial⟩
    · exact absurd split (by decide)
    · rw [mem_singleton.mp member] at initial
      have short := initial.length_le
      rw [frames_nil, nil_append] at split
      rw [← split] at short
      exact absurd short (by decide)
  | cons payload more =>
    obtain rfl := mem_singleton.mp (sub mem_cons_self)
    rw [frames_cons, append_assoc] at split
    exact absurd (congrArg (fun stream => stream[3]?) split) (by simp [frame, encodeLE])

end ResilientDB.Proof
