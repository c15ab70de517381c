import ResilientDB.Model.LogBytes

namespace ResilientDB.Proof
open Model Library List

variable {codec : LogCodec} {info : SystemInfoData} {entry : LogEntry} {entries : List LogEntry} {data : Bytes}
  {items : List Bytes} {fuel ckpt : Nat} {rest : Bytes} {before : List LogEntry}

def unitBody (codec : LogCodec) (entry : LogEntry) : Bytes :=
  frame (codec.serializeRequest entry.request) ++ frame (codec.serializeSignature entry.signature)

def unitBytes (codec : LogCodec) (entry : LogEntry) : Bytes := frame (unitBody codec entry)

def headerBytes (codec : LogCodec) (info : SystemInfoData) : Bytes := frame (frame (codec.serializeInfo info))

def fileBytes (codec : LogCodec) (info : SystemInfoData) (entries : List LogEntry) : Bytes :=
  headerBytes codec info ++ entries.flatMap (unitBytes codec)

theorem appendData_eq (buffer data : Bytes) : appendData buffer data = buffer ++ frame data := by
  simp [appendData, frame]

theorem flushBuffer_eq {file buffer : Bytes} (some : buffer.length ≠ 0) :
    flushBuffer file buffer = file ++ frame buffer := by
  simp [flushBuffer, some, frame]

theorem writeSystemInfo_eq (file : Bytes) : codec.writeSystemInfo file info = file ++ headerBytes codec info := by
  unfold LogCodec.writeSystemInfo headerBytes
  rw [appendData_eq, nil_append, flushBuffer_eq (by simp)]

theorem writeLog_eq (file : Bytes) (entry : LogEntry) : codec.writeLog file entry = file ++ unitBytes codec entry := by
  unfold LogCodec.writeLog unitBytes unitBody
  dsimp only
  rw [appendData_eq, appendData_eq, nil_append, flushBuffer_eq (by simp)]

theorem writeLogs_eq (file : Bytes) (entries : List LogEntry) :
    entries.foldl codec.writeLog file = file ++ entries.flatMap (unitBytes codec) := by
  induction entries generalizing file with
  | nil => simp
  | cons entry entries ih => rw [foldl_cons, ih, writeLog_eq, flatMap_cons, append_assoc]

theorem parseItems_frames {pos : Nat} (enough : (frames items).length ≤ fuel)
    (fits : pos + (frames items).length < 2 ^ 31) : parseItems fuel pos (frames items) = .ok items := by
  induction items generalizing fuel pos with
  | nil => cases fuel <;> rfl
  | cons item items ih =>
    rw [frames_cons, length_append, length_frame] at enough fits
    obtain ⟨fuel, rfl⟩ := Nat.exists_eq_add_one_of_ne_zero (n := fuel) (by omega)
    have some : frame item ++ frames items ≠ [] := by simp [← length_eq_zero_iff]
    have length : decodeLE (encodeLE 8 item.length) = item.length := decodeLE_encodeLE 8 _ (by omega)
    have later : parseItems fuel (pos + 8 + item.length) (frames items) = .ok items := ih (by omega) (by omega)
    rw [frames_cons, parseItems, if_neg some, frame, append_assoc, takeExact_length]
    simp only [length, drop_left, take_left]
    rw [if_neg (by omega), later]
    rfl

theorem parseRawData_frames (small : (frames items).length < 2 ^ 31) : parseRawData (frames items) = .ok items :=
  parseItems_frames le_rfl (by simpa using small)

theorem parseData_unit (small : (unitBody codec entry).length < 2 ^ 31) :
    codec.parseData (unitBody codec entry) = .ok [entry] := by
  have body : unitBody codec entry =
      frames [codec.serializeRequest entry.request, codec.serializeSignature entry.signature] := by
    simp [unitBody]
  rw [body] at small ⊢
  unfold LogCodec.parseData
  rw [parseRawData_frames small]
  simp [LogCodec.pairItems, codec.parse_request, codec.parse_signature, bind, Except.bind]

theorem readBuffers_unit (small : (unitBody codec entry).length < 2 ^ 31) :
    codec.readBuffers (fuel + 1) (unitBytes codec entry ++ rest) before =
      codec.readBuffers fuel rest (before ++ [entry]) := by
  rw [LogCodec.readBuffers, unitBytes, readFrame_frame (by omega)]
  simp [parseData_unit small, bind, Except.bind]

theorem readBuffers_torn {cut : Nat} (small : (unitBody codec entry).length < 2 ^ 31)
    (torn : cut < (unitBytes codec entry).length) :
    codec.readBuffers fuel ((unitBytes codec entry).take cut) before = .ok before := by
  cases fuel with
  | zero => rfl
  | succ fuel => rw [LogCodec.readBuffers, unitBytes, readFrame_torn (by omega) torn]

def completeUnits (codec : LogCodec) : Nat → List LogEntry → List LogEntry
  | _, [] => []
  | room, entry :: entries =>
    if (unitBytes codec entry).length ≤ room then
      entry :: completeUnits codec (room - (unitBytes codec entry).length) entries
    else []

theorem readBuffers_take (small : ∀ entry ∈ entries, (unitBody codec entry).length < 2 ^ 31) {room : Nat}
    (enough : ((entries.flatMap (unitBytes codec)).take room).length ≤ fuel) :
    codec.readBuffers fuel ((entries.flatMap (unitBytes codec)).take room) before =
      .ok (before ++ completeUnits codec room entries) := by
  induction entries generalizing fuel room before with
  | nil => cases fuel <;> simp [LogCodec.readBuffers, completeUnits, readFrame, takeExact]
  | cons entry entries ih =>
    have first := small entry mem_cons_self
    rw [flatMap_cons] at enough ⊢
    rw [completeUnits]
    by_cases whole : (unitBytes codec entry).length ≤ room
    · have split : (unitBytes codec entry ++ entries.flatMap (unitBytes codec)).take room = unitBytes codec entry ++
          (entries.flatMap (unitBytes codec)).take (room - (unitBytes codec entry).length) := by
        rw [take_append, take_of_length_le whole]
      rw [split] at enough ⊢
      have positive : 0 < (unitBytes codec entry).length := by
        rw [unitBytes, length_frame]
        omega
      rw [length_append] at enough
      obtain ⟨fuel, rfl⟩ := Nat.exists_eq_add_one_of_ne_zero (n := fuel) (by omega)
      have later := fun other member => small other (mem_cons_of_mem _ member)
      rw [readBuffers_unit first, ih later (by omega), if_pos whole, append_assoc]
      rfl
    · rw [take_append_of_le_length (by omega), readBuffers_torn first (by omega), if_neg whole, append_nil]

def typeNumber : RequestType → Nat × Int
  | .none => (0, 0)
  | .heartBeat => (1, 0)
  | .clientRequest => (2, 0)
  | .prePrepare => (3, 0)
  | .prepare => (4, 0)
  | .commit => (5, 0)
  | .clientCert => (6, 0)
  | .response => (7, 0)
  | .recoveryData => (8, 0)
  | .recoveryDataResp => (9, 0)
  | .checkpoint => (10, 0)
  | .query => (11, 0)
  | .replicaState => (12, 0)
  | .newTxns => (13, 0)
  | .geoRequest => (14, 0)
  | .viewchange => (15, 0)
  | .newview => (16, 0)
  | .customQuery => (17, 0)
  | .customConsensus => (18, 0)
  | .other code => (19, code)

def numberedTypes : List RequestType :=
  [.none, .heartBeat, .clientRequest, .prePrepare, .prepare, .commit, .clientCert, .response, .recoveryData,
    .recoveryDataResp, .checkpoint, .query, .replicaState, .newTxns, .geoRequest, .viewchange, .newview, .customQuery,
    .customConsensus]

def typeCode : PrefixCode RequestType :=
  (PrefixCode.nat.prod PrefixCode.int).along typeNumber (fun p => numberedTypes.getD p.1 (.other p.2)) fun type => by
    cases type <;> rfl

def signatureCode : PrefixCode SignatureInfo :=
  (PrefixCode.int.prod PrefixCode.string).along (fun s => (s.nodeId, s.signature)) (fun p => ⟨p.1, p.2⟩) fun _ => rfl

def infoCode : PrefixCode SystemInfoData :=
  (PrefixCode.int.prod PrefixCode.int).along (fun s => (s.view, s.primaryId)) (fun p => ⟨p.1, p.2⟩) fun _ => rfl

def requestCode : PrefixCode Request :=
  (typeCode.prod <| PrefixCode.string.prod <| PrefixCode.nat.prod <| PrefixCode.nat.prod <| PrefixCode.string.prod <|
    PrefixCode.int.prod <| PrefixCode.int.prod <| PrefixCode.int.prod <| signatureCode.option.prod <|
    signatureCode.list.prod <| PrefixCode.bool.prod PrefixCode.int).along
  (fun r => (r.type, r.data, r.currentView, r.seq, r.hash, r.senderId, r.proxyId, r.ret, r.dataSignature,
    r.committedCerts, r.isRecovery, r.primaryId))
  (fun (type, data, currentView, seq, hash, senderId, proxyId, ret, dataSignature, committedCerts, isRecovery,
    primaryId) => ⟨type, data, currentView, seq, hash, senderId, proxyId, ret, dataSignature, committedCerts,
    isRecovery, primaryId⟩) fun _ => rfl

def countedCodec : LogCodec where
  parseRequest := requestCode.parse
  serializeRequest := requestCode.encode
  parseSignature := signatureCode.parse
  serializeSignature := signatureCode.encode
  parseInfo := infoCode.parse
  serializeInfo := infoCode.encode
  parse_request := requestCode.parse_encode
  parse_signature := signatureCode.parse_encode
  parse_info := infoCode.parse_encode

def loggedRequest (seq : Nat) (data : String) : LogEntry :=
  { request := { type := .prePrepare, seq := seq, data := data } }

def calledBack (ckpt : Nat) (entries : List LogEntry) : List LogEntry :=
  (entries.filter fun entry => ckpt < entry.request.seq).map fun entry =>
    { entry with request := { entry.request with isRecovery := true } }

theorem readLogs_header (bound : ckpt < 2 ^ 63) (small : (frame (codec.serializeInfo info)).length < 2 ^ 31) :
    codec.readLogsFromFiles ckpt (headerBytes codec info ++ rest) = (do
      let entries ← codec.readBuffers rest.length rest []
      .ok { info := some info, entries := calledBack ckpt entries }) := by
  have single : frame (codec.serializeInfo info) = frames [codec.serializeInfo info] := by simp
  have unsigned : toUInt64 ckpt = ckpt := by
    unfold toUInt64
    omega
  unfold LogCodec.readLogsFromFiles
  rw [headerBytes, readFrame_frame (by omega)]
  rw [single] at small ⊢
  simp only [parseRawData_frames small, bind, Except.bind, head?_cons, Option.bind_some, codec.parse_info, unsigned]
  rfl

theorem completeUnits_take (codec : LogCodec) (room : Nat) (entries : List LogEntry) :
    ∃ k ≤ entries.length, completeUnits codec room entries = entries.take k ∧
      ∀ i ≤ entries.length, ((entries.take i).flatMap (unitBytes codec)).length ≤ room ↔ i ≤ k := by
  induction entries generalizing room with
  | nil => exact ⟨0, le_rfl, rfl, fun i bound => by simpa using bound⟩
  | cons entry entries ih =>
    rw [completeUnits]
    split_ifs with whole
    · obtain ⟨k, bound, same, exact⟩ := ih (room - (unitBytes codec entry).length)
      refine ⟨k + 1, by simpa using bound, by rw [same, take_succ_cons], fun i inside => ?_⟩
      cases i with
      | zero => simp
      | succ i =>
        rw [take_succ_cons, flatMap_cons, length_append, Nat.add_le_add_iff_right, ← exact i (by simpa using inside)]
        omega
    · refine ⟨0, Nat.zero_le _, rfl, fun i inside => ?_⟩
      cases i with
      | zero => simp
      | succ i =>
        rw [take_succ_cons, flatMap_cons, length_append]
        omega

theorem crash_tolerant (codec : LogCodec) (info : SystemInfoData) (entries : List LogEntry)
    (smallInfo : (frame (codec.serializeInfo info)).length < 2 ^ 31)
    (small : ∀ entry ∈ entries, (unitBody codec entry).length < 2 ^ 31) (cut : Nat)
    (whole : (codec.writeSystemInfo [] info).length ≤ cut) (ckpt : Nat) (bound : ckpt < 2 ^ 63) :
    ∃ k ≤ entries.length, (∀ i ≤ entries.length,
        ((entries.take i).foldl codec.writeLog (codec.writeSystemInfo [] info)).length ≤ cut ↔ i ≤ k) ∧
      codec.readLogsFromFiles ckpt ((entries.foldl codec.writeLog (codec.writeSystemInfo [] info)).take cut) =
        .ok { info := some info, entries := calledBack ckpt (entries.take k) } := by
  rw [writeSystemInfo_eq, nil_append] at whole ⊢
  obtain ⟨k, inside, same, exact⟩ := completeUnits_take codec (cut - (headerBytes codec info).length) entries
  refine ⟨k, inside, fun i bound => ?_, ?_⟩
  · rw [writeLogs_eq, length_append, ← exact i bound]
    omega
  · have split : (headerBytes codec info ++ entries.flatMap (unitBytes codec)).take cut = headerBytes codec info ++
        (entries.flatMap (unitBytes codec)).take (cut - (headerBytes codec info).length) := by
      rw [take_append, take_of_length_le whole]
    rw [writeLogs_eq, split, ← same, readLogs_header bound smallInfo, readBuffers_take small le_rfl, nil_append]
    rfl

def twoRequests : List LogEntry := [loggedRequest 1 "", loggedRequest 2 ""]

def twoLogged : Bytes := twoRequests.foldl countedCodec.writeLog (countedCodec.writeSystemInfo [] ⟨1, 1⟩)

theorem twoLogged_torn : countedCodec.readLogsFromFiles 0 (twoLogged.take 72) =
    .ok { info := some ⟨1, 1⟩, entries := calledBack 0 [loggedRequest 1 ""] } := by
  obtain ⟨k, inside, exact, read⟩ := crash_tolerant countedCodec ⟨1, 1⟩ twoRequests (by decide +kernel)
    (by decide +kernel) 72 (by decide +kernel) 0 (by decide)
  have first : 1 ≤ k := (exact 1 (by decide)).mp (by decide +kernel)
  have second : ¬ 2 ≤ k := (exact 2 (by decide)).not.mp (by decide +kernel)
  obtain rfl : k = 1 := by omega
  exact read

theorem completeUnits_all (codec : LogCodec) (entries : List LogEntry) :
    completeUnits codec (entries.flatMap (unitBytes codec)).length entries = entries := by
  obtain ⟨k, inside, same, exact⟩ := completeUnits_take codec (entries.flatMap (unitBytes codec)).length entries
  have all : entries.length ≤ k := (exact entries.length le_rfl).mp (by rw [take_length])
  rw [same, take_of_length_le all]

theorem readLogs_file (bound : ckpt < 2 ^ 63) (smallInfo : (frame (codec.serializeInfo info)).length < 2 ^ 31)
    (small : ∀ entry ∈ entries, (unitBody codec entry).length < 2 ^ 31) :
    codec.readLogsFromFiles ckpt (fileBytes codec info entries) =
      .ok { info := some info, entries := calledBack ckpt entries } := by
  have all : codec.readBuffers (entries.flatMap (unitBytes codec)).length
      ((entries.flatMap (unitBytes codec)).take (entries.flatMap (unitBytes codec)).length) [] = _ :=
    readBuffers_take small (by rw [take_length])
  rw [take_length, completeUnits_all, nil_append] at all
  rw [fileBytes, readLogs_header bound smallInfo, all]
  rfl

theorem readLogs_refines (bound : ckpt < 2 ^ 63) (file : LogFile) (header : file.info = some info)
    (smallInfo : (frame (codec.serializeInfo info)).length < 2 ^ 31)
    (small : ∀ entry ∈ file.entries, (unitBody codec entry).length < 2 ^ 31) :
    codec.readLogsFromFiles ckpt (fileBytes codec info file.entries) =
      .ok { info := file.info, entries := readLogsFromFiles ckpt file } := by
  have unsigned : toUInt64 ckpt = ckpt := by
    unfold toUInt64
    omega
  rw [readLogs_file bound smallInfo small, header, readLogsFromFiles, if_neg (by simp [header]), unsigned]
  rfl

theorem twoRequests_refined : countedCodec.readLogsFromFiles 1 (fileBytes countedCodec ⟨1, 1⟩ twoRequests) =
    .ok { info := some ⟨1, 1⟩, entries := calledBack 1 twoRequests } :=
  readLogs_refines (by decide) ⟨⟨1, -1, -1, 0⟩, some ⟨1, 1⟩, twoRequests⟩ rfl (by decide +kernel) (by decide +kernel)

theorem written_fileBytes (codec : LogCodec) (info : SystemInfoData) (entries : List LogEntry) :
    entries.foldl codec.writeLog (codec.writeSystemInfo [] info) = fileBytes codec info entries := by
  rw [writeSystemInfo_eq, writeLogs_eq, nil_append, fileBytes]

section Damaged
variable {damaged : Bytes}

theorem readBuffers_damaged (damage : ∀ list, codec.parseData damaged = .ok list → list = [])
    (small : ∀ entry ∈ entries, (unitBody codec entry).length < 2 ^ 31) (size : damaged.length < 2 ^ 31)
    (enough : (entries.flatMap (unitBytes codec) ++ (frame damaged ++ rest)).length ≤ fuel) {list : List LogEntry}
    (read : codec.readBuffers fuel (entries.flatMap (unitBytes codec) ++ (frame damaged ++ rest)) before = .ok list) :
    list = [] := by
  induction entries generalizing fuel before with
  | nil =>
    rw [flatMap_nil, nil_append] at enough read
    rw [length_append, length_frame] at enough
    obtain ⟨fuel, rfl⟩ := Nat.exists_eq_add_one_of_ne_zero (n := fuel) (by omega)
    rw [LogCodec.readBuffers, readFrame_frame (by omega)] at read
    obtain ⟨parsed, ok, read⟩ := bind_eq_ok.mp read
    rw [if_pos (damage parsed ok)] at read
    cases read
    rfl
  | cons entry entries ih =>
    rw [flatMap_cons, append_assoc] at enough read
    rw [length_append, unitBytes, length_frame] at enough
    obtain ⟨fuel, rfl⟩ := Nat.exists_eq_add_one_of_ne_zero (n := fuel) (by omega)
    rw [readBuffers_unit (small entry mem_cons_self)] at read
    exact ih (fun other member => small other (mem_cons_of_mem _ member)) (by omega) read

theorem damaged_unit_iff (codec : LogCodec) (info : SystemInfoData) (before after : List LogEntry) (entry : LogEntry)
    (smallInfo : (frame (codec.serializeInfo info)).length < 2 ^ 31)
    (small : ∀ e ∈ entry :: before, (unitBody codec e).length < 2 ^ 31) (ckpt : Nat) (bound : ckpt < 2 ^ 63)
    (damaged : Bytes) (same : damaged.length = (unitBody codec entry).length)
    (damage : ∀ list, codec.parseData damaged = .ok list → list = []) :
    (∀ e ∈ before, ckpt < e.request.seq → ∃ replayed,
      codec.readLogsFromFiles ckpt (fileBytes codec info before ++ encodeLE 8 (unitBody codec entry).length ++
        damaged ++ after.flatMap (unitBytes codec)) = .ok replayed ∧
      { e with request := { e.request with isRecovery := true } } ∈ replayed.entries) ↔
    ∀ e ∈ before, e.request.seq ≤ ckpt := by
  refine ⟨fun called e member => not_lt.mp fun above => ?_, fun low e member above => ?_⟩
  · obtain ⟨replayed, read, inside⟩ := called e member above
    rw [← same, fileBytes, append_assoc, append_assoc, append_assoc, ← append_assoc (encodeLE _ _), ← frame,
      readLogs_header bound smallInfo] at read
    obtain ⟨list, read, back⟩ := bind_eq_ok.mp read
    have smallBefore := fun e member => small e (mem_cons_of_mem _ member)
    obtain rfl := readBuffers_damaged damage smallBefore (same ▸ small entry mem_cons_self) le_rfl read
    cases back
    cases inside
  · exact absurd above (not_lt.mpr (low e member))

def damagedBody : Bytes := encodeLE 8 34 ++ replicate 34 255

theorem damagedBody_unread : ∀ list, countedCodec.parseData damagedBody = .ok list → list = [] := by
  rintro list read
  have nothing : countedCodec.parseData damagedBody = .ok [] := by decide +kernel
  rw [nothing] at read
  cases read
  rfl

theorem checkpointed_kept : damagedBody.length = (unitBody countedCodec (loggedRequest 2 "")).length ∧
    ∀ e ∈ [loggedRequest 1 ""], 1 < e.request.seq → ∃ replayed,
    countedCodec.readLogsFromFiles 1 (fileBytes countedCodec ⟨1, 1⟩ [loggedRequest 1 ""] ++
      encodeLE 8 (unitBody countedCodec (loggedRequest 2 "")).length ++ damagedBody ++
      [loggedRequest 3 ""].flatMap (unitBytes countedCodec)) = .ok replayed ∧
    { e with request := { e.request with isRecovery := true } } ∈ replayed.entries :=
  ⟨by decide +kernel, (damaged_unit_iff countedCodec ⟨1, 1⟩ [loggedRequest 1 ""] [loggedRequest 3 ""]
    (loggedRequest 2 "") (by decide +kernel) (by decide +kernel) 1 (by decide) damagedBody (by decide +kernel)
    damagedBody_unread).mpr (by decide)⟩

theorem first_request_lost : damagedBody.length = (unitBody countedCodec (loggedRequest 2 "")).length ∧
    countedCodec.parseData damagedBody = .ok [] ∧
    countedCodec.readLogsFromFiles 0 (fileBytes countedCodec ⟨1, 1⟩ [loggedRequest 1 "", loggedRequest 2 ""]) =
      .ok { info := some ⟨1, 1⟩, entries := calledBack 0 [loggedRequest 1 "", loggedRequest 2 ""] } ∧
    countedCodec.readLogsFromFiles 0 (fileBytes countedCodec ⟨1, 1⟩ [loggedRequest 1 ""] ++
      encodeLE 8 (unitBody countedCodec (loggedRequest 2 "")).length ++ damagedBody) =
      .ok { info := some ⟨1, 1⟩, entries := [] } := by
  decide +kernel

end Damaged

section Write
variable {file file' buffer : Bytes} {results first second : List Int} {len : Nat} {pos : Int}

def WriteResults : Nat → List Int → Prop
  | len, [] => len = 0
  | len, result :: results =>
    0 < len ∧ -1 ≤ result ∧ result ≤ len ∧ WriteResults (toUInt64 (len - toInt32 result)) results

theorem writeLoop_fits (ran : writeLoop data results len pos file = .ok (some file')) (size : data.length < 2 ^ 63)
    (low : -2 ^ 31 ≤ pos) (high : pos < 2 ^ 31) (left : len < 2 ^ 64)
    (same : (pos + len - data.length) % 2 ^ 64 = 0) : data.length < 2 ^ 31 := by
  induction results generalizing len pos file with
  | nil =>
    rw [writeLoop] at ran
    split_ifs at ran with done
    · omega
    · cases ran
  | cons result results ih =>
    rw [writeLoop] at ran
    dsimp only at ran
    split_ifs at ran with done
    · omega
    · have low : -2 ^ 31 ≤ toInt32 result := Int.le_bmod (x := result) (by decide)
      exact ih ran (by omega) (by omega) (by unfold toUInt64; omega) (by unfold toUInt64; omega)

theorem writeLoop_next {result : Int} (file : Bytes) (results : List Int) (some : 0 < len) (from0 : 0 ≤ pos)
    (same : pos + len = data.length) (small : data.length < 2 ^ 31) (low : -1 ≤ result) (high : result ≤ len) :
    writeLoop data (result :: results) len pos file = writeLoop data results (toUInt64 (len - toInt32 result))
      (pos + result) (file ++ (data.drop pos.toNat).take result.toNat) ∧
    ((toUInt64 (len - toInt32 result) : Nat) : Int) = len - result := by
  have narrow : toInt32 result = result := Int.bmod_eq_of_le (by omega) (by omega)
  have left : toUInt64 (len - result) = len - result := by
    unfold toUInt64
    omega
  rw [writeLoop, if_neg some.ne', if_neg (by omega)]
  dsimp only
  rw [narrow, if_neg (by omega)]
  exact ⟨rfl, left⟩

theorem writeLoop_length (ran : writeLoop data results len pos file = .ok (some file'))
    (small : data.length < 2 ^ 31) (answers : WriteResults len results) (same : pos + len = data.length) :
    file'.length = file.length + len + results.count (-1) := by
  induction results generalizing len pos file with
  | nil =>
    obtain rfl : len = 0 := answers
    cases ran
    rfl
  | cons result results ih =>
    obtain ⟨some, low, high, later⟩ := answers
    by_cases inside : 0 ≤ pos
    · obtain ⟨next, left⟩ := writeLoop_next file results some inside same small low high
      rw [next] at ran
      have length := ih ran later (by omega)
      rw [length, length_append, length_take, length_drop, count_cons]
      by_cases failed : result = -1
      · simp [failed] at left ⊢
        omega
      · simp [failed]
        omega
    · rw [writeLoop, if_neg some.ne', if_pos (.inl (by omega))] at ran
      cases ran

theorem writeLoop_whole (answers : WriteResults len results) (small : data.length < 2 ^ 31) (steady : -1 ∉ results)
    (inside : 0 ≤ pos) (same : pos + len = data.length) :
    writeLoop data results len pos file = .ok (some (file ++ data.drop pos.toNat)) := by
  induction results generalizing len pos file with
  | nil =>
    obtain rfl : len = 0 := answers
    rw [drop_of_length_le (by omega), append_nil]
    rfl
  | cons result results ih =>
    obtain ⟨some, low, high, later⟩ := answers
    obtain ⟨next, left⟩ := writeLoop_next file results some inside same small low high
    rw [mem_cons, not_or] at steady
    rw [next, ih later steady.2 (by omega) (by omega), append_assoc]
    have moved : (pos + result).toNat = pos.toNat + result.toNat := by omega
    rw [moved, ← drop_drop, take_append_drop]

theorem flush_writes_iff (size : buffer.length < 2 ^ 63) (something : buffer.length ≠ 0) (headed : WriteResults 8 first)
    (answered : WriteResults buffer.length second) :
    flush file buffer first second = .ok (some (flushBuffer file buffer)) ↔
      -1 ∉ first ∧ -1 ∉ second ∧ buffer.length < 2 ^ 31 := by
  have eight : (encodeLE 8 buffer.length).length = 8 := length_encodeLE _ _
  rw [flush, if_neg something, flushBuffer_eq something]
  constructor
  · intro ran
    obtain ⟨middle, head, body⟩ := bind_eq_ok.mp ran
    cases middle with
    | none => cases body
    | some middle =>
      have small := writeLoop_fits body size (by decide) (by decide) (by omega) (by simp)
      have headLength := writeLoop_length head (by omega) (eight.symm ▸ headed) (by simp)
      have bodyLength := writeLoop_length body small answered (by simp)
      rw [length_append, length_frame] at bodyLength
      exact ⟨count_eq_zero.mp (by omega), count_eq_zero.mp (by omega), small⟩
  · rintro ⟨calmHead, calmBody, small⟩
    have head : write file (encodeLE 8 buffer.length) first = .ok (some (file ++ encodeLE 8 buffer.length)) :=
      writeLoop_whole (eight.symm ▸ headed) (by omega) calmHead le_rfl (by simp)
    have body : write (file ++ encodeLE 8 buffer.length) buffer second =
        .ok (some (file ++ encodeLE 8 buffer.length ++ buffer)) :=
      writeLoop_whole answered small calmBody le_rfl (by simp)
    rw [head, frame, ← append_assoc]
    exact body

theorem shortCounts_written : flush [] [1, 2, 3] [8] [2, 0, 1] = .ok (some (flushBuffer [] [1, 2, 3])) :=
  (flush_writes_iff (by decide) (by decide) (by simp [WriteResults, toInt32, toUInt64])
    (by simp [WriteResults, toInt32, toUInt64])).mpr (by decide)

theorem failed_call_repeats : flush [] [1, 2, 3] [8] [2, -1, 2] = .ok (some (encodeLE 8 3 ++ [1, 2, 2, 3])) ∧
    flush [] [1, 2, 3] [8] [-1, 3] = .error .outOfRange := by
  decide +kernel

end Write

end ResilientDB.Proof
