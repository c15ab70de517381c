import ResilientDB.Proof.Restart
import ResilientDB.Proof.Recovery
import ResilientDB.Proof.Views

namespace ResilientDB.Proof
open Model Library List Option

variable {config : ResDBConfig} {time : Int} {trace past : List (Transition LoggedServer LoggedEvent)}
  {l l' opening : LoggedServer} {file : LogFile} {directory : List LogFile} {path : LogName} {seq : Nat}
  {renamed created : Int} {event : LoggedEvent} {s' : Server} {turn : ServerEvent} {logs : ReplayedLogs}

section Files

variable {s : Recovery} {entry : LogEntry} {info : SystemInfoData}

theorem mem_addRequest (member : file ∈ (s.addRequest entry).directory) : ∃ old ∈ s.directory,
    file.name = old.name ∧ file.info = old.info ∧ ∀ other ∈ file.entries, other ∈ old.entries ∨ other = entry := by
  unfold Recovery.addRequest at member
  split_ifs at member with isLogged
  · obtain ⟨old, inside, rfl⟩ := mem_map.mp member
    refine ⟨old, inside, ?_⟩
    split_ifs with current
    · exact ⟨rfl, rfl, fun other written => by simpa using written⟩
    · exact ⟨rfl, rfl, fun other => .inl⟩
  · exact ⟨file, member, rfl, rfl, fun other => .inl⟩

theorem mem_openFile (filled : ∀ old ∈ directory, old.info ≠ none) (member : file ∈ openFile directory path info) :
    file ∈ directory ∨ file = { name := path, info := some info } := by
  obtain ⟨old, inside, rfl⟩ := mem_map.mp member
  unfold createFile at inside
  split_ifs at inside with there
  · rw [if_neg fun empty => filled old inside empty.2]
    exact .inl inside
  · rcases mem_append.mp inside with before | new
    · rw [if_neg fun empty => filled old before empty.2]
      exact .inl before
    · rw [mem_singleton.mp new, if_pos ⟨rfl, rfl⟩]
      exact .inr rfl

theorem mem_renameFile {newPath : LogName} (member : file ∈ renameFile directory path newPath) :
    ∃ old ∈ directory, (file.name = old.name ∨ file.name = newPath) ∧ file.info = old.info ∧
      file.entries = old.entries := by
  unfold renameFile at member
  split_ifs at member with same
  · exact ⟨file, member, .inl rfl, rfl, rfl⟩
  · obtain ⟨old, inside, rfl⟩ := mem_map.mp member
    refine ⟨old, mem_of_mem_filter inside, ?_⟩
    split_ifs with current
    · exact ⟨.inr rfl, rfl, rfl⟩
    · exact ⟨.inl rfl, rfl, rfl⟩

theorem mem_finishFile (filled : ∀ old ∈ s.directory, old.info ≠ none)
    (member : file ∈ (s.finishFile seq true renamed created info).directory) :
    (∃ old ∈ s.directory, (file.name = old.name ∨ file.name.ckpt = seq) ∧ file.info = old.info ∧
      file.entries = old.entries) ∨
    file = { name := generateFile created seq (-1) (-1), info := some info } := by
  have still : ∀ old ∈ renameFile s.directory s.filePath (generateFile renamed seq s.minSeq s.maxSeq),
      old.info ≠ none := by
    intro old inside
    obtain ⟨first, there, -, same, -⟩ := mem_renameFile inside
    exact same ▸ filled first there
  rcases mem_openFile still member with old | new
  · obtain ⟨first, there, name, same, entries⟩ := mem_renameFile old
    exact .inl ⟨first, there, name.imp_right fun named => by rw [named]; rfl, same, entries⟩
  · exact .inr new

theorem exists_mem_openFile (directory : List LogFile) (path : LogName) (info : SystemInfoData) :
    ∃ file ∈ openFile directory path info, file.name = path := by
  have there : ∃ file ∈ createFile directory path, file.name = path := by
    unfold createFile
    split_ifs with there
    · simpa using there
    · exact ⟨{ name := path }, by simp, rfl⟩
  obtain ⟨file, inside, named⟩ := there
  refine ⟨_, mem_map_of_mem inside, ?_⟩
  split_ifs
  · exact named
  · exact named

end Files

theorem sortByTime_head {names : List LogName} {name : LogName} (member : name ∈ names) :
    ∃ first rest, sortByTime names = first :: rest := by
  have sorted := (sortByTime_perm names).symm.subset member
  cases same : sortByTime names with
  | nil =>
    rw [same] at sorted
    cases sorted
  | cons first rest => exact ⟨first, rest, rfl⟩

theorem readLogs_first {s : Recovery} {listing : List LogName} (active : ∃ file ∈ s.directory, file.name.minSeq = -1)
    (perm : listing.Perm (s.directory.map fun file => file.name)) :
    ∃ logs, s.readLogs listing = some logs ∧ (∃ file ∈ s.directory, logs.info = file.info) ∧
      ∀ entry ∈ logs.entries, ∃ file ∈ s.directory, entry ∈ readLogsFromFiles (lastCkpt listing) file := by
  obtain ⟨file, inside, isActive⟩ := active
  have listed : file.name ∈ listing.filter fun name => decide (name.minSeq = -1) :=
    mem_filter.mpr ⟨perm.symm.subset (mem_map_of_mem inside), decide_eq_true isActive⟩
  obtain ⟨first, rest, sorted⟩ := sortByTime_head listed
  obtain ⟨newest, last⟩ : ∃ newest, (sortByTime (listing.filter fun name => decide (name.minSeq = -1))).getLast? =
      some newest := ⟨_, by rw [sorted, getLast?_cons]⟩
  have newestListed : newest ∈ listing := mem_of_mem_filter ((sortByTime_perm _).subset (mem_of_getLast? last))
  let list := listing.filter fun name =>
    decide (name.minSeq ≠ -1 ∧ name.minSeq ≤ lastCkpt listing ∧ name.maxSeq ≥ lastCkpt listing)
  have chosenListed : ∀ name ∈ sortByTime (list ++ [newest]), name ∈ listing := by
    intro name member
    rcases mem_append.mp ((sortByTime_perm _).subset member) with finished | active
    · exact mem_of_mem_filter finished
    · exact mem_singleton.mp active ▸ newestListed
  obtain ⟨head, tail, chosen⟩ := sortByTime_head (mem_append_right list (mem_singleton_self newest))
  have headListed := chosenListed head (chosen ▸ mem_cons_self)
  obtain ⟨opened, there, named⟩ := mem_map.mp (perm.subset headListed)
  have found : opened ∈ s.directory.filter fun file => decide (file.name = head) :=
    mem_filter.mpr ⟨there, decide_eq_true named⟩
  unfold Recovery.readLogs getRecoveryFiles
  dsimp only
  rw [last]
  refine ⟨_, rfl, ?_, ?_⟩
  · dsimp only
    rw [chosen, flatMap_cons]
    cases files : s.directory.filter fun file => decide (file.name = head) with
    | nil =>
      rw [files] at found
      cases found
    | cons first others =>
      have inDirectory : first ∈ s.directory := mem_of_mem_filter (files ▸ mem_cons_self)
      exact ⟨first, inDirectory, rfl⟩
  · intro entry member
    obtain ⟨file, read, replayed⟩ := mem_flatMap.mp member
    obtain ⟨name, -, kept⟩ := mem_flatMap.mp read
    exact ⟨file, mem_of_mem_filter kept, replayed⟩

theorem logged_step (step : (loggedServer config time).step l event l') :
    (∃ turn, event = .server turn ∧ (server config).step l.server turn l'.server ∧ l'.recovery = l.addReceived turn) ∨
    ∃ seq stored renamed created, event = .finishFile seq stored renamed created ∧
      l' = { l with recovery := l.recovery.finishFile seq stored renamed created l.header } := by
  change l.act event = .ok (some l') at step
  cases event with
  | server turn =>
    simp only [LoggedServer.act] at step
    obtain ⟨moved, reacts, step⟩ := bind_eq_ok.mp step
    simp only [Except.ok.injEq, map_eq_some_iff] at step
    obtain ⟨server, rfl, rfl⟩ := step
    exact .inl ⟨turn, rfl, reacts, rfl⟩
  | finishFile seq stored renamed created =>
    cases step
    exact .inr ⟨seq, stored, renamed, created, rfl, rfl⟩

theorem logged_server_run (run : (loggedServer config time).Run trace l) :
    ∃ turns, (server config).Run turns l.server := by
  induction run with
  | initial first => exact ⟨[], .initial first.1⟩
  | next earlier step ih =>
    obtain ⟨turns, ran⟩ := ih
    rcases logged_step step with ⟨turn, -, moved, -⟩ | ⟨seq, stored, renamed, created, -, rfl⟩
    · exact ⟨_, ran.next moved⟩
    · exact ⟨turns, ran⟩

theorem server_step_since {s : Server} (step : (server config).step s turn s') : ∃ since, s'.calls = s.calls ++ since ∧
      ((∀ call ∈ since, ¬ AcceptsView call) → s'.replica.systemInfo = s.replica.systemInfo) := by
  rcases server_step step with ⟨envs, buff, progress, ret, -, ran, rfl⟩ | ⟨r, moved, rfl⟩
  · refine ⟨progress.calls, rfl, fun refused => ?_⟩
    have shuffled (r' : Replica) (_ : List Call) (pending complained : List (Context × Request)) (started : Bool)
        (same : r'.systemInfo = s.replica.systemInfo) :
        (shuffle r' pending complained started).systemInfo = s.replica.systemInfo := same
    have called (_ : List Call) (call : Call) (same : call.before.systemInfo = s.replica.systemInfo) (ran : Ran call)
        (member : call ∈ progress.calls) :
        call.outcome.replica.systemInfo = s.replica.systemInfo := by
      rcases call_systemInfo ran with ⟨-, kept⟩ | ⟨accepts, -⟩
      · exact kept.trans same
      · exact absurd accepts (refused call member)
    exact @walk_invariant _ _ _ (process_walk ran) _ [] shuffled called rfl
  · exact ⟨[], (append_nil _).symm, fun _ => moved.threaded.systemInfo⟩

theorem server_step_received {s : Server} (step : (server config).step s turn s') :
    s.received ⊆ s'.received ∧ ∀ envs buff receipt, turn = .process envs buff →
      receive (envs 0) buff = some receipt → receipt ∈ s'.received := by
  rcases server_step step with ⟨envs, buff, progress, ret, rfl, -, rfl⟩ | ⟨r, moved, rfl⟩
  · refine ⟨subset_append_left _ _, ?_⟩
    rintro _ _ receipt same passed
    cases same
    rw [passed]
    simp
  · refine ⟨fun _ => id, ?_⟩
    rintro envs buff receipt rfl
    cases moved

structure OpensFile (config : ResDBConfig) (time : Int) (trace : List (Transition LoggedServer LoggedEvent))
    (l opening : LoggedServer) (since : List Call) : Prop where
  moment : ∃ past, (loggedServer config time).Run past opening ∧ (past = [] ∨ ∃ seq renamed created after,
    ⟨opening, .finishFile seq true renamed created, after⟩ :: past <:+ trace)
  calls : l.server.calls = opening.server.calls ++ since

structure HoldsRun (config : ResDBConfig) (time : Int) (trace : List (Transition LoggedServer LoggedEvent))
    (l : LoggedServer) (file : LogFile) : Prop where
  ckpt : 0 ≤ file.name.ckpt
  header : ∃ opening since, OpensFile config time trace l opening since ∧ file.info = some opening.header ∧
    ((∀ call ∈ since, ¬ AcceptsView call) → l.server.replica.systemInfo = opening.server.replica.systemInfo)
  entries : ∀ entry ∈ file.entries, ∃ receipt ∈ l.server.received, receipt.request = entry.request

theorem HoldsRun.filled (holds : HoldsRun config time trace l file) : file.info ≠ none := by
  obtain ⟨opening, since, -, written, -⟩ := holds.header
  rw [written]
  exact some_ne_none _

structure Continues (l l' : LoggedServer) : Prop where
  calls : ∃ since, l'.server.calls = l.server.calls ++ since ∧
    ((∀ call ∈ since, ¬ AcceptsView call) → l'.server.replica.systemInfo = l.server.replica.systemInfo)
  received : l.server.received ⊆ l'.server.received

theorem HoldsRun.later {old : LogFile} (holds : HoldsRun config time trace l old)
    (continues : Continues l l') (ckpt : 0 ≤ file.name.ckpt) (info : file.info = old.info)
    (entries : ∀ entry ∈ file.entries, entry ∈ old.entries ∨
      ∃ receipt ∈ l'.server.received, receipt.request = entry.request) :
    HoldsRun config time (⟨l, event, l'⟩ :: trace) l' file := by
  obtain ⟨opening, since, opens, written, steady⟩ := holds.header
  obtain ⟨more, made, kept⟩ := continues.calls
  refine ⟨ckpt, ⟨opening, since ++ more, ⟨?_, ?_⟩, info.trans written, fun refused => ?_⟩, fun entry member => ?_⟩
  · obtain ⟨past, ran, first | ⟨seq, renamed, created, after, suffix⟩⟩ := opens.moment
    · exact ⟨past, ran, .inl first⟩
    · exact ⟨past, ran, .inr ⟨seq, renamed, created, after, suffix.trans (suffix_cons _ _)⟩⟩
  · rw [made, opens.calls, append_assoc]
  · obtain ⟨before, after⟩ := forall_mem_append.mp refused
    exact (kept after).trans (steady before)
  · rcases entries entry member with before | new
    · obtain ⟨receipt, there, same⟩ := holds.entries entry before
      exact ⟨receipt, continues.received there, same⟩
    · exact new

structure LogOfRun (config : ResDBConfig) (time : Int) (trace : List (Transition LoggedServer LoggedEvent))
    (l : LoggedServer) : Prop where
  files : ∀ file ∈ l.recovery.directory, HoldsRun config time trace l file
  active : ∃ file ∈ l.recovery.directory, file.name.minSeq = -1

theorem logOfRun_initial (first : (loggedServer config time).initial l) : LogOfRun config time [] l := by
  have started : l.recovery.directory = [{ name := generateFile time 0 (-1) (-1), info := some l.header }] := by
    rw [first.2]
    exact (Written.start time l.header).directory
  have opens : OpensFile config time [] l l [] := ⟨⟨[], .initial first, .inl rfl⟩, (append_nil _).symm⟩
  constructor
  · rw [started]
    exact forall_mem_singleton.mpr ⟨le_rfl, ⟨l, [], opens, rfl, fun _ => rfl⟩, by simp⟩
  · rw [started]
    exact ⟨_, mem_singleton_self _, rfl⟩

theorem addReceived_cases (l : LoggedServer) (turn : ServerEvent) : l.addReceived turn = l.recovery ∨
    ∃ envs buff receipt, turn = .process envs buff ∧ receive (envs 0) buff = some receipt ∧
      l.addReceived turn = l.recovery.addRequest receipt.logEntry := by
  cases turn with
  | process envs buff =>
    cases passed : receive (envs 0) buff with
    | none =>
      left
      unfold LoggedServer.addReceived
      dsimp only
      rw [passed, elim_none]
    | some receipt =>
      refine .inr ⟨envs, buff, receipt, rfl, passed, ?_⟩
      unfold LoggedServer.addReceived
      dsimp only
      rw [passed, elim_some]
  | _ => exact .inl rfl

theorem LogOfRun.unlogged (holds : LogOfRun config time trace l) (continues : Continues l l')
    (same : l'.recovery = l.recovery) : LogOfRun config time (⟨l, event, l'⟩ :: trace) l' := by
  constructor
  · rw [same]
    intro file inside
    have held := holds.files file inside
    exact held.later continues held.ckpt rfl fun _ => .inl
  · rw [same]
    exact holds.active

theorem LogOfRun.turned (holds : LogOfRun config time trace l)
    (moved : (server config).step l.server turn l'.server) (logs : l'.recovery = l.addReceived turn) :
    LogOfRun config time (⟨l, event, l'⟩ :: trace) l' := by
  obtain ⟨grows, arrived⟩ := server_step_received moved
  have continues : Continues l l' := ⟨server_step_since moved, grows⟩
  rcases addReceived_cases l turn with same | ⟨envs, buff, receipt, isProcess, passed, added⟩
  · exact holds.unlogged continues (logs.trans same)
  · rw [added] at logs
    constructor
    · rw [logs]
      intro file member
      obtain ⟨old, inside, name, info, entries⟩ := mem_addRequest member
      have held := holds.files old inside
      refine held.later continues (name ▸ held.ckpt) info fun entry there => (entries entry there).imp_right ?_
      rintro rfl
      exact ⟨receipt, arrived envs buff receipt isProcess passed, rfl⟩
    · rw [logs]
      obtain ⟨old, inside, isActive⟩ := holds.active
      unfold Recovery.addRequest
      split_ifs
      · refine ⟨_, mem_map_of_mem inside, ?_⟩
        split_ifs <;> exact isActive
      · exact ⟨old, inside, isActive⟩

theorem LogOfRun.finished {stored : Bool}
    (run : (loggedServer config time).Run trace l) (holds : LogOfRun config time trace l)
    (next : l' = { l with recovery := l.recovery.finishFile seq stored renamed created l.header }) :
    LogOfRun config time (⟨l, .finishFile seq stored renamed created, l'⟩ :: trace) l' := by
  have server : l'.server = l.server := by rw [next]
  have logs : l'.recovery = l.recovery.finishFile seq stored renamed created l.header := by rw [next]
  have continues : Continues l l' := by
    constructor
    · rw [server]
      exact ⟨[], (append_nil _).symm, fun _ => rfl⟩
    · rw [server]
      exact fun _ => id
  cases stored with
  | false => exact holds.unlogged continues logs
  | true =>
    constructor
    · rw [logs]
      intro file member
      rcases mem_finishFile (fun old inside => (holds.files old inside).filled) member with
        ⟨old, inside, name, info, entries⟩ | rfl
      · have held := holds.files old inside
        refine held.later continues ?_ info fun entry there => .inl (entries ▸ there)
        rcases name with same | finished
        · exact same ▸ held.ckpt
        · exact finished ▸ Int.natCast_nonneg seq
      · have opens : OpensFile config time (⟨l, .finishFile seq true renamed created, l'⟩ :: trace) l' l [] := by
          refine ⟨⟨trace, run, .inr ⟨seq, renamed, created, l', suffix_rfl⟩⟩, ?_⟩
          rw [server, append_nil]
        refine ⟨Int.natCast_nonneg seq, ⟨l, [], opens, rfl, fun _ => ?_⟩, by simp⟩
        rw [server]
    · rw [logs]
      obtain ⟨file, inside, named⟩ := exists_mem_openFile _ _ _
      exact ⟨file, inside, by rw [named]; rfl⟩

theorem logOfRun_run (run : (loggedServer config time).Run trace l) : LogOfRun config time trace l := by
  induction run with
  | initial first => exact logOfRun_initial first
  | next earlier step ih =>
    rcases logged_step step with ⟨turn, -, moved, logs⟩ | ⟨seq, stored, renamed, created, rfl, next⟩
    · exact ih.turned moved logs
    · exact ih.finished earlier next

structure FitsHeader (info : SystemInfo) : Prop where
  view : info.view < 2 ^ 31
  primary : info.primaryId < 2 ^ 32

theorem toUInt32_lt (value : Int) : toUInt32 value < 2 ^ 32 := by
  unfold toUInt32
  omega

theorem toUInt64_toInt32 {view : Nat} (small : view < 2 ^ 31) : toUInt64 (toInt32 view) = view := by
  unfold toUInt64 toInt32
  rw [Int.bmod_eq_of_le (by omega) (by omega)]
  omega

theorem toUInt32_toInt32 {id : Nat} (small : id < 2 ^ 32) : toUInt32 (toInt32 id) = id := by
  unfold toUInt32 toInt32
  have same : Int.bmod id (2 ^ 32) % (2 ^ 32 : Nat) = (id : Int) % (2 ^ 32 : Nat) := Int.bmod_emod
  omega

theorem restore_systemInfo {info : SystemInfo} (fits : FitsHeader info)
    (written : logs.info = some (systemInfoData info)) (r : Replica) : (logs.restore r).systemInfo = info := by
  unfold ReplayedLogs.restore
  rw [written]
  dsimp only [systemInfoData]
  rw [toUInt64_toInt32 fits.view, toUInt32_toInt32 fits.primary]

theorem fitsHeader_run {turns : List (Transition Server ServerEvent)} {s : Server} (run : (server config).Run turns s)
    (small : ∀ call ∈ s.calls, call.outcome.replica.getCurrentView < 2 ^ 31) : FitsHeader s.replica.systemInfo := by
  refine server_invariant run (fun r _ => FitsHeader r.systemInfo) ?_ ?_ ?_ ?_
  · exact fun _ _ _ => ⟨show 1 < 2 ^ 31 by decide, toUInt32_lt _⟩
  · exact fun _ _ _ _ _ fits => fits
  · intro _ call fits ran member
    refine ⟨small call member, ?_⟩
    rcases call_systemInfo ran with ⟨-, same⟩ | ⟨-, -, inStep⟩
    · exact same ▸ fits.primary
    · rw [inStep]
      exact toUInt32_lt _
  · exact fun _ _ _ fits moved _ => moved.threaded.systemInfo ▸ fits

theorem replayed_numbered {ckpt : Int} {entry : LogEntry} (member : entry ∈ readLogsFromFiles ckpt file) :
    ∃ old ∈ file.entries, entry.request.type = old.request.type ∧ old.request.seq ≠ 0 := by
  unfold readLogsFromFiles at member
  split_ifs at member with empty
  · cases member
  · obtain ⟨old, kept, rfl⟩ := mem_map.mp member
    obtain ⟨inside, above⟩ := mem_filter.mp kept
    have positive := of_decide_eq_true above
    exact ⟨old, inside, rfl, by omega⟩

theorem restarting_systemInfo {replayed : List (Transition Restart RestartEvent)} {s : Restart}
    (run : (restarting config logs).Run replayed s)
    (plain : ∀ entry ∈ logs.entries, entry.request.type ≠ .newview) :
    s.rest ⊆ logs.entries ∧ s.replica.systemInfo = (logs.restore (Replica.create config)).systemInfo := by
  refine run.invariant (fun _ => True) (fun s => s.rest ⊆ logs.entries ∧
    s.replica.systemInfo = (logs.restore (Replica.create config)).systemInfo) ?_ ?_ (fun _ _ => trivial)
  · rintro s ⟨outOfOrder, needResponse, rfl⟩
    refine ⟨fun _ => id, ?_⟩
    unfold ReplayedLogs.restore
    cases logs.info with
    | none => rfl
    | some info => rfl
  · rintro s event s' ⟨inside, same⟩ step -
    rcases restart_step step with ⟨env, entry, outcome, -, next, -, ran, after⟩ | ⟨thread, -, -, moved, rest, -⟩
    · rw [next] at inside
      have other := plain entry (inside mem_cons_self)
      refine ⟨fun later member => inside (mem_cons_of_mem _ member), ?_⟩
      rw [after]
      exact (handling_systemInfo (commit_handling ran) other).trans same
    · exact ⟨rest ▸ inside, moved.threaded.systemInfo.trans same⟩

theorem view_restored_iff (run : (loggedServer config time).Run trace l)
    (unnumbered : ∀ receipt ∈ l.server.received, receipt.request.type = .newview → receipt.request.seq = 0)
    (small : ∀ call ∈ l.server.calls, call.outcome.replica.getCurrentView < 2 ^ 31)
    (time' : Int) {listing listing' : List LogName}
    (listed : listing.Perm (l.recovery.directory.map fun file => file.name))
    (listedAgain : listing'.Perm (l.recovery.directory.map fun file => file.name)) :
    ∃ logs opening since, l.readAgain config time' listing listing' = some logs ∧
      OpensFile config time trace l opening since ∧ logs.info = some opening.header ∧
      ∀ replayed s, (restarting config logs).Run replayed s → s.rest = [] →
        (s.replica.systemInfo = l.server.replica.systemInfo ↔ logs.info = some l.header) ∧
        ((∀ call ∈ since, ¬ AcceptsView call) → s.replica.systemInfo = l.server.replica.systemInfo) := by
  have holds := logOfRun_run run
  have filled : ∀ file ∈ l.recovery.directory, file.info ≠ none := fun file inside => (holds.files file inside).filled
  have kept : (Recovery.init l.recovery.directory listing time'
      (systemInfoData (Replica.create config).systemInfo)).directory = l.recovery.directory :=
    init_directory (fun file inside => (holds.files file inside).ckpt) holds.active filled listed
  obtain ⟨logs, read, ⟨file, inside, first⟩, entries⟩ := readLogs_first (kept.symm ▸ holds.active)
    (kept.symm ▸ listedAgain)
  rw [kept] at inside entries
  obtain ⟨opening, since, opens, written, steady⟩ := (holds.files file inside).header
  have plain : ∀ entry ∈ logs.entries, entry.request.type ≠ .newview := by
    intro entry member isNewView
    obtain ⟨file, there, replayed⟩ := entries entry member
    obtain ⟨old, logged, type, numbered⟩ := replayed_numbered replayed
    obtain ⟨receipt, received, same⟩ := (holds.files file there).entries old logged
    rw [type, ← same] at isNewView
    exact numbered (same ▸ unnumbered receipt received isNewView)
  obtain ⟨past, openingRun, -⟩ := opens.moment
  obtain ⟨turns, ran⟩ := logged_server_run openingRun
  obtain ⟨turns', ran'⟩ := logged_server_run run
  have fits : FitsHeader opening.server.replica.systemInfo := by
    refine fitsHeader_run ran fun call member => small call ?_
    rw [opens.calls]
    exact mem_append_left _ member
  have info : logs.info = some opening.header := first.trans written
  refine ⟨logs, opening, since, read, opens, info, fun replayed s restarts _ => ?_⟩
  have taken : s.replica.systemInfo = opening.server.replica.systemInfo :=
    (restarting_systemInfo restarts plain).2.trans (restore_systemInfo fits info _)
  refine ⟨⟨fun same => ?_, fun same => ?_⟩, fun refused => taken.trans (steady refused).symm⟩
  · rw [info]
    unfold LoggedServer.header
    rw [← same, taken]
  · exact (restarting_systemInfo restarts plain).2.trans (restore_systemInfo (fitsHeader_run ran' small) same _)

theorem loggedServerAct_sound (config : ResDBConfig) (time : Int) (l : LoggedServer) (event : LoggedEvent)
    (l' : LoggedServer) (moved : loggedServerAct l event = some l') :
    (loggedServer config time).step l event l' := by
  unfold loggedServerAct at moved
  split at moved
  · rename_i next acted
    rw [moved] at acted
    exact acted
  · cases moved

def startLogged (config : ResDBConfig) (time : Int) : LoggedServer where
  server := { replica := Replica.create config }
  recovery := .init [] [] time (systemInfoData (Replica.create config).systemInfo)

theorem startLogged_initial (config : ResDBConfig) (time : Int) :
    (loggedServer config time).initial (startLogged config time) := ⟨startServer_initial config, rfl⟩

theorem exists_restart (config : ResDBConfig) (read : logs.entries = []) :
    ∃ s, (restarting config logs).Run [] s ∧ s.rest = [] := ⟨_, .initial ⟨false, true, rfl⟩, read⟩

def viewTwoLogged : List LoggedEvent := (threeViewChanges 2 ++ [newViewFor (nextNewView 2) 2]).map .server

theorem finishedView_restored : ∃ trace l logs, (loggedServer (viewConfig 4) 10).Run trace l ∧
    l.readAgain (viewConfig 4) 30 (listingOf l.recovery) (listingOf l.recovery) = some logs ∧
    (∃ s, (restarting (viewConfig 4) logs).Run [] s ∧ s.rest = []) ∧
    ∀ replayed s, (restarting (viewConfig 4) logs).Run replayed s → s.rest = [] →
      s.replica.systemInfo = { primaryId := 2, view := 2 } := by
  obtain ⟨trace, l, run, pair, read, unnumbered, small⟩ := System.run_of_play
    (loggedServerAct_sound (viewConfig 4) 10) (startLogged_initial (viewConfig 4) 10)
    (viewTwoLogged ++ [.finishFile 5 true 20 21])
    (fun _ l => l.server.replica.systemInfo = { primaryId := 2, view := 2 } ∧
      l.readAgain (viewConfig 4) 30 (listingOf l.recovery) (listingOf l.recovery) = some ⟨some l.header, []⟩ ∧
      (∀ receipt ∈ l.server.received, receipt.request.type = .newview → receipt.request.seq = 0) ∧
      ∀ call ∈ l.server.calls, call.outcome.replica.getCurrentView < 2 ^ 31) (by decide +kernel)
  obtain ⟨logs, opening, since, again, -, -, restored⟩ := view_restored_iff run unnumbered small 30 (.refl _) (.refl _)
  have same : some logs = some ⟨some l.header, []⟩ := again.symm.trans read
  cases same
  refine ⟨trace, l, _, run, read, exists_restart _ rfl, fun replayed s restarts done => ?_⟩
  exact ((restored replayed s restarts done).1.mpr rfl).trans pair

theorem view_lost : ∃ trace l logs, (loggedServer (viewConfig 4) 10).Run trace l ∧
    l.server.replica.systemInfo = { primaryId := 2, view := 2 } ∧
    l.readAgain (viewConfig 4) 30 (listingOf l.recovery) (listingOf l.recovery) = some logs ∧
    (∃ s, (restarting (viewConfig 4) logs).Run [] s ∧ s.rest = []) ∧
    ∀ replayed s, (restarting (viewConfig 4) logs).Run replayed s → s.rest = [] →
      s.replica.systemInfo = { primaryId := 1, view := 1 } := by
  obtain ⟨trace, l, run, pair, read⟩ := System.run_of_play (loggedServerAct_sound (viewConfig 4) 10)
    (startLogged_initial (viewConfig 4) 10) viewTwoLogged
    (fun _ l => l.server.replica.systemInfo = { primaryId := 2, view := 2 } ∧
      l.readAgain (viewConfig 4) 30 (listingOf l.recovery) (listingOf l.recovery) = some ⟨some ⟨1, 1⟩, []⟩)
    (by decide +kernel)
  refine ⟨trace, l, _, run, pair, read, exists_restart _ rfl, fun replayed s restarts _ => ?_⟩
  exact (restarting_systemInfo restarts (by simp)).2

end ResilientDB.Proof
