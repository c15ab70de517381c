import ResilientDB.Library.Selection
import ResilientDB.Model.Recovery
import Mathlib.Data.List.Induction

namespace ResilientDB.Proof
open Model Library List

variable {listing names : List LogName} {directory : List LogFile} {name : LogName} {file : LogFile} {ckpt : Int}
  {newest : LogName} {info : SystemInfoData} {time' : Int} {c : Nat}

theorem lastCkpt_le {bound : Int} : lastCkpt listing ≤ bound ↔ 0 ≤ bound ∧ ∀ name ∈ listing, name.ckpt ≤ bound := by
  have general : ∀ first, listing.foldl (fun last (name : LogName) => if name.ckpt > last then name.ckpt else last)
      first ≤ bound ↔ first ≤ bound ∧ ∀ name ∈ listing, name.ckpt ≤ bound := by
    induction listing with
    | nil => simp
    | cons name rest ih =>
      intro first
      rw [foldl_cons, ih, forall_mem_cons]
      split_ifs with more
      · constructor
        · exact fun ⟨top, others⟩ => ⟨more.le.trans top, top, others⟩
        · exact fun ⟨_, top, others⟩ => ⟨top, others⟩
      · constructor
        · exact fun ⟨low, others⟩ => ⟨low, (not_lt.mp more).trans low, others⟩
        · exact fun ⟨low, _, others⟩ => ⟨low, others⟩
  exact general 0

theorem lastCkpt_perm (perm : listing.Perm names) : lastCkpt listing = lastCkpt names := by
  apply le_antisymm
  · have bound := lastCkpt_le.mp (le_refl (lastCkpt names))
    exact lastCkpt_le.mpr ⟨bound.1, fun name member => bound.2 name (perm.subset member)⟩
  · have bound := lastCkpt_le.mp (le_refl (lastCkpt listing))
    exact lastCkpt_le.mpr ⟨bound.1, fun name member => bound.2 name (perm.symm.subset member)⟩

def Chosen (listing : List LogName) (name : LogName) : Prop :=
  if name.minSeq = -1 then ∀ other ∈ listing, other.minSeq = -1 → other.time ≤ name.time
  else name.minSeq ≤ lastCkpt listing ∧ lastCkpt listing ≤ name.maxSeq

instance : DecidablePred (Chosen listing) := fun name =>
  inferInstanceAs (Decidable (if name.minSeq = -1 then ∀ other ∈ listing, other.minSeq = -1 → other.time ≤ name.time
    else name.minSeq ≤ lastCkpt listing ∧ lastCkpt listing ≤ name.maxSeq))

theorem chosen_perm (perm : listing.Perm names) : Chosen listing name ↔ Chosen names name := by
  unfold Chosen
  rw [lastCkpt_perm perm]
  split_ifs
  · exact ⟨fun newest other member => newest other (perm.symm.subset member),
      fun newest other member => newest other (perm.subset member)⟩
  · exact Iff.rfl

theorem sortByTime_perm (l : List LogName) : (sortByTime l).Perm l := perm_insertionSort _ l

theorem sortByTime_sorted (l : List LogName) : (sortByTime l).Pairwise fun a b => a.time ≤ b.time := by
  have total : Std.Total fun a b : LogName => a.time ≤ b.time := ⟨fun a b => le_total a.time b.time⟩
  have trans : IsTrans LogName fun a b => a.time ≤ b.time := ⟨fun a b c => le_trans⟩
  exact pairwise_insertionSort _ l

theorem newest_of_getLast {l : List LogName} (last : (sortByTime l).getLast? = some newest) :
    newest ∈ l ∧ ∀ other ∈ l, other.time ≤ newest.time := by
  have perm := sortByTime_perm l
  have sorted := sortByTime_sorted l
  rw [getLast?_eq_some_iff] at last
  obtain ⟨others, split⟩ := last
  rw [split] at perm sorted
  refine ⟨perm.subset (by simp), fun other member => ?_⟩
  rcases mem_append.mp (perm.symm.subset member) with before | same
  · exact (pairwise_append.mp sorted).2.2 other before newest (by simp)
  · rw [mem_singleton.mp same]

theorem chosen_active (distinct : (listing.map fun name => name.time).Nodup)
    (member : newest ∈ listing) (isActive : newest.minSeq = -1)
    (latest : ∀ other ∈ listing, other.minSeq = -1 → other.time ≤ newest.time) :
    ((listing.filter (Chosen listing)).filter fun name => !decide (name.minSeq ≠ -1)) = [newest] := by
  apply eq_singleton ((distinct.of_map.filter _).filter _)
  · refine mem_filter.mpr ⟨mem_filter.mpr ⟨member, decide_eq_true ?_⟩, by simp [isActive]⟩
    exact (if_pos isActive).mpr latest
  · intro other inside
    obtain ⟨chosen, active⟩ := mem_filter.mp inside
    obtain ⟨listed, chosen⟩ := mem_filter.mp chosen
    have otherActive : other.minSeq = -1 := by simpa using active
    have after : newest.time ≤ other.time := (if_pos otherActive).mp (of_decide_eq_true chosen) newest member isActive
    exact inj_on_of_nodup_map distinct listed member (le_antisymm (latest other listed otherActive) after)

theorem getRecoveryFiles_spec (distinct : (listing.map fun name => name.time).Nodup)
    (active : ∃ name ∈ listing, name.minSeq = -1) :
    ∃ files, getRecoveryFiles listing = some (files, lastCkpt listing) ∧
      files.Perm (listing.filter (Chosen listing)) ∧ files.Pairwise fun a b => a.time ≤ b.time := by
  unfold getRecoveryFiles
  dsimp only
  cases last : (sortByTime (listing.filter fun name => decide (name.minSeq = -1))).getLast? with
  | none =>
    obtain ⟨name, member, isActive⟩ := active
    have empty := getLast?_eq_none_iff.mp last
    have perm := sortByTime_perm (listing.filter fun name => decide (name.minSeq = -1))
    have inside := perm.symm.subset (mem_filter.mpr ⟨member, decide_eq_true isActive⟩)
    rw [empty] at inside
    cases inside
  | some newest =>
    obtain ⟨inside, latest⟩ := newest_of_getLast last
    obtain ⟨member, isActive⟩ := mem_filter.mp inside
    refine ⟨_, rfl, (sortByTime_perm _).trans ?_, sortByTime_sorted _⟩
    have parts := filter_append_perm (fun name => decide (name.minSeq ≠ -1)) (listing.filter (Chosen listing))
    have finished : ((listing.filter (Chosen listing)).filter fun name => decide (name.minSeq ≠ -1)) =
        listing.filter fun name =>
          decide (name.minSeq ≠ -1 ∧ name.minSeq ≤ lastCkpt listing ∧ name.maxSeq ≥ lastCkpt listing) := by
      rw [filter_filter]
      refine filter_congr fun name _ => ?_
      unfold Chosen
      by_cases isActive : name.minSeq = -1 <;> simp [isActive]
    have current := chosen_active distinct member (of_decide_eq_true isActive) fun other listed active =>
      latest other (mem_filter.mpr ⟨listed, decide_eq_true active⟩)
    rw [finished, current] at parts
    exact parts

def timeOf (file : LogFile) : Int := file.name.time

theorem filter_name (distinct : (directory.map LogFile.name).Nodup) (member : file ∈ directory) :
    (directory.filter fun other => decide (other.name = file.name)) = [file] := by
  apply eq_singleton (distinct.of_map.filter _)
  · exact mem_filter.mpr ⟨member, decide_eq_true rfl⟩
  · intro other inside
    obtain ⟨listed, same⟩ := mem_filter.mp inside
    exact inj_on_of_nodup_map distinct listed member (of_decide_eq_true same)

theorem flatMap_filter_name (distinct : (directory.map LogFile.name).Nodup) {files : List LogFile}
    (inside : files ⊆ directory) :
    ((files.map fun file => file.name).flatMap fun name => directory.filter fun file => decide (file.name = name)) =
      files := by
  induction files with
  | nil => rfl
  | cons file rest ih =>
    rw [map_cons, flatMap_cons, filter_name distinct (inside mem_cons_self),
      ih fun other member => inside (mem_cons_of_mem _ member)]
    rfl

theorem readLogs_spec {s : Recovery} (distinct : (s.directory.map timeOf).Nodup)
    (active : ∃ file ∈ s.directory, file.name.minSeq = -1)
    (perm : listing.Perm (s.directory.map fun file => file.name)) :
    ∃ (files : List LogFile) (replayed : ReplayedLogs), s.readLogs listing = some replayed ∧
      replayed.entries = files.flatMap (readLogsFromFiles (lastCkpt listing)) ∧
      files.Perm (s.directory.filter fun file => Chosen listing file.name) ∧
      files.Pairwise fun a b => timeOf a ≤ timeOf b := by
  have times : (listing.map fun name => name.time).Nodup := by
    have same := (perm.map fun name => name.time).nodup_iff
    rw [same, map_map]
    exact distinct
  have opened : ∃ name ∈ listing, name.minSeq = -1 := by
    obtain ⟨file, member, isActive⟩ := active
    exact ⟨file.name, perm.symm.subset (mem_map_of_mem member), isActive⟩
  obtain ⟨names, found, chosen, sorted⟩ := getRecoveryFiles_spec times opened
  let files := names.flatMap fun name => s.directory.filter fun file => decide (file.name = name)
  unfold Recovery.readLogs
  rw [found]
  refine ⟨files, _, rfl, rfl, ?_, ?_⟩
  · have named : names.Perm ((s.directory.filter fun file => Chosen listing file.name).map fun file => file.name) := by
      refine chosen.trans ((perm.filter _).trans ?_)
      rw [filter_map]
      rfl
    have read := named.flatMap_right fun name => s.directory.filter fun file => decide (file.name = name)
    rwa [flatMap_filter_name (.of_map LogName.time (by rwa [map_map])) fun _ => mem_of_mem_filter] at read
  · refine pairwise_flatMap.mpr ⟨fun name _ => ?_, sorted.imp ?_⟩
    · refine pairwise_of_forall_mem_list fun a left b right => ?_
      have same := (of_decide_eq_true (mem_filter.mp left).2).trans (of_decide_eq_true (mem_filter.mp right).2).symm
      exact (congrArg LogName.time same).le
    · intro first second before a left b right
      have same := of_decide_eq_true (mem_filter.mp left).2
      have same' := of_decide_eq_true (mem_filter.mp right).2
      rw [← same, ← same'] at before
      exact before

def readings (time : Int) (events : List LogEvent) : List Int :=
  time :: events.flatMap fun
    | .finishFile _ true renamed created _ => [renamed, created]
    | _ => []

def finishedAt (events : List LogEvent) : List Nat :=
  events.filterMap fun
    | .finishFile seq true _ _ _ => some seq
    | _ => none

def largestCkpt (events : List LogEvent) : Nat := (finishedAt events).foldl max 0

def logged (events : List LogEvent) : List LogEntry :=
  events.filterMap fun
    | .addRequest entry => if isLogged entry.request.type then some entry else none
    | .finishFile .. => none

def recovered (entry : LogEntry) : LogEntry := { entry with request := { entry.request with isRecovery := true } }

def expected (events : List LogEvent) : List LogEntry :=
  ((logged events).filter fun entry => largestCkpt events < entry.request.seq).map recovered

structure Segments where
  finished : List (List LogEntry) := []
  active : List LogEntry := []

def Segments.add (g : Segments) : LogEvent → Segments
  | .addRequest entry => if isLogged entry.request.type then { g with active := g.active ++ [entry] } else g
  | .finishFile _ true _ _ _ => { finished := g.finished ++ [g.active] }
  | .finishFile _ false _ _ _ => g

def segments (events : List LogEvent) : Segments := events.foldl Segments.add {}

def boundsOf (entries : List LogEntry) : Int × Int :=
  entries.foldl (fun bounds entry =>
    (if bounds.1 = -1 then toInt64 entry.request.seq else min bounds.1 (toInt64 entry.request.seq),
      max bounds.2 (toInt64 entry.request.seq))) (-1, -1)

theorem logged_append (events : List LogEvent) (event : LogEvent) :
    logged (events ++ [event]) = logged events ++ logged [event] := filterMap_append

theorem largestCkpt_append (events : List LogEvent) (event : LogEvent) :
    largestCkpt (events ++ [event]) = (finishedAt [event]).foldl max (largestCkpt events) := by
  unfold largestCkpt finishedAt
  rw [filterMap_append, foldl_append]

theorem readings_append (time : Int) (events : List LogEvent) (event : LogEvent) :
    readings time (events ++ [event]) = readings time events ++ (readings time [event]).tail := by
  simp [readings]

theorem segments_append (events : List LogEvent) (event : LogEvent) :
    segments (events ++ [event]) = (segments events).add event := by
  unfold segments
  rw [foldl_append, foldl_cons, foldl_nil]

theorem segments_flatten (events : List LogEvent) :
    (segments events).finished.flatten ++ (segments events).active = logged events := by
  induction events using List.reverseRecOn with
  | nil => rfl
  | append_singleton events event ih =>
    rw [segments_append, logged_append, ← ih]
    cases event with
    | addRequest entry =>
      unfold Segments.add logged
      by_cases isLogged : isLogged entry.request.type = true <;> simp [isLogged]
    | finishFile seq stored renamed created info =>
      cases stored <;> simp [Segments.add, logged]

section
variable {finished : List LogFile} {last : LogFile} {path : LogName} {time : Int} {events : List LogEvent}
  {s : Recovery}

theorem map_last (distinct : ((finished ++ [last]).map timeOf).Nodup) (isLast : last.name = path)
    (f : LogFile → LogFile) :
    ((finished ++ [last]).map fun file => if file.name = path then f file else file) = finished ++ [f last] := by
  have others : ∀ file ∈ finished, file.name ≠ path := by
    intro file member same
    rw [map_append] at distinct
    have apart := (nodup_append.mp distinct).2.2 (timeOf file) (mem_map_of_mem member) (timeOf last) (by simp)
    exact apart (congrArg LogName.time (same.trans isLast.symm))
  rw [map_append, map_eq_self fun file member => if_neg (others file member)]
  simp [isLast]

theorem renameFile_last {newPath : LogName} (distinct : ((finished ++ [last]).map timeOf).Nodup)
    (isLast : last.name = path) (fresh : ∀ file ∈ finished ++ [last], file.name ≠ newPath) :
    renameFile (finished ++ [last]) path newPath = finished ++ [{ last with name := newPath }] := by
  have other : path ≠ newPath := isLast ▸ fresh last (by simp)
  have kept : ((finished ++ [last]).filter fun file => decide (file.name ≠ newPath)) = finished ++ [last] :=
    filter_eq_self.mpr fun file member => decide_eq_true (fresh file member)
  unfold renameFile
  rw [if_neg other, kept]
  exact map_last distinct isLast fun file => { file with name := newPath }

theorem lastCkpt_append (names : List LogName) (name : LogName) :
    lastCkpt (names ++ [name]) = max (lastCkpt names) name.ckpt := by
  unfold lastCkpt
  rw [foldl_append, foldl_cons, foldl_nil, max_def]
  split_ifs <;> omega

structure Written (time : Int) (events : List LogEvent) (s : Recovery) (finished : List LogFile) (last : LogFile) :
    Prop where
  directory : s.directory = finished ++ [last]
  filePath : s.filePath = last.name
  active : last.name.minSeq = -1
  segments : segments events = { finished := finished.map fun file => file.entries, active := last.entries }
  current : (s.minSeq, s.maxSeq) = boundsOf last.entries
  bounds : ∀ file ∈ finished, (file.name.minSeq, file.name.maxSeq) = boundsOf file.entries
  largest : lastCkpt (finished.map fun file => file.name) = largestCkpt events
  ckpt : last.name.ckpt ≤ (largestCkpt events : Int)
  nonneg : ∀ file ∈ finished ++ [last], 0 ≤ file.name.ckpt
  times : ((finished ++ [last]).map timeOf).Sublist (readings time events)
  info : ∀ file ∈ finished ++ [last], file.info ≠ none

theorem Written.distinct (written : Written time events s finished last) (nodup : (readings time events).Nodup) :
    ((finished ++ [last]).map timeOf).Nodup := nodup.sublist written.times

theorem Written.addRequest (written : Written time events s finished last) (nodup : (readings time events).Nodup)
    (entry : LogEntry) : ∃ last', Written time (events ++ [.addRequest entry]) (s.addRequest entry) finished last' := by
  have ckpt : largestCkpt (events ++ [.addRequest entry]) = largestCkpt events := largestCkpt_append _ _
  have times : ((finished ++ [last]).map timeOf).Sublist (readings time (events ++ [.addRequest entry])) := by
    rw [readings_append]
    exact written.times.trans (sublist_append_left _ _)
  unfold Recovery.addRequest
  split_ifs with isLogged
  · let last' : LogFile := { last with entries := last.entries ++ [entry] }
    refine ⟨last', ?_, written.filePath, written.active, ?_, ?_, written.bounds, ckpt ▸ written.largest,
      ckpt ▸ written.ckpt, forall_mem_concat written.nonneg id, ?_, forall_mem_concat written.info id⟩
    · unfold Recovery.writeLog
      rw [written.directory]
      exact map_last (written.distinct nodup) written.filePath.symm fun file =>
        { file with entries := file.entries ++ [entry] }
    · rw [segments_append, written.segments, Segments.add, if_pos isLogged]
    · rw [boundsOf, foldl_append, ← boundsOf, ← written.current]
      rfl
    · rw [map_append] at times ⊢
      exact times
  · refine ⟨last, written.directory, written.filePath, written.active, ?_, written.current, written.bounds,
      ckpt ▸ written.largest, ckpt ▸ written.ckpt, written.nonneg, times, written.info⟩
    rw [segments_append, Segments.add, if_neg isLogged, written.segments]

theorem Written.finishFile (written : Written time events s finished last) {seq : Nat} {renamed created : Int}
    (nodup : (readings time (events ++ [.finishFile seq true renamed created info])).Nodup) :
    ∃ finished' last', Written time (events ++ [.finishFile seq true renamed created info])
      (s.finishFile seq true renamed created info) finished' last' := by
  let done : LogFile := { last with name := generateFile renamed seq s.minSeq s.maxSeq }
  let next : LogFile := { name := generateFile created seq (-1) (-1), info := some info }
  have ckpt : largestCkpt (events ++ [.finishFile seq true renamed created info]) = max (largestCkpt events) seq :=
    largestCkpt_append _ _
  have split : readings time (events ++ [.finishFile seq true renamed created info]) =
      readings time events ++ [renamed, created] := readings_append _ _ _
  rw [split] at nodup
  obtain ⟨before, two, apart⟩ := nodup_append.mp nodup
  have read : ∀ file ∈ finished ++ [last], ∀ reading ∈ [renamed, created], timeOf file ≠ reading :=
    fun file member => apart _ (written.times.subset (mem_map_of_mem member))
  have fresh : ∀ file ∈ finished ++ [last], file.name ≠ done.name := fun file member same =>
    read file member renamed (by simp) (congrArg LogName.time same)
  have unused : ∀ file ∈ finished ++ [done], file.name ≠ next.name := by
    have old : ∀ file ∈ finished ++ [last], file.name ≠ next.name := fun file member same =>
      read file member created (by simp) (congrArg LogName.time same)
    refine forall_mem_concat old fun _ same => (nodup_cons.mp two).1 ?_
    exact mem_singleton.mpr (congrArg LogName.time same)
  have filled : ∀ file ∈ finished ++ [done], file.info ≠ none := forall_mem_concat written.info id
  refine ⟨finished ++ [done], next, ?_, rfl, rfl, ?_, rfl, ?_, ?_, ?_, ?_, ?_, ?_⟩
  · unfold Recovery.finishFile
    rw [if_pos rfl, written.directory]
    dsimp only
    rw [renameFile_last (written.distinct before) written.filePath.symm fresh]
    have absent : ¬ (finished ++ [done]).any (fun file => file.name = next.name) = true := by
      simpa [or_imp, forall_and] using unused
    unfold openFile createFile
    rw [if_neg absent, map_append, map_eq_self fun file member => if_neg fun both => filled file member both.2]
    simp [next]
  · rw [segments_append, written.segments, map_append]
    rfl
  · exact forall_mem_append.mpr ⟨written.bounds, forall_mem_singleton.mpr written.current⟩
  · rw [map_append, map_singleton, lastCkpt_append, written.largest, ckpt]
    change max (largestCkpt events : Int) seq = _
    omega
  · rw [ckpt]
    exact Int.ofNat_le.mpr (le_max_right _ _)
  · have nonneg : ∀ file ∈ finished ++ [done], 0 ≤ file.name.ckpt :=
      forall_mem_concat written.nonneg fun _ => Int.natCast_nonneg seq
    exact forall_mem_append.mpr ⟨nonneg, forall_mem_singleton.mpr (Int.natCast_nonneg seq)⟩
  · have times := written.times
    rw [map_append] at times
    rw [split, append_assoc, map_append]
    exact ((sublist_append_left _ _).trans times).append (List.Sublist.refl [renamed, created])
  · exact forall_mem_append.mpr ⟨filled, forall_mem_singleton.mpr (by simp [next])⟩

theorem Written.start (time : Int) (info : SystemInfoData) :
    Written time [] (.init [] [] time info) [] { name := generateFile time 0 (-1) (-1), info := some info } := by
  refine ⟨?_, rfl, rfl, rfl, ?_, by simp, rfl, le_rfl, by simp [generateFile], List.Sublist.refl _, by simp⟩
  · simp [Recovery.init, getLastFile, switchFile, openFile, createFile]
  · simp [Recovery.init, getLastFile, switchFile, createFile, readLogsFromFiles, boundsOf]

def logging (s : Recovery) (events : List LogEvent) : Recovery := events.foldl Recovery.act s

theorem written_run (info : SystemInfoData) (nodup : (readings time events).Nodup) :
    ∃ finished last, Written time events (logging (.init [] [] time info) events) finished last := by
  induction events using List.reverseRecOn with
  | nil => exact ⟨_, _, .start time info⟩
  | append_singleton events event ih =>
    have split := readings_append time events event
    have before : (readings time events).Nodup := by
      rw [split] at nodup
      exact nodup.of_append_left
    obtain ⟨finished, last, written⟩ := ih before
    unfold logging
    rw [foldl_append, foldl_cons, foldl_nil]
    cases event with
    | addRequest entry =>
      obtain ⟨last', after⟩ := written.addRequest before entry
      exact ⟨finished, last', after⟩
    | finishFile seq stored renamed created info =>
      cases stored with
      | true => exact written.finishFile nodup
      | false =>
        refine ⟨finished, last, written.directory, written.filePath, written.active, ?_, written.current,
          written.bounds, ?_, ?_, written.nonneg, ?_, written.info⟩
        · rw [segments_append, written.segments]
          rfl
        · rw [largestCkpt_append]
          exact written.largest
        · rw [largestCkpt_append]
          exact written.ckpt
        · rw [split]
          exact written.times.trans (sublist_append_left _ _)

def PickedFrom (listing : List LogName) (last : LastFile) : Prop :=
  ∃ name ∈ listing, last.ckpt = name.ckpt ∧ last.path = some name

theorem foldl_visit {rest : List LogName} {lastFile : LastFile} (nonneg : ∀ name ∈ listing, 0 ≤ name.ckpt)
    (inside : rest ⊆ listing) (kept : lastFile.ckpt ≠ -1 → PickedFrom listing lastFile)
    (found : lastFile.ckpt ≠ -1 ∨ ∃ name ∈ rest, name.minSeq = -1) :
    PickedFrom listing (rest.foldl LastFile.visit lastFile) := by
  induction rest generalizing lastFile with
  | nil => exact kept (found.resolve_right (by simp))
  | cons name rest ih =>
    have listed := inside mem_cons_self
    have positive := nonneg name listed
    refine ih (fun other member => inside (mem_cons_of_mem _ member)) ?_ ?_
    · unfold LastFile.visit
      split_ifs with takes
      · exact fun _ => ⟨name, listed, rfl, rfl⟩
      · exact kept
    · unfold LastFile.visit
      split_ifs with takes
      · left
        change name.ckpt ≠ -1
        omega
      · rcases found with set | ⟨other, member, isActive⟩
        · exact .inl set
        · rcases mem_cons.mp member with rfl | later
          · exact .inl fun unset => takes ⟨isActive, .inl unset⟩
          · exact .inr ⟨other, later, isActive⟩

theorem init_directory (nonneg : ∀ file ∈ directory, 0 ≤ file.name.ckpt)
    (active : ∃ file ∈ directory, file.name.minSeq = -1)
    (filled : ∀ file ∈ directory, file.info ≠ none) (perm : listing.Perm (directory.map fun file => file.name)) :
    (Recovery.init directory listing time' info).directory = directory := by
  have listedNonneg : ∀ name ∈ listing, 0 ≤ name.ckpt := by
    intro name member
    obtain ⟨file, inside, rfl⟩ := mem_map.mp (perm.subset member)
    exact nonneg file inside
  have listedActive : ∃ name ∈ listing, name.minSeq = -1 := by
    obtain ⟨file, inside, isActive⟩ := active
    exact ⟨file.name, perm.symm.subset (mem_map_of_mem inside), isActive⟩
  have held : PickedFrom listing (listing.foldl LastFile.visit {}) :=
    foldl_visit listedNonneg (fun _ => id) (by simp) (.inr listedActive)
  obtain ⟨name, member, ckpt, path⟩ := held
  have there : ∃ file ∈ directory, file.name = name := mem_map.mp (perm.subset member)
  have found : directory.any (fun file => file.name = name) = true := by simpa using there
  have positive := listedNonneg name member
  unfold Recovery.init getLastFile
  dsimp only
  rw [ckpt, path, if_neg (by omega)]
  unfold switchFile createFile
  dsimp only [Option.getD_some]
  rw [if_pos found]
  unfold openFile createFile
  rw [if_pos found]
  exact map_eq_self fun file member => if_neg fun both => filled file member both.2

theorem Written.init_directory (written : Written time events s finished last)
    (perm : listing.Perm (s.directory.map fun file => file.name)) :
    (Recovery.init s.directory listing time' info).directory = s.directory := by
  refine Proof.init_directory (written.directory ▸ written.nonneg) ⟨last, ?_, written.active⟩
    (written.directory ▸ written.info) perm
  simp [written.directory]

def HoldsAbove (ckpt : Nat) (file : LogFile) : Prop := ∃ entry ∈ file.entries, ckpt < entry.request.seq
deriving Decidable

theorem toUInt64_natCast {n : Nat} (fits : n < 2 ^ 63) : toUInt64 n = n := by
  unfold toUInt64
  omega

theorem readLogsFromFiles_eq (fits : c < 2 ^ 63) (written : file.info ≠ none) :
    readLogsFromFiles c file = (file.entries.filter fun entry => c < entry.request.seq).map recovered := by
  unfold readLogsFromFiles
  rw [if_neg written, toUInt64_natCast fits]
  rfl

theorem largestCkpt_fits (fits : ∀ ckpt ∈ finishedAt events, ckpt < 2 ^ 63) : largestCkpt events < 2 ^ 63 := by
  have general : ∀ (rest : List Nat) (first : Nat), first < 2 ^ 63 → (∀ ckpt ∈ rest, ckpt < 2 ^ 63) →
      rest.foldl max first < 2 ^ 63 := by
    intro rest
    induction rest with
    | nil => exact fun _ small _ => small
    | cons ckpt rest ih =>
      intro first small all
      rw [forall_mem_cons] at all
      exact ih _ (max_lt small all.1) all.2
  exact general _ 0 (by decide) fits

section

variable (written : Written time events s finished last)
include written

theorem Written.lastCkpt : lastCkpt (s.directory.map fun file => file.name) = largestCkpt events := by
  rw [written.directory, map_append, map_singleton, lastCkpt_append, written.largest]
  exact max_eq_left written.ckpt

theorem Written.entries : s.directory.flatMap (fun file => file.entries) = logged events := by
  rw [← segments_flatten, written.segments, written.directory, flatMap_append, flatMap_singleton, flatMap_def]

theorem Written.flatMap_read (fits : largestCkpt events < 2 ^ 63) :
    s.directory.flatMap (readLogsFromFiles (largestCkpt events)) = expected events := by
  have same : s.directory.flatMap (readLogsFromFiles (largestCkpt events)) = s.directory.flatMap fun file =>
      (file.entries.filter fun entry => largestCkpt events < entry.request.seq).map recovered := by
    refine flatMap_congr fun file member => ?_
    exact readLogsFromFiles_eq fits (written.info file (written.directory ▸ member))
  unfold expected
  rw [same, ← written.entries, filter_flatMap, map_flatMap]

theorem readLogs_complete_iff {listing' : List LogName} (nodup : (readings time events).Nodup)
    (fits : largestCkpt events < 2 ^ 63) (listed : listing.Perm (s.directory.map fun file => file.name))
    (listedAgain : listing'.Perm (s.directory.map fun file => file.name))
    (ordered : s.directory.Pairwise fun a b => timeOf a < timeOf b) :
    (((Recovery.init s.directory listing time' info).readLogs listing').map fun replayed => replayed.entries) =
        some (expected events) ↔
      ∀ file ∈ s.directory, HoldsAbove (largestCkpt events) file →
        Chosen (s.directory.map fun file => file.name) file.name := by
  have kept : (Recovery.init s.directory listing time' info).directory = s.directory := written.init_directory listed
  have times : (s.directory.map timeOf).Nodup := written.directory ▸ written.distinct nodup
  have filled : ∀ file ∈ s.directory, file.info ≠ none := written.directory ▸ written.info
  have active : ∃ file ∈ s.directory, file.name.minSeq = -1 := ⟨last, by simp [written.directory], written.active⟩
  have ckpt : Model.lastCkpt listing' = largestCkpt events := (lastCkpt_perm listedAgain).trans written.lastCkpt
  rw [← kept] at times active
  obtain ⟨files, replayed, found, entries, perm, sorted⟩ := readLogs_spec times active (kept.symm ▸ listedAgain)
  rw [kept] at perm times
  rw [found, Option.map_some, Option.some.injEq, entries, ckpt, ← written.flatMap_read fits,
    read_chosen_iff timeOf times (ordered.imp fun before _ _ => before) perm sorted]
  refine forall₂_congr fun file member => ?_
  have above : readLogsFromFiles (largestCkpt events) file ≠ [] ↔ HoldsAbove (largestCkpt events) file := by
    rw [readLogsFromFiles_eq fits (filled file member)]
    simp [HoldsAbove]
  rw [above, decide_eq_true_iff, chosen_perm listedAgain]

end

def Encloses (bounds : Int × Int) (ckpt : Int) : Prop := bounds.1 ≠ -1 ∧ bounds.1 ≤ ckpt ∧ ckpt ≤ bounds.2
deriving Decidable

theorem Written.chosen_iff (written : Written time events s finished last)
    (ordered : s.directory.Pairwise fun a b => timeOf a < timeOf b) {file : LogFile} (member : file ∈ finished) :
    Chosen (s.directory.map fun file => file.name) file.name ↔
      Encloses (boundsOf file.entries) (largestCkpt events) := by
  rw [← written.bounds file member]
  unfold Chosen Encloses
  rw [written.lastCkpt]
  split_ifs with unbounded
  · have later : timeOf file < timeOf last := by
      rw [written.directory] at ordered
      exact (pairwise_append.mp ordered).2.2 file member last (by simp)
    constructor
    · intro newest
      have listed : last.name ∈ s.directory.map fun file => file.name := mem_map_of_mem (by simp [written.directory])
      exact absurd (newest last.name listed written.active) (not_le.mpr later)
    · exact fun encloses => absurd unbounded encloses.1
  · exact ⟨fun around => ⟨unbounded, around⟩, fun encloses => encloses.2⟩

/-- `ReadLogs` gives back the log if and only if the bounds of every file it needs enclose the checkpoint. -/
theorem log_complete_iff {info info' : SystemInfoData} {time' : Int} {listing' : List LogName}
    (increasing : (readings time events).Pairwise (· < ·)) (fits : ∀ ckpt ∈ finishedAt events, ckpt < 2 ^ 63)
    (stopped : s = logging (.init [] [] time info) events)
    (listed : listing.Perm (s.directory.map fun file => file.name))
    (listedAgain : listing'.Perm (s.directory.map fun file => file.name)) :
    (((Recovery.init s.directory listing time' info').readLogs listing').map fun replayed => replayed.entries) =
        some (expected events) ↔
      ∀ segment ∈ (segments events).finished, (∃ entry ∈ segment, largestCkpt events < entry.request.seq) →
        Encloses (boundsOf segment) (largestCkpt events) := by
  have nodup : (readings time events).Nodup := increasing.imp fun before => before.ne
  obtain ⟨finished, last, written⟩ := written_run info nodup
  rw [← stopped] at written
  have ordered : s.directory.Pairwise fun a b => timeOf a < timeOf b := by
    rw [written.directory]
    exact pairwise_map.mp (increasing.sublist written.times)
  rw [readLogs_complete_iff written nodup (largestCkpt_fits fits) listed listedAgain ordered, written.segments]
  constructor
  · intro chosen segment member above
    obtain ⟨file, inside, rfl⟩ := mem_map.mp member
    have listed : file ∈ s.directory := by simp [written.directory, inside]
    exact (written.chosen_iff ordered inside).mp (chosen file listed above)
  · intro encloses file member above
    rw [written.directory] at member
    rcases mem_append.mp member with inside | same
    · exact (written.chosen_iff ordered inside).mpr (encloses _ (mem_map_of_mem inside) above)
    · rw [mem_singleton.mp same]
      refine (if_pos written.active).mpr fun other listed _ => ?_
      obtain ⟨file, member, rfl⟩ := mem_map.mp listed
      rw [written.directory] at member ordered
      rcases mem_append.mp member with before | same
      · exact ((pairwise_append.mp ordered).2.2 file before last (by simp)).le
      · rw [mem_singleton.mp same]

end

def commitEntry (seq : Nat) : LogEntry := { request := { type := .commit, seq := seq } }

def enclosed : List LogEvent :=
  [.addRequest (commitEntry 1), .addRequest (commitEntry 4), .finishFile 3 true 20 21 {}, .addRequest (commitEntry 5)]

def listingOf (s : Recovery) : List LogName := s.directory.map fun file => file.name

theorem enclosed_complete : let s := logging (.init [] [] 10 {}) enclosed
    (((Recovery.init s.directory (listingOf s) 30 {}).readLogs (listingOf s)).map fun replayed => replayed.entries) =
      some [recovered (commitEntry 4), recovered (commitEntry 5)] := by
  exact (log_complete_iff (by decide) (by decide) rfl (.refl _) (.refl _)).mpr (by decide)

def skipped : List LogEvent := [.addRequest (commitEntry 5), .finishFile 3 true 20 21 {}]

theorem skipped_lost : let s := logging (.init [] [] 10 {}) skipped
    (readings 10 skipped).Pairwise (· < ·) ∧ expected skipped = [recovered (commitEntry 5)] ∧
    (((Recovery.init s.directory (listingOf s) 30 {}).readLogs (listingOf s)).map fun replayed => replayed.entries) =
      some [] := by
  decide

end ResilientDB.Proof
