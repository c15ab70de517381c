import ResilientDB.Proof.Recovery
import ResilientDB.Library.TransitionSystem
import Mathlib.Order.Bounds.Basic

namespace ResilientDB.Proof
open Model Library List

variable {listing names : List LogName} {directory : List LogFile} {file : LogFile} {newest : LogName}
  {last : LastFile} {info : SystemInfoData} {events : List LogEvent} {time : Int} {s : Recovery} {entry : LogEntry}
  {seen all entries more : List LogEntry} {lo hi : Int}

theorem toInt32_le {value : Int} (nonneg : 0 ≤ value) : toInt32 value ≤ value := by
  unfold toInt32 Int.bmod
  dsimp only
  split <;> omega

theorem foldl_visit_lt (earlier : ∀ name ∈ names, name.minSeq = -1 → 0 ≤ name.time ∧ name.time < newest.time)
    (start : last.ckpt = -1 ∨ last.time < newest.time) :
    (names.foldl LastFile.visit last).ckpt = -1 ∨ (names.foldl LastFile.visit last).time < newest.time := by
  induction names generalizing last with
  | nil => exact start
  | cons name rest ih =>
    obtain ⟨first, others⟩ := forall_mem_cons.mp earlier
    refine ih others ?_
    unfold LastFile.visit
    split_ifs with takes
    · exact .inr ((toInt32_le (first takes.1).1).trans_lt (first takes.1).2)
    · exact start

theorem foldl_visit_kept (set : last.ckpt ≠ -1) (path : last.path = some newest) (other : newest ∉ names)
    (nonneg : ∀ name ∈ names, 0 ≤ name.ckpt) :
    (names.foldl LastFile.visit last).path = some newest ↔
      ∀ name ∈ names, name.minSeq = -1 → name.time ≤ last.time := by
  induction names with
  | nil => simpa using path
  | cons name rest ih =>
    rw [foldl_cons, forall_mem_cons]
    by_cases takes : name.minSeq = -1 ∧ (last.ckpt = -1 ∨ last.time < name.time)
    · have later := takes.2.resolve_left set
      obtain ⟨picked, member, -, chosen⟩ : PickedFrom (name :: rest) (rest.foldl LastFile.visit (last.visit name)) := by
        have visited : last.visit name = _ := if_pos takes
        have positive := nonneg name mem_cons_self
        refine foldl_visit nonneg (fun _ => mem_cons_of_mem _) (fun _ => ?_) (.inl ?_)
        · exact ⟨name, mem_cons_self, by rw [visited], by rw [visited]⟩
        · rw [visited]
          dsimp only
          omega
      refine iff_of_false (fun same => ?_) fun low => absurd (low.1 takes.1) (not_le.mpr later)
      rw [chosen, Option.some.injEq] at same
      exact other (same ▸ member)
    · have kept : last.visit name = last := if_neg takes
      rw [kept, ih (fun member => other (mem_cons_of_mem _ member)) fun n member => nonneg n (mem_cons_of_mem _ member)]
      refine (and_iff_right fun active => ?_).symm
      exact not_lt.mp fun later => takes ⟨active, .inr later⟩

theorem last_file_iff (increasing : (readings time events).Pairwise (· < ·)) (clock : 0 ≤ time)
    (stopped : s = logging (.init [] [] time info) events)
    (listed : listing.Perm (s.directory.map fun file => file.name)) :
    ∃ newest ∈ listing, newest.minSeq = -1 ∧
      (∀ other ∈ listing, other.minSeq = -1 → other ≠ newest → other.time < newest.time) ∧
      (∃ files, getRecoveryFiles listing = some (files, lastCkpt listing) ∧
        ∀ name ∈ files, name.minSeq = -1 ↔ name = newest) ∧
      ∀ before after, listing = before ++ newest :: after → ((getLastFile listing).path = some newest ↔
          ∀ other ∈ after, other.minSeq = -1 → other.time ≤ toInt32 newest.time) := by
  obtain ⟨finished, current, written⟩ := written_run info (increasing.imp fun before => before.ne)
  rw [← stopped] at written
  have ordered := increasing.sublist written.times
  have nodup : (s.directory.map timeOf).Nodup := written.directory ▸ ordered.imp fun before => before.ne
  have times : (listing.map fun name => name.time).Nodup := by
    rw [(listed.map fun name => name.time).nodup_iff, map_map]
    exact nodup
  have there : current.name ∈ listing := listed.symm.subset (mem_map_of_mem (by simp [written.directory]))
  have latest : ∀ other ∈ listing, other ≠ current.name → 0 ≤ other.ckpt ∧ 0 ≤ other.time ∧
      other.time < current.name.time := by
    intro other member apart
    obtain ⟨file, inside, rfl⟩ := mem_map.mp (listed.subset member)
    rw [written.directory] at inside
    have read := written.times.subset (mem_map_of_mem inside)
    refine ⟨written.nonneg file inside, ?_, ?_⟩
    · rcases mem_cons.mp read with same | later
      · exact clock.trans_eq same.symm
      · exact clock.trans (rel_of_pairwise_cons increasing later).le
    · rw [map_append] at ordered
      rcases mem_append.mp inside with old | same
      · exact (pairwise_append.mp ordered).2.2 _ (mem_map_of_mem old) (timeOf current) (by simp)
      · exact absurd (congrArg LogFile.name (mem_singleton.mp same)) apart
  have top : ∀ other ∈ listing, other.minSeq = -1 → other.time ≤ current.name.time := fun other member _ => by
    by_cases same : other = current.name
    · rw [same]
    · exact (latest other member same).2.2.le
  refine ⟨current.name, there, written.active, fun other member _ apart => (latest other member apart).2.2, ?_, ?_⟩
  · obtain ⟨files, found, perm, -⟩ := getRecoveryFiles_spec times ⟨_, there, written.active⟩
    refine ⟨files, found, fun name member => ⟨fun active => ?_, fun same => same ▸ written.active⟩⟩
    have inside : name ∈ [current.name] :=
      chosen_active times there written.active top ▸ mem_filter.mpr ⟨perm.subset member, by simp [active]⟩
    exact mem_singleton.mp inside
  · rintro before after rfl
    have unlisted : current.name ∉ before ++ after := (nodup_cons.mp (nodup_middle.mp times.of_map)).1
    have others : ∀ other ∈ before ++ after, 0 ≤ other.ckpt ∧ 0 ≤ other.time ∧ other.time < current.name.time :=
      fun other member => latest other (perm_middle.symm.subset (mem_cons_of_mem _ member)) fun same =>
        unlisted (same ▸ member)
    have free := @foldl_visit_lt before current.name {}
      (fun name member _ => (others name (mem_append_left _ member)).2) (.inl rfl)
    have visited : (before.foldl LastFile.visit {}).visit current.name = _ := if_pos ⟨written.active, free⟩
    unfold getLastFile
    rw [foldl_append, foldl_cons, visited]
    have set := written.nonneg current (by simp)
    refine foldl_visit_kept ?_ rfl (fun member => unlisted (mem_append_right _ member)) fun name member =>
      (others name (mem_append_right _ member)).1
    dsimp only
    omega

theorem skipped_appended : let s := logging (.init [] [] 10 {}) skipped
    ∃ newest ∈ listingOf s, newest.minSeq = -1 ∧ (getLastFile (listingOf s)).path = some newest := by
  intro s
  obtain ⟨newest, listed, active, -, -, selected⟩ :=
    last_file_iff (by decide) (by decide) (rfl : s = _) (.refl (listingOf s))
  have split : listingOf s = [generateFile 20 3 5 5] ++ generateFile 21 3 (-1) (-1) :: [] := by decide
  have either : newest = generateFile 20 3 5 5 ∨ newest = generateFile 21 3 (-1) (-1) := by
    simpa [split] using listed
  rcases either with rfl | rfl
  · exact absurd active (by decide)
  · exact ⟨_, listed, active, (selected _ _ split).mpr (by simp)⟩

def emptyFinished : List LogEvent := [.finishFile 0 true (2 ^ 31) (2 ^ 31 + 1) {}]

theorem older_appended : let listing := (listingOf (logging (.init [] [] 10 {}) emptyFinished)).reverse
    (readings 10 emptyFinished).Pairwise (· < ·) ∧
    getRecoveryFiles listing = some ([generateFile (2 ^ 31 + 1) 0 (-1) (-1)], 0) ∧
    (getLastFile listing).path = some (generateFile (2 ^ 31) 0 (-1) (-1)) := by
  decide

section Bounds

def seqsOf (entries : List LogEntry) : Set Int := {seq | ∃ entry ∈ entries, seq = entry.request.seq}

def Bounds (seen all : List LogEntry) (lo hi : Int) : Prop :=
  if all = [] then lo = -1 ∧ hi = -1 else IsLeast (seqsOf seen) lo ∧ IsGreatest (seqsOf all) hi

theorem seqsOf_append : seqsOf (entries ++ [entry]) = insert (entry.request.seq : Int) (seqsOf entries) := by
  ext seq
  simp [seqsOf, or_and_right, exists_or, or_comm]

theorem toInt64_seq {n : Nat} (fits : n < 2 ^ 63) : toInt64 n = n := Int.bmod_eq_of_le (by omega) (by omega)

theorem Bounds.ne (bounds : Bounds seen all lo hi) (some : all ≠ []) : lo ≠ -1 := by
  obtain ⟨⟨⟨entry, -, same⟩, -⟩, -⟩ := (if_neg some).mp bounds
  omega

theorem Bounds.written (bounds : Bounds seen all lo hi) (empty : all = [] → seen = [])
    (fits : entry.request.seq < 2 ^ 63) :
    Bounds (seen ++ [entry]) (all ++ [entry])
      (if lo = -1 then toInt64 entry.request.seq else min lo (toInt64 entry.request.seq))
      (max hi (toInt64 entry.request.seq)) := by
  rw [toInt64_seq fits]
  refine (if_neg (by simp)).mpr ?_
  rw [seqsOf_append, seqsOf_append]
  by_cases none : all = []
  · obtain ⟨rfl, rfl⟩ := (if_pos none).mp bounds
    simp [empty none, none, seqsOf]
  · rw [if_neg (bounds.ne none), min_comm, max_comm]
    obtain ⟨least, greatest⟩ := (if_neg none).mp bounds
    exact ⟨least.insert _, greatest.insert _⟩

theorem Bounds.replayed (bounds : Bounds seen all lo hi) (some : all ≠ []) (fits : entry.request.seq < 2 ^ 63) :
    Bounds seen (all ++ [entry]) lo (max hi (toInt64 entry.request.seq)) := by
  obtain ⟨least, greatest⟩ := (if_neg some).mp bounds
  refine (if_neg (by simp)).mpr ⟨least, ?_⟩
  rw [seqsOf_append, toInt64_seq fits, max_comm]
  exact greatest.insert _

theorem switchFile_bounds (distinct : (directory.map LogFile.name).Nodup) (member : file ∈ directory)
    (written : file.info ≠ none) (positive : ∀ entry ∈ file.entries, 0 < entry.request.seq)
    (fits : ∀ entry ∈ file.entries, entry.request.seq < 2 ^ 63) :
    Bounds (file.entries.take 1) file.entries (switchFile directory file.name info).minSeq
      (switchFile directory file.name info).maxSeq := by
  have found : directory.any (fun other => other.name = file.name) = true := by simpa using ⟨file, member, rfl⟩
  have read : readLogsFromFiles 0 file = file.entries.map recovered := by
    have all := readLogsFromFiles_eq (c := 0) (by decide) written
    rwa [filter_eq_self.mpr fun entry member => decide_eq_true (positive entry member)] at all
  unfold switchFile createFile
  rw [if_pos found]
  dsimp only
  rw [filter_name distinct member, flatMap_singleton, read, foldl_map]
  simp only [recovered]
  clear read positive
  generalize file.entries = entries at fits ⊢
  induction entries using List.reverseRecOn with
  | nil => exact (if_pos rfl).mpr ⟨rfl, rfl⟩
  | append_singleton entries entry ih =>
    obtain ⟨small, last⟩ := forall_mem_snoc.mp fits
    have before := ih small
    rw [foldl_append, foldl_cons, foldl_nil]
    cases entries with
    | nil =>
      have one := before.written (fun _ => rfl) last
      rw [foldl_nil, if_pos rfl] at one ⊢
      simpa using one
    | cons first rest =>
      rw [if_neg (before.ne (cons_ne_nil _ _))]
      exact before.replayed (cons_ne_nil _ _) last

theorem Bounds.logged (bounds : Bounds seen all s.minSeq s.maxSeq) (empty : all = [] → seen = [])
    (fits : ∀ entry ∈ more, entry.request.seq < 2 ^ 63) :
    Bounds (seen ++ more) (all ++ more) (more.foldl Recovery.writeLog s).minSeq
      (more.foldl Recovery.writeLog s).maxSeq := by
  induction more generalizing s seen all with
  | nil => simpa using bounds
  | cons entry rest ih =>
    obtain ⟨small, others⟩ := forall_mem_cons.mp fits
    have next : Bounds (seen ++ [entry]) (all ++ [entry]) (s.writeLog entry).minSeq (s.writeLog entry).maxSeq :=
      bounds.written empty small
    rw [append_cons seen, append_cons all, foldl_cons]
    exact ih next (by simp) others

theorem mem_writeLogs (member : file ∈ s.directory) (active : file.name = s.filePath) :
    (more.foldl Recovery.writeLog s).filePath = s.filePath ∧
      { file with entries := file.entries ++ more } ∈ (more.foldl Recovery.writeLog s).directory := by
  induction more generalizing s file with
  | nil => simpa using member
  | cons entry rest ih =>
    have moved : { file with entries := file.entries ++ [entry] } ∈ (s.writeLog entry).directory :=
      mem_map.mpr ⟨file, member, if_pos active⟩
    rw [append_cons]
    exact ih moved active

theorem finishFile_keeps {seq : Nat} {renamed created : Int} (member : file ∈ s.directory)
    (active : file.name = s.filePath) :
    ∃ done ∈ (s.finishFile seq true renamed created info).directory,
      done.name = generateFile renamed seq s.minSeq s.maxSeq ∧ done.entries = file.entries := by
  have moved : { file with name := generateFile renamed seq s.minSeq s.maxSeq } ∈
      renameFile s.directory s.filePath (generateFile renamed seq s.minSeq s.maxSeq) := by
    unfold renameFile
    split_ifs with same
    · rwa [← same, ← active]
    · rw [← active] at same ⊢
      exact mem_map.mpr ⟨file, mem_filter.mpr ⟨member, decide_eq_true same⟩, if_pos rfl⟩
  have kept : ∀ next, { file with name := generateFile renamed seq s.minSeq s.maxSeq } ∈
      createFile (renameFile s.directory s.filePath (generateFile renamed seq s.minSeq s.maxSeq)) next := by
    intro next
    unfold createFile
    split_ifs
    · exact moved
    · exact mem_append_left _ moved
  refine ⟨_, mem_map_of_mem (kept (generateFile created seq (-1) (-1))), ?_⟩
  split_ifs <;> exact ⟨rfl, rfl⟩

theorem restart_bounds_iff {seq : Nat} {renamed created : Int} {info' : SystemInfoData}
    (distinct : (directory.map LogFile.name).Nodup) (member : file ∈ directory) (written : file.info ≠ none)
    (positive : ∀ entry ∈ file.entries, 0 < entry.request.seq)
    (fits : ∀ entry ∈ file.entries ++ more, entry.request.seq < 2 ^ 63)
    (restarted : s = more.foldl Recovery.writeLog (switchFile directory file.name info)) :
    (∃ done ∈ (s.finishFile seq true renamed created info').directory,
      done.name = generateFile renamed seq s.minSeq s.maxSeq ∧ done.entries = file.entries ++ more) ∧
    (Bounds (file.entries ++ more) (file.entries ++ more) s.minSeq s.maxSeq ↔
      ∀ entry ∈ file.entries, ∃ first ∈ file.entries.take 1 ++ more, first.request.seq ≤ entry.request.seq) := by
  obtain ⟨old, new⟩ := forall_mem_append.mp fits
  constructor
  · have there : file ∈ (switchFile directory file.name info).directory := by
      have found : directory.any (fun other => other.name = file.name) = true := by simpa using ⟨file, member, rfl⟩
      unfold switchFile openFile createFile
      simp only [found, ↓reduceIte]
      exact mem_map.mpr ⟨file, member, if_neg fun both => written both.2⟩
    obtain ⟨path, logged⟩ := mem_writeLogs there rfl
    rw [← restarted] at path logged
    exact finishFile_keeps logged path.symm
  · have bounds : Bounds (file.entries.take 1 ++ more) (file.entries ++ more) s.minSeq s.maxSeq :=
      restarted ▸ (switchFile_bounds distinct member written positive old).logged (by simp_all) new
    by_cases none : file.entries ++ more = []
    · refine iff_of_true ((if_pos none).mpr ((if_pos none).mp bounds)) fun entry inside => ?_
      exact absurd (mem_append_left more inside) (by simp [none])
    · obtain ⟨least, greatest⟩ := (if_neg none).mp bounds
      obtain ⟨lowest, seen, same⟩ := least.1
      rw [Bounds, if_neg none, and_iff_left greatest]
      constructor
      · intro all entry inside
        have below := all.2 ⟨entry, mem_append_left _ inside, rfl⟩
        exact ⟨lowest, seen, by omega⟩
      · intro first
        refine ⟨⟨lowest, ((take_sublist _ _).append_right more).subset seen, same⟩, ?_⟩
        rintro _ ⟨entry, inside, rfl⟩
        rcases mem_append.mp inside with before | after
        · obtain ⟨e, early, below⟩ := first entry before
          exact (least.2 ⟨e, early, rfl⟩).trans (Int.ofNat_le.mpr below)
        · exact least.2 ⟨entry, mem_append_right _ after, rfl⟩

def activeLog (seqs : List Nat) : LogFile :=
  { name := generateFile 10 0 (-1) (-1), info := some {}, entries := seqs.map commitEntry }

theorem increasing_bounds : let file := activeLog [3, 5]
    let s := [commitEntry 4].foldl Recovery.writeLog (switchFile [file] file.name {})
    Bounds (file.entries ++ [commitEntry 4]) (file.entries ++ [commitEntry 4]) s.minSeq s.maxSeq := by
  intro file s
  obtain ⟨-, bounds⟩ := @restart_bounds_iff [file] file {} s [commitEntry 4] 6 20 21 {} (by decide) (by decide)
    (by decide) (by decide) (by decide) rfl
  exact bounds.mpr (by decide)

theorem smaller_request_left_out : let file := activeLog [5, 3]
    let s := switchFile [file] file.name {}
    s.minSeq = 5 ∧ s.maxSeq = 5 ∧ (s.finishFile 6 true 20 21 {}).directory.map LogFile.name =
      [generateFile 20 6 5 5, generateFile 21 6 (-1) (-1)] := by
  decide

end Bounds

end ResilientDB.Proof
