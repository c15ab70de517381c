import ResilientDB.Library.Except
import ResilientDB.Model.Storage
import Mathlib.Data.List.MinMax

namespace ResilientDB.Proof
open Model Library List Option

variable {m m' : MemoryDB} {s s' : ResLevelDB} {codec : HistoryCodec} {key value : String} {version : Int}
  {values : List String}

abbrev Histories := String → List String

def numbered (values : List String) : List Value := values.mapIdx fun i value => ⟨value, i + 1⟩

@[simp] theorem numbered_nil : numbered [] = [] := rfl

theorem numbered_append (values : List String) (value : String) :
    numbered (values ++ [value]) = numbered values ++ [⟨value, values.length + 1⟩] := mapIdx_concat

@[simp] theorem length_numbered : (numbered values).length = values.length := length_mapIdx

theorem numbered_eq_nil : numbered values = [] ↔ values = [] := mapIdx_eq_nil_iff

theorem getLast?_numbered : (numbered values).getLast? = values.getLast?.map fun value => ⟨value, values.length⟩ := by
  cases values using List.reverseRecOn with
  | nil => rfl
  | append_singleton values value => simp [numbered_append]

theorem lastVersion_numbered : ResLevelDB.lastVersion (numbered values) = values.length := by
  unfold ResLevelDB.lastVersion
  rw [getLast?_numbered]
  cases values using List.reverseRecOn with
  | nil => rfl
  | append_singleton values value => simp

theorem version_pos {item : Value} (member : item ∈ numbered values) : 0 < item.version := by
  obtain ⟨i, bound, rfl⟩ := mem_mapIdx.mp member
  dsimp only
  omega

theorem findVersion_none {items : List Value} (positive : ∀ item ∈ items, 0 < item.version) (none : ¬ 0 < version) :
    findVersion version items = .none := by
  induction items with
  | nil => rfl
  | cons item older ih =>
    have first := positive item mem_cons_self
    unfold findVersion
    rw [if_neg (by omega), if_neg (by omega)]
    exact ih fun item member => positive item (mem_cons_of_mem _ member)

def MemoryHolds (h : Histories) (m : MemoryDB) : Prop :=
  ∀ key, m.kvMapWithV.find? key = if h key = [] then none else some (numbered (h key))

structure LevelHolds (h : Histories) (s : ResLevelDB) : Prop where
  writeBatchSize : s.writeBatchSize = 1
  batch : s.batch = []
  db : ∀ key, s.db.find? key = if h key = [] then none else some (s.codec.serialize (numbered (h key)))

def record (h : Histories) (op : StoreOp) (result : StoreResult) : Histories :=
  match op, result with
  | .setValueWithVersion key value _, .code 0 => Function.update h key (h key ++ [value])
  | _, _ => h

variable {h : Histories}

theorem LevelHolds.parse (stores : LevelHolds h s) (key : String) :
    s.codec.parse (s.getValue key) = some (numbered (h key)) := by
  rw [ResLevelDB.getValue, stores.db]
  split
  · rename_i empty
    rw [empty, numbered_nil, ← s.codec.parse_serialize [], s.codec.serialize_nil]
    rfl
  · exact s.codec.parse_serialize _

theorem nextVersion_cases (version : Int) :
    nextVersion version = .ok (version + 1) ∨ nextVersion version = .error .overflow := by
  unfold nextVersion
  split
  · exact .inl rfl
  · exact .inr rfl

theorem MemoryHolds.set (keeps : MemoryHolds h m) (key value : String) (version : Int) :
    m.setValueWithVersion key value version =
      if ((h key).length : Int) ≠ version then .ok (m, -2) else m.pushBack key (numbered (h key)) value version := by
  unfold MemoryDB.setValueWithVersion
  rw [keeps key]
  by_cases empty : h key = []
  · rw [if_pos empty, empty]
    simp [eq_comm]
  · rw [if_neg empty]
    obtain ⟨last, found⟩ := isSome_iff_exists.mp (getLast?_isSome.mpr empty)
    have back : MemoryDB.back (numbered (h key)) = .ok ⟨last, (h key).length⟩ := by
      unfold MemoryDB.back
      rw [getLast?_numbered, found]
      rfl
    dsimp only
    rw [back]
    rfl

theorem find?_assign_numbered {form : Type} (encode : List Value → form) {map : OrderedMap String form}
    (holds : ∀ key, map.find? key = if h key = [] then none else some (encode (numbered (h key)))) (other : String) :
    (map.assign key (encode (numbered (h key) ++ [⟨value, (h key).length + 1⟩]))).find? other =
      if Function.update h key (h key ++ [value]) other = [] then none
      else some (encode (numbered (Function.update h key (h key ++ [value]) other))) := by
  rw [OrderedMap.find?_assign]
  by_cases same : other = key
  · subst same
    rw [if_pos rfl, Function.update_self, if_neg (append_ne_nil_of_right_ne_nil _ (cons_ne_nil _ _)), numbered_append]
  · rw [if_neg same, Function.update_of_ne same]
    exact holds other

theorem MemoryHolds.assign (keeps : MemoryHolds h m) : MemoryHolds (Function.update h key (h key ++ [value])) { m with
      kvMapWithV := m.kvMapWithV.assign key (numbered (h key) ++ [⟨value, (h key).length + 1⟩]) } :=
  find?_assign_numbered id keeps

theorem LevelHolds.set (stores : LevelHolds h s) (written : Bool) (key value : String) (version : Int) :
    s.setValueWithVersion written key value version =
      if ((h key).length : Int) ≠ version then .ok (s, -2)
      else nextVersion version >>= fun next =>
        .ok (s.setValue written key (s.codec.serialize (numbered (h key) ++ [⟨value, next⟩]))) := by
  unfold ResLevelDB.setValueWithVersion
  rw [stores.parse]
  dsimp only
  rw [lastVersion_numbered]

theorem LevelHolds.setValue (stores : LevelHolds h s) (key value : String) :
    s.setValue true key value = ({ s with db := s.db.assign key value, batch := [] }, 0) := by
  unfold ResLevelDB.setValue
  dsimp only
  rw [stores.writeBatchSize, if_pos (by unfold approximateSize; omega)]
  simp [ResLevelDB.flush, ResLevelDB.applied, stores.batch]

theorem LevelHolds.assign (stores : LevelHolds h s) : LevelHolds (Function.update h key (h key ++ [value])) { s with
      db := s.db.assign key (s.codec.serialize (numbered (h key) ++ [⟨value, (h key).length + 1⟩])), batch := [] } := by
  exact ⟨stores.writeBatchSize, rfl, find?_assign_numbered s.codec.serialize stores.db⟩

theorem getValueWithVersion_same (keeps : MemoryHolds h m) (stores : LevelHolds h s) (key : String) (version : Int) :
    m.getValueWithVersion key version = s.getValueWithVersion key version := by
  unfold MemoryDB.getValueWithVersion ResLevelDB.getValueWithVersion
  rw [keeps key, stores.parse key]
  by_cases empty : h key = []
  · simp [empty]
  · rw [if_neg empty]
    dsimp only
    cases (numbered (h key)).getLast? with
    | none => rfl
    | some last =>
      dsimp only
      split_ifs with positive
      · rfl
      · rw [findVersion_none (fun item member => version_pos (mem_reverse.mp member)) positive]
        rfl

theorem getHistory_same (keeps : MemoryHolds h m) (stores : LevelHolds h s) (key : String)
    (minVersion maxVersion : Int) :
    m.getHistory key minVersion maxVersion = .ok (s.getHistory key minVersion maxVersion) := by
  unfold MemoryDB.getHistory ResLevelDB.getHistory
  rw [keeps key, stores.parse key]
  by_cases empty : h key = []
  · simp [empty, historyBetween]
  · rw [if_neg empty]
    dsimp only
    rw [if_neg (numbered_eq_nil.not.mpr empty)]

def newest (wanted : String → Prop) [DecidablePred wanted] (key : String) (history : List Value) : Option Value :=
  if wanted key then history.getLast? else none

theorem foldlM_back (wanted : String → Prop) [DecidablePred wanted] {entries : List (String × List Value)}
    (full : ∀ it ∈ entries, it.2 ≠ []) (resp : OrderedMap String Value) :
    entries.foldlM (fun resp it =>
      if wanted it.1 then MemoryDB.back it.2 >>= fun last => .ok (resp.insertNew it.1 last) else .ok resp) resp =
    .ok (entries.foldl (fun copy it =>
      (newest wanted it.1 it.2).elim copy fun last => copy.insertNew it.1 last) resp) := by
  induction entries generalizing resp with
  | nil => rfl
  | cons it rest ih =>
    have later := ih fun it member => full it (mem_cons_of_mem _ member)
    obtain ⟨last, found⟩ := isSome_iff_exists.mp (getLast?_isSome.mpr (full it mem_cons_self))
    rw [foldlM_cons, foldl_cons]
    by_cases want : wanted it.1
    · simp only [want, MemoryDB.back, found, newest, if_true, elim_some]
      exact later _
    · simp only [want, newest, if_false, elim_none]
      exact later _

theorem addItem_eq (resp : OrderedMap String Value) (it : String × String) :
    s.addItem resp it = ((s.codec.parse it.2).bind List.getLast?).elim resp fun last => resp.insertNew it.1 last := by
  unfold ResLevelDB.addItem
  cases s.codec.parse it.2 with
  | none => rfl
  | some history =>
    dsimp only [bind_some]
    cases history.getLast? with
    | none => rfl
    | some last => rfl

theorem foldl_addItem (wanted : String → Prop) [DecidablePred wanted] (entries : List (String × String)) :
    (entries.filter fun it => wanted it.1).foldl s.addItem .empty =
      OrderedMap.collect (fun key text => (s.codec.parse text).bind (newest wanted key)) entries := by
  unfold OrderedMap.collect
  rw [foldl_filter]
  congr 1
  funext resp it
  by_cases want : wanted it.1
  · have kept : newest wanted it.1 = List.getLast? := funext fun history => if_pos want
    simp [want, addItem_eq, kept]
  · have left : newest wanted it.1 = fun _ => none := funext fun history => if_neg want
    simp [want, left]

theorem MemoryHolds.full (keeps : MemoryHolds h m) (iteration : Iteration) :
    ∀ it ∈ iteration.order m.kvMapWithV.entries, it.2 ≠ [] := by
  intro it member
  have found := OrderedMap.find?_eq_some.mpr ((iteration.perm _).mem_iff.mp member)
  rw [keeps it.1] at found
  split_ifs at found with empty
  rw [← Option.some.inj found]
  exact numbered_eq_nil.not.mpr empty

section

variable (keeps : MemoryHolds h m) (stores : LevelHolds h s) (iteration : Iteration)
include keeps stores iteration

theorem collect_same (wanted : String → Prop) [DecidablePred wanted] :
    OrderedMap.collect (newest wanted) (iteration.order m.kvMapWithV.entries) =
      OrderedMap.collect (fun key text => (s.codec.parse text).bind (newest wanted key)) s.db.entries := by
  refine OrderedMap.ext_find? fun key => ?_
  rw [OrderedMap.find?_collect _ (iteration.perm _), OrderedMap.find?_collect _ (List.Perm.refl _), keeps key,
    stores.db key]
  split_ifs with empty
  · rfl
  · rw [bind_some, bind_some, s.codec.parse_serialize, bind_some]

theorem getAllItems_same : m.getAllItems iteration = .ok s.getAllItems := by
  have memory := foldlM_back (fun _ => True) (keeps.full iteration) .empty
  have level := foldl_addItem (s := s) (fun _ => True) s.db.entries
  simp only [if_true, decide_true, filter_true] at memory level
  unfold MemoryDB.getAllItems ResLevelDB.getAllItems
  rw [level, ← collect_same keeps stores iteration]
  exact memory

theorem getKeyRange_same (minKey maxKey : String) :
    m.getKeyRange iteration minKey maxKey = .ok (s.getKeyRange minKey maxKey) := by
  have memory := foldlM_back (fun key => minKey ≤ key ∧ key ≤ maxKey) (keeps.full iteration) .empty
  have level := foldl_addItem (s := s) (fun key => minKey ≤ key ∧ key ≤ maxKey) s.db.entries
  unfold MemoryDB.getKeyRange ResLevelDB.getKeyRange
  rw [OrderedMap.dropWhile_takeWhile s.db.sorted, level, ← collect_same keeps stores iteration]
  exact memory

end

def isVersioned : StoreOp → Bool
  | .setValue _ _ => false
  | .getValue _ => false
  | .flush => false
  | _ => true

def Same (h : Histories) (m : MemoryDB) (s : ResLevelDB) : Prop := MemoryHolds h m ∧ LevelHolds h s

theorem set_alike (same : Same h m s) (iteration : Iteration) :
    Alike (fun result => Same (record h (.setValueWithVersion key value version) result))
      (m.call (.setValueWithVersion key value version, iteration))
      (s.call true (.setValueWithVersion key value version)) := by
  obtain ⟨keeps, stores⟩ := same
  unfold MemoryDB.call ResLevelDB.call
  dsimp only
  rw [keeps.set, stores.set]
  by_cases current : ((h key).length : Int) = version
  · rw [if_neg (not_not.mpr current), if_neg (not_not.mpr current)]
    unfold MemoryDB.pushBack
    subst current
    rcases nextVersion_cases (h key).length with next | overflows
    · rw [next]
      simp only [bind, Except.bind, stores.setValue]
      exact .ok ⟨keeps.assign, stores.assign⟩
    · rw [overflows]
      exact .error _
  · rw [if_pos current, if_pos current]
    exact .ok ⟨keeps, stores⟩

theorem call_alike {op : StoreOp} (versioned : isVersioned op) (same : Same h m s) (iteration : Iteration) :
    Alike (fun result => Same (record h op result)) (m.call (op, iteration)) (s.call true op) := by
  have keeps := same.1
  have stores := same.2
  cases op with
  | setValueWithVersion key value version => exact set_alike same iteration
  | getValueWithVersion key version =>
    unfold MemoryDB.call ResLevelDB.call
    dsimp only
    rw [getValueWithVersion_same keeps stores]
    exact .ok same
  | getAllItems =>
    unfold MemoryDB.call ResLevelDB.call
    dsimp only
    rw [getAllItems_same keeps stores]
    exact .ok same
  | getKeyRange minKey maxKey =>
    unfold MemoryDB.call ResLevelDB.call
    dsimp only
    rw [getKeyRange_same keeps stores]
    exact .ok same
  | getHistory key minVersion maxVersion =>
    unfold MemoryDB.call ResLevelDB.call
    dsimp only
    rw [getHistory_same keeps stores]
    exact .ok same
  | _ => cases versioned

theorem call_total {op : StoreOp} (versioned : isVersioned op) (same : Same h m s) (iteration : Iteration)
    (room : ∀ key, (h key).length < 2 ^ 31 - 1) : ∃ m' result, m.call (op, iteration) = .ok (m', result) := by
  have keeps := same.1
  cases op with
  | setValueWithVersion key value version =>
    have fits := room key
    unfold MemoryDB.call
    dsimp only
    rw [keeps.set]
    split_ifs with other
    · exact ⟨_, _, rfl⟩
    · unfold MemoryDB.pushBack nextVersion
      rw [if_pos (by omega)]
      exact ⟨_, _, rfl⟩
  | getValueWithVersion key version => exact ⟨_, _, rfl⟩
  | getAllItems =>
    unfold MemoryDB.call
    dsimp only
    rw [getAllItems_same keeps same.2]
    exact ⟨_, _, rfl⟩
  | getKeyRange minKey maxKey =>
    unfold MemoryDB.call
    dsimp only
    rw [getKeyRange_same keeps same.2]
    exact ⟨_, _, rfl⟩
  | getHistory key minVersion maxVersion =>
    unfold MemoryDB.call
    dsimp only
    rw [getHistory_same keeps same.2]
    exact ⟨_, _, rfl⟩
  | _ => cases versioned

theorem length_record_le (h : Histories) (op : StoreOp) (result : StoreResult) (key : String) :
    (record h op result key).length ≤ (h key).length + 1 := by
  unfold record
  split
  · rename_i changed value version
    by_cases same : key = changed
    · subst same
      simp
    · rw [Function.update_of_ne same]
      omega
  · omega

theorem runCalls_total {calls : List (StoreOp × Iteration)} (versioned : ∀ c ∈ calls, isVersioned c.1)
    (same : Same h m s) (room : ∀ key, (h key).length + calls.length < 2 ^ 31) :
    ∃ m' results, runCalls MemoryDB.call m calls = .ok (m', results) := by
  induction calls generalizing h m s with
  | nil => exact ⟨m, [], rfl⟩
  | cons c rest ih =>
    have first := versioned c mem_cons_self
    simp only [length_cons] at room
    obtain ⟨m', result, called⟩ := call_total first same c.2 fun key => by
      have := room key
      omega
    obtain ⟨s', -, related⟩ := (call_alike first same c.2).of_ok called
    have later := fun c member => versioned c (mem_cons_of_mem _ member)
    obtain ⟨m'', results, ran⟩ := ih later related fun key => by
      have grown := length_record_le h c.1 result key
      have := room key
      omega
    refine ⟨m'', result :: results, ?_⟩
    unfold runCalls
    simp only [called, bind, Except.bind, ran]

def recorded (ops : List StoreOp) (results : List StoreResult) : Histories :=
  (ops.zip results).foldl (fun h p => record h p.1 p.2) fun _ => []

structure Behaves {σ : Type} (self : σ) (historyOf : String → List Value)
    (set : String → String → Int → Except StorageFault (σ × Int)) (h : Histories) : Prop where
  histories : ∀ key, historyOf key = numbered (h key)
  succeeds : ∀ key value version after ret, set key value version = .ok (after, ret) →
    (ret = 0 ↔ version = ResLevelDB.lastVersion (historyOf key))
  unchanged : ∀ key value version after ret, set key value version = .ok (after, ret) → ret ≠ 0 → after = self

def memoryHistory (m : MemoryDB) (key : String) : List Value := (m.kvMapWithV.find? key).getD []

def levelHistory (s : ResLevelDB) (key : String) : List Value := (s.codec.parse (s.getValue key)).getD []

theorem behaves_of_set {σ : Type} {self : σ} {historyOf : String → List Value}
    {set : String → String → Int → Except StorageFault (σ × Int)} (histories : ∀ key, historyOf key = numbered (h key))
    (refuses : ∀ key value version, ((h key).length : Int) ≠ version → set key value version = .ok (self, -2))
    (accepts : ∀ key value after ret, set key value (h key).length = .ok (after, ret) → ret = 0) :
    Behaves self historyOf set h := by
  refine ⟨histories, fun key value version after ret ran => ?_, fun key value version after ret ran failed => ?_⟩
  · rw [histories, lastVersion_numbered]
    by_cases current : ((h key).length : Int) = version
    · subst current
      simp [accepts key value after ret ran]
    · rw [refuses key value version current] at ran
      cases ran
      simp [Ne.symm current]
  · by_cases current : ((h key).length : Int) = version
    · subst current
      exact absurd (accepts key value after ret ran) failed
    · rw [refuses key value version current] at ran
      cases ran
      rfl

theorem MemoryHolds.history (keeps : MemoryHolds h m) (key : String) : memoryHistory m key = numbered (h key) := by
  unfold memoryHistory
  rw [keeps key]
  split_ifs with empty
  · rw [empty]
    rfl
  · rfl

theorem MemoryHolds.behaves (keeps : MemoryHolds h m) : Behaves m (memoryHistory m) m.setValueWithVersion h := by
  refine behaves_of_set keeps.history (fun key value version other => ?_) fun key value after ret ran => ?_
  · rw [keeps.set, if_pos other]
  · rw [keeps.set, if_neg (not_not.mpr rfl)] at ran
    unfold MemoryDB.pushBack at ran
    obtain ⟨next, -, ran⟩ := bind_eq_ok.mp ran
    cases ran
    rfl

theorem LevelHolds.behaves (stores : LevelHolds h s) : Behaves s (levelHistory s) (s.setValueWithVersion true) h := by
  refine behaves_of_set (fun key => ?_) (fun key value version other => ?_) fun key value after ret ran => ?_
  · unfold levelHistory
    rw [stores.parse key]
    rfl
  · rw [stores.set, if_pos other]
  · rw [stores.set, if_neg (not_not.mpr rfl)] at ran
    obtain ⟨next, -, ran⟩ := bind_eq_ok.mp ran
    rw [stores.setValue] at ran
    cases ran
    rfl

theorem stores_interchangeable (codec : HistoryCodec) (calls : List (StoreOp × Iteration))
    (versioned : ∀ c ∈ calls, isVersioned c.1) :
    (runCalls MemoryDB.call {} calls).map Prod.snd =
      (runCalls (ResLevelDB.call true) { codec := codec } (calls.map Prod.fst)).map Prod.snd ∧
    (calls.length < 2 ^ 31 → ∃ m results, runCalls MemoryDB.call {} calls = .ok (m, results)) ∧
    ∀ m s results, runCalls MemoryDB.call {} calls = .ok (m, results) →
      runCalls (ResLevelDB.call true) { codec := codec } (calls.map Prod.fst) = .ok (s, results) →
      Behaves m (memoryHistory m) m.setValueWithVersion (recorded (calls.map Prod.fst) results) ∧
      Behaves s (levelHistory s) (s.setValueWithVersion true) (recorded (calls.map Prod.fst) results) := by
  have same : Same (fun _ => []) {} { codec := codec } := ⟨fun key => rfl, rfl, rfl, fun key => rfl⟩
  have alike := runCalls_alike Same (fun h c result => record h c.1 result)
    (fun h m s c member related => call_alike (versioned c member) related c.2) same
  refine ⟨alike.map_snd, fun short => runCalls_total versioned same fun key => by simpa using short, ?_⟩
  intro m s results memory level
  obtain ⟨s', ran, keeps, stores⟩ := alike.of_ok memory
  rw [level] at ran
  cases ran
  have histories : (calls.zip results).foldl (fun h p => record h p.1.1 p.2) (fun _ => []) =
      recorded (calls.map Prod.fst) results := by
    unfold recorded
    rw [zip_map_left, foldl_map]
    rfl
  rw [← histories]
  exact ⟨keeps.behaves, stores.behaves⟩

def tagValue (item : Value) : List Char :=
  item.value.toList.flatMap (fun c => ['c', c]) ++
    (List.replicate item.version.toNat 'p' ++ List.replicate (-item.version).toNat 'n') ++ ['e']

def untag : List Char → List Char → Int → Option (List Value)
  | [], _, _ => some []
  | 'c' :: c :: rest, value, version => untag rest (value ++ [c]) version
  | 'p' :: rest, value, version => untag rest value (version + 1)
  | 'n' :: rest, value, version => untag rest value (version - 1)
  | 'e' :: rest, value, version => (untag rest [] 0).map fun items => ⟨String.ofList value, version⟩ :: items
  | _ :: _, _, _ => none

theorem untag_chars (chars rest value : List Char) (version : Int) :
    untag (chars.flatMap (fun c => ['c', c]) ++ rest) value version = untag rest (value ++ chars) version := by
  induction chars generalizing value with
  | nil => simp
  | cons c chars ih =>
    simp only [flatMap_cons, cons_append, nil_append, untag]
    rw [ih, append_assoc, singleton_append]

theorem untag_count {mark : Char} {step : Int}
    (moves : ∀ rest value version, untag (mark :: rest) value version = untag rest value (version + step))
    (count : Nat) (rest value : List Char) (version : Int) :
    untag (List.replicate count mark ++ rest) value version = untag rest value (version + count * step) := by
  induction count generalizing version with
  | zero => simp
  | succ count ih =>
    rw [replicate_succ, cons_append, moves, ih]
    congr 1
    rw [Int.natCast_succ, Int.add_mul, Int.one_mul]
    omega

theorem untag_positive (rest value : List Char) (version : Int) :
    untag ('p' :: rest) value version = untag rest value (version + 1) := by simp only [untag]

theorem untag_negative (rest value : List Char) (version : Int) :
    untag ('n' :: rest) value version = untag rest value (version + -1) := by
  simp only [untag]
  rfl

theorem untag_tagged (history : List Value) : untag (history.flatMap tagValue) [] 0 = some history := by
  induction history with
  | nil => rfl
  | cons item history ih =>
    simp only [flatMap_cons, tagValue, append_assoc]
    rw [untag_chars, untag_count untag_positive, untag_count untag_negative]
    simp only [singleton_append, nil_append, untag, ih, map_some]
    have number : (0 + (item.version.toNat : Int) * 1 + ((-item.version).toNat : Int) * -1) = item.version := by omega
    rw [number, String.ofList_toList]

def taggedCodec : HistoryCodec where
  parse text := untag text.toList [] 0
  serialize history := String.ofList (history.flatMap tagValue)
  parse_serialize history := by rw [String.toList_ofList, untag_tagged]
  serialize_nil := rfl

def asStored : Iteration where
  order entries := entries
  perm _ := List.Perm.refl _

def backwards : Iteration where
  order entries := entries.reverse
  perm entries := reverse_perm entries

def versionedCalls : List (StoreOp × Iteration) :=
  [(.setValueWithVersion "k" "a" 0, asStored), (.setValueWithVersion "k" "b" 0, asStored),
    (.setValueWithVersion "k" "b" 1, asStored), (.setValueWithVersion "j" "c" 0, asStored),
    (.getValueWithVersion "k" 7, asStored), (.getHistory "k" 1 2, asStored), (.getAllItems, backwards),
    (.getKeyRange "jj" "z", backwards)]

theorem versionedCalls_same :
    (runCalls (ResLevelDB.call true) { codec := taggedCodec } (versionedCalls.map Prod.fst)).map Prod.snd =
      .ok [.code 0, .code (-2), .code 0, .code 0, .item ⟨"b", 2⟩, .history [⟨"b", 2⟩, ⟨"a", 1⟩],
        .items [("j", ⟨"c", 1⟩), ("k", ⟨"b", 2⟩)], .items [("k", ⟨"b", 2⟩)]] := by
  rw [← (stores_interchangeable taggedCodec versionedCalls (by decide)).1]
  rfl

end ResilientDB.Proof
