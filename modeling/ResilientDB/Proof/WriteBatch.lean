import ResilientDB.Proof.Storage

namespace ResilientDB.Proof
open Model Library List

abbrev LevelTrace := List (Transition ResLevelDB (StoreOp × StoreResult))

variable {s s' : ResLevelDB} {codec : HistoryCodec} {key value : String} {version : Int} {written : Bool}
  {writeBatchSize : Nat} {trace past : LevelTrace} {t : Transition ResLevelDB (StoreOp × StoreResult)}

theorem applied_put (s : ResLevelDB) (key value : String) :
    ({ s with batch := s.batch ++ [(key, value)] } : ResLevelDB).applied = s.applied.assign key value := by
  unfold ResLevelDB.applied
  rw [foldl_append]
  rfl

theorem applied_flush (s : ResLevelDB) (written : Bool) : (s.flush written).1.applied = s.applied := by
  unfold ResLevelDB.flush
  split <;> rfl

theorem flush_codec (s : ResLevelDB) (written : Bool) : (s.flush written).1.codec = s.codec := by
  unfold ResLevelDB.flush
  split <;> rfl

theorem applied_setValue (s : ResLevelDB) (written : Bool) (key value : String) :
    (s.setValue written key value).1.applied = s.applied.assign key value := by
  unfold ResLevelDB.setValue
  dsimp only
  split
  · rw [applied_flush, applied_put]
  · exact applied_put s key value

theorem setValue_codec (s : ResLevelDB) (written : Bool) (key value : String) :
    (s.setValue written key value).1.codec = s.codec := by
  unfold ResLevelDB.setValue
  dsimp only
  split
  · exact flush_codec _ written
  · rfl

theorem setValue_ret (s : ResLevelDB) (written : Bool) (key value : String) :
    (s.setValue written key value).2 ≠ -2 := by
  unfold ResLevelDB.setValue
  dsimp only
  split
  · cases written <;> simp
  · simp

theorem setValueWithVersion_cases {ret : Int} (ran : s.setValueWithVersion written key value version = .ok (s', ret)) :
    (s' = s ∧ ret = -2) ∨ ∃ history, s.codec.parse (s.getValue key) = some history ∧
      ResLevelDB.lastVersion history = version ∧
      s' = (s.setValue written key (s.codec.serialize (history ++ [⟨value, version + 1⟩]))).1 ∧
      ret = (s.setValue written key (s.codec.serialize (history ++ [⟨value, version + 1⟩]))).2 := by
  unfold ResLevelDB.setValueWithVersion at ran
  split at ran
  · cases ran
    exact .inl ⟨rfl, rfl⟩
  · rename_i history parsed
    split at ran
    · cases ran
      exact .inl ⟨rfl, rfl⟩
    · rename_i current
      obtain ⟨next, fits, ran⟩ := bind_eq_ok.mp ran
      have number : next = version + 1 := by
        rcases nextVersion_cases version with is | overflows
        · rw [is] at fits
          exact (Except.ok.inj fits).symm
        · rw [overflows] at fits
          cases fits
      rw [number] at ran
      have wrote := (Except.ok.inj ran).symm
      exact .inr ⟨history, parsed, not_not.mp current, congrArg Prod.fst wrote, congrArg Prod.snd wrote⟩

theorem find?_foldl_assign {batch : List (String × String)} (settled : ∀ put ∈ batch, put.1 ≠ key)
    (db : OrderedMap String String) :
    (batch.foldl (fun db put => db.assign put.1 put.2) db).find? key = db.find? key := by
  induction batch generalizing db with
  | nil => rfl
  | cons put rest ih =>
    have first := settled put mem_cons_self
    rw [foldl_cons, ih fun put member => settled put (mem_cons_of_mem _ member), OrderedMap.find?_assign,
      if_neg first.symm]

theorem find?_applied (settled : ∀ put ∈ s.batch, put.1 ≠ key) : s.applied.find? key = s.db.find? key :=
  find?_foldl_assign settled s.db

def accepted (key : String) : StoreOp × StoreResult → Option Value
  | (.setValueWithVersion other value version, .code ret) =>
    if other = key ∧ ret ≠ -2 then some ⟨value, version + 1⟩ else none
  | _ => none

def plainSet (key : String) : StoreOp × StoreResult → Option String
  | (.setValue other value, _) => if other = key then some value else none
  | _ => none

def versionsOf (key : String) (trace : LevelTrace) : List Value :=
  (trace.filterMap fun t => accepted key t.event).reverse

def plainOf (key : String) (trace : LevelTrace) : Option String := trace.findSome? fun t => plainSet key t.event

def effective (codec : HistoryCodec) (trace : LevelTrace) (key : String) : Option String :=
  (plainOf key trace).or (if versionsOf key trace = [] then none else some (codec.serialize (versionsOf key trace)))

theorem versionsOf_cons : versionsOf key (t :: trace) = versionsOf key trace ++ (accepted key t.event).toList := by
  unfold versionsOf
  rw [filterMap_cons]
  cases accepted key t.event with
  | none => simp
  | some item => simp

theorem plainOf_cons : plainOf key (t :: trace) = (plainSet key t.event).or (plainOf key trace) := by
  unfold plainOf
  rw [findSome?_cons]
  cases plainSet key t.event with
  | none => rfl
  | some value => rfl

def readKey : StoreOp → Option String
  | .getValue key => some key
  | .setValueWithVersion key _ _ => some key
  | .getValueWithVersion key _ => some key
  | .getHistory key _ _ => some key
  | _ => none

def versionedKey : StoreOp → Option String
  | .setValueWithVersion key _ _ => some key
  | .getValueWithVersion key _ => some key
  | .getHistory key _ _ => some key
  | _ => none

def NothingWaits (t : Transition ResLevelDB (StoreOp × StoreResult)) : Prop :=
  ∀ key, readKey t.event.1 = some key → ∀ put ∈ t.before.batch, put.1 ≠ key
deriving Decidable

-- No key goes through both interfaces.
def Separate (trace : LevelTrace) : Prop :=
  ∀ t ∈ trace, ∀ key, versionedKey t.event.1 = some key → plainOf key trace = none

structure Tracks (codec : HistoryCodec) (trace : LevelTrace) (s : ResLevelDB) : Prop where
  sameCodec : s.codec = codec
  latest : ∀ key, s.applied.find? key = effective codec trace key
  numbers : ∀ key, ∃ values, versionsOf key trace = numbered values

section

variable (tracks : Tracks codec trace s)
include tracks

theorem Tracks.getValue (settled : ∀ put ∈ s.batch, put.1 ≠ key) :
    s.getValue key = (plainOf key trace).getD (codec.serialize (versionsOf key trace)) := by
  unfold ResLevelDB.getValue
  rw [← find?_applied settled, tracks.latest, effective]
  cases plainOf key trace with
  | some value => rfl
  | none =>
    split_ifs with empty
    · rw [empty, codec.serialize_nil]
      rfl
    · rfl

theorem Tracks.parse (settled : ∀ put ∈ s.batch, put.1 ≠ key)
    (versioned : plainOf key trace = none) : s.codec.parse (s.getValue key) = some (versionsOf key trace) := by
  rw [tracks.getValue settled, versioned, tracks.sameCodec]
  exact codec.parse_serialize _

theorem Tracks.quiet (applied : s'.applied = s.applied) (sameCodec : s'.codec = s.codec)
    (plain : ∀ key, plainSet key t.event = none) (none : ∀ key, accepted key t.event = none) :
    Tracks codec (t :: trace) s' := by
  have versions : ∀ key, versionsOf key (t :: trace) = versionsOf key trace := fun key => by
    rw [versionsOf_cons, none key]
    exact append_nil _
  have plains : ∀ key, plainOf key (t :: trace) = plainOf key trace := fun key => by
    rw [plainOf_cons, plain key]
    rfl
  refine ⟨sameCodec.trans tracks.sameCodec, fun key => ?_, fun key => ?_⟩
  · rw [applied, tracks.latest, effective, effective, versions, plains]
  · rw [versions]
    exact tracks.numbers key

theorem Tracks.setValue (applied : s'.applied = s.applied.assign key value)
    (sameCodec : s'.codec = s.codec) (event : t.event.1 = .setValue key value) : Tracks codec (t :: trace) s' := by
  have versions : ∀ other, versionsOf other (t :: trace) = versionsOf other trace := fun other => by
    have none : accepted other t.event = .none := by
      unfold accepted
      rw [← Prod.eta t.event, event]
    rw [versionsOf_cons, none]
    exact append_nil _
  have plain : ∀ other, plainSet other t.event = if key = other then some value else none := fun other => by
    unfold plainSet
    rw [← Prod.eta t.event, event]
  refine ⟨sameCodec.trans tracks.sameCodec, fun other => ?_, fun other => ?_⟩
  · rw [applied, OrderedMap.find?_assign, tracks.latest, effective, effective, versions, plainOf_cons, plain]
    by_cases same : other = key
    · rw [if_pos same, if_pos same.symm]
      rfl
    · rw [if_neg same, if_neg (Ne.symm same)]
      rfl
  · rw [versions]
    exact tracks.numbers other

theorem Tracks.setVersion (versioned : plainOf key trace = none) (applied : s'.applied =
      s.applied.assign key (codec.serialize (versionsOf key trace ++ [⟨value, (versionsOf key trace).length + 1⟩])))
    (sameCodec : s'.codec = s.codec) (item : ∀ other, accepted other t.event =
      if key = other then some ⟨value, (versionsOf key trace).length + 1⟩ else none)
    (plain : ∀ other, plainSet other t.event = none) : Tracks codec (t :: trace) s' := by
  have plains : ∀ other, plainOf other (t :: trace) = plainOf other trace := fun other => by
    rw [plainOf_cons, plain other]
    rfl
  refine ⟨sameCodec.trans tracks.sameCodec, fun other => ?_, fun other => ?_⟩
  · rw [applied, OrderedMap.find?_assign, effective, plains, versionsOf_cons, item]
    by_cases same : other = key
    · subst same
      rw [if_pos rfl, if_pos rfl, versioned]
      simp
    · rw [if_neg same, if_neg (Ne.symm same), tracks.latest, effective]
      simp
  · rw [versionsOf_cons, item]
    by_cases same : key = other
    · subst same
      obtain ⟨values, numbers⟩ := tracks.numbers key
      refine ⟨values ++ [value], ?_⟩
      rw [if_pos rfl, numbers, numbered_append]
      simp [numbered]
    · rw [if_neg same, Option.toList_none, append_nil]
      exact tracks.numbers other

theorem setVersion_cases (settled : ∀ put ∈ s.batch, put.1 ≠ key) (versioned : plainOf key trace = none) {ret : Int}
    (ran : s.setValueWithVersion written key value version = .ok (s', ret)) :
    (s' = s ∧ ret = -2) ∨ (version = (versionsOf key trace).length ∧ ret ≠ -2 ∧
      s'.applied = s.applied.assign key (codec.serialize (versionsOf key trace ++ [⟨value, version + 1⟩])) ∧
      s'.codec = s.codec) := by
  rcases setValueWithVersion_cases ran with refused | ⟨history, parsed, rfl, rfl, rfl⟩
  · exact .inl refused
  · rw [tracks.parse settled versioned] at parsed
    cases parsed
    obtain ⟨values, numbers⟩ := tracks.numbers key
    have last : ResLevelDB.lastVersion (versionsOf key trace) = (versionsOf key trace).length := by
      rw [numbers, lastVersion_numbered]
      simp [numbered]
    refine .inr ⟨last, setValue_ret s written key _, ?_, setValue_codec s written key _⟩
    rw [applied_setValue, tracks.sameCodec]

theorem Tracks.step {event : StoreOp × StoreResult}
    (step : (levelStore codec writeBatchSize).step s event s') (settled : NothingWaits ⟨s, event, s'⟩)
    (separate : ∀ key, versionedKey event.1 = some key → plainOf key trace = none) :
    Tracks codec (⟨s, event, s'⟩ :: trace) s' := by
  obtain ⟨op, result⟩ := event
  obtain ⟨written, called⟩ := step
  cases op with
  | setValue key value =>
    cases called
    exact tracks.setValue (applied_setValue s written key value) (setValue_codec s written key value) rfl
  | setValueWithVersion key value version =>
    have versioned := separate key rfl
    obtain ⟨⟨after, ret⟩, ran, called⟩ := bind_eq_ok.mp called
    cases called
    rcases setVersion_cases tracks (settled key rfl) versioned ran with ⟨rfl, rfl⟩ | ⟨current, fine, applied, same⟩
    · exact tracks.quiet rfl rfl (fun _ => rfl) fun other => by simp [accepted]
    · subst current
      exact tracks.setVersion versioned applied same (fun other => by simp [accepted, fine]) fun _ => rfl
  | flush =>
    cases called
    exact tracks.quiet (applied_flush s written) (flush_codec s written) (fun _ => rfl) fun _ => rfl
  | _ =>
    cases called
    exact tracks.quiet rfl rfl (fun _ => rfl) fun _ => rfl

end

theorem tracks_run (run : (levelStore codec writeBatchSize).Run trace s) (settled : ∀ t ∈ trace, NothingWaits t)
    (separate : Separate trace) : Tracks codec trace s := by
  induction run with
  | initial first =>
    cases first
    exact ⟨rfl, fun key => rfl, fun key => ⟨[], rfl⟩⟩
  | @next trace s s' event earlier step ih =>
    have plain : ∀ key, plainOf key (⟨s, event, s'⟩ :: trace) = none → plainOf key trace = none := by
      intro key absent
      rw [plainOf_cons] at absent
      exact (Option.or_eq_none_iff.mp absent).2
    have tracks := ih (fun t member => settled t (mem_cons_of_mem _ member))
      fun t member key uses => plain key (separate t (mem_cons_of_mem _ member) key uses)
    exact tracks.step step (settled _ mem_cons_self)
      fun key uses => plain key (separate _ mem_cons_self key uses)

def isSet (key : String) (version : Int) : StoreOp × StoreResult → Bool
  | (.setValueWithVersion other _ number, .code 0) => other = key ∧ number = version
  | _ => false

def valueAt (version : Int) (history : List Value) : Value :=
  match history.getLast? with
  | none => {}
  | some last => if 0 < version then (findVersion version history.reverse).getD last else last

def Reflects (codec : HistoryCodec) (past : LevelTrace) : StoreOp × StoreResult → Prop
  | (.getValue key, result) => result = .text ((plainOf key past).getD (codec.serialize (versionsOf key past)))
  | (.getValueWithVersion key version, result) => result = .item (valueAt version (versionsOf key past))
  | (.getHistory key minVersion maxVersion, result) =>
    result = .history (historyBetween minVersion maxVersion (versionsOf key past).reverse)
  | _ => True

theorem version_le {values : List String} {item : Value} (member : item ∈ numbered values) :
    item.version ≤ values.length := by
  obtain ⟨i, bound, rfl⟩ := mem_mapIdx.mp member
  dsimp only
  omega

theorem countP_numbered_le (values : List String) (version : Int) :
    (numbered values).countP (fun item => item.version = version) ≤ 1 := by
  induction values using List.reverseRecOn with
  | nil => simp
  | append_singleton values value ih =>
    rw [numbered_append, countP_append, countP_singleton]
    by_cases last : (values.length : Int) + 1 = version
    · have none : (numbered values).countP (fun item => item.version = version) = 0 :=
        countP_eq_zero.mpr fun item member => by
          have bound := version_le member
          simp only [decide_eq_true_eq]
          omega
      simp [none, last]
    · simpa [last] using ih

theorem Tracks.isSet_le (tracks : Tracks codec trace s) (key : String) (version : Int) :
    (trace.filter fun t => isSet key version t.event).length ≤ 1 := by
  obtain ⟨values, numbers⟩ := tracks.numbers key
  have bound := countP_numbered_le values (version + 1)
  rw [← numbers, versionsOf, countP_reverse, countP_filterMap] at bound
  rw [← countP_eq_length_filter]
  refine le_trans (countP_mono_left fun t _ set => ?_) bound
  unfold isSet at set
  split at set
  · rename_i other value number event
    simp only [decide_eq_true_eq] at set
    simp [event, accepted, set.1, set.2]
  · cases set

theorem Tracks.reflects {event : StoreOp × StoreResult} (tracks : Tracks codec past s)
    (step : (levelStore codec writeBatchSize).step s event s') (settled : NothingWaits ⟨s, event, s'⟩)
    (separate : ∀ key, versionedKey event.1 = some key → plainOf key past = none) : Reflects codec past event := by
  obtain ⟨op, result⟩ := event
  obtain ⟨written, called⟩ := step
  cases op with
  | getValue key =>
    cases called
    exact congrArg StoreResult.text (tracks.getValue (settled key rfl))
  | getValueWithVersion key version =>
    have parsed := tracks.parse (settled key rfl) (separate key rfl)
    cases called
    refine congrArg StoreResult.item ?_
    cases newest : (versionsOf key past).getLast? with
    | _ => simp only [ResLevelDB.getValueWithVersion, valueAt, parsed, newest]
  | getHistory key minVersion maxVersion =>
    have parsed := tracks.parse (settled key rfl) (separate key rfl)
    cases called
    refine congrArg StoreResult.history ?_
    unfold ResLevelDB.getHistory
    rw [parsed]
  | _ => trivial

theorem no_lost_update (run : (levelStore codec writeBatchSize).Run trace s) (settled : ∀ t ∈ trace, NothingWaits t)
    (separate : Separate trace) :
    (∀ key version, (trace.filter fun t => isSet key version t.event).length ≤ 1) ∧
    ∀ t past, t :: past <:+ trace → Reflects codec past t.event := by
  refine ⟨(tracks_run run settled separate).isSet_le, fun t past suffix => ?_⟩
  obtain ⟨earlier, step⟩ := run.suffix suffix
  have sub : t :: past ⊆ trace := suffix.subset
  have plain : ∀ key, plainOf key trace = none → plainOf key past = none := fun key absent => by
    unfold plainOf at absent ⊢
    exact findSome?_eq_none_iff.mpr fun other member =>
      findSome?_eq_none_iff.mp absent other (sub (mem_cons_of_mem _ member))
  have tracks := tracks_run earlier (fun other member => settled other (sub (mem_cons_of_mem _ member)))
    fun other member key uses => plain key (separate other (sub (mem_cons_of_mem _ member)) key uses)
  exact tracks.reflects step (settled t (sub mem_cons_self))
    fun key uses => plain key (separate t (sub mem_cons_self) key uses)

theorem levelAct_sound (codec : HistoryCodec) (writeBatchSize : Nat) (s : ResLevelDB) (event : StoreOp × StoreResult)
    (s' : ResLevelDB) (moved : levelAct s event = some s') : (levelStore codec writeBatchSize).step s event s' := by
  unfold levelAct at moved
  split at moved
  · rename_i after result called
    split at moved
    · rename_i same
      cases moved
      exact ⟨true, same ▸ called⟩
    · cases moved
  · cases moved

def flushedSets : List (StoreOp × StoreResult) :=
  [(.setValueWithVersion "k" "a" 0, .code 0), (.flush, .flushed true), (.setValueWithVersion "k" "b" 1, .code 0),
    (.setValueWithVersion "j" "c" 0, .code 0), (.flush, .flushed true),
    (.getHistory "k" 0 9, .history [⟨"b", 2⟩, ⟨"a", 1⟩])]

theorem flushedSets_kept : ∃ trace s, (levelStore taggedCodec 1000).Run trace s ∧
    (∀ key version, (trace.filter fun t => isSet key version t.event).length ≤ 1) ∧
    (∀ t past, t :: past <:+ trace → Reflects taggedCodec past t.event) ∧
    trace.map (fun t => t.event) = flushedSets.reverse := by
  obtain ⟨trace, s, run, settled, events⟩ := System.run_of_play (levelAct_sound taggedCodec 1000) rfl flushedSets
    (fun trace _ => (∀ t ∈ trace, NothingWaits t) ∧ trace.map (fun t => t.event) = flushedSets.reverse)
    (by decide +kernel)
  have separate : Separate trace := by
    intro t member key uses
    refine findSome?_eq_none_iff.mpr fun other listed => ?_
    have inside := mem_map_of_mem (f := fun t => t.event) listed
    rw [events, mem_reverse] at inside
    have versioned : ∀ event ∈ flushedSets, plainSet key event = none := by simp [flushedSets, plainSet]
    exact versioned _ inside
  obtain ⟨once, reflects⟩ := no_lost_update run settled separate
  exact ⟨trace, s, run, once, reflects, events⟩

def waitingSets : List (StoreOp × StoreResult) :=
  [(.setValueWithVersion "k" "a" 0, .code 0), (.getValue "k", .text ""), (.setValueWithVersion "k" "b" 0, .code 0),
    (.flush, .flushed true), (.getHistory "k" 0 9, .history [⟨"b", 1⟩])]

def mixedSets : List (StoreOp × StoreResult) :=
  [(.setValueWithVersion "k" "a" 0, .code 0), (.setValue "k" "", .code 0), (.setValueWithVersion "k" "b" 0, .code 0)]

theorem update_lost :
    (∃ trace s, (levelStore taggedCodec 1000).Run trace s ∧ trace.map (fun t => t.event) = waitingSets.reverse ∧
      (trace.filter fun t => isSet "k" 0 t.event).length = 2) ∧
    ∃ trace s, (levelStore taggedCodec 1).Run trace s ∧ trace.map (fun t => t.event) = mixedSets.reverse ∧
      (trace.filter fun t => isSet "k" 0 t.event).length = 2 := by
  constructor
  · exact System.run_of_play (levelAct_sound taggedCodec 1000) rfl waitingSets _ (by decide +kernel)
  · exact System.run_of_play (levelAct_sound taggedCodec 1) rfl mixedSets _ (by decide +kernel)

end ResilientDB.Proof
