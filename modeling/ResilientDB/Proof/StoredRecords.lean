import ResilientDB.Proof.WriteBatch

namespace ResilientDB.Proof
open Model Library List Option

variable {s s' : ResLevelDB} {codec : HistoryCodec} {key text value : String} {version : Int} {written : Bool}
  {writeBatchSize : Nat} {trace past later : LevelTrace} {t : Transition ResLevelDB (StoreOp × StoreResult)}
  {event : StoreOp × StoreResult} {P : String → Prop}

def recordOf (t : Transition ResLevelDB (StoreOp × StoreResult)) : Option (String × String) :=
  match t.event with
  | (.setValue key value, _) => some (key, value)
  | (.setValueWithVersion key value version, .code ret) =>
    if ret = -2 then none
    else some (key, t.before.codec.serialize (levelHistory t.before key ++ [⟨value, version + 1⟩]))
  | _ => none

theorem flush_written (s : ResLevelDB) (written : Bool) :
    (s.flush written).1.batch = [] ∨ (s.flush written).1.db = s.db := by
  cases written with
  | true => exact .inl rfl
  | false => exact .inr rfl

theorem setValue_written (s : ResLevelDB) (written : Bool) (key value : String) :
    (s.setValue written key value).1.batch = [] ∨ (s.setValue written key value).1.db = s.db := by
  unfold ResLevelDB.setValue
  dsimp only
  split
  · exact flush_written _ written
  · exact .inr rfl

theorem setValue_failed (failed : (s.setValue written key value).2 = -1) :
    (s.setValue written key value).1.batch ≠ [] ∧ (s.setValue written key value).1.db = s.db := by
  unfold ResLevelDB.setValue at failed ⊢
  dsimp only at failed ⊢
  split at failed
  · cases written with
    | true => cases failed
    | false => simp_all [ResLevelDB.flush]
  · cases failed

theorem applied_of_written (empty : s.batch = []) : s.applied = s.db := by
  unfold ResLevelDB.applied
  rw [empty]
  rfl

theorem level_step (step : (levelStore codec writeBatchSize).step s event s') :
    s'.codec = s.codec ∧ (s'.batch = [] ∨ s'.db = s.db) ∧
      s'.applied = (recordOf ⟨s, event, s'⟩).elim s.applied fun put => s.applied.assign put.1 put.2 := by
  obtain ⟨op, result⟩ := event
  obtain ⟨written, called⟩ := step
  cases op with
  | setValue key value =>
    cases called
    exact ⟨setValue_codec s written key value, setValue_written s written key value,
      applied_setValue s written key value⟩
  | setValueWithVersion key value version =>
    obtain ⟨⟨after, ret⟩, ran, called⟩ := bind_eq_ok.mp called
    cases called
    rcases setValueWithVersion_cases ran with ⟨rfl, rfl⟩ | ⟨history, parsed, rfl, rfl, rfl⟩
    · exact ⟨rfl, .inr rfl, rfl⟩
    · refine ⟨setValue_codec s written key _, setValue_written s written key _, ?_⟩
      simp only [recordOf, if_neg (setValue_ret s written key _), levelHistory, parsed]
      exact applied_setValue s written key _
  | flush =>
    cases called
    exact ⟨flush_codec s written, flush_written s written, applied_flush s written⟩
  | _ =>
    cases called
    exact ⟨rfl, .inr rfl, rfl⟩

theorem codec_run (run : (levelStore codec writeBatchSize).Run trace s) : s.codec = codec := by
  refine run.invariant (fun _ => True) (fun s => s.codec = codec) ?_ ?_ fun _ _ => trivial
  · rintro s rfl
    rfl
  · exact fun s event s' same step _ => (level_step step).1.trans same

def OnRecord (P : String → Prop) (s : ResLevelDB) (key : String) : Prop :=
  P (s.getValue key) ∧ P ((s.applied.find? key).getD "")

theorem OnRecord.step (holding : OnRecord P s key) (step : (levelStore codec writeBatchSize).step s event s')
    (put : ∀ text, recordOf ⟨s, event, s'⟩ = some (key, text) → P text) : OnRecord P s' key := by
  obtain ⟨-, written, applied⟩ := level_step step
  have newest : P ((s'.applied.find? key).getD "") := by
    rw [applied]
    cases record : recordOf ⟨s, event, s'⟩ with
    | none => exact holding.2
    | some new =>
      obtain ⟨other, text⟩ := new
      rw [elim_some, OrderedMap.find?_assign]
      split_ifs with same
      · exact put text (same ▸ record)
      · exact holding.2
  refine ⟨?_, newest⟩
  unfold ResLevelDB.getValue
  rcases written with empty | same
  · exact applied_of_written empty ▸ newest
  · exact same ▸ holding.1

def InSequence (codec : HistoryCodec) (text : String) : Prop := ∃ values, codec.parse text = some (numbered values)

theorem inSequence_run (run : (levelStore codec writeBatchSize).Run trace s) (versioned : plainOf key trace = none) :
    OnRecord (InSequence codec) s key := by
  induction run with
  | initial first =>
    cases first
    have empty : InSequence codec "" := ⟨[], by rw [← codec.serialize_nil, codec.parse_serialize, numbered_nil]⟩
    exact ⟨empty, empty⟩
  | @next trace s s' event earlier step ih =>
    rw [plainOf_cons, or_eq_none_iff] at versioned
    have holding := ih versioned.2
    refine holding.step step fun text record => ?_
    have same := codec_run earlier
    subst same
    obtain ⟨values, parsed⟩ := holding.1
    obtain ⟨op, result⟩ := event
    cases op with
    | setValue other value =>
      cases record
      simp [plainSet] at versioned
    | setValueWithVersion other value version =>
      obtain ⟨written, called⟩ := step
      obtain ⟨⟨after, ret⟩, ran, called⟩ := bind_eq_ok.mp called
      cases called
      simp only [recordOf, ite_none_left_eq_some, Option.some.injEq, Prod.mk.injEq] at record
      obtain ⟨fine, rfl, rfl⟩ := record
      rcases setValueWithVersion_cases ran with ⟨-, refused⟩ | ⟨history, found, rfl, -⟩
      · exact absurd refused fine
      · rw [parsed] at found
        cases found
        refine ⟨values ++ [value], ?_⟩
        rw [s.codec.parse_serialize, levelHistory, parsed, lastVersion_numbered, numbered_append]
        rfl
    | _ => cases record

theorem MemoryHolds.call {h : Histories} {m m' : MemoryDB} {c : StoreOp × Iteration} {result : StoreResult}
    (keeps : MemoryHolds h m) (called : m.call c = .ok (m', result)) : ∃ h', MemoryHolds h' m' := by
  obtain ⟨op, iteration⟩ := c
  cases op with
  | setValueWithVersion key value version =>
    obtain ⟨⟨after, ret⟩, ran, called⟩ := bind_eq_ok.mp called
    cases called
    rw [keeps.set] at ran
    split_ifs at ran with other
    · cases ran
      exact ⟨h, keeps⟩
    · obtain ⟨next, fits, ran⟩ := bind_eq_ok.mp ran
      cases ran
      rw [← not_not.mp other, nextVersion] at fits
      split_ifs at fits
      cases fits
      exact ⟨_, keeps.assign⟩
  | getAllItems | getKeyRange minKey maxKey | getHistory key minVersion maxVersion =>
    obtain ⟨items, -, called⟩ := bind_eq_ok.mp called
    cases called
    exact ⟨h, keeps⟩
  | _ =>
    cases called
    exact ⟨h, keeps⟩

theorem memory_topHistory (topNumber : Int) {resp : List Value} (few : resp.length < max 1 (topSize topNumber))
    (items : List Value) : MemoryDB.topHistory topNumber resp items =
      resp ++ items.take (max 1 (topSize topNumber) - resp.length) := by
  induction items generalizing resp with
  | nil => simp [MemoryDB.topHistory]
  | cons item older ih =>
    unfold MemoryDB.topHistory
    rw [length_append, length_singleton]
    split_ifs with enough
    · rw [show max 1 (topSize topNumber) - resp.length = 1 by omega, take_succ_cons, take_zero]
    · rw [ih (by simp; omega), length_append, length_singleton, append_assoc, singleton_append, ← take_succ_cons]
      congr 2
      omega

theorem level_topHistory (topNumber : Int) (resp items : List Value) :
    ResLevelDB.topHistory topNumber resp items = resp ++ items.take (topSize topNumber - resp.length) := by
  induction items generalizing resp with
  | nil => simp [ResLevelDB.topHistory]
  | cons item older ih =>
    unfold ResLevelDB.topHistory
    split_ifs with few
    · rw [ih, length_append, length_singleton, append_assoc, singleton_append, ← take_succ_cons]
      congr 2
      omega
    · rw [Nat.sub_eq_zero_of_le (not_lt.mp few), take_zero, append_nil]

theorem historyBetween_all {low high : Int} {items : List Value}
    (inside : ∀ item ∈ items, low ≤ item.version ∧ item.version ≤ high) : historyBetween low high items = items := by
  induction items with
  | nil => rfl
  | cons item older ih =>
    obtain ⟨least, most⟩ := inside item mem_cons_self
    rw [historyBetween, if_neg (not_lt.mpr least), if_pos most,
      ih fun item member => inside item (mem_cons_of_mem _ member)]

theorem historyBetween_numbered (values : List String) :
    historyBetween 1 (ResLevelDB.lastVersion (numbered values)) (numbered values).reverse =
      (numbered values).reverse := by
  refine historyBetween_all fun item member => ?_
  rw [mem_reverse] at member
  exact ⟨version_pos member, lastVersion_numbered ▸ version_le member⟩

def Shows (codec : HistoryCodec) : StoreOp → String → Prop
  | .setValue _ value, text => text = value
  | .setValueWithVersion _ value version, text =>
    ∃ history, codec.parse text = some history ∧ ⟨value, version + 1⟩ ∈ history
  | _, _ => False

def PutsOn (key : String) (t : Transition ResLevelDB (StoreOp × StoreResult)) : Prop :=
  ∃ text, recordOf t = some (key, text)

-- A write succeeds before the key is put again.
def Released (key : String) : LevelTrace → Prop
  | [] => False
  | t :: later => Released key later ∨ t.after.batch = [] ∧ ∀ u ∈ t :: later, ¬ PutsOn key u

theorem failed_step (step : (levelStore codec writeBatchSize).step s event s') (failed : event.2 = .code (-1)) :
    s'.batch ≠ [] ∧ s'.db = s.db := by
  obtain ⟨op, result⟩ := event
  obtain ⟨written, called⟩ := step
  cases failed
  cases op with
  | setValue key value =>
    simp only [ResLevelDB.call, Except.ok.injEq, Prod.mk.injEq, StoreResult.code.injEq] at called
    obtain ⟨rfl, code⟩ := called
    exact setValue_failed code
  | setValueWithVersion key value version =>
    obtain ⟨⟨after, ret⟩, ran, called⟩ := bind_eq_ok.mp called
    cases called
    rcases setValueWithVersion_cases ran with ⟨-, refused⟩ | ⟨history, -, -, rfl, code⟩
    · cases refused
    · exact setValue_failed code.symm
  | getAllItems | _ => cases called

theorem shows_own (same : t.before.codec = codec) (record : recordOf t = some (key, text)) :
    Shows codec t.event.1 text := by
  subst same
  obtain ⟨s, ⟨op, result⟩, s'⟩ := t
  unfold recordOf at record
  split at record
  · rename_i event
    cases event
    cases record
    rfl
  · rename_i event
    cases event
    split_ifs at record
    cases record
    exact ⟨_, s.codec.parse_serialize _, mem_append_right _ (mem_singleton_self _)⟩
  · cases record

theorem find?_record (step : (levelStore codec writeBatchSize).step s event s')
    (record : recordOf ⟨s, event, s'⟩ = some (key, text)) : s'.applied.find? key = some text := by
  rw [(level_step step).2.2, record, elim_some, OrderedMap.find?_assign, if_pos rfl]

theorem find?_other (step : (levelStore codec writeBatchSize).step s event s')
    (other : ¬ PutsOn key ⟨s, event, s'⟩) : s'.applied.find? key = s.applied.find? key := by
  rw [(level_step step).2.2]
  cases record : recordOf ⟨s, event, s'⟩ with
  | none => rfl
  | some put =>
    rw [elim_some, OrderedMap.find?_assign, if_neg]
    rintro rfl
    exact other ⟨put.2, record⟩

structure Hidden (codec : HistoryCodec) (op : StoreOp) (key text : String) (later : LevelTrace) (s : ResLevelDB) :
    Prop where
  unreleased : ¬ Released key later
  unseen : ∀ u ∈ later, ¬ Shows codec op (u.after.getValue key)
  stored : ¬ Shows codec op (s.getValue key)
  newest : (∀ u ∈ later, ¬ PutsOn key u) ∧ s.batch ≠ [] ∧ s.applied.find? key = some text ∨
    (∃ u ∈ later, PutsOn key u) ∧ ¬ Shows codec op ((s.applied.find? key).getD "")

theorem Hidden.step {op : StoreOp} (hidden : Hidden codec op key text later s) (own : Shows codec op text)
    (step : (levelStore codec writeBatchSize).step s event s')
    (only : ∀ other, recordOf ⟨s, event, s'⟩ = some (key, other) → Shows codec op other →
      Shows codec op (s.getValue key)) :
    Hidden codec op key text (⟨s, event, s'⟩ :: later) s' ∨
      Released key (⟨s, event, s'⟩ :: later) ∧ Shows codec op (s'.getValue key) := by
  have value : s'.getValue key = s.getValue key ∨ s'.batch = [] ∧ s'.getValue key = (s'.applied.find? key).getD "" := by
    unfold ResLevelDB.getValue
    rcases (level_step step).2.1 with empty | same
    · exact .inr ⟨empty, by rw [applied_of_written empty]⟩
    · exact .inl (by rw [same])
  have replaced (puts : ∃ u ∈ ⟨s, event, s'⟩ :: later, PutsOn key u)
      (newest : ¬ Shows codec op ((s'.applied.find? key).getD "")) :
      Hidden codec op key text (⟨s, event, s'⟩ :: later) s' := by
    have stored : ¬ Shows codec op (s'.getValue key) := by
      rcases value with same | ⟨-, same⟩
      · exact same ▸ hidden.stored
      · exact same ▸ newest
    refine ⟨?_, forall_mem_cons.mpr ⟨stored, hidden.unseen⟩, stored, .inr ⟨puts, newest⟩⟩
    rintro (before | ⟨-, none⟩)
    · exact hidden.unreleased before
    · obtain ⟨u, member, puts⟩ := puts
      exact none u member puts
  by_cases puts : PutsOn key ⟨s, event, s'⟩
  · obtain ⟨other, record⟩ := puts
    refine .inl (replaced ⟨_, mem_cons_self, other, record⟩ ?_)
    rw [find?_record step record]
    exact fun shows => hidden.stored (only other record shows)
  · rcases hidden.newest with ⟨none, waits, last⟩ | ⟨⟨u, member, before⟩, newest⟩
    · have untouched : ∀ u ∈ ⟨s, event, s'⟩ :: later, ¬ PutsOn key u := forall_mem_cons.mpr ⟨puts, none⟩
      rw [← find?_other step puts] at last
      by_cases empty : s'.batch = []
      · refine .inr ⟨.inr ⟨empty, untouched⟩, ?_⟩
        unfold ResLevelDB.getValue
        rw [← applied_of_written empty, last]
        exact own
      · have same := value.resolve_right fun wrote => empty wrote.1
        have stored := hidden.stored
        rw [← same] at stored
        refine .inl ⟨?_, forall_mem_cons.mpr ⟨stored, hidden.unseen⟩, stored, .inl ⟨untouched, empty, last⟩⟩
        exact fun released => released.elim hidden.unreleased fun wrote => empty wrote.1
    · refine .inl (replaced ⟨u, mem_cons_of_mem _ member, before⟩ ?_)
      rw [find?_other step puts]
      exact newest

theorem failed_write_shows_iff (run : (levelStore codec writeBatchSize).Run (later ++ t :: past) s)
    (failed : t.event.2 = .code (-1)) (record : recordOf t = some (key, text))
    (new : ¬ Shows codec t.event.1 (t.before.getValue key))
    (only : ∀ u ∈ later, ∀ other, recordOf u = some (key, other) → Shows codec t.event.1 other →
      Shows codec t.event.1 (u.before.getValue key)) :
    (∃ u ∈ later, Shows codec t.event.1 (u.after.getValue key)) ↔ Released key later := by
  have general : Hidden codec t.event.1 key text later s ∨
      Released key later ∧ ∃ u ∈ later, Shows codec t.event.1 (u.after.getValue key) := by
    induction later generalizing s with
    | nil =>
      cases run with
      | next earlier step =>
        obtain ⟨waits, same⟩ := failed_step step failed
        refine .inl ⟨id, nofun, ?_, .inl ⟨nofun, waits, find?_record step record⟩⟩
        unfold ResLevelDB.getValue at new ⊢
        rwa [same]
    | cons u later ih =>
      cases run with
      | next earlier step =>
        rcases ih earlier fun u member => only u (mem_cons_of_mem _ member) with
          hidden | ⟨released, v, member, shows⟩
        · have own := shows_own (codec_run (earlier.suffix (suffix_append later _)).1) record
          rcases hidden.step own step (only _ mem_cons_self) with hidden | ⟨released, shows⟩
          · exact .inl hidden
          · exact .inr ⟨released, _, mem_cons_self, shows⟩
        · exact .inr ⟨.inl released, v, mem_cons_of_mem _ member, shows⟩
  rcases general with hidden | ⟨released, shown⟩
  · exact iff_of_false (fun ⟨u, member, shows⟩ => hidden.unseen u member shows) hidden.unreleased
  · exact iff_of_true shown released

def failedSet : Transition ResLevelDB (StoreOp × StoreResult) :=
  ⟨{ codec := taggedCodec }, (.setValue "a" "x", .code (-1)),
    (ResLevelDB.setValue { codec := taggedCodec } false "a" "x").1⟩

theorem failedSet_run : (levelStore taggedCodec 1).Run [failedSet] failedSet.after := .next (.initial rfl) ⟨false, rfl⟩

def nextSet (key value : String) : Transition ResLevelDB (StoreOp × StoreResult) :=
  ⟨failedSet.after, (.setValue key value, .code 0), (failedSet.after.setValue true key value).1⟩

theorem overwritten_hidden : (levelStore taggedCodec 1).Run ([nextSet "a" "z"] ++ [failedSet]) (nextSet "a" "z").after ∧
    ¬ ∃ u ∈ [nextSet "a" "z"], Shows taggedCodec failedSet.event.1 (u.after.getValue "a") := by
  have run : (levelStore taggedCodec 1).Run ([nextSet "a" "z"] ++ [failedSet]) (nextSet "a" "z").after :=
    failedSet_run.next ⟨true, rfl⟩
  have new : ¬ "" = "x" := by decide
  have other : ¬ "z" = "x" := by decide
  refine ⟨run, fun shown => ?_⟩
  have released := (failed_write_shows_iff run rfl rfl new fun u member text record shows => ?_).mp shown
  · rcases released with none | ⟨-, none⟩
    · exact none
    · exact none _ mem_cons_self ⟨"z", rfl⟩
  · rw [mem_singleton.mp member] at record
    cases record
    exact absurd shows other

theorem failed_write_visible :
    (levelStore taggedCodec 1).Run ([nextSet "b" "y"] ++ [failedSet]) (nextSet "b" "y").after ∧
    (nextSet "b" "y").after.getValue "a" = "x" := ⟨failedSet_run.next ⟨true, rfl⟩, rfl⟩

end ResilientDB.Proof
