import ResilientDB.Model.Framework
import ResilientDB.Proof.Certificates

namespace ResilientDB.Proof.Common
open Model Model.Common Library List

variable {config : ResDBConfig} {codec : BatchCodec} {l s : Nat} {request : Request}

def heard : FrameworkEvent → Option Request
  | .response request => if request.ret = -2 then none else some request
  | .doBatch _ _ => none

def localIdOf (codec : BatchCodec) (request : Request) : Option Nat :=
  (codec.parseResponse request.data).map fun batch => batch.localId

def AnsweredByQuorum (config : ResDBConfig) (codec : BatchCodec) (events : List FrameworkEvent) (l : Nat) : Prop :=
  ∃ senders : Finset Int, config.getMinClientReceiveNum ≤ senders.card ∧ ∀ i ∈ senders, ∃ event ∈ events,
    ∃ request, heard event = some request ∧ localIdOf codec request = some l ∧ request.senderId = i

theorem heard_eq_some {event : FrameworkEvent} :
    heard event = some request ↔ event = .response request ∧ request.ret ≠ -2 := by
  cases event with
  | doBatch env batchReq => simp [heard]
  | response other =>
    simp only [heard]
    split_ifs with failed
    · simp only [FrameworkEvent.response.injEq, false_iff, not_and, not_not]
      rintro rfl
      exact failed
    · simp only [Option.some.injEq, FrameworkEvent.response.injEq]
      constructor
      · rintro rfl
        exact ⟨rfl, failed⟩
      · exact fun same => same.1

section Performance

abbrev PerformanceStep := Transition PerformanceManager FrameworkEvent

variable {m : PerformanceManager} {t : PerformanceStep} {past trace : List PerformanceStep}

def Sends (l : Nat) (t : PerformanceStep) : Prop :=
  (∃ env batchReq, t.event = .doBatch env batchReq) ∧ toUInt64 t.before.localId = l

def Reports (l : Nat) (t : PerformanceStep) : Prop :=
  ∃ request, heard t.event = some request ∧ localIdOf t.before.codec request = some l ∧
    (t.before.addResponseMsg request).code = .stateChanged
deriving Decidable

inductive Counting (m : PerformanceManager) (request : Request) : PerformanceManager.ResponseAdded → Prop
  | ignored {code : CollectorResultCode} : code ≠ .stateChanged → Counting m request ⟨m, code, none⟩
  | completed {batch : BatchResponse} {count : Int} : m.codec.parseResponse request.data = some batch →
      m.response batch.localId = some count → m.config.getMinClientReceiveNum ≤ count + 1 →
      Counting m request
        ⟨{ m with response := Function.update m.response batch.localId none }, .stateChanged, some batch⟩
  | counted {batch : BatchResponse} {count : Int} : m.codec.parseResponse request.data = some batch →
      m.response batch.localId = some count →
      Counting m request ⟨{ m with response := Function.update m.response batch.localId (some (count + 1)) }, .ok, none⟩

theorem addResponseMsg_counting (m : PerformanceManager) (request : Request) :
    Counting m request (m.addResponseMsg request) := by
  unfold PerformanceManager.addResponseMsg
  split
  · exact .ignored (by simp)
  · rename_i batch parsed
    split
    · exact .ignored (by simp)
    · rename_i count found
      split_ifs with enough
      · exact .completed parsed found enough
      · exact .counted parsed found

theorem reports_pending (reports : Reports l t) : t.before.response l ≠ none := by
  obtain ⟨request, -, localId, changed⟩ := reports
  have counting := addResponseMsg_counting t.before request
  generalize t.before.addResponseMsg request = added at counting changed
  cases counting with
  | ignored other => exact absurd changed other
  | completed parsed found _ =>
    simp only [localIdOf, parsed, Option.map_some, Option.some.injEq] at localId
    simp [← localId, found]
  | counted => cases changed

theorem response_pending (request : Request) {after : PerformanceManager}
    (pending : (m.react (.response request)).response l ≠ none) :
    m.response l ≠ none ∧ ¬ Reports l ⟨m, .response request, after⟩ := by
  simp only [PerformanceManager.react] at pending
  by_cases failed : request.ret = -2
  · simp only [PerformanceManager.processResponseMsg, failed, if_true] at pending
    refine ⟨pending, ?_⟩
    rintro ⟨other, is, -⟩
    simp [heard, failed] at is
  have same : (m.processResponseMsg request).1.response = (m.addResponseMsg request).manager.response := by
    simp only [PerformanceManager.processResponseMsg, failed, if_false]
    split_ifs <;> rfl
  rw [same] at pending
  have counting := addResponseMsg_counting m request
  have silent (quiet : (m.addResponseMsg request).code = .stateChanged → localIdOf m.codec request ≠ some l) :
      ¬ Reports l ⟨m, .response request, after⟩ := by
    rintro ⟨other, is, localId, changed⟩
    obtain rfl : request = other := by simpa using (heard_eq_some.mp is).1
    exact quiet changed localId
  generalize m.addResponseMsg request = added at counting pending silent
  cases counting with
  | ignored other => exact ⟨pending, silent fun changed => absurd changed other⟩
  | @completed batch count parsed found _ =>
    have apart : l ≠ batch.localId := by
      rintro rfl
      exact pending (Function.update_self _ _ _)
    refine ⟨by simpa [apart] using pending, silent fun _ same => apart ?_⟩
    simpa [localIdOf, parsed] using same.symm
  | @counted batch count parsed found =>
    refine ⟨fun absent => ?_, silent nofun⟩
    by_cases same : l = batch.localId
    · rw [same, found] at absent
      cases absent
    · exact pending (by simpa [same] using absent)

def Awaited (l : Nat) (trace : List PerformanceStep) : Prop :=
  ∃ newer batch older, trace = newer ++ batch :: older ∧ Sends l batch ∧ ∀ u ∈ newer, ¬ Reports l u

theorem Awaited.cons (awaited : Awaited l past) (silent : ¬ Reports l t) : Awaited l (t :: past) := by
  obtain ⟨newer, batch, older, rfl, sends, quiet⟩ := awaited
  exact ⟨t :: newer, batch, older, rfl, sends, forall_mem_cons.mpr ⟨silent, quiet⟩⟩

theorem awaited_run (run : (performing config codec).Run trace m) (pending : m.response l ≠ none) :
    Awaited l trace := by
  induction run with
  | initial first =>
    cases first
    exact absurd rfl pending
  | @next past m m' event earlier step ih =>
    cases step
    cases event with
    | doBatch env batchReq =>
      have silent : ¬ Reports l ⟨m, .doBatch env batchReq, m.react (.doBatch env batchReq)⟩ := by
        rintro ⟨request, is, -⟩
        cases is
      by_cases here : toUInt64 m.localId = l
      · exact ⟨[], _, past, rfl, ⟨⟨env, batchReq, rfl⟩, here⟩, by simp⟩
      · refine (ih ?_).cons silent
        have same : (m.doBatch env batchReq).manager.response =
            Function.update m.response (toUInt64 m.localId) (some ((m.response (toUInt64 m.localId)).getD 0 + 1)) := by
          unfold PerformanceManager.doBatch
          dsimp only
          split <;> rfl
        rw [PerformanceManager.react, same, Function.update_of_ne (Ne.symm here)] at pending
        exact pending
    | response request =>
      obtain ⟨before, silent⟩ := response_pending request pending
      exact (ih before).cons silent

theorem performing_config (run : (performing config codec).Run trace m) : m.config = config ∧ m.codec = codec := by
  refine run.invariant (fun _ => True) (fun m => m.config = config ∧ m.codec = codec) ?_ ?_ (fun _ _ => trivial)
  · rintro m rfl
    exact ⟨rfl, rfl⟩
  · rintro m event m' same rfl -
    cases event with
    | doBatch env batchReq =>
      simp only [PerformanceManager.react, PerformanceManager.doBatch]
      split
      · exact same
      · exact same
    | response request =>
      have counting := addResponseMsg_counting m request
      simp only [PerformanceManager.react, PerformanceManager.processResponseMsg]
      generalize m.addResponseMsg request = added at counting
      split
      · exact same
      · cases counting <;> split_ifs <;> exact same

theorem performance_answered (run : (performing config codec).Run (t :: past) t.after)
    (noFault : config.getMaxMaliciousReplicaNum = 0) (reports : Reports l t) :
    ∃ newer batch older, past = newer ++ batch :: older ∧ Sends l batch ∧
      AnsweredByQuorum config codec ((t :: newer).map fun u => u.event) l ∧ ∀ u ∈ newer, ¬ Reports l u := by
  obtain ⟨newer, batch, older, split, sends, silent⟩ := awaited_run (run.suffix suffix_rfl).1 (reports_pending reports)
  obtain ⟨request, is, localId, -⟩ := reports
  rw [(performing_config (run.suffix suffix_rfl).1).2] at localId
  have one : config.getMinClientReceiveNum = 1 := by
    simp only [ResDBConfig.getMaxMaliciousReplicaNum] at noFault
    simp only [ResDBConfig.getMinClientReceiveNum]
    omega
  refine ⟨newer, batch, older, split, sends, ⟨{request.senderId}, by simp [one], fun i member => ?_⟩, silent⟩
  rw [Finset.mem_singleton.mp member]
  exact ⟨t.event, by simp, request, is, localId, rfl⟩

end Performance

section Response

abbrev ResponseStep := Transition Model.Common.ResponseManager FrameworkEvent

variable {m : Model.Common.ResponseManager} {t : ResponseStep} {past trace : List ResponseStep}

def heardIn (trace : List ResponseStep) : List Request := trace.filterMap fun t => heard t.event

def Completes (s : Nat) (t : ResponseStep) : Prop :=
  ∃ request, heard t.event = some request ∧ request.seq = s ∧ (t.before.addResponseMsg request).code = .stateChanged

theorem addResponseMsg_changed (changed : (m.addResponseMsg request).code = .stateChanged) :
    m.response request.seq ≠ -1 ∧ m.config.getMinClientReceiveNum ≤ m.response request.seq + 1 := by
  unfold Model.Common.ResponseManager.addResponseMsg at changed
  dsimp only at changed
  split at changed
  · cases changed
  rename_i waiting
  split at changed
  · rename_i enough
    exact ⟨waiting, enough⟩
  · cases changed

theorem addResponseMsg_waiting (waits : (m.addResponseMsg request).manager.response s ≠ -1) : m.response s ≠ -1 ∧
      ((m.addResponseMsg request).manager.response s = m.response s ∧ request.seq ≠ s ∨
        (m.addResponseMsg request).manager.response s = m.response s + 1 ∧ request.seq = s ∧
          (m.addResponseMsg request).code ≠ .stateChanged) := by
  unfold Model.Common.ResponseManager.addResponseMsg at waits ⊢
  dsimp only at waits ⊢
  split_ifs at waits ⊢ with marked enough
  · refine ⟨waits, .inl ⟨rfl, ?_⟩⟩
    rintro rfl
    exact waits marked
  · have apart : s ≠ request.seq := by
      rintro rfl
      exact waits (Function.update_self _ _ _)
    dsimp only at waits ⊢
    rw [Function.update_of_ne apart] at waits ⊢
    exact ⟨waits, .inl ⟨rfl, apart.symm⟩⟩
  · by_cases here : s = request.seq
    · subst here
      exact ⟨marked, .inr ⟨Function.update_self _ _ _, rfl, by simp⟩⟩
    · dsimp only at waits ⊢
      rw [Function.update_of_ne here] at waits ⊢
      exact ⟨waits, .inl ⟨rfl, Ne.symm here⟩⟩

def Numbered (m : Model.Common.ResponseManager) (trace : List ResponseStep) : Prop :=
  ∀ s, m.response s ≠ -1 → m.response s = ((heardIn trace).countP fun request => request.seq = s : Nat) ∧
    ∀ u ∈ trace, ¬ Completes s u

theorem Numbered.unheard {m' : Model.Common.ResponseManager} (numbered : Numbered m past)
    (same : m'.response = m.response) (unheard : heard t.event = none) : Numbered m' (t :: past) := by
  intro s waits
  rw [same] at waits ⊢
  obtain ⟨count, silent⟩ := numbered s waits
  refine ⟨by simpa [heardIn, unheard] using count, forall_mem_cons.mpr ⟨?_, silent⟩⟩
  rintro ⟨request, is, -⟩
  rw [unheard] at is
  cases is

theorem Numbered.heard {after : Model.Common.ResponseManager} (numbered : Numbered m past) (counts : request.ret ≠ -2) :
    Numbered (m.processResponseMsg request).1 (⟨m, .response request, after⟩ :: past) := by
  have is : Common.heard (.response request) = some request := heard_eq_some.mpr ⟨rfl, counts⟩
  intro s waits
  have same : (m.processResponseMsg request).1.response = (m.addResponseMsg request).manager.response := by
    simp only [Model.Common.ResponseManager.processResponseMsg, counts, if_false]
    split_ifs <;> rfl
  rw [same] at waits ⊢
  obtain ⟨before, cases⟩ := addResponseMsg_waiting waits
  obtain ⟨count, silent⟩ := numbered s before
  have quiet (other : request.seq = s → (m.addResponseMsg request).code ≠ .stateChanged) :
      ¬ Completes s ⟨m, .response request, after⟩ := by
    rintro ⟨again, same, seq, changed⟩
    obtain rfl : request = again := by simpa [is] using same
    exact other seq changed
  rcases cases with ⟨same, apart⟩ | ⟨raised, here, code⟩
  · rw [same, count]
    refine ⟨by simp [heardIn, is, apart], forall_mem_cons.mpr ⟨quiet fun here => absurd here apart, silent⟩⟩
  · rw [raised, count]
    refine ⟨by simp [heardIn, is, here], forall_mem_cons.mpr ⟨quiet fun _ => code, silent⟩⟩

theorem numbered_run (run : (responding config codec).Run trace m) : Numbered m trace := by
  induction run with
  | initial first =>
    obtain ⟨performance, rfl⟩ := first
    exact fun s _ => ⟨rfl, by simp⟩
  | @next past m m' event earlier step ih =>
    cases step
    cases event with
    | doBatch env batchReq =>
      refine ih.unheard ?_ rfl
      unfold Model.Common.ResponseManager.react Model.Common.ResponseManager.doBatch
      dsimp only
      split <;> rfl
    | response request =>
      by_cases failed : request.ret = -2
      · refine ih.unheard ?_ (by simp [Common.heard, failed])
        simp [Model.Common.ResponseManager.react, Model.Common.ResponseManager.processResponseMsg, failed]
      · exact ih.heard failed

theorem responding_config (run : (responding config codec).Run trace m) : m.config = config ∧ m.codec = codec := by
  refine run.invariant (fun _ => True) (fun m => m.config = config ∧ m.codec = codec) ?_ ?_ (fun _ _ => trivial)
  · rintro m ⟨performance, rfl⟩
    exact ⟨rfl, rfl⟩
  · rintro m event m' same rfl -
    cases event with
    | doBatch env batchReq =>
      simp only [Model.Common.ResponseManager.react, Model.Common.ResponseManager.doBatch]
      split
      · exact same
      · exact same
    | response request =>
      simp only [Model.Common.ResponseManager.react, Model.Common.ResponseManager.processResponseMsg,
        Model.Common.ResponseManager.addResponseMsg]
      split_ifs <;> exact same

def ReportsId (l : Nat) (t : ResponseStep) : Prop :=
  ∃ request, heard t.event = some request ∧ localIdOf t.before.codec request = some l ∧
    (t.before.addResponseMsg request).code = .stateChanged
deriving Decidable

structure OneAnswer (codec : BatchCodec) (trace : List ResponseStep) : Prop where
  once : ((heardIn trace).map fun request => (request.seq, request.senderId)).Nodup
  batch : ∀ q ∈ heardIn trace, ∀ q' ∈ heardIn trace, q.seq = q'.seq ↔ localIdOf codec q = localIdOf codec q'

theorem senders_nodup (one : OneAnswer codec trace) (s : Nat) :
    (((heardIn trace).filter fun request => request.seq = s).map fun request => request.senderId).Nodup := by
  have apart := pairwise_map.mp one.once
  refine pairwise_map.mpr ((apart.filter _).imp_of_mem fun left right differ same => differ ?_)
  simp only [mem_filter, decide_eq_true_eq] at left right
  rw [left.2, right.2, same]

theorem response_answered (run : (responding config codec).Run (t :: past) t.after) (one : OneAnswer codec (t :: past))
    (reports : ReportsId l t) :
    AnsweredByQuorum config codec ((t :: past).map fun u => u.event) l ∧ ∀ u ∈ past, ¬ ReportsId l u := by
  obtain ⟨earlier, -⟩ := run.suffix suffix_rfl
  obtain ⟨config', codec'⟩ := responding_config earlier
  obtain ⟨request, is, localId, changed⟩ := reports
  obtain ⟨waits, enough⟩ := addResponseMsg_changed changed
  obtain ⟨count, silent⟩ := numbered_run earlier request.seq waits
  have here : heardIn (t :: past) = request :: heardIn past := by simp [heardIn, is]
  have listed : request ∈ heardIn (t :: past) := by simp [here]
  rw [codec'] at localId
  constructor
  · refine ⟨(((heardIn (t :: past)).filter fun q => q.seq = request.seq).map fun q => q.senderId).toFinset, ?_,
      fun i member => ?_⟩
    · rw [toFinset_card_of_nodup (senders_nodup one _), length_map, ← countP_eq_length_filter, here,
        countP_cons_of_pos (by simp)]
      rw [config', count] at enough
      exact_mod_cast enough
    · simp only [mem_toFinset, mem_map, mem_filter, decide_eq_true_eq] at member
      obtain ⟨q, ⟨inside, seq⟩, sender⟩ := member
      obtain ⟨u, found, event⟩ := mem_filterMap.mp inside
      refine ⟨u.event, mem_map_of_mem found, q, event, ?_, sender⟩
      rw [(one.batch q inside request listed).mp seq, localId]
  · rintro u member ⟨q, event, same, again⟩
    have inside : q ∈ heardIn (t :: past) := mem_filterMap.mpr ⟨u, mem_cons_of_mem _ member, event⟩
    obtain ⟨_, _, ran, _⟩ := earlier.earlier member
    rw [(responding_config ran).2, ← localId] at same
    exact silent u member ⟨q, event, (one.batch q inside request listed).mpr same, again⟩

end Response

theorem framework_answers (config : ResDBConfig) (codec : BatchCodec) (l : Nat) :
    (∀ (t : PerformanceStep) past, (performing config codec).Run (t :: past) t.after →
      config.getMaxMaliciousReplicaNum = 0 → Reports l t →
      ∃ newer batch older, past = newer ++ batch :: older ∧ Sends l batch ∧
        AnsweredByQuorum config codec ((t :: newer).map fun u => u.event) l ∧ ∀ u ∈ newer, ¬ Reports l u) ∧
    ∀ (t : ResponseStep) past, (responding config codec).Run (t :: past) t.after → OneAnswer codec (t :: past) →
      ReportsId l t →
      AnsweredByQuorum config codec ((t :: past).map fun u => u.event) l ∧ ∀ u ∈ past, ¬ ReportsId l u :=
  ⟨fun _ _ run noFault reports => performance_answered run noFault reports,
    fun _ _ run one reports => response_answered run one reports⟩

instance (codec : BatchCodec) (trace : List ResponseStep) : Decidable (OneAnswer codec trace) :=
  decidable_of_iff (_ ∧ _) ⟨fun ⟨once, batch⟩ => ⟨once, batch⟩, fun one => ⟨one.once, one.batch⟩⟩

def threeReplicas : ResDBConfig where
  replicas := [⟨1⟩, ⟨2⟩, ⟨3⟩]
  selfInfo := ⟨9⟩

def firstBatch : BatchCodec where
  serializeBatch := fun _ => "batch"
  parseResponse := fun _ => some { localId := 1 }

def respond (seq : Nat) (sender : Int) : FrameworkEvent :=
  .response { type := .response, seq := seq, senderId := sender }

theorem performing_sound (m : PerformanceManager) (event : FrameworkEvent) (m' : PerformanceManager)
    (acted : some (m.react event) = some m') : (performing config codec).step m event m' :=
  (Option.some.inj acted).symm

theorem responding_sound (m : Model.Common.ResponseManager) (event : FrameworkEvent) (m' : Model.Common.ResponseManager)
    (acted : some (m.react event) = some m') : (responding config codec).step m event m' :=
  (Option.some.inj acted).symm

theorem replicas_answer :
    (∃ t past newer batch older, (performing threeReplicas firstBatch).Run (t :: past) t.after ∧ Reports 1 t ∧
      past = newer ++ batch :: older ∧ Sends 1 batch ∧
      AnsweredByQuorum threeReplicas firstBatch ((t :: newer).map fun u => u.event) 1 ∧ ∀ u ∈ newer, ¬ Reports 1 u) ∧
    ∃ t past, (responding fourReplicas firstBatch).Run (t :: past) t.after ∧ ReportsId 1 t ∧
      AnsweredByQuorum fourReplicas firstBatch ((t :: past).map fun u => u.event) 1 ∧ ∀ u ∈ past, ¬ ReportsId 1 u := by
  constructor
  · obtain ⟨t, past, run, reports⟩ := System.last_of_play (@performing_sound threeReplicas firstBatch) rfl
      [.doBatch plainEnv [], respond 1 2] (fun t _ => Reports 1 t) (by decide)
    obtain ⟨newer, batch, older, split, sends, answered, silent⟩ :=
      (framework_answers threeReplicas firstBatch 1).1 t past run (by decide) reports
    exact ⟨t, past, newer, batch, older, run, reports, split, sends, answered, silent⟩
  · obtain ⟨t, past, run, reports, once⟩ := System.last_of_play (@responding_sound fourReplicas firstBatch)
      ⟨false, rfl⟩ [.doBatch plainEnv [], respond 1 2, respond 1 3]
      (fun t past => ReportsId 1 t ∧ OneAnswer firstBatch (t :: past)) (by decide)
    obtain ⟨answered, silent⟩ := (framework_answers fourReplicas firstBatch 1).2 t past run once reports
    exact ⟨t, past, run, reports, answered, silent⟩

def onlyFrom (i : Int) (events : List FrameworkEvent) : Bool :=
  events.all fun event => (heard event).all fun request => request.senderId = i

theorem not_answered {events : List FrameworkEvent} {i : Int} (two : 1 < config.getMinClientReceiveNum)
    (only : onlyFrom i events = true) : ¬ AnsweredByQuorum config codec events l := by
  rintro ⟨senders, enough, answered⟩
  have few : senders ⊆ {i} := by
    intro j member
    obtain ⟨event, inside, request, is, -, rfl⟩ := answered j member
    have here := all_eq_true.mp only event inside
    rw [is] at here
    exact Finset.mem_singleton.mpr (of_decide_eq_true here)
  have card := Finset.card_le_card few
  rw [Finset.card_singleton] at card
  omega

theorem one_replica_answers : (∃ t past, (performing fourReplicas firstBatch).Run (t :: past) t.after ∧ Reports 1 t ∧
      ¬ AnsweredByQuorum fourReplicas firstBatch ((t :: past).map fun u => u.event) 1) ∧
    (∃ t past, (responding fourReplicas firstBatch).Run (t :: past) t.after ∧ ReportsId 1 t ∧
      ¬ AnsweredByQuorum fourReplicas firstBatch ((t :: past).map fun u => u.event) 1) ∧
    ∃ t past, (responding fourReplicas firstBatch).Run (t :: past) t.after ∧ ReportsId 1 t ∧
      ∃ u ∈ past, ReportsId 1 u := by
  refine ⟨?_, ?_, ?_⟩
  · obtain ⟨t, past, run, reports, only⟩ := System.last_of_play (@performing_sound fourReplicas firstBatch) rfl
      [.doBatch plainEnv [], respond 1 4]
      (fun t past => Reports 1 t ∧ onlyFrom 4 ((t :: past).map fun u => u.event)) (by decide)
    exact ⟨t, past, run, reports, not_answered (by decide) only⟩
  · obtain ⟨t, past, run, reports, only⟩ := System.last_of_play (@responding_sound fourReplicas firstBatch)
      ⟨false, rfl⟩ [.doBatch plainEnv [], respond 1 4, respond 1 4]
      (fun t past => ReportsId 1 t ∧ onlyFrom 4 ((t :: past).map fun u => u.event)) (by decide)
    exact ⟨t, past, run, reports, not_answered (by decide) only⟩
  · obtain ⟨t, past, run, reports, again⟩ := System.last_of_play (@responding_sound fourReplicas firstBatch)
      ⟨false, rfl⟩ [.doBatch plainEnv [], respond 1 1, respond 1 2, .doBatch plainEnv [], respond 2 1, respond 2 2]
      (fun t past => ReportsId 1 t ∧ ∃ u ∈ past, ReportsId 1 u) (by decide)
    exact ⟨t, past, run, reports, again⟩

end ResilientDB.Proof.Common
