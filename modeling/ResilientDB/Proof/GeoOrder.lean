import ResilientDB.Library.Sequencer
import ResilientDB.Model.GeoExecutor
import ResilientDB.Proof.CollectorRun
import Mathlib.Data.Int.ConditionallyCompleteOrder
import Mathlib.Tactic.Ring

namespace ResilientDB.Proof
open Model Library List Option

variable {R : Nat} {env : GeoEnv} {config : GeoConfig} {s s' : GeoOrder} {κ : Nat ×ₗ Int} {n : Nat}
  {event : GeoOrderEvent} {trace : List (Transition GeoOrder GeoOrderEvent)}

def roundKey (R n : Nat) : Nat ×ₗ Int := toLex (n / max R 1 + 1, ((n % max R 1 : Nat) : Int) + 1)

def IsGeoKey (R : Nat) (κ : Nat ×ₗ Int) : Prop := 1 ≤ (ofLex κ).1 ∧ 1 ≤ (ofLex κ).2 ∧ (ofLex κ).2 ≤ R
deriving Decidable

theorem roundKey_strictMono (R : Nat) : StrictMono (roundKey R) := by
  intro n m less
  have width : 0 < max R 1 := by omega
  rw [roundKey, roundKey, Prod.Lex.toLex_lt_toLex]
  rcases (Nat.div_le_div_right (c := max R 1) less.le).lt_or_eq with round | same
  · exact .inl (by dsimp only; omega)
  · refine .inr ⟨by dsimp only; omega, ?_⟩
    have n' := Nat.div_add_mod n (max R 1)
    have m' := Nat.div_add_mod m (max R 1)
    rw [same] at n'
    dsimp only
    omega

theorem div_mod_succ {width : Nat} (positive : 0 < width) (n : Nat) :
    if n % width + 1 = width then (n + 1) / width = n / width + 1 ∧ (n + 1) % width = 0
    else (n + 1) / width = n / width ∧ (n + 1) % width = n % width + 1 := by
  have parts := Nat.div_add_mod n width
  have less := Nat.mod_lt n positive
  split_ifs with last
  · have next : n + 1 = width * (n / width + 1) := by
      rw [Nat.mul_add, Nat.mul_one]
      omega
    rw [next, Nat.mul_div_cancel_left _ positive, Nat.mul_mod_right]
    exact ⟨rfl, rfl⟩
  · have next : n + 1 = width * (n / width) + (n % width + 1) := by omega
    have inside : n % width + 1 < width := by omega
    constructor
    · conv_lhs => rw [next]
      rw [Nat.mul_add_div positive, Nat.div_eq_of_lt inside, Nat.add_zero]
    · conv_lhs => rw [next]
      rw [Nat.mul_add_mod, Nat.mod_eq_of_lt inside]

theorem roundKey_succ {seq : Nat} {region : Int} (here : toLex (seq, region) = roundKey R n) :
    roundKey R (n + 1) = if region + 1 > R then toLex (seq + 1, 1) else toLex (seq, region + 1) := by
  have next := div_mod_succ (show 0 < max R 1 by omega) n
  have less := Nat.mod_lt n (show 0 < max R 1 by omega)
  obtain ⟨rfl, rfl⟩ := Prod.mk.inj (toLex.injective here)
  unfold roundKey
  by_cases last : n % max R 1 + 1 = max R 1
  · rw [if_pos last] at next
    rw [if_pos (by omega), next.1, next.2]
    rfl
  · rw [if_neg last] at next
    rw [if_neg (by omega), next.1, next.2]
    push_cast
    rfl

theorem isGeoKey_roundKey (positive : 0 < R) (n : Nat) : IsGeoKey R (roundKey R n) := by
  have less := Nat.mod_lt n (show 0 < max R 1 by omega)
  unfold IsGeoKey roundKey
  simp only [ofLex_toLex]
  exact ⟨Nat.le_add_left _ _, by omega, by omega⟩

theorem exists_roundKey (valid : IsGeoKey R κ) : ∃ n, κ = roundKey R n := by
  obtain ⟨seq, region, rfl⟩ : ∃ seq region, κ = toLex (seq, region) := ⟨(ofLex κ).1, (ofLex κ).2, rfl⟩
  obtain ⟨round, first, last⟩ := valid
  simp only [ofLex_toLex] at round first last
  have width : max R 1 = R := by omega
  have small : (region - 1).toNat < R := by omega
  refine ⟨R * (seq - 1) + (region - 1).toNat, ?_⟩
  unfold roundKey
  rw [width, Nat.mul_add_div (by omega), Nat.div_eq_of_lt small, Nat.mul_add_mod, Nat.mod_eq_of_lt small]
  congr 2
  · omega
  · omega

theorem IsGeoKey.positive (valid : IsGeoKey R κ) : 0 < R := by
  unfold IsGeoKey at valid
  omega

structure RoundCounts (R : Nat) (s : GeoOrder) : Prop where
  size : s.executor.regionSize = R
  next : toLex (s.executor.nextSeq, s.executor.nextRegion) = roundKey R s.executed.length

structure SameQueue (s s' : GeoOrder) : Prop where
  arrived : s'.arrived = s.arrived
  orderQueue : s'.executor.orderQueue = s.executor.orderQueue
  isStop : s'.executor.isStop = s.executor.isStop

theorem getResponseMsg_spec (s : GeoOrder) :
    ∃ responses, s.getResponseMsg = { s with executor := { s.executor with respQueue := responses } } := by
  unfold GeoOrder.getResponseMsg GeoGlobalExecutor.getResponseMsg
  cases s.executor.respQueue with
  | nil => exact ⟨_, rfl⟩
  | cons response rest => exact ⟨_, rfl⟩

theorem execute_spec (e : GeoGlobalExecutor) (env : GeoEnv) (request : GeoRequest) :
    ∃ responses batches, e.execute env request = { e with respQueue := responses, batches := batches } := by
  unfold GeoGlobalExecutor.execute
  cases env.parseBatchUserRequest request.data with
  | none => exact ⟨_, _, rfl⟩
  | some batch =>
    by_cases empty : request.data = ""
    · exact ⟨_, _, by simp only [empty, ↓reduceIte]; rfl⟩
    · simp only [empty, ↓reduceIte]
      cases env.transactionManager with
      | none => exact ⟨_, _, rfl⟩
      | some executeBatch =>
        dsimp only
        cases executeBatch e.batches batch with
        | none => exact ⟨_, _, rfl⟩
        | some response =>
          by_cases own : request.regionId = e.myRegion
          · exact ⟨_, _, by simp only [own, ↓reduceIte]; rfl⟩
          · exact ⟨_, _, by simp only [own, ↓reduceIte]; rfl⟩

theorem getNextMap_spec (counts : RoundCounts R s) :
    (s.executor.getNextMap = none ∧ nextOut (roundKey R) s.executed.length s.executor.executeMap = none) ∨
    ∃ request seq region, nextOut (roundKey R) s.executed.length s.executor.executeMap = some request ∧
      toLex (seq, region) = roundKey R (s.executed.length + 1) ∧
      s.executor.getNextMap = some (request, { s.executor with
        executeMap := s.executor.executeMap.eraseIf fun k => k = roundKey R s.executed.length
        nextSeq := seq, nextRegion := region }) := by
  unfold GeoGlobalExecutor.getNextMap nextOut
  rw [counts.next]
  cases first : s.executor.executeMap.first? with
  | none => exact .inl ⟨rfl, rfl⟩
  | some entry =>
    obtain ⟨k, request⟩ := entry
    by_cases due : k = roundKey R s.executed.length
    · right
      subst due
      have next := roundKey_succ counts.next
      simp only [↓reduceIte]
      by_cases last : s.executor.nextRegion + 1 > s.executor.regionSize
      · rw [counts.size] at last
        rw [if_pos last] at next
        exact ⟨request, _, _, rfl, next.symm, by rw [counts.size, if_pos last]⟩
      · rw [counts.size] at last
        rw [if_neg last] at next
        exact ⟨request, _, _, rfl, next.symm, by rw [counts.size, if_neg last]⟩
    · left
      simp [due]

theorem executeNext_spec (env : GeoEnv) (turns : Nat) (counts : RoundCounts R s) :
    RoundCounts R (s.executeNext env turns) ∧ SameQueue s (s.executeNext env turns) ∧
      ((s.executeNext env turns).executed, (s.executeNext env turns).executor.executeMap) =
        handAll (roundKey R) turns (s.executed, s.executor.executeMap) := by
  induction turns generalizing s with
  | zero => exact ⟨counts, ⟨rfl, rfl, rfl⟩, rfl⟩
  | succ turns ih =>
    unfold GeoOrder.executeNext handAll
    rcases getNextMap_spec counts with ⟨none, stuck⟩ | ⟨request, seq, region, hand, next, taken⟩
    · rw [none]
      dsimp only
      rw [stuck]
      exact ⟨counts, ⟨rfl, rfl, rfl⟩, rfl⟩
    · rw [taken]
      dsimp only
      rw [hand]
      obtain ⟨responses, batches, same⟩ := execute_spec { s.executor with
        executeMap := s.executor.executeMap.eraseIf fun k => k = roundKey R s.executed.length
        nextSeq := seq, nextRegion := region } env request
      rw [same]
      obtain ⟨counts', kept, all⟩ := ih (s := ⟨{ s.executor with
        executeMap := s.executor.executeMap.eraseIf fun k => k = roundKey R s.executed.length
        nextSeq := seq, nextRegion := region, respQueue := responses, batches := batches },
        s.arrived, s.executed ++ [request]⟩) ⟨counts.size, by simpa using next⟩
      exact ⟨counts', ⟨kept.arrived, kept.orderQueue, kept.isStop⟩, all⟩

structure Ordered (R : Nat) (s : GeoOrder) : Prop where
  counts : RoundCounts R s
  sequenced : Sequenced GeoRequest.key (roundKey R) s.arrived s.executed s.executor.executeMap
  complete : s.executor.isStop = false → ∀ n front, front <+: s.arrived →
    Clears GeoRequest.key (roundKey R) n front → n < s.executed.length

theorem addData_arrived (s : GeoOrder) : s.addData.arrived = s.arrived ∨
    ∃ request rest, s.executor.orderQueue = request :: rest ∧ s.addData.arrived = s.arrived ++ [request] := by
  unfold GeoOrder.addData
  cases s.executor.orderQueue with
  | nil => exact .inl (by simp)
  | cons request rest => exact .inr ⟨request, rest, rfl, rfl⟩

theorem Sequenced.addData (sequenced : Sequenced GeoRequest.key (roundKey R) s.arrived s.executed s.executor.executeMap)
    (distinct : (s.addData.arrived.map GeoRequest.key).Nodup) :
    Sequenced GeoRequest.key (roundKey R) s.addData.arrived s.addData.executed s.addData.executor.executeMap := by
  unfold GeoOrder.addData GeoGlobalExecutor.addData at *
  cases queue : s.executor.orderQueue with
  | nil => simpa using sequenced
  | cons request rest =>
    simp only [queue, head?_cons, toList_some, map_append, nodup_append'] at distinct
    refine sequenced.arrive fun member => ?_
    exact distinct.2.2 member (by simp)

theorem addData_counts (counts : RoundCounts R s) : RoundCounts R s.addData := by
  unfold GeoOrder.addData GeoGlobalExecutor.addData
  cases s.executor.orderQueue with
  | _ => exact ⟨counts.size, counts.next⟩

theorem addData_isStop (s : GeoOrder) : s.addData.executor.isStop = s.executor.isStop := by
  unfold GeoOrder.addData GeoGlobalExecutor.addData
  cases s.executor.orderQueue with
  | nil => rfl
  | cons request rest => rfl

structure RoundSpec (R : Nat) (s s' : GeoOrder) : Prop where
  counts : RoundCounts R s'
  queue : SameQueue s.addData s'
  more : s.executed.length ≤ s'.executed.length
  sequenced : Sequenced GeoRequest.key (roundKey R) s'.arrived s'.executed s'.executor.executeMap

theorem Ordered.round (ordered : Ordered R s) (env : GeoEnv) (turns : Nat)
    (distinct : (s.addData.arrived.map GeoRequest.key).Nodup) : RoundSpec R s (s.addData.executeNext env turns) := by
  obtain ⟨counts, queue, all⟩ := executeNext_spec env turns (addData_counts ordered.counts)
  have sequenced := (Sequenced.addData ordered.sequenced distinct).handAll (roundKey_strictMono R) distinct turns
  have more : s.addData.executed.length ≤
      (handAll (roundKey R) turns (s.addData.executed, s.addData.executor.executeMap)).1.length :=
    le_length_handAll turns (s.addData.executed, s.addData.executor.executeMap)
  rw [← all] at sequenced more
  exact ⟨counts, queue, more, by rwa [queue.arrived]⟩

theorem executeNext_stuck (counts : RoundCounts R s) (env : GeoEnv) :
    nextOut (roundKey R) (s.executeNext env s.executor.executeMap.size).executed.length
      (s.executeNext env s.executor.executeMap.size).executor.executeMap = none := by
  obtain ⟨-, -, all⟩ := executeNext_spec env s.executor.executeMap.size counts
  have stuck : nextOut (roundKey R)
      (handAll (roundKey R) s.executor.executeMap.size (s.executed, s.executor.executeMap)).1.length
      (handAll (roundKey R) s.executor.executeMap.size (s.executed, s.executor.executeMap)).2 = none :=
    handAll_stuck le_rfl
  rwa [← all] at stuck

theorem Ordered.orderRound (ordered : Ordered R s) (env : GeoEnv) (running : s.executor.isStop = false)
    (distinct : (s.addData.arrived.map GeoRequest.key).Nodup) : Ordered R (s.orderRound env) := by
  have round := ordered.round env s.addData.executor.executeMap.size distinct
  have stuck := executeNext_stuck (addData_counts ordered.counts) env
  refine ⟨round.counts, round.sequenced, fun _ n front initial clears => ?_⟩
  unfold GeoOrder.orderRound at initial ⊢
  dsimp only at initial ⊢
  rw [round.queue.arrived] at initial
  rcases addData_arrived s with same | ⟨request, rest, -, new⟩
  · rw [same] at initial
    exact (ordered.complete running n front initial clears).trans_le round.more
  · rw [new, prefix_concat_iff] at initial
    rcases initial with whole | before
    · rw [← new, ← round.queue.arrived] at whole
      subst whole
      rw [← round.queue.arrived] at distinct
      exact round.sequenced.passed_of_clears (roundKey_strictMono R) distinct stuck clears
    · exact (ordered.complete running n front before clears).trans_le round.more

theorem counts_act (counts : RoundCounts R s) (step : s.act env event = some s') : RoundCounts R s' := by
  cases event with
  | orderRound =>
    simp only [GeoOrder.act, ite_none_left_eq_some, Option.some.injEq] at step
    obtain ⟨-, rfl⟩ := step
    exact (executeNext_spec env _ (addData_counts counts)).1
  | lastRound turns =>
    simp only [GeoOrder.act, ite_none_left_eq_some, Option.some.injEq] at step
    obtain ⟨-, rfl⟩ := step
    have after := (executeNext_spec env turns (addData_counts counts)).1
    exact ⟨after.size, after.next⟩
  | getResponseMsg =>
    cases step
    obtain ⟨responses, same⟩ := getResponseMsg_spec s
    rw [same]
    exact ⟨counts.size, counts.next⟩
  | _ =>
    cases step
    exact ⟨counts.size, counts.next⟩

theorem executeNext_arrived (counts : RoundCounts R s) (env : GeoEnv) (turns : Nat) :
    (s.addData.executeNext env turns).arrived = s.addData.arrived :=
  (executeNext_spec env turns (addData_counts counts)).2.1.arrived

theorem addData_grows (s : GeoOrder) : s.arrived <+: s.addData.arrived := prefix_append _ _

theorem act_arrived (counts : RoundCounts R s) (step : s.act env event = some s') : s.arrived <+: s'.arrived := by
  cases event with
  | orderRound =>
    simp only [GeoOrder.act, ite_none_left_eq_some, Option.some.injEq] at step
    obtain ⟨-, rfl⟩ := step
    exact executeNext_arrived counts env _ ▸ addData_grows s
  | lastRound turns =>
    simp only [GeoOrder.act, ite_none_left_eq_some, Option.some.injEq] at step
    obtain ⟨-, rfl⟩ := step
    exact executeNext_arrived counts env turns ▸ addData_grows s
  | _ =>
    cases step
    exact prefix_refl _

theorem Ordered.act (ordered : Ordered R s) (step : s.act env event = some s')
    (distinct : (s'.arrived.map GeoRequest.key).Nodup) : Ordered R s' := by
  cases event with
  | orderGeoRequest request =>
    cases step
    exact ⟨⟨ordered.counts.size, ordered.counts.next⟩, ordered.sequenced, ordered.complete⟩
  | orderRound =>
    simp only [GeoOrder.act, ite_none_left_eq_some, Option.some.injEq] at step
    obtain ⟨running, rfl⟩ := step
    exact ordered.orderRound env (Bool.eq_false_iff.mpr running) (executeNext_arrived ordered.counts env _ ▸ distinct)
  | lastRound turns =>
    simp only [GeoOrder.act, ite_none_left_eq_some, Option.some.injEq] at step
    obtain ⟨-, rfl⟩ := step
    have round := ordered.round env turns (executeNext_arrived ordered.counts env turns ▸ distinct)
    exact ⟨⟨round.counts.size, round.counts.next⟩, round.sequenced, fun running => nomatch running⟩
  | stop =>
    cases step
    exact ⟨⟨ordered.counts.size, ordered.counts.next⟩, ordered.sequenced, fun running => nomatch running⟩
  | getResponseMsg =>
    cases step
    obtain ⟨responses, same⟩ := getResponseMsg_spec s
    rw [same]
    exact ⟨⟨ordered.counts.size, ordered.counts.next⟩, ordered.sequenced, ordered.complete⟩

theorem ordered_initial (config : GeoConfig) : Ordered config.regions.length { executor := .create config } := by
  refine ⟨⟨rfl, by simp [roundKey, GeoGlobalExecutor.create]⟩, .nil, fun _ n front initial clears => ?_⟩
  obtain rfl := prefix_nil.mp initial
  obtain ⟨_, member, -⟩ := clears.came n le_rfl
  cases member

theorem counts_run (run : (geoOrder env config).Run trace s) : RoundCounts config.regions.length s :=
  run.invariant (fun _ => True) _ (fun _ first => first ▸ (ordered_initial config).counts)
    (fun _ _ _ counts step _ => counts_act counts step) (fun _ _ => trivial)

theorem ordered_run (run : (geoOrder env config).Run trace s)
    (distinct : (s.arrived.map GeoRequest.key).Nodup) : Ordered config.regions.length s := by
  have holds := run.invariant (fun _ => True) (fun s => RoundCounts config.regions.length s ∧
      ((s.arrived.map GeoRequest.key).Nodup → Ordered config.regions.length s))
    (fun s first => by
      subst first
      exact ⟨(ordered_initial config).counts, fun _ => ordered_initial config⟩)
    (fun s event s' both step _ => by
      refine ⟨counts_act both.1 step, fun after => ?_⟩
      have before : (s.arrived.map GeoRequest.key).Nodup := after.sublist ((act_arrived both.1 step).sublist.map _)
      exact (both.2 before).act step after)
    (fun _ _ => trivial)
  exact holds.2 distinct

def GaplessUpTo (R : Nat) (requests : List GeoRequest) (κ : Nat ×ₗ Int) : Prop :=
  ∀ κ', IsGeoKey R κ' → κ' ≤ κ → ∃ request ∈ requests, request.key = κ'

theorem gaplessUpTo_roundKey (positive : 0 < R) {requests : List GeoRequest} :
    GaplessUpTo R requests (roundKey R n) ↔ ∀ m ≤ n, ∃ request ∈ requests, request.key = roundKey R m := by
  constructor
  · intro gapless m most
    exact gapless _ (isGeoKey_roundKey positive m) ((roundKey_strictMono R).monotone most)
  · intro came κ' valid most
    obtain ⟨m, rfl⟩ := exists_roundKey valid
    exact came m ((roundKey_strictMono R).le_iff_le.mp most)

theorem Ordered.gapless_executed (ordered : Ordered R s) (positive : 0 < R) :
    GaplessUpTo R s.executed (roundKey R n) ↔ n < s.executed.length := by
  rw [gaplessUpTo_roundKey positive]
  constructor
  · intro came
    obtain ⟨request, member, key⟩ := came n le_rfl
    obtain ⟨m, below, same⟩ := ordered.sequenced.exists_position member
    rwa [(roundKey_strictMono R).injective (key.symm.trans same)]
  · intro below m most
    exact ordered.sequenced.exists_passed (by omega)

theorem addData_pushed (s : GeoOrder) : s.addData.pushed = s.pushed := by
  unfold GeoOrder.pushed GeoOrder.addData GeoGlobalExecutor.addData
  cases queue : s.executor.orderQueue with
  | nil => simp [queue]
  | cons request rest => simp

theorem addData_queue (s : GeoOrder) : s.addData.executor.orderQueue = s.executor.orderQueue.tail := by
  unfold GeoOrder.addData GeoGlobalExecutor.addData
  cases queue : s.executor.orderQueue with
  | nil => simp [queue]
  | cons request rest => rfl

structure RoundsSpec (R rounds : Nat) (s s' : GeoOrder) : Prop where
  ordered : Ordered R s'
  running : s'.executor.isStop = false
  pushed : s'.pushed = s.pushed
  queue : s'.executor.orderQueue = s.executor.orderQueue.drop rounds

theorem Ordered.rounds (ordered : Ordered R s) (env : GeoEnv) (running : s.executor.isStop = false)
    (distinct : (s.pushed.map GeoRequest.key).Nodup) (rounds : Nat) :
    RoundsSpec R rounds s ((GeoOrder.orderRound env)^[rounds] s) := by
  induction rounds with
  | zero => exact ⟨ordered, running, rfl, rfl⟩
  | succ rounds ih =>
    rw [Function.iterate_succ_apply']
    generalize (GeoOrder.orderRound env)^[rounds] s = mid at ih
    obtain ⟨-, same, -⟩ := executeNext_spec env mid.addData.executor.executeMap.size (addData_counts ih.ordered.counts)
    have arrived : (mid.addData.arrived.map GeoRequest.key).Nodup := by
      refine distinct.sublist (List.Sublist.map _ ?_)
      rw [← ih.pushed, ← addData_pushed]
      exact sublist_append_left _ _
    refine ⟨ih.ordered.orderRound env ih.running arrived, ?_, ?_, ?_⟩
    · exact same.isStop.trans ((addData_isStop mid).trans ih.running)
    · rw [← ih.pushed, ← addData_pushed mid]
      unfold GeoOrder.pushed GeoOrder.orderRound
      rw [same.arrived, same.orderQueue]
    · refine same.orderQueue.trans ?_
      rw [addData_queue, ih.queue, tail_drop]

theorem act_pushed (counts : RoundCounts R s) (step : s.act env event = some s')
    (old : ∀ request, event ≠ .orderGeoRequest request) : s'.pushed = s.pushed := by
  have round : ∀ turns, (s.addData.executeNext env turns).pushed = s.pushed := by
    intro turns
    obtain ⟨-, same, -⟩ := executeNext_spec env turns (addData_counts counts)
    rw [← addData_pushed s]
    unfold GeoOrder.pushed
    rw [same.arrived, same.orderQueue]
  cases event with
  | orderGeoRequest request => exact absurd rfl (old request)
  | orderRound =>
    simp only [GeoOrder.act, ite_none_left_eq_some, Option.some.injEq] at step
    obtain ⟨-, rfl⟩ := step
    exact round _
  | lastRound turns =>
    simp only [GeoOrder.act, ite_none_left_eq_some, Option.some.injEq] at step
    obtain ⟨-, rfl⟩ := step
    exact round turns
  | stop =>
    cases step
    rfl
  | getResponseMsg =>
    cases step
    obtain ⟨responses, same⟩ := getResponseMsg_spec s
    rw [same]
    rfl

theorem Ordered.executed_iff (ordered : Ordered R s) (env : GeoEnv) (running : s.executor.isStop = false)
    (distinct : (s.pushed.map GeoRequest.key).Nodup) (valid : IsGeoKey R κ) :
    (∃ rounds, GaplessUpTo R ((GeoOrder.orderRound env)^[rounds] s).executed κ) ↔
      ∃ front, front <+: s.pushed ∧ GaplessUpTo R front κ ∧
        ∀ request ∈ front, request.key < κ → IsGeoKey R request.key := by
  have positive := valid.positive
  obtain ⟨n, rfl⟩ := exists_roundKey valid
  constructor
  · rintro ⟨rounds, gapless⟩
    have after := ordered.rounds env running distinct rounds
    obtain ⟨front, initial, clears⟩ :=
      after.ordered.sequenced.cleared n ((after.ordered.gapless_executed positive).mp gapless)
    refine ⟨front, ?_, (gaplessUpTo_roundKey positive).mpr clears.came, fun request member below => ?_⟩
    · rw [← after.pushed]
      exact initial.trans (prefix_append _ _)
    · obtain ⟨m, key⟩ := clears.proper request member below
      rw [key]
      exact isGeoKey_roundKey positive m
  · rintro ⟨front, initial, gapless, proper⟩
    refine ⟨s.executor.orderQueue.length, ?_⟩
    have after := ordered.rounds env running distinct s.executor.orderQueue.length
    have all : ((GeoOrder.orderRound env)^[s.executor.orderQueue.length] s).arrived = s.pushed := by
      rw [← after.pushed]
      unfold GeoOrder.pushed
      rw [after.queue, drop_length, append_nil]
    rw [after.ordered.gapless_executed positive]
    refine after.ordered.complete after.running n front (all ▸ initial) ⟨(gaplessUpTo_roundKey positive).mp gapless, ?_⟩
    intro request member below
    exact exists_roundKey (proper request member below)

def twoRegions : GeoConfig where
  toResDBConfig := { fourReplicas with selfInfo := ⟨1⟩ }
  regions := [⟨[⟨1⟩, ⟨2⟩, ⟨3⟩, ⟨4⟩], 1⟩, ⟨[⟨5⟩, ⟨6⟩, ⟨7⟩, ⟨8⟩], 2⟩]
  selfRegionId := 1

def geoEnv : GeoEnv where
  parseBatchUserRequest _ := some { committedCerts := some [] }
  serializeBatchUserResponse _ := ""
  verifier := some fun _ _ => false
  transactionManager := none

def geoRequest (seq : Nat) (regionId : Int) : GeoRequest :=
  { type := .geoRequest, data := "batch", seq := seq, regionId := regionId }

def mixedRounds : List GeoOrderEvent :=
  [.orderGeoRequest (geoRequest 2 1), .orderGeoRequest (geoRequest 1 2), .orderRound, .orderRound,
    .orderGeoRequest (geoRequest 1 1), .orderRound]

variable {sender : GeoSender} {messages : List Request} {replicas : List ReplicaInfo} {log log' log'' : List Handing}
  {region : RegionInfo}

abbrev GeoCall := ReplicaInfo × Request

def callsOf (log : List Handing) : List GeoCall := log.map fun handing => (handing.replica, handing.message)

def batchCalls (messages : List Request) (replicas : List ReplicaInfo) : List GeoCall :=
  replicas.flatMap fun replica => messages.map fun message => (replica, message)

theorem batchCalls_append (replicas more : List ReplicaInfo) :
    batchCalls messages (replicas ++ more) = batchCalls messages replicas ++ batchCalls messages more :=
  flatMap_append

structure HandsOut (sender : GeoSender) (made : List GeoCall) (log log' : List Handing) : Prop where
  calls : callsOf log' = callsOf log ++ made
  long : sender.isUseLongConn = true → (∀ handing ∈ log, handing.handed = true) →
    ∀ handing ∈ log', handing.handed = true

theorem HandsOut.trans {made more : List GeoCall} (first : HandsOut sender made log log')
    (second : HandsOut sender more log' log'') : HandsOut sender (made ++ more) log log'' :=
  ⟨by rw [second.calls, first.calls, append_assoc], fun long all => second.long long (first.long long all)⟩

theorem HandsOut.nothing : HandsOut sender [] log log := ⟨(append_nil _).symm, fun _ all => all⟩

theorem sendMessages_handsOut (short : sender.isUseLongConn = false) (replica : ReplicaInfo) (ret : Int)
    (least : 0 ≤ ret) :
    let sent := messages.foldl (fun (p : Int × List Handing) message =>
      let (one, log) := sender.sendMessageInternal message [replica] p.2
      (p.1 + one, log)) (ret, log)
    0 ≤ sent.1 ∧ HandsOut sender (messages.map fun message => (replica, message)) log sent.2 := by
  induction messages generalizing ret log with
  | nil => exact ⟨least, .nothing⟩
  | cons message rest ih =>
    have one : 0 ≤ (sender.sendMessageInternal message [replica] log).1 ∧
        HandsOut sender [(replica, message)] log (sender.sendMessageInternal message [replica] log).2 := by
      simp only [GeoSender.sendMessageInternal, foldl_cons, foldl_nil]
      split <;> exact ⟨by simp, by simp [callsOf], by simp [short]⟩
    obtain ⟨more, hands⟩ := ih _ (Int.add_nonneg least one.1)
    exact ⟨more, one.2.trans hands⟩

theorem sendBatchMessage_handsOut (messages : List Request) (replica : ReplicaInfo) (log : List Handing) :
    0 ≤ (sender.sendBatchMessage messages replica log).1 ∧
      HandsOut sender (batchCalls messages [replica]) log (sender.sendBatchMessage messages replica log).2 := by
  unfold GeoSender.sendBatchMessage batchCalls
  rw [flatMap_singleton]
  split_ifs with long
  · refine ⟨by simp [GeoSender.sendMessageFromPool], by simp [callsOf, GeoSender.sendMessageFromPool], fun _ all => ?_⟩
    exact forall_mem_append.mpr ⟨all, by simp⟩
  · exact sendMessages_handsOut (by simpa using long) replica 0 le_rfl

theorem sendRegion_handsOut (maxFaulty sent : Nat) :
    HandsOut sender (batchCalls messages (replicas.take (maxFaulty + 1 - sent))) log
      (sender.sendRegion messages maxFaulty replicas sent log) := by
  induction replicas generalizing sent log with
  | nil =>
    rw [take_nil]
    exact .nothing
  | cons replica rest ih =>
    unfold GeoSender.sendRegion
    obtain ⟨counted, hands⟩ := @sendBatchMessage_handsOut sender messages replica log
    split_ifs with enough
    · rw [show maxFaulty + 1 - sent = 0 by omega]
      exact .nothing
    · rw [show maxFaulty + 1 - sent = maxFaulty + 1 - (sent + 1) + 1 by omega, take_succ_cons,
        ← singleton_append, batchCalls_append]
      dsimp only
      rw [if_pos counted]
      exact hands.trans (ih (sent + 1))

def firstReplicas (region : RegionInfo) : List ReplicaInfo :=
  region.replicaInfo.take ((region.replicaInfo.length - 1) / 3 + 1)

def otherRegions (config : GeoConfig) : List RegionInfo :=
  config.regions.filter fun region => region.regionId ≠ config.selfRegionId

theorem sendBatchGeoMessage_handsOut (config : GeoConfig) (messages : List Request) :
    HandsOut sender (batchCalls messages (config.selfInfo :: (otherRegions config).flatMap firstReplicas)) []
      (sender.sendBatchGeoMessage config config.selfInfo.id messages) := by
  have own := (@sendBatchMessage_handsOut sender messages config.selfInfo []).2
  rw [← singleton_append, batchCalls_append]
  unfold GeoSender.sendBatchGeoMessage otherRegions
  dsimp only
  rw [if_pos rfl]
  refine own.trans ?_
  generalize (sender.sendBatchMessage messages config.selfInfo []).2 = log
  induction config.regions generalizing log with
  | nil => exact .nothing
  | cons region rest ih =>
    rw [foldl_cons]
    split_ifs with same
    · rw [filter_cons_of_neg (by simpa using same)]
      exact ih log
    · rw [filter_cons_of_pos (by simpa using same), flatMap_cons, batchCalls_append]
      exact (sendRegion_handsOut ((region.replicaInfo.length - 1) / 3) 0).trans (ih _)

def RegionReached (messages : List Request) (region : RegionInfo) (log : List Handing) : Prop :=
  (∃ got : Finset ReplicaInfo, (region.replicaInfo.length - 1) / 3 + 1 ≤ got.card ∧
    ∀ replica ∈ got, replica ∈ region.replicaInfo ∧ ∀ message ∈ messages, ⟨replica, message, true⟩ ∈ log) ∨
  ∀ replica ∈ region.replicaInfo, ∃ handing ∈ log, handing.replica = replica

theorem regionReached_of_handed (distinct : region.replicaInfo.Nodup) (filled : region.replicaInfo ≠ [])
    (handed : ∀ replica ∈ firstReplicas region, ∀ message ∈ messages, ⟨replica, message, true⟩ ∈ log) :
    RegionReached messages region log := by
  have length : (firstReplicas region).length = (region.replicaInfo.length - 1) / 3 + 1 := by
    have some := length_pos_iff.mpr filled
    rw [firstReplicas, length_take]
    omega
  have own : (firstReplicas region).Nodup := distinct.sublist (take_sublist _ _)
  refine .inl ⟨(firstReplicas region).toFinset, ?_, fun replica member => ?_⟩
  · rw [toFinset_card_of_nodup own, length]
  · rw [List.mem_toFinset] at member
    exact ⟨mem_of_mem_take member, handed replica member⟩

def geoPair : List Request := [{ seq := 1 }, { seq := 2 }]

def refusesThird : GeoSender where
  isUseLongConn := false
  sendRawMessage n := if n = 2 ∨ n = 3 then -1 else 0

end ResilientDB.Proof
