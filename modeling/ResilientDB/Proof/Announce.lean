import ResilientDB.Proof.Redo
import ResilientDB.Proof.ServerRun

namespace ResilientDB.Proof
open Model Library List

variable {config : ResDBConfig} {r r' : Replica} {call : Call} {calls : List Call} {v w : Nat}

def isSent (r : Replica) : Bool := r.viewChangeManager.newViewIsSent

def quorum (r : Replica) : Nat := r.config.getMinDataReceiveNum

def Announces (v : Nat) (call : Call) : Prop :=
  call.request.type = .viewchange ∧ ∃ message list,
    call.env.codec.parseViewChange call.request.data = some message ∧ message.viewNumber = v ∧
      call.outcome.sent = [newViewOf (storeView call.before message (toUInt32 call.request.senderId)) call.env v list]

def Completes (v : Nat) (call : Call) : Prop :=
  call.request.type = .viewchange ∧ ∃ message,
    call.env.codec.parseViewChange call.request.data = some message ∧ message.viewNumber = v ∧
      call.before.isValidViewChangeMsg call.env message = true ∧ call.before.isNextPrimary v = true ∧
      viewSenders call.before v < quorum call.before ∧
      quorum call.before ≤ viewSenders (storeView call.before message (toUInt32 call.request.senderId)) v
deriving Decidable

structure Unannounced (call : Call) : Prop where
  senders : ∀ v, viewSenders call.outcome.replica v = viewSenders call.before v
  flag : isSent call.outcome.replica = isSent call.before
  announces : ∀ v, ¬ Announces v call
  completes : ∀ v, ¬ Completes v call

structure Stores (v : Nat) (call : Call) : Prop where
  other : ∀ w, w ≠ v → viewSenders call.outcome.replica w = viewSenders call.before w
  grows : viewSenders call.before v ≤ viewSenders call.outcome.replica v
  flag : isSent call.before = true → isSent call.outcome.replica = true
  announces : ∀ w, Announces w call → w = v ∧ isSent call.before = false ∧ isSent call.outcome.replica = true ∧
    quorum call.before ≤ viewSenders call.outcome.replica v
  answers : quorum call.before ≤ viewSenders call.outcome.replica v → call.before.isNextPrimary v = true →
    isSent call.before = false → Announces v call
  completes : ∀ w, Completes w call ↔ w = v ∧ call.before.isNextPrimary v = true ∧
    viewSenders call.before v < quorum call.before ∧ quorum call.before ≤ viewSenders call.outcome.replica v

theorem viewSenders_storeView (message : ViewChangeMessage) (sender : Nat) (other : w ≠ message.viewNumber) :
    viewSenders (storeView r message sender) w = viewSenders r w := by
  unfold viewSenders storeView Replica.setViewChangeManager ViewChangeManager.addRequest
  dsimp only
  rw [OrderedMap.find?_assign, if_neg other]

theorem stores_of_kept {message : ViewChangeMessage} (type : call.request.type = .viewchange)
    (parsed : call.env.codec.parseViewChange call.request.data = some message)
    (valid : call.before.isValidViewChangeMsg call.env message = true)
    (senders : ∀ w, viewSenders call.outcome.replica w =
      viewSenders (storeView call.before message (toUInt32 call.request.senderId)) w)
    (flag : isSent call.before = true → isSent call.outcome.replica = true)
    (fires : call.outcome.sent ≠ [] → isSent call.before = false ∧ isSent call.outcome.replica = true ∧
      quorum call.before ≤ viewSenders call.outcome.replica message.viewNumber)
    (answers : quorum call.before ≤ viewSenders call.outcome.replica message.viewNumber →
      call.before.isNextPrimary message.viewNumber = true → isSent call.before = false →
      ∃ list, call.outcome.sent = [newViewOf (storeView call.before message (toUInt32 call.request.senderId))
        call.env message.viewNumber list]) : Stores message.viewNumber call where
  other := fun w different => (senders w).trans (viewSenders_storeView message _ different)
  grows := by
    rw [senders]
    unfold viewSenders storeView Replica.setViewChangeManager ViewChangeManager.addRequest
    dsimp only
    rw [OrderedMap.find?_assign, if_pos rfl]
    exact OrderedMap.size_le_assign _ _
  flag := flag
  announces := by
    rintro w ⟨-, other, list, again, rfl, sent⟩
    rw [parsed] at again
    cases again
    exact ⟨rfl, fires (by simp [sent])⟩
  answers := fun enough primary unsent => by
    obtain ⟨list, sent⟩ := answers enough primary unsent
    exact ⟨type, message, list, parsed, rfl, sent⟩
  completes := fun w => by
    constructor
    · rintro ⟨-, other, again, rfl, -, primary, few, enough⟩
      rw [parsed] at again
      cases again
      rw [senders]
      exact ⟨rfl, primary, few, enough⟩
    · rintro ⟨rfl, primary, few, enough⟩
      rw [senders] at enough
      exact ⟨type, message, parsed, rfl, valid, primary, few, enough⟩

theorem ViewChanging.views {env : Env} {before : Replica} {context : Context} {request : Request} {outcome : Outcome}
    (changing : ViewChanging before env request outcome) (type : request.type = .viewchange) :
    Unannounced ⟨env, before, context, request, outcome⟩ ∨ ∃ v, Stores v ⟨env, before, context, request, outcome⟩ := by
  cases changing with
  | rejected invalid =>
    refine .inl ⟨fun _ => rfl, rfl, ?_, ?_⟩
    · rintro v ⟨-, message, list, -, -, sent⟩
      cases sent
    · rintro v ⟨-, message, parsed, -, valid, -⟩
      rw [invalid message parsed] at valid
      cases valid
  | stored parsed valid same few =>
    subst same
    refine .inr ⟨_, stores_of_kept type parsed valid (fun _ => rfl) id (by simp) fun enough => ?_⟩
    exact absurd enough (not_le.mpr few)
  | announced parsed valid same enough primary answer =>
    subst same
    obtain ⟨rfl, silent⟩ := sendNewViewMsg_eq answer
    refine .inr ⟨_, stores_of_kept type parsed valid (fun _ => rfl) (fun _ => rfl) (fun sends => ?_) ?_⟩
    · refine ⟨?_, rfl, enough⟩
      by_contra already
      exact sends (silent (Bool.eq_true_of_not_eq_false already))
    · intro _ _ unsent
      obtain ⟨list, -, sent⟩ := sendNewViewMsg_spec (r := storeView before _ _) unsent answer
      exact ⟨list, sent⟩
  | waiting parsed valid same enough backup =>
    subst same
    obtain ⟨timers, timed⟩ := selfTimer_eq (storeView before _ (toUInt32 request.senderId)) env .newview
    rw [timed]
    refine .inr ⟨_, stores_of_kept type parsed valid (fun _ => rfl) id (by simp) ?_⟩
    intro _ primary
    exact absurd primary (by simp [backup])

theorem call_views (ran : Ran call) : Unannounced call ∨ ∃ v, Stores v call := by
  obtain ⟨env, before, context, request, outcome⟩ := call
  by_cases type : request.type = .viewchange
  · have changed : before.processViewChange env request = .ok outcome := by
      simpa [Ran, Replica.internalConsensusCommit, type] using ran
    exact (processViewChange_changing changed).views type
  have quiet
      (views : outcome.replica.viewChangeManager.viewchangeRequest = before.viewChangeManager.viewchangeRequest)
      (flag : isSent outcome.replica = isSent before) : Unannounced ⟨env, before, context, request, outcome⟩ :=
    ⟨fun v => by rw [viewSenders, viewSenders, views], flag, fun v announced => type announced.1,
      fun v completed => type completed.1⟩
  have handling : Handling before env context request outcome := commit_handling ran
  cases handling with
  | viewChanged view => exact absurd view type
  | _ => exact .inl (quiet rfl rfl)

def Missed (v : Nat) (calls : List Call) : Prop := ∃ call ∈ calls, Completes v call ∧ isSent call.before = true

structure AnnouncedOnce (config : ResDBConfig) (r : Replica) (calls : List Call) : Prop where
  config : r.config = config
  unsent : isSent r = false → ∀ call ∈ calls, ∀ v, ¬ Announces v call
  once : calls.Pairwise fun a b => ∀ v w, Announces v a → ¬ Announces w b
  backed : ∀ v, ∀ call ∈ calls, Announces v call → quorum r ≤ viewSenders r v
  due : ∀ v, r.isNextPrimary v = true → quorum r ≤ viewSenders r v → (∃ call ∈ calls, Announces v call) ∨ Missed v calls
  missed : ∀ v, Missed v calls → (∀ call ∈ calls, ¬ Announces v call) ∧ isSent r = true ∧
    r.isNextPrimary v = true ∧ quorum r ≤ viewSenders r v

theorem quorum_congr (same : r'.config = r.config) : quorum r' = quorum r := by rw [quorum, quorum, same]

theorem isNextPrimary_congr (same : r'.config = r.config) (v : Nat) : r'.isNextPrimary v = r.isNextPrimary v := by
  rw [Replica.isNextPrimary, Replica.isNextPrimary, same]

theorem AnnouncedOnce.congr (before : AnnouncedOnce config r calls) (same : r'.config = r.config)
    (senders : ∀ v, viewSenders r' v = viewSenders r v) (flag : isSent r' = isSent r) :
    AnnouncedOnce config r' calls := by
  have least := quorum_congr same
  have primary := isNextPrimary_congr same
  refine ⟨same.trans before.config, ?_, before.once, ?_, ?_, ?_⟩
  · rw [flag]
    exact before.unsent
  · intro v call member announced
    rw [least, senders]
    exact before.backed v call member announced
  · intro v
    rw [least, senders, primary]
    exact before.due v
  · intro v
    rw [least, senders, primary, flag]
    exact before.missed v

theorem missed_append : Missed v (calls ++ [call]) ↔ Missed v calls ∨ Completes v call ∧ isSent call.before = true := by
  simp [Missed, or_and_right, exists_or]

theorem announced_append : (∃ c ∈ calls ++ [call], Announces v c) ↔
    (∃ c ∈ calls, Announces v c) ∨ Announces v call := by
  simp [or_and_right, exists_or]

theorem AnnouncedOnce.quiet (before : AnnouncedOnce config call.before calls) (ran : Ran call)
    (quiet : Unannounced call) : AnnouncedOnce config call.outcome.replica (calls ++ [call]) := by
  have same := before.congr (ran_config ran) quiet.senders quiet.flag
  have old {c : Call} {v : Nat} (member : c ∈ calls ++ [call]) (announced : Announces v c) : c ∈ calls := by
    rcases mem_append.mp member with old | new
    · exact old
    · rw [mem_singleton.mp new] at announced
      exact absurd announced (quiet.announces v)
  refine ⟨same.config, ?_, ?_, ?_, ?_, ?_⟩
  · intro unsent c member v announced
    exact same.unsent unsent c (old member announced) v announced
  · rw [pairwise_append]
    refine ⟨same.once, pairwise_singleton _ _, fun c _ d member v w _ => ?_⟩
    rw [mem_singleton.mp member]
    exact quiet.announces w
  · intro v c member announced
    exact same.backed v c (old member announced) announced
  · intro v primary enough
    rw [announced_append, missed_append]
    exact (same.due v primary enough).imp .inl .inl
  · intro v missed
    rw [missed_append] at missed
    have earlier := missed.resolve_right fun completed => quiet.completes v completed.1
    obtain ⟨none, rest⟩ := same.missed v earlier
    exact ⟨fun c member announced => none c (old member announced) announced, rest⟩

theorem Stores.viewSenders_le (stores : Stores v call) (w : Nat) :
    viewSenders call.before w ≤ viewSenders call.outcome.replica w := by
  by_cases here : w = v
  · rw [here]
    exact stores.grows
  · exact (stores.other w here).ge

theorem Stores.earlier {c : Call} (stores : Stores v call) (sent : isSent call.before = true)
    (member : c ∈ calls ++ [call]) (announced : Announces w c) : c ∈ calls := by
  rcases mem_append.mp member with old | new
  · exact old
  · rw [mem_singleton.mp new] at announced
    rw [(stores.announces w announced).2.1] at sent
    cases sent

theorem AnnouncedOnce.stores_due (before : AnnouncedOnce config call.before calls) (stores : Stores v call)
    (primary : call.before.isNextPrimary w = true) (enough : quorum call.before ≤ viewSenders call.outcome.replica w) :
    (∃ c ∈ calls ++ [call], Announces w c) ∨ Missed w (calls ++ [call]) := by
  rw [announced_append, missed_append]
  by_cases already : quorum call.before ≤ viewSenders call.before w
  · exact (before.due w primary already).imp .inl .inl
  · -- The message completes the quorum for its view.
    have here : w = v := by
      by_contra other
      rw [stores.other w other] at enough
      exact already enough
    subst here
    cases flag : isSent call.before with
    | false => exact .inl (.inr (stores.answers enough primary flag))
    | true => exact .inr (.inr ⟨(stores.completes w).mpr ⟨rfl, primary, not_le.mp already, enough⟩, rfl⟩)

theorem AnnouncedOnce.stores_missed (before : AnnouncedOnce config call.before calls) (stores : Stores v call)
    (missed : Missed w (calls ++ [call])) :
    (∀ c ∈ calls ++ [call], ¬ Announces w c) ∧ isSent call.outcome.replica = true ∧
      call.before.isNextPrimary w = true ∧ quorum call.before ≤ viewSenders call.outcome.replica w := by
  rcases missed_append.mp missed with earlier | ⟨completed, sent⟩
  · obtain ⟨none, sent, primary, enough⟩ := before.missed w earlier
    exact ⟨fun c member announced => none c (stores.earlier sent member announced) announced, stores.flag sent, primary,
      enough.trans (stores.viewSenders_le w)⟩
  · obtain ⟨rfl, primary, few, enough⟩ := (stores.completes w).mp completed
    refine ⟨fun c member announced => ?_, stores.flag sent, primary, enough⟩
    exact absurd (before.backed w c (stores.earlier sent member announced) announced) (not_le.mpr few)

theorem AnnouncedOnce.stores (before : AnnouncedOnce config call.before calls) (ran : Ran call)
    (stores : Stores v call) : AnnouncedOnce config call.outcome.replica (calls ++ [call]) := by
  have least := quorum_congr (ran_config ran)
  have primary := isNextPrimary_congr (ran_config ran)
  refine ⟨(ran_config ran).trans before.config, ?_, ?_, ?_, ?_, ?_⟩
  · intro unsent c member w announced
    rcases mem_append.mp member with old | new
    · have never : isSent call.before = false := by
        by_contra sent
        rw [stores.flag (Bool.eq_true_of_not_eq_false sent)] at unsent
        cases unsent
      exact before.unsent never c old w announced
    · rw [mem_singleton.mp new] at announced
      rw [(stores.announces w announced).2.2.1] at unsent
      cases unsent
  · rw [pairwise_append]
    refine ⟨before.once, pairwise_singleton _ _, fun c old d member x w announced again => ?_⟩
    rw [mem_singleton.mp member] at again
    exact before.unsent (stores.announces w again).2.1 c old x announced
  · intro w c member announced
    rw [least]
    rcases mem_append.mp member with old | new
    · exact (before.backed w c old announced).trans (stores.viewSenders_le w)
    · rw [mem_singleton.mp new] at announced
      obtain ⟨rfl, -, -, enough⟩ := stores.announces w announced
      exact enough
  · intro w isPrimary enough
    rw [primary] at isPrimary
    rw [least] at enough
    exact before.stores_due stores isPrimary enough
  · intro w missed
    rw [primary, least]
    exact before.stores_missed stores missed

theorem announcedOnce_run {trace : List (Transition Server ServerEvent)} {s : Server}
    (run : (server config).Run trace s) : AnnouncedOnce config s.replica s.calls := by
  refine server_invariant run (AnnouncedOnce config) ?_ ?_ ?_ ?_
  · intro outOfOrder needResponse needQc
    refine ⟨rfl, by simp, by simp, by simp, ?_, by simp [Missed]⟩
    intro v _ enough
    have positive := config.getMinDataReceiveNum_eq
    have none : viewSenders { Replica.create config with
        transactionExecutor := { outOfOrder := outOfOrder, needResponse := needResponse }
        needQc := needQc } v = 0 := rfl
    rw [none, quorum] at enough
    change config.getMinDataReceiveNum ≤ 0 at enough
    omega
  · intro r calls pending complained started before
    exact before.congr rfl (fun _ => rfl) rfl
  · intro calls call before ran _
    rcases call_views ran with quiet | ⟨v, stores⟩
    · exact before.quiet ran quiet
    · exact before.stores ran stores
  · intro s event r' before moved _
    have same := moved.threaded
    refine before.congr same.config (fun v => ?_) same.newViewIsSent
    rw [viewSenders, viewSenders, same.viewchangeRequest]

theorem newView_announced {trace : List (Transition Server ServerEvent)} {s : Server}
    (run : (server config).Run trace s) :
    (∀ v, s.calls.Pairwise fun a b => ¬ (Announces v a ∧ Announces v b)) ∧
      ((∀ v, config.getMinDataReceiveNum ≤ viewSenders s.replica v → s.replica.isNextPrimary v = true →
          ∃ call ∈ s.calls, Announces v call) ↔
        ∀ call ∈ s.calls, ∀ v, Completes v call → isSent call.before = false) := by
  have once := announcedOnce_run run
  have least : quorum s.replica = config.getMinDataReceiveNum := by rw [quorum, once.config]
  refine ⟨fun v => once.once.imp fun apart both => apart v v both.1 both.2, ?_, ?_⟩
  · intro all call member v completed
    by_contra sent
    obtain ⟨none, -, primary, enough⟩ := once.missed v ⟨call, member, completed, Bool.eq_true_of_not_eq_false sent⟩
    obtain ⟨other, made, announced⟩ := all v (least ▸ enough) primary
    exact none other made announced
  · intro first v enough primary
    rcases once.due v primary (least ▸ enough) with announced | ⟨call, member, completed, sent⟩
    · exact announced
    · rw [first call member v completed] at sent
      cases sent

def viewChangeFor (v : Nat) (sender : Int) : ServerEvent :=
  let request : Request := { type := .viewchange, senderId := sender }
  let env : Env := { plainEnv with codec := { plainEnv.codec with
    parseMessage := fun buff => some ⟨buff, some ⟨sender, "signature"⟩⟩
    parseRequest := fun _ => some request
    parseViewChange := fun _ => some { viewNumber := v } } }
  .process (fun _ => env) "viewchange"

def viewTwo : List ServerEvent := [viewChangeFor 2 2, viewChangeFor 2 3, viewChangeFor 2 4]

def viewSix : List ServerEvent := [viewChangeFor 6 2, viewChangeFor 6 3, viewChangeFor 6 4]

theorem viewTwo_announced : ∃ trace s, (server (viewConfig 2)).Run trace s ∧ ∃ call ∈ s.calls, Announces 2 call := by
  obtain ⟨trace, s, run, enough, primary, first⟩ := exists_server_run (viewConfig 2) viewTwo
    (fun _ s => (viewConfig 2).getMinDataReceiveNum ≤ viewSenders s.replica 2 ∧
      s.replica.isNextPrimary 2 = true ∧ ∀ call ∈ s.calls, isSent call.before = false) (by decide)
  exact ⟨trace, s, run, (newView_announced run).2.mpr (fun call member _ _ => first call member) 2 enough primary⟩

theorem viewSix_unannounced : ∃ trace s, (server (viewConfig 2)).Run trace s ∧
    (viewConfig 2).getMinDataReceiveNum ≤ viewSenders s.replica 6 ∧ s.replica.isNextPrimary 6 = true ∧
    ¬ ∃ call ∈ s.calls, Announces 6 call := by
  obtain ⟨trace, s, run, missed⟩ := exists_server_run (viewConfig 2) (viewTwo ++ viewSix)
    (fun _ s => ∃ call ∈ s.calls, Completes 6 call ∧ isSent call.before = true) (by decide)
  have once := announcedOnce_run run
  obtain ⟨none, -, isPrimary, stored⟩ := once.missed 6 missed
  rw [quorum, once.config] at stored
  exact ⟨trace, s, run, stored, isPrimary, fun ⟨other, made, announced⟩ => none other made announced⟩

end ResilientDB.Proof
