import ResilientDB.Model.Server
import ResilientDB.Proof.Handling

namespace ResilientDB.Proof
open Model Library List

variable {r r' : Replica} {env : Env} {context : Context} {request : Request} {item : Context × Request}

def senderCkpt (r : Replica) : OrderedMap (Nat ×ₗ String) (Finset Nat) := r.checkpointManager.senderCkpt

def viewchangeRequest (r : Replica) : OrderedMap Nat (OrderedMap Nat ViewChangeMessage) :=
  r.viewChangeManager.viewchangeRequest

structure Untouched (r r' : Replica) : Prop where
  queues : queues r' = queues r
  pool : r'.collectorPool = r.collectorPool
  senderCkpt : senderCkpt r' = senderCkpt r
  viewchangeRequest : viewchangeRequest r' = viewchangeRequest r

theorem Untouched.refl (r : Replica) : Untouched r r := ⟨rfl, rfl, rfl, rfl⟩

inductive Count
  | votes (seq : Nat) (type : RequestType) (hash : String)
  | checkPoint (seq : Nat) (hash : String)
  | viewChange (view : Nat)
deriving DecidableEq

def ckptSenders (r : Replica) (seq : Nat) (hash : String) : Finset Nat :=
  ((senderCkpt r).find? (toLex (seq, hash))).getD ∅

def storedView (r : Replica) (view sender : Nat) : Option ViewChangeMessage :=
  ((viewchangeRequest r).find? view).bind fun stored => stored.find? sender

def InCount (r : Replica) (i : Int) : Count → Prop
  | .votes seq type hash => i ∈ (r.collectorPool.getCollector seq).senders type hash
  | .checkPoint seq hash => ∃ n : Nat, (n : Int) = i ∧ n ∈ ckptSenders r seq hash
  | .viewChange view => ∃ n : Nat, (n : Int) = i ∧ (storedView r view n).isSome = true

def Credits (r r' : Replica) (i : Int) : Count → Prop
  | .votes seq type hash => i ∈ (r'.collectorPool.getCollector seq).senders type hash ∧
      i ∉ (r.collectorPool.getCollector seq).senders type hash
  | .checkPoint seq hash => ∃ n : Nat, (n : Int) = i ∧ n ∈ ckptSenders r' seq hash ∧ n ∉ ckptSenders r seq hash
  | .viewChange view => ∃ n : Nat, (n : Int) = i ∧ storedView r' view n ≠ storedView r view n

variable {i : Int} {count : Count}

theorem inCount_or_credits (member : InCount r' i count) : InCount r i count ∨ Credits r r' i count := by
  cases count with
  | votes seq type hash =>
    by_cases before : i ∈ (r.collectorPool.getCollector seq).senders type hash
    · exact .inl before
    · exact .inr ⟨member, before⟩
  | checkPoint seq hash =>
    obtain ⟨n, same, inside⟩ := member
    by_cases before : n ∈ ckptSenders r seq hash
    · exact .inl ⟨n, same, before⟩
    · exact .inr ⟨n, same, inside, before⟩
  | viewChange view =>
    obtain ⟨n, same, stored⟩ := member
    by_cases before : storedView r view n = storedView r' view n
    · rw [← before] at stored
      exact .inl ⟨n, same, stored⟩
    · exact .inr ⟨n, same, fun equal => before equal.symm⟩

theorem inCount_congr (pool : r'.collectorPool = r.collectorPool) (ckpt : senderCkpt r' = senderCkpt r)
    (views : viewchangeRequest r' = viewchangeRequest r) : InCount r' i count ↔ InCount r i count := by
  cases count with
  | votes seq type hash => simp only [InCount, pool]
  | checkPoint seq hash => simp only [InCount, ckptSenders, ckpt]
  | viewChange view => simp only [InCount, storedView, views]

def Ran (call : Call) : Prop :=
  call.before.internalConsensusCommit call.env call.context call.request = .ok call.outcome

def shuffle (r : Replica) (pending complained : List (Context × Request)) (started : Bool) : Replica :=
  { r with
    requestPending := pending, requestComplained := complained
    viewChangeManager := { r.viewChangeManager with started := started } }

inductive Walk (known : Context × Request → Prop) (start : Replica) : Progress → Prop
  | start : Walk known start { replica := start }
  | shuffled {p : Progress} (pending complained : List (Context × Request)) (started : Bool) :
      Walk known start p → Walk known start { p with replica := shuffle p.replica pending complained started }
  | called {p : Progress} {env : Env} {context : Context} {request : Request} {outcome : Outcome} :
      Walk known start p → known (context, request) →
      p.replica.internalConsensusCommit env context request = .ok outcome →
      Walk known start { replica := outcome.replica, calls := p.calls ++ [⟨env, p.replica, context, request, outcome⟩] }

structure Followed (known : Context × Request → Prop) (start : Replica) (p : Progress) : Prop where
  walk : Walk known start p
  waiting : ∀ item ∈ queues p.replica, known item

variable {known : Context × Request → Prop} {start : Replica} {envs : Nat → Env} {p next : Progress} {ret : Int}

theorem call_eq (ran : p.call envs context request = .ok (next, ret)) :
    ∃ outcome, p.replica.internalConsensusCommit (envs p.calls.length) context request = .ok outcome ∧
      next = { replica := outcome.replica
               calls := p.calls ++ [⟨envs p.calls.length, p.replica, context, request, outcome⟩] } := by
  unfold Progress.call at ran
  dsimp only at ran
  obtain ⟨outcome, handling, ran⟩ := bind_eq_ok.mp ran
  cases ran
  exact ⟨outcome, handling, rfl⟩

theorem popPending_call (ran : Progress.popPending envs p item = .ok next) : ∃ ret, Progress.call envs { p with
      replica := { p.replica with requestPending := p.replica.requestPending.tail } } item.1 item.2 =
        .ok (next, ret) := by
  unfold Progress.popPending at ran
  dsimp only at ran
  obtain ⟨⟨done, ret⟩, called, ran⟩ := bind_eq_ok.mp ran
  cases ran
  exact ⟨ret, called⟩

theorem popComplained_call (ran : Progress.popComplained envs p item = .ok next) : ∃ ret, Progress.call envs { p with
      replica := { p.replica with requestComplained := p.replica.requestComplained.tail } } item.1 item.2 =
        .ok (next, ret) := by
  unfold Progress.popComplained at ran
  dsimp only at ran
  obtain ⟨⟨done, ret⟩, called, ran⟩ := bind_eq_ok.mp ran
  cases ran
  exact ⟨ret, called⟩

inductive Dispatches (r : Replica) (envs : Nat → Env) (context : Context) (request : Request) : Progress → Prop
  | plain {next : Progress} {ret : Int} : r.config.enableViewchange = false →
      Progress.call envs { replica := r } context request = .ok (next, ret) → Dispatches r envs context request next
  | waits : request.type.waitsForView = true → Dispatches r envs context request
      { replica := { r.mayStart with requestPending := r.requestPending ++ [(context, request)] } }
  | attends {drained done next : Progress} {ret : Int} :
      (r.mayStart.isInViewChange = true ∧ request.type.waitsForView = false ∧ drained = { replica := r.mayStart } ∨
        r.mayStart.isInViewChange = false ∧
          r.requestPending.foldlM (Progress.popPending envs) { replica := r.mayStart } = .ok drained) →
      drained.call envs context request = .ok (done, ret) →
      next = done ∨ done.replica.requestComplained.foldlM (Progress.popComplained envs) done = .ok next →
      Dispatches r envs context request next

theorem consensusCommit_dispatches (ran : r.consensusCommit envs context request = .ok (next, ret)) :
    Dispatches r envs context request next := by
  unfold Replica.consensusCommit at ran
  split_ifs at ran with plain
  · exact .plain plain ran
  dsimp only at ran
  split at ran
  · rename_i waiting
    cases ran
    exact .waits waiting.2
  rename_i attends
  have finish {drained : Progress} (first : r.mayStart.isInViewChange = true ∧ request.type.waitsForView = false ∧
        drained = { replica := r.mayStart } ∨ r.mayStart.isInViewChange = false ∧
          r.requestPending.foldlM (Progress.popPending envs) { replica := r.mayStart } = .ok drained)
      (ran : (drained.call envs context request >>= fun answer =>
        if answer.2 = -4 then do
          let last ← answer.1.replica.requestComplained.foldlM (Progress.popComplained envs) answer.1
          .ok (last, answer.2)
        else .ok answer) = .ok (next, ret)) : Dispatches r envs context request next := by
    obtain ⟨⟨done, value⟩, called, ran⟩ := bind_eq_ok.mp ran
    dsimp only at ran
    split at ran
    · obtain ⟨last, popped, ran⟩ := bind_eq_ok.mp ran
      cases ran
      exact .attends first called (.inr popped)
    · cases ran
      exact .attends first called (.inl rfl)
  split_ifs at ran with changing
  · exact finish (.inl ⟨changing, by simpa [changing] using attends, rfl⟩) ran
  · obtain ⟨drained, popped, ran⟩ := bind_eq_ok.mp ran
    exact finish (.inr ⟨by simpa using changing, popped⟩) ran

theorem handling_waiting {outcome : Outcome} (handling : Handling r env context request outcome)
    (before : ∀ item ∈ queues r, known item) (here : known (context, request)) :
    ∀ item ∈ queues outcome.replica, known item := by
  cases handling with
  | idle requeues =>
    intro item member
    have moved : item ∈ _ → _ := requeues.mem
    simp only [complaints, mem_append] at moved
    have old : item ∈ queues r ∨ item = (context, request) := by
      simp only [queues, mem_append] at member ⊢
      tauto
    rcases old with old | rfl
    · exact before item old
    · exact here
  | _ => exact before

theorem Followed.call (followed : Followed known start p) (here : known (context, request))
    (ran : p.call envs context request = .ok (next, ret)) : Followed known start next := by
  obtain ⟨outcome, handling, rfl⟩ := call_eq ran
  exact ⟨.called followed.walk here handling,
    handling_waiting (commit_handling handling) followed.waiting here⟩

theorem Followed.shuffled {pending complained : List (Context × Request)} {started : Bool}
    (followed : Followed known start p)
    (less : ∀ item ∈ queues (shuffle p.replica pending complained started), known item) :
    Followed known start { p with replica := shuffle p.replica pending complained started } :=
  ⟨.shuffled pending complained started followed.walk, less⟩

theorem Followed.popPending (followed : Followed known start p) (here : known item)
    (ran : Progress.popPending envs p item = .ok next) : Followed known start next := by
  obtain ⟨ret, called⟩ := popPending_call ran
  have popped : Followed known start { p with
      replica := (shuffle p.replica p.replica.requestPending.tail p.replica.requestComplained
        p.replica.viewChangeManager.started) } := by
    refine followed.shuffled fun other member => followed.waiting other ?_
    simp only [queues, shuffle, mem_append] at member ⊢
    exact member.imp_left (Or.imp_right mem_of_mem_tail)
  exact popped.call here called

theorem Followed.popComplained (followed : Followed known start p) (here : known item)
    (ran : Progress.popComplained envs p item = .ok next) : Followed known start next := by
  obtain ⟨ret, called⟩ := popComplained_call ran
  have popped : Followed known start { p with
      replica := (shuffle p.replica p.replica.requestPending p.replica.requestComplained.tail
        p.replica.viewChangeManager.started) } := by
    refine followed.shuffled fun other member => followed.waiting other ?_
    simp only [queues, shuffle, mem_append] at member ⊢
    exact member.imp_right mem_of_mem_tail
  exact popped.call here called

theorem Followed.drain {item : Progress → Context × Request → Except Fault Progress}
    {items : List (Context × Request)} (followed : Followed known start p) (here : ∀ i ∈ items, known i)
    (keeps : ∀ {q i q'}, Followed known start q → known i → item q i = .ok q' → Followed known start q')
    (ran : items.foldlM item p = .ok next) : Followed known start next :=
  foldlM_invariant (Followed known start) ran followed
    fun _ i _ member before step => keeps before (here i member) step

theorem consensusCommit_followed (waiting : ∀ item ∈ queues r, known item) (here : known (context, request))
    (ran : r.consensusCommit envs context request = .ok (next, ret)) : Followed known r next := by
  have start : Followed known r { replica := r } := ⟨.start, waiting⟩
  have started : Followed known r { replica := r.mayStart } :=
    @Followed.shuffled known r { replica := r } r.requestPending r.requestComplained true start waiting
  cases consensusCommit_dispatches ran with
  | plain _ called => exact start.call here called
  | waits =>
    refine @Followed.shuffled known r { replica := r } (r.requestPending ++ [(context, request)])
      r.requestComplained true start ?_
    intro item member
    simp only [queues, shuffle, mem_append, mem_singleton] at member
    rcases member with (complained | pending | rfl) | moved
    · exact waiting item (by simp [queues, complained])
    · exact waiting item (by simp [queues, pending])
    · exact here
    · exact waiting item (by simp [queues, moved])
  | @attends drained done _ _ first called last =>
    have before : Followed known r drained := by
      rcases first with ⟨-, -, rfl⟩ | ⟨-, popped⟩
      · exact started
      · refine started.drain (fun item member => waiting item ?_) Followed.popPending popped
        simp [queues, member]
    have after := before.call here called
    rcases last with rfl | popped
    · exact after
    · refine after.drain (fun item member => after.waiting item ?_) Followed.popComplained popped
      simp [queues, member]

structure Traced (known : Context × Request → Prop) (start : Replica) (p : Progress) : Prop where
  waiting : ∀ item ∈ queues p.replica, known item
  ran : ∀ call ∈ p.calls, Ran call
  calls : ∀ call ∈ p.calls, known (call.context, call.request)
  counted : ∀ i count, InCount p.replica i count →
    InCount start i count ∨ ∃ call ∈ p.calls, Credits call.before call.outcome.replica i count

theorem Walk.calls (walk : Walk known start p) : ∀ call ∈ p.calls, Ran call ∧ known (call.context, call.request) := by
  induction walk with
  | start => simp
  | shuffled _ _ _ _ ih => exact ih
  | called _ here handling ih =>
    exact forall_mem_snoc.mpr ⟨ih, ⟨handling, here⟩⟩

theorem Walk.counted (walk : Walk known start p) : ∀ i count, InCount p.replica i count →
    InCount start i count ∨ ∃ call ∈ p.calls, Credits call.before call.outcome.replica i count := by
  induction walk with
  | start => exact fun _ _ member => .inl member
  | shuffled _ _ _ _ ih =>
    intro i count member
    exact ih i count ((inCount_congr rfl rfl rfl).mp member)
  | called _ _ _ ih =>
    intro i count member
    rcases inCount_or_credits member with before | credits
    · rcases ih i count before with first | ⟨call, old, credits⟩
      · exact .inl first
      · exact .inr ⟨call, mem_append_left _ old, credits⟩
    · exact .inr ⟨_, mem_append_right _ (mem_singleton_self _), credits⟩

theorem consensusCommit_traced (waiting : ∀ item ∈ queues r, known item) (here : known (context, request))
    (ran : r.consensusCommit envs context request = .ok (next, ret)) : Traced known r next := by
  have followed := consensusCommit_followed waiting here ran
  exact ⟨followed.waiting, fun call member => (followed.walk.calls call member).1,
    fun call member => (followed.walk.calls call member).2, followed.walk.counted⟩

end ResilientDB.Proof
