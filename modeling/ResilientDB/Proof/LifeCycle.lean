import ResilientDB.Model.CollectorThreads
import ResilientDB.Proof.CollectorRun

namespace ResilientDB.Proof
open Model Library List Option

variable {config : ResDBConfig} {seq : Nat} {s s' : SharedCollector} {thread thread' : AddThread} {hash : String}
  {request : Request} {signature : SignatureInfo} {changed : Bool} {info : MainInfo} {main : Option Nat} {p : Prop}
  {yes no : AddStep} {step : MainStep}

def StatusStep (before after : TransactionStatue) : Prop := after = before ∨ after.code = before.code + 1

theorem mayConsensusChangeStatus_step (config : ResDBConfig) (type : RequestType) (count : Nat)
    (status : TransactionStatue) (ret : Bool) :
    StatusStep status (mayConsensusChangeStatus config type count status ret).2 := by
  unfold mayConsensusChangeStatus
  split
  · split_ifs with none
    · rw [none]
      exact .inr rfl
    · exact .inl rfl
  · split_ifs with prepares
    · rw [prepares.1]
      exact .inr rfl
    · exact .inl rfl
  · split_ifs with commits
    · rw [commits.1]
      exact .inr rfl
    · exact .inl rfl
  · exact .inl rfl

structure Owns (seq : Nat) (s : SharedCollector) : Prop where
  own : s.collector.seq = seq
  objects : ∀ info r, some info ∈ s.objects → info.request = some r → r.seq = seq
  others : ∀ info ∈ s.collector.otherMainRequest, info.request.seq = seq
  committed : ∀ r ∈ s.committed, r.seq = seq

theorem clearPointer_objects (member : some info ∈ s.clearPointer.objects) : some info ∈ s.objects := by
  unfold SharedCollector.clearPointer at member
  cases found : s.pointer with
  | none => simpa [found] using member
  | some address =>
    simp only [found, elim_some] at member
    rcases mem_or_eq_of_mem_set member with old | new
    · exact old
    · cases new

theorem Owns.clearPointer (owns : Owns seq s) : Owns seq s.clearPointer :=
  ⟨owns.own, fun info r member => owns.objects info r (clearPointer_objects member), owns.others, owns.committed⟩

theorem Owns.storePointer (owns : Owns seq s) (info : MainInfo) (same : ∀ r, info.request = some r → r.seq = seq) :
    Owns seq (s.storePointer info) := by
  refine ⟨owns.own, fun other r member => ?_, owns.others, owns.committed⟩
  rcases mem_append.mp member with old | new
  · exact owns.clearPointer.objects other r old
  · cases mem_singleton.mp new
    exact same r

structure BlockEffect (s s' : SharedCollector) : Prop where
  status : StatusStep s.collector.status s'.collector.status
  committed : s'.committed = s.committed
  owns : ∀ seq, Owns seq s → Owns seq s'

theorem BlockEffect.refl (s : SharedCollector) : BlockEffect s s := ⟨.inl rfl, rfl, fun _ => id⟩

theorem selectMainRequest_spec (selected : s.selectMainRequest hash = .ok s') :
    s'.collector.status = s.collector.status ∧ BlockEffect s s' := by
  unfold SharedCollector.selectMainRequest at selected
  split_ifs at selected with empty
  · cases selected
    exact ⟨rfl, .refl s⟩
  obtain ⟨info, -, selected⟩ := bind_eq_ok.mp selected
  split at selected
  · cases selected
  split_ifs at selected with same
  · cases selected
    exact ⟨rfl, .refl s⟩
  have cleared (seq : Nat) (owns : Owns seq s) : Owns seq { s.clearPointer with
      flag := 0, collector := { s.collector with otherMainRequest := [] } } :=
    ⟨owns.own, owns.clearPointer.objects, by simp, owns.committed⟩
  dsimp only at selected
  split at selected
  · rename_i other found
    cases selected
    refine ⟨rfl, .inl rfl, rfl, fun seq owns => ?_⟩
    have stored := (cleared seq owns).storePointer ⟨some other.request, other.signature⟩ (by
      rintro r ⟨⟩
      exact owns.others other (mem_of_find?_eq_some found))
    exact ⟨stored.own, stored.objects, stored.others, stored.committed⟩
  · cases selected
    exact ⟨rfl, .inl rfl, rfl, cleared⟩

theorem countVote_frame {c d : TransactionCollector} {type : RequestType} {sender : Int}
    (counted : c.countVote type hash sender = .ok d) :
    d.status = c.status ∧ d.seq = c.seq ∧ d.otherMainRequest = c.otherMainRequest := by
  obtain ⟨rfl, -⟩ := countVote_ok counted
  exact ⟨rfl, rfl, rfl⟩

theorem prepareBlock_effect
    (ran : s.prepareBlock request signature (mayConsensusChangeStatus config request.type) = .ok (s', changed)) :
    BlockEffect s s' := by
  unfold SharedCollector.prepareBlock at ran
  split_ifs at ran with prepared
  · cases ran
    exact .refl s
  obtain ⟨counted, vote, ran⟩ := bind_eq_ok.mp ran
  obtain ⟨status, own, others⟩ := countVote_frame vote
  have step := mayConsensusChangeStatus_step config request.type
    (counted.senders request.type request.hash).card counted.status false
  rw [status] at step
  dsimp only at ran
  rw [status] at ran
  split at ran
  · obtain ⟨selected, select, ran⟩ := bind_eq_ok.mp ran
    cases ran
    obtain ⟨kept, effect⟩ := selectMainRequest_spec select
    refine ⟨kept ▸ step, effect.committed, fun seq owns => ?_⟩
    have after := effect.owns seq ⟨own.trans owns.own, owns.objects, others ▸ owns.others, owns.committed⟩
    exact ⟨after.own, after.objects, after.others, after.committed⟩
  · cases ran
    exact ⟨step, rfl, fun _ owns => ⟨own.trans owns.own, owns.objects, others ▸ owns.others, owns.committed⟩⟩

theorem voteBlock_effect
    (ran : s.voteBlock request (mayConsensusChangeStatus config request.type) = .ok (s', changed)) :
    BlockEffect s s' := by
  obtain ⟨counted, vote, ran⟩ := bind_eq_ok.mp ran
  obtain ⟨status, own, others⟩ := countVote_frame vote
  cases ran
  refine ⟨?_, rfl, fun _ owns => ⟨own.trans owns.own, owns.objects, others ▸ owns.others, owns.committed⟩⟩
  rw [← status]
  exact mayConsensusChangeStatus_step config request.type _ counted.status false

theorem info_eq_ok (found : s.info main = .ok info) : some info ∈ s.objects := by
  unfold SharedCollector.info at found
  split at found
  · rename_i stored present
    cases found
    obtain ⟨address, -, there⟩ := bind_eq_some_iff.mp present
    exact mem_of_getElem? (join_eq_some_iff.mp there)
  · cases found

theorem handOver_spec (ran : s.handOver main = .ok s') :
    s'.collector = s.collector ∧ (s'.committed = s.committed ∨ ∃ r, s'.committed = s.committed ++ [r]) ∧
      ∀ seq, Owns seq s → Owns seq s' := by
  obtain ⟨info, found, ran⟩ := bind_eq_ok.mp ran
  split at ran
  · cases ran
    exact ⟨rfl, .inl rfl, fun _ => id⟩
  · rename_i r stored
    cases ran
    refine ⟨rfl, .inr ⟨_, rfl⟩, fun seq owns => ⟨owns.own, fun other other' member => ?_, owns.others, ?_⟩⟩
    · cases main with
      | none => exact owns.objects other other' member
      | some address =>
        rcases mem_or_eq_of_mem_set member with old | new
        · exact owns.objects other other' old
        · cases new
          intro impossible
          cases impossible
    · exact forall_mem_snoc.mpr ⟨owns.committed, owns.objects info r (info_eq_ok found) stored⟩

def handing (thread : AddThread) : Nat :=
  match thread.next with
  | .commit .exchangeStatus => 0
  | .commit _ => 1
  | _ => 0

def handed (s : SharedCollector) : Nat := s.committed.length + if s.collector.status = .executed then 0 else 1

structure Forward (s : SharedCollector) (thread : AddThread) (s' : SharedCollector) (thread' : AddThread) : Prop where
  status : StatusStep s.collector.status s'.collector.status
  committed : s.committed <+: s'.committed
  once : handed s' + handing thread' ≤ handed s + handing thread

theorem StatusStep.executed {before after : TransactionStatue} (step : StatusStep before after) :
    (if after = .executed then 0 else 1) ≤ if before = .executed then 0 else 1 := by
  rcases step with rfl | more
  · exact le_rfl
  · cases before <;> cases after <;> simp [TransactionStatue.code] at more ⊢

theorem Forward.block (effect : BlockEffect s s') (none : handing thread' = 0) : Forward s thread s' thread' := by
  refine ⟨effect.status, effect.committed ▸ prefix_rfl, ?_⟩
  have executed := effect.status.executed
  unfold handed
  rw [effect.committed, none]
  omega

theorem Forward.same (collector : s'.collector.status = s.collector.status) (committed : s'.committed = s.committed)
    (fewer : handing thread' ≤ handing thread) : Forward s thread s' thread' := by
  refine ⟨.inl collector, committed ▸ prefix_rfl, ?_⟩
  unfold handed
  rw [collector, committed]
  omega

theorem handing_ite [Decidable p] (done : handing (thread.goto yes) = 0)
    (other : handing (thread.goto no) = 0) : handing (thread.goto (if p then yes else no)) = 0 := by
  split_ifs
  · exact done
  · exact other

theorem addMain_forward (ran : thread.addMain s step = .ok (s', thread')) : Forward s thread s' thread' := by
  cases step with
  | exchangeStatus =>
    simp only [AddThread.addMain] at ran
    split_ifs at ran with unset
    · cases ran
      exact .block ⟨.inr (by simp [unset, TransactionStatue.code]), rfl,
        fun _ owns => ⟨owns.own, owns.objects, owns.others, owns.committed⟩⟩ rfl
    · cases ran
      exact .same rfl rfl (Nat.zero_le _)
  | exchangeFlag =>
    simp only [AddThread.addMain] at ran
    split_ifs at ran <;> cases ran <;> exact .same rfl rfl (Nat.zero_le _)
  | checkRequest main =>
    obtain ⟨info, -, ran⟩ := bind_eq_ok.mp ran
    cases ran
    exact .same rfl rfl ((handing_ite rfl rfl).trans_le (Nat.zero_le _))
  | testStatus main =>
    obtain ⟨info, -, ran⟩ := bind_eq_ok.mp ran
    split_ifs at ran <;> cases ran <;> exact .same rfl rfl (Nat.zero_le _)
  | _ =>
    cases ran
    exact .same rfl rfl (Nat.zero_le _)

theorem addVote_forward {step : VoteStep} (ran : thread.addVote config s step = .ok (s', thread')) :
    Forward s thread s' thread' := by
  cases step with
  | prepareBlock =>
    obtain ⟨⟨after, changed⟩, block, ran⟩ := bind_eq_ok.mp ran
    cases ran
    exact .block (prepareBlock_effect block) rfl
  | addCert =>
    cases ran
    rw [addCert_eq]
    exact .same rfl rfl (Nat.zero_le _)
  | voteBlock =>
    obtain ⟨⟨after, changed⟩, block, ran⟩ := bind_eq_ok.mp ran
    cases ran
    exact .block (voteBlock_effect block) rfl
  | _ =>
    cases ran
    exact .same rfl rfl ((handing_ite rfl rfl).trans_le (Nat.zero_le _))

theorem commit_forward {step : CommitStep} (next : thread.next = .commit step)
    (ran : thread.commit s step = .ok (s', thread')) : Forward s thread s' thread' := by
  cases step with
  | exchangeStatus =>
    simp only [AddThread.commit] at ran
    split_ifs at ran with ready
    · cases ran
      refine ⟨.inr (by simp [ready, TransactionStatue.code]), prefix_rfl, ?_⟩
      simp [handed, handing, AddThread.goto, ready]
    · cases ran
      exact .same rfl rfl (Nat.zero_le _)
  | reference =>
    cases ran
    refine .same rfl rfl ?_
    split_ifs <;> simp [handing, AddThread.goto, next]
  | storeCommitted main =>
    cases ran
    exact .same rfl rfl (by simp [handing, AddThread.goto, next])
  | handOver main =>
    obtain ⟨after, hands, ran⟩ := bind_eq_ok.mp ran
    cases ran
    obtain ⟨same, given, -⟩ := handOver_spec hands
    rcases given with nothing | ⟨r, given⟩
    · exact .same (same ▸ rfl) nothing (Nat.zero_le _)
    · refine ⟨.inl (same ▸ rfl), given ▸ prefix_append _ _, ?_⟩
      simp only [handed, handing, AddThread.goto, next, same, given, length_append, length_singleton]
      omega

theorem advance_forward (moved : thread.advance config s = .ok (s', thread')) : Forward s thread s' thread' := by
  unfold AddThread.advance at moved
  split at moved
  · rename_i step next
    cases moved
    refine .same rfl rfl ?_
    cases step with
    | seq => exact (handing_ite rfl (handing_ite rfl (handing_ite rfl rfl))).trans_le (Nat.zero_le _)
    | _ => exact (handing_ite rfl rfl).trans_le (Nat.zero_le _)
  · exact addMain_forward moved
  · exact addVote_forward moved
  · rename_i step next
    exact commit_forward next moved
  · cases moved
    exact .same rfl rfl le_rfl

def EntersOwn (seq : Nat) (thread : AddThread) : Prop :=
  match thread.next with
  | .main _ => thread.request.seq = seq
  | _ => True

theorem EntersOwn.goto_ite [Decidable p] (left : p → EntersOwn seq (thread.goto yes))
    (right : ¬ p → EntersOwn seq (thread.goto no)) : EntersOwn seq (thread.goto (if p then yes else no)) := by
  split_ifs with holds
  · exact left holds
  · exact right holds

theorem check_entersOwn {step : CheckStep} (owns : Owns seq s) : EntersOwn seq (thread.check s step) := by
  cases step with
  | seq =>
    refine .goto_ite (fun _ => trivial) fun same => .goto_ite (fun _ => ?_) fun _ =>
      .goto_ite (fun _ => trivial) (fun _ => trivial)
    exact (not_not.mp same).symm.trans owns.own
  | _ => exact .goto_ite (fun _ => trivial) (fun _ => trivial)

theorem addMain_owns (owns : Owns seq s) (own : thread.request.seq = seq)
    (ran : thread.addMain s step = .ok (s', thread')) : Owns seq s' ∧ EntersOwn seq thread' := by
  cases step with
  | clearPointer =>
    cases ran
    exact ⟨owns.clearPointer, own⟩
  | exchangeFlag =>
    simp only [AddThread.addMain] at ran
    split_ifs at ran
    · cases ran
      exact ⟨⟨owns.own, owns.objects, owns.others, owns.committed⟩, own⟩
    · cases ran
      exact ⟨owns, own⟩
  | storePointer =>
    cases ran
    refine ⟨owns.storePointer _ ?_, own⟩
    rintro r ⟨⟩
    exact own
  | insertOther =>
    cases ran
    refine ⟨⟨owns.own, owns.objects, fun info member => ?_, owns.committed⟩, trivial⟩
    rcases eq_or_mem_of_mem_insertIdx member with rfl | old
    · exact own
    · exact owns.others info old
  | checkRequest main =>
    obtain ⟨info, -, ran⟩ := bind_eq_ok.mp ran
    cases ran
    exact ⟨owns, .goto_ite (fun _ => trivial) (fun _ => own)⟩
  | testStatus main =>
    obtain ⟨info, -, ran⟩ := bind_eq_ok.mp ran
    split_ifs at ran
    · cases ran
      exact ⟨owns, own⟩
    · cases ran
      exact ⟨owns, trivial⟩
  | exchangeStatus =>
    simp only [AddThread.addMain] at ran
    split_ifs at ran
    · cases ran
      exact ⟨⟨owns.own, owns.objects, owns.others, owns.committed⟩, trivial⟩
    · cases ran
      exact ⟨owns, trivial⟩
  | _ =>
    cases ran
    exact ⟨⟨owns.own, owns.objects, owns.others, owns.committed⟩, own⟩

theorem addVote_owns {step : VoteStep} (owns : Owns seq s)
    (ran : thread.addVote config s step = .ok (s', thread')) : Owns seq s' ∧ EntersOwn seq thread' := by
  cases step with
  | prepareBlock =>
    obtain ⟨⟨after, changed⟩, block, ran⟩ := bind_eq_ok.mp ran
    cases ran
    exact ⟨(prepareBlock_effect block).owns seq owns, trivial⟩
  | addCert =>
    cases ran
    rw [addCert_eq]
    exact ⟨⟨owns.own, owns.objects, owns.others, owns.committed⟩, trivial⟩
  | voteBlock =>
    obtain ⟨⟨after, changed⟩, block, ran⟩ := bind_eq_ok.mp ran
    cases ran
    exact ⟨(voteBlock_effect block).owns seq owns, trivial⟩
  | _ =>
    cases ran
    exact ⟨owns, .goto_ite (fun _ => trivial) (fun _ => trivial)⟩

theorem commit_owns {step : CommitStep} (owns : Owns seq s) (ran : thread.commit s step = .ok (s', thread')) :
    Owns seq s' ∧ EntersOwn seq thread' := by
  cases step with
  | exchangeStatus =>
    simp only [AddThread.commit] at ran
    split_ifs at ran
    · cases ran
      exact ⟨⟨owns.own, owns.objects, owns.others, owns.committed⟩, trivial⟩
    · cases ran
      exact ⟨owns, trivial⟩
  | reference =>
    cases ran
    exact ⟨owns, .goto_ite (fun _ => trivial) (fun _ => trivial)⟩
  | storeCommitted main =>
    cases ran
    exact ⟨⟨owns.own, owns.objects, owns.others, owns.committed⟩, trivial⟩
  | handOver main =>
    obtain ⟨after, hands, ran⟩ := bind_eq_ok.mp ran
    cases ran
    exact ⟨(handOver_spec hands).2.2 seq owns, trivial⟩

theorem advance_owns (owns : Owns seq s) (enters : EntersOwn seq thread)
    (moved : thread.advance config s = .ok (s', thread')) : Owns seq s' ∧ EntersOwn seq thread' := by
  unfold AddThread.advance at moved
  split at moved
  · cases moved
    exact ⟨owns, check_entersOwn owns⟩
  · rename_i step next
    unfold EntersOwn at enters
    rw [next] at enters
    exact addMain_owns owns enters moved
  · exact addVote_owns owns moved
  · exact commit_owns owns moved
  · cases moved
    exact ⟨owns, enters⟩

/-- The status goes forward one step at a time, and the executor is called at most once. -/
theorem collector_life_cycle {viewchange : Bool} {state : ThreadPool SharedCollector AddThread}
    {trace : List (Transition (ThreadPool SharedCollector AddThread) (ThreadEvent AddArguments))}
    (run : (collectorThreads config seq viewchange).Run trace state) :
    (∀ t ∈ trace, StatusStep t.before.shared.collector.status t.after.shared.collector.status ∧
      t.before.shared.committed <+: t.after.shared.committed) ∧
    state.shared.committed.length ≤ 1 ∧ ∀ r ∈ state.shared.committed, r.seq = seq := by
  have invariant := interleaving_invariant run (Owns seq) (fun _ thread => EntersOwn seq thread)
    (fun s s' => StatusStep s.collector.status s'.collector.status ∧ s.committed <+: s'.committed) ?_ ?_ ?_ ?_
  · have once := interleaving_tokens run handed handing 1 ?_ ?_ ?_
    · refine ⟨fun t member => ?_, ?_, invariant.1.1.committed⟩
      · rcases invariant.2 t member with same | forward
        · rw [same]
          exact ⟨.inl rfl, prefix_rfl⟩
        · exact forward
      · unfold handed at once
        omega
    · rintro s rfl
      exact le_rfl
    · exact fun _ => rfl
    · exact fun _ _ _ _ moved => (advance_forward moved).once
  · rintro s rfl
    exact ⟨rfl, by simp, by simp, by simp⟩
  · exact fun _ _ _ => trivial
  · intro s thread s' thread' owns enters moved
    have forward := advance_forward moved
    obtain ⟨after, still⟩ := advance_owns owns enters moved
    exact ⟨after, still, forward.status, forward.committed⟩
  · exact fun _ _ _ _ _ enters => enters

def collectorThreadsAct (config : ResDBConfig) (state : ThreadPool SharedCollector AddThread) :
    ThreadEvent AddArguments → Option (ThreadPool SharedCollector AddThread)
  | .call arguments => some { state with threads := state.threads ++ [{ toAddArguments := arguments }] }
  | .turn i => do
    let thread ← state.threads[i]?
    let (shared, thread') ← (thread.advance config state.shared).toOption
    some { shared := shared, threads := state.threads.set i thread' }

theorem collectorThreadsAct_sound {viewchange : Bool} (state : ThreadPool SharedCollector AddThread)
    (event : ThreadEvent AddArguments) (state' : ThreadPool SharedCollector AddThread)
    (acted : collectorThreadsAct config state event = some state') :
    (collectorThreads config seq viewchange).step state event state' := by
  cases event with
  | call arguments => exact (Option.some.inj acted).symm
  | turn i =>
    obtain ⟨thread, found, acted⟩ := bind_eq_some_iff.mp acted
    obtain ⟨⟨shared, thread'⟩, moved, acted⟩ := bind_eq_some_iff.mp acted
    exact ⟨thread, shared, thread', found, eq_ok_of_toOption moved, (Option.some.inj acted).symm⟩

def argumentsOf (d : Delivery) : AddArguments := { request := d.request, signature := d.signature }

def turnsOf (thread count : Nat) : List (ThreadEvent AddArguments) := List.replicate count (.turn thread)

def racingCommits : List (ThreadEvent AddArguments) :=
  sameProposal.map (fun d => .call (argumentsOf d)) ++ turnsOf 0 12 ++ turnsOf 1 6 ++ turnsOf 2 6 ++ turnsOf 3 6 ++
    turnsOf 4 6 ++ turnsOf 5 5 ++ turnsOf 6 5 ++ [.turn 5, .turn 6, .turn 5, .turn 6] ++ turnsOf 5 3

theorem racingCommits_once : ∃ trace state, (collectorThreads fourReplicas 1 false).Run trace state ∧
    state.threads.map (fun thread => thread.next) = [.done 0, .done 0, .done 0, .done 0, .done 0, .done 1, .done 1] ∧
    state.shared.collector.status = .executed ∧ state.shared.committed ≠ [] ∧ state.shared.committed.length ≤ 1 := by
  have first : (collectorThreads fourReplicas 1 false).initial
      { shared := { collector := { seq := 1, enableViewchange := false } }, threads := [] } := ⟨rfl, rfl⟩
  obtain ⟨trace, state, run, ended, executed, handed⟩ := System.run_of_play
    (@collectorThreadsAct_sound fourReplicas 1 false) first racingCommits
    (fun _ state => state.threads.map (fun thread => thread.next) =
        [.done 0, .done 0, .done 0, .done 0, .done 0, .done 1, .done 1] ∧
      state.shared.collector.status = .executed ∧ state.shared.committed ≠ []) (by decide)
  exact ⟨trace, state, run, ended, executed, handed, (collector_life_cycle run).2.1⟩

end ResilientDB.Proof
