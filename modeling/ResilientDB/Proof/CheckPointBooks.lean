import ResilientDB.Proof.CheckPointDigest

namespace ResilientDB.Proof
open Model Library List Option

variable {config : ResDBConfig} {m : CheckPointManager} {s s' : CheckPointThreads}
  {trace : List (Transition CheckPointThreads CheckPointEvent)} {mark sender : Nat} {data : CheckPointData}
  {key : Nat ×ₗ String} {choice : Choice} {event : CheckPointEvent} {t : Transition CheckPointThreads CheckPointEvent}

structure CkptBooks where
  senders : OrderedMap (Nat ×ₗ String) (Finset Nat)
  signatures : OrderedMap (Nat ×ₗ String) (List SignatureInfo)
  stable : StableCheckPoint
  current : Nat

def ckptBooks (m : CheckPointManager) : CkptBooks := ⟨m.senderCkpt, m.signCkpt, m.stableCkpt, m.currentStableSeq⟩

structure Balanced (mark : Nat) (b : CkptBooks) : Prop where
  counts : ∀ key, (b.signatures.find? key).map List.length = (b.senders.find? key).map Finset.card
  marks : ∀ key senders, b.senders.find? key = some senders → mark ∣ (ofLex key).1
  stable : mark ∣ b.current
  current : b.stable.seq = b.current

theorem Balanced.addCheckPoint (balanced : Balanced mark (ckptBooks m)) (multiple : mark ∣ data.seq) :
    Balanced mark (ckptBooks (m.addCheckPoint sender data)) := by
  obtain ⟨counts, marks, stable, current⟩ := balanced
  unfold CheckPointManager.addCheckPoint
  dsimp only
  split_ifs with old
  · exact ⟨counts, marks, stable, current⟩
  refine ⟨fun key => ?_, fun key senders => ?_, stable, current⟩
  · simp only [ckptBooks, OrderedMap.find?_assign, OrderedMap.find?_alter]
    split_ifs with here
    · have before := counts (toLex (data.seq, data.hash))
      dsimp only [ckptBooks] at before
      rw [map_some, map_some, Finset.card_insert_of_notMem old, length_append, length_singleton]
      cases signed : m.signCkpt.find? (toLex (data.seq, data.hash)) <;>
        cases sent : m.senderCkpt.find? (toLex (data.seq, data.hash)) <;> simp_all
    · exact counts key
  · simp only [ckptBooks, OrderedMap.find?_assign]
    split_ifs with here
    · intro _
      rw [here]
      exact multiple
    · exact marks key senders

theorem Balanced.setStable {mark seq : Nat} {hash : String} (balanced : Balanced mark (ckptBooks m))
    (multiple : mark ∣ seq) : Balanced mark (ckptBooks (m.setStable seq hash)) := by
  obtain ⟨counts, marks, stable, current⟩ := balanced
  unfold CheckPointManager.setStable
  split_ifs with newer
  · refine ⟨fun key => ?_, fun key senders => ?_, multiple, rfl⟩
    · simp only [ckptBooks, OrderedMap.find?_eraseIf]
      split_ifs with gone
      · rfl
      · exact counts key
    · simp only [ckptBooks, OrderedMap.find?_eraseIf]
      split_ifs with gone
      · intro found
        cases found
      · exact marks key senders
  · exact ⟨counts, marks, stable, current⟩

def EntryQuorum (config : ResDBConfig) (counted : OrderedMap (Nat ×ₗ String) (Finset Nat)) (key : Nat ×ₗ String) :
  Prop :=
  ∃ senders, counted.find? key = some senders ∧ config.getMinDataReceiveNum ≤ senders.card

structure Largest (config : ResDBConfig) (counted : OrderedMap (Nat ×ₗ String) (Finset Nat)) (key : Nat ×ₗ String) :
    Prop where
  quorum : EntryQuorum config counted key
  largest : ∀ other, EntryQuorum config counted other → other ≤ key

theorem EntryQuorum.addCheckPoint (quorum : EntryQuorum config m.senderCkpt key) : EntryQuorum config
    (m.addCheckPoint sender data).senderCkpt key := by
  obtain ⟨senders, found, enough⟩ := quorum
  unfold CheckPointManager.addCheckPoint
  dsimp only
  split_ifs with old
  · exact ⟨senders, found, enough⟩
  · unfold EntryQuorum
    rw [OrderedMap.find?_assign]
    split_ifs with here
    · rw [here] at found
      refine ⟨_, rfl, enough.trans (Finset.card_le_card ?_)⟩
      rw [found]
      exact Finset.subset_insert _ _
    · exact ⟨senders, found, enough⟩

theorem foldl_visitCkpt_last (env : Env) (entries : List ((Nat ×ₗ String) × Finset Nat)) (state : Visit)
    (sorted : entries.Pairwise fun a b => a.1 < b.1) :
    ((entries.foldl (CheckPointManager.visitCkpt env config) state).2.2 = state.2.2 ∧
      ∀ entry ∈ entries, ¬ config.getMinDataReceiveNum ≤ entry.2.card) ∨
    ∃ entry ∈ entries, config.getMinDataReceiveNum ≤ entry.2.card ∧
      (entries.foldl (CheckPointManager.visitCkpt env config) state).2.2 = ofLex entry.1 ∧
      ∀ other ∈ entries, config.getMinDataReceiveNum ≤ other.2.card → other.1 ≤ entry.1 := by
  induction entries using List.reverseRecOn with
  | nil => exact .inl ⟨rfl, fun entry member => by cases member⟩
  | append_singleton entries last ih =>
    obtain ⟨early, -, below⟩ := pairwise_append.mp sorted
    rw [foldl_append, foldl_cons, foldl_nil, visitCkpt_chosen]
    split_ifs with enough
    · refine .inr ⟨last, by simp, enough, rfl, fun other member _ => ?_⟩
      rcases mem_append.mp member with before | here
      · exact (below other before last (mem_singleton_self _)).le
      · rw [mem_singleton.mp here]
    · rcases ih early with ⟨same, none⟩ | ⟨entry, member, quorum, same, largest⟩
      · refine .inl ⟨same, fun entry member => ?_⟩
        rcases mem_append.mp member with before | here
        · exact none entry before
        · rw [mem_singleton.mp here]
          exact enough
      · refine .inr ⟨entry, mem_append_left _ member, quorum, same, fun other there many => ?_⟩
        rcases mem_append.mp there with before | here
        · exact largest other before many
        · rw [mem_singleton.mp here] at many
          exact absurd many enough

theorem chooseStable_chosen (env : Env) (m : CheckPointManager) : (m.chooseStable env config).2.2 = (0, "") ∨
      Largest config m.senderCkpt (toLex (m.chooseStable env config).2.2) := by
  have chosen := @foldl_visitCkpt_last config env m.senderCkpt.entries (m, [], 0, "") m.senderCkpt.sorted
  have whole : (m.chooseStable env config).2.2 =
    (m.senderCkpt.entries.foldl (CheckPointManager.visitCkpt env config) (m, [], 0, "")).2.2 := rfl
  rw [whole]
  rcases chosen with ⟨same, -⟩ | ⟨⟨key, senders⟩, member, quorum, same, largest⟩
  · exact .inl same
  · refine .inr ?_
    rw [same]
    refine ⟨⟨senders, OrderedMap.find?_eq_some.mpr member, quorum⟩, ?_⟩
    rintro other ⟨voters, found, many⟩
    exact largest (other, voters) (OrderedMap.find?_eq_some.mp found) many

theorem chooseStable_books (env : Env) (m : CheckPointManager) :
    ckptBooks (m.chooseStable env config).1 = ckptBooks m := by
  obtain ⟨seq, ckptHash, signal, last, highest, same⟩ := chooseStable_eq env config m
  rw [same]
  rfl

def Pending (config : ResDBConfig) (m : CheckPointManager) (choice : Choice) : Prop :=
  (choice.seq, choice.hash) = (0, "") ∨ Largest config choice.counted (toLex (choice.seq, choice.hash)) ∧
      EntryQuorum config m.senderCkpt (toLex (choice.seq, choice.hash))

structure Kept (config : ResDBConfig) (s : CheckPointThreads) : Prop where
  balanced : Balanced config.checkPointWaterMark (ckptBooks s.manager)
  pending : ∀ choice, s.choice = some choice → Pending config s.manager choice

theorem Kept.same (kept : Kept config s) (books : ckptBooks s'.manager = ckptBooks s.manager)
    (pending : s'.choice = s.choice) : Kept config s' := by
  have senders : s'.manager.senderCkpt = s.manager.senderCkpt := congrArg CkptBooks.senders books
  refine ⟨books ▸ kept.balanced, fun choice here => ?_⟩
  unfold Pending
  rw [senders]
  exact kept.pending choice (pending ▸ here)

theorem addCommitData_books (m : CheckPointManager) (request : Request) :
    ckptBooks (m.addCommitData request) = ckptBooks m := by
  unfold CheckPointManager.addCommitData
  split <;> rfl

theorem updateCheckPointStatus_books (env : Env) (m : CheckPointManager) :
    ckptBooks (m.updateCheckPointStatus env config).1 = ckptBooks m := by
  obtain ⟨data, hash, seq, db, ckpt, same⟩ := updateCheckPointStatus_eq env config m
  rw [same]
  rfl

theorem Kept.addCheckPoint (kept : Kept config s) (multiple : config.checkPointWaterMark ∣ data.seq) :
    Kept config { s with manager := s.manager.addCheckPoint sender data } := by
  refine ⟨kept.balanced.addCheckPoint multiple, fun choice here => ?_⟩
  exact (kept.pending choice here).imp_right fun both => ⟨both.1, both.2.addCheckPoint⟩

theorem Kept.chooseStable (kept : Kept config s) (env : Env) : Kept config (s.chooseStable config env) := by
  have books := @chooseStable_books config env s.manager
  constructor
  · dsimp only [CheckPointThreads.chooseStable]
    rw [books]
    exact kept.balanced
  · rintro choice ⟨⟩
    refine (chooseStable_chosen env s.manager).imp_right fun largest => ⟨largest, ?_⟩
    have senders : (s.manager.chooseStable env config).1.senderCkpt = s.manager.senderCkpt :=
      congrArg CkptBooks.senders books
    dsimp only [CheckPointThreads.chooseStable]
    rw [senders]
    exact largest.quorum

theorem Pending.multiple (pending : Pending config m choice)
    (balanced : Balanced config.checkPointWaterMark (ckptBooks m)) : config.checkPointWaterMark ∣ choice.seq := by
  rcases pending with none | ⟨-, senders, found, -⟩
  · rw [(Prod.mk.inj none).1]
    exact dvd_zero _
  · exact balanced.marks _ senders found

theorem Kept.act (kept : Kept config s) (step : s.act config event = some s') : Kept config s' := by
  cases checkPointStep_of_act step with
  | addCommitData request => exact kept.same (addCommitData_books _ _) rfl
  | updateCheckPointStatus env => exact kept.same (updateCheckPointStatus_books _ _) rfl
  | processCheckPoint env request =>
    unfold CheckPointThreads.processCheckPoint
    rcases processCheckPoint_cases env config s.manager request with same | ⟨data, multiple, same⟩
    · rw [same]
      exact kept
    · rw [same]
      exact kept.addCheckPoint (Nat.dvd_of_mod_eq_zero multiple)
  | chooseStable env => exact kept.chooseStable env
  | @setStable choice pending =>
    refine ⟨kept.balanced.setStable ((kept.pending choice pending).multiple kept.balanced), ?_⟩
    rintro other ⟨⟩

theorem kept_run (run : (checkPointThreads config).Run trace s) : Kept config s := by
  refine run.invariant (fun _ => True) (Kept config) ?_ ?_ (fun _ _ => trivial)
  · rintro s rfl
    refine ⟨⟨fun key => rfl, ?_, dvd_zero _, rfl⟩, ?_⟩
    · rintro key senders ⟨⟩
    · rintro choice ⟨⟩
  · exact fun s event s' kept step _ => kept.act step

theorem choice_made (run : (checkPointThreads config).Run trace s) (pending : s.choice = some choice) :
    ∃ t ∈ trace, ∃ env, t.event = .chooseStable env ∧ t.before.manager.senderCkpt = choice.counted ∧
      t.after.choice = some choice := by
  induction run with
  | initial first =>
    cases first
    cases pending
  | @next trace s s' event earlier step ih =>
    have old : s'.choice = s.choice → ∃ t ∈ ⟨s, event, s'⟩ :: trace, ∃ env, t.event = .chooseStable env ∧
        t.before.manager.senderCkpt = choice.counted ∧ t.after.choice = some choice := by
      intro same
      obtain ⟨t, member, made⟩ := ih (same ▸ pending)
      exact ⟨t, mem_cons_of_mem _ member, made⟩
    cases checkPointStep_of_act step with
    | chooseStable env =>
      refine ⟨_, mem_cons_self, env, rfl, ?_, pending⟩
      cases pending
      rfl
    | setStable => cases pending
    | _ => exact old rfl

structure NewStable (config : ResDBConfig) (trace : List (Transition CheckPointThreads CheckPointEvent))
    (t : Transition CheckPointThreads CheckPointEvent) (choice : Choice) : Prop where
  event : t.event = .setStable
  chosen : ∃ u ∈ trace, ∃ env, u.event = .chooseStable env ∧ u.before.manager.senderCkpt = choice.counted ∧
    u.after.choice = some choice
  quorum : EntryQuorum config choice.counted (toLex (choice.seq, choice.hash))
  largest : ∀ key, EntryQuorum config choice.counted key → (ofLex key).1 ≤ choice.seq
  current : t.after.manager.currentStableSeq = choice.seq
  stable : ∃ signatures, t.before.manager.signCkpt.find? (toLex (choice.seq, choice.hash)) = some signatures ∧
    t.after.manager.stableCkpt = ⟨choice.seq, choice.hash, signatures⟩

structure StableStep (config : ResDBConfig) (trace : List (Transition CheckPointThreads CheckPointEvent))
    (t : Transition CheckPointThreads CheckPointEvent) : Prop where
  grows : t.before.manager.currentStableSeq ≤ t.after.manager.currentStableSeq
  changes : t.after.manager.stableCkpt = t.before.manager.stableCkpt ∧
      t.after.manager.currentStableSeq = t.before.manager.currentStableSeq ∨
    ∃ choice, NewStable config trace t choice

theorem StableStep.same (stable : t.after.manager.stableCkpt = t.before.manager.stableCkpt)
    (current : t.after.manager.currentStableSeq = t.before.manager.currentStableSeq) : StableStep config trace t :=
  ⟨current.ge, .inl ⟨stable, current⟩⟩

theorem StableStep.of_books (books : ckptBooks t.after.manager = ckptBooks t.before.manager) :
    StableStep config trace t :=
  .same (congrArg CkptBooks.stable books) (congrArg CkptBooks.current books)

theorem StableStep.mono {past : List (Transition CheckPointThreads CheckPointEvent)}
    (step : StableStep config past t) (early : past ⊆ trace) :
    StableStep config trace t := by
  refine ⟨step.grows, step.changes.imp_right ?_⟩
  rintro ⟨choice, event, ⟨u, member, chosen⟩, quorum, largest, current, stable⟩
  exact ⟨choice, event, ⟨u, early member, chosen⟩, quorum, largest, current, stable⟩

theorem Balanced.signed {senders : Finset Nat}
    (balanced : Balanced mark (ckptBooks m)) (found : m.senderCkpt.find? key = some senders) :
    ∃ signatures, m.signCkpt.find? key = some signatures ∧ signatures.length = senders.card := by
  have counts := balanced.counts key
  dsimp only [ckptBooks] at counts
  rw [found, map_some, map_eq_some_iff] at counts
  exact counts

theorem setStable_step (run : (checkPointThreads config).Run trace s)
    (pending : s.choice = some choice) : StableStep config trace ⟨s, .setStable, s.setStable choice⟩ := by
  have kept := kept_run run
  rcases setStable_spec s.manager choice.seq choice.hash with same | ⟨newer, stable, current⟩
  · exact .of_books (congrArg ckptBooks same)
  rcases kept.pending choice pending with none | ⟨largest, senders, found, enough⟩
  · rw [(Prod.mk.inj none).1] at newer
    exact absurd newer (Nat.not_lt_zero _)
  · obtain ⟨signatures, signed, -⟩ := kept.balanced.signed found
    rw [signed, getD_some] at stable
    exact ⟨newer.le.trans current.ge, .inr ⟨choice, rfl, choice_made run pending, largest.quorum,
      fun key quorum => Prod.Lex.monotone_fst_ofLex (largest.largest key quorum), current, signatures, signed, stable⟩⟩

theorem act_stableStep (run : (checkPointThreads config).Run trace s)
    (step : s.act config event = some s') : StableStep config trace ⟨s, event, s'⟩ := by
  cases checkPointStep_of_act step with
  | addCommitData request => exact .of_books (addCommitData_books _ _)
  | updateCheckPointStatus env => exact .of_books (updateCheckPointStatus_books _ _)
  | processCheckPoint env request =>
    rcases processCheckPoint_cases env config s.manager request with same | ⟨data, -, same⟩
    · exact .of_books (congrArg ckptBooks same)
    · obtain ⟨senders, signs, new, added⟩ := addCheckPoint_eq s.manager (toUInt32 request.senderId) data
      rw [added] at same
      have stable := congrArg CheckPointManager.stableCkpt same
      have current := congrArg CheckPointManager.currentStableSeq same
      exact .same stable current
  | chooseStable env => exact .of_books (chooseStable_books env s.manager)
  | setStable pending => exact setStable_step run pending

theorem checkpoint_books (run : (checkPointThreads config).Run trace s) :
    Balanced config.checkPointWaterMark (ckptBooks s.manager) ∧ ∀ t ∈ trace, StableStep config trace t := by
  refine ⟨(kept_run run).balanced, fun t member => ?_⟩
  obtain ⟨past, early, ran, step⟩ := run.earlier member
  exact (act_stableStep ran step).mono early

def ckptVote (sender : Int) : CheckPointEvent :=
  .processCheckPoint { plainEnv with
      codec := { plainEnv.codec with
        parseCheckPointData := fun _ => some { seq := 2, hash := "h", hashSignature := ⟨sender, "signature"⟩ } } }
    { type := .checkpoint, senderId := sender }

theorem late_vote_kept : ∃ trace s, (checkPointThreads ckptConfig).Run trace s ∧
    s.manager.stableCkpt = ⟨2, "h", [⟨1, "signature"⟩, ⟨2, "signature"⟩, ⟨3, "signature"⟩, ⟨4, "signature"⟩]⟩ ∧
    Balanced ckptConfig.checkPointWaterMark (ckptBooks s.manager) ∧ ∀ t ∈ trace, StableStep ckptConfig trace t := by
  obtain ⟨trace, s, run, stable⟩ := System.run_of_play ((checkPointThreads ckptConfig).acts rfl) rfl
    [ckptVote 1, ckptVote 2, ckptVote 2, ckptVote 3, .chooseStable plainEnv, ckptVote 4, .setStable]
    (fun _ s => s.manager.stableCkpt =
      ⟨2, "h", [⟨1, "signature"⟩, ⟨2, "signature"⟩, ⟨3, "signature"⟩, ⟨4, "signature"⟩]⟩)
    (by decide +kernel)
  exact ⟨trace, s, run, stable, checkpoint_books run⟩

end ResilientDB.Proof
