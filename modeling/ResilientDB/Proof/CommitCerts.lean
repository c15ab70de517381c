import ResilientDB.Model.GeoCommitment
import ResilientDB.Proof.CollectorRun

namespace ResilientDB.Proof
open Model Library List

variable {config : ResDBConfig} {seq : Nat} {viewchange : Bool} {c : TransactionCollector} {d : Delivery}
  {request : Request} {result : AddResult} {t : CollectorStep} {past trace : List CollectorStep} {r : Request}

def certOf (request : Request) : Option SignatureInfo :=
  if request.type = .commit then request.dataSignature.filter fun cert => 0 < cert.nodeId else none

def pushedCert (t : CollectorStep) : Option SignatureInfo :=
  if LetIn t then certOf t.event.request else none

theorem certOf_eq_some {cert : SignatureInfo} :
    certOf request = some cert ↔ request.type = .commit ∧ request.dataSignature = some cert ∧ 0 < cert.nodeId := by
  unfold certOf
  split_ifs with commit
  · simp [commit, Option.filter_eq_some_iff]
  · simp [commit]

theorem addCert_commitCerts (c : TransactionCollector) (request : Request) :
    (c.addCert request).commitCerts = c.commitCerts ++ (certOf request).toList := by
  unfold TransactionCollector.addCert certOf
  cases request.dataSignature with
  | none => simp
  | some cert =>
    simp only [Option.filter_some, decide_eq_true_eq]
    split_ifs <;> simp_all

structure Attaches (c : TransactionCollector) (result : AddResult) (cert : Option SignatureInfo) : Prop where
  certs : result.collector.commitCerts = c.commitCerts ++ cert.toList
  handed : ∀ r, result.committed = some r → ∃ info, c.mainRequest = .stored info ∧
    r = { info.request with committedCerts := info.request.committedCerts ++ result.collector.commitCerts }

theorem Added.attaches {signature : SignatureInfo} (added : Added config c request signature result) :
    Attaches c result (if Open c request then certOf request else none) := by
  have certs (isOpen : Open c request) : (c.addCert request).commitCerts = c.commitCerts ++
      (if Open c request then certOf request else none).toList := by
    rw [if_pos isOpen]
    exact addCert_commitCerts c request
  have nothing (isOpen : Open c request) (other : request.type ≠ .commit) : c.commitCerts = c.commitCerts ++
      (if Open c request then certOf request else none).toList := by
    rw [← certs isOpen, addCert_other other]
  refine ⟨?_, fun r handed => added.handed_stored handed⟩
  cases added with
  | rejected closed =>
    rw [if_neg closed]
    simp
  | proposed _ isOpen type => exact nothing isOpen (by simp [type])
  | candidate _ isOpen type => exact nothing isOpen (by simp [type])
  | ignored isOpen proves => exact nothing isOpen (by simp [proves.2])
  | voted isOpen => exact certs isOpen
  | prepared isOpen prepared => exact nothing isOpen (by simp [prepared.type])
  | executed isOpen => exact certs isOpen

theorem addConsensusMsg_attaches (running : c.status ≠ .readyExecute) (ran : c.addConsensusMsg config d = .ok result) :
    Attaches c result (pushedCert ⟨c, d, result.collector⟩) := by
  unfold TransactionCollector.addConsensusMsg at ran
  unfold pushedCert
  split_ifs at ran with valid
  · simpa [LetIn, valid] using (addRequest_spec running ran).attaches
  · cases ran
    rw [if_neg fun letIn => valid letIn.1]
    exact ⟨by simp, by simp⟩

theorem commitCerts_run (run : (collecting config seq viewchange).Run trace c) :
    c.commitCerts = (trace.filterMap pushedCert).reverse := by
  induction run with
  | initial first =>
    cases first
    rfl
  | @next trace c c' d earlier step ih =>
    obtain ⟨result, ran, rfl⟩ := step
    rw [(addConsensusMsg_attaches (collecting_running earlier) ran).certs, ih, filterMap_cons]
    cases pushedCert ⟨c, d, result.collector⟩ with
    | none => simp
    | some cert => simp

def Certifies (verify : String → SignatureInfo → Bool) (hash : String) (request : Request) : Prop :=
  ∃ cert, request.dataSignature = some cert ∧ 0 < cert.nodeId ∧ cert.nodeId = request.senderId ∧ verify hash cert = true
deriving Decidable

theorem hands_attached (run : (collecting config seq viewchange).Run (t :: past) t.after) (hands : Hands config t r) :
    ∃ info, t.before.mainRequest = .stored info ∧ r = { info.request with
      committedCerts := info.request.committedCerts ++ ((t :: past).filterMap pushedCert).reverse } := by
  obtain ⟨result, ran, handed⟩ := hands
  obtain ⟨earlier, again, ranAgain, after⟩ := run.suffix suffix_rfl
  cases ranAgain.symm.trans ran
  obtain ⟨info, stored, same⟩ := (addConsensusMsg_attaches (collecting_running earlier) ran).handed r handed
  rw [after, commitCerts_run run] at same
  exact ⟨info, stored, same⟩

theorem hands_voters (run : (collecting config seq viewchange).Run (t :: past) t.after) (hands : Hands config t r) :
    ∃ voters : Finset Int, config.getMinDataReceiveNum ≤ voters.card ∧ ∀ i ∈ voters, ∃ u ∈ t :: past,
      LetIn u ∧ u.event.request.type = .commit ∧ u.event.request.senderId = i := by
  obtain ⟨result, ran, handed⟩ := hands
  obtain ⟨earlier, again, ranAgain, after⟩ := run.suffix suffix_rfl
  cases ranAgain.symm.trans ran
  rcases addConsensusMsg_spec (collecting_running earlier) ran with rfl | ⟨-, added⟩
  · cases handed
  · obtain ⟨-, executed⟩ := added.executed_of_handed handed
    have quorum := executed.quorum
    rw [← executed.senders, after] at quorum
    refine ⟨_, quorum, fun i member => ?_⟩
    obtain ⟨u, found, entered, kind, -, sender⟩ := senders_letIn run member
    exact ⟨u, found, entered, kind, sender⟩

theorem commit_certs_quorum {verify : String → SignatureInfo → Bool}
    (run : (collecting config seq viewchange).Run (t :: past) t.after) (hands : Hands config t r)
    (certified : ∀ u ∈ t :: past, LetIn u → u.event.request.type = .commit → Certifies verify r.hash u.event.request) :
    ∃ info attached, t.before.mainRequest = .stored info ∧
      r = { info.request with committedCerts := info.request.committedCerts ++ attached } ∧
      (∀ cert ∈ attached, verify r.hash cert = true) ∧
      config.getMinDataReceiveNum ≤ (attached.map fun cert => cert.nodeId).toFinset.card := by
  obtain ⟨info, stored, same⟩ := hands_attached run hands
  refine ⟨info, _, stored, same, fun cert member => ?_, ?_⟩
  · obtain ⟨u, found, pushed⟩ := mem_filterMap.mp (mem_reverse.mp member)
    unfold pushedCert at pushed
    split at pushed
    · rename_i letIn
      obtain ⟨commit, carried, -⟩ := certOf_eq_some.mp pushed
      obtain ⟨own, signed, -, -, verified⟩ := certified u found letIn commit
      cases carried.symm.trans signed
      exact verified
    · cases pushed
  · obtain ⟨voters, quorum, voted⟩ := hands_voters run hands
    refine quorum.trans (Finset.card_le_card fun i member => ?_)
    obtain ⟨u, found, letIn, commit, rfl⟩ := voted i member
    obtain ⟨cert, signed, positive, own, -⟩ := certified u found letIn commit
    have pushed : pushedCert u = some cert := by
      rw [pushedCert, if_pos letIn]
      exact certOf_eq_some.mpr ⟨commit, signed, positive⟩
    rw [mem_toFinset, mem_map]
    exact ⟨cert, mem_reverse.mpr (mem_filterMap.mpr ⟨u, found, pushed⟩), own⟩

def signsHash (hash : String) (cert : SignatureInfo) : Bool := cert.signature = hash

def certifiedCommit (hash : String) (sender : Int) : Delivery :=
  { message .commit hash sender with
    request := { (message .commit hash sender).request with dataSignature := some ⟨sender, hash⟩ } }

def prepareA : List Delivery :=
  [message .prePrepare "a" 1, message .prepare "a" 1, message .prepare "a" 2, message .prepare "a" 3]

theorem threeCommits_certified : ∃ t past r, (collecting fourReplicas 1 false).Run (t :: past) t.after ∧
    Hands fourReplicas t r ∧ ∃ info attached, t.before.mainRequest = .stored info ∧
      r = { info.request with committedCerts := info.request.committedCerts ++ attached } ∧
      (∀ cert ∈ attached, signsHash r.hash cert = true) ∧
      3 ≤ (attached.map fun cert => cert.nodeId).toFinset.card := by
  obtain ⟨t, past, run, handed, certified⟩ := System.last_of_play (@collectorAct_sound fourReplicas 1 false) rfl
    (prepareA ++ [1, 2, 3].map (certifiedCommit "a"))
    (fun t past => HandsHash fourReplicas t "a" ∧
      ∀ u ∈ t :: past, u.event.request.type = .commit → Certifies signsHash "a" u.event.request) (by decide)
  obtain ⟨r, hands, same⟩ := handed.hands
  rw [← same] at certified
  exact ⟨t, past, r, run, hands, commit_certs_quorum run hands
    fun u member _ commit => certified u member commit⟩

theorem wrongCert_attached : ∃ t past r, (collecting fourReplicas 1 false).Run (t :: past) t.after ∧
    Hands fourReplicas t r ∧ r.hash = "a" ∧
    (∀ u ∈ t :: past, u.event.request.senderId ≠ 4 → u.event.request.type = .commit →
      Certifies signsHash r.hash u.event.request) ∧
    (∃ cert ∈ r.committedCerts, signsHash r.hash cert = false) ∧
    ∀ (env : GeoEnv) (batch : BatchUserRequest), env.verifier = some signsHash → batch.hash = r.hash →
      batch.committedCerts = some r.committedCerts → GeoPBFTCommitment.verifyCerts env batch = false := by
  obtain ⟨t, past, run, handed, certified, pushed⟩ := System.last_of_play
    (@collectorAct_sound fourReplicas 1 false) rfl
    (prepareA ++ certifiedCommit "x" 4 :: [1, 2, 3].map (certifiedCommit "a"))
    (fun t past => HandsHash fourReplicas t "a" ∧
      (∀ u ∈ t :: past, u.event.request.senderId ≠ 4 → u.event.request.type = .commit →
        Certifies signsHash "a" u.event.request) ∧
      ⟨4, "x"⟩ ∈ (t :: past).filterMap pushedCert) (by decide)
  obtain ⟨r, hands, same⟩ := handed.hands
  obtain ⟨info, -, attached⟩ := hands_attached run hands
  have member : ⟨4, "x"⟩ ∈ r.committedCerts := by
    rw [attached]
    exact mem_append_right _ (mem_reverse.mpr pushed)
  have wrong : signsHash r.hash ⟨4, "x"⟩ = false := by
    rw [same]
    decide
  refine ⟨t, past, r, run, hands, same, by rwa [same], ⟨_, member, wrong⟩, ?_⟩
  intro env batch verifier hash certs
  simp only [GeoPBFTCommitment.verifyCerts, verifier, certs, hash, Option.getD_some]
  exact all_eq_false.mpr ⟨_, member, by simp [wrong]⟩

end ResilientDB.Proof
