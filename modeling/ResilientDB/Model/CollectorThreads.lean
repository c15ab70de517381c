import ResilientDB.Library.TransitionSystem
import ResilientDB.Model.Collector

-- A step is one access to an atomic member, one block under the mutex, or one use of the plain pointer.

namespace ResilientDB.Model
open Library

structure MainInfo where
  request : Option Request
  signature : SignatureInfo := {}
deriving DecidableEq, Repr

structure SharedCollector where
  collector : TransactionCollector
  -- the objects that `ptr_` has owned, at their addresses
  flag : Nat := 0
  pointer : Option Nat := none
  objects : List (Option MainInfo) := []
  committed : List Request := []

namespace SharedCollector

variable (s : SharedCollector)

def reference : Option Nat := if s.flag ≤ 1 then none else s.pointer

def info (main : Option Nat) : Except Fault MainInfo :=
  match main.bind fun address => s.objects[address]?.join with
  | some info => .ok info
  | none => .error .nullRequest

def clearPointer : SharedCollector :=
  { s with pointer := none, objects := s.pointer.elim s.objects fun address => s.objects.set address none }

def storePointer (info : MainInfo) : SharedCollector :=
  let cleared := s.clearPointer
  { cleared with pointer := some cleared.objects.length, objects := cleared.objects ++ [some info] }

def selectMainRequest (hash : String) : Except Fault SharedCollector :=
  if s.reference = none then .ok s
  else do
    let info ← s.info s.reference
    match info.request with
    | none => .error .nullRequest
    | some main =>
      if main.hash = hash then .ok s
      else
        let cleared : SharedCollector :=
          { s.clearPointer with flag := 0, collector := { s.collector with otherMainRequest := [] } }
        match s.collector.otherMainRequest.find? (fun other => other.request.hash = hash) with
        | some other => .ok { cleared.storePointer ⟨some other.request, other.signature⟩ with flag := 2 }
        | none => .ok cleared

def prepareBlock (request : Request) (signature : SignatureInfo) (callBack : CallBack) :
    Except Fault (SharedCollector × Bool) :=
  if s.collector.isPrepared then .ok (s, false)
  else do
    let proved : TransactionCollector :=
      { s.collector with preparedProof := s.collector.preparedProof ++ [⟨request, signature⟩] }
    let counted ← proved.countVote request.type request.hash request.senderId
    let (changed, status) :=
      callBack (counted.senders request.type request.hash).card counted.status false
    if status = .readyCommit then
      let selected ← selectMainRequest
        { s with collector := { counted with status := status, isPrepared := true } } request.hash
      .ok ({ selected with collector := selected.collector.keepProofs request.hash }, changed)
    else
      .ok ({ s with collector := { counted with status := status } }, changed)

def voteBlock (request : Request) (callBack : CallBack) : Except Fault (SharedCollector × Bool) := do
  let counted ← s.collector.countVote request.type request.hash request.senderId
  let (changed, status) :=
    callBack (counted.senders request.type request.hash).card counted.status false
  .ok ({ s with collector := { counted with status := status } }, changed)

def handOver (main : Option Nat) : Except Fault SharedCollector := do
  let info ← s.info main
  match info.request with
  | none => .ok s
  | some request =>
    let handed := { request with committedCerts := request.committedCerts ++ s.collector.commitCerts }
    let moved : MainInfo := { info with request := none }
    .ok { s with
      objects := main.elim s.objects fun address => s.objects.set address (some moved)
      committed := s.committed ++ [handed] }

end SharedCollector

inductive CheckStep
  | isCommitted
  | status
  | seq
deriving DecidableEq, Repr

inductive MainStep
  | testForce
  | clearFlag
  | clearPointer
  | exchangeFlag
  | storePointer
  | storeFlag
  | insertOther
  | reference
  | checkRequest (main : Option Nat)
  | storeView (main : Option Nat)
  | testStatus (main : Option Nat)
  | exchangeStatus
deriving DecidableEq, Repr

inductive VoteStep
  | testEarly
  | prepareBlock
  | addCert
  | voteBlock
  | testReady
deriving DecidableEq, Repr

inductive CommitStep
  | exchangeStatus
  | reference
  | storeCommitted (main : Option Nat)
  | handOver (main : Option Nat)
deriving DecidableEq, Repr

inductive AddStep
  | check (step : CheckStep)
  | main (step : MainStep)
  | vote (step : VoteStep)
  | commit (step : CommitStep)
  | done (ret : Int)
deriving DecidableEq, Repr

structure AddArguments where
  request : Request
  signature : SignatureInfo := {}
  address : Nat := 0
deriving DecidableEq, Repr

structure AddThread extends AddArguments where
  next : AddStep := .check .isCommitted
  force : Bool := false
  changed : Bool := false
deriving DecidableEq, Repr

namespace AddThread

variable (config : ResDBConfig) (s : SharedCollector) (thread : AddThread)

def goto (step : AddStep) : AddThread := { thread with next := step }

def check : CheckStep → AddThread
  | .isCommitted => thread.goto (if s.collector.isCommitted then .done (-2) else .check .status)
  | .status => thread.goto (if s.collector.status = .executed then .done (-2) else .check .seq)
  | .seq => thread.goto (
      if s.collector.seq ≠ thread.request.seq then .done (-2)
      else if thread.request.type = .prePrepare then .main .testForce
      else if s.collector.enableViewchange ∧ thread.request.type = .prepare then .vote .testEarly
      else .vote .addCert)

def addMain : MainStep → Except Fault (SharedCollector × AddThread)
  | .testForce =>
    let force : Bool := s.collector.view ≠ 0 ∧ s.collector.view < thread.request.currentView ∧
      s.collector.isPrepared = false
    .ok (s, { thread with force := force, next := .main (if force then .clearFlag else .exchangeFlag) })
  | .clearFlag => .ok ({ s with flag := 0 }, thread.goto (.main .clearPointer))
  | .clearPointer => .ok (s.clearPointer, thread.goto (.main .exchangeFlag))
  | .exchangeFlag =>
    if s.flag = 0 then .ok ({ s with flag := 1 }, thread.goto (.main .storePointer))
    else .ok (s, thread.goto (.main .insertOther))
  | .storePointer =>
    .ok (s.storePointer ⟨some thread.request, thread.signature⟩, thread.goto (.main .storeFlag))
  | .storeFlag => .ok ({ s with flag := 2 }, thread.goto (.main .reference))
  | .insertOther =>
    let position := min thread.address s.collector.otherMainRequest.length
    let others := s.collector.otherMainRequest.insertIdx position ⟨thread.request, thread.signature⟩
    .ok ({ s with collector := { s.collector with otherMainRequest := others } }, thread.goto (.done (-2)))
  | .reference => .ok (s, thread.goto (.main (.checkRequest s.reference)))
  | .checkRequest main => do
    let info ← s.info main
    .ok (s, thread.goto (if info.request = none then .done (-2) else .main (.storeView main)))
  | .storeView main =>
    .ok ({ s with collector := { s.collector with view := thread.request.currentView } },
      thread.goto (.main (.testStatus main)))
  | .testStatus main => do
    let _ ← s.info main
    if s.collector.status = .none then .ok (s, thread.goto (.main .exchangeStatus))
    else .ok (s, { thread with next := .done 0, changed := thread.force })
  | .exchangeStatus =>
    if s.collector.status = .none then
      .ok ({ s with collector := { s.collector with status := .readyPrepare } },
        { thread with next := .done 0, changed := true })
    else .ok (s, thread.goto (.done 0))

def addVote : VoteStep → Except Fault (SharedCollector × AddThread)
  | .testEarly =>
    .ok (s, thread.goto (if s.collector.status ≤ .readyPrepare then .vote .prepareBlock else .done 0))
  | .prepareBlock => do
    let (s', changed) ← s.prepareBlock thread.request thread.signature
      (mayConsensusChangeStatus config thread.request.type)
    .ok (s', { thread with next := .done 0, changed := changed })
  | .addCert =>
    .ok ({ s with collector := s.collector.addCert thread.request }, thread.goto (.vote .voteBlock))
  | .voteBlock => do
    let (s', changed) ← s.voteBlock thread.request (mayConsensusChangeStatus config thread.request.type)
    .ok (s', { thread with next := .vote .testReady, changed := changed })
  | .testReady =>
    .ok (s, thread.goto (if s.collector.status = .readyExecute then .commit .exchangeStatus else .done 0))

def commit : CommitStep → Except Fault (SharedCollector × AddThread)
  | .exchangeStatus =>
    if s.collector.status = .readyExecute then
      .ok ({ s with collector := { s.collector with status := .executed } }, thread.goto (.commit .reference))
    else .ok (s, thread.goto (.done 1))
  | .reference =>
    .ok (s, thread.goto (if s.reference = none then .done 1 else .commit (.storeCommitted s.reference)))
  | .storeCommitted main =>
    .ok ({ s with collector := { s.collector with isCommitted := true } }, thread.goto (.commit (.handOver main)))
  | .handOver main => do
    let s' ← s.handOver main
    .ok (s', thread.goto (.done 1))

def advance : Except Fault (SharedCollector × AddThread) :=
  match thread.next with
  | .check step => .ok (s, thread.check s step)
  | .main step => thread.addMain s step
  | .vote step => thread.addVote config s step
  | .commit step => thread.commit s step
  | .done _ => .ok (s, thread)

end AddThread

def collectorThreads (config : ResDBConfig) (seq : Nat) (viewchange : Bool) :
    System (ThreadPool SharedCollector AddThread) (ThreadEvent AddArguments) :=
  interleaving (fun s => s = { collector := { seq := seq, enableViewchange := viewchange } })
    (fun arguments => { toAddArguments := arguments })
    (fun s thread s' thread' => thread.advance config s = .ok (s', thread'))

end ResilientDB.Model
