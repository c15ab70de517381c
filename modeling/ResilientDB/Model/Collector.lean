import ResilientDB.Model.Config
import Mathlib.Data.Finset.Card

namespace ResilientDB.Model

inductive TransactionStatue
  | none
  | readyPrepare
  | readyCommit
  | readyExecute
  | executed
deriving DecidableEq, Repr

def TransactionStatue.code : TransactionStatue → Nat
  | .none => 0
  | .readyPrepare => 1
  | .readyCommit => 2
  | .readyExecute => 3
  | .executed => 4

instance : LE TransactionStatue := ⟨fun a b => a.code ≤ b.code⟩
instance (a b : TransactionStatue) : Decidable (a ≤ b) := inferInstanceAs (Decidable (a.code ≤ b.code))

structure RequestInfo where
  request : Request
  signature : SignatureInfo := {}
deriving DecidableEq, Repr

-- Nothing set, a request set, or one whose contents `Commit` has moved out.
inductive MainRequest
  | empty
  | stored (info : RequestInfo)
  | moved
deriving DecidableEq, Repr

structure TransactionCollector where
  seq : Nat
  enableViewchange : Bool
  isCommitted : Bool := false
  isPrepared : Bool := false
  status : TransactionStatue := .none
  mainRequest : MainRequest := .empty
  -- in the order of their addresses
  otherMainRequest : List RequestInfo := []
  preparedProof : List RequestInfo := []
  commitCerts : List SignatureInfo := []
  -- the positions of the `bitset<128>` that are 1
  senders : RequestType → String → Finset Int := fun _ _ => ∅
  view : Nat := 0

structure AddResult where
  collector : TransactionCollector
  ret : Int
  changed : Bool := false
  committed : Option Request := Option.none

abbrev CallBack := Nat → TransactionStatue → Bool → Bool × TransactionStatue

namespace TransactionCollector

def setSender (c : TransactionCollector) (type : RequestType) (hash : String) (senderId : Int) :
    TransactionCollector :=
  let votes := Function.update (c.senders type) hash (insert senderId (c.senders type hash))
  { c with senders := Function.update c.senders type votes }

-- The code does not check the indexes.
def countVote (c : TransactionCollector) (type : RequestType) (hash : String) (senderId : Int) :
    Except Fault TransactionCollector :=
  if type.inTable = false then .error .typeOutOfRange
  else if senderId < 0 ∨ 128 ≤ senderId then .error .senderOutOfRange
  else .ok (c.setSender type hash senderId)

def addMainRequest (c : TransactionCollector) (address : Nat) (request : Request)
    (signature : SignatureInfo) (callBack : CallBack) : AddResult :=
  let force : Bool := c.view ≠ 0 ∧ c.view < request.currentView ∧ c.isPrepared = false
  let main := if force then MainRequest.empty else c.mainRequest
  match main with
  | .empty =>
    let (changed, status) := callBack 1 c.status force
    { collector := { c with
        mainRequest := .stored ⟨request, signature⟩, view := request.currentView, status := status }
      ret := 0, changed := changed }
  | _ =>
    { collector := { c with otherMainRequest :=
        c.otherMainRequest.insertIdx (min address c.otherMainRequest.length) ⟨request, signature⟩ }
      ret := -2 }

def selectMainRequest (c : TransactionCollector) (hash : String) :
    Except Fault TransactionCollector :=
  match c.mainRequest with
  | .empty => .ok c
  | .moved => .error .nullRequest
  | .stored info =>
    if info.request.hash = hash then .ok c
    else
      let main := match c.otherMainRequest.find? (fun other => other.request.hash = hash) with
        | some other => MainRequest.stored other
        | none => .empty
      .ok { c with mainRequest := main, otherMainRequest := [] }

def keepProofs (c : TransactionCollector) (hash : String) : TransactionCollector :=
  { c with preparedProof := c.preparedProof.filter (fun proof => proof.request.hash = hash) }

def addPrepare (c : TransactionCollector) (request : Request) (signature : SignatureInfo)
    (callBack : CallBack) : Except Fault AddResult :=
  if ¬ c.status ≤ .readyPrepare ∨ c.isPrepared = true then .ok { collector := c, ret := 0 }
  else do
    let proved : TransactionCollector :=
      { c with preparedProof := c.preparedProof ++ [⟨request, signature⟩] }
    let counted ← proved.countVote request.type request.hash request.senderId
    let (changed, status) :=
      callBack (counted.senders request.type request.hash).card counted.status false
    if status = .readyCommit then
      let selected ← selectMainRequest { counted with status := status, isPrepared := true } request.hash
      .ok { collector := selected.keepProofs request.hash, ret := 0, changed := changed }
    else
      .ok { collector := { counted with status := status }, ret := 0, changed := changed }

def commit (c : TransactionCollector) : TransactionCollector × Option Request :=
  if c.status ≠ .readyExecute then (c, none)
  else
    let executed := { c with status := .executed }
    match c.mainRequest with
    | .empty => (executed, none)
    | .moved => ({ executed with isCommitted := true }, none)
    | .stored info =>
      ({ executed with isCommitted := true, mainRequest := .moved },
        some { info.request with committedCerts := info.request.committedCerts ++ c.commitCerts })

def addCert (c : TransactionCollector) (request : Request) : TransactionCollector :=
  match request.dataSignature with
  | some cert =>
    if request.type = .commit ∧ 0 < cert.nodeId then
      { c with commitCerts := c.commitCerts ++ [cert] }
    else c
  | none => c

def addVote (c : TransactionCollector) (request : Request) (callBack : CallBack) :
    Except Fault AddResult := do
  let counted ← (c.addCert request).countVote request.type request.hash request.senderId
  let (changed, status) :=
    callBack (counted.senders request.type request.hash).card counted.status false
  let judged := { counted with status := status }
  if status = .readyExecute then
    let (done, handed) := judged.commit
    .ok { collector := done, ret := 1, changed := changed, committed := handed }
  else
    .ok { collector := judged, ret := 0, changed := changed }

def addRequest (c : TransactionCollector) (address : Nat) (request : Request)
    (signature : SignatureInfo) (isMainRequest : Bool) (callBack : CallBack) :
    Except Fault AddResult :=
  if c.isCommitted then .ok { collector := c, ret := -2 }
  else if c.status = .executed then .ok { collector := c, ret := -2 }
  else if c.seq ≠ request.seq then .ok { collector := c, ret := -2 }
  else if isMainRequest then .ok (c.addMainRequest address request signature callBack)
  else if c.enableViewchange ∧ request.type = .prepare then c.addPrepare request signature callBack
  else c.addVote request callBack

def getAllStoredHash (c : TransactionCollector) : Except Fault (List String) :=
  let others := c.otherMainRequest.map (fun info => info.request.hash)
  match c.mainRequest with
  | .empty => .ok others
  | .moved => .error .nullRequest
  | .stored info => .ok (info.request.hash :: others)

end TransactionCollector

-- No upper end of the window is checked.
def isValidMsg (currentView maxPendingExecutedSeq : Nat) (request : Request) : Bool :=
  if request.type = .response then true
  else if request.currentView ≠ currentView then false
  else if request.seq < maxPendingExecutedSeq then false
  else true

def mayConsensusChangeStatus (config : ResDBConfig) (type : RequestType) : CallBack :=
  fun receivedCount status ret =>
    match type with
    | .prePrepare =>
      if status = .none then (true, .readyPrepare) else (ret, status)
    | .prepare =>
      if status = .readyPrepare ∧ config.getMinDataReceiveNum ≤ receivedCount then
        (true, .readyCommit)
      else (ret, status)
    | .commit =>
      if status = .readyCommit ∧ config.getMinDataReceiveNum ≤ receivedCount then
        (true, .readyExecute)
      else (ret, status)
    | _ => (ret, status)

structure Delivery where
  currentView : Nat
  maxPendingExecutedSeq : Nat
  address : Nat := 0
  signature : SignatureInfo
  request : Request

def TransactionCollector.addConsensusMsg (config : ResDBConfig) (c : TransactionCollector)
    (d : Delivery) : Except Fault AddResult :=
  if isValidMsg d.currentView d.maxPendingExecutedSeq d.request then
    c.addRequest d.address d.request d.signature (d.request.type = .prePrepare)
      (mayConsensusChangeStatus config d.request.type)
  else .ok { collector := c, ret := -2 }

-- The loop of `GetCapacity` over 32-bit values.
def capacityExponent (size : Nat) : Nat → Nat → Nat
  | 0, i => i
  | fuel + 1, i => if 1 <<< i ≤ size then capacityExponent size fuel (i + 1) else i

def getCapacity (size : Nat) : Nat := 1 <<< capacityExponent size 32 0

structure LockFreeCollectorPool where
  capacity : Nat
  enableViewchange : Bool
  collector : Nat → TransactionCollector

namespace LockFreeCollectorPool

def create (size : Nat) (enableViewchange : Bool) : LockFreeCollectorPool where
  capacity := getCapacity (size * 2)
  enableViewchange := enableViewchange
  collector i := { seq := i, enableViewchange := enableViewchange }

variable (pool : LockFreeCollectorPool)

def mask : Nat := (pool.capacity <<< 1) - 1

def getCollector (seq : Nat) : TransactionCollector := pool.collector (seq &&& pool.mask)

def setCollector (seq : Nat) (c : TransactionCollector) : LockFreeCollectorPool :=
  { pool with collector := Function.update pool.collector (seq &&& pool.mask) c }

def update (seq : Nat) : LockFreeCollectorPool :=
  let idx := seq &&& pool.mask
  if (pool.collector idx).seq ≠ seq then pool
  else
    let renewed : TransactionCollector :=
      { seq := seq + pool.capacity, enableViewchange := pool.enableViewchange }
    { pool with collector := Function.update pool.collector (idx ^^^ pool.capacity) renewed }

end LockFreeCollectorPool

end ResilientDB.Model
