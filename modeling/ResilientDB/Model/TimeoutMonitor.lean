import ResilientDB.Library.PriorityQueue
import ResilientDB.Library.TransitionSystem
import ResilientDB.Model.Message
import Mathlib.Order.Lattice.Nat

namespace ResilientDB.Model
open Library

structure ResponseClientTimeout where
  hash : String
  timeoutTime : Nat
deriving DecidableEq

abbrev TimeoutHeap := PriorityQueue fun timeout : ResponseClientTimeout => OrderDual.toDual timeout.timeoutTime

-- `sleeping` is before `CheckTimeOut`, `looking` before `GetTimeOutRequest`.
inductive MonitorThread
  | waiting
  | popping
  | sleeping (hash : String)
  | looking (hash : String)
deriving DecidableEq

-- `posting` are the calls before their `sem_post`. A moved request leaves its entry.
structure TimeoutMonitor where
  clientTimeoutMinHeap : TimeoutHeap := .empty
  waitingResponseBatches : String → Option (Option Request) := fun _ => none
  posting : Nat := 0
  requestSentSignal : Nat := 0
  thread : MonitorThread := .waiting
  broadcasts : List Request := []

inductive MonitorEvent
  | addWaitingResponseRequest (request : Request) (now : Nat)
  | semPost
  | removeWaitingResponseRequest (hash : String)
  | semWait
  | popTimeout
  | checkTimeOut
  | getTimeOutRequest
deriving DecidableEq

namespace TimeoutMonitor

variable (m : TimeoutMonitor)

def addWaitingResponseRequest (request : Request) (now : Nat) : TimeoutMonitor :=
  { m with
    clientTimeoutMinHeap := m.clientTimeoutMinHeap.push ⟨request.hash, addUInt64 now 5000000⟩
    waitingResponseBatches := Function.update m.waitingResponseBatches request.hash
      (some ((m.waitingResponseBatches request.hash).getD (some request)))
    posting := m.posting + 1 }

def popTimeout : TimeoutMonitor :=
  match m.clientTimeoutMinHeap.pop? with
  | none => { m with thread := .waiting }
  | some (timeout, heap) => { m with clientTimeoutMinHeap := heap, thread := .sleeping timeout.hash }

def checkTimeOut (hash : String) : Bool := (m.waitingResponseBatches hash).isSome

-- The iterator of an entry that is not there has no `second`.
def getTimeOutRequest (hash : String) : Option (Option Request × TimeoutMonitor) :=
  (m.waitingResponseBatches hash).map fun value =>
    (value, { m with waitingResponseBatches := Function.update m.waitingResponseBatches hash (some none) })

def act : MonitorEvent → Option TimeoutMonitor
  | .addWaitingResponseRequest request now => some (m.addWaitingResponseRequest request now)
  | .semPost =>
    if m.posting = 0 then none
    else some { m with posting := m.posting - 1, requestSentSignal := m.requestSentSignal + 1 }
  | .removeWaitingResponseRequest hash =>
    some { m with waitingResponseBatches := Function.update m.waitingResponseBatches hash none }
  | .semWait =>
    if m.thread = .waiting ∧ 0 < m.requestSentSignal then
      some { m with requestSentSignal := m.requestSentSignal - 1, thread := .popping }
    else none
  | .popTimeout => if m.thread = .popping then some m.popTimeout else none
  | .checkTimeOut =>
    match m.thread with
    | .sleeping hash => some { m with thread := if m.checkTimeOut hash then .looking hash else .waiting }
    | _ => none
  | .getTimeOutRequest =>
    match m.thread with
    | .looking hash => (m.getTimeOutRequest hash).map fun (request, moved) =>
      { moved with thread := .waiting, broadcasts := m.broadcasts ++ request.toList }
    | _ => none

end TimeoutMonitor

def monitoring : System TimeoutMonitor MonitorEvent where
  initial m := m = {}
  step m event m' := m.act event = some m'

end ResilientDB.Model
