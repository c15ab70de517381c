import ResilientDB.Library.OrderedMap
import ResilientDB.Model.Config
import Mathlib.Order.Lattice.Nat
import ResilientDB.Library.TransitionSystem

-- `UpdateRecentHash` holds a lock for one entry at a time; `time` counts its turns.

namespace ResilientDB.Model
open Library

structure TransactionExecutor where
  outOfOrder : Bool := false
  needResponse : Bool := true
  nextExecuteSeq : Nat := 1
  candidates : OrderedMap Nat Request := .empty
  commitQueue : List Request := []
  executeQueue : List Request := []
  executeOOOQueue : List Request := []

namespace TransactionExecutor

variable (e : TransactionExecutor)

def getMaxPendingExecutedSeq : Nat := e.nextExecuteSeq - 1

def commit (message : Request) : TransactionExecutor :=
  if e.outOfOrder then
    { e with executeOOOQueue := e.executeOOOQueue ++ [message], commitQueue := e.commitQueue ++ [message] }
  else { e with commitQueue := e.commitQueue ++ [message] }

def addNewData (message : Request) : TransactionExecutor :=
  { e with candidates := e.candidates.insertNew message.seq message }

def getNextData : Option (Request × TransactionExecutor) :=
  match e.candidates.first? with
  | some (seq, message) =>
    if seq ≠ e.nextExecuteSeq then none
    else some (message, { e with candidates := e.candidates.eraseIf fun key => key = seq })
  | none => none

def takeMessage : TransactionExecutor :=
  match e.commitQueue with
  | [] => e
  | message :: rest =>
    let popped := { e with commitQueue := rest }
    if e.nextExecuteSeq > message.seq then popped else popped.addNewData message

def passNext : Option TransactionExecutor :=
  match e.getNextData with
  | none => none
  | some (message, taken) =>
    some { taken with
      executeQueue := taken.executeQueue ++ [message], nextExecuteSeq := taken.nextExecuteSeq + 1 }

end TransactionExecutor

structure DuplicateManager where
  proposedHashSet : Finset String := ∅
  executedHashSet : Finset String := ∅
  proposedHashTimeQueue : List (String × Nat) := []
  executedHashTimeQueue : List (String × Nat) := []
  executedHashSeq : String → Nat := fun _ => 0
  windowUseconds : Nat := 20000000

namespace DuplicateManager

variable (m : DuplicateManager)

-- Zero also stands for a hash that has not been executed.
def checkIfExecuted (hash : String) : Nat :=
  if hash ∈ m.executedHashSet then m.executedHashSeq hash else 0

def addExecuted (now : Nat) (hash : String) (seq : Nat) : DuplicateManager :=
  { m with
    executedHashTimeQueue := m.executedHashTimeQueue ++ [(hash, now)]
    executedHashSet := insert hash m.executedHashSet
    executedHashSeq := Function.update m.executedHashSeq hash seq }

def checkAndAddProposed (now : Nat) (hash : String) : Bool × DuplicateManager :=
  if hash ∈ m.proposedHashSet then (true, m)
  else (false, { m with
    proposedHashTimeQueue := m.proposedHashTimeQueue ++ [(hash, now)]
    proposedHashSet := insert hash m.proposedHashSet })

def eraseProposed (hash : String) : DuplicateManager :=
  { m with proposedHashSet := m.proposedHashSet.erase hash }

def expireProposed (time : Nat) : List (String × Nat) → DuplicateManager → DuplicateManager
  | [], m => { m with proposedHashTimeQueue := [] }
  | (hash, added) :: rest, m =>
    if added + m.windowUseconds < time then expireProposed time rest (m.eraseProposed hash)
    else { m with proposedHashTimeQueue := (hash, added) :: rest }

def expireExecuted (time : Nat) : List (String × Nat) → DuplicateManager → DuplicateManager
  | [], m => { m with executedHashTimeQueue := [] }
  | (hash, added) :: rest, m =>
    if added + m.windowUseconds < time then
      expireExecuted time rest { m with
        executedHashSet := m.executedHashSet.erase hash
        executedHashSeq := Function.update m.executedHashSeq hash 0 }
    else { m with executedHashTimeQueue := (hash, added) :: rest }

def updateRecentHash (time : Nat) : DuplicateManager :=
  let proposed := expireProposed time m.proposedHashTimeQueue m
  expireExecuted time proposed.executedHashTimeQueue proposed

end DuplicateManager

namespace TransactionExecutor

variable (e : TransactionExecutor)

def passAll : Nat → TransactionExecutor → TransactionExecutor
  | 0, e => e
  | turns + 1, e =>
    match e.passNext with
    | none => e
    | some next => passAll turns next

def drain : TransactionExecutor := passAll e.candidates.size e

def orderMessage : TransactionExecutor :=
  match e.commitQueue with
  | [] => e.drain
  | message :: _ => if e.nextExecuteSeq > message.seq then e.takeMessage else e.takeMessage.drain

end TransactionExecutor

structure ExecutorThreads where
  executor : TransactionExecutor
  committed : List Request := []
  received : List Request := []
  ordered : List Request := []
  batches : List Request := []

inductive ExecutorEvent
  | commit (message : Request)
  | orderMessage
  | executeMessage
  | executeMessageOutOfOrder
deriving DecidableEq, Repr

namespace ExecutorThreads

variable (s : ExecutorThreads)

def commit (message : Request) : ExecutorThreads :=
  { s with executor := s.executor.commit message, committed := s.committed ++ [message] }

def orderMessage : ExecutorThreads :=
  let next := s.executor.orderMessage
  { s with
    executor := next
    received := s.received ++ s.executor.commitQueue.head?.toList
    ordered := s.ordered ++ next.executeQueue.drop s.executor.executeQueue.length }

def executeMessage : ExecutorThreads :=
  match s.executor.executeQueue with
  | [] => s
  | request :: rest =>
    { s with
      executor := { s.executor with executeQueue := rest }
      batches := if s.executor.outOfOrder then s.batches else s.batches ++ [request] }

-- Started only if the transaction manager is out of order.
def executeMessageOutOfOrder : ExecutorThreads :=
  match s.executor.executeOOOQueue with
  | [] => s
  | request :: rest =>
    { s with executor := { s.executor with executeOOOQueue := rest }, batches := s.batches ++ [request] }

def act : ExecutorEvent → Option ExecutorThreads
  | .commit message => some (s.commit message)
  | .orderMessage => some s.orderMessage
  | .executeMessage => some s.executeMessage
  | .executeMessageOutOfOrder => if s.executor.outOfOrder then some s.executeMessageOutOfOrder else none

end ExecutorThreads

def executorThreads (outOfOrder : Bool) : System ExecutorThreads ExecutorEvent where
  initial s := s = { executor := { outOfOrder := outOfOrder } }
  step s event s' := s.act event = some s'

namespace DuplicateManager

variable (m : DuplicateManager)

def checkIfProposed (hash : String) : Bool := hash ∈ m.proposedHashSet

def popProposed (time : Nat) : Option DuplicateManager :=
  match m.proposedHashTimeQueue with
  | [] => none
  | (hash, added) :: rest =>
    if added + m.windowUseconds < time then some ({ m with proposedHashTimeQueue := rest }.eraseProposed hash)
    else none

def popExecuted (time : Nat) : Option DuplicateManager :=
  match m.executedHashTimeQueue with
  | [] => none
  | (hash, added) :: rest =>
    if added + m.windowUseconds < time then
      some { m with
        executedHashTimeQueue := rest
        executedHashSet := m.executedHashSet.erase hash
        executedHashSeq := Function.update m.executedHashSeq hash 0 }
    else none

end DuplicateManager

inductive ForgetPhase
  | starting
  | waiting
  | sleeping (wakeTime : Nat)
  | proposed
  | executed
deriving DecidableEq, Repr

structure DuplicateThread where
  manager : DuplicateManager := {}
  frequencyUseconds : Nat
  clock : Nat
  time : Nat := 0
  phase : ForgetPhase := .starting

inductive DuplicateEvent
  | tick (now : Nat)
  | checkAndAddProposed (hash : String)
  | eraseProposed (hash : String)
  | addExecuted (hash : String) (seq : Nat)
  | start
  | sleep
  | wake
  | popProposed
  | popExecuted
deriving DecidableEq, Repr

def frequencyUseconds (configured : Int) : Nat :=
  if 0 < toInt32 configured then (toInt32 configured).toNat else 5000000

namespace DuplicateThread

variable (s : DuplicateThread)

-- The difference wraps when the loop is late, and `usleep` takes 32 bits of it.
def sleep : DuplicateThread :=
  let time := s.time + s.frequencyUseconds
  { s with time := time, phase := .sleeping (s.clock + toUInt32 (subUInt64 time s.clock)) }

def act : DuplicateEvent → Option DuplicateThread
  | .tick now => if s.clock ≤ now then some { s with clock := now } else none
  | .checkAndAddProposed hash => some { s with manager := (s.manager.checkAndAddProposed s.clock hash).2 }
  | .eraseProposed hash => some { s with manager := s.manager.eraseProposed hash }
  | .addExecuted hash seq => some { s with manager := s.manager.addExecuted s.clock hash seq }
  | .start => if s.phase = .starting then some { s with time := s.clock, phase := .waiting } else none
  | .sleep => if s.phase = .waiting then some s.sleep else none
  | .wake =>
    match s.phase with
    | .sleeping wakeTime => if wakeTime ≤ s.clock then some { s with phase := .proposed } else none
    | _ => none
  | .popProposed =>
    if s.phase = .proposed then
      some (match s.manager.popProposed s.time with
        | some manager => { s with manager := manager }
        | none => { s with phase := .executed })
    else none
  | .popExecuted =>
    if s.phase = .executed then
      some (match s.manager.popExecuted s.time with
        | some manager => { s with manager := manager }
        | none => { s with phase := .waiting })
    else none

end DuplicateThread

def duplicateThread (configured : Int) : System DuplicateThread DuplicateEvent where
  initial s := ∃ start, s = { frequencyUseconds := frequencyUseconds configured, clock := start }
  step s event s' := s.act event = some s'

end ResilientDB.Model
