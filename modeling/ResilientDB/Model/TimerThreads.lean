import ResilientDB.Library.PriorityQueue
import ResilientDB.Model.ViewChange

-- The queue compares addresses, so it gives out the timer with the greatest address.

namespace ResilientDB.Model
open Library

def ViewChangeTimeout.timeoutTime (timer : ViewChangeTimeout) : Nat := addUInt64 timer.startTime 10000000

structure TimerObject where
  address : Nat
  timer : ViewChangeTimeout
deriving DecidableEq

abbrev TimerHeap := PriorityQueue TimerObject.address

structure TimerThreads where
  viewchangeTimeoutMinHeap : OrderedMap Nat TimerHeap := .empty
  viewchangeTimerSignal : Nat := 0

inductive TimerEvent
  | addComplaintTimer (proxyId : Nat) (hash : String) (view now address : Nat)
  | processViewChange (view now address : Nat)
  | timeoutHandler (view now address : Nat)
  | monitoringViewChangeTimeOut
deriving DecidableEq

namespace TimerThreads

variable (s : TimerThreads) (config : ResDBConfig)

def heapOf (key : Nat) : TimerHeap := (s.viewchangeTimeoutMinHeap.find? key).getD .empty

def push (key : Nat) (object : TimerObject) : TimerThreads :=
  let heap := s.heapOf key
  if heap.size < config.maxClientComplaintNum then
    { viewchangeTimeoutMinHeap := s.viewchangeTimeoutMinHeap.assign key (heap.push object)
      viewchangeTimerSignal := s.viewchangeTimerSignal + 1 }
  else { s with viewchangeTimeoutMinHeap := s.viewchangeTimeoutMinHeap.assign key heap }

def popFirst : List (Nat × TimerHeap) → Option (Nat × TimerObject × TimerHeap)
  | [] => none
  | (key, heap) :: rest =>
    match heap.pop? with
    | none => popFirst rest
    | some (object, left) => some (key, object, left)

def isUsed (address : Nat) : Bool :=
  s.viewchangeTimeoutMinHeap.entries.any fun entry => entry.2.items.any fun object => object.address = address

def pushed : TimerEvent → Option (Nat × TimerObject)
  | .addComplaintTimer proxyId hash view now address =>
    some (proxyId,
      ⟨address, { type := .complaint, view := view, proxyId := proxyId, hash := hash, startTime := now }⟩)
  | .processViewChange view now address =>
    let self := toUInt64 config.selfId
    some (self, ⟨address, { type := .newview, view := view, proxyId := self, hash := "null", startTime := now }⟩)
  | .timeoutHandler view now address =>
    let self := toUInt64 config.selfId
    some (self, ⟨address, { type := .viewchange, view := view, proxyId := self, hash := "null", startTime := now }⟩)
  | .monitoringViewChangeTimeOut => none

def act (event : TimerEvent) : Option TimerThreads :=
  match pushed config event with
  | some (key, object) => if s.isUsed object.address then none else some (s.push config key object)
  | none =>
    if s.viewchangeTimerSignal = 0 then none
    else
      let waited := { s with viewchangeTimerSignal := s.viewchangeTimerSignal - 1 }
      match popFirst s.viewchangeTimeoutMinHeap.entries with
      | none => some waited
      | some (key, _, heap) =>
        some { waited with viewchangeTimeoutMinHeap := s.viewchangeTimeoutMinHeap.assign key heap }

end TimerThreads

def timerThreads (config : ResDBConfig) : System TimerThreads TimerEvent where
  initial s := s = {}
  step s event s' := s.act config event = some s'

end ResilientDB.Model
