import ResilientDB.Library.TransitionSystem

-- A step is one access to `v_` or to `ptr_`.

namespace ResilientDB.Model
open Library

structure AtomicUniquePtr where
  v : Nat := 0
  ptr : Option Nat := none
deriving DecidableEq, Repr

inductive PtrCall
  | set (value : Nat)
  | clear
  | reference
deriving DecidableEq, Repr

inductive PtrStep
  | exchange (value : Nat)
  | storePtr (value : Nat)
  | storeFlag (value : Nat)
  | hasSet (res : Bool)
  | clearFlag
  | clearPtr
  | hasCleared
  | load
  | get
  | referenced (ptr : Option Nat)
deriving DecidableEq, Repr

def PtrCall.start : PtrCall → PtrStep
  | .set value => .exchange value
  | .clear => .clearFlag
  | .reference => .load

def AtomicUniquePtr.act (p : AtomicUniquePtr) : PtrStep → Option (AtomicUniquePtr × PtrStep)
  | .exchange value => some (if p.v = 0 then ({ p with v := 1 }, .storePtr value) else (p, .hasSet false))
  | .storePtr value => some ({ p with ptr := some value }, .storeFlag value)
  | .storeFlag _ => some ({ p with v := 2 }, .hasSet true)
  | .clearFlag => some ({ p with v := 0 }, .clearPtr)
  | .clearPtr => some ({ p with ptr := none }, .hasCleared)
  | .load => some (p, if p.v ≤ 1 then .referenced none else .get)
  | .get => some (p, .referenced p.ptr)
  | .hasSet _ | .hasCleared | .referenced _ => none

abbrev PtrThreads := ThreadPool AtomicUniquePtr PtrStep

def pointerAct (s : PtrThreads) : ThreadEvent PtrCall → Option PtrThreads
  | .call call => some { s with threads := s.threads ++ [call.start] }
  | .turn i => do
    let step ← s.threads[i]?
    let (shared, next) ← s.shared.act step
    some { shared := shared, threads := s.threads.set i next }

def pointerThreads : System PtrThreads (ThreadEvent PtrCall) where
  initial s := s = { shared := {}, threads := [] }
  step s event s' := pointerAct s event = some s'

end ResilientDB.Model
