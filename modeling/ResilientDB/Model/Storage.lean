import ResilientDB.Library.OrderedMap
import ResilientDB.Library.TransitionSystem
import Mathlib.Data.String.Basic

-- LevelDB is an ordered map; the format of a `ValueHistory` is a parameter.

namespace ResilientDB.Model
open Library

structure Value where
  value : String := ""
  version : Int := 0
deriving DecidableEq, Repr

-- A version number above `INT_MAX`, and the last element of an empty list.
inductive StorageFault
  | overflow
  | emptyHistory
deriving DecidableEq, Repr

def nextVersion (version : Int) : Except StorageFault Int :=
  if version < 2 ^ 31 - 1 then .ok (version + 1) else .error .overflow

def findVersion (version : Int) : List Value → Option Value
  | [] => none
  | item :: older =>
    if item.version = version then some item
    else if item.version < version then none
    else findVersion version older

def historyBetween (minVersion maxVersion : Int) : List Value → List Value
  | [] => []
  | item :: older =>
    if item.version < minVersion then []
    else if item.version ≤ maxVersion then item :: historyBetween minVersion maxVersion older
    else historyBetween minVersion maxVersion older

def topSize (topNumber : Int) : Nat := (topNumber % 2 ^ 64).toNat

structure Iteration where
  order : List (String × List Value) → List (String × List Value)
  perm : ∀ entries, (order entries).Perm entries

structure MemoryDB where
  kvMap : String → Option String := fun _ => none
  kvMapWithV : OrderedMap String (List Value) := .empty

namespace MemoryDB

variable (m : MemoryDB)

def setValue (key value : String) : MemoryDB × Int :=
  ({ m with kvMap := Function.update m.kvMap key (some value) }, 0)

def getValue (key : String) : String := (m.kvMap key).getD ""

def back (history : List Value) : Except StorageFault Value :=
  match history.getLast? with
  | some last => .ok last
  | none => .error .emptyHistory

def pushBack (key : String) (history : List Value) (value : String) (version : Int) :
    Except StorageFault (MemoryDB × Int) := do
  let next ← nextVersion version
  .ok ({ m with kvMapWithV := m.kvMapWithV.assign key (history ++ [⟨value, next⟩]) }, 0)

def setValueWithVersion (key value : String) (version : Int) : Except StorageFault (MemoryDB × Int) :=
  match m.kvMapWithV.find? key with
  | none => if version ≠ 0 then .ok (m, -2) else m.pushBack key [] value version
  | some history => do
    let last ← back history
    if last.version ≠ version then .ok (m, -2) else m.pushBack key history value version

def getValueWithVersion (key : String) (version : Int) : Value :=
  match m.kvMapWithV.find? key with
  | some history =>
    match history.getLast? with
    | some last => (findVersion version history.reverse).getD last
    | none => {}
  | none => {}

def getAllItems (iteration : Iteration) : Except StorageFault (OrderedMap String Value) :=
  (iteration.order m.kvMapWithV.entries).foldlM (fun resp it => do
    let last ← back it.2
    .ok (resp.insertNew it.1 last)) .empty

def getKeyRange (iteration : Iteration) (minKey maxKey : String) : Except StorageFault (OrderedMap String Value) :=
  (iteration.order m.kvMapWithV.entries).foldlM (fun resp it =>
    if minKey ≤ it.1 ∧ it.1 ≤ maxKey then do
      let last ← back it.2
      .ok (resp.insertNew it.1 last)
    else .ok resp) .empty

def getHistory (key : String) (minVersion maxVersion : Int) : Except StorageFault (List Value) :=
  match m.kvMapWithV.find? key with
  | none => .ok []
  | some history =>
    if history = [] then .error .emptyHistory
    else .ok (historyBetween minVersion maxVersion history.reverse)

def topHistory (topNumber : Int) : List Value → List Value → List Value
  | resp, [] => resp
  | resp, item :: older =>
    if topSize topNumber ≤ (resp ++ [item]).length then resp ++ [item] else topHistory topNumber (resp ++ [item]) older

def getTopHistory (key : String) (topNumber : Int) : Except StorageFault (List Value) :=
  match m.kvMapWithV.find? key with
  | none => .ok []
  | some history => if history = [] then .error .emptyHistory else .ok (topHistory topNumber [] history.reverse)

end MemoryDB

structure HistoryCodec where
  parse : String → Option (List Value)
  serialize : List Value → String
  parse_serialize : ∀ history, parse (serialize history) = some history
  serialize_nil : serialize [] = ""

def varintLength (n : Nat) : Nat :=
  if n < 2 ^ 7 then 1 else if n < 2 ^ 14 then 2 else if n < 2 ^ 21 then 3 else if n < 2 ^ 28 then 4 else 5

def putSize (put : String × String) : Nat :=
  1 + varintLength put.1.length + put.1.length + varintLength put.2.length + put.2.length

def approximateSize (batch : List (String × String)) : Nat := 12 + (batch.map putSize).sum

structure ResLevelDB where
  codec : HistoryCodec
  writeBatchSize : Nat := 1
  db : OrderedMap String String := .empty
  batch : List (String × String) := []

namespace ResLevelDB

variable (s : ResLevelDB)

def applied : OrderedMap String String := s.batch.foldl (fun db put => db.assign put.1 put.2) s.db

def flush (written : Bool) : ResLevelDB × Bool :=
  if written then ({ s with db := s.applied, batch := [] }, true) else (s, false)

def setValue (written : Bool) (key value : String) : ResLevelDB × Int :=
  let put := { s with batch := s.batch ++ [(key, value)] }
  if s.writeBatchSize ≤ approximateSize put.batch then ((put.flush written).1, if written then 0 else -1)
  else (put, 0)

def getValue (key : String) : String := (s.db.find? key).getD ""

def lastVersion (history : List Value) : Int :=
  match history.getLast? with
  | some last => last.version
  | none => 0

def setValueWithVersion (written : Bool) (key value : String) (version : Int) :
    Except StorageFault (ResLevelDB × Int) :=
  match s.codec.parse (s.getValue key) with
  | none => .ok (s, -2)
  | some history =>
    if lastVersion history ≠ version then .ok (s, -2)
    else do
      let next ← nextVersion version
      .ok (s.setValue written key (s.codec.serialize (history ++ [⟨value, next⟩])))

def getValueWithVersion (key : String) (version : Int) : Value :=
  match s.codec.parse (s.getValue key) with
  | none => {}
  | some history =>
    match history.getLast? with
    | none => {}
    | some last => if 0 < version then (findVersion version history.reverse).getD last else last

def addItem (resp : OrderedMap String Value) (it : String × String) : OrderedMap String Value :=
  match s.codec.parse it.2 with
  | none => resp
  | some history =>
    match history.getLast? with
    | none => resp
    | some last => resp.insertNew it.1 last

def getAllItems : OrderedMap String Value := s.db.entries.foldl s.addItem .empty

def getKeyRange (minKey maxKey : String) : OrderedMap String Value :=
  ((s.db.entries.dropWhile fun it => it.1 < minKey).takeWhile fun it => it.1 ≤ maxKey).foldl s.addItem .empty

def getHistory (key : String) (minVersion maxVersion : Int) : List Value :=
  match s.codec.parse (s.getValue key) with
  | none => []
  | some history => historyBetween minVersion maxVersion history.reverse

def topHistory (topNumber : Int) : List Value → List Value → List Value
  | resp, [] => resp
  | resp, item :: older => if resp.length < topSize topNumber then topHistory topNumber (resp ++ [item]) older else resp

def getTopHistory (key : String) (topNumber : Int) : List Value :=
  match s.codec.parse (s.getValue key) with
  | none => []
  | some history => topHistory topNumber [] history.reverse

end ResLevelDB

inductive StoreOp
  | setValue (key value : String)
  | getValue (key : String)
  | setValueWithVersion (key value : String) (version : Int)
  | getValueWithVersion (key : String) (version : Int)
  | getAllItems
  | getKeyRange (minKey maxKey : String)
  | getHistory (key : String) (minVersion maxVersion : Int)
  | flush
deriving DecidableEq, Repr

inductive StoreResult
  | code (ret : Int)
  | text (value : String)
  | item (item : Value)
  | items (entries : List (String × Value))
  | history (items : List Value)
  | flushed (ok : Bool)
deriving DecidableEq, Repr

def MemoryDB.call (m : MemoryDB) (c : StoreOp × Iteration) : Except StorageFault (MemoryDB × StoreResult) :=
  match c.1 with
  | .setValue key value => .ok ((m.setValue key value).1, .code (m.setValue key value).2)
  | .getValue key => .ok (m, .text (m.getValue key))
  | .setValueWithVersion key value version => do
    let (after, ret) ← m.setValueWithVersion key value version
    .ok (after, .code ret)
  | .getValueWithVersion key version => .ok (m, .item (m.getValueWithVersion key version))
  | .getAllItems => do
    let items ← m.getAllItems c.2
    .ok (m, .items items.entries)
  | .getKeyRange minKey maxKey => do
    let items ← m.getKeyRange c.2 minKey maxKey
    .ok (m, .items items.entries)
  | .getHistory key minVersion maxVersion => do
    let items ← m.getHistory key minVersion maxVersion
    .ok (m, .history items)
  | .flush => .ok (m, .flushed true)

def ResLevelDB.call (written : Bool) (s : ResLevelDB) (op : StoreOp) : Except StorageFault (ResLevelDB × StoreResult) :=
  match op with
  | .setValue key value => .ok ((s.setValue written key value).1, .code (s.setValue written key value).2)
  | .getValue key => .ok (s, .text (s.getValue key))
  | .setValueWithVersion key value version => do
    let (after, ret) ← s.setValueWithVersion written key value version
    .ok (after, .code ret)
  | .getValueWithVersion key version => .ok (s, .item (s.getValueWithVersion key version))
  | .getAllItems => .ok (s, .items s.getAllItems.entries)
  | .getKeyRange minKey maxKey => .ok (s, .items (s.getKeyRange minKey maxKey).entries)
  | .getHistory key minVersion maxVersion => .ok (s, .history (s.getHistory key minVersion maxVersion))
  | .flush => .ok ((s.flush written).1, .flushed (s.flush written).2)

def levelStore (codec : HistoryCodec) (writeBatchSize : Nat) : System ResLevelDB (StoreOp × StoreResult) where
  initial s := s = { codec := codec, writeBatchSize := writeBatchSize }
  step s event s' := ∃ written, s.call written event.1 = .ok (s', event.2)

def levelAct (s : ResLevelDB) (event : StoreOp × StoreResult) : Option ResLevelDB :=
  match s.call true event.1 with
  | .ok (after, result) => if result = event.2 then some after else none
  | .error _ => none

end ResilientDB.Model
