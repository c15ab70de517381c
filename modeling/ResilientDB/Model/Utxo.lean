import ResilientDB.Library.Except
import ResilientDB.Library.OrderedMap
import ResilientDB.Library.TransitionSystem

-- The verification of a signature is a parameter.

namespace ResilientDB.Model

structure UTXOIn where
  prevId : Int := 0
  outIdx : Int := 0
deriving DecidableEq, Repr

structure UTXOOut where
  address : String := ""
  value : Int := 0
  spent : Bool := false
  pubKey : String := ""
deriving DecidableEq, Repr

structure UTXO where
  ins : List UTXOIn := []
  out : List UTXOOut := []
  sig : String := ""
  address : String := ""
deriving DecidableEq, Repr

-- An index below zero, an overflow of an `int64_t`, and a failed assertion.
inductive TransactionFault
  | outOfRange
  | overflow
  | assertion
deriving DecidableEq, Repr

-- or the message of an `InvalidArgumentError`
inductive Failure
  | status (message : String)
  | fault (kind : TransactionFault)
deriving DecidableEq, Repr

def checkInt64 (value : Int) : Except TransactionFault Int :=
  if -2 ^ 63 ≤ value ∧ value < 2 ^ 63 then .ok value else .error .overflow

def UTXO.outAt (utxo : UTXO) (outIdx : Int) : Option UTXOOut := if outIdx < 0 then none else utxo.out[outIdx.toNat]?

structure TxMempool where
  txs : List UTXO := []
deriving DecidableEq, Repr

namespace TxMempool

variable (pool : TxMempool)

def find (id : Int) : Option UTXO := if id < 0 then none else pool.txs[id.toNat]?

def addUTXO (utxo : UTXO) : TxMempool × Int := (⟨pool.txs ++ [utxo]⟩, pool.txs.length)

def getUTXO (id outIdx : Int) (address : String) : Except Failure UTXOOut :=
  match pool.find id with
  | none => .error (.status "id invalid.")
  | some utxo =>
    if utxo.out.length ≤ outIdx then .error (.status "id invalid.")
    else
      match utxo.outAt outIdx with
      | none => .error (.fault .outOfRange)
      | some output =>
        if output.spent then .error (.status "id has been spent.")
        else if output.address ≠ address then .error (.status "address invalid.")
        else .ok output

-- The address is not looked at.
def markSpend (id outIdx : Int) : Except TransactionFault (TxMempool × Int) :=
  match pool.find id with
  | none => .ok (pool, -1)
  | some utxo =>
    if utxo.out.length ≤ outIdx then .ok (pool, -1)
    else
      match utxo.outAt outIdx with
      | none => .error .outOfRange
      | some output =>
        let marked := { utxo with out := utxo.out.set outIdx.toNat { output with spent := true } }
        .ok (⟨pool.txs.set id.toNat marked⟩, output.value)

end TxMempool

structure TxTable where
  id : Int := 0
  txs : Library.OrderedMap Int UTXO := .empty

namespace TxTable

variable (t : TxTable)

def addUTXO (utxo : UTXO) : TxTable × Int := ({ id := t.id + 1, txs := t.txs.assign t.id utxo }, t.id)

def markSpend (id outIdx : Int) : Except TransactionFault (TxTable × Int) :=
  match t.txs.find? id with
  | none => .ok (t, -1)
  | some utxo =>
    if utxo.out.length ≤ outIdx then .ok (t, -1)
    else
      match utxo.outAt outIdx with
      | none => .error .outOfRange
      | some output =>
        let marked := { utxo with out := utxo.out.set outIdx.toNat { output with spent := true } }
        .ok ({ t with txs := t.txs.assign id marked }, output.value)

def collect (idx : Int) : Nat → List (Int × UTXO)
  | 0 => []
  | num + 1 =>
    match t.txs.find? idx with
    | none => []
    | some utxo => (idx, utxo) :: collect (idx - 1) num

-- The source decrements the end of an empty map too.
def getUTXO (endIdx num : Int) : Except TransactionFault (List (Int × UTXO)) := do
  let last ← if endIdx = -1 then t.txs.last?.elim (.error .outOfRange) fun entry => .ok entry.1 else .ok endIdx
  .ok (t.collect last num.toNat).reverse

end TxTable

inductive TxCall
  | addUTXO (utxo : UTXO)
  | markSpend (id outIdx : Int)
deriving DecidableEq, Repr

def TxTable.call (t : TxTable) : TxCall → Except TransactionFault (TxTable × Int)
  | .addUTXO utxo => .ok (t.addUTXO utxo)
  | .markSpend id outIdx => t.markSpend id outIdx

def mempool : Library.System TxTable (TxCall × Int) where
  initial t := t = {}
  step t event t' := t.call event.1 = .ok (t', event.2)

structure Wallet where
  wallet : String → Int := fun _ => 0

def Wallet.addCoin (w : Wallet) (address : String) (value : Int) : Except TransactionFault Wallet := do
  let balance ← checkInt64 (w.wallet address + value)
  .ok ⟨Function.update w.wallet address balance⟩

def Wallet.getCoin (w : Wallet) (address : String) : Int := w.wallet address

def Wallet.addCoins (w : Wallet) (outputs : List UTXOOut) : Except TransactionFault Wallet :=
  outputs.foldlM (fun w output => w.addCoin output.address output.value) w

structure Transaction where
  txMempool : TxMempool := {}
  wallet : Wallet := {}

structure InputScan where
  utxos : List UTXOOut := []
  publicKey : String := ""
  verifyNonce : Int := 0

def InputScan.visit (pool : TxMempool) (address : String) (scan : InputScan) (input : UTXOIn) :
    Except Failure InputScan := do
  let output ← pool.getUTXO input.prevId input.outIdx address
  let nonce ← (checkInt64 (scan.verifyNonce + input.prevId)).mapError .fault
  .ok {
    utxos := scan.utxos ++ [output]
    publicKey := if scan.publicKey = "" then output.pubKey else scan.publicKey
    verifyNonce := nonce }

abbrev VerifyString := String → String → String → Bool

def signedString (address : String) (verifyNonce : Int) : String := address ++ toString verifyNonce

namespace Transaction

variable (verify : VerifyString) (s : Transaction)

def getInput (utxo : UTXO) : Except Failure (List UTXOOut) :=
  if utxo.ins = [] ∧ utxo.address = "0000" then .ok []
  else do
    let scan ← utxo.ins.foldlM (InputScan.visit s.txMempool utxo.address) {}
    if scan.utxos = [] then .error (.status "Input invalid.")
    else if utxo.sig = "" then .error (.status "Input invalid.")
    else if verify (signedString utxo.address scan.verifyNonce) scan.publicKey utxo.sig = false then
      .error (.status "Key invalid.")
    else if scan.utxos.any (fun output => output.pubKey ≠ scan.publicKey) then .error (.status "Key invalid.")
    else .ok scan.utxos

def verifyUTXO (utxo : UTXO) (inputs : List UTXOOut) : Except TransactionFault Bool := do
  let total ← inputs.foldlM (fun total input => checkInt64 (total + input.value)) 0
  let rest ← utxo.out.foldlM (fun total output => checkInt64 (total - output.value)) total
  .ok (0 < rest)

def spendInput (spent : TxMempool × Int) (input : UTXOIn) : Except TransactionFault (TxMempool × Int) := do
  let (pool, value) ← spent.1.markSpend input.prevId input.outIdx
  if value < 0 then .error .assertion
  else do
    let total ← checkInt64 (spent.2 + value)
    .ok (pool, total)

def addCoin (utxo : UTXO) : Except TransactionFault Transaction := do
  let (pool, total) ← utxo.ins.foldlM spendInput (s.txMempool, 0)
  let negated ← checkInt64 (-total)
  let paid ← s.wallet.addCoin utxo.address negated
  let wallet ← paid.addCoins utxo.out
  .ok { txMempool := pool, wallet := wallet }

def addTransaction (utxo : UTXO) : Except TransactionFault (Transaction × Int) :=
  match s.getInput verify utxo with
  | .error (.status _) => .ok (s, -1)
  | .error (.fault kind) => .error kind
  | .ok inputs => do
    let valid ← verifyUTXO utxo inputs
    if valid then
      let added ← s.addCoin utxo
      let (pool, id) := added.txMempool.addUTXO utxo
      .ok ({ added with txMempool := pool }, id)
    else .ok (s, -1)

def addGenesis (utxo : UTXO) : Except TransactionFault Transaction := do
  let wallet ← s.wallet.addCoins utxo.out
  .ok { txMempool := (s.txMempool.addUTXO utxo).1, wallet := wallet }

def create (genesis : List UTXO) : Except TransactionFault Transaction := genesis.foldlM addGenesis {}

end Transaction

def executing (verify : VerifyString) (genesis : List UTXO) : Library.System Transaction (UTXO × Int) where
  initial s := Transaction.create genesis = .ok s
  step s event s' := s.addTransaction verify event.1 = .ok (s', event.2)

def executingAct (verify : VerifyString) (s : Transaction) (event : UTXO × Int) : Option Transaction :=
  match s.addTransaction verify event.1 with
  | .ok (after, ret) => if ret = event.2 then some after else none
  | .error _ => none

end ResilientDB.Model
