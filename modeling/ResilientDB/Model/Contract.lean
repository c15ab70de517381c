import ResilientDB.Library.Framing
import ResilientDB.Library.TransitionSystem
import Mathlib.Data.Finset.Insert

namespace ResilientDB.Model.Contract
open Library

abbrev Address := Nat

structure EvmAccount where
  code : Bytes
  storage : Nat → Nat := fun _ => 0

abbrev GlobalState := Address → Option EvmAccount

inductive ExitReason
  | returned
  | halted
  | threw
deriving DecidableEq

structure ExecResult where
  er : ExitReason
  output : Bytes := []
  exmsg : String := ""

-- `run` is `Processor::run`; no result is an exception.
structure Evm where
  generateAddress : Address → Nat → Address
  run : GlobalState → Address → Address → Bytes → Option ExecResult × GlobalState
  toBytes : String → Bytes
  toUint256 : String → Nat
  toBigEndian : Nat → Bytes
  toHexString : Nat → String
  bytesToHexString : Bytes → String
  toUint256_toHexString : ∀ address, toUint256 (toHexString address) = address

namespace GlobalState

def create (gs : GlobalState) (address : Address) (code : Bytes) : GlobalState :=
  Function.update gs address (some ((gs address).getD { code := code }))

def remove (gs : GlobalState) (address : Address) : GlobalState := Function.update gs address none

def setCode (gs : GlobalState) (address : Address) (code : Bytes) : GlobalState :=
  Function.update gs address ((gs address).map fun account => { account with code := code })

end GlobalState

structure FuncInfo where
  funcName : String
  hash : String

structure DeployInfo where
  initParam : List String := []
  funcInfo : List FuncInfo := []
  contractBin : String := ""
  contractName : String := ""

structure Params where
  param : List String := []
  funcName : String := ""

structure ContractManager where
  gs : GlobalState := fun _ => none
  funcAddress : Address → String → String := fun _ _ => ""

namespace ContractManager

variable (evm : Evm) (m : ContractManager)

def appendArgToInput (code : Bytes) (arg : String) : Bytes := code ++ evm.toBigEndian (evm.toUint256 arg)

def setFuncAddress (address : Address) (func : FuncInfo) : ContractManager :=
  let table := Function.update (m.funcAddress address) func.funcName func.hash
  { m with funcAddress := Function.update m.funcAddress address table }

def execute (caller address : Address) (input : Bytes) : Except String Bytes × ContractManager :=
  let (result, gs) := evm.run (m.gs.create address []) caller address input
  let ran := { m with gs := gs }
  match result with
  | none => (.error "Execution error:", ran)
  | some result =>
    if result.er ≠ .returned then
      if result.er = .threw then (.error ("Execution error: " ++ result.exmsg), ran)
      else (.error "Deployment did not return", ran)
    else (.ok result.output, ran)

def createContractAddress (owner : Address) : Address := evm.generateAddress owner 0

def deployContract (owner : Address) (info : DeployInfo) : Address × ContractManager :=
  let address := createContractAddress evm owner
  let constructor := info.initParam.foldl (appendArgToInput evm) (evm.toBytes info.contractBin)
  let created := { m with gs := m.gs.create address constructor }
  match created.execute evm owner address [] with
  | (.ok code, ran) =>
    let coded := { ran with gs := ran.gs.setCode address code }
    (address, info.funcInfo.foldl (fun m func => m.setFuncAddress address func) coded)
  | (.error _, ran) => (0, { ran with gs := ran.gs.remove address })

def execContract (caller address : Address) (params : Params) : Except String String × ContractManager :=
  let funcAddr := m.funcAddress address params.funcName
  if funcAddr = "" then (.error "Func not exist.", m)
  else
    let inputs := params.param.foldl (appendArgToInput evm) (evm.toBytes funcAddr)
    let (result, ran) := m.execute evm caller address inputs
    (result.map evm.bytesToHexString, ran)

end ContractManager

inductive ContractCall
  | deployContract (owner : Address) (info : DeployInfo) (address : Address)
  | execContract (caller address : Address) (params : Params)

def contracts (evm : Evm) : System ContractManager ContractCall where
  initial m := m = {}
  step m call m' :=
    match call with
    | .deployContract owner info address => m.deployContract evm owner info = (address, m')
    | .execContract caller address params => m' = (m.execContract evm caller address params).2

inductive Cmd
  | none
  | createAccount
  | deploy
  | execute
deriving DecidableEq

structure ContractRequest where
  cmd : Cmd := .none
  callerAddress : String := ""
  deployInfo : DeployInfo := {}
  contractAddress : String := ""
  funcParams : Params := {}

structure DeployedContract where
  ownerAddress : String
  contractAddress : String
  contractName : String
deriving DecidableEq

structure ContractResponse where
  ret : Int := 0
  account : Option String := none
  contract : Option DeployedContract := none
  res : Option String := none
deriving DecidableEq

structure ContractTransactionManager where
  contractManager : ContractManager := {}
  users : Finset Address := ∅

def randomAddress (rand : Nat → Nat) : Address :=
  (List.range 20).foldl (fun value i => value * 256 + rand i % 256) 0

namespace ContractTransactionManager

variable (evm : Evm) (s : ContractTransactionManager)

def createAccount (rand : Nat → Nat) : String × ContractTransactionManager :=
  let address := randomAddress rand
  (evm.toHexString address, { s with users := insert address s.users })

def deploy (request : ContractRequest) : Except String DeployedContract × ContractTransactionManager :=
  let caller := evm.toUint256 request.callerAddress
  if caller ∉ s.users then (.error "Account not exist.", s)
  else
    let (address, manager) := s.contractManager.deployContract evm caller request.deployInfo
    let after := { s with contractManager := manager }
    if address > 0 then
      (.ok ⟨request.callerAddress, evm.toHexString address, request.deployInfo.contractName⟩, after)
    else (.error "Deploy Contract fail.", after)

def execute (request : ContractRequest) : Except String String × ContractTransactionManager :=
  let caller := evm.toUint256 request.callerAddress
  if caller ∉ s.users then (.error "Account not exist.", s)
  else
    let (result, manager) :=
      s.contractManager.execContract evm caller (evm.toUint256 request.contractAddress) request.funcParams
    (result, { s with contractManager := manager })

def executeData (rand : Nat → Nat) : Option ContractRequest → Option ContractResponse × ContractTransactionManager
  | none => (none, s)
  | some request =>
    match request.cmd with
    | .createAccount =>
      let (account, after) := s.createAccount evm rand
      (some { account := some account }, after)
    | .deploy =>
      match s.deploy evm request with
      | (.ok contract, after) => (some { contract := some contract }, after)
      | (.error _, after) => (some { ret := -1 }, after)
    | .execute =>
      match s.execute evm request with
      | (.ok res, after) => (some { res := some res }, after)
      | (.error _, after) => (some { ret := -1 }, after)
    | .none => (some {}, s)

def executeAll : List (Option ContractRequest × (Nat → Nat)) → ContractTransactionManager →
    List (Option ContractResponse) × ContractTransactionManager
  | [], s => ([], s)
  | (request, rand) :: rest, s =>
    let (response, after) := s.executeData evm rand request
    let (responses, last) := executeAll rest after
    (response :: responses, last)

end ContractTransactionManager
end ResilientDB.Model.Contract
