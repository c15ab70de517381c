import ResilientDB.Model.Contract

namespace ResilientDB.Proof
open Model Contract Library

variable {evm : Evm}

def codeAt (gs : GlobalState) (a : Address) : Option Bytes := (gs a).map EvmAccount.code

def strokes : Evm where
  generateAddress owner _ := owner + 100
  run gs caller address _ :=
    if codeAt gs address = some [1] ∧ caller = 1 then (some { er := .returned, output := [2] }, gs)
    else (some { er := .threw }, gs)
  toBytes _ := [1]
  toUint256 text := text.length
  toBigEndian _ := []
  toHexString address := String.ofList (List.replicate address 'I')
  bytesToHexString _ := ""
  toUint256_toHexString := by simp

structure TwoDraws where
  request : Option ContractRequest
  first : Nat → Nat
  second : Nat → Nat

def CreatesAccount (request : Option ContractRequest) : Prop := ∃ r, request = some r ∧ r.cmd = .createAccount

theorem executeData_eq_iff (s : ContractTransactionManager) (d : TwoDraws) :
    ((s.executeData evm d.first d.request).1 = (s.executeData evm d.second d.request).1 ↔
      (CreatesAccount d.request → randomAddress d.first = randomAddress d.second)) ∧
    ((CreatesAccount d.request → randomAddress d.first = randomAddress d.second) →
      s.executeData evm d.first d.request = s.executeData evm d.second d.request) := by
  obtain ⟨_ | r, first, second⟩ := d
  · simp [ContractTransactionManager.executeData, CreatesAccount]
  cases cmd : r.cmd with
  | createAccount =>
    have creates : CreatesAccount (some r) := ⟨r, rfl, cmd⟩
    have injective : Function.Injective evm.toHexString := Function.LeftInverse.injective evm.toUint256_toHexString
    simp only [ContractTransactionManager.executeData, ContractTransactionManager.createAccount, cmd, creates,
      forall_const]
    exact ⟨by simpa using injective.eq_iff, fun same => by rw [same]⟩
  | none => simp [ContractTransactionManager.executeData, CreatesAccount, cmd]
  | deploy => simp [ContractTransactionManager.executeData, CreatesAccount, cmd]
  | execute => simp [ContractTransactionManager.executeData, CreatesAccount, cmd]

/-- The replicas agree exactly if every new account has got the same random address on both. -/
theorem replicas_agree_iff (evm : Evm) (steps : List TwoDraws) (s : ContractTransactionManager) :
    ContractTransactionManager.executeAll evm (steps.map fun d => (d.request, d.first)) s =
        ContractTransactionManager.executeAll evm (steps.map fun d => (d.request, d.second)) s ↔
      ∀ d ∈ steps, CreatesAccount d.request → randomAddress d.first = randomAddress d.second := by
  induction steps generalizing s with
  | nil => simp
  | cons d rest ih =>
    obtain ⟨responses, whole⟩ := @executeData_eq_iff evm s d
    rw [List.forall_mem_cons]
    simp only [List.map_cons, ContractTransactionManager.executeAll]
    constructor
    · intro same
      have here := responses.mp (List.cons.inj (Prod.mk.inj same).1).1
      rw [whole here] at same
      simp only [Prod.mk.injEq, List.cons.injEq, true_and] at same
      exact ⟨here, (ih _).mp (Prod.ext same.1 same.2)⟩
    · rintro ⟨here, later⟩
      rw [whole here, (ih _).mpr later]

def createsAccount : ContractRequest := { cmd := .createAccount }

theorem accounts_differ : (ContractTransactionManager.executeAll strokes [(some createsAccount, fun _ => 0)] {}).1 ≠
      (ContractTransactionManager.executeAll strokes [(some createsAccount, fun i => i / 19)] {}).1 := by
  decide

variable {m : ContractManager} {owner a : Address} {info : DeployInfo}
  {trace : List (Transition ContractManager ContractCall)}

def Isolated (evm : Evm) : Prop := ∀ gs caller address input other code, other ≠ address →
  codeAt gs other = some code → codeAt (evm.run gs caller address input).2 other = some code

theorem codeAt_create {other address : Address} (gs : GlobalState) (code : Bytes) (away : other ≠ address) :
    codeAt (gs.create address code) other = codeAt gs other := by
  unfold codeAt GlobalState.create
  rw [Function.update_of_ne away]

theorem execute_keeps (evm : Evm) (m : ContractManager) (caller address : Address) (input : Bytes) :
    ∃ gs, (m.execute evm caller address input).2 = { m with gs := gs } ∧ (Isolated evm → ∀ other code,
      other ≠ address → codeAt m.gs other = some code → codeAt gs other = some code) := by
  refine ⟨(evm.run (m.gs.create address []) caller address input).2, ?_, fun isolated other code away there => ?_⟩
  · unfold ContractManager.execute
    dsimp only
    split
    · rfl
    · split_ifs <;> rfl
  · exact isolated _ _ _ _ other code away ((codeAt_create m.gs [] away).trans there)

theorem deployContract_cases (evm : Evm) (m : ContractManager) (owner : Address) (info : DeployInfo) :
    (m.deployContract evm owner info).1 = evm.generateAddress owner 0 ∨
    ∃ gs, m.deployContract evm owner info = (0, { m with gs := gs.remove (evm.generateAddress owner 0) }) ∧
      (Isolated evm → ∀ other code, other ≠ evm.generateAddress owner 0 → codeAt m.gs other = some code →
        codeAt gs other = some code) := by
  unfold ContractManager.deployContract ContractManager.createContractAddress
  dsimp only
  generalize info.initParam.foldl _ _ = constructor
  obtain ⟨gs, same, keeps⟩ := execute_keeps evm
    { m with gs := m.gs.create (evm.generateAddress owner 0) constructor } owner (evm.generateAddress owner 0) []
  split
  · exact .inl rfl
  · rename_i failure ran executed
    rw [executed] at same
    obtain rfl : ran = _ := same
    exact .inr ⟨gs, rfl, fun isolated other code away there =>
      keeps isolated other code away ((codeAt_create m.gs _ away).trans there)⟩

theorem strokes_isolated : Isolated strokes := by
  intro gs caller address input other code away there
  unfold strokes
  dsimp only
  split_ifs <;> exact there

def deployAt (evm : Evm) (owner : Address) (m : ContractManager) : Transition ContractManager ContractCall :=
  ⟨m, .deployContract owner {} (m.deployContract evm owner {}).1, (m.deployContract evm owner {}).2⟩

theorem deployed_twice (evm : Evm) (owner owner' : Address) :
    let first := deployAt evm owner {}
    let second := deployAt evm owner' first.after
    (contracts evm).Run [second, first] second.after :=
  .next (.next (.initial rfl) rfl) rfl

end ResilientDB.Proof
