import ResilientDB.Proof.Utxo
import Mathlib

namespace ResilientDB.Proof
open Model Library List

variable {verify : VerifyString} {pool pool' : TxMempool} {s s' : Transaction} {utxo : UTXO} {input other : UTXOIn}
  {output : UTXOOut} {ins : List UTXOIn} {outs inputs : List UTXOOut} {total sum : Int} {genesis : List UTXO}
  {trace : List (Transition Transaction (UTXO × Int))}

theorem spendInputs_cases (named : ins.map (worthAt pool) = outs.map fun output => some output.value)
    (added : outs.foldlM (fun total output => checkInt64 (total + output.value)) total = .ok sum) :
    (∃ output ∈ outs, output.value < 0) ∧ ins.foldlM Transaction.spendInput (pool, total) = .error .assertion ∨
    (∀ output ∈ outs, 0 ≤ output.value) ∧
      ∃ pool', ins.foldlM Transaction.spendInput (pool, total) = .ok (pool', sum) := by
  induction outs generalizing ins pool total with
  | nil =>
    rw [map_nil, map_eq_nil_iff] at named
    cases added
    exact .inr ⟨by simp, pool, by rw [named]; rfl⟩
  | cons output outs ih =>
    obtain ⟨input, rest, rfl, first, more⟩ := map_eq_cons_iff.mp named
    rw [foldlM_cons] at added
    obtain ⟨next, fits, later⟩ := bind_eq_ok.mp added
    obtain ⟨found, inPool, value⟩ := Option.map_eq_some_iff.mp first
    obtain ⟨pool', marked, marks⟩ := markSpend_marks inPool
    rw [foldlM_cons]
    unfold Transaction.spendInput
    rw [marked, value]
    by_cases negative : output.value < 0
    · left
      refine ⟨⟨output, mem_cons_self, negative⟩, ?_⟩
      simp only [bind, Except.bind, if_pos negative]
    · have after : rest.map (worthAt pool') = outs.map fun output => some output.value := by
        rw [← more]
        rw [marks.values inPool]
      have steps := ih after later
      simp only [bind, Except.bind, if_neg negative, fits, mem_cons, exists_eq_or_imp, forall_eq_or_imp] at steps ⊢
      rcases steps with ⟨below, stops⟩ | ⟨above, goes⟩
      · exact .inl ⟨.inr below, stops⟩
      · exact .inr ⟨⟨not_lt.mp negative, above⟩, goes⟩

theorem getInput_values (got : s.getInput verify utxo = .ok inputs) :
    utxo.ins.map (worthAt s.txMempool) = inputs.map fun output => some output.value := by
  have named : utxo.ins.map (outputAt s.txMempool) = inputs.map some := by
    rcases getInput_unlocks got with ⟨none, -, rfl⟩ | unlocks
    · rw [none]
      rfl
    · exact unlocks.named
  have values := congrArg (List.map (Option.map UTXOOut.value)) named
  rwa [map_map, map_map] at values

theorem checkInt64_overflow {value : Int} {fault : TransactionFault} (failed : checkInt64 value = .error fault) :
    fault = .overflow := by
  unfold checkInt64 at failed
  split at failed
  · cases failed
  · cases failed
    rfl

theorem addCoin_overflow {w : Wallet} {address : String} {value : Int} {fault : TransactionFault}
    (failed : w.addCoin address value = .error fault) : fault = .overflow := by
  unfold Wallet.addCoin at failed
  rcases bind_eq_error.mp failed with checked | ⟨balance, -, added⟩
  · exact checkInt64_overflow checked
  · cases added

theorem verifyUTXO_overflow {fault : TransactionFault} (failed : Transaction.verifyUTXO utxo inputs = .error fault) :
    fault = .overflow := by
  unfold Transaction.verifyUTXO at failed
  rcases bind_eq_error.mp failed with adds | ⟨total, -, failed⟩
  · obtain ⟨_, _, _, _, -, -, failed⟩ := foldlM_eq_error_iff.mp adds
    exact checkInt64_overflow failed
  rcases bind_eq_error.mp failed with takes | ⟨rest, -, failed⟩
  · obtain ⟨_, _, _, _, -, -, failed⟩ := foldlM_eq_error_iff.mp takes
    exact checkInt64_overflow failed
  · cases failed

theorem addCoin_cases (got : s.getInput verify utxo = .ok inputs)
    (valid : Transaction.verifyUTXO utxo inputs = .ok true) :
    (∃ output ∈ inputs, output.value < 0) ∧ s.addCoin utxo = .error .assertion ∨
    (∀ output ∈ inputs, 0 ≤ output.value) ∧ ∀ fault, s.addCoin utxo = .error fault → fault = .overflow := by
  unfold Transaction.verifyUTXO at valid
  obtain ⟨sum, added, -⟩ := bind_eq_ok.mp valid
  unfold Transaction.addCoin
  rcases spendInputs_cases (getInput_values got) added with ⟨negative, stops⟩ | ⟨natural, pool', spends⟩
  · rw [stops]
    exact .inl ⟨negative, rfl⟩
  · refine .inr ⟨natural, fun fault failed => ?_⟩
    rcases bind_eq_error.mp failed with stops | ⟨spent, -, failed⟩
    · cases stops.symm.trans spends
    rcases bind_eq_error.mp failed with checked | ⟨negated, -, failed⟩
    · exact checkInt64_overflow checked
    rcases bind_eq_error.mp failed with paid | ⟨wallet, -, failed⟩
    · exact addCoin_overflow paid
    rcases bind_eq_error.mp failed with paid | ⟨wallet, -, failed⟩
    · obtain ⟨_, _, _, _, -, -, failed⟩ := foldlM_eq_error_iff.mp paid
      exact addCoin_overflow failed
    · cases failed

theorem addTransaction_fault {fault : TransactionFault} (failed : s.addTransaction verify utxo = .error fault) :
    s.getInput verify utxo = .error (.fault fault) ∨ fault = .overflow ∨ fault = .assertion ∧
      ∃ inputs, s.getInput verify utxo = .ok inputs ∧ Transaction.verifyUTXO utxo inputs = .ok true ∧
        ∃ output ∈ inputs, output.value < 0 := by
  unfold Transaction.addTransaction at failed
  split at failed
  · cases failed
  · rename_i kind got
    cases failed
    exact .inl got
  · rename_i inputs got
    rcases bind_eq_error.mp failed with checks | ⟨valid, checks, failed⟩
    · exact .inr (.inl (verifyUTXO_overflow checks))
    · cases valid with
      | false => cases failed
      | true =>
        rcases bind_eq_error.mp failed with adds | ⟨after, -, failed⟩
        · rcases addCoin_cases got checks with ⟨negative, stops⟩ | ⟨-, overflows⟩
          · cases stops.symm.trans adds
            exact .inr (.inr ⟨rfl, inputs, got, checks, negative⟩)
          · exact .inr (.inl (overflows fault adds))
        · cases failed

theorem getInput_fault {fault : TransactionFault} : s.getInput verify utxo = .error (.fault fault) ↔
    utxo.ins.foldlM (InputScan.visit s.txMempool utxo.address) {} = .error (.fault fault) := by
  unfold Transaction.getInput
  split
  · rename_i free
    rw [free.1]
    simp [pure, Except.pure]
  · cases utxo.ins.foldlM (InputScan.visit s.txMempool utxo.address) {} with
    | error failure => simp [bind, Except.bind]
    | ok scan =>
      simp only [bind, Except.bind, reduceCtorEq, iff_false]
      split_ifs <;> simp

theorem getUTXO_fault {id index : Int} {address : String} {fault : TransactionFault} :
    pool.getUTXO id index address = .error (.fault fault) ↔
      fault = .outOfRange ∧ (pool.find id).isSome = true ∧ index < 0 := by
  unfold TxMempool.getUTXO
  cases pool.find id with
  | none => simp
  | some utxo =>
    dsimp only
    by_cases negative : index < 0
    · have inside : ¬ (utxo.out.length : Int) ≤ index := by omega
      have missing : utxo.outAt index = none := if_pos negative
      rw [if_neg inside, missing]
      simp [negative, eq_comm]
    · simp only [negative, and_false, iff_false]
      split_ifs with beyond
      · simp
      · cases found : utxo.outAt index with
        | none =>
          simp only [UTXO.outAt, if_neg negative, List.getElem?_eq_none_iff] at found
          omega
        | some output =>
          dsimp only
          split_ifs <;> simp

theorem visit_fault {scan : InputScan} {address : String} {fault : TransactionFault} (other : fault ≠ .overflow) :
    scan.visit pool address input = .error (.fault fault) ↔
      pool.getUTXO input.prevId input.outIdx address = .error (.fault fault) := by
  unfold InputScan.visit
  rw [bind_eq_error]
  refine ⟨fun failed => failed.resolve_right ?_, .inl⟩
  rintro ⟨output, -, failed⟩
  rcases bind_eq_error.mp failed with checked | ⟨nonce, -, failed⟩
  · cases overflows : checkInt64 (scan.verifyNonce + input.prevId) with
    | ok value => simp [overflows, Except.mapError] at checked
    | error kind =>
      simp only [overflows, Except.mapError, Except.error.injEq, Failure.fault.injEq] at checked
      exact other (checked ▸ checkInt64_overflow overflows)
  · cases failed

structure OutOfRange (pool : TxMempool) (utxo : UTXO) (before : List UTXOIn) (input : UTXOIn) : Prop where
  reached : ∃ after, utxo.ins = before ++ input :: after
  passed : ∃ scan, before.foldlM (InputScan.visit pool utxo.address) {} = .ok scan
  known : (pool.find input.prevId).isSome = true
  negative : input.outIdx < 0

theorem getInput_fault_iff {fault : TransactionFault} (other : fault ≠ .overflow) :
    s.getInput verify utxo = .error (.fault fault) ↔
      fault = .outOfRange ∧ ∃ before input, OutOfRange s.txMempool utxo before input := by
  rw [getInput_fault, foldlM_eq_error_iff]
  constructor
  · rintro ⟨before, input, after, scan, reached, passed, failed⟩
    obtain ⟨rfl, known, negative⟩ := getUTXO_fault.mp ((visit_fault other).mp failed)
    exact ⟨rfl, before, input, ⟨after, reached⟩, ⟨scan, passed⟩, known, negative⟩
  · rintro ⟨rfl, before, input, ⟨after, reached⟩, ⟨scan, passed⟩, known, negative⟩
    exact ⟨before, input, after, scan, reached, passed,
      (visit_fault other).mpr (getUTXO_fault.mpr ⟨rfl, known, negative⟩)⟩

theorem assertion_iff : s.addTransaction verify utxo = .error .assertion ↔
    ∃ inputs, s.getInput verify utxo = .ok inputs ∧ Transaction.verifyUTXO utxo inputs = .ok true ∧
      ∃ output ∈ inputs, output.value < 0 := by
  constructor
  · intro failed
    rcases addTransaction_fault failed with unread | impossible | ⟨-, found⟩
    · cases ((getInput_fault_iff (by simp)).mp unread).1
    · cases impossible
    · exact found
  · rintro ⟨inputs, got, valid, negative⟩
    rcases addCoin_cases got valid with ⟨-, stops⟩ | ⟨natural, -⟩
    · unfold Transaction.addTransaction
      simp only [got, valid, stops, bind, Except.bind, ↓reduceIte]
    · obtain ⟨output, member, below⟩ := negative
      exact absurd (natural output member) (not_le.mpr below)

def Natural (outs : List UTXOOut) : Prop := ∀ output ∈ outs, 0 ≤ output.value
deriving Decidable

def HoldsNatural (pool : TxMempool) : Prop := ∀ input, ∀ value ∈ worthAt pool input, 0 ≤ value

theorem HoldsNatural.append (natural : HoldsNatural pool) (outs : Natural utxo.out) :
    HoldsNatural ⟨pool.txs ++ [utxo]⟩ := by
  intro input value found
  obtain ⟨output, there, rfl⟩ := Option.map_eq_some_iff.mp found
  obtain ⟨other, inPool, inUTXO⟩ := outputAt_eq_some.mp there
  obtain ⟨least, listed⟩ := find_eq_some.mp inPool
  rcases lt_or_ge input.prevId.toNat pool.txs.length with old | new
  · rw [getElem?_append_left old] at listed
    have before := outputAt_eq_some.mpr ⟨other, find_eq_some.mpr ⟨least, listed⟩, inUTXO⟩
    exact natural input output.value (by rw [worthAt, before]; rfl)
  · rw [getElem?_append_right new] at listed
    obtain rfl := mem_singleton.mp (mem_of_getElem? listed)
    exact outs output (mem_of_getElem? (outAt_eq_some.mp inUTXO).2)

theorem holdsNatural_run (run : (executing verify genesis).Run trace s) (natural : ∀ utxo ∈ genesis, Natural utxo.out)
    (accepted : ∀ t ∈ trace, isAccepted t → Natural t.event.1.out) : HoldsNatural s.txMempool := by
  refine run.invariant _ (fun s => HoldsNatural s.txMempool) (fun s first => ?_) (fun s event s' holds step meets => ?_)
    accepted
  · refine foldlM_invariant (fun s => HoldsNatural s.txMempool) first
      (by simp [HoldsNatural, worthAt, outputAt, TxMempool.find]) ?_
    intro s utxo s' member holds ran
    unfold Transaction.addGenesis at ran
    obtain ⟨wallet, -, ran⟩ := bind_eq_ok.mp ran
    cases ran
    exact holds.append (natural utxo member)
  · rcases step_accepted step with ⟨-, rfl⟩ | ⟨accepts, inputs, pool, total, admitted⟩
    · exact holds
    · have spends : HoldsNatural pool := by
        unfold HoldsNatural
        rw [admitted.spent.2.2]
        exact holds
      rw [admitted.pool]
      exact spends.append (meets accepts)

theorem transactions_fail_cleanly (verify : VerifyString) (genesis : List UTXO) :
    Transaction.create genesis ≠ .error .assertion ∧ ∀ trace s, (executing verify genesis).Run trace s →
      (∀ t ∈ trace, t.event.2 = -1 → t.after = t.before) ∧
      (∀ utxo, s.addTransaction verify utxo = .error .assertion ↔
        ∃ inputs, s.getInput verify utxo = .ok inputs ∧ Transaction.verifyUTXO utxo inputs = .ok true ∧
          ∃ output ∈ inputs, output.value < 0) ∧
      ((∀ utxo ∈ genesis, Natural utxo.out) → (∀ t ∈ trace, isAccepted t → Natural t.event.1.out) →
        ∀ utxo, s.addTransaction verify utxo ≠ .error .assertion) := by
  constructor
  · intro failed
    obtain ⟨_, utxo, _, s, -, -, failed⟩ := foldlM_eq_error_iff.mp failed
    unfold Transaction.addGenesis at failed
    rcases bind_eq_error.mp failed with adds | ⟨wallet, -, failed⟩
    · obtain ⟨_, _, _, _, -, -, failed⟩ := foldlM_eq_error_iff.mp adds
      cases addCoin_overflow failed
    · cases failed
  · intro trace s run
    refine ⟨fun t member refused => ?_, fun utxo => assertion_iff, fun natural accepted utxo failed => ?_⟩
    · obtain ⟨past, -, -, step⟩ := run.earlier member
      rcases step_accepted step with ⟨-, same⟩ | ⟨accepts, -⟩
      · exact same
      · exact absurd refused accepts
    · obtain ⟨inputs, got, -, output, member, negative⟩ := assertion_iff.mp failed
      have holds := holdsNatural_run run natural accepted
      rcases getInput_unlocks got with ⟨-, -, rfl⟩ | unlocks
      · cases member
      · have inside := mem_map_of_mem (f := some) member
        rw [← unlocks.named] at inside
        obtain ⟨input, -, found⟩ := mem_map.mp inside
        have least := holds input output.value (by rw [worthAt, found]; rfl)
        exact absurd least (not_le.mpr negative)

theorem spendOnce_clean : ∃ trace s, (executing tagVerify oneCoin).Run trace s ∧
    (trace.map fun t => t.event.2) = [-1, 1] ∧ (∀ t ∈ trace, t.event.2 = -1 → t.after = t.before) ∧
    ∀ utxo, s.addTransaction tagVerify utxo ≠ .error .assertion := by
  obtain ⟨trace, s, run, returned, accepted⟩ := exists_run_of_calls oneCoin (by decide +kernel)
    [(spendOnce, 1), (spendOnce, -1)] (fun trace _ => (trace.map fun t => t.event.2) = [-1, 1] ∧
      ∀ t ∈ trace, isAccepted t → Natural t.event.1.out) (by decide +kernel)
  obtain ⟨clean, -, holds⟩ := (transactions_fail_cleanly tagVerify oneCoin).2 trace s run
  exact ⟨trace, s, run, returned, clean, holds (by decide +kernel) accepted⟩

def givesDebt : UTXO := { ins := [⟨0, 0⟩], out := [coin "a" (-5) "k", coin "a" 12 "k"], sig := "k|a0", address := "a" }

def spendsDebt : UTXO := { ins := [⟨1, 0⟩, ⟨1, 1⟩], out := [coin "b" 1 "l"], sig := "k|a2", address := "a" }

theorem negative_output_stops : ∃ trace s, (executing tagVerify oneCoin).Run trace s ∧
    trace.map (fun t => t.event) = [(givesDebt, 1)] ∧ s.addTransaction tagVerify spendsDebt = .error .assertion :=
  exists_run_of_calls oneCoin (by decide +kernel) [(givesDebt, 1)] _ (by decide +kernel)

theorem lookup_out_of_range_iff (verify : VerifyString) (s : Transaction) (utxo : UTXO) :
    (s.addTransaction verify utxo = .error .outOfRange ↔ ∃ before input, OutOfRange s.txMempool utxo before input) ∧
    ∀ inputs, s.getInput verify utxo = .ok inputs → Transaction.verifyUTXO utxo inputs = .ok true →
      s.addCoin utxo ≠ .error .outOfRange := by
  constructor
  · constructor
    · intro failed
      rcases addTransaction_fault failed with unread | impossible | ⟨impossible, -⟩
      · exact ((getInput_fault_iff (by simp)).mp unread).2
      · cases impossible
      · cases impossible
    · intro found
      have unread : s.getInput verify utxo = .error (.fault .outOfRange) :=
        (getInput_fault_iff (by simp)).mpr ⟨rfl, found⟩
      unfold Transaction.addTransaction
      rw [unread]
  · intro inputs got valid failed
    rcases addCoin_cases got valid with ⟨-, stops⟩ | ⟨-, overflows⟩
    · cases stops.symm.trans failed
    · cases overflows _ failed

theorem spendOnce_in_range : (startOf oneCoin).addTransaction tagVerify spendOnce ≠ .error .outOfRange := by
  intro failed
  obtain ⟨before, input, ⟨after, reached⟩, -, -, negative⟩ :=
    (lookup_out_of_range_iff tagVerify (startOf oneCoin) spendOnce).1.mp failed
  have member : input ∈ spendOnce.ins := by
    rw [reached]
    simp
  rw [mem_singleton.mp member] at negative
  cases negative

def belowZero : UTXO := { ins := [⟨0, -1⟩], out := [coin "b" 9 "l"], sig := "k|a0", address := "a" }

theorem negative_index_reads : ∃ s, Transaction.create oneCoin = .ok s ∧
    s.getInput tagVerify belowZero = .error (.fault .outOfRange) ∧
    s.addTransaction tagVerify belowZero = .error .outOfRange := by
  decide +kernel

variable {address : String} {t : Transition Transaction (UTXO × Int)}

theorem paidTo_nonneg {a : String} (natural : ∀ output ∈ outs, 0 ≤ output.value) : 0 ≤ paidTo a outs := by
  refine sum_nonneg fun value member => ?_
  obtain ⟨output, listed, rfl⟩ := mem_map.mp member
  split
  · exact natural output listed
  · exact le_rfl

theorem Admitted.lowers {a : String} (accepted : Admitted verify s utxo s' inputs pool total)
    (natural : ∀ output ∈ utxo.out, 0 ≤ output.value) (lower : s'.wallet.getCoin a < s.wallet.getCoin a) :
    utxo.address = a ∧ utxo.ins ≠ [] := by
  have after : s'.wallet.getCoin a = _ := accepted.wallet a
  have paid := paidTo_nonneg (a := a) natural
  unfold Wallet.getCoin at lower after
  rw [after] at lower
  by_cases same : utxo.address = a
  · refine ⟨same, fun none => ?_⟩
    have spends := accepted.spends
    rw [none] at spends
    cases spends
    rw [if_pos same] at lower
    omega
  · rw [if_neg same] at lower
    omega

theorem Admitted.has_inputs (accepted : Admitted verify s utxo s' inputs pool total)
    (natural : ∀ output ∈ utxo.out, 0 ≤ output.value) : utxo.ins ≠ [] := by
  intro none
  have named := accepted.named
  have enough := accepted.enough
  rw [none] at named
  obtain rfl : inputs = [] := map_eq_nil_iff.mp named.symm
  have sum : 0 ≤ valueSum utxo.out := by
    refine sum_nonneg fun value member => ?_
    obtain ⟨output, listed, rfl⟩ := mem_map.mp member
    exact natural output listed
  have nothing : valueSum [] = 0 := rfl
  omega

def freeDebt : UTXO := { out := [{ address := "a", value := -5 }], address := "0000" }

def GoesThrough (verify : VerifyString) (s : Transaction) (utxo : UTXO) : Prop :=
  ∃ inputs, s.getInput verify utxo = .ok inputs ∧ Transaction.verifyUTXO utxo inputs = .ok true

def Unforgeable (verify : VerifyString) : Prop :=
  ∀ key sig message message', verify message key sig = true → verify message' key sig = true → message = message'

def HoldsOutput (pool : TxMempool) (address : String) (input : UTXOIn) (output : UTXOOut) : Prop :=
  outputAt pool input = some output ∧ output.spent = false ∧ output.address = address

def redirect (utxo : UTXO) (payee : String) : UTXO :=
  { utxo with out := utxo.out.map fun output => { output with address := payee } }

theorem signedString_inj {n m : Int} (same : signedString address n = signedString address m) : n = m := by
  unfold signedString at same
  rw [String.append_right_inj, Int.toString_eq_repr, Int.toString_eq_repr] at same
  exact Int.repr_injective same

theorem GoesThrough.single (passes : GoesThrough verify s utxo) (single : utxo.ins = [input]) :
    ∃ output, HoldsOutput s.txMempool utxo.address input output ∧
      verify (signedString utxo.address input.prevId) output.pubKey utxo.sig = true := by
  obtain ⟨inputs, got, -⟩ := passes
  rcases getInput_unlocks got with ⟨none, -, -⟩ | unlocks
  · rw [single] at none
    cases none
  have named := unlocks.named
  rw [single, map_singleton] at named
  obtain ⟨output, rfl, found⟩ := map_eq_singleton_iff.mp named.symm
  have first : output ∈ [output] := mem_singleton_self output
  have signed := unlocks.signed output first
  have number : nonce utxo = input.prevId := by simp [nonce, single]
  rw [number] at signed
  exact ⟨output, ⟨found.symm, unlocks.unspent output first, unlocks.owned output first⟩, signed⟩

theorem GoesThrough.redirect (passes : GoesThrough verify s utxo) (payee : String) :
    GoesThrough verify s (redirect utxo payee) := by
  obtain ⟨inputs, got, valid⟩ := passes
  refine ⟨inputs, got, ?_⟩
  rw [← valid]
  simp only [Transaction.verifyUTXO, Proof.redirect, foldlM_map]

variable {first second : UTXO}

theorem tagVerify_unforgeable : Unforgeable tagVerify := by
  intro key sig message message' signed signed'
  have same := (of_decide_eq_true signed).symm.trans (of_decide_eq_true signed')
  exact (String.append_right_inj _).mp same

theorem owns_oneCoin {output : UTXOOut} (owns : HoldsOutput (startOf oneCoin).txMempool address input output) :
    input = ⟨0, 0⟩ ∧ output = coin "a" 10 "k" := by
  obtain ⟨utxo, found, there⟩ := outputAt_eq_some.mp owns.1
  obtain ⟨naturalId, found⟩ := find_eq_some.mp found
  obtain ⟨naturalIndex, there⟩ := outAt_eq_some.mp there
  change [({ out := [coin "a" 10 "k"] } : UTXO)][input.prevId.toNat]? = some utxo at found
  rw [getElem?_singleton, Option.ite_none_right_eq_some] at found
  obtain ⟨id, same⟩ := found
  cases same
  rw [getElem?_singleton, Option.ite_none_right_eq_some] at there
  obtain ⟨index, same⟩ := there
  cases same
  have prevId : input.prevId = 0 := by omega
  have outIdx : input.outIdx = 0 := by omega
  refine ⟨?_, rfl⟩
  cases input
  cases prevId
  cases outIdx
  rfl

theorem spendOnce_passes : GoesThrough tagVerify (startOf oneCoin) spendOnce := ⟨[coin "a" 10 "k"], rfl, rfl⟩

def fourCoins : List UTXO := List.replicate 4 { out := [coin "a" 10 "k"] }

def spendPair (prevId prevId' : Int) : UTXO :=
  { ins := [⟨prevId, 0⟩, ⟨prevId', 0⟩], out := [coin "b" 19 "l"], sig := "k|a3", address := "a" }

end ResilientDB.Proof
