import ResilientDB.Model.Utxo
import Mathlib.Algebra.Order.BigOperators.Group.List
import Mathlib.Data.List.Nodup

namespace ResilientDB.Proof
open Model Library List

variable {verify : VerifyString} {pool pool' : TxMempool} {s s' : Transaction} {utxo : UTXO} {input other : UTXOIn}
  {output : UTXOOut} {address : String} {outs : List UTXOOut} {worth : UTXOOut → Int} {id index value : Int}
  {w w' : Wallet}

def outputAt (pool : TxMempool) (input : UTXOIn) : Option UTXOOut :=
  (pool.find input.prevId).bind fun utxo => utxo.outAt input.outIdx

theorem find_eq_some : pool.find id = some utxo ↔ 0 ≤ id ∧ pool.txs[id.toNat]? = some utxo := by
  unfold TxMempool.find
  split
  · rename_i negative
    simp [negative]
  · rename_i natural
    simp [not_lt.mp natural]

theorem outAt_eq_some : utxo.outAt index = some output ↔ 0 ≤ index ∧ utxo.out[index.toNat]? = some output := by
  unfold UTXO.outAt
  split
  · rename_i negative
    simp [negative]
  · rename_i natural
    simp [not_lt.mp natural]

theorem outputAt_eq_some : outputAt pool input = some output ↔
    ∃ utxo, pool.find input.prevId = some utxo ∧ utxo.outAt input.outIdx = some output := Option.bind_eq_some_iff

theorem not_length_le (found : utxo.outAt index = some output) : ¬ (utxo.out.length : Int) ≤ index := by
  obtain ⟨natural, there⟩ := outAt_eq_some.mp found
  have inside := (List.getElem?_eq_some_iff.mp there).1
  omega

theorem getUTXO_eq_ok : pool.getUTXO input.prevId input.outIdx address = .ok output ↔
    outputAt pool input = some output ∧ output.spent = false ∧ output.address = address := by
  unfold TxMempool.getUTXO outputAt
  cases pool.find input.prevId with
  | none => simp
  | some utxo =>
    dsimp only [Option.bind_some]
    cases found : utxo.outAt input.outIdx with
    | none =>
      simp only [reduceCtorEq, false_and, iff_false]
      split <;> simp
    | some here =>
      simp only [if_neg (not_length_le found), Option.some.injEq]
      by_cases spent : here.spent = true
      · simp only [spent, ↓reduceIte, reduceCtorEq, false_iff]
        rintro ⟨rfl, unspent, -⟩
        cases spent.symm.trans unspent
      · by_cases owned : here.address = address
        · simp only [spent, owned, ne_eq, not_true_eq_false, ↓reduceIte, Except.ok.injEq, Bool.false_eq_true]
          constructor
          · rintro rfl
            exact ⟨rfl, by simpa using spent, owned⟩
          · exact fun holds => holds.1
        · simp only [spent, owned, ne_eq, not_false_eq_true, ↓reduceIte, reduceCtorEq, false_iff, Bool.false_eq_true]
          rintro ⟨rfl, -, same⟩
          exact owned same

def worthOf (worth : UTXOOut → Int) (pool : TxMempool) : Int := (pool.txs.map fun utxo => (utxo.out.map worth).sum).sum

structure Marks (pool : TxMempool) (input : UTXOIn) (output : UTXOOut) (pool' : TxMempool) : Prop where
  worth : ∀ worth, worthOf worth pool' = worthOf worth pool - worth output + worth { output with spent := true }
  here : outputAt pool' input = some { output with spent := true }
  others : ∀ other, other ≠ input → outputAt pool' other = outputAt pool other

theorem markSpend_marks (found : outputAt pool input = some output) :
    ∃ pool', pool.markSpend input.prevId input.outIdx = .ok (pool', output.value) ∧ Marks pool input output pool' := by
  obtain ⟨utxo, inPool, inUTXO⟩ := outputAt_eq_some.mp found
  obtain ⟨naturalId, atId⟩ := find_eq_some.mp inPool
  obtain ⟨naturalIdx, atIdx⟩ := outAt_eq_some.mp inUTXO
  have idInside := (List.getElem?_eq_some_iff.mp atId).1
  have idxInside := (List.getElem?_eq_some_iff.mp atIdx).1
  let marked : UTXO := { utxo with out := utxo.out.set input.outIdx.toNat { output with spent := true } }
  refine ⟨⟨pool.txs.set input.prevId.toNat marked⟩, ?_, ?_, ?_, ?_⟩
  · unfold TxMempool.markSpend
    simp only [inPool, if_neg (not_length_le inUTXO), inUTXO]
    rfl
  · intro worth
    unfold worthOf
    rw [sum_map_set atId, sum_map_set atIdx]
    omega
  · refine outputAt_eq_some.mpr ⟨marked, find_eq_some.mpr ⟨naturalId, ?_⟩, outAt_eq_some.mpr ⟨naturalIdx, ?_⟩⟩
    · simp [idInside]
    · simp [marked, idxInside]
  · intro other different
    unfold outputAt TxMempool.find
    split
    · rfl
    rename_i natural
    dsimp only
    by_cases sameId : input.prevId.toNat = other.prevId.toNat
    · rw [← sameId, getElem?_set_self idInside, atId, Option.bind_some, Option.bind_some]
      unfold UTXO.outAt
      split
      · rfl
      rename_i naturalToo
      have otherIdx : input.outIdx.toNat ≠ other.outIdx.toNat := by
        intro sameIdx
        apply different
        obtain ⟨prevId, outIdx⟩ := input
        obtain ⟨prevId', outIdx'⟩ := other
        simp only at *
        obtain rfl : prevId = prevId' := by omega
        obtain rfl : outIdx = outIdx' := by omega
        rfl
      exact getElem?_set_ne otherIdx
    · rw [getElem?_set_ne sameId]

def MarkedSpent (pool : TxMempool) (input : UTXOIn) : Prop :=
  ∃ output, outputAt pool input = some output ∧ output.spent = true

def CountsUnspent (worth : UTXOOut → Int) : Prop := ∀ output, output.spent = true → worth output = 0

theorem checkInt64_eq {result : Int} (fits : checkInt64 value = .ok result) : result = value := by
  unfold checkInt64 at fits
  split at fits
  · cases fits
    rfl
  · cases fits

theorem spendInput_marks {spent after : TxMempool × Int} (found : outputAt spent.1 input = some output)
    (ran : Transaction.spendInput spent input = .ok after) :
    Marks spent.1 input output after.1 ∧ after.2 = spent.2 + output.value := by
  obtain ⟨pool', marked, marks⟩ := markSpend_marks found
  unfold Transaction.spendInput at ran
  rw [marked] at ran
  simp only [bind, Except.bind] at ran
  split at ran
  · cases ran
  · cases fits : checkInt64 (spent.2 + output.value) with
    | error fault => simp [fits] at ran
    | ok total =>
      simp only [fits, Except.ok.injEq] at ran
      rw [← ran]
      exact ⟨marks, checkInt64_eq fits⟩

theorem Marks.keeps_spent (marks : Marks pool input output pool') (spent : MarkedSpent pool other) :
    MarkedSpent pool' other := by
  by_cases same : other = input
  · exact ⟨_, same ▸ marks.here, rfl⟩
  · obtain ⟨out, found, flag⟩ := spent
    exact ⟨out, (marks.others other same).trans found, flag⟩

def worthAt (pool : TxMempool) (input : UTXOIn) : Option Int := (outputAt pool input).map UTXOOut.value

theorem Marks.values (marks : Marks pool input output pool') (found : outputAt pool input = some output) :
    worthAt pool' = worthAt pool := by
  funext other
  unfold worthAt
  by_cases same : other = input
  · rw [same, marks.here, found]
    rfl
  · rw [marks.others other same]

section Spending

variable {ins : List UTXOIn} {start after : TxMempool × Int}

theorem spendInputs_spent (named : ∀ input ∈ ins, (outputAt start.1 input).isSome = true)
    (ran : ins.foldlM Transaction.spendInput start = .ok after) :
    (∀ input ∈ ins, MarkedSpent after.1 input) ∧ (∀ other, MarkedSpent start.1 other → MarkedSpent after.1 other) ∧
      worthAt after.1 = worthAt start.1 := by
  induction ins generalizing start with
  | nil =>
    cases ran
    exact ⟨by simp, fun _ spent => spent, rfl⟩
  | cons input ins ih =>
    rw [foldlM_cons, bind_eq_ok] at ran
    obtain ⟨next, first, rest⟩ := ran
    obtain ⟨output, found⟩ := Option.isSome_iff_exists.mp (named input mem_cons_self)
    obtain ⟨marks, -⟩ := spendInput_marks found first
    have namedToo : ∀ other ∈ ins, (outputAt next.1 other).isSome = true := by
      intro other member
      by_cases same : other = input
      · rw [same, marks.here]
        rfl
      · rw [marks.others other same]
        exact named other (mem_cons_of_mem _ member)
    obtain ⟨all, kept, values⟩ := ih namedToo rest
    refine ⟨?_, fun other spent => kept other (marks.keeps_spent spent), values.trans (marks.values found)⟩
    intro other member
    rcases mem_cons.mp member with rfl | later
    · exact kept other ⟨_, marks.here, rfl⟩
    · exact all other later

theorem spendInputs_worth (distinct : ins.Nodup) (named : ins.map (outputAt start.1) = outs.map some)
    (unspent : CountsUnspent worth) (ran : ins.foldlM Transaction.spendInput start = .ok after) :
    worthOf worth after.1 = worthOf worth start.1 - (outs.map worth).sum ∧
      after.2 = start.2 + (outs.map fun output => output.value).sum := by
  induction ins generalizing start outs with
  | nil =>
    cases ran
    cases outs with
    | nil => simp
    | cons output outs => cases named
  | cons input ins ih =>
    rw [foldlM_cons, bind_eq_ok] at ran
    obtain ⟨next, first, rest⟩ := ran
    cases outs with
    | nil => cases named
    | cons output outs =>
      simp only [map_cons, List.cons.injEq] at named
      obtain ⟨marks, total⟩ := spendInput_marks named.1 first
      have fresh := (nodup_cons.mp distinct).1
      have namedToo : ins.map (outputAt next.1) = outs.map some := by
        rw [← named.2]
        refine map_congr_left fun other member => marks.others other ?_
        rintro rfl
        exact fresh member
      obtain ⟨worths, totals⟩ := ih (nodup_cons.mp distinct).2 namedToo rest
      rw [worths, totals, marks.worth, unspent { output with spent := true } rfl, total]
      simp only [map_cons, sum_cons]
      constructor <;> omega

end Spending

def nonce (utxo : UTXO) : Int := (utxo.ins.map fun input => input.prevId).sum

structure Unlocks (verify : VerifyString) (pool : TxMempool) (utxo : UTXO) (outs : List UTXOOut) : Prop where
  named : utxo.ins.map (outputAt pool) = outs.map some
  unspent : ∀ output ∈ outs, output.spent = false
  owned : ∀ output ∈ outs, output.address = utxo.address
  signed : ∀ output ∈ outs, verify (signedString utxo.address (nonce utxo)) output.pubKey utxo.sig = true
  inputs : utxo.ins ≠ []

theorem scan_named {ins : List UTXOIn} {scan scan' : InputScan}
    (ran : ins.foldlM (InputScan.visit pool address) scan = .ok scan') :
    ∃ outs, ins.map (outputAt pool) = outs.map some ∧ scan'.utxos = scan.utxos ++ outs ∧
      (∀ output ∈ outs, output.spent = false ∧ output.address = address) ∧
      scan'.verifyNonce = scan.verifyNonce + (ins.map fun input => input.prevId).sum := by
  induction ins generalizing scan with
  | nil =>
    cases ran
    exact ⟨[], rfl, by simp, by simp, by simp⟩
  | cons input ins ih =>
    rw [foldlM_cons, bind_eq_ok] at ran
    obtain ⟨next, first, rest⟩ := ran
    unfold InputScan.visit at first
    obtain ⟨output, got, first⟩ := bind_eq_ok.mp first
    obtain ⟨sum, fits, first⟩ := bind_eq_ok.mp first
    obtain ⟨found, unspent, owned⟩ := getUTXO_eq_ok.mp got
    have added : sum = scan.verifyNonce + input.prevId := by
      cases checked : checkInt64 (scan.verifyNonce + input.prevId) with
      | error fault => simp [checked, Except.mapError] at fits
      | ok value =>
        simp only [checked, Except.mapError, Except.ok.injEq] at fits
        exact fits ▸ checkInt64_eq checked
    obtain ⟨outs, named, utxos, good, nonces⟩ := ih rest
    cases first
    refine ⟨output :: outs, ?_, ?_, ?_, ?_⟩
    · rw [map_cons, map_cons, found, named]
    · rw [utxos]
      simp
    · intro other member
      rcases mem_cons.mp member with rfl | later
      · exact ⟨unspent, owned⟩
      · exact good other later
    · rw [nonces, map_cons, sum_cons]
      dsimp only
      omega

theorem getInput_unlocks (got : s.getInput verify utxo = .ok outs) :
    (utxo.ins = [] ∧ utxo.address = "0000" ∧ outs = []) ∨ Unlocks verify s.txMempool utxo outs := by
  unfold Transaction.getInput at got
  split at got
  · rename_i free
    cases got
    exact .inl ⟨free.1, free.2, rfl⟩
  · obtain ⟨scan, scanned, got⟩ := bind_eq_ok.mp got
    obtain ⟨named, sameNames, utxos, good, nonces⟩ := scan_named scanned
    rw [nil_append] at utxos
    split_ifs at got with none noSig invalid otherKey
    cases got
    rw [utxos] at none otherKey ⊢
    have oneKey : ∀ output ∈ named, output.pubKey = scan.publicKey := by simpa using otherKey
    refine .inr ⟨sameNames, fun output member => (good output member).1, fun output member => (good output member).2,
      fun output member => ?_, ?_⟩
    · rw [oneKey output member]
      unfold nonce
      simpa [nonces] using invalid
    · rintro empty
      rw [empty] at sameNames
      exact none (map_eq_nil_iff.mp sameNames.symm)

def valueSum (outs : List UTXOOut) : Int := (outs.map fun output => output.value).sum

def paidTo (address : String) (outs : List UTXOOut) : Int :=
  (outs.map fun output => if output.address = address then output.value else 0).sum

theorem verifyUTXO_enough (valid : Transaction.verifyUTXO utxo outs = .ok true) :
    valueSum utxo.out < valueSum outs := by
  unfold Transaction.verifyUTXO at valid
  obtain ⟨total, added, valid⟩ := bind_eq_ok.mp valid
  obtain ⟨rest, taken, valid⟩ := bind_eq_ok.mp valid
  have sumIn : total = 0 + valueSum outs := foldlM_eq_sum (fun _ _ fits => checkInt64_eq fits) added
  simp only [Int.sub_eq_add_neg] at taken
  have sumOut := foldlM_eq_sum (fun _ _ fits => checkInt64_eq fits) taken
  have negated : (utxo.out.map fun output => -output.value).sum = -valueSum utxo.out := by
    unfold valueSum
    rw [sum_neg, map_map]
    rfl
  rw [negated] at sumOut
  have positive : 0 < rest := by simpa using valid
  omega

theorem addCoin_wallet (added : w.addCoin address value = .ok w') (a : String) :
    w'.wallet a = w.wallet a + if address = a then value else 0 := by
  unfold Wallet.addCoin at added
  obtain ⟨balance, fits, added⟩ := bind_eq_ok.mp added
  cases added
  by_cases same : address = a
  · subst same
    simp [checkInt64_eq fits]
  · have different : a ≠ address := fun equal => same equal.symm
    simp [same, different]

theorem addCoins_wallet (added : w.addCoins outs = .ok w') (a : String) : w'.wallet a = w.wallet a + paidTo a outs := by
  unfold Wallet.addCoins at added
  induction outs generalizing w with
  | nil =>
    cases added
    simp [paidTo]
  | cons output outs ih =>
    rw [foldlM_cons, bind_eq_ok] at added
    obtain ⟨next, first, rest⟩ := added
    rw [ih rest, addCoin_wallet first]
    simp only [paidTo, map_cons, sum_cons]
    omega

structure Admitted (verify : VerifyString) (s : Transaction) (utxo : UTXO) (s' : Transaction)
    (inputs : List UTXOOut) (pool : TxMempool) (total : Int) : Prop where
  got : s.getInput verify utxo = .ok inputs
  enough : valueSum utxo.out < valueSum inputs
  spends : utxo.ins.foldlM Transaction.spendInput (s.txMempool, 0) = .ok (pool, total)
  pool : s'.txMempool = ⟨pool.txs ++ [utxo]⟩
  wallet : ∀ a, s'.wallet.wallet a = s.wallet.wallet a - (if utxo.address = a then total else 0) + paidTo a utxo.out

theorem addTransaction_cases (ran : s.addTransaction verify utxo = .ok (s', id)) :
    (id = -1 ∧ s' = s) ∨ (0 ≤ id ∧ ∃ inputs pool total, Admitted verify s utxo s' inputs pool total) := by
  unfold Transaction.addTransaction at ran
  split at ran
  · cases ran
    exact .inl ⟨rfl, rfl⟩
  · cases ran
  · rename_i inputs got
    obtain ⟨valid, verified, ran⟩ := bind_eq_ok.mp ran
    cases valid with
    | false =>
      cases ran
      exact .inl ⟨rfl, rfl⟩
    | true =>
      simp only [↓reduceIte] at ran
      obtain ⟨added, coins, ran⟩ := bind_eq_ok.mp ran
      unfold Transaction.addCoin at coins
      obtain ⟨⟨pool, total⟩, spends, coins⟩ := bind_eq_ok.mp coins
      dsimp only at coins
      obtain ⟨negated, fits, coins⟩ := bind_eq_ok.mp coins
      obtain ⟨paid, pays, coins⟩ := bind_eq_ok.mp coins
      obtain ⟨wallet, receives, coins⟩ := bind_eq_ok.mp coins
      cases coins
      cases ran
      refine .inr ⟨by simp [TxMempool.addUTXO], inputs, pool, total, got, verifyUTXO_enough verified, spends, rfl,
        fun a => ?_⟩
      rw [addCoins_wallet receives, addCoin_wallet pays, checkInt64_eq fits]
      split_ifs <;> omega

variable {inputs : List UTXOOut} {total : Int}

theorem Admitted.named (accepted : Admitted verify s utxo s' inputs pool total) :
    utxo.ins.map (outputAt s.txMempool) = inputs.map some := by
  rcases getInput_unlocks accepted.got with ⟨none, -, rfl⟩ | unlocks
  · rw [none]
    rfl
  · exact unlocks.named

theorem Admitted.unspent (accepted : Admitted verify s utxo s' inputs pool total) :
    ∀ output ∈ inputs, output.spent = false ∧ output.address = utxo.address := by
  rcases getInput_unlocks accepted.got with ⟨-, -, rfl⟩ | unlocks
  · simp
  · exact fun output member => ⟨unlocks.unspent output member, unlocks.owned output member⟩

theorem outputAt_append (found : outputAt pool input = some output) :
    outputAt ⟨pool.txs ++ [utxo]⟩ input = some output := by
  obtain ⟨there, inPool, inUTXO⟩ := outputAt_eq_some.mp found
  obtain ⟨natural, at'⟩ := find_eq_some.mp inPool
  have inside := (List.getElem?_eq_some_iff.mp at').1
  refine outputAt_eq_some.mpr ⟨there, find_eq_some.mpr ⟨natural, ?_⟩, inUTXO⟩
  rw [getElem?_append_left inside]
  exact at'

theorem Admitted.spent (accepted : Admitted verify s utxo s' inputs pool total) :
    (∀ input ∈ utxo.ins, MarkedSpent s'.txMempool input) ∧
      (∀ other, MarkedSpent s.txMempool other → MarkedSpent s'.txMempool other) ∧
      worthAt pool = worthAt s.txMempool := by
  have named : ∀ input ∈ utxo.ins, (outputAt s.txMempool input).isSome = true := by
    intro input member
    have inside := mem_map_of_mem (f := outputAt s.txMempool) member
    rw [accepted.named] at inside
    obtain ⟨output, -, same⟩ := mem_map.mp inside
    rw [← same]
    rfl
  obtain ⟨all, kept, values⟩ := spendInputs_spent named accepted.spends
  have appended (input : UTXOIn) (spent : MarkedSpent pool input) : MarkedSpent s'.txMempool input := by
    obtain ⟨output, found, flag⟩ := spent
    rw [accepted.pool]
    exact ⟨output, outputAt_append found, flag⟩
  exact ⟨fun input member => appended input (all input member), fun other spent => appended other (kept other spent),
    values⟩

theorem Admitted.worthOf_eq (accepted : Admitted verify s utxo s' inputs pool total) (distinct : utxo.ins.Nodup)
    (unspent : CountsUnspent worth) :
    worthOf worth s'.txMempool =
        worthOf worth s.txMempool - (inputs.map worth).sum + (utxo.out.map worth).sum ∧
      total = valueSum inputs := by
  obtain ⟨worths, totals⟩ := spendInputs_worth distinct accepted.named unspent accepted.spends
  constructor
  · rw [accepted.pool, ← worths]
    simp [worthOf]
  · simpa [valueSum] using totals

variable {genesis : List UTXO} {trace : List (Transition Transaction (UTXO × Int))}
  {t : Transition Transaction (UTXO × Int)}

def isAccepted (t : Transition Transaction (UTXO × Int)) : Prop := t.event.2 ≠ -1

instance : DecidablePred isAccepted := fun t => inferInstanceAs (Decidable (t.event.2 ≠ -1))

def consumed (trace : List (Transition Transaction (UTXO × Int))) : List UTXOIn :=
  trace.flatMap fun t => if isAccepted t then t.event.1.ins else []

def unspentValue (output : UTXOOut) : Int := if output.spent then 0 else output.value

def unspentSum (s : Transaction) : Int := worthOf unspentValue s.txMempool

theorem step_accepted {event : UTXO × Int} (step : (executing verify genesis).step s event s') :
    (event.2 = -1 ∧ s' = s) ∨ (event.2 ≠ -1 ∧ ∃ inputs pool total, Admitted verify s event.1 s' inputs pool total) := by
  rcases addTransaction_cases step with refused | ⟨natural, accepted⟩
  · exact .inl refused
  · exact .inr ⟨by omega, accepted⟩

theorem transition_accepted (run : (executing verify genesis).Run trace s) (member : t ∈ trace)
    (accepts : isAccepted t) :
    ∃ inputs pool total, Admitted verify t.before t.event.1 t.after inputs pool total := by
  obtain ⟨past, -, -, step⟩ := run.earlier member
  rcases step_accepted step with ⟨refused, -⟩ | ⟨-, accepted⟩
  · exact absurd refused accepts
  · exact accepted

theorem consumed_run (run : (executing verify genesis).Run trace s) :
    (∀ input ∈ consumed trace, MarkedSpent s.txMempool input) ∧
      ((consumed trace).Nodup ↔ ∀ t ∈ trace, isAccepted t → t.event.1.ins.Nodup) := by
  induction run with
  | initial first => exact ⟨by simp [consumed], by simp [consumed]⟩
  | @next trace s s' event earlier step ih =>
    obtain ⟨marked, distinct⟩ := ih
    rw [forall_mem_cons, ← distinct]
    rcases step_accepted step with ⟨refused, rfl⟩ | ⟨accepts, inputs, pool, total, accepted⟩
    · have same : consumed (⟨s', event, s'⟩ :: trace) = consumed trace := by
        simp [consumed, isAccepted, refused]
      rw [same]
      exact ⟨marked, by simp [isAccepted, refused]⟩
    · have more : consumed (⟨s, event, s'⟩ :: trace) = event.1.ins ++ consumed trace := by
        simp [consumed, isAccepted, accepts]
      obtain ⟨spent, kept, -⟩ := accepted.spent
      rw [more]
      constructor
      · intro input member
        rcases mem_append.mp member with new | old
        · exact spent input new
        · exact kept input (marked input old)
      · rw [nodup_append']
        have apart : event.1.ins.Disjoint (consumed trace) := by
          intro input new old
          obtain ⟨output, found, flag⟩ := marked input old
          have inside := mem_map_of_mem (f := outputAt s.txMempool) new
          rw [accepted.named, found] at inside
          obtain ⟨there, listed, same⟩ := mem_map.mp inside
          cases same
          cases flag.symm.trans (accepted.unspent _ listed).1
        constructor
        · exact fun nodup => ⟨fun _ => nodup.1, nodup.2.1⟩
        · exact fun both => ⟨both.1 accepts, both.2, apart⟩

theorem sum_unspentValue_eq (unspent : ∀ output ∈ outs, output.spent = false) :
    (outs.map unspentValue).sum = valueSum outs := by
  refine congrArg List.sum (map_congr_left fun output member => ?_)
  simp [unspentValue, unspent output member]

theorem sum_unspentValue_le (natural : ∀ output ∈ outs, output.spent = true → 0 ≤ output.value) :
    (outs.map unspentValue).sum ≤ valueSum outs := by
  refine sum_le_sum fun output member => ?_
  unfold unspentValue
  split
  · rename_i spent
    exact natural output member spent
  · exact le_rfl

theorem executingAct_sound (verify : VerifyString) (genesis : List UTXO) (s : Transaction) (event : UTXO × Int)
    (s' : Transaction) (moved : executingAct verify s event = some s') :
    (executing verify genesis).step s event s' := by
  unfold executingAct at moved
  change s.addTransaction verify event.1 = .ok (s', event.2)
  split at moved
  · rename_i after ret ran
    split at moved
    · rename_i same
      cases moved
      rw [ran, same]
    · cases moved
  · cases moved

def tagVerify : VerifyString := fun message key sig => sig = key ++ "|" ++ message

def coin (address : String) (value : Int) (key : String) : UTXOOut :=
  { address := address, value := value, pubKey := key }

def oneCoin : List UTXO := [{ out := [coin "a" 10 "k"] }]

def startOf (genesis : List UTXO) : Transaction := (Transaction.create genesis).toOption.getD {}

theorem exists_run_of_calls (genesis : List UTXO) (created : (Transaction.create genesis).toOption.isSome = true)
    (calls : List (UTXO × Int)) (goal : List (Transition Transaction (UTXO × Int)) → Transaction → Prop)
    [∀ trace last, Decidable (goal trace last)] (checked : ((System.play (executingAct tagVerify)
      ([], startOf genesis) calls).any fun p => decide (goal p.1 p.2)) = true) :
    ∃ trace last, (executing tagVerify genesis).Run trace last ∧ goal trace last := by
  refine System.run_of_play (executingAct_sound tagVerify genesis) ?_ calls goal checked
  obtain ⟨first, starts⟩ := Option.isSome_iff_exists.mp created
  change Transaction.create genesis = .ok (startOf genesis)
  rw [startOf, starts]
  exact eq_ok_of_toOption starts

def spendOnce : UTXO := { ins := [⟨0, 0⟩], out := [coin "b" 9 "l"], sig := "k|a0", address := "a" }

def spendTwice : UTXO := { ins := [⟨0, 0⟩, ⟨0, 0⟩], out := [coin "b" 19 "l"], sig := "k|a0", address := "a" }

def spentDebt : UTXO :=
  { ins := [⟨0, 0⟩], out := [{ value := -100, spent := true }, coin "b" 105 "l"], sig := "k|a0", address := "a" }

def balanceOf (a : String) (output : UTXOOut) : Int :=
  if output.spent then 0 else if output.address = a then output.value else 0

def BooksAgree (s : Transaction) : Prop := ∀ a, s.wallet.getCoin a = worthOf (balanceOf a) s.txMempool

theorem sum_balanceOf_eq (a : String) (unspent : ∀ output ∈ outs, output.spent = false) :
    (outs.map (balanceOf a)).sum = paidTo a outs := by
  refine congrArg List.sum (map_congr_left fun output member => ?_)
  simp [balanceOf, unspent output member]

theorem paidTo_owned {a : String} (owned : ∀ output ∈ outs, output.address = address) :
    paidTo a outs = if address = a then valueSum outs else 0 := by
  unfold paidTo valueSum
  split_ifs with same
  · refine congrArg List.sum (map_congr_left fun output member => ?_)
    rw [if_pos ((owned output member).trans same)]
  · refine sum_eq_zero fun value member => ?_
    obtain ⟨output, listed, rfl⟩ := mem_map.mp member
    rw [if_neg fun paid => same ((owned output listed).symm.trans paid)]

theorem Admitted.agrees (accepted : Admitted verify s utxo s' inputs pool total) (distinct : utxo.ins.Nodup)
    (unspent : ∀ output ∈ utxo.out, output.spent = false) (agrees : BooksAgree s) : BooksAgree s' := by
  intro a
  have counts : CountsUnspent (balanceOf a) := fun output spent => by simp [balanceOf, spent]
  obtain ⟨worths, totals⟩ := accepted.worthOf_eq distinct counts
  have taken : (inputs.map (balanceOf a)).sum = if utxo.address = a then total else 0 := by
    rw [sum_balanceOf_eq a fun output member => (accepted.unspent output member).1,
      paidTo_owned fun output member => (accepted.unspent output member).2, totals]
  rw [Wallet.getCoin, accepted.wallet, worths, taken, sum_balanceOf_eq a unspent]
  exact congrArg (fun balance => balance - _ + _) (agrees a)

theorem addGenesis_agrees (unspent : ∀ output ∈ utxo.out, output.spent = false) (agrees : BooksAgree s)
    (ran : s.addGenesis utxo = .ok s') : BooksAgree s' := by
  unfold Transaction.addGenesis at ran
  obtain ⟨wallet, added, ran⟩ := bind_eq_ok.mp ran
  cases ran
  intro a
  have before := agrees a
  have paid := addCoins_wallet added a
  have worths : worthOf (balanceOf a) (s.txMempool.addUTXO utxo).1 =
      worthOf (balanceOf a) s.txMempool + paidTo a utxo.out := by
    rw [← sum_balanceOf_eq a unspent]
    simp [worthOf, TxMempool.addUTXO]
  rw [worths, ← before]
  exact paid

def sentAsSpent : UTXO :=
  { ins := [⟨0, 0⟩], out := [{ address := "b", value := 9, spent := true }], sig := "k|a0", address := "a" }

section Listing

variable {t t' : TxTable} {call : TxCall} {calls : List (Transition TxTable (TxCall × Int))} {ret : Int}

structure Represents (t : TxTable) (pool : TxMempool) : Prop where
  next : t.id = pool.txs.length
  found : ∀ id, t.txs.find? id = pool.find id

theorem Represents.addUTXO (represents : Represents t pool) (utxo : UTXO) :
    Represents (t.addUTXO utxo).1 (pool.addUTXO utxo).1 := by
  refine ⟨by simp [TxTable.addUTXO, TxMempool.addUTXO, represents.next], fun other => ?_⟩
  rw [TxTable.addUTXO, OrderedMap.find?_assign, represents.next, represents.found]
  unfold TxMempool.addUTXO TxMempool.find
  grind

theorem Represents.markSpend (represents : Represents t pool) (marked : t.markSpend id index = .ok (t', ret)) :
    ∃ pool', pool.markSpend id index = .ok (pool', ret) ∧ Represents t' pool' ∧ pool'.txs.length = pool.txs.length := by
  unfold TxTable.markSpend at marked
  unfold TxMempool.markSpend
  rw [represents.found] at marked
  cases found : pool.find id with
  | none =>
    simp only [found] at marked
    cases marked
    exact ⟨pool, rfl, represents, rfl⟩
  | some utxo =>
    simp only [found] at marked ⊢
    by_cases beyond : (utxo.out.length : Int) ≤ index
    · rw [if_pos beyond] at marked ⊢
      cases marked
      exact ⟨pool, rfl, represents, rfl⟩
    rw [if_neg beyond] at marked ⊢
    cases there : utxo.outAt index with
    | none => simp [there] at marked
    | some output =>
      simp only [there] at marked ⊢
      cases marked
      refine ⟨_, rfl, ⟨represents.next.trans (by simp), fun other => ?_⟩, by simp⟩
      obtain ⟨natural, stored⟩ := find_eq_some.mp found
      have inside := (List.getElem?_eq_some_iff.mp stored).1
      rw [OrderedMap.find?_assign, represents.found]
      unfold TxMempool.find
      grind

def idIn (t : Transition TxTable (TxCall × Int)) : List Int :=
  match t.event.1 with
  | .addUTXO _ => [t.event.2]
  | .markSpend .. => []

theorem collect_eq (represents : Represents t pool) (num : Nat) {n : Nat} (inside : n ≤ pool.txs.length) :
    t.collect ((n : Int) - 1) num =
      (((pool.txs.zipIdx.take n).drop (n - num)).map fun entry => ((entry.2 : Int), entry.1)).reverse := by
  induction num generalizing n with
  | zero => simp [TxTable.collect]
  | succ num ih =>
    rw [TxTable.collect, represents.found]
    cases n with
    | zero => simp [TxMempool.find]
    | succ n =>
      have there : pool.find ((n + 1 : Nat) - 1 : Int) = some pool.txs[n] := find_eq_some.mpr ⟨by omega, by simp⟩
      have taken : pool.txs.zipIdx.take (n + 1) = pool.txs.zipIdx.take n ++ [(pool.txs[n], n)] := by
        rw [take_succ_eq_append_getElem (by rwa [length_zipIdx])]
        simp
      rw [there, taken, drop_append_of_le_length (by simp; omega)]
      dsimp only
      rw [show ((n + 1 : Nat) : Int) - 1 - 1 = (n : Int) - 1 by omega, ih (by omega)]
      simp

def listed (pool : TxMempool) (endIdx num : Int) : List (Int × UTXO) :=
  let count := if endIdx = -1 then pool.txs.length else (endIdx + 1).toNat
  ((pool.txs.zipIdx.take count).drop (count - num.toNat)).map fun entry => ((entry.2 : Int), entry.1)

theorem mempool_listed_iff (run : mempool.Run calls t) : ∃ pool, Represents t pool ∧
    System.history idIn calls = (range pool.txs.length).map Int.ofNat ∧
    ∀ endIdx num : Int, -1 ≤ endIdx → endIdx < pool.txs.length →
      (t.getUTXO endIdx num = .ok (listed pool endIdx num) ↔ pool.txs ≠ []) := by
  have counted : ∃ pool, Represents t pool ∧ System.history idIn calls = (range pool.txs.length).map Int.ofNat := by
    induction run with
    | initial first =>
      cases first
      exact ⟨{}, ⟨rfl, fun id => by simp [TxMempool.find]⟩, rfl⟩
    | next earlier step ih =>
      rename_i before after event
      obtain ⟨call, ret⟩ := event
      obtain ⟨pool, represents, ids⟩ := ih
      rw [System.history_cons, ids]
      cases call with
      | addUTXO utxo =>
        cases step
        exact ⟨_, represents.addUTXO utxo, by simp [idIn, TxMempool.addUTXO, range_succ, represents.next]⟩
      | markSpend id outIdx =>
        obtain ⟨pool', -, kept, same⟩ := represents.markSpend step
        exact ⟨pool', kept, by simp [idIn, same]⟩
  obtain ⟨pool, represents, ids⟩ := counted
  refine ⟨pool, represents, ids, fun endIdx num low high => ?_⟩
  unfold TxTable.getUTXO listed
  by_cases default : endIdx = -1
  · rw [if_pos default, if_pos default]
    cases last : t.txs.last? with
    | none =>
      have absent := OrderedMap.last?_eq_none.mp last 0
      rw [represents.found, TxMempool.find] at absent
      simp_all [bind, Except.bind]
    | some entry =>
      obtain ⟨stored, greatest⟩ := OrderedMap.last?_eq_some last
      obtain ⟨natural, there⟩ := find_eq_some.mp ((represents.found _).symm.trans stored)
      have inside := (List.getElem?_eq_some_iff.mp there).1
      have highest := greatest (pool.txs.length - 1 : Int) (pool.txs[pool.txs.length - 1]) (by
        rw [represents.found, find_eq_some]
        exact ⟨by omega, by simp [show ((pool.txs.length : Int) - 1).toNat = pool.txs.length - 1 by omega]⟩)
      have same : entry.1 = (pool.txs.length : Int) - 1 := by omega
      refine iff_of_true ?_ (ne_nil_of_length_pos (by omega))
      rw [Option.elim_some, same]
      exact congrArg Except.ok (by rw [collect_eq represents _ le_rfl, reverse_reverse])
  · obtain ⟨n, same⟩ : ∃ n : Nat, endIdx = (n : Int) - 1 := ⟨(endIdx + 1).toNat, by omega⟩
    refine iff_of_true ?_ (ne_nil_of_length_pos (by omega))
    rw [if_neg default, if_neg default, same]
    refine congrArg Except.ok ?_
    rw [collect_eq represents _ (by omega), reverse_reverse, show ((n : Int) - 1 + 1).toNat = n by omega]

theorem oneCoin_listed : ∃ calls t pool, mempool.Run calls t ∧ Represents t pool ∧ pool.txs ≠ [] ∧
    t.getUTXO (-1) 1 = .ok (listed pool (-1) 1) := by
  have run : mempool.Run _ _ := .next (.initial rfl) (rfl : mempool.step {} (.addUTXO {}, 0) _)
  obtain ⟨pool, represents, ids, listing⟩ := mempool_listed_iff run
  have some : pool.txs ≠ [] := fun empty => by simp [empty, idIn] at ids
  exact ⟨_, _, pool, run, represents, some, (listing (-1) 1 (by omega) (by omega)).mpr some⟩

theorem empty_mempool_faults : mempool.Run [] {} ∧ TxTable.getUTXO {} (-1) 1 = .error .outOfRange := ⟨.initial rfl, rfl⟩

end Listing

end ResilientDB.Proof
