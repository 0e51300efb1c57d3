import DigitalLedger.Lib.Trace
import DigitalLedger.Floating
import DigitalLedger.Ledger

/-!
# Ledgers of numbers

Where every amount is a number, the operations on whatever a float may hold are the operations
on numbers of the other modules: they answer the same and leave the same store.

## Main definitions

* `ofCustomer`, `ofTransaction`, `ofStore`, `ofCall` — a ledger of numbers, and a call with
  numbers, as such.

## Main results

* `scoringRules_ofTransaction` — the two scorings agree.
* `addTransaction_num`, `editTransaction_num`, `deleteTransaction_num`, `deleteCustomer_num` —
  and so do the operations.
* `after_ofStore` — a run of calls with numbers is a run of the other modules.
-/

namespace DigitalLedger

namespace Floating

open Prog Collection Extended

/-! ### Documents -/

def ofCustomer (c : DigitalLedger.Customer) : Customer where
  id := c.id
  merchantId := c.merchantId
  name := c.name
  balance := num c.balance
  totalCredit := num c.totalCredit
  totalPaid := num c.totalPaid
  creditScore := c.creditScore
  riskCategory := c.riskCategory
  lastTransaction := c.lastTransaction

def ofTransaction (t : DigitalLedger.Transaction) : Transaction where
  id := t.id
  merchantId := t.merchantId
  customerId := t.customerId
  customerName := t.customerName
  type := t.type
  amount := num t.amount
  note := t.note
  date := t.date
  edited := t.edited
  editedAt := t.editedAt

def ofTotals (δ : DigitalLedger.Totals) : Totals :=
  ⟨num δ.balance, num δ.totalCredit, num δ.totalPaid⟩

theorem key_ofCustomer (c : DigitalLedger.Customer) : key (ofCustomer c) = key c := rfl

theorem key_ofTransaction (t : DigitalLedger.Transaction) : key (ofTransaction t) = key t := rfl

def ofStore (s : DigitalLedger.Store) : Store where
  customers := s.customers.image key_ofCustomer
  transactions := s.transactions.image key_ofTransaction

theorem test_ofCustomer (oid : ObjectId) (m : Option String) (c : DigitalLedger.Customer) :
    test (⟨oid, m⟩ : CustomerQuery) (ofCustomer c) =
      test ({ id := some oid, merchantId := m } : DigitalLedger.CustomerQuery) c := by
  change (oid == c.id && m.all (· == c.merchantId)) =
    (oid == c.id && m.all (· == c.merchantId) && true && true)
  rw [Bool.and_true, Bool.and_true]

theorem test_ofTransaction (q : TransactionQuery) (t : DigitalLedger.Transaction) :
    test q (ofTransaction t) = test q t := rfl

section Finds

variable (s : DigitalLedger.Store) (oid : ObjectId)

theorem findOne_customers (m : Option String) :
    (ofStore s).customers.findOne ⟨oid, m⟩ =
      (s.customers.findOne { id := some oid, merchantId := m }).map ofCustomer :=
  findOne_image key_ofCustomer (test_ofCustomer oid m) _

theorem findOne_transactions (q : TransactionQuery) :
    (ofStore s).transactions.findOne q = (s.transactions.findOne q).map ofTransaction :=
  findOne_image key_ofTransaction (test_ofTransaction q) _

end Finds

/-! ### The scoring -/

theorem ofType_ofTransaction (type : TxnType) (txns : List DigitalLedger.Transaction) :
    ofType type (txns.map ofTransaction) = (DigitalLedger.ofType type txns).map ofTransaction :=
  List.filter_map

theorem sumAmounts_ofTransaction (txns : List DigitalLedger.Transaction) :
    sumAmounts (txns.map ofTransaction) = num (DigitalLedger.sumAmounts txns) := by
  rw [sumAmounts, List.map_map]
  exact sum_map_num (fun t => t.amount) txns

theorem paymentRatioPoints_num (totalCredit totalPaid : ℚ) :
    paymentRatioPoints (num totalCredit) (num totalPaid) =
      DigitalLedger.paymentRatioPoints totalCredit totalPaid := by
  simp only [paymentRatioPoints, ratioBand, num_div_num, gt_iff_lt, ge_iff_le, pos_num, num_le_num,
    DigitalLedger.paymentRatioPoints, DigitalLedger.ratioBand]

theorem balancePoints_num (balance : ℚ) :
    balancePoints (num balance) = DigitalLedger.balancePoints balance := by
  simp only [balancePoints, nonpos_num, num_le_num, DigitalLedger.balancePoints]

theorem overdueCount_unpriced (txns : List DigitalLedger.Transaction) (now : Time) :
    overdueCount ((txns.map ofTransaction).map Transaction.unpriced) now =
      overdueCount txns now := by
  rw [overdueCount, List.map_map, List.countP_map]
  rfl

theorem recencyPoints_unpriced (txns : List DigitalLedger.Transaction) (now : Time) :
    recencyPoints ((txns.map ofTransaction).map Transaction.unpriced) now =
      recencyPoints txns now := by
  rw [recencyPoints, List.map_map, List.getLast?_map, recencyPoints]
  cases txns.getLast? with
  | none => rfl
  | some t => rfl

/-- **The two scorings agree.** -/
theorem scoringRules_ofTransaction (txns : List DigitalLedger.Transaction) (balance : ℚ)
    (now : Time) :
    scoringRules (txns.map ofTransaction) (num balance) now =
      DigitalLedger.scoringRules txns balance now := by
  have hscore : creditScore (txns.map ofTransaction) (num balance) now =
      DigitalLedger.creditScore txns balance now := by
    simp only [creditScore, ofType_ofTransaction, sumAmounts_ofTransaction, paymentRatioPoints_num,
      balancePoints_num, overdueCount_unpriced, recencyPoints_unpriced, List.length_map,
      DigitalLedger.creditScore]
  rw [scoringRules, hscore, List.isEmpty_map, DigitalLedger.scoringRules]

theorem sortByDate_ofTransaction (txns : List DigitalLedger.Transaction) :
    sortByDate (txns.map ofTransaction) = (DigitalLedger.sortByDate txns).map ofTransaction :=
  (List.map_insertionSort _ _ ofTransaction txns fun _ _ _ _ => Iff.rfl).symm

theorem scoredTransactions_ofStore (cid : String) (s : DigitalLedger.Store) :
    (ofStore s).scoredTransactions cid = (s.scoredTransactions cid).map ofTransaction := by
  have hfind : (ofStore s).transactions.find { customerId := some cid } =
      (s.transactions.find { customerId := some cid }).map ofTransaction :=
    find_image key_ofTransaction (test_ofTransaction _) _
  rw [Store.scoredTransactions, hfind, sortByDate_ofTransaction,
    DigitalLedger.Store.scoredTransactions]

/-! ### Changes of the store -/

section Changes

variable (s : DigitalLedger.Store) (oid : ObjectId)

theorem incCustomer_ofStore (δ : DigitalLedger.Totals) (last : Option Time) :
    (ofStore s).incCustomer oid (ofTotals δ) last = ofStore (s.incCustomer oid δ last) := by
  have hC : (ofStore s).customers.updateOne ⟨oid, none⟩
      { inc := ofTotals δ, lastTransaction := last } =
      (s.incCustomer oid δ last).customers.image key_ofCustomer :=
    updateOne_image _ (test_ofCustomer oid none) _ fun _ => rfl
  exact congrArg (fun C => { ofStore s with customers := C }) hC

theorem setScore_ofStore (pair : ℤ × RiskCategory) :
    (ofStore s).setScore oid pair = ofStore (s.setScore oid pair) := by
  have hC : (ofStore s).customers.updateOne ⟨oid, none⟩
      { creditScore := some pair.1, riskCategory := some pair.2 } =
      (s.setScore oid pair).customers.image key_ofCustomer :=
    updateOne_image _ (test_ofCustomer oid none) _ fun _ => rfl
  exact congrArg (fun C => { ofStore s with customers := C }) hC

theorem setTransaction_ofStore (u : DigitalLedger.TransactionUpdate) :
    (ofStore s).setTransaction oid ⟨num u.amount, u.note, u.edited, u.editedAt⟩ =
      ofStore (s.setTransaction oid u) := by
  have hT : (ofStore s).transactions.updateOne { id := some oid }
      ⟨num u.amount, u.note, u.edited, u.editedAt⟩ =
      (s.setTransaction oid u).transactions.image key_ofTransaction :=
    updateOne_image _ (test_ofTransaction _) _ fun _ => rfl
  exact congrArg (fun T => { ofStore s with transactions := T }) hT

theorem removeTransaction_ofStore :
    (ofStore s).removeTransaction oid = ofStore (s.removeTransaction oid) := by
  have hT : (ofStore s).transactions.deleteOne { id := some oid } =
      (s.removeTransaction oid).transactions.image key_ofTransaction :=
    deleteOne_image _ (test_ofTransaction _) _
  exact congrArg (fun T => { ofStore s with transactions := T }) hT

theorem rescore_ofStore (now : Time) (cid : String) :
    (ofStore s).rescore now cid oid = ofStore (s.rescore now cid oid) := by
  rw [Store.rescore, findOne_customers, DigitalLedger.Store.rescore]
  cases s.customers.findOne { id := some oid } with
  | none => rfl
  | some c =>
    change (ofStore s).setScore oid (scoringRules _ (num c.balance) now) = _
    rw [scoredTransactions_ofStore, scoringRules_ofTransaction, setScore_ofStore]

end Changes

/-! ### The operations -/

theorem effect_num (type : TxnType) (amount : ℚ) :
    effect type (num amount) = ofTotals (type.effect amount) := by
  cases type with
  | credit => rfl
  | payment => rfl

section Operations

variable (s : DigitalLedger.Store)

/-- The figures move, and the customer is scored, as on numbers. -/
theorem conclude_ofStore (oid : ObjectId) (type : TxnType) (amount : ℚ) (last : Option Time)
    (now : Time) (cid : String) :
    ((ofStore s).incCustomer oid (effect type (num amount)) last).rescore now cid oid =
      ofStore ((s.incCustomer oid (type.effect amount) last).rescore now cid oid) := by
  rw [effect_num, incCustomer_ofStore, rescore_ofStore]

theorem addTransaction_num (env : Env) (m cid txnType : String) (amount : ℚ) (note : String) :
    run exec (addTransaction env m cid txnType (num amount) note) (ofStore s) =
      let r := run DigitalLedger.exec
        (DigitalLedger.addTransaction env m cid txnType amount note) s
      (r.1.map fun reply => reply.map num, ofStore r.2) := by
  rw [run_addTransaction, DigitalLedger.run_addTransaction]
  by_cases hamount : amount ≤ 0
  · rw [if_pos (nonpos_num.mpr hamount), if_pos hamount]
    rfl
  rw [if_neg (fun h => hamount (nonpos_num.mp h)), if_neg hamount]
  cases TxnType.ofString? txnType with
  | none => rfl
  | some type =>
    dsimp only
    cases ObjectId.ofString? cid with
    | none => rfl
    | some oid =>
      dsimp only
      rw [findOne_customers]
      cases s.customers.findOne { id := some oid, merchantId := some m } with
      | none => rfl
      | some customer =>
        have hinsert : (ofStore s).transactions.insertOne
            (newTransaction env m cid (ofCustomer customer) type (num amount) note) =
            (s.transactions.insertOne
              (DigitalLedger.newTransaction env m cid customer type amount note)).map
              (image key_ofTransaction) :=
          insertOne_image key_ofTransaction s.transactions
            (DigitalLedger.newTransaction env m cid customer type amount note)
        dsimp only [Option.map_some]
        rw [hinsert]
        cases s.transactions.insertOne
            (DigitalLedger.newTransaction env m cid customer type amount note) with
        | none => rfl
        | some T =>
          have hdone := conclude_ofStore { s with transactions := T } oid type amount
            (some (env.utcnow 1)) (env.utcnow 2) cid
          change Store.rescore (env.utcnow 2) cid oid
            (Store.incCustomer oid _ _ { ofStore s with
              transactions := image key_ofTransaction T }) = _ at hdone
          dsimp only [Option.map_some]
          rw [hdone, findOne_customers]
          generalize DigitalLedger.Store.rescore _ _ _ _ = s'
          cases s'.customers.findOne { id := some oid } with
          | none => rfl
          | some updated => rfl

theorem editTransaction_num (env : Env) (tid m : String) (amount : ℚ) (note : String) :
    run exec (editTransaction env tid m (num amount) note) (ofStore s) =
      let r := run DigitalLedger.exec (DigitalLedger.editTransaction env tid m amount note) s
      (r.1, ofStore r.2) := by
  rw [run_editTransaction, DigitalLedger.run_editTransaction]
  cases ObjectId.ofString? tid with
  | none => rfl
  | some oid =>
    dsimp only
    rw [findOne_transactions]
    cases s.transactions.findOne { id := some oid, merchantId := some m } with
    | none => rfl
    | some t =>
      have hset := setTransaction_ofStore s oid ⟨amount, note, true, env.utcnow 0⟩
      dsimp only [Option.map_some]
      rw [show (ofTransaction t).customerId = t.customerId from rfl, hset]
      cases ObjectId.ofString? t.customerId with
      | none => rfl
      | some coid =>
        have hδ : effect t.type (num amount - num t.amount) =
            ofTotals (t.type.effect amount - t.effect) := by
          rw [num_sub_num, effect_num, TransactionDoc.effect, TxnType.effect_sub]
        dsimp only
        rw [show effect (ofTransaction t).type (num amount - (ofTransaction t).amount) = _ from hδ,
          incCustomer_ofStore, rescore_ofStore]

theorem deleteTransaction_num (env : Env) (tid m : String) :
    run exec (deleteTransaction env tid m) (ofStore s) =
      let r := run DigitalLedger.exec (DigitalLedger.deleteTransaction env tid m) s
      (r.1, ofStore r.2) := by
  rw [run_deleteTransaction, DigitalLedger.run_deleteTransaction]
  cases ObjectId.ofString? tid with
  | none => rfl
  | some oid =>
    dsimp only
    rw [findOne_transactions]
    cases s.transactions.findOne { id := some oid, merchantId := some m } with
    | none => rfl
    | some t =>
      dsimp only [Option.map_some]
      rw [show (ofTransaction t).customerId = t.customerId from rfl, removeTransaction_ofStore]
      cases ObjectId.ofString? t.customerId with
      | none => rfl
      | some coid =>
        have hδ : effect t.type (-num t.amount) = ofTotals (-t.effect) := by
          rw [neg_num, effect_num, TransactionDoc.effect, TxnType.effect_neg]
        dsimp only
        rw [show effect (ofTransaction t).type (-(ofTransaction t).amount) = _ from hδ,
          incCustomer_ofStore, rescore_ofStore]

theorem deleteCustomer_num (cid m : String) :
    run exec (deleteCustomer cid m) (ofStore s) =
      let r := run DigitalLedger.exec (DigitalLedger.deleteCustomer cid m) s
      (r.1, ofStore r.2) := by
  rw [run_deleteCustomer, DigitalLedger.run_deleteCustomer]
  cases ObjectId.ofString? cid with
  | none => rfl
  | some oid =>
    dsimp only
    rw [findOne_customers]
    cases s.customers.findOne { id := some oid, merchantId := some m } with
    | none => rfl
    | some c =>
      have hC : (ofStore s).customers.deleteOne ⟨oid, some m⟩ = _ :=
        deleteOne_image key_ofCustomer (test_ofCustomer oid (some m)) s.customers
      have hT : (ofStore s).transactions.deleteMany { customerId := some cid } = _ :=
        deleteMany_image key_ofTransaction (test_ofTransaction _) s.transactions
      dsimp only [Option.map_some]
      rw [hC, hT]
      rfl

end Operations

/-! ### Runs -/

/-- A call of an operation on money, with its numbers. -/
def ofCall : DigitalLedger.Call → Option Call
  | .addTransaction env m cid txnType amount note =>
    some (.addTransaction env m cid txnType (num amount) note)
  | .editTransaction env tid m amount note =>
    some (.editTransaction env tid m (num amount) note)
  | .deleteTransaction env tid m => some (.deleteTransaction env tid m)
  | .deleteCustomer cid m => some (.deleteCustomer cid m)
  | _ => none

theorem step_ofStore (bcrypt : Bcrypt) (s : DigitalLedger.Store) {call : DigitalLedger.Call}
    {call' : Call} (hcall : ofCall call = some call') :
    call'.step (ofStore s) = ofStore (call.exec bcrypt s).2 := by
  cases call with
  | addTransaction env m cid txnType amount note =>
    obtain rfl := Option.some.inj hcall
    rw [Call.step, Call.exec, Call.code, run_map, addTransaction_num, DigitalLedger.Call.exec,
      DigitalLedger.Call.code, run_map]
  | editTransaction env tid m amount note =>
    obtain rfl := Option.some.inj hcall
    rw [Call.step, Call.exec, Call.code, run_map, editTransaction_num, DigitalLedger.Call.exec,
      DigitalLedger.Call.code, run_map]
  | deleteTransaction env tid m =>
    obtain rfl := Option.some.inj hcall
    rw [Call.step, Call.exec, Call.code, run_map, deleteTransaction_num, DigitalLedger.Call.exec,
      DigitalLedger.Call.code, run_map]
  | deleteCustomer cid m =>
    obtain rfl := Option.some.inj hcall
    rw [Call.step, Call.exec, Call.code, run_map, deleteCustomer_num, DigitalLedger.Call.exec,
      DigitalLedger.Call.code, run_map]
  | addCustomer env m name phone address pin => exact absurd hcall (by simp [ofCall])
  | updateCustomerPin env cid m pin => exact absurd hcall (by simp [ofCall])
  | computeCreditScore env m cid => exact absurd hcall (by simp [ofCall])
  | importCustomersFromExcel env m file => exact absurd hcall (by simp [ofCall])

/-- **A run of calls with numbers is a run of the other modules.** -/
theorem after_ofStore (bcrypt : Bcrypt) {calls : List DigitalLedger.Call} {calls' : List Call}
    (hcalls : calls.map ofCall = calls'.map some) (s : DigitalLedger.Store) :
    Trace.after Call.step (ofStore s) calls' = ofStore (execAll bcrypt calls s) := by
  induction calls generalizing s calls' with
  | nil =>
    obtain rfl := List.map_eq_nil_iff.mp hcalls.symm
    rfl
  | cons call calls ih =>
    obtain ⟨call', rest, rfl, hcall, hrest⟩ := List.map_eq_cons_iff.mp hcalls.symm
    rw [Trace.after_cons, step_ofStore bcrypt s hcall.symm]
    exact ih hrest.symm _

end Floating

end DigitalLedger
