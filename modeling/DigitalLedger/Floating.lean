import DigitalLedger.Lib.Extended
import DigitalLedger.Runs

/-!
# Amounts that are no numbers

The amounts of `transactions.py` are floats, and a float need not be a number: it may be
infinite or `nan`, and `nan <= 0` is false.  The other modules take every amount for a number;
here the operations on money are given once more for whatever a float may hold, with the
documents and the fields they use.

## Main definitions

* `Amount` — an exact number, an infinity, or `nan`.
* `Customer`, `Transaction`, `Store`, `exec`, `Db` — the database.
* `computeCreditScore`, `addTransaction`, `editTransaction`, `deleteTransaction`,
  `deleteCustomer` — the operations.
* `Call`, `Call.exec` — their calls, made one after the other.

## Main results

* `run_addTransaction`, `run_editTransaction`, `run_deleteTransaction`, `run_deleteCustomer` —
  what each operation does to the store.
-/

namespace DigitalLedger

namespace Floating

open Prog

/-- What an argument or a field may hold for an amount. -/
abbrev Amount := Extended ℚ

open Extended

/-! ### The database -/

/-- The running figures of a customer, as `$inc` adds to them. -/
structure Totals where
  balance : Amount
  totalCredit : Amount
  totalPaid : Amount

/-- The fields of a document of `customers` that the operations on money use. -/
structure Customer where
  id : ObjectId
  merchantId : String
  name : String
  balance : Amount
  totalCredit : Amount
  totalPaid : Amount
  creditScore : ℤ
  riskCategory : RiskCategory
  lastTransaction : Option Time
  deriving DecidableEq

/-- A document of `transactions`. -/
structure Transaction where
  id : ObjectId
  merchantId : String
  customerId : String
  customerName : String
  type : TxnType
  amount : Amount
  note : String
  date : Time
  edited : Bool
  editedAt : Option Time
  deriving DecidableEq

structure CustomerQuery where
  id : ObjectId
  merchantId : Option String := none

structure CustomerUpdate where
  inc : Totals := ⟨0, 0, 0⟩
  lastTransaction : Option Time := none
  creditScore : Option ℤ := none
  riskCategory : Option RiskCategory := none

structure TransactionUpdate where
  amount : Amount
  note : String
  edited : Bool
  editedAt : Time

def CustomerQuery.test (q : CustomerQuery) (c : Customer) : Bool :=
  q.id == c.id && q.merchantId.all (· == c.merchantId)

def CustomerUpdate.apply (u : CustomerUpdate) (c : Customer) : Customer :=
  { c with
    balance := c.balance + u.inc.balance
    totalCredit := c.totalCredit + u.inc.totalCredit
    totalPaid := c.totalPaid + u.inc.totalPaid
    lastTransaction := u.lastTransaction.or c.lastTransaction
    creditScore := u.creditScore.getD c.creditScore
    riskCategory := u.riskCategory.getD c.riskCategory }

/-- A filter on `transactions` looks at no amount. -/
def testTransaction (q : TransactionQuery) (t : Transaction) : Bool :=
  q.id.all (· == t.id) && q.merchantId.all (· == t.merchantId) &&
    q.customerId.all (· == t.customerId)

def TransactionUpdate.apply (u : TransactionUpdate) (t : Transaction) : Transaction :=
  { t with
    amount := u.amount
    note := u.note
    edited := u.edited
    editedAt := some u.editedAt }

instance : Document Customer ObjectId CustomerQuery CustomerUpdate where
  key := Customer.id
  test := CustomerQuery.test
  apply := CustomerUpdate.apply
  key_apply _ _ := rfl

instance : Document Transaction ObjectId TransactionQuery TransactionUpdate where
  key := Transaction.id
  test := testTransaction
  apply := TransactionUpdate.apply
  key_apply _ _ := rfl

structure Store where
  customers : Collection Customer
  transactions : Collection Transaction

inductive DbCall
  | customers (op : Op Customer CustomerQuery CustomerUpdate)
  | transactions (op : Op Transaction TransactionQuery TransactionUpdate)

@[reducible] def DbCall.Answer : DbCall → Type
  | .customers op => op.Answer
  | .transactions op => op.Answer

/-- The database: each call is one atomic step on one collection. -/
def exec : Handler DbCall DbCall.Answer Exn Store
  | .customers op, s =>
    let r := op.exec Exn.duplicateKeyError s.customers
    (r.1, { s with customers := r.2 })
  | .transactions op, s =>
    let r := op.exec Exn.duplicateKeyError s.transactions
    (r.1, { s with transactions := r.2 })

abbrev Db := Prog DbCall DbCall.Answer Exn

/-- `ObjectId(text)` -/
def objectId (text : String) : Db ObjectId :=
  match ObjectId.ofString? text with
  | some oid => .ret oid
  | none => .raise (.invalidId text)

def query (c : DbCall) : Db c.Answer := Prog.perform c

namespace CustomersCol

def findOne (q : CustomerQuery) : Db (Option Customer) := query (.customers (.findOne q))
def updateOne (q : CustomerQuery) (u : CustomerUpdate) : Db UpdateResult :=
  query (.customers (.updateOne q u))
def deleteOne (q : CustomerQuery) : Db ℕ := query (.customers (.deleteOne q))

end CustomersCol

namespace TransactionsCol

def findOne (q : TransactionQuery) : Db (Option Transaction) :=
  query (.transactions (.findOne q))
def find (q : TransactionQuery) : Db (List Transaction) := query (.transactions (.find q))
def insertOne (t : Transaction) : Db Unit := query (.transactions (.insertOne t))
def updateOne (q : TransactionQuery) (u : TransactionUpdate) : Db UpdateResult :=
  query (.transactions (.updateOne q u))
def deleteOne (q : TransactionQuery) : Db ℕ := query (.transactions (.deleteOne q))
def deleteMany (q : TransactionQuery) : Db ℕ := query (.transactions (.deleteMany q))

end TransactionsCol

/-! ### The scoring -/

/-- `.sort("date", 1)` -/
def sortByDate (txns : List Transaction) : List Transaction :=
  txns.insertionSort fun t t' => t.date ≤ t'.date

def ofType (type : TxnType) (txns : List Transaction) : List Transaction :=
  txns.filter fun t => t.type = type

/-- `sum(t["amount"] for t in txns)` -/
def sumAmounts (txns : List Transaction) : Amount := (txns.map fun t => t.amount).sum

/-- A transaction as the factors see it that look at no amount. -/
def Transaction.unpriced (t : Transaction) : DigitalLedger.Transaction where
  id := t.id
  merchantId := t.merchantId
  customerId := t.customerId
  customerName := t.customerName
  type := t.type
  amount := 0
  note := t.note
  date := t.date
  edited := t.edited
  editedAt := t.editedAt

/-- The bands of factor 1; `nan` is in none of them. -/
def ratioBand (ratio : Amount) : ℤ :=
  if ratio ≥ num 1 then 30
  else if ratio ≥ num 0.85 then 26
  else if ratio ≥ num 0.70 then 22
  else if ratio ≥ num 0.55 then 17
  else if ratio ≥ num 0.40 then 12
  else if ratio ≥ num 0.25 then 7
  else if ratio ≥ num 0.10 then 3
  else 0

/-- Factor 1. -/
def paymentRatioPoints (totalCredit totalPaid : Amount) : ℤ :=
  if totalCredit > 0 then ratioBand (totalPaid / totalCredit) else 30

/-- Factor 3. -/
def balancePoints (balance : Amount) : ℤ :=
  if balance ≤ 0 then 20
  else if balance ≤ num 500 then 18
  else if balance ≤ num 1000 then 16
  else if balance ≤ num 3000 then 13
  else if balance ≤ num 5000 then 10
  else if balance ≤ num 10000 then 7
  else if balance ≤ num 25000 then 4
  else if balance ≤ num 100000 then 2
  else 0

/-- The score of a customer who has transactions, listed in ascending order of date. -/
def creditScore (txns : List Transaction) (balance : Amount) (now : Time) : ℤ :=
  let credits := ofType .credit txns
  let payments := ofType .payment txns
  let score :=
    paymentRatioPoints (sumAmounts credits) (sumAmounts payments)
      + overduePoints (overdueCount (credits.map Transaction.unpriced) now)
      + balancePoints balance
      + frequencyPoints payments.length
      + recencyPoints (payments.map Transaction.unpriced) now
      + consistencyPoints credits.length payments.length
  max 0 (min 100 score)

def scoringRules (txns : List Transaction) (balance : Amount) (now : Time) : ℤ × RiskCategory :=
  if txns.isEmpty then (100, .excellent)
  else
    let score := creditScore txns balance now
    (score, riskCategory score)

/-! ### The operations -/

/-- `compute_credit_score` -/
def computeCreditScore (now : Time) (customerId : String) : Db (ℤ × RiskCategory) := do
  let oid ← objectId customerId
  match ← CustomersCol.findOne { id := oid } with
  | none => return (100, .lowRisk)
  | some customer =>
    let txns ← TransactionsCol.find { customerId := some customerId }
    let (score, category) := scoringRules (sortByDate txns) customer.balance now
    let _ ← CustomersCol.updateOne { id := oid }
      { creditScore := some score, riskCategory := some category }
    return (score, category)

/-- The document `add_transaction` inserts. -/
def newTransaction (env : Env) (merchantId customerId : String) (customer : Customer)
    (type : TxnType) (amount : Amount) (note : String) : Transaction where
  id := env.objectId 0
  merchantId := merchantId
  customerId := customerId
  customerName := customer.name
  type := type
  amount := amount
  note := note
  date := env.utcnow 0
  edited := false
  editedAt := none

/-- `add_transaction` -/
def addTransaction (env : Env) (merchantId customerId txnType : String) (amount : Amount)
    (note : String) : Db (Reply Amount) := do
  -- false of `nan`
  if amount ≤ 0 then
    return .failure "Amount must be positive."
  else
    match TxnType.ofString? txnType with
    | none => return .failure "Invalid transaction type."
    | some type =>
      let oid ← objectId customerId
      match ← CustomersCol.findOne { id := oid, merchantId := some merchantId } with
      | none => return .failure "Customer not found."
      | some customer =>
        TransactionsCol.insertOne
          (newTransaction env merchantId customerId customer type amount note)
        let balanceDelta := if type = .credit then amount else -amount
        let creditDelta := if type = .credit then amount else 0
        let paidDelta := if type = .payment then amount else 0
        let _ ← CustomersCol.updateOne { id := oid }
          { inc := ⟨balanceDelta, creditDelta, paidDelta⟩
            lastTransaction := some (env.utcnow 1) }
        let _ ← computeCreditScore (env.utcnow 2) customerId
        match ← CustomersCol.findOne { id := oid } with
        | none => .raise (.attributeError "NoneType" "get")
        | some updated => return .success updated.balance

/-- `edit_transaction` -/
def editTransaction (env : Env) (txnId merchantId : String) (newAmount : Amount)
    (newNote : String) : Db (Reply Unit) := do
  let oid ← objectId txnId
  match ← TransactionsCol.findOne { id := some oid, merchantId := some merchantId } with
  | none => return .failure "Transaction not found."
  | some txn =>
    let oldAmount := txn.amount
    let customerId := txn.customerId
    let (balanceDelta, creditDelta, paidDelta) :=
      if txn.type = .credit then (newAmount - oldAmount, newAmount - oldAmount, 0)
      else (-(newAmount - oldAmount), 0, newAmount - oldAmount)
    let _ ← TransactionsCol.updateOne { id := some oid }
      { amount := newAmount, note := newNote, edited := true, editedAt := env.utcnow 0 }
    let customerOid ← objectId customerId
    let _ ← CustomersCol.updateOne { id := customerOid }
      { inc := ⟨balanceDelta, creditDelta, paidDelta⟩ }
    let _ ← computeCreditScore (env.utcnow 1) customerId
    return .success ()

/-- `delete_transaction` -/
def deleteTransaction (env : Env) (txnId merchantId : String) : Db (Reply Unit) := do
  let oid ← objectId txnId
  match ← TransactionsCol.findOne { id := some oid, merchantId := some merchantId } with
  | none => return .failure "Transaction not found."
  | some txn =>
    let amount := txn.amount
    let customerId := txn.customerId
    let balanceDelta := if txn.type = .credit then -amount else amount
    let creditDelta := if txn.type = .credit then -amount else 0
    let paidDelta := if txn.type = .payment then -amount else 0
    let _ ← TransactionsCol.deleteOne { id := some oid }
    let customerOid ← objectId customerId
    let _ ← CustomersCol.updateOne { id := customerOid }
      { inc := ⟨balanceDelta, creditDelta, paidDelta⟩ }
    let _ ← computeCreditScore (env.utcnow 0) customerId
    return .success ()

/-- `delete_customer` -/
def deleteCustomer (customerId merchantId : String) : Db (Reply Unit) := do
  let oid ← objectId customerId
  let deleted ← CustomersCol.deleteOne { id := oid, merchantId := some merchantId }
  if deleted ≠ 0 then
    let _ ← TransactionsCol.deleteMany { customerId := some customerId }
    return .success ()
  else
    return .failure "Customer not found."

/-! ### Calls -/

/-- A call of one of the operations on money. -/
inductive Call
  | addTransaction (env : Env) (merchantId customerId txnType : String) (amount : Amount)
      (note : String)
  | editTransaction (env : Env) (txnId merchantId : String) (newAmount : Amount)
      (newNote : String)
  | deleteTransaction (env : Env) (txnId merchantId : String)
  | deleteCustomer (customerId merchantId : String)

inductive Outcome
  | newBalance (reply : Reply Amount)
  | done (reply : Reply Unit)

/-- The call reports success. -/
def Outcome.accepted : Except Exn Outcome → Bool
  | .ok (.newBalance (.success _)) => true
  | .ok (.done (.success _)) => true
  | _ => false

namespace Call

def code : Call → Db Outcome
  | .addTransaction env m cid type amount note =>
    Outcome.newBalance <$> Floating.addTransaction env m cid type amount note
  | .editTransaction env tid m amount note =>
    Outcome.done <$> Floating.editTransaction env tid m amount note
  | .deleteTransaction env tid m => Outcome.done <$> Floating.deleteTransaction env tid m
  | .deleteCustomer cid m => Outcome.done <$> Floating.deleteCustomer cid m

/-- A completed call: its outcome, and the store it leaves. -/
def exec (c : Call) (s : Store) : Except Exn Outcome × Store := c.code.run Floating.exec s

/-- The store it leaves. -/
def step (s : Store) (c : Call) : Store := (c.exec s).2

end Call

/-! ### What the operations do to the store -/

/-- What an amount of a given type contributes to the running figures. -/
def effect : TxnType → Amount → Totals
  | .credit, amount => ⟨amount, amount, 0⟩
  | .payment, amount => ⟨-amount, 0, amount⟩

namespace Store

/-- `$inc` on the running figures of the customer `oid`. -/
def incCustomer (oid : ObjectId) (δ : Totals) (last : Option Time) (s : Store) : Store :=
  { s with
    customers := s.customers.updateOne { id := oid } { inc := δ, lastTransaction := last } }

/-- `$set` of the score and category of the customer `oid`. -/
def setScore (oid : ObjectId) (pair : ℤ × RiskCategory) (s : Store) : Store :=
  { s with
    customers := s.customers.updateOne { id := oid }
      { creditScore := some pair.1, riskCategory := some pair.2 } }

def setTransaction (oid : ObjectId) (u : TransactionUpdate) (s : Store) : Store :=
  { s with transactions := s.transactions.updateOne { id := some oid } u }

def removeTransaction (oid : ObjectId) (s : Store) : Store :=
  { s with transactions := s.transactions.deleteOne { id := some oid } }

def scoredTransactions (cid : String) (s : Store) : List Transaction :=
  sortByDate (s.transactions.find { customerId := some cid })

/-- The change a completed `compute_credit_score` makes. -/
def rescore (now : Time) (cid : String) (oid : ObjectId) (s : Store) : Store :=
  match s.customers.findOne { id := oid } with
  | none => s
  | some c => s.setScore oid (scoringRules (s.scoredTransactions cid) c.balance now)

end Store

/-- What `edit_transaction` and `delete_transaction` do once they have written the
transaction: they move the figures of its customer by `δ` and score it. -/
def settle (cid : String) (δ : Totals) (now : Time) : Db (Reply Unit) := do
  let coid ← objectId cid
  let _ ← CustomersCol.updateOne { id := coid } { inc := δ }
  let _ ← computeCreditScore now cid
  return .success ()

/-- What `add_transaction` does once it has inserted the transaction. -/
def conclude (oid : ObjectId) (cid : String) (δ : Totals) (last now : Time) :
    Db (Reply Amount) := do
  let _ ← CustomersCol.updateOne { id := oid } { inc := δ, lastTransaction := some last }
  let _ ← computeCreditScore now cid
  match ← CustomersCol.findOne { id := oid } with
  | none => .raise (.attributeError "NoneType" "get")
  | some updated => return .success updated.balance

section Operations

variable (s : Store)

theorem run_customers_findOne (q : CustomerQuery) :
    run exec (CustomersCol.findOne q) s = (.ok (s.customers.findOne q), s) := rfl

theorem run_customers_updateOne (q : CustomerQuery) (u : CustomerUpdate) :
    run exec (CustomersCol.updateOne q u) s =
      (.ok (s.customers.updateResult q u), { s with customers := s.customers.updateOne q u }) :=
  rfl

theorem run_transactions_findOne (q : TransactionQuery) :
    run exec (TransactionsCol.findOne q) s = (.ok (s.transactions.findOne q), s) := rfl

theorem run_transactions_insertOne (t : Transaction) :
    run exec (TransactionsCol.insertOne t) s =
      match s.transactions.insertOne t with
      | some T => (.ok (), { s with transactions := T })
      | none => (.error .duplicateKeyError, s) := by
  rw [TransactionsCol.insertOne, query, run_perform, exec, Op.exec]
  cases s.transactions.insertOne t <;> rfl

theorem objectId_eq_ret {text : String} {oid : ObjectId}
    (h : ObjectId.ofString? text = some oid) : objectId text = .ret oid := by rw [objectId, h]

theorem objectId_eq_raise {text : String} (h : ObjectId.ofString? text = none) :
    objectId text = .raise (.invalidId text) := by rw [objectId, h]

theorem run_computeCreditScore (now : Time) {cid : String} {oid : ObjectId}
    (hcid : ObjectId.ofString? cid = some oid) :
    run exec (computeCreditScore now cid) s =
      (.ok (match s.customers.findOne { id := oid } with
        | none => (100, .lowRisk)
        | some c => scoringRules (s.scoredTransactions cid) c.balance now),
        s.rescore now cid oid) := by
  rw [computeCreditScore, objectId_eq_ret hcid, ret_bind, run_bind, run_customers_findOne,
    andThen_ok, Store.rescore]
  cases s.customers.findOne { id := oid } with
  | none => rfl
  | some c => rfl

theorem run_settle (cid : String) (δ : Totals) (now : Time) :
    run exec (settle cid δ now) s =
      match ObjectId.ofString? cid with
      | none => (.error (.invalidId cid), s)
      | some coid => (.ok (.success ()), (s.incCustomer coid δ none).rescore now cid coid) := by
  rw [settle]
  cases hcid : ObjectId.ofString? cid with
  | none => rw [objectId_eq_raise hcid]; rfl
  | some coid =>
    rw [objectId_eq_ret hcid, ret_bind, run_bind, run_customers_updateOne, andThen_ok, run_bind,
      run_computeCreditScore _ _ hcid]
    rfl

theorem run_conclude {cid : String} {oid : ObjectId} (hcid : ObjectId.ofString? cid = some oid)
    (δ : Totals) (last now : Time) :
    run exec (conclude oid cid δ last now) s =
      let s' := (s.incCustomer oid δ (some last)).rescore now cid oid
      match s'.customers.findOne { id := oid } with
      | none => (.error (.attributeError "NoneType" "get"), s')
      | some updated => (.ok (.success updated.balance), s') := by
  rw [conclude, run_bind, run_customers_updateOne, andThen_ok, run_bind,
    run_computeCreditScore _ _ hcid, andThen_ok, run_bind, run_customers_findOne, andThen_ok]
  dsimp only [Store.incCustomer]
  generalize Store.rescore _ _ _ _ = s'
  cases s'.customers.findOne { id := oid } with
  | none => rfl
  | some updated => rfl

/-- What is recorded is an amount that is not at most 0: a positive one, or `nan`. -/
theorem run_addTransaction (env : Env) (m cid txnType : String) (amount : Amount)
    (note : String) :
    run exec (addTransaction env m cid txnType amount note) s =
      if amount ≤ 0 then (.ok (.failure "Amount must be positive."), s)
      else
        match TxnType.ofString? txnType with
        | none => (.ok (.failure "Invalid transaction type."), s)
        | some type =>
          match ObjectId.ofString? cid with
          | none => (.error (.invalidId cid), s)
          | some oid =>
            match s.customers.findOne { id := oid, merchantId := some m } with
            | none => (.ok (.failure "Customer not found."), s)
            | some customer =>
              match s.transactions.insertOne
                  (newTransaction env m cid customer type amount note) with
              | none => (.error .duplicateKeyError, s)
              | some T =>
                let s₁ := ({ s with transactions := T } : Store)
                let s₂ := s₁.incCustomer oid (effect type amount) (some (env.utcnow 1))
                let s₃ := s₂.rescore (env.utcnow 2) cid oid
                match s₃.customers.findOne { id := oid } with
                | none => (.error (.attributeError "NoneType" "get"), s₃)
                | some updated => (.ok (.success updated.balance), s₃) := by
  rw [addTransaction]
  split
  · rfl
  cases TxnType.ofString? txnType with
  | none => rfl
  | some type =>
    cases hcid : ObjectId.ofString? cid with
    | none =>
      dsimp only
      rw [objectId_eq_raise hcid]
      rfl
    | some oid =>
      dsimp only
      rw [objectId_eq_ret hcid, ret_bind, run_bind, run_customers_findOne, andThen_ok]
      cases s.customers.findOne { id := oid, merchantId := some m } with
      | none => rfl
      | some customer =>
        dsimp only
        rw [run_bind, run_transactions_insertOne]
        cases s.transactions.insertOne (newTransaction env m cid customer type amount note) with
        | none => rfl
        | some T =>
          dsimp only
          rw [andThen_ok, ← run_conclude _ hcid]
          cases type with
          | credit => rfl
          | payment => rfl

theorem run_editTransaction (env : Env) (tid m : String) (amount : Amount) (note : String) :
    run exec (editTransaction env tid m amount note) s =
      match ObjectId.ofString? tid with
      | none => (.error (.invalidId tid), s)
      | some oid =>
        match s.transactions.findOne { id := some oid, merchantId := some m } with
        | none => (.ok (.failure "Transaction not found."), s)
        | some t =>
          let s₁ := s.setTransaction oid ⟨amount, note, true, env.utcnow 0⟩
          match ObjectId.ofString? t.customerId with
          | none => (.error (.invalidId t.customerId), s₁)
          | some coid =>
            let s₂ := s₁.incCustomer coid (effect t.type (amount - t.amount)) none
            (.ok (.success ()), s₂.rescore (env.utcnow 1) t.customerId coid) := by
  rw [editTransaction]
  cases htid : ObjectId.ofString? tid with
  | none => rw [objectId_eq_raise htid]; rfl
  | some oid =>
    dsimp only
    rw [objectId_eq_ret htid, ret_bind, run_bind, run_transactions_findOne, andThen_ok]
    cases s.transactions.findOne { id := some oid, merchantId := some m } with
    | none => rfl
    | some t =>
      dsimp only
      rw [← run_settle]
      cases t.type with
      | credit => rfl
      | payment => rfl

theorem run_deleteTransaction (env : Env) (tid m : String) :
    run exec (deleteTransaction env tid m) s =
      match ObjectId.ofString? tid with
      | none => (.error (.invalidId tid), s)
      | some oid =>
        match s.transactions.findOne { id := some oid, merchantId := some m } with
        | none => (.ok (.failure "Transaction not found."), s)
        | some t =>
          let s₁ := s.removeTransaction oid
          match ObjectId.ofString? t.customerId with
          | none => (.error (.invalidId t.customerId), s₁)
          | some coid =>
            let s₂ := s₁.incCustomer coid (effect t.type (-t.amount)) none
            (.ok (.success ()), s₂.rescore (env.utcnow 0) t.customerId coid) := by
  rw [deleteTransaction]
  cases htid : ObjectId.ofString? tid with
  | none => rw [objectId_eq_raise htid]; rfl
  | some oid =>
    dsimp only
    rw [objectId_eq_ret htid, ret_bind, run_bind, run_transactions_findOne, andThen_ok]
    cases s.transactions.findOne { id := some oid, merchantId := some m } with
    | none => rfl
    | some t =>
      dsimp only
      rw [← run_settle]
      cases t.type with
      | credit => rfl
      | payment =>
        rw [effect, Extended.neg_neg]
        rfl

theorem run_deleteCustomer (cid m : String) :
    run exec (deleteCustomer cid m) s =
      match ObjectId.ofString? cid with
      | none => (.error (.invalidId cid), s)
      | some oid =>
        match s.customers.findOne { id := oid, merchantId := some m } with
        | none => (.ok (.failure "Customer not found."), s)
        | some _ =>
          (.ok (.success ()),
            { customers := s.customers.deleteOne { id := oid, merchantId := some m }
              transactions := s.transactions.deleteMany { customerId := some cid } }) := by
  rw [deleteCustomer]
  cases hcid : ObjectId.ofString? cid with
  | none => rw [objectId_eq_raise hcid]; rfl
  | some oid =>
    have hdelete : run exec (CustomersCol.deleteOne { id := oid, merchantId := some m }) s =
        (.ok (if (s.customers.findOne { id := oid, merchantId := some m }).isSome then 1 else 0),
          { s with customers := s.customers.deleteOne { id := oid, merchantId := some m } }) := rfl
    dsimp only
    rw [objectId_eq_ret hcid, ret_bind, run_bind, hdelete, andThen_ok]
    cases hc : s.customers.findOne { id := oid, merchantId := some m } with
    | none => rw [Collection.deleteOne_of_findOne_eq_none hc]; rfl
    | some c => rfl

end Operations

end Floating

end DigitalLedger
