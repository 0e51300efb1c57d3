import DigitalLedger.Customers

/-!
# Transactions

The functions of `transactions.py`, as programs over the database.  A transaction
is written first and the running figures of its customer are moved by one `$inc`
afterwards; the customer is then scored again.

## Main definitions

* `addTransaction`, `editTransaction`, `deleteTransaction` — the three operations
  on money.
* `TransactionDoc.effect` — what a transaction contributes to the running figures.
* `getTransactions`, `getMonthlySummary` — the two readers.
-/

namespace DigitalLedger

/-! ### The effect of a transaction on the running figures -/

/-- What an amount of a given type contributes to the running figures. -/
def TxnType.effect : TxnType → ℚ → Totals
  | .credit, amount => ⟨amount, amount, 0⟩
  | .payment, amount => ⟨-amount, 0, amount⟩

/-- What a transaction contributes to the running figures of its customer. -/
def TransactionDoc.effect {ι : Type} (t : TransactionDoc ι) : Totals := t.type.effect t.amount

/-! ### The operations -/

/-- The document `add_transaction` inserts. -/
def newTransaction (env : Env) (merchantId customerId : String) (customer : Customer)
    (type : TxnType) (amount : ℚ) (note : String) : Transaction where
  id := env.objectId 0
  merchantId := merchantId
  customerId := customerId
  customerName := customer.name
  type := type
  amount := amount
  note := note
  date := env.utcnow 0
  edited := false
  editedAt := none

/-- `add_transaction` -/
def addTransaction (env : Env) (merchantId customerId txnType : String) (amount : ℚ)
    (note : String) : Db (Reply ℚ) := do
  if amount ≤ 0 then
    return .failure "Amount must be positive."
  else
    match TxnType.ofString? txnType with
    | none => return .failure "Invalid transaction type."
    | some type =>
      let oid ← objectId customerId
      match ← CustomersCol.findOne { id := some oid, merchantId := some merchantId } with
      | none => return .failure "Customer not found."
      | some customer =>
        TransactionsCol.insertOne
          (newTransaction env merchantId customerId customer type amount note)
        let balanceDelta := if type = .credit then amount else -amount
        let creditDelta := if type = .credit then amount else 0
        let paidDelta := if type = .payment then amount else 0
        let _ ← CustomersCol.updateOne { id := some oid }
          { inc := ⟨balanceDelta, creditDelta, paidDelta⟩
            lastTransaction := some (env.utcnow 1) }
        let _ ← computeCreditScore (env.utcnow 2) customerId
        match ← CustomersCol.findOne { id := some oid } with
        -- the customer was deleted meanwhile: `None` has no `get`
        | none => .raise (.attributeError "NoneType" "get")
        | some updated => return .success updated.balance

/-- `edit_transaction` -/
def editTransaction (env : Env) (txnId merchantId : String) (newAmount : ℚ)
    (newNote : String) : Db (Reply Unit) := do
  let oid ← objectId txnId
  match ← TransactionsCol.findOne { id := some oid, merchantId := some merchantId } with
  | none => return .failure "Transaction not found."
  | some txn =>
    -- the amount read here is the one that is undone below, whatever is stored by then
    let oldAmount := txn.amount
    let customerId := txn.customerId
    let (balanceDelta, creditDelta, paidDelta) :=
      if txn.type = .credit then (newAmount - oldAmount, newAmount - oldAmount, 0)
      else (-(newAmount - oldAmount), 0, newAmount - oldAmount)
    let _ ← TransactionsCol.updateOne { id := some oid }
      { amount := newAmount, note := newNote, edited := true, editedAt := env.utcnow 0 }
    let customerOid ← objectId customerId
    let _ ← CustomersCol.updateOne { id := some customerOid }
      { inc := ⟨balanceDelta, creditDelta, paidDelta⟩ }
    let _ ← computeCreditScore (env.utcnow 1) customerId
    return .success ()

/-- `delete_transaction` -/
def deleteTransaction (env : Env) (txnId merchantId : String) : Db (Reply Unit) := do
  let oid ← objectId txnId
  match ← TransactionsCol.findOne { id := some oid, merchantId := some merchantId } with
  | none => return .failure "Transaction not found."
  | some txn =>
    let amount := txn.amount
    let customerId := txn.customerId
    let balanceDelta := if txn.type = .credit then -amount else amount
    let creditDelta := if txn.type = .credit then -amount else 0
    let paidDelta := if txn.type = .payment then -amount else 0
    let _ ← TransactionsCol.deleteOne { id := some oid }
    let customerOid ← objectId customerId
    let _ ← CustomersCol.updateOne { id := some customerOid }
      { inc := ⟨balanceDelta, creditDelta, paidDelta⟩ }
    let _ ← computeCreditScore (env.utcnow 0) customerId
    return .success ()

/-! ### The readers -/

/-- `.sort("date", -1)`: descending by date, ties in the order of the collection. -/
def sortByDateDesc (txns : List Transaction) : List Transaction :=
  txns.insertionSort fun t t' => t'.date ≤ t.date

/-- `get_transactions`; neither `None` nor the empty text filters by customer. -/
def getTransactions (merchantId : String) (customerId : Option String) :
    Db (List (TransactionDoc String)) := do
  let txns ← TransactionsCol.find
    { merchantId := some merchantId, customerId := customerId.filter fun text => text ≠ "" }
  return (sortByDateDesc txns).map TransactionDoc.withStrId

/-- The civil year and month of a date, counted in the Gregorian calendar from
1 March of the year 0. -/
def civilMonth (date : Time) : ℤ × ℤ :=
  let days := date / 86400000 + 719468
  let era := days / 146097
  let dayOfEra := days % 146097
  let yearOfEra := (dayOfEra - dayOfEra / 1460 + dayOfEra / 36524 - dayOfEra / 146096) / 365
  let dayOfYear := dayOfEra - (365 * yearOfEra + yearOfEra / 4 - yearOfEra / 100)
  let monthFromMarch := (5 * dayOfYear + 2) / 153
  let month := if monthFromMarch < 10 then monthFromMarch + 3 else monthFromMarch - 9
  let year := yearOfEra + era * 400
  (if month ≤ 2 then year + 1 else year, month)

/-- `{"$year": "$date"}` -/
def yearOf (date : Time) : ℤ := (civilMonth date).1

/-- `{"$month": "$date"}` -/
def monthOf (date : Time) : ℤ := (civilMonth date).2

/-- A document `get_monthly_summary` returns. -/
structure MonthlyTotal where
  year : ℤ
  month : ℤ
  type : TxnType
  total : ℚ
  deriving DecidableEq

/-- The group of the `$group` stage a transaction falls into. -/
def groupOf (t : Transaction) : ℤ × ℤ × TxnType := (yearOf t.date, monthOf t.date, t.type)

/-- The `$group` stage: one document for each distinct year, month and type, with
the sum of the amounts. -/
def groupByMonth (txns : List Transaction) : List MonthlyTotal :=
  (txns.map groupOf).dedup.map fun g =>
    ⟨g.1, g.2.1, g.2.2, sumAmounts (txns.filter fun t => groupOf t = g)⟩

/-- `get_monthly_summary` -/
def getMonthlySummary (merchantId : String) : Db (List MonthlyTotal) := do
  let txns ← TransactionsCol.find { merchantId := some merchantId }
  return (groupByMonth txns).insertionSort fun g g' =>
    g.year < g'.year ∨ (g.year = g'.year ∧ g.month ≤ g'.month)

end DigitalLedger
