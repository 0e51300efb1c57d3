import DigitalLedger.Shape

/-!
# What each operation does to the store

Every operation of the application is a program of several calls on the database.
Executed on its own it amounts to a short sequence of changes of the store, and
this module says which: one equation for each operation, in terms of the changes
named here.  The later modules reason about completed calls through these
equations only.

## Main definitions

* `Store.incCustomer`, `Store.setScore`, `Store.setTransaction`,
  `Store.removeTransaction` — the changes the operations are made of.
* `Store.rescore` — the change a completed `compute_credit_score` makes.

## Main results

* `run_addCustomer`, `run_addTransaction`, `run_editTransaction`,
  `run_deleteTransaction`, `run_deleteCustomer`, `run_updateCustomerPin`,
  `run_computeCreditScore` — the operations, executed on their own.
-/

namespace DigitalLedger

open Prog

/-! ### Single calls -/

section Calls

variable (s : Store)

@[simp] theorem run_customers_findOne (q : CustomerQuery) :
    run exec (CustomersCol.findOne q) s = (.ok (s.customers.findOne q), s) := rfl

@[simp] theorem run_customers_find (q : CustomerQuery) :
    run exec (CustomersCol.find q) s = (.ok (s.customers.find q), s) := rfl

theorem run_customers_insertOne (c : Customer) :
    run exec (CustomersCol.insertOne c) s =
      match s.customers.insertOne c with
      | some C => (.ok (), { s with customers := C })
      | none => (.error .duplicateKeyError, s) := by
  rw [CustomersCol.insertOne, query, run_perform, exec, Op.exec]
  cases s.customers.insertOne c <;> rfl

@[simp] theorem run_customers_updateOne (q : CustomerQuery) (u : CustomerUpdate) :
    run exec (CustomersCol.updateOne q u) s =
      (.ok (s.customers.updateResult q u), { s with customers := s.customers.updateOne q u }) :=
  rfl

@[simp] theorem run_customers_deleteOne (q : CustomerQuery) :
    run exec (CustomersCol.deleteOne q) s =
      (.ok (if (s.customers.findOne q).isSome then 1 else 0),
        { s with customers := s.customers.deleteOne q }) := rfl

@[simp] theorem run_transactions_findOne (q : TransactionQuery) :
    run exec (TransactionsCol.findOne q) s = (.ok (s.transactions.findOne q), s) := rfl

@[simp] theorem run_transactions_find (q : TransactionQuery) :
    run exec (TransactionsCol.find q) s = (.ok (s.transactions.find q), s) := rfl

theorem run_transactions_insertOne (t : Transaction) :
    run exec (TransactionsCol.insertOne t) s =
      match s.transactions.insertOne t with
      | some T => (.ok (), { s with transactions := T })
      | none => (.error .duplicateKeyError, s) := by
  rw [TransactionsCol.insertOne, query, run_perform, exec, Op.exec]
  cases s.transactions.insertOne t <;> rfl

@[simp] theorem run_transactions_updateOne (q : TransactionQuery) (u : TransactionUpdate) :
    run exec (TransactionsCol.updateOne q u) s =
      (.ok (s.transactions.updateResult q u),
        { s with transactions := s.transactions.updateOne q u }) := rfl

@[simp] theorem run_transactions_deleteOne (q : TransactionQuery) :
    run exec (TransactionsCol.deleteOne q) s =
      (.ok (if (s.transactions.findOne q).isSome then 1 else 0),
        { s with transactions := s.transactions.deleteOne q }) := rfl

@[simp] theorem run_transactions_deleteMany (q : TransactionQuery) :
    run exec (TransactionsCol.deleteMany q) s =
      (.ok (s.transactions.find q).length,
        { s with transactions := s.transactions.deleteMany q }) := rfl

/-! What the database answers to each call. -/

theorem exec_customers_findOne (q : CustomerQuery) :
    exec (.customers (.findOne q)) s = (.ok (s.customers.findOne q), s) := rfl

theorem exec_customers_insertOne {c : Customer} {C : Collection Customer}
    (h : s.customers.insertOne c = some C) :
    exec (.customers (.insertOne c)) s = (.ok (), { s with customers := C }) := by
  rw [exec, Op.exec, h]

theorem exec_customers_insertOne_none {c : Customer} (h : s.customers.insertOne c = none) :
    exec (.customers (.insertOne c)) s = (.error .duplicateKeyError, s) := by
  rw [exec, Op.exec, h]

theorem exec_customers_updateOne (q : CustomerQuery) (u : CustomerUpdate) :
    exec (.customers (.updateOne q u)) s =
      (.ok (s.customers.updateResult q u), { s with customers := s.customers.updateOne q u }) :=
  rfl

theorem exec_customers_deleteOne (q : CustomerQuery) :
    exec (.customers (.deleteOne q)) s =
      (.ok (if (s.customers.findOne q).isSome then 1 else 0),
        { s with customers := s.customers.deleteOne q }) := rfl

theorem exec_transactions_findOne (q : TransactionQuery) :
    exec (.transactions (.findOne q)) s = (.ok (s.transactions.findOne q), s) := rfl

theorem exec_transactions_insertOne {t : Transaction} {T : Collection Transaction}
    (h : s.transactions.insertOne t = some T) :
    exec (.transactions (.insertOne t)) s = (.ok (), { s with transactions := T }) := by
  rw [exec, Op.exec, h]

theorem exec_transactions_insertOne_none {t : Transaction}
    (h : s.transactions.insertOne t = none) :
    exec (.transactions (.insertOne t)) s = (.error .duplicateKeyError, s) := by
  rw [exec, Op.exec, h]

theorem exec_transactions_updateOne (q : TransactionQuery) (u : TransactionUpdate) :
    exec (.transactions (.updateOne q u)) s =
      (.ok (s.transactions.updateResult q u),
        { s with transactions := s.transactions.updateOne q u }) := rfl

theorem exec_transactions_deleteOne (q : TransactionQuery) :
    exec (.transactions (.deleteOne q)) s =
      (.ok (if (s.transactions.findOne q).isSome then 1 else 0),
        { s with transactions := s.transactions.deleteOne q }) := rfl

theorem exec_transactions_deleteMany (q : TransactionQuery) :
    exec (.transactions (.deleteMany q)) s =
      (.ok (s.transactions.find q).length,
        { s with transactions := s.transactions.deleteMany q }) := rfl

end Calls

/-! ### Changes of the store -/

namespace Store

/-- `$inc` on the running figures of the customer `oid`; an `add_transaction` also
sets the date of the last transaction. -/
def incCustomer (oid : ObjectId) (δ : Totals) (last : Option Time) (s : Store) : Store :=
  { s with
    customers := s.customers.updateOne { id := some oid } { inc := δ, lastTransaction := last } }

/-- `$set` of the score and category of the customer `oid`. -/
def setScore (oid : ObjectId) (pair : ℤ × RiskCategory) (s : Store) : Store :=
  { s with
    customers := s.customers.updateOne { id := some oid }
      { creditScore := some pair.1, riskCategory := some pair.2 } }

/-- `$set` of the fields of the transaction `oid`. -/
def setTransaction (oid : ObjectId) (u : TransactionUpdate) (s : Store) : Store :=
  { s with transactions := s.transactions.updateOne { id := some oid } u }

/-- Removal of the transaction `oid`. -/
def removeTransaction (oid : ObjectId) (s : Store) : Store :=
  { s with transactions := s.transactions.deleteOne { id := some oid } }

/-- The transactions a customer is scored on, in the order they are read. -/
def scoredTransactions (cid : String) (s : Store) : List Transaction :=
  sortByDate (s.transactions.find { customerId := some cid })

/-- The change a completed `compute_credit_score` makes. -/
def rescore (now : Time) (cid : String) (oid : ObjectId) (s : Store) : Store :=
  match s.customers.findOne { id := some oid } with
  | none => s
  | some c => s.setScore oid (scoringRules (s.scoredTransactions cid) c.balance now)

@[simp] theorem transactions_incCustomer (oid : ObjectId) (δ : Totals) (last : Option Time)
    (s : Store) : (s.incCustomer oid δ last).transactions = s.transactions := rfl

@[simp] theorem transactions_setScore (oid : ObjectId) (pair : ℤ × RiskCategory) (s : Store) :
    (s.setScore oid pair).transactions = s.transactions := rfl

@[simp] theorem customers_setTransaction (oid : ObjectId) (u : TransactionUpdate) (s : Store) :
    (s.setTransaction oid u).customers = s.customers := rfl

@[simp] theorem customers_removeTransaction (oid : ObjectId) (s : Store) :
    (s.removeTransaction oid).customers = s.customers := rfl

@[simp] theorem transactions_rescore (now : Time) (cid : String) (oid : ObjectId) (s : Store) :
    (s.rescore now cid oid).transactions = s.transactions := by
  unfold rescore
  cases s.customers.findOne { id := some oid } <;> rfl

end Store

/-! ### The operations -/

section Operations

variable (s : Store)

/-- `compute_credit_score` returns the pair it stores. -/
theorem run_computeCreditScore (now : Time) {cid : String} {oid : ObjectId}
    (hcid : ObjectId.ofString? cid = some oid) :
    run exec (computeCreditScore now cid) s =
      (.ok (match s.customers.findOne { id := some oid } with
        | none => (100, .lowRisk)
        | some c => scoringRules (s.scoredTransactions cid) c.balance now),
        s.rescore now cid oid) := by
  simp only [computeCreditScore, objectId_eq_ret hcid, ret_bind, run_bind, run_customers_findOne,
    andThen_ok, Store.rescore]
  cases s.customers.findOne { id := some oid } with
  | none => rfl
  | some c => rfl

theorem run_addCustomer (bcrypt : Bcrypt) (env : Env) (m name phone address pin : String) :
    run exec (addCustomer bcrypt env m name phone address pin) s =
      if (s.customers.findOne { merchantId := some m, phone := some phone }).isSome then
        (.ok (.failure "Customer with this phone already exists."), s)
      else
        match s.customers.insertOne (newCustomer bcrypt env m name phone address pin) with
        | none => (.error .duplicateKeyError, s)
        | some C => (.ok (.success (env.objectId 0).str), { s with customers := C }) := by
  rw [addCustomer, run_bind, run_customers_findOne, andThen_ok]
  split
  · rfl
  · rw [run_bind, run_customers_insertOne]
    cases s.customers.insertOne (newCustomer bcrypt env m name phone address pin) with
    | none => rfl
    | some C => rfl

/-- A transaction of a listed type and a positive amount, for a customer of the
merchant, is recorded unless its identifier is taken. -/
theorem run_addTransaction (env : Env) (m cid txnType : String) (amount : ℚ) (note : String) :
    run exec (addTransaction env m cid txnType amount note) s =
      if amount ≤ 0 then (.ok (.failure "Amount must be positive."), s)
      else
        match TxnType.ofString? txnType with
        | none => (.ok (.failure "Invalid transaction type."), s)
        | some type =>
          match ObjectId.ofString? cid with
          | none => (.error (.invalidId cid), s)
          | some oid =>
            match s.customers.findOne { id := some oid, merchantId := some m } with
            | none => (.ok (.failure "Customer not found."), s)
            | some customer =>
              match s.transactions.insertOne
                  (newTransaction env m cid customer type amount note) with
              | none => (.error .duplicateKeyError, s)
              | some T =>
                let s₁ := ({ s with transactions := T } : Store)
                let s₂ := s₁.incCustomer oid (type.effect amount) (some (env.utcnow 1))
                let s₃ := s₂.rescore (env.utcnow 2) cid oid
                match s₃.customers.findOne { id := some oid } with
                | none => (.error (.attributeError "NoneType" "get"), s₃)
                | some updated => (.ok (.success updated.balance), s₃) := by
  rw [addTransaction_eq]
  split
  · rfl
  cases TxnType.ofString? txnType with
  | none => rfl
  | some type =>
    cases hcid : ObjectId.ofString? cid with
    | none => rfl
    | some oid =>
      dsimp only
      rw [recordFor, run_bind, run_customers_findOne, andThen_ok]
      cases s.customers.findOne { id := some oid, merchantId := some m } with
      | none => rfl
      | some customer =>
        dsimp only
        rw [run_bind, run_transactions_insertOne]
        cases s.transactions.insertOne (newTransaction env m cid customer type amount note) with
        | none => rfl
        | some T =>
          -- the `$inc`, the scoring and the last look at the customer
          dsimp only
          rw [andThen_ok, conclude, run_bind, run_customers_updateOne, andThen_ok, run_bind,
            run_computeCreditScore _ _ hcid, andThen_ok, run_bind, run_customers_findOne,
            andThen_ok]
          dsimp only [Store.incCustomer]
          generalize Store.rescore _ _ _ _ = s₃
          cases s₃.customers.findOne { id := some oid } with
          | none => rfl
          | some updated => rfl

/-- What is left once a transaction is written, on its own. -/
theorem run_settle (cid : String) (δ : Totals) (now : Time) :
    run exec (settle cid δ now) s =
      match ObjectId.ofString? cid with
      | none => (.error (.invalidId cid), s)
      | some coid => (.ok (.success ()), (s.incCustomer coid δ none).rescore now cid coid) := by
  rw [settle]
  cases hcid : ObjectId.ofString? cid with
  | none => rw [objectId_eq_raise hcid]; rfl
  | some coid =>
    rw [objectId_eq_ret hcid, ret_bind, run_bind, run_customers_updateOne, andThen_ok, run_bind,
      run_computeCreditScore _ _ hcid]
    rfl

theorem run_editTransaction (env : Env) (tid m : String) (amount : ℚ) (note : String) :
    run exec (editTransaction env tid m amount note) s =
      match ObjectId.ofString? tid with
      | none => (.error (.invalidId tid), s)
      | some oid =>
        match s.transactions.findOne { id := some oid, merchantId := some m } with
        | none => (.ok (.failure "Transaction not found."), s)
        | some t =>
          let s₁ := s.setTransaction oid ⟨amount, note, true, env.utcnow 0⟩
          match ObjectId.ofString? t.customerId with
          | none => (.error (.invalidId t.customerId), s₁)
          | some coid =>
            let s₂ := s₁.incCustomer coid (t.type.effect amount - t.effect) none
            (.ok (.success ()), s₂.rescore (env.utcnow 1) t.customerId coid) := by
  rw [editTransaction_eq]
  cases ObjectId.ofString? tid with
  | none => rfl
  | some oid =>
    dsimp only
    rw [amendFor, run_bind, run_transactions_findOne, andThen_ok]
    cases s.transactions.findOne { id := some oid, merchantId := some m } with
    | none => rfl
    | some t =>
      -- the write by identifier, and what an edit shares with a deletion
      dsimp only
      rw [run_bind, run_transactions_updateOne, andThen_ok, run_settle]
      rfl

theorem run_deleteTransaction (env : Env) (tid m : String) :
    run exec (deleteTransaction env tid m) s =
      match ObjectId.ofString? tid with
      | none => (.error (.invalidId tid), s)
      | some oid =>
        match s.transactions.findOne { id := some oid, merchantId := some m } with
        | none => (.ok (.failure "Transaction not found."), s)
        | some t =>
          let s₁ := s.removeTransaction oid
          match ObjectId.ofString? t.customerId with
          | none => (.error (.invalidId t.customerId), s₁)
          | some coid =>
            let s₂ := s₁.incCustomer coid (-t.effect) none
            (.ok (.success ()), s₂.rescore (env.utcnow 0) t.customerId coid) := by
  rw [deleteTransaction_eq]
  cases ObjectId.ofString? tid with
  | none => rfl
  | some oid =>
    dsimp only
    rw [voidFor, run_bind, run_transactions_findOne, andThen_ok]
    cases s.transactions.findOne { id := some oid, merchantId := some m } with
    | none => rfl
    | some t =>
      dsimp only
      rw [run_bind, run_transactions_deleteOne, andThen_ok, run_settle]
      rfl

theorem run_deleteCustomer (cid m : String) :
    run exec (deleteCustomer cid m) s =
      match ObjectId.ofString? cid with
      | none => (.error (.invalidId cid), s)
      | some oid =>
        match s.customers.findOne { id := some oid, merchantId := some m } with
        | none => (.ok (.failure "Customer not found."), s)
        | some _ =>
          (.ok (.success ()),
            { customers := s.customers.deleteOne { id := some oid, merchantId := some m }
              transactions := s.transactions.deleteMany { customerId := some cid } }) := by
  rw [deleteCustomer]
  cases hcid : ObjectId.ofString? cid with
  | none => rw [objectId_eq_raise hcid]; rfl
  | some oid =>
    dsimp only
    rw [objectId_eq_ret hcid, ret_bind, run_bind, run_customers_deleteOne, andThen_ok]
    cases hc : s.customers.findOne { id := some oid, merchantId := some m } with
    -- nothing is deleted, and the transactions are left alone
    | none => rw [Collection.deleteOne_of_findOne_eq_none hc]; rfl
    | some c => rfl

theorem run_updateCustomerPin (bcrypt : Bcrypt) (env : Env) (cid m pin : String) :
    run exec (updateCustomerPin bcrypt env cid m pin) s =
      match ObjectId.ofString? cid with
      | none => (.error (.invalidId cid), s)
      | some oid =>
        let u : CustomerUpdate := { portalPin := some (hashPin bcrypt env pin) }
        (.ok (if (s.customers.updateResult { id := some oid, merchantId := some m } u).modifiedCount
            ≠ 0 then .success () else .failure "Not found."),
          { s with
            customers := s.customers.updateOne { id := some oid, merchantId := some m } u }) := by
  rw [updateCustomerPin]
  cases hcid : ObjectId.ofString? cid with
  | none => rw [objectId_eq_raise hcid]; rfl
  | some oid =>
    dsimp only
    rw [objectId_eq_ret hcid, ret_bind, run_bind, run_customers_updateOne, andThen_ok]
    split <;> rfl

end Operations

end DigitalLedger
