import DigitalLedger.Lib.Account
import DigitalLedger.Runs

/-!
# The ledger: what the transactions say a customer owes

A customer's running figures are meant to be the sums over its transactions.  This
module states that meaning: the transactions are entries of accounts, in the sense
of `DigitalLedger.Lib.Account`, the account of a transaction is the customer its
`customer_id` names, and its value is its effect on the running figures.

## Main definitions

* `TransactionDoc.owner` — the customer a transaction refers to.
* `Store.effects` — the running figures the stored transactions amount to.
* `Store.Exact` — every customer's running figures are those amounts.
* `Store.write`, `TransactionDoc.delta` — what an edit or a deletion does to the
  transactions, and by how much it is to move the figures of the customer.

## Main results

* `sum_effect` — the figures a list of transactions amounts to, by type.
* `effects_insertOne`, `effects_setTransaction`, `effects_removeTransaction`,
  `effects_write` — how the operations on money move the amounts.
* `mem_customers_incCustomer`, `mem_customers_setScore`,
  `mem_transactions_setTransaction`, `mem_transactions_removeTransaction`,
  `mem_customers_deleteOne` — how they move the documents.
-/

namespace DigitalLedger

open Collection

/-! ### Queries by identifier -/

theorem test_customerQuery {q : CustomerQuery} {c : Customer} :
    test q c = true ↔
      (∀ x ∈ q.id, x = c.id) ∧ (∀ x ∈ q.merchantId, x = c.merchantId) ∧
        (∀ x ∈ q.phone, x = c.phone) ∧ ∀ x ∈ q.balanceGt, x < c.balance := by
  simp only [test, CustomerQuery.test, Bool.and_eq_true, Option.all_eq_true, beq_iff_eq,
    decide_eq_true_eq, and_assoc, Option.mem_def]

theorem test_transactionQuery {q : TransactionQuery} {t : Transaction} :
    test q t = true ↔
      (∀ x ∈ q.id, x = t.id) ∧ (∀ x ∈ q.merchantId, x = t.merchantId) ∧
        ∀ x ∈ q.customerId, x = t.customerId := by
  simp only [test, TransactionQuery.test, Bool.and_eq_true, Option.all_eq_true, beq_iff_eq,
    and_assoc, Option.mem_def]

@[simp] theorem test_customer_id {oid : ObjectId} {c : Customer} :
    test ({ id := some oid } : CustomerQuery) c = true ↔ c.id = oid := by
  rw [test_customerQuery]
  simp [eq_comm]

@[simp] theorem test_customer_id_merchant {oid : ObjectId} {m : String} {c : Customer} :
    test ({ id := some oid, merchantId := some m } : CustomerQuery) c = true ↔
      c.id = oid ∧ c.merchantId = m := by
  rw [test_customerQuery]
  simp [eq_comm]

@[simp] theorem test_customer_merchant {m : String} {c : Customer} :
    test ({ merchantId := some m } : CustomerQuery) c = true ↔ c.merchantId = m := by
  rw [test_customerQuery]
  simp [eq_comm]

@[simp] theorem test_customer_merchant_phone {m phone : String} {c : Customer} :
    test ({ merchantId := some m, phone := some phone } : CustomerQuery) c = true ↔
      c.merchantId = m ∧ c.phone = phone := by
  rw [test_customerQuery]
  simp [eq_comm]

@[simp] theorem test_customer_phone {phone : String} {c : Customer} :
    test ({ phone := some phone } : CustomerQuery) c = true ↔ c.phone = phone := by
  rw [test_customerQuery]
  simp [eq_comm]

@[simp] theorem test_customer_owing {m : String} {c : Customer} :
    test ({ merchantId := some m, balanceGt := some 0 } : CustomerQuery) c = true ↔
      c.merchantId = m ∧ 0 < c.balance := by
  rw [test_customerQuery]
  simp [eq_comm]

@[simp] theorem test_transaction_id {oid : ObjectId} {t : Transaction} :
    test ({ id := some oid } : TransactionQuery) t = true ↔ t.id = oid := by
  rw [test_transactionQuery]
  simp [eq_comm]

@[simp] theorem test_transaction_id_merchant {oid : ObjectId} {m : String} {t : Transaction} :
    test ({ id := some oid, merchantId := some m } : TransactionQuery) t = true ↔
      t.id = oid ∧ t.merchantId = m := by
  rw [test_transactionQuery]
  simp [eq_comm]

@[simp] theorem test_transaction_merchant {m : String} {t : Transaction} :
    test ({ merchantId := some m } : TransactionQuery) t = true ↔ t.merchantId = m := by
  rw [test_transactionQuery]
  simp [eq_comm]

@[simp] theorem test_transaction_customer {cid : String} {t : Transaction} :
    test ({ customerId := some cid } : TransactionQuery) t = true ↔ t.customerId = cid := by
  rw [test_transactionQuery]
  simp [eq_comm]

theorem byKey_customer {q : CustomerQuery} {oid : ObjectId} (hq : q.id = some oid) :
    ByKey (D := Customer) q oid := fun _ hc => ((test_customerQuery.mp hc).1 oid hq).symm

theorem byKey_transaction {q : TransactionQuery} {oid : ObjectId} (hq : q.id = some oid) :
    ByKey (D := Transaction) q oid := fun _ ht => ((test_transactionQuery.mp ht).1 oid hq).symm

/-- Looking up a stored customer by its identifier finds it. -/
theorem findOne_customer {s : Store} {oid : ObjectId} {c : Customer} :
    s.customers.findOne { id := some oid } = some c ↔ c ∈ s.customers.docs ∧ c.id = oid := by
  rw [findOne_eq_some (byKey_customer rfl), test_customer_id]

theorem findOne_customer_merchant {s : Store} {oid : ObjectId} {m : String} {c : Customer} :
    s.customers.findOne { id := some oid, merchantId := some m } = some c ↔
      c ∈ s.customers.docs ∧ c.id = oid ∧ c.merchantId = m := by
  rw [findOne_eq_some (byKey_customer rfl), test_customer_id_merchant]

theorem findOne_transaction {s : Store} {oid : ObjectId} {t : Transaction} :
    s.transactions.findOne { id := some oid } = some t ↔
      t ∈ s.transactions.docs ∧ t.id = oid := by
  rw [findOne_eq_some (byKey_transaction rfl), test_transaction_id]

theorem findOne_transaction_merchant {s : Store} {oid : ObjectId} {m : String}
    {t : Transaction} :
    s.transactions.findOne { id := some oid, merchantId := some m } = some t ↔
      t ∈ s.transactions.docs ∧ t.id = oid ∧ t.merchantId = m := by
  rw [findOne_eq_some (byKey_transaction rfl), test_transaction_id_merchant]

theorem customer_eq_of_id {s : Store} {c c' : Customer} (hc : c ∈ s.customers.docs)
    (hc' : c' ∈ s.customers.docs) (h : c.id = c'.id) : c = c' := eq_of_key_eq hc hc' h

theorem transaction_eq_of_id {s : Store} {t t' : Transaction} (ht : t ∈ s.transactions.docs)
    (ht' : t' ∈ s.transactions.docs) (h : t.id = t'.id) : t = t' := eq_of_key_eq ht ht' h

/-! ### The amounts the transactions stand for -/

/-- The customer a transaction refers to: `ObjectId(t["customer_id"])`. -/
def TransactionDoc.owner {ι : Type} (t : TransactionDoc ι) : Option ObjectId :=
  ObjectId.ofString? t.customerId

/-- The running figures the stored transactions of a customer amount to. -/
def Store.effects (s : Store) (oid : ObjectId) : Totals :=
  s.transactions.account TransactionDoc.owner TransactionDoc.effect oid

/-- Every customer's running figures are what its transactions amount to. -/
def Store.Exact (s : Store) : Prop := ∀ c ∈ s.customers.docs, c.totals = s.effects c.id

instance (s : Store) : Decidable s.Exact :=
  inferInstanceAs (Decidable (∀ c ∈ s.customers.docs, c.totals = s.effects c.id))

theorem TxnType.effect_sub (type : TxnType) (a b : ℚ) :
    type.effect a - type.effect b = type.effect (a - b) := by
  cases type <;> ext <;> simp [effect, neg_add_eq_sub]

theorem TxnType.effect_neg (type : TxnType) (a : ℚ) : -type.effect a = type.effect (-a) := by
  cases type <;> ext <;> simp [effect]

theorem TxnType.effect_add (type : TxnType) (a b : ℚ) :
    type.effect a + type.effect b = type.effect (a + b) := by
  cases type <;> ext <;> simp [effect, add_comm]

@[simp] theorem TxnType.effect_zero (type : TxnType) : type.effect 0 = 0 := by
  cases type <;> ext <;> simp [effect]

theorem TxnType.effect_eq_zero {type : TxnType} {a : ℚ} : type.effect a = 0 ↔ a = 0 := by
  refine ⟨fun h => ?_, fun h => by rw [h, effect_zero]⟩
  cases type with
  | credit => exact congrArg Totals.totalCredit h
  | payment => exact congrArg Totals.totalPaid h

/-- The figures a list of transactions amounts to: the credits, the payments, and
the difference. -/
theorem sum_effect (txns : List Transaction) :
    (txns.map TransactionDoc.effect).sum =
      ⟨sumAmounts (ofType .credit txns) - sumAmounts (ofType .payment txns),
        sumAmounts (ofType .credit txns), sumAmounts (ofType .payment txns)⟩ := by
  induction txns with
  | nil => ext <;> simp [sumAmounts, ofType]
  | cons t txns ih =>
    rw [List.map_cons, List.sum_cons, ih, TransactionDoc.effect]
    cases htype : t.type with
    | credit =>
      have hc : ofType .credit (t :: txns) = t :: ofType .credit txns := by
        simp [ofType, htype]
      have hp : ofType .payment (t :: txns) = ofType .payment txns := by simp [ofType, htype]
      rw [hc, hp]
      ext <;> simp [TxnType.effect, sumAmounts, add_sub_assoc]
    | payment =>
      have hc : ofType .credit (t :: txns) = ofType .credit txns := by simp [ofType, htype]
      have hp : ofType .payment (t :: txns) = t :: ofType .payment txns := by
        simp [ofType, htype]
      rw [hc, hp]
      ext <;> simp [TxnType.effect, sumAmounts]
      ring

theorem effects_eq (s : Store) (oid : ObjectId) :
    s.effects oid =
      let txns := s.transactions.docs.filter fun t => decide (t.owner = some oid)
      ⟨sumAmounts (ofType .credit txns) - sumAmounts (ofType .payment txns),
        sumAmounts (ofType .credit txns), sumAmounts (ofType .payment txns)⟩ := by
  rw [Store.effects, account_eq_sum_filter, sum_effect]

/-! ### How the operations move the amounts -/

@[simp] theorem effects_incCustomer (s : Store) (oid : ObjectId) (δ : Totals)
    (last : Option Time) : (s.incCustomer oid δ last).effects = s.effects := rfl

@[simp] theorem effects_setScore (s : Store) (oid : ObjectId) (pair : ℤ × RiskCategory) :
    (s.setScore oid pair).effects = s.effects := rfl

theorem effects_of_transactions_eq {s s' : Store} (h : s'.transactions = s.transactions) :
    s'.effects = s.effects := by
  funext oid
  rw [Store.effects, h, Store.effects]

theorem effects_insertOne {s : Store} {t : Transaction} {T : Collection Transaction}
    (h : s.transactions.insertOne t = some T) (oid : ObjectId) :
    ({ s with transactions := T } : Store).effects oid =
      s.effects oid + share TransactionDoc.owner TransactionDoc.effect oid t :=
  account_insertOne h oid

theorem effects_setTransaction {s : Store} {t : Transaction} (ht : t ∈ s.transactions.docs)
    (u : TransactionUpdate) (oid : ObjectId) :
    (s.setTransaction t.id u).effects oid = s.effects oid +
      if t.owner = some oid then t.type.effect u.amount - t.effect else 0 :=
  account_updateOne (findOne_transaction.mpr ⟨ht, rfl⟩) rfl oid

theorem effects_removeTransaction {s : Store} {t : Transaction}
    (ht : t ∈ s.transactions.docs) (oid : ObjectId) :
    (s.removeTransaction t.id).effects oid =
      s.effects oid - share TransactionDoc.owner TransactionDoc.effect oid t :=
  account_deleteOne (findOne_transaction.mpr ⟨ht, rfl⟩) oid

/-- A transaction that is not stored is neither rewritten nor removed. -/
theorem setTransaction_of_notMem {s : Store} {oid : ObjectId}
    (h : ∀ t ∈ s.transactions.docs, t.id ≠ oid) (u : TransactionUpdate) :
    s.setTransaction oid u = s := by
  have hnone : s.transactions.findOne { id := some oid } = none :=
    findOne_eq_none.mpr fun t ht =>
      Bool.eq_false_iff.mpr fun htest => h t ht (test_transaction_id.mp htest)
  rw [Store.setTransaction, updateOne_of_findOne_eq_none hnone]

theorem removeTransaction_of_notMem {s : Store} {oid : ObjectId}
    (h : ∀ t ∈ s.transactions.docs, t.id ≠ oid) : s.removeTransaction oid = s := by
  have hnone : s.transactions.findOne { id := some oid } = none :=
    findOne_eq_none.mpr fun t ht =>
      Bool.eq_false_iff.mpr fun htest => h t ht (test_transaction_id.mp htest)
  rw [Store.removeTransaction, deleteOne_of_findOne_eq_none hnone]

/-! ### How the operations move the documents -/

@[simp] theorem totals_apply (u : CustomerUpdate) (c : Customer) :
    (u.apply c).totals = c.totals + u.inc := rfl

@[simp] theorem id_apply (u : CustomerUpdate) (c : Customer) : (u.apply c).id = c.id := rfl

theorem mem_customers_incCustomer {s : Store} {oid : ObjectId} {δ : Totals}
    {last : Option Time} {c' : Customer} :
    c' ∈ (s.incCustomer oid δ last).customers.docs ↔
      ∃ c ∈ s.customers.docs, c' = if c.id = oid then
        CustomerUpdate.apply { inc := δ, lastTransaction := last } c else c := by
  rw [Store.incCustomer, docs_updateOne (byKey_customer rfl), List.mem_map]
  refine exists_congr fun c => and_congr_right fun _ => ?_
  simp only [test_customer_id]
  exact eq_comm

theorem mem_customers_setScore {s : Store} {oid : ObjectId} {pair : ℤ × RiskCategory}
    {c' : Customer} :
    c' ∈ (s.setScore oid pair).customers.docs ↔
      ∃ c ∈ s.customers.docs, c' = if c.id = oid then
        CustomerUpdate.apply { creditScore := some pair.1, riskCategory := some pair.2 } c
        else c := by
  rw [Store.setScore, docs_updateOne (byKey_customer rfl), List.mem_map]
  refine exists_congr fun c => and_congr_right fun _ => ?_
  simp only [test_customer_id]
  exact eq_comm

theorem mem_transactions_setTransaction {s : Store} {oid : ObjectId} {u : TransactionUpdate}
    {t' : Transaction} :
    t' ∈ (s.setTransaction oid u).transactions.docs ↔
      ∃ t ∈ s.transactions.docs, t' = if t.id = oid then u.apply t else t := by
  rw [Store.setTransaction, docs_updateOne (byKey_transaction rfl), List.mem_map]
  refine exists_congr fun t => and_congr_right fun _ => ?_
  simp only [test_transaction_id]
  exact eq_comm

theorem mem_transactions_removeTransaction {s : Store} {oid : ObjectId} {t : Transaction} :
    t ∈ (s.removeTransaction oid).transactions.docs ↔ t ∈ s.transactions.docs ∧ t.id ≠ oid := by
  rw [Store.removeTransaction, docs_deleteOne (byKey_transaction rfl), List.mem_filter,
    Bool.not_eq_true', Bool.eq_false_iff, Ne, test_transaction_id]

/-- The customers that a deletion leaves. -/
theorem mem_customers_deleteOne {s : Store} {oid : ObjectId} {m : String} {c : Customer} :
    c ∈ (s.customers.deleteOne { id := some oid, merchantId := some m }).docs ↔
      c ∈ s.customers.docs ∧ ¬(c.id = oid ∧ c.merchantId = m) := by
  rw [docs_deleteOne (byKey_customer rfl), List.mem_filter, Bool.not_eq_true', Bool.eq_false_iff,
    Ne, test_customer_id_merchant]

/-- Moving the transactions and the figures of one customer together keeps the
figures exact. -/
theorem Store.Exact.incCustomer {s s' : Store} (hs : s.Exact) {oid : ObjectId} {δ : Totals}
    (heff : ∀ a, s'.effects a = s.effects a + if a = oid then δ else 0)
    (hC : s'.customers = s.customers) (last : Option Time) :
    (s'.incCustomer oid δ last).Exact := by
  intro c' hc'
  obtain ⟨c, hc, rfl⟩ := mem_customers_incCustomer.mp hc'
  rw [hC] at hc
  rw [effects_incCustomer, heff]
  -- the customer moved, and the others
  by_cases h : c.id = oid
  · rw [if_pos h, id_apply, totals_apply, if_pos h, hs c hc]
  · rw [if_neg h, if_neg h, add_zero, hs c hc]

/-! ### Writing a transaction -/

/-- What an edit, given by its update, or a deletion does to the transactions. -/
def Store.write (oid : ObjectId) (w : Option TransactionUpdate) (s : Store) : Store :=
  match w with
  | some u => s.setTransaction oid u
  | none => s.removeTransaction oid

/-- By how much an edit or a deletion of `t` moves the figures of its customer. -/
def TransactionDoc.delta (t : Transaction) (w : Option TransactionUpdate) : Totals :=
  match w with
  | some u => t.type.effect u.amount - t.effect
  | none => -t.effect

theorem customers_write (oid : ObjectId) (w : Option TransactionUpdate) (s : Store) :
    (s.write oid w).customers = s.customers := by
  cases w <;> rfl

/-- Writing a stored transaction moves the amounts by its difference. -/
theorem effects_write {s : Store} {t : Transaction} (ht : t ∈ s.transactions.docs)
    (w : Option TransactionUpdate) (a : ObjectId) :
    (s.write t.id w).effects a = s.effects a + if t.owner = some a then t.delta w else 0 := by
  cases w with
  | some u => exact effects_setTransaction ht u a
  | none =>
    rw [Store.write, effects_removeTransaction ht, share, TransactionDoc.delta]
    split
    · rw [sub_eq_add_neg]
    · rw [sub_zero, add_zero]

theorem write_of_notMem {s : Store} {oid : ObjectId} (h : ∀ t ∈ s.transactions.docs, t.id ≠ oid)
    (w : Option TransactionUpdate) : s.write oid w = s := by
  cases w with
  | some u => exact setTransaction_of_notMem h u
  | none => exact removeTransaction_of_notMem h

/-- An edit owes nothing when it sets the amount that is there. -/
theorem delta_some_eq_zero {t : Transaction} {u : TransactionUpdate} :
    t.delta (some u) = 0 ↔ t.amount = u.amount := by
  rw [TransactionDoc.delta, TransactionDoc.effect, TxnType.effect_sub, TxnType.effect_eq_zero,
    sub_eq_zero]
  exact eq_comm

/-- A deletion owes nothing when there is no amount. -/
theorem delta_none_eq_zero {t : Transaction} : t.delta none = 0 ↔ t.amount = 0 := by
  rw [TransactionDoc.delta, neg_eq_zero, TransactionDoc.effect, TxnType.effect_eq_zero]

/-- `r` is the transaction `t` but for the fields an edit sets. -/
structure TransactionDoc.SameEntry (r t : Transaction) : Prop where
  id : r.id = t.id
  merchantId : r.merchantId = t.merchantId
  customerId : r.customerId = t.customerId
  customerName : r.customerName = t.customerName
  type : r.type = t.type

namespace TransactionDoc.SameEntry

variable {r t u : Transaction}

theorem refl (t : Transaction) : t.SameEntry t := ⟨rfl, rfl, rfl, rfl, rfl⟩

theorem trans (h : r.SameEntry t) (h' : t.SameEntry u) : r.SameEntry u where
  id := h.id.trans h'.id
  merchantId := h.merchantId.trans h'.merchantId
  customerId := h.customerId.trans h'.customerId
  customerName := h.customerName.trans h'.customerName
  type := h.type.trans h'.type

theorem owner (h : r.SameEntry t) : r.owner = t.owner := congrArg ObjectId.ofString? h.customerId

end TransactionDoc.SameEntry

/-- A document that is there after a write was there before, but for the fields an
edit sets. -/
theorem mem_transactions_write {s : Store} {oid : ObjectId} {w : Option TransactionUpdate}
    {t' : Transaction} (h : t' ∈ (s.write oid w).transactions.docs) :
    ∃ t ∈ s.transactions.docs, t'.SameEntry t := by
  cases w with
  | some u =>
    obtain ⟨t, ht, rfl⟩ := mem_transactions_setTransaction.mp h
    refine ⟨t, ht, ?_⟩
    split
    · exact ⟨rfl, rfl, rfl, rfl, rfl⟩
    · exact .refl t
  | none => exact ⟨t', (mem_transactions_removeTransaction.mp h).1, .refl t'⟩

/-- Writing one transaction leaves the others. -/
theorem mem_write_of_ne {s : Store} {oid : ObjectId} (w : Option TransactionUpdate)
    {t : Transaction} (ht : t ∈ s.transactions.docs) (hne : t.id ≠ oid) :
    t ∈ (s.write oid w).transactions.docs := by
  cases w with
  | some u => exact mem_transactions_setTransaction.mpr ⟨t, ht, (if_neg hne).symm⟩
  | none => exact mem_transactions_removeTransaction.mpr ⟨ht, hne⟩

end DigitalLedger
