import DigitalLedger.Moves
import DigitalLedger.Numbers

/-!
# The amounts of the stored transactions

Two operations write an amount.  `add_transaction` refuses one that is at most 0, which `nan`
is not; `edit_transaction` has no such check.  And an infinite amount, once it is in a total,
cannot be taken off it again.  So the amounts and the totals stay positive along a run exactly
as long as no call records `nan`, none edits a stored transaction to an amount that is not
positive, and none takes an infinite amount off the total of a stored customer.

## Main definitions

* `Store.figure`, `Store.Exact` — what the stored transactions amount to, and that the totals
  of the customers are that.
* `Store.amend` — what an edit or a deletion of a stored transaction does.
* `Call.Safe` — the condition on a call.

## Main results

* `Store.Exact.amend`, `Store.Exact.exists_nan` — when the totals survive an edit or a
  deletion.
* `keeps_iff` — when a single call keeps amounts and totals positive.
* `amounts_positive_iff` — when a run does.
-/

namespace DigitalLedger

namespace Floating

open Collection Extended Prog

variable {s s' : Store}

/-! ### Totals -/

/-- The total that counts transactions of a type. -/
def Totals.total (δ : Totals) : TxnType → Amount
  | .credit => δ.totalCredit
  | .payment => δ.totalPaid

def Customer.total (c : Customer) : TxnType → Amount
  | .credit => c.totalCredit
  | .payment => c.totalPaid

/-- The total a transaction counts in: of the customer it names, that of its type. -/
def Transaction.slot (t : Transaction) : Option (ObjectId × TxnType) :=
  (ObjectId.ofString? t.customerId).map fun oid => (oid, t.type)

namespace Store

/-- What the stored transactions of a customer and a type amount to. -/
def figure (s : Store) (oid : ObjectId) (type : TxnType) : Amount :=
  s.transactions.account Transaction.slot Transaction.amount (oid, type)

/-- Every customer's totals are what its transactions amount to. -/
def Exact (s : Store) : Prop :=
  ∀ c ∈ s.customers.docs, ∀ type, c.total type = s.figure c.id type

/-- Every stored transaction has a positive amount. -/
def AmountsPositive (s : Store) : Prop := ∀ t ∈ s.transactions.docs, 0 < t.amount

end Store

theorem total_apply (u : CustomerUpdate) (c : Customer) (type : TxnType) :
    (u.apply c).total type = c.total type + u.inc.total type := by
  cases type with
  | credit => rfl
  | payment => rfl

theorem total_effect (type type' : TxnType) (amount : Amount) :
    (effect type amount).total type' = if type = type' then amount else 0 := by
  cases type with
  | credit => cases type' <;> rfl
  | payment => cases type' <;> rfl

theorem slot_eq_some {t : Transaction} {oid : ObjectId} {type : TxnType} :
    t.slot = some (oid, type) ↔ ObjectId.ofString? t.customerId = some oid ∧ t.type = type := by
  rw [Transaction.slot, Option.map_eq_some_iff]
  simp [and_comm]

/-- Positive amounts add up to figures that are not negative. -/
theorem Store.AmountsPositive.figure_nonneg (hpos : s.AmountsPositive) (oid : ObjectId)
    (type : TxnType) : 0 ≤ s.figure oid type := by
  rw [Store.figure, account_eq_sum_filter]
  refine nonneg_sum fun amount hamount => ?_
  obtain ⟨t, ht, rfl⟩ := List.mem_map.mp hamount
  exact nonneg_of_pos (hpos t (List.mem_of_mem_filter ht))

/-- Totals are exact as soon as totals and transactions are what they were. -/
theorem Store.Exact.of_totals (hs : s.Exact)
    (hC : s'.customers.docs.map (fun c => (c.id, c.total)) =
      s.customers.docs.map fun c => (c.id, c.total))
    (hT : s'.transactions = s.transactions) : s'.Exact := by
  intro c' hc' type
  have hmem : (c'.id, c'.total) ∈ s.customers.docs.map fun c => (c.id, c.total) := by
    rw [← hC]
    exact List.mem_map_of_mem hc'
  obtain ⟨c, hc, heq⟩ := List.mem_map.mp hmem
  obtain ⟨hid, htotal⟩ := Prod.mk.inj heq
  rw [← hid, ← htotal, Store.figure, hT]
  exact hs c hc type

/-! ### Scoring -/

theorem totals_rescore (s : Store) (now : Time) (cid : String) (oid : ObjectId) :
    (s.rescore now cid oid).customers.docs.map (fun c => (c.id, c.total)) =
      s.customers.docs.map fun c => (c.id, c.total) := by
  unfold Store.rescore
  cases s.customers.findOne { id := oid } with
  | none => rfl
  | some c =>
    refine map_updateOne (fun c' => ?_) _ _
    refine Prod.ext rfl (funext fun type => (total_apply _ c' type).trans ?_)
    cases type with
    | credit => exact add_zero _
    | payment => exact add_zero _

@[simp] theorem transactions_rescore (s : Store) (now : Time) (cid : String) (oid : ObjectId) :
    (s.rescore now cid oid).transactions = s.transactions := by
  unfold Store.rescore
  cases s.customers.findOne { id := oid } <;> rfl

theorem Store.Exact.rescore (hs : s.Exact) (now : Time) (cid : String) (oid : ObjectId) :
    (s.rescore now cid oid).Exact :=
  hs.of_totals (totals_rescore s now cid oid) (transactions_rescore s now cid oid)

/-- The totals of a customer are found again after a scoring. -/
theorem exists_rescored {c : Customer} (hc : c ∈ s.customers.docs) (now : Time) (cid : String)
    (oid : ObjectId) : ∃ c' ∈ (s.rescore now cid oid).customers.docs, c'.total = c.total := by
  have hmem : (c.id, c.total) ∈
      (s.rescore now cid oid).customers.docs.map fun c => (c.id, c.total) := by
    rw [totals_rescore]
    exact List.mem_map_of_mem hc
  obtain ⟨c', hc', heq⟩ := List.mem_map.mp hmem
  exact ⟨c', hc', (Prod.mk.inj heq).2⟩

/-! ### Queries by identifier -/

theorem test_customerQuery {q : CustomerQuery} {c : Customer} :
    test q c = true ↔ q.id = c.id ∧ ∀ x ∈ q.merchantId, x = c.merchantId := by
  simp only [test, CustomerQuery.test, Bool.and_eq_true, Option.all_eq_true, beq_iff_eq,
    Option.mem_def]

theorem test_transactionQuery {q : TransactionQuery} {t : Transaction} :
    test q t = true ↔
      (∀ x ∈ q.id, x = t.id) ∧ (∀ x ∈ q.merchantId, x = t.merchantId) ∧
        ∀ x ∈ q.customerId, x = t.customerId := by
  simp only [test, testTransaction, Bool.and_eq_true, Option.all_eq_true, beq_iff_eq,
    and_assoc, Option.mem_def]

theorem test_customer_id {oid : ObjectId} {c : Customer} :
    test (⟨oid, none⟩ : CustomerQuery) c = true ↔ c.id = oid := by
  rw [test_customerQuery]
  simp [eq_comm]

theorem test_customer_id_merchant {oid : ObjectId} {m : String} {c : Customer} :
    test (⟨oid, some m⟩ : CustomerQuery) c = true ↔ c.id = oid ∧ c.merchantId = m := by
  rw [test_customerQuery]
  simp [eq_comm]

theorem byKey_customer (oid : ObjectId) (m : Option String) :
    ByKey (D := Customer) (⟨oid, m⟩ : CustomerQuery) oid :=
  fun _ hc => (test_customerQuery.mp hc).1.symm

theorem mem_customers_deleteOne {oid : ObjectId} {m : String} {c : Customer} :
    c ∈ (s.customers.deleteOne ⟨oid, some m⟩).docs ↔
      c ∈ s.customers.docs ∧ ¬(c.id = oid ∧ c.merchantId = m) := by
  rw [docs_deleteOne (byKey_customer oid (some m)), List.mem_filter, Bool.not_eq_true',
    Bool.eq_false_iff, Ne, test_customer_id_merchant]

theorem test_transaction_id {oid : ObjectId} {t : Transaction} :
    test ({ id := some oid } : TransactionQuery) t = true ↔ t.id = oid := by
  rw [test_transactionQuery]
  simp [eq_comm]

theorem test_transaction_id_merchant {oid : ObjectId} {m : String} {t : Transaction} :
    test ({ id := some oid, merchantId := some m } : TransactionQuery) t = true ↔
      t.id = oid ∧ t.merchantId = m := by
  rw [test_transactionQuery]
  simp [eq_comm]

theorem byKey_transaction {q : TransactionQuery} {oid : ObjectId} (hq : q.id = some oid) :
    ByKey (D := Transaction) q oid := fun _ ht => ((test_transactionQuery.mp ht).1 oid hq).symm

theorem findOne_customer_merchant {oid : ObjectId} {m : String} {c : Customer} :
    s.customers.findOne ⟨oid, some m⟩ = some c ↔
      c ∈ s.customers.docs ∧ c.id = oid ∧ c.merchantId = m := by
  rw [findOne_eq_some (byKey_customer oid (some m)), test_customer_id_merchant]

theorem findOne_transaction_merchant {oid : ObjectId} {m : String} {t : Transaction} :
    s.transactions.findOne { id := some oid, merchantId := some m } = some t ↔
      t ∈ s.transactions.docs ∧ t.id = oid ∧ t.merchantId = m := by
  rw [findOne_eq_some (byKey_transaction rfl), test_transaction_id_merchant]

/-! ### The `$inc` -/

theorem mem_customers_incCustomer {oid : ObjectId} {δ : Totals} {last : Option Time}
    {c' : Customer} : c' ∈ (s.incCustomer oid δ last).customers.docs ↔
      ∃ c ∈ s.customers.docs, c' = if c.id = oid then
        CustomerUpdate.apply { inc := δ, lastTransaction := last } c else c := by
  rw [Store.incCustomer, docs_updateOne (byKey_customer oid none), List.mem_map]
  refine exists_congr fun c => and_congr_right fun _ => ?_
  simp only [test_customer_id]
  exact eq_comm

/-- Moving the figures and the totals of one customer together keeps the totals exact. -/
theorem Store.Exact.incCustomer (hs : s.Exact) (hC : s'.customers = s.customers) {oid : ObjectId}
    {δ : Totals} (hfigure : ∀ c ∈ s.customers.docs, ∀ type, s'.figure c.id type =
      s.figure c.id type + if c.id = oid then δ.total type else 0)
    (last : Option Time) : (s'.incCustomer oid δ last).Exact := by
  intro c' hc' type
  obtain ⟨c, hc, rfl⟩ := mem_customers_incCustomer.mp hc'
  rw [hC] at hc
  have hmoved := hfigure c hc type
  by_cases h : c.id = oid
  · rw [if_pos h] at hmoved ⊢
    exact (total_apply _ c type).trans ((congrArg (· + _) (hs c hc type)).trans hmoved.symm)
  · rw [if_neg h, add_zero] at hmoved
    rw [if_neg h]
    exact (hs c hc type).trans hmoved.symm

/-! ### Writing a transaction -/

/-- What a transaction counts for in the totals of each customer. -/
theorem share_slot {t : Transaction} {oid : ObjectId}
    (hoid : ObjectId.ofString? t.customerId = some oid) (a : ObjectId) (type : TxnType) :
    share Transaction.slot Transaction.amount (a, type) t =
      if a = oid then (effect t.type t.amount).total type else 0 := by
  by_cases ha : a = oid
  · rw [share, if_pos ha, total_effect, ha]
    refine if_congr ?_ rfl rfl
    rw [slot_eq_some]
    exact and_iff_right hoid
  · refine (share_of_ne fun h => ha ?_).trans (if_neg ha).symm
    exact Option.some.inj ((slot_eq_some.mp h).1.symm.trans hoid)

/-- A transaction is recorded with the total of its customer. -/
theorem Store.Exact.insert (hs : s.Exact) {t : Transaction} {T : Collection Transaction}
    (hT : s.transactions.insertOne t = some T) {oid : ObjectId}
    (hoid : ObjectId.ofString? t.customerId = some oid) (last : Option Time) :
    (({ s with transactions := T } : Store).incCustomer oid (effect t.type t.amount)
      last).Exact := by
  have hC : ({ s with transactions := T } : Store).customers = s.customers := rfl
  refine hs.incCustomer hC (fun c _ type => ?_) last
  rw [← share_slot hoid]
  exact account_insertOne hT (c.id, type)

/-- What an edit, given by its update, or a deletion does to the transactions. -/
def Store.write (oid : ObjectId) (w : Option TransactionUpdate) (s : Store) : Store :=
  match w with
  | some u => s.setTransaction oid u
  | none => s.removeTransaction oid

/-- The amount that is left of a transaction. -/
def written (w : Option TransactionUpdate) : Amount := w.elim 0 TransactionUpdate.amount

/-- An edit or a deletion of a stored transaction: it is written, and if it names a customer
the figures of that customer move by the difference and the customer is scored. -/
def Store.amend (t : Transaction) (w : Option TransactionUpdate) (now : Time) (s : Store) :
    Store :=
  match ObjectId.ofString? t.customerId with
  | none => s.write t.id w
  | some oid => ((s.write t.id w).incCustomer oid
      (effect t.type (written w - t.amount)) none).rescore now t.customerId oid

theorem customers_write (oid : ObjectId) (w : Option TransactionUpdate) (s : Store) :
    (s.write oid w).customers = s.customers := by
  cases w <;> rfl

theorem transactions_amend (t : Transaction) (w : Option TransactionUpdate) (now : Time)
    (s : Store) : (s.amend t w now).transactions = (s.write t.id w).transactions := by
  unfold Store.amend
  cases ObjectId.ofString? t.customerId with
  | none => rfl
  | some oid => exact transactions_rescore _ _ _ _

/-- Writing a transaction puts what is left of it in the place of its amount. -/
theorem figure_write {t : Transaction} (ht : t ∈ s.transactions.docs)
    (w : Option TransactionUpdate) (oid : ObjectId) (type : TxnType) :
    (s.write t.id w).figure oid type +
        share Transaction.slot Transaction.amount (oid, type) t =
      s.figure oid type + if t.slot = some (oid, type) then written w else 0 := by
  have hfind : s.transactions.findOne { id := some t.id } = some t :=
    (findOne_eq_some (byKey_transaction rfl)).mpr ⟨ht, test_transaction_id.mpr rfl⟩
  cases w with
  | some u => exact account_updateOne_add hfind _
  | none =>
    refine (account_deleteOne_add hfind _).trans ?_
    rw [written, Option.elim_none, ite_self, add_zero]
    rfl

/-- The amount of a transaction can be taken off the total it counts in: it is a number, or
nobody is stored whom it names. -/
def Store.Settles (s : Store) (t : Transaction) : Prop :=
  t.amount = posInf → ∀ c ∈ s.customers.docs, ObjectId.ofString? t.customerId ≠ some c.id

theorem figure_write_of_settles (hpos : s.AmountsPositive) {t : Transaction}
    (ht : t ∈ s.transactions.docs) (hsettles : s.Settles t) (w : Option TransactionUpdate)
    {c : Customer} (hc : c ∈ s.customers.docs) {oid : ObjectId}
    (hoid : ObjectId.ofString? t.customerId = some oid) (type : TxnType) :
    (s.write t.id w).figure c.id type = s.figure c.id type +
      if c.id = oid then (effect t.type (written w - t.amount)).total type else 0 := by
  have hfigure := figure_write ht w c.id type
  rw [share_slot hoid, total_effect] at hfigure
  rw [total_effect]
  by_cases hid : c.id = oid
  · by_cases htype : t.type = type
    · rw [if_pos hid, if_pos htype, if_pos (slot_eq_some.mpr ⟨hid ▸ hoid, htype⟩)] at hfigure
      rw [if_pos hid, if_pos htype]
      -- the amount is a number, since the customer is stored
      rcases pos_cases (hpos t ht) with ⟨a, hamount⟩ | hinf
      · rw [hamount] at hfigure ⊢
        rw [eq_sub_of_add_num hfigure, Extended.add_sub_assoc]
      · exact absurd (hid ▸ hoid) (hsettles hinf c hc)
    · have hslot : t.slot ≠ some (c.id, type) := fun h => htype (slot_eq_some.mp h).2
      rw [if_pos hid, if_neg htype, if_neg hslot, add_zero, add_zero] at hfigure
      rw [if_pos hid, if_neg htype, add_zero, hfigure]
  · have hslot : t.slot ≠ some (c.id, type) := fun h =>
      hid (Option.some.inj ((slot_eq_some.mp h).1.symm.trans hoid))
    rw [if_neg hid, if_neg hslot, add_zero, add_zero] at hfigure
    rw [if_neg hid, add_zero, hfigure]

/-- **The totals survive an edit or a deletion** whose amount can be taken off them. -/
theorem Store.Exact.amend (hs : s.Exact) (hpos : s.AmountsPositive) {t : Transaction}
    (ht : t ∈ s.transactions.docs) (hsettles : s.Settles t) (w : Option TransactionUpdate)
    (now : Time) : (s.amend t w now).Exact := by
  unfold Store.amend
  cases hoid : ObjectId.ofString? t.customerId with
  | none =>
    intro c hc type
    rw [customers_write] at hc
    have hslot : t.slot ≠ some (c.id, type) := fun h =>
      absurd (hoid.symm.trans (slot_eq_some.mp h).1) (by simp)
    have hfigure := figure_write ht w c.id type
    rw [share_of_ne hslot, if_neg hslot, add_zero, add_zero] at hfigure
    rw [hfigure]
    exact hs c hc type
  | some oid =>
    refine (hs.incCustomer (customers_write _ _ _) (fun c hc type => ?_) none).rescore _ _ _
    exact figure_write_of_settles hpos ht hsettles w hc hoid type

/-- **They do not survive one whose amount cannot**: a total is `nan` afterwards. -/
theorem Store.Exact.exists_nan (hs : s.Exact) (hpos : s.AmountsPositive) {t : Transaction}
    (ht : t ∈ s.transactions.docs) (hsettles : ¬s.Settles t) (w : Option TransactionUpdate)
    (now : Time) : ∃ c ∈ (s.amend t w now).customers.docs, ∃ type, c.total type = nan := by
  simp only [Store.Settles, not_forall, not_not] at hsettles
  obtain ⟨hinf, c, hc, hoid⟩ := hsettles
  -- the total is the infinite amount and the rest of the figure
  have hrest : (s.removeTransaction t.id).AmountsPositive := fun t' ht' =>
    hpos t' (List.mem_of_mem_eraseP ht')
  have htotal : c.total t.type = (s.removeTransaction t.id).figure c.id t.type + posInf := by
    have hfigure := figure_write ht none c.id t.type
    rw [share_of_owner (slot_eq_some.mpr ⟨hoid, rfl⟩), hinf, written, Option.elim_none, ite_self,
      add_zero] at hfigure
    exact (hs c hc t.type).trans hfigure.symm
  have hmoved : (c.total t.type + (written w - posInf)) = nan := by
    rw [htotal]
    exact posInf_add_sub _ _ (hrest.figure_nonneg _ _)
  have hmem : c ∈ (s.write t.id w).customers.docs := by
    rw [customers_write]
    exact hc
  have hnan : (CustomerUpdate.apply { inc := effect t.type (written w - t.amount) } c).total
      t.type = nan := by
    rw [total_apply, total_effect, if_pos rfl, hinf, hmoved]
  unfold Store.amend
  rw [hoid]
  -- the scoring leaves it
  obtain ⟨c', hc', htotal'⟩ := exists_rescored
    (mem_customers_incCustomer.mpr ⟨c, hmem, (if_pos rfl).symm⟩) now t.customerId c.id
  exact ⟨c', hc', t.type, (congrFun htotal' t.type).trans hnan⟩

/-! ### The calls -/

/-- The call of `add_transaction` is refused whatever the amount: the type is not listed, the
merchant has no such customer, or the identifier of the document is taken. -/
def Store.Declines (s : Store) (env : Env) (m cid txnType : String) : Prop :=
  TxnType.ofString? txnType = none ∨
    (∀ c ∈ s.customers.docs, c.merchantId = m → ObjectId.ofString? cid ≠ some c.id) ∨
    ∃ t ∈ s.transactions.docs, t.id = env.objectId 0

/-- What an accepted `add_transaction` leaves. -/
theorem exec_addTransaction (env : Env) (m cid txnType : String) (amount : Amount)
    (note : String) (s : Store) :
    let x := (Call.addTransaction env m cid txnType amount note).exec s
    ((amount ≤ 0 ∨ s.Declines env m cid txnType) ∧ Outcome.accepted x.1 = false ∧ x.2 = s) ∨
      (¬amount ≤ 0 ∧ ¬s.Declines env m cid txnType ∧ ∃ t oid T,
        t.amount = amount ∧ ObjectId.ofString? t.customerId = some oid ∧
          s.transactions.insertOne t = some T ∧
          x.2 = (({ s with transactions := T } : Store).incCustomer oid
            (effect t.type t.amount) (some (env.utcnow 1))).rescore (env.utcnow 2) cid oid) := by
  dsimp only
  rw [Call.exec, Call.code, run_map, run_addTransaction]
  split
  next hamount => exact .inl ⟨.inl hamount, rfl, rfl⟩
  next hamount =>
  cases htype : TxnType.ofString? txnType with
  | none => exact .inl ⟨.inr (.inl htype), rfl, rfl⟩
  | some type =>
    dsimp only
    cases hcid : ObjectId.ofString? cid with
    | none =>
      refine .inl ⟨.inr (.inr (.inl fun c _ _ h => ?_)), rfl, rfl⟩
      exact absurd (hcid.symm.trans h) (by simp)
    | some oid =>
      dsimp only
      cases hfind : s.customers.findOne { id := oid, merchantId := some m } with
      | none =>
        refine .inl ⟨.inr (.inr (.inl fun c hc hm h => ?_)), rfl, rfl⟩
        have hid : oid = c.id := Option.some.inj (hcid.symm.trans h)
        have hsome := findOne_customer_merchant.mpr ⟨hc, hid.symm, hm⟩
        exact absurd (hfind.symm.trans hsome) (by simp)
      | some c =>
        dsimp only
        cases hT : s.transactions.insertOne (newTransaction env m cid c type amount note) with
        | none =>
          exact .inl ⟨.inr (.inr (.inr (insertOne_eq_none.mp hT))), rfl, rfl⟩
        | some T =>
          obtain ⟨hc, hid, hm⟩ := findOne_customer_merchant.mp hfind
          refine .inr ⟨hamount, ?_, newTransaction env m cid c type amount note, oid, T, rfl, hcid,
            hT, ?_⟩
          · rintro (hnone | hnobody | ⟨t, ht, htaken⟩)
            · exact absurd (htype.symm.trans hnone) (by simp)
            · exact hnobody c hc hm (hid ▸ hcid)
            · exact key_ne_of_insertOne hT t ht htaken
          · -- whatever the last read answers, it changes nothing
            dsimp only
            split
            · rfl
            · rfl

/-- The call names a stored transaction of the merchant. -/
def Store.Names (s : Store) (tid m : String) (t : Transaction) : Prop :=
  t ∈ s.transactions.docs ∧ ObjectId.ofString? tid = some t.id ∧ t.merchantId = m

theorem names_iff {tid m : String} {oid : ObjectId} (htid : ObjectId.ofString? tid = some oid)
    {t : Transaction} : s.Names tid m t ↔
      s.transactions.findOne { id := some oid, merchantId := some m } = some t := by
  rw [findOne_transaction_merchant, Store.Names, htid, Option.some.injEq, eq_comm (a := oid)]

theorem Store.Names.unique {tid m : String} {t t' : Transaction} (h : s.Names tid m t)
    (h' : s.Names tid m t') : t = t' :=
  eq_of_key_eq h.1 h'.1 (Option.some.inj (h.2.1.symm.trans h'.2.1))

/-- A call that finds no transaction is refused; one that does rewrites it. -/
theorem exec_editTransaction (env : Env) (tid m : String) (amount : Amount) (note : String)
    (s : Store) :
    let x := (Call.editTransaction env tid m amount note).exec s
    ((∀ t, ¬s.Names tid m t) ∧ Outcome.accepted x.1 = false ∧ x.2 = s) ∨
      ∃ t, s.Names tid m t ∧
        x.2 = s.amend t (some ⟨amount, note, true, env.utcnow 0⟩) (env.utcnow 1) := by
  dsimp only
  rw [Call.exec, Call.code, run_map, run_editTransaction]
  cases htid : ObjectId.ofString? tid with
  | none => exact .inl ⟨fun t h => absurd (htid.symm.trans h.2.1) (by simp), rfl, rfl⟩
  | some oid =>
    dsimp only
    cases hfind : s.transactions.findOne { id := some oid, merchantId := some m } with
    | none =>
      refine .inl ⟨fun t h => ?_, rfl, rfl⟩
      exact absurd (hfind.symm.trans ((names_iff htid).mp h)) (by simp)
    | some t =>
      obtain ⟨ht, rfl, rfl⟩ := findOne_transaction_merchant.mp hfind
      refine .inr ⟨t, (names_iff htid).mpr hfind, ?_⟩
      dsimp only
      unfold Store.amend
      cases ObjectId.ofString? t.customerId with
      | none => rfl
      | some coid => rfl

theorem exec_deleteTransaction (env : Env) (tid m : String) (s : Store) :
    let x := (Call.deleteTransaction env tid m).exec s
    ((∀ t, ¬s.Names tid m t) ∧ x.2 = s) ∨
      ∃ t, s.Names tid m t ∧ x.2 = s.amend t none (env.utcnow 0) := by
  dsimp only
  rw [Call.exec, Call.code, run_map, run_deleteTransaction]
  cases htid : ObjectId.ofString? tid with
  | none => exact .inl ⟨fun t h => absurd (htid.symm.trans h.2.1) (by simp), rfl⟩
  | some oid =>
    dsimp only
    cases hfind : s.transactions.findOne { id := some oid, merchantId := some m } with
    | none =>
      refine .inl ⟨fun t h => ?_, rfl⟩
      exact absurd (hfind.symm.trans ((names_iff htid).mp h)) (by simp)
    | some t =>
      obtain ⟨ht, rfl, rfl⟩ := findOne_transaction_merchant.mp hfind
      refine .inr ⟨t, (names_iff htid).mpr hfind, ?_⟩
      dsimp only
      unfold Store.amend
      cases ObjectId.ofString? t.customerId with
      | none => rfl
      | some coid =>
        rw [written, Option.elim_none, Extended.sub_def, zero_add]
        rfl

/-- Deleting a customer keeps the totals of the others. -/
theorem Store.Exact.deleteCustomer (hs : s.Exact) (cid m : String) :
    ((Call.deleteCustomer cid m).exec s).2.Exact ∧
      ∀ t ∈ ((Call.deleteCustomer cid m).exec s).2.transactions.docs,
        t ∈ s.transactions.docs := by
  rw [Call.exec, Call.code, run_map, run_deleteCustomer]
  cases hcid : ObjectId.ofString? cid with
  | none => exact ⟨hs, fun _ ht => ht⟩
  | some oid =>
    dsimp only
    cases hfind : s.customers.findOne { id := oid, merchantId := some m } with
    | none => exact ⟨hs, fun _ ht => ht⟩
    | some c =>
      obtain ⟨hc, rfl, rfl⟩ := findOne_customer_merchant.mp hfind
      refine ⟨fun c' hc' type => ?_, fun t ht => (mem_deleteMany.mp ht).1⟩
      obtain ⟨hold, hne⟩ := mem_customers_deleteOne.mp hc'
      have hid : c'.id ≠ c.id := fun h => hne (by rw [eq_of_key_eq hold hc h]; exact ⟨rfl, rfl⟩)
      refine (hs c' hold type).trans (account_deleteMany_of_ne fun t _ htest hslot => hid ?_).symm
      have htext : cid = t.customerId := (test_transactionQuery.mp htest).2.2 cid rfl
      exact Option.some.inj ((slot_eq_some.mp hslot).1.symm.trans (htext ▸ hcid))

/-! ### A single call -/

namespace Call

/-- The amount a call is given. -/
def amount : Call → Option Amount
  | .addTransaction _ _ _ _ amount _ => some amount
  | .editTransaction _ _ _ amount _ => some amount
  | _ => none

/-- The call records no `nan`, edits no stored transaction to an amount that is not positive,
and takes no infinite amount off the total of a stored customer. -/
def Safe (s : Store) : Call → Prop
  | .addTransaction env m cid txnType amount _ => amount = nan → s.Declines env m cid txnType
  | .editTransaction _ tid m amount _ => ∀ t, s.Names tid m t → 0 < amount ∧ s.Settles t
  | .deleteTransaction _ tid m => ∀ t, s.Names tid m t → s.Settles t
  | .deleteCustomer _ _ => True

end Call

/-- The amounts are positive, and the totals are what they amount to. -/
structure Sound (s : Store) : Prop where
  exact : s.Exact
  positive : s.AmountsPositive

/-- The totals are then not negative. -/
theorem Sound.totals_nonneg (hs : Sound s) {c : Customer} (hc : c ∈ s.customers.docs) :
    0 ≤ c.totalCredit ∧ 0 ≤ c.totalPaid := by
  have htotal : ∀ type, 0 ≤ c.total type := fun type => by
    rw [hs.exact c hc type]
    exact hs.positive.figure_nonneg c.id type
  exact ⟨htotal .credit, htotal .payment⟩

/-- What is left of a transaction counts if it is positive. -/
theorem positive_write_iff (hpos : s.AmountsPositive) {t : Transaction}
    (ht : t ∈ s.transactions.docs) (w : Option TransactionUpdate) :
    (s.write t.id w).AmountsPositive ↔ ∀ u ∈ w, 0 < u.amount := by
  cases w with
  | none => exact iff_of_true (fun t' ht' => hpos t' (List.mem_of_mem_eraseP ht')) (by simp)
  | some u =>
    have hmem : ∀ t', t' ∈ (s.setTransaction t.id u).transactions.docs ↔
        ∃ t₀ ∈ s.transactions.docs, (if t₀.id = t.id then u.apply t₀ else t₀) = t' := by
      intro t'
      rw [Store.setTransaction, docs_updateOne (byKey_transaction rfl), List.mem_map]
      simp only [test_transaction_id]
      rfl
    constructor
    · intro hafter u' hu'
      obtain rfl := Option.mem_some_iff.mp hu'
      exact hafter (u.apply t) ((hmem _).mpr ⟨t, ht, if_pos rfl⟩)
    · intro hu t' ht'
      obtain ⟨t₀, ht₀, rfl⟩ := (hmem t').mp ht'
      split
      · exact hu u rfl
      · exact hpos t₀ ht₀

/-- **An edit or a deletion keeps the store sound** as long as it takes off what can be taken
off and sets a positive amount. -/
theorem Sound.amend (hs : Sound s) {t : Transaction} (ht : t ∈ s.transactions.docs)
    (hsettles : s.Settles t) {w : Option TransactionUpdate} (hw : ∀ u ∈ w, 0 < u.amount)
    (now : Time) : Sound (s.amend t w now) where
  exact := hs.exact.amend hs.positive ht hsettles w now
  positive := by
    rw [Store.AmountsPositive, transactions_amend]
    exact (positive_write_iff hs.positive ht w).mpr hw

theorem Sound.exec (hs : Sound s) {call : Call} (hsafe : call.Safe s) : Sound (call.exec s).2 := by
  cases call with
  | addTransaction env m cid txnType amount note =>
    rcases exec_addTransaction env m cid txnType amount note s with
      ⟨-, -, hsame⟩ | ⟨hamount, hdeclines, t, oid, T, rfl, hoid, hT, hafter⟩
    · rw [hsame]
      exact hs
    · rw [hafter]
      have hpos : 0 < t.amount := by
        rcases lt_or_le_num 0 fun h => hdeclines (hsafe h) with hlt | hle
        · exact hlt
        · exact absurd hle hamount
      refine ⟨(hs.exact.insert hT hoid _).rescore _ _ _, ?_⟩
      rw [Store.AmountsPositive, transactions_rescore]
      intro t' ht'
      rw [Store.incCustomer, docs_insertOne hT, List.mem_append, List.mem_singleton] at ht'
      rcases ht' with hold | rfl
      · exact hs.positive t' hold
      · exact hpos
  | editTransaction env tid m amount note =>
    rcases exec_editTransaction env tid m amount note s with ⟨-, -, hsame⟩ | ⟨t, ht, hafter⟩
    · rw [hsame]
      exact hs
    · rw [hafter]
      obtain ⟨hamount, hsettles⟩ := hsafe t ht
      exact hs.amend ht.1 hsettles (by simpa using hamount) _
  | deleteTransaction env tid m =>
    rcases exec_deleteTransaction env tid m s with ⟨-, hsame⟩ | ⟨t, ht, hafter⟩
    · rw [hsame]
      exact hs
    · rw [hafter]
      exact hs.amend ht.1 (hsafe t ht) (by simp) _
  | deleteCustomer cid m =>
    obtain ⟨hexact, hmem⟩ := hs.exact.deleteCustomer cid m
    exact ⟨hexact, fun t ht => hs.positive t (hmem t ht)⟩

/-- What the call leaves is as it should be: every amount is positive, no total is negative,
and the call was refused if the amount it was given is not positive. -/
structure Call.Keeps (s : Store) (call : Call) : Prop where
  amounts : ∀ t ∈ (call.exec s).2.transactions.docs, 0 < t.amount
  totals : ∀ c ∈ (call.exec s).2.customers.docs, 0 ≤ c.totalCredit ∧ 0 ≤ c.totalPaid
  refused : ∀ amount, call.amount = some amount → ¬0 < amount →
    Outcome.accepted (call.exec s).1 = false ∧ (call.exec s).2 = s

/-- A call that writes a stored transaction and keeps amounts and totals takes off what can
be taken off. -/
theorem settles_of_totals (hs : Sound s) {t : Transaction} (ht : t ∈ s.transactions.docs)
    {w : Option TransactionUpdate} {now : Time}
    (htotals : ∀ c ∈ (s.amend t w now).customers.docs, 0 ≤ c.totalCredit ∧ 0 ≤ c.totalPaid) :
    s.Settles t := by
  by_contra hsettles
  obtain ⟨c, hc, type, hnan⟩ := hs.exact.exists_nan hs.positive ht hsettles w now
  obtain ⟨hcredit, hpaid⟩ := htotals c hc
  cases type with
  | credit =>
    rw [show c.totalCredit = nan from hnan] at hcredit
    exact not_le_nan _ hcredit
  | payment =>
    rw [show c.totalPaid = nan from hnan] at hpaid
    exact not_le_nan _ hpaid

theorem Call.Keeps.safe (hs : Sound s) {call : Call} (hkeeps : call.Keeps s) : call.Safe s := by
  cases call with
  | addTransaction env m cid txnType amount note =>
    rintro rfl
    rcases exec_addTransaction env m cid txnType nan note s with
      ⟨hle | hdeclines, -, -⟩ | ⟨-, -, t, oid, T, hnan, -, hT, hafter⟩
    · exact absurd hle (not_nan_le 0)
    · exact hdeclines
    · have hstored : t ∈ ((Call.addTransaction env m cid txnType nan note).exec
          s).2.transactions.docs := by
        rw [hafter, transactions_rescore, Store.incCustomer, docs_insertOne hT]
        exact List.mem_append_right _ List.mem_cons_self
      have hpos := hkeeps.amounts t hstored
      rw [hnan] at hpos
      exact absurd hpos (not_lt_nan 0)
  | editTransaction env tid m amount note =>
    intro t ht
    rcases exec_editTransaction env tid m amount note s with ⟨hnone, -, -⟩ | ⟨t', ht', hafter⟩
    · exact absurd ht (hnone t)
    · obtain rfl := ht.unique ht'
      have hwritten : (s.write t.id (some ⟨amount, note, true, env.utcnow 0⟩)).AmountsPositive := by
        have hamounts := hkeeps.amounts
        rw [hafter, transactions_amend] at hamounts
        exact hamounts
      refine ⟨(positive_write_iff hs.positive ht.1 _).mp hwritten _ rfl, ?_⟩
      have htotals := hkeeps.totals
      rw [hafter] at htotals
      exact settles_of_totals hs ht.1 htotals
  | deleteTransaction env tid m =>
    intro t ht
    rcases exec_deleteTransaction env tid m s with ⟨hnone, -⟩ | ⟨t', ht', hafter⟩
    · exact absurd ht (hnone t)
    · obtain rfl := ht.unique ht'
      have htotals := hkeeps.totals
      rw [hafter] at htotals
      exact settles_of_totals hs ht.1 htotals
  | deleteCustomer cid m => trivial

/-- A safe call that is given an amount that is not positive is refused. -/
theorem Call.Safe.refused {call : Call} (hsafe : call.Safe s) {amount : Amount}
    (hgiven : call.amount = some amount) (hamount : ¬0 < amount) :
    Outcome.accepted (call.exec s).1 = false ∧ (call.exec s).2 = s := by
  cases call with
  | addTransaction env m cid txnType given note =>
    obtain rfl := Option.some.inj hgiven
    rcases exec_addTransaction env m cid txnType given note s with
      ⟨-, hrefused⟩ | ⟨hpos, hdeclines, -⟩
    · exact hrefused
    · rcases lt_or_le_num 0 fun h => hdeclines (hsafe h) with hlt | hle
      · exact absurd hlt hamount
      · exact absurd hle hpos
  | editTransaction env tid m given note =>
    obtain rfl := Option.some.inj hgiven
    rcases exec_editTransaction env tid m given note s with ⟨-, hrefused⟩ | ⟨t, ht, -⟩
    · exact hrefused
    · exact absurd (hsafe t ht).1 hamount
  | deleteTransaction env tid m => exact absurd hgiven (by simp [Call.amount])
  | deleteCustomer cid m => exact absurd hgiven (by simp [Call.amount])

/-- **A call keeps amounts and totals as they should be exactly if it is safe.** -/
theorem keeps_iff (hs : Sound s) (call : Call) : call.Keeps s ↔ call.Safe s := by
  refine ⟨fun h => h.safe hs, fun hsafe => ⟨(hs.exec hsafe).positive, fun c hc => ?_, ?_⟩⟩
  · exact (hs.exec hsafe).totals_nonneg hc
  · exact fun amount hgiven hamount => hsafe.refused hgiven hamount

/-! ### Runs -/

/-- **Along a run the amounts stay positive, and the totals nonnegative, exactly as long as
every call is safe**; every other call that is given an amount that is not positive is refused
and leaves the store. -/
theorem amounts_positive_iff {calls : List Call} (hs : s.Exact)
    (hpos : ∀ t ∈ s.transactions.docs, 0 < t.amount) :
    Trace.Along Call.step Call.Keeps s calls ↔ Trace.Along Call.step Call.Safe s calls := by
  have hsound : Sound s := ⟨hs, hpos⟩
  exact Trace.along_congr (I := Sound) (fun _ call hs => keeps_iff hs call)
    (fun _ _ hsafe hs => hs.exec hsafe) hsound

/-! ### Ledgers of numbers -/

/-- What the transactions amount to is a number there. -/
theorem figure_ofStore (s : DigitalLedger.Store) (oid : ObjectId) (type : TxnType) :
    (ofStore s).figure oid type = num (DigitalLedger.sumAmounts (DigitalLedger.ofType type
      (s.transactions.docs.filter fun t => decide (t.owner = some oid)))) := by
  have hslot : ∀ t : DigitalLedger.Transaction,
      decide ((ofTransaction t).slot = some (oid, type)) =
        (decide (t.type = type) && decide (t.owner = some oid)) := by
    intro t
    rw [← Bool.decide_and, decide_eq_decide, slot_eq_some]
    exact and_comm
  calc (ofStore s).figure oid type
      = (((s.transactions.docs.map ofTransaction).filter fun t =>
          decide (t.slot = some (oid, type))).map Transaction.amount).sum :=
        account_eq_sum_filter _ _
    _ = ((s.transactions.docs.filter fun t =>
          decide (t.type = type) && decide (t.owner = some oid)).map fun t =>
            num t.amount).sum := by
        rw [List.filter_map, List.map_map]
        simp only [Function.comp_def, hslot]
        rfl
    _ = num (DigitalLedger.sumAmounts (DigitalLedger.ofType type
          (s.transactions.docs.filter fun t => decide (t.owner = some oid)))) := by
        rw [sum_map_num, DigitalLedger.ofType, List.filter_filter, DigitalLedger.sumAmounts]

/-- The totals of a ledger of numbers are exact where its running figures are. -/
theorem exact_ofStore {s : DigitalLedger.Store} (hs : s.Exact) : (ofStore s).Exact := by
  intro c' hc' type
  obtain ⟨c, hc, rfl⟩ := List.mem_map.mp hc'
  have htotals : c.totals = _ := (hs c hc).trans (effects_eq s c.id)
  rw [show (ofCustomer c).id = c.id from rfl, figure_ofStore]
  cases type with
  | credit => exact congrArg num (congrArg DigitalLedger.Totals.totalCredit htotals)
  | payment => exact congrArg num (congrArg DigitalLedger.Totals.totalPaid htotals)

instance (s : Store) (tid m : String) (P : Transaction → Prop) [DecidablePred P] :
    Decidable (∀ t, s.Names tid m t → P t) :=
  decidable_of_iff (∀ t ∈ s.transactions.docs,
      ObjectId.ofString? tid = some t.id ∧ t.merchantId = m → P t)
    ⟨fun h t ht => h t ht.1 ht.2, fun h t ht hnamed => h t ⟨ht, hnamed⟩⟩

instance (s : Store) (t : Transaction) : Decidable (s.Settles t) :=
  inferInstanceAs (Decidable (t.amount = posInf → ∀ c ∈ s.customers.docs,
    ObjectId.ofString? t.customerId ≠ some c.id))

instance (s : Store) (env : Env) (m cid txnType : String) :
    Decidable (s.Declines env m cid txnType) :=
  inferInstanceAs (Decidable (_ ∨ _ ∨ _))

instance (s : Store) : (call : Call) → Decidable (call.Safe s)
  | .addTransaction env m cid txnType amount _ =>
    inferInstanceAs (Decidable (amount = nan → s.Declines env m cid txnType))
  | .editTransaction _ tid m amount _ =>
    inferInstanceAs (Decidable (∀ t, s.Names tid m t → 0 < amount ∧ s.Settles t))
  | .deleteTransaction _ tid m =>
    inferInstanceAs (Decidable (∀ t, s.Names tid m t → s.Settles t))
  | .deleteCustomer _ _ => inferInstanceAs (Decidable True)

/-- A run on the sample ledger: a credit, an edit, a deletion, and a `nan` of a type that is
not listed. -/
def sampleAmends : List Call :=
  [.addTransaction (.sample 4 0) "m" (ObjectId.ofNat 1).str "credit" (num 10) "",
    .editTransaction (.sample 5 0) (ObjectId.ofNat 2).str "m" (num 60) "rice",
    .deleteTransaction (.sample 6 0) (ObjectId.ofNat 3).str "m",
    .addTransaction (.sample 7 0) "m" (ObjectId.ofNat 1).str "gift" nan ""]

/-- The amounts stay positive along it. -/
theorem amounts_positive_iff_sample :
    Trace.Along Call.step Call.Keeps (ofStore sampleStore) sampleAmends :=
  (amounts_positive_iff (exact_ofStore sampleStore_reachable.consistent.figures)
    (by decide +kernel)).mpr (by decide +kernel)

/-- An edit to a negative amount is accepted and stored. -/
theorem edit_negative :
    ¬∀ (bcrypt : Bcrypt) (s : DigitalLedger.Store), Reachable bcrypt s →
      (∀ t ∈ s.transactions.docs, 0 < t.amount) → ∀ calls : List Call,
        ∀ t ∈ (Trace.after Call.step (ofStore s) calls).transactions.docs, 0 < t.amount := by
  intro hclaim
  have hpos : ∀ t ∈ sampleStore.transactions.docs, 0 < t.amount := by decide +kernel
  have hafter := hclaim markingBcrypt sampleStore sampleStore_reachable hpos
    [.editTransaction (.sample 4 0) (ObjectId.ofNat 2).str "m" (num (-60)) ""]
  exact absurd hafter (by decide +kernel)

end Floating

end DigitalLedger
