import DigitalLedger.Moves

/-!
# Integrity of the ledger

What the invariant of `DigitalLedger.Moves` says about every reachable state, in the
words of the documents: the running figures are sums over the transactions that
carry the customer's identifier, and every transaction carries the identifier, the
merchant and the name of one stored customer.

## Main definitions

* `Store.transactionsOf` — the transactions that carry a customer's identifier.
* `Store.respelt` — those that name it by another spelling.
* `Store.Balanced` — the running figures are the sums over the transactions that carry the
  identifier.

## Main results

* `effects_eq_add_respelt`, `exact_iff_balanced` — what the figures by the identifier read and
  those by its text differ in, and that they do not differ where every text is canonical.
* `running_totals_exact` — in every reachable state the running figures are sums
  over the transactions.
* `Consistent.carries` — what a transaction carries of its customer.
* `transactions_refer` — every stored transaction refers to exactly one stored
  customer, and deleting a customer deletes its transactions and no others.
-/

namespace DigitalLedger

open Collection

variable {bcrypt : Bcrypt} {s : Store}

/-- The transactions that carry the identifier of a customer. -/
def Store.transactionsOf (s : Store) (c : Customer) : List Transaction :=
  s.transactions.docs.filter fun t => t.customerId = c.id.str

/-- The transactions that name a customer by another spelling of its identifier. -/
def Store.respelt (s : Store) (c : Customer) : List Transaction :=
  s.transactions.docs.filter fun t => t.owner = some c.id ∧ t.customerId ≠ c.id.str

/-- The running figures are the sums of the amounts of the credits and of the payments that
carry the customer's identifier, and their difference. -/
def Store.Balanced (s : Store) : Prop :=
  ∀ c ∈ s.customers.docs,
    c.totalCredit = sumAmounts (ofType .credit (s.transactionsOf c)) ∧
      c.totalPaid = sumAmounts (ofType .payment (s.transactionsOf c)) ∧
      c.balance = c.totalCredit - c.totalPaid

/-! ### Two readings of `customer_id` -/

/-- The scoring, the lists and the deletion of a customer compare `customer_id` as a text, an
edit and a deletion of a transaction read the identifier off it: the two see different
transactions where an identifier is spelt otherwise. -/
theorem effects_eq_add_respelt (s : Store) (c : Customer) :
    s.effects c.id = ((s.transactionsOf c).map TransactionDoc.effect).sum +
      ((s.respelt c).map TransactionDoc.effect).sum := by
  rw [Store.effects, account_eq_sum_filter, Store.transactionsOf, Store.respelt]
  induction s.transactions.docs with
  | nil => exact (add_zero _).symm
  | cons t txns ih =>
    by_cases hid : t.customerId = c.id.str
    · have howner : t.owner = some c.id := by
        rw [TransactionDoc.owner, hid, ObjectId.ofString?_str]
      rw [List.filter_cons_of_pos (by simpa using howner),
        List.filter_cons_of_pos (by simpa using hid),
        List.filter_cons_of_neg (by simp [hid]), List.map_cons, List.map_cons, List.sum_cons,
        List.sum_cons, ih, add_assoc]
    · by_cases howner : t.owner = some c.id
      · rw [List.filter_cons_of_pos (by simpa using howner),
          List.filter_cons_of_neg (by simpa using hid),
          List.filter_cons_of_pos (by simp [hid, howner]), List.map_cons, List.map_cons,
          List.sum_cons, List.sum_cons, ih, add_left_comm]
      · rw [List.filter_cons_of_neg (by simpa using howner),
          List.filter_cons_of_neg (by simpa using hid),
          List.filter_cons_of_neg (by simp [howner]), ih]

/-- A customer's figures are the sums over a list of transactions. -/
theorem totals_eq_iff {c : Customer} {txns : List Transaction} :
    c.totals = (txns.map TransactionDoc.effect).sum ↔
      c.totalCredit = sumAmounts (ofType .credit txns) ∧
        c.totalPaid = sumAmounts (ofType .payment txns) ∧
        c.balance = c.totalCredit - c.totalPaid := by
  rw [sum_effect, Totals.ext_iff]
  constructor
  · rintro ⟨hbalance, hcredit, hpaid⟩
    exact ⟨hcredit, hpaid, by rw [show c.totalCredit = _ from hcredit,
      show c.totalPaid = _ from hpaid]; exact hbalance⟩
  · rintro ⟨hcredit, hpaid, hbalance⟩
    exact ⟨by rw [← hcredit, ← hpaid]; exact hbalance, hcredit, hpaid⟩

/-- **Where every `customer_id` is a canonical text the two readings agree.** -/
theorem exact_iff_balanced
    (hcanonical : ∀ t ∈ s.transactions.docs, ObjectId.Canonical t.customerId) :
    s.Exact ↔ s.Balanced := by
  refine forall₂_congr fun c _ => ?_
  have hnone : s.respelt c = [] := by
    refine List.filter_eq_nil_iff.mpr fun t ht => ?_
    obtain ⟨oid, hid⟩ := hcanonical t ht
    rw [TransactionDoc.owner, hid, ObjectId.ofString?_str]
    simp
  rw [effects_eq_add_respelt, hnone, List.map_nil, List.sum_nil, add_zero, totals_eq_iff]

theorem Consistent.canonical_customerId (hs : Consistent s) {t : Transaction}
    (ht : t ∈ s.transactions.docs) : ObjectId.Canonical t.customerId := by
  obtain ⟨c, -, hid, -⟩ := hs.refers t ht
  exact ⟨c.id, hid⟩

theorem Consistent.balanced (hs : Consistent s) : s.Balanced :=
  (exact_iff_balanced fun _ => hs.canonical_customerId).mp hs.figures

theorem Consistent.balance_eq (hs : Consistent s) {c : Customer} (hc : c ∈ s.customers.docs) :
    c.balance = sumAmounts (ofType .credit (s.transactionsOf c)) -
      sumAmounts (ofType .payment (s.transactionsOf c)) := by
  obtain ⟨hcredit, hpaid, hbalance⟩ := hs.balanced c hc
  rw [hbalance, hcredit, hpaid]

/-! ### The running figures -/

/-- **The running figures are exact in every reachable state**: they are the sums of
the amounts of the credits and of the payments that carry the customer's
identifier, and their difference. -/
theorem running_totals_exact (h : Reachable bcrypt s) {c : Customer}
    (hc : c ∈ s.customers.docs) :
    c.totalCredit = sumAmounts (ofType .credit (s.transactionsOf c)) ∧
      c.totalPaid = sumAmounts (ofType .payment (s.transactionsOf c)) ∧
      c.balance = c.totalCredit - c.totalPaid :=
  h.consistent.balanced c hc

/-- The sample ledger: 50 of credit, 20 paid, 30 owed. -/
theorem running_totals_exact_sample :
    sampleCustomer.totalCredit =
        sumAmounts (ofType .credit (sampleStore.transactionsOf sampleCustomer)) ∧
      sampleCustomer.totalPaid =
        sumAmounts (ofType .payment (sampleStore.transactionsOf sampleCustomer)) ∧
      sampleCustomer.balance = sampleCustomer.totalCredit - sampleCustomer.totalPaid :=
  running_totals_exact sampleStore_reachable sampleCustomer_mem

/-! ### References -/

/-- What a successful `delete_customer` leaves of the transactions. -/
theorem transactions_deleteCustomer {cid m : String} {s' : Store}
    (hexec : Call.exec bcrypt (.deleteCustomer cid m) s = (.ok (.done (.success ())), s')) :
    s'.transactions = s.transactions.deleteMany { customerId := some cid } := by
  rw [Call.exec, Call.code, Prog.run_map, run_deleteCustomer] at hexec
  cases hcid : ObjectId.ofString? cid with
  | none => simp [hcid, Except.map] at hexec
  | some oid =>
    simp only [hcid] at hexec
    cases hfind : s.customers.findOne { id := some oid, merchantId := some m } with
    | none => simp [hfind, Except.map] at hexec
    | some c =>
      simp only [hfind, Prod.mk.injEq] at hexec
      rw [← hexec.2]

/-- A transaction that carries a customer's identifier carries its merchant and its name. -/
theorem Consistent.carries (hs : Consistent s) {c : Customer} (hc : c ∈ s.customers.docs)
    {t : Transaction} (ht : t ∈ s.transactions.docs) (hid : t.customerId = c.id.str) :
    t.merchantId = c.merchantId ∧ t.customerName = c.name := by
  obtain ⟨c', hc', hid', hm, hn⟩ := hs.refers t ht
  rw [customer_eq_of_id hc hc' (ObjectId.str_injective (hid.symm.trans hid'))]
  exact ⟨hm, hn⟩

/-- **Every stored transaction refers to exactly one stored customer**, whose
merchant and name it carries; and a successful `delete_customer` leaves no
transaction of that customer and every transaction of the others. -/
theorem transactions_refer (h : Reachable bcrypt s) :
    (∀ t ∈ s.transactions.docs,
      (∃! c, c ∈ s.customers.docs ∧ c.id.str = t.customerId) ∧
        ∀ c ∈ s.customers.docs, c.id.str = t.customerId →
          c.merchantId = t.merchantId ∧ c.name = t.customerName) ∧
      ∀ cid m s', ObjectId.Canonical cid →
        Call.exec bcrypt (.deleteCustomer cid m) s = (.ok (.done (.success ())), s') →
          (∀ t ∈ s'.transactions.docs, t.customerId ≠ cid) ∧
            ∀ t ∈ s.transactions.docs, t.customerId ≠ cid → t ∈ s'.transactions.docs := by
  have hs := h.consistent
  refine ⟨fun t ht => ?_, fun cid m s' _ hexec => ?_⟩
  · obtain ⟨c, hc, hid, -⟩ := hs.refers t ht
    have hunique : ∀ c' ∈ s.customers.docs, c'.id.str = t.customerId → c' = c := by
      intro c' hc' hid'
      exact customer_eq_of_id hc' hc (ObjectId.str_injective (hid'.trans hid))
    refine ⟨⟨c, ⟨hc, hid.symm⟩, fun c' h' => hunique c' h'.1 h'.2⟩, fun c' hc' hid' => ?_⟩
    obtain ⟨hm, hn⟩ := hs.carries hc' ht hid'.symm
    exact ⟨hm.symm, hn.symm⟩
  · rw [transactions_deleteCustomer hexec]
    have hmem : ∀ t : Transaction,
        t ∈ (s.transactions.deleteMany { customerId := some cid }).docs ↔
          t ∈ s.transactions.docs ∧ t.customerId ≠ cid := by
      intro t
      rw [mem_deleteMany, Bool.eq_false_iff, Ne, test_transaction_customer]
    refine ⟨fun t ht => ((hmem t).mp ht).2, fun t ht hne => (hmem t).mpr ⟨ht, hne⟩⟩

/-- In the sample ledger both transactions refer to the one customer, and deleting
it deletes them. -/
theorem transactions_refer_sample :
    (∀ t ∈ sampleStore.transactions.docs,
      (∃! c, c ∈ sampleStore.customers.docs ∧ c.id.str = t.customerId) ∧
        ∀ c ∈ sampleStore.customers.docs, c.id.str = t.customerId →
          c.merchantId = t.merchantId ∧ c.name = t.customerName) ∧
      ∀ cid m s', ObjectId.Canonical cid →
        Call.exec markingBcrypt (.deleteCustomer cid m) sampleStore =
            (.ok (.done (.success ())), s') →
          (∀ t ∈ s'.transactions.docs, t.customerId ≠ cid) ∧
            ∀ t ∈ sampleStore.transactions.docs, t.customerId ≠ cid →
              t ∈ s'.transactions.docs :=
  transactions_refer sampleStore_reachable

end DigitalLedger
