import DigitalLedger.Integrity
import Mathlib.Algebra.BigOperators.Group.List.Lemmas
import Mathlib.Algebra.Order.BigOperators.Group.List

/-!
# Reconciling the dashboard

`get_summary_stats` adds up amounts of transactions and running figures of
customers.  The two kinds of sums agree for every merchant: its transactions are
those of its customers, so summing the customers' figures is summing the effects of
its transactions, each counted once.

## Main results

* `sum_le_sum_filter_pos`, `sum_filter_pos_eq_iff` — the positive part of a sum.
* `sum_totals_merchant` — the running figures of a merchant's customers add up to
  what its transactions amount to.
* `dashboard_reconciles` — the figures of the dashboard agree with the customers
  and defaulters it lists.
-/

namespace DigitalLedger

open Collection

/-! ### The positive part of a sum -/

section PositivePart

variable {α M : Type*} [AddCommGroup M] [LinearOrder M] [IsOrderedAddMonoid M] (g : α → M)

/-- Leaving out what is not positive does not make a sum smaller. -/
theorem sum_le_sum_filter_pos (l : List α) :
    (l.map g).sum ≤ ((l.filter fun a => decide (0 < g a)).map g).sum := by
  induction l with
  | nil => exact le_refl _
  | cons a l ih =>
    rw [List.map_cons, List.sum_cons]
    by_cases ha : 0 < g a
    · rw [List.filter_cons_of_pos (by simpa using ha), List.map_cons, List.sum_cons]
      exact add_le_add le_rfl ih
    · rw [List.filter_cons_of_neg (by simpa using ha)]
      have hle : g a + (l.map g).sum ≤ 0 + (l.map g).sum := add_le_add (not_lt.mp ha) le_rfl
      rw [zero_add] at hle
      exact hle.trans ih

/-- It keeps the sum exactly when nothing is negative. -/
theorem sum_filter_pos_eq_iff (l : List α) :
    ((l.filter fun a => decide (0 < g a)).map g).sum = (l.map g).sum ↔ ∀ a ∈ l, 0 ≤ g a := by
  induction l with
  | nil => simp
  | cons a l ih =>
    have hle := sum_le_sum_filter_pos g l
    rw [List.map_cons, List.sum_cons, List.forall_mem_cons, ← ih]
    by_cases ha : 0 < g a
    · rw [List.filter_cons_of_pos (by simpa using ha), List.map_cons, List.sum_cons,
        add_right_inj]
      exact ⟨fun h => ⟨ha.le, h⟩, fun h => h.2⟩
    · rw [List.filter_cons_of_neg (by simpa using ha)]
      constructor
      · -- a negative term would make the sum smaller than its positive part
        intro h
        have hnonneg : 0 ≤ g a := by
          by_contra hneg
          have hlt : g a + (l.map g).sum < 0 + (l.map g).sum :=
            add_lt_add_of_lt_of_le (not_le.mp hneg) le_rfl
          rw [zero_add, ← h] at hlt
          exact absurd hle (not_le.mpr hlt)
        have hzero : g a = 0 := le_antisymm (not_lt.mp ha) hnonneg
        rw [hzero, zero_add] at h
        exact ⟨hnonneg, h⟩
      · rintro ⟨hnonneg, h⟩
        rw [h, le_antisymm (not_lt.mp ha) hnonneg, zero_add]

end PositivePart

/-! ### Sums over the customers of a merchant -/

variable {bcrypt : Bcrypt} {s : Store}

/-- The customers of a merchant. -/
def Store.customersOf (s : Store) (m : String) : List Customer :=
  s.customers.find { merchantId := some m }

/-- The transactions of a merchant. -/
def Store.transactionsBy (s : Store) (m : String) : List Transaction :=
  s.transactions.find { merchantId := some m }

theorem mem_customersOf {m : String} {c : Customer} :
    c ∈ s.customersOf m ↔ c ∈ s.customers.docs ∧ c.merchantId = m := by
  rw [Store.customersOf, mem_find, test_customer_merchant]

/-- A transaction of a consistent store is its merchant's exactly when the customer
it refers to is. -/
theorem Consistent.merchant_iff (hs : Consistent s) {t : Transaction}
    (ht : t ∈ s.transactions.docs) (m : String) :
    t.merchantId = m ↔ ∃ a ∈ (s.customersOf m).map CustomerDoc.id, t.owner = some a := by
  obtain ⟨c, hc, hid, hm, -⟩ := hs.refers t ht
  have howner : t.owner = some c.id := by
    rw [TransactionDoc.owner, hid, ObjectId.ofString?_str]
  constructor
  · intro htm
    have hcm : c ∈ s.customersOf m := mem_customersOf.mpr ⟨hc, hm.symm.trans htm⟩
    exact ⟨c.id, List.mem_map_of_mem hcm, howner⟩
  · rintro ⟨a, ha, ha'⟩
    obtain ⟨c', hc', rfl⟩ := List.mem_map.mp ha
    obtain ⟨hc', hm'⟩ := mem_customersOf.mp hc'
    have hcc' : c = c' := customer_eq_of_id hc hc' (Option.some.inj (howner.symm.trans ha'))
    rw [hm, hcc', hm']

/-- **The running figures of a merchant's customers add up to what its transactions
amount to.** -/
theorem sum_totals_merchant (hs : Consistent s) (m : String) :
    ((s.customersOf m).map CustomerDoc.totals).sum =
      ((s.transactionsBy m).map TransactionDoc.effect).sum := by
  have hexact : (s.customersOf m).map CustomerDoc.totals =
      ((s.customersOf m).map CustomerDoc.id).map s.effects := by
    rw [List.map_map]
    exact List.map_congr_left fun c hc => hs.figures c (mem_customersOf.mp hc).1
  have hnodup : ((s.customersOf m).map CustomerDoc.id).Nodup :=
    s.customers.nodup.sublist (List.filter_sublist.map _)
  -- each transaction of the merchant is counted with one customer of the merchant
  have hexchange : (((s.customersOf m).map CustomerDoc.id).map fun a =>
        s.transactions.account TransactionDoc.owner TransactionDoc.effect a).sum =
      ((s.transactionsBy m).map TransactionDoc.effect).sum :=
    sum_account hnodup fun t ht => test_transaction_merchant.trans (hs.merchant_iff ht m)
  rw [hexact]
  exact hexchange

theorem sum_balance (cs : List Customer) :
    (cs.map fun c => c.balance).sum = (cs.map CustomerDoc.totals).sum.balance := by
  have h := map_list_sum Totals.balanceHom (cs.map CustomerDoc.totals)
  rw [List.map_map] at h
  exact h.symm

theorem sum_totalCredit (cs : List Customer) :
    (cs.map fun c => c.totalCredit).sum = (cs.map CustomerDoc.totals).sum.totalCredit := by
  have h := map_list_sum Totals.totalCreditHom (cs.map CustomerDoc.totals)
  rw [List.map_map] at h
  exact h.symm

theorem sum_totalPaid (cs : List Customer) :
    (cs.map fun c => c.totalPaid).sum = (cs.map CustomerDoc.totals).sum.totalPaid := by
  have h := map_list_sum Totals.totalPaidHom (cs.map CustomerDoc.totals)
  rw [List.map_map] at h
  exact h.symm

/-- The defaulters are the customers that owe money. -/
theorem find_owing (s : Store) (m : String) :
    s.customers.find { merchantId := some m, balanceGt := some 0 } =
      (s.customersOf m).filter fun c => decide (0 < c.balance) := by
  rw [Store.customersOf, find, find, List.filter_filter]
  refine List.filter_congr fun c _ => ?_
  rw [Bool.eq_iff_iff, test_customer_owing, Bool.and_eq_true, decide_eq_true_eq,
    test_customer_merchant, and_comm]

/-- The sizes of the groups add up to the number of customers. -/
theorem sum_groupSizes (categories : List RiskCategory) :
    ((groupSizes categories).map Prod.snd).sum = categories.length := by
  rw [groupSizes, List.map_map]
  have hperm := List.perm_insertionSort (fun a b : RiskCategory => a.str ≤ b.str)
    categories.dedup
  calc ((categories.dedup.insertionSort fun a b => a.str ≤ b.str).map
        (Prod.snd ∘ fun category => (category, categories.count category))).sum
      = (categories.dedup.map fun category => categories.count category).sum :=
        (hperm.map _).sum_eq
    _ = categories.length := List.sum_map_count_dedup_eq_length categories

/-! ### The dashboard -/

/-- **The dashboard reconciles**: in every reachable state its credit, payments and
defaulters are those of the customers listed, what is outstanding is at least the
difference of credit and payments, with equality when no balance is negative, and
the risk distribution counts every customer. -/
theorem dashboard_reconciles (h : Reachable bcrypt s) (m : String) :
    ∃ stats customers defaulters distribution,
      Prog.run exec (getSummaryStats m) s = (.ok stats, s) ∧
      Prog.run exec (getCustomers m) s = (.ok customers, s) ∧
      Prog.run exec (getDefaulters m) s = (.ok defaulters, s) ∧
      Prog.run exec (getRiskDistribution m) s = (.ok distribution, s) ∧
      stats.totalCredit = (customers.map fun c => c.totalCredit).sum ∧
      stats.totalPayment = (customers.map fun c => c.totalPaid).sum ∧
      stats.totalCredit - stats.totalPayment = (customers.map fun c => c.balance).sum ∧
      stats.defaulters = defaulters.length ∧
      stats.totalOutstanding = (defaulters.map fun c => c.balance).sum ∧
      stats.totalCredit - stats.totalPayment ≤ stats.totalOutstanding ∧
      (stats.totalOutstanding = stats.totalCredit - stats.totalPayment ↔
        ∀ c ∈ customers, 0 ≤ c.balance) ∧
      (distribution.map Prod.snd).sum = stats.totalCustomers := by
  -- the three running figures, each read off one sum over the customers
  have hsum := (sum_totals_merchant h.consistent m).trans (sum_effect _)
  have hcredit := (sum_totalCredit (s.customersOf m)).trans (congrArg Totals.totalCredit hsum)
  have hpaid := (sum_totalPaid (s.customersOf m)).trans (congrArg Totals.totalPaid hsum)
  have hbalance := (sum_balance (s.customersOf m)).trans (congrArg Totals.balance hsum)
  refine ⟨summaryOf (s.customersOf m) (s.transactionsBy m),
    (s.customersOf m).map CustomerDoc.withStrId,
    ((s.customersOf m).filter fun c => decide (0 < c.balance)).map CustomerDoc.withStrId,
    groupSizes ((s.customersOf m).map fun c => c.riskCategory), rfl, rfl, ?_, rfl, ?_⟩
  · rw [← find_owing]
    rfl
  simp only [List.map_map, List.length_map, List.forall_mem_map]
  have hdiff : (summaryOf (s.customersOf m) (s.transactionsBy m)).totalCredit -
      (summaryOf (s.customersOf m) (s.transactionsBy m)).totalPayment =
        ((s.customersOf m).map fun c => c.balance).sum := hbalance.symm
  refine ⟨hcredit.symm, hpaid.symm, hdiff, ?_, rfl, ?_, ?_, ?_⟩
  · exact List.countP_eq_length_filter
  · rw [hdiff]
    exact sum_le_sum_filter_pos _ _
  · rw [hdiff]
    exact sum_filter_pos_eq_iff (fun c : Customer => c.balance) _
  · rw [sum_groupSizes, List.length_map]
    rfl

/-- The dashboard of the sample ledger. -/
theorem dashboard_reconciles_sample :
    ∃ stats customers defaulters distribution,
      Prog.run exec (getSummaryStats "m") sampleStore = (.ok stats, sampleStore) ∧
      Prog.run exec (getCustomers "m") sampleStore = (.ok customers, sampleStore) ∧
      Prog.run exec (getDefaulters "m") sampleStore = (.ok defaulters, sampleStore) ∧
      Prog.run exec (getRiskDistribution "m") sampleStore = (.ok distribution, sampleStore) ∧
      stats.totalCredit = (customers.map fun c => c.totalCredit).sum ∧
      stats.totalPayment = (customers.map fun c => c.totalPaid).sum ∧
      stats.totalCredit - stats.totalPayment = (customers.map fun c => c.balance).sum ∧
      stats.defaulters = defaulters.length ∧
      stats.totalOutstanding = (defaulters.map fun c => c.balance).sum ∧
      stats.totalCredit - stats.totalPayment ≤ stats.totalOutstanding ∧
      (stats.totalOutstanding = stats.totalCredit - stats.totalPayment ↔
        ∀ c ∈ customers, 0 ≤ c.balance) ∧
      (distribution.map Prod.snd).sum = stats.totalCustomers :=
  dashboard_reconciles sampleStore_reachable "m"

end DigitalLedger
