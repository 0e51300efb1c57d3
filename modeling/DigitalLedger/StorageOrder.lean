import DigitalLedger.Calls
import DigitalLedger.Profiles
import DigitalLedger.Runs

/-!
# The order of the collection

MongoDB promises no order among documents, and none among those that a sort finds equal.
`compute_credit_score` sorts by date and then looks at the last payment, so an order the
application does not control might show in a score.  It does not: the rules read the types,
amounts and dates of the transactions, and nothing of their order.

## Main definitions

* `DateSort` — a sort by date, with its ties resolved in any way.
* `computeCreditScoreBy` — `compute_credit_score` over such a sort.

## Main results

* `scoringRules_sorted` — the rules over any list in ascending order of date.
* `score_order_free` — two runs that read the same types, amounts and dates.
-/

namespace DigitalLedger

open Collection Prog

/-! ### Sorts by date -/

/-- What `.sort("date", 1)` may be: the transactions in ascending order of date, ties
resolved in any way. -/
structure DateSort where
  sort : List Transaction → List Transaction
  perm : ∀ txns, (sort txns).Perm txns
  ascending : ∀ txns, (sort txns).Pairwise fun t t' => t.date ≤ t'.date

namespace DateSort

/-- Ties in the order of the collection. -/
def stable : DateSort := ⟨sortByDate, sortByDate_perm, sortByDate_pairwise⟩

/-- Ties against the order of the collection. -/
def reversed : DateSort where
  sort txns := sortByDate txns.reverse
  perm txns := (sortByDate_perm txns.reverse).trans txns.reverse_perm
  ascending txns := sortByDate_pairwise txns.reverse

end DateSort

/-- `compute_credit_score`, the database sorting by date in its own way. -/
def computeCreditScoreBy (order : DateSort) (now : Time) (customerId : String) :
    Db (ℤ × RiskCategory) := do
  let oid ← objectId customerId
  match ← CustomersCol.findOne { id := some oid } with
  | none => return (100, .lowRisk)
  | some customer =>
    let txns ← TransactionsCol.find { customerId := some customerId }
    let (score, category) := scoringRules (order.sort txns) customer.balance now
    let _ ← CustomersCol.updateOne { id := some oid }
      { creditScore := some score, riskCategory := some category }
    return (score, category)

theorem computeCreditScoreBy_stable (now : Time) (cid : String) :
    computeCreditScoreBy .stable now cid = computeCreditScore now cid := rfl

/-! ### The rules -/

/-- **The rules over any list in ascending order of date** are those over the list as
`sortByDate` orders it. -/
theorem scoringRules_sorted {txns txns' : List Transaction}
    (hsorted : txns.Pairwise fun t t' => t.date ≤ t'.date)
    (hsorted' : txns'.Pairwise fun t t' => t.date ≤ t'.date)
    (h : (txns.map TransactionDoc.scoredPart).Perm (txns'.map TransactionDoc.scoredPart))
    (balance : ℚ) (now : Time) :
    scoringRules txns balance now = scoringRules txns' balance now := by
  have hempty : txns.isEmpty = txns'.isEmpty := by
    rw [Bool.eq_iff_iff, List.isEmpty_iff, List.isEmpty_iff, ← List.length_eq_zero_iff,
      ← List.length_eq_zero_iff, ← List.length_map (f := TransactionDoc.scoredPart), h.length_eq,
      List.length_map]
  have hscore : creditScore txns balance now = creditScore txns' balance now := by
    rw [creditScore_of_pairwise balance now hsorted, creditScore_of_pairwise balance now hsorted',
      profile_congr h]
  rw [scoringRules, scoringRules, hempty, hscore]

theorem scoringRules_sort (order order' : DateSort) {txns txns' : List Transaction}
    (h : (txns.map TransactionDoc.scoredPart).Perm (txns'.map TransactionDoc.scoredPart))
    (balance : ℚ) (now : Time) :
    scoringRules (order.sort txns) balance now = scoringRules (order'.sort txns') balance now := by
  refine scoringRules_sorted (order.ascending txns) (order'.ascending txns') ?_ balance now
  have hparts := (order.perm txns).map TransactionDoc.scoredPart
  have hparts' := (order'.perm txns').map TransactionDoc.scoredPart
  exact (hparts.trans h).trans hparts'.symm

/-! ### Whole runs -/

variable {s s' : Store} {cid : String} {oid : ObjectId}

/-- `compute_credit_score` returns the pair it stores, whichever way the database sorts. -/
theorem run_computeCreditScoreBy (order : DateSort) (now : Time)
    (hcid : ObjectId.ofString? cid = some oid) {c : Customer}
    (hc : s.customers.findOne { id := some oid } = some c) :
    let pair := scoringRules (order.sort (s.transactions.find { customerId := some cid }))
      c.balance now
    run exec (computeCreditScoreBy order now cid) s = (.ok pair, s.setScore oid pair) := by
  intro pair
  simp only [computeCreditScoreBy, objectId_eq_ret hcid, ret_bind, run_bind,
    run_customers_findOne, andThen_ok, hc]
  rfl

/-- **The score does not depend on the order of the collection.**  Two runs of
`compute_credit_score` at one time, over collections that hold the customer with the same
balance and transactions of the same types, amounts and dates, in whatever order and with
ties of the sort resolved in any way, return and store the same score and category. -/
theorem score_order_free (order order' : DateSort) (now : Time)
    (hcid : ObjectId.ofString? cid = some oid) {c c' : Customer}
    (hc : s.customers.findOne { id := some oid } = some c)
    (hc' : s'.customers.findOne { id := some oid } = some c') (hbalance : c.balance = c'.balance)
    (htxns : ((s.transactions.find { customerId := some cid }).map
      TransactionDoc.scoredPart).Perm
        ((s'.transactions.find { customerId := some cid }).map TransactionDoc.scoredPart)) :
    ∃ pair, run exec (computeCreditScoreBy order now cid) s = (.ok pair, s.setScore oid pair) ∧
      run exec (computeCreditScoreBy order' now cid) s' = (.ok pair, s'.setScore oid pair) := by
  refine ⟨_, run_computeCreditScoreBy order now hcid hc, ?_⟩
  rw [scoringRules_sort order order' htxns, hbalance]
  exact run_computeCreditScoreBy order' now hcid hc'

/-- The sample customer, its ties resolved in two ways. -/
theorem score_order_free_sample :
    ∃ pair, run exec (computeCreditScoreBy .stable 0 sampleCustomer.id.str) sampleStore =
        (.ok pair, sampleStore.setScore sampleCustomer.id pair) ∧
      run exec (computeCreditScoreBy .reversed 0 sampleCustomer.id.str) sampleStore =
        (.ok pair, sampleStore.setScore sampleCustomer.id pair) := by
  have hfind : sampleStore.customers.findOne { id := some sampleCustomer.id } =
      some sampleCustomer := by decide +kernel
  exact score_order_free .stable .reversed 0 (ObjectId.ofString?_str _) hfind hfind rfl (.refl _)

end DigitalLedger
