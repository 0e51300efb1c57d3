import DigitalLedger.Transactions
import Mathlib.Data.Rat.Floor

/-!
# Analytics

The dashboard figures of `analytics.py`.  `get_summary_stats` mixes sums over the
transactions with sums over the running figures of the customers.

## Main definitions

* `getSummaryStats` — the dashboard summary.
* `getRiskDistribution` — the number of customers in each risk category.
-/

namespace DigitalLedger

/-- The dictionary `get_summary_stats` returns. -/
structure SummaryStats where
  totalCustomers : ℕ
  defaulters : ℕ
  totalOutstanding : ℚ
  totalCredit : ℚ
  totalPayment : ℚ
  collectionRate : ℚ
  deriving DecidableEq

/-- Rounding to an integer, halves to the even one. -/
def roundHalfEven (x : ℚ) : ℤ :=
  let n := ⌊x⌋
  if x - n < 1 / 2 then n
  else if 1 / 2 < x - n then n + 1
  else if n % 2 = 0 then n
  else n + 1

/-- `round(x, 1)` of the exact number; Python rounds the double that was computed. -/
def roundOneDecimal (x : ℚ) : ℚ := roundHalfEven (10 * x) / 10

/-- The summary of a merchant's customers and transactions. -/
def summaryOf (customers : List Customer) (txns : List Transaction) : SummaryStats :=
  let totalCredit := sumAmounts (ofType .credit txns)
  let totalPayment := sumAmounts (ofType .payment txns)
  let collectionRate := if totalCredit > 0 then totalPayment / totalCredit * 100 else 0
  { totalCustomers := customers.length
    defaulters := customers.countP fun c => decide (c.balance > 0)
    totalOutstanding := ((customers.filter fun c => c.balance > 0).map fun c => c.balance).sum
    totalCredit := totalCredit
    totalPayment := totalPayment
    collectionRate := roundOneDecimal collectionRate }

/-- `get_summary_stats` -/
def getSummaryStats (merchantId : String) : Db SummaryStats := do
  let customers ← CustomersCol.find { merchantId := some merchantId }
  let txns ← TransactionsCol.find { merchantId := some merchantId }
  return summaryOf customers txns

/-- `df.groupby("category").size()`: the categories that occur, in the order of
their texts, each with how often it occurs. -/
def groupSizes (categories : List RiskCategory) : List (RiskCategory × ℕ) :=
  (categories.dedup.insertionSort fun a b => a.str ≤ b.str).map fun category =>
    (category, categories.count category)

/-- `get_risk_distribution` -/
def getRiskDistribution (merchantId : String) : Db (List (RiskCategory × ℕ)) := do
  let customers ← CustomersCol.find { merchantId := some merchantId }
  return groupSizes (customers.map fun c => c.riskCategory)

end DigitalLedger
