import DigitalLedger.Database
import DigitalLedger.Lib.Steps
import Mathlib.Algebra.Order.Field.Basic
import Mathlib.Data.List.Sort

/-!
# The credit scoring rules

`compute_credit_score` of `customers.py` rates a customer between 0 and 100 by six
factors, read off the customer's transactions in ascending order of date and off
the running balance, and files the score under a risk category.  This module
holds the rules; reading their inputs and storing the result is in
`DigitalLedger.Customers`.

## Main definitions

* `paymentRatioPoints`, `overduePoints`, `balancePoints`, `frequencyPoints`,
  `recencyPoints`, `consistencyPoints` — the six factors.
* `creditScore`, `riskCategory` — the score and its category.
* `scoringRules` — the pair the application stores.

## Main results

* `ratioBand_rises`, `balancePoints_rises`, … — the scales respect the order of what they
  grade.
* `creditScore_le_100`, `creditScore_nonneg` — scores stay on the scale.
* `scoringRules_snd` — the rules give every score its category.
* `riskCategory_settled` — the category of a settled account is never one of the
  two worst.
-/

namespace DigitalLedger

/-- `.sort("date", 1)`: ascending by date, ties in the order of the collection. -/
def sortByDate (txns : List Transaction) : List Transaction :=
  txns.insertionSort fun t t' => t.date ≤ t'.date

/-- `(now - date).days`: the whole days elapsed, rounded down. -/
def daysSince (now date : Time) : ℤ := (now - date) / 86400000

/-- `[t for t in txns if t["type"] == type]` -/
def ofType (type : TxnType) (txns : List Transaction) : List Transaction :=
  txns.filter fun t => t.type = type

/-- `sum(t["amount"] for t in txns)` -/
def sumAmounts (txns : List Transaction) : ℚ := (txns.map fun t => t.amount).sum

/-- The bands of factor 1. -/
def ratioBand (ratio : ℚ) : ℤ :=
  if ratio ≥ 1 then 30
  else if ratio ≥ 0.85 then 26
  else if ratio ≥ 0.70 then 22
  else if ratio ≥ 0.55 then 17
  else if ratio ≥ 0.40 then 12
  else if ratio ≥ 0.25 then 7
  else if ratio ≥ 0.10 then 3
  else 0

/-- Factor 1, the share of the credit paid back: 0 to 30 points, in full when no
credit was given. -/
def paymentRatioPoints (totalCredit totalPaid : ℚ) : ℤ :=
  if totalCredit > 0 then ratioBand (totalPaid / totalCredit) else 30

/-- The number of credits older than thirty days. -/
def overdueCount (credits : List Transaction) (now : Time) : ℕ :=
  credits.countP fun t => decide (daysSince now t.date > 30)

/-- Factor 2, overdue credits: 0 to 20 points. -/
def overduePoints (count : ℕ) : ℤ :=
  if count = 0 then 20
  else if count = 1 then 14
  else if count = 2 then 8
  else if count = 3 then 3
  else 0

/-- Factor 3, the outstanding balance: 0 to 20 points. -/
def balancePoints (balance : ℚ) : ℤ :=
  if balance ≤ 0 then 20
  else if balance ≤ 500 then 18
  else if balance ≤ 1000 then 16
  else if balance ≤ 3000 then 13
  else if balance ≤ 5000 then 10
  else if balance ≤ 10000 then 7
  else if balance ≤ 25000 then 4
  else if balance ≤ 100000 then 2
  else 0

/-- Factor 4, the number of payments: 0 to 15 points. -/
def frequencyPoints (numPayments : ℕ) : ℤ :=
  if numPayments ≥ 10 then 15
  else if numPayments ≥ 7 then 12
  else if numPayments ≥ 5 then 9
  else if numPayments ≥ 3 then 6
  else if numPayments ≥ 1 then 3
  else 0

/-- The bands of factor 5. -/
def recencyBand (days : ℤ) : ℤ :=
  if days ≤ 7 then 10
  else if days ≤ 15 then 8
  else if days ≤ 30 then 6
  else if days ≤ 60 then 4
  else if days ≤ 90 then 2
  else 0

/-- Factor 5, the days since the last payment: 0 to 10 points, none without a
payment. -/
def recencyPoints (payments : List Transaction) (now : Time) : ℤ :=
  match payments.getLast? with
  | none => 0
  | some last => recencyBand (daysSince now last.date)

/-- The bands of factor 6. -/
def consistencyBand (ratio : ℚ) : ℤ :=
  if ratio ≥ 1 then 5
  else if ratio ≥ 0.75 then 3
  else if ratio ≥ 0.50 then 1
  else 0

/-- Factor 6, payments for every credit: 0 to 5 points, none unless there are
both. -/
def consistencyPoints (numCredits numPayments : ℕ) : ℤ :=
  if numCredits ≠ 0 ∧ numPayments ≠ 0 then consistencyBand (numPayments / numCredits) else 0

/-- The score of a customer who has transactions, listed in ascending order of
date. -/
def creditScore (txns : List Transaction) (balance : ℚ) (now : Time) : ℤ :=
  let credits := ofType .credit txns
  let payments := ofType .payment txns
  let score :=
    paymentRatioPoints (sumAmounts credits) (sumAmounts payments)
      + overduePoints (overdueCount credits now)
      + balancePoints balance
      + frequencyPoints payments.length
      + recencyPoints payments now
      + consistencyPoints credits.length payments.length
  max 0 (min 100 score)

/-- The category of a score. -/
def riskCategory (score : ℤ) : RiskCategory :=
  if score ≥ 80 then .excellent
  else if score ≥ 65 then .lowRisk
  else if score ≥ 50 then .mediumRisk
  else if score ≥ 30 then .highRisk
  else .defaulter

/-- The score and category the application stores for a customer with these
transactions, listed in ascending order of date, and this running balance. -/
def scoringRules (txns : List Transaction) (balance : ℚ) (now : Time) : ℤ × RiskCategory :=
  if txns.isEmpty then (100, .excellent)
  else
    let score := creditScore txns balance now
    (score, riskCategory score)

/-! ### The scales of the factors -/

theorem ratioBand_rises : Rises (· ≤ ·) ratioBand 0 30 :=
  ((((((((Rises.const 0).step_ge 0.10 (by decide)).step_ge 0.25 (by decide)).step_ge 0.40
    (by decide)).step_ge 0.55 (by decide)).step_ge 0.70 (by decide)).step_ge 0.85
    (by decide)).step_ge 1 (by decide))

theorem balancePoints_rises : Rises (fun x y => y ≤ x) balancePoints 0 20 :=
  ((((((((Rises.const 0).step_le 100000 (by decide)).step_le 25000 (by decide)).step_le 10000
    (by decide)).step_le 5000 (by decide)).step_le 3000 (by decide)).step_le 1000
    (by decide)).step_le 500 (by decide)).step_le 0 (by decide)

theorem frequencyPoints_rises : Rises (· ≤ ·) frequencyPoints 0 15 :=
  (((((Rises.const 0).step_ge 1 (by decide)).step_ge 3 (by decide)).step_ge 5
    (by decide)).step_ge 7 (by decide)).step_ge 10 (by decide)

theorem recencyBand_rises : Rises (fun x y => y ≤ x) recencyBand 0 10 :=
  (((((Rises.const 0).step_le 90 (by decide)).step_le 60 (by decide)).step_le 30
    (by decide)).step_le 15 (by decide)).step_le 7 (by decide)

theorem consistencyBand_rises : Rises (· ≤ ·) consistencyBand 0 5 :=
  (((Rises.const 0).step_ge 0.50 (by decide)).step_ge 0.75 (by decide)).step_ge 1 (by decide)

/-! ### The scale of the score -/

theorem creditScore_nonneg (txns : List Transaction) (balance : ℚ) (now : Time) :
    0 ≤ creditScore txns balance now := le_max_left _ _

theorem creditScore_le_100 (txns : List Transaction) (balance : ℚ) (now : Time) :
    creditScore txns balance now ≤ 100 := max_le (by decide) (min_le_left _ _)

/-- The rules give every score its category. -/
theorem scoringRules_snd (txns : List Transaction) (balance : ℚ) (now : Time) :
    (scoringRules txns balance now).2 = riskCategory (scoringRules txns balance now).1 := by
  unfold scoringRules
  split
  · rfl
  · rfl

/-- The rules give a score on the scale. -/
theorem scoringRules_scale (txns : List Transaction) (balance : ℚ) (now : Time) :
    0 ≤ (scoringRules txns balance now).1 ∧ (scoringRules txns balance now).1 ≤ 100 := by
  unfold scoringRules
  split
  · exact ⟨by decide, le_rfl⟩
  · exact ⟨creditScore_nonneg _ _ _, creditScore_le_100 _ _ _⟩

/-! ### Settled accounts -/

theorem overduePoints_nonneg (count : ℕ) : 0 ≤ overduePoints count := by
  unfold overduePoints
  split_ifs <;> decide

theorem recencyPoints_nonneg (payments : List Transaction) (now : Time) :
    0 ≤ recencyPoints payments now := by
  unfold recencyPoints
  cases payments.getLast? with
  | none => exact le_refl 0
  | some last => exact recencyBand_rises.bot_le _

theorem consistencyPoints_nonneg (m n : ℕ) : 0 ≤ consistencyPoints m n := by
  unfold consistencyPoints
  split_ifs
  · exact consistencyBand_rises.bot_le _
  · exact le_refl 0

/-- Payments that cover the credit earn factor 1 in full. -/
theorem paymentRatioPoints_of_le {totalCredit totalPaid : ℚ} (h : totalCredit ≤ totalPaid) :
    paymentRatioPoints totalCredit totalPaid = 30 := by
  unfold paymentRatioPoints
  split_ifs with hpos
  · exact if_pos ((one_le_div hpos).mpr h)
  · rfl

/-- An account that owes nothing earns factor 3 in full. -/
theorem balancePoints_of_nonpos {balance : ℚ} (h : balance ≤ 0) : balancePoints balance = 20 :=
  if_pos h

/-- A settled account, whose payments cover its credit and whose balance is not
positive, scores at least 50 whatever the other factors are. -/
theorem le_creditScore_of_settled {txns : List Transaction} {balance : ℚ} {now : Time}
    (hpaid : sumAmounts (ofType .credit txns) ≤ sumAmounts (ofType .payment txns))
    (hbalance : balance ≤ 0) : 50 ≤ creditScore txns balance now := by
  have h1 := paymentRatioPoints_of_le hpaid
  have h2 := overduePoints_nonneg (overdueCount (ofType .credit txns) now)
  have h3 := balancePoints_of_nonpos hbalance
  have h4 := frequencyPoints_rises.bot_le (ofType .payment txns).length
  have h5 := recencyPoints_nonneg (ofType .payment txns) now
  have h6 := consistencyPoints_nonneg (ofType .credit txns).length (ofType .payment txns).length
  refine le_max_of_le_right (le_min (by decide) ?_)
  omega

theorem riskCategory_of_le_50 {score : ℤ} (h : 50 ≤ score) :
    riskCategory score ≠ .highRisk ∧ riskCategory score ≠ .defaulter := by
  unfold riskCategory
  split_ifs <;> exact ⟨by decide, by decide⟩

/-- **A settled account is never filed under one of the two worst categories.** -/
theorem riskCategory_settled {txns : List Transaction} {balance : ℚ} {now : Time}
    (hpaid : sumAmounts (ofType .credit txns) ≤ sumAmounts (ofType .payment txns))
    (hbalance : balance ≤ 0) :
    (scoringRules txns balance now).2 ≠ .highRisk ∧
      (scoringRules txns balance now).2 ≠ .defaulter := by
  unfold scoringRules
  split_ifs
  · exact ⟨by decide, by decide⟩
  · exact riskCategory_of_le_50 (le_creditScore_of_settled hpaid hbalance)

end DigitalLedger
