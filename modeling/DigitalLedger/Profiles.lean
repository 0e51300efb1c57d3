import DigitalLedger.CreditScore

/-!
# What a score depends on

The six factors read seven figures off a customer: the two totals, the number of overdue
credits, the balance, the numbers of credits and payments, and the days since the latest
payment.  None of them depends on the order of the transactions, and the score grows with
each of them in the direction a lender would expect.

## Main definitions

* `Profile`, `Profile.score` — the seven figures, and the score they give.
* `profile` — the figures of a list of transactions.
* `Profile.NoWorse` — a profile at least as good as another in every figure.
* `RiskCategory.rank` — the order of the categories.

## Main results

* `profile_congr` — the figures depend on types, amounts and dates alone.
* `creditScore_sortByDate` — the score is that of the profile.
* `Profile.score_eq_points` — the clamp to the scale is never needed.
* `Profile.NoWorse.score_le` — a profile that is no worse has no lower score.
* `rank_riskCategory_mono` — a higher score has no worse category.
-/

namespace DigitalLedger

/-! ### The factors, one by one -/

theorem overduePoints_mono {m n : ℕ} (h : m ≤ n) : overduePoints n ≤ overduePoints m := by
  unfold overduePoints
  split_ifs <;> omega

theorem overduePoints_le_20 (count : ℕ) : overduePoints count ≤ 20 :=
  overduePoints_mono (Nat.zero_le count)

theorem paymentRatioPoints_nonneg (totalCredit totalPaid : ℚ) :
    0 ≤ paymentRatioPoints totalCredit totalPaid := by
  unfold paymentRatioPoints
  split_ifs
  · exact ratioBand_rises.bot_le _
  · decide

theorem paymentRatioPoints_le_30 (totalCredit totalPaid : ℚ) :
    paymentRatioPoints totalCredit totalPaid ≤ 30 := by
  unfold paymentRatioPoints
  split_ifs
  · exact ratioBand_rises.le_top _
  · exact le_refl 30

theorem consistencyPoints_le_5 (m n : ℕ) : consistencyPoints m n ≤ 5 := by
  unfold consistencyPoints
  split_ifs
  · exact consistencyBand_rises.le_top _
  · decide

/-- The bands of the payment ratio grow with what is paid and fall with what is owed. -/
theorem paymentRatioPoints_mono {totalCredit totalCredit' totalPaid totalPaid' : ℚ}
    (hcredit : totalCredit' ≤ totalCredit) (hpaid : totalPaid ≤ totalPaid') :
    paymentRatioPoints totalCredit totalPaid ≤ paymentRatioPoints totalCredit' totalPaid' := by
  unfold paymentRatioPoints
  by_cases hpos' : totalCredit' > 0
  · have hpos : totalCredit > 0 := hpos'.trans_le hcredit
    rw [if_pos hpos, if_pos hpos']
    rcases le_or_gt 0 totalPaid with hnonneg | hneg
    · refine ratioBand_rises.mono _ _ ?_
      calc totalPaid / totalCredit ≤ totalPaid / totalCredit' :=
            div_le_div_of_nonneg_left hnonneg hpos' hcredit
        _ ≤ totalPaid' / totalCredit' := div_le_div_of_nonneg_right hpaid hpos'.le
    · -- a negative ratio is in the lowest band
      have hratio : totalPaid / totalCredit ≤ 0 := (div_neg_of_neg_of_pos hneg hpos).le
      calc ratioBand (totalPaid / totalCredit) ≤ ratioBand 0 := ratioBand_rises.mono _ _ hratio
        _ = 0 := by decide +kernel
        _ ≤ ratioBand (totalPaid' / totalCredit') := ratioBand_rises.bot_le _
  · rw [if_neg hpos']
    exact paymentRatioPoints_le_30 totalCredit totalPaid

/-- More payments for fewer credits earn no smaller bonus, as long as the credits that earn
one do not disappear. -/
theorem consistencyPoints_mono {m m' n n' : ℕ} (hm : m' ≤ m) (hn : n ≤ n')
    (hzero : m' = 0 → m = 0 ∨ n = 0) : consistencyPoints m n ≤ consistencyPoints m' n' := by
  unfold consistencyPoints
  by_cases hboth : m ≠ 0 ∧ n ≠ 0
  · -- the bonus is open to both, and goes by the quotient
    have hm' : m' ≠ 0 := fun h => (hzero h).elim hboth.1 hboth.2
    have hn' : n' ≠ 0 := by omega
    rw [if_pos hboth, if_pos ⟨hm', hn'⟩]
    refine consistencyBand_rises.mono _ _ ?_
    have hpos : (0 : ℚ) < m' := by exact_mod_cast Nat.pos_of_ne_zero hm'
    calc (n : ℚ) / m ≤ n / m' :=
          div_le_div_of_nonneg_left (Nat.cast_nonneg n) hpos (by exact_mod_cast hm)
      _ ≤ n' / m' := div_le_div_of_nonneg_right (by exact_mod_cast hn) hpos.le
  · rw [if_neg hboth]
    exact consistencyPoints_nonneg m' n'

/-! ### Profiles -/

/-- The figures a score is computed from. -/
structure Profile where
  totalCredit : ℚ
  totalPaid : ℚ
  overdue : ℕ
  balance : ℚ
  numCredits : ℕ
  numPayments : ℕ
  /-- The whole days since the latest payment. -/
  sincePaid : Option ℤ
  deriving DecidableEq

namespace Profile

/-- Factor 5 of a profile. -/
def recency (p : Profile) : ℤ := p.sincePaid.elim 0 recencyBand

/-- The sum of the six factors. -/
def points (p : Profile) : ℤ :=
  paymentRatioPoints p.totalCredit p.totalPaid + overduePoints p.overdue +
    balancePoints p.balance + frequencyPoints p.numPayments + p.recency +
    consistencyPoints p.numCredits p.numPayments

/-- The score of a profile. -/
def score (p : Profile) : ℤ := max 0 (min 100 p.points)

/-- `q` is at least as good as `p` in every figure.  Only the bonus of factor 6 could be
lost with a smaller number of credits, namely with the last of them. -/
structure NoWorse (p q : Profile) : Prop where
  totalCredit : q.totalCredit ≤ p.totalCredit
  totalPaid : p.totalPaid ≤ q.totalPaid
  overdue : q.overdue ≤ p.overdue
  balance : q.balance ≤ p.balance
  numCredits : q.numCredits ≤ p.numCredits
  numPayments : p.numPayments ≤ q.numPayments
  bonus : q.numCredits = 0 → p.numCredits = 0 ∨ p.numPayments = 0
  sincePaid : ∀ d ∈ p.sincePaid, ∃ d' ∈ q.sincePaid, d' ≤ d

variable {p q : Profile}

theorem recency_nonneg (p : Profile) : 0 ≤ p.recency := by
  unfold recency
  cases p.sincePaid with
  | none => exact le_refl 0
  | some d => exact recencyBand_rises.bot_le d

theorem recency_le_10 (p : Profile) : p.recency ≤ 10 := by
  unfold recency
  cases p.sincePaid with
  | none => decide
  | some d => exact recencyBand_rises.le_top d

theorem score_le_100 (p : Profile) : p.score ≤ 100 := max_le (by decide) (min_le_left _ _)

/-- The six factors stay on the scale together, so that the clamp is never needed. -/
theorem score_eq_points (p : Profile) : p.score = p.points := by
  have h1 := paymentRatioPoints_nonneg p.totalCredit p.totalPaid
  have h1' := paymentRatioPoints_le_30 p.totalCredit p.totalPaid
  have h2 := overduePoints_nonneg p.overdue
  have h2' := overduePoints_le_20 p.overdue
  have h3 := balancePoints_rises.bot_le p.balance
  have h3' := balancePoints_rises.le_top p.balance
  have h4 := frequencyPoints_rises.bot_le p.numPayments
  have h4' := frequencyPoints_rises.le_top p.numPayments
  have h5 := p.recency_nonneg
  have h5' := p.recency_le_10
  have h6 := consistencyPoints_nonneg p.numCredits p.numPayments
  have h6' := consistencyPoints_le_5 p.numCredits p.numPayments
  -- 30 + 20 + 20 + 15 + 10 + 5 = 100
  unfold score points
  omega

theorem NoWorse.recency_le (h : p.NoWorse q) : p.recency ≤ q.recency := by
  cases hp : p.sincePaid with
  | none =>
    have hzero : p.recency = 0 := by rw [recency, hp, Option.elim_none]
    rw [hzero]
    exact q.recency_nonneg
  | some d =>
    obtain ⟨d', hd', hle⟩ := h.sincePaid d hp
    rw [recency, recency, hp, hd', Option.elim_some, Option.elim_some]
    exact recencyBand_rises.mono d d' hle

theorem NoWorse.points_le (h : p.NoWorse q) : p.points ≤ q.points := by
  have h1 := paymentRatioPoints_mono h.totalCredit h.totalPaid
  have h2 := overduePoints_mono h.overdue
  have h3 := balancePoints_rises.mono _ _ h.balance
  have h4 := frequencyPoints_rises.mono _ _ h.numPayments
  have h5 := h.recency_le
  have h6 := consistencyPoints_mono h.numCredits h.numPayments h.bonus
  unfold points
  omega

/-- **A profile that is no worse has no lower score.** -/
theorem NoWorse.score_le (h : p.NoWorse q) : p.score ≤ q.score := by
  rw [p.score_eq_points, q.score_eq_points]
  exact h.points_le

end Profile

/-! ### The profile of a list of transactions -/

/-- The date of the latest payment. -/
def lastPaid (txns : List Transaction) : Option Time :=
  ((ofType .payment txns).map fun t => t.date).max?

/-- The figures of a list of transactions, with a running balance, at a time. -/
def profile (txns : List Transaction) (balance : ℚ) (now : Time) : Profile where
  totalCredit := sumAmounts (ofType .credit txns)
  totalPaid := sumAmounts (ofType .payment txns)
  overdue := overdueCount (ofType .credit txns) now
  balance := balance
  numCredits := (ofType .credit txns).length
  numPayments := (ofType .payment txns).length
  sincePaid := (lastPaid txns).map (daysSince now)

theorem ofType_perm {txns txns' : List Transaction} (h : txns.Perm txns') (type : TxnType) :
    (ofType type txns).Perm (ofType type txns') := h.filter _

/-- What the rules read off a transaction. -/
def TransactionDoc.scoredPart {ι : Type} (t : TransactionDoc ι) : TxnType × ℚ × Time :=
  (t.type, t.amount, t.date)

theorem scoredPart_ofType (type : TxnType) (txns : List Transaction) :
    (ofType type txns).map TransactionDoc.scoredPart =
      (txns.map TransactionDoc.scoredPart).filter fun part => part.1 = type := by
  rw [List.filter_map]
  rfl

theorem max?_perm {l l' : List Time} (h : l.Perm l') : l.max? = l'.max? := by
  cases hmax : l'.max? with
  | none =>
    rw [List.max?_eq_none_iff] at hmax ⊢
    rw [hmax] at h
    exact h.eq_nil
  | some last =>
    rw [List.max?_eq_some_iff] at hmax ⊢
    obtain ⟨hmem, hle⟩ := hmax
    exact ⟨h.mem_iff.mpr hmem, fun d hd => hle d (h.mem_iff.mp hd)⟩

/-- **The figures depend on the types, amounts and dates of the transactions**, in whatever
order they come. -/
theorem profile_congr {txns txns' : List Transaction}
    (h : (txns.map TransactionDoc.scoredPart).Perm (txns'.map TransactionDoc.scoredPart))
    (balance : ℚ) (now : Time) : profile txns balance now = profile txns' balance now := by
  have hparts : ∀ type, ((ofType type txns).map TransactionDoc.scoredPart).Perm
      ((ofType type txns').map TransactionDoc.scoredPart) := by
    intro type
    rw [scoredPart_ofType, scoredPart_ofType]
    exact h.filter _
  have hlength : ∀ type, (ofType type txns).length = (ofType type txns').length := by
    intro type
    simpa only [List.length_map] using (hparts type).length_eq
  have hsum : ∀ type, sumAmounts (ofType type txns) = sumAmounts (ofType type txns') := by
    intro type
    have hamounts := ((hparts type).map fun part => part.2.1).sum_eq
    rw [List.map_map, List.map_map] at hamounts
    exact hamounts
  have hoverdue : overdueCount (ofType .credit txns) now =
      overdueCount (ofType .credit txns') now := by
    have hold := (hparts .credit).countP_eq fun part => decide (daysSince now part.2.2 > 30)
    rw [List.countP_map, List.countP_map] at hold
    exact hold
  have hlast : lastPaid txns = lastPaid txns' := by
    have hdates := max?_perm ((hparts .payment).map fun part => part.2.2)
    rw [List.map_map, List.map_map] at hdates
    exact hdates
  unfold profile
  rw [hsum, hsum, hoverdue, hlength, hlength, hlast]

/-- The figures do not depend on the order of the transactions. -/
theorem profile_perm {txns txns' : List Transaction} (h : txns.Perm txns') (balance : ℚ)
    (now : Time) : profile txns balance now = profile txns' balance now :=
  profile_congr (h.map _) balance now

theorem sortByDate_perm (txns : List Transaction) : (sortByDate txns).Perm txns :=
  List.perm_insertionSort _ txns

theorem sortByDate_pairwise (txns : List Transaction) :
    (sortByDate txns).Pairwise fun t t' => t.date ≤ t'.date :=
  List.pairwise_insertionSort _ txns

/-- The last payment of a list in ascending order of date is the latest. -/
theorem lastPaid_of_pairwise {txns : List Transaction}
    (h : txns.Pairwise fun t t' => t.date ≤ t'.date) :
    lastPaid txns = (ofType .payment txns).getLast?.map fun t => t.date := by
  have hsorted : (ofType .payment txns).Pairwise fun t t' => t.date ≤ t'.date := h.filter _
  unfold lastPaid
  rcases List.eq_nil_or_concat (ofType .payment txns) with hnil | ⟨payments, last, hconcat⟩
  · rw [hnil]
    rfl
  · rw [hconcat, List.concat_eq_append] at hsorted ⊢
    rw [List.getLast?_append, List.getLast?_singleton, Option.some_or, Option.map_some,
      List.max?_eq_some_iff]
    refine ⟨List.mem_map_of_mem (List.mem_append_right _ (List.mem_singleton.mpr rfl)), ?_⟩
    intro d hd
    -- no payment before the last is later
    obtain ⟨t, ht, rfl⟩ := List.mem_map.mp hd
    rcases List.mem_append.mp ht with hmem | hmem
    · exact (List.pairwise_append.mp hsorted).2.2 t hmem last (List.mem_singleton.mpr rfl)
    · rw [List.mem_singleton.mp hmem]

theorem creditScore_of_pairwise {txns : List Transaction} (balance : ℚ) (now : Time)
    (h : txns.Pairwise fun t t' => t.date ≤ t'.date) :
    creditScore txns balance now = (profile txns balance now).score := by
  have hrecency : recencyPoints (ofType .payment txns) now =
      (profile txns balance now).recency := by
    rw [recencyPoints, Profile.recency, profile, lastPaid_of_pairwise h]
    cases (ofType .payment txns).getLast? with
    | none => rfl
    | some last => rfl
  simp only [creditScore, hrecency]
  rfl

/-- **The score of a customer is that of the profile** of its transactions, in whatever
order they are stored. -/
theorem creditScore_sortByDate (txns : List Transaction) (balance : ℚ) (now : Time) :
    creditScore (sortByDate txns) balance now = (profile txns balance now).score := by
  rw [creditScore_of_pairwise balance now (sortByDate_pairwise txns),
    profile_perm (sortByDate_perm txns)]

theorem sortByDate_eq_nil_iff (txns : List Transaction) : sortByDate txns = [] ↔ txns = [] := by
  rw [← List.length_eq_zero_iff, (sortByDate_perm txns).length_eq, List.length_eq_zero_iff]

/-- The score the rules give a list of transactions in the order they are stored. -/
theorem scoringRules_fst {txns : List Transaction} (hne : txns ≠ []) (balance : ℚ)
    (now : Time) :
    (scoringRules (sortByDate txns) balance now).1 = (profile txns balance now).score := by
  have hsorted : (sortByDate txns).isEmpty = false := by
    rw [List.isEmpty_eq_false_iff]
    exact (sortByDate_eq_nil_iff txns).not.mpr hne
  rw [scoringRules, hsorted, if_neg Bool.false_ne_true]
  exact creditScore_sortByDate txns balance now

/-! ### The order of the categories -/

/-- The place of a category, from the worst up. -/
def RiskCategory.rank : RiskCategory → ℕ
  | .defaulter => 0
  | .highRisk => 1
  | .mediumRisk => 2
  | .lowRisk => 3
  | .excellent => 4

/-- A higher score has no worse category. -/
theorem rank_riskCategory_mono {score score' : ℤ} (h : score ≤ score') :
    (riskCategory score).rank ≤ (riskCategory score').rank := by
  have hscale : (fun score => (riskCategory score).rank) = fun score : ℤ =>
      if score ≥ 80 then 4 else if score ≥ 65 then 3 else if score ≥ 50 then 2
      else if score ≥ 30 then 1 else 0 := by
    funext score
    unfold riskCategory
    split_ifs <;> rfl
  have hrises : Rises (· ≤ ·) (fun score => (riskCategory score).rank) 0 4 := by
    rw [hscale]
    exact ((((Rises.const 0).step_ge 30 (by decide)).step_ge 50 (by decide)).step_ge 65
      (by decide)).step_ge 80 (by decide)
  exact hrises.mono score score' h

end DigitalLedger
