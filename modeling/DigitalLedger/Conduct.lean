import DigitalLedger.Profiles

/-!
# What a customer's conduct does to the score

The six factors are meant to reward paying and to punish owing.  This module compares the
scores of two customers, and of one customer before and after a payment or a credit, at one
moment.

## Main definitions

* `Older` — a transaction with, if it is a credit, an earlier date.

## Main results

* `score_le_of_better` — the customer with the better record has no lower score.
* `score_le_payment_iff` — a payment never lowers a score, the first transaction apart.
* `score_credit_le_iff` — a credit never raises a score, unless advance payments cover it.
* `overdue_ignored_iff` — the overdue credits of factor 2 are the old ones, paid or not.
-/

namespace DigitalLedger

variable {txns : List Transaction} {t : Transaction} {balance : ℚ} {now : Time}

/-! ### One more transaction -/

theorem ofType_concat_self (txns : List Transaction) (t : Transaction) :
    ofType t.type (txns ++ [t]) = ofType t.type txns ++ [t] := by
  simp [ofType]

theorem ofType_concat_of_ne {type : TxnType} (txns : List Transaction) (h : t.type ≠ type) :
    ofType type (txns ++ [t]) = ofType type txns := by
  simp [ofType, h]

theorem sumAmounts_concat (txns : List Transaction) (t : Transaction) :
    sumAmounts (txns ++ [t]) = sumAmounts txns + t.amount := by
  simp [sumAmounts]

theorem mem_ofType {type : TxnType} : t ∈ ofType type txns ↔ t ∈ txns ∧ t.type = type := by
  simp [ofType]

/-- The latest payment is a payment, and none is later. -/
theorem lastPaid_eq_some_iff {d : Time} :
    lastPaid txns = some d ↔
      (∃ t ∈ txns, t.type = .payment ∧ t.date = d) ∧
        ∀ t ∈ txns, t.type = .payment → t.date ≤ d := by
  rw [lastPaid, List.max?_eq_some_iff, List.mem_map]
  constructor
  · rintro ⟨⟨t, ht, hdate⟩, hle⟩
    rw [mem_ofType] at ht
    exact ⟨⟨t, ht.1, ht.2, hdate⟩,
      fun t' ht' htype => hle _ (List.mem_map_of_mem (mem_ofType.mpr ⟨ht', htype⟩))⟩
  · rintro ⟨⟨t, ht, htype, hdate⟩, hle⟩
    refine ⟨⟨t, mem_ofType.mpr ⟨ht, htype⟩, hdate⟩, fun d' hd' => ?_⟩
    obtain ⟨t', ht', rfl⟩ := List.mem_map.mp hd'
    exact hle t' (mem_ofType.mp ht').1 (mem_ofType.mp ht').2

/-- The figures after a payment. -/
theorem profile_concat_payment (txns : List Transaction) (htype : t.type = .payment)
    (balance : ℚ) (now : Time) :
    profile (txns ++ [t]) balance now =
      { profile txns balance now with
        totalPaid := sumAmounts (ofType .payment txns) + t.amount
        numPayments := (ofType .payment txns).length + 1
        sincePaid := (lastPaid (txns ++ [t])).map (daysSince now) } := by
  have hpayments : ofType .payment (txns ++ [t]) = ofType .payment txns ++ [t] := by
    rw [← htype, ofType_concat_self]
  have hcredits : ofType .credit (txns ++ [t]) = ofType .credit txns :=
    ofType_concat_of_ne txns (by rw [htype]; decide)
  unfold profile
  rw [hpayments, hcredits, sumAmounts_concat, List.length_append, List.length_singleton]

/-- The figures after a credit. -/
theorem profile_concat_credit (txns : List Transaction) (htype : t.type = .credit)
    (balance : ℚ) (now : Time) :
    profile (txns ++ [t]) balance now =
      { profile txns balance now with
        totalCredit := sumAmounts (ofType .credit txns) + t.amount
        overdue := overdueCount (ofType .credit txns ++ [t]) now
        numCredits := (ofType .credit txns).length + 1 } := by
  have hcredits : ofType .credit (txns ++ [t]) = ofType .credit txns ++ [t] := by
    rw [← htype, ofType_concat_self]
  have hpayments : ofType .payment (txns ++ [t]) = ofType .payment txns :=
    ofType_concat_of_ne txns (by rw [htype]; decide)
  unfold profile lastPaid
  rw [hpayments, hcredits, sumAmounts_concat, List.length_append, List.length_singleton]

/-- A payment made now is the latest. -/
theorem lastPaid_concat (htype : t.type = .payment) (hdate : t.date = now)
    (hpast : ∀ t' ∈ txns, t'.date ≤ now) : lastPaid (txns ++ [t]) = some now := by
  rw [lastPaid_eq_some_iff]
  refine ⟨⟨t, List.mem_append_right _ (List.mem_singleton.mpr rfl), htype, hdate⟩, ?_⟩
  intro t' ht' _
  rcases List.mem_append.mp ht' with hmem | hmem
  · exact hpast t' hmem
  · rw [List.mem_singleton.mp hmem, hdate]

theorem daysSince_anti (now : Time) {date date' : Time} (h : date ≤ date') :
    daysSince now date' ≤ daysSince now date :=
  Int.ediv_le_ediv (by decide) (Int.sub_le_sub_left h now)

theorem eq_nil_of_ofType (hcredits : ofType .credit txns = [])
    (hpayments : ofType .payment txns = []) : txns = [] := by
  refine List.eq_nil_iff_forall_not_mem.mpr fun t ht => ?_
  cases htype : t.type with
  | credit => exact absurd (mem_ofType.mpr ⟨ht, htype⟩) (by rw [hcredits]; exact List.not_mem_nil)
  | payment => exact absurd (mem_ofType.mpr ⟨ht, htype⟩) (by rw [hpayments]; exact List.not_mem_nil)

/-- A transaction of an amount at a time. -/
def sampleTxn (type : TxnType) (amount : ℚ) (date : Time) : Transaction :=
  ⟨ObjectId.ofNat 1, "m", "c", "Asha", type, amount, "", date, false, none⟩

/-! ### Two customers -/

/-- **The better record has no lower score.**  Of two customers at one moment, the one that
has paid no less, in no fewer payments and no less recently, that has taken no more credit,
in no more credits with no more of them overdue, and that owes no more, has a score and a
category at least as good, provided it has taken credit at all. -/
theorem score_le_of_better {A B : List Transaction} {bA bB : ℚ}
    (hcredit : ∃ t ∈ B, t.type = .credit)
    (htotalPaid : sumAmounts (ofType .payment A) ≤ sumAmounts (ofType .payment B))
    (htotalCredit : sumAmounts (ofType .credit B) ≤ sumAmounts (ofType .credit A))
    (hnumCredits : (ofType .credit B).length ≤ (ofType .credit A).length)
    (hoverdue : overdueCount (ofType .credit B) now ≤ overdueCount (ofType .credit A) now)
    (hnumPayments : (ofType .payment A).length ≤ (ofType .payment B).length)
    (hbalance : bB ≤ bA)
    (hlast : ∀ last ∈ lastPaid A, ∃ last' ∈ lastPaid B, last ≤ last') :
    (scoringRules (sortByDate A) bA now).1 ≤ (scoringRules (sortByDate B) bB now).1 ∧
      (scoringRules (sortByDate A) bA now).2.rank ≤
        (scoringRules (sortByDate B) bB now).2.rank := by
  obtain ⟨t, ht, htype⟩ := hcredit
  have hpos : 0 < (ofType .credit B).length :=
    List.length_pos_of_mem (mem_ofType.mpr ⟨ht, htype⟩)
  have hB : B ≠ [] := List.ne_nil_of_mem ht
  -- `A` has at least as many credits as `B`, which has one
  have hA : A ≠ [] := by
    rintro rfl
    exact absurd (hpos.trans_le hnumCredits) (Nat.lt_irrefl 0)
  have hnoWorse : (profile A bA now).NoWorse (profile B bB now) :=
    { totalCredit := htotalCredit
      totalPaid := htotalPaid
      overdue := hoverdue
      balance := hbalance
      numCredits := hnumCredits
      numPayments := hnumPayments
      bonus := fun hzero => absurd hzero hpos.ne'
      sincePaid := fun d hd => by
        obtain ⟨last, hmem, rfl⟩ := Option.map_eq_some_iff.mp hd
        obtain ⟨last', hmem', hle⟩ := hlast last hmem
        exact ⟨_, Option.map_eq_some_iff.mpr ⟨last', hmem', rfl⟩, daysSince_anti now hle⟩ }
  have hscore : (scoringRules (sortByDate A) bA now).1 ≤
      (scoringRules (sortByDate B) bB now).1 := by
    rw [scoringRules_fst hA, scoringRules_fst hB]
    exact hnoWorse.score_le
  refine ⟨hscore, ?_⟩
  rw [scoringRules_snd, scoringRules_snd]
  exact rank_riskCategory_mono hscore

/-- A customer with a smaller credit, of which more is paid back. -/
theorem score_le_of_better_sample :
    (scoringRules (sortByDate [sampleTxn .credit 100 0, sampleTxn .payment 20 1]) 80 5).1 ≤
        (scoringRules (sortByDate [sampleTxn .payment 50 2, sampleTxn .credit 80 0]) 30 5).1 ∧
      (scoringRules (sortByDate [sampleTxn .credit 100 0, sampleTxn .payment 20 1]) 80 5).2.rank ≤
        (scoringRules (sortByDate [sampleTxn .payment 50 2, sampleTxn .credit 80 0]) 30 5).2.rank :=
  score_le_of_better (by decide) (by decide +kernel) (by decide +kernel) (by decide) (by decide)
    (by decide) (by decide +kernel) (by decide)

/-! ### A payment -/

/-- A single payment and no credit: there is no bonus, and little for factor 4. -/
theorem Profile.points_le_83 {p : Profile} (hcredits : p.numCredits = 0)
    (hpayments : p.numPayments = 1) : p.points ≤ 83 := by
  have h1 := paymentRatioPoints_le_30 p.totalCredit p.totalPaid
  have h2 := overduePoints_le_20 p.overdue
  have h3 := balancePoints_rises.le_top p.balance
  have h4 : frequencyPoints 1 = 3 := by decide
  have h5 := p.recency_le_10
  have h6 : consistencyPoints 0 1 = 0 := by decide
  rw [Profile.points, hcredits, hpayments]
  omega

/-- With a payment for its only transaction a customer has at most 83 points. -/
theorem score_payment_le_83 (htype : t.type = .payment) (balance : ℚ) (now : Time) :
    (scoringRules (sortByDate ([] ++ [t])) (balance - t.amount) now).1 ≤ 83 := by
  rw [scoringRules_fst (List.append_ne_nil_of_right_ne_nil [] (List.cons_ne_nil t [])),
    Profile.score_eq_points, profile_concat_payment [] htype]
  exact Profile.points_le_83 rfl rfl

/-- **A payment never lowers a score**, except that a customer without transactions has the
full score, by the rule for newcomers, and loses it with its first payment. -/
theorem score_le_payment_iff (htype : t.type = .payment) (hdate : t.date = now)
    (hpos : 0 < t.amount) (hpast : ∀ t' ∈ txns, t'.date ≤ now) :
    ((scoringRules (sortByDate txns) balance now).1 ≤
        (scoringRules (sortByDate (txns ++ [t])) (balance - t.amount) now).1 ↔ txns ≠ []) ∧
      (txns = [] → (scoringRules (sortByDate txns) balance now).1 = 100 ∧
        (scoringRules (sortByDate (txns ++ [t])) (balance - t.amount) now).1 ≤ 83) := by
  have hfirst : txns = [] → (scoringRules (sortByDate txns) balance now).1 = 100 ∧
      (scoringRules (sortByDate (txns ++ [t])) (balance - t.amount) now).1 ≤ 83 := by
    rintro rfl
    exact ⟨rfl, score_payment_le_83 htype balance now⟩
  refine ⟨⟨fun hle hempty => ?_, fun hne => ?_⟩, hfirst⟩
  · -- a newcomer has 100 points, and at most 83 after the payment
    obtain ⟨hfull, hpaid⟩ := hfirst hempty
    omega
  -- no figure gets worse
  have hscore := scoringRules_fst (List.append_ne_nil_of_right_ne_nil txns (List.cons_ne_nil t []))
    (balance - t.amount) now
  rw [hscore, profile_concat_payment txns htype, scoringRules_fst hne]
  refine Profile.NoWorse.score_le
    { totalCredit := le_refl _
      totalPaid := le_add_of_nonneg_right hpos.le
      overdue := le_refl _
      balance := sub_le_self balance hpos.le
      numCredits := le_refl _
      numPayments := Nat.le_succ _
      bonus := fun hzero => Or.inl hzero
      sincePaid := fun d hd => ?_ }
  obtain ⟨last, hlast, rfl⟩ := Option.map_eq_some_iff.mp hd
  obtain ⟨⟨t', ht', -, hdate'⟩, -⟩ := lastPaid_eq_some_iff.mp hlast
  refine ⟨daysSince now now, ?_, daysSince_anti now (hdate' ▸ hpast t' ht')⟩
  rw [lastPaid_concat htype hdate hpast]
  rfl

/-- A payment after a credit does not lower the score. -/
theorem score_le_payment_iff_sample :
    (scoringRules (sortByDate [sampleTxn .credit 100 0]) 100 5).1 ≤
        (scoringRules (sortByDate ([sampleTxn .credit 100 0] ++ [sampleTxn .payment 40 5]))
          (100 - (sampleTxn .payment 40 5).amount) 5).1 := by
  refine (score_le_payment_iff ?_ ?_ ?_ ?_).1.mpr (List.cons_ne_nil _ _)
  · rfl
  · rfl
  · decide
  · decide

/-- The first transaction of a customer, a payment of 50, lowers its score from 100 to 83. -/
theorem first_payment_lowers_score :
    ¬∀ (txns : List Transaction) (t : Transaction) (balance : ℚ) (now : Time),
      balance = sumAmounts (ofType .credit txns) - sumAmounts (ofType .payment txns) →
      t.type = .payment → t.date = now → 0 < t.amount → (∀ t' ∈ txns, t'.date ≤ now) →
      (scoringRules (sortByDate txns) balance now).1 ≤
        (scoringRules (sortByDate (txns ++ [t])) (balance - t.amount) now).1 := by
  intro hclaim
  have hle := hclaim [] (sampleTxn .payment 50 0) 0 0 (by decide +kernel) rfl rfl (by decide)
    (by simp)
  exact absurd hle (by decide +kernel)

/-! ### A credit -/

theorem paymentRatioPoints_zero (totalPaid : ℚ) : paymentRatioPoints 0 totalPaid = 30 :=
  if_neg (lt_irrefl 0)

/-- Credit that is not paid back in full costs some of factor 1. -/
theorem paymentRatioPoints_le_26 {totalCredit totalPaid : ℚ} (hpos : 0 < totalCredit)
    (h : totalPaid < totalCredit) : paymentRatioPoints totalCredit totalPaid ≤ 26 := by
  have hratio : ¬totalPaid / totalCredit ≥ 1 := by
    rw [ge_iff_le, one_le_div hpos]
    exact not_le.mpr h
  rw [paymentRatioPoints, if_pos hpos, ratioBand, if_neg hratio]
  split_ifs <;> decide

theorem paymentRatioPoints_of_neg {totalCredit totalPaid : ℚ} (hpos : 0 < totalCredit)
    (h : totalPaid < 0) : paymentRatioPoints totalCredit totalPaid = 0 := by
  have hle : paymentRatioPoints totalCredit totalPaid ≤ paymentRatioPoints totalCredit 0 :=
    paymentRatioPoints_mono (le_refl _) h.le
  have hzero : paymentRatioPoints totalCredit 0 = 0 := by
    rw [paymentRatioPoints, if_pos hpos, zero_div]
    decide +kernel
  exact le_antisymm (hle.trans_eq hzero) (paymentRatioPoints_nonneg _ _)

/-- A debt costs some of factor 3. -/
theorem balancePoints_le_18 {balance : ℚ} (h : 0 < balance) : balancePoints balance ≤ 18 := by
  rw [balancePoints, if_neg (not_le.mpr h)]
  split_ifs <;> decide

theorem consistencyPoints_zero (n : ℕ) : consistencyPoints 0 n = 0 :=
  if_neg fun h => h.1 rfl

theorem consistencyPoints_one {n : ℕ} (hn : n ≠ 0) : consistencyPoints 1 n = 5 := by
  have hratio : (n : ℚ) / (1 : ℕ) ≥ 1 := by
    rw [Nat.cast_one, div_one]
    exact_mod_cast Nat.one_le_iff_ne_zero.mpr hn
  rw [consistencyPoints, if_pos ⟨one_ne_zero, hn⟩, consistencyBand, if_pos hratio]

theorem daysSince_self (now : Time) : daysSince now now = 0 := by
  rw [daysSince, sub_self, Int.zero_ediv]

/-- A credit given now is not overdue. -/
theorem overdueCount_singleton (hdate : t.date = now) : overdueCount [t] now = 0 := by
  rw [overdueCount, List.countP_singleton, hdate, daysSince_self]
  rfl

/-- A credit does not improve the figures of a customer who has taken credit before. -/
theorem noWorse_of_credit (htype : t.type = .credit) (hpos : 0 < t.amount)
    (hcredits : ofType .credit txns ≠ []) :
    (profile (txns ++ [t]) (balance + t.amount) now).NoWorse (profile txns balance now) := by
  rw [profile_concat_credit txns htype]
  exact
    { totalCredit := le_add_of_nonneg_right hpos.le
      totalPaid := le_refl _
      overdue := by
        show List.countP _ _ ≤ List.countP _ _
        rw [List.countP_append]
        exact Nat.le_add_right _ _
      balance := le_add_of_nonneg_right hpos.le
      numCredits := Nat.le_succ _
      numPayments := le_refl _
      bonus := fun hzero => absurd (List.length_eq_zero_iff.mp hzero) hcredits
      sincePaid := fun d hd => ⟨d, hd, le_refl d⟩ }

/-- The first credit after advance payments opens the bonus of factor 6. -/
theorem points_first_credit {paid : ℚ} (htype : t.type = .credit) (hdate : t.date = now)
    (hcredits : ofType .credit txns = []) (hpayments : ofType .payment txns ≠ [])
    (hpaid : sumAmounts (ofType .payment txns) = paid) :
    (profile (txns ++ [t]) (-paid + t.amount) now).points =
      (profile txns (-paid) now).points + 5 + (paymentRatioPoints t.amount paid - 30) +
        (balancePoints (-paid + t.amount) - balancePoints (-paid)) := by
  have hn : (ofType .payment txns).length ≠ 0 := by
    rw [Ne, List.length_eq_zero_iff]
    exact hpayments
  have hsum : sumAmounts ([] : List Transaction) = 0 := rfl
  have hcount : overdueCount [] now = 0 := rfl
  rw [profile_concat_credit txns htype]
  simp only [Profile.points, Profile.recency, profile, hcredits, hpaid, hsum, hcount,
    overdueCount_singleton hdate, List.nil_append, List.length_nil, zero_add,
    paymentRatioPoints_zero, consistencyPoints_zero, consistencyPoints_one hn]
  omega

/-- After advance payments only, the first credit does not raise the sum of the factors
exactly if it exceeds them. -/
theorem points_first_credit_le_iff {paid : ℚ} (htype : t.type = .credit) (hdate : t.date = now)
    (hpos : 0 < t.amount) (hcredits : ofType .credit txns = [])
    (hpayments : ofType .payment txns ≠ [])
    (hpaid : sumAmounts (ofType .payment txns) = paid) :
    (profile (txns ++ [t]) (-paid + t.amount) now).points ≤ (profile txns (-paid) now).points ↔
      paid < t.amount := by
  rw [points_first_credit htype hdate hcredits hpayments hpaid]
  constructor
  · intro hle
    refine not_le.mp fun hcover => ?_
    -- a covered credit keeps factors 1 and 3 in full
    have h1 := paymentRatioPoints_of_le hcover
    have h3 := balancePoints_of_nonpos (neg_nonpos.mpr (hpos.le.trans hcover))
    have h3' := balancePoints_of_nonpos (neg_add_nonpos_iff.mpr hcover)
    omega
  · intro hlt
    rcases le_or_gt 0 paid with hnonneg | hneg
    · -- four points of factor 1 and two of factor 3 outweigh the bonus
      have h1 := paymentRatioPoints_le_26 hpos hlt
      have h3 := balancePoints_of_nonpos (neg_nonpos.mpr hnonneg)
      have h3' := balancePoints_le_18 (lt_neg_add_iff_add_lt.mpr (by rwa [add_zero]))
      omega
    · -- payments of a negative total: factor 1 is lost altogether
      have h1 := paymentRatioPoints_of_neg hpos hneg
      have h3 := balancePoints_rises.mono _ _ (le_add_of_nonneg_right (a := -paid) hpos.le)
      omega

/-- **A credit never raises a score**, unless it is the first and advance payments cover it:
then the bonus of factor 6 is won and nothing is lost. -/
theorem score_credit_le_iff (htype : t.type = .credit) (hdate : t.date = now)
    (hpos : 0 < t.amount)
    (hbalance : balance = sumAmounts (ofType .credit txns) - sumAmounts (ofType .payment txns)) :
    (scoringRules (sortByDate (txns ++ [t])) (balance + t.amount) now).1 ≤
        (scoringRules (sortByDate txns) balance now).1 ↔
      ofType .credit txns ≠ [] ∨ sumAmounts (ofType .payment txns) < t.amount := by
  have hscore := scoringRules_fst (List.append_ne_nil_of_right_ne_nil txns (List.cons_ne_nil t []))
    (balance + t.amount) now
  rw [hscore]
  by_cases hcredits : ofType .credit txns = []
  · generalize hpaid : sumAmounts (ofType .payment txns) = paid at hbalance ⊢
    obtain rfl : balance = -paid := by
      rw [hbalance, hcredits]
      exact zero_sub paid
    by_cases hpayments : ofType .payment txns = []
    · -- the first transaction: no score is above that of a newcomer
      obtain rfl : txns = [] := eq_nil_of_ofType hcredits hpayments
      obtain rfl : paid = 0 := hpaid.symm
      exact iff_of_true (Profile.score_le_100 _) (Or.inr hpos)
    · have hne : txns ≠ [] := by
        rintro rfl
        exact hpayments rfl
      rw [scoringRules_fst hne, Profile.score_eq_points, Profile.score_eq_points,
        points_first_credit_le_iff htype hdate hpos hcredits hpayments hpaid,
        or_iff_right (not_not.mpr hcredits)]
  · have hne : txns ≠ [] := by
      rintro rfl
      exact hcredits rfl
    rw [scoringRules_fst hne]
    exact iff_of_true (noWorse_of_credit htype hpos hcredits).score_le (Or.inl hcredits)

/-- A credit after a credit does not raise the score. -/
theorem score_credit_le_iff_sample :
    (scoringRules (sortByDate ([sampleTxn .credit 100 0] ++ [sampleTxn .credit 40 5]))
          (100 + (sampleTxn .credit 40 5).amount) 5).1 ≤
        (scoringRules (sortByDate [sampleTxn .credit 100 0]) 100 5).1 ↔
      ofType .credit [sampleTxn .credit 100 0] ≠ [] ∨
        sumAmounts (ofType .payment [sampleTxn .credit 100 0]) < (sampleTxn .credit 40 5).amount :=
  score_credit_le_iff rfl rfl (by decide) (by decide +kernel)

/-- After an advance payment of 50 a first credit of 50 raises the score from 83 to 88. -/
theorem covered_credit_raises_score :
    ¬∀ (txns : List Transaction) (t : Transaction) (balance : ℚ) (now : Time),
      balance = sumAmounts (ofType .credit txns) - sumAmounts (ofType .payment txns) →
      t.type = .credit → t.date = now → 0 < t.amount → (∀ t' ∈ txns, t'.date ≤ now) →
      (scoringRules (sortByDate (txns ++ [t])) (balance + t.amount) now).1 ≤
        (scoringRules (sortByDate txns) balance now).1 := by
  intro hclaim
  have hle := hclaim [sampleTxn .payment 50 0] (sampleTxn .credit 50 5) (-50) 5
    (by decide +kernel) rfl rfl (by decide) (by decide)
  exact absurd hle (by decide +kernel)

/-! ### Older credits -/

/-- `t'` is `t` with, if it is a credit, an earlier date. -/
def Older (t t' : Transaction) : Prop :=
  t' = t ∨ t.type = .credit ∧ t' = { t with date := t'.date } ∧ t'.date ≤ t.date

theorem Older.type_eq {t t' : Transaction} (h : Older t t') : t'.type = t.type := by
  rcases h with rfl | ⟨-, heq, -⟩
  · rfl
  · rw [heq]

theorem Older.amount_eq {t t' : Transaction} (h : Older t t') : t'.amount = t.amount := by
  rcases h with rfl | ⟨-, heq, -⟩
  · rfl
  · rw [heq]

theorem Older.date_le {t t' : Transaction} (h : Older t t') : t'.date ≤ t.date := by
  rcases h with rfl | ⟨-, -, hle⟩
  · exact le_refl _
  · exact hle

/-- The credits of an older list are the older credits, and its payments are the same. -/
theorem ofType_older {aged : List Transaction} (h : List.Forall₂ Older txns aged) :
    List.Forall₂ Older (ofType .credit txns) (ofType .credit aged) ∧
      ofType .payment aged = ofType .payment txns := by
  induction h with
  | nil => exact ⟨.nil, rfl⟩
  | @cons t t' txns aged hold _ ih =>
    obtain ⟨hcredits, hpayments⟩ := ih
    have htype := hold.type_eq
    cases hcase : t.type with
    | credit =>
      rw [hcase] at htype
      have hcons : ∀ (l : List Transaction) (x : Transaction), x.type = .credit →
          ofType .credit (x :: l) = x :: ofType .credit l ∧
            ofType .payment (x :: l) = ofType .payment l := by
        intro l x hx
        simp [ofType, hx]
      obtain ⟨hc, hp⟩ := hcons txns t hcase
      obtain ⟨hc', hp'⟩ := hcons aged t' htype
      rw [hc, hp, hc', hp']
      exact ⟨.cons hold hcredits, hpayments⟩
    | payment =>
      obtain rfl : t' = t := hold.resolve_right fun h => absurd (hcase.symm.trans h.1) (by decide)
      simpa [ofType, hcase] using ⟨hcredits, hpayments⟩

theorem sumAmounts_older {aged : List Transaction} (h : List.Forall₂ Older txns aged) :
    sumAmounts aged = sumAmounts txns := by
  induction h with
  | nil => rfl
  | cons hold _ ih =>
    rw [sumAmounts, List.map_cons, List.sum_cons, ← sumAmounts, ih, hold.amount_eq, sumAmounts,
      sumAmounts, List.map_cons, List.sum_cons]

theorem exists_older {aged : List Transaction} (h : List.Forall₂ Older txns aged) :
    ∀ t ∈ txns, ∃ t' ∈ aged, Older t t' := by
  induction h with
  | nil => exact fun t ht => absurd ht List.not_mem_nil
  | cons hold _ ih =>
    intro t ht
    rcases List.mem_cons.mp ht with rfl | hmem
    · exact ⟨_, List.mem_cons_self, hold⟩
    · obtain ⟨t', ht', hold'⟩ := ih t hmem
      exact ⟨t', List.mem_cons_of_mem _ ht', hold'⟩

/-- The figures of an older list: only the overdue credits may be more. -/
theorem profile_older {aged : List Transaction} (h : List.Forall₂ Older txns aged)
    (balance : ℚ) (now : Time) :
    profile aged balance now =
      { profile txns balance now with overdue := overdueCount (ofType .credit aged) now } := by
  obtain ⟨hcredits, hpayments⟩ := ofType_older h
  unfold profile lastPaid
  rw [hpayments, sumAmounts_older hcredits, hcredits.length_eq]

theorem overdueCount_eq_zero_iff (txns : List Transaction) (now : Time) :
    overdueCount (ofType .credit txns) now = 0 ↔
      ∀ t ∈ txns, t.type = .credit → daysSince now t.date ≤ 30 := by
  rw [overdueCount, List.countP_eq_zero]
  simp only [mem_ofType, decide_eq_true_eq, not_lt, and_imp, gt_iff_lt]

/-- Factor 2 is earned in full exactly if none is older than thirty days. -/
theorem overduePoints_eq_20_iff (txns : List Transaction) (now : Time) :
    overduePoints (overdueCount (ofType .credit txns) now) = 20 ↔
      ∀ t ∈ txns, t.type = .credit → daysSince now t.date ≤ 30 := by
  rw [← overdueCount_eq_zero_iff]
  unfold overduePoints
  split_ifs <;> omega

/-- **The overdue credits of factor 2 are the old ones, paid or not.**  Whatever has been
paid, the factor is earned in full and older credits leave the score as it is exactly as long
as none of them is older than thirty days. -/
theorem overdue_ignored_iff {aged : List Transaction} (h : List.Forall₂ Older txns aged) :
    (overduePoints (overdueCount (ofType .credit (sortByDate txns)) now) = 20 ∧
        overduePoints (overdueCount (ofType .credit (sortByDate aged)) now) = 20 ∧
        (scoringRules (sortByDate aged) balance now).1 =
          (scoringRules (sortByDate txns) balance now).1) ↔
      ∀ t ∈ aged, t.type = .credit → daysSince now t.date ≤ 30 := by
  have hsorted : ∀ l : List Transaction, overdueCount (ofType .credit (sortByDate l)) now =
      overdueCount (ofType .credit l) now := fun l =>
    (ofType_perm (sortByDate_perm l) .credit).countP_eq _
  rw [hsorted, hsorted, overduePoints_eq_20_iff, overduePoints_eq_20_iff]
  refine ⟨fun hall => hall.2.1, fun haged => ?_⟩
  have hyoung : ∀ t ∈ txns, t.type = .credit → daysSince now t.date ≤ 30 := by
    intro t ht htype
    obtain ⟨t', ht', hold⟩ := exists_older h t ht
    exact (daysSince_anti now hold.date_le).trans (haged t' ht' (hold.type_eq.trans htype))
  refine ⟨hyoung, haged, ?_⟩
  by_cases hne : txns = []
  · rw [hne, List.forall₂_nil_left_iff] at h
    rw [h, hne]
  · -- none is overdue in either list, and the other figures are the same
    have hne' : aged ≠ [] := by
      rintro rfl
      exact hne (List.forall₂_nil_right_iff.mp h)
    have hcount : overdueCount (ofType .credit aged) now = overdueCount (ofType .credit txns) now :=
      ((overdueCount_eq_zero_iff aged now).mpr haged).trans
        ((overdueCount_eq_zero_iff txns now).mpr hyoung).symm
    rw [scoringRules_fst hne, scoringRules_fst hne', profile_older h, hcount]
    rfl

/-- A credit paid back in full, two days ago and then twenty days ago. -/
theorem overdue_ignored_iff_sample :
    let now := 20 * 86400000
    let txns := [sampleTxn .credit 50 (18 * 86400000), sampleTxn .payment 50 (19 * 86400000)]
    let aged := [sampleTxn .credit 50 0, sampleTxn .payment 50 (19 * 86400000)]
    (overduePoints (overdueCount (ofType .credit (sortByDate txns)) now) = 20 ∧
        overduePoints (overdueCount (ofType .credit (sortByDate aged)) now) = 20 ∧
        (scoringRules (sortByDate aged) 0 now).1 =
          (scoringRules (sortByDate txns) 0 now).1) ↔
      ∀ t ∈ aged, t.type = .credit → daysSince now t.date ≤ 30 := by
  intro now txns aged
  have hold : List.Forall₂ Older txns aged :=
    .cons (.inr ⟨rfl, rfl, by decide⟩) (.cons (.inl rfl) .nil)
  exact overdue_ignored_iff hold

/-- A credit of 50, paid back in full, costs six points of factor 2 when it is forty days
old. -/
theorem paid_credit_overdue :
    ¬∀ (txns aged : List Transaction) (balance : ℚ) (now : Time),
      txns ≠ [] → (∀ t ∈ txns, 0 < t.amount) →
      sumAmounts (ofType .credit txns) ≤ sumAmounts (ofType .payment txns) →
      balance = sumAmounts (ofType .credit txns) - sumAmounts (ofType .payment txns) →
      List.Forall₂ Older txns aged →
      overduePoints (overdueCount (ofType .credit (sortByDate txns)) now) = 20 ∧
        overduePoints (overdueCount (ofType .credit (sortByDate aged)) now) = 20 ∧
        (scoringRules (sortByDate aged) balance now).1 =
          (scoringRules (sortByDate txns) balance now).1 := by
  intro hclaim
  have hfull := hclaim
    [sampleTxn .credit 50 (40 * 86400000), sampleTxn .payment 50 (40 * 86400000)]
    [sampleTxn .credit 50 0, sampleTxn .payment 50 (40 * 86400000)] 0 (40 * 86400000)
    (by decide) (by decide) (by decide +kernel) (by decide +kernel)
    (.cons (.inr ⟨rfl, rfl, by decide⟩) (.cons (.inl rfl) .nil))
  exact absurd hfull (by decide +kernel)

end DigitalLedger
