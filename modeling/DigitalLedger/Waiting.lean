import DigitalLedger.Categories
import DigitalLedger.Conduct
import DigitalLedger.Dashboard

/-!
# Waiting

Time enters the rules through the age of the credits and of the latest payment, and both
only grow.  So the same customer scored later has no better score, and scoring all customers
over and over, by a clock that does not go back, only ever lowers scores.

## Main definitions

* `ScoredBy` — every stored score is one the rules gave at some time up to `t`.
* `Lowers` — the same customers, none with a higher score.
* `Recalculated` — the button "Recalculate All Credit Scores" pressed any number of times.

## Main results

* `scoringRules_waiting` — later the rules give no higher score.
* `waiting_never_helps` — the scores computed, and the scores stored.
-/

namespace DigitalLedger

variable {bcrypt : Bcrypt} {s s' : Store} {t t' : Time}

/-! ### The rules at two times -/

theorem daysSince_mono {now₁ now₂ : Time} (h : now₁ ≤ now₂) (date : Time) :
    daysSince now₁ date ≤ daysSince now₂ date :=
  Int.ediv_le_ediv (by decide) (Int.sub_le_sub_right h date)

theorem overdueCount_mono {now₁ now₂ : Time} (h : now₁ ≤ now₂) (credits : List Transaction) :
    overdueCount credits now₁ ≤ overdueCount credits now₂ := by
  refine List.countP_mono_left fun t _ hold => ?_
  rw [decide_eq_true_eq] at hold ⊢
  exact lt_of_lt_of_le hold (daysSince_mono h t.date)

/-- The earlier figures are no worse. -/
theorem profile_noWorse_of_le {now₁ now₂ : Time} (h : now₁ ≤ now₂) (txns : List Transaction)
    (balance : ℚ) : (profile txns balance now₂).NoWorse (profile txns balance now₁) where
  totalCredit := le_refl _
  totalPaid := le_refl _
  overdue := overdueCount_mono h _
  balance := le_refl _
  numCredits := le_refl _
  numPayments := le_refl _
  bonus := fun hzero => Or.inl hzero
  sincePaid := fun d hd => by
    obtain ⟨last, hlast, rfl⟩ := Option.map_eq_some_iff.mp hd
    exact ⟨_, Option.map_eq_some_iff.mpr ⟨last, hlast, rfl⟩, daysSince_mono h last⟩

/-- **Later the rules give no higher score.** -/
theorem scoringRules_waiting {now₁ now₂ : Time} (h : now₁ ≤ now₂) (txns : List Transaction)
    (balance : ℚ) :
    (scoringRules (sortByDate txns) balance now₂).1 ≤
      (scoringRules (sortByDate txns) balance now₁).1 := by
  by_cases hne : txns = []
  · -- without transactions the score is 100 at any time
    rw [hne]
    exact le_refl 100
  · rw [scoringRules_fst hne, scoringRules_fst hne]
    exact (profile_noWorse_of_le h txns balance).score_le

/-- What `compute_credit_score` returns for a customer, it returns no better later. -/
theorem computeCreditScore_waiting {now₁ now₂ : Time} (h : now₁ ≤ now₂) {cid : String}
    {pair₁ pair₂ : ℤ × RiskCategory}
    (h₁ : (Prog.run exec (computeCreditScore now₁ cid) s).1 = .ok pair₁)
    (h₂ : (Prog.run exec (computeCreditScore now₂ cid) s).1 = .ok pair₂) :
    pair₂.1 ≤ pair₁.1 ∧ pair₂.2.rank ≤ pair₁.2.rank := by
  cases hcid : ObjectId.ofString? cid with
  | none =>
    rw [computeCreditScore, objectId_eq_raise hcid] at h₁
    exact absurd h₁ (by simp)
  | some oid =>
    rw [run_computeCreditScore s now₁ hcid, Except.ok.injEq] at h₁
    rw [run_computeCreditScore s now₂ hcid, Except.ok.injEq] at h₂
    cases hfind : s.customers.findOne { id := some oid } with
    | none =>
      rw [hfind] at h₁ h₂
      rw [← h₁, ← h₂]
      exact ⟨le_refl _, le_refl _⟩
    | some c =>
      rw [hfind] at h₁ h₂
      have hscore : pair₂.1 ≤ pair₁.1 := by
        rw [← h₁, ← h₂]
        exact scoringRules_waiting h _ c.balance
      refine ⟨hscore, ?_⟩
      have hsnd₁ : pair₁.2 = riskCategory pair₁.1 := by
        rw [← h₁]
        exact scoringRules_snd _ _ _
      have hsnd₂ : pair₂.2 = riskCategory pair₂.1 := by
        rw [← h₂]
        exact scoringRules_snd _ _ _
      rw [hsnd₁, hsnd₂]
      exact rank_riskCategory_mono hscore

/-! ### The stored scores -/

/-- Every stored score is one the rules gave at some time up to `t`, or that of a customer
not scored yet. -/
def ScoredBy (t : Time) (s : Store) : Prop :=
  ∀ c ∈ s.customers.docs, ∃ scored, Standing s c scored ∧ ∀ now ∈ scored, now ≤ t

/-- The same customers, none with a higher score. -/
structure Lowers (s s' : Store) : Prop where
  customerIds : s'.customerIds = s.customerIds
  score_le : ∀ c' ∈ s'.customers.docs, ∃ c ∈ s.customers.docs,
    c'.id = c.id ∧ c'.creditScore ≤ c.creditScore

theorem Lowers.refl (s : Store) : Lowers s s := ⟨rfl, fun c hc => ⟨c, hc, rfl, le_refl _⟩⟩

theorem Lowers.trans {s₁ s₂ s₃ : Store} (h : Lowers s₁ s₂) (h' : Lowers s₂ s₃) :
    Lowers s₁ s₃ where
  customerIds := h'.customerIds.trans h.customerIds
  score_le c₃ hc₃ := by
    obtain ⟨c₂, hc₂, hid₂, hle₂⟩ := h'.score_le c₃ hc₃
    obtain ⟨c₁, hc₁, hid₁, hle₁⟩ := h.score_le c₂ hc₂
    exact ⟨c₁, hc₁, hid₂.trans hid₁, hle₂.trans hle₁⟩

/-- A customer scored once more, at a time not before the last, is scored no higher. -/
theorem Standing.score_le {c : Customer} {scored : Option Time} (h : Standing s c scored)
    (hpast : ∀ now ∈ scored, now ≤ t) :
    (scoringRules (s.scoredTransactions c.id.str) c.balance t).1 ≤ c.creditScore := by
  cases scored with
  | none =>
    -- not scored yet: the customer has the full score, and no transactions
    obtain ⟨hpair, hnil⟩ := h
    rw [hnil, show c.creditScore = 100 from congrArg Prod.fst hpair]
    exact le_refl 100
  | some now =>
    have hscore : c.creditScore =
        (scoringRules (s.scoredTransactions c.id.str) c.balance now).1 := congrArg Prod.fst h
    rw [hscore]
    exact scoringRules_waiting (hpast now rfl) _ c.balance

theorem ScoredBy.mono (h : ScoredBy t s) (hle : t ≤ t') : ScoredBy t' s := by
  intro c hc
  obtain ⟨scored, hstanding, hpast⟩ := h c hc
  exact ⟨scored, hstanding, fun now hnow => (hpast now hnow).trans hle⟩

/-- Scoring one customer, at a time not before the last scores. -/
theorem ScoredBy.rescore (h : ScoredBy t s) (oid : ObjectId) :
    ScoredBy t (s.rescore t oid.str oid) ∧ Lowers s (s.rescore t oid.str oid) := by
  have hT : ∀ cid, (s.rescore t oid.str oid).scoredTransactions cid =
      s.scoredTransactions cid := scoredTransactions_congr (s.transactions_rescore t oid.str oid)
  refine ⟨fun c' hc' => ?_, customerIds_rescore t oid.str oid s, fun c' hc' => ?_⟩
  · obtain ⟨c, hc, hid, hbalance, hother, hself⟩ := mem_customers_rescore hc'
    -- the customer scored stands at the time `t`, the others as they stood
    by_cases hoid : c.id = oid
    · refine ⟨some t, ?_, fun now hnow => (Option.some.inj hnow).ge⟩
      rw [Standing, hself hoid, hT, hid, hoid, hbalance]
    · obtain ⟨scored, hstanding, hpast⟩ := h c hc
      exact ⟨scored, hstanding.congr hid (hother hoid) hbalance (hT _), hpast⟩
  · obtain ⟨c, hc, hid, -, hother, hself⟩ := mem_customers_rescore hc'
    refine ⟨c, hc, hid, ?_⟩
    by_cases hoid : c.id = oid
    · obtain ⟨scored, hstanding, hpast⟩ := h c hc
      have hscore : c'.creditScore =
          (scoringRules (s.scoredTransactions oid.str) c.balance t).1 :=
        congrArg Prod.fst (hself hoid)
      rw [hscore, ← hoid]
      exact hstanding.score_le hpast
    · exact (congrArg Prod.fst (hother hoid)).le

/-- Scoring a list of customers, by a clock that does not go back. -/
theorem ScoredBy.recalculate {env : Env} (hclock : ∀ j k, j ≤ k → env.utcnow j ≤ env.utcnow k)
    {customers : List Customer} (k : ℕ) (h : ScoredBy (env.utcnow k) s) :
    let s' := (Prog.run exec (recalculate env k (customers.map CustomerDoc.withStrId)) s).2
    ScoredBy (env.utcnow (k + customers.length)) s' ∧ Lowers s s' := by
  induction customers generalizing k s with
  | nil => exact ⟨h, Lowers.refl s⟩
  | cons c customers ih =>
    obtain ⟨hscored, hlowers⟩ := h.rescore c.id
    -- the next customer is scored at the next reading of the clock
    obtain ⟨hscored', hlowers'⟩ := ih (k + 1) (hscored.mono (hclock k (k + 1) (Nat.le_succ k)))
    have hid : c.withStrId.id = c.id.str := rfl
    have hlength : k + (c :: customers).length = k + 1 + customers.length := by
      rw [List.length_cons]
      omega
    rw [List.map_cons, DigitalLedger.recalculate, hid, Prog.run_bind,
      run_computeCreditScore s (env.utcnow k) (ObjectId.ofString?_str c.id), Prog.andThen_ok,
      hlength]
    exact ⟨hscored', hlowers.trans hlowers'⟩

/-- The button "Recalculate All Credit Scores" pressed any number of times, by any merchants,
from the time `t` to the time `t'`, by a clock that does not go back. -/
inductive Recalculated : Time → Store → Time → Store → Prop
  | refl (t : Time) (s : Store) : Recalculated t s t s
  | press {t t' : Time} {s s' : Store} (env : Env) (m : String) (hstart : t ≤ env.utcnow 0)
      (hclock : ∀ j k, j ≤ k → env.utcnow j ≤ env.utcnow k)
      (rest : Recalculated (env.utcnow (s.customersOf m).length)
        (Prog.run exec (recalculateAll env m) s).2 t' s') :
      Recalculated t s t' s'

theorem Recalculated.lowers (h : Recalculated t s t' s') (hs : ScoredBy t s) : Lowers s s' := by
  induction h with
  | refl t s => exact Lowers.refl s
  | press env m hstart hclock rest ih =>
    obtain ⟨hscored, hlowers⟩ := (hs.mono hstart).recalculate hclock 0
    rw [Nat.zero_add] at hscored
    exact hlowers.trans (ih hscored)

/-- **Waiting never helps.**  A customer is scored no higher at a later time, and its category
is no better; and pressing "Recalculate All Credit Scores" over and over, with no other
operation in between, never raises a stored score. -/
theorem waiting_never_helps :
    (∀ (s : Store) (cid : String) (now₁ now₂ : Time) (pair₁ pair₂ : ℤ × RiskCategory),
      now₁ ≤ now₂ →
      (Prog.run exec (computeCreditScore now₁ cid) s).1 = .ok pair₁ →
      (Prog.run exec (computeCreditScore now₂ cid) s).1 = .ok pair₂ →
      pair₂.1 ≤ pair₁.1 ∧ pair₂.2.rank ≤ pair₁.2.rank) ∧
    (∀ (bcrypt : Bcrypt) (s s' : Store) (scored : ScoringTimes) (t t' : Time),
      ScoredRun bcrypt s scored →
      (∀ c ∈ s.customers.docs, ∀ now ∈ scored c.id, now ≤ t) →
      Recalculated t s t' s' →
      s'.customerIds = s.customerIds ∧
        ∀ c ∈ s.customers.docs, ∀ c' ∈ s'.customers.docs, c'.id = c.id →
          c'.creditScore ≤ c.creditScore) := by
  refine ⟨fun s cid now₁ now₂ pair₁ pair₂ hle h₁ h₂ => computeCreditScore_waiting hle h₁ h₂, ?_⟩
  intro bcrypt s s' scored t t' hrun hpast hpresses
  have hscored : ScoredBy t s := fun c hc => ⟨scored c.id, hrun.timed c hc, hpast c hc⟩
  have hlowers := hpresses.lowers hscored
  refine ⟨hlowers.customerIds, fun c hc c' hc' hid => ?_⟩
  obtain ⟨c₀, hc₀, hid₀, hle⟩ := hlowers.score_le c' hc'
  obtain rfl := customer_eq_of_id hc₀ hc (hid₀.symm.trans hid)
  exact hle

/-- The sample customer scored on the day of its last transaction and forty days later, by the
one function and by the button. -/
theorem waiting_never_helps_sample :
    (∃ pair₁ pair₂ : ℤ × RiskCategory, pair₂.1 ≤ pair₁.1 ∧ pair₂.2.rank ≤ pair₁.2.rank ∧
      (Prog.run exec (computeCreditScore 0 sampleCustomer.id.str) sampleStore).1 = .ok pair₁) ∧
    ∃ t' s', Recalculated 0 sampleStore t' s' ∧ s'.customerIds = sampleStore.customerIds ∧
      ∀ c' ∈ s'.customers.docs, c'.id = sampleCustomer.id →
        c'.creditScore ≤ sampleCustomer.creditScore := by
  have hcid : ObjectId.ofString? sampleCustomer.id.str = some sampleCustomer.id :=
    ObjectId.ofString?_str _
  have hconst : ∀ n now j k, j ≤ k →
      (Env.sample n now).utcnow j ≤ (Env.sample n now).utcnow k := fun _ _ _ _ _ => le_refl _
  have hpresses := Recalculated.press (.sample 4 0) "m" (le_refl 0) (hconst 4 0)
    (.press (.sample 5 (40 * 86400000)) "m" (by decide) (hconst 5 _)
      (.refl _ (Prog.run exec (recalculateAll (.sample 5 (40 * 86400000)) "m")
        (Prog.run exec (recalculateAll (.sample 4 0) "m") sampleStore).2).2))
  obtain ⟨scored, hrun, hscored⟩ := sampleStore_scoredRun
  have hpast : ∀ c ∈ sampleStore.customers.docs, ∀ now ∈ scored c.id, now ≤ 0 := by
    intro c hc now hnow
    have honly : ∀ c ∈ sampleStore.customers.docs, c = sampleCustomer := by decide +kernel
    rw [honly c hc, hscored] at hnow
    exact (Option.some.inj hnow).ge
  obtain ⟨hids, hle⟩ := waiting_never_helps.2 markingBcrypt sampleStore _ scored 0 _ hrun hpast
    hpresses
  refine ⟨?_, _, _, hpresses, hids, hle sampleCustomer sampleCustomer_mem⟩
  have h₁ := congrArg Prod.fst (run_computeCreditScore sampleStore 0 hcid)
  have h₂ := congrArg Prod.fst (run_computeCreditScore sampleStore (40 * 86400000) hcid)
  obtain ⟨hscore, hrank⟩ := waiting_never_helps.1 sampleStore _ _ _ _ _ (by decide) h₁ h₂
  exact ⟨_, _, hscore, hrank, h₁⟩

end DigitalLedger
