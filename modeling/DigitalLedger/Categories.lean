import DigitalLedger.Scores

/-!
# Categories and scores

The score of a customer and its category are written together, in three places: when
the customer is created, when it is scored without transactions, and when it is scored
by the six factors.  The last two give the category of the score; the first does not.

## Main definitions

* `recalculateAll` — the button that scores all customers of a merchant again.
* `CustomerDoc.Matches` — the stored category is that of the stored score.

## Main results

* `category_matches_iff` — the stored category is that of the stored score exactly for
  the customers that have been scored.
-/

namespace DigitalLedger

variable {bcrypt : Bcrypt} {s : Store}

/-! ### Scoring every customer of a merchant -/

/-- The loop of `recalculateAll`, from the clock reading of number `k` on. -/
def recalculate (env : Env) : ℕ → List (CustomerDoc String) → Db Unit
  | _, [] => .ret ()
  | k, c :: customers => do
    let _ ← computeCreditScore (env.utcnow k) c.id
    recalculate env (k + 1) customers

/-- The button "Recalculate All Credit Scores" of a merchant's customer list. -/
def recalculateAll (env : Env) (merchantId : String) : Db Unit := do
  let customers ← getCustomers merchantId
  recalculate env 0 customers

/-! ### The category of a score -/

/-- The stored category is that of the stored score. -/
def CustomerDoc.Matches {ι : Type} (c : CustomerDoc ι) : Prop :=
  c.riskCategory = DigitalLedger.riskCategory c.creditScore

theorem matches_of_pair {ι : Type} {c : CustomerDoc ι} {txns : List Transaction} {balance : ℚ}
    {now : Time} (h : c.pair = scoringRules txns balance now) : c.Matches := by
  have hrules := scoringRules_snd txns balance now
  rw [← h] at hrules
  exact hrules

/-- The customer `a`, where it is stored, matches. -/
def MatchesAt (a : ObjectId) (s : Store) : Prop := ∀ c ∈ s.customers.docs, c.id = a → c.Matches

theorem MatchesAt.rescore {a : ObjectId} (h : MatchesAt a s) (now : Time) (oid : ObjectId) :
    MatchesAt a (s.rescore now oid.str oid) := by
  intro c' hc' hid'
  obtain ⟨c, hc, hid, -, hother, hself⟩ := mem_customers_rescore hc'
  by_cases hoid : c.id = oid
  · exact matches_of_pair (hself hoid)
  · have hpair : c'.pair = c.pair := hother hoid
    obtain ⟨hscore, hcategory⟩ := Prod.mk.inj hpair
    rw [CustomerDoc.Matches, hscore, hcategory]
    exact h c hc (hid.symm.trans hid')

/-- Scoring a list of customers, one after the other, keeps a match. -/
theorem MatchesAt.recalculate {a : ObjectId} (env : Env) {customers : List Customer} (k : ℕ)
    (h : MatchesAt a s) :
    MatchesAt a (Prog.run exec (recalculate env k (customers.map CustomerDoc.withStrId)) s).2 := by
  induction customers generalizing k s with
  | nil => exact h
  | cons c customers ih =>
    have hid : c.withStrId.id = c.id.str := rfl
    rw [List.map_cons, DigitalLedger.recalculate, hid, Prog.run_bind,
      run_computeCreditScore s (env.utcnow k) (ObjectId.ofString?_str c.id), Prog.andThen_ok]
    exact ih (k + 1) (h.rescore (env.utcnow k) c.id)

theorem MatchesAt.recalculateAll {a : ObjectId} (h : MatchesAt a s) (env : Env) (m : String) :
    MatchesAt a (Prog.run exec (recalculateAll env m) s).2 :=
  h.recalculate env 0

/-- A customer that has not been scored since its creation does not match: it was created
with the score 100 under "Low Risk". -/
theorem not_matches_unscored {c : Customer} (h : Standing s c none) : ¬c.Matches := by
  obtain ⟨hscore, hcategory⟩ := Prod.mk.inj h.1
  rw [CustomerDoc.Matches, hscore, hcategory]
  decide

/-- **The category matches the score exactly once the customer has been scored.**  Then
recalculating the scores moves it to no other category without a change of its score. -/
theorem category_matches_iff {scored : ScoringTimes} (h : ScoredRun bcrypt s scored)
    {c : Customer} (hc : c ∈ s.customers.docs) :
    (c.riskCategory = riskCategory c.creditScore ∧
      ∀ env m, ∀ c' ∈ (Prog.run exec (recalculateAll env m) s).2.customers.docs, c'.id = c.id →
        c'.creditScore = c.creditScore → c'.riskCategory = c.riskCategory) ↔
      scored c.id ≠ none := by
  have hstanding := h.timed c hc
  constructor
  · rintro ⟨hmatches, -⟩ hnone
    rw [hnone] at hstanding
    exact not_matches_unscored hstanding hmatches
  · intro hsome
    obtain ⟨now, hnow⟩ := Option.ne_none_iff_exists'.mp hsome
    rw [hnow] at hstanding
    have hmatches : c.Matches := matches_of_pair hstanding
    refine ⟨hmatches, fun env m c' hc' hid hscore => ?_⟩
    have hat : MatchesAt c.id s := fun c₀ hc₀ hid₀ => customer_eq_of_id hc₀ hc hid₀ ▸ hmatches
    have hmatches' : c'.riskCategory = riskCategory c'.creditScore :=
      hat.recalculateAll env m c' hc' hid
    rw [hmatches', hscore]
    exact hmatches.symm

/-- The sample customer has been scored, so its category is that of its score. -/
theorem category_matches_iff_sample :
    ∃ scored, ScoredRun markingBcrypt sampleStore scored ∧ scored sampleCustomer.id ≠ none ∧
      (((sampleCustomer.riskCategory = riskCategory sampleCustomer.creditScore) ∧
        ∀ env m, ∀ c' ∈ (Prog.run exec (recalculateAll env m) sampleStore).2.customers.docs,
          c'.id = sampleCustomer.id → c'.creditScore = sampleCustomer.creditScore →
            c'.riskCategory = sampleCustomer.riskCategory) ↔
        scored sampleCustomer.id ≠ none) := by
  obtain ⟨scored, hrun, hscored⟩ := sampleStore_scoredRun
  exact ⟨scored, hrun, by simp [hscored], category_matches_iff hrun sampleCustomer_mem⟩

/-- A ledger with one customer, just registered. -/
def newcomerStore : Store :=
  execAll markingBcrypt [.addCustomer (.sample 1 0) "m" "Asha" "98" "" ""] .empty

/-- The category of a new customer is not that of its score, and recalculating the scores
moves it without a change of its score. -/
theorem category_mismatch :
    ¬(∀ (bcrypt : Bcrypt) (s : Store), Reachable bcrypt s → ∀ c ∈ s.customers.docs,
      c.riskCategory = riskCategory c.creditScore) ∧
    ¬(∀ (bcrypt : Bcrypt) (s : Store), Reachable bcrypt s → ∀ c ∈ s.customers.docs, ∀ env m,
      ∀ c' ∈ (Prog.run exec (recalculateAll env m) s).2.customers.docs, c'.id = c.id →
        c'.creditScore = c.creditScore → c'.riskCategory = c.riskCategory) := by
  have hreach : Reachable markingBcrypt newcomerStore := by
    refine Reachable.empty.execAll fun c hc => ?_
    rw [List.mem_singleton] at hc
    rw [hc]
    trivial
  refine ⟨fun hclaim => ?_, fun hclaim => ?_⟩
  · exact absurd (hclaim markingBcrypt newcomerStore hreach) (by decide +kernel)
  · have hall := hclaim markingBcrypt newcomerStore hreach
    have hmoved : ¬∀ c ∈ newcomerStore.customers.docs,
        ∀ c' ∈ (Prog.run exec (recalculateAll (.sample 2 0) "m") newcomerStore).2.customers.docs,
          c'.id = c.id → c'.creditScore = c.creditScore → c'.riskCategory = c.riskCategory := by
      decide +kernel
    exact hmoved fun c hc => hall c hc (.sample 2 0) "m"

end DigitalLedger
