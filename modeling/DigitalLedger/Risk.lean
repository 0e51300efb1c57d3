import DigitalLedger.Integrity

/-!
# Risk labels and money owed

A customer filed under one of the two worst categories owes money: the category is
computed from the transactions, the balance is a running figure, and the two agree
because the running figures are exact whenever a customer is scored and every
operation on money scores the customer it touches.

## Main definitions

* `CustomerDoc.AtRisk` — the stored category is one of the two worst.
* `Labelled`, `LabelledBut` — the customers at risk owe money, all of them or all but
  one still to be scored.

## Main results

* `labelled_rescore` — scoring a customer of a consistent store justifies its label.
* `at_risk_owes` — in every reachable state the customers at risk owe money and are
  listed by `get_defaulters`.
-/

namespace DigitalLedger

open Collection

variable {bcrypt : Bcrypt} {s s' : Store}

/-- The stored category is one of the two worst. -/
def CustomerDoc.AtRisk {ι : Type} (c : CustomerDoc ι) : Prop :=
  c.riskCategory = .highRisk ∨ c.riskCategory = .defaulter

/-- The customers at risk owe money, but for one that is still to be scored. -/
def LabelledBut (oid : Option ObjectId) (s : Store) : Prop :=
  ∀ c ∈ s.customers.docs, some c.id ≠ oid → c.AtRisk → 0 < c.balance

/-- The customers at risk owe money. -/
def Labelled (s : Store) : Prop := ∀ c ∈ s.customers.docs, c.AtRisk → 0 < c.balance

theorem Labelled.but (h : Labelled s) (oid : Option ObjectId) : LabelledBut oid s :=
  fun c hc _ => h c hc

/-! ### Scoring -/

/-- The customer is scored on the transactions that carry its identifier. -/
theorem scoredTransactions_perm (s : Store) (c : Customer) :
    (s.scoredTransactions c.id.str).Perm (s.transactionsOf c) := by
  have hfind : s.transactions.find { customerId := some c.id.str } = s.transactionsOf c := by
    refine List.filter_congr fun t _ => ?_
    rw [Bool.eq_iff_iff, test_transaction_customer, decide_eq_true_eq]
  rw [Store.scoredTransactions, hfind]
  exact List.perm_insertionSort _ _

theorem sumAmounts_ofType_perm {txns txns' : List Transaction} (h : txns.Perm txns')
    (type : TxnType) : sumAmounts (ofType type txns) = sumAmounts (ofType type txns') :=
  ((h.filter _).map _).sum_eq

/-- The category a settled customer of a consistent store is given is not one of
the two worst. -/
theorem scoringRules_settled (hs : Consistent s) {c : Customer} (hc : c ∈ s.customers.docs)
    (hbalance : c.balance ≤ 0) (now : Time) :
    (scoringRules (s.scoredTransactions c.id.str) c.balance now).2 ≠ .highRisk ∧
      (scoringRules (s.scoredTransactions c.id.str) c.balance now).2 ≠ .defaulter := by
  have hperm := scoredTransactions_perm s c
  refine riskCategory_settled ?_ hbalance
  rw [sumAmounts_ofType_perm hperm, sumAmounts_ofType_perm hperm]
  rw [hs.balance_eq hc] at hbalance
  exact sub_nonpos.mp hbalance

/-- **Scoring a customer of a consistent store justifies its label.** -/
theorem labelled_rescore (hs : Consistent s) {oid : ObjectId} (h : LabelledBut (some oid) s)
    (now : Time) : Labelled (s.rescore now oid.str oid) := by
  unfold Store.rescore
  cases hfind : s.customers.findOne { id := some oid } with
  | none =>
    intro c hc
    have hne : c.id ≠ oid := by
      intro hid
      rw [findOne_customer.mpr ⟨hc, hid⟩] at hfind
      exact absurd hfind (by simp)
    exact h c hc fun hsome => hne (Option.some.inj hsome)
  | some c₀ =>
    obtain ⟨hc₀, rfl⟩ := findOne_customer.mp hfind
    intro c' hc' hrisk
    obtain ⟨c, hc, rfl⟩ := mem_customers_setScore.mp hc'
    by_cases hid : c.id = c₀.id
    · obtain rfl := customer_eq_of_id hc hc₀ hid
      rw [if_pos rfl] at hrisk ⊢
      have hbalance : (CustomerUpdate.apply
          { creditScore := some (scoringRules (s.scoredTransactions c.id.str) c.balance now).1
            riskCategory :=
              some (scoringRules (s.scoredTransactions c.id.str) c.balance now).2 }
          c).balance = c.balance := add_zero _
      rw [hbalance]
      by_contra hneg
      -- a settled account would not have been given this category
      obtain ⟨hhigh, hdefaulter⟩ := scoringRules_settled hs hc (not_lt.mp hneg) now
      rcases hrisk with hrisk | hrisk
      · exact hhigh hrisk
      · exact hdefaulter hrisk
    · rw [if_neg hid] at hrisk ⊢
      exact h c hc (fun hsome => hid (Option.some.inj hsome)) hrisk

theorem LabelledBut.incCustomer {oid : ObjectId} (h : Labelled s)
    (hC : s'.customers = s.customers) (δ : Totals) (last : Option Time) :
    LabelledBut (some oid) (s'.incCustomer oid δ last) := by
  intro c' hc' hne hrisk
  obtain ⟨c, hc, rfl⟩ := mem_customers_incCustomer.mp hc'
  rw [hC] at hc
  by_cases hid : c.id = oid
  · rw [if_pos hid, id_apply, hid] at hne
    exact absurd rfl hne
  · rw [if_neg hid] at hrisk ⊢
    exact h c hc hrisk

/-- An update that leaves category and balance alone keeps the labels. -/
theorem Labelled.updateOne (h : Labelled s) {u : CustomerUpdate} (hinc : u.inc = 0)
    (hrisk : u.riskCategory = none) (q : CustomerQuery) :
    Labelled { s with customers := s.customers.updateOne q u } := by
  have hmap : (s.customers.updateOne q u).docs.map (fun c => (c.riskCategory, c.balance)) =
      s.customers.docs.map fun c => (c.riskCategory, c.balance) := by
    refine map_updateOne (fun c => ?_) q s.customers
    change (u.riskCategory.getD c.riskCategory, c.balance + u.inc.balance) = _
    rw [hinc, hrisk, Totals.balance_zero, add_zero, Option.getD_none]
  intro c' hc' hrisk'
  have hmem : (c'.riskCategory, c'.balance) ∈
      s.customers.docs.map fun c => (c.riskCategory, c.balance) := by
    rw [← hmap]
    exact List.mem_map_of_mem hc'
  obtain ⟨c, hc, heq⟩ := List.mem_map.mp hmem
  obtain ⟨hcat, hbal⟩ := Prod.mk.inj heq
  have hrisk : c.AtRisk := by
    rw [CustomerDoc.AtRisk, hcat]
    exact hrisk'
  rw [← hbal]
  exact h c hc hrisk

/-! ### The invariant -/

/-- Every move between consistent stores keeps the labels justified. -/
theorem Move.labelled (hs : Consistent s) (h : Labelled s) (hmove : Move bcrypt s s') :
    Labelled s' := by
  cases hmove with
  | openAccount env m name phone address pin hphone hC =>
    intro c hc hrisk
    rw [docs_insertOne hC, List.mem_append, List.mem_singleton] at hc
    rcases hc with hc | rfl
    · exact h c hc hrisk
    · -- a new customer is filed under "Low Risk"
      rcases hrisk with hrisk | hrisk
      · exact absurd hrisk (by simp [newCustomer])
      · exact absurd hrisk (by simp [newCustomer])
  | record env type amount note hamount hc hT =>
    refine labelled_rescore (hs.record env type amount note hc hT) ?_ _
    exact LabelledBut.incCustomer h rfl _ _
  | amend env amount note ht hc hid =>
    refine labelled_rescore (hs.write (some ⟨amount, note, true, env.utcnow 0⟩) ht hid) ?_ _
    exact LabelledBut.incCustomer h rfl _ _
  | void env ht hc hid =>
    refine labelled_rescore (hs.write none ht hid) ?_ _
    exact LabelledBut.incCustomer h rfl _ _
  | closeAccount hc =>
    intro c' hc' hrisk
    exact h c' (mem_customers_deleteOne.mp hc').1 hrisk
  | setPin env pin hc => exact h.updateOne rfl rfl _
  | rescore now hc => exact labelled_rescore hs (h.but _) now

/-- **A customer at risk owes money**, in every reachable state, and its merchant's
`get_defaulters` lists it. -/
theorem at_risk_owes (h : Reachable bcrypt s) {c : Customer} (hc : c ∈ s.customers.docs)
    (hrisk : c.riskCategory = .highRisk ∨ c.riskCategory = .defaulter) :
    0 < c.balance ∧ ∃ listed, (Prog.run exec (getDefaulters c.merchantId) s).1 = .ok listed ∧
      c.withStrId ∈ listed := by
  have hlabelled : Labelled s := by
    refine h.induction ?_ fun s s' hs hl hmove => hmove.labelled hs hl
    intro c hc
    exact absurd hc List.not_mem_nil
  have howes := hlabelled c hc hrisk
  refine ⟨howes, _, rfl, List.mem_map_of_mem ?_⟩
  rw [mem_find, test_customer_owing]
  exact ⟨hc, rfl, howes⟩

/-- A ledger with one customer who has paid nothing back. -/
def debtorStore : Store :=
  execAll markingBcrypt
    [.addCustomer (.sample 1 0) "m" "Asha" "98" "" "",
      .addTransaction (.sample 2 0) "m" (ObjectId.ofNat 1).str "credit" 200000 ""] .empty

theorem debtorStore_reachable : Reachable markingBcrypt debtorStore := by
  refine Reachable.empty.execAll fun c hc => ?_
  simp only [List.mem_cons, List.not_mem_nil, or_false] at hc
  rcases hc with rfl | rfl
  · trivial
  · exact ObjectId.canonical_str _

/-- The debtor is filed under "Defaulter" and listed as such. -/
theorem at_risk_owes_debtor :
    ∃ c ∈ debtorStore.customers.docs, c.riskCategory = .defaulter ∧ 0 < c.balance ∧
      ∃ listed, (Prog.run exec (getDefaulters c.merchantId) debtorStore).1 = .ok listed ∧
        c.withStrId ∈ listed := by
  have hdebtor : ∃ c ∈ debtorStore.customers.docs, c.riskCategory = .defaulter := by
    decide +kernel
  obtain ⟨c, hc, hrisk⟩ := hdebtor
  exact ⟨c, hc, hrisk, at_risk_owes debtorStore_reachable hc (.inr hrisk)⟩

end DigitalLedger
