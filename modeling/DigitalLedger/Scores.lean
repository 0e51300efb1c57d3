import DigitalLedger.Lib.Purge
import DigitalLedger.Risk
import DigitalLedger.Sessions

/-!
# The time of the last score

A stored score is as good as the moment it was computed at.  This module runs the
application together with a record of the time at which each customer was last
scored: the record is not part of the store, it says what the stored scores stand
for.

## Main definitions

* `Call.customer` — the customer a call acts on.
* `Call.scores` — the customer a completed call has scored, and when.
* `ScoredRun` — the reachable states, each with the record of its run.
* `Standing` — a customer's score is what the rules give at the recorded time.
* `Settles`, `Registers` — what an operation on money, and a registration, amounts to.

## Main results

* `ScoredRun.timed` — in every run the scores are what the record says.
* `stored_score_current` — no stored score is stale with respect to the data.
-/

namespace DigitalLedger

open Collection

variable {bcrypt : Bcrypt} {s s' : Store}

/-! ### Runs with a record of the scoring -/

/-- The customer of the transaction a call names. -/
def Store.customerOf (s : Store) (tid m : String) : Option ObjectId :=
  (ObjectId.ofString? tid).bind fun oid =>
    (s.transactions.findOne { id := some oid, merchantId := some m }).bind TransactionDoc.owner

namespace Call

/-- The customer a call acts on. -/
def customer (s : Store) : Call → Option ObjectId
  | .addTransaction _ _ cid _ _ _ => ObjectId.ofString? cid
  | .editTransaction _ tid m _ _ => s.customerOf tid m
  | .deleteTransaction _ tid m => s.customerOf tid m
  | .deleteCustomer cid _ => ObjectId.ofString? cid
  | .updateCustomerPin _ cid _ _ => ObjectId.ofString? cid
  | .computeCreditScore _ _ cid => ObjectId.ofString? cid
  | .addCustomer _ _ _ _ _ _ => none
  | .importCustomersFromExcel _ _ _ => none

/-- The clock reading the call's `compute_credit_score` takes, if it makes one. -/
def scoringTime : Call → Option Time
  | .addTransaction env _ _ _ _ _ => some (env.utcnow 2)
  | .editTransaction env _ _ _ _ => some (env.utcnow 1)
  | .deleteTransaction env _ _ => some (env.utcnow 0)
  | .computeCreditScore env _ _ => some (env.utcnow 0)
  | _ => none

end Call

/-- The call has not been refused and has not raised. -/
def Outcome.accepted : Except Exn Outcome → Bool
  | .ok (.newBalance (.success _)) => true
  | .ok (.done (.success _)) => true
  | .ok (.score _) => true
  | _ => false

/-- The time at which the completed call has scored the customer `oid`, if it has. -/
def Call.scores (call : Call) (o : Except Exn Outcome) (s : Store) (oid : ObjectId) :
    Option Time :=
  if Outcome.accepted o ∧ call.customer s = some oid then call.scoringTime else none

/-- The times at which the customers were last scored since their creation. -/
abbrev ScoringTimes := ObjectId → Option Time

/-- The record after a completed call: a customer that was not stored before the call
is a new one and has not been scored. -/
def Call.setScored (call : Call) (o : Except Exn Outcome) (s : Store) (scored : ScoringTimes) :
    ScoringTimes := fun oid =>
  (call.scores o s oid).or (if oid ∈ s.customerIds then scored oid else none)

/-- The reachable states, each with the record of its run. -/
inductive ScoredRun (bcrypt : Bcrypt) : Store → ScoringTimes → Prop
  | empty : ScoredRun bcrypt .empty fun _ => none
  | call {s : Store} {scored : ScoringTimes} (c : Call) (hs : ScoredRun bcrypt s scored)
      (hc : c.Canonical) :
      ScoredRun bcrypt (c.exec bcrypt s).2 (c.setScored (c.exec bcrypt s).1 s scored)

theorem ScoredRun.reachable {scored : ScoringTimes} (h : ScoredRun bcrypt s scored) :
    Reachable bcrypt s := by
  induction h with
  | empty => exact .empty
  | call c _ hc ih => exact ih.call c hc

/-- Every reachable state has such a record. -/
theorem Reachable.exists_scoredRun (h : Reachable bcrypt s) :
    ∃ scored, ScoredRun bcrypt s scored := by
  induction h with
  | empty => exact ⟨_, .empty⟩
  | call c _ hc ih =>
    obtain ⟨scored, hs⟩ := ih
    exact ⟨_, hs.call c hc⟩

/-! ### What the record says of the scores -/

/-- The score and category of a customer. -/
def CustomerDoc.pair {ι : Type} (c : CustomerDoc ι) : ℤ × RiskCategory :=
  (c.creditScore, c.riskCategory)

/-- The pair of a scored customer is what the rules give at the time recorded; a customer
that has not been scored has no transactions and the pair it was created with. -/
def Standing (s : Store) (c : Customer) : Option Time → Prop
  | some now => c.pair = scoringRules (s.scoredTransactions c.id.str) c.balance now
  | none => c.pair = (100, .lowRisk) ∧ s.scoredTransactions c.id.str = []

/-- Every customer stands as the record says. -/
def Timed (s : Store) (scored : ScoringTimes) : Prop :=
  ∀ c ∈ s.customers.docs, Standing s c (scored c.id)

/-- Every customer but one stands as the record says. -/
def TimedBut (oid : ObjectId) (s : Store) (scored : ScoringTimes) : Prop :=
  ∀ c ∈ s.customers.docs, c.id ≠ oid → Standing s c (scored c.id)

theorem Standing.congr {c c' : Customer} {now : Option Time} (h : Standing s c now)
    (hid : c'.id = c.id) (hpair : c'.pair = c.pair) (hbalance : c'.balance = c.balance)
    (hT : s'.scoredTransactions c.id.str = s.scoredTransactions c.id.str) :
    Standing s' c' now := by
  cases now with
  | some now =>
    rw [Standing, hpair, hid, hT, hbalance]
    exact h
  | none =>
    rw [Standing, hpair, hid, hT]
    exact h

theorem scoredTransactions_congr (hT : s'.transactions = s.transactions) (cid : String) :
    s'.scoredTransactions cid = s.scoredTransactions cid := by
  rw [Store.scoredTransactions, hT, Store.scoredTransactions]

theorem mem_customerIds {c : Customer} (hc : c ∈ s.customers.docs) : c.id ∈ s.customerIds :=
  List.mem_map_of_mem hc

/-! ### Operations on money -/

/-- A completed operation on money: the transactions of one stored customer are written,
its figures are moved, and it is scored. -/
inductive Settles (s : Store) (oid : ObjectId) (now : Time) : Store → Prop
  | intro {s₁ : Store} (hmem : oid ∈ s.customerIds) (hC : s₁.customers = s.customers)
      (hT : ∀ a, a ≠ oid → s₁.scoredTransactions a.str = s.scoredTransactions a.str)
      (δ : Totals) (last : Option Time) :
      Settles s oid now ((s₁.incCustomer oid δ last).rescore now oid.str oid)

/-- Scoring changes nothing else of a customer, and nothing of the others. -/
theorem mem_customers_rescore {now : Time} {oid : ObjectId} {c' : Customer}
    (hc' : c' ∈ (s.rescore now oid.str oid).customers.docs) :
    ∃ c ∈ s.customers.docs, c'.id = c.id ∧ c'.balance = c.balance ∧
      (c.id ≠ oid → c'.pair = c.pair) ∧
        (c.id = oid → c'.pair = scoringRules (s.scoredTransactions oid.str) c.balance now) := by
  unfold Store.rescore at hc'
  cases hfind : s.customers.findOne { id := some oid } with
  | none =>
    rw [hfind] at hc'
    refine ⟨c', hc', rfl, rfl, fun _ => rfl, fun hid => ?_⟩
    rw [findOne_customer.mpr ⟨hc', hid⟩] at hfind
    exact absurd hfind (by simp)
  -- identifiers are distinct, so only the customer found is touched
  | some c₀ =>
    rw [hfind] at hc'
    obtain ⟨hc₀, rfl⟩ := findOne_customer.mp hfind
    obtain ⟨c, hc, rfl⟩ := mem_customers_setScore.mp hc'
    by_cases hid : c.id = c₀.id
    · obtain rfl := customer_eq_of_id hc hc₀ hid
      rw [if_pos rfl]
      exact ⟨c, hc, rfl, add_zero _, fun hne => absurd rfl hne, fun _ => rfl⟩
    · rw [if_neg hid]
      exact ⟨c, hc, rfl, rfl, fun _ => rfl, fun heq => absurd heq hid⟩

/-- **Scoring brings a customer up to date** and leaves the others as they stand. -/
theorem Timed.rescore {scored : ScoringTimes} {oid : ObjectId} (h : TimedBut oid s scored)
    (now : Time) :
    Timed (s.rescore now oid.str oid) (Function.update scored oid (some now)) := by
  intro c' hc'
  obtain ⟨c, hc, hid, hbalance, hother, hself⟩ := mem_customers_rescore hc'
  have hT : ∀ cid, (s.rescore now oid.str oid).scoredTransactions cid =
      s.scoredTransactions cid := scoredTransactions_congr (s.transactions_rescore now oid.str oid)
  by_cases hoid : c.id = oid
  · rw [hid, hoid, Function.update_self, Standing, hself hoid, hT, hid, hoid, hbalance]
  · rw [hid, Function.update_of_ne hoid]
    exact (h c hc hoid).congr hid (hother hoid) hbalance (hT _)

/-- Moving the figures of a customer leaves the others as they stand. -/
theorem Timed.incCustomer {scored : ScoringTimes} {oid : ObjectId} (h : Timed s scored)
    (hC : s'.customers = s.customers)
    (hT : ∀ a, a ≠ oid → s'.scoredTransactions a.str = s.scoredTransactions a.str)
    (δ : Totals) (last : Option Time) : TimedBut oid (s'.incCustomer oid δ last) scored := by
  intro c' hc' hne
  obtain ⟨c, hc, rfl⟩ := mem_customers_incCustomer.mp hc'
  rw [hC] at hc
  by_cases hid : c.id = oid
  · rw [if_pos hid, id_apply] at hne
    exact absurd hid hne
  · rw [if_neg hid]
    exact (h c hc).congr rfl rfl rfl
      ((scoredTransactions_congr (s'.transactions_incCustomer oid δ last) _).trans (hT _ hid))

theorem customerIds_incCustomer (oid : ObjectId) (δ : Totals) (last : Option Time) (s : Store) :
    (s.incCustomer oid δ last).customerIds = s.customerIds := customerIds_updateOne s _ _

theorem customerIds_rescore (now : Time) (cid : String) (oid : ObjectId) (s : Store) :
    (s.rescore now cid oid).customerIds = s.customerIds := by
  unfold Store.rescore
  cases s.customers.findOne { id := some oid } with
  | none => rfl
  | some c => exact customerIds_updateOne s _ _

theorem Settles.customerIds {oid : ObjectId} {now : Time} (h : Settles s oid now s') :
    s'.customerIds = s.customerIds := by
  cases h with
  | intro hmem hC hT δ last =>
    rw [customerIds_rescore, customerIds_incCustomer, Store.customerIds, hC, Store.customerIds]

theorem Settles.timed {scored : ScoringTimes} {oid : ObjectId} {now : Time}
    (h : Settles s oid now s') (hs : Timed s scored) :
    Timed s' (Function.update scored oid (some now)) := by
  cases h with
  | intro hmem hC hT δ last => exact Timed.rescore (hs.incCustomer hC hT δ last) now

/-- A transaction of another customer is not among those a customer is scored on. -/
theorem test_customer_of_ne {t : Transaction} {cid : String} (h : t.customerId ≠ cid) :
    test ({ customerId := some cid } : TransactionQuery) t = false := by
  rw [Bool.eq_false_iff, Ne, test_transaction_customer]
  exact h

theorem scoredTransactions_insertOne {t : Transaction} {T : Collection Transaction}
    (hT : s.transactions.insertOne t = some T) {cid : String} (h : t.customerId ≠ cid) :
    ({ s with transactions := T } : Store).scoredTransactions cid = s.scoredTransactions cid := by
  have hfind : T.find { customerId := some cid } =
      s.transactions.find { customerId := some cid } := by
    rw [find, docs_insertOne hT, List.filter_append,
      List.filter_cons_of_neg (by rw [test_customer_of_ne h]; exact Bool.false_ne_true),
      List.filter_nil, List.append_nil, find]
  rw [Store.scoredTransactions, hfind, Store.scoredTransactions]

theorem scoredTransactions_write {t : Transaction} (ht : t ∈ s.transactions.docs)
    (w : Option TransactionUpdate) {cid : String} (h : t.customerId ≠ cid) :
    (s.write t.id w).scoredTransactions cid = s.scoredTransactions cid := by
  have hdisjoint : ∀ t' ∈ s.transactions.docs,
      test ({ id := some t.id } : TransactionQuery) t' = true →
        ¬test ({ customerId := some cid } : TransactionQuery) t' = true := by
    intro t' ht' htest
    rw [transaction_eq_of_id ht' ht (test_transaction_id.mp htest), test_customer_of_ne h]
    exact Bool.false_ne_true
  have hfind : (s.write t.id w).transactions.find { customerId := some cid } =
      s.transactions.find { customerId := some cid } := by
    cases w with
    | some u => exact List.filter_updateFirst_of_disjoint (fun _ => rfl) hdisjoint
    | none => exact List.filter_eraseP_of_disjoint hdisjoint
  rw [Store.scoredTransactions, hfind, Store.scoredTransactions]

/-- The customer that was settled is still stored. -/
theorem Settles.isSome_findOne {oid : ObjectId} {now : Time} (h : Settles s oid now s') :
    (s'.customers.findOne { id := some oid }).isSome = true := by
  have hmem : oid ∈ s'.customerIds := by
    rw [h.customerIds]
    cases h with
    | intro hmem hC hT δ last => exact hmem
  obtain ⟨c, hc, hid⟩ := List.mem_map.mp hmem
  rw [findOne_customer.mpr ⟨hc, hid⟩]
  rfl

/-- An operation on money is refused and leaves the ledger, or it settles the customer it
acts on, at its reading of the clock. -/
def Call.Settling (bcrypt : Bcrypt) (s : Store) (call : Call) : Prop :=
  Outcome.accepted (call.exec bcrypt s).1 = false ∧ (call.exec bcrypt s).2 = s ∨
    Outcome.accepted (call.exec bcrypt s).1 = true ∧ ∃ oid now,
      call.customer s = some oid ∧ call.scoringTime = some now ∧
        Settles s oid now (call.exec bcrypt s).2

variable (bcrypt) in
/-- `add_transaction` is refused, or it settles. -/
theorem addTransaction_settles (env : Env) (m : String) (oid : ObjectId) (txnType : String)
    (amount : ℚ) (note : String) (s : Store) :
    Call.Settling bcrypt s (.addTransaction env m oid.str txnType amount note) := by
  unfold Call.Settling
  rw [Call.exec, Call.code, Prog.run_map, run_addTransaction, ObjectId.ofString?_str]
  split
  · exact .inl ⟨rfl, rfl⟩
  cases TxnType.ofString? txnType with
  | none => exact .inl ⟨rfl, rfl⟩
  | some type =>
    dsimp only
    cases hfind : s.customers.findOne { id := some oid, merchantId := some m } with
    | none => exact .inl ⟨rfl, rfl⟩
    | some c =>
      obtain ⟨hc, rfl, rfl⟩ := findOne_customer_merchant.mp hfind
      dsimp only
      cases hT : s.transactions.insertOne
          (newTransaction env c.merchantId c.id.str c type amount note) with
      | none => exact .inl ⟨rfl, rfl⟩
      | some T =>
        dsimp only
        have hsettles : Settles s c.id (env.utcnow 2)
            ((({ s with transactions := T } : Store).incCustomer c.id (type.effect amount)
              (some (env.utcnow 1))).rescore (env.utcnow 2) c.id.str c.id) := by
          have hC : ({ s with transactions := T } : Store).customers = s.customers := rfl
          refine .intro (mem_customerIds hc) hC (fun a ha => ?_) _ _
          refine scoredTransactions_insertOne hT fun heq => ha ?_
          exact (ObjectId.str_injective heq).symm
        -- the last look at the customer finds it
        obtain ⟨updated, hupdated⟩ := Option.isSome_iff_exists.mp hsettles.isSome_findOne
        rw [hupdated]
        exact .inr ⟨rfl, c.id, _, ObjectId.ofString?_str c.id, rfl, hsettles⟩

/-- An edit or a deletion of a stored transaction settles. -/
theorem settles_write (hs : Consistent s) {t : Transaction} (ht : t ∈ s.transactions.docs)
    (w : Option TransactionUpdate) (now : Time) :
    ∃ oid, t.owner = some oid ∧ t.customerId = oid.str ∧
      Settles s oid now
        (((s.write t.id w).incCustomer oid (t.delta w) none).rescore now oid.str oid) := by
  -- the transaction refers to a stored customer, so there is one to settle
  obtain ⟨c, hc, hid, -⟩ := hs.refers t ht
  refine ⟨c.id, by rw [TransactionDoc.owner, hid, ObjectId.ofString?_str], hid, ?_⟩
  refine .intro (mem_customerIds hc) (customers_write _ _ _) (fun a ha => ?_) _ _
  refine scoredTransactions_write ht w fun heq => ha ?_
  exact (ObjectId.str_injective (hid.symm.trans heq)).symm

/-- `edit_transaction` is refused, or it settles the customer of the transaction. -/
theorem editTransaction_settles (hs : Consistent s) (env : Env) (tid m : String) (amount : ℚ)
    (note : String) :
    Call.Settling bcrypt s (.editTransaction env tid m amount note) := by
  unfold Call.Settling
  rw [Call.exec, Call.code, Prog.run_map, run_editTransaction, Call.customer, Store.customerOf]
  cases ObjectId.ofString? tid with
  | none => exact .inl ⟨rfl, rfl⟩
  | some oid =>
    dsimp only
    cases hfind : s.transactions.findOne { id := some oid, merchantId := some m } with
    | none => exact .inl ⟨rfl, rfl⟩
    | some t =>
      obtain ⟨ht, rfl, rfl⟩ := findOne_transaction_merchant.mp hfind
      obtain ⟨a, howner, hid, hsettles⟩ :=
        settles_write hs ht (some ⟨amount, note, true, env.utcnow 0⟩) (env.utcnow 1)
      refine .inr ?_
      rw [Option.bind_some, hfind, Option.bind_some]
      dsimp only
      rw [hid, ObjectId.ofString?_str]
      exact ⟨rfl, a, _, howner, rfl, hsettles⟩

/-- `delete_transaction` is refused, or it settles the customer of the transaction. -/
theorem deleteTransaction_settles (hs : Consistent s) (env : Env) (tid m : String) :
    Call.Settling bcrypt s (.deleteTransaction env tid m) := by
  unfold Call.Settling
  rw [Call.exec, Call.code, Prog.run_map, run_deleteTransaction, Call.customer, Store.customerOf]
  cases ObjectId.ofString? tid with
  | none => exact .inl ⟨rfl, rfl⟩
  | some oid =>
    dsimp only
    cases hfind : s.transactions.findOne { id := some oid, merchantId := some m } with
    | none => exact .inl ⟨rfl, rfl⟩
    | some t =>
      obtain ⟨ht, rfl, rfl⟩ := findOne_transaction_merchant.mp hfind
      obtain ⟨a, howner, hid, hsettles⟩ := settles_write hs ht none (env.utcnow 0)
      refine .inr ?_
      rw [Option.bind_some, hfind, Option.bind_some]
      dsimp only
      rw [hid, ObjectId.ofString?_str]
      exact ⟨rfl, a, _, howner, rfl, hsettles⟩

/-! ### The customers a call does not act on -/

/-- A customer of `s'` that `s` stored too has the standing it had. -/
def SameStanding (s s' : Store) (c' : Customer) : Prop :=
  ∃ c ∈ s.customers.docs, c'.id = c.id ∧ c'.pair = c.pair ∧ c'.balance = c.balance ∧
    s'.scoredTransactions c.id.str = s.scoredTransactions c.id.str

/-- What a call that acts on `target` leaves of the other customers: they are all still
stored and stand as they did, and a call that adds customers acts on none. -/
structure Spares (target : Option ObjectId) (s s' : Store) : Prop where
  keeps : ∀ a ∈ s.customerIds, target ≠ some a → a ∈ s'.customerIds
  same : ∀ c' ∈ s'.customers.docs, c'.id ∈ s.customerIds → target ≠ some c'.id →
    SameStanding s s' c'
  fresh : ∀ c' ∈ s'.customers.docs, c'.id ∉ s.customerIds →
    target = none ∧ c'.pair = (100, .lowRisk) ∧ s'.scoredTransactions c'.id.str = []

theorem Spares.refl (target : Option ObjectId) (s : Store) : Spares target s s where
  keeps _ ha _ := ha
  same c' hc' _ _ := ⟨c', hc', rfl, rfl, rfl, rfl⟩
  fresh _ hc' hnew := absurd (mem_customerIds hc') hnew

/-- Calls that add no customer. -/
theorem Spares.of_customerIds {target : Option ObjectId} (hids : s'.customerIds = s.customerIds)
    (hsame : ∀ c' ∈ s'.customers.docs, target ≠ some c'.id → SameStanding s s' c') :
    Spares target s s' where
  keeps a ha _ := by rwa [hids]
  same c' hc' _ hne := hsame c' hc' hne
  fresh c' hc' hnew := by
    have hold := mem_customerIds hc'
    rw [hids] at hold
    exact absurd hold hnew

theorem spares_rescore (s : Store) (oid : ObjectId) (now : Time) :
    Spares (some oid) s (s.rescore now oid.str oid) := by
  refine .of_customerIds (customerIds_rescore now oid.str oid s) fun c' hc' hne => ?_
  obtain ⟨c, hc, hid, hbalance, hother, -⟩ := mem_customers_rescore hc'
  have hcne : c.id ≠ oid := fun heq => hne (by rw [hid, heq])
  exact ⟨c, hc, hid, hother hcne, hbalance,
    scoredTransactions_congr (s.transactions_rescore now oid.str oid) _⟩

theorem Settles.spares {oid : ObjectId} {now : Time} (h : Settles s oid now s') :
    Spares (some oid) s s' := by
  refine .of_customerIds h.customerIds fun c' hc' hne => ?_
  cases h with
  | @intro s₁ hmem hC hT δ last =>
    obtain ⟨c₁, hc₁, hid₁, hbalance₁, hother, -⟩ := mem_customers_rescore hc'
    obtain ⟨c, hc, rfl⟩ := mem_customers_incCustomer.mp hc₁
    rw [hC] at hc
    -- the customer settled is the target, and all others keep their documents
    by_cases hid : c.id = oid
    · rw [if_pos hid, id_apply, hid] at hid₁
      exact absurd (congrArg some hid₁.symm) hne
    · rw [if_neg hid] at hid₁ hbalance₁ hother
      refine ⟨c, hc, hid₁, hother hid, hbalance₁, ?_⟩
      exact (scoredTransactions_congr (Store.transactions_rescore now oid.str oid _) _).trans
        (hT c.id hid)

theorem Call.Settling.spares {call : Call} (h : call.Settling bcrypt s) :
    Spares (call.customer s) s (call.exec bcrypt s).2 := by
  rcases h with ⟨-, hsame⟩ | ⟨-, oid, now, hcustomer, -, hsettles⟩
  · rw [hsame]
    exact .refl _ s
  · rw [hcustomer]
    exact hsettles.spares

/-- A registration: the customers stay, and those added are new ones, as `add_customer`
creates them. -/
structure Registers (s s' : Store) : Prop where
  transactions : s'.transactions = s.transactions
  keeps : ∀ c ∈ s.customers.docs, c ∈ s'.customers.docs
  adds : ∀ c' ∈ s'.customers.docs, c'.id ∉ s.customerIds → c'.pair = (100, .lowRisk)

/-- The calls a registration makes. -/
def DbCall.Registration : DbCall → Prop
  | .customers (.findOne _) => True
  | .customers (.insertOne c) => c.pair = (100, .lowRisk)
  | _ => False

theorem DbCall.Registration.registers {s₀ : Store} (c : DbCall) (hc : c.Registration) (s : Store)
    (hs : Registers s₀ s) : Registers s₀ (exec c s).2 := by
  cases c with
  | transactions op => exact hc.elim
  | customers op =>
    cases op with
    | findOne q => exact hs
    | insertOne d =>
      rw [exec, Op.exec]
      cases hC : s.customers.insertOne d with
      | none => exact hs
      | some C =>
        have hdocs : C.docs = s.customers.docs ++ [d] := docs_insertOne hC
        refine ⟨hs.transactions, fun c hc => ?_, fun c' hc' hnew => ?_⟩
        · change c ∈ C.docs
          rw [hdocs]
          exact List.mem_append_left _ (hs.keeps c hc)
        · have hmem : c' ∈ C.docs := hc'
          rw [hdocs, List.mem_append, List.mem_singleton] at hmem
          rcases hmem with hold | rfl
          · exact hs.adds c' hold hnew
          · exact hc
    | find q => exact hc.elim
    | updateOne q u => exact hc.elim
    | deleteOne q => exact hc.elim
    | deleteMany q => exact hc.elim

theorem registers_run {α : Type} {p : Db α} (hp : Prog.Uses DbCall.Registration p) (s : Store) :
    Registers s (p.run exec s).2 :=
  Prog.run_invariant exec DbCall.Registration.registers hp
    ⟨rfl, fun _ hc => hc, fun _ hc' hnew => absurd (mem_customerIds hc') hnew⟩

theorem Registers.spares (h : Registers s s') (hs : Consistent s) : Spares none s s' where
  keeps a ha _ := by
    obtain ⟨c, hc, rfl⟩ := List.mem_map.mp ha
    exact mem_customerIds (h.keeps c hc)
  same c' hc' hold _ := by
    obtain ⟨c, hc, hid⟩ := List.mem_map.mp hold
    obtain rfl := customer_eq_of_id (h.keeps c hc) hc' hid
    exact ⟨c, hc, rfl, rfl, rfl, scoredTransactions_congr h.transactions _⟩
  fresh c' hc' hnew := by
    refine ⟨rfl, h.adds c' hc' hnew, ?_⟩
    -- the transactions refer to the customers that were stored before
    have hnone : s'.transactions.find { customerId := some c'.id.str } = [] := by
      refine List.filter_eq_nil_iff.mpr fun t ht htest => hnew ?_
      rw [h.transactions] at ht
      obtain ⟨c, hc, hid, -⟩ := hs.refers t ht
      have heq : c.id = c'.id :=
        ObjectId.str_injective (hid.symm.trans (test_transaction_customer.mp htest))
      exact heq ▸ mem_customerIds hc
    rw [Store.scoredTransactions, hnone]
    rfl

/-- The customers that `delete_customer` leaves. -/
theorem spares_deleteCustomer (oid : ObjectId) {m : String} {c : Customer}
    (hfind : s.customers.findOne { id := some oid, merchantId := some m } = some c) :
    let s' : Store :=
      { customers := s.customers.deleteOne { id := some oid, merchantId := some m }
        transactions := s.transactions.deleteMany { customerId := some oid.str } }
    Spares (some oid) s s' ∧ ∀ c' ∈ s'.customers.docs, c'.id ≠ oid := by
  obtain ⟨hc, rfl, rfl⟩ := findOne_customer_merchant.mp hfind
  intro s'
  have hmem : ∀ c' : Customer,
      c' ∈ s'.customers.docs ↔ c' ∈ s.customers.docs ∧ c'.id ≠ c.id := by
    intro c'
    refine mem_customers_deleteOne.trans (and_congr_right fun hc' => not_congr ?_)
    refine ⟨And.left, fun hid => ⟨hid, ?_⟩⟩
    rw [customer_eq_of_id hc' hc hid]
  refine ⟨⟨fun a ha hne => ?_, fun c' hc' _ hne => ?_, fun _ hc' hnew => ?_⟩,
    fun c' hc' => ((hmem c').mp hc').2⟩
  · obtain ⟨c', hc', rfl⟩ := List.mem_map.mp ha
    have hid : c'.id ≠ c.id := fun heq => hne (congrArg some heq.symm)
    exact List.mem_map_of_mem ((hmem c').mpr ⟨hc', hid⟩)
  · obtain ⟨hold, hid⟩ := (hmem c').mp hc'
    refine ⟨c', hold, rfl, rfl, rfl, ?_⟩
    have hfind : (s.transactions.deleteMany { customerId := some c.id.str }).find
        { customerId := some c'.id.str } =
          s.transactions.find { customerId := some c'.id.str } := by
      rw [find, docs_deleteMany, List.filter_filter, find]
      refine List.filter_congr fun t _ => ?_
      by_cases htest : test ({ customerId := some c'.id.str } : TransactionQuery) t = true
      · have hother : t.customerId ≠ c.id.str := by
          rw [test_transaction_customer.mp htest]
          exact fun heq => hid (ObjectId.str_injective heq)
        rw [test_customer_of_ne hother, htest]
        rfl
      · rw [Bool.not_eq_true] at htest
        rw [htest]
        rfl
    rw [Store.scoredTransactions, hfind, Store.scoredTransactions]
  · exact absurd (mem_customerIds ((hmem _).mp hc').1) hnew

/-- Setting a PIN changes no standing. -/
theorem spares_setPin (target : Option ObjectId) (s : Store) (q : CustomerQuery) (pin : String) :
    let s' : Store := { s with customers := s.customers.updateOne q { portalPin := some pin } }
    Spares target s s' ∧ ∀ c' ∈ s'.customers.docs, SameStanding s s' c' := by
  intro s'
  have hmap : s'.customers.docs.map (fun c => (c.id, c.pair, c.balance)) =
      s.customers.docs.map fun c => (c.id, c.pair, c.balance) := by
    refine map_updateOne (fun c => ?_) q s.customers
    change (c.id, c.pair, c.balance + 0) = (c.id, c.pair, c.balance)
    rw [add_zero]
  have hsame : ∀ c' ∈ s'.customers.docs, SameStanding s s' c' := by
    intro c' hc'
    have hmem := List.mem_map_of_mem (f := fun c : Customer => (c.id, c.pair, c.balance)) hc'
    rw [hmap] at hmem
    obtain ⟨c, hc, heq⟩ := List.mem_map.mp hmem
    obtain ⟨hid, hrest⟩ := Prod.mk.inj heq
    obtain ⟨hpair, hbalance⟩ := Prod.mk.inj hrest
    exact ⟨c, hc, hid.symm, hpair.symm, hbalance.symm, rfl⟩
  exact ⟨.of_customerIds (customerIds_updateOne s q _) fun c' hc' _ => hsame c' hc', hsame⟩

/-! ### Every call spares the customers it does not act on -/

theorem exec_addCustomer_registers (env : Env) (m name phone address pin : String) (s : Store) :
    Registers s (Call.exec bcrypt (.addCustomer env m name phone address pin) s).2 :=
  registers_run ((uses_addCustomer (fun _ => trivial)
    (fun _ _ _ _ _ _ => rfl) env m name phone address pin).map _) s

theorem exec_importCustomersFromExcel_registers (env : Env) (m : String)
    (file : Except String DataFrame) (s : Store) :
    Registers s (Call.exec bcrypt (.importCustomersFromExcel env m file) s).2 :=
  registers_run ((uses_importCustomersFromExcel (fun _ => trivial)
    (fun _ _ _ _ _ _ => rfl) env m file).map _) s

variable (bcrypt) in
/-- `compute_credit_score` is accepted and scores. -/
theorem exec_computeCreditScore (env : Env) (m : String) (oid : ObjectId) (s : Store) :
    let x := Call.exec bcrypt (.computeCreditScore env m oid.str) s
    Outcome.accepted x.1 = true ∧ x.2 = s.rescore (env.utcnow 0) oid.str oid := by
  dsimp only
  rw [Call.exec, Call.code, Prog.run_map,
    run_computeCreditScore s (env.utcnow 0) (ObjectId.ofString?_str oid)]
  exact ⟨rfl, rfl⟩

/-- `delete_customer` leaves the store, or the other customers. -/
theorem exec_deleteCustomer (oid : ObjectId) (m : String) (s : Store) :
    let x := Call.exec bcrypt (.deleteCustomer oid.str m) s
    x.2 = s ∨ (Spares (some oid) s x.2 ∧ ∀ c' ∈ x.2.customers.docs, c'.id ≠ oid) := by
  dsimp only
  rw [Call.exec, Call.code, Prog.run_map, run_deleteCustomer, ObjectId.ofString?_str]
  dsimp only
  cases hfind : s.customers.findOne { id := some oid, merchantId := some m } with
  | none => exact .inl rfl
  | some c => exact .inr (spares_deleteCustomer oid hfind)

/-- **A call spares every customer it does not act on.** -/
theorem Call.spares (hs : Consistent s) {call : Call} (hc : call.Canonical) :
    Spares (call.customer s) s (call.exec bcrypt s).2 := by
  cases call with
  | addCustomer env m name phone address pin =>
    exact (exec_addCustomer_registers env m name phone address pin s).spares hs
  | importCustomersFromExcel env m file =>
    exact (exec_importCustomersFromExcel_registers env m file s).spares hs
  | addTransaction env m cid txnType amount note =>
    obtain ⟨oid, rfl⟩ := hc
    exact (addTransaction_settles bcrypt env m oid txnType amount note s).spares
  | editTransaction env tid m amount note =>
    exact (editTransaction_settles hs env tid m amount note).spares
  | deleteTransaction env tid m => exact (deleteTransaction_settles hs env tid m).spares
  | deleteCustomer cid m =>
    obtain ⟨oid, rfl⟩ := hc
    rw [Call.customer, ObjectId.ofString?_str]
    rcases exec_deleteCustomer oid m s with hsame | ⟨hspares, -⟩
    · rw [hsame]
      exact .refl _ s
    · exact hspares
  | updateCustomerPin env cid m pin =>
    obtain ⟨oid, rfl⟩ := hc
    rw [Call.exec, Call.code, Prog.run_map, run_updateCustomerPin, ObjectId.ofString?_str]
    exact (spares_setPin _ s _ _).1
  | computeCreditScore env m cid =>
    obtain ⟨oid, rfl⟩ := hc
    rw [(exec_computeCreditScore bcrypt env m oid s).2, Call.customer, ObjectId.ofString?_str]
    exact spares_rescore s oid (env.utcnow 0)

/-! ### The record is right -/

section Record

variable {call : Call} {o : Except Exn Outcome} {scored : ScoringTimes} {oid : ObjectId}

/-- A call leaves the record of the stored customers it does not score. -/
theorem setScored_of_scores_eq_none (hold : oid ∈ s.customerIds)
    (hnone : call.scores o s oid = none) : call.setScored o s scored oid = scored oid := by
  rw [Call.setScored, hnone, Option.none_or, if_pos hold]

theorem scores_of_refused (ho : Outcome.accepted o = false) : call.scores o s oid = none := by
  rw [Call.scores, ho]
  exact if_neg fun h => Bool.false_ne_true h.1

theorem scores_of_customer_ne (hne : call.customer s ≠ some oid) : call.scores o s oid = none :=
  if_neg fun h => hne h.2

theorem setScored_of_accepted {now : Time} (ho : Outcome.accepted o = true)
    (hcustomer : call.customer s = some oid) (htime : call.scoringTime = some now) :
    call.setScored o s scored oid = some now := by
  rw [Call.setScored, Call.scores, if_pos ⟨ho, hcustomer⟩, htime, Option.some_or]

/-- The customers a call does not act on stand as the record says. -/
theorem Spares.standing (hspares : Spares (call.customer s) s s') (h : Timed s scored)
    {c' : Customer} (hc' : c' ∈ s'.customers.docs) (hne : call.customer s ≠ some c'.id) :
    Standing s' c' (call.setScored o s scored c'.id) := by
  have hscores : call.scores o s c'.id = none := scores_of_customer_ne hne
  by_cases hold : c'.id ∈ s.customerIds
  · obtain ⟨c, hc, hid, hpair, hbalance, hT⟩ := hspares.same c' hc' hold hne
    rw [setScored_of_scores_eq_none hold hscores, hid]
    exact (h c hc).congr hid hpair hbalance hT
  · obtain ⟨-, hpair, hT⟩ := hspares.fresh c' hc' hold
    rw [Call.setScored, hscores, Option.none_or, if_neg hold]
    exact ⟨hpair, hT⟩

/-- A call that has left the store has left the record. -/
theorem Timed.setScored_of_refused (h : Timed s scored) (ho : Outcome.accepted o = false) :
    Timed s (call.setScored o s scored) := by
  intro c hc
  rw [setScored_of_scores_eq_none (mem_customerIds hc) (scores_of_refused ho)]
  exact h c hc

/-- A scored customer stands as the record says. -/
theorem Settles.standing {now : Time} (hsettles : Settles s oid now s') (h : Timed s scored)
    (ho : Outcome.accepted o = true) (hcustomer : call.customer s = some oid)
    (htime : call.scoringTime = some now) {c' : Customer} (hc' : c' ∈ s'.customers.docs)
    (hid : c'.id = oid) : Standing s' c' (call.setScored o s scored c'.id) := by
  have hstanding := hsettles.timed h c' hc'
  rw [hid, Function.update_self] at hstanding
  rw [hid, setScored_of_accepted ho hcustomer htime]
  exact hstanding

/-- The customer an operation on money acts on stands as the record says. -/
theorem Call.Settling.standing (hsettling : call.Settling bcrypt s) (h : Timed s scored)
    {c' : Customer} (hc' : c' ∈ (call.exec bcrypt s).2.customers.docs)
    (hcustomer : call.customer s = some c'.id) :
    Standing (call.exec bcrypt s).2 c'
      (call.setScored (call.exec bcrypt s).1 s scored c'.id) := by
  rcases hsettling with ⟨ho, hsame⟩ | ⟨ho, oid, now, hcustomer', htime, hsettles⟩
  · rw [hsame] at hc' ⊢
    exact h.setScored_of_refused ho c' hc'
  · obtain rfl := Option.some.inj (hcustomer'.symm.trans hcustomer)
    exact hsettles.standing h ho hcustomer htime hc' rfl

end Record

/-- **A completed call keeps the record right.** -/
theorem Timed.step {scored : ScoringTimes} (hs : Consistent s) (h : Timed s scored) {call : Call}
    (hc : call.Canonical) :
    Timed (call.exec bcrypt s).2 (call.setScored (call.exec bcrypt s).1 s scored) := by
  intro c' hc'
  have hspares : Spares (call.customer s) s (call.exec bcrypt s).2 := Call.spares hs hc
  by_cases hcustomer : call.customer s = some c'.id
  swap
  · exact hspares.standing h hc' hcustomer
  -- the call acts on `c'` itself
  cases call with
  | addCustomer env m name phone address pin => exact absurd hcustomer (by simp [Call.customer])
  | importCustomersFromExcel env m file => exact absurd hcustomer (by simp [Call.customer])
  | addTransaction env m cid txnType amount note =>
    obtain ⟨oid, rfl⟩ := hc
    exact (addTransaction_settles bcrypt env m oid txnType amount note s).standing h hc' hcustomer
  | editTransaction env tid m amount note =>
    exact (editTransaction_settles hs env tid m amount note).standing h hc' hcustomer
  | deleteTransaction env tid m =>
    exact (deleteTransaction_settles hs env tid m).standing h hc' hcustomer
  | deleteCustomer cid m =>
    obtain ⟨oid, rfl⟩ := hc
    have hoid : some oid = some c'.id := (ObjectId.ofString?_str oid).symm.trans hcustomer
    rcases exec_deleteCustomer oid m s with hsame | ⟨-, hgone⟩
    · have hnone : ∀ o, Call.scores (.deleteCustomer oid.str m) o s c'.id = none := fun _ =>
        ite_self none
      rw [hsame] at hc' ⊢
      rw [setScored_of_scores_eq_none (mem_customerIds hc') (hnone _)]
      exact h c' hc'
    · exact absurd (Option.some.inj hoid).symm (hgone c' hc')
  | updateCustomerPin env cid m pin =>
    obtain ⟨oid, rfl⟩ := hc
    rw [Call.exec, Call.code, Prog.run_map, run_updateCustomerPin, ObjectId.ofString?_str] at hc' ⊢
    obtain ⟨c, hc, hid, hpair, hbalance, hT⟩ := (spares_setPin none s _ _).2 c' hc'
    have hnone : ∀ o, Call.scores (.updateCustomerPin env oid.str m pin) o s c'.id = none :=
      fun _ => ite_self none
    rw [setScored_of_scores_eq_none (hid ▸ mem_customerIds hc) (hnone _), hid]
    exact (h c hc).congr hid hpair hbalance hT
  | computeCreditScore env m cid =>
    obtain ⟨oid, rfl⟩ := hc
    have hoid : some oid = some c'.id := (ObjectId.ofString?_str oid).symm.trans hcustomer
    obtain ⟨ho, hstore⟩ := exec_computeCreditScore bcrypt env m oid s
    have hscored : Timed (s.rescore (env.utcnow 0) oid.str oid)
        (Function.update scored oid (some (env.utcnow 0))) :=
      Timed.rescore (fun c hc _ => h c hc) (env.utcnow 0)
    rw [setScored_of_accepted ho hcustomer rfl]
    rw [hstore] at hc' ⊢
    have hstanding := hscored c' hc'
    rw [← Option.some.inj hoid, Function.update_self] at hstanding
    exact hstanding

/-- **The record of a run is right** in every reachable state. -/
theorem ScoredRun.timed {scored : ScoringTimes} (h : ScoredRun bcrypt s scored) :
    Timed s scored := by
  induction h with
  | empty =>
    intro c hc
    exact absurd hc List.not_mem_nil
  | call c hs hc ih => exact ih.step hs.reachable.consistent hc

/-- The rules are applied to the customer's transactions in the order of their dates. -/
theorem scoredTransactions_eq (s : Store) (c : Customer) :
    s.scoredTransactions c.id.str = sortByDate (s.transactionsOf c) := by
  have hfind : s.transactions.find { customerId := some c.id.str } = s.transactionsOf c := by
    refine List.filter_congr fun t _ => ?_
    rw [Bool.eq_iff_iff, test_transaction_customer, decide_eq_true_eq]
  rw [Store.scoredTransactions, hfind]

/-- **No stored score is stale.**  In every run the pair of a scored customer is what the
rules give on its transactions and its balance at the time it was last scored, and a
call changes the pair of no customer but the one it acts on. -/
theorem stored_score_current {scored : ScoringTimes} (h : ScoredRun bcrypt s scored) :
    (∀ c ∈ s.customers.docs, ∀ now, scored c.id = some now →
      (c.creditScore, c.riskCategory) =
        scoringRules (sortByDate (s.transactionsOf c)) c.balance now) ∧
      ∀ call : Call, call.Canonical → ∀ c ∈ s.customers.docs, call.customer s ≠ some c.id →
        ∃ c' ∈ (call.exec bcrypt s).2.customers.docs, c'.id = c.id ∧
          (c'.creditScore, c'.riskCategory) = (c.creditScore, c.riskCategory) := by
  have hs : Consistent s := h.reachable.consistent
  refine ⟨fun c hc now hnow => ?_, fun call hcall c hc hne => ?_⟩
  · have hstanding := h.timed c hc
    rw [hnow, Standing, scoredTransactions_eq] at hstanding
    exact hstanding
  · have hspares : Spares (call.customer s) s (call.exec bcrypt s).2 := Call.spares hs hcall
    obtain ⟨c', hc', hid⟩ := List.mem_map.mp (hspares.keeps c.id (mem_customerIds hc) hne)
    have hid : c'.id = c.id := hid
    refine ⟨c', hc', hid, ?_⟩
    obtain ⟨c₀, hc₀, hid₀, hpair, -⟩ :=
      hspares.same c' hc' (by rw [hid]; exact mem_customerIds hc) (by rw [hid]; exact hne)
    obtain rfl := customer_eq_of_id hc₀ hc (hid₀.symm.trans hid)
    exact hpair

/-- The record of the sample ledger: the customer was scored with its second transaction. -/
theorem sampleStore_scoredRun :
    ∃ scored, ScoredRun markingBcrypt sampleStore scored ∧ scored sampleCustomer.id = some 0 := by
  have hcall : ∀ {s scored}, ScoredRun markingBcrypt s scored → ∀ c ∈ sampleCalls,
      ScoredRun markingBcrypt (c.exec markingBcrypt s).2
        (c.setScored (c.exec markingBcrypt s).1 s scored) :=
    fun hs c hc => hs.call c (sampleCalls_canonical c hc)
  have h₁ := hcall .empty (.addCustomer (.sample 1 0) "m" "Asha" "98" "" "1234")
    (by simp [sampleCalls])
  have h₂ := hcall h₁ (.addTransaction (.sample 2 0) "m" (ObjectId.ofNat 1).str "credit" 50 "rice")
    (by simp [sampleCalls])
  have h₃ := hcall h₂ (.addTransaction (.sample 3 0) "m" (ObjectId.ofNat 1).str "payment" 20 "")
    (by simp [sampleCalls])
  exact ⟨_, h₃, by decide +kernel⟩

/-- The score of the sample customer is up to date, and a credit given to another
customer leaves it. -/
theorem stored_score_current_sample :
    (sampleCustomer.creditScore, sampleCustomer.riskCategory) =
        scoringRules (sortByDate (sampleStore.transactionsOf sampleCustomer))
          sampleCustomer.balance 0 ∧
      ∃ c' ∈ ((Call.addCustomer (.sample 7 0) "m" "Ravi" "99" "" "").exec markingBcrypt
          sampleStore).2.customers.docs, c'.id = sampleCustomer.id ∧
        (c'.creditScore, c'.riskCategory) =
          (sampleCustomer.creditScore, sampleCustomer.riskCategory) := by
  obtain ⟨scored, hrun, hscored⟩ := sampleStore_scoredRun
  obtain ⟨hcurrent, hothers⟩ := stored_score_current hrun
  refine ⟨hcurrent _ sampleCustomer_mem 0 hscored, ?_⟩
  refine hothers (.addCustomer (.sample 7 0) "m" "Ravi" "99" "" "") ?_ _ sampleCustomer_mem ?_
  · trivial
  · simp [Call.customer]

end DigitalLedger
