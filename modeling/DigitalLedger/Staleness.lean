import DigitalLedger.Interleaving
import DigitalLedger.Scores

/-!
# Scores computed while others write

An operation on money ends by scoring its customer: it reads the customer, reads the
transactions, and writes the score.  When operations on one customer are interleaved,
the score that stays is the one written last, and it stands for the balance and the
transactions that its scorer has read, which need not be the last ones.

## Main definitions

* `Phase`, `Rates` — where a session stands with its scoring.
* `Phase.Step` — what the next call of such a session does.
* `LastScoring` — the last scoring of an interleaving, with the moments of its two reads
  and of its write.
* `DbCall.Still` — the calls that move neither transactions nor figures.

## Main results

* `Rates.step` — the operations score what they have read.
* `last_score_stands` — the score that stays, and when it is that of the final data.
-/

namespace DigitalLedger

open Collection Prog

variable {bcrypt : Bcrypt} {s s' : Store} {α β : Type}

/-! ### Phases of a scoring session -/

/-- Where a session stands with its scoring. -/
inductive Phase
  /-- It has not begun to score; it may also have ended without. -/
  | early
  /-- It has read the customer with this balance and is to read the transactions. -/
  | finding (balance : ℚ)
  /-- It is about to write this pair. -/
  | scoring (pair : ℤ × RiskCategory)
  /-- It has written its pair. -/
  | scored

/-- The transactions `targets` names are those of the customer `oid`. -/
def TargetsOf (oid : ObjectId) (targets : ObjectId → Prop) (s : Store) : Prop :=
  ∀ t ∈ s.transactions.docs, targets t.id → t.customerId = oid.str

/-- The calls a session makes on the customer `oid` before it scores: its look-ups, and
its writes to the transactions `targets` names and to the figures. -/
def DbCall.Early (oid : ObjectId) (targets : ObjectId → Prop) : DbCall → Prop
  | .customers (.findOne _) => True
  | .customers (.updateOne _ u) => u.creditScore = none ∧ u.riskCategory = none
  | .transactions (.findOne q) => ∃ a, targets a ∧ q.id = some a
  | .transactions (.insertOne t) => t.customerId = oid.str
  | .transactions (.updateOne _ _) => True
  | .transactions (.deleteOne _) => True
  | _ => False

/-- What the look-up of a transaction of the customer answers. -/
def DbCall.Plausible (oid : ObjectId) : (c : DbCall) → Except Exn c.Answer → Prop
  | .transactions (.findOne _), .ok (some t) => t.customerId = oid.str
  | _, _ => True

/-- The program stands at the phase: it will score the customer `oid`, with the clock
reading `now`, before it ends with a value that `accepts`. -/
inductive Rates (accepts : α → Bool) (oid : ObjectId) (targets : ObjectId → Prop) (now : Time) :
    Phase → Db α → Prop
  | refused {a : α} (ha : accepts a = false) : Rates accepts oid targets now .early (.ret a)
  | raised (e : Exn) : Rates accepts oid targets now .early (.raise e)
  | early {c : DbCall} {k : Except Exn c.Answer → Db α} (hc : c.Early oid targets)
      (hk : ∀ r, c.Plausible oid r → Rates accepts oid targets now .early (k r)) :
      Rates accepts oid targets now .early (.call c k)
  | look {k : Except Exn (Option Customer) → Db α}
      (hk : ∀ c, Rates accepts oid targets now (.finding c.balance) (k (.ok (some c)))) :
      Rates accepts oid targets now .early (.call (.customers (.findOne { id := some oid })) k)
  | find {balance : ℚ} {k : Except Exn (List Transaction) → Db α}
      (hk : ∀ txns, Rates accepts oid targets now
        (.scoring (scoringRules (sortByDate txns) balance now)) (k (.ok txns))) :
      Rates accepts oid targets now (.finding balance)
        (.call (.transactions (.find { customerId := some oid.str })) k)
  | score {pair : ℤ × RiskCategory} {k : Except Exn UpdateResult → Db α}
      (hk : ∀ r, Rates accepts oid targets now .scored (k (.ok r))) :
      Rates accepts oid targets now (.scoring pair) (.call (.customers (.updateOne
        { id := some oid } { creditScore := some pair.1, riskCategory := some pair.2 })) k)
  | lookAgain {q : CustomerQuery} {k : Except Exn (Option Customer) → Db α}
      (hk : ∀ found, Rates accepts oid targets now .scored (k (.ok found))) :
      Rates accepts oid targets now .scored (.call (.customers (.findOne q)) k)
  | scored (a : α) : Rates accepts oid targets now .scored (.ret a)
  | scoredRaise (e : Exn) : Rates accepts oid targets now .scored (.raise e)

section Programs

variable {accepts : β → Bool} {oid : ObjectId} {targets : ObjectId → Prop} {now : Time}

theorem Rates.map {f : α → β} {ph : Phase} {p : Db α}
    (h : Rates (fun a => accepts (f a)) oid targets now ph p) :
    Rates accepts oid targets now ph (f <$> p) := by
  induction h with
  | refused ha => exact .refused ha
  | raised e => exact .raised e
  | early hc hk ih => exact .early hc ih
  | look hk ih => exact .look ih
  | find hk ih => exact .find ih
  | score hk ih => exact .score ih
  | lookAgain hk ih => exact .lookAgain ih
  | scored a => exact .scored _
  | scoredRaise e => exact .scoredRaise e

/-- A program that ends by scoring. -/
theorem rates_computeCreditScore {f : ℤ × RiskCategory → Db β}
    (hf : ∀ pair, Rates accepts oid targets now .scored (f pair)) :
    Rates accepts oid targets now .early (computeCreditScore now oid.str >>= f) := by
  rw [computeCreditScore, objectId_eq_ret (ObjectId.ofString?_str oid), ret_bind]
  refine .look fun c => ?_
  refine .find fun txns => ?_
  refine .score fun r => ?_
  exact hf _

/-- A call before the scoring, and what follows it. -/
theorem Rates.perform {c : DbCall} {f : c.Answer → Db β} (hc : c.Early oid targets)
    (hf : ∀ a, c.Plausible oid (.ok a) → Rates accepts oid targets now .early (f a)) :
    Rates accepts oid targets now .early (query c >>= f) := by
  refine .early hc fun r hr => ?_
  cases r with
  | error e => exact .raised e
  | ok a => exact hf a hr

end Programs

/-! ### The operations -/

section Operations

variable {oid : ObjectId} {targets : ObjectId → Prop}

theorem rates_settle {accepts : Reply Unit → Bool} (δ : Totals) (now : Time) :
    Rates accepts oid targets now .early (settle oid.str δ now) := by
  rw [settle, objectId_eq_ret (ObjectId.ofString?_str oid), ret_bind]
  refine .perform ⟨rfl, rfl⟩ fun _ _ => ?_
  exact rates_computeCreditScore fun pair => .scored _

theorem rates_conclude {accepts : Reply ℚ → Bool} (δ : Totals) (last now : Time) :
    Rates accepts oid targets now .early (conclude oid oid.str δ last now) := by
  rw [conclude]
  refine .perform ⟨rfl, rfl⟩ fun _ _ => ?_
  refine rates_computeCreditScore fun pair => .lookAgain fun found => ?_
  cases found with
  | none => exact .scoredRaise _
  | some updated => exact .scored _

theorem rates_addTransaction {accepts : Reply ℚ → Bool}
    (haccepts : ∀ message, accepts (.failure message) = false) (env : Env) (m txnType : String)
    (amount : ℚ) (note : String) :
    Rates accepts oid targets (env.utcnow 2) .early
      (addTransaction env m oid.str txnType amount note) := by
  rcases addTransaction_cases env m oid.str txnType amount note with
    ⟨message, heq⟩ | heq | ⟨type, oid', -, -, hcid, heq⟩
  · rw [heq]
    exact .refused (haccepts message)
  · rw [heq]
    exact .raised _
  · rw [ObjectId.ofString?_str] at hcid
    obtain rfl := Option.some.inj hcid
    rw [heq, recordFor]
    refine .perform trivial fun found _ => ?_
    cases found with
    | none => exact .refused (haccepts _)
    | some c =>
      have htransaction :
          (newTransaction env m oid.str c type amount note).customerId = oid.str := rfl
      exact .perform htransaction fun _ _ => rates_conclude _ _ _

theorem rates_editTransaction {accepts : Reply Unit → Bool}
    (haccepts : ∀ message, accepts (.failure message) = false) (env : Env) {tid : String}
    (htid : ∀ a, ObjectId.ofString? tid = some a → targets a) (m : String) (amount : ℚ)
    (note : String) :
    Rates accepts oid targets (env.utcnow 1) .early (editTransaction env tid m amount note) := by
  rw [editTransaction_eq]
  cases hoid : ObjectId.ofString? tid with
  | none => exact .raised _
  | some a =>
    refine .perform ⟨a, htid a hoid, rfl⟩ fun found hfound => ?_
    cases found with
    | none => exact .refused (haccepts _)
    | some t =>
      refine .perform trivial fun _ _ => ?_
      have hcustomer : t.customerId = oid.str := hfound
      rw [hcustomer]
      exact rates_settle _ _

theorem rates_deleteTransaction {accepts : Reply Unit → Bool}
    (haccepts : ∀ message, accepts (.failure message) = false) (env : Env) {tid : String}
    (htid : ∀ a, ObjectId.ofString? tid = some a → targets a) (m : String) :
    Rates accepts oid targets (env.utcnow 0) .early (deleteTransaction env tid m) := by
  rw [deleteTransaction_eq]
  cases hoid : ObjectId.ofString? tid with
  | none => exact .raised _
  | some a =>
    refine .perform ⟨a, htid a hoid, rfl⟩ fun found hfound => ?_
    cases found with
    | none => exact .refused (haccepts _)
    | some t =>
      refine .perform trivial fun _ _ => ?_
      have hcustomer : t.customerId = oid.str := hfound
      rw [hcustomer]
      exact rates_settle _ _

end Operations

/-- The call records, edits or deletes a transaction of the customer `oid`. -/
def Call.OnCustomer (oid : ObjectId) (s : Store) : Call → Prop
  | .addTransaction _ _ cid _ _ _ => cid = oid.str
  | .editTransaction _ tid _ _ _ => ∀ t ∈ s.transactions.docs,
    ObjectId.ofString? tid = some t.id → t.customerId = oid.str
  | .deleteTransaction _ tid _ => ∀ t ∈ s.transactions.docs,
    ObjectId.ofString? tid = some t.id → t.customerId = oid.str
  | _ => False

/-- Such a call has a clock reading to score with, and stands at the beginning. -/
theorem Call.OnCustomer.rates (bcrypt : Bcrypt) {call : Call} {oid : ObjectId}
    (targets : ObjectId → Prop) (hcall : call.OnCustomer oid s)
    (htargets : ∀ a, call.target = some a → targets a) :
    ∃ now, call.scoringTime = some now ∧
      Rates (fun o => Outcome.accepted (.ok o)) oid targets now .early (call.code bcrypt) := by
  have hrefused : ∀ message, Outcome.accepted (.ok (.newBalance (.failure message))) = false :=
    fun _ => rfl
  have hundone : ∀ message, Outcome.accepted (.ok (.done (.failure message))) = false :=
    fun _ => rfl
  cases call with
  | addTransaction env m cid txnType amount note =>
    obtain rfl : cid = oid.str := hcall
    exact ⟨_, rfl, (rates_addTransaction hrefused env m txnType amount note).map⟩
  | editTransaction env tid m amount note =>
    exact ⟨_, rfl, (rates_editTransaction hundone env htargets m amount note).map⟩
  | deleteTransaction env tid m =>
    exact ⟨_, rfl, (rates_deleteTransaction hundone env htargets m).map⟩
  | addCustomer env m name phone address pin => exact hcall.elim
  | deleteCustomer cid m => exact hcall.elim
  | updateCustomerPin env cid m pin => exact hcall.elim
  | computeCreditScore env m cid => exact hcall.elim
  | importCustomersFromExcel env m file => exact hcall.elim

/-! ### Steps of a scoring session -/

/-- The pair stored for the customer `oid`. -/
def PairIs (oid : ObjectId) (pair : ℤ × RiskCategory) (s : Store) : Prop :=
  ∀ c ∈ s.customers.docs, c.id = oid → c.pair = pair

/-- The call sets a score. -/
def DbCall.SetsScore : DbCall → Prop
  | .customers (.updateOne _ u) => u.creditScore ≠ none
  | _ => False

/-- What a scoring session does, given its next call, if it has one left, and its clock
reading `now`. -/
inductive Phase.Step (oid : ObjectId) (now : Time) (s : Store) :
    Option DbCall → Phase → Store → Phase → Prop
  /-- The pairs of the customers stay. -/
  | early {next : Option DbCall} {s' : Store} (hnext : ∀ c ∈ next, ¬c.SetsScore)
      (hC : s'.customers.docs.map (fun c => (c.id, c.pair)) =
        s.customers.docs.map fun c => (c.id, c.pair)) :
      Step oid now s next .early s' .early
  | look {c : Customer} (hc : c ∈ s.customers.docs) (hid : c.id = oid) :
      Step oid now s (some (.customers (.findOne { id := some oid }))) .early s
        (.finding c.balance)
  | find (balance : ℚ) :
      Step oid now s (some (.transactions (.find { customerId := some oid.str })))
        (.finding balance) s (.scoring (scoringRules (s.scoredTransactions oid.str) balance now))
  | score (pair : ℤ × RiskCategory) {next : DbCall} (hnext : next.SetsScore) :
      Step oid now s (some next) (.scoring pair) (s.setScore oid pair) .scored
  | scored {next : Option DbCall} (hnext : ∀ c ∈ next, ¬c.SetsScore) :
      Step oid now s next .scored s .scored

namespace Phase.Step

variable {oid : ObjectId} {now : Time} {next : Option DbCall} {ph ph' : Phase}

theorem customerIds (h : Phase.Step oid now s next ph s' ph') :
    s'.customerIds = s.customerIds := by
  cases h with
  | early hnext hC =>
    have hids := congrArg (List.map Prod.fst) hC
    rw [List.map_map, List.map_map] at hids
    exact hids
  | look hc hid => rfl
  | find balance => rfl
  | score pair hnext => exact customerIds_updateOne s _ _
  | scored hnext => rfl

/-- The pair of the customer stays, or it is the one that has been written. -/
theorem pairIs {pair : ℤ × RiskCategory} (h : Phase.Step oid now s next ph s' ph')
    (hpair : PairIs oid pair s) :
    (PairIs oid pair s' ∧ ∀ c ∈ next, ¬c.SetsScore) ∨ ph' = .scored ∧ ph ≠ .scored := by
  cases h with
  | early hnext hC =>
    refine .inl ⟨fun c' hc' hid' => ?_, hnext⟩
    have hmem := List.mem_map_of_mem (f := fun c : Customer => (c.id, c.pair)) hc'
    rw [hC] at hmem
    obtain ⟨c, hc, heq⟩ := List.mem_map.mp hmem
    obtain ⟨hid, hsame⟩ := Prod.mk.inj heq
    rw [← hsame]
    exact hpair c hc (hid.trans hid')
  | look hc hid => exact .inl ⟨hpair, by simp [DbCall.SetsScore]⟩
  | find balance => exact .inl ⟨hpair, by simp [DbCall.SetsScore]⟩
  | score pair hnext => exact .inr ⟨rfl, Phase.noConfusion⟩
  | scored hnext => exact .inl ⟨hpair, hnext⟩

end Phase.Step

theorem pairIs_setScore (oid : ObjectId) (pair : ℤ × RiskCategory) (s : Store) :
    PairIs oid pair (s.setScore oid pair) := by
  intro c' hc' hid'
  obtain ⟨c, hc, rfl⟩ := mem_customers_setScore.mp hc'
  by_cases hid : c.id = oid
  · rw [if_pos hid]
    rfl
  · rw [if_neg hid] at hid'
    exact absurd hid' hid

/-- Transactions that keep their customers stay those of the customer. -/
theorem TargetsOf.of_map {oid : ObjectId} {targets : ObjectId → Prop} {s s' : Store}
    (hs : TargetsOf oid targets s)
    (hmap : s'.transactions.docs.map (fun t => (t.id, t.customerId)) =
      s.transactions.docs.map fun t => (t.id, t.customerId)) : TargetsOf oid targets s' := by
  intro t' ht' htarget
  have hmem := List.mem_map_of_mem (f := fun t : Transaction => (t.id, t.customerId)) ht'
  rw [hmap] at hmem
  obtain ⟨t, ht, heq⟩ := List.mem_map.mp hmem
  obtain ⟨hid, hcustomer⟩ := Prod.mk.inj heq
  rw [← hcustomer]
  exact hs t ht (hid ▸ htarget)

/-- A transaction of the customer is inserted, or refused. -/
theorem TargetsOf.insertOne {oid : ObjectId} {targets : ObjectId → Prop} {s : Store}
    (hs : TargetsOf oid targets s) {t : Transaction} (ht : t.customerId = oid.str) :
    TargetsOf oid targets (exec (.transactions (.insertOne t)) s).2 := by
  cases hT : s.transactions.insertOne t with
  | none =>
    rw [exec_transactions_insertOne_none s hT]
    exact hs
  | some T =>
    rw [exec_transactions_insertOne s hT]
    intro t' ht' htarget
    have hmem : t' ∈ T.docs := ht'
    rw [docs_insertOne hT, List.mem_append, List.mem_singleton] at hmem
    rcases hmem with hold | rfl
    · exact hs t' hold htarget
    · exact ht

/-- An early call keeps the pairs, and the transactions those of their customer. -/
theorem DbCall.Early.frame {oid : ObjectId} {targets : ObjectId → Prop} {c : DbCall}
    (hc : c.Early oid targets) (s : Store) (hs : TargetsOf oid targets s) :
    (exec c s).2.customers.docs.map (fun c => (c.id, c.pair)) =
        s.customers.docs.map (fun c => (c.id, c.pair)) ∧
      TargetsOf oid targets (exec c s).2 ∧ c.Plausible oid (exec c s).1 := by
  cases c with
  | customers op =>
    cases op with
    | findOne q => exact ⟨rfl, hs, trivial⟩
    | updateOne q u =>
      refine ⟨map_updateOne (fun c => ?_) q s.customers, hs, trivial⟩
      change (c.id, u.creditScore.getD c.creditScore, u.riskCategory.getD c.riskCategory) = _
      rw [hc.1, hc.2]
      rfl
    | find q => exact hc.elim
    | insertOne d => exact hc.elim
    | deleteOne q => exact hc.elim
    | deleteMany q => exact hc.elim
  | transactions op =>
    cases op with
    | findOne q =>
      refine ⟨rfl, hs, ?_⟩
      obtain ⟨a, ha, hq⟩ := hc
      rw [exec_transactions_findOne]
      cases hfind : s.transactions.findOne q with
      | none => trivial
      | some t =>
        have hid : t.id = a := byKey_transaction hq t (test_of_findOne hfind)
        exact hs t (mem_of_findOne hfind) (hid.symm ▸ ha)
    | insertOne t => exact ⟨rfl, hs.insertOne hc, trivial⟩
    | updateOne q u =>
      exact ⟨rfl, hs.of_map (map_updateOne (fun _ => rfl) q s.transactions), trivial⟩
    | deleteOne q =>
      refine ⟨rfl, fun t' ht' htarget => ?_, trivial⟩
      exact hs t' (List.mem_of_mem_eraseP ht') htarget
    | find q => exact hc.elim
    | deleteMany q => exact hc.elim

theorem DbCall.Early.not_setsScore {oid : ObjectId} {targets : ObjectId → Prop} {c : DbCall}
    (hc : c.Early oid targets) : ¬c.SetsScore := by
  cases c with
  | transactions op => exact id
  | customers op =>
    cases op with
    | updateOne q u => exact fun hsets => hsets hc.1
    | findOne q => exact id
    | find q => exact id
    | insertOne d => exact id
    | deleteOne q => exact id
    | deleteMany q => exact id

/-- **The operations score what they have read.** -/
theorem Rates.step {accepts : α → Bool} {oid : ObjectId} {targets : ObjectId → Prop} {now : Time}
    {ph : Phase} {c : DbCall} {k : Except Exn c.Answer → Db α}
    (h : Rates accepts oid targets now ph (.call c k)) (s : Store) (hs : TargetsOf oid targets s)
    (hmem : oid ∈ s.customerIds) :
    ∃ ph', Phase.Step oid now s (some c) ph (exec c s).2 ph' ∧
      TargetsOf oid targets (exec c s).2 ∧ Rates accepts oid targets now ph' (k (exec c s).1) := by
  cases h with
  | early hc hk =>
    obtain ⟨hC, htargets, hplausible⟩ := hc.frame s hs
    refine ⟨.early, .early (fun c' hc' => ?_) hC, htargets, hk _ hplausible⟩
    rw [← Option.mem_some.mp hc']
    exact hc.not_setsScore
  | look hk =>
    -- the customer is stored, so the lookup finds it
    obtain ⟨c, hc, hid⟩ := List.mem_map.mp hmem
    have hfind : s.customers.findOne { id := some oid } = some c :=
      findOne_customer.mpr ⟨hc, hid⟩
    rw [exec_customers_findOne, hfind]
    exact ⟨_, .look hc hid, hs, hk c⟩
  | find hk => exact ⟨_, .find _, hs, hk _⟩
  | @score pair k hk =>
    have hsets : DbCall.SetsScore (.customers (.updateOne { id := some oid }
        { creditScore := some pair.1, riskCategory := some pair.2 })) := Option.some_ne_none _
    exact ⟨_, .score pair hsets, hs, hk _⟩
  | lookAgain hk => exact ⟨_, .scored (by simp [DbCall.SetsScore]), hs, hk _⟩

/-! ### Interleavings -/

/-- The next call of a session, if it has one left. -/
def Session.next (y : Session DbCall DbCall.Answer Exn α) : Option DbCall :=
  match y.rest with
  | .call c _ => some c
  | _ => none

section Systems

variable {ι : Type} [DecidableEq ι] {x start : Sessions ι α} {i : ι} {oid : ObjectId}
  {targets : ObjectId → Prop} {accepts : α → Bool}

/-- A step of a session is a step of its phase. -/
theorem Rates.system_step {now : Time} {ph : Phase}
    (h : Rates accepts oid targets now ph (x.sessions i).rest) (hx : TargetsOf oid targets x.store)
    (hmem : oid ∈ x.store.customerIds) :
    ∃ ph', Phase.Step oid now x.store (x.sessions i).next ph (x.step exec i).store ph' ∧
      TargetsOf oid targets (x.step exec i).store ∧
      Rates accepts oid targets now ph' ((x.step exec i).sessions i).rest := by
  rw [Session.next]
  cases hrest : (x.sessions i).rest with
  | call c k =>
    rw [hrest] at h
    obtain ⟨ph', hstep, htargets, hrates⟩ := h.step x.store hx hmem
    refine ⟨ph', ?_, ?_, ?_⟩
    · rw [System.store_step_call hrest]
      exact hstep
    · rw [System.store_step_call hrest]
      exact htargets
    · rw [System.sessions_step_self hrest]
      exact hrates
  -- a session that has ended stands still, early or with its score written
  | ret a =>
    rw [System.step_of_outcome (Session.outcome_ret hrest), hrest]
    rw [hrest] at h
    refine ⟨ph, ?_, hx, h⟩
    cases h with
    | refused ha => exact .early (by simp) rfl
    | scored a => exact .scored (by simp)
  | raise e =>
    rw [System.step_of_outcome (Session.outcome_raise hrest), hrest]
    rw [hrest] at h
    refine ⟨ph, ?_, hx, h⟩
    cases h with
    | raised e => exact .early (by simp) rfl
    | scoredRaise e => exact .scored (by simp)

/-- Session `i` looks the customer `oid` up, to score it, and reads this balance. -/
def Looks (oid : ObjectId) (i : ι) (x : Sessions ι α) (balance : ℚ) : Prop :=
  (x.sessions i).next = some (.customers (.findOne { id := some oid })) ∧
    ∃ c ∈ x.store.customers.docs, c.id = oid ∧ c.balance = balance

/-- Session `i` reads the transactions of the customer `oid`, to score it. -/
def Finds (oid : ObjectId) (i : ι) (x : Sessions ι α) : Prop :=
  (x.sessions i).next = some (.transactions (.find { customerId := some oid.str }))

/-- The interleaving `b₁ ++ i :: b₂ ++ i :: b₃ ++ i :: b₄` has its last scoring by session
`i`, which reads the balance and the transactions of the customer `oid` after `b₁` and
after `b₁ ++ i :: b₂`, and writes the score with its next step. -/
structure LastScoring (oid : ObjectId) (start : Sessions ι α) (i : ι) (b₁ b₂ b₃ b₄ : List ι)
    (balance : ℚ) : Prop where
  looks : Looks oid i (start.run exec b₁) balance
  finds : Finds oid i (start.run exec (b₁ ++ i :: b₂))
  sets : ∃ c ∈ ((start.run exec (b₁ ++ i :: b₂ ++ i :: b₃)).sessions i).next, c.SetsScore
  last : System.Along exec (fun x j => ∀ c ∈ (x.sessions j).next, ¬c.SetsScore)
    (start.run exec (b₁ ++ i :: b₂ ++ i :: b₃ ++ [i])) b₄

/-- The stored pair is that of the last scoring of the interleaving so far. -/
def Stands (oid : ObjectId) (now : ι → Time) (start : Sessions ι α) (sched : List ι) : Prop :=
  ∃ i b₁ b₂ b₃ b₄ balance, sched = b₁ ++ i :: b₂ ++ i :: b₃ ++ i :: b₄ ∧
    LastScoring oid start i b₁ b₂ b₃ b₄ balance ∧
    PairIs oid (scoringRules ((start.run exec (b₁ ++ i :: b₂)).store.scoredTransactions oid.str)
      balance (now i)) (start.run exec sched).store

/-- What the phase of session `i` says of the interleaving so far. -/
def Remembers (oid : ObjectId) (now : ι → Time) (start : Sessions ι α) (sched : List ι) (i : ι) :
    Phase → Prop
  | .early => True
  | .finding balance => ∃ b₁ b₂, sched = b₁ ++ i :: b₂ ∧ Looks oid i (start.run exec b₁) balance
  | .scoring pair => ∃ b₁ b₂ b₃ balance, sched = b₁ ++ i :: b₂ ++ i :: b₃ ∧
    Looks oid i (start.run exec b₁) balance ∧ Finds oid i (start.run exec (b₁ ++ i :: b₂)) ∧
    pair = scoringRules ((start.run exec (b₁ ++ i :: b₂)).store.scoredTransactions oid.str)
      balance (now i)
  | .scored => Stands oid now start sched

variable {now : ι → Time} {sched : List ι} {j : ι} {ph ph' : Phase}

theorem run_concat (start : Sessions ι α) (sched : List ι) (j : ι) :
    start.run exec (sched ++ [j]) = (start.run exec sched).step exec j := by
  rw [System.run_append, System.run_cons, System.run_nil]

/-- A step that writes the score is from then on the last scoring. -/
theorem stands_of_score
    (hstep : Phase.Step oid (now j) (start.run exec sched).store
      ((start.run exec sched).sessions j).next ph (start.run exec (sched ++ [j])).store .scored)
    (hph : ph ≠ .scored) (hremembers : Remembers oid now start sched j ph) :
    Stands oid now start (sched ++ [j]) := by
  generalize hnext : ((start.run exec sched).sessions j).next = next at hstep
  generalize hstore : (start.run exec (sched ++ [j])).store = s' at hstep
  cases hstep with
  | score pair hsets =>
    obtain ⟨b₁, b₂, b₃, balance, rfl, hlooks, hfinds, rfl⟩ := hremembers
    refine ⟨j, b₁, b₂, b₃, [], balance, rfl, ⟨hlooks, hfinds, ?_, trivial⟩, ?_⟩
    · exact ⟨_, hnext, hsets⟩
    · rw [hstore]
      exact pairIs_setScore _ _ _
  | scored hnone => exact absurd rfl hph

/-- The pair of the last scoring stands until the next scoring. -/
theorem Stands.step (h : Stands oid now start sched)
    (hstep : Phase.Step oid (now j) (start.run exec sched).store
      ((start.run exec sched).sessions j).next ph (start.run exec (sched ++ [j])).store ph')
    (hremembers : Remembers oid now start sched j ph) : Stands oid now start (sched ++ [j]) := by
  obtain ⟨i, b₁, b₂, b₃, b₄, balance, hsched, hlast, hpair⟩ := h
  rcases hstep.pairIs hpair with ⟨hkept, hnone⟩ | ⟨rfl, hph⟩
  · refine ⟨i, b₁, b₂, b₃, b₄ ++ [j], balance, ?_,
      ⟨hlast.looks, hlast.finds, hlast.sets, ?_⟩, hkept⟩
    · rw [hsched, List.append_assoc, List.cons_append]
    · rw [System.along_append]
      refine ⟨hlast.last, ?_, trivial⟩
      rw [← System.run_append, List.append_assoc, List.singleton_append, ← hsched]
      exact hnone
  · exact stands_of_score hstep hph hremembers

/-- What a session has read it still has after a step of another. -/
theorem Remembers.step_other {phi : Phase} (h : Remembers oid now start sched i phi)
    (hstep : Phase.Step oid (now j) (start.run exec sched).store
      ((start.run exec sched).sessions j).next ph (start.run exec (sched ++ [j])).store ph')
    (hremembers : Remembers oid now start sched j ph) :
    Remembers oid now start (sched ++ [j]) i phi := by
  cases phi with
  | early => trivial
  | finding balance =>
    obtain ⟨b₁, b₂, hsched, hlooks⟩ := h
    refine ⟨b₁, b₂ ++ [j], ?_, hlooks⟩
    rw [hsched, List.append_assoc, List.cons_append]
  | scoring pair =>
    obtain ⟨b₁, b₂, b₃, balance, hsched, hrest⟩ := h
    refine ⟨b₁, b₂, b₃ ++ [j], balance, ?_, hrest⟩
    rw [hsched, List.append_assoc, List.cons_append]
  | scored => exact Stands.step h hstep hremembers

/-- What a session remembers after a step of its own. -/
theorem Remembers.step_self
    (hstep : Phase.Step oid (now j) (start.run exec sched).store
      ((start.run exec sched).sessions j).next ph (start.run exec (sched ++ [j])).store ph')
    (hremembers : Remembers oid now start sched j ph) :
    Remembers oid now start (sched ++ [j]) j ph' := by
  have hstep' := hstep
  generalize hnext : ((start.run exec sched).sessions j).next = next at hstep
  generalize (start.run exec (sched ++ [j])).store = s' at hstep
  cases hstep with
  | early hnone hC => trivial
  | @look c hc hid => exact ⟨sched, [], rfl, hnext, c, hc, hid, rfl⟩
  | find balance =>
    obtain ⟨b₁, b₂, rfl, hlooks⟩ := hremembers
    exact ⟨b₁, b₂, [], balance, rfl, hlooks, hnext, rfl⟩
  | score pair hsets => exact stands_of_score hstep' Phase.noConfusion hremembers
  | scored hnone => exact Stands.step hremembers hstep' hremembers

/-- The interleaving so far is on record. -/
structure Recorded (accepts : α → Bool) (oid : ObjectId) (targets : ObjectId → Prop)
    (now : ι → Time) (start : Sessions ι α) (sched : List ι) : Prop where
  sessions : ∀ i, ∃ ph, Rates accepts oid targets (now i) ph
    ((start.run exec sched).sessions i).rest ∧ Remembers oid now start sched i ph
  targets : TargetsOf oid targets (start.run exec sched).store
  stored : oid ∈ (start.run exec sched).store.customerIds

theorem Recorded.step (h : Recorded accepts oid targets now start sched) (j : ι) :
    Recorded accepts oid targets now start (sched ++ [j]) := by
  obtain ⟨ph, hrates, hremembers⟩ := h.sessions j
  obtain ⟨ph', hstep, htargets, hrates'⟩ := hrates.system_step h.targets h.stored
  rw [← run_concat] at hstep htargets hrates'
  refine ⟨fun i => ?_, htargets, ?_⟩
  · by_cases hij : i = j
    · subst hij
      exact ⟨ph', hrates', .step_self hstep hremembers⟩
    · obtain ⟨phi, hratesi, hrememberi⟩ := h.sessions i
      refine ⟨phi, ?_, hrememberi.step_other hstep hremembers⟩
      rw [run_concat, System.sessions_step_of_ne hij]
      exact hratesi
  · rw [hstep.customerIds]
    exact h.stored

theorem Recorded.run (h : Recorded accepts oid targets now start []) (sched : List ι) :
    Recorded accepts oid targets now start sched := by
  induction sched using List.reverseRecOn with
  | nil => exact h
  | append_singleton sched j ih => exact ih.step j

/-- Once a session has ended with an accepted value, a score has been written. -/
theorem Recorded.stands (h : Recorded accepts oid targets now start sched) {a : α}
    (hi : ((start.run exec sched).sessions i).rest = .ret a) (ha : accepts a = true) :
    Stands oid now start sched := by
  obtain ⟨ph, hrates, hremembers⟩ := h.sessions i
  rw [hi] at hrates
  cases hrates with
  | refused hno =>
    rw [ha] at hno
    exact absurd hno (by simp)
  | scored a => exact hremembers

end Systems

/-! ### When the last score is that of the final data -/

/-- The call moves neither transactions nor figures. -/
def DbCall.Still : DbCall → Prop
  | .customers (.findOne _) => True
  | .customers (.find _) => True
  | .customers (.updateOne _ u) => u.inc = 0
  | .transactions (.findOne _) => True
  | .transactions (.find _) => True
  | _ => False

theorem DbCall.Still.frame {c : DbCall} (hc : c.Still) (s : Store) :
    (exec c s).2.transactions = s.transactions ∧
      (exec c s).2.customers.docs.map (fun c => (c.id, c.balance)) =
        s.customers.docs.map fun c => (c.id, c.balance) := by
  cases c with
  | customers op =>
    cases op with
    | findOne q => exact ⟨rfl, rfl⟩
    | find q => exact ⟨rfl, rfl⟩
    | updateOne q u =>
      have hinc : u.inc = 0 := hc
      refine ⟨rfl, map_updateOne (fun c => ?_) q s.customers⟩
      change (c.id, c.balance + u.inc.balance) = (c.id, c.balance)
      rw [hinc, Totals.balance_zero, add_zero]
    | insertOne d => exact hc.elim
    | deleteOne q => exact hc.elim
    | deleteMany q => exact hc.elim
  | transactions op =>
    cases op with
    | findOne q => exact ⟨rfl, rfl⟩
    | find q => exact ⟨rfl, rfl⟩
    | insertOne d => exact hc.elim
    | updateOne q u => exact hc.elim
    | deleteOne q => exact hc.elim
    | deleteMany q => exact hc.elim

section Still

variable {ι : Type} [DecidableEq ι] {x : Sessions ι α}

/-- Steps that move nothing leave the transactions and the balances. -/
theorem run_still {sched : List ι}
    (h : System.Along exec (fun x j => ∀ c ∈ (x.sessions j).next, c.Still) x sched) :
    (x.run exec sched).store.transactions = x.store.transactions ∧
      (x.run exec sched).store.customers.docs.map (fun c => (c.id, c.balance)) =
        x.store.customers.docs.map fun c => (c.id, c.balance) := by
  refine System.run_invariant (I := fun y => y.store.transactions = x.store.transactions ∧
    y.store.customers.docs.map (fun c => (c.id, c.balance)) =
      x.store.customers.docs.map fun c => (c.id, c.balance)) ?_ h ⟨rfl, rfl⟩
  rintro y j hstill ⟨hT, hC⟩
  cases hrest : (y.sessions j).rest with
  | ret a =>
    rw [System.step_of_outcome (Session.outcome_ret hrest)]
    exact ⟨hT, hC⟩
  | raise e =>
    rw [System.step_of_outcome (Session.outcome_raise hrest)]
    exact ⟨hT, hC⟩
  | call c k =>
    have hnext : c ∈ (y.sessions j).next := by
      rw [Session.next, hrest]
      rfl
    obtain ⟨hT', hC'⟩ := (hstill c hnext).frame y.store
    rw [System.store_step_call hrest]
    exact ⟨hT'.trans hT, hC'.trans hC⟩

end Still

section Calls

variable {ι : Type} [DecidableEq ι] {calls : ι → Call} {c : Customer}

variable (bcrypt) in
/-- The calls are on record before they start. -/
theorem recorded_start (hc : c ∈ s.customers.docs) (hcalls : ∀ i, (calls i).OnCustomer c.id s) :
    ∃ now : ι → Time, (∀ i, (calls i).scoringTime = some (now i)) ∧
      Recorded (fun o => Outcome.accepted (.ok o)) c.id
        (fun a => ∃ i, (calls i).target = some a) now
        (System.start s fun i => (calls i).code bcrypt) [] := by
  have hrates := fun i => (hcalls i).rates bcrypt (fun a => ∃ i, (calls i).target = some a)
    fun a ha => ⟨i, ha⟩
  choose now htime hrates using hrates
  refine ⟨now, htime, fun i => ⟨.early, hrates i, trivial⟩, ?_, mem_customerIds hc⟩
  rintro t ht ⟨i, htarget⟩
  have hcall := hcalls i
  cases hi : calls i with
  | editTransaction env tid m amount note =>
    rw [hi] at hcall htarget
    exact hcall t ht htarget
  | deleteTransaction env tid m =>
    rw [hi] at hcall htarget
    exact hcall t ht htarget
  | addTransaction env m cid txnType amount note =>
    rw [hi] at htarget
    exact absurd htarget (by simp [Call.target])
  | addCustomer env m name phone address pin =>
    rw [hi] at hcall
    exact hcall.elim
  | deleteCustomer cid m =>
    rw [hi] at hcall
    exact hcall.elim
  | updateCustomerPin env cid m pin =>
    rw [hi] at hcall
    exact hcall.elim
  | computeCreditScore env m cid =>
    rw [hi] at hcall
    exact hcall.elim
  | importCustomersFromExcel env m file =>
    rw [hi] at hcall
    exact hcall.elim

/-- A session whose outcome is accepted has come to its end. -/
theorem exists_ret_of_accepted {y : Session DbCall DbCall.Answer Exn Outcome}
    {o : Except Exn Outcome} (ho : y.outcome = some o) (haccepted : Outcome.accepted o = true) :
    ∃ a, y.rest = .ret a ∧ Outcome.accepted (.ok a) = true := by
  cases hrest : y.rest with
  | ret a =>
    rw [Session.outcome_ret hrest, Option.some.injEq] at ho
    rw [← ho] at haccepted
    exact ⟨a, rfl, haccepted⟩
  | raise e =>
    rw [Session.outcome_raise hrest, Option.some.injEq] at ho
    rw [← ho] at haccepted
    exact absurd haccepted (by simp [Outcome.accepted])
  | call c k =>
    rw [Session.outcome_call hrest] at ho
    exact absurd ho (by simp)

/-- **The score written last stands.**  Calls that record, edit and delete transactions of
one customer are interleaved, each step on the database being atomic.  Once one of them is
accepted, the stored pair is what the rules give on the balance and the transactions that
the session with the last scoring has read, at its clock reading; if no step from its first
read on moves a transaction or a figure, these are the final ones. -/
theorem last_score_stands (hc : c ∈ s.customers.docs)
    (hcalls : ∀ i, (calls i).OnCustomer c.id s) (sched : List ι) :
    let start := System.start s fun i => (calls i).code bcrypt
    let x := System.run exec start sched
    (∃ i o, (x.sessions i).outcome = some o ∧ Outcome.accepted o = true) →
      ∃ i b₁ b₂ b₃ b₄ balance now, sched = b₁ ++ i :: b₂ ++ i :: b₃ ++ i :: b₄ ∧
        LastScoring c.id start i b₁ b₂ b₃ b₄ balance ∧ (calls i).scoringTime = some now ∧
        ∃ c' ∈ x.store.customers.docs, c'.id = c.id ∧
          (c'.creditScore, c'.riskCategory) = scoringRules (sortByDate
            ((System.run exec start (b₁ ++ i :: b₂)).store.transactionsOf c')) balance now ∧
          (System.Along exec (fun x j => ∀ call ∈ (x.sessions j).next, call.Still)
              (System.run exec start b₁) (i :: b₂ ++ i :: b₃ ++ i :: b₄) →
            (c'.creditScore, c'.riskCategory) =
              scoringRules (sortByDate (x.store.transactionsOf c')) c'.balance now) := by
  intro start x
  rintro ⟨i₀, o, hi₀, hoaccepted⟩
  obtain ⟨now, htime, hrecorded⟩ := recorded_start bcrypt hc hcalls
  have hx := hrecorded.run sched
  obtain ⟨a, hrest, haccepted⟩ := exists_ret_of_accepted hi₀ hoaccepted
  have hstands : Stands c.id now start sched := hx.stands hrest haccepted
  obtain ⟨i, b₁, b₂, b₃, b₄, balance, hsched, hlast, hpair⟩ := hstands
  obtain ⟨c', hc', hid⟩ := List.mem_map.mp hx.stored
  have hid : c'.id = c.id := hid
  have hstored : c'.pair = scoringRules (sortByDate
      ((System.run exec start (b₁ ++ i :: b₂)).store.transactionsOf c')) balance (now i) := by
    rw [← scoredTransactions_eq, hid]
    exact hpair c' hc' hid
  refine ⟨i, b₁, b₂, b₃, b₄, balance, now i, hsched, hlast, htime i, c', hc', hid, hstored,
    fun hstill => ?_⟩
  -- nothing has moved since the balance was read, so the transactions were final too
  have hsplit : x = System.run exec (System.run exec start b₁) (i :: b₂ ++ i :: b₃ ++ i :: b₄) := by
    rw [← System.run_append, ← List.append_assoc, ← List.append_assoc, ← hsched]
  obtain ⟨hT, hC⟩ := run_still hstill
  rw [← hsplit] at hT hC
  have hread : (System.run exec start (b₁ ++ i :: b₂)).store.transactions =
      x.store.transactions := by
    rw [List.append_assoc, System.along_append] at hstill
    rw [System.run_append, (run_still hstill.1).1, hT]
  have hbalance : c'.balance = balance := by
    obtain ⟨-, c₁, hc₁, hid₁, rfl⟩ := hlast.looks
    have hmem := List.mem_map_of_mem (f := fun c : Customer => (c.id, c.balance)) hc'
    rw [hC] at hmem
    obtain ⟨c₂, hc₂, heq⟩ := List.mem_map.mp hmem
    obtain ⟨hid₂, hbalance₂⟩ := Prod.mk.inj heq
    rw [← hbalance₂, customer_eq_of_id hc₂ hc₁ (by rw [hid₂, hid, hid₁])]
  rw [hbalance, Store.transactionsOf, ← hread]
  exact hstored

/-- A credit of 10 and a credit of 200000, recorded at once. -/
def sampleCredits : Bool → Call
  | false => .addTransaction (.sample 4 0) "m" (ObjectId.ofNat 1).str "credit" 10 ""
  | true => .addTransaction (.sample 5 0) "m" (ObjectId.ofNat 1).str "credit" 200000 ""

theorem sampleCredits_onCustomer (i : Bool) :
    (sampleCredits i).OnCustomer sampleCustomer.id sampleStore := by
  cases i
  · rfl
  · rfl

/-- The first session reads, the second runs from start to end, the first writes. -/
def slowScorer : List Bool :=
  [false, false, false, false, false, true, true, true, true, true, true, true, false, false]

/-- The score of the slow session stands. -/
theorem last_score_stands_sample :
    let start := System.start sampleStore fun i => (sampleCredits i).code markingBcrypt
    let x := System.run exec start slowScorer
    ∃ i b₁ b₂ b₃ b₄ balance now, slowScorer = b₁ ++ i :: b₂ ++ i :: b₃ ++ i :: b₄ ∧
      LastScoring sampleCustomer.id start i b₁ b₂ b₃ b₄ balance ∧
      (sampleCredits i).scoringTime = some now ∧
      ∃ c' ∈ x.store.customers.docs, c'.id = sampleCustomer.id ∧
        (c'.creditScore, c'.riskCategory) = scoringRules (sortByDate
          ((System.run exec start (b₁ ++ i :: b₂)).store.transactionsOf c')) balance now ∧
        (System.Along exec (fun x j => ∀ call ∈ (x.sessions j).next, call.Still)
            (System.run exec start b₁) (i :: b₂ ++ i :: b₃ ++ i :: b₄) →
          (c'.creditScore, c'.riskCategory) =
            scoringRules (sortByDate (x.store.transactionsOf c')) c'.balance now) := by
  have haccepted : ((System.run exec (System.start sampleStore fun i =>
      (sampleCredits i).code markingBcrypt) slowScorer).sessions true).outcome =
        some (.ok (.newBalance (.success 200040))) := by
    decide +kernel
  exact last_score_stands sampleCustomer_mem sampleCredits_onCustomer slowScorer
    ⟨true, _, haccepted, rfl⟩

/-- The score the slow session writes is not that of the final data. -/
theorem stale_score :
    ¬∀ (bcrypt : Bcrypt) (s : Store), Reachable bcrypt s → ∀ c ∈ s.customers.docs,
      ∀ calls : Bool → Call, (∀ i, (calls i).OnCustomer c.id s) →
        (∀ i j, i ≠ j → ∀ a, (calls i).target = some a → (calls j).target ≠ some a) →
        ∀ sched, (System.run exec (System.start s fun i => (calls i).code bcrypt)
          sched).Finished →
        ∃ i, ∃ now ∈ (calls i).scoringTime,
          ∀ c' ∈ (System.run exec (System.start s fun i => (calls i).code bcrypt)
            sched).store.customers.docs, c'.id = c.id →
            (c'.creditScore, c'.riskCategory) = scoringRules (sortByDate
              ((System.run exec (System.start s fun i => (calls i).code bcrypt)
                sched).store.transactionsOf c')) c'.balance now := by
  intro hclaim
  have hdistinct : ∀ i j, i ≠ j → ∀ a, (sampleCredits i).target = some a →
      (sampleCredits j).target ≠ some a := by
    intro i j _ a ha
    cases i
    · exact absurd ha (by simp [sampleCredits, Call.target])
    · exact absurd ha (by simp [sampleCredits, Call.target])
  obtain ⟨i, now, hnow, hcurrent⟩ := hclaim markingBcrypt sampleStore sampleStore_reachable
    sampleCustomer sampleCustomer_mem sampleCredits sampleCredits_onCustomer hdistinct slowScorer
    (by decide +kernel)
  -- both sessions read the clock at 0
  have hzero : now = 0 := by
    cases i
    · exact (Option.some.inj hnow).symm
    · exact (Option.some.inj hnow).symm
  subst hzero
  exact absurd hcurrent (by decide +kernel)

end Calls

end DigitalLedger
