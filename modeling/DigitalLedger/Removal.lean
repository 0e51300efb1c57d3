import DigitalLedger.Moves
import DigitalLedger.Sessions
import Mathlib.Data.Fintype.Option

/-!
# Deleting a customer while transactions are recorded

Calls of `add_transaction` for one customer are interleaved with a call of
`delete_customer` that removes it, each step on the database being atomic.  A call
that records looks the customer up first and reads its balance last; when the
customer goes in between, the last read finds nothing, and the transaction it has
inserted may stay behind.

## Main definitions

* `Checking`, `Inserting`, `Closing` — where a call that records stands.
* `Removing`, `Sweeping` — where the call that deletes stands.
* `Orderly` — what holds as long as the customer goes while no recording is under way.
* `Doomed` — a recording whose customer is gone.

## Main results

* `Orderly.step`, `Doomed.step` — the steps of the interleaving keep them.
* `removal_iff` — no transaction is left behind and no recording ends in an exception
  if and only if no recording is under way when the customer is deleted.
-/

namespace DigitalLedger

open Collection Prog

/-! ### Where the calls stand -/

section Places

variable {α : Type} {oid : ObjectId} {m : String} {tid : ObjectId}

/-- The calls that read, or that set fields of a customer. -/
def DbCall.Gentle : DbCall → Prop
  | .customers (.findOne _) => True
  | .customers (.updateOne _ _) => True
  | .transactions (.find _) => True
  | _ => False

/-- The transaction is inserted: the program goes on to its last look at the customer,
and raises if that finds nothing. -/
inductive Closing (oid : ObjectId) : Db α → Prop
  | last {k : Except Exn (Option Customer) → Db α} (hnone : ∃ e, k (.ok none) = .raise e)
      (hsome : ∀ c, ∃ a, k (.ok (some c)) = .ret a) :
      Closing oid (.call (.customers (.findOne { id := some oid })) k)
  | step {c : DbCall} {k : Except Exn c.Answer → Db α} (hc : c.Gentle)
      (hk : ∀ r, Closing oid (k (.ok r))) : Closing oid (.call c k)

/-- The customer is found: the program is about to insert the transaction `tid`. -/
def Inserting (oid tid : ObjectId) (p : Db α) : Prop :=
  ∃ (t : Transaction) (k : Except Exn Unit → Db α), p = .call (.transactions (.insertOne t)) k ∧
    t.id = tid ∧ t.customerId = oid.str ∧ (∀ e, ∃ e', k (.error e) = .raise e') ∧
      Closing oid (k (.ok ()))

/-- The program is about to look up the customer. -/
def Checking (oid : ObjectId) (m : String) (tid : ObjectId) (p : Db α) : Prop :=
  ∃ k : Except Exn (Option Customer) → Db α,
    p = .call (.customers (.findOne { id := some oid, merchantId := some m })) k ∧
      (∃ a, k (.ok none) = .ret a) ∧ ∀ c, Inserting oid tid (k (.ok (some c)))

/-- The customer is deleted: the program is about to delete its transactions. -/
def Sweeping (oid : ObjectId) (p : Db α) : Prop :=
  ∃ k : Except Exn ℕ → Db α,
    p = .call (.transactions (.deleteMany { customerId := some oid.str })) k ∧
      ∀ n, ∃ a, k (.ok n) = .ret a

/-- The program is about to delete the customer. -/
def Removing (oid : ObjectId) (m : String) (p : Db α) : Prop :=
  ∃ k : Except Exn ℕ → Db α,
    p = .call (.customers (.deleteOne { id := some oid, merchantId := some m })) k ∧
      (∃ a, k (.ok 0) = .ret a) ∧ Sweeping oid (k (.ok 1))

variable {y : Session DbCall DbCall.Answer Exn α}

theorem Closing.outcome (h : Closing oid y.rest) : y.outcome = none := by
  generalize hp : y.rest = p at h
  cases h with
  | last hnone hsome => exact Session.outcome_call hp
  | step hc hk => exact Session.outcome_call hp

theorem Inserting.outcome (h : Inserting oid tid y.rest) : y.outcome = none := by
  obtain ⟨t, k, hrest, -⟩ := h
  exact Session.outcome_call hrest

theorem Checking.outcome (h : Checking oid m tid y.rest) : y.outcome = none := by
  obtain ⟨k, hrest, -⟩ := h
  exact Session.outcome_call hrest

theorem Sweeping.outcome (h : Sweeping oid y.rest) : y.outcome = none := by
  obtain ⟨k, hrest, -⟩ := h
  exact Session.outcome_call hrest

theorem Removing.outcome (h : Removing oid m y.rest) : y.outcome = none := by
  obtain ⟨k, hrest, -⟩ := h
  exact Session.outcome_call hrest

theorem closing_conclude {β : Type} (f : Reply ℚ → β) (oid : ObjectId) (δ : Totals)
    (last now : Time) : Closing oid (f <$> conclude oid oid.str δ last now) := by
  rw [conclude, computeCreditScore, objectId_eq_ret (ObjectId.ofString?_str oid)]
  refine .step trivial fun _ => .step trivial fun found => ?_
  cases found with
  | none => exact .last ⟨_, rfl⟩ fun c => ⟨_, rfl⟩
  | some c =>
    refine .step trivial fun _ => .step trivial fun _ => ?_
    exact .last ⟨_, rfl⟩ fun c => ⟨_, rfl⟩

/-- Where a call that records starts. -/
theorem checking_addTransaction (env : Env) (m : String) (oid : ObjectId) (txnType : String)
    (amount : ℚ) (note : String) :
    (∃ b, Outcome.newBalance <$> addTransaction env m oid.str txnType amount note = .ret b) ∨
      Checking oid m (env.objectId 0)
        (Outcome.newBalance <$> addTransaction env m oid.str txnType amount note) := by
  rw [addTransaction_eq, ObjectId.ofString?_str]
  split
  · exact .inl ⟨_, rfl⟩
  cases TxnType.ofString? txnType with
  | none => exact .inl ⟨_, rfl⟩
  | some type =>
    refine .inr ⟨_, rfl, ⟨_, rfl⟩, fun c => ?_⟩
    exact ⟨_, _, rfl, rfl, rfl, fun e => ⟨e, rfl⟩, closing_conclude _ oid _ _ _⟩

/-- Where the call that deletes starts. -/
theorem removing_deleteCustomer (oid : ObjectId) (m : String) :
    Removing oid m (Outcome.done <$> deleteCustomer oid.str m) := by
  rw [deleteCustomer, objectId_eq_ret (ObjectId.ofString?_str oid)]
  exact ⟨_, rfl, ⟨_, rfl⟩, ⟨_, rfl, fun n => ⟨_, rfl⟩⟩⟩

end Places

/-! ### What their steps do -/

/-- The identifier and the merchant of each customer. -/
def Store.accounts (s : Store) : List (ObjectId × String) :=
  s.customers.docs.map fun c => (c.id, c.merchantId)

/-- No transaction has the identifier. -/
def Store.Free (s : Store) (tid : ObjectId) : Prop := ∀ t ∈ s.transactions.docs, t.id ≠ tid

theorem mem_accounts {s : Store} {c : Customer} (hc : c ∈ s.customers.docs) :
    (c.id, c.merchantId) ∈ s.accounts := List.mem_map_of_mem hc

theorem not_mem_accounts {s : Store} {oid : ObjectId} {m : String}
    (hfind : s.customers.findOne { id := some oid, merchantId := some m } = none) :
    (oid, m) ∉ s.accounts := by
  intro hmem
  obtain ⟨c, hc, hcm⟩ := List.mem_map.mp hmem
  obtain ⟨hid, hm⟩ := Prod.mk.inj hcm
  rw [findOne_customer_merchant.mpr ⟨hc, hid, hm⟩] at hfind
  exact absurd hfind (by simp)

/-- A gentle call is answered, and it leaves the transactions and the identities of
the customers alone. -/
theorem DbCall.Gentle.frame {c : DbCall} (hc : c.Gentle) (s : Store) :
    (∃ r, (exec c s).1 = .ok r) ∧ (exec c s).2.transactions = s.transactions ∧
      (exec c s).2.accounts = s.accounts := by
  cases c with
  | transactions op =>
    cases op with
    | find q => exact ⟨⟨_, rfl⟩, rfl, rfl⟩
    | findOne q => exact hc.elim
    | insertOne d => exact hc.elim
    | updateOne q u => exact hc.elim
    | deleteOne q => exact hc.elim
    | deleteMany q => exact hc.elim
  | customers op =>
    cases op with
    | findOne q => exact ⟨⟨_, rfl⟩, rfl, rfl⟩
    | updateOne q u => exact ⟨⟨_, rfl⟩, rfl, map_updateOne (fun _ => rfl) q s.customers⟩
    | find q => exact hc.elim
    | insertOne d => exact hc.elim
    | deleteOne q => exact hc.elim
    | deleteMany q => exact hc.elim

section Steps

variable {ι α : Type} [DecidableEq ι] {x : Sessions ι α} {i : ι}
  {oid : ObjectId} {m : String} {tid : ObjectId}

theorem Checking.step (h : Checking oid m tid (x.sessions i).rest) :
    (x.step exec i).store = x.store ∧
      ((∃ a, ((x.step exec i).sessions i).outcome = some (.ok a)) ∨
        (oid, m) ∈ x.store.accounts ∧ Inserting oid tid ((x.step exec i).sessions i).rest) := by
  obtain ⟨k, hrest, ⟨a, hnone⟩, hsome⟩ := h
  rw [System.store_step_call hrest, System.sessions_step_self hrest, exec_customers_findOne]
  refine ⟨rfl, ?_⟩
  cases hfind : x.store.customers.findOne { id := some oid, merchantId := some m } with
  | none => exact .inl ⟨a, Session.outcome_ret hnone⟩
  | some c =>
    obtain ⟨hc, rfl, rfl⟩ := findOne_customer_merchant.mp hfind
    exact .inr ⟨mem_accounts hc, hsome c⟩

theorem Inserting.step (h : Inserting oid tid (x.sessions i).rest) :
    (¬x.store.Free tid ∧ (x.step exec i).store = x.store ∧
      ∃ e, ((x.step exec i).sessions i).outcome = some (.error e)) ∨
    ∃ t T, t.id = tid ∧ t.customerId = oid.str ∧ x.store.transactions.insertOne t = some T ∧
      (x.step exec i).store = { x.store with transactions := T } ∧
        Closing oid ((x.step exec i).sessions i).rest := by
  obtain ⟨t, k, hrest, htid, hcid, herror, hok⟩ := h
  rw [System.store_step_call hrest, System.sessions_step_self hrest]
  cases hT : x.store.transactions.insertOne t with
  | none =>
    obtain ⟨t', ht', hid⟩ := insertOne_eq_none.mp hT
    obtain ⟨e, he⟩ := herror .duplicateKeyError
    rw [exec_transactions_insertOne_none x.store hT]
    exact .inl ⟨fun hfree => hfree t' ht' (Eq.trans hid htid), rfl, e, Session.outcome_raise he⟩
  | some T =>
    rw [exec_transactions_insertOne x.store hT]
    exact .inr ⟨t, T, htid, hcid, hT, rfl, hok⟩

theorem Closing.step_cases (h : Closing oid (x.sessions i).rest) :
    (x.step exec i).store.transactions = x.store.transactions ∧
    (x.step exec i).store.accounts = x.store.accounts ∧
      (Closing oid ((x.step exec i).sessions i).rest ∨
        (∃ e, ((x.step exec i).sessions i).outcome = some (.error e)) ∧
          (∀ p ∈ x.store.accounts, p.1 ≠ oid) ∨
        (∃ a, ((x.step exec i).sessions i).outcome = some (.ok a)) ∧
          ∃ p ∈ x.store.accounts, p.1 = oid) := by
  generalize hp : (x.sessions i).rest = p at h
  cases h with
  | @last k hnone hsome =>
    rw [System.store_step_call hp, System.sessions_step_self hp, exec_customers_findOne]
    refine ⟨rfl, rfl, .inr ?_⟩
    cases hfind : x.store.customers.findOne { id := some oid } with
    | none =>
      -- `None` has no `get`: the customer is gone, whoever its merchant was
      obtain ⟨e, he⟩ := hnone
      refine .inl ⟨⟨e, Session.outcome_raise he⟩, fun p hp hid => ?_⟩
      obtain ⟨c, hc, rfl⟩ := List.mem_map.mp hp
      rw [findOne_customer.mpr ⟨hc, hid⟩] at hfind
      exact absurd hfind (by simp)
    | some c =>
      obtain ⟨hc, rfl⟩ := findOne_customer.mp hfind
      obtain ⟨a, ha⟩ := hsome c
      exact .inr ⟨⟨a, Session.outcome_ret ha⟩, _, mem_accounts hc, rfl⟩
  | @step c k hc hk =>
    obtain ⟨⟨r, hr⟩, hT, hC⟩ := hc.frame x.store
    rw [System.store_step_call hp, System.sessions_step_self hp]
    refine ⟨hT, hC, .inl ?_⟩
    dsimp only
    rw [hr]
    exact hk r

theorem Removing.step (h : Removing oid m (x.sessions i).rest) :
    ((oid, m) ∉ x.store.accounts ∧ (x.step exec i).store = x.store ∧
      ∃ a, ((x.step exec i).sessions i).outcome = some (.ok a)) ∨
    (x.step exec i).store = { x.store with
        customers := x.store.customers.deleteOne { id := some oid, merchantId := some m } } ∧
      Sweeping oid ((x.step exec i).sessions i).rest := by
  obtain ⟨k, hrest, ⟨a, hzero⟩, hsweep⟩ := h
  rw [System.store_step_call hrest, System.sessions_step_self hrest, exec_customers_deleteOne]
  cases hfind : x.store.customers.findOne { id := some oid, merchantId := some m } with
  | none =>
    refine .inl ⟨not_mem_accounts hfind, ?_, a, Session.outcome_ret hzero⟩
    dsimp only
    rw [deleteOne_of_findOne_eq_none hfind]
  | some c => exact .inr ⟨rfl, hsweep⟩

theorem Sweeping.step (h : Sweeping oid (x.sessions i).rest) :
    (x.step exec i).store = { x.store with
        transactions := x.store.transactions.deleteMany { customerId := some oid.str } } ∧
      ∃ a, ((x.step exec i).sessions i).outcome = some (.ok a) := by
  obtain ⟨k, hrest, hret⟩ := h
  rw [System.store_step_call hrest, System.sessions_step_self hrest, exec_transactions_deleteMany]
  obtain ⟨a, ha⟩ := hret (x.store.transactions.find { customerId := some oid.str }).length
  exact ⟨rfl, a, Session.outcome_ret ha⟩

/-! ### A recording while the customer is stored -/

/-- How a session that records the transaction `tid` can stand as long as its customer
has not gone under its hands. -/
inductive Recording (oid : ObjectId) (m : String) (tid : ObjectId) (s : Store)
    (y : Session DbCall DbCall.Answer Exn α) : Prop
  | ended {a : α} (h : y.outcome = some (.ok a))
  | checking (h : Checking oid m tid y.rest) (hseen : y.seen = []) (hfree : s.Free tid)
  | inserting (h : Inserting oid tid y.rest) (hflight : y.InFlight) (hfree : s.Free tid)
      (hcustomer : (oid, m) ∈ s.accounts)
  | closing (h : Closing oid y.rest) (hflight : y.InFlight) (hcustomer : (oid, m) ∈ s.accounts)

/-- **A step of a recording**: it never raises, and it adds no transaction but its own,
and that one only for a stored customer. -/
theorem Recording.step (h : Recording oid m tid x.store (x.sessions i)) :
    Recording oid m tid (x.step exec i).store ((x.step exec i).sessions i) ∧
      (x.step exec i).store.accounts = x.store.accounts ∧
        ∀ t ∈ (x.step exec i).store.transactions.docs, t ∈ x.store.transactions.docs ∨
          t.id = tid ∧ t.customerId = oid.str ∧ (oid, m) ∈ x.store.accounts := by
  cases h with
  | ended h =>
    rw [System.step_of_outcome h]
    exact ⟨.ended h, rfl, fun t ht => .inl ht⟩
  | checking h hseen hfree =>
    obtain ⟨hstore, ⟨a, ha⟩ | ⟨hcustomer, hins⟩⟩ := h.step
    · rw [hstore]
      exact ⟨.ended ha, rfl, fun t ht => .inl ht⟩
    · have hflight := System.inFlight_step hins.outcome
      rw [hstore]
      exact ⟨.inserting hins hflight hfree hcustomer, rfl, fun t ht => .inl ht⟩
  | inserting h hflight hfree hcustomer =>
    -- the identifier is free, so the insertion is not refused
    rcases h.step with ⟨htaken, -⟩ | ⟨t, T, htid, hcid, hT, hstore, hclosing⟩
    · exact absurd hfree htaken
    · have hflight' := System.inFlight_step hclosing.outcome
      rw [hstore]
      refine ⟨.closing hclosing hflight' hcustomer, rfl, fun t' ht' => ?_⟩
      have hmem : t' ∈ T.docs := ht'
      rw [docs_insertOne hT, List.mem_append, List.mem_singleton] at hmem
      rcases hmem with hmem | rfl
      · exact .inl hmem
      · exact .inr ⟨htid, hcid, hcustomer⟩
  | closing h hflight hcustomer =>
    -- the customer is still there, so the last look at it cannot fail
    obtain ⟨hT, hacc, hclosing | ⟨-, hgone⟩ | ⟨⟨a, ha⟩, -⟩⟩ := h.step_cases
    · have hflight' := System.inFlight_step hclosing.outcome
      refine ⟨.closing hclosing hflight' (hacc ▸ hcustomer), hacc, fun t ht => .inl ?_⟩
      rw [← hT]
      exact ht
    · exact absurd rfl (hgone _ hcustomer)
    · refine ⟨.ended ha, hacc, fun t ht => .inl ?_⟩
      rw [← hT]
      exact ht

/-- A step of another session that leaves the customers alone and does not take the
identifier leaves a recording as it is. -/
theorem Recording.of_store {s s' : Store} {y : Session DbCall DbCall.Answer Exn α}
    (h : Recording oid m tid s y) (hacc : s'.accounts = s.accounts)
    (hfree : s.Free tid → s'.Free tid) : Recording oid m tid s' y := by
  cases h with
  | ended h => exact .ended h
  | checking h hseen hfree' => exact .checking h hseen (hfree hfree')
  | inserting h hflight hfree' hcustomer =>
    exact .inserting h hflight (hfree hfree') (hacc ▸ hcustomer)
  | closing h hflight hcustomer => exact .closing h hflight (hacc ▸ hcustomer)

/-- A recording that is not under way does not depend on the customers. -/
theorem Recording.of_not_inFlight {s s' : Store} {y : Session DbCall DbCall.Answer Exn α}
    (h : Recording oid m tid s y) (hflight : ¬y.InFlight) (hfree : s.Free tid → s'.Free tid) :
    Recording oid m tid s' y := by
  cases h with
  | ended h => exact .ended h
  | checking h hseen hfree' => exact .checking h hseen (hfree hfree')
  | inserting h hflight' hfree' hcustomer => exact absurd hflight' hflight
  | closing h hflight' hcustomer => exact absurd hflight' hflight

/-- A recording that has ended has not raised. -/
theorem Recording.exists_ok {s : Store} {y : Session DbCall DbCall.Answer Exn α}
    (h : Recording oid m tid s y) (hended : y.outcome ≠ none) : ∃ a, y.outcome = some (.ok a) := by
  cases h with
  | ended h => exact ⟨_, h⟩
  | checking h hseen hfree => exact absurd h.outcome hended
  | inserting h hflight hfree hcustomer => exact absurd h.outcome hended
  | closing h hflight hcustomer => exact absurd h.outcome hended

end Steps

/-! ### The customer goes while no recording is under way -/

section Removals

variable {κ α : Type} {x : Sessions (Option κ) α} {oid : ObjectId} {m : String}
  {tids : κ → ObjectId}

/-- Every transaction refers to a stored customer. -/
def Store.Refers (s : Store) : Prop :=
  ∀ t ∈ s.transactions.docs, ∃ p ∈ s.accounts, t.customerId = p.1.str

/-- If session `none` is about to delete the customer, no session `some k` that records
has begun and not ended. -/
def DeletesAlone (x : Sessions (Option κ) α) (i : Option κ) : Prop :=
  i = none → (x.sessions none).seen = [] → ∀ k, ¬(x.sessions (some k)).InFlight

/-- What holds as long as the customer goes while no recording is under way: before it
is deleted, between the two deletions, and after them. -/
inductive Orderly (oid : ObjectId) (m : String) (tids : κ → ObjectId)
    (x : Sessions (Option κ) α) : Prop
  | before (h : Removing oid m (x.sessions none).rest) (hseen : (x.sessions none).seen = [])
      (hadds : ∀ k, Recording oid m (tids k) x.store (x.sessions (some k)))
      (hrefers : x.store.Refers)
  | between (h : Sweeping oid (x.sessions none).rest)
      (hadds : ∀ k, Recording oid m (tids k) x.store (x.sessions (some k)))
      (hgone : (oid, m) ∉ x.store.accounts)
      (hrefers : ∀ t ∈ x.store.transactions.docs,
        t.customerId = oid.str ∨ ∃ p ∈ x.store.accounts, t.customerId = p.1.str)
  | after {a : α} (h : (x.sessions none).outcome = some (.ok a))
      (hadds : ∀ k, Recording oid m (tids k) x.store (x.sessions (some k)))
      (hgone : (oid, m) ∉ x.store.accounts) (hrefers : x.store.Refers)

theorem mem_accounts_deleteOne {s : Store} {p : ObjectId × String} :
    p ∈ Store.accounts { s with
        customers := s.customers.deleteOne { id := some oid, merchantId := some m } } ↔
      p ∈ s.accounts ∧ p ≠ (oid, m) := by
  constructor
  · intro hp
    obtain ⟨c, hc, rfl⟩ := List.mem_map.mp hp
    obtain ⟨hc, hne⟩ := mem_customers_deleteOne.mp hc
    exact ⟨mem_accounts hc, fun heq => hne (Prod.mk.inj heq)⟩
  · rintro ⟨hp, hne⟩
    obtain ⟨c, hc, rfl⟩ := List.mem_map.mp hp
    have hc' := mem_customers_deleteOne.mpr ⟨hc, fun heq => hne (Prod.ext heq.1 heq.2)⟩
    exact List.mem_map_of_mem hc'

variable [DecidableEq κ]

/-- A step of one recording keeps them all. -/
theorem recordings_step (htids : Function.Injective tids)
    (hadds : ∀ k, Recording oid m (tids k) x.store (x.sessions (some k))) (k j : κ) :
    Recording oid m (tids j) (x.step exec (some k)).store
      ((x.step exec (some k)).sessions (some j)) := by
  obtain ⟨hk, hacc, hdocs⟩ := (hadds k).step
  by_cases hjk : j = k
  · subst hjk
    exact hk
  · have hne : (some j : Option κ) ≠ some k := fun heq => hjk (Option.some.inj heq)
    rw [System.sessions_step_of_ne hne]
    refine (hadds j).of_store hacc fun hfree t ht => ?_
    rcases hdocs t ht with ht | ⟨hid, -⟩
    · exact hfree t ht
    · intro heq
      exact hjk (htids (heq.symm.trans hid))

/-- A step of the deletion. -/
theorem Orderly.step_none (hx : Orderly oid m tids x)
    (halone : (x.sessions none).seen = [] → ∀ k, ¬(x.sessions (some k)).InFlight) :
    Orderly oid m tids (x.step exec none) := by
  have hothers : ∀ k, (x.step exec none).sessions (some k) = x.sessions (some k) := fun k =>
    System.sessions_step_of_ne (Option.some_ne_none k)
  cases hx with
  | before h hseen hadds hrefers =>
    rcases h.step with ⟨hgone, hstore, a, ha⟩ | ⟨hstore, hsweep⟩
    · -- there is no such customer: the call ends without a second deletion
      refine .after ha (fun k => ?_) (hstore ▸ hgone) (hstore ▸ hrefers)
      rw [hothers, hstore]
      exact hadds k
    · refine .between hsweep (fun k => ?_) ?_ fun t ht => ?_
      · -- no recording relies on the customer, because none is under way
        rw [hothers, hstore]
        exact (hadds k).of_not_inFlight (halone hseen k) id
      · rw [hstore, mem_accounts_deleteOne]
        exact fun hmem => hmem.2 rfl
      · rw [hstore] at ht ⊢
        obtain ⟨p, hp, hcid⟩ := hrefers t ht
        by_cases heq : p = (oid, m)
        · subst heq
          exact .inl hcid
        · exact .inr ⟨p, mem_accounts_deleteOne.mpr ⟨hp, heq⟩, hcid⟩
  | between h hadds hgone hrefers =>
    obtain ⟨hstore, a, ha⟩ := h.step
    refine .after ha (fun k => ?_) ?_ fun t ht => ?_
    · rw [hothers, hstore]
      exact (hadds k).of_store rfl fun hfree t ht => hfree t (mem_deleteMany.mp ht).1
    · rw [hstore]
      exact hgone
    · rw [hstore] at ht ⊢
      obtain ⟨ht, hother⟩ := mem_deleteMany.mp ht
      rcases hrefers t ht with hcid | href
      · rw [test_transaction_customer.mpr hcid] at hother
        exact absurd hother (by simp)
      · exact href
  | after h hadds hgone hrefers =>
    rw [System.step_of_outcome h]
    exact .after h hadds hgone hrefers

/-- A step of a recording. -/
theorem Orderly.step_some (htids : Function.Injective tids) (hx : Orderly oid m tids x) (k : κ) :
    Orderly oid m tids (x.step exec (some k)) := by
  have hnone : (x.step exec (some k)).sessions none = x.sessions none :=
    System.sessions_step_of_ne (Option.some_ne_none k).symm
  cases hx with
  | before h hseen hadds hrefers =>
    obtain ⟨-, hacc, hdocs⟩ := (hadds k).step
    refine .before (hnone ▸ h) (hnone ▸ hseen) (recordings_step htids hadds k) fun t ht => ?_
    rw [hacc]
    rcases hdocs t ht with ht | ⟨-, hcid, hcustomer⟩
    · exact hrefers t ht
    · exact ⟨_, hcustomer, hcid⟩
  | between h hadds hgone hrefers =>
    obtain ⟨-, hacc, hdocs⟩ := (hadds k).step
    refine .between (hnone ▸ h) (recordings_step htids hadds k) (hacc ▸ hgone) fun t ht => ?_
    rw [hacc]
    rcases hdocs t ht with ht | ⟨-, hcid, -⟩
    · exact hrefers t ht
    · -- the second deletion is still to come
      exact .inl hcid
  | after h hadds hgone hrefers =>
    obtain ⟨-, hacc, hdocs⟩ := (hadds k).step
    refine .after (hnone ▸ h) (recordings_step htids hadds k) (hacc ▸ hgone) fun t ht => ?_
    rw [hacc]
    rcases hdocs t ht with ht | ⟨-, -, hcustomer⟩
    · exact hrefers t ht
    · -- a recording inserts for a stored customer only, and this one is gone
      exact absurd hcustomer hgone

/-- **A step that does not delete the customer while a recording is under way keeps
the order.** -/
theorem Orderly.step (htids : Function.Injective tids) (hx : Orderly oid m tids x)
    (i : Option κ) (halone : DeletesAlone x i) : Orderly oid m tids (x.step exec i) := by
  cases i with
  | none => exact hx.step_none (halone rfl)
  | some k => exact hx.step_some htids k

end Removals

/-! ### The customer goes while a recording is under way -/

theorem DbCall.RegistersNone.accounts_subset {c : DbCall} (hc : c.RegistersNone) (s : Store) :
    (exec c s).2.accounts ⊆ s.accounts := by
  cases c with
  | transactions op => cases op <;> exact List.Subset.refl _
  | customers op =>
    cases op with
    | findOne q => exact List.Subset.refl _
    | find q => exact List.Subset.refl _
    | insertOne d => exact hc.elim
    | updateOne q u =>
      have hsame : (exec (.customers (.updateOne q u)) s).2.accounts = s.accounts :=
        map_updateOne (fun _ => rfl) q s.customers
      rw [hsame]
      exact List.Subset.refl _
    | deleteOne q => exact (List.eraseP_sublist.map _).subset
    | deleteMany q => exact (List.filter_sublist.map _).subset

section Doom

variable {ι α : Type} {x : Sessions ι α} {j : ι} {oid tid : ObjectId}

/-- The customer of recording `j` is gone for good, and the recording is on its way to
the exception. -/
structure Doomed (oid tid : ObjectId) (j : ι) (x : Sessions ι α) : Prop where
  gone : ∀ p ∈ x.store.accounts, p.1 ≠ oid
  uses : ∀ i, Uses DbCall.RegistersNone (x.sessions i).rest
  fate : Inserting oid tid (x.sessions j).rest ∨ Closing oid (x.sessions j).rest ∨
    ∃ e, (x.sessions j).outcome = some (.error e)

variable [DecidableEq ι]

/-- No step brings the customer back. -/
theorem accounts_step_subset (huses : ∀ i, Uses DbCall.RegistersNone (x.sessions i).rest) (i : ι) :
    (x.step exec i).store.accounts ⊆ x.store.accounts := by
  have hi := huses i
  cases hrest : (x.sessions i).rest with
  | call c k =>
    rw [hrest] at hi
    rw [System.store_step_call hrest]
    exact hi.head.accounts_subset x.store
  | ret a =>
    rw [System.step_of_outcome (Session.outcome_ret hrest)]
    exact List.Subset.refl _
  | raise e =>
    rw [System.step_of_outcome (Session.outcome_raise hrest)]
    exact List.Subset.refl _

/-- **A doomed recording stays doomed**: whatever steps are taken, it ends by raising. -/
theorem Doomed.step (hx : Doomed oid tid j x) (i : ι) : Doomed oid tid j (x.step exec i) where
  gone p hp := hx.gone p (accounts_step_subset hx.uses i hp)
  uses := System.uses_step hx.uses i
  fate := by
    by_cases hji : j = i
    · subst hji
      rcases hx.fate with hins | hclosing | ⟨e, he⟩
      · rcases hins.step with ⟨-, -, herror⟩ | ⟨t, T, -, -, -, -, hclosing⟩
        · exact .inr (.inr herror)
        · exact .inr (.inl hclosing)
      · obtain ⟨-, -, hclosing | ⟨herror, -⟩ | ⟨-, p, hp, hid⟩⟩ := hclosing.step_cases
        · exact .inr (.inl hclosing)
        · exact .inr (.inr herror)
        · exact absurd hid (hx.gone p hp)
      · rw [System.step_of_outcome he]
        exact .inr (.inr ⟨e, he⟩)
    · rw [System.sessions_step_of_ne hji]
      exact hx.fate

end Doom

/-! ### Every interleaving -/

section Interleavings

variable {κ : Type} {bcrypt : Bcrypt} {s : Store} {oid : ObjectId} {m : String}

/-- The call `none` deletes the customer, the calls `some k` record transactions for it. -/
def removalCalls (oid : ObjectId) (m : String) (env : κ → Env) (txnType : κ → String)
    (amount : κ → ℚ) (note : κ → String) : Option κ → Call
  | none => .deleteCustomer oid.str m
  | some k => .addTransaction (env k) m oid.str (txnType k) (amount k) (note k)

variable {env : κ → Env} {txnType : κ → String} {amount : κ → ℚ} {note : κ → String}

theorem uses_removalCalls (i : Option κ) :
    Uses DbCall.RegistersNone ((removalCalls oid m env txnType amount note i).code bcrypt) := by
  cases i with
  | none => exact (uses_deleteCustomer (fun _ => trivial) (fun _ => trivial) _ _).map _
  | some k =>
    exact Uses.map _ (uses_addTransaction (fun c hc => hc.registersNone) (fun _ _ _ => trivial)
      _ (fun _ _ _ _ _ _ => trivial) _ _ _ _ _)

/-- The interleaving starts in order. -/
theorem orderly_start (hs : Consistent s)
    (hfree : ∀ k, s.Free ((env k).objectId 0)) :
    Orderly oid m (fun k => (env k).objectId 0) (System.start s fun i =>
      (removalCalls oid m env txnType amount note i).code bcrypt) := by
  refine .before (removing_deleteCustomer oid m) rfl (fun k => ?_) fun t ht => ?_
  · rcases checking_addTransaction (env k) m oid (txnType k) (amount k) (note k) with
      ⟨b, hret⟩ | hcheck
    · exact .ended (Session.outcome_ret hret)
    · exact .checking hcheck rfl (hfree k)
  · obtain ⟨c, hc, hcid, -⟩ := hs.refers t ht
    exact ⟨_, mem_accounts hc, hcid⟩

/-- In the middle of an orderly interleaving a recording under way has a stored customer,
and it is doomed once that is deleted. -/
theorem Orderly.doomed [DecidableEq κ] {tids : κ → ObjectId} {x : Sessions (Option κ) Outcome}
    (hx : Orderly oid m tids x) (huses : ∀ i, Uses DbCall.RegistersNone (x.sessions i).rest)
    {k : κ} (hflight : (x.sessions (some k)).InFlight) :
    Doomed oid (tids k) (some k) (x.step exec none) := by
  have hk : Recording oid m (tids k) x.store (x.sessions (some k)) := by
    cases hx with
    | before h hseen hadds hrefers => exact hadds k
    | between h hadds hgone hrefers => exact hadds k
    | after h hadds hgone hrefers => exact hadds k
  have hplace : (oid, m) ∈ x.store.accounts ∧ (Inserting oid (tids k) (x.sessions (some k)).rest ∨
      Closing oid (x.sessions (some k)).rest) := by
    cases hk with
    | ended h => exact absurd (hflight.2.symm.trans h) (by simp)
    | checking h hseen hfree => exact absurd hseen hflight.1
    | inserting h hflight hfree hcustomer => exact ⟨hcustomer, .inl h⟩
    | closing h hflight hcustomer => exact ⟨hcustomer, .inr h⟩
  obtain ⟨hcustomer, hplace⟩ := hplace
  cases hx with
  | between h hadds hgone hrefers => exact absurd hcustomer hgone
  | after h hadds hgone hrefers => exact absurd hcustomer hgone
  | before h hseen hadds hrefers =>
    obtain ⟨kont, hrest, -⟩ := h
    refine ⟨fun p hp hid => ?_, System.uses_step huses none, ?_⟩
    · -- the identifier belongs to the deleted customer alone
      rw [System.store_step_call hrest] at hp
      obtain ⟨hp, hne⟩ := mem_accounts_deleteOne.mp hp
      obtain ⟨c, hc, rfl⟩ := List.mem_map.mp hp
      obtain ⟨c', hc', hcm⟩ := List.mem_map.mp hcustomer
      obtain ⟨hid', hm⟩ := Prod.mk.inj hcm
      rw [customer_eq_of_id hc hc' (Eq.trans hid hid'.symm)] at hne
      exact hne hcm
    · rw [System.sessions_step_of_ne (Option.some_ne_none k)]
      rcases hplace with hins | hclosing
      · exact .inl hins
      · exact .inr (.inl hclosing)

/-- If the customer goes while some recording is under way, the run dooms a recording. -/
theorem exists_doomed [DecidableEq κ] {tids : κ → ObjectId} (htids : Function.Injective tids)
    {start : Sessions (Option κ) Outcome} (hstart : Orderly oid m tids start)
    (huses : ∀ i, Uses DbCall.RegistersNone (start.sessions i).rest) {sched : List (Option κ)}
    (halong : ¬System.Along exec DeletesAlone start sched) :
    ∃ k, Doomed oid (tids k) (some k) (System.run exec start sched) := by
  obtain ⟨before, i, after, rfl, hbefore, hi⟩ := System.exists_of_not_along halong
  simp only [DeletesAlone, not_forall, not_not] at hi
  obtain ⟨rfl, -, k, hflight⟩ := hi
  -- up to the first such deletion the interleaving is in order
  have horder : Orderly oid m tids (System.run exec start before) :=
    System.run_invariant (fun y i halone hy => hy.step htids i halone) hbefore hstart
  have huses' : ∀ i, Uses DbCall.RegistersNone ((System.run exec start before).sessions i).rest :=
    System.run_preserves (I := fun y => ∀ i, Uses DbCall.RegistersNone (y.sessions i).rest)
      (fun y i hy => System.uses_step hy i) huses before
  -- after it the recording under way is doomed, and it stays so
  have hrun : System.run exec start (before ++ none :: after) =
      System.run exec ((System.run exec start before).step exec none) after :=
    System.run_append exec _ _ _
  refine ⟨k, ?_⟩
  rw [hrun]
  exact System.run_preserves (fun y i hy => hy.step i) (horder.doomed huses' hflight) after

/-- **No transaction is left behind and no recording ends in an exception if and only if
no recording is under way when the customer is deleted.** -/
theorem removal_iff [DecidableEq κ] (h : Reachable bcrypt s)
    (hfree : ∀ k, ∀ t ∈ s.transactions.docs, t.id ≠ (env k).objectId 0)
    (hids : Function.Injective fun k => (env k).objectId 0) (sched : List (Option κ)) :
    let start := System.start s fun i => (removalCalls oid m env txnType amount note i).code bcrypt
    let x := System.run exec start sched
    x.Finished →
      (((∀ t ∈ x.store.transactions.docs, ∃ c ∈ x.store.customers.docs, t.owner = some c.id) ∧
        ∀ k, ∃ b, (x.sessions (some k)).outcome = some (.ok b)) ↔
      System.Along exec DeletesAlone start sched) := by
  intro start x hfinished
  have hstart : Orderly oid m (fun k => (env k).objectId 0) start :=
    orderly_start h.consistent hfree
  constructor
  · rintro ⟨-, hended⟩
    by_contra halong
    obtain ⟨k, hdoomed⟩ :=
      exists_doomed hids hstart (fun i => uses_removalCalls i) halong
    obtain ⟨b, hb⟩ := hended k
    rcases hdoomed.fate with hins | hclosing | ⟨e, he⟩
    · exact hfinished _ hins.outcome
    · exact hfinished _ hclosing.outcome
    · exact absurd (hb.symm.trans he) (by simp)
  · intro halong
    have horder : Orderly oid m (fun k => (env k).objectId 0) x :=
      System.run_invariant (fun y i halone hy => hy.step hids i halone) halong hstart
    cases horder with
    | before h hseen hadds hrefers => exact absurd h.outcome (hfinished none)
    | between h hadds hgone hrefers => exact absurd h.outcome (hfinished none)
    | after h hadds hgone hrefers =>
      refine ⟨fun t ht => ?_, fun k => (hadds k).exists_ok (hfinished _)⟩
      obtain ⟨p, hp, hcid⟩ := hrefers t ht
      obtain ⟨c, hc, rfl⟩ := List.mem_map.mp hp
      refine ⟨c, hc, ?_⟩
      rw [TransactionDoc.owner, hcid, ObjectId.ofString?_str]

/-- Two credits are recorded for the customer of the sample ledger and it is deleted. -/
def sampleRemoval : Option Bool → Call :=
  removalCalls (ObjectId.ofNat 1) "m" (fun k => .sample (if k then 5 else 4) 0)
    (fun _ => "credit") (fun _ => 10) (fun _ => "")

/-- One credit is recorded before the deletion, the other one comes after it. -/
theorem removal_iff_sample :
    let start := System.start sampleStore fun i => (sampleRemoval i).code markingBcrypt
    let sched := List.replicate 7 (some false) ++ [none, some true, none]
    let x := System.run exec start sched
    ((∀ t ∈ x.store.transactions.docs, ∃ c ∈ x.store.customers.docs, t.owner = some c.id) ∧
      ∀ k, ∃ b, (x.sessions (some k)).outcome = some (.ok b)) ↔
      System.Along exec DeletesAlone start sched := by
  refine removal_iff sampleStore_reachable ?_ ?_ _ ?_
  · decide +kernel
  · decide +kernel
  · decide +kernel

/-- **A customer deleted under a recording**: the deletion falls between the lookup and the
insertion, and the transaction stays behind. -/
theorem removal_orphans :
    ¬∀ (bcrypt : Bcrypt) (s : Store), Reachable bcrypt s →
      ∀ (oid : ObjectId) (m : String) (env : Bool → Env) (txnType : Bool → String)
        (amount : Bool → ℚ) (note : Bool → String),
        (∀ k, ∀ t ∈ s.transactions.docs, t.id ≠ (env k).objectId 0) →
        (Function.Injective fun k => (env k).objectId 0) → ∀ sched : List (Option Bool),
          let x := System.run exec (System.start s fun i =>
            (removalCalls oid m env txnType amount note i).code bcrypt) sched
          x.Finished →
            (∀ t ∈ x.store.transactions.docs, ∃ c ∈ x.store.customers.docs,
              t.owner = some c.id) ∧
            ∀ k, ∃ b, (x.sessions (some k)).outcome = some (.ok b) := by
  intro hclaim
  have hsound := hclaim markingBcrypt sampleStore sampleStore_reachable (ObjectId.ofNat 1) "m"
    (fun k => .sample (if k then 5 else 4) 0) (fun _ => "credit") (fun _ => 10) (fun _ => "")
    (by decide +kernel) (by decide +kernel)
    (some false :: none :: none :: some true :: List.replicate 4 (some false))
    (by decide +kernel)
  refine absurd hsound.1 ?_
  decide +kernel

end Interleavings

end DigitalLedger
