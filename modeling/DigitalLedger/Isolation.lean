import DigitalLedger.Lib.Purge
import DigitalLedger.Moves

/-!
# Merchants are isolated from each other

Several statements of the application are not filtered by merchant: an edit or a
deletion moves the figures of the customer its transaction names, `delete_customer`
removes transactions by their customer alone, and the scoring reads them so.  They stay
with one merchant all the same, because a transaction has the merchant of its customer:
under that invariant every call on the database that an operation makes selects documents
of the calling merchant only.  What a merchant sees then depends on its own calls alone.

## Main definitions

* `Store.view m s` — the documents of the merchant `m`.
* `Store.Divided` — a transaction has the merchant of its customer.
* `DbCall.Confined m ids c s` — the call selects and inserts documents of `m` only.

## Main results

* `exec_view`, `view_exec_of_ne` — a confined call on the view of its merchant, and on
  the view of another one.
* `Call.confined` — the calls of the application are confined.
* `isolation` — removing the calls of the other merchants from a run changes neither the
  outcomes of a merchant's calls nor what it reads at the end.
-/

namespace DigitalLedger

open Collection Prog

/-! ### The view of a merchant -/

/-- The documents of a merchant. -/
def Store.view (m : String) (s : Store) : Store where
  customers := s.customers.restrict fun c => c.merchantId = m
  transactions := s.transactions.restrict fun t => t.merchantId = m

/-- A transaction has the merchant of its customer. -/
def Store.Divided (s : Store) : Prop :=
  ∀ t ∈ s.transactions.docs, ∀ c ∈ s.customers.docs, t.owner = some c.id →
    t.merchantId = c.merchantId

/-- No document has the identifier, and no transaction refers to it. -/
structure Store.Unused (s : Store) (oid : ObjectId) : Prop where
  customer : ∀ c ∈ s.customers.docs, c.id ≠ oid
  transaction : ∀ t ∈ s.transactions.docs, t.id ≠ oid
  owner : ∀ t ∈ s.transactions.docs, t.owner ≠ some oid

/-- The identifier belongs to a customer of `m`, if to any. -/
def Store.Owns (s : Store) (m : String) (oid : ObjectId) : Prop :=
  ∀ c ∈ s.customers.docs, c.id = oid → c.merchantId = m

/-- The call selects and inserts documents of the merchant `m` only; what it inserts has
an unused identifier of `ids`, and an inserted transaction is that of a customer. -/
def DbCall.Confined (m : String) (ids : List ObjectId) : DbCall → Store → Prop
  | .customers op, s =>
    op.Within (fun c => decide (c.merchantId = m)) s.customers ∧
      op.Inserts fun c => c.id ∈ ids ∧ s.Unused c.id
  | .transactions op, s =>
    op.Within (fun t => decide (t.merchantId = m)) s.transactions ∧
      op.Inserts fun t => t.id ∈ ids ∧
        ∃ c ∈ s.customers.docs, t.owner = some c.id ∧ c.merchantId = m

theorem divided_empty : Store.empty.Divided := fun _ ht => absurd ht List.not_mem_nil

theorem unused_empty (oid : ObjectId) : Store.empty.Unused oid where
  customer _ hc := absurd hc List.not_mem_nil
  transaction _ ht := absurd ht List.not_mem_nil
  owner _ ht := absurd ht List.not_mem_nil

section Calls

variable {m n : String} {ids : List ObjectId} {c : DbCall} {s : Store}

/-- A confined call is answered the same on the view of its merchant. -/
theorem exec_view (hc : c.Confined m ids s) :
    exec c (s.view m) = ((exec c s).1, (exec c s).2.view m) := by
  cases c with
  | customers op =>
    have hop := Op.exec_restrict Exn.duplicateKeyError (fun _ _ => rfl) hc.1
    simp only [exec, Store.view, hop]
  | transactions op =>
    have hop := Op.exec_restrict Exn.duplicateKeyError (fun _ _ => rfl) hc.1
    simp only [exec, Store.view, hop]

/-- A confined call does not change the view of another merchant. -/
theorem view_exec_of_ne (hc : c.Confined n ids s) (hne : n ≠ m) :
    (exec c s).2.view m = s.view m := by
  cases c with
  | customers op =>
    have hdisjoint : ∀ d : Customer, decide (d.merchantId = n) → ¬decide (d.merchantId = m) := by
      intro d hd hd'
      exact hne ((of_decide_eq_true hd).symm.trans (of_decide_eq_true hd'))
    have hop := Op.restrict_exec_of_disjoint Exn.duplicateKeyError (fun _ _ => rfl) hdisjoint hc.1
    simp only [exec, Store.view, hop]
  | transactions op =>
    have hdisjoint : ∀ d : Transaction, decide (d.merchantId = n) → ¬decide (d.merchantId = m) := by
      intro d hd hd'
      exact hne ((of_decide_eq_true hd).symm.trans (of_decide_eq_true hd'))
    have hop := Op.restrict_exec_of_disjoint Exn.duplicateKeyError (fun _ _ => rfl) hdisjoint hc.1
    simp only [exec, Store.view, hop]

/-- The customers after a confined call: those before it, and a new one of the merchant. -/
theorem DbCall.Confined.customers_of (hc : c.Confined m ids s) {d' : Customer}
    (hd' : d' ∈ (exec c s).2.customers.docs) :
    (∃ d ∈ s.customers.docs, d'.id = d.id ∧ d'.merchantId = d.merchantId) ∨
      d'.id ∈ ids ∧ s.Unused d'.id ∧ d'.merchantId = m := by
  cases c with
  | transactions op => exact .inl ⟨d', hd', rfl, rfl⟩
  | customers op =>
    cases op with
    | findOne q => exact .inl ⟨d', hd', rfl, rfl⟩
    | find q => exact .inl ⟨d', hd', rfl, rfl⟩
    | deleteOne q => exact .inl ⟨d', List.mem_of_mem_eraseP hd', rfl, rfl⟩
    | deleteMany q => exact .inl ⟨d', List.mem_of_mem_filter hd', rfl, rfl⟩
    | updateOne q u =>
      have hmem := List.mem_map_of_mem (f := fun d : Customer => (d.id, d.merchantId)) hd'
      have hsame : (exec (.customers (.updateOne q u)) s).2.customers.docs.map
          (fun d : Customer => (d.id, d.merchantId)) =
            s.customers.docs.map fun d => (d.id, d.merchantId) :=
        map_updateOne (fun _ => rfl) q s.customers
      rw [hsame] at hmem
      obtain ⟨d, hd, heq⟩ := List.mem_map.mp hmem
      obtain ⟨hid, hm⟩ := Prod.mk.inj heq
      exact .inl ⟨d, hd, hid.symm, hm.symm⟩
    | insertOne d =>
      obtain ⟨hwithin, hnew⟩ := hc
      obtain ⟨hid, hunused⟩ := hnew
      obtain ⟨C', hC', hdocs⟩ := insertOne_of_fresh hwithin.2
      have hmem : d' ∈ C'.docs := by
        rw [exec, Op.exec, hC'] at hd'
        exact hd'
      rw [hdocs, List.mem_append, List.mem_singleton] at hmem
      rcases hmem with hmem | rfl
      · exact .inl ⟨d', hmem, rfl, rfl⟩
      · exact .inr ⟨hid, hunused, of_decide_eq_true hwithin.1⟩

/-- The transactions after a confined call: those before it, and a new one of the
merchant and of a stored customer. -/
theorem DbCall.Confined.transactions_of (hc : c.Confined m ids s) {d' : Transaction}
    (hd' : d' ∈ (exec c s).2.transactions.docs) :
    (∃ d ∈ s.transactions.docs, d'.id = d.id ∧ d'.merchantId = d.merchantId ∧
      d'.owner = d.owner) ∨
      d'.id ∈ ids ∧ d'.merchantId = m ∧
        ∃ c ∈ s.customers.docs, d'.owner = some c.id ∧ c.merchantId = m := by
  cases c with
  | customers op => exact .inl ⟨d', hd', rfl, rfl, rfl⟩
  | transactions op =>
    cases op with
    | findOne q => exact .inl ⟨d', hd', rfl, rfl, rfl⟩
    | find q => exact .inl ⟨d', hd', rfl, rfl, rfl⟩
    | deleteOne q => exact .inl ⟨d', List.mem_of_mem_eraseP hd', rfl, rfl, rfl⟩
    | deleteMany q => exact .inl ⟨d', List.mem_of_mem_filter hd', rfl, rfl, rfl⟩
    | updateOne q u =>
      have hmem := List.mem_map_of_mem
        (f := fun d : Transaction => (d.id, d.merchantId, d.owner)) hd'
      have hsame : (exec (.transactions (.updateOne q u)) s).2.transactions.docs.map
          (fun d : Transaction => (d.id, d.merchantId, d.owner)) =
            s.transactions.docs.map fun d => (d.id, d.merchantId, d.owner) :=
        map_updateOne (fun _ => rfl) q s.transactions
      rw [hsame] at hmem
      obtain ⟨d, hd, heq⟩ := List.mem_map.mp hmem
      obtain ⟨hid, hrest⟩ := Prod.mk.inj heq
      obtain ⟨hm, howner⟩ := Prod.mk.inj hrest
      exact .inl ⟨d, hd, hid.symm, hm.symm, howner.symm⟩
    | insertOne d =>
      obtain ⟨hwithin, hnew⟩ := hc
      obtain ⟨hid, howner⟩ := hnew
      obtain ⟨T, hT, hdocs⟩ := insertOne_of_fresh hwithin.2
      have hmem : d' ∈ T.docs := by
        rw [exec, Op.exec, hT] at hd'
        exact hd'
      rw [hdocs, List.mem_append, List.mem_singleton] at hmem
      rcases hmem with hmem | rfl
      · exact .inl ⟨d', hmem, rfl, rfl, rfl⟩
      · exact .inr ⟨hid, of_decide_eq_true hwithin.1, howner⟩

/-- **A confined call keeps a divided store divided.** -/
theorem DbCall.Confined.divided (hc : c.Confined m ids s) (hs : s.Divided) :
    (exec c s).2.Divided := by
  intro t' ht' c' hc' howner
  rcases hc.transactions_of ht' with ⟨t, ht, -, htm, hto⟩ | ⟨-, htm, d, hd, hto, hdm⟩
  · rw [htm]
    rw [hto] at howner
    rcases hc.customers_of hc' with ⟨d, hd, hid, hdm⟩ | ⟨-, hunused, -⟩
    · rw [hdm]
      exact hs t ht d hd (hid ▸ howner)
    · -- a new customer has an identifier no old transaction refers to
      exact absurd howner (hunused.owner t ht)
  · have hid : d.id = c'.id := Option.some.inj (hto.symm.trans howner)
    rcases hc.customers_of hc' with ⟨e, he, heid, hem⟩ | ⟨-, hunused, -⟩
    · rw [htm, hem, ← hdm, customer_eq_of_id hd he (hid.trans heid)]
    · exact absurd hid (hunused.customer d hd)

/-- A confined call uses no identifier but its own. -/
theorem DbCall.Confined.unused (hc : c.Confined m ids s) {oid : ObjectId} (hs : s.Unused oid)
    (hoid : oid ∉ ids) : (exec c s).2.Unused oid where
  customer c' hc' := by
    rcases hc.customers_of hc' with ⟨d, hd, hid, -⟩ | ⟨hids, -⟩
    · rw [hid]
      exact hs.customer d hd
    · rintro rfl
      exact hoid hids
  transaction t' ht' := by
    rcases hc.transactions_of ht' with ⟨t, ht, hid, -⟩ | ⟨hids, -⟩
    · rw [hid]
      exact hs.transaction t ht
    · rintro rfl
      exact hoid hids
  owner t' ht' := by
    rcases hc.transactions_of ht' with ⟨t, ht, -, -, howner⟩ | ⟨-, -, d, hd, howner, -⟩
    · rw [howner]
      exact hs.owner t ht
    · rw [howner]
      exact fun heq => hs.customer d hd (Option.some.inj heq)

/-- What a merchant owns stays its own. -/
theorem DbCall.Confined.owns (hc : c.Confined m ids s) {oid : ObjectId} (hs : s.Owns m oid) :
    (exec c s).2.Owns m oid := by
  intro c' hc' hid'
  rcases hc.customers_of hc' with ⟨d, hd, hid, hdm⟩ | ⟨-, -, hm⟩
  · rw [hdm]
    exact hs d hd (hid.symm.trans hid')
  · exact hm

theorem DbCall.Confined.mono {ids' : List ObjectId} (hsub : ids ⊆ ids') {c : DbCall} {s : Store}
    (hc : c.Confined m ids s) : c.Confined m ids' s := by
  cases c with
  | customers op => exact ⟨hc.1, hc.2.mono fun _ hd => ⟨hsub hd.1, hd.2⟩⟩
  | transactions op => exact ⟨hc.1, hc.2.mono fun _ hd => ⟨hsub hd.1, hd.2⟩⟩

end Calls

/-! ### Confined runs -/

section Runs

variable {α : Type} {m n : String} {ids : List ObjectId} {p : Db α} {s : Store}

/-- Every call the run of `p` from `s` makes is confined to `m`. -/
def Confines (m : String) (ids : List ObjectId) (p : Db α) (s : Store) : Prop :=
  Meets exec (DbCall.Confined m ids) p s

theorem Confines.mono {ids' : List ObjectId} (hp : Confines m ids p s) (hsub : ids ⊆ ids') :
    Confines m ids' p s := Meets.mono hp fun _ _ hc => hc.mono hsub

theorem Confines.divided (hp : Confines m ids p s) (hs : s.Divided) : (run exec p s).2.Divided :=
  Meets.run_invariant (fun _ _ hc hs => hc.divided hs) hp hs

theorem Confines.unused (hp : Confines m ids p s) {oid : ObjectId} (hs : s.Unused oid)
    (hoid : oid ∉ ids) : (run exec p s).2.Unused oid :=
  Meets.run_invariant (I := fun s => s.Unused oid) (fun _ _ hc hs => hc.unused hs hoid) hp hs

theorem Confines.owns (hp : Confines m ids p s) {oid : ObjectId} (hs : s.Owns m oid) :
    (run exec p s).2.Owns m oid :=
  Meets.run_invariant (I := fun s => s.Owns m oid) (fun _ _ hc hs => hc.owns hs) hp hs

/-- **A confined run is the same on the view of its merchant.** -/
theorem Confines.run_view (hp : Confines m ids p s) :
    run exec p (s.view m) = ((run exec p s).1, (run exec p s).2.view m) :=
  Meets.run_view (fun _ _ hc => exec_view hc) hp

/-- **A confined run does not change the view of another merchant.** -/
theorem Confines.view_run_of_ne (hp : Confines n ids p s) (hne : n ≠ m) :
    (run exec p s).2.view m = s.view m :=
  Meets.run_invariant (I := fun s' => s'.view m = s.view m)
    (fun _ _ hc hs => (view_exec_of_ne hc hne).trans hs) hp rfl

/-! ### The operations are confined -/

variable {oid : ObjectId}

/-- The customers an identifier of the merchant selects are its own. -/
theorem Store.Owns.within (ho : s.Owns m oid) {q : CustomerQuery} (hq : q.id = some oid) :
    ∀ c ∈ s.customers.docs, test q c = true → decide (c.merchantId = m) = true := by
  intro c hc htest
  exact decide_eq_true (ho c hc ((test_customerQuery.mp htest).1 oid hq).symm)

theorem Store.within_customers (s : Store) {q : CustomerQuery} (hq : q.merchantId = some m) :
    ∀ c ∈ s.customers.docs, test q c = true → decide (c.merchantId = m) = true := by
  intro c _ htest
  exact decide_eq_true ((test_customerQuery.mp htest).2.1 m hq).symm

theorem Store.within_transactions (s : Store) {q : TransactionQuery} (hq : q.merchantId = some m) :
    ∀ t ∈ s.transactions.docs, test q t = true → decide (t.merchantId = m) = true := by
  intro t _ htest
  exact decide_eq_true ((test_transactionQuery.mp htest).2.1 m hq).symm

/-- The transactions that carry the text of a merchant's stored customer are its own. -/
theorem Store.Divided.within (hs : s.Divided) {c : Customer} (hc : c ∈ s.customers.docs)
    (hm : c.merchantId = m) {cid : String} (hcid : ObjectId.ofString? cid = some c.id) :
    ∀ t ∈ s.transactions.docs, test ({ customerId := some cid } : TransactionQuery) t = true →
      decide (t.merchantId = m) = true := by
  intro t ht htest
  have howner : t.owner = some c.id := by
    rw [TransactionDoc.owner, test_transaction_customer.mp htest, hcid]
  exact decide_eq_true ((hs t ht c hc howner).trans hm)

theorem confines_computeCreditScore (hs : s.Divided) {cid : String}
    (ho : ∀ oid, ObjectId.ofString? cid = some oid → s.Owns m oid) (now : Time) :
    Confines m ids (computeCreditScore now cid) s := by
  rw [computeCreditScore]
  cases hcid : ObjectId.ofString? cid with
  | none =>
    rw [objectId_eq_raise hcid]
    trivial
  | some oid =>
    have ho' := ho oid hcid
    rw [objectId_eq_ret hcid, ret_bind]
    refine Meets.bind (Meets.perform ⟨ho'.within rfl, trivial⟩) fun found hfound => ?_
    rw [run_customers_findOne] at hfound ⊢
    cases found with
    | none => trivial
    | some c =>
      -- the customer found has the merchant, and so have the transactions that name it
      obtain ⟨hc, hid⟩ := findOne_customer.mp (Except.ok.inj hfound)
      subst hid
      refine Meets.bind (Meets.perform ⟨hs.within hc (ho' c hc rfl) hcid, trivial⟩) fun txns _ => ?_
      rw [run_transactions_find]
      exact Meets.bind (Meets.perform ⟨ho'.within rfl, trivial⟩) fun _ _ => trivial

theorem confines_conclude (hs : s.Divided) {cid : String}
    (hcid : ObjectId.ofString? cid = some oid) (ho : s.Owns m oid) (δ : Totals) (last now : Time) :
    Confines m ids (conclude oid cid δ last now) s := by
  have hinc : Confines m ids (CustomersCol.updateOne { id := some oid }
      { inc := δ, lastTransaction := some last }) s := Meets.perform ⟨ho.within rfl, trivial⟩
  refine Meets.bind hinc fun _ _ => ?_
  have hs₁ := hinc.divided hs
  have ho₁ := hinc.owns ho
  generalize (run exec _ s).2 = s₁ at hs₁ ho₁
  have hscore : Confines m ids (computeCreditScore now cid) s₁ := by
    refine confines_computeCreditScore hs₁ (fun oid' hoid' => ?_) now
    rw [hcid] at hoid'
    exact Option.some.inj hoid' ▸ ho₁
  refine Meets.bind hscore fun _ _ => ?_
  have ho₂ := hscore.owns ho₁
  generalize (run exec _ s₁).2 = s₂ at ho₂
  refine Meets.bind (Meets.perform ⟨ho₂.within rfl, trivial⟩) fun updated _ => ?_
  cases updated with
  | none => trivial
  | some c => trivial

theorem confines_settle (hs : s.Divided) {cid : String}
    (ho : ∀ oid, ObjectId.ofString? cid = some oid → s.Owns m oid) (δ : Totals) (now : Time) :
    Confines m ids (settle cid δ now) s := by
  rw [settle]
  cases hcid : ObjectId.ofString? cid with
  | none =>
    rw [objectId_eq_raise hcid]
    trivial
  | some oid =>
    rw [objectId_eq_ret hcid, ret_bind]
    have hinc : Confines m ids (CustomersCol.updateOne { id := some oid } { inc := δ }) s :=
      Meets.perform ⟨(ho oid hcid).within rfl, trivial⟩
    refine Meets.bind hinc fun _ _ => ?_
    refine Meets.bind (confines_computeCreditScore (hinc.divided hs) (fun oid' hoid' => ?_) now)
      fun _ _ => trivial
    exact hinc.owns (ho oid' hoid')

theorem confines_addTransaction (hs : s.Divided) (env : Env) (hid : env.objectId 0 ∈ ids)
    (hnew : s.Unused (env.objectId 0)) (cid txnType : String) (amount : ℚ) (note : String) :
    Confines m ids (addTransaction env m cid txnType amount note) s := by
  rcases addTransaction_cases env m cid txnType amount note with
    ⟨message, heq⟩ | heq | ⟨type, oid, -, -, hcid, heq⟩
  · rw [heq]
    trivial
  · rw [heq]
    trivial
  · rw [heq]
    refine Meets.bind (Meets.perform ⟨s.within_customers rfl, trivial⟩) fun found hfound => ?_
    rw [run_customers_findOne] at hfound ⊢
    cases found with
    | none => trivial
    | some c =>
      obtain ⟨hc, rfl, hm⟩ := findOne_customer_merchant.mp (Except.ok.inj hfound)
      have hinsert : Confines m ids
          (TransactionsCol.insertOne (newTransaction env m cid c type amount note)) s := by
        exact Meets.perform
          ⟨⟨decide_eq_true rfl, hnew.transaction⟩, hid, c, hc, hcid, hm⟩
      have ho : s.Owns m c.id := fun c' hc' hid' => customer_eq_of_id hc' hc hid' ▸ hm
      exact Meets.bind hinsert fun _ _ =>
        confines_conclude (hinsert.divided hs) hcid (hinsert.owns ho) _ _ _

/-- The customer of a merchant's transaction is its own. -/
theorem Store.Divided.owns (hs : s.Divided) {t : Transaction} (ht : t ∈ s.transactions.docs)
    (hm : t.merchantId = m) (oid : ObjectId) (howner : t.owner = some oid) : s.Owns m oid := by
  rintro c hc rfl
  exact (hs t ht c hc howner).symm.trans hm

/-- An edit or a deletion by identifier selects the transaction that was looked up. -/
theorem Store.within_transaction {t : Transaction} (ht : t ∈ s.transactions.docs)
    (hm : t.merchantId = m) :
    ∀ t' ∈ s.transactions.docs, test ({ id := some t.id } : TransactionQuery) t' = true →
      decide (t'.merchantId = m) = true := by
  intro t' ht' htest
  rw [transaction_eq_of_id ht' ht (test_transaction_id.mp htest)]
  exact decide_eq_true hm

theorem confines_editTransaction (hs : s.Divided) (env : Env) (tid : String) (amount : ℚ)
    (note : String) : Confines m ids (editTransaction env tid m amount note) s := by
  rw [editTransaction_eq]
  cases ObjectId.ofString? tid with
  | none => trivial
  | some oid =>
    refine Meets.bind (Meets.perform ⟨s.within_transactions rfl, trivial⟩) fun found hfound => ?_
    rw [run_transactions_findOne] at hfound ⊢
    cases found with
    | none => trivial
    | some t =>
      obtain ⟨ht, rfl, hm⟩ := findOne_transaction_merchant.mp (Except.ok.inj hfound)
      have hset : Confines m ids (TransactionsCol.updateOne { id := some t.id }
          ⟨amount, note, true, env.utcnow 0⟩) s :=
        Meets.perform ⟨Store.within_transaction ht hm, trivial⟩
      refine Meets.bind hset fun _ _ => ?_
      exact confines_settle (hset.divided hs)
        (fun oid howner => hset.owns (hs.owns ht hm oid howner)) _ _

theorem confines_deleteTransaction (hs : s.Divided) (env : Env) (tid : String) :
    Confines m ids (deleteTransaction env tid m) s := by
  rw [deleteTransaction_eq]
  cases ObjectId.ofString? tid with
  | none => trivial
  | some oid =>
    refine Meets.bind (Meets.perform ⟨s.within_transactions rfl, trivial⟩) fun found hfound => ?_
    rw [run_transactions_findOne] at hfound ⊢
    cases found with
    | none => trivial
    | some t =>
      obtain ⟨ht, rfl, hm⟩ := findOne_transaction_merchant.mp (Except.ok.inj hfound)
      have hdelete : Confines m ids (TransactionsCol.deleteOne { id := some t.id }) s :=
        Meets.perform ⟨Store.within_transaction ht hm, trivial⟩
      refine Meets.bind hdelete fun _ _ => ?_
      exact confines_settle (hdelete.divided hs)
        (fun oid howner => hdelete.owns (hs.owns ht hm oid howner)) _ _

theorem confines_deleteCustomer (hs : s.Divided) (cid : String) :
    Confines m ids (deleteCustomer cid m) s := by
  rw [deleteCustomer]
  cases hcid : ObjectId.ofString? cid with
  | none =>
    rw [objectId_eq_raise hcid]
    trivial
  | some oid =>
    rw [objectId_eq_ret hcid, ret_bind]
    refine Meets.bind (Meets.perform ⟨s.within_customers rfl, trivial⟩) fun deleted hdeleted => ?_
    rw [run_customers_deleteOne] at hdeleted ⊢
    split
    · next hne =>
      -- the deleted customer says whose the transactions are
      cases hfind : s.customers.findOne { id := some oid, merchantId := some m } with
      | none =>
        rw [hfind] at hdeleted
        exact absurd (Except.ok.inj hdeleted).symm hne
      | some c =>
        obtain ⟨hc, rfl, hm⟩ := findOne_customer_merchant.mp hfind
        exact Meets.bind (Meets.perform ⟨hs.within hc hm hcid, trivial⟩) fun _ _ => trivial
    · trivial

variable {bcrypt : Bcrypt}

theorem confines_updateCustomerPin (env : Env) (cid pin : String) :
    Confines m ids (updateCustomerPin bcrypt env cid m pin) s := by
  rw [updateCustomerPin]
  cases hcid : ObjectId.ofString? cid with
  | none =>
    rw [objectId_eq_raise hcid]
    trivial
  | some oid =>
    rw [objectId_eq_ret hcid, ret_bind]
    refine Meets.bind (Meets.perform ⟨s.within_customers rfl, trivial⟩) fun result _ => ?_
    split
    · trivial
    · trivial

theorem confines_addCustomer (env : Env) (hid : env.objectId 0 ∈ ids)
    (hnew : s.Unused (env.objectId 0)) (name phone address pin : String) :
    Confines m ids (addCustomer bcrypt env m name phone address pin) s := by
  refine Meets.bind (Meets.perform ⟨s.within_customers rfl, trivial⟩) fun existing _ => ?_
  rw [run_customers_findOne]
  split
  · trivial
  · exact Meets.bind (Meets.perform ⟨⟨decide_eq_true rfl, hnew.customer⟩, hid, hnew⟩)
      fun _ _ => trivial

/-- A row of the import uses the identifier of its number.  That `p` is a variable spares
the elaborator from running the row. -/
theorem confines_importRow (env : Env) {df : DataFrame} {columns : List String} {idx : ℕ}
    (hnew : s.Unused (env.objectId idx)) {row : Row} {results : ImportResults}
    {p : Db ImportResults} (hp : importRow bcrypt env m df columns idx row results = p) :
    Confines m [env.objectId idx] p s := by
  rcases importRow_cases bcrypt env m df columns idx row results with
    ⟨results', heq⟩ | ⟨name, phone, address, count, heq, hcount⟩
  · rw [← hp, heq]
    trivial
  · rw [← hp, heq]
    have hadd : Confines m [env.objectId idx]
        (addCustomer bcrypt (env.row idx) m name phone address "") s :=
      confines_addCustomer (env.row idx) (List.mem_singleton.mpr rfl) hnew _ _ _ _
    refine Meets.bind hadd fun reply _ => ?_
    obtain ⟨results', hresults⟩ := hcount reply
    rw [hresults]
    trivial

/-- The loop of the import uses its identifiers one after the other. -/
theorem confines_importRows (env : Env) (df : DataFrame) (columns : List String)
    {rows : List Row} {idx : ℕ} {results : ImportResults}
    (hids : ∀ j < rows.length, env.objectId (idx + j) ∈ ids)
    (hnew : ∀ j < rows.length, s.Unused (env.objectId (idx + j)))
    (hdistinct : ∀ i < rows.length, ∀ j < rows.length,
      env.objectId (idx + i) = env.objectId (idx + j) → i = j) :
    Confines m ids (importRows bcrypt env m df columns idx rows results) s := by
  induction rows generalizing idx results s with
  | nil => trivial
  | cons row rows ih =>
    have hlength : (row :: rows).length = rows.length + 1 := rfl
    have hzero : 0 < (row :: rows).length := by omega
    have hsub : [env.objectId idx] ⊆ ids :=
      List.cons_subset.mpr ⟨hids 0 hzero, List.nil_subset _⟩
    rw [importRows]
    generalize hp : importRow bcrypt env m df columns idx row results = p
    have hrow : Confines m [env.objectId idx] p s := confines_importRow env (hnew 0 hzero) hp
    refine Meets.bind (hrow.mono hsub) fun results' _ => ?_
    -- the later rows number on, and this one has taken none of their identifiers
    have hshift : ∀ j, idx + 1 + j = idx + (j + 1) := fun j => by omega
    refine ih (fun j hj => ?_) (fun j hj => ?_) (fun i hi j hj heq => ?_)
    · rw [hshift]
      exact hids (j + 1) (by omega)
    · rw [hshift]
      refine hrow.unused (hnew (j + 1) (by omega)) fun hmem => ?_
      have heq := hdistinct (j + 1) (by omega) 0 hzero (List.mem_singleton.mp hmem)
      omega
    · rw [hshift, hshift] at heq
      have hsucc := hdistinct (i + 1) (by omega) (j + 1) (by omega) heq
      omega

theorem confines_importCustomersFromExcel (env : Env) {file : Except String DataFrame}
    (hids : ∀ df, file = .ok df → ∀ j < df.rows.length, env.objectId j ∈ ids)
    (hnew : ∀ df, file = .ok df → ∀ j < df.rows.length, s.Unused (env.objectId j))
    (hdistinct : ∀ df, file = .ok df → ∀ i < df.rows.length, ∀ j < df.rows.length,
      env.objectId i = env.objectId j → i = j) :
    Confines m ids (importCustomersFromExcel bcrypt env m file) s := by
  refine Meets.catchWith ?_ fun _ _ => trivial
  cases file with
  | error message => trivial
  | ok df =>
    have hheaders : Confines m ids (normaliseHeaders df.columns) s :=
      Meets.of_uses (uses_normaliseHeaders (P := fun _ => False) df.columns)
        fun _ _ hfalse => hfalse.elim
    refine Meets.bind hheaders fun columns _ => ?_
    rw [normaliseHeaders_run]
    dsimp only
    split
    · trivial
    · refine Meets.bind (confines_importRows env df columns ?_ ?_ ?_) fun _ _ => trivial
      · intro j hj
        rw [Nat.zero_add]
        exact hids df rfl j (df.length_iterrows ▸ hj)
      · intro j hj
        rw [Nat.zero_add]
        exact hnew df rfl j (df.length_iterrows ▸ hj)
      · intro i hi j hj heq
        rw [Nat.zero_add, Nat.zero_add] at heq
        rw [df.length_iterrows] at hi hj
        exact hdistinct df rfl i hi j hj heq

end Runs

/-! ### Calls and their runs -/

/-- A call that scores is for a customer of the calling merchant. -/
def Call.ScoresOwn (s : Store) : Call → Prop
  | .computeCreditScore _ m cid => ∀ oid ∈ ObjectId.ofString? cid, s.Owns m oid
  | _ => True

instance (s : Store) (m : String) (oid : ObjectId) : Decidable (s.Owns m oid) :=
  inferInstanceAs (Decidable (∀ c ∈ s.customers.docs, c.id = oid → c.merchantId = m))

instance (s : Store) (call : Call) : Decidable (call.ScoresOwn s) := by
  cases call with
  | computeCreditScore env m cid =>
    exact inferInstanceAs (Decidable (∀ oid ∈ ObjectId.ofString? cid, s.Owns m oid))
  | addCustomer env m name phone address pin => exact inferInstanceAs (Decidable True)
  | addTransaction env m cid txnType amount note => exact inferInstanceAs (Decidable True)
  | editTransaction env tid m amount note => exact inferInstanceAs (Decidable True)
  | deleteTransaction env tid m => exact inferInstanceAs (Decidable True)
  | deleteCustomer cid m => exact inferInstanceAs (Decidable True)
  | updateCustomerPin env cid m pin => exact inferInstanceAs (Decidable True)
  | importCustomersFromExcel env m file => exact inferInstanceAs (Decidable True)

/-- Every call of the run that scores is for a customer of the calling merchant. -/
def ScoresOwn (bcrypt : Bcrypt) : List Call → Store → Prop
  | [], _ => True
  | c :: calls, s => c.ScoresOwn s ∧ ScoresOwn bcrypt calls (c.exec bcrypt s).2

instance decidableScoresOwn (bcrypt : Bcrypt) :
    ∀ (calls : List Call) (s : Store), Decidable (ScoresOwn bcrypt calls s)
  | [], _ => inferInstanceAs (Decidable True)
  | c :: calls, s =>
    have _ : Decidable (ScoresOwn bcrypt calls (c.exec bcrypt s).2) :=
      decidableScoresOwn bcrypt calls (c.exec bcrypt s).2
    instDecidableAnd

section Isolation

variable {bcrypt : Bcrypt} {s : Store} {m : String}

/-- **Every call of the application is confined to its merchant.** -/
theorem Call.confined {call : Call} (hs : s.Divided) (hnodup : call.issued.Nodup)
    (hnew : ∀ oid ∈ call.issued, s.Unused oid) (hscores : call.ScoresOwn s) :
    Confines call.merchantId call.issued (call.code bcrypt) s := by
  cases call with
  | addCustomer env m name phone address pin =>
    have hmem : env.objectId 0 ∈ Call.issued (.addCustomer env m name phone address pin) :=
      List.mem_singleton.mpr rfl
    exact Meets.map _ (confines_addCustomer env hmem (hnew _ hmem) _ _ _ _)
  | addTransaction env m cid txnType amount note =>
    have hmem : env.objectId 0 ∈ Call.issued (.addTransaction env m cid txnType amount note) :=
      List.mem_singleton.mpr rfl
    exact Meets.map _ (confines_addTransaction hs env hmem (hnew _ hmem) _ _ _ _)
  | editTransaction env tid m amount note =>
    exact Meets.map _ (confines_editTransaction hs env tid amount note)
  | deleteTransaction env tid m => exact Meets.map _ (confines_deleteTransaction hs env tid)
  | deleteCustomer cid m => exact Meets.map _ (confines_deleteCustomer hs cid)
  | updateCustomerPin env cid m pin => exact Meets.map _ (confines_updateCustomerPin env cid pin)
  | computeCreditScore env m cid =>
    exact Meets.map _ (confines_computeCreditScore hs hscores (env.utcnow 0))
  | importCustomersFromExcel env m file =>
    refine Meets.map _ (confines_importCustomersFromExcel env ?_ ?_ ?_)
    · rintro df rfl j hj
      exact List.mem_map_of_mem (List.mem_range.mpr hj)
    · rintro df rfl j hj
      exact hnew _ (List.mem_map_of_mem (List.mem_range.mpr hj))
    · rintro df rfl i hi j hj heq
      exact List.inj_on_of_nodup_map hnodup (List.mem_range.mpr hi) (List.mem_range.mpr hj) heq

/-- What holds of the calls still to come: their identifiers are unused. -/
structure Separate (bcrypt : Bcrypt) (calls : List Call) (s : Store) : Prop where
  divided : s.Divided
  distinct : (calls.flatMap Call.issued).Nodup
  unused : ∀ oid ∈ calls.flatMap Call.issued, s.Unused oid
  scores : ScoresOwn bcrypt calls s

theorem Separate.confined {c : Call} {calls : List Call} (h : Separate bcrypt (c :: calls) s) :
    Confines c.merchantId c.issued (c.code bcrypt) s := by
  have hdistinct := h.distinct
  rw [List.flatMap_cons, List.nodup_append] at hdistinct
  refine Call.confined h.divided hdistinct.1 (fun oid hoid => h.unused oid ?_) h.scores.1
  rw [List.flatMap_cons]
  exact List.mem_append_left _ hoid

/-- **A call keeps the identifiers of the later ones unused.** -/
theorem Separate.step {c : Call} {calls : List Call} (h : Separate bcrypt (c :: calls) s) :
    Separate bcrypt calls (c.exec bcrypt s).2 := by
  have hdistinct := h.distinct
  rw [List.flatMap_cons, List.nodup_append] at hdistinct
  obtain ⟨-, hlater, hdisjoint⟩ := hdistinct
  refine ⟨h.confined.divided h.divided, hlater, fun oid hoid => ?_, h.scores.2⟩
  refine h.confined.unused (h.unused oid ?_) fun hmem => hdisjoint oid hmem oid hoid rfl
  rw [List.flatMap_cons]
  exact List.mem_append_right _ hoid

/-- A program that only reads the documents of a merchant reads the same of its view. -/
theorem Confines.fst_run_view {α : Type} {p : Db α} (hp : Confines m [] p s) :
    (run exec p (s.view m)).1 = (run exec p s).1 := by rw [hp.run_view]

theorem confines_findCustomers {α : Type} {q : CustomerQuery} (hq : q.merchantId = some m)
    (f : List Customer → α) :
    Confines m [] (CustomersCol.find q >>= fun customers => .ret (f customers)) s :=
  Meets.bind (Meets.perform ⟨s.within_customers hq, trivial⟩) fun _ _ => trivial

theorem confines_findTransactions {α : Type} {q : TransactionQuery} (hq : q.merchantId = some m)
    (f : List Transaction → α) :
    Confines m [] (TransactionsCol.find q >>= fun txns => .ret (f txns)) s :=
  Meets.bind (Meets.perform ⟨s.within_transactions hq, trivial⟩) fun _ _ => trivial

theorem confines_getSummaryStats : Confines m [] (getSummaryStats m) s :=
  Meets.bind (Meets.perform ⟨s.within_customers rfl, trivial⟩) fun _ _ =>
    confines_findTransactions rfl _

/-- **Tenant isolation.**  Removing the calls of the other merchants from a run leaves the
outcomes of the calls of the merchant `m` and everything it reads at the end. -/
theorem isolation (m : String) {calls : List Call} (hids : (calls.flatMap Call.issued).Nodup)
    (hscores : ScoresOwn bcrypt calls .empty) :
    let purged := calls.filter fun call => call.merchantId = m
    let s := execAll bcrypt calls .empty
    let s' := execAll bcrypt purged .empty
    log (Call.exec bcrypt) purged .empty =
        (log (Call.exec bcrypt) calls .empty).filter (fun entry => entry.1.merchantId = m) ∧
      (run exec (getCustomers m) s').1 = (run exec (getCustomers m) s).1 ∧
      (run exec (getDefaulters m) s').1 = (run exec (getDefaulters m) s).1 ∧
      (∀ cid : Option String,
        (run exec (getTransactions m cid) s').1 = (run exec (getTransactions m cid) s).1) ∧
      (run exec (getSummaryStats m) s').1 = (run exec (getSummaryStats m) s).1 ∧
      (run exec (getMonthlySummary m) s').1 = (run exec (getMonthlySummary m) s).1 ∧
      (run exec (getRiskDistribution m) s').1 = (run exec (getRiskDistribution m) s).1 := by
  intro purged s s'
  have hstart : Separate bcrypt calls .empty :=
    ⟨divided_empty, hids, fun oid _ => unused_empty oid, hscores⟩
  have hpurge := log_purge (Call.exec bcrypt) (Store.view m)
    (fun call => decide (call.merchantId = m)) (I := Separate bcrypt)
    (fun c calls s h => h.step) ?_ ?_ hstart
  · -- the purged run ends in the view of the whole one, where a merchant reads the same
    obtain ⟨hlog, hfinal⟩ := hpurge
    have hs' : s' = s.view m := hfinal
    rw [hs']
    exact ⟨hlog, (confines_findCustomers rfl _).fst_run_view,
      (confines_findCustomers rfl _).fst_run_view,
      fun cid => (confines_findTransactions rfl _).fst_run_view,
      confines_getSummaryStats.fst_run_view, (confines_findTransactions rfl _).fst_run_view,
      (confines_findCustomers rfl _).fst_run_view⟩
  · intro c calls s h hmine
    have hrun := h.confined.run_view
    rw [of_decide_eq_true hmine] at hrun
    exact hrun
  · intro c calls s h hother
    exact h.confined.view_run_of_ne fun heq => hother (decide_eq_true heq)

/-- A run of two merchants, the second of which tries the identifiers of the first. -/
def sampleTenants : List Call :=
  sampleCalls ++
    [.addCustomer (.sample 11 0) "n" "Ravi" "98" "" "5678",
      .addTransaction (.sample 12 0) "n" (ObjectId.ofNat 1).str "credit" 70 "",
      .addTransaction (.sample 13 0) "n" (ObjectId.ofNat 11).str "credit" 70 "",
      .editTransaction (.sample 14 0) (ObjectId.ofNat 2).str "n" 5 "",
      .deleteTransaction (.sample 15 0) (ObjectId.ofNat 2).str "n",
      .computeCreditScore (.sample 16 0) "m" (ObjectId.ofNat 1).str,
      .deleteCustomer (ObjectId.ofNat 1).str "n",
      .editTransaction (.sample 17 0) (ObjectId.ofNat 3).str "m" 30 ""]

/-- The first merchant's calls answer, and its pages show, the same without the second. -/
theorem isolation_sample :
    let purged := sampleTenants.filter fun call => call.merchantId = "m"
    let s := execAll markingBcrypt sampleTenants .empty
    let s' := execAll markingBcrypt purged .empty
    log (Call.exec markingBcrypt) purged .empty =
        (log (Call.exec markingBcrypt) sampleTenants .empty).filter
          (fun entry => entry.1.merchantId = "m") ∧
      (run exec (getCustomers "m") s').1 = (run exec (getCustomers "m") s).1 ∧
      (run exec (getDefaulters "m") s').1 = (run exec (getDefaulters "m") s).1 ∧
      (∀ cid : Option String,
        (run exec (getTransactions "m" cid) s').1 = (run exec (getTransactions "m" cid) s).1) ∧
      (run exec (getSummaryStats "m") s').1 = (run exec (getSummaryStats "m") s).1 ∧
      (run exec (getMonthlySummary "m") s').1 = (run exec (getMonthlySummary "m") s).1 ∧
      (run exec (getRiskDistribution "m") s').1 = (run exec (getRiskDistribution "m") s).1 :=
  isolation "m" (by decide +kernel) (by decide +kernel)

end Isolation

end DigitalLedger
