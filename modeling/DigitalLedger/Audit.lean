import DigitalLedger.Conformance
import DigitalLedger.Decimals
import DigitalLedger.Names

/-!
# The log as an audit trail

What the pages log is enough to recount what a merchant has: the entries say how many
customers and transactions came and went.  This module adds the entries up, and compares
the sums with what is stored.

## Main definitions

* `Trigger.Fresh` — the identifiers generated for a run are not in use.
* `Store.held` — how many customers and transactions a merchant has.
* `Call.change` — what a call adds to these numbers, by its outcome.
* `Activity.change`, `recount` — what an entry says of them, and the sum of it all.

## Main results

* `held_exec` — a call on a consistent store changes the numbers as its outcome says.
* `others_untouched` — runs leave the documents of the other merchants alone.
* `log_reconciles` — the log of a merchant accounts for what it has.
-/

namespace DigitalLedger

open Collection Prog Trace

variable {ι : Type} {set : Setting} {m : String} {s : Store} {bcrypt : Bcrypt}

/-! ### Fresh identifiers -/

/-- The identifiers the database generates for the run are distinct and not in use. -/
structure Trigger.Fresh (site : Site ι) (t : Trigger) : Prop where
  distinct : t.issued.Nodup
  unused : ∀ oid ∈ t.issued, site.world.ledger.Unused oid
  unlogged : ∀ oid ∈ t.logIssued, ∀ l ∈ site.logs.docs, l.id ≠ oid

instance (s : Store) (oid : ObjectId) : Decidable (s.Unused oid) :=
  decidable_of_iff ((∀ c ∈ s.customers.docs, c.id ≠ oid) ∧
      (∀ t ∈ s.transactions.docs, t.id ≠ oid) ∧ ∀ t ∈ s.transactions.docs, t.owner ≠ some oid)
    ⟨fun h => ⟨h.1, h.2.1, h.2.2⟩, fun h => ⟨h.customer, h.transaction, h.owner⟩⟩

instance (site : Site ι) (t : Trigger) : Decidable (t.Fresh site) :=
  decidable_of_iff (t.issued.Nodup ∧ (∀ oid ∈ t.issued, site.world.ledger.Unused oid) ∧
      ∀ oid ∈ t.logIssued, ∀ l ∈ site.logs.docs, l.id ≠ oid)
    ⟨fun h => ⟨h.1, h.2.1, h.2.2⟩, fun h => ⟨h.distinct, h.unused, h.unlogged⟩⟩

theorem Consistent.divided (hs : Consistent s) : s.Divided := by
  intro t ht c hc howner
  obtain ⟨c', hc', hid, hm, -⟩ := hs.refers t ht
  rw [TransactionDoc.owner, hid, ObjectId.ofString?_str, Option.some.injEq] at howner
  rw [hm, eq_of_key_eq hc' hc howner]

/-! ### What a merchant has -/

/-- The numbers of customers and of transactions of a merchant. -/
def Store.held (m : String) (s : Store) : ℤ × ℤ :=
  ((s.customersOf m).length, (s.transactionsBy m).length)

theorem held_of_view_eq {s' : Store} (h : s'.view m = s.view m) : s'.held m = s.held m := by
  have hview : ∀ s : Store, s.held m =
      (((s.view m).customers.docs.length : ℤ), ((s.view m).transactions.docs.length : ℤ)) := by
    intro s
    have hcustomers : (s.view m).customers.docs = s.customersOf m :=
      List.filter_congr fun c _ => by
        rw [Bool.eq_iff_iff, decide_eq_true_iff, test_customer_merchant]
    have htransactions : (s.view m).transactions.docs = s.transactionsBy m :=
      List.filter_congr fun t _ => by
        rw [Bool.eq_iff_iff, decide_eq_true_iff, test_transaction_merchant]
    rw [hcustomers, htransactions, Store.held]
  rw [hview, hview, h]

theorem customersOf_updateOne (q : CustomerQuery) (u : CustomerUpdate) (C : Collection Customer) :
    ((C.updateOne q u).find ({ merchantId := some m } : CustomerQuery)).length =
      (C.find ({ merchantId := some m } : CustomerQuery)).length :=
  length_find_updateOne (fun _ => rfl) q C

theorem held_incCustomer (oid : ObjectId) (δ : Totals) (last : Option Time) (s : Store) :
    (s.incCustomer oid δ last).held m = s.held m := by
  rw [Store.held, Store.customersOf, Store.incCustomer, customersOf_updateOne]
  rfl

theorem held_rescore (now : Time) (cid : String) (oid : ObjectId) (s : Store) :
    (s.rescore now cid oid).held m = s.held m := by
  unfold Store.rescore
  cases s.customers.findOne { id := some oid } with
  | none => rfl
  | some c =>
    dsimp only
    rw [Store.held, Store.customersOf, Store.setScore, customersOf_updateOne]
    rfl

theorem held_setTransaction (oid : ObjectId) (u : TransactionUpdate) (s : Store) :
    (s.setTransaction oid u).held m = s.held m := by
  rw [Store.held, Store.transactionsBy, Store.setTransaction,
    length_find_updateOne (fun _ => rfl)]
  rfl

/-! ### What a call adds to it -/

/-- What a call changes, by its outcome. -/
def Call.change : Call → Outcome → ℤ × ℤ
  | .addCustomer .., .customerId (.success _) => (1, 0)
  | .importCustomersFromExcel .., .imported (.success r) => (r.added, 0)
  | .deleteCustomer .., .done (.success _) => (-1, 0)
  | .addTransaction .., .newBalance (.success _) => (0, 1)
  | .deleteTransaction .., .done (.success _) => (0, -1)
  | _, _ => 0

/-- What a call changes, an exception being no outcome. -/
def Call.changeOf (call : Call) : Except Exn Outcome → ℤ × ℤ
  | .ok o => call.change o
  | .error _ => 0

/-- The numbers have changed by `δ`, up to the transactions of a customer that was deleted. -/
structure Changes (δ held held' : ℤ × ℤ) : Prop where
  customers : held'.1 = held.1 + δ.1
  transactions : held'.2 ≤ held.2 + δ.2
  exact : δ.1 ≠ -1 → held'.2 = held.2 + δ.2

theorem Changes.of_eq {δ held held' : ℤ × ℤ} (h : held' = held + δ) : Changes δ held held' := by
  subst h
  exact ⟨rfl, le_refl _, fun _ => rfl⟩

section Operations

variable {call : Call}

/-- A call whose identifiers are distinct and unused. -/
structure Call.Fresh (s : Store) (call : Call) : Prop where
  distinct : call.issued.Nodup
  unused : ∀ oid ∈ call.issued, s.Unused oid

theorem held_addCustomer (env : Env) (m name phone address pin : String)
    (hfresh : (Call.addCustomer env m name phone address pin).Fresh s) :
    let r := (Call.addCustomer env m name phone address pin).exec bcrypt s
    r.2.held m =
      s.held m + (Call.addCustomer env m name phone address pin).changeOf r.1 := by
  have hunused : s.Unused (env.objectId 0) := hfresh.unused _ List.mem_cons_self
  have hnew : ∀ c ∈ s.customers.docs, key c ≠
      key (newCustomer bcrypt env m name phone address pin) := hunused.customer
  obtain ⟨C, hC, -⟩ := insertOne_of_fresh hnew
  dsimp only
  rw [Call.exec, Call.code, run_map, run_addCustomer]
  split
  · exact (add_zero _).symm
  · rw [hC]
    refine Prod.ext ?_ (add_zero _).symm
    refine (length_find_insertOne _ hC).trans (congrArg _ (if_pos ?_))
    exact test_customer_merchant.mpr rfl

theorem held_updateCustomerPin (env : Env) (cid m pin : String) :
    let r := (Call.updateCustomerPin env cid m pin).exec bcrypt s
    r.2.held m = s.held m + (Call.updateCustomerPin env cid m pin).changeOf r.1 := by
  dsimp only
  rw [Call.exec, Call.code, run_map, run_updateCustomerPin]
  cases ObjectId.ofString? cid with
  | none => exact (add_zero _).symm
  | some oid =>
    refine Prod.ext ?_ (add_zero _).symm
    rw [Prod.fst_add]
    exact (congrArg Nat.cast (customersOf_updateOne _ _ _)).trans (add_zero _).symm

theorem held_computeCreditScore (env : Env) (m cid : String) :
    let r := (Call.computeCreditScore env m cid).exec bcrypt s
    r.2.held m = s.held m + (Call.computeCreditScore env m cid).changeOf r.1 := by
  dsimp only
  rw [Call.exec, Call.code, run_map]
  cases hcid : ObjectId.ofString? cid with
  | none =>
    rw [computeCreditScore, objectId_eq_raise hcid, raise_bind, run_raise]
    exact (add_zero _).symm
  | some oid =>
    rw [run_computeCreditScore s _ hcid, held_rescore]
    exact (add_zero _).symm

/-- A customer is still there once its figures have followed a transaction. -/
theorem findOne_settled {T : Collection Transaction} {oid : ObjectId} {c : Customer}
    (hc : s.customers.findOne { id := some oid } = some c) (δ : Totals) (last : Option Time)
    (now : Time) (cid : String) :
    ((((({ s with transactions := T } : Store).incCustomer oid δ last).rescore now cid
      oid).customers.findOne { id := some oid } : Option Customer)).isSome := by
  obtain ⟨hmem, rfl⟩ := findOne_customer.mp hc
  have hids : ((({ s with transactions := T } : Store).incCustomer c.id δ last).rescore now cid
      c.id).customers.docs.map CustomerDoc.id = s.customers.docs.map CustomerDoc.id := by
    have hinc : (({ s with transactions := T } : Store).incCustomer c.id δ last).customers.docs.map
        CustomerDoc.id = s.customers.docs.map CustomerDoc.id :=
      map_updateOne (fun _ => rfl) _ _
    rw [← hinc]
    unfold Store.rescore
    split
    · rfl
    · exact map_updateOne (fun _ => rfl) _ _
  obtain ⟨c', hc', hid⟩ := List.mem_map.mp (hids ▸ List.mem_map_of_mem hmem)
  exact Option.isSome_iff_exists.mpr ⟨c', findOne_customer.mpr ⟨hc', hid⟩⟩

theorem held_addTransaction (env : Env) (m cid txnType : String) (amount : ℚ) (note : String)
    (hfresh : (Call.addTransaction env m cid txnType amount note).Fresh s) :
    let r := (Call.addTransaction env m cid txnType amount note).exec bcrypt s
    r.2.held m =
      s.held m + (Call.addTransaction env m cid txnType amount note).changeOf r.1 := by
  have hunused : s.Unused (env.objectId 0) := hfresh.unused _ List.mem_cons_self
  dsimp only
  rw [Call.exec, Call.code, run_map, run_addTransaction]
  split
  · exact (add_zero _).symm
  cases TxnType.ofString? txnType with
  | none => exact (add_zero _).symm
  | some type =>
    cases ObjectId.ofString? cid with
    | none => exact (add_zero _).symm
    | some oid =>
      dsimp only
      cases hfound : s.customers.findOne { id := some oid, merchantId := some m } with
      | none => exact (add_zero _).symm
      | some c =>
        have hnew : ∀ t ∈ s.transactions.docs, key t ≠
            key (newTransaction env m cid c type amount note) := hunused.transaction
        obtain ⟨T, hT, -⟩ := insertOne_of_fresh hnew
        obtain ⟨hc, rfl, rfl⟩ := findOne_customer_merchant.mp hfound
        have hsome := findOne_settled (T := T) (findOne_customer.mpr ⟨hc, rfl⟩)
          (type.effect amount) (some (env.utcnow 1)) (env.utcnow 2) cid
        dsimp only
        rw [hT]
        dsimp only
        split
        · next hnone =>
          rw [hnone] at hsome
          exact absurd hsome (by decide)
        · refine (held_rescore _ _ _ _).trans ((held_incCustomer _ _ _ _).trans ?_)
          refine Prod.ext (add_zero _).symm ?_
          refine (length_find_insertOne _ hT).trans (congrArg _ (if_pos ?_))
          exact test_transaction_merchant.mpr rfl

theorem held_editTransaction (env : Env) (tid m : String) (amount : ℚ) (note : String) :
    let r := (Call.editTransaction env tid m amount note).exec bcrypt s
    r.2.held m = s.held m + (Call.editTransaction env tid m amount note).changeOf r.1 := by
  dsimp only
  rw [Call.exec, Call.code, run_map, run_editTransaction]
  cases ObjectId.ofString? tid with
  | none => exact (add_zero _).symm
  | some oid =>
    dsimp only
    cases s.transactions.findOne { id := some oid, merchantId := some m } with
    | none => exact (add_zero _).symm
    | some t =>
      dsimp only
      cases ObjectId.ofString? t.customerId with
      | none => exact (held_setTransaction _ _ _).trans (add_zero _).symm
      | some coid =>
        refine ((held_rescore _ _ _ _).trans (held_incCustomer _ _ _ _)).trans ?_
        exact (held_setTransaction _ _ _).trans (add_zero _).symm

theorem held_deleteTransaction (hs : Consistent s) (env : Env) (tid m : String) :
    let r := (Call.deleteTransaction env tid m).exec bcrypt s
    r.2.held m = s.held m + (Call.deleteTransaction env tid m).changeOf r.1 := by
  dsimp only
  rw [Call.exec, Call.code, run_map, run_deleteTransaction]
  cases ObjectId.ofString? tid with
  | none => exact (add_zero _).symm
  | some oid =>
    dsimp only
    cases hfound : s.transactions.findOne { id := some oid, merchantId := some m } with
    | none => exact (add_zero _).symm
    | some t =>
      obtain ⟨ht, hid, hm⟩ := findOne_transaction_merchant.mp hfound
      obtain ⟨c, -, howner⟩ := hs.exists_owner ht
      rw [TransactionDoc.owner] at howner
      dsimp only
      rw [howner]
      refine ((held_rescore _ _ _ _).trans (held_incCustomer _ _ _ _)).trans ?_
      refine Prod.ext (add_zero _).symm ?_
      have hcount := length_find_deleteOne ({ merchantId := some m } : TransactionQuery)
        (findOne_transaction.mpr ⟨ht, hid⟩)
      refine hcount.trans (congrArg _ (if_pos ?_))
      exact test_transaction_merchant.mpr hm

theorem held_deleteCustomer (cid m : String) :
    let r := (Call.deleteCustomer cid m).exec bcrypt s
    Changes ((Call.deleteCustomer cid m).changeOf r.1) (s.held m) (r.2.held m) := by
  dsimp only
  rw [Call.exec, Call.code, run_map, run_deleteCustomer]
  cases ObjectId.ofString? cid with
  | none => exact .of_eq (add_zero _).symm
  | some oid =>
    dsimp only
    cases hfound : s.customers.findOne { id := some oid, merchantId := some m } with
    | none => exact .of_eq (add_zero _).symm
    | some c =>
      refine ⟨?_, ?_, fun h => absurd rfl h⟩
      · have hcount := length_find_deleteOne ({ merchantId := some m } : CustomerQuery) hfound
        refine hcount.trans (congrArg _ (if_pos ?_))
        exact test_customer_merchant.mpr (findOne_customer_merchant.mp hfound).2.2
      · refine le_trans ?_ (add_zero _).symm.le
        exact Int.ofNat_le.mpr (length_find_deleteMany_le _ _ _)

/-! An import under fresh identifiers goes through the whole table. -/

theorem idx_lt_of_mem_entries {records : List Record} {e : Entry} (he : e ∈ entries records) :
    e.idx < records.length := by
  obtain ⟨p, hp, rfl⟩ := List.mem_map.mp he
  obtain ⟨-, hlt, -⟩ := List.mem_zipIdx hp
  rw [zero_add] at hlt
  exact hlt

theorem Imported.rows_fresh {env : Env} {m : String} {s₀ : Store} {records : List Record}
    {results : ImportResults} (h : Imported bcrypt env m s₀ records s results) (df : DataFrame)
    (columns : List String) (rows : List Row)
    (hdistinct : ((List.range (records.length + rows.length)).map env.objectId).Nodup)
    (hunused : ∀ k < records.length + rows.length, ∀ c ∈ s₀.customers.docs,
      c.id ≠ env.objectId k) :
    ∃ s' results', run exec (importRows bcrypt env m df columns records.length rows results) s =
        (.ok results', s') ∧
      Imported bcrypt env m s₀ (records ++ rows.map (rowRecord df columns)) s' results' := by
  induction rows generalizing records s results with
  | nil =>
    rw [List.map_nil, List.append_nil]
    exact ⟨s, results, rfl, h⟩
  | cons row rows ih =>
    rw [List.length_cons] at hdistinct hunused
    -- the identifier of the row is neither an old one nor that of an earlier row
    have hnew : ∀ c ∈ s.customers.docs, c.id ≠ env.objectId records.length := by
      intro c hc
      rw [h.customers, List.mem_append] at hc
      rcases hc with hold | hadded
      · exact hunused records.length (by omega) c hold
      · obtain ⟨e, he, rfl⟩ := List.mem_map.mp hadded
        have hlt := idx_lt_of_mem_entries (mem_takenEntries.mp he).1
        intro hid
        have heq := List.inj_on_of_nodup_map hdistinct (List.mem_range.mpr (by omega))
          (List.mem_range.mpr (by omega)) hid
        omega
    rcases h.row df columns row rfl with ⟨s', results', hrun, h'⟩ | ⟨e, hrun⟩
    · have hlength : (records ++ [rowRecord df columns row]).length + rows.length =
          records.length + (rows.length + 1) := by
        rw [List.length_append, List.length_singleton]
        omega
      obtain ⟨s'', results'', hrest, h''⟩ := ih h' (hlength ▸ hdistinct) (hlength ▸ hunused)
      rw [List.length_append, List.length_singleton] at hrest
      rw [List.append_assoc] at h''
      exact ⟨s'', results'', by rw [importRows, run_bind, hrun, andThen_ok, hrest], h''⟩
    · have hkeys : ∀ c ∈ s.customers.docs, key c ≠
          key (importedCustomer bcrypt env m records.length (rowRecord df columns row)) := hnew
      obtain ⟨C, hC, -⟩ := insertOne_of_fresh hkeys
      rw [run_importRow env m df columns records.length row results s rfl, hC] at hrun
      split_ifs at hrun
      · exact absurd (Prod.mk.inj hrun).1 (by simp)
      · exact absurd (Prod.mk.inj hrun).1 (by simp)
      · exact absurd (Prod.mk.inj hrun).1 (by simp)

theorem held_import (env : Env) (m : String) (file : Except String DataFrame)
    (hfresh : (Call.importCustomersFromExcel env m file).Fresh s) :
    let r := (Call.importCustomersFromExcel env m file).exec bcrypt s
    r.2.held m = s.held m + (Call.importCustomersFromExcel env m file).changeOf r.1 := by
  dsimp only
  have hexec : (Call.importCustomersFromExcel env m file).exec bcrypt s =
      ((run exec (importCustomersFromExcel bcrypt env m file) s).1.map .imported,
        (run exec (importCustomersFromExcel bcrypt env m file) s).2) := by
    rw [Call.exec, Call.code, run_map]
  rw [hexec]
  -- a table that is not gone through
  have hrefused : (∃ message, run exec (importCustomersFromExcel bcrypt env m file) s =
      (.ok (.failure message), s)) →
      (run exec (importCustomersFromExcel bcrypt env m file) s).2.held m =
        s.held m + (Call.importCustomersFromExcel env m file).changeOf
          ((run exec (importCustomersFromExcel bcrypt env m file) s).1.map .imported) := by
    rintro ⟨message, hrun⟩
    rw [hrun]
    exact (add_zero _).symm
  cases file with
  | error message => exact hrefused ⟨_, rfl⟩
  | ok df =>
    rcases normaliseHeaders_cases df.columns with ⟨columns, hcolumns⟩ | ⟨e, hcolumns⟩
    · by_cases hrequired : "name" ∈ columns ∧ "phone" ∈ columns
      · obtain ⟨hname, hphone⟩ := hrequired
        have hunused : ∀ k < ([] : List Record).length + df.rows.length,
            ∀ c ∈ s.customers.docs, c.id ≠ env.objectId k := by
          intro k hk
          rw [List.length_nil, zero_add] at hk
          exact (hfresh.unused _ (List.mem_map_of_mem (List.mem_range.mpr hk))).customer
        have hdistinct : ((List.range (([] : List Record).length + df.rows.length)).map
            env.objectId).Nodup := by
          rw [List.length_nil, zero_add]
          exact hfresh.distinct
        obtain ⟨s', results, hrun, h⟩ := (Imported.start bcrypt env m s).rows_fresh df columns
          df.iterrows (df.length_iterrows ▸ hdistinct) (df.length_iterrows ▸ hunused)
        rw [List.nil_append] at h
        rw [List.length_nil] at hrun
        have himport : run exec (importCustomersFromExcel bcrypt env m (.ok df)) s =
            (.ok (.success results), s') := by
          rw [importCustomersFromExcel, importTable_eq env m hcolumns hname hphone, run_catchWith,
            run_bind, hrun]
          rfl
        rw [himport]
        refine Prod.ext ?_ ?_
        · change ((s'.customersOf m).length : ℤ) = (s.customersOf m).length + (results.added : ℤ)
          rw [h.customersOf, List.length_append, List.length_map, h.added]
          omega
        · change ((s'.transactionsBy m).length : ℤ) = (s.transactionsBy m).length + 0
          rw [Store.transactionsBy, h.transactions, add_zero]
          rfl
      · obtain ⟨message, htable⟩ := importTable_of_missing bcrypt env m hcolumns hrequired
        exact hrefused ⟨message, by rw [importCustomersFromExcel, htable]; rfl⟩
    · have htable := importTable_of_raise bcrypt env m hcolumns
      exact hrefused ⟨_, by rw [importCustomersFromExcel, htable]; rfl⟩

/-- **A call changes the numbers as its outcome says.** -/
theorem held_exec (hs : Consistent s) {call : Call} (hfresh : call.Fresh s) :
    let r := call.exec bcrypt s
    Changes (call.changeOf r.1) (s.held call.merchantId) (r.2.held call.merchantId) := by
  cases call with
  | addCustomer env m name phone address pin =>
    exact .of_eq (held_addCustomer env m name phone address pin hfresh)
  | addTransaction env m cid txnType amount note =>
    exact .of_eq (held_addTransaction env m cid txnType amount note hfresh)
  | editTransaction env tid m amount note =>
    exact .of_eq (held_editTransaction env tid m amount note)
  | deleteTransaction env tid m => exact .of_eq (held_deleteTransaction hs env tid m)
  | deleteCustomer cid m => exact held_deleteCustomer cid m
  | updateCustomerPin env cid m pin => exact .of_eq (held_updateCustomerPin env cid m pin)
  | computeCreditScore env m cid => exact .of_eq (held_computeCreditScore env m cid)
  | importCustomersFromExcel env m file => exact .of_eq (held_import env m file hfresh)

end Operations

/-! ### The other merchants -/

section Others

variable {m' : String} {call : Call} {calls : List Call} {logCalls : List LogCall} {t : Trigger}

theorem view_exec_of_sent (hs : s.Divided) (hcall : call.Sent set m s) (hfresh : call.Fresh s)
    (hne : m ≠ m') : (call.exec bcrypt s).2.view m' = s.view m' := by
  have hconfined : Confines call.merchantId call.issued (call.code bcrypt) s :=
    Call.confined hs hfresh.distinct hfresh.unused hcall.scoresOwn
  rw [hcall.merchant] at hconfined
  exact hconfined.view_run_of_ne hne

/-- Scoring changes neither the numbers of a merchant nor anything of another. -/
theorem execAll_scored (hs : s.Divided)
    (hcalls : ∀ call ∈ calls, ∃ env oid, call = .computeCreditScore env m (ObjectId.str oid) ∧
      s.Owns m oid) :
    (execAll bcrypt calls s).held m = s.held m ∧
      ∀ m', m ≠ m' → (execAll bcrypt calls s).view m' = s.view m' := by
  induction calls generalizing s with
  | nil => exact ⟨rfl, fun _ _ => rfl⟩
  | cons call calls ih =>
    obtain ⟨env, oid, rfl, howns⟩ := hcalls _ List.mem_cons_self
    have hscores : (Call.computeCreditScore env m oid.str).ScoresOwn s := by
      intro oid' hoid'
      rw [ObjectId.ofString?_str, Option.mem_some] at hoid'
      exact hoid' ▸ howns
    have hnone : (Call.computeCreditScore env m oid.str).Fresh s :=
      ⟨List.nodup_nil, fun _ h => absurd h List.not_mem_nil⟩
    have hconfined : Confines m [] ((Call.computeCreditScore env m oid.str).code bcrypt) s :=
      Call.confined hs hnone.distinct hnone.unused hscores
    obtain ⟨hheld, hview⟩ := ih (hconfined.divided hs) fun call' hcall' => by
      obtain ⟨env', oid', rfl, howns'⟩ := hcalls call' (List.mem_cons_of_mem _ hcall')
      exact ⟨env', oid', rfl, hconfined.owns howns'⟩
    refine ⟨hheld.trans ?_, fun m' hne => (hview m' hne).trans (hconfined.view_run_of_ne hne)⟩
    refine (held_computeCreditScore env m oid.str).trans ?_
    cases (Call.exec bcrypt (.computeCreditScore env m oid.str) s).1 <;> exact add_zero _

/-- An entry of a merchant is none of another. -/
theorem find_apply_of_ne {c : LogCall} {logs : Logs} (hne : m ≠ m')
    (hc : (∃ env action details, c = .log env m action details) ∨ c = .clear m) :
    (c.apply logs).find (⟨m'⟩ : LogQuery) = logs.find (⟨m'⟩ : LogQuery) := by
  rcases hc with ⟨env, action, details, rfl⟩ | rfl
  · rw [LogCall.apply]
    cases hinsert : logs.insertOne (newLogEntry env m action details) with
    | none => rfl
    | some logs' =>
      have hother : test (⟨m'⟩ : LogQuery) (newLogEntry env m action details) ≠ true :=
        fun h => hne (test_logQuery.mp h)
      rw [Option.getD_some, find, docs_insertOne hinsert, List.filter_append,
        List.filter_cons_of_neg hother, List.filter_nil, List.append_nil]
      rfl
  · exact find_deleteMany_of_ne hne logs

theorem Conduct.find_logs (h : Conduct set t m s calls logCalls) (hne : m ≠ m') (logs : Logs) :
    (after LogCall.apply logs logCalls).find (⟨m'⟩ : LogQuery) = logs.find (⟨m'⟩ : LogQuery) := by
  have hentry : ∀ (env : Env) (action details : String) (logs : Logs),
      ((LogCall.log env m action details).apply logs).find (⟨m'⟩ : LogQuery) =
        logs.find (⟨m'⟩ : LogQuery) := fun env action details logs =>
    find_apply_of_ne hne (.inl ⟨env, action, details, rfl⟩)
  cases h with
  | scored => rfl
  | refused => rfl
  | recorded => exact hentry _ _ _ _
  | noted => exact hentry _ _ _ _
  | cleared => exact (hentry _ _ _ _).trans (find_apply_of_ne hne (.inr rfl))

theorem Conduct.view (h : Conduct set t m s calls logCalls) (hs : s.Divided)
    (hfresh : ∀ call : Call, call.issued = t.issued → call.Fresh s) (hne : m ≠ m') :
    (execAll set.bcrypt calls s).view m' = s.view m' := by
  cases h with
  | scored hcalls =>
    refine (execAll_scored hs fun call hcall => ?_).2 _ hne
    obtain ⟨env, c, hc, hm, rfl⟩ := hcalls call hcall
    exact ⟨env, c.id, rfl, fun c' hc' hid => by rw [← hm, eq_of_key_eq hc' hc hid]⟩
  | refused hcall hids => exact view_exec_of_sent hs hcall (hfresh _ hids) hne
  | recorded hcall hids => exact view_exec_of_sent hs hcall (hfresh _ hids) hne
  | noted => rfl
  | cleared => rfl

theorem Trigger.Fresh.of_issued {site : Site ι} (h : t.Fresh site) (hids : call.issued = t.issued) :
    call.Fresh site.world.ledger :=
  ⟨hids ▸ h.distinct, hids ▸ h.unused⟩

variable [DecidableEq ι]

/-- **A run leaves the other merchants alone**: who is not logged in in its session, before or
after it, has the same documents and the same log. -/
theorem untouched_step {site : Site ι} (hs : Consistent site.world.ledger) {x : ι × Trigger}
    (hfresh : x.2.Fresh site) (hbefore : (site.sessions x.1).userId ≠ m')
    (hafter : ((stepSite set site x).sessions x.1).userId ≠ m') :
    (stepSite set site x).world.ledger.view m' = site.world.ledger.view m' ∧
      (stepSite set site x).logs.find (⟨m'⟩ : LogQuery) = site.logs.find (⟨m'⟩ : LogQuery) := by
  obtain ⟨m, calls, logCalls, h⟩ := conducted_serve set site x
  rw [h.ledger, h.logs]
  constructor
  · by_cases hnil : calls = []
    · rw [hnil]
      rfl
    · have hne : m ≠ m' := (h.caller hnil).2 ▸ hbefore
      exact h.conduct.view hs.divided (fun _ hids => hfresh.of_issued hids) hne
  · by_cases hnil : logCalls = []
    · rw [hnil]
      rfl
    · have hne : m ≠ m' := by
        rcases h.author hnil with hm | hm
        · exact hm ▸ hbefore
        · exact hm ▸ hafter
      exact h.conduct.find_logs hne _

end Others

/-! ### What the log says -/

/-- What an entry says of the numbers; an import says in its details how many it added. -/
def Activity.change (a : Activity) : ℤ × ℤ :=
  if a.action = "ADD_CUSTOMER" then (1, 0)
  else if a.action = "BULK_IMPORT" then (digitsValue a.details.toList, 0)
  else if a.action = "DELETE_CUSTOMER" then (-1, 0)
  else if a.action = "ADD_TXN" then (0, 1)
  else if a.action = "DELETE_TXN" then (0, -1)
  else 0

/-- The numbers, as the entries tell them. -/
def recount (acts : List Activity) : ℤ × ℤ := (acts.map Activity.change).sum

/-- The entries account for these numbers.  Who deletes a customer loses its transactions,
which are not logged one by one. -/
structure Reconciles (acts : List Activity) (held : ℤ × ℤ) : Prop where
  customers : held.1 = (recount acts).1
  transactions : held.2 ≤ (recount acts).2
  exact : (∀ a ∈ acts, a.action ≠ "DELETE_CUSTOMER") → held.2 = (recount acts).2

theorem digitsValue_imported (n : ℕ) :
    digitsValue (s!"{n} customers imported" : String).toList = n := by
  have hdigits : (toString n).toList = Nat.toDigits 10 n := Nat.toList_repr
  have htail : (" customers imported" : String).toList.filter Char.isDigit = [] := by decide
  have htext : (s!"{n} customers imported" : String).toList =
      Nat.toDigits 10 n ++ (" customers imported" : String).toList := by
    rw [← hdigits, ← String.toList_append]
    rfl
  rw [htext, digitsValue, List.filter_append, htail, List.append_nil]
  exact digitsValue_toDigits n

section Trail

variable {call : Call} {o : Outcome} {action details : String} {acts : List Activity}
  {held held' δ : ℤ × ℤ}

/-- **The entry of a call says what the call has changed.** -/
theorem Call.Records.change (h : call.Records o action details) (time : Time) :
    Activity.change ⟨time, action, details⟩ = call.change o := by
  cases h with
  | addCustomer => rfl
  | importCustomers env m file r added hadded =>
    subst hadded
    change ((digitsValue _ : ℤ), (0 : ℤ)) = ((r.added : ℤ), (0 : ℤ))
    rw [digitsValue_imported]
  | updatePin => rfl
  | deleteCustomer => rfl
  | addTransaction => rfl
  | editTransaction => rfl
  | deleteTransaction => rfl

/-- Only the deletion of a customer takes one away. -/
theorem Call.Records.action_eq (h : call.Records o action details) (hδ : (call.change o).1 = -1) :
    action = "DELETE_CUSTOMER" := by
  cases h with
  | deleteCustomer => rfl
  | addCustomer => exact absurd hδ (by simp [Call.change])
  | importCustomers env m file r =>
    have hadded : (r.added : ℤ) = -1 := hδ
    omega
  | updatePin => exact absurd hδ (by simp [Call.change])
  | addTransaction => exact absurd hδ (by simp [Call.change])
  | editTransaction => exact absurd hδ (by simp [Call.change])
  | deleteTransaction => exact absurd hδ (by simp [Call.change])

theorem change_of_refused (h : ¬o.Succeeded) : call.change o = 0 := by
  unfold Call.change
  split
  · exact absurd ⟨_, rfl⟩ h
  · exact absurd ⟨_, rfl⟩ h
  · exact absurd rfl h
  · exact absurd ⟨_, rfl⟩ h
  · exact absurd rfl h
  · rfl

theorem recount_append (acts acts' : List Activity) :
    recount (acts ++ acts') = recount acts + recount acts' := by
  rw [recount, List.map_append, List.sum_append, recount, recount]

/-- **An entry keeps the log reconciled**, if it says what has changed. -/
theorem Reconciles.append (h : Reconciles acts held) (hchange : Changes δ held held')
    {a : Activity} (ha : a.change = δ) (hdelete : δ.1 = -1 → a.action = "DELETE_CUSTOMER") :
    Reconciles (acts ++ [a]) held' := by
  have hrecount : recount (acts ++ [a]) = recount acts + δ := by
    rw [recount_append, ← ha, recount, recount, List.map_singleton, List.sum_singleton]
  have hcustomers := h.customers
  have htransactions := h.transactions
  refine ⟨?_, ?_, fun hnone => ?_⟩
  · rw [hchange.customers, hrecount, Prod.fst_add]
    omega
  · have hle := hchange.transactions
    rw [hrecount, Prod.snd_add]
    omega
  · have hkept : δ.1 ≠ -1 := fun hδ => hnone a (by simp) (hdelete hδ)
    have hexact := h.exact fun b hb => hnone b (List.mem_append_left _ hb)
    rw [hchange.exact hkept, hrecount, Prod.snd_add]
    omega

/-- Nothing is logged, and no number has changed. -/
theorem Reconciles.of_changes (h : Reconciles acts held) (hchange : Changes 0 held held') :
    Reconciles acts held' := by
  have hcustomers := hchange.customers
  have htransactions := hchange.exact (by decide)
  simp only [Prod.fst_zero, Prod.snd_zero, add_zero] at hcustomers htransactions
  rw [show held' = held from Prod.ext hcustomers htransactions]
  exact h

end Trail

/-! ### Log and ledger -/

/-- The log of the merchant, if it was not cleared, accounts for what the merchant has. -/
def Audited (m : String) (s : Store) (logs : Logs) : Prop :=
  (∀ a ∈ Logs.activities m logs, a.action ≠ "CLEAR_LOG") →
    Reconciles (Logs.activities m logs) (s.held m)

section Audited

variable {call : Call} {calls : List Call} {logCalls : List LogCall} {t : Trigger} {logs : Logs}

theorem activities_log {logEnv : Env} {action details : String}
    (hfresh : ∀ l ∈ logs.docs, l.id ≠ logEnv.objectId 0) :
    Logs.activities m (LogCall.apply logs (.log logEnv m action details)) =
      Logs.activities m logs ++ [⟨logEnv.utcnow 0, action, details⟩] := by
  have hissued : ∀ oid ∈ (LogCall.log logEnv m action details).issued, ∀ l ∈ logs.docs,
      l.id ≠ oid := fun oid hoid l hl => List.mem_singleton.mp hoid ▸ hfresh l hl
  rw [activities_apply hissued, LogCall.extend, if_pos rfl]

theorem changes_of_sent (hs : Consistent s) (hcall : call.Sent set m s) (hfresh : call.Fresh s) :
    Changes (call.changeOf (call.exec set.bcrypt s).1) (s.held m)
      ((execAll set.bcrypt [call] s).held m) := by
  have hchanges : Changes _ (s.held call.merchantId)
      ((call.exec set.bcrypt s).2.held call.merchantId) := held_exec hs hfresh
  rw [hcall.merchant] at hchanges
  exact hchanges

/-- **What a run does keeps log and ledger together.** -/
theorem Conduct.audited (h : Conduct set t m s calls logCalls) (hs : Consistent s)
    (hfresh : ∀ call : Call, call.issued = t.issued → call.Fresh s)
    (hlogs : ∀ oid ∈ t.logIssued, ∀ l ∈ logs.docs, l.id ≠ oid) (haudited : Audited m s logs) :
    Audited m (execAll set.bcrypt calls s) (after LogCall.apply logs logCalls) := by
  intro hclear
  cases h with
  | scored hcalls =>
    have hheld : (execAll set.bcrypt calls s).held m = s.held m := by
      refine (execAll_scored hs.divided fun call hcall => ?_).1
      obtain ⟨env, c, hc, hm, rfl⟩ := hcalls call hcall
      exact ⟨env, c.id, rfl, fun c' hc' hid => by rw [← hm, eq_of_key_eq hc' hc hid]⟩
    rw [hheld]
    exact haudited hclear
  | refused hcall hids hout =>
    have hchanges := changes_of_sent hs hcall (hfresh _ hids)
    refine (haudited hclear).of_changes ?_
    rename_i call
    cases hanswer : (call.exec set.bcrypt s).1 with
    | error e =>
      rw [hanswer] at hchanges
      exact hchanges
    | ok o =>
      rw [hanswer, Call.changeOf, change_of_refused (hout o hanswer)] at hchanges
      exact hchanges
  | recorded hcall hids hout hrec hlog =>
    have hchanges := changes_of_sent hs hcall (hfresh _ hids)
    rw [hout, Call.changeOf] at hchanges
    rw [after_cons, after_nil, activities_log (hlogs _ hlog)] at hclear ⊢
    have hold := haudited fun a ha => hclear a (List.mem_append_left _ ha)
    exact hold.append hchanges (hrec.change _) fun hδ => hrec.action_eq hδ
  | noted details haction hlog =>
    rw [after_cons, after_nil, activities_log (hlogs _ hlog)] at hclear ⊢
    have hold := haudited fun a ha => hclear a (List.mem_append_left _ ha)
    refine hold.append (.of_eq (add_zero _).symm) ?_ fun hδ => absurd hδ (by decide)
    simp only [List.mem_cons, List.not_mem_nil, or_false] at haction
    rcases haction with rfl | rfl | rfl
    · rfl
    · rfl
    · rfl
  | cleared hlog =>
    -- a log that was cleared says so
    rw [after_cons, after_cons, after_nil, activities_log] at hclear
    · exact absurd rfl (hclear _ (List.mem_append_right _ List.mem_cons_self))
    · intro l hl
      exact hlogs _ hlog l (mem_deleteMany.mp hl).1

variable [DecidableEq ι]

/-- A run keeps the log of every merchant. -/
theorem audited_step {site : Site ι} (hs : Consistent site.world.ledger) {x : ι × Trigger}
    (hfresh : x.2.Fresh site) (haudited : Audited m site.world.ledger site.logs) :
    Audited m (stepSite set site x).world.ledger (stepSite set site x).logs := by
  obtain ⟨m₀, calls, logCalls, h⟩ := conducted_serve set site x
  rw [h.ledger, h.logs]
  by_cases hm : m₀ = m
  · subst hm
    exact h.conduct.audited hs (fun _ hids => hfresh.of_issued hids) hfresh.unlogged haudited
  · have hview := h.conduct.view hs.divided (fun _ hids => hfresh.of_issued hids) hm
    have hactivities : Logs.activities m (after LogCall.apply site.logs logCalls) =
        Logs.activities m site.logs := by
      rw [Logs.activities, h.conduct.find_logs hm, Logs.activities]
    rw [Audited, hactivities, held_of_view_eq hview]
    exact haudited

/-- **The log of a merchant accounts for what the merchant has.**  Whatever the sessions have
done, one run after the other and with fresh identifiers: a merchant that has not cleared its
log has as many customers as its entries say were added, imported and deleted, and at most as
many transactions as they say were added and deleted, the others having gone with a deleted
customer; where no customer was deleted, exactly as many. -/
theorem log_reconciles (set : Setting) (gateway : ℕ → Response) {xs : List (ι × Trigger)}
    (hfresh : Along (stepSite set) (fun site x => x.2.Fresh site) (Site.start gateway) xs)
    (m : String) :
    let site := after (stepSite set) (Site.start gateway) xs
    let acts := Logs.activities m site.logs
    (∀ a ∈ acts, a.action ≠ "CLEAR_LOG") →
      ((site.world.ledger.customersOf m).length : ℤ) = (recount acts).1 ∧
        ((site.world.ledger.transactionsBy m).length : ℤ) ≤ (recount acts).2 ∧
        ((∀ a ∈ acts, a.action ≠ "DELETE_CUSTOMER") →
          ((site.world.ledger.transactionsBy m).length : ℤ) = (recount acts).2) := by
  have hrun := hfresh.preserves (I := fun site => Reachable set.bcrypt site.world.ledger ∧
    Audited m site.world.ledger site.logs) (fun site x hx hI => ?_) ⟨.empty, fun _ => ?_⟩
  · intro site acts hclear
    have hreconciles := hrun.2 hclear
    exact ⟨hreconciles.customers, hreconciles.transactions, hreconciles.exact⟩
  · obtain ⟨hreach, haudited⟩ := hI
    exact ⟨reachable_step hreach x, audited_step hreach.consistent hx haudited⟩
  · exact ⟨rfl, le_refl _, fun _ => rfl⟩

/-- **A merchant's documents change in its own sessions only.**  As long as the runs of a
served site, with fresh identifiers, are those of sessions in which the merchant `m` is not
logged in, neither before a run nor after it, the customers, the transactions and the log of
`m` stay as they are. -/
theorem others_untouched (set : Setting) (gateway : ℕ → Response) (xs : List (ι × Trigger))
    {ys : List (ι × Trigger)} (m : String)
    (hothers : Along (stepSite set) (fun site x => x.2.Fresh site ∧
      (site.sessions x.1).userId ≠ m ∧ ((stepSite set site x).sessions x.1).userId ≠ m)
      (after (stepSite set) (Site.start gateway) xs) ys) :
    let site := after (stepSite set) (Site.start gateway) xs
    let site' := after (stepSite set) site ys
    site'.world.ledger.view m = site.world.ledger.view m ∧
      site'.logs.find (⟨m⟩ : LogQuery) = site.logs.find (⟨m⟩ : LogQuery) := by
  intro site site'
  have hrun := hothers.preserves (I := fun site₁ => Reachable set.bcrypt site₁.world.ledger ∧
    site₁.world.ledger.view m = site.world.ledger.view m ∧
    site₁.logs.find (⟨m⟩ : LogQuery) = site.logs.find (⟨m⟩ : LogQuery)) ?_
    ⟨reachable_served set gateway xs, rfl, rfl⟩
  · exact hrun.2
  · rintro site₁ x ⟨hfresh, hbefore, hafter⟩ ⟨hreach, hview, hlog⟩
    obtain ⟨hview', hlog'⟩ := untouched_step hreach.consistent hfresh hbefore hafter
    exact ⟨reachable_step hreach x, hview'.trans hview, hlog'.trans hlog⟩

end Audited

/-! ### A small run -/

/-- A merchant registers, logs in, and adds a customer, who buys and pays; a second one
registers and logs in, in another session. -/
def sampleRuns : List (Bool × Trigger) :=
  [(false, .page (.auth (.register (.sample 1 0) "asha" "Asha Stores" "98" "pw" "pw"))),
    (false, .page (.auth (.login (.sample 2 1) "asha" "pw"))),
    (false, .page (.customers (.add (.sample 3 2) (.sample 4 2) "Ravi" "99" "" "1234"))),
    (false, .page (.transactions (.record (.sample 5 3) (.sample 6 3) "Ravi" .credit
      ⟨50, by norm_num⟩ "" none))),
    (true, .page (.auth (.register (.sample 7 4) "bina" "Bina Stores" "97" "pw" "pw"))),
    (true, .page (.auth (.login (.sample 8 5) "bina" "pw")))]

theorem log_reconciles_sample :
    let site := after (stepSite sampleSetting) (Site.start fun _ => .failure "timed out")
      sampleRuns
    let acts := Logs.activities (ObjectId.ofNat 1).str site.logs
    ((site.world.ledger.customersOf (ObjectId.ofNat 1).str).length : ℤ) = (recount acts).1 ∧
      ((site.world.ledger.transactionsBy (ObjectId.ofNat 1).str).length : ℤ) ≤
        (recount acts).2 ∧
      ((∀ a ∈ acts, a.action ≠ "DELETE_CUSTOMER") →
        ((site.world.ledger.transactionsBy (ObjectId.ofNat 1).str).length : ℤ) =
          (recount acts).2) :=
  log_reconciles sampleSetting (fun _ => .failure "timed out") (by decide +kernel)
    (ObjectId.ofNat 1).str (by decide +kernel)

/-- A third run of the second merchant. -/
def sampleOthers : List (Bool × Trigger) :=
  [(true, .page (.customers (.add (.sample 9 6) (.sample 10 6) "Dev" "99" "" "")))]

theorem others_untouched_sample :
    let site := after (stepSite sampleSetting) (Site.start fun _ => .failure "timed out")
      sampleRuns
    let site' := after (stepSite sampleSetting) site sampleOthers
    site'.world.ledger.view (ObjectId.ofNat 1).str =
        site.world.ledger.view (ObjectId.ofNat 1).str ∧
      site'.logs.find (⟨(ObjectId.ofNat 1).str⟩ : LogQuery) =
        site.logs.find (⟨(ObjectId.ofNat 1).str⟩ : LogQuery) :=
  others_untouched sampleSetting (fun _ => .failure "timed out") sampleRuns
    (ObjectId.ofNat 1).str (by decide +kernel)

end DigitalLedger
