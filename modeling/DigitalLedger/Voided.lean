import DigitalLedger.Integrity
import DigitalLedger.Lib.Purge
import DigitalLedger.Lib.Relational

/-!
# What is voided leaves no trace

A transaction that is deleted, or that goes with its customer, has moved running figures and
scores while it was there.  Running figures are sums over what is stored, so nothing of it is
left in them; and no call looks at them to decide what to do.  So the calls about transactions
that are gone in the end can be left out of the history.

## Main definitions

* `CustomerDoc.bare`, `CustomerDoc.unscored` — a customer without its figures and scores, and
  without its scores alone.
* `Store.outline T s` — the bare customers, and the transactions that are not in `T`.
* `Call.About T c` — the call records, edits or deletes a transaction in `T`.

## Main results

* `outline_exec_about` — such a call leaves the outline as it is.
* `outline_exec` — any other leaves the same outline of stores with the same outline.
* `voided_leave_no_trace` — the calls about transactions that are gone can be left out.
-/

namespace DigitalLedger

open Collection Prog

/-! ### Outlines -/

/-- The customer without what follows from the transactions. -/
def CustomerDoc.bare {κ : Type} (c : CustomerDoc κ) : CustomerDoc κ :=
  { c with
    balance := 0
    totalCredit := 0
    totalPaid := 0
    creditScore := 100
    riskCategory := .lowRisk
    lastTransaction := none }

/-- The customer without its score, and without the date of its last transaction. -/
def CustomerDoc.unscored {κ : Type} (c : CustomerDoc κ) : CustomerDoc κ :=
  { c with
    creditScore := 100
    riskCategory := .lowRisk
    lastTransaction := none }

/-- The bare customers, and the transactions that are not in `T`. -/
def Store.outline (T : List ObjectId) (s : Store) : List Customer × List Transaction :=
  (s.customers.docs.map CustomerDoc.bare, s.transactions.docs.filter fun t => decide (t.id ∉ T))

variable {T T' : List ObjectId} {s s' : Store} {bcrypt : Bcrypt}

@[simp] theorem outline_incCustomer (oid : ObjectId) (δ : Totals) (last : Option Time)
    (s : Store) : (s.incCustomer oid δ last).outline T = s.outline T :=
  congrArg (·, _) (map_updateOne (fun _ => rfl) _ _)

@[simp] theorem outline_rescore (now : Time) (cid : String) (oid : ObjectId) (s : Store) :
    (s.rescore now cid oid).outline T = s.outline T := by
  rw [Store.rescore]
  cases s.customers.findOne { id := some oid } with
  | none => rfl
  | some c => exact congrArg (·, _) (map_updateOne (fun _ => rfl) _ _)

/-! ### What an outline tells of the customers -/

/-- Where the customers have the same outline, a search by what is in it finds the same. -/
theorem findOne_bare (h : s.customers.docs.map CustomerDoc.bare =
    s'.customers.docs.map CustomerDoc.bare) {q : CustomerQuery} (hq : q.balanceGt = none) :
    (s.customers.findOne q).map CustomerDoc.bare =
      (s'.customers.findOne q).map CustomerDoc.bare := by
  have hfind : ∀ s : Store, (s.customers.findOne q).map CustomerDoc.bare =
      (s.customers.docs.map CustomerDoc.bare).find? (test q) := by
    intro s
    rw [List.find?_map]
    refine congrArg (Option.map _) (congrArg (List.find? · _) (funext fun c => ?_))
    show q.test c = q.test c.bare
    rw [CustomerQuery.test, CustomerQuery.test, hq]
    rfl
  rw [hfind, hfind, h]

/-- Whether an identifier is taken can be seen in the outline. -/
theorem insertOne_customer_bare (h : s.customers.docs.map CustomerDoc.bare =
    s'.customers.docs.map CustomerDoc.bare) {c : Customer} :
    s.customers.insertOne c = none ↔ s'.customers.insertOne c = none := by
  have hids : s.customers.docs.map CustomerDoc.id = s'.customers.docs.map CustomerDoc.id := by
    have := congrArg (List.map CustomerDoc.id) h
    rwa [List.map_map, List.map_map] at this
  have htaken : ∀ s : Store, s.customers.insertOne c = none ↔
      c.id ∈ s.customers.docs.map CustomerDoc.id := by
    intro s
    rw [insertOne_eq_none, List.mem_map]
    exact Iff.rfl
  rw [htaken, htaken, hids]

/-- A call of `add_customer` answers the same, and leaves the same outline. -/
theorem alike_addCustomer (env : Env) (m name phone address pin : String) :
    Alike exec (fun s s' : Store => s.outline T = s'.outline T')
      (addCustomer bcrypt env m name phone address pin)
      (addCustomer bcrypt env m name phone address pin) := by
  intro s s' h
  obtain ⟨hcustomers, htransactions⟩ := Prod.mk.inj h
  have hfound := findOne_bare hcustomers (q := { merchantId := some m, phone := some phone }) rfl
  have hsome : (s.customers.findOne { merchantId := some m, phone := some phone }).isSome =
      (s'.customers.findOne { merchantId := some m, phone := some phone }).isSome := by
    rw [← Option.isSome_map (f := CustomerDoc.bare), hfound, Option.isSome_map]
  have htaken := insertOne_customer_bare hcustomers
    (c := newCustomer bcrypt env m name phone address pin)
  rw [run_addCustomer, run_addCustomer, hsome]
  split
  · exact ⟨rfl, h⟩
  cases hC : s.customers.insertOne (newCustomer bcrypt env m name phone address pin) with
  | none =>
    rw [htaken.mp hC]
    exact ⟨rfl, h⟩
  | some C =>
    cases hC' : s'.customers.insertOne (newCustomer bcrypt env m name phone address pin) with
    | none => exact absurd (hC.symm.trans (htaken.mpr hC')) (Option.some_ne_none C)
    | some C' =>
      refine ⟨rfl, Prod.ext ?_ htransactions⟩
      show C.docs.map _ = C'.docs.map _
      rw [docs_insertOne hC, docs_insertOne hC', List.map_append, List.map_append, hcustomers]

/-- So does an import, row after row. -/
theorem alike_importRows (env : Env) (m : String) (df : DataFrame) (columns : List String)
    (rows : List Row) (idx : ℕ) (results : ImportResults) :
    Alike exec (fun s s' : Store => s.outline T = s'.outline T')
      (importRows bcrypt env m df columns idx rows results)
      (importRows bcrypt env m df columns idx rows results) := by
  induction rows generalizing idx results with
  | nil => exact .ret _
  | cons row rows ih =>
    refine Alike.bind ?_ fun results' => ih (idx + 1) results'
    rcases importRow_cases bcrypt env m df columns idx row results with
      ⟨results', heq⟩ | ⟨name, phone, address, count, heq, hcount⟩
    · rw [heq]
      exact .ret _
    · rw [heq]
      refine (alike_addCustomer _ _ _ _ _ _).bind fun reply => ?_
      obtain ⟨results', hresults⟩ := hcount reply
      rw [hresults]
      exact .ret _

theorem alike_import (env : Env) (m : String) (file : Except String DataFrame) :
    Alike exec (fun s s' : Store => s.outline T = s'.outline T')
      (importCustomersFromExcel bcrypt env m file)
      (importCustomersFromExcel bcrypt env m file) := by
  refine Alike.catchWith ?_ fun e => .ret _
  cases file with
  | error message => exact .raise _
  | ok df =>
    refine Alike.bind (Alike.of_uses (fun _ hc => hc.elim)
      (uses_normaliseHeaders (P := fun _ => False) df.columns)) fun columns => ?_
    dsimp only
    split
    · exact .ret _
    · exact (alike_importRows _ _ _ _ _ _ _).bind fun results => .ret _

/-! ### The calls that write customers -/

/-- The PIN is all that changes. -/
theorem outline_updateCustomerPin (h : s.outline T = s'.outline T') (env : Env) (oid : ObjectId)
    (m pin : String) : (run exec (updateCustomerPin bcrypt env oid.str m pin) s).2.outline T =
      (run exec (updateCustomerPin bcrypt env oid.str m pin) s').2.outline T' := by
  obtain ⟨hcustomers, htransactions⟩ := Prod.mk.inj h
  rw [run_updateCustomerPin, run_updateCustomerPin, ObjectId.ofString?_str]
  refine Prod.ext ?_ htransactions
  let u : CustomerUpdate := { portalPin := some (hashPin bcrypt env pin) }
  have hset : ∀ s : Store,
      ((s.customers.updateOne { id := some oid, merchantId := some m } u).docs).map
        CustomerDoc.bare = (s.customers.docs.map CustomerDoc.bare).updateFirst
          (test ({ id := some oid, merchantId := some m } : CustomerQuery))
            fun c => (u.apply c).bare := by
    intro s
    refine List.map_updateFirst_of_comm (fun c => ?_) (fun c => ?_) _
    · rfl
    · rfl
  exact (hset s).trans ((congrArg (List.updateFirst _ _) hcustomers).trans (hset s').symm)

/-- The customer goes, and the transactions that carry its identifier. -/
theorem outline_deleteCustomer (h : s.outline T = s'.outline T') (oid : ObjectId) (m : String) :
    (run exec (deleteCustomer oid.str m) s).2.outline T =
      (run exec (deleteCustomer oid.str m) s').2.outline T' := by
  obtain ⟨hcustomers, htransactions⟩ := Prod.mk.inj h
  have hfound := findOne_bare hcustomers (q := { id := some oid, merchantId := some m }) rfl
  rw [run_deleteCustomer, run_deleteCustomer, ObjectId.ofString?_str]
  dsimp only
  cases hc : s.customers.findOne { id := some oid, merchantId := some m } with
  | none =>
    rw [hc, Option.map_none, eq_comm, Option.map_eq_none_iff] at hfound
    rw [hfound]
    exact h
  | some c =>
    rw [hc, Option.map_some, eq_comm, Option.map_eq_some_iff] at hfound
    obtain ⟨c', hc', -⟩ := hfound
    rw [hc']
    refine Prod.ext ?_ ?_
    · have hgone : ∀ s : Store,
          (s.customers.deleteOne { id := some oid, merchantId := some m }).docs.map
            CustomerDoc.bare = (s.customers.docs.map CustomerDoc.bare).eraseP
              (test ({ id := some oid, merchantId := some m } : CustomerQuery)) := by
        intro s
        rw [List.eraseP_map]
        rfl
      exact (hgone s).trans ((congrArg (List.eraseP _) hcustomers).trans (hgone s').symm)
    · have hgone : ∀ (T : List ObjectId) (s : Store),
          (s.transactions.deleteMany { customerId := some oid.str }).docs.filter
            (fun t => decide (t.id ∉ T)) = (s.transactions.docs.filter
              fun t => decide (t.id ∉ T)).filter
                fun t => !test ({ customerId := some oid.str } : TransactionQuery) t := by
        intro T s
        rw [docs_deleteMany, List.filter_filter, List.filter_filter]
        exact List.filter_congr fun t _ => Bool.and_comm _ _
      exact (hgone T s).trans ((congrArg (List.filter _) htransactions).trans (hgone T' s').symm)

/-! ### The calls that write transactions -/

/-- Whether an identifier that is not in `T` is taken can be seen in the outline. -/
theorem insertOne_transaction_outline
    (h : s.transactions.docs.filter (fun t => decide (t.id ∉ T)) =
      s'.transactions.docs.filter fun t => decide (t.id ∉ T')) {t : Transaction}
    (hT : t.id ∉ T) (hT' : t.id ∉ T') :
    s.transactions.insertOne t = none ↔ s'.transactions.insertOne t = none := by
  have htaken : ∀ {T : List ObjectId} {s : Store}, t.id ∉ T →
      (s.transactions.insertOne t = none ↔
        ∃ r ∈ s.transactions.docs.filter (fun t => decide (t.id ∉ T)), r.id = t.id) := by
    intro T s hT
    rw [insertOne_eq_none]
    constructor
    · rintro ⟨r, hr, hid⟩
      have hid : r.id = t.id := hid
      exact ⟨r, List.mem_filter.mpr ⟨hr, decide_eq_true (hid ▸ hT)⟩, hid⟩
    · rintro ⟨r, hr, hid⟩
      exact ⟨r, List.mem_of_mem_filter hr, hid⟩
  rw [htaken hT, htaken hT', h]

/-- What is left of the outline once the figures and the score have followed. -/
theorem snd_addTransaction (env : Env) (m : String) (oid : ObjectId) (txnType : String)
    (amount : ℚ) (note : String) (s : Store) :
    (run exec (addTransaction env m oid.str txnType amount note) s).2.outline T =
      if amount ≤ 0 then s.outline T else
        match TxnType.ofString? txnType with
        | none => s.outline T
        | some type =>
          match s.customers.findOne { id := some oid, merchantId := some m } with
          | none => s.outline T
          | some c =>
            match s.transactions.insertOne (newTransaction env m oid.str c type amount note) with
            | none => s.outline T
            | some C => ({ s with transactions := C } : Store).outline T := by
  rw [run_addTransaction, ObjectId.ofString?_str]
  split
  · rfl
  cases TxnType.ofString? txnType with
  | none => rfl
  | some type =>
    dsimp only
    cases s.customers.findOne { id := some oid, merchantId := some m } with
    | none => rfl
    | some c =>
      dsimp only
      cases s.transactions.insertOne (newTransaction env m oid.str c type amount note) with
      | none => rfl
      | some C =>
        dsimp only
        split
        · rw [outline_rescore, outline_incCustomer]
        · rw [outline_rescore, outline_incCustomer]

theorem outline_addTransaction (h : s.outline T = s'.outline T') {env : Env}
    (hT : env.objectId 0 ∉ T) (hT' : env.objectId 0 ∉ T') (m : String) (oid : ObjectId)
    (txnType : String) (amount : ℚ) (note : String) :
    (run exec (addTransaction env m oid.str txnType amount note) s).2.outline T =
      (run exec (addTransaction env m oid.str txnType amount note) s').2.outline T' := by
  obtain ⟨hcustomers, htransactions⟩ := Prod.mk.inj h
  have hfound := findOne_bare hcustomers (q := { id := some oid, merchantId := some m }) rfl
  rw [snd_addTransaction, snd_addTransaction]
  split
  · exact h
  cases TxnType.ofString? txnType with
  | none => exact h
  | some type =>
    dsimp only
    cases hc : s.customers.findOne { id := some oid, merchantId := some m } with
    | none =>
      rw [hc, Option.map_none, eq_comm, Option.map_eq_none_iff] at hfound
      rw [hfound]
      exact h
    | some c =>
      rw [hc, Option.map_some, eq_comm, Option.map_eq_some_iff] at hfound
      obtain ⟨c', hc', hbare⟩ := hfound
      -- of the customer the transaction takes the name only
      have hname : c'.bare.name = c.bare.name := congrArg CustomerDoc.name hbare
      have hnew : newTransaction env m oid.str c' type amount note =
          newTransaction env m oid.str c type amount note := by
        rw [newTransaction, newTransaction, show c'.name = c.name from hname]
      have htaken := insertOne_transaction_outline htransactions
        (t := newTransaction env m oid.str c type amount note) hT hT'
      rw [hc']
      dsimp only
      rw [hnew]
      cases hC : s.transactions.insertOne (newTransaction env m oid.str c type amount note) with
      | none =>
        rw [htaken.mp hC]
        exact h
      | some C =>
        cases hC' : s'.transactions.insertOne
            (newTransaction env m oid.str c type amount note) with
        | none => exact absurd (hC.symm.trans (htaken.mpr hC')) (Option.some_ne_none C)
        | some C' =>
          refine Prod.ext hcustomers ?_
          have hkept : ∀ {T : List ObjectId}, env.objectId 0 ∉ T →
              [newTransaction env m oid.str c type amount note].filter
                (fun t => decide (t.id ∉ T)) =
                  [newTransaction env m oid.str c type amount note] := by
            intro T hT
            refine List.filter_eq_self.mpr fun t ht => ?_
            rw [List.mem_singleton.mp ht]
            exact decide_eq_true hT
          show C.docs.filter _ = C'.docs.filter _
          rw [docs_insertOne hC, docs_insertOne hC', List.filter_append, List.filter_append,
            htransactions, hkept hT, hkept hT']

/-- A transaction in `T` does not show. -/
theorem outline_addTransaction_of_mem {env : Env} (hT : env.objectId 0 ∈ T) (m : String)
    (oid : ObjectId) (txnType : String) (amount : ℚ) (note : String) (s : Store) :
    (run exec (addTransaction env m oid.str txnType amount note) s).2.outline T =
      s.outline T := by
  rw [snd_addTransaction]
  split
  · rfl
  cases TxnType.ofString? txnType with
  | none => rfl
  | some type =>
    dsimp only
    cases s.customers.findOne { id := some oid, merchantId := some m } with
    | none => rfl
    | some c =>
      dsimp only
      cases hC : s.transactions.insertOne (newTransaction env m oid.str c type amount note) with
      | none => rfl
      | some C =>
        refine Prod.ext rfl ?_
        show C.docs.filter _ = _
        have hgone : [newTransaction env m oid.str c type amount note].filter
            (fun t => decide (t.id ∉ T)) = [] := by
          refine List.filter_eq_nil_iff.mpr fun t ht h => ?_
          rw [List.mem_singleton.mp ht] at h
          exact of_decide_eq_true h hT
        rw [docs_insertOne hC, List.filter_append, hgone, List.append_nil]
        rfl

/-- An edit or a deletion of the transaction `oid`. -/
theorem outline_write (oid : ObjectId) (w : Option TransactionUpdate) (s : Store) :
    (s.write oid w).outline T = (s.customers.docs.map CustomerDoc.bare,
      if oid ∈ T then s.transactions.docs.filter fun t => decide (t.id ∉ T)
      else match w with
        | some u => (s.transactions.docs.filter fun t => decide (t.id ∉ T)).updateFirst
            (test ({ id := some oid } : TransactionQuery)) u.apply
        | none => (s.transactions.docs.filter fun t => decide (t.id ∉ T)).eraseP
            (test ({ id := some oid } : TransactionQuery))) := by
  refine Prod.ext (by rw [Store.outline, customers_write]) ?_
  have hid : ∀ t : Transaction, test ({ id := some oid } : TransactionQuery) t = true →
      t.id = oid := fun t ht => test_transaction_id.mp ht
  show (s.write oid w).transactions.docs.filter _ = _
  dsimp only
  split
  · next hT =>
    have hgone : ∀ t ∈ s.transactions.docs, test ({ id := some oid } : TransactionQuery) t = true →
        ¬decide (t.id ∉ T) = true := fun t _ ht h => of_decide_eq_true h (hid t ht ▸ hT)
    cases w with
    | some u => exact List.filter_updateFirst_of_disjoint (fun _ => rfl) hgone
    | none => exact List.filter_eraseP_of_disjoint hgone
  · next hT =>
    have hkept : ∀ t ∈ s.transactions.docs, test ({ id := some oid } : TransactionQuery) t = true →
        decide (t.id ∉ T) = true := fun t _ ht => decide_eq_true (hid t ht ▸ hT)
    cases w with
    | some u => exact List.filter_updateFirst_of_imp (fun _ => rfl) hkept
    | none => exact List.filter_eraseP_of_imp hkept

/-- The transaction of a text is written, if it is one of the merchant. -/
def Store.writeFor (m tid : String) (w : Option TransactionUpdate) (s : Store) : Store :=
  match ObjectId.ofString? tid with
  | none => s
  | some oid =>
    if (s.transactions.findOne { id := some oid, merchantId := some m }).isSome then s.write oid w
    else s

/-- An edit writes the transaction; figures and score follow. -/
theorem snd_editTransaction (env : Env) (tid m : String) (amount : ℚ) (note : String)
    (s : Store) : (run exec (editTransaction env tid m amount note) s).2.outline T =
      (s.writeFor m tid (some ⟨amount, note, true, env.utcnow 0⟩)).outline T := by
  rw [run_editTransaction, Store.writeFor]
  cases ObjectId.ofString? tid with
  | none => rfl
  | some oid =>
    dsimp only
    cases s.transactions.findOne { id := some oid, merchantId := some m } with
    | none => rfl
    | some t =>
      dsimp only
      cases ObjectId.ofString? t.customerId with
      | none => rfl
      | some coid =>
        dsimp only
        rw [outline_rescore, outline_incCustomer]
        rfl

/-- So does a deletion. -/
theorem snd_deleteTransaction (env : Env) (tid m : String) (s : Store) :
    (run exec (deleteTransaction env tid m) s).2.outline T =
      (s.writeFor m tid none).outline T := by
  rw [run_deleteTransaction, Store.writeFor]
  cases ObjectId.ofString? tid with
  | none => rfl
  | some oid =>
    dsimp only
    cases s.transactions.findOne { id := some oid, merchantId := some m } with
    | none => rfl
    | some t =>
      dsimp only
      cases ObjectId.ofString? t.customerId with
      | none => rfl
      | some coid =>
        dsimp only
        rw [outline_rescore, outline_incCustomer]
        rfl

/-- Whether a transaction is found that is not in `T` can be seen in the outline. -/
theorem findOne_transaction_outline {oid : ObjectId} (hT : oid ∉ T) (m : String) (s : Store) :
    s.transactions.findOne { id := some oid, merchantId := some m } =
      (s.outline T).2.find?
        (test ({ id := some oid, merchantId := some m } : TransactionQuery)) := by
  refine (List.find?_filter_of_imp fun t _ ht => ?_).symm
  have hid : t.id = oid := (test_transaction_id_merchant.mp ht).1
  exact decide_eq_true (hid ▸ hT)

/-- An edit or a deletion of a transaction in `T` does not show. -/
theorem outline_writeFor_of_mem {m tid : String} (hT : ∃ oid ∈ T, ObjectId.ofString? tid = some oid)
    (w : Option TransactionUpdate) (s : Store) : (s.writeFor m tid w).outline T = s.outline T := by
  obtain ⟨oid, hT, hoid⟩ := hT
  rw [Store.writeFor, hoid]
  dsimp only
  split
  · rw [outline_write, if_pos hT]
    rfl
  · rfl

/-- One of another transaction leaves the same outline. -/
theorem outline_writeFor (h : s.outline T = s'.outline T') {m tid : String}
    (hT : ¬∃ oid ∈ T, ObjectId.ofString? tid = some oid)
    (hT' : ¬∃ oid ∈ T', ObjectId.ofString? tid = some oid) (w : Option TransactionUpdate) :
    (s.writeFor m tid w).outline T = (s'.writeFor m tid w).outline T' := by
  rw [Store.writeFor, Store.writeFor]
  cases hoid : ObjectId.ofString? tid with
  | none => exact h
  | some oid =>
    have hT : oid ∉ T := fun hmem => hT ⟨oid, hmem, hoid⟩
    have hT' : oid ∉ T' := fun hmem => hT' ⟨oid, hmem, hoid⟩
    dsimp only
    rw [findOne_transaction_outline hT, findOne_transaction_outline hT', h]
    split
    · obtain ⟨hcustomers, htransactions⟩ := Prod.mk.inj h
      rw [outline_write, outline_write, if_neg hT, if_neg hT', hcustomers, htransactions]
    · exact h

/-! ### The calls -/

/-- The call records, edits or deletes a transaction in `T`. -/
def Call.About (T : List ObjectId) : Call → Prop
  | .addTransaction env _ _ _ _ _ => env.objectId 0 ∈ T
  | .editTransaction _ tid _ _ _ => ∃ oid ∈ T, ObjectId.ofString? tid = some oid
  | .deleteTransaction _ tid _ => ∃ oid ∈ T, ObjectId.ofString? tid = some oid
  | _ => False

instance (T : List ObjectId) : DecidablePred (Call.About T)
  | .addTransaction env _ _ _ _ _ => inferInstanceAs (Decidable (env.objectId 0 ∈ T))
  | .editTransaction _ tid _ _ _ =>
    inferInstanceAs (Decidable (∃ oid ∈ T, ObjectId.ofString? tid = some oid))
  | .deleteTransaction _ tid _ =>
    inferInstanceAs (Decidable (∃ oid ∈ T, ObjectId.ofString? tid = some oid))
  | .addCustomer .. => inferInstanceAs (Decidable False)
  | .deleteCustomer .. => inferInstanceAs (Decidable False)
  | .updateCustomerPin .. => inferInstanceAs (Decidable False)
  | .computeCreditScore .. => inferInstanceAs (Decidable False)
  | .importCustomersFromExcel .. => inferInstanceAs (Decidable False)

/-- **A call about a transaction in `T`** does not show in the outline. -/
theorem outline_exec_about {call : Call} (hcall : call.Canonical) (habout : call.About T)
    (s : Store) : (call.exec bcrypt s).2.outline T = s.outline T := by
  rw [Call.exec]
  cases call with
  | addTransaction env m cid txnType amount note =>
    obtain ⟨oid, rfl⟩ := hcall
    rw [Call.code, run_map]
    exact outline_addTransaction_of_mem habout m oid txnType amount note s
  | editTransaction env tid m amount note =>
    rw [Call.code, run_map]
    exact (snd_editTransaction env tid m amount note s).trans (outline_writeFor_of_mem habout _ s)
  | deleteTransaction env tid m =>
    rw [Call.code, run_map]
    exact (snd_deleteTransaction env tid m s).trans (outline_writeFor_of_mem habout _ s)
  | addCustomer env m name phone address pin => exact habout.elim
  | deleteCustomer cid m => exact habout.elim
  | updateCustomerPin env cid m pin => exact habout.elim
  | computeCreditScore env m cid => exact habout.elim
  | importCustomersFromExcel env m file => exact habout.elim

/-- **Any other call** leaves the same outline of stores with the same outline. -/
theorem outline_exec {call : Call} (hcall : call.Canonical) (hT : ¬call.About T)
    (hT' : ¬call.About T') (h : s.outline T = s'.outline T') :
    (call.exec bcrypt s).2.outline T = (call.exec bcrypt s').2.outline T' := by
  rw [Call.exec, Call.exec]
  cases call with
  | addTransaction env m cid txnType amount note =>
    obtain ⟨oid, rfl⟩ := hcall
    rw [Call.code, run_map, run_map]
    exact outline_addTransaction h hT hT' m oid txnType amount note
  | editTransaction env tid m amount note =>
    rw [Call.code, run_map, run_map]
    exact (snd_editTransaction env tid m amount note s).trans
      ((outline_writeFor h hT hT' _).trans (snd_editTransaction env tid m amount note s').symm)
  | deleteTransaction env tid m =>
    rw [Call.code, run_map, run_map]
    exact (snd_deleteTransaction env tid m s).trans
      ((outline_writeFor h hT hT' _).trans (snd_deleteTransaction env tid m s').symm)
  | addCustomer env m name phone address pin =>
    rw [Call.code, run_map, run_map]
    exact (alike_addCustomer env m name phone address pin s s' h).2
  | deleteCustomer cid m =>
    obtain ⟨oid, rfl⟩ := hcall
    rw [Call.code, run_map, run_map]
    exact outline_deleteCustomer h oid m
  | updateCustomerPin env cid m pin =>
    obtain ⟨oid, rfl⟩ := hcall
    rw [Call.code, run_map, run_map]
    exact outline_updateCustomerPin h env oid m pin
  | computeCreditScore env m cid =>
    obtain ⟨oid, rfl⟩ := hcall
    rw [Call.code, run_map, run_map, run_computeCreditScore _ _ (ObjectId.ofString?_str oid),
      run_computeCreditScore _ _ (ObjectId.ofString?_str oid)]
    exact (outline_rescore _ _ _ s).trans (h.trans (outline_rescore _ _ _ s').symm)
  | importCustomersFromExcel env m file =>
    rw [Call.code, run_map, run_map]
    exact (alike_import env m file s s' h).2

/-! ### Histories -/

/-- A history and what is left of it when the calls about `T` are left out. -/
theorem outline_execAll {calls : List Call} (hcalls : ∀ c ∈ calls, c.Canonical)
    (h : s.outline T = s'.outline []) : (execAll bcrypt calls s).outline T =
      (execAll bcrypt (calls.filter fun c => decide ¬c.About T) s').outline [] := by
  induction calls generalizing s s' with
  | nil => exact h
  | cons c calls ih =>
    rw [List.forall_mem_cons] at hcalls
    obtain ⟨hc, hcalls⟩ := hcalls
    by_cases habout : c.About T
    · rw [List.filter_cons_of_neg (by simpa using habout)]
      exact ih hcalls ((outline_exec_about hc habout s).trans h)
    · rw [List.filter_cons_of_pos (by simpa using habout)]
      refine ih hcalls (outline_exec hc habout ?_ h)
      cases c <;> simp [Call.About]

theorem outline_nil (s : Store) :
    s.outline [] = (s.customers.docs.map CustomerDoc.bare, s.transactions.docs) := by
  refine Prod.ext rfl (List.filter_eq_self.mpr fun t _ => ?_)
  exact decide_eq_true List.not_mem_nil

/-- In a consistent store the running figures follow from the outline. -/
theorem Consistent.unscored (hs : Consistent s) :
    s.customers.docs.map CustomerDoc.unscored =
      (s.customers.docs.map CustomerDoc.bare).map fun c =>
        { c with
          balance := (s.effects c.id).balance
          totalCredit := (s.effects c.id).totalCredit
          totalPaid := (s.effects c.id).totalPaid } := by
  rw [List.map_map]
  refine List.map_congr_left fun c hc => ?_
  have htotals := hs.figures c hc
  show c.unscored = _
  rw [Function.comp, show c.bare.id = c.id from rfl, ← htotals]
  rfl

/-- **What is voided leaves no trace.**  Take any history of calls, and any transactions that
are gone in the end: without the calls that recorded, edited and deleted them, the history leads
to the same transactions, and to the same customers with the same figures; what may differ is
how they were scored last, and when. -/
theorem voided_leave_no_trace {calls : List Call} (hcalls : ∀ c ∈ calls, c.Canonical)
    (hT : ∀ t ∈ (execAll bcrypt calls .empty).transactions.docs, t.id ∉ T) :
    let s := execAll bcrypt calls .empty
    let s' := execAll bcrypt (calls.filter fun c => decide ¬c.About T) .empty
    s'.customers.docs.map CustomerDoc.unscored = s.customers.docs.map CustomerDoc.unscored ∧
      s'.transactions.docs = s.transactions.docs := by
  intro s s'
  have houtline : s.outline T = s'.outline [] := outline_execAll hcalls rfl
  rw [outline_nil] at houtline
  obtain ⟨hcustomers, htransactions⟩ := Prod.mk.inj houtline
  rw [List.filter_eq_self.mpr fun t ht => decide_eq_true (hT t ht)] at htransactions
  refine ⟨?_, htransactions.symm⟩
  have hs : Consistent s := (Reachable.empty.execAll hcalls).consistent
  have hs' : Consistent s' := (Reachable.empty.execAll fun c hc =>
    hcalls c (List.mem_of_mem_filter hc)).consistent
  have heffects : s'.effects = s.effects := effects_of_transactions_eq (ext' htransactions.symm)
  rw [hs.unscored, hs'.unscored, hcustomers, heffects]

/-- The sample ledger, with a credit that is edited and deleted, and a customer that is removed
with its credit. -/
def sampleVoided : List Call :=
  sampleCalls ++
    [.addTransaction (.sample 11 0) "m" (ObjectId.ofNat 1).str "credit" 70 "oil",
      .addCustomer (.sample 12 0) "m" "Ravi" "97" "" "5678",
      .editTransaction (.sample 13 0) (ObjectId.ofNat 11).str "m" 90 "oil",
      .addTransaction (.sample 14 0) "m" (ObjectId.ofNat 12).str "credit" 10 "",
      .deleteTransaction (.sample 15 0) (ObjectId.ofNat 11).str "m",
      .deleteCustomer (ObjectId.ofNat 12).str "m"]

/-- Without the two credits the history leads to the same ledger, but for the scores. -/
theorem voided_leave_no_trace_sample :
    let T := [ObjectId.ofNat 11, ObjectId.ofNat 14]
    let s := execAll markingBcrypt sampleVoided .empty
    let s' := execAll markingBcrypt (sampleVoided.filter fun c => decide ¬c.About T) .empty
    s'.customers.docs.map CustomerDoc.unscored = s.customers.docs.map CustomerDoc.unscored ∧
      s'.transactions.docs = s.transactions.docs := by
  refine voided_leave_no_trace ?_ (by decide +kernel)
  intro c hc
  rcases List.mem_append.mp hc with hc | hc
  · exact sampleCalls_canonical c hc
  · simp only [List.mem_cons, List.not_mem_nil, or_false] at hc
    rcases hc with rfl | rfl | rfl | rfl | rfl | rfl
    · exact ObjectId.canonical_str _
    · trivial
    · trivial
    · exact ObjectId.canonical_str _
    · trivial
    · exact ObjectId.canonical_str _

end DigitalLedger
