import DigitalLedger.Audit
import DigitalLedger.Lib.Guard

/-!
# Merchants among each other

The sessions of all merchants work on the same collections at the same time, and many calls
select a document by its identifier alone.  That no session changes what is another
merchant's rests on where the identifiers come from: a run takes them from documents it has
found to be its merchant's, and a document never changes hands.  Here each identifier is
given an owner, the merchant in whose session it was generated, and the runs are shown to
write documents of their own merchant only, whatever happens between their calls.

## Main definitions

* `Store.Attributed` — the documents belong to the owners of their identifiers.
* `DbCall.For`, `PageCall.For` — the calls for a merchant; `PageCall.Allowed` — those that a
  run may make, for its merchant or for none.
* `Live.Marked`, `Live.Marked.act` — the process, with the merchants its runs are for.

## Main results

* `guards_plan` — a page of a merchant makes calls for it only.
* `permitted_serve` — a run makes calls for its merchant only.
* `tenants_isolated` — a step changes documents of the merchant of its run only.
-/

namespace DigitalLedger

open Collection Prog

variable {ι : Type} {owner : ObjectId → String} {mark : Option String} {m m' : String} {s : Store}

/-! ### Owners -/

/-- The documents of a merchant have identifiers of its own, and its transactions refer to
such. -/
structure Store.Attributed (owner : ObjectId → String) (s : Store) : Prop where
  customers : ∀ c ∈ s.customers.docs, owner c.id = c.merchantId
  transactions : ∀ t ∈ s.transactions.docs,
    owner t.id = t.merchantId ∧ ∀ oid ∈ t.owner, owner oid = t.merchantId

theorem attributed_empty (owner : ObjectId → String) : Store.empty.Attributed owner where
  customers _ hc := absurd hc List.not_mem_nil
  transactions _ ht := absurd ht List.not_mem_nil

/-- The query selects customers of `m` only. -/
def CustomerQuery.For (owner : ObjectId → String) (m : String) (q : CustomerQuery) : Prop :=
  q.merchantId = some m ∨ ∃ oid, q.id = some oid ∧ owner oid = m

/-- The query selects transactions of `m` only. -/
def TransactionQuery.For (owner : ObjectId → String) (m : String) (q : TransactionQuery) : Prop :=
  q.merchantId = some m ∨ (∃ oid, q.id = some oid ∧ owner oid = m) ∨
    ∃ cid oid, q.customerId = some cid ∧ ObjectId.ofString? cid = some oid ∧ owner oid = m

/-- A call on the documents of the merchant `m`. -/
def DbCall.For (owner : ObjectId → String) (m : String) : DbCall → Prop
  | .customers op =>
    op.KeepsTo (fun c => c.merchantId = m ∧ owner c.id = m) (CustomerQuery.For owner m)
  | .transactions op =>
    op.KeepsTo
      (fun t => t.merchantId = m ∧ owner t.id = m ∧ ∀ oid ∈ t.owner, owner oid = m)
      (TransactionQuery.For owner m)

theorem CustomerQuery.For.merchant {q : CustomerQuery} (hq : q.For owner m)
    (hs : s.Attributed owner) {c : Customer} (hc : c ∈ s.customers.docs)
    (htest : test q c = true) : c.merchantId = m := by
  obtain ⟨hids, hmerchants, -⟩ := test_customerQuery.mp htest
  rcases hq with hmerchant | ⟨oid, hid, rfl⟩
  · exact (hmerchants m hmerchant).symm
  · rw [hids oid hid]
    exact (hs.customers c hc).symm

theorem TransactionQuery.For.merchant {q : TransactionQuery} (hq : q.For owner m)
    (hs : s.Attributed owner) {t : Transaction} (ht : t ∈ s.transactions.docs)
    (htest : test q t = true) : t.merchantId = m := by
  obtain ⟨hids, hmerchants, hcustomers⟩ := test_transactionQuery.mp htest
  obtain ⟨howner, hrefers⟩ := hs.transactions t ht
  rcases hq with hmerchant | ⟨oid, hid, rfl⟩ | ⟨cid, oid, hcid, hoid, rfl⟩
  · exact (hmerchants m hmerchant).symm
  · rw [hids oid hid]
    exact howner.symm
  · refine (hrefers oid ?_).symm
    rw [TransactionDoc.owner, ← hcustomers cid hcid, hoid]
    exact Option.mem_some_self oid

/-- **What a call for one merchant keeps**: the documents belong to the owners of their
identifiers, and those of the other merchants are as they were. -/
theorem DbCall.For.exec {c : DbCall} (hc : c.For owner m) (hs : s.Attributed owner) :
    (DigitalLedger.exec c s).2.Attributed owner ∧
      ∀ m', m ≠ m' → (DigitalLedger.exec c s).2.view m' = s.view m' := by
  cases c with
  | customers op =>
    refine ⟨⟨?_, hs.transactions⟩, fun m' hne => ?_⟩
    · exact Op.forall_docs_exec (fun _ _ hd => hd)
        (Op.KeepsTo.inserts hc fun c hc => hc.2.trans hc.1.symm) hs.customers
    · have hspares : op.Spares (fun c => decide (c.merchantId = m')) s.customers :=
        Op.KeepsTo.spares hc (fun c hc h => hne (hc.1.symm.trans (of_decide_eq_true h)))
          fun q hq d hd htest h =>
            hne ((hq.merchant hs hd htest).symm.trans (of_decide_eq_true h))
      have hcustomers := Op.restrict_exec_of_spares Exn.duplicateKeyError (fun _ _ => rfl) hspares
      simp only [DigitalLedger.exec, Store.view, hcustomers]
  | transactions op =>
    refine ⟨⟨hs.customers, ?_⟩, fun m' hne => ?_⟩
    · refine Op.forall_docs_exec (fun _ _ hd => hd) (Op.KeepsTo.inserts hc fun t ht => ?_)
        hs.transactions
      obtain ⟨hm, hid, hrefers⟩ := ht
      exact ⟨hid.trans hm.symm, fun oid hoid => (hrefers oid hoid).trans hm.symm⟩
    · have hspares : op.Spares (fun t => decide (t.merchantId = m')) s.transactions :=
        Op.KeepsTo.spares hc (fun t ht h => hne (ht.1.symm.trans (of_decide_eq_true h)))
          fun q hq d hd htest h =>
            hne ((hq.merchant hs hd htest).symm.trans (of_decide_eq_true h))
      have htransactions :=
        Op.restrict_exec_of_spares Exn.duplicateKeyError (fun _ _ => rfl) hspares
      simp only [DigitalLedger.exec, Store.view, htransactions]

/-! ### The calls of a page -/

/-- The call logs that someone has logged in; the identifier of the entry is no merchant's. -/
def PageCall.IsLogin (owner : ObjectId → String) : PageCall → Prop
  | .logs (.insertOne l) => l.action = "LOGIN" ∧ owner l.id = ""
  | _ => False

/-- A call for the merchant `m`. -/
def PageCall.For (owner : ObjectId → String) (m : String) : PageCall → Prop
  | .app (.ledger c) => c.For owner m
  | .app _ => True
  | .logs op => op.KeepsTo (fun l => l.merchantId = m ∧ owner l.id = m) fun q => q.merchantId = m
  | .session _ => True

/-- What a run may call that was begun for the merchant `m`, or for none. -/
def PageCall.Allowed (owner : ObjectId → String) : Option String → PageCall → Prop
  | none, c => c.Quiet ∨ c.IsLogin owner
  | some m, c => m ≠ "" ∧ c.For owner m

theorem allowed_session (hmark : mark ≠ some "") (st : SessionState) :
    (PageCall.session st).Allowed owner mark := by
  cases mark with
  | none => exact .inl trivial
  | some m => exact ⟨fun hm => hmark (congrArg some hm), trivial⟩

/-- The invariant. -/
structure Site.Attributed (owner : ObjectId → String) (site : Site ι) : Prop where
  ledger : site.world.ledger.Attributed owner
  logs : ∀ l ∈ site.logs.docs, owner l.id = l.merchantId ∨ owner l.id = ""

/-- The log of a merchant, without the entries that it has logged in. -/
def Logs.deeds (m : String) (logs : Logs) : List LogEntry :=
  (logs.find (⟨m⟩ : LogQuery)).filter fun l => l.action ≠ "LOGIN"

/-- That someone has logged in is not one of them. -/
theorem deeds_login {ε : Type} (dup : ε) {l : LogEntry} (hl : l.action = "LOGIN") (logs : Logs) :
    Logs.deeds m ((Op.insertOne l : LogOp).exec dup logs).2 = Logs.deeds m logs := by
  rw [Op.exec]
  cases hinsert : logs.insertOne l with
  | none => rfl
  | some logs' =>
    have hnone :
        (([l].filter (test (⟨m⟩ : LogQuery))).filter fun l => l.action ≠ "LOGIN") = [] := by
      rw [List.filter_filter, List.filter_eq_nil_iff]
      rintro l' hl' htest
      rw [List.mem_singleton.mp hl', Bool.and_eq_true, decide_eq_true_iff] at htest
      exact htest.1 hl
    rw [Logs.deeds, Collection.find, docs_insertOne hinsert, List.filter_append,
      List.filter_append, hnone, List.append_nil]
    rfl

/-- The log of a merchant is a restriction of the whole. -/
theorem find_eq_restrict (m : String) (logs : Logs) :
    logs.find (⟨m⟩ : LogQuery) = (logs.restrict fun l => decide (l.merchantId = m)).docs := by
  rw [docs_restrict, Collection.find]
  refine List.filter_congr fun l _ => ?_
  rw [Bool.eq_iff_iff, test_logQuery, decide_eq_true_iff]

variable [DecidableEq ι] {i : ι} {site : Site ι}

/-- The call logs that the merchant has logged in. -/
def PageCall.LogsIn (m : String) : PageCall → Prop
  | .logs (.insertOne l) => l.action = "LOGIN" ∧ l.merchantId = m
  | _ => False

/-- A call on the log for one merchant leaves the log of the others. -/
theorem find_exec_of_ne {ε : Type} (dup : ε) (hne : m ≠ m') {o : LogOp}
    (ho : o.KeepsTo (fun l => l.merchantId = m) fun q => q.merchantId = m) (logs : Logs) :
    (o.exec dup logs).2.find (⟨m'⟩ : LogQuery) = logs.find (⟨m'⟩ : LogQuery) := by
  have hspares : o.Spares (fun l => decide (l.merchantId = m')) logs :=
    ho.spares (fun l hl h => hne (hl.symm.trans (of_decide_eq_true h)))
      fun q hq l _ htest h => hne (hq.symm.trans
        ((test_logQuery.mp htest).symm.trans (of_decide_eq_true h)))
  rw [find_eq_restrict, Op.restrict_exec_of_spares dup (fun x _ => x.elim) hspares,
    ← find_eq_restrict]

/-- **What an allowed call keeps.** -/
theorem PageCall.Allowed.exec {c : PageCall} (hc : c.Allowed owner mark)
    (hsite : site.Attributed owner) :
    Site.Attributed owner (execPage i c site).2 ∧ ∀ m', mark ≠ some m' →
      (execPage i c site).2.world.ledger.view m' = site.world.ledger.view m' ∧
        (¬c.LogsIn m' → (execPage i c site).2.logs.find (⟨m'⟩ : LogQuery) =
          site.logs.find (⟨m'⟩ : LogQuery)) := by
  cases mark with
  | none =>
    rcases hc with hquiet | hlogin
    · obtain ⟨hledger, hlogs⟩ := Prod.mk.inj (books_execPage (i := i) hquiet site)
      refine ⟨⟨?_, ?_⟩, fun m' _ => ⟨congrArg (Store.view m') hledger, fun _ => ?_⟩⟩
      · rw [hledger]
        exact hsite.ledger
      · rw [hlogs]
        exact hsite.logs
      · rw [hlogs]
    · rcases c with c | op | st
      · exact hlogin.elim
      · cases op with
        | insertOne l =>
          obtain ⟨haction, howner⟩ := hlogin
          refine ⟨⟨hsite.ledger, ?_⟩, fun m' _ => ⟨rfl, fun hnot => ?_⟩⟩
          · exact Op.forall_docs_exec (o := .insertOne l) (fun x => x.elim) (.inr howner) hsite.logs
          · exact find_exec_of_ne (m := l.merchantId) _ (fun h => hnot ⟨haction, h⟩)
              (o := .insertOne l) rfl _
        | findOne q => exact hlogin.elim
        | find q => exact hlogin.elim
        | updateOne q x => exact x.elim
        | deleteOne q => exact hlogin.elim
        | deleteMany q => exact hlogin.elim
      · exact hlogin.elim
  | some m =>
    obtain ⟨-, hfor⟩ := hc
    rcases c with (c | op | r) | op | st
    · obtain ⟨hattributed, hview⟩ := DbCall.For.exec hfor hsite.ledger
      refine ⟨⟨hattributed, hsite.logs⟩, fun m' hne => ⟨hview m' fun h => hne (h ▸ rfl), ?_⟩⟩
      exact fun _ => rfl
    · exact ⟨⟨hsite.ledger, hsite.logs⟩, fun _ _ => ⟨rfl, fun _ => rfl⟩⟩
    · exact ⟨⟨hsite.ledger, hsite.logs⟩, fun _ _ => ⟨rfl, fun _ => rfl⟩⟩
    · refine ⟨⟨hsite.ledger, ?_⟩, fun m' hne => ⟨rfl, fun _ => ?_⟩⟩
      · exact Op.forall_docs_exec (fun x => x.elim)
          (Op.KeepsTo.inserts hfor fun l hl => .inl (hl.2.trans hl.1.symm)) hsite.logs
      · have hne : m ≠ m' := fun h => hne (congrArg some h)
        exact find_exec_of_ne _ hne (Op.KeepsTo.mono hfor fun l hl => hl.1) _
    · exact ⟨⟨hsite.ledger, hsite.logs⟩, fun _ _ => ⟨rfl, fun _ => rfl⟩⟩

theorem PageCall.Allowed.deeds {c : PageCall} (hc : c.Allowed owner mark)
    (hsite : site.Attributed owner) (hm : mark ≠ some m) :
    Logs.deeds m (execPage i c site).2.logs = Logs.deeds m site.logs := by
  by_cases hlogs : c.LogsIn m
  · rcases c with c | op | st
    · exact hlogs.elim
    · cases op with
      | insertOne l => exact deeds_login _ hlogs.1 _
      | findOne q => exact hlogs.elim
      | find q => exact hlogs.elim
      | updateOne q x => exact x.elim
      | deleteOne q => exact hlogs.elim
      | deleteMany q => exact hlogs.elim
    · exact hlogs.elim
  · rw [Logs.deeds, ((hc.exec hsite).2 m hm).2 hlogs]
    rfl

/-! ### The operations on the ledger -/

/-- What a page for the merchant is shown: customers with identifiers of its own. -/
def Terms.owned (owner : ObjectId → String) (m : String) : Terms where
  Lists customers := ∀ c ∈ customers, ∃ oid : ObjectId, c.id = oid.str ∧ owner oid = m
  Known cid := ∃ oid : ObjectId, cid = oid.str ∧ owner oid = m
  known _ h := h
  Entry _ := True
  Offers _ _ := True
  Sends := True

/-- A program over the ledger whose calls are for `m`. -/
abbrev Db.Guards {α : Type} (owner : ObjectId → String) (m : String) (Q : α → Prop) (p : Db α) :
    Prop := Prog.Guards exec (Store.Attributed owner) (DbCall.For owner m) Q p

section Operations

variable {α : Type} {Q : α → Prop} {set : Setting}

omit [DecidableEq ι] in
theorem uses_own_computeCreditScore {cid : String}
    (hcid : ∀ oid ∈ ObjectId.ofString? cid, owner oid = m) (now : Time) :
    Uses (DbCall.For owner m) (computeCreditScore now cid) := by
  cases hoid : ObjectId.ofString? cid with
  | none =>
    rw [computeCreditScore, objectId_eq_raise hoid]
    exact .raise _
  | some oid =>
    have howner : owner oid = m := hcid oid hoid
    rw [computeCreditScore, objectId_eq_ret hoid, ret_bind]
    refine Uses.bind (uses_query (.inr ⟨oid, rfl, howner⟩)) fun found => ?_
    cases found with
    | none => exact .ret _
    | some c =>
      refine Uses.bind (uses_query (.inr (.inr ⟨cid, oid, rfl, hoid, howner⟩))) fun txns => ?_
      exact Uses.bind (uses_query (.inr ⟨oid, rfl, howner⟩)) fun _ => .ret _

theorem guards_addTransaction (env : Env) (hid : owner (env.objectId 0) = m)
    (cid txnType : String) (amount : ℚ) (note : String) :
    Db.Guards owner m (fun _ => True) (addTransaction env m cid txnType amount note) := by
  rcases addTransaction_cases env m cid txnType amount note with
    ⟨message, heq⟩ | heq | ⟨type, oid, -, -, hoid, heq⟩
  · rw [heq]
    trivial
  · rw [heq]
    trivial
  · rw [heq]
    -- a customer that is found is one of `m`
    have hfound : Db.Guards owner m (fun found : Option Customer => found.isSome → owner oid = m)
        (CustomersCol.findOne { id := some oid, merchantId := some m }) := by
      refine Prog.Guards.perform (Or.inl rfl) fun s hs found hanswer hsome => ?_
      obtain ⟨c, rfl⟩ := Option.isSome_iff_exists.mp hsome
      have hfind : s.customers.findOne { id := some oid, merchantId := some m } = some c :=
        Except.ok.inj hanswer
      obtain ⟨hc, rfl, rfl⟩ := findOne_customer_merchant.mp hfind
      exact hs.customers c hc
    refine Prog.Guards.bind hfound fun found howner => ?_
    cases found with
    | none => trivial
    | some c =>
      have howner := howner rfl
      have hcid : ∀ oid' ∈ ObjectId.ofString? cid, owner oid' = m := by
        intro oid' hoid'
        rw [hoid, Option.mem_some] at hoid'
        exact hoid' ▸ howner
      refine Prog.Guards.of_uses (Uses.bind (uses_query ⟨rfl, hid, hcid⟩) fun _ => ?_)
        fun _ => trivial
      refine Uses.bind (uses_query (.inr ⟨oid, rfl, howner⟩)) fun _ => ?_
      refine (uses_own_computeCreditScore hcid _).bind fun _ => ?_
      refine Uses.bind (uses_query (.inr ⟨oid, rfl, howner⟩)) fun updated => ?_
      cases updated with
      | none => exact .raise _
      | some c' => exact .ret _

/-- A transaction that is found is one of `m`, and so is its customer. -/
theorem guards_findTransaction (oid : ObjectId) :
    Db.Guards owner m (fun found : Option Transaction => ∀ t ∈ found, owner oid = m ∧
      ∀ coid ∈ ObjectId.ofString? t.customerId, owner coid = m)
      (TransactionsCol.findOne { id := some oid, merchantId := some m }) := by
  refine Prog.Guards.perform (Or.inl rfl) fun s hs found hanswer t ht => ?_
  have hfind : s.transactions.findOne { id := some oid, merchantId := some m } = some t :=
    (Except.ok.inj hanswer).trans ht
  obtain ⟨hmem, rfl, rfl⟩ := findOne_transaction_merchant.mp hfind
  exact hs.transactions t hmem

theorem uses_own_settle {cid : String} (hcid : ∀ oid ∈ ObjectId.ofString? cid, owner oid = m)
    (δ : Totals) (now : Time) : Uses (DbCall.For owner m) (settle cid δ now) := by
  cases hoid : ObjectId.ofString? cid with
  | none =>
    rw [settle, objectId_eq_raise hoid]
    exact .raise _
  | some oid =>
    rw [settle, objectId_eq_ret hoid, ret_bind]
    refine Uses.bind (uses_query (.inr ⟨oid, rfl, hcid oid hoid⟩)) fun _ => ?_
    exact (uses_own_computeCreditScore hcid _).bind fun _ => .ret _

theorem guards_editTransaction (env : Env) (tid : String) (amount : ℚ) (note : String) :
    Db.Guards owner m (fun _ => True) (editTransaction env tid m amount note) := by
  rw [editTransaction_eq]
  cases ObjectId.ofString? tid with
  | none => trivial
  | some oid =>
    refine Prog.Guards.bind (guards_findTransaction oid) fun found hfound => ?_
    cases found with
    | none => trivial
    | some t =>
      obtain ⟨howner, hcid⟩ := hfound t rfl
      refine Prog.Guards.of_uses ?_ fun _ => trivial
      refine Uses.bind (uses_query (.inr (.inl ⟨oid, rfl, howner⟩))) fun _ => ?_
      exact uses_own_settle hcid _ _

theorem guards_deleteTransaction (env : Env) (tid : String) :
    Db.Guards owner m (fun _ => True) (deleteTransaction env tid m) := by
  rw [deleteTransaction_eq]
  cases ObjectId.ofString? tid with
  | none => trivial
  | some oid =>
    refine Prog.Guards.bind (guards_findTransaction oid) fun found hfound => ?_
    cases found with
    | none => trivial
    | some t =>
      obtain ⟨howner, hcid⟩ := hfound t rfl
      refine Prog.Guards.of_uses ?_ fun _ => trivial
      refine Uses.bind (uses_query (.inr (.inl ⟨oid, rfl, howner⟩))) fun _ => ?_
      exact uses_own_settle hcid _ _

theorem guards_deleteCustomer (cid : String) :
    Db.Guards owner m (fun _ => True) (deleteCustomer cid m) := by
  rw [deleteCustomer]
  cases hoid : ObjectId.ofString? cid with
  | none =>
    rw [objectId_eq_raise hoid]
    trivial
  | some oid =>
    rw [objectId_eq_ret hoid, ret_bind]
    -- a customer that was deleted was one of `m`
    have hdeleted : Db.Guards owner m (fun n : ℕ => n ≠ 0 → owner oid = m)
        (CustomersCol.deleteOne { id := some oid, merchantId := some m }) := by
      refine Prog.Guards.perform (Or.inl rfl) fun s hs n hanswer hn => ?_
      have hcount : (if (s.customers.findOne { id := some oid, merchantId := some m }).isSome
          then 1 else 0) = n := Except.ok.inj hanswer
      cases hfind : s.customers.findOne { id := some oid, merchantId := some m } with
      | none =>
        rw [hfind] at hcount
        exact absurd hcount.symm hn
      | some c =>
        obtain ⟨hc, rfl, rfl⟩ := findOne_customer_merchant.mp hfind
        exact hs.customers c hc
    refine Prog.Guards.bind hdeleted fun n hn => ?_
    split
    next hne =>
      refine Prog.Guards.of_uses (Uses.bind (uses_query (.inr (.inr ?_))) fun _ => .ret _)
        fun _ => trivial
      exact ⟨cid, oid, rfl, hoid, hn hne⟩
    · trivial

omit [DecidableEq ι] in
theorem uses_own_updateCustomerPin (bcrypt : Bcrypt) (env : Env) (cid pin : String) :
    Uses (DbCall.For owner m) (updateCustomerPin bcrypt env cid m pin) := by
  refine (uses_objectId cid).bind fun oid => ?_
  refine Uses.bind (uses_query (.inl rfl)) fun result => ?_
  split
  · exact .ret _
  · exact .ret _

omit [DecidableEq ι] in
theorem uses_own_addCustomer (bcrypt : Bcrypt) {env : Env} (hid : owner (env.objectId 0) = m)
    (name phone address pin : String) :
    Uses (DbCall.For owner m) (addCustomer bcrypt env m name phone address pin) := by
  refine Uses.bind (uses_query (.inl rfl)) fun existing => ?_
  split
  · exact .ret _
  · exact Uses.bind (uses_query ⟨rfl, hid⟩) fun _ => .ret _

omit [DecidableEq ι] in
theorem uses_own_importRows (bcrypt : Bcrypt) (env : Env) (df : DataFrame)
    (columns : List String) (rows : List Row) (idx : ℕ) (results : ImportResults)
    (hids : ∀ k, idx ≤ k → k < idx + rows.length → owner (env.objectId k) = m) :
    Uses (DbCall.For owner m) (importRows bcrypt env m df columns idx rows results) := by
  induction rows generalizing idx results with
  | nil => exact .ret _
  | cons row rows ih =>
    rw [List.length_cons] at hids
    refine Uses.bind ?_ fun results' => ih (idx + 1) results' fun k hk hk' =>
      hids k (by omega) (by omega)
    rw [importRow_eq bcrypt env m df columns idx row results rfl]
    split
    · have hid : owner ((env.row idx).objectId 0) = m := hids idx le_rfl (by omega)
      refine (uses_own_addCustomer bcrypt hid _ _ _ _).bind fun reply => ?_
      cases reply with
      | success oid => exact .ret _
      | failure message => exact .ret _
    · exact .ret _

omit [DecidableEq ι] in
theorem uses_own_import (bcrypt : Bcrypt) (env : Env) (file : Except String DataFrame)
    (hids : ∀ df, file = .ok df → ∀ k < df.rows.length, owner (env.objectId k) = m) :
    Uses (DbCall.For owner m) (importCustomersFromExcel bcrypt env m file) := by
  refine Uses.catchWith ?_ fun e => .ret _
  cases file with
  | error message => exact .raise _
  | ok df =>
    refine (uses_normaliseHeaders df.columns).bind fun columns => ?_
    dsimp only
    split
    · exact .ret _
    · refine (uses_own_importRows _ _ _ _ _ _ _ fun k _ hk => ?_).bind fun results => .ret _
      exact hids df rfl k (by simpa using hk)

omit [DecidableEq ι] in
theorem uses_own_recalculate (env : Env) (k : ℕ) {customers : List (CustomerDoc String)}
    (hcustomers : (Terms.owned owner m).Lists customers) :
    Uses (DbCall.For owner m) (recalculate env k customers) := by
  induction customers generalizing k with
  | nil => exact .ret _
  | cons c customers ih =>
    obtain ⟨oid, hid, howner⟩ := hcustomers c List.mem_cons_self
    have hcid : ∀ oid' ∈ ObjectId.ofString? c.id, owner oid' = m := by
      intro oid' hoid'
      rw [hid, ObjectId.ofString?_str, Option.mem_some] at hoid'
      exact hoid' ▸ howner
    refine (uses_own_computeCreditScore hcid _).bind fun _ => ?_
    exact ih (k + 1) fun c' hc' => hcustomers c' (List.mem_cons_of_mem c hc')

omit [DecidableEq ι] in
theorem uses_own_getTransactions (m : String) (cid : Option String) :
    Uses (DbCall.For owner m) (getTransactions m cid) :=
  Uses.bind (uses_query (.inl rfl)) fun _ => .ret _

omit [DecidableEq ι] in
theorem uses_own_getDefaulters (m : String) : Uses (DbCall.For owner m) (getDefaulters m) :=
  Uses.bind (uses_query (.inl rfl)) fun _ => .ret _

/-- The customers that are listed are of `m`. -/
theorem guards_getCustomers (owner : ObjectId → String) (m : String) :
    Db.Guards owner m (Terms.owned owner m).Lists (getCustomers m) := by
  refine Prog.Guards.bind (Q := fun found : List Customer => ∀ c ∈ found, owner c.id = m) ?_
    fun found hfound => ?_
  · refine Prog.Guards.perform (Or.inl rfl) fun s hs found hanswer c hc => ?_
    obtain rfl := Except.ok.inj hanswer
    obtain ⟨hstored, rfl⟩ := mem_customersOf.mp hc
    exact hs.customers c hstored
  · intro c hc
    obtain ⟨c', hc', rfl⟩ := List.mem_map.mp hc
    exact ⟨c'.id, rfl, hfound c' hc'⟩

/-- **The calls a page makes for the merchant.** -/
theorem guards_call (bcrypt : Bcrypt) {T : Terms} {call : Call} (hm : call.merchantId = m)
    (hids : ∀ oid ∈ call.issued, owner oid = m) (hcall : call.Planned set T) :
    Db.Guards owner m (fun _ => True) (call.code bcrypt) := by
  subst hm
  cases call with
  | addCustomer env m name phone address pin =>
    have hid : owner (env.objectId 0) = m := hids _ List.mem_cons_self
    exact (Prog.Guards.of_uses (uses_own_addCustomer bcrypt hid _ _ _ _) fun _ => trivial).map
      fun _ _ => trivial
  | addTransaction env m cid txnType amount note =>
    have hid : owner (env.objectId 0) = m := hids _ List.mem_cons_self
    exact (guards_addTransaction env hid _ _ _ _).map fun _ _ => trivial
  | editTransaction env tid m amount note =>
    exact (guards_editTransaction _ _ _ _).map fun _ _ => trivial
  | deleteTransaction env tid m => exact (guards_deleteTransaction _ _).map fun _ _ => trivial
  | deleteCustomer cid m => exact (guards_deleteCustomer _).map fun _ _ => trivial
  | updateCustomerPin env cid m pin =>
    exact (Prog.Guards.of_uses (uses_own_updateCustomerPin bcrypt env cid pin) fun _ => trivial).map
      fun _ _ => trivial
  | computeCreditScore now cid m => exact hcall.elim
  | importCustomersFromExcel env m file =>
    refine (Prog.Guards.of_uses (uses_own_import bcrypt env file ?_) fun _ => trivial).map
      fun _ _ => trivial
    rintro df rfl k hk
    exact hids _ (List.mem_map_of_mem (List.mem_range.mpr hk))

end Operations

/-! ### The pages -/

/-- A program of a page for the merchant `m`. -/
abbrev Script.Guards {α : Type} (i : ι) (owner : ObjectId → String) (m : String) (Q : α → Prop)
    (p : Script α) : Prop :=
  Prog.Guards (execPage i) (Site.Attributed owner) (PageCall.For owner m) Q p

section Pages

variable {α β : Type} {Q : α → Prop} {Q' : β → Prop}

/-- A program over the ledger, in a page for the merchant. -/
theorem Db.Guards.ofDb {p : Db α} (hp : Db.Guards owner m Q p) :
    Script.Guards i owner m Q (Script.ofDb p) := by
  induction p with
  | ret a => exact hp
  | raise e => trivial
  | call c k ih =>
    obtain ⟨hc, hk⟩ := hp
    rw [Script.ofDb, App.ofDb, Script.ofApp]
    refine ⟨hc, fun site hsite => ?_⟩
    have hnext := ih _ (hk site.world.ledger hsite.ledger)
    have hanswer : (execPage i (.app (.ledger c)) site).1 =
        (DigitalLedger.exec c site.world.ledger).1.mapError AppExn.database := rfl
    rw [hanswer]
    cases hr : (DigitalLedger.exec c site.world.ledger).1 with
    | ok a =>
      rw [hr] at hnext
      exact hnext
    | error e =>
      rw [hr] at hnext
      exact hnext

theorem guards_uses {p : Script α} (hp : Uses (PageCall.For owner m) p) :
    Script.Guards i owner m (fun _ => True) p := Prog.Guards.of_uses hp fun _ => trivial

omit [DecidableEq ι] in
theorem uses_own_ofDb {p : Db α} (hp : Uses (DbCall.For owner m) p) :
    Uses (PageCall.For owner m) (Script.ofDb p) := uses_ofDb hp

omit [DecidableEq ι] in
theorem uses_own_showHistory (m : String) (customers : List (CustomerDoc String))
    (entry : String) :
    Uses (PageCall.For owner m) (Script.ofApp (showHistory m customers entry)) := by
  unfold showHistory
  split
  · rw [Script.ofApp_bind]
    exact (uses_custItem customers entry).bind fun cust =>
      uses_own_ofDb (uses_own_getTransactions m _)
  · exact uses_own_ofDb (uses_own_getTransactions m _)

/-- The reminders to the customers of a merchant. -/
theorem uses_own_runMonthlyReminders (hm : m ≠ "") (environ : Environ) (channel : String) :
    Uses (PageCall.For owner m) (Script.ofApp (runMonthlyReminders environ (some m) channel)) := by
  have hquery : CustomerQuery.For owner m (defaultersQuery (some m)) := by
    refine .inl ?_
    rw [defaultersQuery, nonempty, Option.filter_some, if_pos (decide_eq_true hm)]
  refine uses_ofApp (Uses.bind (App.uses_ofDb (uses_query hquery)) fun customers => ?_)
  refine (outside_remindAll environ channel customers).mono fun c hc => ?_
  cases c with
  | ledger c => exact hc.elim
  | users op => trivial
  | request r => trivial

variable {set : Setting} {st : SessionState}

/-- What a page does at its end: it may log something for the merchant. -/
theorem uses_own_logAction {f : Unit → Script α} {logEnv : Env}
    (hid : owner (logEnv.objectId 0) = m) (action details : String)
    (hf : Uses (PageCall.For owner m) (f ())) :
    Uses (PageCall.For owner m) (logAction logEnv m action details >>= f) :=
  Uses.bind (Uses.perform ⟨rfl, hid⟩) fun _ => hf

theorem guards_showSidebar (e : SidebarEvent)
    (hlog : ∀ oid ∈ Trigger.logIssued (.page (.sidebar e)), owner oid = st.userId) :
    Script.Guards i owner st.userId (fun _ => True) (showSidebar st e) := by
  cases e with
  | logout logEnv =>
    have hid := hlog _ List.mem_cons_self
    exact guards_uses
      (uses_own_logAction hid _ _ (Uses.bind (Uses.perform trivial) fun _ => .ret _))

/-- **A page for the merchant** guards its calls, if the identifiers it is given are that
merchant's. -/
theorem guards_plan {t : Trigger} {p : Script (List Notice)}
    (hp : Plan set t m (.owned owner m) p) (hm : m ≠ "")
    (hids : ∀ oid ∈ t.issued, owner oid = m) (hlog : ∀ oid ∈ t.logIssued, owner oid = m) :
    Script.Guards i owner m (fun _ => True) p := by
  induction hp with
  | ret notices => trivial
  | listed hf ih =>
    exact (guards_getCustomers owner m).ofDb.bind fun customers hlists => ih customers hlists
  | @chosen customers name f hlists hname hf ih =>
    rcases custItem_cases customers name with heq | ⟨cust, hcust, heq⟩
    · rw [heq]
      trivial
    · rw [heq]
      exact ih cust hcust
  | history hlists hentry hf ih =>
    exact (guards_uses (uses_own_showHistory _ _ _)).bind fun txns _ => ih txns fun _ _ => trivial
  | call call hcode hmerchant hplanned hissued hf =>
    have hcall := guards_call set.bcrypt hmerchant (hissued ▸ hids) hplanned
    rw [hcode] at hcall
    have hp : Db.Guards owner m (fun _ => True) _ := hcall.of_map
    exact hp.ofDb.bind fun a _ =>
      guards_uses ((hf a).uses (fun _ _ => trivial) fun l hl hid => ⟨hl, hlog l.id hid⟩)
  | recalculate hlists =>
    exact guards_uses ((uses_own_ofDb (uses_own_recalculate _ 0 hlists)).bind fun _ => .ret _)
  | defaulters hf ih =>
    exact (guards_uses (uses_own_ofDb (uses_own_getDefaulters _))).bind fun defaulters _ =>
      ih defaulters
  | reminders hsends hf ih =>
    exact (guards_uses (uses_own_runMonthlyReminders hm _ _)).bind fun results _ => ih results
  | note hid hf => exact guards_uses (uses_own_logAction (hlog _ hid) _ _ (hf.uses fun _ _ => trivial))
  | logs hf ih =>
    have hread : Uses (PageCall.For owner m) (getLogs set.order m defaultLimit) :=
      Uses.bind (Uses.perform rfl) fun logs => .ret _
    exact (guards_uses hread).bind fun logs _ => ih logs
  | clear hid =>
    refine guards_uses (Uses.bind (Uses.bind (Uses.perform rfl) fun _ => .ret _) fun _ => ?_)
    exact uses_own_logAction (hlog _ hid) _ _ (.ret _)

/-- A visitor writes nothing, but for the entry that someone has logged in. -/
theorem uses_visitor_showAuthPage (e : AuthEvent)
    (hlog : ∀ oid ∈ Trigger.logIssued (.page (.auth e)), owner oid = "") :
    Uses (PageCall.Allowed owner none) (showAuthPage set st e) :=
  uses_showAuthPage
    { findUser := fun _ => .inl trivial
      addUser := fun _ => .inl trivial
      setUser := fun _ _ => .inl trivial
      findCustomer := fun _ => .inl trivial
      session := fun _ => .inl trivial
      log := fun l hl haction => .inr ⟨haction, hlog l.id hl⟩
      request := fun _ _ => .inl trivial }

/-- The merchant a run is for: the one that is logged in when it is begun. -/
def Trigger.merchant (i : ι) (t : Trigger) (site : Site ι) : Option String :=
  match t with
  | .page _ => if (site.sessions i).loggedIn then some (site.sessions i).userId else none
  | .monthlyReminders => none

/-- A run makes only calls that it may make. -/
abbrev Script.Permitted {α : Type} (i : ι) (owner : ObjectId → String) (mark : Option String)
    (p : Script α) : Prop :=
  Prog.Guards (execPage i) (Site.Attributed owner) (PageCall.Allowed owner mark) (fun _ => True) p

/-- **A run makes calls for its merchant only**, if the identifiers it is given are that
merchant's. -/
theorem permitted_serve (set : Setting) (i : ι) (t : Trigger) (site : Site ι)
    (hm : t.merchant i site ≠ some "")
    (hids : ∀ oid ∈ t.issued ++ t.logIssued, owner oid = (t.merchant i site).getD "") :
    Script.Permitted i owner (t.merchant i site) (serve set i t site) := by
  rw [List.forall_mem_append] at hids
  obtain ⟨hids, hlog⟩ := hids
  have hvisitor : ∀ {p : Script (List Notice)}, Uses (PageCall.Allowed owner none) p →
      Script.Permitted i owner none p := fun hp => Prog.Guards.of_uses hp fun _ => trivial
  cases t with
  | monthlyReminders =>
    exact hvisitor ((quiet_plain ((plain_runMonthlyReminders _ _ _).bind fun _ => .ret _)).mono
      fun _ hc => .inl hc)
  | page e =>
    rw [serve]
    unfold main
    split
    · cases e with
      | portal e =>
        cases e with
        | logout =>
          exact Prog.Guards.of_uses
            (Uses.bind (Uses.perform (allowed_session hm _)) fun _ => .ret _) fun _ => trivial
      | auth e => trivial
      | sidebar e => trivial
      | customers e => trivial
      | transactions e => trivial
      | reminders e => trivial
      | activity e => trivial
    split
    next hin =>
      have hmark : Trigger.merchant i (.page e) site = none := if_neg (by simp [hin])
      rw [hmark] at hids hlog ⊢
      cases e with
      | auth e => exact hvisitor (uses_visitor_showAuthPage e hlog)
      | portal e => trivial
      | sidebar e => trivial
      | customers e => trivial
      | transactions e => trivial
      | reminders e => trivial
      | activity e => trivial
    next hin =>
    have hmark : Trigger.merchant i (.page e) site = some (site.sessions i).userId :=
      if_pos (by simpa using hin)
    rw [hmark] at hm hids hlog ⊢
    have hm : (site.sessions i).userId ≠ "" := fun h => hm (congrArg some h)
    have hpage : ∀ {p : Script (List Notice)},
        Script.Guards i owner (site.sessions i).userId (fun _ => True) p →
          Script.Permitted i owner (some (site.sessions i).userId) p :=
      fun hp => hp.mono (fun _ hc => ⟨hm, hc⟩) fun _ _ => trivial
    cases e with
    | sidebar e => exact hpage (guards_showSidebar e hlog)
    | customers e => exact hpage (guards_plan (plan_showCustomers e) hm hids hlog)
    | transactions e =>
      exact hpage (guards_plan (plan_showTransactions (fun _ => trivial) fun _ _ _ =>
        e.offered_of (fun _ _ => trivial) _) hm hids hlog)
    | reminders e => exact hpage (guards_plan (plan_showReminders trivial e) hm hids hlog)
    | activity e => exact hpage (guards_plan (plan_showActivityLog e) hm hids hlog)
    | auth e => trivial
    | portal e => trivial

end Pages

/-! ### The process -/

/-- The process, with the merchants its runs are for. -/
abbrev Live.Marked (ι : Type) :=
  Pool.Marked ι (Site ι) PageCall PageCall.Answer AppExn (List Notice) (Option String)

/-- The process at its start. -/
def Live.Marked.start (gateway : ℕ → Response) : Live.Marked ι :=
  (Live.start gateway, fun _ => none)

/-- One act. -/
def Live.Marked.act (set : Setting) : Live.Marked ι → LiveAct ι → Live.Marked ι :=
  Pool.actMarked execPage (serve set) Trigger.merchant

/-- The identifiers generated for an act. -/
def issuedFor : LiveAct ι → List ObjectId
  | .begin _ t => t.issued ++ t.logIssued
  | .step _ => []

/-- The act is no call of a run for `m`. -/
def Live.Marked.Spares (m : String) (x : Live.Marked ι) : LiveAct ι → Prop
  | .begin _ _ => True
  | .step i => x.2 i ≠ some m

instance (m : String) (x : Live.Marked ι) (a : LiveAct ι) : Decidable (x.Spares m a) :=
  match a with
  | .begin _ _ => inferInstanceAs (Decidable True)
  | .step i => inferInstanceAs (Decidable (x.2 i ≠ some m))

/-- What is stored of the merchant `m`: its documents, and its log without its log-ins. -/
def Live.Marked.shown (m : String) (x : Live.Marked ι) : Store × List LogEntry :=
  (x.1.store.world.ledger.view m, Logs.deeds m x.1.store.logs)

/-- The merchant for whom identifiers are generated, if any. -/
def Live.Marked.ownerOf (x : Live.Marked ι) : LiveAct ι → String
  | .begin i t => (t.merchant i x.1.store).getD ""
  | .step _ => ""

/-- The run that is begun, if any, is not for a merchant without a name. -/
def Live.Marked.Named (x : Live.Marked ι) : LiveAct ι → Prop
  | .begin i t => t.merchant i x.1.store ≠ some ""
  | .step _ => True

/-- The identifiers generated for a run are its merchant's. -/
def Live.Marked.Given (owner : ObjectId → String) (x : Live.Marked ι) (a : LiveAct ι) : Prop :=
  ∀ oid ∈ issuedFor a, owner oid = x.ownerOf a

theorem fst_after (set : Setting) (x : Live.Marked ι) (acts : List (LiveAct ι)) :
    (Trace.after (Live.Marked.act set) x acts).1 = Live.after set x.1 acts :=
  Pool.fst_after_actMarked _ _ _ _ _

/-- Who is logged in is a user, and has an identifier. -/
theorem along_named (set : Setting) (gateway : ℕ → Response) (acts : List (LiveAct ι)) :
    Trace.Along (Live.Marked.act set) Live.Marked.Named (Live.Marked.start gateway) acts := by
  refine Trace.along_of_after fun before a rest _ => ?_
  cases a with
  | step i => trivial
  | begin i t =>
    have hsession := (live_sound set gateway before).sessions i
    rw [Live.Marked.Named, fst_after]
    cases t with
    | monthlyReminders => simp [Trigger.merchant]
    | page e =>
      rw [Trigger.merchant]
      split
      next hin =>
        obtain ⟨u, -, hid, -⟩ := hsession.merchant hin
        intro hempty
        exact u.id.str_ne_empty (hid.symm.trans (Option.some.inj hempty))
      · simp

theorem along_given_congr {set : Setting} {owner' : ObjectId → String} {x : Live.Marked ι}
    {acts : List (LiveAct ι)} (hsame : ∀ oid ∈ acts.flatMap issuedFor, owner' oid = owner oid)
    (h : Trace.Along (Live.Marked.act set) (Live.Marked.Given owner) x acts) :
    Trace.Along (Live.Marked.act set) (Live.Marked.Given owner') x acts := by
  induction acts generalizing x with
  | nil => trivial
  | cons a acts ih =>
    rw [List.flatMap_cons, List.forall_mem_append] at hsame
    exact ⟨fun oid hoid => (hsame.1 oid hoid).trans (h.1 oid hoid), ih hsame.2 h.2⟩

/-- Where no identifier is generated twice, each has an owner. -/
theorem exists_given (set : Setting) (x : Live.Marked ι) {acts : List (LiveAct ι)}
    (hids : (acts.flatMap issuedFor).Nodup) : ∃ owner : ObjectId → String,
      Trace.Along (Live.Marked.act set) (Live.Marked.Given owner) x acts := by
  induction acts generalizing x with
  | nil => exact ⟨fun _ => "", trivial⟩
  | cons a acts ih =>
    rw [List.flatMap_cons, List.nodup_append] at hids
    obtain ⟨-, hrest, hdisjoint⟩ := hids
    obtain ⟨owner, howner⟩ := ih (Live.Marked.act set x a) hrest
    -- the run that is begun first has its own
    refine ⟨fun oid => if oid ∈ issuedFor a then x.ownerOf a else owner oid,
      fun oid hoid => if_pos hoid, along_given_congr (fun oid hoid => ?_) howner⟩
    exact if_neg fun h => hdisjoint oid h oid hoid rfl

/-- The invariant. -/
abbrev Live.Marked.Guarded (owner : ObjectId → String) (x : Live.Marked ι) : Prop :=
  Pool.Guarded execPage (Site.Attributed owner) (fun _ => PageCall.Allowed owner) x

theorem guarded_start (owner : ObjectId → String) (gateway : ℕ → Response) :
    (Live.Marked.start gateway : Live.Marked ι).Guarded owner where
  store := ⟨attributed_empty owner, fun _ hl => absurd hl List.not_mem_nil⟩
  threads _ := trivial

/-- **One act** keeps the invariant, and what is stored of those whose runs make no call. -/
theorem Live.Marked.Guarded.act {set : Setting} {x : Live.Marked ι} (hx : x.Guarded owner)
    {a : LiveAct ι} (ha : x.Given owner a ∧ x.Named a) :
    (Live.Marked.act set x a).Guarded owner ∧
      (x.Spares m a → (Live.Marked.act set x a).shown m = x.shown m) := by
  refine ⟨Pool.Guarded.act (fun i mark c site hsite hc => (hc.exec hsite).1) hx ?_, ?_⟩
  · rintro i t rfl
    exact permitted_serve set i t _ ha.2 ha.1
  · intro hspares
    cases a with
    | begin i t => rfl
    | step i =>
      rcases Pool.store_step (serve set) (hx.threads i) with hsame | ⟨c, hc, hstore⟩
      · rw [Live.Marked.shown, Live.Marked.act, Pool.actMarked, hsame]
        rfl
      · obtain ⟨hview, -⟩ := (hc.exec hx.store (i := i)).2 m hspares
        have hdeeds := hc.deeds hx.store (i := i) hspares
        rw [Live.Marked.shown, Live.Marked.act, Pool.actMarked, hstore, hview, hdeeds]
        rfl

/-- The process is guarded when a list of acts begins, and each of them is given its
identifiers. -/
theorem exists_guarded (set : Setting) (gateway : ℕ → Response) {acts acts' : List (LiveAct ι)}
    (hids : ((acts ++ acts').flatMap issuedFor).Nodup) : ∃ owner : ObjectId → String,
      let x := Trace.after (Live.Marked.act set) (Live.Marked.start gateway) acts
      x.Guarded owner ∧ Trace.Along (Live.Marked.act set)
        (fun x a => x.Given owner a ∧ x.Named a) x acts' := by
  obtain ⟨owner, hgiven⟩ := exists_given set (Live.Marked.start gateway) hids
  obtain ⟨hbefore, hafter⟩ := Trace.along_append.mp (hgiven.and (along_named set gateway _))
  refine ⟨owner, ?_, hafter⟩
  exact hbefore.preserves (fun y a ha hy => (hy.act ha (m := "")).1) (guarded_start owner gateway)

/-- **Merchants are apart.**  Whatever the sessions do, and however their calls on the database
are interleaved: as long as no call is made of a run that was begun in a session in which `m`
was logged in, the customers, the transactions and the log of `m` stay as they are, but for
the entries that it has logged in. -/
theorem tenants_isolated (set : Setting) (gateway : ℕ → Response) (acts acts' : List (LiveAct ι))
    (hids : ((acts ++ acts').flatMap issuedFor).Nodup) (m : String) :
    let x := Trace.after (Live.Marked.act set) (Live.Marked.start gateway) acts
    Trace.Along (Live.Marked.act set) (Live.Marked.Spares m) x acts' →
      (Trace.after (Live.Marked.act set) x acts').shown m = x.shown m := by
  intro x hspares
  obtain ⟨owner, hx, hgiven⟩ := exists_guarded set gateway hids
  have hrun := (hgiven.and hspares).preserves
    (I := fun y : Live.Marked ι => y.Guarded owner ∧ y.shown m = x.shown m)
    (fun y a ha hy => ⟨(hy.1.act ha.1 (m := m)).1, ((hy.1.act ha.1).2 ha.2).trans hy.2⟩)
    ⟨hx, rfl⟩
  exact hrun.2

/-- The runs of the sample, each left alone. -/
def sampleActs : List (LiveAct Bool) :=
  sampleRuns.flatMap fun x => .begin x.1 x.2 :: List.replicate 12 (.step x.1)

/-- The first merchant sells something, and the second adds a customer. -/
def sampleBegun : List (LiveAct Bool) :=
  [.begin false (.page (.transactions (.record (.sample 9 6) (.sample 10 6) "Ravi" .credit
      ⟨20, by norm_num⟩ "" none))),
    .begin true (.page (.customers (.add (.sample 11 6) (.sample 12 6) "Dev" "99" "" "")))]

/-- The run of the second is made, while that of the first waits. -/
def sampleOtherActs : List (LiveAct Bool) :=
  sampleBegun ++ List.replicate 4 (.step true)

theorem tenants_isolated_sample :
    let x := Trace.after (Live.Marked.act sampleSetting)
      (Live.Marked.start fun _ => .failure "timed out") sampleActs
    (Trace.after (Live.Marked.act sampleSetting) x sampleOtherActs).shown (ObjectId.ofNat 1).str =
      x.shown (ObjectId.ofNat 1).str :=
  tenants_isolated sampleSetting (fun _ => .failure "timed out") sampleActs sampleOtherActs
    (by decide +kernel) (ObjectId.ofNat 1).str (by decide +kernel)

end DigitalLedger
