import DigitalLedger.Integrity

/-!
# Operations cut short

Each operation on money writes two collections by separate calls, and the
application uses no database transaction and undoes nothing when a call raises.
This module says, for every operation and every call in it, whether the ledger is
still sound when that call raises.

## Main definitions

* `Sound` — running figures that are the sums over the transactions, and no transaction
  without its customer, both by the text of `customer_id`.
* `DbCall.Harmless` — calls that keep the ledger sound whatever they are answered.
* `Call.CutSafe` — the call of a given number may raise without harm.

## Main results

* `sound_iff_cutSafe` — the ledger left behind is sound exactly when the call that
  raised may raise without harm.
* `cut_credit` — a credit cut short between its two writes.
-/

namespace DigitalLedger

open Collection Prog

variable {bcrypt : Bcrypt} {s s' : Store}

/-- The running figures are the sums over the transactions that carry the customer's
identifier, and every transaction carries that of a stored customer. -/
structure Sound (s : Store) : Prop where
  balanced : s.Balanced
  refers : ∀ t ∈ s.transactions.docs, ∃ c ∈ s.customers.docs, t.customerId = c.id.str

namespace Sound

theorem canonical (hrefers : ∀ t ∈ s.transactions.docs, ∃ c ∈ s.customers.docs,
    t.customerId = c.id.str) : ∀ t ∈ s.transactions.docs, ObjectId.Canonical t.customerId := by
  intro t ht
  obtain ⟨c, -, hid⟩ := hrefers t ht
  exact ⟨c.id, hid⟩

/-- Where no transaction is without its customer, no identifier is spelt otherwise. -/
theorem of_exact (hexact : s.Exact)
    (hrefers : ∀ t ∈ s.transactions.docs, ∃ c ∈ s.customers.docs, t.customerId = c.id.str) :
    Sound s :=
  ⟨(exact_iff_balanced (canonical hrefers)).mp hexact, hrefers⟩

theorem exact (hs : Sound s) : s.Exact := (exact_iff_balanced (canonical hs.refers)).mpr hs.balanced

theorem exists_owner (hs : Sound s) {t : Transaction} (ht : t ∈ s.transactions.docs) :
    ∃ c ∈ s.customers.docs, t.owner = some c.id := by
  obtain ⟨c, hc, hid⟩ := hs.refers t ht
  exact ⟨c, hc, by rw [TransactionDoc.owner, hid, ObjectId.ofString?_str]⟩

end Sound

theorem Consistent.sound (hs : Consistent s) : Sound s where
  balanced := hs.balanced
  refers t ht := by
    obtain ⟨c, hc, hid, -⟩ := hs.refers t ht
    exact ⟨c, hc, hid⟩

/-! ### Harmless calls -/

/-- The calls that read, register a customer owing nothing, or set fields without
moving the running figures. -/
def DbCall.Harmless : DbCall → Prop
  | .customers (.findOne _) => True
  | .customers (.find _) => True
  | .customers (.insertOne c) => c.totals = 0
  | .customers (.updateOne _ u) => u.inc = 0
  | .transactions (.findOne _) => True
  | .transactions (.find _) => True
  | _ => False

theorem DbCall.Scoring.harmless (c : DbCall) (hc : c.Scoring) : c.Harmless := by
  cases c with
  | transactions op =>
    cases op with
    | find q => trivial
    | findOne q => exact hc.elim
    | insertOne d => exact hc
    | updateOne q u => exact hc
    | deleteOne q => exact hc
    | deleteMany q => exact hc
  | customers op =>
    cases op with
    | updateOne q u => exact hc.1
    | findOne q => trivial
    | find q => trivial
    | insertOne d => exact hc.elim
    | deleteOne q => exact hc
    | deleteMany q => exact hc

/-- Registering a customer that owes nothing keeps the ledger sound. -/
theorem Sound.insertCustomer (hs : Sound s) {c : Customer} {C : Collection Customer}
    (hc : c.totals = 0) (hC : s.customers.insertOne c = some C) :
    Sound { s with customers := C } := by
  have hdocs := docs_insertOne hC
  have hfresh := key_ne_of_insertOne hC
  refine .of_exact ?_ ?_
  · intro c' hc'
    rw [hdocs, List.mem_append, List.mem_singleton] at hc'
    rcases hc' with hc' | rfl
    · exact hs.exact c' hc'
    · -- the new customer has no transactions: those stored refer to stored customers
      have hnone : s.effects c'.id = 0 := by
        refine account_eq_zero fun t ht howner => ?_
        obtain ⟨c, hcmem, hc''⟩ := hs.exists_owner ht
        exact hfresh c hcmem (Option.some.inj (hc''.symm.trans howner))
      exact hc.trans hnone.symm
  · intro t ht
    obtain ⟨c', hc', hid⟩ := hs.refers t ht
    refine ⟨c', ?_, hid⟩
    rw [hdocs]
    exact List.mem_append_left _ hc'

/-- Setting fields of a customer keeps the ledger sound. -/
theorem Sound.updateCustomer (hs : Sound s) {u : CustomerUpdate} (hu : u.inc = 0)
    (q : CustomerQuery) : Sound { s with customers := s.customers.updateOne q u } := by
  have hmap : (s.customers.updateOne q u).docs.map (fun c => (c.id, c.totals)) =
      s.customers.docs.map fun c => (c.id, c.totals) := by
    refine map_updateOne (fun c => ?_) q s.customers
    change (c.id, c.totals + u.inc) = (c.id, c.totals)
    rw [hu, add_zero]
  refine .of_exact ?_ ?_
  · intro c' hc'
    have hmem : (c'.id, c'.totals) ∈ s.customers.docs.map fun c => (c.id, c.totals) := by
      rw [← hmap]
      exact List.mem_map_of_mem hc'
    obtain ⟨c, hc, heq⟩ := List.mem_map.mp hmem
    obtain ⟨hid, htotals⟩ := Prod.mk.inj heq
    rw [← hid, ← htotals]
    exact hs.exact c hc
  · intro t ht
    obtain ⟨c, hc, hname⟩ := hs.refers t ht
    have hmem : (c.id, c.totals) ∈
        (s.customers.updateOne q u).docs.map fun c => (c.id, c.totals) := by
      rw [hmap]
      exact List.mem_map_of_mem hc
    obtain ⟨c', hc', heq⟩ := List.mem_map.mp hmem
    exact ⟨c', hc', by rw [hname, (Prod.mk.inj heq).1]⟩

theorem DbCall.Harmless.sound (c : DbCall) (hc : c.Harmless) (s : Store) (hs : Sound s) :
    Sound (exec c s).2 := by
  cases c with
  | transactions op =>
    cases op with
    | findOne q => exact hs
    | find q => exact hs
    | insertOne d => exact hc.elim
    | updateOne q u => exact hc.elim
    | deleteOne q => exact hc.elim
    | deleteMany q => exact hc.elim
  | customers op =>
    cases op with
    | findOne q => exact hs
    | find q => exact hs
    | insertOne d =>
      rw [exec, Op.exec]
      cases hC : s.customers.insertOne d with
      | none => exact hs
      | some C => exact hs.insertCustomer hc hC
    | updateOne q u => exact hs.updateCustomer hc q
    | deleteOne q => exact hc.elim
    | deleteMany q => exact hc.elim

theorem DbCall.Harmless.transactions (c : DbCall) (hc : c.Harmless) (s : Store) :
    (exec c s).2.transactions = s.transactions := by
  cases c with
  | customers op => rfl
  | transactions op =>
    cases op with
    | findOne q => rfl
    | find q => rfl
    | insertOne d => exact hc.elim
    | updateOne q u => exact hc.elim
    | deleteOne q => exact hc.elim
    | deleteMany q => exact hc.elim

/-- A program of harmless calls leaves a sound ledger wherever it is cut. -/
theorem Sound.runFailing {α : Type} {p : Db α} (hs : Sound s) (hp : Uses DbCall.Harmless p)
    {e : Exn} {n : ℕ} {x : Except Exn α × Store} (hx : runFailing exec e n p s = some x) :
    Sound x.2 :=
  runFailing_invariant exec DbCall.Harmless.sound hp hs hx

/-! ### Between the two writes -/

/-- Where only the transactions have moved, the figures are exact when they have not
moved after all. -/
theorem Sound.exact_iff (hs : Sound s) {c : Customer} (hc : c ∈ s.customers.docs) {δ : Totals}
    (heff : ∀ a, s'.effects a = s.effects a + if a = c.id then δ else 0)
    (hC : s'.customers = s.customers) :
    s'.Exact ↔ δ = 0 := by
  constructor
  · intro hexact
    rw [Store.Exact, hC] at hexact
    have hfigures := hexact c hc
    rw [hs.exact c hc, heff, if_pos rfl] at hfigures
    exact left_eq_add.mp hfigures
  · rintro rfl c' hc'
    rw [hC] at hc'
    rw [heff, ite_self, add_zero]
    exact hs.exact c' hc'

/-- Once the figures of the customer have followed the transactions, every cut is
sound. -/
theorem Sound.incCustomer (hs : Sound s) {oid : ObjectId} {δ : Totals}
    (heff : ∀ a, s'.effects a = s.effects a + if a = oid then δ else 0)
    (hC : s'.customers = s.customers)
    (hrefers : ∀ t ∈ s'.transactions.docs, ∃ c ∈ s.customers.docs, t.customerId = c.id.str)
    (last : Option Time) : Sound (s'.incCustomer oid δ last) := by
  refine .of_exact (hs.exact.incCustomer heff hC last) fun t ht => ?_
  obtain ⟨c, hc, hid⟩ := hrefers t ht
  rw [← hC] at hc
  refine ⟨_, mem_customers_incCustomer.mpr ⟨c, hc, rfl⟩, ?_⟩
  split
  · exact hid
  · exact hid

/-- Cutting short what is left once a transaction is written: the `$inc` raises, or
the figures have followed. -/
theorem settle_cut {cid : String} {coid : ObjectId} (hcid : ObjectId.ofString? cid = some coid)
    {δ : Totals} {now : Time} (hs : Sound (s.incCustomer coid δ none)) {e : Exn} {n : ℕ}
    {x : Except Exn (Reply Unit) × Store}
    (hx : runFailing exec e n (settle cid δ now) s = some x) :
    (n = 0 ∧ x.2 = s) ∨ (n ≠ 0 ∧ Sound x.2) := by
  rw [settle, objectId_eq_ret hcid, ret_bind] at hx
  rcases runFailing_perform_bind_cases exec (exec_customers_updateOne _ _ _) hx with
    h | ⟨k, rfl, hx⟩
  · exact .inl h
  · refine .inr ⟨Nat.succ_ne_zero k, hs.runFailing ?_ hx⟩
    exact ((uses_computeCreditScore now cid).mono DbCall.Scoring.harmless).bind fun _ => .ret _

/-- Cutting a recording short once the transaction is inserted: the `$inc` raises, or only
harmless calls have followed it. -/
theorem conclude_cut {oid : ObjectId} {cid : String} {δ : Totals} {last now : Time} {e : Exn}
    {n : ℕ} {x : Except Exn (Reply ℚ) × Store}
    (hx : runFailing exec e n (conclude oid cid δ last now) s = some x) :
    (n = 0 ∧ x.2 = s) ∨ (n ≠ 0 ∧ ∀ I : Store → Prop,
      (∀ c : DbCall, c.Harmless → ∀ s, I s → I (exec c s).2) →
        I (s.incCustomer oid δ (some last)) → I x.2) := by
  rw [conclude] at hx
  rcases runFailing_perform_bind_cases exec (exec_customers_updateOne _ _ _) hx with
    h | ⟨k, rfl, hx⟩
  · exact .inl h
  · refine .inr ⟨Nat.succ_ne_zero k, fun I hstep hI => runFailing_invariant exec hstep ?_ hI hx⟩
    refine ((uses_computeCreditScore now cid).mono DbCall.Scoring.harmless).bind fun _ => ?_
    refine Uses.bind (uses_query trivial) fun updated => ?_
    cases updated with
    | none => exact .raise _
    | some c => exact .ret _

/-- Wherever it is cut, the transactions are left alone. -/
theorem conclude_transactions {oid : ObjectId} {cid : String} {δ : Totals} {last now : Time}
    {e : Exn} {n : ℕ} {x : Except Exn (Reply ℚ) × Store}
    (hx : runFailing exec e n (conclude oid cid δ last now) s = some x) :
    x.2.transactions = s.transactions := by
  rcases conclude_cut hx with ⟨-, hleft⟩ | ⟨-, hkept⟩
  · rw [hleft]
  · exact hkept (fun s' => s'.transactions = s.transactions)
      (fun c hc s' hs' => (hc.transactions c s').trans hs') rfl

/-! ### The operations, cut short -/

section Cut

variable {e : Exn} {n : ℕ}

/-- Cutting a recording short once the transaction is inserted: what is left is sound
unless the `$inc` raises, or the transaction does not carry the identifier of its customer. -/
theorem inserted_cut (hs : Sound s) {t : Transaction} {T : Collection Transaction}
    (hT : s.transactions.insertOne t = some T) {c : Customer} (hc : c ∈ s.customers.docs)
    (howner : t.owner = some c.id) (heffect : t.effect ≠ 0) {cid : String} {last now : Time}
    {x : Except Exn (Reply ℚ) × Store}
    (hx : runFailing exec e n (conclude c.id cid t.effect last now)
      { s with transactions := T } = some x) :
    Sound x.2 ↔ n ≠ 0 ∧ t.customerId = c.id.str := by
  have hdocs := docs_insertOne hT
  by_cases hid : t.customerId = c.id.str
  · have heff : ∀ a, ({ s with transactions := T } : Store).effects a =
        s.effects a + if a = c.id then t.effect else 0 := by
      intro a
      rw [effects_insertOne hT, share, howner]
      simp only [Option.some.injEq, eq_comm]
    have hrefers : ∀ t' ∈ T.docs, ∃ c ∈ s.customers.docs, t'.customerId = c.id.str := by
      intro t' ht'
      rw [hdocs, List.mem_append, List.mem_singleton] at ht'
      rcases ht' with ht' | rfl
      · exact hs.refers t' ht'
      · exact ⟨c, hc, hid⟩
    rcases conclude_cut hx with ⟨rfl, hx'⟩ | ⟨hn, hkept⟩
    · -- the transaction is stored and the figures have not followed
      refine iff_of_false (fun hsound => ?_) (by simp)
      exact heffect ((hs.exact_iff hc heff rfl).mp (hx' ▸ hsound.exact))
    · have hsound := hkept Sound DbCall.Harmless.sound (hs.incCustomer heff rfl hrefers _)
      exact iff_of_true hsound ⟨hn, hid⟩
  · -- the transaction stays, under a text that is no identifier
    refine iff_of_false (fun hsound => hid ?_) fun h => hid h.2
    have ht : t ∈ x.2.transactions.docs := by
      rw [conclude_transactions hx, hdocs]
      exact List.mem_append_right _ List.mem_cons_self
    obtain ⟨c', -, hid'⟩ := hsound.refers t ht
    rw [TransactionDoc.owner, hid', ObjectId.ofString?_str, Option.some.injEq] at howner
    rw [hid', howner]

theorem recordFor_cut (hs : Sound s) {env : Env} {m cid : String} {oid : ObjectId}
    (hcid : ObjectId.ofString? cid = some oid) {type : TxnType} {amount : ℚ}
    (hamount : 0 < amount) {note : String} {x : Except Exn (Reply ℚ) × Store}
    (hx : runFailing exec e n (recordFor env m cid oid type amount note) s = some x) :
    Sound x.2 ↔ n < 2 ∨ n ≠ 2 ∧ cid = oid.str := by
  rw [recordFor] at hx
  -- the lookup of the customer raises, and nothing has been written
  rcases runFailing_perform_bind_cases exec (exec_customers_findOne _ _) hx with
    ⟨rfl, hleft⟩ | ⟨k, rfl, hrest⟩
  · rw [hleft]
    exact iff_of_true hs (by simp)
  cases hfind : s.customers.findOne { id := some oid, merchantId := some m } with
  | none => simp [hfind] at hrest
  | some c =>
    obtain ⟨hc, rfl, rfl⟩ := findOne_customer_merchant.mp hfind
    rw [hfind] at hrest
    dsimp only at hrest
    set t := newTransaction env c.merchantId cid c type amount note with ht
    -- the insertion raises, on its own account when the identifier is taken
    cases hT : s.transactions.insertOne t with
    | none =>
      cases k with
      | zero =>
        rw [TransactionsCol.insertOne, query, runFailing_perform_bind_zero,
          Option.some.injEq] at hrest
        rw [← hrest]
        exact iff_of_true hs (by simp)
      | succ k =>
        rw [TransactionsCol.insertOne, query,
          runFailing_perform_bind_error exec e (exec_transactions_insertOne_none s hT)] at hrest
        exact absurd hrest (by simp)
    | some T =>
      rcases runFailing_perform_bind_cases exec (exec_transactions_insertOne s hT) hrest with
        ⟨rfl, hleft⟩ | ⟨l, rfl, htail⟩
      · rw [hleft]
        exact iff_of_true hs (by simp)
      have heffect : t.effect ≠ 0 := fun hzero => hamount.ne' (TxnType.effect_eq_zero.mp hzero)
      have hinserted : Sound x.2 ↔ l ≠ 0 ∧ cid = c.id.str :=
        inserted_cut hs hT hc hcid heffect htail
      rw [hinserted, or_iff_right (show ¬l + 1 + 1 < 2 by omega)]
      exact and_congr_left' (by omega)

/-- Cutting an edit or a deletion short once the transaction is written: what is left
is sound unless the `$inc` raises and there was something to move. -/
theorem written_cut (hs : Sound s) {t : Transaction} (ht : t ∈ s.transactions.docs)
    {w : Option TransactionUpdate} {now : Time} {x : Except Exn (Reply Unit) × Store}
    (hx : runFailing exec e n (settle t.customerId (t.delta w) now) (s.write t.id w) = some x) :
    Sound x.2 ↔ (n = 0 → t.delta w = 0) := by
  obtain ⟨c, hc, howner⟩ := hs.exists_owner ht
  have hC := customers_write t.id w s
  have heff : ∀ a, (s.write t.id w).effects a =
      s.effects a + if a = c.id then t.delta w else 0 := by
    intro a
    rw [effects_write ht, howner]
    simp only [Option.some.injEq, eq_comm]
  have hrefers : ∀ t' ∈ (s.write t.id w).transactions.docs,
      ∃ c ∈ s.customers.docs, t'.customerId = c.id.str := by
    intro t' ht'
    obtain ⟨t₀, ht₀, hsame⟩ := mem_transactions_write ht'
    rw [hsame.customerId]
    exact hs.refers t₀ ht₀
  rcases settle_cut howner (hs.incCustomer heff hC hrefers _) hx with ⟨rfl, hx'⟩ | ⟨hn, hsound⟩
  · have hexact := hs.exact_iff hc heff hC
    rw [hx']
    refine ⟨fun hsound _ => hexact.mp hsound.exact, fun hzero => ?_⟩
    refine .of_exact (hexact.mpr (hzero rfl)) fun t' ht' => ?_
    rw [hC]
    exact hrefers t' ht'
  · exact iff_of_true hsound fun hzero => absurd hzero hn

theorem amendFor_cut (hs : Sound s) {env : Env} {oid : ObjectId} {m : String} {amount : ℚ}
    {note : String} {x : Except Exn (Reply Unit) × Store}
    (hx : runFailing exec e n (amendFor env oid m amount note) s = some x) :
    Sound x.2 ↔ (n = 2 → ∀ t ∈ s.transactions.docs, oid = t.id → t.amount = amount) := by
  rw [amendFor] at hx
  -- a lookup or a write that raises has written nothing
  rcases runFailing_perform_bind_cases exec (exec_transactions_findOne _ _) hx with
    ⟨rfl, hleft⟩ | ⟨k, rfl, hrest⟩
  · rw [hleft]
    exact iff_of_true hs (by simp)
  cases hfind : s.transactions.findOne { id := some oid, merchantId := some m } with
  | none => simp [hfind] at hrest
  | some t =>
    obtain ⟨ht, rfl, rfl⟩ := findOne_transaction_merchant.mp hfind
    rw [hfind] at hrest
    rcases runFailing_perform_bind_cases exec (exec_transactions_updateOne _ _ _) hrest with
      ⟨rfl, hleft⟩ | ⟨l, rfl, htail⟩
    · rw [hleft]
      exact iff_of_true hs (by simp)
    -- call number 2 of the edit is the first one left
    have hwritten := written_cut hs ht (w := some ⟨amount, note, true, env.utcnow 0⟩) htail
    rw [hwritten, delta_some_eq_zero]
    constructor
    · intro hsame hl t' ht' hid
      rw [transaction_eq_of_id ht' ht hid.symm]
      exact hsame (by omega)
    · intro hsame hl
      exact hsame (by omega) t ht rfl

theorem voidFor_cut (hs : Sound s) {env : Env} {oid : ObjectId} {m : String}
    {x : Except Exn (Reply Unit) × Store}
    (hx : runFailing exec e n (voidFor env oid m) s = some x) :
    Sound x.2 ↔ (n = 2 → ∀ t ∈ s.transactions.docs, oid = t.id → t.amount = 0) := by
  rw [voidFor] at hx
  -- a lookup or a deletion that raises has written nothing
  rcases runFailing_perform_bind_cases exec (exec_transactions_findOne _ _) hx with
    ⟨rfl, hleft⟩ | ⟨k, rfl, hrest⟩
  · rw [hleft]
    exact iff_of_true hs (by simp)
  cases hfind : s.transactions.findOne { id := some oid, merchantId := some m } with
  | none => simp [hfind] at hrest
  | some t =>
    obtain ⟨ht, rfl, rfl⟩ := findOne_transaction_merchant.mp hfind
    rw [hfind] at hrest
    rcases runFailing_perform_bind_cases exec (exec_transactions_deleteOne _ _) hrest with
      ⟨rfl, hleft⟩ | ⟨l, rfl, htail⟩
    · rw [hleft]
      exact iff_of_true hs (by simp)
    have hwritten := written_cut hs ht (w := none) htail
    rw [hwritten, delta_none_eq_zero]
    constructor
    · intro hzero hl t' ht' hid
      rw [transaction_eq_of_id ht' ht hid.symm]
      exact hzero (by omega)
    · intro hzero hl
      exact hzero (by omega) t ht rfl

/-- Only a positive amount of a listed type reaches the database.  The identifier of the
customer does so in any spelling. -/
theorem addTransaction_cut (hs : Sound s) {env : Env} {m cid txnType : String} {amount : ℚ}
    {note : String} {x : Except Exn (Reply ℚ) × Store}
    (hx : runFailing exec e n (addTransaction env m cid txnType amount note) s = some x) :
    Sound x.2 ↔ n < 2 ∨ n ≠ 2 ∧ ObjectId.Canonical cid := by
  rcases addTransaction_cases env m cid txnType amount note with
    ⟨message, hshape⟩ | hshape | ⟨type, oid, hamount, -, hcid, hshape⟩
  · rw [hshape, runFailing_ret] at hx
    exact absurd hx (by simp)
  · rw [hshape, runFailing_raise] at hx
    exact absurd hx (by simp)
  · rw [hshape] at hx
    rw [recordFor_cut hs hcid hamount hx, ObjectId.canonical_iff hcid]

theorem editTransaction_cut (hs : Sound s) {env : Env} {tid m : String} {amount : ℚ}
    {note : String} {x : Except Exn (Reply Unit) × Store}
    (hx : runFailing exec e n (editTransaction env tid m amount note) s = some x) :
    Sound x.2 ↔ (n = 2 → ∀ t ∈ s.transactions.docs,
      ObjectId.ofString? tid = some t.id → t.amount = amount) := by
  rw [editTransaction_eq] at hx
  cases htid : ObjectId.ofString? tid with
  | none =>
    rw [htid, runFailing_raise] at hx
    exact absurd hx (by simp)
  | some oid =>
    rw [htid] at hx
    simp only [Option.some.injEq]
    exact amendFor_cut hs hx

theorem deleteTransaction_cut (hs : Sound s) {env : Env} {tid m : String}
    {x : Except Exn (Reply Unit) × Store}
    (hx : runFailing exec e n (deleteTransaction env tid m) s = some x) :
    Sound x.2 ↔ (n = 2 → ∀ t ∈ s.transactions.docs,
      ObjectId.ofString? tid = some t.id → t.amount = 0) := by
  rw [deleteTransaction_eq] at hx
  cases htid : ObjectId.ofString? tid with
  | none =>
    rw [htid, runFailing_raise] at hx
    exact absurd hx (by simp)
  | some oid =>
    rw [htid] at hx
    simp only [Option.some.injEq]
    exact voidFor_cut hs hx

theorem deleteCustomer_cut (hs : Sound s) {cid m : String}
    {x : Except Exn (Reply Unit) × Store}
    (hx : runFailing exec e n (deleteCustomer cid m) s = some x) :
    Sound x.2 ↔ (n = 1 → ∀ t ∈ s.transactions.docs, t.owner ≠ ObjectId.ofString? cid) := by
  rw [deleteCustomer] at hx
  cases hcid : ObjectId.ofString? cid with
  | none => simp [objectId_eq_raise hcid] at hx
  | some oid =>
    rw [objectId_eq_ret hcid, ret_bind] at hx
    -- the deletion of the customer raises, and nothing has been written
    rcases runFailing_perform_bind_cases exec (exec_customers_deleteOne _ _) hx with
      ⟨rfl, hleft⟩ | ⟨k, rfl, hrest⟩
    · rw [hleft]
      exact iff_of_true hs (by simp)
    cases hfind : s.customers.findOne { id := some oid, merchantId := some m } with
    | none => simp [hfind] at hrest
    | some c =>
      obtain ⟨hc, hid, rfl⟩ := findOne_customer_merchant.mp hfind
      rw [hfind, Option.isSome_some, if_pos rfl, if_pos one_ne_zero] at hrest
      rcases runFailing_perform_bind_cases exec (exec_transactions_deleteMany _ _) hrest with
        ⟨rfl, hleft⟩ | ⟨l, rfl, htail⟩
      · rw [hleft]
        -- the customer is gone and its transactions are all still there
        have hmem : ∀ c' : Customer, c' ∈ (s.customers.deleteOne
            { id := some oid, merchantId := some c.merchantId }).docs ↔
              c' ∈ s.customers.docs ∧ c'.id ≠ oid := by
          intro c'
          refine mem_customers_deleteOne.trans (and_congr_right fun hc' => ?_)
          refine not_congr ⟨And.left, fun h => ⟨h, ?_⟩⟩
          rw [customer_eq_of_id hc' hc (h.trans hid.symm)]
        constructor
        · intro hsound _ t ht howner
          obtain ⟨c', hc', howner'⟩ := hsound.exists_owner ht
          exact ((hmem c').mp hc').2 (Option.some.inj (howner'.symm.trans howner))
        · intro hnone
          refine .of_exact (fun c' hc' => hs.exact c' ((hmem c').mp hc').1) fun t ht => ?_
          obtain ⟨c', hc', hid'⟩ := hs.refers t ht
          refine ⟨c', (hmem c').mpr ⟨hc', fun h => hnone rfl t ht ?_⟩, hid'⟩
          rw [TransactionDoc.owner, hid', ObjectId.ofString?_str, h]
      · simp at htail

end Cut

/-! ### Where a call may raise -/

/-- The call number `n` of the operation, counted from zero, may raise without harm.
The harmful ones are the `$inc` of a recorded, an amended or a removed amount, the
`delete_many` of transactions whose customer is gone, and all that follow the insertion of a
transaction under a text that is not what `str` writes of the identifier. -/
def Call.CutSafe (s : Store) (n : ℕ) : Call → Prop
  | .addTransaction _ _ cid _ _ _ => n < 2 ∨ n ≠ 2 ∧ ObjectId.Canonical cid
  | .editTransaction _ tid _ newAmount _ =>
    n = 2 → ∀ t ∈ s.transactions.docs, ObjectId.ofString? tid = some t.id → t.amount = newAmount
  | .deleteTransaction _ tid _ =>
    n = 2 → ∀ t ∈ s.transactions.docs, ObjectId.ofString? tid = some t.id → t.amount = 0
  | .deleteCustomer cid _ =>
    n = 1 → ∀ t ∈ s.transactions.docs, t.owner ≠ ObjectId.ofString? cid
  | _ => True

theorem map_cut {α : Type} {f : α → Outcome} {p : Db α} {e : Exn} {n : ℕ}
    {x : Except Exn Outcome × Store} (hx : runFailing exec e n (f <$> p) s = some x) :
    ∃ y, runFailing exec e n p s = some y ∧ x.2 = y.2 := by
  rw [runFailing_map, Option.map_eq_some_iff] at hx
  obtain ⟨y, hy, rfl⟩ := hx
  exact ⟨y, hy, rfl⟩

/-- **A call cut short on a sound ledger leaves a sound one exactly when the call that
raised may raise without harm.** -/
theorem cut_iff (hs : Sound s) {call : Call} {e : Exn} {n : ℕ}
    {x : Except Exn Outcome × Store} (hx : runFailing exec e n (call.code bcrypt) s = some x) :
    Sound x.2 ↔ call.CutSafe s n := by
  have hfind : ∀ q, DbCall.Harmless (.customers (.findOne q)) := fun _ => trivial
  have hnew : ∀ env m name phone address pin, DbCall.Harmless
      (.customers (.insertOne (newCustomer bcrypt env m name phone address pin))) :=
    fun _ _ _ _ _ _ => rfl
  cases call with
  | addTransaction env m cid txnType amount note =>
    obtain ⟨y, hy, heq⟩ := map_cut hx
    rw [heq]
    exact addTransaction_cut hs hy
  | editTransaction env tid m amount note =>
    obtain ⟨y, hy, heq⟩ := map_cut hx
    rw [heq]
    exact editTransaction_cut hs hy
  | deleteTransaction env tid m =>
    obtain ⟨y, hy, heq⟩ := map_cut hx
    rw [heq]
    exact deleteTransaction_cut hs hy
  | deleteCustomer cid m =>
    obtain ⟨y, hy, heq⟩ := map_cut hx
    rw [heq]
    exact deleteCustomer_cut hs hy
  -- the other operations make harmless calls only
  | addCustomer env m name phone address pin =>
    exact iff_of_true (hs.runFailing ((uses_addCustomer hfind hnew _ _ _ _ _ _).map _) hx) trivial
  | importCustomersFromExcel env m file =>
    exact iff_of_true
      (hs.runFailing ((uses_importCustomersFromExcel hfind hnew _ _ _).map _) hx) trivial
  | updateCustomerPin env cid m pin =>
    have huses : Uses DbCall.Harmless (updateCustomerPin bcrypt env cid m pin) :=
      uses_updateCustomerPin (fun _ _ => rfl) env cid m pin
    exact iff_of_true (hs.runFailing (huses.map _) hx) trivial
  | computeCreditScore env m cid =>
    refine iff_of_true (hs.runFailing (Uses.map _ ?_) hx) trivial
    exact (uses_computeCreditScore _ _).mono DbCall.Scoring.harmless

/-- **A call cut short leaves a sound ledger exactly when the call that raised may
raise without harm**, in every reachable state and whatever the arguments. -/
theorem sound_iff_cutSafe (h : Reachable bcrypt s) {call : Call} {e : Exn} {n : ℕ}
    {outcome : Except Exn Outcome}
    (hfail : runFailing exec e n (call.code bcrypt) s = some (outcome, s')) :
    (s'.Balanced ∧ ∀ t ∈ s'.transactions.docs, ∃ c ∈ s'.customers.docs, t.customerId = c.id.str) ↔
      call.CutSafe s n :=
  ⟨fun hsound => (cut_iff h.consistent.sound hfail).mp ⟨hsound.1, hsound.2⟩,
    fun hcut => ⟨((cut_iff h.consistent.sound hfail).mpr hcut).balanced,
      ((cut_iff h.consistent.sound hfail).mpr hcut).refers⟩⟩

/-- In the sample ledger the figures stay exact when the scoring of a credit of 10
raises. -/
theorem sound_iff_cutSafe_sample :
    ∃ outcome s', runFailing exec (.databaseError "connection closed") 4
        (Call.code markingBcrypt (.addTransaction (.sample 4 0) "m" (ObjectId.ofNat 1).str
          "credit" 10 "")) sampleStore = some (outcome, s') ∧
      ((s'.Balanced ∧
          ∀ t ∈ s'.transactions.docs, ∃ c ∈ s'.customers.docs, t.customerId = c.id.str) ↔
        Call.CutSafe sampleStore 4 (.addTransaction (.sample 4 0) "m" (ObjectId.ofNat 1).str
          "credit" 10 "")) := by
  have hcut : (runFailing exec (.databaseError "connection closed") 4
      (Call.code markingBcrypt (.addTransaction (.sample 4 0) "m" (ObjectId.ofNat 1).str
        "credit" 10 "")) sampleStore).isSome = true := by
    decide +kernel
  obtain ⟨⟨outcome, s'⟩, hfail⟩ := Option.isSome_iff_exists.mp hcut
  exact ⟨outcome, s', hfail, sound_iff_cutSafe sampleStore_reachable hfail⟩

/-- A credit of 10 whose `$inc` raises is stored and never counted. -/
theorem cut_credit :
    ¬∀ (bcrypt : Bcrypt) (s : Store), Reachable bcrypt s →
      ∀ (call : Call) (e : Exn) (n : ℕ) (outcome : Except Exn Outcome) (s' : Store),
        runFailing exec e n (call.code bcrypt) s = some (outcome, s') →
          s'.Balanced ∧
            ∀ t ∈ s'.transactions.docs, ∃ c ∈ s'.customers.docs, t.customerId = c.id.str := by
  intro hclaim
  have hcut : ∃ x ∈ runFailing exec (.databaseError "connection closed") 2
      (Call.code markingBcrypt (.addTransaction (.sample 4 0) "m" (ObjectId.ofNat 1).str
        "credit" 10 "")) sampleStore,
      ∃ c ∈ x.2.customers.docs,
        c.totalCredit ≠ sumAmounts (ofType .credit (x.2.transactionsOf c)) := by
    decide +kernel
  obtain ⟨⟨outcome, s'⟩, hfail, c, hc, hne⟩ := hcut
  have hbalanced := (hclaim _ _ sampleStore_reachable _ _ _ outcome s' hfail).1
  exact hne (hbalanced c hc).1

end DigitalLedger
