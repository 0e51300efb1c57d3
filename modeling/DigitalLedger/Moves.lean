import DigitalLedger.Ledger
import Mathlib.Logic.Relation

/-!
# Moves of the ledger

Seen from outside, a completed call does one of seven things to the ledger or
nothing at all: it opens an account, records, amends or voids a transaction,
closes an account with its transactions, sets a PIN, or scores a customer again.
These *moves* are the transition system the application implements: every
completed call is a sequence of moves, so what the moves preserve holds in every
reachable state.

## Main definitions

* `Consistent` — the invariant: exact running figures, and transactions that refer
  to stored customers and agree with them on merchant and name.
* `Move` — one move of the ledger.

## Main results

* `Move.consistent` — every move preserves the invariant.
* `exec_moves` — a completed call on a consistent store is a sequence of moves.
* `Reachable.consistent` — every reachable state is consistent.
* `Reachable.induction` — the induction principle the later modules use: what the
  moves between consistent states preserve holds in every reachable state.
-/

namespace DigitalLedger

open Collection

/-! ### The invariant -/

/-- The invariant of the ledger. -/
structure Consistent (s : Store) : Prop where
  /-- The running figures are what the transactions amount to. -/
  figures : s.Exact
  /-- Every transaction refers to a stored customer, whose merchant and name it
  carries. -/
  refers : ∀ t ∈ s.transactions.docs, ∃ c ∈ s.customers.docs,
    t.customerId = c.id.str ∧ t.merchantId = c.merchantId ∧ t.customerName = c.name

theorem consistent_empty : Consistent Store.empty where
  figures _ hc := absurd hc List.not_mem_nil
  refers _ ht := absurd ht List.not_mem_nil

namespace Consistent

variable {s s' : Store}

theorem exists_owner (hs : Consistent s) {t : Transaction} (ht : t ∈ s.transactions.docs) :
    ∃ c ∈ s.customers.docs, t.owner = some c.id := by
  obtain ⟨c, hc, hid, -⟩ := hs.refers t ht
  exact ⟨c, hc, by rw [TransactionDoc.owner, hid, ObjectId.ofString?_str]⟩

/-- In a consistent store the transactions of a customer are those that carry the
canonical text of its identifier. -/
theorem owner_iff (hs : Consistent s) {t : Transaction} (ht : t ∈ s.transactions.docs)
    {oid : ObjectId} : t.owner = some oid ↔ t.customerId = oid.str := by
  obtain ⟨c, -, hid, -⟩ := hs.refers t ht
  rw [TransactionDoc.owner, hid, ObjectId.ofString?_str, Option.some.injEq, ObjectId.str_inj]

/-- The part of a customer document the invariant depends on. -/
def ledgerPart (c : Customer) : ObjectId × String × String × Totals :=
  (c.id, c.merchantId, c.name, c.totals)

/-- Changes of the customers outside that part keep the invariant. -/
theorem of_ledgerPart_eq (hs : Consistent s)
    (hC : s'.customers.docs.map ledgerPart = s.customers.docs.map ledgerPart)
    (hT : s'.transactions = s.transactions) : Consistent s' where
  figures c' hc' := by
    have hmem : ledgerPart c' ∈ s.customers.docs.map ledgerPart := by
      rw [← hC]; exact List.mem_map_of_mem hc'
    obtain ⟨c, hc, heq⟩ := List.mem_map.mp hmem
    obtain ⟨hid, -, -, htot⟩ : c.id = c'.id ∧ c.merchantId = c'.merchantId ∧ c.name = c'.name ∧
        c.totals = c'.totals := by simpa [ledgerPart] using heq
    rw [effects_of_transactions_eq hT, ← hid, ← htot]
    exact hs.figures c hc
  refers t ht := by
    rw [hT] at ht
    obtain ⟨c, hc, hid, hm, hn⟩ := hs.refers t ht
    have hmem : ledgerPart c ∈ s'.customers.docs.map ledgerPart := by
      rw [hC]; exact List.mem_map_of_mem hc
    obtain ⟨c', hc', heq⟩ := List.mem_map.mp hmem
    obtain ⟨hid', hm', hn', -⟩ : c'.id = c.id ∧ c'.merchantId = c.merchantId ∧
        c'.name = c.name ∧ c'.totals = c.totals := by simpa [ledgerPart] using heq
    exact ⟨c', hc', by rw [hid, hid'], by rw [hm, hm'], by rw [hn, hn']⟩

theorem rescore (hs : Consistent s) (now : Time) (cid : String) (oid : ObjectId) :
    Consistent (s.rescore now cid oid) := by
  refine hs.of_ledgerPart_eq ?_ (s.transactions_rescore now cid oid)
  unfold Store.rescore
  cases s.customers.findOne { id := some oid } with
  | none => rfl
  | some c =>
    refine map_updateOne (fun c' => ?_) _ _
    change (c'.id, c'.merchantId, c'.name, c'.totals + 0) = ledgerPart c'
    rw [add_zero, ledgerPart]

/-- **Moving the transactions and the figures of one customer together keeps the
invariant.** -/
theorem incCustomer (hs : Consistent s) {oid : ObjectId} {δ : Totals}
    (heff : ∀ a, s'.effects a = s.effects a + if a = oid then δ else 0)
    (hC : s'.customers = s.customers)
    (hrefers : ∀ t ∈ s'.transactions.docs, ∃ c ∈ s.customers.docs,
      t.customerId = c.id.str ∧ t.merchantId = c.merchantId ∧ t.customerName = c.name)
    (last : Option Time) : Consistent (s'.incCustomer oid δ last) where
  figures := hs.figures.incCustomer heff hC last
  refers t ht := by
    obtain ⟨c, hc, hid, hm, hn⟩ := hrefers t ht
    rw [← hC] at hc
    refine ⟨_, mem_customers_incCustomer.mpr ⟨c, hc, rfl⟩, ?_⟩
    split
    · exact ⟨hid, hm, hn⟩
    · exact ⟨hid, hm, hn⟩

end Consistent

variable {bcrypt : Bcrypt} {s s' : Store}

/-! ### The three operations on money -/

namespace Consistent

variable {t : Transaction} {c : Customer}

/-- Recording a transaction, up to the scoring. -/
theorem record {T : Collection Transaction} (hs : Consistent s) (env : Env) (type : TxnType)
    (amount : ℚ) (note : String) (hc : c ∈ s.customers.docs)
    (hT : s.transactions.insertOne
      (newTransaction env c.merchantId c.id.str c type amount note) = some T) :
    Consistent (({ s with transactions := T } : Store).incCustomer c.id (type.effect amount)
      (some (env.utcnow 1))) := by
  have howner : (newTransaction env c.merchantId c.id.str c type amount note).owner = some c.id :=
    ObjectId.ofString?_str c.id
  refine hs.incCustomer (fun a => ?_) ?_ (fun t ht => ?_) _
  · rw [effects_insertOne hT, share, howner]
    simp only [Option.some.injEq, eq_comm]
    rfl
  · rfl
  · rw [docs_insertOne hT, List.mem_append, List.mem_singleton] at ht
    rcases ht with ht | rfl
    · exact hs.refers t ht
    · exact ⟨c, hc, rfl, rfl, rfl⟩

/-- Amending or voiding a transaction, up to the scoring. -/
theorem write (hs : Consistent s) (w : Option TransactionUpdate) (ht : t ∈ s.transactions.docs)
    (hid : t.customerId = c.id.str) :
    Consistent ((s.write t.id w).incCustomer c.id (t.delta w) none) := by
  have howner : t.owner = some c.id := by
    rw [TransactionDoc.owner, hid, ObjectId.ofString?_str]
  refine hs.incCustomer (fun a => ?_) (customers_write _ _ _) (fun t' ht' => ?_) _
  · rw [effects_write ht, howner]
    simp only [Option.some.injEq, eq_comm]
  · obtain ⟨t₀, ht₀, hsame⟩ := mem_transactions_write ht'
    rw [hsame.customerId, hsame.merchantId, hsame.customerName]
    exact hs.refers t₀ ht₀

end Consistent

/-! ### Moves -/

/-- One move of the ledger.  The documents and updates are those the operations of
the application send. -/
inductive Move (bcrypt : Bcrypt) (s : Store) : Store → Prop
  /-- A merchant registers a customer under a phone number new to it. -/
  | openAccount {C : Collection Customer} (env : Env) (m name phone address pin : String)
      (hphone : s.customers.findOne { merchantId := some m, phone := some phone } = none)
      (hC : s.customers.insertOne (newCustomer bcrypt env m name phone address pin) = some C) :
      Move bcrypt s { s with customers := C }
  /-- A transaction of a positive amount is recorded for a customer of the merchant. -/
  | record {T : Collection Transaction} {c : Customer} (env : Env) (type : TxnType)
      (amount : ℚ) (note : String) (hamount : 0 < amount) (hc : c ∈ s.customers.docs)
      (hT : s.transactions.insertOne
        (newTransaction env c.merchantId c.id.str c type amount note) = some T) :
      Move bcrypt s
        ((({ s with transactions := T } : Store).incCustomer c.id (type.effect amount)
          (some (env.utcnow 1))).rescore (env.utcnow 2) c.id.str c.id)
  /-- The amount and note of a transaction are replaced. -/
  | amend {t : Transaction} {c : Customer} (env : Env) (amount : ℚ) (note : String)
      (ht : t ∈ s.transactions.docs) (hc : c ∈ s.customers.docs) (hid : t.customerId = c.id.str) :
      Move bcrypt s
        (((s.setTransaction t.id ⟨amount, note, true, env.utcnow 0⟩).incCustomer c.id
          (t.type.effect amount - t.effect) none).rescore (env.utcnow 1) c.id.str c.id)
  /-- A transaction is removed. -/
  | void {t : Transaction} {c : Customer} (env : Env) (ht : t ∈ s.transactions.docs)
      (hc : c ∈ s.customers.docs) (hid : t.customerId = c.id.str) :
      Move bcrypt s
        (((s.removeTransaction t.id).incCustomer c.id (-t.effect) none).rescore (env.utcnow 0)
          c.id.str c.id)
  /-- A customer is removed with its transactions. -/
  | closeAccount {c : Customer} (hc : c ∈ s.customers.docs) :
      Move bcrypt s
        { customers := s.customers.deleteOne { id := some c.id, merchantId := some c.merchantId }
          transactions := s.transactions.deleteMany { customerId := some c.id.str } }
  /-- A customer's PIN is set. -/
  | setPin {c : Customer} (env : Env) (pin : String) (hc : c ∈ s.customers.docs) :
      Move bcrypt s
        { s with
          customers := s.customers.updateOne
            { id := some c.id, merchantId := some c.merchantId }
            { portalPin := some (hashPin bcrypt env pin) } }
  /-- A customer is scored again. -/
  | rescore {c : Customer} (now : Time) (hc : c ∈ s.customers.docs) :
      Move bcrypt s (s.rescore now c.id.str c.id)

/-- **Every move preserves the invariant.** -/
theorem Move.consistent (hs : Consistent s) (h : Move bcrypt s s') : Consistent s' := by
  cases h with
  | openAccount env m name phone address pin hphone hC =>
    have hdocs := docs_insertOne hC
    have hfresh := key_ne_of_insertOne hC
    refine ⟨fun c hc => ?_, fun t ht => ?_⟩
    · rw [hdocs, List.mem_append, List.mem_singleton] at hc
      rcases hc with hc | rfl
      · exact hs.figures c hc
      · -- no transaction refers to the new customer: those stored refer to stored ones
        refine (account_eq_zero fun t ht howner => ?_).symm
        obtain ⟨c, hc, hc'⟩ := hs.exists_owner ht
        exact hfresh c hc (Option.some.inj (hc'.symm.trans howner))
    · obtain ⟨c, hc, hrest⟩ := hs.refers t ht
      exact ⟨c, by rw [hdocs]; exact List.mem_append_left _ hc, hrest⟩
  | record env type amount note hamount hc hT =>
    exact (hs.record env type amount note hc hT).rescore _ _ _
  | amend env amount note ht hc hid =>
    exact (hs.write (some ⟨amount, note, true, env.utcnow 0⟩) ht hid).rescore _ _ _
  | void env ht hc hid => exact (hs.write none ht hid).rescore _ _ _
  | @closeAccount c hc =>
    -- the other customers keep their transactions, and no transaction loses its customer
    refine ⟨fun c' hc' => ?_, fun t ht => ?_⟩
    · obtain ⟨hc', hne⟩ := mem_customers_deleteOne.mp hc'
      have hid : c'.id ≠ c.id := fun h => hne (by rw [customer_eq_of_id hc' hc h]; exact ⟨rfl, rfl⟩)
      refine (hs.figures c' hc').trans
        (account_deleteMany_of_ne fun t ht htest howner => hid ?_).symm
      rw [test_transaction_customer] at htest
      exact ObjectId.str_injective (((hs.owner_iff ht).mp howner).symm.trans htest)
    · rw [mem_deleteMany] at ht
      obtain ⟨c', hc', hid, hrest⟩ := hs.refers t ht.1
      refine ⟨c', mem_customers_deleteOne.mpr ⟨hc', fun h => ?_⟩, hid, hrest⟩
      rw [Bool.eq_false_iff, Ne, test_transaction_customer] at ht
      exact ht.2 (by rw [hid, h.1])
  | @setPin c env pin hc =>
    refine hs.of_ledgerPart_eq (map_updateOne (fun c' => ?_) _ _) rfl
    change (c'.id, c'.merchantId, c'.name, c'.totals + 0) = Consistent.ledgerPart c'
    rw [add_zero, Consistent.ledgerPart]
  | rescore now hc => exact hs.rescore now _ _

/-! ### Completed calls are sequences of moves -/

/-- Any number of moves, one after the other. -/
abbrev Moves (bcrypt : Bcrypt) : Store → Store → Prop := Relation.ReflTransGen (Move bcrypt)

theorem addCustomer_moves (env : Env) (m name phone address pin : String) (s : Store) :
    Moves bcrypt s (Prog.run exec (addCustomer bcrypt env m name phone address pin) s).2 := by
  rw [run_addCustomer]
  split
  · exact .refl
  · next hphone =>
    have hphone' : s.customers.findOne { merchantId := some m, phone := some phone } = none := by
      simpa using hphone
    cases hC : s.customers.insertOne (newCustomer bcrypt env m name phone address pin) with
    | none => exact .refl
    | some C => exact .single (.openAccount env m name phone address pin hphone' hC)

/-- The rows of an import open accounts one after the other. -/
theorem importRows_moves (env : Env) (m : String) (df : DataFrame) (columns : List String)
    (rows : List Row) (idx : ℕ) (results : ImportResults) (s : Store) :
    Moves bcrypt s (Prog.run exec (importRows bcrypt env m df columns idx rows results) s).2 := by
  induction rows generalizing idx results s with
  | nil => exact .refl
  | cons row rows ih =>
    refine Prog.run_bind_trans exec .trans ?_ fun results' s' => ih (idx + 1) results' s'
    rcases importRow_cases bcrypt env m df columns idx row results with
      ⟨results', heq⟩ | ⟨name, phone, address, count, heq, hcount⟩
    · rw [heq]
      exact .refl
    · rw [heq]
      refine Prog.run_bind_trans exec .trans (addCustomer_moves _ _ _ _ _ _ s) fun reply s' => ?_
      obtain ⟨results', hresults⟩ := hcount reply
      rw [hresults]
      exact .refl

/-- Normalising headers makes no call. -/
theorem normaliseHeaders_run (headers : List Header) (s : Store) :
    (Prog.run exec (normaliseHeaders headers) s).2 = s := by
  have huses : Prog.Uses (fun _ => False) (normaliseHeaders headers) :=
    uses_normaliseHeaders headers
  exact Prog.run_invariant exec (I := fun s' => s' = s) (fun _ hfalse => hfalse.elim) huses rfl

theorem importCustomersFromExcel_moves (env : Env) (m : String)
    (file : Except String DataFrame) (s : Store) :
    Moves bcrypt s (Prog.run exec (importCustomersFromExcel bcrypt env m file) s).2 := by
  have htable : Moves bcrypt s (Prog.run exec (importTable bcrypt env m file) s).2 := by
    cases file with
    | error message => exact .refl
    | ok df =>
      refine Prog.run_bind_trans exec .trans (by rw [normaliseHeaders_run]) fun columns s' => ?_
      dsimp only
      split
      · exact .refl
      · exact Prog.run_bind_trans exec .trans (importRows_moves _ _ _ _ _ _ _ s')
          fun results s'' => .refl
  rw [importCustomersFromExcel, Prog.run_catchWith]
  rcases hrun : Prog.run exec (importTable bcrypt env m file) s with ⟨_ | reply, s'⟩
  · rw [hrun] at htable; exact htable
  · rw [hrun] at htable; exact htable

theorem addTransaction_moves (env : Env) (m : String) (oid : ObjectId) (txnType : String)
    (amount : ℚ) (note : String) (s : Store) :
    Moves bcrypt s (Prog.run exec (addTransaction env m oid.str txnType amount note) s).2 := by
  rw [run_addTransaction, ObjectId.ofString?_str]
  split
  · exact .refl
  next hamount =>
  cases TxnType.ofString? txnType with
  | none => exact .refl
  | some type =>
    dsimp only
    cases hfind : s.customers.findOne { id := some oid, merchantId := some m } with
    | none => exact .refl
    | some c =>
      obtain ⟨hc, rfl, rfl⟩ := findOne_customer_merchant.mp hfind
      dsimp only
      cases hT : s.transactions.insertOne
          (newTransaction env c.merchantId c.id.str c type amount note) with
      | none => exact .refl
      | some T =>
        have hmove : Move bcrypt s _ := Move.record env type amount note (not_le.mp hamount) hc hT
        dsimp only
        -- whatever the last read answers, it changes nothing
        split
        · exact .single hmove
        · exact .single hmove

theorem editTransaction_moves (hs : Consistent s) (env : Env) (tid m : String) (amount : ℚ)
    (note : String) :
    Moves bcrypt s (Prog.run exec (editTransaction env tid m amount note) s).2 := by
  rw [run_editTransaction]
  cases ObjectId.ofString? tid with
  | none => exact .refl
  | some oid =>
    dsimp only
    cases hfind : s.transactions.findOne { id := some oid, merchantId := some m } with
    | none => exact .refl
    | some t =>
      obtain ⟨ht, rfl, rfl⟩ := findOne_transaction_merchant.mp hfind
      -- the customer the transaction names is stored, so its text is an identifier
      obtain ⟨c, hc, hid, -⟩ := hs.refers t ht
      dsimp only
      rw [hid, ObjectId.ofString?_str]
      exact .single (.amend env amount note ht hc hid)

theorem deleteTransaction_moves (hs : Consistent s) (env : Env) (tid m : String) :
    Moves bcrypt s (Prog.run exec (deleteTransaction env tid m) s).2 := by
  rw [run_deleteTransaction]
  cases ObjectId.ofString? tid with
  | none => exact .refl
  | some oid =>
    dsimp only
    cases hfind : s.transactions.findOne { id := some oid, merchantId := some m } with
    | none => exact .refl
    | some t =>
      obtain ⟨ht, rfl, rfl⟩ := findOne_transaction_merchant.mp hfind
      obtain ⟨c, hc, hid, -⟩ := hs.refers t ht
      dsimp only
      rw [hid, ObjectId.ofString?_str]
      exact .single (.void env ht hc hid)

theorem deleteCustomer_moves (oid : ObjectId) (m : String) (s : Store) :
    Moves bcrypt s (Prog.run exec (deleteCustomer oid.str m) s).2 := by
  rw [run_deleteCustomer, ObjectId.ofString?_str]
  dsimp only
  cases hfind : s.customers.findOne { id := some oid, merchantId := some m } with
  | none => exact .refl
  | some c =>
    obtain ⟨hc, rfl, rfl⟩ := findOne_customer_merchant.mp hfind
    exact .single (.closeAccount hc)

theorem updateCustomerPin_moves (env : Env) (oid : ObjectId) (m pin : String) (s : Store) :
    Moves bcrypt s (Prog.run exec (updateCustomerPin bcrypt env oid.str m pin) s).2 := by
  rw [run_updateCustomerPin, ObjectId.ofString?_str]
  dsimp only
  cases hfind : s.customers.findOne { id := some oid, merchantId := some m } with
  | none => rw [updateOne_of_findOne_eq_none hfind]
  | some c =>
    obtain ⟨hc, rfl, rfl⟩ := findOne_customer_merchant.mp hfind
    exact .single (.setPin env pin hc)

theorem computeCreditScore_moves (now : Time) (oid : ObjectId) (s : Store) :
    Moves bcrypt s (Prog.run exec (computeCreditScore now oid.str) s).2 := by
  rw [run_computeCreditScore s now (ObjectId.ofString?_str oid)]
  cases hfind : s.customers.findOne { id := some oid } with
  | none =>
    dsimp only
    rw [Store.rescore, hfind]
  | some c =>
    obtain ⟨hc, rfl⟩ := findOne_customer.mp hfind
    exact .single (.rescore now hc)

/-- **A completed call on a consistent store is a sequence of moves.** -/
theorem exec_moves (hs : Consistent s) {call : Call} (hcall : call.Canonical) :
    Moves bcrypt s (call.exec bcrypt s).2 := by
  rw [Call.exec]
  cases call with
  | addCustomer env m name phone address pin =>
    rw [Call.code, Prog.run_map]
    exact addCustomer_moves env m name phone address pin s
  | importCustomersFromExcel env m file =>
    rw [Call.code, Prog.run_map]
    exact importCustomersFromExcel_moves env m file s
  | addTransaction env m cid txnType amount note =>
    obtain ⟨oid, rfl⟩ := hcall
    rw [Call.code, Prog.run_map]
    exact addTransaction_moves env m oid txnType amount note s
  | editTransaction env tid m amount note =>
    rw [Call.code, Prog.run_map]
    exact editTransaction_moves hs env tid m amount note
  | deleteTransaction env tid m =>
    rw [Call.code, Prog.run_map]
    exact deleteTransaction_moves hs env tid m
  | deleteCustomer cid m =>
    obtain ⟨oid, rfl⟩ := hcall
    rw [Call.code, Prog.run_map]
    exact deleteCustomer_moves oid m s
  | updateCustomerPin env cid m pin =>
    obtain ⟨oid, rfl⟩ := hcall
    rw [Call.code, Prog.run_map]
    exact updateCustomerPin_moves env oid m pin s
  | computeCreditScore env m cid =>
    obtain ⟨oid, rfl⟩ := hcall
    rw [Call.code, Prog.run_map]
    exact computeCreditScore_moves (env.utcnow 0) oid s

theorem Moves.consistent (hs : Consistent s) (h : Moves bcrypt s s') : Consistent s' := by
  induction h with
  | refl => exact hs
  | tail _ hmove ih => exact hmove.consistent ih

/-- **Every reachable state is consistent.** -/
theorem Reachable.consistent (h : Reachable bcrypt s) : Consistent s := by
  induction h with
  | empty => exact consistent_empty
  | call c _ hc ih => exact (exec_moves ih hc).consistent ih

/-- **The induction principle for reachable states**: what holds of the empty store
and is preserved by the moves between consistent stores holds of every reachable
state. -/
theorem Reachable.induction {I : Store → Prop} (hempty : I Store.empty)
    (hmove : ∀ s s', Consistent s → I s → Move bcrypt s s' → I s') (h : Reachable bcrypt s) :
    I s := by
  induction h with
  | empty => exact hempty
  | @call s c hs hc ih =>
    have hcons := hs.consistent
    -- along the moves of the call the store stays consistent
    have key : ∀ s', Moves bcrypt s s' → Consistent s' ∧ I s' := by
      intro s' hmoves
      induction hmoves with
      | refl => exact ⟨hcons, ih⟩
      | tail _ hm ihm => exact ⟨hm.consistent ihm.1, hmove _ _ ihm.1 ihm.2 hm⟩
    exact (key _ (exec_moves hcons hc)).2

end DigitalLedger
