import DigitalLedger.Integrity
import DigitalLedger.Invoice
import DigitalLedger.World

/-!
# Invoices of the application

Two pages offer an invoice of a customer.  The merchant's list of customers reads the
customer and the transactions together; the portal of the customer keeps the document read
at login, while it reads the transactions anew each time the page is shown.

## Main definitions

* `showCustomersInvoices`, `showCustomerPortalInvoice` — the invoices of the two pages.
* `BalancesOut` — the outstanding balance printed is the difference of the totals printed.

## Main results

* `balance_eq_statement` — the transactions a page reads of a customer amount to its balance.
* `run_showCustomersInvoices`, `showCustomerPortal_eq_some` — what the two pages draw.
* `invoices_balance_iff` — when the invoices of the two pages balance out.
-/

namespace DigitalLedger

open Prog Collection

variable {bcrypt : Bcrypt} {s : Store} {w : World}

/-! ### The pages -/

/-- The loop of `show_customers` over the customers listed, as far as invoices go. -/
def listInvoices (now : CustomerDoc String → ℕ → Time) (businessName merchantId : String) :
    List (CustomerDoc String) → App (List (List (List Mark)))
  | [] => .ret []
  | c :: customers => do
    let txns ← App.ofDb (getTransactions merchantId (some c.id))
    let invoices ← listInvoices now businessName merchantId customers
    if txns ≠ [] then
      return generateInvoice (now c) businessName c.name c.phone txns c.balance :: invoices
    else
      return invoices

/-- The invoices `show_customers` offers, with `shown` the customers the search leaves. -/
def showCustomersInvoices (now : CustomerDoc String → ℕ → Time)
    (shown : CustomerDoc String → Bool) (businessName merchantId : String) :
    App (List (List (List Mark))) := do
  let customers ← App.ofDb (getCustomers merchantId)
  listInvoices now businessName merchantId (customers.filter shown)

/-- The invoice `show_customer_portal` offers, with `cust` the document of the login. -/
def showCustomerPortalInvoice (now : ℕ → Time) (cust : CustomerDoc String) :
    App (Option (List (List Mark))) := do
  let balance := cust.balance
  let txns ← App.ofDb (getTransactions cust.merchantId (some cust.id))
  if txns ≠ [] then
    let rawTxns ← App.ofDb (getTransactions cust.merchantId (some cust.id))
    let oid ← App.ofDb (objectId cust.merchantId)
    let merchant ← UsersCol.findOne { id := some oid }
    let biz := (merchant.map User.businessName).getD "Your Merchant"
    return some (generateInvoice now biz cust.name cust.phone rawTxns balance)
  else
    return none

/-! ### What transactions amount to -/

theorem ObjectId.str_ne_empty (oid : ObjectId) : oid.str ≠ "" := by
  intro hempty
  have hlength := congrArg (fun text : String => text.toList.length) hempty
  rw [ObjectId.str] at hlength
  simp [oid.length_digits] at hlength

/-- The transactions of a customer, as the pages read them. -/
def Store.statement (s : Store) (merchantId customerId : String) : List (TransactionDoc String) :=
  (sortByDateDesc (s.transactions.find
    { merchantId := some merchantId, customerId := some customerId })).map TransactionDoc.withStrId

theorem run_getTransactions {merchantId customerId : String} (hcid : customerId ≠ "")
    (s : Store) :
    run exec (getTransactions merchantId (some customerId)) s =
      (.ok (s.statement merchantId customerId), s) := by
  have hfilter : (some customerId).filter (fun text => text ≠ "") = some customerId := by
    simp [hcid]
  rw [getTransactions, hfilter, run_bind, run_transactions_find]
  rfl

theorem run_ofDb_getTransactions {merchantId customerId : String} (hcid : customerId ≠ "")
    (w : World) :
    run execApp (App.ofDb (getTransactions merchantId (some customerId))) w =
      (.ok (w.ledger.statement merchantId customerId), w) := by
  rw [App.run_ofDb, run_getTransactions hcid]
  rfl

theorem test_transaction_statement {m cid : String} {t : Transaction} :
    test ({ merchantId := some m, customerId := some cid } : TransactionQuery) t = true ↔
      t.merchantId = m ∧ t.customerId = cid := by
  rw [test_transactionQuery]
  simp [eq_comm]

/-- A transaction that is read comes from one that is stored. -/
theorem mem_statement {m cid : String} {t : TransactionDoc String} (ht : t ∈ s.statement m cid) :
    ∃ t' ∈ s.transactions.docs, t'.merchantId = m ∧ t'.customerId = cid := by
  obtain ⟨t', ht', -⟩ := List.mem_map.mp ht
  have hfound := (List.mem_insertionSort _).mp ht'
  obtain ⟨hmem, htest⟩ := mem_find.mp hfound
  exact ⟨t', hmem, test_transaction_statement.mp htest⟩

/-- The pages read the transactions that carry the customer's identifier, each once. -/
theorem statement_perm (hs : Consistent s) {c : Customer} (hc : c ∈ s.customers.docs) :
    (s.statement c.merchantId c.id.str).Perm
      ((s.transactionsOf c).map TransactionDoc.withStrId) := by
  have hfind : s.transactions.find
      { merchantId := some c.merchantId, customerId := some c.id.str } = s.transactionsOf c := by
    refine List.filter_congr fun t ht => ?_
    rw [Bool.eq_iff_iff, test_transaction_statement, decide_eq_true_eq]
    constructor
    · intro h
      exact h.2
    · intro hid
      exact ⟨(hs.carries hc ht hid).1, hid⟩
  rw [Store.statement, hfind]
  exact (List.perm_insertionSort _ _).map _

theorem sum_amountsOf_statement (hs : Consistent s) {c : Customer} (hc : c ∈ s.customers.docs)
    (type : TxnType) :
    (amountsOf type (s.statement c.merchantId c.id.str)).sum =
      sumAmounts (ofType type (s.transactionsOf c)) := by
  have hperm := statement_perm hs hc
  calc (amountsOf type (s.statement c.merchantId c.id.str)).sum
      = (amountsOf type ((s.transactionsOf c).map TransactionDoc.withStrId)).sum :=
        ((hperm.filter _).map _).sum_eq
    _ = sumAmounts (ofType type (s.transactionsOf c)) := by
        rw [amountsOf, List.filter_map, List.map_map]
        rfl

/-- **The transactions a page reads of a customer amount to its balance.** -/
theorem balance_eq_statement (hs : Consistent s) {c : Customer} (hc : c ∈ s.customers.docs) :
    c.balance = (amountsOf .credit (s.statement c.merchantId c.id.str)).sum -
      (amountsOf .payment (s.statement c.merchantId c.id.str)).sum := by
  rw [sum_amountsOf_statement hs hc, sum_amountsOf_statement hs hc]
  exact hs.balance_eq hc

/-! ### What balances out -/

/-- The summary of the invoice has one total of credits, one of payments and one
outstanding balance, which is their difference. -/
def BalancesOut (pages : List (List Mark)) : Prop :=
  ∃ credit paid balance : ℚ,
    printed "Total Credit:   " pages = [credit] ∧ printed "Total Paid:     " pages = [paid] ∧
      printed "Outstanding Balance:  " pages = [balance] ∧ balance = credit - paid

theorem balancesOut_generateInvoice (now : ℕ → Time)
    (businessName customerName customerPhone : String)
    (transactions : List (TransactionDoc String)) (balance : ℚ) :
    BalancesOut
        (generateInvoice now businessName customerName customerPhone transactions balance) ↔
      balance = (amountsOf .credit transactions).sum - (amountsOf .payment transactions).sum := by
  obtain ⟨hcredit, hpaid, hbalance⟩ := printed_generateInvoice now businessName customerName
    customerPhone transactions balance
  unfold BalancesOut
  rw [hcredit, hpaid, hbalance]
  simp only [List.cons.injEq, and_true]
  constructor
  · rintro ⟨_, _, _, rfl, rfl, rfl, h⟩
    exact h
  · intro h
    exact ⟨_, _, _, rfl, rfl, rfl, h⟩

/-! ### The list of customers -/

theorem run_listInvoices (now : CustomerDoc String → ℕ → Time) (businessName merchantId : String)
    {customers : List (CustomerDoc String)} (hids : ∀ c ∈ customers, c.id ≠ "") (w : World) :
    run execApp (listInvoices now businessName merchantId customers) w =
      (.ok ((customers.filter fun c => w.ledger.statement merchantId c.id ≠ []).map fun c =>
        generateInvoice (now c) businessName c.name c.phone
          (w.ledger.statement merchantId c.id) c.balance), w) := by
  induction customers with
  | nil => rfl
  | cons c customers ih =>
    have hrest := ih fun c' hc' => hids c' (List.mem_cons_of_mem c hc')
    rw [listInvoices, run_bind, run_ofDb_getTransactions (hids c List.mem_cons_self), andThen_ok,
      run_bind, hrest, andThen_ok]
    by_cases hempty : w.ledger.statement merchantId c.id = []
    · simp [hempty]
    · simp [hempty]

/-- Every invoice of the list of customers is drawn for a stored customer, from its
transactions and its balance. -/
theorem run_showCustomersInvoices (now : CustomerDoc String → ℕ → Time)
    (shown : CustomerDoc String → Bool) (businessName merchantId : String) (w : World) :
    ∃ invoices, run execApp (showCustomersInvoices now shown businessName merchantId) w =
        (.ok invoices, w) ∧
      ∀ pages ∈ invoices, ∃ c ∈ w.ledger.customers.docs,
        pages = generateInvoice (now c.withStrId) businessName c.name c.phone
          (w.ledger.statement c.merchantId c.id.str) c.balance := by
  have hget : run execApp (App.ofDb (getCustomers merchantId)) w =
      (.ok ((w.ledger.customers.find { merchantId := some merchantId }).map
        CustomerDoc.withStrId), w) := by
    rw [App.run_ofDb, getCustomers, run_bind, run_customers_find]
    rfl
  have hlisted : ∀ c ∈ ((w.ledger.customers.find { merchantId := some merchantId }).map
      CustomerDoc.withStrId).filter shown,
      ∃ c' ∈ w.ledger.customers.docs, c'.merchantId = merchantId ∧ c = c'.withStrId := by
    intro c hc
    obtain ⟨c', hc', rfl⟩ := List.mem_map.mp (List.mem_filter.mp hc).1
    obtain ⟨hmem, htest⟩ := mem_find.mp hc'
    exact ⟨c', hmem, ((test_customerQuery.mp htest).2.1 merchantId rfl).symm, rfl⟩
  rw [showCustomersInvoices, run_bind, hget, andThen_ok, run_listInvoices]
  · refine ⟨_, rfl, fun pages hpages => ?_⟩
    obtain ⟨c, hc, rfl⟩ := List.mem_map.mp hpages
    obtain ⟨c', hc', rfl, rfl⟩ := hlisted c (List.mem_filter.mp hc).1
    exact ⟨c', hc', rfl⟩
  · intro c hc
    obtain ⟨c', -, -, rfl⟩ := hlisted c hc
    exact c'.id.str_ne_empty

/-! ### The portal -/

/-- A login that succeeds answers with the document of a stored customer. -/
theorem customerPortalLogin_success {phone pin : String} {cust : CustomerDoc String}
    (hlogin : (run exec (customerPortalLogin bcrypt phone pin) s).1 = .ok (.success cust)) :
    ∃ c ∈ s.customers.docs, cust = c.withStrId := by
  rw [customerPortalLogin, run_bind, run_customers_findOne, andThen_ok] at hlogin
  cases hfind : s.customers.findOne { phone := some phone } with
  | none => simp [hfind] at hlogin
  | some c =>
    simp only [hfind] at hlogin
    split at hlogin
    · simp at hlogin
    · split at hlogin
      · simp at hlogin
      · exact ⟨c, mem_of_findOne hfind, by simpa using hlogin.symm⟩

/-- An invoice of the portal is drawn from the transactions of the customer and the balance
of the document it is handed; it is offered only where there are transactions. -/
theorem showCustomerPortal_eq_some {now : ℕ → Time} {cust : CustomerDoc String}
    (hid : cust.id ≠ "") {pages : List (List Mark)}
    (hrun : (run execApp (showCustomerPortalInvoice now cust) w).1 = .ok (some pages)) :
    w.ledger.statement cust.merchantId cust.id ≠ [] ∧
      ∃ biz, pages = generateInvoice now biz cust.name cust.phone
        (w.ledger.statement cust.merchantId cust.id) cust.balance := by
  rw [showCustomerPortalInvoice, run_bind, run_ofDb_getTransactions hid, andThen_ok] at hrun
  by_cases hempty : w.ledger.statement cust.merchantId cust.id = []
  · simp [hempty] at hrun
  · rw [if_pos hempty, run_bind, run_ofDb_getTransactions hid, andThen_ok, run_bind,
      App.run_ofDb, objectId] at hrun
    refine ⟨hempty, ?_⟩
    cases hoid : ObjectId.ofString? cust.merchantId with
    | none => simp [hoid, Except.mapError] at hrun
    | some oid =>
      simp only [hoid, run_ret, Except.mapError, andThen_ok] at hrun
      rw [run_bind, run_users_findOne, andThen_ok] at hrun
      simp only [pure_eq, run_ret, Except.ok.injEq, Option.some.injEq] at hrun
      exact ⟨_, hrun.symm⟩

/-- In a consistent ledger the invoice of the portal balances out exactly when the balance of
the document it is handed is the one now stored. -/
theorem balancesOut_showCustomerPortal (hs : Consistent w.ledger) {now : ℕ → Time} {c₀ : Customer}
    {pages : List (List Mark)}
    (hrun : (run execApp (showCustomerPortalInvoice now c₀.withStrId) w).1 = .ok (some pages)) :
    BalancesOut pages ↔ ∃ c ∈ w.ledger.customers.docs, c.id = c₀.id ∧ c.balance = c₀.balance := by
  obtain ⟨hnonempty, biz, rfl⟩ := showCustomerPortal_eq_some c₀.id.str_ne_empty hrun
  rw [balancesOut_generateInvoice]
  -- a transaction that is read refers to the customer, which is therefore still stored
  obtain ⟨t, ht⟩ := List.exists_mem_of_ne_nil _ hnonempty
  obtain ⟨t', ht', hm, hid⟩ := mem_statement ht
  obtain ⟨c, hc, hid', hm', -⟩ := hs.refers t' ht'
  have hsame : c.id = c₀.id := ObjectId.str_injective (hid'.symm.trans hid)
  have hmerchant : c.merchantId = c₀.merchantId := hm'.symm.trans hm
  have hbalance := balance_eq_statement hs hc
  rw [hsame, hmerchant] at hbalance
  constructor
  · intro h
    exact ⟨c, hc, hsame, hbalance.trans h.symm⟩
  · rintro ⟨c', hc', hid'', h⟩
    rw [customer_eq_of_id hc' hc (hid''.trans hsame.symm)] at h
    exact h.symm.trans hbalance

/-- **When the invoices of the two pages balance out.**  Those of the list of customers always
do.  After a login, and calls of any kind, the invoice of the portal does exactly when the
stored balance of the customer is again the one the login has read. -/
theorem invoices_balance_iff (h : Reachable bcrypt s) :
    (∀ w : World, w.ledger = s → ∀ now shown businessName merchantId,
      ∃ invoices,
        run execApp (showCustomersInvoices now shown businessName merchantId) w =
          (.ok invoices, w) ∧
        ∀ pages ∈ invoices, BalancesOut pages) ∧
      ∀ phone pin cust,
        (run exec (customerPortalLogin bcrypt phone pin) s).1 = .ok (.success cust) →
        ∀ calls : List Call, (∀ c ∈ calls, c.Canonical) →
        ∀ w : World, w.ledger = execAll bcrypt calls s →
        ∀ now pages, (run execApp (showCustomerPortalInvoice now cust) w).1 = .ok (some pages) →
          (BalancesOut pages ↔
            ∃ c ∈ w.ledger.customers.docs, c.id.str = cust.id ∧ c.balance = cust.balance) := by
  constructor
  · rintro w rfl now shown businessName merchantId
    obtain ⟨invoices, hrun, hdrawn⟩ :=
      run_showCustomersInvoices now shown businessName merchantId w
    refine ⟨invoices, hrun, fun pages hpages => ?_⟩
    obtain ⟨c, hc, rfl⟩ := hdrawn pages hpages
    exact (balancesOut_generateInvoice _ _ _ _ _ _).mpr (balance_eq_statement h.consistent hc)
  · intro phone pin cust hlogin calls hcalls w hw now pages hrun
    obtain ⟨c₀, -, rfl⟩ := customerPortalLogin_success hlogin
    have hconsistent : Consistent w.ledger := by
      rw [hw]
      exact (h.execAll hcalls).consistent
    rw [balancesOut_showCustomerPortal hconsistent hrun]
    have hids : ∀ c : Customer, c.id.str = c₀.withStrId.id ↔ c.id = c₀.id := fun c =>
      ObjectId.str_inj
    simp only [hids]
    rfl

/-! ### A payment between login and download -/

/-- A merchant registers a customer and gives it a credit of 50. -/
def portalCalls : List Call :=
  [.addCustomer (.sample 1 0) (ObjectId.ofNat 9).str "Asha" "98" "" "1234",
    .addTransaction (.sample 2 0) (ObjectId.ofNat 9).str (ObjectId.ofNat 1).str "credit" 50 "rice"]

def portalStore : Store := execAll markingBcrypt portalCalls .empty

/-- The customer pays 20. -/
def portalPayment : Call :=
  .addTransaction (.sample 3 0) (ObjectId.ofNat 9).str (ObjectId.ofNat 1).str "payment" 20 ""

/-- The customer before the payment. -/
def portalCustomer : Customer :=
  { sampleCustomer with
    merchantId := (ObjectId.ofNat 9).str
    balance := 50
    totalPaid := 0
    creditScore := 38
    riskCategory := .highRisk }

/-- The world with this ledger and no merchant in `users`. -/
def World.ofLedger (s : Store) : World := ⟨s, .empty, fun _ => .failure "timed out", []⟩

/-- The invoice drawn of a ledger with the balance of the login. -/
def portalDownload (s : Store) : List (List Mark) :=
  generateInvoice (fun _ => 0) "Your Merchant" "Asha" "98"
    (s.statement (ObjectId.ofNat 9).str (ObjectId.ofNat 1).str) 50

theorem portalStore_reachable : Reachable markingBcrypt portalStore := by
  refine Reachable.empty.execAll fun c hc => ?_
  simp only [portalCalls, List.mem_cons, List.not_mem_nil, or_false] at hc
  rcases hc with rfl | rfl
  · trivial
  · exact ObjectId.canonical_str _

theorem portalPayment_canonical : ∀ c ∈ [portalPayment], c.Canonical := by
  intro c hc
  rw [List.mem_singleton.mp hc]
  exact ObjectId.canonical_str _

theorem portalStore_login :
    (run exec (customerPortalLogin markingBcrypt "98" "1234") portalStore).1 =
      .ok (.success portalCustomer.withStrId) := by
  decide +kernel

/-- The list of customers of the small ledger, and its portal before the payment. -/
theorem invoices_balance_iff_sample :
    (∃ invoices,
        run execApp (showCustomersInvoices (fun _ _ => 0) (fun _ => true) "Shop"
          (ObjectId.ofNat 9).str) (.ofLedger portalStore) =
          (.ok invoices, .ofLedger portalStore) ∧
        ∀ pages ∈ invoices, BalancesOut pages) ∧
      (BalancesOut (portalDownload portalStore) ↔
        ∃ c ∈ portalStore.customers.docs,
          c.id.str = (ObjectId.ofNat 1).str ∧ c.balance = 50) := by
  have hrun : (run execApp (showCustomerPortalInvoice (fun _ => 0) portalCustomer.withStrId)
      (.ofLedger portalStore)).1 = .ok (some (portalDownload portalStore)) := by
    decide +kernel
  obtain ⟨hlist, hportal⟩ := invoices_balance_iff portalStore_reachable
  exact ⟨hlist _ rfl _ _ _ _,
    hportal "98" "1234" _ portalStore_login [] (by simp) _ rfl _ _ hrun⟩

/-- The invoice downloaded after a payment prints the balance from before it. -/
theorem invoice_after_payment :
    ¬∀ (bcrypt : Bcrypt) (s : Store), Reachable bcrypt s → ∀ phone pin cust,
      (run exec (customerPortalLogin bcrypt phone pin) s).1 = .ok (.success cust) →
        ∀ calls : List Call, (∀ c ∈ calls, c.Canonical) →
        ∀ w : World, w.ledger = execAll bcrypt calls s →
        ∀ now pages, (run execApp (showCustomerPortalInvoice now cust) w).1 = .ok (some pages) →
          BalancesOut pages := by
  intro hclaim
  have hrun : (run execApp (showCustomerPortalInvoice (fun _ => 0) portalCustomer.withStrId)
      (.ofLedger (execAll markingBcrypt [portalPayment] portalStore))).1 =
        .ok (some (portalDownload (execAll markingBcrypt [portalPayment] portalStore))) := by
    decide +kernel
  have hbalances := hclaim _ _ portalStore_reachable "98" "1234" _ portalStore_login
    [portalPayment] portalPayment_canonical _ rfl _ _ hrun
  rw [portalDownload, balancesOut_generateInvoice] at hbalances
  exact absurd hbalances (by decide +kernel)

end DigitalLedger
