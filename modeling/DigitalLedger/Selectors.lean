import DigitalLedger.Downloads
import DigitalLedger.Lib.Keyed
import DigitalLedger.Names

/-!
# Choosing a customer

The page of the transactions offers the customers by name: a dictionary from names to
customers fills the list of the form and, after the entry "All", that of the filter.  Customers
are told apart by their phones, not by their names, so the page can serve each of them only
where the names differ, and "All" among them is read as the entry that filters nothing.

## Main definitions

* `custMap`, `submitTransaction`, `showHistory` — the page, once it has listed the customers.
* `Choosable` — every customer has an entry of the form and one of the filter.
* `NamesApart` — the names tell the customers apart.

## Main results

* `submitsFor_iff` — whose transaction a submission records.
* `choosable_iff` — when every customer can be chosen.
* `customers_choosable_iff` — in a state, and along a run.
-/

namespace DigitalLedger

open Collection Prog

/-! ### The page -/

/-- `{c["name"]: c for c in customers}` -/
def custMap (customers : List (CustomerDoc String)) : List (String × CustomerDoc String) :=
  Keyed.ofList (fun c => c.name) customers

/-- The entries of the list "Customer". -/
def formEntries (customers : List (CustomerDoc String)) : List String :=
  Keyed.keys (custMap customers)

/-- The entries of the list "Filter by customer". -/
def filterEntries (customers : List (CustomerDoc String)) : List String :=
  "All" :: formEntries customers

/-- `cust_map[name]` -/
def custItem (customers : List (CustomerDoc String)) (name : String) : App (CustomerDoc String) :=
  match (custMap customers).lookup name with
  | some cust => .ret cust
  | none => .raise (.keyError name)

/-- The submission of the form, up to what becomes of its reply. -/
def submitTransaction (env : Env) (mid : String) (customers : List (CustomerDoc String))
    (custName txnType : String) (amount : ℚ) (note : String) : App (Reply ℚ) := do
  let cust ← custItem customers custName
  App.ofDb (addTransaction env mid cust.id txnType amount note)

/-- The transactions the history shows. -/
def showHistory (mid : String) (customers : List (CustomerDoc String)) (filterCust : String) :
    App (List (TransactionDoc String)) :=
  if filterCust ≠ "All" then do
    let cust ← custItem customers filterCust
    App.ofDb (getTransactions mid (some cust.id))
  else App.ofDb (getTransactions mid none)

/-! ### Every customer can be chosen -/

/-- The customers the page lists. -/
def Store.listed (s : Store) (m : String) : List (CustomerDoc String) :=
  (s.customersOf m).map CustomerDoc.withStrId

/-- They are what `get_customers` returns. -/
theorem run_getCustomers (m : String) (s : Store) :
    run exec (getCustomers m) s = (.ok (s.listed m), s) := rfl

/-- To submit the form with an entry is to call `add_transaction` for an identifier. -/
def SubmitsFor (m : String) (customers : List (CustomerDoc String)) (entry cid : String) : Prop :=
  ∀ env txnType amount note, submitTransaction env m customers entry txnType amount note =
    App.ofDb (addTransaction env m cid txnType amount note)

/-- The history shows exactly these transactions, once each. -/
def Shows (w : World) (m : String) (customers : List (CustomerDoc String)) (entry : String)
    (txns : List Transaction) : Prop :=
  ∃ shown, run execApp (showHistory m customers entry) w = (.ok shown, w) ∧
    shown.Perm (txns.map TransactionDoc.withStrId)

/-- Every customer has an entry of the form and one of the filter, and no two have the
same. -/
structure Choosable (w : World) (m : String) : Prop where
  form : ∃ entry : Customer → String,
    (∀ c ∈ w.ledger.customersOf m, entry c ∈ formEntries (w.ledger.listed m) ∧
      SubmitsFor m (w.ledger.listed m) (entry c) c.id.str) ∧
    ∀ c ∈ w.ledger.customersOf m, ∀ c' ∈ w.ledger.customersOf m, entry c = entry c' → c = c'
  filter : ∃ entry : Customer → String,
    (∀ c ∈ w.ledger.customersOf m, entry c ∈ filterEntries (w.ledger.listed m) ∧
      Shows w m (w.ledger.listed m) (entry c) (w.ledger.transactionsOf c)) ∧
    ∀ c ∈ w.ledger.customersOf m, ∀ c' ∈ w.ledger.customersOf m, entry c = entry c' → c = c'

/-- The names differ, and a customer named "All" has all the transactions. -/
structure NamesApart (s : Store) (m : String) : Prop where
  nodup : (s.namesOf m).Nodup
  all : ∀ c ∈ s.customersOf m, c.name = "All" →
    ∀ t ∈ s.transactionsBy m, t.customerId = c.id.str

variable {bcrypt : Bcrypt} {s : Store} {m : String} {w : World} {c : Customer} {entry : String}

/-! ### The dictionary -/

theorem listed_names (s : Store) (m : String) :
    (s.listed m).map (fun c => c.name) = s.namesOf m := by
  rw [Store.listed, List.map_map]
  rfl

theorem mem_formEntries : entry ∈ formEntries (s.listed m) ↔ entry ∈ s.namesOf m := by
  rw [formEntries, custMap, Keyed.mem_keys_ofList, listed_names]

theorem custItem_eq {customers : List (CustomerDoc String)} {cust : CustomerDoc String}
    (h : (custMap customers).lookup entry = some cust) : custItem customers entry = .ret cust := by
  rw [custItem, h]

/-- An entry stands for a customer of that name. -/
theorem exists_of_mem_formEntries (h : entry ∈ formEntries (s.listed m)) :
    ∃ c ∈ s.customersOf m, c.name = entry ∧ custItem (s.listed m) entry = .ret c.withStrId := by
  cases hfound : (custMap (s.listed m)).lookup entry with
  | none => exact absurd h (Keyed.lookup_eq_none_iff.1 hfound)
  | some cust =>
    obtain ⟨hcust, hname⟩ := Keyed.of_lookup_ofList hfound
    obtain ⟨c, hc, rfl⟩ := List.mem_map.1 hcust
    exact ⟨c, hc, hname, custItem_eq hfound⟩

/-- Where the names differ, each stands for its customer. -/
theorem custItem_name (hnodup : (s.namesOf m).Nodup) (hc : c ∈ s.customersOf m) :
    custItem (s.listed m) c.name = .ret c.withStrId := by
  rw [← listed_names] at hnodup
  exact custItem_eq (Keyed.lookup_ofList_of_nodup hnodup (List.mem_map_of_mem hc))

/-! ### The form -/

/-- The first call of a program. -/
def firstCall {α : Type} : App α → Option AppCall
  | .call c _ => some c
  | _ => none

theorem firstCall_addTransaction (env : Env) (m : String) (oid : ObjectId) (note : String) :
    firstCall (App.ofDb (addTransaction env m oid.str "credit" 1 note)) =
      some (.ledger (.customers (.findOne { id := some oid, merchantId := some m }))) := by
  have hpos : ¬(1 : ℚ) ≤ 0 := by norm_num
  have hcredit : TxnType.ofString? "credit" = some .credit := rfl
  rw [addTransaction_eq, if_neg hpos, hcredit, ObjectId.ofString?_str]
  dsimp only
  show firstCall (App.ofDb (Prog.call _ _)) = _
  rw [App.ofDb, firstCall]

/-- A submission records a transaction of the customer the entry stands for, and of no
other. -/
theorem submitsFor_iff {c' : Customer} (hitem : custItem (s.listed m) entry = .ret c.withStrId) :
    SubmitsFor m (s.listed m) entry c'.id.str ↔ c.id = c'.id := by
  have hsubmit : ∀ env txnType amount note,
      submitTransaction env m (s.listed m) entry txnType amount note =
        App.ofDb (addTransaction env m c.id.str txnType amount note) := by
    intro env txnType amount note
    rw [submitTransaction, hitem]
    rfl
  constructor
  · intro h
    have hcalls := congrArg firstCall ((hsubmit (.sample 0 0) "credit" 1 "").symm.trans
      (h (.sample 0 0) "credit" 1 ""))
    rw [firstCall_addTransaction, firstCall_addTransaction] at hcalls
    simpa using hcalls
  · intro hid env txnType amount note
    rw [hsubmit, hid]

/-! ### The history -/

theorem run_showHistory (hentry : entry ≠ "All")
    (hitem : custItem (w.ledger.listed m) entry = .ret c.withStrId) :
    run execApp (showHistory m (w.ledger.listed m) entry) w =
      (.ok (w.ledger.statement m c.id.str), w) := by
  rw [showHistory, if_pos hentry, hitem, ret_bind]
  exact run_ofDb_getTransactions c.id.str_ne_empty w

theorem run_showHistory_all (customers : List (CustomerDoc String)) (m : String) (w : World) :
    run execApp (showHistory m customers "All") w =
      (.ok ((sortByDateDesc (w.ledger.transactionsBy m)).map TransactionDoc.withStrId), w) := by
  rw [showHistory, if_neg (not_not.mpr rfl), App.run_ofDb]
  rfl

/-- What an entry shows belongs to the transactions it is to show. -/
theorem Shows.mem {customers : List (CustomerDoc String)} {txns : List Transaction}
    {shown : List (TransactionDoc String)} {t : Transaction} (h : Shows w m customers entry txns)
    (hrun : run execApp (showHistory m customers entry) w = (.ok shown, w))
    (ht : t.withStrId ∈ shown) : ∃ t' ∈ txns, t'.customerId = t.customerId := by
  obtain ⟨shown', hrun', hperm⟩ := h
  rw [hrun] at hrun'
  obtain rfl : shown = shown' := Except.ok.inj (Prod.mk.inj hrun').1
  obtain ⟨t', ht', heq⟩ := List.mem_map.mp (hperm.mem_iff.mp ht)
  exact ⟨t', ht', congrArg (fun d : TransactionDoc String => d.customerId) heq⟩

/-! ### Names that differ are enough -/

/-- Where a customer has all the transactions of its merchant, the two lists are one. -/
theorem transactionsBy_eq (hs : Consistent s) (hc : c ∈ s.customersOf m)
    (hall : ∀ t ∈ s.transactionsBy m, t.customerId = c.id.str) :
    s.transactionsBy m = s.transactionsOf c := by
  obtain ⟨hdoc, rfl⟩ := mem_customersOf.mp hc
  refine List.filter_congr fun t ht => ?_
  rw [Bool.eq_iff_iff, test_transaction_merchant, decide_eq_true_eq]
  constructor
  · intro hm
    exact hall t (mem_find.mpr ⟨ht, test_transaction_merchant.mpr hm⟩)
  · intro hid
    exact (hs.carries hdoc ht hid).1

theorem NamesApart.choosable (hs : Consistent w.ledger) (h : NamesApart w.ledger m) :
    Choosable w m where
  form := by
    refine ⟨fun c => c.name, fun c hc => ⟨?_, ?_⟩, fun c hc c' hc' heq => ?_⟩
    · exact mem_formEntries.mpr (List.mem_map_of_mem hc)
    · exact (submitsFor_iff (custItem_name h.nodup hc)).mpr rfl
    · exact List.inj_on_of_nodup_map h.nodup hc hc' heq
  filter := by
    refine ⟨fun c => c.name, fun c hc => ⟨?_, ?_⟩, fun c hc c' hc' heq => ?_⟩
    · exact List.mem_cons_of_mem _ (mem_formEntries.mpr (List.mem_map_of_mem hc))
    · by_cases hall : c.name = "All"
      · -- read as the entry that filters nothing, which leaves this customer's
        have hsame := transactionsBy_eq hs hc (h.all c hc hall)
        refine ⟨(sortByDateDesc (w.ledger.transactionsBy m)).map TransactionDoc.withStrId, ?_, ?_⟩
        · dsimp only
          rw [hall]
          exact run_showHistory_all _ m w
        · rw [← hsame]
          exact (List.perm_insertionSort _ _).map _
      · refine ⟨_, run_showHistory hall (custItem_name h.nodup hc), ?_⟩
        obtain ⟨hdoc, rfl⟩ := mem_customersOf.mp hc
        exact statement_perm hs hdoc
    · exact List.inj_on_of_nodup_map h.nodup hc hc' heq

/-! ### And needed -/

/-- The entry of the form that stands for a customer is its name. -/
theorem SubmitsFor.eq_name (hc : c ∈ s.customersOf m) (hentry : entry ∈ formEntries (s.listed m))
    (h : SubmitsFor m (s.listed m) entry c.id.str) : entry = c.name := by
  obtain ⟨c', hc', hname, hitem⟩ := exists_of_mem_formEntries hentry
  have hid : c'.id = c.id := (submitsFor_iff hitem).mp h
  rw [← hname, customer_eq_of_id (mem_customersOf.mp hc').1 (mem_customersOf.mp hc).1 hid]

theorem nodup_customersOf (s : Store) (m : String) : (s.customersOf m).Nodup :=
  (List.Nodup.of_map _ s.customers.nodup).filter _

theorem Choosable.nodup (h : Choosable w m) : (w.ledger.namesOf m).Nodup := by
  obtain ⟨entry, hentry, hinj⟩ := h.form
  refine (nodup_customersOf w.ledger m).map_on fun c hc c' hc' hname => hinj c hc c' hc' ?_
  obtain ⟨hmem, hsubmits⟩ := hentry c hc
  obtain ⟨hmem', hsubmits'⟩ := hentry c' hc'
  rw [hsubmits.eq_name hc hmem, hsubmits'.eq_name hc' hmem', hname]

/-- Entries for all customers, where one of them is named "All", are all the entries. -/
theorem exists_entry {entry : Customer → String}
    (hmem : ∀ c ∈ s.customersOf m, entry c ∈ filterEntries (s.listed m))
    (hinj : ∀ c ∈ s.customersOf m, ∀ c' ∈ s.customersOf m, entry c = entry c' → c = c')
    (hall : "All" ∈ s.namesOf m) :
    ∀ name ∈ s.namesOf m, ∃ c ∈ s.customersOf m, entry c = name := by
  have hnodup : ((s.customersOf m).map entry).Nodup := (nodup_customersOf s m).map_on hinj
  have hsub : (s.customersOf m).map entry ⊆ s.namesOf m := by
    intro name hname
    obtain ⟨c, hc, rfl⟩ := List.mem_map.mp hname
    rcases List.mem_cons.mp (hmem c hc) with heq | hform
    · rw [heq]
      exact hall
    · exact mem_formEntries.mp hform
  -- as many entries as names
  have hlength : (s.namesOf m).length ≤ ((s.customersOf m).map entry).length := by
    rw [Store.namesOf, List.length_map, List.length_map]
  have hperm := (List.subperm_of_subset hnodup hsub).perm_of_length_le hlength
  intro name hname
  exact List.mem_map.mp (hperm.mem_iff.mpr hname)

/-- A transaction of a merchant refers to one of its customers. -/
theorem exists_owner (hs : Consistent s) {t : Transaction} (ht : t ∈ s.transactionsBy m) :
    ∃ c ∈ s.customersOf m, t.customerId = c.id.str := by
  obtain ⟨ht, htest⟩ := mem_find.mp ht
  obtain ⟨c, hc, hid, hm, -⟩ := hs.refers t ht
  exact ⟨c, mem_customersOf.mpr ⟨hc, hm.symm.trans (test_transaction_merchant.mp htest)⟩, hid⟩

theorem withStrId_mem_statement {t : Transaction} {cid : String} (ht : t ∈ s.transactionsBy m)
    (hid : t.customerId = cid) : t.withStrId ∈ s.statement m cid := by
  obtain ⟨ht, htest⟩ := mem_find.mp ht
  have hfound := test_transaction_statement.mpr ⟨test_transaction_merchant.mp htest, hid⟩
  exact List.mem_map_of_mem ((List.mem_insertionSort _).mpr (mem_find.mpr ⟨ht, hfound⟩))

/-- Whoever is shown by an entry that shows a transaction of a customer is that customer. -/
theorem Shows.owner {customers : List (CustomerDoc String)} {shown : List (TransactionDoc String)}
    {o : Customer} {t : Transaction} (h : Shows w m customers entry (w.ledger.transactionsOf c))
    (hrun : run execApp (showHistory m customers entry) w = (.ok shown, w))
    (ht : t.withStrId ∈ shown) (hc : c ∈ w.ledger.customersOf m) (ho : o ∈ w.ledger.customersOf m)
    (hid : t.customerId = o.id.str) : c = o := by
  obtain ⟨t', ht', hsame⟩ := h.mem hrun ht
  have hcustomer : t'.customerId = c.id.str := by simpa using (List.mem_filter.mp ht').2
  refine customer_eq_of_id (mem_customersOf.mp hc).1 (mem_customersOf.mp ho).1 ?_
  exact ObjectId.str_injective (hcustomer.symm.trans (hsame.trans hid))

/-- A customer named "All" has all the transactions: else the owner of another would need the
entry "All" and that of its name. -/
theorem Choosable.all (hs : Consistent w.ledger) (h : Choosable w m)
    (hc : c ∈ w.ledger.customersOf m) (hall : c.name = "All") :
    ∀ t ∈ w.ledger.transactionsBy m, t.customerId = c.id.str := by
  intro t ht
  by_contra hne
  obtain ⟨o, ho, hid⟩ := exists_owner hs ht
  have hstray : o.name ≠ "All" := by
    intro heq
    rw [List.inj_on_of_nodup_map h.nodup ho hc (heq.trans hall.symm)] at hid
    exact hne hid
  obtain ⟨entry, hentry, hinj⟩ := h.filter
  have hnames : "All" ∈ w.ledger.namesOf m := hall ▸ List.mem_map_of_mem hc
  have hsurj := exists_entry (fun c hc => (hentry c hc).1) hinj hnames
  obtain ⟨c₁, hc₁, hname₁⟩ := hsurj o.name (List.mem_map_of_mem ho)
  obtain ⟨c₂, hc₂, hname₂⟩ := hsurj "All" hnames
  have hfirst : c₁ = o := by
    have hrun := run_showHistory hstray (custItem_name h.nodup ho)
    rw [← hname₁] at hrun
    exact (hentry c₁ hc₁).2.owner hrun (withStrId_mem_statement ht hid) hc₁ ho hid
  have hsecond : c₂ = o := by
    have hrun := run_showHistory_all (w.ledger.listed m) m w
    rw [← hname₂] at hrun
    have hshown := List.mem_map_of_mem (f := TransactionDoc.withStrId)
      ((List.mem_insertionSort fun t t' : Transaction => t'.date ≤ t.date).mpr ht)
    exact (hentry c₂ hc₂).2.owner hrun hshown hc₂ ho hid
  rw [hfirst] at hname₁
  rw [hsecond, hname₁] at hname₂
  exact hstray hname₂

/-- **When every customer can be chosen.** -/
theorem choosable_iff (h : Reachable bcrypt w.ledger) : Choosable w m ↔ NamesApart w.ledger m := by
  constructor
  · intro hchoosable
    exact ⟨hchoosable.nodup, fun c hc hall => hchoosable.all h.consistent hc hall⟩
  · intro hnames
    exact hnames.choosable h.consistent

/-! ### Over a run -/

theorem Store.NamesDiffer.apart (h : s.NamesDiffer) (m : String) : NamesApart s m where
  nodup := nodup_namesOf h.nodup m
  all c hc hall := by
    have hname : (m, c.name) ∈ s.names := mem_names.mpr (List.mem_map_of_mem hc)
    exact absurd hall (h.notAll _ hname)

/-- **Every customer can be chosen** where the names tell the customers apart, and only there;
and so it is in every state of a run whose registrations all give new names. -/
theorem customers_choosable_iff (bcrypt : Bcrypt) :
    (∀ w : World, Reachable bcrypt w.ledger → ∀ m, Choosable w m ↔ NamesApart w.ledger m) ∧
      ∀ calls : List Call, (∀ c ∈ calls, c.Canonical) →
        EachCall bcrypt (fun s call => call.NamesNew s) .empty calls →
          ∀ gone, gone <+: calls → ∀ w : World, w.ledger = execAll bcrypt gone .empty →
            ∀ m, Choosable w m := by
  refine ⟨fun w h m => choosable_iff h, fun calls hcanonical hnew gone hgone w hw m => ?_⟩
  have hreachable : Reachable bcrypt w.ledger := by
    rw [hw]
    exact Reachable.empty.execAll fun c hc => hcanonical c (hgone.subset hc)
  rw [choosable_iff hreachable, hw]
  exact (namesDiffer_execAll namesDiffer_empty hnew hgone).apart m

/-- In the sample ledger, and on the way to it, every customer can be chosen. -/
theorem customers_choosable_iff_sample :
    (Choosable (.ofLedger sampleStore) "m" ↔ NamesApart sampleStore "m") ∧
      Choosable (.ofLedger sampleStore) "m" := by
  have hnew : EachCall markingBcrypt (fun s call => call.NamesNew s) .empty sampleCalls :=
    ⟨⟨by decide +kernel, by decide +kernel, by decide +kernel⟩,
      ⟨List.nodup_nil, fun _ hname => absurd hname List.not_mem_nil, List.not_mem_nil⟩,
      ⟨List.nodup_nil, fun _ hname => absurd hname List.not_mem_nil, List.not_mem_nil⟩, trivial⟩
  exact ⟨(customers_choosable_iff markingBcrypt).1 _ sampleStore_reachable "m",
    (customers_choosable_iff markingBcrypt).2 sampleCalls sampleCalls_canonical hnew sampleCalls
      (List.prefix_refl _) _ rfl "m"⟩

/-- Two customers of one name. -/
def namesakes : List Call :=
  [.addCustomer (.sample 1 0) "m" "Asha" "98" "" "",
    .addCustomer (.sample 2 0) "m" "Asha" "99" "" ""]

/-- One of two customers of one name cannot be chosen. -/
theorem namesake_not_choosable :
    ¬∀ (bcrypt : Bcrypt) (w : World), Reachable bcrypt w.ledger → ∀ m, Choosable w m := by
  intro hclaim
  have hreachable : Reachable markingBcrypt (execAll markingBcrypt namesakes .empty) := by
    refine Reachable.empty.execAll fun c hc => ?_
    simp only [namesakes, List.mem_cons, List.not_mem_nil, or_false] at hc
    rcases hc with rfl | rfl
    · trivial
    · trivial
  have hnames := (hclaim markingBcrypt (.ofLedger _) hreachable "m").nodup
  exact absurd hnames (by decide +kernel)

end DigitalLedger
