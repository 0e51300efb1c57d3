import DigitalLedger.Audit

/-!
# No page breaks down

A run that raises shows a traceback instead of the page, and may have done half of its work.
Many calls could raise: identifiers are parsed, entries are looked up by name, a document that
was just updated is read again.  On a site that is served one run after the other none of them
does, unless a message is to be sent.  What the pages only show is not part of the runs here, and
the hashing library is taken not to raise.

## Main definitions

* `Trigger.Silent` — no reminder and no receipt is to be sent.
* `Trigger.Offered` — the names chosen are among those the page offers.
* `Trigger.Regular` — both, and the identifiers the database generates are fresh.

## Main results

* `returns_addTransaction`, `returns_editTransaction`, `returns_deleteTransaction` — the operations
  end normally where the ledger is consistent.
* `returns_plan` — so does a page that is asked for what it offers, and sends nothing.
* `served_ends` — so does every run of a served site.
-/

namespace DigitalLedger

open Collection Prog

variable {ι : Type} {set : Setting} {m : String} {s : Store} {bcrypt : Bcrypt}

/-! ### The operations on the ledger -/

theorem returns_addCustomer (env : Env) (hunused : s.Unused (env.objectId 0))
    (m name phone address pin : String) :
    Returns exec (addCustomer bcrypt env m name phone address pin) s := by
  rw [Returns, run_addCustomer]
  split
  · exact ⟨_, rfl⟩
  · have hnew : ∀ c ∈ s.customers.docs,
        key c ≠ key (newCustomer bcrypt env m name phone address pin) := hunused.customer
    obtain ⟨C, hC, -⟩ := insertOne_of_fresh hnew
    rw [hC]
    exact ⟨_, rfl⟩

/-- Whatever the file does, an import answers. -/
theorem returns_import (env : Env) (m : String) (file : Except String DataFrame) :
    Returns exec (importCustomersFromExcel bcrypt env m file) s := by
  rw [importCustomersFromExcel, Returns, run_catchWith]
  split
  · exact ⟨_, rfl⟩
  · exact ⟨_, rfl⟩

theorem returns_computeCreditScore (now : Time) {cid : String} (hcid : ObjectId.Canonical cid) :
    Returns exec (computeCreditScore now cid) s := by
  obtain ⟨oid, rfl⟩ := hcid
  rw [Returns, run_computeCreditScore _ _ (ObjectId.ofString?_str oid)]
  exact ⟨_, rfl⟩

theorem returns_recalculate (env : Env) (k : ℕ) {customers : List (CustomerDoc String)}
    (hcustomers : ∀ c ∈ customers, ObjectId.Canonical c.id) :
    Returns exec (recalculate env k customers) s := by
  induction customers generalizing k s with
  | nil => exact returns_ret ()
  | cons c customers ih =>
    rw [List.forall_mem_cons] at hcustomers
    obtain ⟨pair, hpair⟩ := returns_computeCreditScore (s := s) (env.utcnow k) hcustomers.1
    exact returns_bind.mpr ⟨pair, hpair, ih (k + 1) hcustomers.2⟩

theorem returns_updateCustomerPin (env : Env) {cid : String} (hcid : ObjectId.Canonical cid)
    (m pin : String) : Returns exec (updateCustomerPin bcrypt env cid m pin) s := by
  obtain ⟨oid, rfl⟩ := hcid
  rw [Returns, run_updateCustomerPin, ObjectId.ofString?_str]
  exact ⟨_, rfl⟩

theorem returns_deleteCustomer {cid : String} (hcid : ObjectId.Canonical cid) (m : String) :
    Returns exec (deleteCustomer cid m) s := by
  obtain ⟨oid, rfl⟩ := hcid
  rw [Returns, run_deleteCustomer, ObjectId.ofString?_str]
  dsimp only
  split
  · exact ⟨_, rfl⟩
  · exact ⟨_, rfl⟩

/-- The customer is still there when its new balance is read. -/
theorem returns_addTransaction (env : Env) (hunused : s.Unused (env.objectId 0)) {cid : String}
    (hcid : ObjectId.Canonical cid) (m txnType : String) (amount : ℚ) (note : String) :
    Returns exec (addTransaction env m cid txnType amount note) s := by
  obtain ⟨oid, rfl⟩ := hcid
  rw [Returns, run_addTransaction, ObjectId.ofString?_str]
  split
  · exact ⟨_, rfl⟩
  cases TxnType.ofString? txnType with
  | none => exact ⟨_, rfl⟩
  | some type =>
    dsimp only
    cases hfound : s.customers.findOne { id := some oid, merchantId := some m } with
    | none => exact ⟨_, rfl⟩
    | some c =>
      obtain ⟨hc, rfl, -⟩ := findOne_customer_merchant.mp hfound
      have hnew : ∀ t ∈ s.transactions.docs,
          key t ≠ key (newTransaction env m c.id.str c type amount note) := hunused.transaction
      obtain ⟨T, hT, -⟩ := insertOne_of_fresh hnew
      have hsome := findOne_settled (T := T) (findOne_customer.mpr ⟨hc, rfl⟩)
        (type.effect amount) (some (env.utcnow 1)) (env.utcnow 2) c.id.str
      dsimp only
      rw [hT]
      dsimp only
      split
      · next hnone =>
        rw [hnone] at hsome
        exact absurd hsome (by decide)
      · exact ⟨_, rfl⟩

/-- A transaction refers to its customer by an identifier. -/
theorem Consistent.canonical (hs : Consistent s) {oid : ObjectId} {t : Transaction}
    (ht : s.transactions.findOne { id := some oid, merchantId := some m } = some t) :
    ∃ coid, ObjectId.ofString? t.customerId = some coid := by
  obtain ⟨c, -, hcid, -⟩ := hs.refers t (mem_of_findOne ht)
  exact ⟨c.id, by rw [hcid, ObjectId.ofString?_str]⟩

theorem returns_editTransaction (hs : Consistent s) (env : Env) {tid : String}
    (htid : ObjectId.Canonical tid) (m : String) (amount : ℚ) (note : String) :
    Returns exec (editTransaction env tid m amount note) s := by
  obtain ⟨oid, rfl⟩ := htid
  rw [Returns, run_editTransaction, ObjectId.ofString?_str]
  dsimp only
  cases hfound : s.transactions.findOne { id := some oid, merchantId := some m } with
  | none => exact ⟨_, rfl⟩
  | some t =>
    obtain ⟨coid, hcoid⟩ := hs.canonical hfound
    dsimp only
    rw [hcoid]
    exact ⟨_, rfl⟩

theorem returns_deleteTransaction (hs : Consistent s) (env : Env) {tid : String}
    (htid : ObjectId.Canonical tid) (m : String) :
    Returns exec (deleteTransaction env tid m) s := by
  obtain ⟨oid, rfl⟩ := htid
  rw [Returns, run_deleteTransaction, ObjectId.ofString?_str]
  dsimp only
  cases hfound : s.transactions.findOne { id := some oid, merchantId := some m } with
  | none => exact ⟨_, rfl⟩
  | some t =>
    obtain ⟨coid, hcoid⟩ := hs.canonical hfound
    dsimp only
    rw [hcoid]
    exact ⟨_, rfl⟩

/-! ### The runs -/

/-- No reminder and no receipt is to be sent. -/
def Trigger.Silent : Trigger → Prop
  | .page (.transactions (.record _ _ _ _ _ _ receipt)) => receipt = none
  | .page (.reminders _) => False
  | .monthlyReminders => False
  | _ => True

/-- The names that are chosen are among those the page offers. -/
def Trigger.Offered (customers : List (CustomerDoc String)) : Trigger → Prop
  | .page (.transactions (.record _ _ custName _ _ _ _)) => custName ∈ formEntries customers
  | .page (.transactions (.edit _ _ filterCust _ _ _)) => filterCust ∈ filterEntries customers
  | .page (.transactions (.delete _ _ filterCust _)) => filterCust ∈ filterEntries customers
  | _ => True

/-- The identifier the database generates for a user that registers. -/
def Trigger.enrolled : Trigger → List ObjectId
  | .page (.auth (.register env _ _ _ _ _)) => [env.objectId 0]
  | _ => []

/-- The run is given fresh identifiers, is asked for what its page offers, and sends nothing to
customers. -/
structure Trigger.Regular (site : Site ι) (i : ι) (t : Trigger) : Prop where
  fresh : t.Fresh site
  enrols : ∀ oid ∈ t.enrolled, ∀ u ∈ site.world.users.docs, u.id ≠ oid
  offered : site.world.ledger.listed (site.sessions i).userId ≠ [] →
    t.Offered (site.world.ledger.listed (site.sessions i).userId)
  silent : t.Silent

section Run

variable [DecidableEq ι] {i : ι} {site : Site ι} {α β : Type}

theorem returns_ofDb {p : Db α} {f : α → Script β} (hp : Returns exec p site.world.ledger)
    (hf : ∀ a s', Returns (execPage i) (f a)
      { site with world := { site.world with ledger := s' } }) :
    Returns (execPage i) (Script.ofDb p >>= f) site := by
  obtain ⟨a, ha⟩ := hp
  refine returns_bind.mpr ⟨a, ?_, ?_⟩
  · rw [Script.run_ofDb, ha]
    rfl
  · rw [Script.run_ofDb]
    exact hf a _

theorem returns_ofApp {p : App α} {f : α → Script β} (hp : Returns execApp p site.world)
    (hf : ∀ a w, Returns (execPage i) (f a) { site with world := w }) :
    Returns (execPage i) (Script.ofApp p >>= f) site := by
  obtain ⟨a, ha⟩ := hp
  refine returns_bind.mpr ⟨a, ?_, ?_⟩
  · rw [Script.run_ofApp, ha]
  · rw [Script.run_ofApp]
    exact hf a _

/-- An entry with a fresh identifier is logged. -/
theorem returns_logAction {logEnv : Env} {action details : String} {f : Unit → Script α}
    (hfresh : ∀ l ∈ site.logs.docs, l.id ≠ logEnv.objectId 0)
    (hf : ∀ site', Returns (execPage i) (f ()) site') :
    Returns (execPage i) (logAction logEnv m action details >>= f) site := by
  have hnew : ∀ l ∈ site.logs.docs, key l ≠ key (newLogEntry logEnv m action details) := hfresh
  obtain ⟨L, hL, -⟩ := insertOne_of_fresh hnew
  refine returns_bind.mpr ⟨(), ?_, hf _⟩
  rw [run_logAction, hL]

theorem returns_listed {f : List (CustomerDoc String) → Script β}
    (hf : Returns (execPage i) (f (site.world.ledger.listed m)) site) :
    Returns (execPage i) (Script.ofDb (getCustomers m) >>= f) site :=
  returns_bind.mpr ⟨_, by rw [run_listed], by rw [run_listed]; exact hf⟩

/-! ### The page of a visitor -/

/-- A name that is not taken, with a fresh identifier, can be registered. -/
theorem returns_registerUser {env : Env} {w : World}
    (hfresh : ∀ u ∈ w.users.docs, u.id ≠ env.objectId 0)
    (username password businessName phone : String) :
    Returns execApp (registerUser bcrypt env username password businessName phone) w := by
  rw [Returns, run_registerUser]
  cases hname : w.users.byUsername username with
  | some u => exact ⟨_, rfl⟩
  | none =>
    dsimp only
    cases hinsert : w.users.insertOne (newUser bcrypt env username password businessName phone) with
    | some users => exact ⟨_, rfl⟩
    | none =>
      rcases IndexedCollection.insertOne_eq_none.mp hinsert with ⟨ix, hix, -, htaken⟩ | htaken
      · -- the username is taken, and was found
        rw [userIndexes, List.mem_singleton] at hix
        subst hix
        obtain ⟨u, hu, hfields⟩ := List.mem_map.mp htaken
        obtain rfl : u.username = username := (List.cons.inj hfields).1
        rw [byUsername_eq_some hu] at hname
        exact absurd hname (Option.some_ne_none u)
      · obtain ⟨u, hu, hid⟩ := List.mem_map.mp htaken
        exact absurd hid (hfresh u hu)

theorem returns_sendOtpToPhone (environ : Environ) (env : OtpEnv) (phone : String) (w : World) :
    Returns execApp (sendOtpToPhone environ env phone) w := by
  rw [sendOtpToPhone]
  refine returns_bind.mpr ⟨_, rfl, ?_⟩
  split
  · exact returns_ret _
  · refine returns_bind.mpr ⟨_, rfl, ?_⟩
    -- what becomes of the message is not raised
    exact (run_deliverOtp _ environ phone _).elim fun _ hrun => ⟨_, congrArg Prod.fst hrun⟩

variable {st : SessionState}

theorem returns_showAuthPage (e : AuthEvent)
    (hlog : ∀ oid ∈ Trigger.logIssued (.page (.auth e)), ∀ l ∈ site.logs.docs, l.id ≠ oid)
    (henrols : ∀ oid ∈ Trigger.enrolled (.page (.auth e)), ∀ u ∈ site.world.users.docs,
      u.id ≠ oid) : Returns (execPage i) (showAuthPage set st e) site := by
  cases e with
  | login logEnv username password =>
    refine returns_bind.mpr ⟨_, by rw [Script.run_ofApp, run_loginUser], ?_⟩
    rw [Script.run_ofApp, run_loginUser]
    split
    · exact returns_ret _
    · exact returns_bind.mpr ⟨(), rfl, returns_logAction (hlog _ List.mem_cons_self)
        fun _ => returns_ret _⟩
  | register env newUser bizName phone newPass confPass =>
    rw [showAuthPage]
    split
    · exact returns_ret _
    split
    · exact returns_ret _
    refine returns_ofApp (returns_registerUser (henrols _ List.mem_cons_self) _ _ _ _)
      fun reply w => ?_
    cases reply with
    | failure message => exact returns_ret _
    | success uid => exact returns_ret _
  | customerLogin cphone cpin =>
    have hlogin : Returns exec (customerPortalLogin set.bcrypt cphone cpin) site.world.ledger := by
      rw [customerPortalLogin]
      refine returns_bind.mpr ⟨_, rfl, ?_⟩
      split
      · exact returns_ret _
      split
      · exact returns_ret _
      split
      · exact returns_ret _
      · exact returns_ret _
    refine returns_ofDb hlogin fun reply s' => ?_
    cases reply with
    | failure message => exact returns_ret _
    | success customer => exact returns_bind.mpr ⟨(), rfl, returns_ret _⟩
  | sendOtp env fpPhone =>
    rw [showAuthPage]
    split
    · exact returns_ret _
    refine returns_ofApp (returns_sendOtpToPhone _ _ _ _) fun reply w => ?_
    cases reply with
    | failure message => exact returns_ret _
    | success res => exact returns_bind.mpr ⟨(), rfl, returns_ret _⟩
  | resetPassword env otp newPass conf =>
    rw [showAuthPage]
    split
    · exact returns_ret _
    split
    · exact returns_ret _
    have hreset : Returns execApp (resetPasswordWithOtp set.bcrypt env st.otpPhone otp newPass)
        site.world := by
      rw [Returns, run_resetPasswordWithOtp]
      split
      · exact ⟨_, rfl⟩
      · exact ⟨_, rfl⟩
    refine returns_ofApp hreset fun reply w => ?_
    cases reply with
    | failure message => exact returns_ret _
    | success message => exact returns_bind.mpr ⟨(), rfl, returns_ret _⟩
  | back =>
    rw [showAuthPage]
    split
    · exact returns_ret _
    · exact returns_bind.mpr ⟨(), rfl, returns_ret _⟩

/-! ### The pages of a merchant -/

/-- What the history shows has been stored, and can be found again. -/
theorem run_getTransactions_canonical (m : String) (cid : Option String) (s : Store) :
    ∃ txns, run exec (getTransactions m cid) s = (.ok txns, s) ∧
      ∀ t ∈ txns, ObjectId.Canonical t.id := by
  refine ⟨_, rfl, fun t ht => ?_⟩
  obtain ⟨t', -, rfl⟩ := List.mem_map.mp ht
  exact ObjectId.canonical_str t'.id

/-- **The rule for the history.** -/
theorem returns_showHistory {entry : String} {f : List (TransactionDoc String) → Script β}
    (hentry : entry ∈ filterEntries (site.world.ledger.listed m))
    (hf : ∀ txns, (∀ t ∈ txns, ObjectId.Canonical t.id) → Returns (execPage i) (f txns) site) :
    Returns (execPage i)
      (Script.ofApp (showHistory m (site.world.ledger.listed m) entry) >>= f) site := by
  have hread : ∃ txns, run execApp (showHistory m (site.world.ledger.listed m) entry) site.world =
      (.ok txns, site.world) ∧ ∀ t ∈ txns, ObjectId.Canonical t.id := by
    rw [showHistory]
    split
    next hne =>
      rcases List.mem_cons.mp hentry with rfl | hentry
      · exact absurd rfl hne
      obtain ⟨c, -, -, hitem⟩ := exists_of_mem_formEntries hentry
      obtain ⟨txns, hrun, hcanonical⟩ :=
        run_getTransactions_canonical m (some c.id.str) site.world.ledger
      refine ⟨txns, ?_, hcanonical⟩
      rw [hitem, ret_bind, App.run_ofDb]
      exact congrArg (fun r : _ × Store =>
        (r.1.mapError AppExn.database, { site.world with ledger := r.2 })) hrun
    · obtain ⟨txns, hrun, hcanonical⟩ :=
        run_getTransactions_canonical m none site.world.ledger
      refine ⟨txns, ?_, hcanonical⟩
      rw [App.run_ofDb]
      exact congrArg (fun r : _ × Store =>
        (r.1.mapError AppExn.database, { site.world with ledger := r.2 })) hrun
  obtain ⟨txns, hrun, hcanonical⟩ := hread
  refine returns_bind.mpr ⟨txns, ?_, ?_⟩
  · rw [Script.run_ofApp, hrun]
  · rw [Script.run_ofApp, hrun]
    exact hf txns hcanonical

/-- What a page of the merchant is shown where nothing else changes the ledger, and is asked
for by what it offers.  It sends nothing. -/
def Terms.offered (s : Store) (m : String) : Terms where
  Lists customers := customers = s.listed m
  Known cid := ObjectId.Canonical cid
  known _ hlists _ hc := canonical_of_mem_listed (hlists ▸ hc)
  Entry tid := ObjectId.Canonical tid
  Offers entries name := name ∈ entries
  Sends := False

/-- **The calls of a page end normally.** -/
theorem returns_call (bcrypt : Bcrypt) (hs : Consistent s) {call : Call}
    (hunused : ∀ oid ∈ call.issued, s.Unused oid) (hcall : call.Planned set (.offered s m)) :
    Returns exec (call.code bcrypt) s := by
  cases call with
  | addCustomer env m name phone address pin =>
    exact returns_map.mpr (returns_addCustomer env (hunused _ List.mem_cons_self) _ _ _ _ _)
  | addTransaction env m cid txnType amount note =>
    exact returns_map.mpr
      (returns_addTransaction env (hunused _ List.mem_cons_self) hcall.1 _ _ _ _)
  | editTransaction env tid m amount note =>
    exact returns_map.mpr (returns_editTransaction hs env hcall.1 _ _ _)
  | deleteTransaction env tid m => exact returns_map.mpr (returns_deleteTransaction hs env hcall _)
  | deleteCustomer cid m => exact returns_map.mpr (returns_deleteCustomer hcall _)
  | updateCustomerPin env cid m pin =>
    exact returns_map.mpr (returns_updateCustomerPin env hcall.1 _ _)
  | computeCreditScore env m cid => exact hcall.elim
  | importCustomersFromExcel env m file => exact returns_map.mpr (returns_import env m file)

theorem returns_closes {t : Trigger} {call : Call} {o : Outcome} {p : Script (List Notice)}
    (hp : Closes t m (.offered s m) call o p)
    (hlog : ∀ oid ∈ t.logIssued, ∀ l ∈ site.logs.docs, l.id ≠ oid) :
    Returns (execPage i) p site := by
  cases hp with
  | ret notices ho => exact returns_ret notices
  | log hrec hid hf =>
    refine returns_logAction (hlog _ hid) fun site' => ?_
    obtain ⟨notices, hret⟩ := hf.resolve_right fun h => h.1
    rw [hret]
    exact returns_ret notices

/-- **A page of the merchant ends normally**, if it sends nothing and is asked for what it
offers. -/
theorem returns_plan {t : Trigger} {p : Script (List Notice)}
    (hp : Plan set t m (.offered site.world.ledger m) p) (hs : Consistent site.world.ledger)
    (hfresh : t.Fresh site) : Returns (execPage i) p site := by
  induction hp with
  | ret notices => exact returns_ret notices
  | listed hf ih => exact returns_listed (ih _ rfl)
  | @chosen customers name f hlists hname hf ih =>
    obtain rfl : customers = site.world.ledger.listed m := hlists
    obtain ⟨c, hc, -, hitem⟩ := exists_of_mem_formEntries hname
    rw [hitem]
    exact ih c.withStrId (List.mem_map_of_mem hc)
  | @history customers entry f hlists hentry hf ih =>
    obtain rfl : customers = site.world.ledger.listed m := hlists
    exact returns_showHistory hentry ih
  | call call hcode hm hplanned hids hf =>
    have hcall := returns_call set.bcrypt hs (hids ▸ hfresh.unused) hplanned
    rw [hcode] at hcall
    exact returns_ofDb (returns_map.mp hcall) fun a s' => returns_closes (hf a) hfresh.unlogged
  | @recalculate env customers notices hlists =>
    obtain rfl : customers = site.world.ledger.listed m := hlists
    exact returns_ofDb (returns_recalculate env 0 fun c hc => canonical_of_mem_listed hc)
      fun _ s' => returns_ret _
  | defaulters hf ih =>
    have hread : run exec (getDefaulters m) site.world.ledger = (.ok _, site.world.ledger) := rfl
    refine returns_bind.mpr ⟨_, by rw [Script.run_ofDb, hread]; rfl, ?_⟩
    rw [Script.run_ofDb, hread]
    exact ih _
  | reminders hsends hf ih => exact hsends.elim
  | note hid hf =>
    refine returns_logAction (hfresh.unlogged _ hid) fun site' => ?_
    obtain ⟨notices, hret⟩ := hf.resolve_right fun h => h.1
    rw [hret]
    exact returns_ret notices
  | logs hf ih =>
    refine returns_bind.mpr ⟨_, by rw [run_getLogs], ?_⟩
    rw [run_getLogs]
    exact ih _
  | clear hid =>
    refine returns_bind.mpr ⟨(), by rw [run_clearLogs], ?_⟩
    rw [run_clearLogs]
    refine returns_logAction (fun l hl => ?_) fun _ => returns_ret _
    exact hfresh.unlogged _ hid l (mem_deleteMany.mp hl).1

/-- The names of a regular run are among those its page offers, and it asks for no receipt. -/
theorem returns_showTransactions (e : TransactionsEvent)
    (hs : Consistent site.world.ledger) (hfresh : (Trigger.page (.transactions e)).Fresh site)
    (hoffered : site.world.ledger.listed st.userId ≠ [] →
      (Trigger.page (.transactions e)).Offered (site.world.ledger.listed st.userId))
    (hsilent : (Trigger.page (.transactions e)).Silent) :
    Returns (execPage i) (showTransactions set st e) site := by
  refine returns_plan (plan_showTransactions (fun hsends => ?_) fun customers hlists hne => ?_) hs
    hfresh
  · cases e with
    | record env logEnv custName txnType amount note receipt => exact hsends hsilent
    | edit env logEnv filterCust txnId newAmt newNote => exact hsends
    | delete env logEnv filterCust txnId => exact hsends
  · obtain rfl : customers = site.world.ledger.listed st.userId := hlists
    cases e with
    | record env logEnv custName txnType amount note receipt => exact hoffered hne
    | edit env logEnv filterCust txnId newAmt newNote => exact hoffered hne
    | delete env logEnv filterCust txnId => exact hoffered hne

/-- **A regular run ends normally** where the ledger is consistent. -/
theorem returns_serve (set : Setting) (t : Trigger) (hs : Consistent site.world.ledger)
    (ht : t.Regular site i) : Returns (execPage i) (serve set i t site) site := by
  obtain ⟨hfresh, henrols, hoffered, hsilent⟩ := ht
  cases t with
  | monthlyReminders => exact hsilent.elim
  | page e =>
    rw [serve]
    unfold main
    split
    · cases e with
      | portal e =>
        cases e with
        | logout => exact returns_bind.mpr ⟨(), rfl, returns_ret _⟩
      | auth e => exact returns_ret _
      | sidebar e => exact returns_ret _
      | customers e => exact returns_ret _
      | transactions e => exact returns_ret _
      | reminders e => exact returns_ret _
      | activity e => exact returns_ret _
    split
    · cases e with
      | auth e => exact returns_showAuthPage e hfresh.unlogged henrols
      | portal e => exact returns_ret _
      | sidebar e => exact returns_ret _
      | customers e => exact returns_ret _
      | transactions e => exact returns_ret _
      | reminders e => exact returns_ret _
      | activity e => exact returns_ret _
    · cases e with
      | sidebar e =>
        cases e with
        | logout logEnv =>
          exact returns_logAction (hfresh.unlogged _ List.mem_cons_self) fun _ =>
            returns_bind.mpr ⟨(), rfl, returns_ret _⟩
      | customers e => exact returns_plan (plan_showCustomers e) hs hfresh
      | transactions e => exact returns_showTransactions e hs hfresh hoffered hsilent
      | activity e => exact returns_plan (plan_showActivityLog e) hs hfresh
      | reminders e => exact hsilent.elim
      | auth e => exact returns_ret _
      | portal e => exact returns_ret _

/-- **No page breaks down.**  Whatever the sessions have done, one run after the other: the next
run ends normally, if the identifiers it is given are fresh, the names it is given are among those
its page offers, and no reminder and no receipt is to be sent. -/
theorem served_ends (set : Setting) (gateway : ℕ → Response) (xs : List (ι × Trigger)) (i : ι)
    (t : Trigger) :
    let site := Trace.after (stepSite set) (Site.start gateway) xs
    t.Regular site i → ∃ notices, (run (execPage i) (serve set i t site) site).1 = .ok notices :=
  returns_serve set t (reachable_served set gateway xs).consistent

end Run

/-- The merchant of the sample deletes what it has recorded. -/
def sampleDeletion : Trigger :=
  .page (.transactions (.delete (.sample 9 6) (.sample 10 6) "Ravi" (ObjectId.ofNat 5).str))

theorem served_ends_sample :
    let site := Trace.after (stepSite sampleSetting) (Site.start fun _ => .failure "timed out")
      sampleRuns
    ∃ notices, (run (execPage false) (serve sampleSetting false sampleDeletion site) site).1 =
      .ok notices := by
  refine served_ends sampleSetting (fun _ => .failure "timed out") sampleRuns false sampleDeletion
    ⟨by decide +kernel, by decide +kernel, fun _ => ?_, trivial⟩
  show "Ravi" ∈ filterEntries _
  decide +kernel

end DigitalLedger
