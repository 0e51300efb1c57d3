import DigitalLedger.Deployment
import DigitalLedger.Isolation

/-!
# What the runs amount to

A run of a page that nothing comes between amounts to a few calls on the ledger and on the
log.  This module says which they can be: a page that changes the ledger makes one call for
the merchant of its session, with what its forms have checked, and logs the call if it has
succeeded; scoring alone is not logged.  The ledger a served site has is therefore one of
the states the calls of the application reach.

## Main definitions

* `Call.Sent` — the calls the pages make.
* `Conduct` — the calls on the ledger and on the log of a run.
* `Conducted` — what a run does to a site, in these terms.

## Main results

* `amounts_plan` — what a page of a merchant amounts to.
* `conducted_serve` — every run on a sound site is of this kind.
* `served_refines` — the runs of a site make the calls of the application.
-/

namespace DigitalLedger

open Prog Trace

variable {ι : Type} {set : Setting} {m : String} {s : Store}

/-! ### The calls the pages make -/

/-- A call for the merchant `m`, with what the page was given. -/
structure Call.Sent (set : Setting) (m : String) (s : Store) (call : Call) : Prop where
  merchant : call.merchantId = m
  canonical : call.Canonical
  checked : call.Checked set
  scoresOwn : call.ScoresOwn s

/-! ### The calls of a run -/

/-- The calls a run makes on the ledger `s` and on the log, for the merchant `m`. -/
inductive Conduct (set : Setting) (t : Trigger) (m : String) (s : Store) :
    List Call → List LogCall → Prop
  /-- Customers of the merchant are scored again, or nothing is written. -/
  | scored {calls : List Call}
      (h : ∀ call ∈ calls, ∃ env, ∃ c ∈ s.customers.docs, c.merchantId = m ∧
        call = .computeCreditScore env m c.id.str) : Conduct set t m s calls []
  /-- A call is refused, or raises. -/
  | refused {call : Call} (hcall : call.Sent set m s) (hids : call.issued = t.issued)
      (hout : ∀ o, (call.exec set.bcrypt s).1 = .ok o → ¬o.Succeeded) :
      Conduct set t m s [call] []
  /-- A call is made and logged. -/
  | recorded {call : Call} {o : Outcome} {logEnv : Env} {action details : String}
      (hcall : call.Sent set m s) (hids : call.issued = t.issued)
      (hout : (call.exec set.bcrypt s).1 = .ok o) (hrec : call.Records o action details)
      (hlog : logEnv.objectId 0 ∈ t.logIssued) :
      Conduct set t m s [call] [.log logEnv m action details]
  /-- Something else is logged. -/
  | noted {logEnv : Env} {action : String} (details : String)
      (haction : action ∈ ["LOGIN", "LOGOUT", "SEND_REMINDERS"])
      (hlog : logEnv.objectId 0 ∈ t.logIssued) :
      Conduct set t m s [] [.log logEnv m action details]
  /-- The log is cleared, and that is logged. -/
  | cleared {logEnv : Env} (hlog : logEnv.objectId 0 ∈ t.logIssued) :
      Conduct set t m s [] [.clear m, .log logEnv m "CLEAR_LOG" "Activity log cleared"]

/-- The run leaves what these calls leave. -/
structure Conducted (set : Setting) (t : Trigger) (m : String) (site site' : Site ι)
    (calls : List Call) (logCalls : List LogCall) : Prop where
  conduct : Conduct set t m site.world.ledger calls logCalls
  ledger : site'.world.ledger = execAll set.bcrypt calls site.world.ledger
  logs : site'.logs = after LogCall.apply site.logs logCalls

/-- The run amounts to some such calls. -/
def Amounts (set : Setting) (t : Trigger) (m : String) (site site' : Site ι) : Prop :=
  ∃ calls logCalls, Conducted set t m site site' calls logCalls

/-! ### Programs that write neither ledger nor log -/

/-- The call writes neither the ledger nor the log. -/
def PageCall.Quiet : PageCall → Prop
  | .app (.users _) => True
  | .session _ => True
  | c => c.Plain

theorem PageCall.Plain.quiet {c : PageCall} (hc : c.Plain) : c.Quiet := by
  rcases c with (c | op | r) | op | st
  · exact hc
  · trivial
  · trivial
  · exact hc
  · trivial

section Run

variable [DecidableEq ι] {i : ι} {site : Site ι} {t : Trigger} {α : Type}

/-- The ledger and the log of a site. -/
def Site.books (site : Site ι) : Store × Logs := (site.world.ledger, site.logs)

theorem books_execPage {c : PageCall} (hc : c.Quiet) (site : Site ι) :
    (execPage i c site).2.books = site.books := by
  rcases c with ((op | op) | op | r) | op | st
  · cases op with
    | findOne q => rfl
    | find q => rfl
    | insertOne c => exact hc.elim
    | updateOne q u => exact hc.elim
    | deleteOne q => exact hc.elim
    | deleteMany q => exact hc.elim
  · cases op with
    | findOne q => rfl
    | find q => rfl
    | insertOne t => exact hc.elim
    | updateOne q u => exact hc.elim
    | deleteOne q => exact hc.elim
    | deleteMany q => exact hc.elim
  · rfl
  · rfl
  · cases op with
    | findOne q => rfl
    | find q => rfl
    | insertOne l => exact hc.elim
    | updateOne q x => exact x.elim
    | deleteOne q => exact hc.elim
    | deleteMany q => exact hc.elim
  · rfl

/-- **A quiet program leaves ledger and log alone.** -/
theorem books_run {p : Script α} (hp : Uses PageCall.Quiet p) (site : Site ι) :
    (run (execPage i) p site).2.books = site.books :=
  run_invariant (execPage i) (I := fun site' => site'.books = site.books)
    (fun _ hc site' hsite' => (books_execPage hc site').trans hsite') hp rfl

/-! ### The runs of a page, part by part -/

omit [DecidableEq ι] in
theorem Amounts.of_books {site' : Site ι} (h : site'.books = site.books) :
    Amounts set t m site site' := by
  obtain ⟨hledger, hlogs⟩ := Prod.mk.inj h
  exact ⟨[], [], .scored fun _ hc => absurd hc List.not_mem_nil, hledger, hlogs⟩

/-- A quiet program amounts to nothing. -/
theorem Amounts.quiet {p : Script α} (hp : Uses PageCall.Quiet p) :
    Amounts set t m site (run (execPage i) p site).2 := .of_books (books_run hp site)

/-- **The rule for reading**: what is done with what a quiet program returns is done on the
same ledger and log. -/
theorem Amounts.read {β : Type} {p : Script α} {f : α → Script β} (hp : Uses PageCall.Quiet p)
    (hf : ∀ a site', site'.books = site.books → run (execPage i) p site = (.ok a, site') →
      Amounts set t m site' (run (execPage i) (f a) site').2) :
    Amounts set t m site (run (execPage i) (p >>= f) site).2 := by
  have hbooks := books_run (i := i) hp site
  rw [run_bind]
  rcases hrun : run (execPage i) p site with ⟨e | a, site'⟩
  · rw [hrun] at hbooks
    exact .of_books hbooks
  · rw [hrun] at hbooks
    obtain ⟨hledger, hlogs⟩ := Prod.mk.inj hbooks
    obtain ⟨calls, logCalls, hconduct, hledger', hlogs'⟩ := hf a site' hbooks hrun
    rw [hledger] at hconduct hledger'
    rw [hlogs] at hlogs'
    exact ⟨calls, logCalls, hconduct, hledger', hlogs'⟩

/-- Messages are quiet. -/
theorem Tail.quiet {T : Terms} {p : Script α} (hp : Tail T p) : Uses PageCall.Quiet p :=
  hp.uses fun _ _ => trivial

/-- The log after an entry is made and something quiet is done. -/
theorem books_logAction {logEnv : Env} {action details : String} {f : Unit → Script α}
    (hf : Uses PageCall.Quiet (f ())) :
    (run (execPage i) (logAction logEnv m action details >>= f) site).2.books =
      (site.world.ledger, LogCall.apply site.logs (.log logEnv m action details)) := by
  rw [run_bind, run_logAction, LogCall.apply]
  cases site.logs.insertOne (newLogEntry logEnv m action details) with
  | none => rfl
  | some logs => exact books_run hf _

/-- **The rule for a call on the ledger**, and what the page makes of its answer. -/
theorem Amounts.call (call : Call) {p : Db α} {wrap : α → Outcome}
    {f : α → Script (List Notice)} {T : Terms} (hcode : call.code set.bcrypt = wrap <$> p)
    (hcall : call.Sent set m site.world.ledger) (hids : call.issued = t.issued)
    (hf : ∀ a, Closes t m T call (wrap a) (f a)) :
    Amounts set t m site (run (execPage i) (Script.ofDb p >>= f) site).2 := by
  have hexec : call.exec set.bcrypt site.world.ledger =
      ((run exec p site.world.ledger).1.map wrap, (run exec p site.world.ledger).2) := by
    rw [Call.exec, hcode, run_map]
  rw [run_bind, Script.run_ofDb]
  rcases hrun : run exec p site.world.ledger with ⟨e | a, s'⟩
  · -- the page ends with the call
    rw [hrun] at hexec
    refine ⟨[call], [], .refused hcall hids fun o ho => ?_, ?_, rfl⟩
    · rw [hexec] at ho
      exact absurd ho (by simp [Except.map])
    · rw [execAll, List.foldl_cons, List.foldl_nil, hexec]
      rfl
  · rw [hrun] at hexec
    have hledger : execAll set.bcrypt [call] site.world.ledger = s' := by
      rw [execAll, List.foldl_cons, List.foldl_nil, hexec]
    have hout : (call.exec set.bcrypt site.world.ledger).1 = .ok (wrap a) := by rw [hexec]; rfl
    change Amounts set t m site (run (execPage i) (f a) _).2
    have hclose := hf a
    generalize f a = q at hclose ⊢
    cases hclose with
    | ret notices ho =>
      refine ⟨[call], [], .refused hcall hids fun o ho' => ?_, hledger.symm, rfl⟩
      obtain rfl := Except.ok.inj (hout.symm.trans ho')
      exact ho
    | log hrec hlog hp =>
      obtain ⟨hledger', hlogs⟩ := Prod.mk.inj (books_logAction (i := i) hp.quiet)
      exact ⟨[call], _, .recorded hcall hids hout hrec hlog, hledger'.trans hledger.symm, hlogs⟩

/-- The rule for an entry that is of no call on the ledger. -/
theorem Amounts.note {logEnv : Env} {action : String} {details : String} {f : Unit → Script α}
    (haction : action ∈ ["LOGIN", "LOGOUT", "SEND_REMINDERS"])
    (hlog : logEnv.objectId 0 ∈ t.logIssued) (hf : Uses PageCall.Quiet (f ())) :
    Amounts set t m site
      (run (execPage i) (logAction logEnv m action details >>= f) site).2 := by
  obtain ⟨hledger, hlogs⟩ := Prod.mk.inj (books_logAction (i := i) (m := m) hf)
  exact ⟨[], _, .noted details haction hlog, hledger, hlogs⟩

/-! ### What the pages read -/

theorem quiet_plain {p : Script α} (hp : Uses PageCall.Plain p) : Uses PageCall.Quiet p :=
  hp.mono fun _ hc => hc.quiet

theorem run_listed (m : String) (site : Site ι) :
    run (execPage i) (Script.ofDb (getCustomers m)) site =
      (.ok (site.world.ledger.listed m), site) := by
  rw [Script.run_ofDb, run_getCustomers]
  rfl

theorem exists_of_mem_listed {c : CustomerDoc String} (hc : c ∈ s.listed m) :
    ∃ c' ∈ s.customers.docs, c'.merchantId = m ∧ c.id = c'.id.str := by
  obtain ⟨c', hc', rfl⟩ := List.mem_map.mp hc
  obtain ⟨hstored, hm⟩ := mem_customersOf.mp hc'
  exact ⟨c', hstored, hm, rfl⟩

theorem canonical_of_mem_listed {c : CustomerDoc String} (hc : c ∈ s.listed m) :
    ObjectId.Canonical c.id := by
  obtain ⟨c', -, -, hid⟩ := exists_of_mem_listed hc
  exact ⟨c'.id, hid⟩

/-! ### The pages of a merchant -/

variable {st : SessionState}

theorem amounts_showSidebar (e : SidebarEvent) :
    Amounts set (.page (.sidebar e)) st.userId site
      (run (execPage i) (showSidebar st e) site).2 := by
  cases e with
  | logout logEnv =>
    exact Amounts.note (by decide) List.mem_cons_self
      (Uses.bind (Uses.perform trivial) fun _ => .ret _)

/-- Going through the customers with the button is scoring them one after the other. -/
def scoringCalls (env : Env) (m : String) : ℕ → List (CustomerDoc String) → List Call
  | _, [] => []
  | k, c :: customers =>
    .computeCreditScore { env with utcnow := fun _ => env.utcnow k } m c.id ::
      scoringCalls env m (k + 1) customers

theorem mem_scoringCalls {env : Env} {k : ℕ} {customers : List (CustomerDoc String)} {call : Call}
    (hcall : call ∈ scoringCalls env m k customers) :
    ∃ env', ∃ c ∈ customers, call = .computeCreditScore env' m c.id := by
  induction customers generalizing k with
  | nil => exact absurd hcall List.not_mem_nil
  | cons c customers ih =>
    rcases List.mem_cons.mp hcall with rfl | hcall
    · exact ⟨_, c, List.mem_cons_self, rfl⟩
    · obtain ⟨env', c', hc', hcall'⟩ := ih hcall
      exact ⟨env', c', List.mem_cons_of_mem c hc', hcall'⟩

theorem run_recalculate (bcrypt : Bcrypt) (env : Env) (m : String) (k : ℕ)
    {customers : List (CustomerDoc String)} (hids : ∀ c ∈ customers, ObjectId.Canonical c.id)
    (s : Store) :
    (run exec (recalculate env k customers) s).2 =
      execAll bcrypt (scoringCalls env m k customers) s := by
  induction customers generalizing k s with
  | nil => rfl
  | cons c customers ih =>
    obtain ⟨oid, hoid⟩ := hids c List.mem_cons_self
    have hcid : ObjectId.ofString? c.id = some oid := by rw [hoid, ObjectId.ofString?_str]
    have hexec : ((Call.computeCreditScore { env with utcnow := fun _ => env.utcnow k } m
        c.id).exec bcrypt s).2 = s.rescore (env.utcnow k) c.id oid := by
      rw [Call.exec, Call.code, run_map, run_computeCreditScore _ _ hcid]
    rw [recalculate, run_bind, run_computeCreditScore _ _ hcid, andThen_ok,
      ih (k + 1) fun c' hc' => hids c' (List.mem_cons_of_mem c hc'), scoringCalls, execAll,
      execAll, List.foldl_cons, hexec]

/-- What a run is shown on a site that nothing else changes. -/
def Terms.shown (s : Store) (m : String) : Terms where
  Lists customers := customers = s.listed m
  Known cid := ∃ c ∈ s.customers.docs, c.merchantId = m ∧ cid = c.id.str
  known _ hlists _ hc := exists_of_mem_listed (hlists ▸ hc)
  Entry _ := True
  Offers _ _ := True
  Sends := True

/-- A call of a page is one the pages make. -/
theorem Call.Planned.sent {call : Call} (hm : call.merchantId = m)
    (hcall : call.Planned set (.shown s m)) : call.Sent set m s := by
  refine ⟨hm, hcall.canonical ?_, hcall.checked, ?_⟩
  · rintro cid ⟨c, -, -, rfl⟩
    exact ObjectId.canonical_str c.id
  · cases call with
    | computeCreditScore env m' cid => exact hcall.elim
    | addCustomer env m' name phone address pin => trivial
    | addTransaction env m' cid txnType amount note => trivial
    | editTransaction env tid m' amount note => trivial
    | deleteTransaction env tid m' => trivial
    | deleteCustomer cid m' => trivial
    | updateCustomerPin env cid m' pin => trivial
    | importCustomersFromExcel env m' file => trivial

/-- **What a page of the merchant amounts to.** -/
theorem amounts_plan {p : Script (List Notice)}
    (hp : Plan set t m (.shown site.world.ledger m) p) :
    Amounts set t m site (run (execPage i) p site).2 := by
  generalize hs : site.world.ledger = s at hp
  induction hp generalizing site with
  | ret notices => exact .quiet (.ret _)
  | listed hf ih =>
    subst hs
    rw [run_bind, run_listed, andThen_ok]
    exact ih _ rfl rfl
  | @chosen customers name f hlists hname hf ih =>
    rcases custItem_cases customers name with heq | ⟨cust, hcust, heq⟩
    · rw [heq]
      exact .quiet (.raise _)
    · rw [heq]
      exact ih cust hcust hs
  | history hlists hentry hf ih =>
    refine .read (quiet_plain (plain_showHistory _ _ _)) fun txns site' hbooks _ => ?_
    exact ih txns (fun _ _ => trivial) ((Prod.mk.inj hbooks).1.trans hs)
  | call call hcode hm hplanned hids hf =>
    subst hs
    exact Amounts.call call hcode (hplanned.sent hm) hids hf
  | @recalculate env customers notices hlists =>
    subst hs
    obtain rfl : customers = site.world.ledger.listed m := hlists
    have hids : ∀ c ∈ site.world.ledger.listed m, ObjectId.Canonical c.id :=
      fun c hc => canonical_of_mem_listed hc
    refine ⟨scoringCalls env m 0 (site.world.ledger.listed m), [],
      .scored fun call hcall => ?_, ?_, ?_⟩
    · obtain ⟨env', c, hc, rfl⟩ := mem_scoringCalls hcall
      obtain ⟨c', hc', hm, hid⟩ := exists_of_mem_listed hc
      exact ⟨env', c', hc', hm, by rw [hid]⟩
    · rw [← run_recalculate set.bcrypt env m 0 hids, run_bind, Script.run_ofDb]
      cases (run exec (recalculate env 0 (site.world.ledger.listed m)) site.world.ledger).1 <;> rfl
    · rw [run_bind, Script.run_ofDb]
      cases (run exec (recalculate env 0 (site.world.ledger.listed m)) site.world.ledger).1 <;> rfl
  | defaulters hf ih =>
    refine .read (quiet_plain plain_getDefaulters) fun defaulters site' hbooks _ => ?_
    exact ih defaulters ((Prod.mk.inj hbooks).1.trans hs)
  | reminders hsends hf ih =>
    refine .read (quiet_plain (plain_runMonthlyReminders _ _ _)) fun results site' hbooks _ => ?_
    exact ih results ((Prod.mk.inj hbooks).1.trans hs)
  | note hlog hf => exact .note (by decide) hlog hf.quiet
  | logs hf ih =>
    rw [run_bind, run_getLogs, andThen_ok]
    exact ih _ hs
  | @clear logEnv notices hlog =>
    rw [run_bind, run_clearLogs, andThen_ok]
    let cleared : Site ι := { site with logs := site.logs.deleteMany (⟨m⟩ : LogQuery) }
    have hbooks : (run (execPage i) (logAction logEnv m "CLEAR_LOG"
        "Activity log cleared" >>= fun _ => .ret notices) cleared).2.books = _ :=
      books_logAction (.ret _)
    obtain ⟨hledger, hlogs⟩ := Prod.mk.inj hbooks
    exact ⟨[], _, .cleared hlog, hledger, hlogs⟩

/-! ### The page of a visitor -/

/-- Only who logs in is logged. -/
theorem quiet_showAuthPage {e : AuthEvent}
    (he : ∀ logEnv username password, e ≠ .login logEnv username password) :
    Uses PageCall.Quiet (showAuthPage set st e) := by
  refine uses_showAuthPage
    { findUser := fun _ => trivial
      addUser := fun _ => trivial
      setUser := fun _ _ => trivial
      findCustomer := fun _ => trivial
      session := fun _ => trivial
      log := fun l hl => ?_
      request := fun _ _ => trivial }
  cases e with
  | login logEnv username password => exact absurd rfl (he logEnv username password)
  | register env newUser bizName phone newPass confPass => exact absurd hl List.not_mem_nil
  | customerLogin cphone cpin => exact absurd hl List.not_mem_nil
  | sendOtp env fpPhone => exact absurd hl List.not_mem_nil
  | resetPassword env otp newPass conf => exact absurd hl List.not_mem_nil
  | back => exact absurd hl List.not_mem_nil

theorem sessions_logAction (logEnv : Env) (m action details : String) :
    (run (execPage i) (logAction logEnv m action details >>= fun _ => .ret ([] : List Notice))
      site).2.sessions = site.sessions := by
  rw [run_bind, run_logAction]
  cases site.logs.insertOne (newLogEntry logEnv m action details) <;> rfl

variable (set st i site) in
/-- Who logs in is the merchant of the session from then on, and of the entry. -/
theorem conducted_login (logEnv : Env) (username password : String) :
    let site' := (run (execPage i) (showAuthPage set st (.login logEnv username password)) site).2
    ∃ m logCalls,
      Conducted set (.page (.auth (.login logEnv username password))) m site site' [] logCalls ∧
        (logCalls ≠ [] → (site'.sessions i).userId = m) := by
  have hquiet : ∀ site' : Site ι, site'.books = site.books → ∃ m logCalls,
      Conducted set (.page (.auth (.login logEnv username password))) m site site' [] logCalls ∧
        (logCalls ≠ [] → (site'.sessions i).userId = m) := by
    intro site' h
    obtain ⟨hledger, hlogs⟩ := Prod.mk.inj h
    exact ⟨"", [], ⟨.scored fun _ hc => absurd hc List.not_mem_nil, hledger, hlogs⟩,
      fun h => absurd rfl h⟩
  have hlogin : Uses PageCall.Quiet (Script.ofApp (loginUser set.bcrypt username password)) :=
    quiet_plain (plain_loginUser username password)
  have hbooks := books_run (i := i) hlogin site
  dsimp only
  rw [showAuthPage, run_bind]
  rcases hrun : run (execPage i) (Script.ofApp (loginUser set.bcrypt username password)) site with
    ⟨e | reply, site₁⟩
  · rw [hrun] at hbooks
    exact hquiet _ hbooks
  · rw [hrun] at hbooks
    cases reply with
    | failure message => exact hquiet _ hbooks
    | success res =>
      obtain ⟨hledger, hlogs⟩ := Prod.mk.inj hbooks
      let entry : LogCall := .log logEnv res.userId "LOGIN" s!"User {username} logged in"
      have hlogged : ∀ site₂ : Site ι, (run (execPage i) (logAction logEnv res.userId "LOGIN"
          s!"User {username} logged in" >>= fun _ => .ret ([] : List Notice)) site₂).2.books =
            (site₂.world.ledger, entry.apply site₂.logs) := fun site₂ => books_logAction (.ret _)
      have hkept : ∀ site₂ : Site ι, (run (execPage i) (logAction logEnv res.userId "LOGIN"
          s!"User {username} logged in" >>= fun _ => .ret ([] : List Notice)) site₂).2.sessions =
            site₂.sessions := fun site₂ => sessions_logAction logEnv res.userId "LOGIN" _
      rw [andThen_ok, run_bind, run_setSession, andThen_ok]
      refine ⟨res.userId, [entry], ⟨.noted _ (by decide) List.mem_cons_self, ?_, ?_⟩, fun _ => ?_⟩
      · exact (congrArg Prod.fst (hlogged _)).trans hledger
      · exact (congrArg Prod.snd (hlogged _)).trans (congrArg entry.apply hlogs)
      · refine (congrArg (fun sessions => (sessions i).userId) (hkept _)).trans ?_
        dsimp only
        rw [Function.update_self]

/-! ### Every run -/

/-- What a run amounts to, and whose calls they are: who calls is logged in, and an entry is
of who is logged in before or after the run. -/
structure Served (set : Setting) (site : Site ι) (x : ι × Trigger) (m : String)
    (calls : List Call) (logCalls : List LogCall) : Prop
    extends Conducted set x.2 m site (stepSite set site x) calls logCalls where
  caller : calls ≠ [] → (site.sessions x.1).loggedIn = true ∧ (site.sessions x.1).userId = m
  author : logCalls ≠ [] →
    (site.sessions x.1).userId = m ∨ ((stepSite set site x).sessions x.1).userId = m

/-- **Every run amounts to calls of the application.** -/
theorem conducted_serve (set : Setting) (site : Site ι) (x : ι × Trigger) :
    ∃ m calls logCalls, Served set site x m calls logCalls := by
  obtain ⟨i, t⟩ := x
  have hquiet : ∀ {p : Script (List Notice)}, serve set i t site = p → Uses PageCall.Quiet p →
      ∃ m calls logCalls, Served set site (i, t) m calls logCalls := by
    intro p hp huses
    have hbooks : (stepSite set site (i, t)).books = site.books := by
      rw [stepSite, hp]
      exact books_run huses site
    obtain ⟨hledger, hlogs⟩ := Prod.mk.inj hbooks
    exact ⟨"", [], [], ⟨.scored fun _ hc => absurd hc List.not_mem_nil, hledger, hlogs⟩,
      fun h => absurd rfl h, fun h => absurd rfl h⟩
  have hmerchant : (site.sessions i).loggedIn = true →
      Amounts set t (site.sessions i).userId site (stepSite set site (i, t)) →
      ∃ m calls logCalls, Served set site (i, t) m calls logCalls := by
    rintro hin ⟨calls, logCalls, h⟩
    exact ⟨_, calls, logCalls, h, fun _ => ⟨hin, rfl⟩, fun _ => .inl rfl⟩
  have hplan : ∀ {p : Script (List Notice)}, (site.sessions i).loggedIn = true →
      serve set i t site = p →
      Plan set t (site.sessions i).userId (.shown site.world.ledger (site.sessions i).userId) p →
      ∃ m calls logCalls, Served set site (i, t) m calls logCalls := by
    intro p hin hmain hp
    refine hmerchant hin ?_
    rw [stepSite, hmain]
    exact amounts_plan hp
  cases t with
  | monthlyReminders =>
    exact hquiet rfl (quiet_plain ((plain_runMonthlyReminders _ _ _).bind fun _ => .ret _))
  | page e =>
    by_cases hcust : (site.sessions i).mode = .customer ∧ (site.sessions i).custLoggedIn = true
    · have hmain : serve set i (.page e) site = _ := if_pos hcust
      cases e with
      | portal e =>
        cases e with
        | logout => exact hquiet hmain (Uses.bind (Uses.perform trivial) fun _ => .ret _)
      | auth e => exact hquiet hmain (.ret _)
      | sidebar e => exact hquiet hmain (.ret _)
      | customers e => exact hquiet hmain (.ret _)
      | transactions e => exact hquiet hmain (.ret _)
      | reminders e => exact hquiet hmain (.ret _)
      | activity e => exact hquiet hmain (.ret _)
    by_cases hin : (site.sessions i).loggedIn = false
    · have hmain : serve set i (.page e) site = _ := (if_neg hcust).trans (if_pos hin)
      cases e with
      | auth e =>
        cases e with
        | login logEnv username password =>
          obtain ⟨m, logCalls, hconducted, hauthor⟩ :=
            conducted_login set i site (site.sessions i) logEnv username password
          have hlogin : serve set i (.page (.auth (.login logEnv username password))) site =
              showAuthPage set (site.sessions i) (.login logEnv username password) := hmain
          rw [← hlogin] at hconducted hauthor
          exact ⟨m, [], logCalls, hconducted, fun h => absurd rfl h, fun h => .inr (hauthor h)⟩
        | register env newUser bizName phone newPass confPass =>
          exact hquiet hmain (quiet_showAuthPage (by simp))
        | customerLogin cphone cpin => exact hquiet hmain (quiet_showAuthPage (by simp))
        | sendOtp env fpPhone => exact hquiet hmain (quiet_showAuthPage (by simp))
        | resetPassword env otp newPass conf => exact hquiet hmain (quiet_showAuthPage (by simp))
        | back => exact hquiet hmain (quiet_showAuthPage (by simp))
      | portal e => exact hquiet hmain (.ret _)
      | sidebar e => exact hquiet hmain (.ret _)
      | customers e => exact hquiet hmain (.ret _)
      | transactions e => exact hquiet hmain (.ret _)
      | reminders e => exact hquiet hmain (.ret _)
      | activity e => exact hquiet hmain (.ret _)
    · have hmain : serve set i (.page e) site = _ := (if_neg hcust).trans (if_neg hin)
      have hin' : (site.sessions i).loggedIn = true := by simpa using hin
      cases e with
      | sidebar e => exact hmerchant hin' (by rw [stepSite, hmain]; exact amounts_showSidebar e)
      | customers e => exact hplan hin' hmain (plan_showCustomers e)
      | transactions e =>
        exact hplan hin' hmain (plan_showTransactions (fun _ => trivial) fun _ _ _ =>
          e.offered_of (fun _ _ => trivial) _)
      | reminders e => exact hplan hin' hmain (plan_showReminders trivial e)
      | activity e => exact hplan hin' hmain (plan_showActivityLog e)
      | auth e => exact hquiet hmain (.ret _)
      | portal e => exact hquiet hmain (.ret _)

/-- Scoring is for customers of the merchant. -/
theorem sent_of_scored {env : Env} {c : Customer} (hc : c ∈ s.customers.docs)
    (hm : c.merchantId = m) : (Call.computeCreditScore env m c.id.str).Sent set m s where
  merchant := rfl
  canonical := ObjectId.canonical_str c.id
  checked := trivial
  scoresOwn oid hoid c' hc' hid := by
    rw [ObjectId.ofString?_str, Option.mem_some] at hoid
    rw [← hm, Collection.eq_of_key_eq hc' hc (hid.trans hoid.symm)]

theorem Conduct.sent {t : Trigger} {calls : List Call} {logCalls : List LogCall}
    (h : Conduct set t m s calls logCalls) : ∀ call ∈ calls, call.Sent set m s := by
  cases h with
  | scored h =>
    intro call hcall
    obtain ⟨env, c, hc, hm, rfl⟩ := h call hcall
    exact sent_of_scored hc hm
  | refused hcall => exact fun call hmem => List.mem_singleton.mp hmem ▸ hcall
  | recorded hcall => exact fun call hmem => List.mem_singleton.mp hmem ▸ hcall
  | noted => exact fun call hmem => absurd hmem List.not_mem_nil
  | cleared => exact fun call hmem => absurd hmem List.not_mem_nil

/-- What a run does to the ledger, calls of the session's merchant do. -/
theorem exists_calls (set : Setting) (site : Site ι) (x : ι × Trigger) :
    ∃ calls, (stepSite set site x).world.ledger = execAll set.bcrypt calls site.world.ledger ∧
      ∀ call ∈ calls, (site.sessions x.1).loggedIn = true ∧
        call.Sent set (site.sessions x.1).userId site.world.ledger := by
  obtain ⟨m, calls, logCalls, h⟩ := conducted_serve set site x
  refine ⟨calls, h.ledger, fun call hcall => ?_⟩
  obtain ⟨hin, hm⟩ := h.caller (List.ne_nil_of_mem hcall)
  rw [hm]
  exact ⟨hin, h.conduct.sent call hcall⟩

theorem reachable_step {site : Site ι} (hs : Reachable set.bcrypt site.world.ledger)
    (x : ι × Trigger) : Reachable set.bcrypt (stepSite set site x).world.ledger := by
  obtain ⟨calls, hledger, hcalls⟩ := exists_calls set site x
  rw [hledger]
  exact hs.execAll fun call hcall => (hcalls call hcall).2.canonical

theorem reachable_served (set : Setting) (gateway : ℕ → Response) (xs : List (ι × Trigger)) :
    Reachable set.bcrypt (after (stepSite set) (Site.start gateway) xs).world.ledger := by
  induction xs using List.reverseRecOn with
  | nil => exact .empty
  | append_singleton xs x ih =>
    rw [after_append, after_cons, after_nil]
    exact reachable_step ih x

end Run

end DigitalLedger
