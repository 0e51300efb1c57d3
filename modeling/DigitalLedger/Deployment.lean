import DigitalLedger.Admission
import DigitalLedger.Plans
import DigitalLedger.Lib.Rely
import DigitalLedger.Recovery

/-!
# The deployment

One process serves all browser sessions, and runs the monthly job: whatever they do, their
runs take their calls on the database between each other's, and a run is dropped when its
session does something else.  This module proves of each page that its calls fit whatever
comes between them, and so that the site stays sound.

## Main definitions

* `serve` — the program that is run.
* `Visits` — the calls of the page of a visitor.
* `Live`, `Live.start` — the process with what it has in progress.
* `stepSite` — a run that nothing comes between.

## Main results

* `fits_plan` — what a page of a registered merchant calls fits.
* `keeps_serve` — every run abides by the rules of the site.
* `sessions_sound`, `documents_owned`, `documents_wellFormed` — what holds of the site at
  every moment.
-/

namespace DigitalLedger

open Prog

/-! ### What is run -/

variable {ι : Type} {set : Setting} {users : Users}

/-- The program that is run. -/
def serve (set : Setting) (i : ι) (t : Trigger) (site : Site ι) : Script (List Notice) :=
  match t with
  | .page e => main set (site.sessions i) e
  | .monthlyReminders => do
    let _ ← Script.ofApp (runMonthlyReminders set.environ none "whatsapp")
    return []

/-! ### The operations on the ledger -/

section Ledger

variable {m : String}

theorem fits_computeCreditScore (now : Time) (cid : String) :
    Uses (DbCall.Fits set users) (computeCreditScore now cid) := by
  refine (uses_objectId cid).bind fun oid => ?_
  refine Uses.bind (uses_query trivial) fun found => ?_
  cases found with
  | none => exact .ret _
  | some c =>
    refine Uses.bind (uses_query trivial) fun txns => ?_
    refine Uses.bind (uses_query ⟨fun _ h => absurd h (Option.not_mem_none _), balanced_zero,
      .inr ⟨_, ?_, ?_, rfl, ?_⟩⟩) fun _ => .ret _
    · exact (scoringRules_scale _ _ _).1
    · exact (scoringRules_scale _ _ _).2
    · exact congrArg some (scoringRules_snd _ _ _)

theorem fits_inc {δ : Totals} (hδ : δ.Balanced) (last : Option Time) :
    CustomerUpdate.Fits set { inc := δ, lastTransaction := last } where
  portalPin _ h := absurd h (Option.not_mem_none _)
  balanced := hδ
  graded := .inl ⟨rfl, rfl⟩

theorem fits_settle (cid : String) {δ : Totals} (hδ : δ.Balanced) (now : Time) :
    Uses (DbCall.Fits set users) (settle cid δ now) := by
  refine (uses_objectId cid).bind fun coid => ?_
  refine Uses.bind (uses_query (fits_inc hδ none)) fun _ => ?_
  exact (fits_computeCreditScore now cid).bind fun _ => .ret _

theorem fits_conclude (oid : ObjectId) (cid : String) {δ : Totals} (hδ : δ.Balanced)
    (last now : Time) : Uses (DbCall.Fits set users) (conclude oid cid δ last now) := by
  refine Uses.bind (uses_query (fits_inc hδ (some last))) fun _ => ?_
  refine (fits_computeCreditScore now cid).bind fun _ => ?_
  refine Uses.bind (uses_query trivial) fun updated => ?_
  cases updated with
  | none => exact .raise _
  | some c' => exact .ret _

theorem fits_addCustomer (hm : users.Registered m) {name phone pin : String} (hname : name ≠ "")
    (hphone : phone ≠ "") (hpin : set.PinText pin) (env : Env) (address : String) :
    Uses (DbCall.Fits set users) (addCustomer set.bcrypt env m name phone address pin) := by
  refine Uses.bind (uses_query trivial) fun existing => ?_
  split
  · exact .ret _
  · refine Uses.bind (uses_query ⟨hm, hname, hphone, ?_, balanced_zero, .inl ⟨rfl, rfl⟩⟩)
      fun _ => .ret _
    rcases hpin with rfl | ⟨hdigits, hlength⟩
    · exact .inl rfl
    · change set.PinHash (if pin ≠ "" then hashPin set.bcrypt env pin else "")
      split
      · exact .inr ⟨pin, env.gensalt, hdigits, hlength, rfl⟩
      · exact .inl rfl

theorem fits_importRows (hm : users.Registered m) (env : Env) (df : DataFrame)
    (columns : List String) (rows : List Row) (idx : ℕ) (results : ImportResults) :
    Uses (DbCall.Fits set users)
      (importRows set.bcrypt env m df columns idx rows results) := by
  induction rows generalizing idx results with
  | nil => exact .ret _
  | cons row rows ih =>
    refine Uses.bind ?_ fun results' => ih (idx + 1) results'
    rw [importRow_eq set.bcrypt env m df columns idx row results rfl]
    split
    · next husable =>
      obtain ⟨hname, hphone, -⟩ := by simpa [Record.Usable] using husable
      refine (fits_addCustomer hm hname hphone (.inl rfl) _ _).bind fun reply => ?_
      cases reply with
      | success oid => exact .ret _
      | failure message => exact .ret _
    · exact .ret _

theorem fits_import (hm : users.Registered m) (env : Env) (file : Except String DataFrame) :
    Uses (DbCall.Fits set users) (importCustomersFromExcel set.bcrypt env m file) := by
  refine Uses.catchWith ?_ fun e => .ret _
  cases file with
  | error message => exact .raise _
  | ok df =>
    refine (uses_normaliseHeaders df.columns).bind fun columns => ?_
    dsimp only
    split
    · exact .ret _
    · exact (fits_importRows hm _ _ _ _ _ _).bind fun results => .ret _

theorem fits_updateCustomerPin {pin : String} (hdigits : isdigit set.digit pin = true)
    (hlength : pin.length = 4) (env : Env) (cid : String) :
    Uses (DbCall.Fits set users) (updateCustomerPin set.bcrypt env cid m pin) := by
  refine (uses_objectId cid).bind fun oid => ?_
  refine Uses.bind (uses_query ⟨fun hashed hhashed => ?_, balanced_zero, .inl ⟨rfl, rfl⟩⟩)
    fun result => ?_
  · rw [← Option.mem_some.mp hhashed]
    exact .inr ⟨pin, env.gensalt, hdigits, hlength, rfl⟩
  · split
    · exact .ret _
    · exact .ret _

theorem fits_deleteCustomer (cid : String) :
    Uses (DbCall.Fits set users) (deleteCustomer cid m) :=
  uses_deleteCustomer (fun _ => trivial) (fun _ => trivial) cid m

theorem fits_addTransaction (hm : users.Registered m) (env : Env) (cid txnType : String)
    {amount : ℚ} (hamount : 1 / 100 ≤ amount) (note : String) :
    Uses (DbCall.Fits set users) (addTransaction env m cid txnType amount note) := by
  rcases addTransaction_cases env m cid txnType amount note with
    ⟨message, heq⟩ | heq | ⟨type, oid, -, -, -, heq⟩
  · rw [heq]
    exact .ret _
  · rw [heq]
    exact .raise _
  · rw [heq]
    refine Uses.bind (uses_query trivial) fun found => ?_
    cases found with
    | none => exact .ret _
    | some c =>
      refine Uses.bind (uses_query ⟨hm, hamount⟩) fun _ => ?_
      exact fits_conclude _ _ (balanced_effect type amount) _ _

theorem fits_editTransaction (env : Env) (tid : String) {amount : ℚ} (hamount : 1 / 100 ≤ amount)
    (note : String) : Uses (DbCall.Fits set users) (editTransaction env tid m amount note) := by
  rw [editTransaction_eq]
  cases ObjectId.ofString? tid with
  | none => exact .raise _
  | some oid =>
    refine Uses.bind (uses_query trivial) fun found => ?_
    cases found with
    | none => exact .ret _
    | some t =>
      refine Uses.bind (uses_query hamount) fun _ => ?_
      refine fits_settle _ ?_ _
      rw [TransactionDoc.effect, TxnType.effect_sub]
      exact balanced_effect _ _

theorem fits_deleteTransaction (env : Env) (tid : String) :
    Uses (DbCall.Fits set users) (deleteTransaction env tid m) := by
  rw [deleteTransaction_eq]
  cases ObjectId.ofString? tid with
  | none => exact .raise _
  | some oid =>
    refine Uses.bind (uses_query trivial) fun found => ?_
    cases found with
    | none => exact .ret _
    | some t =>
      refine Uses.bind (uses_query trivial) fun _ => ?_
      refine fits_settle _ ?_ _
      rw [TransactionDoc.effect, TxnType.effect_neg]
      exact balanced_effect _ _

/-- What a page calls fits. -/
theorem fits_call {T : Terms} {call : Call} (hm : users.Registered call.merchantId)
    (hcall : call.Planned set T) : Uses (DbCall.Fits set users) (call.code set.bcrypt) := by
  cases call with
  | addCustomer env m name phone address pin =>
    obtain ⟨hname, hphone, hpin⟩ := hcall
    exact (fits_addCustomer hm hname hphone hpin _ _).map _
  | addTransaction env m cid txnType amount note =>
    exact (fits_addTransaction hm _ _ _ hcall.2.2 _).map _
  | editTransaction env tid m amount note => exact (fits_editTransaction _ _ hcall.2 _).map _
  | deleteTransaction env tid m => exact (fits_deleteTransaction _ _).map _
  | deleteCustomer cid m => exact (fits_deleteCustomer _).map _
  | updateCustomerPin env cid m pin =>
    exact (fits_updateCustomerPin hcall.2.1 hcall.2.2 _ _).map _
  | computeCreditScore env m cid => exact hcall.elim
  | importCustomersFromExcel env m file => exact (fits_import hm _ _).map _

end Ledger

/-! ### The programs that write nothing -/

section Plain

variable {m : String}

theorem plain_getDefaulters : Uses PageCall.Plain (Script.ofDb (getDefaulters m)) :=
  uses_ofDb (Uses.bind (uses_query trivial) fun _ => .ret _)

theorem plain_requests {α : Type} {p : App α} (hp : Uses AppCall.IsRequest p) :
    Uses (fun c => PageCall.Plain (.app c)) p := by
  refine hp.mono fun c hc => ?_
  cases c with
  | request r => trivial
  | ledger c => exact hc.elim
  | users op => exact hc.elim

theorem uses_sendReminder (environ : Environ) (channel bizName : String) (customer : Customer) :
    Uses AppCall.IsRequest (sendReminder environ channel bizName customer) := by
  unfold sendReminder
  split
  · exact uses_postMessage environ _ _ _
  · exact uses_sendSms environ _ _

/-- The call looks up a user, or makes a request. -/
def AppCall.Outside : AppCall → Prop
  | .users (.findOne _) => True
  | .request _ => True
  | _ => False

theorem AppCall.Outside.plain {c : AppCall} (hc : c.Outside) : PageCall.Plain (.app c) := by
  cases c with
  | ledger c => exact hc.elim
  | users op =>
    cases op with
    | findOne q => trivial
    | find q => exact hc.elim
    | insertOne u => exact hc.elim
    | updateOne q x => exact hc.elim
    | deleteOne q => exact hc.elim
    | deleteMany q => exact hc.elim
  | request r => trivial

theorem outside_remind (environ : Environ) (channel : String) (customer : Customer) :
    Uses AppCall.Outside (remind environ channel customer) := by
  refine Uses.bind (Uses.catchWith ?_ fun e => .ret _) fun bizName => ?_
  · refine Uses.bind (App.uses_ofDb (uses_objectId _)) fun oid => ?_
    refine Uses.bind (Uses.perform trivial) fun found => ?_
    cases found with
    | none => exact .ret _
    | some u => exact .ret _
  · refine ((uses_sendReminder environ channel bizName customer).mono fun c hc => ?_).bind
      fun result => ?_
    · cases c with
      | request r => trivial
      | ledger c => exact hc.elim
      | users op => exact hc.elim
    · exact (uses_item _ result "success").bind fun success => .ret _

theorem outside_remindAll (environ : Environ) (channel : String) (customers : List Customer) :
    Uses AppCall.Outside (remindAll environ channel customers) := by
  induction customers with
  | nil => exact .ret _
  | cons customer customers ih =>
    exact (outside_remind environ channel customer).bind fun result => ih.bind fun results => .ret _

theorem plain_runMonthlyReminders (environ : Environ) (m : Option String) (channel : String) :
    Uses PageCall.Plain (Script.ofApp (runMonthlyReminders environ m channel)) :=
  uses_ofApp (Uses.bind (App.uses_ofDb (uses_query trivial)) fun customers =>
    (outside_remindAll environ channel customers).mono fun _ hc => hc.plain)

theorem plain_showHistory (m : String) (customers : List (CustomerDoc String)) (entry : String) :
    Uses PageCall.Plain (Script.ofApp (showHistory m customers entry)) := by
  have hread : ∀ cid, Uses (fun c => PageCall.Plain (.app (.ledger c))) (getTransactions m cid) :=
    fun cid => Uses.bind (uses_query trivial) fun _ => .ret _
  unfold showHistory
  split
  · rw [Script.ofApp_bind]
    exact (uses_custItem customers entry).bind fun cust =>
      uses_ofApp (App.uses_ofDb (hread _))
  · exact uses_ofApp (App.uses_ofDb (hread _))

theorem plain_loginUser (username password : String) :
    Uses PageCall.Plain (Script.ofApp (loginUser set.bcrypt username password)) := by
  refine uses_ofApp (Uses.bind (Uses.perform trivial) fun found => ?_)
  cases found with
  | none => exact .ret _
  | some u =>
    dsimp only
    split
    · exact .ret _
    · exact .ret _

theorem requests_deliverOtp (environ : Environ) (phone otp : String) :
    Uses AppCall.IsRequest (deliverOtp environ phone otp) := by
  refine Uses.catchWith ?_ fun e => .ret _
  refine (uses_sendSms _ _ _).bind fun result => ?_
  refine (uses_item _ result "success").bind fun success => ?_
  split
  · exact .ret _
  · exact .ret _

section Recovery

variable {P : PageCall → Prop} (hfind : ∀ q, P (.app (.users (.findOne q))))
  (hupdate : ∀ q x, P (.app (.users (.updateOne q x))))

include hfind hupdate

theorem uses_sendOtpToPhone (hrequest : ∀ r, P (.app (.request r))) (environ : Environ)
    (env : OtpEnv) (phone : String) :
    Uses P (Script.ofApp (sendOtpToPhone environ env phone)) := by
  refine uses_ofApp (Uses.bind (Uses.perform (hfind _)) fun found => ?_)
  cases found with
  | none => exact .ret _
  | some u =>
    refine Uses.bind (Uses.perform (hupdate _ _)) fun _ =>
      (requests_deliverOtp environ phone _).mono fun c hc => ?_
    cases c with
    | request r => exact hrequest r
    | ledger c => exact hc.elim
    | users op => exact hc.elim

theorem uses_resetPasswordWithOtp (bcrypt : Bcrypt) (env : Env) (phone otp newPassword : String) :
    Uses P (Script.ofApp (resetPasswordWithOtp bcrypt env phone otp newPassword)) := by
  refine uses_ofApp (Uses.bind (Uses.bind (Uses.perform (hfind _)) fun found => ?_)
    fun verified => ?_)
  · cases found with
    | none => exact .ret _
    | some u =>
      dsimp only
      split
      · exact .ret _
      · split
        · exact .ret _
        · exact .ret _
  · cases verified with
    | failure message => exact .ret _
    | success _ => exact Uses.bind (Uses.perform (hupdate _ _)) fun _ => .ret _

end Recovery

/-- The calls satisfy `P` that the page of a visitor may make when this is done there. -/
structure Visits (P : PageCall → Prop) (e : AuthEvent) : Prop where
  findUser : ∀ q, P (.app (.users (.findOne q)))
  addUser : ∀ u, P (.app (.users (.insertOne u)))
  setUser : ∀ q x, P (.app (.users (.updateOne q x)))
  findCustomer : ∀ q, P (.app (.ledger (.customers (.findOne q))))
  session : ∀ st, P (.session st)
  log : ∀ l : LogEntry, l.id ∈ Trigger.logIssued (.page (.auth e)) → l.action = "LOGIN" →
    P (.logs (.insertOne l))
  request : (∃ env fpPhone, e = .sendOtp env fpPhone) → ∀ r, P (.app (.request r))

/-- **The calls of the page of a visitor.** -/
theorem uses_showAuthPage {P : PageCall → Prop} {st : SessionState} {e : AuthEvent}
    (h : Visits P e) : Uses P (showAuthPage set st e) := by
  cases e with
  | login logEnv username password =>
    refine Uses.bind (uses_ofApp (Uses.bind (Uses.perform (h.findUser _)) fun found => ?_))
      fun reply => ?_
    · cases found with
      | none => exact .ret _
      | some u =>
        dsimp only
        split
        · exact .ret _
        · exact .ret _
    · cases reply with
      | failure message => exact .ret _
      | success res =>
        exact Uses.bind (Uses.perform (h.session _)) fun _ =>
          Uses.bind (Uses.perform (h.log _ List.mem_cons_self rfl)) fun _ => .ret _
  | register env newUser bizName phone newPass confPass =>
    rw [showAuthPage]
    split
    · exact .ret _
    split
    · exact .ret _
    refine Uses.bind (uses_ofApp (Uses.bind (Uses.perform (h.findUser _)) fun existing => ?_))
      fun reply => ?_
    · split
      · exact .ret _
      · exact Uses.bind (Uses.perform (h.addUser _)) fun _ => .ret _
    · cases reply with
      | failure message => exact .ret _
      | success uid => exact .ret _
  | customerLogin cphone cpin =>
    refine Uses.bind (uses_ofDb (Uses.bind (uses_query (h.findCustomer _)) fun found => ?_))
      fun reply => ?_
    · cases found with
      | none => exact .ret _
      | some c =>
        dsimp only
        split
        · exact .ret _
        · split
          · exact .ret _
          · exact .ret _
    · cases reply with
      | failure message => exact .ret _
      | success customer => exact Uses.bind (Uses.perform (h.session _)) fun _ => .ret _
  | sendOtp env fpPhone =>
    rw [showAuthPage]
    split
    · exact .ret _
    refine (uses_sendOtpToPhone h.findUser h.setUser (h.request ⟨env, fpPhone, rfl⟩) _ _ _).bind
      fun reply => ?_
    cases reply with
    | failure message => exact .ret _
    | success res => exact Uses.bind (Uses.perform (h.session _)) fun _ => .ret _
  | resetPassword env otp newPass conf =>
    rw [showAuthPage]
    split
    · exact .ret _
    split
    · exact .ret _
    refine (uses_resetPasswordWithOtp h.findUser h.setUser _ _ _ _ _).bind fun reply => ?_
    cases reply with
    | failure message => exact .ret _
    | success message => exact Uses.bind (Uses.perform (h.session _)) fun _ => .ret _
  | back =>
    rw [showAuthPage]
    split
    · exact .ret _
    · exact Uses.bind (Uses.perform (h.session _)) fun _ => .ret _

/-- What is plain fits. -/
theorem fits_plain {α : Type} {p : Script α} (hp : Uses PageCall.Plain p) :
    Uses (PageCall.Fits set users) p := hp.mono fun _ hc => hc.fits

end Plain

/-! ### The pages of a merchant -/

section Merchant

variable {st : SessionState}

theorem fits_logAction {m : String} (hm : users.Registered m) (env : Env)
    (action details : String) :
    Uses (PageCall.Fits set users) (logAction env m action details) := Uses.perform hm

theorem fits_showSidebar (hm : users.Registered st.userId) (hst : st.Sound users)
    (e : SidebarEvent) : Uses (PageCall.Fits set users) (showSidebar st e) := by
  cases e with
  | logout logEnv =>
    refine (fits_logAction hm _ _ _).bind fun _ => ?_
    refine Uses.bind (Uses.perform ?_) fun _ => .ret _
    exact { hst with
      apart := fun h => absurd h.1 Bool.false_ne_true
      merchant := fun h => absurd h Bool.false_ne_true
      visitor := fun _ => ⟨rfl, rfl, rfl⟩ }

/-- **What a page of a registered merchant calls fits.** -/
theorem fits_plan {t : Trigger} {m : String} (hm : users.Registered m) {p : Script (List Notice)}
    (hp : Plan set t m (.any True) p) : Uses (PageCall.Fits set users) p :=
  uses_plan hp
    { call := fun _ hmerchant hcall => fits_call (hmerchant ▸ hm) hcall
      score := fits_computeCreditScore
      customers := fun _ => trivial
      transactions := fun _ => trivial
      reminders := fun _ _ => fits_plain (plain_runMonthlyReminders _ _ _)
      request := fun _ _ => trivial
      readLog := fun _ => trivial
      clearLog := fun _ => trivial
      log := fun _ hl => show users.Registered _ from hl ▸ hm }

end Merchant

theorem fits_showCustomerPortal {st : SessionState} (hst : st.Sound users) (e : PortalEvent) :
    Uses (PageCall.Fits set users) (showCustomerPortal st e) := by
  cases e with
  | logout =>
    refine Uses.bind (Uses.perform ?_) fun _ => .ret _
    exact { hst with
      apart := fun h => absurd h.2 Bool.false_ne_true
      mode := by simp
      customer := rfl
      custData := fun c hc => absurd hc (Option.not_mem_none c) }

/-! ### Among other runs -/

section Abides

variable {i : ι} {site : Site ι} {α β : Type}

/-- What the runs may do to the site under each other. -/
def Site.Drift (site site' : Site ι) : Prop := site.world.users.Persist site'.world.users

theorem drift_refl (site : Site ι) : site.Drift site := .refl _

theorem drift_trans {site site' site'' : Site ι} (h : site.Drift site') (h' : site'.Drift site'') :
    site.Drift site'' := Users.Persist.trans h h'

variable [DecidableEq ι]

/-- The run keeps the site sound among others that do; what it returns satisfies `Q`. -/
abbrev Script.Keeps (set : Setting) (i : ι) (Q : α → Site ι → Prop) (p : Script α)
    (site : Site ι) : Prop :=
  p.Abides (execPage i) Site.Drift (Site.Sound set) Q site

theorem keeps_bind {p : Script α} {f : α → Script β} {Q : α → Site ι → Prop}
    {Q' : β → Site ι → Prop} (hsite : site.Sound set) (hp : p.Keeps set i Q site)
    (hf : ∀ a site', site.Drift site' → site'.Sound set → Q a site' →
      (f a).Keeps set i Q' site') : (p >>= f).Keeps set i Q' site :=
  Abides.bind drift_refl drift_trans hsite hp hf

/-- A program whose calls fit keeps the site sound. -/
theorem keeps_of_fits {p : Script α} {Q : α → Site ι → Prop}
    (hp : Uses (PageCall.Fits set site.world.users) p)
    (hQ : ∀ a site', site.Drift site' → site'.Sound set → Q a site') : p.Keeps set i Q site :=
  Abides.of_uses drift_trans hp
    (fun _ _ hdrift hsound hc => PageCall.Fits.sound (hc.persist hdrift) hsound) hQ

theorem keeps_of_fits' {p : Script α} (hp : Uses (PageCall.Fits set site.world.users) p) :
    p.Keeps set i (fun _ _ => True) site := keeps_of_fits hp fun _ _ _ _ => trivial

/-- A look-up of a user finds one that is there, and stays there. -/
theorem keeps_findUser (q : UserQuery) :
    (Script.ofApp (UsersCol.findOne q)).Keeps set i (fun found site' => ∀ u ∈ found,
      Document.test q u = true ∧ ∃ u' ∈ site'.world.users.docs, u'.id = u.id ∧
        u'.username = u.username ∧ u'.businessName = u.businessName ∧ u'.phone = u.phone)
      site := by
  rw [UsersCol.findOne, Script.ofApp_perform]
  refine Abides.perform fun site' _ hsound => ?_
  refine ⟨drift_refl _, hsound, fun found hfound site'' hdrift _ u hu => ?_⟩
  have hfind : site'.world.users.findOne q = some u := (Except.ok.inj hfound).trans hu
  refine ⟨IndexedCollection.test_of_findOne hfind, ?_⟩
  exact hdrift u (IndexedCollection.mem_of_findOne hfind)

/-- Who logs in is a user. -/
theorem keeps_loginUser (hsite : site.Sound set) (username password : String) :
    (Script.ofApp (loginUser set.bcrypt username password)).Keeps set i (fun reply site' =>
      ∀ res, reply = .success res → ∃ u ∈ site'.world.users.docs,
        res.userId = u.id.str ∧ res.username = u.username ∧ res.businessName = u.businessName)
      site := by
  rw [loginUser, Script.ofApp_bind]
  refine keeps_bind hsite (keeps_findUser _) fun found site' _ _ hfound => ?_
  cases found with
  | none => exact Abides.ret fun _ _ _ res hres => absurd hres (by simp)
  | some u =>
    obtain ⟨-, u', hu', hid, hname, hbusiness, -⟩ := hfound u rfl
    dsimp only
    split
    · exact Abides.ret fun _ _ _ res hres => absurd hres (by simp)
    · refine Abides.ret fun site'' hdrift _ res hres => ?_
      obtain ⟨u'', hu'', hid', hname', hbusiness', -⟩ := hdrift u' hu'
      obtain rfl := Reply.success.inj hres
      exact ⟨u'', hu'', by rw [hid', hid], by rw [hname', hname], by rw [hbusiness', hbusiness]⟩

/-- A customer who logs in belongs to a user. -/
theorem keeps_customerPortalLogin (hsite : site.Sound set) (phone pin : String) :
    (Script.ofDb (customerPortalLogin set.bcrypt phone pin)).Keeps set i (fun reply site' =>
      ∀ c, reply = .success c → site'.world.users.Registered c.merchantId) site := by
  rw [Script.ofDb, customerPortalLogin, App.ofDb_bind, Script.ofApp_bind, CustomersCol.findOne,
    App.ofDb_query, Script.ofApp_perform]
  refine keeps_bind hsite (Q := fun found site' => ∀ c : Customer, found = some c →
    site'.world.users.Registered c.merchantId) ?_ fun found site' _ _ hfound => ?_
  · refine Abides.perform fun site' _ hsound => ⟨drift_refl _, hsound, ?_⟩
    intro found hfound site'' hdrift _ c hc
    have hfind : site'.world.ledger.customers.findOne { phone := some phone } = some c :=
      (Except.ok.inj hfound).trans hc
    exact hdrift.registered (hsound.customers c (Collection.mem_of_findOne hfind)).1
  · cases found with
    | none => exact Abides.ret fun _ _ _ c hc => absurd hc (by simp)
    | some c =>
      dsimp only
      split
      · exact Abides.ret fun _ _ _ c hc => absurd hc (by simp)
      · split
        · exact Abides.ret fun _ _ _ c hc => absurd hc (by simp)
        · refine Abides.ret fun site'' hdrift _ c' hc' => ?_
          rw [← Reply.success.inj hc']
          exact hdrift.registered (hfound c rfl)

/-- A code is sent to the phone of a user. -/
theorem keeps_sendOtpToPhone (hsite : site.Sound set) (env : OtpEnv) (phone : String) :
    (Script.ofApp (sendOtpToPhone set.environ env phone)).Keeps set i (fun reply site' =>
      ∀ res, reply = .success res → ∃ u ∈ site'.world.users.docs, u.phone = phone) site := by
  rw [sendOtpToPhone, Script.ofApp_bind]
  refine keeps_bind hsite (keeps_findUser _) fun found site' _ _ hfound => ?_
  cases found with
  | none => exact Abides.ret fun _ _ _ res hres => absurd hres (by simp)
  | some u =>
    obtain ⟨htest, u', hu', -, -, -, hphone⟩ := hfound u rfl
    have hu : u.phone = phone := (test_phone.mp htest).symm
    refine keeps_of_fits ?_ fun reply site'' hdrift _ res _ => ?_
    · exact uses_ofApp (Uses.bind (Uses.perform trivial) fun _ =>
        (plain_requests (requests_deliverOtp _ _ _)).mono fun _ hc => hc.fits)
    · obtain ⟨u'', hu'', -, -, -, hphone'⟩ := hdrift u' hu'
      exact ⟨u'', hu'', by rw [hphone', hphone, hu]⟩

theorem keeps_showAuthPage {st : SessionState} (hsite : site.Sound set)
    (hst : st.Sound site.world.users) (hin : st.loggedIn = false)
    (hcust : st.custLoggedIn = false) (e : AuthEvent) :
    (showAuthPage set st e).Keeps set i (fun _ _ => True) site := by
  have hnone : st.custData = none := by
    have hdata := hst.customer
    rw [hcust] at hdata
    exact Option.isNone_iff_eq_none.mp (by rw [← Option.not_isSome, ← hdata]; rfl)
  cases e with
  | login logEnv username password =>
    refine keeps_bind hsite (keeps_loginUser hsite _ _) fun reply site' hdrift hsite' hreply => ?_
    cases reply with
    | failure message => exact Abides.ret fun _ _ _ => trivial
    | success res =>
      have hst' := hdrift.sound hst
      obtain ⟨u, hu, hid, hname, hbusiness⟩ := hreply res rfl
      have hm : site'.world.users.Registered res.userId := ⟨u, hu, hid.symm⟩
      refine keeps_of_fits' (Uses.bind (Uses.perform ?_) fun _ =>
        (fits_logAction hm _ _ _).bind fun _ => .ret _)
      exact { hst' with
        apart := fun h => absurd (hcust.symm.trans h.2) Bool.false_ne_true
        mode := iff_of_false (by simp) (by simp [hcust])
        merchant := fun _ => ⟨u, hu, hid, hname, hbusiness⟩
        visitor := fun h => absurd h.symm Bool.false_ne_true }
  | register env newUser bizName phone newPass confPass =>
    rw [showAuthPage]
    split
    · exact Abides.ret fun _ _ _ => trivial
    split
    · exact Abides.ret fun _ _ _ => trivial
    next hgiven =>
    simp only [not_or] at hgiven
    obtain ⟨hname, hbusiness, hphone, -⟩ := hgiven
    refine keeps_of_fits' (Uses.bind (uses_ofApp ?_) fun reply => ?_)
    · refine Uses.bind (Uses.perform trivial) fun existing => ?_
      split
      · exact .ret _
      · exact Uses.bind (Uses.perform ⟨hname, hbusiness, hphone⟩) fun _ => .ret _
    · cases reply with
      | failure message => exact .ret _
      | success uid => exact .ret _
  | customerLogin cphone cpin =>
    refine keeps_bind hsite (keeps_customerPortalLogin hsite _ _)
      fun reply site' hdrift hsite' hreply => ?_
    cases reply with
    | failure message => exact Abides.ret fun _ _ _ => trivial
    | success c =>
      have hst' := hdrift.sound hst
      refine keeps_of_fits' (Uses.bind (Uses.perform ?_) fun _ => .ret _)
      exact { hst' with
        apart := fun h => absurd (hin.symm.trans h.1) Bool.false_ne_true
        mode := iff_of_true rfl rfl
        customer := rfl
        custData := fun c' hc' => by
          rw [← Option.mem_some.mp hc']
          exact hreply c rfl }
  | sendOtp env fpPhone =>
    rw [showAuthPage]
    split
    · exact Abides.ret fun _ _ _ => trivial
    refine keeps_bind hsite (keeps_sendOtpToPhone hsite _ _)
      fun reply site' hdrift hsite' hreply => ?_
    cases reply with
    | failure message => exact Abides.ret fun _ _ _ => trivial
    | success res =>
      have hst' := hdrift.sound hst
      refine keeps_of_fits' (Uses.bind (Uses.perform ?_) fun _ => .ret _)
      exact { hst' with otp := fun _ => hreply res rfl }
  | resetPassword env otp newPass conf =>
    rw [showAuthPage]
    split
    · exact Abides.ret fun _ _ _ => trivial
    split
    · exact Abides.ret fun _ _ _ => trivial
    have hreset : Uses (PageCall.Fits set site.world.users)
        (Script.ofApp (resetPasswordWithOtp set.bcrypt env st.otpPhone otp newPass)) :=
      uses_resetPasswordWithOtp (fun _ => trivial) (fun _ _ => trivial) _ _ _ _ _
    refine keeps_of_fits' (hreset.bind fun reply => ?_)
    cases reply with
    | failure message => exact .ret _
    | success message =>
      refine Uses.bind (Uses.perform ?_) fun _ => .ret _
      exact { hst with otp := fun h => absurd h Bool.false_ne_true }
  | back =>
    rw [showAuthPage]
    split
    · exact Abides.ret fun _ _ _ => trivial
    refine keeps_of_fits' (Uses.bind (Uses.perform ?_) fun _ => .ret _)
    exact { hst with otp := fun h => absurd h Bool.false_ne_true }

/-- The page that is shown keeps the site sound. -/
theorem keeps_main {st : SessionState} (hsite : site.Sound set) (hst : st.Sound site.world.users)
    (e : PageEvent) : (main set st e).Keeps set i (fun _ _ => True) site := by
  have hret : ∀ notices : List Notice, Script.Keeps set i (fun _ _ => True) (.ret notices) site :=
    fun notices => Abides.ret fun _ _ _ => trivial
  unfold main
  split
  · cases e with
    | portal e => exact keeps_of_fits' (fits_showCustomerPortal hst e)
    | auth e => exact hret _
    | sidebar e => exact hret _
    | customers e => exact hret _
    | transactions e => exact hret _
    | reminders e => exact hret _
    | activity e => exact hret _
  next hportal =>
  split
  · next hin =>
    have hcust : st.custLoggedIn = false := by
      refine Bool.eq_false_iff.mpr fun h => hportal ⟨hst.mode.mpr h, h⟩
    cases e with
    | auth e => exact keeps_showAuthPage hsite hst hin hcust e
    | portal e => exact hret _
    | sidebar e => exact hret _
    | customers e => exact hret _
    | transactions e => exact hret _
    | reminders e => exact hret _
    | activity e => exact hret _
  · next hin =>
    have hm : site.world.users.Registered st.userId := by
      obtain ⟨u, hu, hid, -⟩ := hst.merchant (by simpa using hin)
      exact ⟨u, hu, hid.symm⟩
    cases e with
    | sidebar e => exact keeps_of_fits' (fits_showSidebar hm hst e)
    | customers e => exact keeps_of_fits' (fits_plan hm (plan_showCustomers e))
    | transactions e =>
      exact keeps_of_fits' (fits_plan hm
        (plan_showTransactions (fun _ => trivial) fun _ _ _ => e.offered_of (fun _ _ => trivial) _))
    | reminders e => exact keeps_of_fits' (fits_plan hm (plan_showReminders trivial e))
    | activity e => exact keeps_of_fits' (fits_plan hm (plan_showActivityLog e))
    | auth e => exact hret _
    | portal e => exact hret _

/-- **Every run abides by the rules of the site**, whatever comes between its calls. -/
theorem keeps_serve (i : ι) (t : Trigger) (hsite : site.Sound set) :
    (serve set i t site).Keeps set i (fun _ _ => True) site := by
  cases t with
  | page e => exact keeps_main hsite (hsite.sessions i) e
  | monthlyReminders =>
    exact keeps_of_fits' ((fits_plain (plain_runMonthlyReminders _ _ _)).bind fun _ => .ret _)

end Abides

/-! ### The process -/

section Process

variable [DecidableEq ι]

/-- The process: the site, and what the sessions have in progress. -/
abbrev Live (ι : Type) := Pool ι (Site ι) PageCall PageCall.Answer AppExn (List Notice)

/-- What can happen in the process: a session does something, or the job is due; or a run in
progress makes its next call. -/
abbrev LiveAct (ι : Type) := Pool.Act ι Trigger

/-- The process at its start. -/
def Live.start (gateway : ℕ → Response) : Live ι := ⟨Site.start gateway, fun _ => .ret []⟩

/-- The process after a list of acts. -/
def Live.after (set : Setting) (x : Live ι) (acts : List (LiveAct ι)) : Live ι :=
  Trace.after (Pool.act execPage (serve set)) x acts

/-- **The site is sound at every moment.** -/
theorem live_sound (set : Setting) (gateway : ℕ → Response) (acts : List (LiveAct ι)) :
    Site.Sound set ((Live.start gateway).after set acts).store := by
  refine (Pool.invariant (G := Site.Drift) (I := Site.Sound set) drift_refl drift_trans
    (fun i t site hsite => keeps_serve i t hsite) ⟨sound_start set gateway, fun i => ?_⟩
      acts).1.store
  exact Abides.ret fun _ _ _ => trivial

/-- **What is stored is well formed**, at every moment: users and customers have a name and a
phone, the PIN of a customer is that of four digits where one is set, its balance is its credit
less what it has paid, its score is on the scale and has its category, and no transaction is of
less than a cent. -/
theorem documents_wellFormed (set : Setting) (gateway : ℕ → Response)
    (acts : List (LiveAct ι)) :
    let site := ((Live.start gateway).after set acts).store
    (∀ u ∈ site.world.users.docs, u.WellFormed) ∧
      (∀ c ∈ site.world.ledger.customers.docs, c.WellFormed set) ∧
      ∀ t ∈ site.world.ledger.transactions.docs, 1 / 100 ≤ t.amount := by
  have hsound := live_sound set gateway acts
  exact ⟨hsound.users, fun c hc => (hsound.customers c hc).2,
    fun t ht => (hsound.transactions t ht).2⟩

/-! ### One run after the other -/

/-- The site after a run that nothing comes between. -/
def stepSite (set : Setting) (site : Site ι) (x : ι × Trigger) : Site ι :=
  (run (execPage x.1) (serve set x.1 x.2 site) site).2

end Process

/-- A setting for small runs; nothing is set in the environment. -/
def sampleSetting : Setting where
  bcrypt := markingBcrypt
  environ := .empty
  digit := Char.isDigit
  order := .stable

end DigitalLedger
