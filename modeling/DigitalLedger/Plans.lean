import DigitalLedger.Pages

/-!
# How the pages of a merchant proceed

A page reads what it is to show, makes at most one call that writes the ledger, with what its
forms have checked, and may then log the call and send a message.  That the pages are
put together in this way is said here once for each page; whatever the later modules say of
the calls of all pages they prove by induction on it.

## Main definitions

* `Trigger` — what makes the process run something, and the identifiers it is given.
* `Call.Checked`, `Call.Records` — what the forms check of a call, and what is logged of it.
* `Terms` — what a run is taken to have been shown.
* `Plan` — the programs that proceed as pages do.
* `Admits` — the calls such programs may make.

## Main results

* `plan_showCustomers`, `plan_showTransactions`, `plan_showReminders`, `plan_showActivityLog` —
  the pages do.
* `uses_plan` — the calls of a page.
-/

namespace DigitalLedger

open Prog

/-! ### What is run -/

/-- What makes the process run something. -/
inductive Trigger
  /-- The user of the session does something. -/
  | page (e : PageEvent)
  /-- The job of `start_scheduler`: it is given a channel and no merchant. -/
  | monthlyReminders

/-- The identifiers the database generates for the documents a run may insert in the
ledger. -/
def Trigger.issued : Trigger → List ObjectId
  | .page (.customers (.add env _ _ _ _ _)) => [env.objectId 0]
  | .page (.customers (.importCustomers env _ (.ok df))) =>
    (List.range df.rows.length).map env.objectId
  | .page (.transactions (.record env _ _ _ _ _ _)) => [env.objectId 0]
  | _ => []

/-- The identifier the database generates for the entry a run may log. -/
def Trigger.logIssued : Trigger → List ObjectId
  | .page (.auth (.login logEnv _ _)) => [logEnv.objectId 0]
  | .page (.sidebar (.logout logEnv)) => [logEnv.objectId 0]
  | .page (.customers (.add _ logEnv _ _ _ _)) => [logEnv.objectId 0]
  | .page (.customers (.importCustomers _ logEnv _)) => [logEnv.objectId 0]
  | .page (.customers (.updatePin _ logEnv _ _)) => [logEnv.objectId 0]
  | .page (.customers (.delete logEnv _)) => [logEnv.objectId 0]
  | .page (.transactions (.record _ logEnv _ _ _ _ _)) => [logEnv.objectId 0]
  | .page (.transactions (.edit _ logEnv _ _ _ _)) => [logEnv.objectId 0]
  | .page (.transactions (.delete _ logEnv _ _)) => [logEnv.objectId 0]
  | .page (.reminders (.send logEnv _)) => [logEnv.objectId 0]
  | .page (.activity (.clear logEnv)) => [logEnv.objectId 0]
  | _ => []

/-! ### Programs of the layers below -/

theorem uses_ofApp {α : Type} {P : PageCall → Prop} {p : App α}
    (hp : Uses (fun c => P (.app c)) p) : Uses P (Script.ofApp p) := by
  induction p with
  | ret a => exact .ret a
  | raise e => exact .raise e
  | call c k ih => exact .call hp.head fun r => ih r (hp.next r)

theorem App.uses_ofDb {α : Type} {P : AppCall → Prop} {p : Db α}
    (hp : Uses (fun c => P (.ledger c)) p) : Uses P (App.ofDb p) := by
  induction p with
  | ret a => exact .ret a
  | raise e => exact .raise _
  | call c k ih =>
    rw [App.ofDb]
    refine .call hp.head fun r => ?_
    rcases r with e | a
    · cases e with
      | database e => exact ih _ (hp.next _)
      | environmentError message => exact .raise _
      | valueError message => exact .raise _
      | attributeError object attr => exact .raise _
      | keyError key => exact .raise _
      | typeError message => exact .raise _
    · exact ih _ (hp.next _)

theorem Script.ofApp_bind {α β : Type} (p : App α) (f : α → App β) :
    Script.ofApp (p >>= f) = Script.ofApp p >>= fun a => Script.ofApp (f a) := by
  induction p with
  | ret a => rfl
  | raise e => rfl
  | call c k ih => exact congrArg (Prog.call (PageCall.app c)) (funext ih)

theorem Script.ofApp_perform (c : AppCall) :
    Script.ofApp (App.perform c) = Script.perform (.app c) := by
  rw [App.perform, Script.perform, Prog.perform, Prog.perform, Script.ofApp]
  refine congrArg (Prog.call (PageCall.app c)) (funext fun r => ?_)
  cases r <;> rfl

theorem App.ofDb_bind {α β : Type} (p : Db α) (f : α → Db β) :
    App.ofDb (p >>= f) = App.ofDb p >>= fun a => App.ofDb (f a) := by
  induction p with
  | ret a => rfl
  | raise e => rfl
  | call c k ih =>
    rw [call_bind, App.ofDb, App.ofDb, call_bind]
    refine congrArg (Prog.call (AppCall.ledger c)) (funext fun r => ?_)
    rcases r with e | a
    · cases e with
      | database e => exact ih _
      | environmentError message => rfl
      | valueError message => rfl
      | attributeError object attr => rfl
      | keyError key => rfl
      | typeError message => rfl
    · exact ih _

theorem App.ofDb_query (c : DbCall) : App.ofDb (query c) = App.perform (.ledger c) := by
  rw [query, App.perform, Prog.perform, Prog.perform, App.ofDb]
  refine congrArg (Prog.call (AppCall.ledger c)) (funext fun r => ?_)
  rcases r with e | a
  · cases e <;> rfl
  · rfl

theorem uses_ofDb {α : Type} {P : PageCall → Prop} {p : Db α}
    (hp : Uses (fun c => P (.app (.ledger c))) p) : Uses P (Script.ofDb p) :=
  uses_ofApp (App.uses_ofDb hp)

theorem uses_custItem {P : PageCall → Prop} (customers : List (CustomerDoc String))
    (name : String) : Uses P (Script.ofApp (custItem customers name)) := by
  unfold custItem
  split
  · exact .ret _
  · exact .raise _

/-! ### The calls the pages make -/

/-- A PIN that was left out, or one of four digits. -/
def Setting.PinText (set : Setting) (pin : String) : Prop :=
  pin = "" ∨ isdigit set.digit pin = true ∧ pin.length = 4

/-- What the forms check of a call. -/
def Call.Checked (set : Setting) : Call → Prop
  | .addCustomer _ _ name phone _ pin => name ≠ "" ∧ phone ≠ "" ∧ set.PinText pin
  | .addTransaction _ _ _ txnType amount _ =>
    (TxnType.ofString? txnType).isSome ∧ 1 / 100 ≤ amount
  | .editTransaction _ _ _ amount _ => 1 / 100 ≤ amount
  | .updateCustomerPin _ _ _ pin => isdigit set.digit pin = true ∧ pin.length = 4
  | _ => True

/-- What is logged of a call with this outcome: an action and its details. -/
inductive Call.Records : Call → Outcome → String → String → Prop
  | addCustomer (env : Env) (m name phone address pin cid : String) :
      Records (.addCustomer env m name phone address pin) (.customerId (.success cid))
        "ADD_CUSTOMER" s!"Added {name} ({phone})"
  | importCustomers (env : Env) (m : String) (file : Except String DataFrame)
      (r : ImportResults) (added : ℕ) (hadded : r.added = added) :
      Records (.importCustomersFromExcel env m file) (.imported (.success r))
        "BULK_IMPORT" s!"{added} customers imported"
  /-- Whether the PIN was set is not looked at. -/
  | updatePin (env : Env) (cid m pin name : String) (reply : Reply Unit) :
      Records (.updateCustomerPin env cid m pin) (.done reply)
        "UPDATE_PIN" s!"Updated PIN for {name}"
  | deleteCustomer (cid m name : String) :
      Records (.deleteCustomer cid m) (.done (.success ()))
        "DELETE_CUSTOMER" s!"Deleted {name}"
  | addTransaction (env : Env) (m cid : String) (txnType : TxnType) (amount newBalance : ℚ)
      (note kind text custName : String) :
      Records (.addTransaction env m cid txnType.str amount note)
        (.newBalance (.success newBalance)) "ADD_TXN" s!"{kind} ₹{text} for {custName}"
  | editTransaction (env : Env) (tid m : String) (amount : ℚ) (note : String) :
      Records (.editTransaction env tid m amount note) (.done (.success ()))
        "EDIT_TXN" s!"Edited txn {tid}"
  | deleteTransaction (env : Env) (tid m name : String) :
      Records (.deleteTransaction env tid m) (.done (.success ()))
        "DELETE_TXN" s!"Deleted txn for {name}"

/-- The call was answered with success. -/
def Outcome.Succeeded : Outcome → Prop
  | .customerId reply => ∃ cid, reply = .success cid
  | .newBalance reply => ∃ balance, reply = .success balance
  | .done reply => reply = .success ()
  | .score _ => True
  | .imported reply => ∃ r, reply = .success r

/-! ### The plan of a page -/

/-- What a run is taken to have been shown, and to be asked for. -/
structure Terms where
  /-- The lists of customers it may be shown. -/
  Lists : List (CustomerDoc String) → Prop
  /-- The identifiers of the customers on them. -/
  Known : String → Prop
  known : ∀ customers, Lists customers → ∀ c ∈ customers, Known c.id
  /-- The identifiers of the transactions of a history. -/
  Entry : String → Prop
  /-- The names that may be chosen, by the entries of the list. -/
  Offers : List String → String → Prop
  /-- Messages may be sent. -/
  Sends : Prop

/-- Anything may have been shown and chosen. -/
def Terms.any (sends : Prop) : Terms where
  Lists _ := True
  Known _ := True
  known _ _ _ _ := trivial
  Entry _ := True
  Offers _ _ := True
  Sends := sends

/-- The call names what was shown, with what the forms check. -/
def Call.Planned (set : Setting) (T : Terms) : Call → Prop
  | .addCustomer _ _ name phone _ pin => name ≠ "" ∧ phone ≠ "" ∧ set.PinText pin
  | .addTransaction _ _ cid txnType amount _ =>
    T.Known cid ∧ (TxnType.ofString? txnType).isSome ∧ 1 / 100 ≤ amount
  | .editTransaction _ tid _ amount _ => T.Entry tid ∧ 1 / 100 ≤ amount
  | .deleteTransaction _ tid _ => T.Entry tid
  | .deleteCustomer cid _ => T.Known cid
  | .updateCustomerPin _ cid _ pin => T.Known cid ∧ isdigit set.digit pin = true ∧ pin.length = 4
  | .computeCreditScore _ _ _ => False
  | .importCustomersFromExcel _ _ _ => True

theorem Call.Planned.checked {set : Setting} {T : Terms} {call : Call}
    (hcall : call.Planned set T) : call.Checked set := by
  cases call with
  | addCustomer env m name phone address pin => exact hcall
  | addTransaction env m cid txnType amount note => exact hcall.2
  | editTransaction env tid m amount note => exact hcall.2
  | deleteTransaction env tid m => trivial
  | deleteCustomer cid m => trivial
  | updateCustomerPin env cid m pin => exact hcall.2
  | computeCreditScore env m cid => trivial
  | importCustomersFromExcel env m file => trivial

theorem Call.Planned.canonical {set : Setting} {T : Terms} {call : Call}
    (hcall : call.Planned set T) (hT : ∀ cid, T.Known cid → ObjectId.Canonical cid) :
    call.Canonical := by
  cases call with
  | addCustomer env m name phone address pin => trivial
  | addTransaction env m cid txnType amount note => exact hT cid hcall.1
  | editTransaction env tid m amount note => trivial
  | deleteTransaction env tid m => trivial
  | deleteCustomer cid m => exact hT cid hcall
  | updateCustomerPin env cid m pin => exact hT cid hcall.1
  | computeCreditScore env m cid => exact hcall.elim
  | importCustomersFromExcel env m file => trivial

def PageCall.IsRequest : PageCall → Prop
  | .app c => c.IsRequest
  | _ => False

/-- What is left once something is logged: at most messages. -/
def Tail {α : Type} (T : Terms) (p : Script α) : Prop :=
  (∃ a, p = .ret a) ∨ T.Sends ∧ Uses PageCall.IsRequest p

/-- What a page does once its call is answered: it logs the call, or, where the call has not
succeeded, it is done. -/
inductive Closes (t : Trigger) (m : String) (T : Terms) (call : Call) (o : Outcome) :
    Script (List Notice) → Prop
  | ret (notices : List Notice) (ho : ¬o.Succeeded) : Closes t m T call o (.ret notices)
  | log {logEnv : Env} {action details : String} {f : Unit → Script (List Notice)}
      (hrec : call.Records o action details) (hlog : logEnv.objectId 0 ∈ t.logIssued)
      (hf : Tail T (f ())) : Closes t m T call o (logAction logEnv m action details >>= f)

/-- The programs that proceed as the pages of the merchant `m` do. -/
inductive Plan (set : Setting) (t : Trigger) (m : String) (T : Terms) :
    Script (List Notice) → Prop
  | ret (notices : List Notice) : Plan set t m T (.ret notices)
  /-- The customers are listed. -/
  | listed {f : List (CustomerDoc String) → Script (List Notice)}
      (hf : ∀ customers, T.Lists customers → Plan set t m T (f customers)) :
      Plan set t m T (Script.ofDb (getCustomers m) >>= f)
  /-- One of them is chosen. -/
  | chosen {customers : List (CustomerDoc String)} {name : String}
      {f : CustomerDoc String → Script (List Notice)} (hlists : T.Lists customers)
      (hname : T.Offers (formEntries customers) name)
      (hf : ∀ cust ∈ customers, Plan set t m T (f cust)) :
      Plan set t m T (Script.ofApp (custItem customers name) >>= f)
  /-- The history of one of them, or of all, is read. -/
  | history {customers : List (CustomerDoc String)} {entry : String}
      {f : List (TransactionDoc String) → Script (List Notice)} (hlists : T.Lists customers)
      (hentry : T.Offers (filterEntries customers) entry)
      (hf : ∀ txns, (∀ t ∈ txns, T.Entry t.id) → Plan set t m T (f txns)) :
      Plan set t m T (Script.ofApp (showHistory m customers entry) >>= f)
  /-- A call on the ledger is made. -/
  | call (call : Call) {α : Type} {p : Db α} {wrap : α → Outcome} {f : α → Script (List Notice)}
      (hcode : call.code set.bcrypt = wrap <$> p) (hm : call.merchantId = m)
      (hcall : call.Planned set T) (hids : call.issued = t.issued)
      (hf : ∀ a, Closes t m T call (wrap a) (f a)) : Plan set t m T (Script.ofDb p >>= f)
  /-- The listed customers are scored. -/
  | recalculate {env : Env} {customers : List (CustomerDoc String)} {notices : List Notice}
      (hlists : T.Lists customers) :
      Plan set t m T (Script.ofDb (recalculate env 0 customers) >>= fun _ => .ret notices)
  /-- The customers who owe something are listed. -/
  | defaulters {f : List (CustomerDoc String) → Script (List Notice)}
      (hf : ∀ defaulters, Plan set t m T (f defaulters)) :
      Plan set t m T (Script.ofDb (getDefaulters m) >>= f)
  /-- They are reminded, and that is logged. -/
  | reminders {channel : String} {f : List ReminderResult → Script (List Notice)}
      (hsends : T.Sends) (hf : ∀ results, Plan set t m T (f results)) :
      Plan set t m T (Script.ofApp (runMonthlyReminders set.environ (some m) channel) >>= f)
  | note {logEnv : Env} {details : String} {f : Unit → Script (List Notice)}
      (hlog : logEnv.objectId 0 ∈ t.logIssued) (hf : Tail T (f ())) :
      Plan set t m T (logAction logEnv m "SEND_REMINDERS" details >>= f)
  /-- The log is read. -/
  | logs {f : List (LogDoc String) → Script (List Notice)}
      (hf : ∀ logs, Plan set t m T (f logs)) :
      Plan set t m T (getLogs set.order m defaultLimit >>= f)
  /-- It is cleared, and that is logged. -/
  | clear {logEnv : Env} {notices : List Notice} (hlog : logEnv.objectId 0 ∈ t.logIssued) :
      Plan set t m T (clearLogs m >>= fun _ =>
        logAction logEnv m "CLEAR_LOG" "Activity log cleared" >>= fun _ => .ret notices)

/-! ### The pages -/

section Pages

variable {set : Setting} {st : SessionState} {T : Terms}

theorem plan_showCustomers (e : CustomersEvent) :
    Plan set (.page (.customers e)) st.userId T (showCustomers set st e) := by
  cases e with
  | add env logEnv name phone address pin =>
    rw [showCustomers]
    split
    · exact .ret _
    next hgiven =>
    split
    · exact .ret _
    next hpin =>
    obtain ⟨hname, hphone⟩ := not_or.mp hgiven
    have htext : set.PinText pin := by
      by_cases hempty : pin = ""
      · exact .inl hempty
      · simp only [hempty, ne_eq, not_false_eq_true, true_and, not_or, Bool.not_eq_false,
          not_not] at hpin
        exact .inr hpin
    refine .call (.addCustomer env st.userId name phone address pin) rfl rfl
      ⟨hname, hphone, htext⟩ rfl fun reply => ?_
    cases reply with
    | failure message => exact .ret _ (by rintro ⟨cid, h⟩; cases h)
    | success cid => exact .log (.addCustomer ..) List.mem_cons_self (.inl ⟨_, rfl⟩)
  | importCustomers env logEnv file =>
    have hids : Call.issued (.importCustomersFromExcel env st.userId file) =
        Trigger.issued (.page (.customers (.importCustomers env logEnv file))) := by
      cases file <;> rfl
    refine .call (.importCustomersFromExcel env st.userId file) rfl rfl trivial hids
      fun reply => ?_
    cases reply with
    | failure message => exact .ret _ (by rintro ⟨r, h⟩; cases h)
    | success r =>
      exact .log (.importCustomers _ _ _ r _ rfl) List.mem_cons_self (.inl ⟨_, rfl⟩)
  | recalculateAll env =>
    refine .listed fun customers hlists => ?_
    split
    · exact .ret _
    · exact .recalculate hlists
  | updatePin env logEnv customerId newPin =>
    refine .listed fun customers hlists => ?_
    split
    · exact .ret _
    next c hfound =>
    split
    next hpin =>
      have hc := T.known customers hlists c (List.mem_of_find?_eq_some hfound)
      refine .call (.updateCustomerPin env c.id st.userId newPin) rfl rfl ⟨hc, hpin.2⟩
        rfl fun reply => ?_
      exact .log (.updatePin ..) List.mem_cons_self (.inl ⟨_, rfl⟩)
    · exact .ret _
  | delete logEnv customerId =>
    refine .listed fun customers hlists => ?_
    split
    · exact .ret _
    next c hfound =>
    have hc := T.known customers hlists c (List.mem_of_find?_eq_some hfound)
    refine .call (.deleteCustomer c.id st.userId) rfl rfl hc rfl fun reply => ?_
    cases reply with
    | failure message => exact .ret _ (by rintro h; cases h)
    | success _ => exact .log (.deleteCustomer ..) List.mem_cons_self (.inl ⟨_, rfl⟩)

theorem ofString?_str (type : TxnType) : TxnType.ofString? type.str = some type := by
  cases type <;> rfl

/-- A receipt is a message. -/
theorem tail_sendRcpt {cust : CustomerDoc String} {custName : String} {txnType : TxnType}
    {amount newBalance : ℚ} {receipt : Option Channel} (hsends : receipt ≠ none → T.Sends)
    (f : List Notice → List Notice) :
    Tail T (sendRcpt set st cust custName txnType amount newBalance receipt >>= fun notices =>
      .ret (f notices)) := by
  cases receipt with
  | none => exact .inl ⟨_, rfl⟩
  | some channel =>
    refine .inr ⟨hsends (Option.some_ne_none channel), Uses.bind ?_ fun notices => .ret _⟩
    refine (uses_ofApp (uses_sendReceipt _ _ _ _ _ _ _ _)).bind fun rcpt => ?_
    split
    · exact .ret _
    · exact .ret _

/-- The form offers the name that was chosen. -/
def TransactionsEvent.Offered (T : Terms) (customers : List (CustomerDoc String)) :
    TransactionsEvent → Prop
  | .record _ _ custName _ _ _ _ => T.Offers (formEntries customers) custName
  | .edit _ _ filterCust _ _ _ => T.Offers (filterEntries customers) filterCust
  | .delete _ _ filterCust _ => T.Offers (filterEntries customers) filterCust

theorem TransactionsEvent.offered_of (e : TransactionsEvent)
    (h : ∀ entries name, T.Offers entries name) (customers : List (CustomerDoc String)) :
    e.Offered T customers := by
  cases e with
  | record env logEnv custName txnType amount note receipt => exact h _ _
  | edit env logEnv filterCust txnId newAmt newNote => exact h _ _
  | delete env logEnv filterCust txnId => exact h _ _

/-- A receipt is asked for. -/
def TransactionsEvent.Sends : TransactionsEvent → Prop
  | .record _ _ _ _ _ _ receipt => receipt ≠ none
  | _ => False

theorem plan_showTransactions {e : TransactionsEvent} (hsends : e.Sends → T.Sends)
    (hoffered : ∀ customers, T.Lists customers → customers ≠ [] → e.Offered T customers) :
    Plan set (.page (.transactions e)) st.userId T (showTransactions set st e) := by
  cases e with
  | record env logEnv custName txnType amount note receipt =>
    refine .listed fun customers hlists => ?_
    split
    · exact .ret _
    next hne =>
    refine .chosen hlists (hoffered customers hlists hne) fun cust hcust => ?_
    have htype : (TxnType.ofString? txnType.str).isSome := by rw [ofString?_str]; rfl
    refine .call (.addTransaction env st.userId cust.id txnType.str amount.val note) rfl
      rfl ⟨T.known customers hlists cust hcust, htype, amount.property⟩ rfl fun reply => ?_
    cases reply with
    | failure message => exact .ret _ (by rintro ⟨balance, h⟩; cases h)
    | success newBalance =>
      exact .log (.addTransaction ..) List.mem_cons_self (tail_sendRcpt hsends _)
  | edit env logEnv filterCust txnId newAmt newNote =>
    refine .listed fun customers hlists => ?_
    split
    · exact .ret _
    next hne =>
    refine .history hlists (hoffered customers hlists hne) fun txns hentry => ?_
    split
    · exact .ret _
    next t hfound =>
    have ht := hentry t (List.mem_of_find?_eq_some hfound)
    refine .call (.editTransaction env t.id st.userId newAmt.val newNote) rfl rfl
      ⟨ht, newAmt.property⟩ rfl fun reply => ?_
    cases reply with
    | failure message => exact .ret _ (by rintro h; cases h)
    | success _ => exact .log (.editTransaction ..) List.mem_cons_self (.inl ⟨_, rfl⟩)
  | delete env logEnv filterCust txnId =>
    refine .listed fun customers hlists => ?_
    split
    · exact .ret _
    next hne =>
    refine .history hlists (hoffered customers hlists hne) fun txns hentry => ?_
    split
    · exact .ret _
    next t hfound =>
    have ht := hentry t (List.mem_of_find?_eq_some hfound)
    refine .call (.deleteTransaction env t.id st.userId) rfl rfl ht rfl fun reply => ?_
    cases reply with
    | failure message => exact .ret _ (by rintro h; cases h)
    | success _ => exact .log (.deleteTransaction ..) List.mem_cons_self (.inl ⟨_, rfl⟩)

theorem plan_showReminders (hsends : T.Sends) (e : RemindersEvent) :
    Plan set (.page (.reminders e)) st.userId T (showReminders set st e) := by
  cases e with
  | send logEnv channel =>
    refine .defaulters fun defaulters => ?_
    split
    · exact .ret _
    refine .reminders hsends fun results => ?_
    exact .note List.mem_cons_self (.inr ⟨hsends, uses_showResults _ _ _⟩)

theorem plan_showActivityLog (e : ActivityEvent) :
    Plan set (.page (.activity e)) st.userId T (showActivityLog set st e) := by
  cases e with
  | clear logEnv =>
    refine .logs fun logs => ?_
    split
    · exact .ret _
    · exact .clear List.mem_cons_self

end Pages

/-! ### The calls of a page -/

/-- A name that is chosen is that of a customer on the list, or is not found. -/
theorem custItem_cases (customers : List (CustomerDoc String)) (name : String) :
    custItem customers name = .raise (.keyError name) ∨
      ∃ cust ∈ customers, custItem customers name = .ret cust := by
  rw [custItem]
  cases hlookup : (custMap customers).lookup name with
  | none => exact .inl rfl
  | some cust => exact .inr ⟨cust, (Keyed.of_lookup_ofList hlookup).1, rfl⟩

/-- The calls satisfy `P` that the pages of `m` may make, and that send messages if `sends`. -/
structure Admits (set : Setting) (m : String) (sends : Prop) (P : PageCall → Prop) : Prop where
  call : ∀ call : Call, call.merchantId = m → call.Planned set (.any sends) →
    Uses (fun c => P (.app (.ledger c))) (call.code set.bcrypt)
  score : ∀ now cid, Uses (fun c => P (.app (.ledger c))) (computeCreditScore now cid)
  customers : ∀ q, P (.app (.ledger (.customers (.find q))))
  transactions : ∀ q, P (.app (.ledger (.transactions (.find q))))
  reminders : sends → ∀ channel,
    Uses P (Script.ofApp (runMonthlyReminders set.environ (some m) channel))
  request : sends → ∀ r, P (.app (.request r))
  readLog : ∀ q, P (.logs (.find q))
  clearLog : ∀ q, P (.logs (.deleteMany q))
  log : ∀ l : LogEntry, l.merchantId = m → P (.logs (.insertOne l))

section Uses

variable {set : Setting} {t : Trigger} {m : String} {sends : Prop} {T : Terms}
  {P : PageCall → Prop}

theorem Tail.uses {α : Type} {p : Script α} (hp : Tail T p)
    (hrequest : T.Sends → ∀ r, P (.app (.request r))) : Uses P p := by
  rcases hp with ⟨a, rfl⟩ | ⟨hsends, hp⟩
  · exact .ret a
  · refine hp.mono fun c hc => ?_
    rcases c with (c | op | r) | op | st
    · exact hc.elim
    · exact hc.elim
    · exact hrequest hsends r
    · exact hc.elim
    · exact hc.elim

theorem Closes.uses {p : Script (List Notice)} {call : Call} {o : Outcome}
    (hp : Closes t m T call o p) (hrequest : T.Sends → ∀ r, P (.app (.request r)))
    (hlog : ∀ l : LogEntry, l.merchantId = m → l.id ∈ t.logIssued → P (.logs (.insertOne l))) :
    Uses P p := by
  cases hp with
  | ret notices ho => exact .ret notices
  | log hrec hid hf => exact Uses.bind (Uses.perform (hlog _ rfl hid)) fun _ => hf.uses hrequest

theorem uses_recalculate {Q : DbCall → Prop}
    (hscore : ∀ now cid, Uses Q (computeCreditScore now cid)) (env : Env) (k : ℕ)
    (customers : List (CustomerDoc String)) : Uses Q (recalculate env k customers) := by
  induction customers generalizing k with
  | nil => exact .ret _
  | cons c customers ih => exact (hscore _ _).bind fun _ => ih (k + 1)

/-- **The calls of a page** are those of the operations it makes, reads, messages, and entries
of the log. -/
theorem uses_plan {p : Script (List Notice)} (hp : Plan set t m (.any sends) p)
    (h : Admits set m sends P) : Uses P p := by
  have hlist : ∀ q, Uses (fun c => P (.app (.ledger c))) (CustomersCol.find q) := fun q =>
    uses_query (h.customers q)
  have hhistory : ∀ cid, Uses (fun c => P (.app (.ledger c))) (getTransactions m cid) := fun cid =>
    Uses.bind (uses_query (h.transactions _)) fun _ => .ret _
  induction hp with
  | ret notices => exact .ret notices
  | listed hf ih => exact (uses_ofDb ((hlist _).bind fun _ => .ret _)).bind fun _ => ih _ trivial
  | @chosen customers name f hlists hname hf ih =>
    rcases custItem_cases customers name with heq | ⟨cust, hcust, heq⟩
    · rw [heq]
      exact .raise _
    · rw [heq]
      exact ih cust hcust
  | history hlists hentry hf ih =>
    refine Uses.bind ?_ fun txns => ih txns fun _ _ => trivial
    unfold showHistory
    split
    · rw [Script.ofApp_bind]
      exact (uses_custItem _ _).bind fun cust => uses_ofDb (hhistory _)
    · exact uses_ofDb (hhistory _)
  | call call hcode hm hplanned hids hf =>
    have hp := h.call call hm hplanned
    rw [hcode] at hp
    exact (uses_ofDb hp.of_map).bind fun a => (hf a).uses h.request fun l hl _ => h.log l hl
  | recalculate hlists =>
    exact (uses_ofDb (uses_recalculate h.score _ _ _)).bind fun _ => .ret _
  | defaulters hf ih =>
    exact (uses_ofDb ((hlist _).bind fun _ => .ret _)).bind fun defaulters => ih defaulters
  | reminders hsends hf ih => exact (h.reminders hsends _).bind fun results => ih results
  | note hlog hf => exact Uses.bind (Uses.perform (h.log _ rfl)) fun _ => hf.uses h.request
  | logs hf ih =>
    exact Uses.bind (Uses.bind (Uses.perform (h.readLog _)) fun _ => .ret _) fun _ => ih _
  | clear hlog =>
    refine Uses.bind (Uses.bind (Uses.perform (h.clearLog _)) fun _ => .ret _) fun _ => ?_
    exact Uses.bind (Uses.perform (h.log _ rfl)) fun _ => .ret _

end Uses

end DigitalLedger
