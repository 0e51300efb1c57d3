import DigitalLedger.Accounts
import DigitalLedger.ActivityLog
import DigitalLedger.Categories
import DigitalLedger.Receipts
import DigitalLedger.Selectors

/-!
# The pages

Streamlit runs `app.py` from its first line whenever the user of a browser session does
something, with the session state as the run before has left it.  A run shows one page, and
what was done is the answer of one of the widgets of that page; the run of a page is given
here by what it does with that answer.  What a page only shows is left out, except where
the answer depends on it.

## Main definitions

* `Setting` — what all runs share: the libraries and the process environment.
* `AuthEvent`, `PortalEvent`, `SidebarEvent`, `CustomersEvent`, `TransactionsEvent`,
  `RemindersEvent`, `ActivityEvent` — what can be done on each page.
* `showAuthPage`, `showCustomerPortal`, `showSidebar`, `showCustomers`, `showTransactions`,
  `showReminders`, `showActivityLog` — the pages.
* `main` — the choice of the page.
-/

namespace DigitalLedger

/-- What the runs share: the hashing library, the process environment, the characters that
are digits to `str.isdigit`, and how the database sorts the log. -/
structure Setting where
  bcrypt : Bcrypt
  environ : Environ
  digit : Char → Bool
  order : LogSort

/-- A message a page shows. -/
inductive Notice
  | success (text : String)
  | info (text : String)
  | warning (text : String)
  | error (text : String)
  deriving DecidableEq

/-- `text.isdigit()` -/
def isdigit (digit : Char → Bool) (text : String) : Bool := text != "" && text.toList.all digit

/-- The choices of channel. -/
inductive Channel
  | whatsapp
  | sms
  deriving DecidableEq

def Channel.str : Channel → String
  | .whatsapp => "whatsapp"
  | .sms => "sms"

/-- What `st.number_input` returns with `min_value=0.01`. -/
abbrev InputAmount := {amount : ℚ // 1 / 100 ≤ amount}

/-- `txn_type.capitalize()` -/
def TxnType.capitalize : TxnType → String
  | .credit => "Credit"
  | .payment => "Payment"

/-! ### The page of a visitor -/

inductive AuthEvent
  /-- The form of the tab "Merchant Login". -/
  | login (logEnv : Env) (username password : String)
  /-- The form of the tab "Register". -/
  | register (env : Env) (newUser bizName phone newPass confPass : String)
  /-- The form of the tab "Customer Portal". -/
  | customerLogin (cphone cpin : String)
  /-- The forms of the tab "Forgot Password", with the two buttons of the second. -/
  | sendOtp (env : OtpEnv) (fpPhone : String)
  | resetPassword (env : Env) (otp newPass conf : String)
  | back

/-- `show_auth_page` -/
def showAuthPage (set : Setting) (st : SessionState) : AuthEvent → Script (List Notice)
  | .login logEnv username password => do
    match ← Script.ofApp (loginUser set.bcrypt username password) with
    | .failure message => return [.error message]
    | .success res =>
      setSession { st with
        loggedIn := true
        userId := res.userId
        username := res.username
        businessName := res.businessName
        mode := .merchant }
      logAction logEnv res.userId "LOGIN" s!"User {username} logged in"
      return []
  | .register env newUser bizName phone newPass confPass =>
    if newPass ≠ confPass then return [.error "Passwords do not match."]
    else if newUser = "" ∨ bizName = "" ∨ phone = "" ∨ newPass = "" then
      return [.error "All fields are required."]
    else do
      match ← Script.ofApp (registerUser set.bcrypt env newUser newPass bizName phone) with
      | .failure message => return [.error message]
      | .success _ => return [.success "Account created! Please login."]
  | .customerLogin cphone cpin => do
    match ← Script.ofDb (customerPortalLogin set.bcrypt cphone cpin) with
    | .failure message => return [.error message]
    | .success customer =>
      setSession { st with custLoggedIn := true, custData := some customer, mode := .customer }
      return []
  | .sendOtp env fpPhone =>
    -- the form is shown until a code is sent
    if st.otpSent then return []
    else do
      match ← Script.ofApp (sendOtpToPhone set.environ env fpPhone) with
      | .failure message => return [.error message]
      | .success res =>
        setSession { st with otpPhone := fpPhone, otpSent := true }
        return [.success res.message]
  | .resetPassword env otp newPass conf =>
    if st.otpSent = false then return []
    else if newPass ≠ conf then return [.error "Passwords don't match."]
    else do
      match ← Script.ofApp (resetPasswordWithOtp set.bcrypt env st.otpPhone otp newPass) with
      | .failure message => return [.error message]
      | .success _ =>
        setSession { st with otpSent := false, otpPhone := "" }
        return [.success "Password reset! Please login."]
  | .back =>
    if st.otpSent = false then return []
    else do
      setSession { st with otpSent := false }
      return []

/-! ### The page of a customer -/

inductive PortalEvent
  | logout

/-- `show_customer_portal` -/
def showCustomerPortal (st : SessionState) : PortalEvent → Script (List Notice)
  | .logout => do
    setSession { st with custLoggedIn := false, custData := none, mode := .merchant }
    return []

/-! ### The pages of a merchant -/

inductive SidebarEvent
  | logout (logEnv : Env)

/-- `show_sidebar` -/
def showSidebar (st : SessionState) : SidebarEvent → Script (List Notice)
  | .logout logEnv => do
    logAction logEnv st.userId "LOGOUT" "User logged out"
    setSession { st with loggedIn := false, userId := "", username := "", businessName := "" }
    return []

inductive CustomersEvent
  | add (env logEnv : Env) (name phone address pin : String)
  | importCustomers (env logEnv : Env) (file : Except String DataFrame)
  | recalculateAll (env : Env)
  /-- The form and the button under the entry of a customer. -/
  | updatePin (env logEnv : Env) (customerId newPin : String)
  | delete (logEnv : Env) (customerId : String)

/-- `show_customers` -/
def showCustomers (set : Setting) (st : SessionState) : CustomersEvent → Script (List Notice)
  | .add env logEnv name phone address pin =>
    let mid := st.userId
    if name = "" ∨ phone = "" then return [.error "Name and phone are required."]
    else if pin ≠ "" ∧ (isdigit set.digit pin = false ∨ pin.length ≠ 4) then
      return [.error "PIN must be exactly 4 digits."]
    else do
      match ← Script.ofDb (addCustomer set.bcrypt env mid name phone address pin) with
      | .failure message => return [.error message]
      | .success _ =>
        logAction logEnv mid "ADD_CUSTOMER" s!"Added {name} ({phone})"
        return [.success s!"Customer '{name}' added!"]
  | .importCustomers env logEnv file => do
    let mid := st.userId
    match ← Script.ofDb (importCustomersFromExcel set.bcrypt env mid file) with
    | .failure message => return [.error message]
    | .success r =>
      let added := r.added
      let failed := r.failed
      logAction logEnv mid "BULK_IMPORT" s!"{added} customers imported"
      return [.success s!"✅ {added} customers added, {failed} failed."]
  | .recalculateAll env => do
    let customers ← Script.ofDb (getCustomers st.userId)
    if customers = [] then
      return [.info "No customers yet. Add your first customer."]
    else
      Script.ofDb (recalculate env 0 customers)
      return [.success "✅ All credit scores updated!"]
  | .updatePin env logEnv customerId newPin => do
    let mid := st.userId
    let customers ← Script.ofDb (getCustomers mid)
    match customers.find? fun c => c.id = customerId with
    | none => return []
    | some c =>
      if newPin ≠ "" ∧ isdigit set.digit newPin = true ∧ newPin.length = 4 then
        let name := c.name
        -- what the update reports is not looked at
        let _ ← Script.ofDb (updateCustomerPin set.bcrypt env c.id mid newPin)
        logAction logEnv mid "UPDATE_PIN" s!"Updated PIN for {name}"
        return [.success "PIN updated!"]
      else
        return [.error "PIN must be 4 digits."]
  | .delete logEnv customerId => do
    let mid := st.userId
    let customers ← Script.ofDb (getCustomers mid)
    match customers.find? fun c => c.id = customerId with
    | none => return []
    | some c =>
      match ← Script.ofDb (deleteCustomer c.id mid) with
      | .failure _ => return []
      | .success _ =>
        let name := c.name
        logAction logEnv mid "DELETE_CUSTOMER" s!"Deleted {name}"
        return [.success "Customer deleted."]

inductive TransactionsEvent
  /-- The form; the receipt, if any, goes through a channel. -/
  | record (env logEnv : Env) (custName : String) (txnType : TxnType) (amount : InputAmount)
      (note : String) (receipt : Option Channel)
  /-- The form and the button under the entry of a transaction, in the history of `filterCust`. -/
  | edit (env logEnv : Env) (filterCust txnId : String) (newAmt : InputAmount) (newNote : String)
  | delete (env logEnv : Env) (filterCust txnId : String)

/-- What follows a recorded transaction: the receipt. -/
def sendRcpt (set : Setting) (st : SessionState) (cust : CustomerDoc String) (custName : String)
    (txnType : TxnType) (amount newBalance : ℚ) : Option Channel → Script (List Notice)
  | none => return []
  | some channel => do
    let rcpt ← Script.ofApp (sendReceipt set.environ st.businessName custName cust.phone
      txnType.str amount newBalance channel.str)
    if (rcpt.getD "success" .none).truthy then
      let via := channel.str
      return [.info s!"📲 Receipt sent via {via}!"]
    else
      return [.warning "Receipt send failed — check Twilio config."]

/-- `show_transactions` -/
def showTransactions (set : Setting) (st : SessionState) :
    TransactionsEvent → Script (List Notice)
  | .record env logEnv custName txnType amount note receipt => do
    let mid := st.userId
    let customers ← Script.ofDb (getCustomers mid)
    if customers = [] then
      return [.info "Add customers first."]
    else
      let cust ← Script.ofApp (custItem customers custName)
      match ← Script.ofDb (addTransaction env mid cust.id txnType.str amount.val note) with
      | .failure message => return [.error message]
      | .success newBalance =>
        let kind := txnType.capitalize
        let text := twoDecimals amount.val
        let type := txnType.str
        logAction logEnv mid "ADD_TXN" s!"{kind} ₹{text} for {custName}"
        let notices ← sendRcpt set st cust custName txnType amount.val newBalance receipt
        return .success s!"✅ Recorded ₹{text} {type} for {custName}" :: notices
  | .edit env logEnv filterCust txnId newAmt newNote => do
    let mid := st.userId
    let customers ← Script.ofDb (getCustomers mid)
    if customers = [] then
      return [.info "Add customers first."]
    else
      let txns ← Script.ofApp (showHistory mid customers filterCust)
      match txns.find? fun t => t.id = txnId with
      | none => return []
      | some t =>
        match ← Script.ofDb (editTransaction env t.id mid newAmt.val newNote) with
        | .failure message => return [.error message]
        | .success _ =>
          let tid := t.id
          logAction logEnv mid "EDIT_TXN" s!"Edited txn {tid}"
          return [.success "Transaction updated."]
  | .delete env logEnv filterCust txnId => do
    let mid := st.userId
    let customers ← Script.ofDb (getCustomers mid)
    if customers = [] then
      return [.info "Add customers first."]
    else
      let txns ← Script.ofApp (showHistory mid customers filterCust)
      match txns.find? fun t => t.id = txnId with
      | none => return []
      | some t =>
        match ← Script.ofDb (deleteTransaction env t.id mid) with
        | .failure _ => return []
        | .success _ =>
          let name := t.customerName
          logAction logEnv mid "DELETE_TXN" s!"Deleted txn for {name}"
          return [.success "Transaction deleted."]

inductive RemindersEvent
  | send (logEnv : Env) (channel : Channel)

/-- The table of the reminders, and what is said under it; a table without rows has no columns
that could be renamed. -/
def showResults (sent total : ℕ) : List ReminderResult → Script (List Notice)
  | [] => .raise (.valueError
      "Length mismatch: Expected axis has 0 elements, new values have 5 elements")
  | _ => return [.success s!"✅ {sent}/{total} reminders sent."]

theorem uses_showResults {P : PageCall → Prop} (sent total : ℕ) (results : List ReminderResult) :
    Prog.Uses P (showResults sent total results) := by
  cases results with
  | nil => exact .raise _
  | cons r results => exact .ret _

/-- `show_reminders` -/
def showReminders (set : Setting) (st : SessionState) : RemindersEvent → Script (List Notice)
  | .send logEnv channel => do
    let mid := st.userId
    let defaulters ← Script.ofDb (getDefaulters mid)
    if defaulters = [] then
      return [.success "No outstanding balances — nothing to remind!"]
    else
      let results ← Script.ofApp (runMonthlyReminders set.environ (some mid) channel.str)
      let sent := results.countP fun r => r.status = "sent"
      let total := results.length
      let via := channel.str
      logAction logEnv mid "SEND_REMINDERS" s!"Sent {sent}/{total} reminders via {via}"
      showResults sent total results

inductive ActivityEvent
  | clear (logEnv : Env)

/-- `show_activity_log` -/
def showActivityLog (set : Setting) (st : SessionState) : ActivityEvent → Script (List Notice)
  | .clear logEnv => do
    let mid := st.userId
    let logs ← getLogs set.order mid defaultLimit
    if logs = [] then
      return [.info "No activity recorded yet."]
    else
      clearLogs mid
      logAction logEnv mid "CLEAR_LOG" "Activity log cleared"
      return []

/-! ### The choice of the page -/

/-- What the user of a session does. -/
inductive PageEvent
  | auth (e : AuthEvent)
  | portal (e : PortalEvent)
  | sidebar (e : SidebarEvent)
  | customers (e : CustomersEvent)
  | transactions (e : TransactionsEvent)
  | reminders (e : RemindersEvent)
  | activity (e : ActivityEvent)

/-- `main`; what the page shown does not offer is not done. -/
def main (set : Setting) (st : SessionState) (e : PageEvent) : Script (List Notice) :=
  if st.mode = .customer ∧ st.custLoggedIn = true then
    match e with
    | .portal e => showCustomerPortal st e
    | _ => return []
  else if st.loggedIn = false then
    match e with
    | .auth e => showAuthPage set st e
    | _ => return []
  else
    match e with
    | .sidebar e => showSidebar st e
    | .customers e => showCustomers set st e
    | .transactions e => showTransactions set st e
    | .reminders e => showReminders set st e
    | .activity e => showActivityLog set st e
    | _ => return []

end DigitalLedger
