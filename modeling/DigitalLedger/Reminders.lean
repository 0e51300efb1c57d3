import DigitalLedger.Analytics
import DigitalLedger.World

/-!
# Reminders

The functions of `reminders.py`: text messages are sent by a `POST` to Twilio, and their
delivery is looked up by up to three `GET`s.  Which exceptions are caught depends on where
they are raised: those of `urlopen` and of decoding the body of a success are answered by a
dictionary, those of decoding the body of an `HTTPError` are not caught.

## Main definitions

* `Environ` — the variables of the process environment.
* `twilioRequest`, `friendlyTwilioError`, `maybeCheckMessageStatus` — the helpers.
* `sendSms`, `sendWhatsapp` — sending one message.
* `runMonthlyReminders` — sending a reminder to every customer who owes money.
-/

namespace DigitalLedger

/-- The variables of the process environment that `os.getenv` reads. -/
structure Environ where
  twilioAccountSid : Option String
  twilioAuthToken : Option String
  twilioPhoneNumber : Option String
  twilioWhatsappNumber : Option String

/-- An environment without variables. -/
def Environ.empty : Environ := ⟨none, none, none, none⟩

/-- The variables of an account with a sender number. -/
def Environ.sample : Environ := ⟨some "AC1", some "token", some "+1555", none⟩

/-- The value of a variable that is set and not empty. -/
def nonempty (value : Option String) : Option String := value.filter fun text => text ≠ ""

/-! ### Requests to Twilio -/

/-- `_get_twilio_credentials` -/
def getTwilioCredentials (environ : Environ) : App (String × String) :=
  match nonempty environ.twilioAccountSid, nonempty environ.twilioAuthToken with
  | some sid, some token => .ret (sid, token)
  | _, _ => .raise (.environmentError "Twilio credentials not set in .env")

/-- The table of `_friendly_twilio_error`. -/
def knownErrors (code : ℚ) : Option String :=
  if code = 21608 then
    some ("SMS blocked by Twilio trial limits. Trial accounts can only send SMS " ++
      "to phone numbers you verify in the Twilio console.")
  else if code = 30044 then
    some ("SMS failed because the message is too long for your Twilio trial account. " ++
      "Use a shorter SMS body or upgrade the account.")
  else if code = 63015 then
    some ("WhatsApp delivery failed. This number likely has not joined your " ++
      "Twilio WhatsApp sandbox yet.")
  else none

/-- `known.get(code, message)` of a key that can be looked up. -/
def errorDetail (code message : Value) : Value :=
  match code with
  | .number (some value) _ => ((knownErrors value).map Value.str).getD message
  | _ => message

/-- `_friendly_twilio_error` -/
def friendlyTwilioError (code message : Value) : App Value :=
  match code with
  | .container typeName _ _ => .raise (.typeError s!"unhashable type: '{typeName}'")
  | _ =>
    let detail := errorDetail code message
    let codeText := code.toStr
    let detailText := detail.toStr
    .ret (if code.truthy then .str s!"Twilio error {codeText}: {detailText}" else detail)

/-- `{"success": False, "error": error}` -/
def failureDict (error : Value) : Dict := [("success", .bool false), ("error", error)]

/-- What `_twilio_request` makes of the answer to its request. -/
def readResponse (response : Response) : App Payload :=
  match response with
  | .ok (.ok payload) => .ret payload
  -- the `ValueError` of a body that is no JSON is caught by the last handler
  | .ok (.error text) => .ret (.dict (failureDict (.str text)))
  -- raised inside a handler, these are not caught
  | .httpError (.error text) => .raise (.valueError text)
  | .httpError (.ok (.other typeName)) => .raise (.attributeError typeName "get")
  | .httpError (.ok (.dict payload)) => do
    let code := payload.getD "code" .none
    let message := payload.getD "message" (.str "Unknown Twilio error")
    let friendly ← friendlyTwilioError code message
    return .dict (failureDict friendly ++ [("error_code", code)])
  | .failure text => .ret (.dict (failureDict (.str text)))

/-- The request `_twilio_request` makes. -/
def buildRequest (sid token method path : String) (data : Option (List (String × String))) :
    Request where
  method := method
  url := s!"https://api.twilio.com/2010-04-01/Accounts/{sid}{path}"
  credentials := s!"{sid}:{token}"
  data := data

/-- `_twilio_request` -/
def twilioRequest (environ : Environ) (method path : String)
    (data : Option (List (String × String))) : App Payload := do
  let (sid, token) ← getTwilioCredentials environ
  let response ← urlopen (buildRequest sid token method path data)
  readResponse response

/-- The dictionary a payload is, where its `get` is called. -/
def Payload.entries (payload : Payload) : App Dict :=
  match payload with
  | .dict entries => .ret entries
  | .other typeName => .raise (.attributeError typeName "get")

/-- `payload.get("success", True)`, as a condition. -/
def Dict.succeeds (d : Dict) : Bool := (d.getD "success" (.bool true)).truthy

/-- `d[key]` -/
def Dict.item (d : Dict) (key : String) : App Value :=
  match d.get? key with
  | some value => .ret value
  | none => .raise (.keyError key)

/-- The loop of `_maybe_check_message_status`, with `n` rounds left. -/
def checkMessageStatus (environ : Environ) (messageSid : Value) : ℕ → App (Option Dict)
  | 0 => .ret none
  | n + 1 => do
    let text := messageSid.toStr
    let payload ← twilioRequest environ "GET" s!"/Messages/{text}.json" none
    let payload ← payload.entries
    if payload.succeeds = false then
      return some payload
    else
      let status := payload.getD "status" .none
      if status = .str "delivered" then
        return some [("success", .bool true), ("sid", messageSid), ("status", status)]
      else if status = .str "failed" then
        let code := payload.getD "error_code" .none
        let message := payload.getD "error_message" .none
        let friendly ← friendlyTwilioError code
          (if message.truthy then message else .str "Delivery failed")
        return some (failureDict friendly ++ [("error_code", code)])
      else
        -- any other status: wait, and ask again
        checkMessageStatus environ messageSid n

/-- `_maybe_check_message_status` -/
def maybeCheckMessageStatus (environ : Environ) (messageSid : Value) : App (Option Dict) :=
  checkMessageStatus environ messageSid 3

/-- What `send_sms` and `send_whatsapp` do with the answer to the message. -/
def followMessage (environ : Environ) (payload : Payload) : App Dict := do
  let payload ← payload.entries
  if payload.succeeds = false then
    return payload
  else
    let sid ← payload.item "sid"
    match ← maybeCheckMessageStatus environ sid with
    | some checked => return checked
    -- three rounds without a final status
    | none =>
      return [("success", .bool true), ("sid", sid),
        ("status", payload.getD "status" (.str "queued"))]

/-- What `send_sms` and `send_whatsapp` do once the sender and the addressee are known. -/
def postMessage (environ : Environ) (sender addressee message : String) : App Dict := do
  let payload ← twilioRequest environ "POST" "/Messages.json"
    (some [("Body", message), ("From", sender), ("To", addressee)])
  followMessage environ payload

/-- `send_sms` -/
def sendSms (environ : Environ) (toNumber message : String) : App Dict :=
  match nonempty environ.twilioPhoneNumber with
  | none => .ret (failureDict (.str "TWILIO_PHONE_NUMBER is not set in .env"))
  | some fromNumber => postMessage environ fromNumber toNumber message

/-- The address of a number on WhatsApp. -/
def whatsappAddress (toNumber : String) : String :=
  if "whatsapp:".isPrefixOf toNumber then toNumber else s!"whatsapp:{toNumber}"

/-- `send_whatsapp` -/
def sendWhatsapp (environ : Environ) (toNumber message : String) : App Dict :=
  postMessage environ (environ.twilioWhatsappNumber.getD "whatsapp:+14155238886")
    (whatsappAddress toNumber) message

/-! Sending a message makes requests and nothing else. -/

section Requests

open Prog

theorem uses_getTwilioCredentials (P : AppCall → Prop) (environ : Environ) :
    Uses P (getTwilioCredentials environ) := by
  unfold getTwilioCredentials
  split
  · exact .ret _
  · exact .raise _

theorem uses_friendlyTwilioError (P : AppCall → Prop) (code message : Value) :
    Uses P (friendlyTwilioError code message) := by
  unfold friendlyTwilioError
  split
  · exact .raise _
  · exact .ret _

theorem uses_entries (P : AppCall → Prop) (payload : Payload) : Uses P payload.entries := by
  cases payload with
  | dict entries => exact .ret _
  | other typeName => exact .raise _

theorem uses_item (P : AppCall → Prop) (d : Dict) (key : String) : Uses P (d.item key) := by
  unfold Dict.item
  split
  · exact .ret _
  · exact .raise _

theorem uses_readResponse (P : AppCall → Prop) (response : Response) :
    Uses P (readResponse response) := by
  rcases response with (text | payload) | (text | payload | typeName) | text
  · exact .ret _
  · exact .ret _
  · exact .raise _
  · exact (uses_friendlyTwilioError P _ _).bind fun friendly => .ret _
  · exact .raise _
  · exact .ret _

theorem uses_twilioRequest {P : AppCall → Prop} (environ : Environ) (method path : String)
    {data : Option (List (String × String))} (hP : ∀ r, r.data = data → P (.request r)) :
    Uses P (twilioRequest environ method path data) :=
  (uses_getTwilioCredentials P environ).bind fun _ =>
    (Uses.perform (hP _ rfl)).bind fun response => uses_readResponse P response

theorem uses_checkMessageStatus {P : AppCall → Prop} (hP : ∀ r, r.data = none → P (.request r))
    (environ : Environ) (messageSid : Value) (n : ℕ) :
    Uses P (checkMessageStatus environ messageSid n) := by
  induction n with
  | zero => exact .ret _
  | succ n ih =>
    refine (uses_twilioRequest environ _ _ hP).bind fun payload => ?_
    refine (uses_entries P payload).bind fun payload => ?_
    dsimp only
    split
    · exact .ret _
    · split
      · exact .ret _
      · split
        · exact (uses_friendlyTwilioError P _ _).bind fun friendly => .ret _
        · exact ih

theorem uses_followMessage {P : AppCall → Prop} (hP : ∀ r, r.data = none → P (.request r))
    (environ : Environ) (payload : Payload) : Uses P (followMessage environ payload) := by
  refine (uses_entries P payload).bind fun payload => ?_
  split
  · exact .ret _
  · refine (uses_item P payload "sid").bind fun sid => ?_
    refine (uses_checkMessageStatus hP environ sid 3).bind fun checked => ?_
    cases checked with
    | none => exact .ret _
    | some checked => exact .ret _

theorem uses_postMessage (environ : Environ) (sender addressee message : String) :
    Uses AppCall.IsRequest (postMessage environ sender addressee message) :=
  (uses_twilioRequest environ _ _ fun _ _ => trivial).bind fun payload =>
    uses_followMessage (fun _ _ => trivial) environ payload

theorem uses_sendSms (environ : Environ) (toNumber message : String) :
    Uses AppCall.IsRequest (sendSms environ toNumber message) := by
  unfold sendSms
  split
  · exact .ret _
  · exact uses_postMessage environ _ toNumber message

end Requests

/-! ### The monthly reminders -/

/-- `f"{x:.2f}"` of an exact amount. -/
def twoDecimals (x : ℚ) : String :=
  let cents := (roundHalfEven (100 * x)).natAbs
  let sign := if x < 0 then "-" else ""
  let units := toString (cents / 100)
  let rest := if cents % 100 < 10 then "0" ++ toString (cents % 100) else toString (cents % 100)
  s!"{sign}{units}.{rest}"

/-- `_build_sms_reminder_message` -/
def buildSmsReminderMessage (businessName customerName : String) (balance : ℚ) : String :=
  let amount := twoDecimals balance
  s!"Reminder from {businessName}: {customerName}, due Rs {amount}. Please pay soon."

/-- `build_reminder_message` -/
def buildReminderMessage (businessName customerName : String) (balance : ℚ) : String :=
  let amount := twoDecimals balance
  s!"Dear {customerName},\n\nThis is a friendly reminder from {businessName}. " ++
    s!"You have an outstanding balance of ₹{amount}. " ++
    "Please make your payment at your earliest convenience.\n\nThank you!"

/-- A dictionary of the list `run_monthly_reminders` returns. -/
structure ReminderResult where
  customer : String
  phone : String
  balance : ℚ
  status : String
  detail : Value
  deriving DecidableEq

/-- `ObjectId(text)` in a program of the application. -/
def objectIdApp (text : String) : App ObjectId := App.ofDb (objectId text)

/-- The business name of a merchant; whatever goes wrong, it is "Your Merchant". -/
def reminderBusinessName (merchantId : String) : App String :=
  Prog.catchWith
    (do
      let oid ← objectIdApp merchantId
      match ← UsersCol.findOne { id := some oid } with
      | none => return "Your Merchant"
      | some merchant => return merchant.businessName)
    fun _ => .ret "Your Merchant"

/-- The message a customer is sent. -/
def sendReminder (environ : Environ) (channel bizName : String) (customer : Customer) :
    App Dict :=
  if channel = "whatsapp" then
    sendWhatsapp environ customer.phone
      (buildReminderMessage bizName customer.name customer.balance)
  else
    sendSms environ customer.phone
      (buildSmsReminderMessage bizName customer.name customer.balance)

/-- The dictionary of a customer in the list of results. -/
def reminderResult (customer : Customer) (success : Value) (result : Dict) : ReminderResult :=
  let sid := result.getD "sid" .none
  { customer := customer.name
    phone := customer.phone
    balance := customer.balance
    status := if success.truthy then "sent" else "failed"
    detail := if sid.truthy then sid else result.getD "error" .none }

/-- The body of the loop. -/
def remind (environ : Environ) (channel : String) (customer : Customer) : App ReminderResult := do
  let bizName ← reminderBusinessName customer.merchantId
  let result ← sendReminder environ channel bizName customer
  let success ← result.item "success"
  return reminderResult customer success result

/-- The loop over the customers. -/
def remindAll (environ : Environ) (channel : String) : List Customer → App (List ReminderResult)
  | [] => .ret []
  | customer :: customers => do
    let result ← remind environ channel customer
    let results ← remindAll environ channel customers
    return result :: results

/-- The query of `run_monthly_reminders`; neither `None` nor the empty text filters by
merchant. -/
def defaultersQuery (merchantId : Option String) : CustomerQuery :=
  { balanceGt := some 0, merchantId := nonempty merchantId }

/-- `run_monthly_reminders` -/
def runMonthlyReminders (environ : Environ) (merchantId : Option String) (channel : String) :
    App (List ReminderResult) := do
  let defaulters ← App.ofDb (CustomersCol.find (defaultersQuery merchantId))
  remindAll environ channel defaulters

end DigitalLedger
