import DigitalLedger.Reminders
import DigitalLedger.Runs

/-!
# The monthly reminders as a batch

`run_monthly_reminders` sends to one customer after the other and collects the results.
Refused messages are results like any other, but some answers of Twilio raise an exception
that nothing catches: the error body that is not the expected JSON, and the missing entry
of a success.  Then the batch ends, and with it the results of the customers before.

## Main definitions

* `Acceptable` — an answer to a request that raises no exception, then or later.
* `Answered` — the gateway's next answer is acceptable.
* `Ready` — sending finds its credentials, or makes no request.
* `Completes` — the batch returns one result per defaulter, having sent to each.

## Main results

* `exact_postMessage` — one message is sent without an exception exactly if each request is
  answered acceptably.
* `completes_iff` — when the batch completes.
-/

namespace DigitalLedger

open Prog

variable {w w' : World} {environ : Environ}

/-! ### Acceptable answers -/

/-- The value is one an error code can be looked up by. -/
def LooksUp (d : Dict) (key : String) : Prop := (d.getD key .none).hashable = true

instance (d : Dict) (key : String) : Decidable (LooksUp d key) :=
  inferInstanceAs (Decidable (_ = true))

/-- The answer to a request raises no exception, then or when it is looked into.  Of a
success whose body is a dictionary without failure, a `POST` needs the `sid`, and a `GET`
that reports a failure an error code that can be looked up. -/
def Acceptable (r : Request) : Response → Prop
  | .failure _ => True
  | .ok (.error _) => True
  | .ok (.ok (.other _)) => False
  | .ok (.ok (.dict d)) =>
    d.succeeds = false ∨
      if r.data.isSome then (d.get? "sid").isSome = true
      else d.getD "status" .none = .str "failed" → LooksUp d "error_code"
  | .httpError (.error _) => False
  | .httpError (.ok (.other _)) => False
  | .httpError (.ok (.dict d)) => LooksUp d "code"

/-- The gateway's answer to a call is acceptable, if the call is a request. -/
def Answered : AppCall → World → Prop
  | .request r, w => Acceptable r (w.gateway w.sent.length)
  | _, _ => True

theorem friendlyTwilioError_of_hashable {code : Value} (hcode : code.hashable = true)
    (message : Value) : ∃ detail, friendlyTwilioError code message = .ret detail := by
  cases code with
  | container typeName full text => exact absurd hcode (by simp [Value.hashable])
  | none => exact ⟨_, rfl⟩
  | bool b => exact ⟨_, rfl⟩
  | number value text => exact ⟨_, rfl⟩
  | str text => exact ⟨_, rfl⟩

theorem friendlyTwilioError_of_not_hashable {code : Value} (hcode : code.hashable ≠ true)
    (message : Value) : ∃ e, friendlyTwilioError code message = .raise e := by
  cases code with
  | container typeName full text => exact ⟨_, rfl⟩
  | none => exact absurd rfl hcode
  | bool b => exact absurd rfl hcode
  | number value text => exact absurd rfl hcode
  | str text => exact absurd rfl hcode

/-- What `_twilio_request` makes of an answer: an exception, a failure, or the body of a
success. -/
theorem readResponse_cases (response : Response) :
    (∃ e, readResponse response = .raise e ∧ ∀ r, ¬Acceptable r response) ∨
      (∃ d : Dict, readResponse response = .ret (.dict d) ∧ d.succeeds = false ∧
        ∀ r, Acceptable r response) ∨
      ∃ payload, response = .ok (.ok payload) ∧ readResponse response = .ret payload := by
  rcases response with (text | payload) | (text | payload | typeName) | text
  · exact .inr (.inl ⟨_, rfl, rfl, fun r => trivial⟩)
  · exact .inr (.inr ⟨payload, rfl, rfl⟩)
  · exact .inl ⟨_, rfl, fun r h => h⟩
  · -- an error is reported unless its code cannot be looked up in the table
    by_cases hcode : LooksUp payload "code"
    · obtain ⟨detail, hdetail⟩ := friendlyTwilioError_of_hashable hcode
        (payload.getD "message" (.str "Unknown Twilio error"))
      refine .inr (.inl ⟨failureDict detail ++ [("error_code", payload.getD "code" .none)], ?_, rfl,
        fun r => hcode⟩)
      rw [readResponse, hdetail]
      rfl
    · obtain ⟨e, he⟩ := friendlyTwilioError_of_not_hashable hcode
        (payload.getD "message" (.str "Unknown Twilio error"))
      refine .inl ⟨e, ?_, fun r h => hcode h⟩
      rw [readResponse, he]
      rfl
  · exact .inl ⟨_, rfl, fun r h => h⟩
  · exact .inr (.inl ⟨_, rfl, rfl, fun r => trivial⟩)

/-! ### One message -/

/-- A request ends well exactly if its answer is acceptable and what follows ends well. -/
theorem exact_urlopen {α : Type} {r : Request} {k : Response → App α}
    (hk : Returns execApp (k (w.gateway w.sent.length)) { w with sent := w.sent ++ [r] } ↔
      Acceptable r (w.gateway w.sent.length) ∧
        Meets execApp Answered (k (w.gateway w.sent.length)) { w with sent := w.sent ++ [r] }) :
    Exact execApp Answered (urlopen r >>= k) w := by
  rw [Exact, returns_bind, run_urlopen]
  constructor
  · rintro ⟨response, hresponse, hreturns⟩
    rw [← Except.ok.inj hresponse] at hreturns
    exact hk.mp hreturns
  · intro hmeets
    exact ⟨_, rfl, hk.mpr hmeets⟩

/-- With the credentials set, a request to Twilio is made. -/
theorem twilioRequest_eq {sid token : String}
    (hcredentials : getTwilioCredentials environ = .ret (sid, token)) (method path : String)
    (data : Option (List (String × String))) :
    twilioRequest environ method path data =
      urlopen (buildRequest sid token method path data) >>= readResponse := by
  rw [twilioRequest, hcredentials]
  rfl

/-- The rule of a request to Twilio: what follows has to end well for a failure, and for a
body exactly if that body is acceptable and its own requests are. -/
theorem exact_twilioRequest {α : Type} {sid token : String}
    (hcredentials : getTwilioCredentials environ = .ret (sid, token)) {method path : String}
    {data : Option (List (String × String))} {k : Payload → App α}
    (hfails : ∀ d : Dict, d.succeeds = false → ∃ a, k (.dict d) = .ret a)
    (hbody : ∀ payload w',
      Returns execApp (k payload) w' ↔
        Acceptable (buildRequest sid token method path data) (.ok (.ok payload)) ∧
          Meets execApp Answered (k payload) w') :
    Exact execApp Answered (twilioRequest environ method path data >>= k) w := by
  rw [twilioRequest_eq hcredentials, bind_assoc]
  refine exact_urlopen ?_
  rcases readResponse_cases (w.gateway w.sent.length) with
    ⟨e, hread, hbad⟩ | ⟨d, hread, hfailed, hgood⟩ | ⟨payload, hresponse, hread⟩
  · rw [hread]
    exact iff_of_false (not_returns_raise e) fun h => hbad _ h.1
  · obtain ⟨a, ha⟩ := hfails d hfailed
    rw [hread, ret_bind, ha]
    exact iff_of_true (returns_ret a) ⟨hgood _, trivial⟩
  · rw [hread, ret_bind, hresponse]
    exact hbody payload _

/-- Polling raises no exception exactly if each request is answered acceptably. -/
theorem exact_checkMessageStatus {sid token : String}
    (hcredentials : getTwilioCredentials environ = .ret (sid, token)) (messageSid : Value)
    (n : ℕ) (w : World) :
    Exact execApp Answered (checkMessageStatus environ messageSid n) w := by
  induction n generalizing w with
  | zero => exact .ret _
  | succ n ih =>
    rw [checkMessageStatus]
    refine exact_twilioRequest hcredentials (fun d hfails => ⟨some d, ?_⟩) fun payload w' => ?_
    · rw [Payload.entries, ret_bind, if_pos hfails]
      rfl
    · cases payload with
      | other typeName => exact iff_of_false (not_returns_raise _) fun h => h.1
      | dict d =>
        rw [Payload.entries, ret_bind]
        split
        · next hfails => exact iff_of_true (returns_ret _) ⟨.inl hfails, trivial⟩
        · next hfails =>
          dsimp only
          split
          · -- a message on its way has not failed, so its error code is not looked up
            next hdelivered =>
            refine iff_of_true (returns_ret _) ⟨.inr fun hfailed => ?_, trivial⟩
            rw [hdelivered] at hfailed
            exact absurd hfailed (by decide)
          · split
            · next hfailed =>
              by_cases hcode : LooksUp d "error_code"
              · obtain ⟨detail, hdetail⟩ := friendlyTwilioError_of_hashable hcode
                  (if (d.getD "error_message" .none).truthy then d.getD "error_message" .none
                    else .str "Delivery failed")
                rw [hdetail]
                exact iff_of_true (returns_ret _) ⟨.inr fun _ => hcode, trivial⟩
              · obtain ⟨e, he⟩ := friendlyTwilioError_of_not_hashable hcode
                  (if (d.getD "error_message" .none).truthy then d.getD "error_message" .none
                    else .str "Delivery failed")
                rw [he]
                refine iff_of_false (not_returns_raise e) fun h => ?_
                rcases h.1 with hfails' | hlooksUp
                · exact hfails hfails'
                · exact hcode (hlooksUp hfailed)
            · -- any other status is polled again
              next hother =>
              exact (ih _).trans
                ⟨fun h => ⟨.inr fun hfailed => absurd hfailed hother, h⟩, fun h => h.2⟩

/-- **One message is sent** without an exception exactly if each request is answered
acceptably. -/
theorem exact_postMessage {sid token : String}
    (hcredentials : getTwilioCredentials environ = .ret (sid, token))
    (sender addressee message : String) (w : World) :
    Exact execApp Answered (postMessage environ sender addressee message) w := by
  rw [postMessage]
  refine exact_twilioRequest hcredentials (fun d hfails => ⟨d, ?_⟩) fun payload w' => ?_
  · rw [followMessage, Payload.entries, ret_bind, if_pos hfails]
    rfl
  · rw [followMessage]
    cases payload with
    | other typeName => exact iff_of_false (not_returns_raise _) fun h => h.1
    | dict d =>
      rw [Payload.entries, ret_bind]
      split
      · next hfails => exact iff_of_true (returns_ret _) ⟨.inl hfails, trivial⟩
      · next hfails =>
        rw [Dict.item]
        cases hsid : d.get? "sid" with
        | none =>
          -- `payload["sid"]` raises
          refine iff_of_false (not_returns_raise _) fun h => ?_
          rcases h.1 with hfails' | hsome
          · exact hfails hfails'
          · have hsome : (d.get? "sid").isSome = true := hsome
            rw [hsid] at hsome
            exact absurd hsome (by simp)
        | some messageSid =>
          have hgood : ∀ r : Request, r.data.isSome = true →
              Acceptable r (.ok (.ok (.dict d))) := by
            intro r hr
            refine .inr ?_
            rw [if_pos hr, hsid]
            rfl
          dsimp only
          rw [ret_bind]
          refine Iff.trans (Exact.bind (exact_checkMessageStatus hcredentials messageSid 3 _)
            fun checked _ => ?_) ⟨fun h => ⟨hgood _ rfl, h⟩, fun h => h.2⟩
          cases checked with
          | none => exact .ret _
          | some checked => exact .ret _

/-- The dictionary says whether the message was sent. -/
def Tells (d : Dict) : Prop := (d.get? "success").isSome = true

/-- A failure is reported under the key `success`. -/
theorem tells_of_not_succeeds {d : Dict} (h : d.succeeds = false) : Tells d := by
  unfold Tells
  cases hget : d.get? "success" with
  | some value => rfl
  | none =>
    rw [Dict.succeeds, Dict.getD, hget] at h
    exact absurd h (by decide)

theorem yields_checkMessageStatus (environ : Environ) (messageSid : Value) (n : ℕ) :
    Yields (fun checked => ∀ d ∈ checked, Tells d)
      (checkMessageStatus environ messageSid n) := by
  have hsome : ∀ {d : Dict}, Tells d → ∀ d' ∈ some d, Tells d' := by
    intro d hd d' hd'
    rw [← Option.mem_some.mp hd']
    exact hd
  induction n with
  | zero =>
    intro d hd
    exact absurd hd (Option.not_mem_none d)
  | succ n ih =>
    refine (Yields.trivially _).bind fun payload _ => ?_
    refine (Yields.trivially _).bind fun payload _ => ?_
    dsimp only
    split
    · next hfails => exact hsome (tells_of_not_succeeds hfails)
    · split
      · exact hsome rfl
      · split
        · exact (Yields.trivially _).bind fun friendly _ => hsome rfl
        · exact ih

/-- What is known of a message is whether it was sent. -/
theorem yields_postMessage (environ : Environ) (sender addressee message : String) :
    Yields Tells (postMessage environ sender addressee message) := by
  refine (Yields.trivially _).bind fun payload _ => ?_
  refine (Yields.trivially _).bind fun payload _ => ?_
  split
  · next hfails => exact tells_of_not_succeeds hfails
  · refine (Yields.trivially _).bind fun sid _ => ?_
    refine (yields_checkMessageStatus environ sid 3).bind fun checked hchecked => ?_
    cases checked with
    | none => rfl
    | some d => exact hchecked d rfl

/-! ### One customer -/

/-- Sending finds its credentials, or makes no request. -/
def Ready (environ : Environ) (channel : String) : Prop :=
  (nonempty environ.twilioAccountSid).isSome = true ∧
      (nonempty environ.twilioAuthToken).isSome = true ∨
    channel ≠ "whatsapp" ∧ nonempty environ.twilioPhoneNumber = none

instance (environ : Environ) (channel : String) : Decidable (Ready environ channel) :=
  inferInstanceAs (Decidable (_ ∨ _))

theorem getTwilioCredentials_cases (environ : Environ) :
    (∃ sid token, getTwilioCredentials environ = .ret (sid, token) ∧
        (nonempty environ.twilioAccountSid).isSome = true ∧
        (nonempty environ.twilioAuthToken).isSome = true) ∨
      ∃ e, getTwilioCredentials environ = .raise e ∧
        ¬((nonempty environ.twilioAccountSid).isSome = true ∧
          (nonempty environ.twilioAuthToken).isSome = true) := by
  unfold getTwilioCredentials
  cases nonempty environ.twilioAccountSid with
  | none => exact .inr ⟨_, rfl, by simp⟩
  | some sid =>
    cases nonempty environ.twilioAuthToken with
    | none => exact .inr ⟨_, rfl, by simp⟩
    | some token => exact .inl ⟨sid, token, rfl, rfl, rfl⟩

/-- The addressees of the messages sent to a customer: one, or none for want of a sender. -/
def addressees (environ : Environ) (channel : String) (customer : Customer) : List String :=
  if channel = "whatsapp" then [whatsappAddress customer.phone]
  else if nonempty environ.twilioPhoneNumber = none then []
  else [customer.phone]

/-- Sending a message is a `POST`, or nothing is sent for want of a number. -/
theorem sendReminder_cases (environ : Environ) (channel bizName : String) (customer : Customer) :
    (∃ sender addressee message,
        sendReminder environ channel bizName customer =
          postMessage environ sender addressee message ∧
        addressees environ channel customer = [addressee] ∧
        ¬(channel ≠ "whatsapp" ∧ nonempty environ.twilioPhoneNumber = none)) ∨
      ∃ error, sendReminder environ channel bizName customer = .ret (failureDict error) ∧
        addressees environ channel customer = [] ∧
        channel ≠ "whatsapp" ∧ nonempty environ.twilioPhoneNumber = none := by
  unfold sendReminder addressees
  split
  · next hchannel => exact .inl ⟨_, _, _, rfl, rfl, fun h => h.1 hchannel⟩
  · next hchannel =>
    unfold sendSms
    cases nonempty environ.twilioPhoneNumber with
    | none => exact .inr ⟨_, rfl, rfl, hchannel, rfl⟩
    | some fromNumber => exact .inl ⟨_, _, _, rfl, rfl, fun h => absurd h.2 (by simp)⟩

theorem exact_sendReminder {channel : String} (hready : Ready environ channel) (bizName : String)
    (customer : Customer) (w : World) :
    Exact execApp Answered (sendReminder environ channel bizName customer) w := by
  rcases sendReminder_cases environ channel bizName customer with
    ⟨sender, addressee, message, hsend, -, hposts⟩ | ⟨error, hsend, -⟩
  · rw [hsend]
    rcases getTwilioCredentials_cases environ with ⟨sid, token, hcredentials, -⟩ | ⟨e, -, hunset⟩
    · exact exact_postMessage hcredentials sender addressee message w
    · -- a message is to be posted without credentials
      exact absurd hready (not_or.mpr ⟨hunset, hposts⟩)
  · rw [hsend]
    exact .ret _

theorem not_returns_sendReminder {channel : String} (hready : ¬Ready environ channel)
    (bizName : String) (customer : Customer) (w : World) :
    ¬Returns execApp (sendReminder environ channel bizName customer) w := by
  obtain ⟨hunset, hposts⟩ := not_or.mp hready
  rcases sendReminder_cases environ channel bizName customer with
    ⟨sender, addressee, message, hsend, -⟩ | ⟨-, -, -, hnumber⟩
  · rcases getTwilioCredentials_cases environ with ⟨sid, token, -, hset⟩ | ⟨e, hcredentials, -⟩
    · exact absurd hset hunset
    · rw [hsend, postMessage, twilioRequest, hcredentials]
      exact not_returns_raise e
  · exact absurd hnumber hposts

theorem yields_sendReminder (environ : Environ) (channel bizName : String) (customer : Customer) :
    Yields Tells (sendReminder environ channel bizName customer) := by
  rcases sendReminder_cases environ channel bizName customer with
    ⟨sender, addressee, message, hsend, -⟩ | ⟨error, hsend, -⟩
  · rw [hsend]
    exact yields_postMessage environ sender addressee message
  · rw [hsend]
    rfl

/-- Looking the business name up returns a name and changes nothing. -/
theorem run_reminderBusinessName (merchantId : String) (w : World) :
    ∃ name, run execApp (reminderBusinessName merchantId) w = (.ok name, w) := by
  unfold reminderBusinessName objectIdApp objectId
  cases ObjectId.ofString? merchantId with
  | none => exact ⟨_, rfl⟩
  | some oid =>
    rw [run_catchWith, App.ofDb_ret, ret_bind, run_bind, run_users_findOne, andThen_ok]
    cases w.users.findOne ({ id := some oid } : UserQuery) with
    | none => exact ⟨_, rfl⟩
    | some merchant => exact ⟨_, rfl⟩

theorem meets_reminderBusinessName (merchantId : String) (w : World) :
    Meets execApp Answered (reminderBusinessName merchantId) w := by
  unfold reminderBusinessName objectIdApp objectId
  refine Meets.catchWith ?_ fun _ _ => trivial
  cases ObjectId.ofString? merchantId with
  | none => trivial
  | some oid =>
    rw [App.ofDb_ret, ret_bind]
    refine Meets.bind (Meets.perform trivial) fun merchant _ => ?_
    cases merchant with
    | none => trivial
    | some merchant => trivial

theorem exact_remind {channel : String} (hready : Ready environ channel) (customer : Customer)
    (w : World) : Exact execApp Answered (remind environ channel customer) w := by
  obtain ⟨bizName, hname⟩ := run_reminderBusinessName customer.merchantId w
  have hexact : Exact execApp Answered (reminderBusinessName customer.merchantId) w :=
    iff_of_true ⟨bizName, by rw [hname]⟩ (meets_reminderBusinessName _ w)
  refine hexact.bind fun bizName _ => (exact_sendReminder hready bizName customer _).bind ?_
  intro result hresult
  have htells : Tells result :=
    (yields_sendReminder environ channel bizName customer).run execApp hresult
  obtain ⟨success, hsuccess⟩ := Option.isSome_iff_exists.mp htells
  rw [Dict.item, hsuccess]
  exact .ret _

/-! ### Whom messages are sent to -/

/-- The addressee of a message. -/
def Request.addressee (r : Request) : Option String := r.data.bind fun fields => fields.lookup "To"

/-- From one world to the other, messages are sent to the addressees, in their order. -/
def Attempts (targets : List String) (w w' : World) : Prop :=
  ∃ requests, w'.sent = w.sent ++ requests ∧ requests.filterMap Request.addressee = targets

theorem Attempts.refl (w : World) : Attempts [] w w := ⟨[], by rw [List.append_nil], rfl⟩

theorem Attempts.trans {w'' : World} {targets targets' : List String} (h : Attempts targets w w')
    (h' : Attempts targets' w' w'') : Attempts (targets ++ targets') w w'' := by
  obtain ⟨requests, hsent, htargets⟩ := h
  obtain ⟨requests', hsent', htargets'⟩ := h'
  refine ⟨requests ++ requests', ?_, ?_⟩
  · rw [hsent', hsent, List.append_assoc]
  · rw [List.filterMap_append, htargets, htargets']

/-- The rule of composition: the messages of the first part come before those of the
second. -/
theorem attempts_bind {α β : Type} {p : App α} {f : α → App β} {targets targets' : List String}
    (hp : Returns execApp p w → Attempts targets w (run execApp p w).2)
    (hf : ∀ a w', Returns execApp (f a) w' → Attempts targets' w' (run execApp (f a) w').2)
    (hreturns : Returns execApp (p >>= f) w) :
    Attempts (targets ++ targets') w (run execApp (p >>= f) w).2 := by
  obtain ⟨a, ha, hrest⟩ := returns_bind.mp hreturns
  have hfirst := hp ⟨a, ha⟩
  have hsecond := hf a _ hrest
  rw [run_bind]
  rcases hrun : run execApp p w with ⟨r, w'⟩
  rw [hrun] at ha hfirst hsecond
  obtain rfl : r = .ok a := ha
  exact hfirst.trans hsecond

/-- The call is a request without data. -/
def AppCall.IsLookup : AppCall → Prop
  | .request r => r.data = none
  | _ => False

/-- Looking up what became of a message sends none. -/
theorem attempts_of_lookups {α : Type} {p : App α} (hp : Uses AppCall.IsLookup p) (w : World) :
    Attempts [] w (run execApp p w).2 := by
  refine run_invariant (I := fun w' => Attempts [] w w') execApp ?_ hp (.refl w)
  rintro (c | op | r) hc w' hw'
  · exact hc.elim
  · exact hc.elim
  · refine hw'.trans ⟨[r], rfl, ?_⟩
    have hdata : r.data = none := hc
    have haddressee : r.addressee = none := by rw [Request.addressee, hdata]; rfl
    rw [List.filterMap_cons_none haddressee, List.filterMap_nil]

/-- A message is sent to its addressee, once. -/
theorem attempts_postMessage {sender addressee message : String} (w : World)
    (hreturns : Returns execApp (postMessage environ sender addressee message) w) :
    Attempts [addressee] w (run execApp (postMessage environ sender addressee message) w).2 := by
  rcases getTwilioCredentials_cases environ with ⟨sid, token, hcredentials, -⟩ | ⟨e, hraise, -⟩
  · rw [postMessage, twilioRequest_eq hcredentials, bind_assoc, run_bind, run_urlopen, andThen_ok]
    have hfollow : ∀ response, Uses AppCall.IsLookup
        (readResponse response >>= fun payload => followMessage environ payload) := fun response =>
      (uses_readResponse _ response).bind fun payload =>
        uses_followMessage (fun _ hdata => hdata) environ payload
    have hpost : Attempts [addressee] w { w with
        sent := w.sent ++ [buildRequest sid token "POST" "/Messages.json"
          (some [("Body", message), ("From", sender), ("To", addressee)])] } := ⟨_, rfl, rfl⟩
    exact hpost.trans (attempts_of_lookups (hfollow _) _)
  · rw [postMessage, twilioRequest, hraise] at hreturns
    exact absurd hreturns (not_returns_raise e)

theorem attempts_sendReminder {channel bizName : String} {customer : Customer} (w : World)
    (hreturns : Returns execApp (sendReminder environ channel bizName customer) w) :
    Attempts (addressees environ channel customer) w
      (run execApp (sendReminder environ channel bizName customer) w).2 := by
  rcases sendReminder_cases environ channel bizName customer with
    ⟨sender, addressee, message, hsend, hto, -⟩ | ⟨error, hsend, hto, -⟩
  · rw [hsend] at hreturns ⊢
    rw [hto]
    exact attempts_postMessage w hreturns
  · rw [hsend, hto]
    exact .refl w

theorem attempts_remind {channel : String} {customer : Customer} (w : World)
    (hreturns : Returns execApp (remind environ channel customer) w) :
    Attempts (addressees environ channel customer) w
      (run execApp (remind environ channel customer) w).2 := by
  obtain ⟨bizName, hname⟩ := run_reminderBusinessName customer.merchantId w
  rw [Returns, remind, run_bind, hname, andThen_ok] at hreturns
  rw [remind, run_bind, hname, andThen_ok, ← List.append_nil (addressees environ channel customer)]
  refine attempts_bind (attempts_sendReminder w) (fun result w' _ => ?_) hreturns
  -- the result is put together without another request
  rw [Dict.item]
  cases result.get? "success" with
  | none => exact .refl w'
  | some success => exact .refl w'

/-! ### The whole batch -/

/-- The customer a result is about. -/
def ReminderResult.about (r : ReminderResult) : String × String × ℚ :=
  (r.customer, r.phone, r.balance)

/-- The name, phone and balance of a customer. -/
def CustomerDoc.about {ι : Type} (c : CustomerDoc ι) : String × String × ℚ :=
  (c.name, c.phone, c.balance)

theorem yields_remind (environ : Environ) (channel : String) (customer : Customer) :
    Yields (fun r => r.about = customer.about) (remind environ channel customer) :=
  (Yields.trivially _).bind fun _ _ => (Yields.trivially _).bind fun _ _ =>
    (Yields.trivially _).bind fun _ _ => rfl

/-- The results are about the customers, in their order. -/
theorem yields_remindAll (environ : Environ) (channel : String) (customers : List Customer) :
    Yields (fun results => results.map ReminderResult.about = customers.map CustomerDoc.about)
      (remindAll environ channel customers) := by
  induction customers with
  | nil => rfl
  | cons customer customers ih =>
    refine (yields_remind environ channel customer).bind fun result hresult => ?_
    refine ih.bind fun results hresults => ?_
    show List.map _ (result :: results) = _
    rw [List.map_cons, List.map_cons, hresult, hresults]

theorem exact_remindAll {channel : String} (hready : Ready environ channel)
    (customers : List Customer) (w : World) :
    Exact execApp Answered (remindAll environ channel customers) w := by
  induction customers generalizing w with
  | nil => exact .ret _
  | cons customer customers ih =>
    refine (exact_remind hready customer w).bind fun result _ => ?_
    exact (ih _).bind fun results _ => .ret _

theorem attempts_remindAll {channel : String} (customers : List Customer) (w : World)
    (hreturns : Returns execApp (remindAll environ channel customers) w) :
    Attempts (customers.flatMap (addressees environ channel)) w
      (run execApp (remindAll environ channel customers) w).2 := by
  induction customers generalizing w with
  | nil => exact .refl w
  | cons customer customers ih =>
    rw [List.flatMap_cons]
    refine attempts_bind (attempts_remind w) (fun result w' hrest => ?_) hreturns
    rw [← List.append_nil (customers.flatMap (addressees environ channel))]
    exact attempts_bind (ih w') (fun results w'' _ => .refl w'') hrest

/-- Without credentials the batch ends at its first customer. -/
theorem not_returns_remindAll {channel : String} (hready : ¬Ready environ channel)
    {customers : List Customer} (hcustomers : customers ≠ []) (w : World) :
    ¬Returns execApp (remindAll environ channel customers) w := by
  cases customers with
  | nil => exact absurd rfl hcustomers
  | cons customer customers =>
    intro hreturns
    obtain ⟨result, hresult, -⟩ := returns_bind.mp hreturns
    obtain ⟨bizName, hname⟩ := run_reminderBusinessName customer.merchantId w
    rw [remind, run_bind, hname, andThen_ok] at hresult
    obtain ⟨sent, hsent, -⟩ := returns_bind.mp ⟨result, hresult⟩
    exact not_returns_sendReminder hready bizName customer w ⟨sent, hsent⟩

/-- Reading the ledger makes no request. -/
theorem meets_ofDb {α : Type} (p : Db α) (w : World) :
    Meets execApp Answered (App.ofDb p) w := by
  induction p generalizing w with
  | ret a => trivial
  | raise e => trivial
  | call c k ih =>
    rw [App.ofDb]
    refine ⟨trivial, ?_⟩
    rw [execApp]
    cases (exec c w.ledger).1 with
    | ok a => exact ih (.ok a) _
    | error e => exact ih (.error e) _

/-- The customers the batch is for. -/
def defaulters (merchantId : Option String) (w : World) : List Customer :=
  w.ledger.customers.find (defaultersQuery merchantId)

/-- The batch returns one result per defaulter, in their order, and messages were sent to
each. -/
def Completes (environ : Environ) (merchantId : Option String) (channel : String) (w : World) :
    Prop :=
  ∃ results w', run execApp (runMonthlyReminders environ merchantId channel) w =
      (.ok results, w') ∧
    results.map ReminderResult.about = (defaulters merchantId w).map CustomerDoc.about ∧
    Attempts ((defaulters merchantId w).flatMap (addressees environ channel)) w w'

theorem run_runMonthlyReminders (environ : Environ) (merchantId : Option String)
    (channel : String) (w : World) :
    run execApp (runMonthlyReminders environ merchantId channel) w =
      run execApp (remindAll environ channel (defaulters merchantId w)) w := by
  rw [runMonthlyReminders, run_bind, App.run_ofDb, run_customers_find]
  rfl

/-- **When the batch completes.**  It returns one result per customer with a positive
balance, in query order and with a message sent to each, exactly if sending finds its
credentials (or makes no request, or no one owes anything) and Twilio gives an acceptable
answer to each request the batch makes. -/
theorem completes_iff (environ : Environ) (merchantId : Option String) (channel : String)
    (w : World) :
    Completes environ merchantId channel w ↔
      (Ready environ channel ∨ defaulters merchantId w = []) ∧
        Meets execApp Answered (runMonthlyReminders environ merchantId channel) w := by
  have hmeets : Meets execApp Answered (runMonthlyReminders environ merchantId channel) w ↔
      Meets execApp Answered (remindAll environ channel (defaulters merchantId w)) w := by
    rw [runMonthlyReminders, meets_bind, App.run_ofDb, run_customers_find]
    refine ⟨fun h => h.2 _ rfl, fun h => ⟨meets_ofDb _ w, fun customers hcustomers => ?_⟩⟩
    rw [← Except.ok.inj hcustomers]
    exact h
  have hreturns : Completes environ merchantId channel w ↔
      Returns execApp (remindAll environ channel (defaulters merchantId w)) w := by
    unfold Completes
    rw [run_runMonthlyReminders]
    constructor
    · rintro ⟨results, w', hrun, -⟩
      exact ⟨results, by rw [hrun]⟩
    · rintro ⟨results, hresults⟩
      have habout := (yields_remindAll environ channel (defaulters merchantId w)).run execApp
        hresults
      exact ⟨results, _, Prod.ext hresults rfl, habout, attempts_remindAll _ w ⟨results, hresults⟩⟩
  rw [hreturns, hmeets]
  by_cases hready : Ready environ channel
  · have hexact := exact_remindAll hready (defaulters merchantId w) w
    exact hexact.trans (and_iff_right (.inl hready)).symm
  · cases hcustomers : defaulters merchantId w with
    | nil => exact iff_of_true ⟨[], rfl⟩ ⟨.inr rfl, trivial⟩
    | cons customer customers =>
      refine iff_of_false (not_returns_remindAll hready (List.cons_ne_nil _ _) w) ?_
      rintro ⟨hor, -⟩
      rcases hor with h | h
      · exact hready h
      · exact absurd h (List.cons_ne_nil _ _)

/-- A world with one debtor, whose gateway answers the first request with an error page. -/
def World.behindProxy : World where
  ledger := sampleStore
  users := .empty
  gateway n :=
    if n = 0 then .httpError (.error "Expecting value: line 1 column 1 (char 0)")
    else .ok (.ok (.dict [("sid", .str "SM1"), ("status", .str "delivered")]))
  sent := []

/-- An error page in place of the error body ends the batch. -/
theorem batch_stops : ¬∀ environ merchantId channel w, Completes environ merchantId channel w := by
  intro hclaim
  obtain ⟨results, w', hrun, -⟩ := hclaim .sample none "sms" .behindProxy
  have hraises : (run execApp (runMonthlyReminders .sample none "sms") .behindProxy).1 =
      .error (.valueError "Expecting value: line 1 column 1 (char 0)") := by decide +kernel
  rw [hrun] at hraises
  exact absurd hraises (by simp)

end DigitalLedger
