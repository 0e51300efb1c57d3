import DigitalLedger.Batch

/-!
# What is said of a message

After Twilio has accepted a message `send_sms` and `send_whatsapp` ask for its status, up to
three times.  The loop ends early when a message is delivered or has failed, and also when
the question itself goes wrong, which it reports in the same words as a failure; a status it
does not know, `undelivered` among them, lets it ask again.

## Main definitions

* `Verdict`, `Response.verdict` — what the loop makes of an answer.
* `Response.ReportsLoss` — an answer that says the message was not delivered.
* `consulted` — the answers the loop looks into.
* `Faithful` — the outcome of a message is what the answers consulted report.
* `WellClassified` — the answers consulted are of the kind the loop knows.

## Main results

* `run_checkMessageStatus` — the loop, by its verdicts.
* `faithful_iff` — when the outcome of a message is faithful.
* `send_outcome_faithful_iff` — the same of `send_sms` and `send_whatsapp`.
-/

namespace DigitalLedger

open Prog

variable {environ : Environ} {w : World}

/-! ### Verdicts -/

/-- What the loop makes of the answer to a question for the status. -/
inductive Verdict
  /-- The question goes wrong. -/
  | error
  | delivered
  | failed
  /-- Any other status: the loop asks again. -/
  | waiting
  /-- An exception is raised. -/
  | raised
  deriving DecidableEq

/-- What the loop makes of a body that is a dictionary. -/
def Dict.verdict (d : Dict) : Verdict :=
  if d.succeeds = false then .error
  else if d.getD "status" .none = .str "delivered" then .delivered
  else if d.getD "status" .none = .str "failed" then
    if LooksUp d "error_code" then .failed else .raised
  else .waiting

/-- What the loop makes of an answer. -/
def Response.verdict : Response → Verdict
  | .ok (.ok (.dict d)) => d.verdict
  | .ok (.ok (.other _)) => .raised
  | .ok (.error _) => .error
  | .httpError (.ok (.dict d)) => if LooksUp d "code" then .error else .raised
  | .httpError (.ok (.other _)) => .raised
  | .httpError (.error _) => .raised
  | .failure _ => .error

/-- The answer says that the message was not delivered. -/
def Response.ReportsLoss : Response → Prop
  | .ok (.ok (.dict d)) =>
    d.getD "status" .none = .str "failed" ∨ d.getD "status" .none = .str "undelivered"
  | _ => False

instance (r : Response) : Decidable r.ReportsLoss := by
  unfold Response.ReportsLoss
  split
  · exact inferInstanceAs (Decidable (_ ∨ _))
  · exact inferInstanceAs (Decidable False)

/-- The answers the loop looks into: up to the first that is not waited on. -/
def consulted : List Response → List Response
  | [] => []
  | r :: rest => if r.verdict = .waiting then r :: consulted rest else [r]

/-- The verdict the loop ends with. -/
def finalVerdict : List Response → Verdict
  | [] => .waiting
  | r :: rest => if r.verdict = .waiting then finalVerdict rest else r.verdict

/-- Only the last of the answers consulted is not waited on. -/
theorem exists_consulted_iff {v : Verdict} (hv : v ≠ .waiting) (answers : List Response) :
    (∃ r ∈ consulted answers, r.verdict = v) ↔ finalVerdict answers = v := by
  induction answers with
  | nil => simp [consulted, finalVerdict, hv.symm]
  | cons r rest ih =>
    rw [consulted, finalVerdict]
    split_ifs with hwaiting
    · rw [List.exists_mem_cons_iff, ih, hwaiting]
      exact or_iff_right hv.symm
    · simp

theorem consulted_eq_take (answers : List Response) :
    consulted answers = answers.take (consulted answers).length := by
  induction answers with
  | nil => rfl
  | cons r rest ih =>
    rw [consulted]
    split_ifs
    · rw [List.length_cons, List.take_succ_cons, ← ih]
    · rfl

/-! ### The loop -/

/-- `bool(d["success"])`, where the key is there. -/
def Dict.success? (d : Dict) : Option Bool := (d.get? "success").map Value.truthy

theorem success?_of_not_succeeds {d : Dict} (h : d.succeeds = false) :
    d.success? = some false := by
  rw [Dict.succeeds, Dict.getD] at h
  rw [Dict.success?]
  cases hget : d.get? "success" with
  | none =>
    rw [hget] at h
    exact absurd h (by decide)
  | some value =>
    rw [hget] at h
    exact congrArg some h

/-- What a round of the loop does with the body of an answer. -/
def lookInto (messageSid : Value) (again : App (Option Dict)) (payload : Payload) :
    App (Option Dict) := do
  let payload ← payload.entries
  if payload.succeeds = false then
    return some payload
  else
    let status := payload.getD "status" .none
    if status = .str "delivered" then
      return some [("success", .bool true), ("sid", messageSid), ("status", status)]
    else if status = .str "failed" then
      let code := payload.getD "error_code" .none
      let message := payload.getD "error_message" .none
      let friendly ← friendlyTwilioError code
        (if message.truthy then message else .str "Delivery failed")
      return some (failureDict friendly ++ [("error_code", code)])
    else
      again

theorem checkMessageStatus_succ (environ : Environ) (messageSid : Value) (n : ℕ) :
    checkMessageStatus environ messageSid (n + 1) =
      twilioRequest environ "GET" (let text := messageSid.toStr; s!"/Messages/{text}.json") none >>=
        lookInto messageSid (checkMessageStatus environ messageSid n) := rfl

/-- What the loop returns, by the verdict it ends with. -/
def Verdict.Returns (v : Verdict) (outcome : Except AppExn (Option Dict)) : Prop :=
  match v with
  | .error => ∃ d, outcome = .ok (some d) ∧ d.success? = some false
  | .delivered => ∃ d, outcome = .ok (some d) ∧ d.success? = some true
  | .failed => ∃ d, outcome = .ok (some d) ∧ d.success? = some false
  | .waiting => outcome = .ok none
  | .raised => ∃ e, outcome = .error e

/-- A round of the loop goes on with the next, or ends it. -/
def Verdict.Leads (v : Verdict) (again p : App (Option Dict)) : Prop :=
  v = .waiting ∧ p = again ∨
    v ≠ .waiting ∧ ∃ outcome, v.Returns outcome ∧ ∀ w, run execApp p w = (outcome, w)

theorem leads_raise (again : App (Option Dict)) (e : AppExn) :
    Verdict.Leads .raised again (.raise e) :=
  .inr ⟨by decide, _, ⟨e, rfl⟩, fun _ => rfl⟩

/-- A round of the loop, for a dictionary. -/
theorem verdict_lookInto (messageSid : Value) (again : App (Option Dict)) (d : Dict) :
    d.verdict.Leads again (lookInto messageSid again (.dict d)) := by
  rw [lookInto, Payload.entries, ret_bind, Dict.verdict]
  by_cases hsuccess : d.succeeds = false
  · rw [if_pos hsuccess, if_pos hsuccess]
    exact .inr ⟨by decide, _, ⟨d, rfl, success?_of_not_succeeds hsuccess⟩, fun _ => rfl⟩
  rw [if_neg hsuccess, if_neg hsuccess]
  dsimp only
  by_cases hdelivered : d.getD "status" .none = .str "delivered"
  · rw [if_pos hdelivered, if_pos hdelivered]
    exact .inr ⟨by decide, _, ⟨_, rfl, rfl⟩, fun _ => rfl⟩
  rw [if_neg hdelivered, if_neg hdelivered]
  by_cases hfailed : d.getD "status" .none = .str "failed"
  · rw [if_pos hfailed, if_pos hfailed]
    by_cases hcode : LooksUp d "error_code"
    · obtain ⟨detail, hdetail⟩ := friendlyTwilioError_of_hashable hcode
        (if (d.getD "error_message" .none).truthy then d.getD "error_message" .none
          else .str "Delivery failed")
      rw [if_pos hcode, hdetail]
      exact .inr ⟨by decide, _, ⟨_, rfl, rfl⟩, fun _ => rfl⟩
    · -- the code of the error cannot be looked up in the table
      obtain ⟨e, he⟩ := friendlyTwilioError_of_not_hashable hcode
        (if (d.getD "error_message" .none).truthy then d.getD "error_message" .none
          else .str "Delivery failed")
      rw [if_neg hcode, he]
      exact leads_raise again e
  · rw [if_neg hfailed, if_neg hfailed]
    exact .inl ⟨rfl, rfl⟩

/-- A failure `_twilio_request` reports ends the loop. -/
theorem lookInto_failure (messageSid : Value) (again : App (Option Dict)) (d : Dict)
    (h : d.succeeds = false) :
    Verdict.Leads .error again (lookInto messageSid again (.dict d)) := by
  have hleads := verdict_lookInto messageSid again d
  rw [Dict.verdict, if_pos h] at hleads
  exact hleads

/-- **A round of the loop leads where its verdict says.** -/
theorem verdict_readResponse (messageSid : Value) (again : App (Option Dict)) (r : Response) :
    r.verdict.Leads again (readResponse r >>= lookInto messageSid again) := by
  rcases r with (text | payload | typeName) | (text | payload | typeName) | text
  · exact lookInto_failure messageSid again (failureDict (.str text)) rfl
  · exact verdict_lookInto messageSid again payload
  · exact leads_raise again _
  · exact leads_raise again _
  · rw [Response.verdict, readResponse]
    by_cases hcode : LooksUp payload "code"
    · obtain ⟨detail, hdetail⟩ := friendlyTwilioError_of_hashable hcode
        (payload.getD "message" (.str "Unknown Twilio error"))
      rw [if_pos hcode, hdetail]
      exact lookInto_failure messageSid again
        (failureDict detail ++ [("error_code", payload.getD "code" .none)]) rfl
    · obtain ⟨e, he⟩ := friendlyTwilioError_of_not_hashable hcode
        (payload.getD "message" (.str "Unknown Twilio error"))
      rw [if_neg hcode, he]
      exact leads_raise again e
  · exact leads_raise again _
  · exact lookInto_failure messageSid again (failureDict (.str text)) rfl

/-- The next `n` answers of the gateway. -/
def World.answers (w : World) (n : ℕ) : List Response :=
  (List.range' w.sent.length n).map w.gateway

theorem answers_succ (w : World) (r : Request) (n : ℕ) :
    w.answers (n + 1) =
      w.gateway w.sent.length :: World.answers { w with sent := w.sent ++ [r] } n := by
  rw [World.answers, List.range'_succ, List.map_cons, World.answers, List.length_append,
    List.length_singleton]

/-- **The loop ends with the verdict on the answers**, having made as many requests as it
consulted. -/
theorem run_checkMessageStatus {sid token : String}
    (hcredentials : getTwilioCredentials environ = .ret (sid, token)) (messageSid : Value)
    (n : ℕ) (w : World) :
    ∃ requests, (run execApp (checkMessageStatus environ messageSid n) w).2 =
        { w with sent := w.sent ++ requests } ∧
      requests.length = (consulted (w.answers n)).length ∧
      (finalVerdict (w.answers n)).Returns
        (run execApp (checkMessageStatus environ messageSid n) w).1 := by
  induction n generalizing w with
  | zero => exact ⟨[], by rw [List.append_nil]; rfl, rfl, rfl⟩
  | succ n ih =>
    rw [checkMessageStatus_succ, twilioRequest_eq hcredentials, bind_assoc, run_bind,
      run_urlopen, andThen_ok]
    generalize buildRequest sid token "GET" _ none = request
    rw [answers_succ w request, consulted, finalVerdict]
    obtain ⟨requests, hsent, hlength, hreturns⟩ := ih { w with sent := w.sent ++ [request] }
    rcases verdict_readResponse messageSid (checkMessageStatus environ messageSid n)
      (w.gateway w.sent.length) with ⟨hwaiting, hagain⟩ | ⟨hends, outcome, houtcome, hrun⟩
    · rw [if_pos hwaiting, if_pos hwaiting, hagain, hsent]
      refine ⟨request :: requests, ?_, ?_, hreturns⟩
      · rw [List.append_assoc]
        rfl
      · rw [List.length_cons, List.length_cons, hlength]
    · -- this answer is the last one consulted
      rw [if_neg hends, if_neg hends, hrun]
      exact ⟨[request], rfl, rfl, houtcome⟩

/-! ### Messages -/

/-- The three answers after the next, from which the status of a message is read. -/
def World.polls (w : World) : List Response :=
  (List.range' (w.sent.length + 1) 3).map w.gateway

/-- Whether a message is said to be sent, by the verdict the loop ends with. -/
def Verdict.said : Verdict → Option Bool
  | .error => some false
  | .delivered => some true
  | .failed => some false
  | .waiting => some true
  | .raised => none

/-- What a message is said to have become. -/
def Says (said : Option Bool) (outcome : Except AppExn Dict) : Prop :=
  match said with
  | some success => ∃ d, outcome = .ok d ∧ d.success? = some success
  | none => ∃ e, outcome = .error e

/-- What is returned for a message that is accepted. -/
theorem followMessage_eq {d : Dict} {messageSid : Value} (hsuccess : d.succeeds = true)
    (hsid : d.get? "sid" = some messageSid) :
    followMessage environ (.dict d) =
      (fun checked => checked.getD [("success", .bool true), ("sid", messageSid),
          ("status", d.getD "status" (.str "queued"))]) <$>
        checkMessageStatus environ messageSid 3 := by
  have hnot : ¬d.succeeds = false := by
    rw [hsuccess]
    decide
  rw [followMessage, Payload.entries, ret_bind, if_neg hnot, Dict.item, hsid]
  dsimp only
  rw [ret_bind, maybeCheckMessageStatus]
  refine congrArg (_ >>= ·) (funext fun checked => ?_)
  cases checked with
  | none => rfl
  | some checked => rfl

/-- What the loop returns is passed on; where it returns nothing, the message is said to be
sent. -/
theorem Verdict.Returns.reported {v : Verdict} {outcome : Except AppExn (Option Dict)}
    (h : v.Returns outcome) {queued : Dict} (hqueued : queued.success? = some true) :
    Says v.said (outcome.map fun checked => checked.getD queued) := by
  cases v with
  | waiting =>
    obtain rfl : outcome = .ok none := h
    exact ⟨queued, rfl, hqueued⟩
  | raised =>
    obtain ⟨e, rfl⟩ := h
    exact ⟨e, rfl⟩
  | error =>
    obtain ⟨d, rfl, hd⟩ := h
    exact ⟨d, rfl, hd⟩
  | delivered =>
    obtain ⟨d, rfl, hd⟩ := h
    exact ⟨d, rfl, hd⟩
  | failed =>
    obtain ⟨d, rfl, hd⟩ := h
    exact ⟨d, rfl, hd⟩

/-- **A message that is accepted** is followed by the requests of the loop, and it is said to
be sent as the loop's last verdict has it. -/
theorem run_postMessage {sid token : String}
    (hcredentials : getTwilioCredentials environ = .ret (sid, token)) {d : Dict}
    {messageSid : Value} (haccepted : w.gateway w.sent.length = .ok (.ok (.dict d)))
    (hsuccess : d.succeeds = true) (hsid : d.get? "sid" = some messageSid)
    (sender addressee message : String) :
    (run execApp (postMessage environ sender addressee message) w).2.sent.length =
        w.sent.length + 1 + (consulted w.polls).length ∧
      Says (finalVerdict w.polls).said
        (run execApp (postMessage environ sender addressee message) w).1 := by
  rw [postMessage, twilioRequest_eq hcredentials, bind_assoc, run_bind, run_urlopen, andThen_ok,
    haccepted, readResponse, ret_bind, followMessage_eq hsuccess hsid, run_map]
  generalize buildRequest sid token "POST" _ _ = request
  obtain ⟨requests, hsent, hlength, hreturns⟩ := run_checkMessageStatus hcredentials messageSid 3
    { w with sent := w.sent ++ [request] }
  have hpolls : World.answers { w with sent := w.sent ++ [request] } 3 = w.polls := by
    rw [World.answers, World.polls, List.length_append, List.length_singleton]
  rw [hpolls] at hlength hreturns
  refine ⟨?_, hreturns.reported rfl⟩
  rw [hsent, ← hlength, List.length_append, List.length_append, List.length_singleton]

/-! ### Faithful outcomes -/

/-- An answer that reports a loss was consulted for the message: one given to a request after
the first. -/
def LossReported (p : App Dict) (w : World) : Prop :=
  ∃ i, w.sent.length < i ∧ i < (run execApp p w).2.sent.length ∧ (w.gateway i).ReportsLoss

/-- What is returned for a message is what the answers consulted report. -/
structure Faithful (p : App Dict) (w : World) : Prop where
  failure : ∀ d, (run execApp p w).1 = .ok d → d.success? = some false → LossReported p w
  success : ∀ d, (run execApp p w).1 = .ok d → d.success? = some true → ¬LossReported p w

/-- Of the answers, one reports a loss exactly if one is an error or says `failed`; or one
raises an exception. -/
def WellClassified (answers : List Response) : Prop :=
  (∃ r ∈ answers, r.verdict = .raised) ∨
    ((∃ r ∈ answers, r.ReportsLoss) ↔
      (∃ r ∈ answers, r.verdict = .error) ∨ ∃ r ∈ answers, r.verdict = .failed)

instance (answers : List Response) : Decidable (WellClassified answers) :=
  inferInstanceAs (Decidable (_ ∨ _))

/-- A question that goes wrong reports nothing of the message. -/
example : ¬WellClassified [.failure "timed out"] := by decide

/-! What a faithful outcome is, by what is said of the message. -/

section Said

variable {p : App Dict}

theorem faithful_of_failure (h : Says (some false) (run execApp p w).1) :
    Faithful p w ↔ LossReported p w := by
  obtain ⟨d, hd, hsaid⟩ := h
  refine ⟨fun hfaithful => hfaithful.failure d hd hsaid, fun hreported => ⟨?_, ?_⟩⟩
  · exact fun _ _ _ => hreported
  · intro d' hd' hsaid'
    rw [hd] at hd'
    obtain rfl := Except.ok.inj hd'
    rw [hsaid] at hsaid'
    exact absurd hsaid' (by decide)

theorem faithful_of_success (h : Says (some true) (run execApp p w).1) :
    Faithful p w ↔ ¬LossReported p w := by
  obtain ⟨d, hd, hsaid⟩ := h
  refine ⟨fun hfaithful => hfaithful.success d hd hsaid, fun hreported => ⟨?_, ?_⟩⟩
  · intro d' hd' hsaid'
    rw [hd] at hd'
    obtain rfl := Except.ok.inj hd'
    rw [hsaid] at hsaid'
    exact absurd hsaid' (by decide)
  · exact fun _ _ _ => hreported

/-- Where an exception is raised nothing is said. -/
theorem faithful_of_raised (h : Says none (run execApp p w).1) : Faithful p w := by
  obtain ⟨e, he⟩ := h
  refine ⟨fun d hd => ?_, fun d hd => ?_⟩
  · rw [he] at hd
    cases hd
  · rw [he] at hd
    cases hd

end Said

/-- The answers consulted, by the numbers of the requests they were given to. -/
theorem exists_consulted_polls (P : Response → Prop) (w : World) :
    (∃ i, w.sent.length < i ∧ i < w.sent.length + 1 + (consulted w.polls).length ∧
        P (w.gateway i)) ↔
      ∃ r ∈ consulted w.polls, P r := by
  have hconsulted : consulted w.polls =
      (List.range' (w.sent.length + 1) (consulted w.polls).length).map w.gateway := by
    have htake := consulted_eq_take w.polls
    generalize consulted w.polls = answers at htake ⊢
    rw [World.polls, ← List.map_take] at htake
    have hle := congrArg List.length htake
    rw [List.length_map, List.length_take, List.length_range'] at hle
    rwa [List.take_range'_of_length_ge (by omega)] at htake
  generalize (consulted w.polls).length = k at hconsulted ⊢
  rw [hconsulted]
  constructor
  · rintro ⟨i, hgt, hlt, hP⟩
    exact ⟨_, List.mem_map_of_mem (List.mem_range'_1.2 ⟨hgt, hlt⟩), hP⟩
  · rintro ⟨r, hr, hP⟩
    obtain ⟨i, hi, rfl⟩ := List.mem_map.1 hr
    obtain ⟨hgt, hlt⟩ := List.mem_range'_1.1 hi
    exact ⟨i, hgt, hlt, hP⟩

/-- **When the outcome of a message is faithful.** -/
theorem faithful_iff {sid token : String}
    (hcredentials : getTwilioCredentials environ = .ret (sid, token)) {d : Dict}
    {messageSid : Value} (haccepted : w.gateway w.sent.length = .ok (.ok (.dict d)))
    (hsuccess : d.succeeds = true) (hsid : d.get? "sid" = some messageSid)
    (sender addressee message : String) :
    Faithful (postMessage environ sender addressee message) w ↔
      WellClassified (consulted w.polls) := by
  obtain ⟨hlength, hsays⟩ :=
    run_postMessage hcredentials haccepted hsuccess hsid sender addressee message
  have hreported : LossReported (postMessage environ sender addressee message) w ↔
      ∃ r ∈ consulted w.polls, r.ReportsLoss := by
    rw [LossReported, hlength]
    exact exists_consulted_polls Response.ReportsLoss w
  have hraised := exists_consulted_iff (show Verdict.raised ≠ .waiting by decide) w.polls
  have herror := exists_consulted_iff (show Verdict.error ≠ .waiting by decide) w.polls
  have hfailed := exists_consulted_iff (show Verdict.failed ≠ .waiting by decide) w.polls
  rw [WellClassified, hraised, herror, hfailed, ← hreported]
  cases hverdict : finalVerdict w.polls with
  | raised =>
    rw [hverdict] at hsays
    exact iff_of_true (faithful_of_raised hsays) (.inl rfl)
  | error =>
    rw [hverdict] at hsays
    rw [faithful_of_failure hsays]
    simp
  | failed =>
    rw [hverdict] at hsays
    rw [faithful_of_failure hsays]
    simp
  | delivered =>
    rw [hverdict] at hsays
    rw [faithful_of_success hsays]
    simp
  | waiting =>
    rw [hverdict] at hsays
    rw [faithful_of_success hsays]
    simp

/-! ### `send_sms` and `send_whatsapp` -/

/-- The gateway accepts the next message: it answers with a sid. -/
def World.Accepts (w : World) : Prop :=
  ∃ d messageSid, w.gateway w.sent.length = .ok (.ok (.dict d)) ∧ d.succeeds = true ∧
    d.get? "sid" = some messageSid

/-- **The outcome of a message that is accepted is faithful**, by SMS and by WhatsApp, exactly
if the answers consulted are well classified. -/
theorem send_outcome_faithful_iff {sid token : String}
    (hcredentials : getTwilioCredentials environ = .ret (sid, token)) (haccepts : w.Accepts)
    (toNumber message : String) :
    (∀ fromNumber, nonempty environ.twilioPhoneNumber = some fromNumber →
        (Faithful (sendSms environ toNumber message) w ↔ WellClassified (consulted w.polls))) ∧
      (Faithful (sendWhatsapp environ toNumber message) w ↔
        WellClassified (consulted w.polls)) := by
  obtain ⟨d, messageSid, haccepted, hsuccess, hsid⟩ := haccepts
  have hposts := faithful_iff hcredentials haccepted hsuccess hsid
  constructor
  · intro fromNumber hfrom
    have hsms : sendSms environ toNumber message =
        postMessage environ fromNumber toNumber message := by
      rw [sendSms, hfrom]
    rw [hsms]
    exact hposts fromNumber toNumber message
  · exact hposts _ _ message

/-- A world whose gateway accepts a message and then answers each question with `answer`. -/
def World.answering (answer : Response) : World where
  ledger := sampleStore
  users := .empty
  gateway n := if n = 0 then .ok (.ok (.dict [("sid", .str "SM1")])) else answer
  sent := []

theorem answering_accepts (answer : Response) : (World.answering answer).Accepts :=
  ⟨_, _, rfl, rfl, rfl⟩

theorem send_outcome_faithful_iff_sample :
    Faithful (sendSms .sample "+91" "due")
        (.answering (.ok (.ok (.dict [("status", .str "sent")])))) ∧
      Faithful (sendWhatsapp .sample "+91" "due")
        (.answering (.ok (.ok (.dict [("status", .str "sent")])))) := by
  have hclassified : WellClassified
      (consulted (World.answering (.ok (.ok (.dict [("status", .str "sent")])))).polls) := by
    decide +kernel
  obtain ⟨hsms, hwhatsapp⟩ := send_outcome_faithful_iff
    (rfl : getTwilioCredentials .sample = .ret ("AC1", "token"))
    (answering_accepts (.ok (.ok (.dict [("status", .str "sent")])))) "+91" "due"
  exact ⟨(hsms "+1555" rfl).2 hclassified, hwhatsapp.2 hclassified⟩

/-- What is said of a message is what the answers consulted report, whenever the message is
accepted and whichever way it is sent. -/
def SendsFaithfully : Prop :=
  ∀ (environ : Environ) (w : World) (sid token : String),
    getTwilioCredentials environ = .ret (sid, token) → w.Accepts →
      ∀ toNumber message,
        (∀ fromNumber, nonempty environ.twilioPhoneNumber = some fromNumber →
            Faithful (sendSms environ toNumber message) w) ∧
          Faithful (sendWhatsapp environ toNumber message) w

/-- A message three answers report as undelivered is said to be sent. -/
theorem undelivered_said_sent : ¬SendsFaithfully := by
  intro hclaim
  obtain ⟨-, hfaithful⟩ := hclaim .sample
    (.answering (.ok (.ok (.dict [("status", .str "undelivered")]))))
    "AC1" "token" rfl (answering_accepts _) "+91" "due"
  refine hfaithful.success
    [("success", .bool true), ("sid", .str "SM1"), ("status", .str "queued")] ?_ rfl ?_
  · decide +kernel
  · exact ⟨1, by decide, by decide +kernel, by decide⟩

end DigitalLedger
