import DigitalLedger.Lib.Relational
import DigitalLedger.Recovery

/-!
# Who sees a code

A code is sent to the phone of a user; where the message cannot be sent,
`send_otp_to_phone` falls back to returning it to whoever asked for it.  Two runs that
differ only in the codes drawn show what the results give away: nothing as long as every
message is accepted, and the code itself where one is not.

## Main definitions

* `SameGateway` — the requests of two worlds are answered the same from here on.
* `Accepts` — a message sent now is accepted.
* `SameButCodes` — two worlds that differ at most in the codes that are pending.
* `Matched` — two calls that differ at most in the code drawn, or given.

## Main results

* `alike_sendSms` — what becomes of a message does not depend on its text.
* `send_independent_iff` — when the result of a send is independent of the code.
* `otp_reaches_only_phone` — the same for whole runs.
-/

namespace DigitalLedger

open Prog Trace

variable {bcrypt : Bcrypt} {w w' : World} {phone : String}

/-! ### What becomes of a message -/

/-- The requests made from here on are answered the same in both worlds. -/
structure SameGateway (w w' : World) : Prop where
  gateway : w.gateway = w'.gateway
  sent : w.sent.length = w'.sent.length

theorem alike_urlopen (r r' : Request) : Alike execApp SameGateway (urlopen r) (urlopen r') := by
  intro w w' hw
  rw [run_urlopen, run_urlopen, hw.gateway, hw.sent]
  refine ⟨rfl, rfl, ?_⟩
  rw [List.length_append, List.length_append, hw.sent]
  rfl

theorem alike_requests {α : Type} {p : App α} (hp : Uses AppCall.IsRequest p) :
    Alike execApp SameGateway p p := by
  refine Alike.of_uses ?_ hp
  rintro (c | op | r) hc w w' hw
  · exact hc.elim
  · exact hc.elim
  · have hopen := alike_urlopen r r w w' hw
    rw [run_urlopen, run_urlopen] at hopen
    exact hopen

/-- **What becomes of a message does not depend on its text.** -/
theorem alike_sendSms (environ : Environ) (toNumber message message' : String) :
    Alike execApp SameGateway (sendSms environ toNumber message)
      (sendSms environ toNumber message') := by
  unfold sendSms
  split
  · exact .ret _
  · refine Alike.bind ?_ fun payload =>
      alike_requests (uses_followMessage (fun _ _ => trivial) environ payload)
    refine (alike_requests (uses_getTwilioCredentials _ environ)).bind fun _ => ?_
    exact (alike_urlopen _ _).bind fun response => alike_requests (uses_readResponse _ response)

/-- A message sent to the number now is accepted: `send_sms` reports success. -/
def Accepts (environ : Environ) (phone : String) (w : World) : Prop :=
  ∃ message result success, (run execApp (sendSms environ phone message) w).1 = .ok result ∧
    result.get? "success" = some success ∧ success.truthy = true

/-- Whether a message is accepted depends on the gateway only, and not on the message. -/
theorem accepts_iff (hw : SameGateway w w') (environ : Environ) (phone message : String) :
    Accepts environ phone w ↔
      ∃ result success, (run execApp (sendSms environ phone message) w').1 = .ok result ∧
        result.get? "success" = some success ∧ success.truthy = true := by
  constructor
  · rintro ⟨message', result, success, hrun, hget, htruthy⟩
    rw [(alike_sendSms environ phone message' message w w' hw).1] at hrun
    exact ⟨result, success, hrun, hget, htruthy⟩
  · rintro ⟨result, success, hrun, hget, htruthy⟩
    rw [← (alike_sendSms environ phone message message w w' hw).1] at hrun
    exact ⟨message, result, success, hrun, hget, htruthy⟩

theorem Accepts.congr {environ : Environ} (h : Accepts environ phone w)
    (hw : SameGateway w w') : Accepts environ phone w' :=
  ⟨"", (accepts_iff hw environ phone "").mp h⟩

/-- Where the message is accepted, the reply is the same whatever the code. -/
theorem deliverOtp_of_accepts {environ : Environ} (haccepts : Accepts environ phone w)
    (hw : SameGateway w w') (otp : String) :
    (run execApp (deliverOtp environ phone otp) w').1 =
      .ok (.success ⟨"OTP sent to your phone.", none⟩) := by
  obtain ⟨result, success, hrun, hget, htruthy⟩ :=
    (accepts_iff hw environ phone (otpMessage otp)).mp haccepts
  rw [deliverOtp, run_catchWith, run_bind]
  rcases hsent : run execApp (sendSms environ phone (otpMessage otp)) w' with ⟨r, w''⟩
  rw [hsent] at hrun
  obtain rfl : r = .ok result := hrun
  rw [andThen_ok, run_bind, Dict.item, hget, run_ret, andThen_ok, htruthy]
  rfl

/-- Where it is not, the reply contains the code. -/
theorem deliverOtp_of_not_accepts {environ : Environ} (hrefused : ¬Accepts environ phone w)
    (hw : SameGateway w w') (otp : String) :
    ∃ message, (run execApp (deliverOtp environ phone otp) w').1 =
      .ok (.success ⟨message, some otp⟩) := by
  rw [accepts_iff hw environ phone (otpMessage otp)] at hrefused
  rw [deliverOtp, run_catchWith, run_bind]
  rcases hsent : run execApp (sendSms environ phone (otpMessage otp)) w' with ⟨e | result, w''⟩
  · exact ⟨_, rfl⟩
  · rw [hsent] at hrefused
    rw [andThen_ok, run_bind, Dict.item]
    cases hget : result.get? "success" with
    | none => exact ⟨_, rfl⟩
    | some success =>
      have hfalsy : success.truthy = false :=
        Bool.eq_false_iff.mpr fun htruthy => hrefused ⟨result, success, rfl, hget, htruthy⟩
      dsimp only
      rw [run_ret, andThen_ok, hfalsy]
      exact ⟨_, rfl⟩

/-! ### One send -/

/-- A number `random.randint(100000, 999999)` returns. -/
abbrev Draw := {n : ℕ // 100000 ≤ n ∧ n ≤ 999999}

/-- The result of a send, with the number drawn. -/
def sendResult (environ : Environ) (env : Env) (phone : String) (w : World) (draw : Draw) :
    Except AppExn (Reply SentOtp) :=
  (run execApp (sendOtpToPhone environ { env with randint := draw } phone) w).1

/-- Where a user has the number and the message is not accepted, the result contains the
code. -/
theorem sendResult_of_not_accepts {environ : Environ} {phone : String} {w : World} {u : User}
    (hknown : w.users.byPhone phone = some u) (hrefused : ¬Accepts environ phone w) (env : Env)
    (draw : Draw) :
    ∃ message, sendResult environ env phone w draw =
      .ok (.success ⟨message, some (toString draw.val)⟩) := by
  have hw : ∀ users, SameGateway w { w with users := users } := fun users => ⟨rfl, rfl⟩
  rw [sendResult, run_sendOtpToPhone, hknown]
  exact deliverOtp_of_not_accepts hrefused (hw _) (toString draw.val)

/-- The result of a send is independent of the code exactly where the number is unknown or
the message is accepted. -/
theorem send_independent_iff (environ : Environ) (env : Env) (phone : String) (w : World) :
    (∀ draw draw', sendResult environ env phone w draw = sendResult environ env phone w draw') ↔
      w.users.byPhone phone = none ∨ Accepts environ phone w := by
  cases hknown : w.users.byPhone phone with
  | none =>
    refine iff_of_true (fun draw draw' => ?_) (.inl rfl)
    rw [sendResult, sendResult, run_sendOtpToPhone, run_sendOtpToPhone, hknown]
  | some u =>
    constructor
    · intro hsame
      refine .inr (by_contra fun hrefused => ?_)
      -- two codes, each returned to whoever asked for it
      have hne : toString 100000 ≠ toString 100001 := by decide
      obtain ⟨message, hresult⟩ :=
        sendResult_of_not_accepts hknown hrefused env ⟨100000, by decide⟩
      obtain ⟨message', hresult'⟩ :=
        sendResult_of_not_accepts hknown hrefused env ⟨100001, by decide⟩
      have heq := hsame ⟨100000, by decide⟩ ⟨100001, by decide⟩
      rw [hresult, hresult'] at heq
      injection heq with heq
      injection heq with heq
      injection heq with _ hcode
      exact hne (Option.some.inj hcode)
    · rintro (hnone | haccepts) draw draw'
      · exact absurd hnone (Option.some_ne_none u)
      · have hw : ∀ users, SameGateway w { w with users := users } := fun users => ⟨rfl, rfl⟩
        rw [sendResult, sendResult, run_sendOtpToPhone, run_sendOtpToPhone, hknown]
        dsimp only
        rw [deliverOtp_of_accepts haccepts (hw _), deliverOtp_of_accepts haccepts (hw _)]

/-! ### Worlds that differ in their codes -/

/-- A user without the pending code. -/
def User.withoutOtp (u : User) : User := { u with resetOtp := none }

/-- The worlds differ at most in the codes that are pending. -/
structure SameButCodes (w w' : World) : Prop extends SameGateway w w' where
  ledger : w.ledger = w'.ledger
  users : w.users.docs.map User.withoutOtp = w'.users.docs.map User.withoutOtp

/-- No query looks at a code. -/
theorem test_withoutOtp (q : UserQuery) (u : User) : test q u.withoutOtp = test q u := rfl

/-- The same user is found in both worlds, but for the code. -/
theorem SameButCodes.findOne (hw : SameButCodes w w') (q : UserQuery) :
    (w.users.findOne q = none ∧ w'.users.findOne q = none) ∨
      ∃ u otp, w.users.findOne q = some u ∧
        w'.users.findOne q = some { u with resetOtp := otp } := by
  have hfind : ∀ l : List User,
      (l.find? (test q)).map User.withoutOtp = (l.map User.withoutOtp).find? (test q) := by
    intro l
    rw [List.find?_map]
    rfl
  have hsame : (w.users.findOne q).map User.withoutOtp =
      (w'.users.findOne q).map User.withoutOtp := by
    show (w.users.docs.find? (test q)).map User.withoutOtp =
      (w'.users.docs.find? (test q)).map User.withoutOtp
    rw [hfind, hfind, hw.users]
  cases hu : w.users.findOne q with
  | none =>
    rw [hu] at hsame
    exact .inl ⟨rfl, Option.map_eq_none_iff.mp hsame.symm⟩
  | some u =>
    rw [hu] at hsame
    obtain ⟨u', hu', heq⟩ := Option.map_eq_some_iff.mp hsame.symm
    refine .inr ⟨u, u'.resetOtp, rfl, ?_⟩
    -- but for the code the two have the same fields
    have hfields : u' = { u'.withoutOtp with resetOtp := u'.resetOtp } := rfl
    rw [hu', hfields, heq]
    rfl

/-- What does not depend on the codes is the same for the users of both worlds. -/
theorem SameButCodes.map_eq (hw : SameButCodes w w') {β : Type} {g : User → β}
    (hg : ∀ u : User, g u.withoutOtp = g u) : w.users.docs.map g = w'.users.docs.map g := by
  have hmap : ∀ l : List User, l.map g = (l.map User.withoutOtp).map g := by
    intro l
    rw [List.map_map]
    exact List.map_congr_left fun u _ => (hg u).symm
  rw [hmap, hmap w'.users.docs, hw.users]

/-- A user is registered in both worlds or in neither. -/
theorem SameButCodes.insertOne (hw : SameButCodes w w') (u : User) :
    (w.users.insertOne u = none ∧ w'.users.insertOne u = none) ∨
      ∃ users users', w.users.insertOne u = some users ∧ w'.users.insertOne u = some users' ∧
        SameButCodes { w with users := users } { w' with users := users' } := by
  have hnone : w.users.insertOne u = none ↔ w'.users.insertOne u = none := by
    rw [IndexedCollection.insertOne_eq_none, IndexedCollection.insertOne_eq_none]
    have hfields : ∀ ix ∈ userIndexes,
        w.users.docs.map ix.fields = w'.users.docs.map ix.fields := by
      intro ix hix
      rw [userIndexes, List.mem_singleton] at hix
      rw [hix]
      exact hw.map_eq fun _ => rfl
    have hkeys : w.users.docs.map key = w'.users.docs.map key := hw.map_eq fun _ => rfl
    rw [hkeys]
    refine or_congr_left (exists_congr fun ix => and_congr_right fun hix => ?_)
    rw [hfields ix hix]
  cases hinsert : w.users.insertOne u with
  | none => exact .inl ⟨rfl, hnone.mp hinsert⟩
  | some users =>
    cases hinsert' : w'.users.insertOne u with
    | none => rw [hnone.mpr hinsert'] at hinsert; exact absurd hinsert (by simp)
    | some users' =>
      refine .inr ⟨users, users', rfl, rfl, ⟨hw.gateway, hw.sent⟩, hw.ledger, ?_⟩
      rw [IndexedCollection.docs_insertOne hinsert, IndexedCollection.docs_insertOne hinsert',
        List.map_append, List.map_append, hw.users]

/-- Updates that differ at most in the code keep the worlds the same but for the codes. -/
theorem SameButCodes.updateOne (hw : SameButCodes w w') (q : UserQuery) (x x' : UserUpdate)
    (hpassword : x.password = x'.password) (hexpiry : x.otpExpiry = x'.otpExpiry) :
    SameButCodes { w with users := w.users.updateOne userIndexes_kept q x }
      { w' with users := w'.users.updateOne userIndexes_kept q x' } := by
  refine ⟨⟨hw.gateway, hw.sent⟩, hw.ledger, ?_⟩
  -- but for the code, both updates do the same to a user
  obtain ⟨f, hx, hx'⟩ : ∃ f : User → User,
      (∀ u : User, (apply x u).withoutOtp = f u.withoutOtp) ∧
        ∀ u : User, (apply x' u).withoutOtp = f u.withoutOtp := by
    refine ⟨fun u => User.withoutOtp (apply x u), fun u => rfl, fun u => ?_⟩
    show (x'.apply u).withoutOtp = (x.apply u.withoutOtp).withoutOtp
    rw [UserUpdate.apply, UserUpdate.apply, hpassword, hexpiry]
    rfl
  show (w.users.docs.updateFirst _ _).map _ = (w'.users.docs.updateFirst _ _).map _
  rw [List.map_updateFirst_of_comm (fun u => test_withoutOtp q u) hx,
    List.map_updateFirst_of_comm (fun u => test_withoutOtp q u) hx', hw.users]

/-! ### Calls that differ in their codes -/

/-- The code is pending for the first user of the number. -/
def Right (phone otp : String) (w : World) : Prop :=
  ∃ u, w.users.byPhone phone = some u ∧ u.resetOtp = some otp

/-- The calls, one made in each world, differ at most in the code drawn or given; a code
given is right in both worlds or wrong in both. -/
inductive Matched (w w' : World) : UserCall → UserCall → Prop
  | registerUser (env : Env) (username password businessName phone : String) :
      Matched w w' (.registerUser env username password businessName phone)
        (.registerUser env username password businessName phone)
  | loginUser (username password : String) :
      Matched w w' (.loginUser username password) (.loginUser username password)
  | sendOtpToPhone (environ : Environ) (env : Env) (phone : String) (draw draw' : Draw) :
      Matched w w' (.sendOtpToPhone environ { env with randint := draw } phone)
        (.sendOtpToPhone environ { env with randint := draw' } phone)
  | verifyOtp (env : Env) (phone : String) {otp otp' : String}
      (hright : Right phone otp w ↔ Right phone otp' w') :
      Matched w w' (.verifyOtp env phone otp) (.verifyOtp env phone otp')
  | resetPasswordWithOtp (env : Env) (phone new : String) {otp otp' : String}
      (hright : Right phone otp w ↔ Right phone otp' w') :
      Matched w w' (.resetPasswordWithOtp env phone otp new)
        (.resetPasswordWithOtp env phone otp' new)

/-- A code sent to a number of a user is accepted by the gateway. -/
def Delivers (w : World) (c : UserCall) : Prop :=
  ∀ environ env phone, c = .sendOtpToPhone environ env phone →
    w.users.byPhone phone ≠ none → Accepts environ phone w

/-- A code that is right in both worlds or wrong in both is checked with one result. -/
theorem SameButCodes.checkOtp_eq (hw : SameButCodes w w') {env : Env} {otp otp' : String}
    (hright : Right phone otp w ↔ Right phone otp' w') :
    checkOtp env otp (w.users.byPhone phone) = checkOtp env otp' (w'.users.byPhone phone) := by
  unfold Right at hright
  rcases hw.findOne { phone := some phone } with ⟨hnone, hnone'⟩ | ⟨u, code, hu, hu'⟩
  · have hmissing : w.users.byPhone phone = none := hnone
    have hmissing' : w'.users.byPhone phone = none := hnone'
    rw [hmissing, hmissing']
    rfl
  · have hfound : w.users.byPhone phone = some u := hu
    have hfound' : w'.users.byPhone phone = some { u with resetOtp := code } := hu'
    rw [hfound, hfound'] at hright ⊢
    have hiff : u.resetOtp = some otp ↔ code = some otp' := by simpa using hright
    rw [checkOtp, checkOtp, if_congr (not_congr hiff) rfl rfl]

/-- Codes whose messages are accepted are delivered with one result. -/
theorem SameButCodes.deliver (hw : SameButCodes w w') {environ : Environ}
    (haccepts : Accepts environ phone w) (otp otp' : String) :
    (run execApp (deliverOtp environ phone otp) w).1 =
        (run execApp (deliverOtp environ phone otp') w').1 ∧
      SameButCodes (run execApp (deliverOtp environ phone otp) w).2
        (run execApp (deliverOtp environ phone otp') w').2 := by
  have hresult := deliverOtp_of_accepts haccepts ⟨rfl, rfl⟩ otp
  have hresult' := deliverOtp_of_accepts haccepts hw.toSameGateway otp'
  refine ⟨hresult.trans hresult'.symm, ?_⟩
  -- what the two leave is what sending the two messages leaves
  obtain ⟨_, hrun⟩ := run_deliverOtp w environ phone otp
  obtain ⟨_, hrun'⟩ := run_deliverOtp w' environ phone otp'
  have hafter := (alike_sendSms environ phone (otpMessage otp) (otpMessage otp') w w'
    hw.toSameGateway).2
  obtain ⟨sent, hsent⟩ := run_requests (uses_sendSms environ phone (otpMessage otp)) w
  obtain ⟨sent', hsent'⟩ := run_requests (uses_sendSms environ phone (otpMessage otp')) w'
  rw [hsent, hsent'] at hafter
  rw [hrun, hrun', hsent, hsent']
  exact ⟨hafter, hw.ledger, hw.users⟩

variable (bcrypt) in
/-- A registration looks at no code. -/
theorem SameButCodes.registerUser (hw : SameButCodes w w') (env : Env)
    (username password businessName phone : String) :
    outcomeUsers bcrypt w (.registerUser env username password businessName phone) =
        outcomeUsers bcrypt w' (.registerUser env username password businessName phone) ∧
      SameButCodes (stepUsers bcrypt w (.registerUser env username password businessName phone))
        (stepUsers bcrypt w' (.registerUser env username password businessName phone)) := by
  unfold outcomeUsers stepUsers
  rw [UserCall.code, run_map, run_map, run_registerUser, run_registerUser]
  unfold Users.byUsername
  rcases hw.findOne { username := some username } with ⟨hnone, hnone'⟩ | ⟨u, code, hu, hu'⟩
  · rw [hnone, hnone']
    dsimp only
    rcases hw.insertOne (newUser bcrypt env username password businessName phone) with
      ⟨htaken, htaken'⟩ | ⟨users, users', hnew, hnew', hsame⟩
    · rw [htaken, htaken']
      exact ⟨rfl, hw⟩
    · rw [hnew, hnew']
      exact ⟨rfl, hsame⟩
  · rw [hu, hu']
    exact ⟨rfl, hw⟩

variable (bcrypt) in
/-- Codes that are issued are the only difference the users get. -/
theorem SameButCodes.sendOtpToPhone (hw : SameButCodes w w') (environ : Environ) (env : Env)
    (phone : String) (draw draw' : Draw)
    (haccepts : w.users.byPhone phone ≠ none → Accepts environ phone w) :
    outcomeUsers bcrypt w (.sendOtpToPhone environ { env with randint := draw } phone) =
        outcomeUsers bcrypt w' (.sendOtpToPhone environ { env with randint := draw' } phone) ∧
      SameButCodes
        (stepUsers bcrypt w (.sendOtpToPhone environ { env with randint := draw } phone))
        (stepUsers bcrypt w' (.sendOtpToPhone environ { env with randint := draw' } phone)) := by
  unfold outcomeUsers stepUsers
  rw [UserCall.code, UserCall.code, run_map, run_map, run_sendOtpToPhone, run_sendOtpToPhone]
  unfold Users.byPhone at haccepts ⊢
  rcases hw.findOne { phone := some phone } with ⟨hnone, hnone'⟩ | ⟨u, code, hu, hu'⟩
  · rw [hnone, hnone']
    exact ⟨rfl, hw⟩
  · rw [hu] at haccepts
    rw [hu, hu']
    have hissued := hw.updateOne { phone := some phone }
      { resetOtp := some (some (generateOtp { env with randint := draw }))
        otpExpiry := some (some (env.utcnow 0 + otpLifetime)) }
      { resetOtp := some (some (generateOtp { env with randint := draw' }))
        otpExpiry := some (some (env.utcnow 0 + otpLifetime)) } rfl rfl
    have hdelivered := hissued.deliver
      ((haccepts (Option.some_ne_none u)).congr ⟨rfl, rfl⟩)
      (generateOtp { env with randint := draw }) (generateOtp { env with randint := draw' })
    exact ⟨congrArg (Except.map UserOutcome.sent) hdelivered.1, hdelivered.2⟩

variable (bcrypt) in
/-- **Calls that differ in their codes only** end the same way, as long as the codes sent
are accepted, and leave the worlds the same but for the codes. -/
theorem Matched.step {c c' : UserCall} (hw : SameButCodes w w') (hc : Matched w w' c c')
    (hdelivers : Delivers w c) :
    outcomeUsers bcrypt w c = outcomeUsers bcrypt w' c' ∧
      SameButCodes (stepUsers bcrypt w c) (stepUsers bcrypt w' c') := by
  cases hc with
  | registerUser env username password businessName phone =>
    exact hw.registerUser bcrypt env username password businessName phone
  | sendOtpToPhone environ env phone draw draw' =>
    exact hw.sendOtpToPhone bcrypt environ env phone draw draw' (hdelivers environ _ phone rfl)
  | loginUser username password =>
    unfold outcomeUsers stepUsers
    rw [UserCall.code, run_map, run_map, run_loginUser, run_loginUser]
    unfold Users.byUsername
    refine ⟨?_, hw⟩
    rcases hw.findOne { username := some username } with ⟨hnone, hnone'⟩ | ⟨u, code, hu, hu'⟩
    · rw [hnone, hnone']
    · rw [hu, hu']
  | verifyOtp env phone hright =>
    unfold outcomeUsers stepUsers
    rw [UserCall.code, UserCall.code, run_map, run_map, run_verifyOtp, run_verifyOtp,
      hw.checkOtp_eq hright]
    exact ⟨rfl, hw⟩
  | resetPasswordWithOtp env phone new hright =>
    unfold outcomeUsers stepUsers
    rw [UserCall.code, UserCall.code, run_map, run_map, run_resetPasswordWithOtp,
      run_resetPasswordWithOtp, hw.checkOtp_eq hright]
    split
    · exact ⟨rfl, hw⟩
    · exact ⟨rfl, hw.updateOne _ _ _ rfl rfl⟩

/-! ### Whole runs -/

/-- The results of `n` calls, each chosen by the results of the calls before it, and the
world the calls leave. -/
def play (bcrypt : Bcrypt) (next : List (Except AppExn UserOutcome) → UserCall) (w : World) :
    ℕ → List (Except AppExn UserOutcome) × World
  | 0 => ([], w)
  | n + 1 =>
    let (results, w) := play bcrypt next w n
    (results ++ [outcomeUsers bcrypt w (next results)], stepUsers bcrypt w (next results))

/-- The first `n` calls of two runs differ in their codes only, and the codes are
delivered. -/
def MatchedRuns (bcrypt : Bcrypt) (next next' : List (Except AppExn UserOutcome) → UserCall)
    (w w' : World) (n : ℕ) : Prop :=
  ∀ k < n, ∀ results now now', play bcrypt next w k = (results, now) →
    play bcrypt next' w' k = (results, now') →
    Matched now now' (next results) (next' results) ∧ Delivers now (next results)

/-- **Runs that differ in their codes only** have the same results. -/
theorem play_eq {next next' : List (Except AppExn UserOutcome) → UserCall}
    (hw : SameButCodes w w') {n : ℕ} (hruns : MatchedRuns bcrypt next next' w w' n) :
    (play bcrypt next w n).1 = (play bcrypt next' w' n).1 ∧
      SameButCodes (play bcrypt next w n).2 (play bcrypt next' w' n).2 := by
  induction n with
  | zero => exact ⟨rfl, hw⟩
  | succ n ih =>
    have hbefore : MatchedRuns bcrypt next next' w w' n := fun k hk => hruns k (by omega)
    obtain ⟨hresults, hsame⟩ := ih hbefore
    rcases hplay : play bcrypt next w n with ⟨results, now⟩
    rcases hplay' : play bcrypt next' w' n with ⟨results', now'⟩
    rw [hplay, hplay'] at hresults hsame
    obtain rfl : results = results' := hresults
    obtain ⟨hmatched, hdelivers⟩ := hruns n (by omega) results now now' hplay hplay'
    obtain ⟨houtcome, hafter⟩ := hmatched.step bcrypt hsame hdelivers
    rw [play, play, hplay, hplay']
    dsimp only
    rw [houtcome]
    exact ⟨rfl, hafter⟩

/-- **The code reaches only the phone**, as long as text messages are accepted.  The result
of `send_otp_to_phone` is independent of the code exactly where no user has the number or
`send_sms` reports success; otherwise, whatever the code, the reply of development mode
contains it.  Whoever sees only results, and chooses each call by the results before it, sees
the same whatever codes are drawn, as long as every code sent is accepted and no code given is
right for some of the codes drawn and wrong for others. -/
theorem otp_reaches_only_phone :
    (∀ environ env phone w,
      (∀ draw draw', sendResult environ env phone w draw = sendResult environ env phone w draw') ↔
        w.users.byPhone phone = none ∨ Accepts environ phone w) ∧
    (∀ environ env phone w u draw, w.users.byPhone phone = some u → ¬Accepts environ phone w →
      ∃ message, sendResult environ env phone w draw =
        .ok (.success ⟨message, some (toString draw.val)⟩)) ∧
    ∀ bcrypt next next' w w' n, SameButCodes w w' → MatchedRuns bcrypt next next' w w' n →
      (play bcrypt next w n).1 = (play bcrypt next' w' n).1 :=
  ⟨send_independent_iff,
    fun _ env _ _ _ draw hknown hrefused => sendResult_of_not_accepts hknown hrefused env draw,
    fun _ _ _ _ _ _ hw hruns => (play_eq hw hruns).1⟩

/-- A world with one merchant, whose gateway answers every request with `response`. -/
def World.sample (response : Response) : World :=
  stepUsers markingBcrypt ⟨.empty, .empty, fun _ => response, []⟩
    (.registerUser (.sample 1 0) "ravi" "old" "Ravi Stores" "99")

/-- A message that is delivered at once. -/
def deliveredResponse : Response :=
  .ok (.ok (.dict [("sid", .str "SM1"), ("status", .str "delivered")]))

/-- Two runs that draw different codes have the same result when the code is delivered. -/
theorem otp_reaches_only_phone_sample :
    (play markingBcrypt (fun _ => .sendOtpToPhone .sample
        { Env.sample 2 0 with randint := ⟨123456, by decide⟩ } "99")
      (.sample deliveredResponse) 1).1 =
    (play markingBcrypt (fun _ => .sendOtpToPhone .sample
        { Env.sample 2 0 with randint := ⟨654321, by decide⟩ } "99")
      (.sample deliveredResponse) 1).1 := by
  refine otp_reaches_only_phone.2.2 markingBcrypt _ _ _ _ 1 ⟨⟨rfl, rfl⟩, rfl, rfl⟩ ?_
  intro k hk results now now' hplay hplay'
  obtain rfl : k = 0 := by omega
  rw [play] at hplay hplay'
  obtain ⟨-, rfl⟩ := Prod.mk.inj hplay
  obtain ⟨-, rfl⟩ := Prod.mk.inj hplay'
  refine ⟨.sendOtpToPhone .sample (Env.sample 2 0) "99" _ _, ?_⟩
  intro environ env phone hsend _
  injection hsend with henviron _ hphone
  rw [← henviron, ← hphone]
  exact ⟨"", _, .bool true, rfl, rfl, rfl⟩

/-- Where messages cannot be sent, the results of two sends differ by their codes. -/
theorem otp_returned :
    ¬∀ environ env phone w draw draw',
      sendResult environ env phone w draw = sendResult environ env phone w draw' := by
  intro hclaim
  have hsame := hclaim .sample (.sample 2 0) "99" (.sample (.failure "timed out"))
    ⟨123456, by decide⟩ ⟨654321, by decide⟩
  exact absurd hsame (by decide +kernel)

end DigitalLedger
