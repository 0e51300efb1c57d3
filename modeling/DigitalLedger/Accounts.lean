import DigitalLedger.Customers
import DigitalLedger.Lib.Trace
import DigitalLedger.Reminders

/-!
# Accounts

The functions of `auth.py` and `otp.py`.  A merchant registers and logs in under a
username, and recovers an account through a code sent to a phone number; the code is kept
in the document of the user until it is used or replaced.

## Main definitions

* `registerUser`, `loginUser` — registration and login.
* `sendOtpToPhone`, `verifyOtp`, `resetPasswordWithOtp` — the recovery of an account.
* `UserCall`, `UserCall.code`, `stepUsers` — the five as calls made one at a time.

## Main results

* `run_registerUser`, `run_sendOtpToPhone`, `run_resetPasswordWithOtp` — what each of them
  does to the world.
* `UserCall.effect` — what a call does to the users, in four cases.
-/

namespace DigitalLedger

open Prog

/-- `hash_password` -/
def hashPassword (bcrypt : Bcrypt) (env : Env) (password : String) : String :=
  bcrypt.hashpw password env.gensalt

/-- `verify_password` -/
def verifyPassword (bcrypt : Bcrypt) (password hashed : String) : Bool :=
  bcrypt.checkpw password hashed

/-- The document `register_user` inserts. -/
def newUser (bcrypt : Bcrypt) (env : Env) (username password businessName phone : String) :
    User where
  id := env.objectId 0
  username := username
  password := hashPassword bcrypt env password
  businessName := businessName
  phone := phone
  createdAt := env.utcnow 0
  resetOtp := none
  otpExpiry := none

/-- `register_user` -/
def registerUser (bcrypt : Bcrypt) (env : Env) (username password businessName phone : String) :
    App (Reply String) := do
  let existing ← UsersCol.findOne { username := some username }
  if existing.isSome then
    return .failure "Username already exists."
  else
    let user := newUser bcrypt env username password businessName phone
    UsersCol.insertOne user
    return .success user.id.str

/-- What `login_user` returns on success. -/
structure Login where
  userId : String
  username : String
  businessName : String
  deriving DecidableEq

/-- `login_user` -/
def loginUser (bcrypt : Bcrypt) (username password : String) : App (Reply Login) := do
  match ← UsersCol.findOne { username := some username } with
  | none => return .failure "User not found."
  | some user =>
    if verifyPassword bcrypt password user.password = false then
      return .failure "Incorrect password."
    else
      return .success ⟨user.id.str, user.username, user.businessName⟩

/-! ### Recovery of an account -/

/-- What a call draws from its surroundings, together with the number
`random.randint(100000, 999999)` returns. -/
structure OtpEnv extends Env where
  randint : {n : ℕ // 100000 ≤ n ∧ n ≤ 999999}

/-- `generate_otp` -/
def generateOtp (env : OtpEnv) : String := toString env.randint.val

/-- `timedelta(minutes=10)` -/
def otpLifetime : Time := 600000

/-- What `send_otp_to_phone` returns on success; the code only in development mode. -/
structure SentOtp where
  message : String
  otp : Option String
  deriving DecidableEq

/-- The text message with the code. -/
def otpMessage (otp : String) : String :=
  s!"Your Digital Ledger password reset OTP is: {otp}. Valid for 10 minutes."

/-- The `try` block of `send_otp_to_phone`, with its handler. -/
def deliverOtp (environ : Environ) (phone otp : String) : App (Reply SentOtp) :=
  Prog.catchWith
    (do
      let result ← sendSms environ phone (otpMessage otp)
      let success ← result.item "success"
      if success.truthy then
        return .success ⟨"OTP sent to your phone.", none⟩
      else
        -- the message was refused: the code goes back to the caller
        return .success ⟨s!"OTP (dev mode): {otp}", some otp⟩)
    fun _ => .ret (.success ⟨s!"OTP (dev mode - Twilio not configured): {otp}", some otp⟩)

/-- `send_otp_to_phone` -/
def sendOtpToPhone (environ : Environ) (env : OtpEnv) (phone : String) :
    App (Reply SentOtp) := do
  match ← UsersCol.findOne { phone := some phone } with
  | none => return .failure "No account found with this phone number."
  | some _ =>
    let otp := generateOtp env
    let expiry := env.utcnow 0 + otpLifetime
    -- the code is stored before it is sent
    let _ ← UsersCol.updateOne { phone := some phone }
      { resetOtp := some (some otp), otpExpiry := some (some expiry) }
    deliverOtp environ phone otp

/-- `verify_otp`; the clock is read once for the comparison and once for the default. -/
def verifyOtp (env : Env) (phone otp : String) : App (Reply Unit) := do
  match ← UsersCol.findOne { phone := some phone } with
  | none => return .failure "User not found."
  | some user =>
    if user.resetOtp ≠ some otp then
      return .failure "Invalid OTP."
    else if env.utcnow 0 > user.otpExpiry.getD (env.utcnow 1) then
      return .failure "OTP has expired. Please request a new one."
    else
      return .success ()

/-- `reset_password_with_otp` -/
def resetPasswordWithOtp (bcrypt : Bcrypt) (env : Env) (phone otp newPassword : String) :
    App (Reply String) := do
  match ← verifyOtp env phone otp with
  | .failure message => return .failure message
  | .success _ =>
    let _ ← UsersCol.updateOne { phone := some phone }
      { password := some (hashPassword bcrypt env newPassword)
        resetOtp := some none
        otpExpiry := some none }
    return .success "Password reset successfully!"

/-! ### What the functions do to the world -/

/-- The users after a code is issued to a phone number. -/
def Users.issueOtp (phone otp : String) (expiry : Time) (users : Users) : Users :=
  users.updateOne userIndexes_kept ({ phone := some phone } : UserQuery)
    ({ resetOtp := some (some otp), otpExpiry := some (some expiry) } : UserUpdate)

/-- The users after the password of a phone number is reset. -/
def Users.setPassword (phone hashed : String) (users : Users) : Users :=
  users.updateOne userIndexes_kept ({ phone := some phone } : UserQuery)
    ({ password := some hashed, resetOtp := some none, otpExpiry := some none } : UserUpdate)

/-- The user the calls on a phone number address. -/
def Users.byPhone (phone : String) (users : Users) : Option User :=
  users.findOne ({ phone := some phone } : UserQuery)

/-- The user of a username. -/
def Users.byUsername (username : String) (users : Users) : Option User :=
  users.findOne ({ username := some username } : UserQuery)

/-- What `verify_otp` makes of the user it finds. -/
def checkOtp (env : Env) (otp : String) : Option User → Reply Unit
  | none => .failure "User not found."
  | some user =>
    if user.resetOtp ≠ some otp then .failure "Invalid OTP."
    else if env.utcnow 0 > user.otpExpiry.getD (env.utcnow 1) then
      .failure "OTP has expired. Please request a new one."
    else .success ()

/-- A code passes for a user whose pending code it is, until it expires. -/
theorem checkOtp_eq_success {env : Env} {otp : String} {found : Option User} :
    checkOtp env otp found = .success () ↔
      ∃ u, found = some u ∧ u.resetOtp = some otp ∧
        env.utcnow 0 ≤ u.otpExpiry.getD (env.utcnow 1) := by
  cases found with
  | none => simp [checkOtp]
  | some u =>
    rw [checkOtp]
    by_cases hotp : u.resetOtp = some otp
    · by_cases htime : env.utcnow 0 > u.otpExpiry.getD (env.utcnow 1)
      · simp [hotp, htime]
      · simp [hotp, htime, not_lt.mp htime]
    · simp [hotp]

section Run

variable {bcrypt : Bcrypt} (w : World)

theorem run_registerUser (env : Env) (username password businessName phone : String) :
    run execApp (registerUser bcrypt env username password businessName phone) w =
      match w.users.byUsername username with
      | some _ => (.ok (.failure "Username already exists."), w)
      | none =>
        match w.users.insertOne (newUser bcrypt env username password businessName phone) with
        | some users => (.ok (.success (env.objectId 0).str), { w with users := users })
        | none => (.error (.database .duplicateKeyError), w) := by
  rw [registerUser, run_bind, run_users_findOne, andThen_ok, ← Users.byUsername]
  cases w.users.byUsername username with
  | some u => rfl
  | none =>
    dsimp only [Option.isSome_none]
    rw [if_neg Bool.false_ne_true, run_bind, run_users_insertOne]
    cases w.users.insertOne (newUser bcrypt env username password businessName phone) with
    | some users => rfl
    | none => rfl

theorem run_loginUser (username password : String) :
    run execApp (loginUser bcrypt username password) w =
      (.ok (match w.users.byUsername username with
        | none => .failure "User not found."
        | some user =>
          if verifyPassword bcrypt password user.password = false then
            .failure "Incorrect password."
          else .success ⟨user.id.str, user.username, user.businessName⟩), w) := by
  rw [loginUser, run_bind, run_users_findOne, andThen_ok, ← Users.byUsername]
  cases w.users.byUsername username with
  | none => rfl
  | some user =>
    dsimp only
    split <;> rfl

theorem run_verifyOtp (env : Env) (phone otp : String) :
    run execApp (verifyOtp env phone otp) w =
      (.ok (checkOtp env otp (w.users.byPhone phone)), w) := by
  rw [verifyOtp, run_bind, run_users_findOne, andThen_ok, ← Users.byPhone]
  cases w.users.byPhone phone with
  | none => rfl
  | some user =>
    dsimp only [checkOtp]
    split
    · rfl
    · split <;> rfl

theorem run_resetPasswordWithOtp (env : Env) (phone otp new : String) :
    run execApp (resetPasswordWithOtp bcrypt env phone otp new) w =
      match checkOtp env otp (w.users.byPhone phone) with
      | .failure message => (.ok (.failure message), w)
      | .success _ => (.ok (.success "Password reset successfully!"),
          { w with users := w.users.setPassword phone (hashPassword bcrypt env new) }) := by
  rw [resetPasswordWithOtp, run_bind, run_verifyOtp, andThen_ok]
  cases checkOtp env otp (w.users.byPhone phone) with
  | failure message => rfl
  | success _ => rfl

/-- Whatever becomes of the text message, the call succeeds, and it leaves the world that
sending the message leaves. -/
theorem run_deliverOtp (environ : Environ) (phone otp : String) :
    ∃ r, run execApp (deliverOtp environ phone otp) w =
      (.ok (.success r), (run execApp (sendSms environ phone (otpMessage otp)) w).2) := by
  rw [deliverOtp, run_catchWith, run_bind]
  rcases run execApp (sendSms environ phone (otpMessage otp)) w with ⟨e | result, w'⟩
  · exact ⟨_, rfl⟩
  · rw [andThen_ok, run_bind, Dict.item]
    cases result.get? "success" with
    | none => exact ⟨_, rfl⟩
    | some success =>
      dsimp only
      rw [run_ret, andThen_ok]
      cases success.truthy with
      | true => exact ⟨_, rfl⟩
      | false => exact ⟨_, rfl⟩

theorem run_sendOtpToPhone (environ : Environ) (env : OtpEnv) (phone : String) :
    run execApp (sendOtpToPhone environ env phone) w =
      match w.users.byPhone phone with
      | none => (.ok (.failure "No account found with this phone number."), w)
      | some _ => run execApp (deliverOtp environ phone (generateOtp env))
          { w with
            users := w.users.issueOtp phone (generateOtp env) (env.utcnow 0 + otpLifetime) } := by
  rw [sendOtpToPhone, run_bind, run_users_findOne, andThen_ok, ← Users.byPhone]
  cases w.users.byPhone phone with
  | none => rfl
  | some user => rfl

end Run

/-! ### Calls -/

/-- The calls on accounts. -/
inductive UserCall
  | registerUser (env : Env) (username password businessName phone : String)
  | loginUser (username password : String)
  | sendOtpToPhone (environ : Environ) (env : OtpEnv) (phone : String)
  | verifyOtp (env : Env) (phone otp : String)
  | resetPasswordWithOtp (env : Env) (phone otp newPassword : String)

/-- What the calls return. -/
inductive UserOutcome
  | registered (r : Reply String)
  | loggedIn (r : Reply Login)
  | sent (r : Reply SentOtp)
  | verified (r : Reply Unit)
  | reset (r : Reply String)
  deriving DecidableEq

/-- The call is answered by `{"success": False, ...}`. -/
def UserOutcome.Refused : UserOutcome → Prop
  | .registered (.failure _) => True
  | .loggedIn (.failure _) => True
  | .sent (.failure _) => True
  | .verified (.failure _) => True
  | .reset (.failure _) => True
  | _ => False

/-- The program of a call. -/
def UserCall.code (bcrypt : Bcrypt) : UserCall → App UserOutcome
  | .registerUser env username password businessName phone =>
    .registered <$> DigitalLedger.registerUser bcrypt env username password businessName phone
  | .loginUser username password =>
    .loggedIn <$> DigitalLedger.loginUser bcrypt username password
  | .sendOtpToPhone environ env phone =>
    .sent <$> DigitalLedger.sendOtpToPhone environ env phone
  | .verifyOtp env phone otp => .verified <$> DigitalLedger.verifyOtp env phone otp
  | .resetPasswordWithOtp env phone otp newPassword =>
    .reset <$> DigitalLedger.resetPasswordWithOtp bcrypt env phone otp newPassword

/-- The outcome of a call. -/
def outcomeUsers (bcrypt : Bcrypt) (w : World) (c : UserCall) : Except AppExn UserOutcome :=
  (run execApp (c.code bcrypt) w).1

/-- The world a call leaves. -/
def stepUsers (bcrypt : Bcrypt) (w : World) (c : UserCall) : World :=
  (run execApp (c.code bcrypt) w).2

/-- What a call does to the users. -/
inductive UserEffect (bcrypt : Bcrypt) (users : Users) : UserCall → Users → Prop
  | nothing (c : UserCall) : UserEffect bcrypt users c users
  | registered {env : Env} {username password businessName phone : String} {users' : Users}
      (hinsert : users.insertOne (newUser bcrypt env username password businessName phone) =
        some users') :
      UserEffect bcrypt users (.registerUser env username password businessName phone) users'
  | issued {environ : Environ} {env : OtpEnv} {phone : String} {u : User}
      (hfound : users.byPhone phone = some u) :
      UserEffect bcrypt users (.sendOtpToPhone environ env phone)
        (users.issueOtp phone (generateOtp env) (env.utcnow 0 + otpLifetime))
  | reset {env : Env} {phone otp new : String}
      (hcheck : checkOtp env otp (users.byPhone phone) = .success ()) :
      UserEffect bcrypt users (.resetPasswordWithOtp env phone otp new)
        (users.setPassword phone (hashPassword bcrypt env new))

section Effect

variable {bcrypt : Bcrypt} (w : World) (c : UserCall)

theorem outcomeUsers_reset (env : Env) (phone otp new : String) :
    outcomeUsers bcrypt w (.resetPasswordWithOtp env phone otp new) =
      .ok (.reset (match checkOtp env otp (w.users.byPhone phone) with
        | .failure message => .failure message
        | .success _ => .success "Password reset successfully!")) := by
  rw [outcomeUsers, UserCall.code, run_map, run_resetPasswordWithOtp]
  cases checkOtp env otp (w.users.byPhone phone) with
  | failure message => rfl
  | success _ => rfl

/-- A code is sent where a user has the phone number, and nowhere else. -/
theorem stepUsers_send (environ : Environ) (env : OtpEnv) (phone : String) :
    (stepUsers bcrypt w (.sendOtpToPhone environ env phone)).users =
      match w.users.byPhone phone with
      | none => w.users
      | some _ => w.users.issueOtp phone (generateOtp env) (env.utcnow 0 + otpLifetime) := by
  rw [stepUsers, UserCall.code, run_map, run_sendOtpToPhone]
  cases w.users.byPhone phone with
  | none => rfl
  | some u =>
    dsimp only
    obtain ⟨r, hrun⟩ := run_deliverOtp { w with
      users := w.users.issueOtp phone (generateOtp env) (env.utcnow 0 + otpLifetime) }
      environ phone (generateOtp env)
    obtain ⟨sent, hsent⟩ := run_requests (uses_sendSms environ phone (otpMessage (generateOtp env)))
      { w with users := w.users.issueOtp phone (generateOtp env) (env.utcnow 0 + otpLifetime) }
    rw [hrun, hsent]

theorem stepUsers_reset (env : Env) (phone otp new : String) :
    stepUsers bcrypt w (.resetPasswordWithOtp env phone otp new) =
      match checkOtp env otp (w.users.byPhone phone) with
      | .failure _ => w
      | .success _ =>
        { w with users := w.users.setPassword phone (hashPassword bcrypt env new) } := by
  rw [stepUsers, UserCall.code, run_map, run_resetPasswordWithOtp]
  cases checkOtp env otp (w.users.byPhone phone) with
  | failure message => rfl
  | success _ => rfl

/-- **What a call does to the users**: it registers one, issues a code, resets a password,
or does nothing. -/
theorem userEffect : UserEffect bcrypt w.users c (stepUsers bcrypt w c).users := by
  cases c with
  | registerUser env username password businessName phone =>
    rw [stepUsers, UserCall.code, run_map, run_registerUser]
    cases w.users.byUsername username with
    | some u => exact .nothing _
    | none =>
      dsimp only
      cases hinsert : w.users.insertOne
          (newUser bcrypt env username password businessName phone) with
      | none => exact .nothing _
      | some users => exact .registered hinsert
  | loginUser username password =>
    rw [stepUsers, UserCall.code, run_map, run_loginUser]
    exact .nothing _
  | sendOtpToPhone environ env phone =>
    rw [stepUsers_send]
    cases hfound : w.users.byPhone phone with
    | none => exact .nothing _
    | some u => exact .issued hfound
  | verifyOtp env phone otp =>
    rw [stepUsers, UserCall.code, run_map, run_verifyOtp]
    exact .nothing _
  | resetPasswordWithOtp env phone otp new =>
    rw [stepUsers_reset]
    cases hcheck : checkOtp env otp (w.users.byPhone phone) with
    | failure message => exact .nothing _
    | success _ => exact .reset hcheck

/-- **A refused call changes nothing**, be it by its answer or by an exception. -/
theorem stepUsers_of_refused
    (h : ∀ outcome, outcomeUsers bcrypt w c = .ok outcome → outcome.Refused) :
    stepUsers bcrypt w c = w := by
  unfold outcomeUsers at h
  unfold stepUsers
  cases c with
  | registerUser env username password businessName phone =>
    rw [UserCall.code, run_map, run_registerUser] at h ⊢
    cases hname : w.users.byUsername username with
    | some u => rfl
    | none =>
      rw [hname] at h
      dsimp only at h ⊢
      cases hinsert : w.users.insertOne
          (newUser bcrypt env username password businessName phone) with
      | none => rfl
      | some users =>
        rw [hinsert] at h
        exact (h _ rfl).elim
  | loginUser username password => rw [UserCall.code, run_map, run_loginUser]
  | sendOtpToPhone environ env phone =>
    rw [UserCall.code, run_map, run_sendOtpToPhone] at h ⊢
    cases hfound : w.users.byPhone phone with
    | none => rfl
    | some u =>
      rw [hfound] at h
      dsimp only at h
      obtain ⟨r, hrun⟩ := run_deliverOtp { w with
        users := w.users.issueOtp phone (generateOtp env) (env.utcnow 0 + otpLifetime) }
        environ phone (generateOtp env)
      rw [hrun] at h
      exact (h _ rfl).elim
  | verifyOtp env phone otp => rw [UserCall.code, run_map, run_verifyOtp]
  | resetPasswordWithOtp env phone otp new =>
    rw [UserCall.code, run_map, run_resetPasswordWithOtp] at h ⊢
    cases hcheck : checkOtp env otp (w.users.byPhone phone) with
    | failure message => rfl
    | success _ =>
      rw [hcheck] at h
      exact (h _ rfl).elim

end Effect

end DigitalLedger
