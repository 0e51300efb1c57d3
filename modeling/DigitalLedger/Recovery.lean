import DigitalLedger.Accounts

/-!
# Recovery of accounts

A code sent to a phone number lets the password of an account be reset, once and for ten
minutes.  The calls on a phone number address the first user who has it, so what a reset
finds pending was put there by the last code issued to the number.

## Main definitions

* `Issues`, `Resets` — a call issues a code to a phone number, or resets a password by it.
* `SetsPassword` — one user has its password set, and the others keep theirs.
* `Recovers` — a user is sent a code, resets its password by it and logs in.

## Main results

* `byPhone_step` — other calls leave the first user of a number alone.
* `reset_follows_send` — a reset uses up the last code issued, within its time.
* `recovery_iff` — who can recover an account.
-/

namespace DigitalLedger

open Trace

variable {bcrypt : Bcrypt} {w : World} {users users' : Users} {phone phone' : String}

/-! ### The first user of a number -/

theorem test_phone {u : User} :
    test ({ phone := some phone } : UserQuery) u = true ↔ phone = u.phone := by
  show UserQuery.test { phone := some phone } u = true ↔ _
  simp [UserQuery.test]

theorem phone_of_byPhone {u : User} (h : users.byPhone phone = some u) : phone = u.phone :=
  test_phone.mp (IndexedCollection.test_of_findOne h)

/-- A code is issued to the first user of a number. -/
theorem byPhone_issueOtp {u : User} (h : users.byPhone phone = some u) (otp : String)
    (expiry : Time) :
    (users.issueOtp phone otp expiry).byPhone phone =
      some { u with resetOtp := some otp, otpExpiry := some expiry } := by
  refine IndexedCollection.findOne_updateOne_self userIndexes_kept h ?_
  have hphone : phone = u.phone := phone_of_byPhone h
  exact test_phone.mpr hphone

/-- The password of the first user of a number is set, and its code used up. -/
theorem byPhone_setPassword {u : User} (h : users.byPhone phone = some u) (hashed : String) :
    (users.setPassword phone hashed).byPhone phone =
      some { u with password := hashed, resetOtp := none, otpExpiry := none } := by
  refine IndexedCollection.findOne_updateOne_self userIndexes_kept h ?_
  have hphone : phone = u.phone := phone_of_byPhone h
  exact test_phone.mpr hphone

/-- An update by one phone number leaves the users of another alone. -/
theorem byPhone_updateOne (hne : phone' ≠ phone) (x : UserUpdate) (users : Users) :
    Users.byPhone phone (users.updateOne userIndexes_kept
      ({ phone := some phone' } : UserQuery) x) = users.byPhone phone := by
  have hother : ∀ d : User, test ({ phone := some phone' } : UserQuery) d = true →
      ¬test ({ phone := some phone } : UserQuery) d = true := by
    intro d hd hd'
    exact hne ((test_phone.mp hd).trans (test_phone.mp hd').symm)
  refine IndexedCollection.findOne_updateOne_of_not userIndexes_kept (fun d hd => ?_)
    (fun d hd => ?_) users
  · exact Bool.eq_false_iff.mpr (hother d hd)
  · refine Bool.eq_false_iff.mpr fun hd' => hother d hd ?_
    exact test_phone.mpr (test_phone.mp hd')

/-! ### Calls that concern a number -/

/-- The call issues a code to the phone number. -/
def Issues (phone : String) (w : World) (c : UserCall) : Prop :=
  ∃ environ env u, c = .sendOtpToPhone environ env phone ∧ w.users.byPhone phone = some u

/-- The call resets a password by the phone number. -/
def Resets (bcrypt : Bcrypt) (phone : String) (w : World) (c : UserCall) : Prop :=
  ∃ env otp new message, c = .resetPasswordWithOtp env phone otp new ∧
    outcomeUsers bcrypt w c = .ok (.reset (.success message))

theorem outcomeUsers_reset_success {env : Env} {otp new message : String}
    (h : outcomeUsers bcrypt w (.resetPasswordWithOtp env phone otp new) =
      .ok (.reset (.success message))) :
    checkOtp env otp (w.users.byPhone phone) = .success () := by
  rw [outcomeUsers_reset] at h
  cases hcheck : checkOtp env otp (w.users.byPhone phone) with
  | success _ => rfl
  | failure message => simp [hcheck] at h

theorem resets_of_checkOtp {env : Env} {otp : String} (new : String)
    (h : checkOtp env otp (w.users.byPhone phone) = .success ()) :
    Resets bcrypt phone w (.resetPasswordWithOtp env phone otp new) :=
  ⟨env, otp, new, _, rfl, by rw [outcomeUsers_reset, h]⟩

/-- The call concerns the phone number. -/
def Concerns (bcrypt : Bcrypt) (phone : String) (w : World) (c : UserCall) : Prop :=
  Issues phone w c ∨ Resets bcrypt phone w c

/-- **Other calls leave the first user of a number alone**; where the number has no user,
one without a pending code may register. -/
theorem byPhone_step {c : UserCall} (hc : ¬Concerns bcrypt phone w c) :
    (stepUsers bcrypt w c).users.byPhone phone = w.users.byPhone phone ∨
      w.users.byPhone phone = none ∧
        ∃ u, (stepUsers bcrypt w c).users.byPhone phone = some u ∧ u.resetOtp = none := by
  have heffect : UserEffect bcrypt w.users c _ := userEffect w c
  generalize (stepUsers bcrypt w c).users = after at heffect
  cases heffect with
  | nothing c => exact .inl rfl
  | @registered env username password businessName phone' _ hinsert =>
    -- a new user comes after all others, and is the first of its number only if alone
    have hfind : after.byPhone phone = _ := IndexedCollection.findOne_insertOne hinsert
    cases hold : w.users.byPhone phone with
    | some u =>
      rw [hfind, ← Users.byPhone, hold]
      exact .inl rfl
    | none =>
      rw [hfind, ← Users.byPhone, hold, Option.none_or]
      split
      · exact .inr ⟨rfl, _, rfl, rfl⟩
      · exact .inl rfl
  | @issued environ env phone' u hfound =>
    refine .inl (byPhone_updateOne (fun heq => hc (.inl ?_)) _ w.users)
    subst heq
    exact ⟨environ, env, u, rfl, hfound⟩
  | @reset env phone' otp new hcheck =>
    refine .inl (byPhone_updateOne (fun heq => hc (.inr ?_)) _ w.users)
    subst heq
    exact resets_of_checkOtp new hcheck

/-- The first user of a number stays as it is under calls that do not concern the number. -/
theorem byPhone_after {calls : List UserCall} {u : User}
    (h : Along (stepUsers bcrypt) (fun w c => ¬Concerns bcrypt phone w c) w calls)
    (hu : w.users.byPhone phone = some u) :
    (after (stepUsers bcrypt) w calls).users.byPhone phone = some u := by
  refine h.preserves (I := fun w => w.users.byPhone phone = some u) (fun w c hc hw => ?_) hu
  rcases byPhone_step hc with heq | ⟨hnone, -⟩
  · rw [heq, hw]
  · rw [hw] at hnone
    exact absurd hnone (Option.some_ne_none u)

/-- No code is pending for the first user of the number. -/
def Idle (phone : String) (w : World) : Prop :=
  ∀ u, w.users.byPhone phone = some u → u.resetOtp = none

/-- No code is pending until a call concerns the number. -/
theorem idle_after {calls : List UserCall}
    (h : Along (stepUsers bcrypt) (fun w c => ¬Concerns bcrypt phone w c) w calls)
    (hidle : Idle phone w) : Idle phone (after (stepUsers bcrypt) w calls) := by
  refine h.preserves (I := Idle phone) (fun w c hc hw u hu => ?_) hidle
  rcases byPhone_step hc with heq | ⟨-, u', hu', hnone⟩
  · rw [heq] at hu
    exact hw u hu
  · rw [hu', Option.some.injEq] at hu
    rw [← hu, hnone]

/-! ### A reset uses up the last code issued -/

/-- A reset rewrites the user it addresses, and nothing else. -/
theorem docs_setPassword {u : User} (h : users.byPhone phone = some u) (hashed : String) :
    (users.setPassword phone hashed).docs = users.docs.map fun d =>
      if d.id = u.id then { d with password := hashed, resetOtp := none, otpExpiry := none }
      else d :=
  IndexedCollection.docs_updateOne_of_findOne userIndexes_kept _ h

/-- After a code is issued it is pending for the first user of the number. -/
theorem byPhone_send {environ : Environ} {env : OtpEnv} {u : User}
    (h : w.users.byPhone phone = some u) :
    (stepUsers bcrypt w (.sendOtpToPhone environ env phone)).users.byPhone phone =
      some { u with
        resetOtp := some (generateOtp env), otpExpiry := some (env.utcnow 0 + otpLifetime) } := by
  rw [stepUsers_send, h]
  exact byPhone_issueOtp h _ _

/-- After a reset no code is pending for the first user of the number. -/
theorem Resets.idle {c : UserCall} (h : Resets bcrypt phone w c) :
    Idle phone (stepUsers bcrypt w c) := by
  obtain ⟨env, otp, new, message, rfl, hsuccess⟩ := h
  have hcheck := outcomeUsers_reset_success hsuccess
  obtain ⟨u, hu, -, -⟩ := checkOtp_eq_success.mp hcheck
  intro u' hu'
  rw [stepUsers_reset, hcheck] at hu'
  have hset := byPhone_setPassword hu (hashPassword bcrypt env new)
  rw [hset, Option.some.injEq] at hu'
  rw [← hu']

/-- **A code is pending only since it was issued**: the last call that concerns the number
issued it to the user it is pending for. -/
theorem exists_send {calls : List UserCall} (hstart : Idle phone w) {u : User}
    (hu : (after (stepUsers bcrypt) w calls).users.byPhone phone = some u) {otp : String}
    (hotp : u.resetOtp = some otp) :
    ∃ before environ env rest u₀, calls = before ++ .sendOtpToPhone environ env phone :: rest ∧
      (after (stepUsers bcrypt) w before).users.byPhone phone = some u₀ ∧
      u = { u₀ with
        resetOtp := some (generateOtp env), otpExpiry := some (env.utcnow 0 + otpLifetime) } ∧
      Along (stepUsers bcrypt) (fun w c => ¬Concerns bcrypt phone w c)
        (stepUsers bcrypt (after (stepUsers bcrypt) w before)
          (.sendOtpToPhone environ env phone)) rest := by
  -- a code that is pending was not pending at the start, nor is it after a reset
  have hbusy : ¬Idle phone (after (stepUsers bcrypt) w calls) := by
    intro hidle
    rw [hidle u hu] at hotp
    exact absurd hotp.symm (Option.some_ne_none otp)
  rcases never_or_last (stepUsers bcrypt) (Concerns bcrypt phone) w calls with
    hnever | ⟨before, c, rest, hcalls, hc, hrest⟩
  · exact absurd (idle_after hnever hstart) hbusy
  · have hsplit : after (stepUsers bcrypt) w calls = after (stepUsers bcrypt)
        (stepUsers bcrypt (after (stepUsers bcrypt) w before) c) rest := by
      rw [hcalls, after_append, after_cons]
    rcases hc with ⟨environ, env, u₀, rfl, hu₀⟩ | hresets
    · -- the last such call issued a code, which no call has touched since
      refine ⟨before, environ, env, rest, u₀, hcalls, hu₀, ?_, hrest⟩
      rw [hsplit, byPhone_after hrest (byPhone_send hu₀), Option.some.injEq] at hu
      exact hu.symm
    · rw [hsplit] at hbusy
      exact absurd (idle_after hrest hresets.idle) hbusy

variable (bcrypt) in
/-- **A reset uses up the last code issued, within its time.**  Whenever
`reset_password_with_otp` succeeds in a run that starts without pending codes, its code is
the one the last `send_otp_to_phone` for the number issued, at most ten minutes before; no
other reset by the number has succeeded since, and what changes is the password, the code
and its expiry of the one user both calls address.  A call that is refused changes
nothing. -/
theorem reset_follows_send {start : World} (hstart : ∀ u ∈ start.users.docs, u.resetOtp = none)
    (calls : List UserCall) :
    let now := after (stepUsers bcrypt) start calls
    (∀ env phone otp new message,
      outcomeUsers bcrypt now (.resetPasswordWithOtp env phone otp new) =
        .ok (.reset (.success message)) →
      ∃ before environ env₀ rest u₀ u,
        calls = before ++ .sendOtpToPhone environ env₀ phone :: rest ∧
        (after (stepUsers bcrypt) start before).users.byPhone phone = some u₀ ∧
        generateOtp env₀ = otp ∧ env.utcnow 0 ≤ env₀.utcnow 0 + otpLifetime ∧
        Along (stepUsers bcrypt) (fun w c => ¬Issues phone w c ∧ ¬Resets bcrypt phone w c)
          (after (stepUsers bcrypt) start (before ++ [.sendOtpToPhone environ env₀ phone])) rest ∧
        now.users.byPhone phone = some u ∧ u.id = u₀.id ∧
        ∃ users', stepUsers bcrypt now (.resetPasswordWithOtp env phone otp new) =
            { now with users := users' } ∧
          users'.docs = now.users.docs.map fun d =>
            if d.id = u.id then
              { d with
                password := hashPassword bcrypt env new, resetOtp := none, otpExpiry := none }
            else d) ∧
    ∀ c, (∀ outcome, outcomeUsers bcrypt now c = .ok outcome → outcome.Refused) →
      stepUsers bcrypt now c = now := by
  intro now
  refine ⟨fun env phone otp new message hsuccess => ?_, fun c => stepUsers_of_refused now c⟩
  have hidle : Idle phone start := fun u hu => hstart u (IndexedCollection.mem_of_findOne hu)
  have hcheck := outcomeUsers_reset_success hsuccess
  obtain ⟨u, hu, hotp, htime⟩ := checkOtp_eq_success.mp hcheck
  obtain ⟨before, environ, env₀, rest, u₀, hcalls, hu₀, hissued, hrest⟩ := exists_send hidle hu hotp
  have hpending : u.resetOtp = some (generateOtp env₀) ∧
      u.otpExpiry = some (env₀.utcnow 0 + otpLifetime) ∧ u.id = u₀.id := by
    rw [hissued]
    exact ⟨rfl, rfl, rfl⟩
  obtain ⟨hcode, hexpiry, hid⟩ := hpending
  refine ⟨before, environ, env₀, rest, u₀, u, hcalls, hu₀, ?_, ?_, ?_, hu, hid, ?_⟩
  · rw [hcode] at hotp
    exact Option.some.inj hotp
  · -- the default of a missing expiry is not used: the code came with one
    rw [hexpiry] at htime
    exact htime
  · rw [after_append]
    exact Along.mono (fun w c hc => not_or.mp hc) hrest
  · refine ⟨now.users.setPassword phone (hashPassword bcrypt env new), ?_, docs_setPassword hu _⟩
    rw [stepUsers_reset, hcheck]

/-! ### A sample -/

/-- The draws of a call at a time, with the code 123456. -/
def OtpEnv.sample (now : Time) : OtpEnv := { Env.sample 1 now with randint := ⟨123456, by decide⟩ }

/-- A world without users, whose gateway cannot be reached. -/
def World.offline : World := ⟨.empty, .empty, fun _ => .failure "timed out", []⟩

/-- A merchant registers and asks for a code. -/
def sampleRecovery : List UserCall :=
  [.registerUser (.sample 1 0) "ravi" "old" "Ravi Stores" "99",
    .sendOtpToPhone .empty (.sample 1000) "99",
    .loginUser "ravi" "old"]

theorem reset_follows_send_sample :
    ∃ (before rest : List UserCall) (environ : Environ) (env₀ : OtpEnv) (u₀ u : User),
      sampleRecovery = before ++ .sendOtpToPhone environ env₀ "99" :: rest ∧
      (after (stepUsers markingBcrypt) .offline before).users.byPhone "99" = some u₀ ∧
      generateOtp env₀ = "123456" ∧ (1000 : Time) ≤ env₀.utcnow 0 + otpLifetime ∧
      u.id = u₀.id := by
  have hstart : ∀ u ∈ World.offline.users.docs, u.resetOtp = none := by decide
  obtain ⟨before, environ, env₀, rest, u₀, u, hcalls, hu₀, hotp, htime, -, -, hid, -⟩ :=
    (reset_follows_send markingBcrypt hstart sampleRecovery).1 (Env.sample 2 1000)
      "99" "123456" "new" "Password reset successfully!" (by decide +kernel)
  exact ⟨before, rest, environ, env₀, u₀, u, hcalls, hu₀, hotp, htime, hid⟩

/-! ### Who can recover an account -/

/-- The user of a username is unique. -/
theorem byUsername_eq_some {u : User} (hu : u ∈ users.docs) :
    users.byUsername u.username = some u := by
  have htest : ∀ d : User, test ({ username := some u.username } : UserQuery) d = true ↔
      u.username = d.username := by
    intro d
    show UserQuery.test { username := some u.username } d = true ↔ _
    simp [UserQuery.test]
  cases hfind : users.byUsername u.username with
  | none =>
    have hnot := Collection.findOne_eq_none.mp hfind u hu
    rw [(htest u).mpr rfl] at hnot
    exact absurd hnot (by simp)
  | some u' =>
    have hmem : u' ∈ users.docs := IndexedCollection.mem_of_findOne hfind
    have hname : u.username = u'.username := (htest u').mp (IndexedCollection.test_of_findOne hfind)
    refine congrArg some (IndexedCollection.eq_of_fields_eq List.mem_cons_self rfl hmem hu ?_)
    exact congrArg (fun name => [name]) hname.symm

/-- A phone number someone has is someone's first. -/
theorem exists_byPhone {u : User} (hu : u ∈ users.docs) :
    ∃ f, users.byPhone u.phone = some f := by
  cases hfind : users.byPhone u.phone with
  | some f => exact ⟨f, rfl⟩
  | none =>
    have hnot := Collection.findOne_eq_none.mp hfind u hu
    rw [test_phone.mpr rfl] at hnot
    exact absurd hnot (by simp)

/-- Every user is still there, with the same username and password. -/
def KeepsPasswords (users users' : Users) : Prop :=
  ∀ d ∈ users.docs, ∃ d' ∈ users'.docs,
    d'.id = d.id ∧ d'.username = d.username ∧ d'.password = d.password

theorem KeepsPasswords.trans {users'' : Users} (h : KeepsPasswords users users')
    (h' : KeepsPasswords users' users'') : KeepsPasswords users users'' := by
  intro d hd
  obtain ⟨d', hd', hid, hname, hpassword⟩ := h d hd
  obtain ⟨d'', hd'', hid', hname', hpassword'⟩ := h' d' hd'
  exact ⟨d'', hd'', hid'.trans hid, hname'.trans hname, hpassword'.trans hpassword⟩

/-- Every user is still there, with the same username; one has its password set, and the
others keep theirs. -/
def SetsPassword (oid : ObjectId) (hashed : String) (users users' : Users) : Prop :=
  ∀ d ∈ users.docs, ∃ d' ∈ users'.docs, d'.id = d.id ∧ d'.username = d.username ∧
    d'.password = if d.id = oid then hashed else d.password

theorem KeepsPasswords.setsPassword {users'' : Users} {oid : ObjectId} {hashed : String}
    (h : KeepsPasswords users users') (h' : SetsPassword oid hashed users' users'') :
    SetsPassword oid hashed users users'' := by
  intro d hd
  obtain ⟨d', hd', hid, hname, hpassword⟩ := h d hd
  obtain ⟨d'', hd'', hid', hname', hpassword'⟩ := h' d' hd'
  rw [hid, hpassword] at hpassword'
  exact ⟨d'', hd'', hid'.trans hid, hname'.trans hname, hpassword'⟩

/-- Setting the password of `f` keeps that of the users other than `u` exactly if it sets
what `f` has, or `f` is `u`. -/
theorem SetsPassword.keeps_others_iff {users'' : Users} {f u : User} {hashed : String}
    (hf : f ∈ users.docs) (hkeeps : KeepsPasswords users users')
    (hset : SetsPassword f.id hashed users' users'') :
    (∀ d, d ∈ users.docs ∨ d ∈ users'.docs → d.id ≠ u.id →
      ∃ d' ∈ users''.docs, d'.id = d.id ∧ d'.password = d.password) ↔
      (f.id ≠ u.id → hashed = f.password) := by
  obtain ⟨f', hf', hid', -, hpassword'⟩ := hkeeps f hf
  obtain ⟨f'', hf'', hid'', -, hpassword''⟩ := hkeeps.setsPassword hset f hf
  rw [if_pos rfl] at hpassword''
  constructor
  · intro h hne
    obtain ⟨d', hd', hid, hpassword⟩ := h f (.inl hf) hne
    have hsame : f'' = d' := Collection.eq_of_key_eq (C := users''.collection) hf'' hd'
      (hid''.trans hid.symm)
    rw [← hpassword'', ← hpassword, hsame]
  · intro h d hd hne
    have hstored : ∃ d' ∈ users''.docs, d'.id = d.id ∧
        d'.password = if d.id = f.id then hashed else d.password := by
      rcases hd with hd | hd
      · obtain ⟨d', hd', hid, -, hpassword⟩ := hkeeps.setsPassword hset d hd
        exact ⟨d', hd', hid, hpassword⟩
      · obtain ⟨d', hd', hid, -, hpassword⟩ := hset d hd
        exact ⟨d', hd', hid, hpassword⟩
    obtain ⟨d', hd', hid, hpassword⟩ := hstored
    refine ⟨d', hd', hid, ?_⟩
    by_cases hdf : d.id = f.id
    · -- `d` is the user whose password is set, before or after the code was sent
      have hfirst : d.password = f.password := by
        rcases hd with hd | hd
        · exact congrArg User.password
            (Collection.eq_of_key_eq (C := users.collection) hd hf hdf)
        · rw [← hpassword']
          exact congrArg User.password
            (Collection.eq_of_key_eq (C := users'.collection) hd hf' (hdf.trans hid'.symm))
      rw [hpassword, if_pos hdf, hfirst, h (hdf ▸ hne)]
    · rw [hpassword, if_neg hdf]

theorem keepsPasswords_issueOtp {u : User} (h : users.byPhone phone = some u) (otp : String)
    (expiry : Time) : KeepsPasswords users (users.issueOtp phone otp expiry) := by
  intro d hd
  have hdocs := IndexedCollection.docs_updateOne_of_findOne userIndexes_kept
    ({ resetOtp := some (some otp), otpExpiry := some (some expiry) } : UserUpdate) h
  refine ⟨_, hdocs ▸ List.mem_map_of_mem hd, ?_⟩
  split
  · exact ⟨rfl, rfl, rfl⟩
  · exact ⟨rfl, rfl, rfl⟩

/-- The call is one of the three of the recovery. -/
def UserCall.IsRecovery : UserCall → Prop
  | .registerUser _ _ _ _ _ => False
  | .loginUser _ _ => False
  | _ => True

/-- Registrations and logins concern no number. -/
theorem not_concerns {c : UserCall} (hc : ¬c.IsRecovery) : ¬Concerns bcrypt phone w c := by
  rintro (⟨environ, env, u, rfl, -⟩ | ⟨env, otp, new, message, rfl, -⟩)
  · exact hc trivial
  · exact hc trivial

/-- Registrations and logins change no password. -/
theorem keepsPasswords_step {c : UserCall} (hc : ¬c.IsRecovery) :
    KeepsPasswords w.users (stepUsers bcrypt w c).users := by
  have heffect : UserEffect bcrypt w.users c _ := userEffect w c
  generalize (stepUsers bcrypt w c).users = after at heffect
  intro d hd
  cases heffect with
  | nothing c => exact ⟨d, hd, rfl, rfl, rfl⟩
  | registered hinsert =>
    refine ⟨d, ?_, rfl, rfl, rfl⟩
    rw [IndexedCollection.docs_insertOne hinsert]
    exact List.mem_append_left _ hd
  | issued hfound => exact absurd trivial hc
  | reset hcheck => exact absurd trivial hc

/-- After a code is sent to the number of `u` and the calls `middle`, the password is reset
by the code; then `u` can log in by it, and no other password has changed. -/
def Recovers (bcrypt : Bcrypt) (w : World) (u : User) (environ : Environ) (env : OtpEnv)
    (middle : List UserCall) (env' : Env) (new : String) : Prop :=
  let w' := after (stepUsers bcrypt) w (.sendOtpToPhone environ env u.phone :: middle)
  let w'' := stepUsers bcrypt w' (.resetPasswordWithOtp env' u.phone (generateOtp env) new)
  (∃ login, outcomeUsers bcrypt w'' (.loginUser u.username new) =
      .ok (.loggedIn (.success login)) ∧ login.userId = u.id.str) ∧
    ∀ d, d ∈ w.users.docs ∨ d ∈ w'.users.docs → d.id ≠ u.id →
      ∃ d' ∈ w''.users.docs, d'.id = d.id ∧ d'.password = d.password

/-- A login finds the user of the username. -/
theorem outcomeUsers_login {u : User} (hu : u ∈ w.users.docs) (password : String) :
    (∃ login, outcomeUsers bcrypt w (.loginUser u.username password) =
        .ok (.loggedIn (.success login)) ∧ login.userId = u.id.str) ↔
      verifyPassword bcrypt password u.password = true := by
  have hfind : w.users.byUsername u.username = some u := byUsername_eq_some hu
  rw [outcomeUsers, UserCall.code, Prog.run_map, run_loginUser, hfind]
  cases hverify : verifyPassword bcrypt password u.password with
  | true =>
    refine ⟨fun _ => rfl, fun _ => ⟨⟨u.id.str, u.username, u.businessName⟩, ?_, rfl⟩⟩
    dsimp only
    rw [hverify, if_neg Bool.true_eq_false.mp]
    rfl
  | false =>
    refine ⟨?_, fun h => absurd h Bool.false_ne_true⟩
    rintro ⟨login, hlogin, -⟩
    dsimp only at hlogin
    rw [hverify, if_pos rfl] at hlogin
    exact absurd hlogin (by simp [Except.map])

variable (bcrypt) in
/-- **What the reset does**: the calls before it change no password, and it sets that of the
first user of the number. -/
theorem passwords_after_reset {u f : User} (hf : w.users.byPhone u.phone = some f)
    (environ : Environ) {env : OtpEnv} {middle : List UserCall} {env' : Env} (new : String)
    (hmiddle : ∀ c ∈ middle, ¬c.IsRecovery)
    (htime : env'.utcnow 0 ≤ env.utcnow 0 + otpLifetime) :
    let w' := after (stepUsers bcrypt) w (.sendOtpToPhone environ env u.phone :: middle)
    let w'' := stepUsers bcrypt w' (.resetPasswordWithOtp env' u.phone (generateOtp env) new)
    KeepsPasswords w.users w'.users ∧
      SetsPassword f.id (hashPassword bcrypt env' new) w'.users w''.users := by
  intro w' w''
  have hquiet : Along (stepUsers bcrypt) (fun _ c => ¬c.IsRecovery)
      (stepUsers bcrypt w (.sendOtpToPhone environ env u.phone)) middle :=
    along_of_forall hmiddle
  refine ⟨?_, fun d hd => ?_⟩
  · refine hquiet.preserves (I := fun x => KeepsPasswords w.users x.users)
      (fun x c hc hx => hx.trans (keepsPasswords_step hc)) ?_
    rw [stepUsers_send, hf]
    exact keepsPasswords_issueOtp hf _ _
  · -- the code is still pending for the first user of the number when the reset comes
    have hpending : w'.users.byPhone u.phone = some { f with
        resetOtp := some (generateOtp env), otpExpiry := some (env.utcnow 0 + otpLifetime) } := by
      show (after (stepUsers bcrypt) (stepUsers bcrypt w _) middle).users.byPhone u.phone = _
      exact byPhone_after (Along.mono (fun _ _ hc => not_concerns hc) hquiet) (byPhone_send hf)
    have hcheck : checkOtp env' (generateOtp env) (w'.users.byPhone u.phone) = .success () :=
      checkOtp_eq_success.mpr ⟨_, hpending, rfl, htime⟩
    have hstep : w'' = { w' with
        users := w'.users.setPassword u.phone (hashPassword bcrypt env' new) } := by
      show stepUsers bcrypt w' _ = _
      rw [stepUsers_reset, hcheck]
    rw [hstep, docs_setPassword hpending]
    refine ⟨_, List.mem_map_of_mem hd, ?_⟩
    dsimp only
    split
    · exact ⟨rfl, rfl, rfl⟩
    · exact ⟨rfl, rfl, rfl⟩

/-- A user can recover an account exactly as the first user of its number, or by a password
that is its own already and that leaves the first user's as it is. -/
theorem recovers_iff (hideal : bcrypt.Ideal) {u : User} (hu : u ∈ w.users.docs)
    {environ : Environ} {env : OtpEnv} {middle : List UserCall} {env' : Env} {new : String}
    (hmiddle : ∀ c ∈ middle, ¬c.IsRecovery)
    (htime : env'.utcnow 0 ≤ env.utcnow 0 + otpLifetime) :
    Recovers bcrypt w u environ env middle env' new ↔
      w.users.byPhone u.phone = some u ∨
        verifyPassword bcrypt new u.password = true ∧
          ∃ f, w.users.byPhone u.phone = some f ∧ hashPassword bcrypt env' new = f.password := by
  obtain ⟨f, hf⟩ := exists_byPhone hu
  have hfmem : f ∈ w.users.docs := IndexedCollection.mem_of_findOne hf
  obtain ⟨hkeeps, hreset⟩ := passwords_after_reset bcrypt hf environ new hmiddle htime
  unfold Recovers
  generalize after (stepUsers bcrypt) w (.sendOtpToPhone environ env u.phone :: middle) = w'
    at hkeeps hreset ⊢
  dsimp only at hreset ⊢
  generalize stepUsers bcrypt w' (.resetPasswordWithOtp env' u.phone (generateOtp env) new) = w''
    at hreset ⊢
  have hlogin : (∃ login, outcomeUsers bcrypt w'' (.loginUser u.username new) =
      .ok (.loggedIn (.success login)) ∧ login.userId = u.id.str) ↔
      verifyPassword bcrypt new
        (if u.id = f.id then hashPassword bcrypt env' new else u.password) = true := by
    obtain ⟨u'', hu'', hid, hname, hpassword⟩ := hkeeps.setsPassword hreset u hu
    rw [← hpassword, ← hname, ← hid]
    exact outcomeUsers_login hu'' new
  rw [hlogin, SetsPassword.keeps_others_iff hfmem hkeeps hreset]
  by_cases hfu : f.id = u.id
  · have heq : f = u := Collection.eq_of_key_eq (C := w.users.collection) hfmem hu hfu
    rw [if_pos hfu.symm]
    refine iff_of_true ⟨(hideal.checkpw_hashpw _ _ _).mpr rfl, fun hne => absurd hfu hne⟩ (.inl ?_)
    rw [hf, heq]
  · rw [if_neg (Ne.symm hfu)]
    constructor
    · rintro ⟨hverify, hsame⟩
      exact .inr ⟨hverify, f, hf, hsame hfu⟩
    · rintro (hfirst | ⟨hverify, f', hf', hsame⟩)
      · rw [hf, Option.some.injEq] at hfirst
        exact absurd (congrArg User.id hfirst) hfu
      · rw [hf, Option.some.injEq] at hf'
        exact ⟨hverify, fun _ => by rw [hsame, hf']⟩

/-- A registration is made under a phone number no user has. -/
def NewPhone (w : World) : UserCall → Prop
  | .registerUser _ _ _ _ phone => w.users.byPhone phone = none
  | _ => True

/-- Registrations under new numbers keep the numbers apart. -/
theorem nodup_phones_step {c : UserCall} (hc : NewPhone w c)
    (h : (w.users.docs.map User.phone).Nodup) :
    ((stepUsers bcrypt w c).users.docs.map User.phone).Nodup := by
  have heffect : UserEffect bcrypt w.users c _ := userEffect w c
  generalize (stepUsers bcrypt w c).users = after at heffect
  have hupdate : ∀ (q : UserQuery) (x : UserUpdate),
      ((w.users.updateOne userIndexes_kept q x).docs.map User.phone).Nodup := by
    intro q x
    have hphones := Collection.map_updateOne (g := User.phone) (u := x) (fun _ => rfl) q
      w.users.collection
    exact hphones ▸ h
  cases heffect with
  | nothing c => exact h
  | @registered env username password businessName phone _ hinsert =>
    have hnew : phone ∉ w.users.docs.map User.phone := by
      intro hmem
      obtain ⟨u, hu, rfl⟩ := List.mem_map.mp hmem
      obtain ⟨f, hf⟩ := exists_byPhone hu
      have hnone : w.users.byPhone u.phone = none := hc
      rw [hnone] at hf
      exact absurd hf.symm (Option.some_ne_none f)
    rw [IndexedCollection.docs_insertOne hinsert, List.map_append, List.map_singleton]
    exact List.Nodup.append h (List.nodup_singleton _) (List.disjoint_singleton.mpr hnew)
  | issued hfound => exact hupdate _ _
  | reset hcheck => exact hupdate _ _

/-- Where the numbers are apart, every user is the first of its number. -/
theorem byPhone_of_nodup (h : (users.docs.map User.phone).Nodup) {u : User}
    (hu : u ∈ users.docs) : users.byPhone u.phone = some u := by
  obtain ⟨f, hf⟩ := exists_byPhone hu
  have heq : f = u := List.inj_on_of_nodup_map h (IndexedCollection.mem_of_findOne hf) hu
    (phone_of_byPhone hf).symm
  rw [hf, heq]

/-- **Who can recover an account.**  In every state a run reaches, a user to whose number a
code is sent and whose password is reset by it within ten minutes can then log in, with no
other password changed, exactly when it is the first user of its number, or when the new
password is its own already and hashes to what the first user has.  In a run that registers
every user under a new number, each is the first of its number. -/
theorem recovery_iff (hideal : bcrypt.Ideal) {start : World} (hstart : start.users.docs = [])
    (calls : List UserCall) :
    let s := after (stepUsers bcrypt) start calls
    (∀ u ∈ s.users.docs, ∀ environ env middle env' new, (∀ c ∈ middle, ¬c.IsRecovery) →
      env'.utcnow 0 ≤ env.utcnow 0 + otpLifetime →
      (Recovers bcrypt s u environ env middle env' new ↔
        s.users.byPhone u.phone = some u ∨
          verifyPassword bcrypt new u.password = true ∧
            ∃ f, s.users.byPhone u.phone = some f ∧
              hashPassword bcrypt env' new = f.password)) ∧
    (Along (stepUsers bcrypt) NewPhone start calls →
      ∀ u ∈ s.users.docs, s.users.byPhone u.phone = some u) := by
  intro s
  refine ⟨fun u hu environ env middle env' new hmiddle htime => ?_, fun hnew u hu => ?_⟩
  · exact recovers_iff hideal hu hmiddle htime
  · have hnodup : (s.users.docs.map User.phone).Nodup := by
      refine hnew.preserves (I := fun w => (w.users.docs.map User.phone).Nodup)
        (fun w c hc hw => nodup_phones_step hc hw) ?_
      rw [hstart]
      exact List.nodup_nil
    exact byPhone_of_nodup hnodup hu

/-- A merchant registers under the phone number of another. -/
def sharedNumber : List UserCall :=
  [.registerUser (.sample 1 0) "ravi" "old" "Ravi Stores" "99",
    .registerUser (.sample 2 0) "meena" "own" "Meena Stores" "99"]

/-- The first to register can recover the account. -/
theorem recovery_iff_sample :
    Recovers markingBcrypt (after (stepUsers markingBcrypt) .offline sharedNumber)
        (newUser markingBcrypt (.sample 1 0) "ravi" "old" "Ravi Stores" "99") .empty
        (.sample 1000) [.loginUser "ravi" "old"] (.sample 3 2000) "new" := by
  have hstart : World.offline.users.docs = [] := rfl
  have hiff := (recovery_iff markingBcrypt_ideal hstart sharedNumber).1
    (newUser markingBcrypt (.sample 1 0) "ravi" "old" "Ravi Stores" "99") (by decide +kernel)
    .empty (.sample 1000) [.loginUser "ravi" "old"] (.sample 3 2000) "new"
    (by simp [UserCall.IsRecovery]) (by decide)
  exact hiff.mpr (.inl (by decide +kernel))

/-- The second cannot, and takes over the account of the first. -/
theorem recovery_shadowed :
    ¬∀ bcrypt : Bcrypt, bcrypt.Ideal → ∀ calls : List UserCall,
      ∀ u ∈ (after (stepUsers bcrypt) .offline calls).users.docs,
        ∀ environ env middle env' new, (∀ c ∈ middle, ¬c.IsRecovery) →
          env'.utcnow 0 ≤ env.utcnow 0 + otpLifetime →
          Recovers bcrypt (after (stepUsers bcrypt) .offline calls) u environ env middle env'
            new := by
  intro hclaim
  have hrecovers := hclaim markingBcrypt markingBcrypt_ideal sharedNumber
    (newUser markingBcrypt (.sample 2 0) "meena" "own" "Meena Stores" "99") (by decide +kernel)
    .empty (.sample 1000) [] (.sample 3 2000) "new" (by simp) (by decide)
  have hfirst := hrecovers.2 (newUser markingBcrypt (.sample 1 0) "ravi" "old" "Ravi Stores" "99")
    (.inl (by decide +kernel)) (by decide +kernel)
  exact absurd hfirst (by decide +kernel)

end DigitalLedger
