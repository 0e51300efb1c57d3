import DigitalLedger.Lib.Interleave
import DigitalLedger.Lib.Token
import DigitalLedger.Recovery

/-!
# Resets at the same time

A reset looks its code up in one step and uses it up in another, and the second step asks for
the phone number only.  Any number of resets with one code, interleaved on the database in any
order, are sessions that look at a token before they spend it: the code is used as often as
there are resets that look it up before the first of them has used it.

## Main definitions

* `ResetSessions` — resets of one phone number with one code, interleaved.
* `Passes` — the code passes for a caller, by what is stored and its clock.
* `Follows` — the resets are as far as the sessions of the token.

## Main results

* `follows_run` — interleaved resets follow the token.
* `succeeds_iff` — which of the resets succeed.
* `reset_once_iff` — when no two do.
-/

namespace DigitalLedger

open Prog Trace

variable {ι : Type} {bcrypt : Bcrypt} {w : World} {phone otp : String}

/-! ### The steps of a reset -/

/-- What is left of a reset whose code has passed. -/
def setPasswordOnly (bcrypt : Bcrypt) (env : Env) (phone newPassword : String) :
    App (Reply String) := do
  let _ ← UsersCol.updateOne { phone := some phone }
    { password := some (hashPassword bcrypt env newPassword)
      resetOtp := some none
      otpExpiry := some none }
  return .success "Password reset successfully!"

/-- What is left of a reset that has looked the user up. -/
def afterLookup (bcrypt : Bcrypt) (env : Env) (phone otp newPassword : String)
    (found : Option User) : App (Reply String) :=
  match checkOtp env otp found with
  | .failure message => .ret (.failure message)
  | .success _ => setPasswordOnly bcrypt env phone newPassword

/-- A reset begins with the lookup. -/
theorem resetPasswordWithOtp_eq (bcrypt : Bcrypt) (env : Env) (phone otp newPassword : String) :
    resetPasswordWithOtp bcrypt env phone otp newPassword =
      UsersCol.findOne { phone := some phone } >>=
        afterLookup bcrypt env phone otp newPassword := by
  rw [resetPasswordWithOtp, verifyOtp, bind_assoc]
  refine congrArg (_ >>= ·) (funext fun found => ?_)
  cases found with
  | none => rfl
  | some user =>
    dsimp only [afterLookup, checkOtp]
    split
    · rfl
    · split <;> rfl

/-- The code passes for a caller, by what is stored and its clock. -/
def Passes (w : World) (phone otp : String) (env : Env) : Prop :=
  checkOtp env otp (w.users.byPhone phone) = .success ()

instance (env : Env) : Decidable (Passes w phone otp env) :=
  inferInstanceAs (Decidable (_ = _))

theorem afterLookup_of_passes {env : Env} (h : Passes w phone otp env) (newPassword : String) :
    afterLookup bcrypt env phone otp newPassword (w.users.byPhone phone) =
      setPasswordOnly bcrypt env phone newPassword := by
  rw [afterLookup, show checkOtp env otp (w.users.byPhone phone) = .success () from h]

theorem afterLookup_of_not {env : Env} {found : Option User}
    (h : checkOtp env otp found ≠ .success ()) (newPassword : String) :
    ∃ message, afterLookup bcrypt env phone otp newPassword found = .ret (.failure message) := by
  rw [afterLookup]
  cases hcheck : checkOtp env otp found with
  | failure message => exact ⟨message, rfl⟩
  | success _ => exact absurd hcheck h

/-- After a reset no code is pending for the number. -/
theorem resetOtp_setPassword {users : Users} {hashed : String} {u : User}
    (h : (users.setPassword phone hashed).byPhone phone = some u) : u.resetOtp = none := by
  cases hfound : users.byPhone phone with
  | some found =>
    rw [byPhone_setPassword hfound, Option.some.injEq] at h
    rw [← h]
  | none =>
    have hsame : (users.setPassword phone hashed).collection = users.collection :=
      Collection.updateOne_of_findOne_eq_none hfound
    have hnone : (users.setPassword phone hashed).byPhone phone = none := by
      rw [Users.byPhone, IndexedCollection.findOne, hsame]
      exact hfound
    rw [hnone] at h
    cases h

theorem checkOtp_of_unset {env : Env} {found : Option User}
    (h : ∀ u, found = some u → u.resetOtp = none) : checkOtp env otp found ≠ .success () := by
  intro hcheck
  obtain ⟨u, hu, hotp, -⟩ := checkOtp_eq_success.1 hcheck
  rw [h u hu] at hotp
  cases hotp

/-! ### The resets follow the token -/

/-- Sessions that reset a password. -/
abbrev ResetSessions (ι : Type) := System ι World AppCall AppCall.Answer AppExn (Reply String)

/-- Every reset about to start, with the draws and the new password of its caller. -/
def startResets (bcrypt : Bcrypt) (w : World) (phone otp : String) (env : ι → Env)
    (new : ι → String) : ResetSessions ι :=
  System.start w fun i => resetPasswordWithOtp bcrypt (env i) phone otp (new i)

/-- What a reset has left to do in each phase. -/
def Left (bcrypt : Bcrypt) (env : Env) (phone otp newPassword : String) :
    Token.Phase → App (Reply String) → Prop
  | .fresh, p => p = resetPasswordWithOtp bcrypt env phone otp newPassword
  | .holding, p => p = setPasswordOnly bcrypt env phone newPassword
  | .refused, p => ∃ message, p = .ret (.failure message)
  | .spent, p => p = .ret (.success "Password reset successfully!")

variable {env : ι → Env} {new : ι → String} {x : ResetSessions ι} {a : Token.State ι}

/-- The resets are as far as the sessions of the token, which is there while the user is as
it was at the start. -/
structure Follows (bcrypt : Bcrypt) (w : World) (phone otp : String) (env : ι → Env)
    (new : ι → String) (x : ResetSessions ι) (a : Token.State ι) : Prop where
  there : a.live = true → x.store.users.byPhone phone = w.users.byPhone phone
  gone : a.live = false → ∀ u, x.store.users.byPhone phone = some u → u.resetOtp = none
  left : ∀ i, Left bcrypt (env i) phone otp (new i) (a.phase i) (x.sessions i).rest

variable [DecidableEq ι]

/-- A step moves its session on and leaves the others. -/
theorem Follows.update (h : Follows bcrypt w phone otp env new x a) {i : ι} {live : Bool}
    {p : Token.Phase} {y : Session AppCall AppCall.Answer AppExn (Reply String)} {w' : World}
    (hthere : live = true → w'.users.byPhone phone = w.users.byPhone phone)
    (hgone : live = false → ∀ u, w'.users.byPhone phone = some u → u.resetOtp = none)
    (hp : Left bcrypt (env i) phone otp (new i) p y.rest) :
    Follows bcrypt w phone otp env new ⟨w', Function.update x.sessions i y⟩
      ⟨live, Function.update a.phase i p⟩ := by
  refine ⟨hthere, hgone, fun j => ?_⟩
  dsimp only
  by_cases hji : j = i
  · subst hji
    rwa [Function.update_self, Function.update_self]
  · rw [Function.update_of_ne hji, Function.update_of_ne hji]
    exact h.left j

/-- **A step of a reset** is a step of its session of the token. -/
theorem Follows.step (h : Follows bcrypt w phone otp env new x a) (i : ι) :
    Follows bcrypt w phone otp env new (x.step execApp i)
      (Token.step (fun i => Passes w phone otp (env i)) a i) := by
  have hi := h.left i
  rw [Token.step]
  cases hphase : a.phase i with
  | fresh =>
    rw [hphase] at hi
    have hrest := hi.trans (resetPasswordWithOtp_eq bcrypt (env i) phone otp (new i))
    rw [System.step_perform hrest rfl]
    refine h.update h.there h.gone ?_
    split_ifs with hlook
    · obtain ⟨hlive, hpasses⟩ := hlook
      show afterLookup bcrypt (env i) phone otp (new i) (x.store.users.byPhone phone) = _
      rw [h.there hlive]
      exact afterLookup_of_passes hpasses (new i)
    · refine afterLookup_of_not (fun hcheck => ?_) (new i)
      cases hlive : a.live with
      | true =>
        refine hlook ⟨hlive, ?_⟩
        rw [Passes, ← h.there hlive]
        exact hcheck
      | false => exact checkOtp_of_unset (h.gone hlive) hcheck
  | holding =>
    rw [hphase] at hi
    rw [System.step_perform hi rfl]
    refine h.update (fun hlive => absurd hlive Bool.false_ne_true) (fun _ u hu => ?_) rfl
    exact resetOtp_setPassword hu
  | refused =>
    rw [hphase] at hi
    obtain ⟨message, hrest⟩ := hi
    rw [System.step_of_outcome (Session.outcome_ret hrest)]
    exact h
  | spent =>
    rw [hphase] at hi
    rw [System.step_of_outcome (Session.outcome_ret hi)]
    exact h

/-- **Interleaved resets follow the token.** -/
theorem follows_run (bcrypt : Bcrypt) (w : World) (phone otp : String) (env : ι → Env)
    (new : ι → String) (sched : List ι) :
    Follows bcrypt w phone otp env new
      ((startResets bcrypt w phone otp env new).run execApp sched)
      (Token.run (fun i => Passes w phone otp (env i)) Token.start sched) := by
  have hrun : ∀ (x : ResetSessions ι) (a : Token.State ι), Follows bcrypt w phone otp env new x a →
      Follows bcrypt w phone otp env new (x.run execApp sched)
        (Token.run (fun i => Passes w phone otp (env i)) a sched) := by
    induction sched with
    | nil => exact fun x a h => h
    | cons i sched ih => exact fun x a h => ih _ _ (h.step i)
  refine hrun _ _ ⟨fun _ => rfl, fun h => ?_, fun i => rfl⟩
  cases h

/-! ### How often a code is used -/

/-- The reset has ended with success. -/
def Succeeds (y : Session AppCall AppCall.Answer AppExn (Reply String)) : Prop :=
  ∃ message, y.outcome = some (.ok (.success message))

theorem not_succeeds_of_call {y : Session AppCall AppCall.Answer AppExn (Reply String)}
    {c : AppCall} {k : Except AppExn c.Answer → App (Reply String)} (h : y.rest = .call c k) :
    ¬Succeeds y := by
  rintro ⟨message, houtcome⟩
  rw [Session.outcome_call h] at houtcome
  cases houtcome

/-- **Which of the resets succeed**: those that look the code up before it is used, and take
their second step. -/
theorem succeeds_iff (bcrypt : Bcrypt) (w : World) (phone otp : String) (env : ι → Env)
    (new : ι → String) (sched : List ι) (i : ι) :
    Succeeds (((startResets bcrypt w phone otp env new).run execApp sched).sessions i) ↔
      Token.Spends (fun i => Passes w phone otp (env i)) sched i := by
  have hleft := (follows_run bcrypt w phone otp env new sched).left i
  rw [← Token.spent_iff]
  cases hphase : (Token.run (fun i => Passes w phone otp (env i)) Token.start sched).phase i with
  | fresh =>
    rw [hphase] at hleft
    have hrest := hleft.trans (resetPasswordWithOtp_eq bcrypt (env i) phone otp (new i))
    exact iff_of_false (not_succeeds_of_call hrest) (by decide)
  | holding =>
    rw [hphase] at hleft
    exact iff_of_false (not_succeeds_of_call hleft) (by decide)
  | refused =>
    rw [hphase] at hleft
    obtain ⟨refusal, hrest⟩ := hleft
    refine iff_of_false ?_ (by decide)
    rintro ⟨message, houtcome⟩
    rw [Session.outcome_ret hrest] at houtcome
    cases houtcome
  | spent =>
    rw [hphase] at hleft
    exact iff_of_true ⟨_, Session.outcome_ret hleft⟩ rfl

/-- No two of the resets succeed. -/
def UsedOnce (x : ResetSessions ι) : Prop :=
  ∀ i j, Succeeds (x.sessions i) → Succeeds (x.sessions j) → i = j

/-- **A code is used once** unless two resets, for which it passes, look it up before the first
of them has used it, and both go on. -/
theorem reset_once_iff (bcrypt : Bcrypt) (w : World) (phone otp : String) (env : ι → Env)
    (new : ι → String) (sched : List ι) :
    UsedOnce ((startResets bcrypt w phone otp env new).run execApp sched) ↔
      ∀ i j, Token.Overlap (fun i => Passes w phone otp (env i)) sched i j → i = j := by
  rw [← Token.spent_once_iff, UsedOnce]
  simp only [succeeds_iff, Token.spent_iff]

/-- A code that is issued is used once, whoever resets a password by it. -/
def CodesUsedOnce : Prop :=
  ∀ (bcrypt : Bcrypt) (w : World) (phone otp : String) (u : User),
    w.users.byPhone phone = some u → u.resetOtp = some otp →
      ∀ (env : Bool → Env) (new : Bool → String), new.Injective → ∀ sched : List Bool,
        UsedOnce ((startResets bcrypt w phone otp env new).run execApp sched)

/-- Two resets look the code up, and then both use it. -/
theorem code_used_twice : ¬CodesUsedOnce := by
  intro hclaim
  have honce := hclaim markingBcrypt (after (stepUsers markingBcrypt) .offline sampleRecovery)
    "99" "123456" _ rfl rfl (fun _ => .sample 2 1000) (fun b => if b then "new" else "other")
    (by decide) [false, true, false, true]
  exact absurd (honce false true ⟨_, rfl⟩ ⟨_, rfl⟩) (by decide)

end DigitalLedger
