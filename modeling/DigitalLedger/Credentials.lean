import DigitalLedger.Deployment
import DigitalLedger.Lib.History

/-!
# Who gets in

A run decides by what it has read, and by the time it acts on it the database may have
changed.  What is true all the same is that it *was* so, at some moment since the form was
submitted: whoever is logged in has given the password that was stored then, and whoever has
set a password anew has given the code that was stored then.

## Main definitions

* `siteAt`, `Seen`, `Submitted` — the history of the process.
* `SessionState.Vouched` — the session has been logged in with a password, or with a PIN.
* `UsersDue` — what the forms let a session do to the users.

## Main results

* `due_serve` — the runs do no more than that.
* `sessions_vouched` — every session that is logged in has been logged in.
* `UsersDue.renewed` — how a user changes.
* `password_changes` — a password changes only by a code that was sent to its owner.
-/

namespace DigitalLedger

open Prog

variable {ι : Type} [DecidableEq ι]

/-! ### The history of the process -/

section History

variable (set : Setting) (gateway : ℕ → Response) (acts : List (LiveAct ι))

/-- The site after the first `k` acts. -/
def siteAt (k : ℕ) : Site ι := Pool.history execPage (serve set) (Live.start gateway) acts k

/-- The site was so at a moment between `b` and `j`. -/
def Seen (b j : ℕ) (p : Site ι → Prop) : Prop :=
  ∃ k, b ≤ k ∧ k ≤ j ∧ p (siteAt set gateway acts k)

/-- The act of number `b` was that the form was submitted in the session `i`. -/
def Submitted (i : ι) (b : ℕ) (e : AuthEvent) : Prop :=
  acts[b]? = some (.begin i (.page (.auth e)))

/-- By the moment `j`, the session was logged in by someone who had the password of the
merchant, or the PIN of the customer. -/
structure SessionState.Vouched (i : ι) (j : ℕ) (st : SessionState) : Prop where
  merchant : st.loggedIn = true → ∃ b logEnv password, ∃ u : User,
    Submitted acts i b (.login logEnv u.username password) ∧
      verifyPassword set.bcrypt password u.password = true ∧ st.userId = u.id.str ∧
        Seen set gateway acts b j fun site => u ∈ site.world.users.docs
  customer : ∀ c ∈ st.custData, ∃ b pin, ∃ c' : Customer,
    Submitted acts i b (.customerLogin c'.phone pin) ∧
      c'.portalPin ≠ "" ∧ verifyPin set.bcrypt pin c'.portalPin = true ∧ c = c'.withStrId ∧
        Seen set gateway acts b j fun site => c' ∈ site.world.ledger.customers.docs

/-- What the forms let the session `i` do to the users, at the moment `j`. -/
inductive UsersDue (i : ι) (j : ℕ) : Op User UserQuery UserUpdate → Prop
  | findOne (q : UserQuery) : UsersDue i j (.findOne q)
  | find (q : UserQuery) : UsersDue i j (.find q)
  | register {b : ℕ} {env : Env} {username bizName phone password : String}
      (h : Submitted acts i b (.register env username bizName phone password password))
      (hb : b ≤ j) :
      UsersDue i j (.insertOne (newUser set.bcrypt env username password bizName phone))
  | issue {b : ℕ} {env : OtpEnv} {phone : String}
      (h : Submitted acts i b (.sendOtp env phone)) (hb : b ≤ j) :
      UsersDue i j (.updateOne { phone := some phone }
        { resetOtp := some (some (generateOtp env))
          otpExpiry := some (some (env.utcnow 0 + otpLifetime)) })
  | reset {b : ℕ} {env : Env} {phone otp password : String} {v : User}
      (h : Submitted acts i b (.resetPassword env otp password password))
      (hotp : v.resetOtp = some otp) (hexpiry : env.utcnow 0 ≤ v.otpExpiry.getD (env.utcnow 1))
      (hseen : Seen set gateway acts b j fun site => site.world.users.byPhone phone = some v) :
      UsersDue i j (.updateOne { phone := some phone }
        { password := some (hashPassword set.bcrypt env password)
          resetOtp := some none
          otpExpiry := some none })

/-- What a run of the session may call at the moment `j`. -/
def PageCall.Due (i : ι) (j : ℕ) : PageCall → Prop
  | .app (.users op) => UsersDue set gateway acts i j op
  | .session st => st.Vouched set gateway acts i j
  | _ => True

/-- From the moment `b` on, the run does what the session may do. -/
abbrev Script.Due {α : Type} (i : ι) (b : ℕ) (Q : ℕ → α → Prop) (p : Script α) : Prop :=
  p.Tracks (execPage i) (siteAt set gateway acts) acts.length (PageCall.Due set gateway acts i) Q b

end History

variable {set : Setting} {gateway : ℕ → Response} {acts : List (LiveAct ι)} {i : ι} {b j : ℕ}
  {st : SessionState}

theorem Seen.later {j' : ℕ} {p : Site ι → Prop} (h : Seen set gateway acts b j p) (hj : j ≤ j') :
    Seen set gateway acts b j' p := by
  obtain ⟨k, hb, hk, hp⟩ := h
  exact ⟨k, hb, hk.trans hj, hp⟩

theorem test_username {u : User} {username : String} :
    Document.test ({ username := some username } : UserQuery) u = true ↔
      u.username = username := by
  show UserQuery.test { username := some username } u = true ↔ _
  simp only [UserQuery.test, Option.all_none, Option.all_some, Bool.true_and, Bool.and_true,
    beq_iff_eq]
  exact eq_comm

theorem vouched_initial : SessionState.initial.Vouched set gateway acts i j where
  merchant h := absurd h Bool.false_ne_true
  customer c hc := absurd hc (Option.not_mem_none c)

/-- What else is in the session state does not matter. -/
theorem SessionState.Vouched.congr {st' : SessionState} (h : st.Vouched set gateway acts i j)
    (hin : st'.loggedIn = true → st.loggedIn = true ∧ st'.userId = st.userId)
    (hcust : ∀ c ∈ st'.custData, c ∈ st.custData) : st'.Vouched set gateway acts i j where
  merchant h' := by
    rw [(hin h').2]
    exact h.merchant (hin h').1
  customer c hc := h.customer c (hcust c hc)

theorem SessionState.Vouched.later {j' : ℕ} (h : st.Vouched set gateway acts i j) (hj : j ≤ j') :
    st.Vouched set gateway acts i j' where
  merchant hin := by
    obtain ⟨b, logEnv, password, u, hsubmitted, hverify, hid, hseen⟩ := h.merchant hin
    exact ⟨b, logEnv, password, u, hsubmitted, hverify, hid, hseen.later hj⟩
  customer c hc := by
    obtain ⟨b, pin, c', hsubmitted, hset, hverify, hid, hseen⟩ := h.customer c hc
    exact ⟨b, pin, c', hsubmitted, hset, hverify, hid, hseen.later hj⟩

/-! ### The programs that leave users and sessions alone -/

/-- The call writes no user, and sets no session. -/
def PageCall.Neutral : PageCall → Prop
  | .app (.users (.findOne _)) => True
  | .app (.users (.find _)) => True
  | .app (.users _) => False
  | .session _ => False
  | _ => True

theorem PageCall.Neutral.due {c : PageCall} (hc : c.Neutral) : c.Due set gateway acts i j := by
  rcases c with (c | op | r) | op | st
  · trivial
  · cases op with
    | findOne q => exact .findOne q
    | find q => exact .find q
    | insertOne u => exact hc.elim
    | updateOne q x => exact hc.elim
    | deleteOne q => exact hc.elim
    | deleteMany q => exact hc.elim
  · trivial
  · trivial
  · exact hc.elim

theorem PageCall.Plain.neutral {c : PageCall} (hc : c.Plain) : c.Neutral := by
  rcases c with (c | op | r) | op | st
  · trivial
  · cases op with
    | findOne q => trivial
    | find q => trivial
    | insertOne u => exact hc.elim
    | updateOne q x => exact hc.elim
    | deleteOne q => exact hc.elim
    | deleteMany q => exact hc.elim
  · trivial
  · trivial
  · exact hc.elim

section Pages

variable {α : Type} {P : PageCall → Prop}

/-- The pages work on the ledger and on the log, and those that send messages look for users. -/
theorem admits_of {m : String} {sends : Prop} (hdb : ∀ c, P (.app (.ledger c)))
    (hlogs : ∀ op, P (.logs op)) (hrequest : sends → ∀ r, P (.app (.request r)))
    (husers : sends → ∀ q, P (.app (.users (.findOne q)))) : Admits set m sends P where
  call _ _ _ := (Uses.trivially _).mono fun c _ => hdb c
  score _ _ := (Uses.trivially _).mono fun c _ => hdb c
  customers _ := hdb _
  transactions _ := hdb _
  reminders hsends channel := by
    refine uses_ofApp (Uses.bind (App.uses_ofDb (uses_query (hdb _))) fun customers => ?_)
    refine (outside_remindAll _ _ customers).mono fun c hc => ?_
    rcases c with c | op | r
    · exact hc.elim
    · cases op with
      | findOne q => exact husers hsends q
      | find q => exact hc.elim
      | insertOne u => exact hc.elim
      | updateOne q x => exact hc.elim
      | deleteOne q => exact hc.elim
      | deleteMany q => exact hc.elim
    · exact hrequest hsends r
  request := hrequest
  readLog _ := hlogs _
  clearLog _ := hlogs _
  log _ _ := hlogs _

theorem neutral_plain {p : Script α} (hp : Uses PageCall.Plain p) : Uses PageCall.Neutral p :=
  hp.mono fun _ hc => hc.neutral

theorem due_neutral {p : Script α} (hp : Uses PageCall.Neutral p) :
    Script.Due set gateway acts i b (fun _ _ => True) p :=
  Tracks.of_uses hp (fun _ _ _ hc => hc.due) fun _ _ _ => trivial

/-- The pages of a merchant write no user, and set no session. -/
theorem due_plan {t : Trigger} {m : String} {p : Script (List Notice)}
    (hp : Plan set t m (.any True) p) :
    Script.Due set gateway acts i b (fun _ _ => True) p :=
  due_neutral (uses_plan hp (admits_of (fun _ => trivial) (fun _ => trivial)
    (fun _ _ => trivial) fun _ _ => trivial))

end Pages

/-! ### The page of a visitor -/

/-- What a look-up of a user has told. -/
theorem due_findUser (q : UserQuery) :
    Script.Due set gateway acts i b (fun j found => ∀ u ∈ found,
      Seen set gateway acts b j fun site => site.world.users.findOne q = some u)
      (Script.ofApp (UsersCol.findOne q)) := by
  rw [UsersCol.findOne, Script.ofApp_perform]
  refine Tracks.perform fun j hj _ _ => ⟨.findOne q, fun found hanswer u hu => ?_⟩
  exact ⟨j, hj, Nat.le_succ j, (Except.ok.inj hanswer).trans hu⟩

/-- Who logs in has given the password that was stored when the user was looked up. -/
theorem due_loginUser (username password : String) :
    Script.Due set gateway acts i b (fun j reply => ∀ res, reply = .success res →
      ∃ u : User, u.username = username ∧
        verifyPassword set.bcrypt password u.password = true ∧ res.userId = u.id.str ∧
          Seen set gateway acts b j fun site => u ∈ site.world.users.docs)
      (Script.ofApp (loginUser set.bcrypt username password)) := by
  rw [loginUser, Script.ofApp_bind]
  refine (due_findUser _).bind fun j found _ hfound => ?_
  cases found with
  | none => exact fun res hres => absurd hres (by simp)
  | some u =>
    obtain ⟨k, hb, hk, hfind⟩ := hfound u rfl
    dsimp only
    split
    · exact fun res hres => absurd hres (by simp)
    next hverify =>
    intro res hres
    rw [← Reply.success.inj hres]
    exact ⟨u, test_username.mp (IndexedCollection.test_of_findOne hfind), by simpa using hverify,
      rfl, k, hb, hk, IndexedCollection.mem_of_findOne hfind⟩

/-- A customer who logs in has given the PIN that was stored when it was looked up. -/
theorem due_customerPortalLogin (phone pin : String) :
    Script.Due set gateway acts i b (fun j reply => ∀ c, reply = .success c →
      ∃ c' : Customer, c'.phone = phone ∧ c'.portalPin ≠ "" ∧
        verifyPin set.bcrypt pin c'.portalPin = true ∧ c = c'.withStrId ∧
          Seen set gateway acts b j fun site => c' ∈ site.world.ledger.customers.docs)
      (Script.ofDb (customerPortalLogin set.bcrypt phone pin)) := by
  have hfound : Script.Due set gateway acts i b (fun j found => ∀ c ∈ found, c.phone = phone ∧
      Seen set gateway acts b j fun site => c ∈ site.world.ledger.customers.docs)
      (Script.perform (.app (.ledger (.customers (.findOne { phone := some phone }))))) := by
    refine Tracks.perform fun j hj _ _ => ⟨trivial, fun found hanswer c hc => ?_⟩
    have hfind : (siteAt set gateway acts j).world.ledger.customers.findOne
        { phone := some phone } = some c := (Except.ok.inj hanswer).trans hc
    exact ⟨test_customer_phone.mp (Collection.test_of_findOne hfind), j, hj, Nat.le_succ j,
      Collection.mem_of_findOne hfind⟩
  rw [Script.ofDb, customerPortalLogin, App.ofDb_bind, Script.ofApp_bind, CustomersCol.findOne,
    App.ofDb_query, Script.ofApp_perform]
  refine hfound.bind fun j found _ hfound => ?_
  cases found with
  | none => exact fun c hc => absurd hc (by simp)
  | some c' =>
    obtain ⟨hphone, hseen⟩ := hfound c' rfl
    dsimp only
    split
    · exact fun c hc => absurd hc (by simp)
    next hset =>
    split
    · exact fun c hc => absurd hc (by simp)
    next hverify =>
    intro c hc
    exact ⟨c', hphone, hset, by simpa using hverify, (Reply.success.inj hc).symm, hseen⟩

theorem due_sendOtpToPhone {env : OtpEnv} {phone : String}
    (h : Submitted acts i b (.sendOtp env phone)) :
    Script.Due set gateway acts i b (fun _ _ => True)
      (Script.ofApp (sendOtpToPhone set.environ env phone)) := by
  rw [sendOtpToPhone, Script.ofApp_bind]
  refine (due_findUser _).bind fun j found hj _ => ?_
  cases found with
  | none => trivial
  | some u =>
    dsimp only
    rw [Script.ofApp_bind, UsersCol.updateOne, Script.ofApp_perform]
    refine Tracks.bind (Q := fun _ _ => True) (Tracks.perform fun j' hj' _ _ =>
      ⟨.issue h (hj.trans hj'), fun _ _ => trivial⟩) fun j' _ _ _ => ?_
    refine due_neutral (uses_ofApp ?_)
    exact (plain_requests (requests_deliverOtp _ _ _)).mono fun _ hc => hc.neutral

/-- Whoever sets a password has given the code that was stored when the user was looked up. -/
theorem due_resetPasswordWithOtp {env : Env} {otp password : String} (phone : String)
    (h : Submitted acts i b (.resetPassword env otp password password)) :
    Script.Due set gateway acts i b (fun _ _ => True)
      (Script.ofApp (resetPasswordWithOtp set.bcrypt env phone otp password)) := by
  have hverified : Script.Due set gateway acts i b (fun j reply => reply = .success () →
      ∃ v : User, v.resetOtp = some otp ∧ env.utcnow 0 ≤ v.otpExpiry.getD (env.utcnow 1) ∧
        Seen set gateway acts b j fun site => site.world.users.byPhone phone = some v)
      (Script.ofApp (verifyOtp env phone otp)) := by
    rw [verifyOtp, Script.ofApp_bind]
    refine (due_findUser _).bind fun j found _ hfound => ?_
    cases found with
    | none => exact fun hreply => absurd hreply (by simp)
    | some v =>
      dsimp only
      split
      · exact fun hreply => absurd hreply (by simp)
      next hotp =>
      split
      · exact fun hreply => absurd hreply (by simp)
      next hexpiry =>
      exact fun _ => ⟨v, not_not.mp hotp, not_lt.mp hexpiry, hfound v rfl⟩
  rw [resetPasswordWithOtp, Script.ofApp_bind]
  refine hverified.bind fun j reply _ hreply => ?_
  cases reply with
  | failure message => trivial
  | success _ =>
    obtain ⟨v, hotp, hexpiry, hseen⟩ := hreply rfl
    dsimp only
    rw [Script.ofApp_bind, UsersCol.updateOne, Script.ofApp_perform]
    exact Tracks.bind (Q := fun _ _ => True) (Tracks.perform fun j' hj' _ _ =>
      ⟨.reset h hotp hexpiry (hseen.later hj'), fun _ _ => trivial⟩) fun _ _ _ _ => trivial

theorem due_setSession {st' : SessionState} {α : Type} {a : α}
    (h : st'.Vouched set gateway acts i b) :
    Script.Due set gateway acts i b (fun _ _ => True) (setSession st' >>= fun _ => .ret a) :=
  Tracks.bind (Q := fun _ _ => True) (Tracks.perform fun _ hj _ _ =>
    ⟨h.later hj, fun _ _ => trivial⟩) fun _ _ _ _ => trivial

theorem due_showAuthPage (hst : st.Vouched set gateway acts i b) {e : AuthEvent}
    (h : Submitted acts i b e) :
    Script.Due set gateway acts i b (fun _ _ => True) (showAuthPage set st e) := by
  cases e with
  | login logEnv username password =>
    refine (due_loginUser _ _).bind fun j reply hj hreply => ?_
    cases reply with
    | failure message => trivial
    | success res =>
      obtain ⟨u, rfl, hverify, hid, hseen⟩ := hreply res rfl
      have hst' := hst.later hj
      refine Tracks.bind (Q := fun _ _ => True) (Tracks.perform fun j' hj' _ _ =>
        ⟨SessionState.Vouched.later ?_ hj', fun _ _ => trivial⟩) fun j' _ _ _ => ?_
      · exact ⟨fun _ => ⟨b, logEnv, password, u, h, hverify, hid, hseen⟩, hst'.customer⟩
      · have hlog : Uses PageCall.Neutral
            (logAction logEnv res.userId "LOGIN" s!"User {u.username} logged in") :=
          Uses.perform trivial
        exact (due_neutral hlog).bind fun _ _ _ _ => trivial
  | register env newUser bizName phone newPass confPass =>
    rw [showAuthPage]
    split
    · trivial
    next hconf =>
    split
    · trivial
    obtain rfl := not_not.mp hconf
    refine Tracks.of_uses (Uses.bind (P := fun c => c.Neutral ∨ c = .app (.users (.insertOne
      (DigitalLedger.newUser set.bcrypt env newUser newPass bizName phone))))
        (uses_ofApp (Uses.bind (Uses.perform (.inl trivial)) fun existing => ?_)) fun reply => ?_)
      (fun j c hj hc => ?_) fun _ _ _ => trivial
    · split
      · exact .ret _
      · exact Uses.bind (Uses.perform (.inr rfl)) fun _ => .ret _
    · cases reply with
      | failure message => exact .ret _
      | success uid => exact .ret _
    · rcases hc with hc | rfl
      · exact hc.due
      · exact .register h hj
  | customerLogin cphone cpin =>
    refine (due_customerPortalLogin _ _).bind fun j reply hj hreply => ?_
    cases reply with
    | failure message => trivial
    | success c =>
      obtain ⟨c', rfl, hset, hverify, hc, hseen⟩ := hreply c rfl
      refine due_setSession ⟨(hst.later hj).merchant, fun c'' hc'' => ?_⟩
      obtain rfl := Option.some.inj hc''
      exact ⟨b, cpin, c', h, hset, hverify, hc, hseen⟩
  | sendOtp env fpPhone =>
    rw [showAuthPage]
    split
    · trivial
    refine (due_sendOtpToPhone h).bind fun j reply hj _ => ?_
    cases reply with
    | failure message => trivial
    | success res =>
      exact due_setSession ((hst.later hj).congr (fun hin => ⟨hin, rfl⟩) fun _ hc => hc)
  | resetPassword env otp newPass conf =>
    rw [showAuthPage]
    split
    · trivial
    split
    · trivial
    next hconf =>
    obtain rfl := not_not.mp hconf
    refine (due_resetPasswordWithOtp _ h).bind fun j reply hj _ => ?_
    cases reply with
    | failure message => trivial
    | success _ =>
      exact due_setSession ((hst.later hj).congr (fun hin => ⟨hin, rfl⟩) fun _ hc => hc)
  | back =>
    rw [showAuthPage]
    split
    · trivial
    · exact due_setSession (hst.congr (fun hin => ⟨hin, rfl⟩) fun _ hc => hc)

/-- **A run does what its session may do.** -/
theorem due_serve (i : ι) (t : Trigger) (site : Site ι)
    (hst : (site.sessions i).Vouched set gateway acts i b)
    (h : acts[b]? = some (.begin i t)) :
    Script.Due set gateway acts i b (fun _ _ => True) (serve set i t site) := by
  cases t with
  | monthlyReminders =>
    exact due_neutral (neutral_plain ((plain_runMonthlyReminders _ _ _).bind fun _ => .ret _))
  | page e =>
    rw [serve]
    unfold main
    split
    · cases e with
      | portal e =>
        cases e with
        | logout => exact due_setSession (hst.congr (fun hin => ⟨hin, rfl⟩)
            fun c hc => absurd hc (Option.not_mem_none c))
      | auth e => trivial
      | sidebar e => trivial
      | customers e => trivial
      | transactions e => trivial
      | reminders e => trivial
      | activity e => trivial
    split
    · cases e with
      | auth e => exact due_showAuthPage hst h
      | portal e => trivial
      | sidebar e => trivial
      | customers e => trivial
      | transactions e => trivial
      | reminders e => trivial
      | activity e => trivial
    · cases e with
      | sidebar e =>
        cases e with
        | logout logEnv =>
          have hlog : Uses PageCall.Neutral
              (logAction logEnv (site.sessions i).userId "LOGOUT" "User logged out") :=
            Uses.perform trivial
          refine (due_neutral hlog).bind fun j _ hj _ => ?_
          exact due_setSession ((hst.later hj).congr
            (fun hin => absurd hin Bool.false_ne_true) fun _ hc => hc)
      | customers e => exact due_plan (plan_showCustomers e)
      | transactions e =>
        exact due_plan (plan_showTransactions (fun _ => trivial) fun _ _ _ =>
          e.offered_of (fun _ _ => trivial) _)
      | reminders e => exact due_plan (plan_showReminders trivial e)
      | activity e => exact due_plan (plan_showActivityLog e)
      | auth e => trivial
      | portal e => trivial

/-! ### The process -/

/-- At the moment `j`, the sessions are vouched for. -/
def VouchedAt (set : Setting) (gateway : ℕ → Response) (acts : List (LiveAct ι)) (j : ℕ) : Prop :=
  ∀ i, ((siteAt set gateway acts j).sessions i).Vouched set gateway acts i j

/-- What holds after the first `k` acts. -/
theorem due_moment (set : Setting) (gateway : ℕ → Response) (acts : List (LiveAct ι)) {k : ℕ}
    (hk : k ≤ acts.length) :
    VouchedAt set gateway acts k ∧ ∀ i, Pool.Follows execPage (serve set) (Live.start gateway) acts
      (PageCall.Due set gateway acts) i
        ((Pool.moment execPage (serve set) (Live.start gateway) acts k).threads i) k := by
  have hstart : ∀ i, Pool.Follows execPage (serve set) (Live.start gateway) acts
      (PageCall.Due set gateway acts) i ((Live.start gateway : Live ι).threads i) 0 :=
    fun i => trivial
  refine Pool.tracks_moment (J := VouchedAt set gateway acts) (fun _ => vouched_initial) ?_ ?_
    hstart (fun b i t hb hvouched => due_serve i t _ (hvouched i) hb) hk
  · intro i k c _ hc hstore hvouched j
    rw [siteAt, hstore]
    have hj := (hvouched j).later (Nat.le_succ k)
    rcases c with c | op | st
    · exact hj
    · exact hj
    · change SessionState.Vouched set gateway acts j (k + 1)
        (Function.update (siteAt set gateway acts k).sessions i st j)
      by_cases hij : j = i
      · subst hij
        rw [Function.update_self]
        exact SessionState.Vouched.later hc (Nat.le_succ k)
      · rw [Function.update_of_ne hij]
        exact hj
  · intro k hstore hvouched i
    rw [siteAt, hstore]
    exact (hvouched i).later (Nat.le_succ k)

theorem siteAt_length (set : Setting) (gateway : ℕ → Response) (acts : List (LiveAct ι)) :
    siteAt set gateway acts acts.length = ((Live.start gateway).after set acts).store := by
  rw [siteAt, Pool.history, Pool.moment_length]
  rfl

/-- **No one gets in without a password, or a PIN.**  Whatever the sessions do, and however
their runs are interleaved or dropped: if a merchant is logged in in a session, the log-in form
was submitted there with its username and a password that matched its stored hash at some
moment since; if a customer is, the form was submitted there with its phone number and a PIN
that matched, at some moment since. -/
theorem sessions_vouched (set : Setting) (gateway : ℕ → Response) (acts : List (LiveAct ι))
    (i : ι) : (((Live.start gateway).after set acts).store.sessions i).Vouched set gateway acts i
      acts.length := by
  rw [← siteAt_length]
  exact (due_moment set gateway acts le_rfl).1 i

/-! ### How users change -/

/-- What an act does to the users. -/
theorem users_succ (set : Setting) (gateway : ℕ → Response) {acts : List (LiveAct ι)} {k : ℕ}
    (hk : k < acts.length) :
    (siteAt set gateway acts (k + 1)).world.users = (siteAt set gateway acts k).world.users ∨
      ∃ i op, UsersDue set gateway acts i k op ∧
        (siteAt set gateway acts (k + 1)).world.users =
          (op.execIndexed userIndexes_kept (AppExn.database .duplicateKeyError)
            (siteAt set gateway acts k).world.users).2 := by
  rcases Pool.history_succ hk (due_moment set gateway acts (Nat.le_of_lt hk)).2 with
    hsame | ⟨i, c, hc, hstore⟩
  · rw [siteAt, hsame]
    exact .inl rfl
  · rw [siteAt, hstore]
    rcases c with (c | op | r) | op | st
    · exact .inl rfl
    · exact .inr ⟨i, op, hc, rfl⟩
    · exact .inl rfl
    · exact .inl rfl
    · exact .inl rfl

/-- An update by phone number rewrites the first user of the number. -/
theorem mem_updateOne_phone {users : Users} {phone : String} {x : UserUpdate} {u' : User}
    (hu' : u' ∈ (users.updateOne userIndexes_kept ({ phone := some phone } : UserQuery) x).docs) :
    u' ∈ users.docs ∨ ∃ u, users.byPhone phone = some u ∧ u' = x.apply u := by
  cases hfind : users.byPhone phone with
  | none =>
    have hnone : users.docs.find? (Document.test ({ phone := some phone } : UserQuery)) = none :=
      hfind
    rw [IndexedCollection.docs_updateOne, List.updateFirst_of_find?_eq_none hnone] at hu'
    exact .inl hu'
  | some u =>
    rw [IndexedCollection.docs_updateOne_of_findOne userIndexes_kept x hfind] at hu'
    obtain ⟨u'', hu'', rfl⟩ := List.mem_map.mp hu'
    by_cases hid : Document.key u'' = Document.key u
    · rw [if_pos hid, Collection.eq_of_key_eq hu'' (IndexedCollection.mem_of_findOne hfind) hid]
      exact .inr ⟨u, rfl, rfl⟩
    · rw [if_neg hid]
      exact .inl hu''

/-- What a call on the users makes of one of them, at the moment `j`. -/
inductive User.Renewed (set : Setting) (gateway : ℕ → Response) (acts : List (LiveAct ι)) (j : ℕ)
    (u : User) : User → Prop
  | same : User.Renewed set gateway acts j u u
  | issue {i : ι} {b : ℕ} {env : OtpEnv} (h : Submitted acts i b (.sendOtp env u.phone))
      (hb : b ≤ j) :
      User.Renewed set gateway acts j u
        { u with
          resetOtp := some (generateOtp env)
          otpExpiry := some (env.utcnow 0 + otpLifetime) }
  | reset {i : ι} {b : ℕ} {env : Env} {otp password : String} {v : User}
      (h : Submitted acts i b (.resetPassword env otp password password))
      (hotp : v.resetOtp = some otp) (hexpiry : env.utcnow 0 ≤ v.otpExpiry.getD (env.utcnow 1))
      (hseen : Seen set gateway acts b j fun site => site.world.users.byPhone u.phone = some v) :
      User.Renewed set gateway acts j u
        { u with
          password := hashPassword set.bcrypt env password
          resetOtp := none
          otpExpiry := none }

/-- **How users change**: a user that is stored was stored before, or someone has registered it.
If it was stored before, it is as it was, or someone has had a code sent to its phone, or
someone has set its password. -/
theorem UsersDue.renewed {op : Op User UserQuery UserUpdate}
    (hop : UsersDue set gateway acts i j op) {e : AppExn} {users : Users} {u' : User}
    (hu' : u' ∈ (op.execIndexed userIndexes_kept e users).2.docs) :
    (∃ u ∈ users.docs, User.Renewed set gateway acts j u u') ∨
      (∀ u ∈ users.docs, u.id ≠ u'.id) ∧ u'.resetOtp = none := by
  cases hop with
  | findOne q => exact .inl ⟨u', hu', .same⟩
  | find q => exact .inl ⟨u', hu', .same⟩
  | @register b env username bizName phone password h hb =>
    rw [Op.execIndexed] at hu'
    cases hinsert : users.insertOne
        (newUser set.bcrypt env username password bizName phone) with
    | none =>
      rw [hinsert] at hu'
      exact .inl ⟨u', hu', .same⟩
    | some users' =>
      rw [hinsert] at hu'
      change u' ∈ users'.docs at hu'
      rw [IndexedCollection.docs_insertOne hinsert, List.mem_append, List.mem_singleton] at hu'
      rcases hu' with hu' | rfl
      · exact .inl ⟨u', hu', .same⟩
      · refine .inr ⟨fun u hu hid => ?_, rfl⟩
        have hnone := IndexedCollection.insertOne_eq_none.mpr
          (.inr (List.mem_map.mpr ⟨u, hu, hid⟩))
        exact absurd (hinsert.symm.trans hnone) (Option.some_ne_none users')
  | @issue b env phone h hb =>
    rcases mem_updateOne_phone hu' with hu' | ⟨u, hu, rfl⟩
    · exact .inl ⟨u', hu', .same⟩
    · have hphone : phone = u.phone := phone_of_byPhone hu
      exact .inl ⟨u, IndexedCollection.mem_of_findOne hu, .issue (hphone ▸ h) hb⟩
  | @reset b env phone otp password v h hotp hexpiry hseen =>
    rcases mem_updateOne_phone hu' with hu' | ⟨u, hu, rfl⟩
    · exact .inl ⟨u', hu', .same⟩
    · have hphone : phone = u.phone := phone_of_byPhone hu
      exact .inl ⟨u, IndexedCollection.mem_of_findOne hu, .reset h hotp hexpiry (hphone ▸ hseen)⟩

/-- At the moment `k`, each code that is stored was sent to the phone of its user. -/
def CodesSent (set : Setting) (gateway : ℕ → Response) (acts : List (LiveAct ι)) (k : ℕ) : Prop :=
  ∀ u ∈ (siteAt set gateway acts k).world.users.docs, ∀ otp ∈ u.resetOtp, ∃ i b env, b ≤ k ∧
    Submitted acts i b (.sendOtp env u.phone) ∧ otp = generateOtp env ∧
      u.otpExpiry = some (env.utcnow 0 + otpLifetime)

theorem codesSent (set : Setting) (gateway : ℕ → Response) {acts : List (LiveAct ι)} {k : ℕ}
    (hk : k ≤ acts.length) : CodesSent set gateway acts k := by
  induction k with
  | zero => exact fun u hu => absurd hu List.not_mem_nil
  | succ k ih =>
    have hcodes : ∀ u ∈ (siteAt set gateway acts k).world.users.docs, ∀ otp ∈ u.resetOtp,
        ∃ i b env, b ≤ k + 1 ∧ Submitted acts i b (.sendOtp env u.phone) ∧
          otp = generateOtp env ∧ u.otpExpiry = some (env.utcnow 0 + otpLifetime) := by
      intro u hu otp hotp
      obtain ⟨i, b, env, hb, hsent⟩ := ih (Nat.le_of_succ_le hk) u hu otp hotp
      exact ⟨i, b, env, hb.trans (Nat.le_succ k), hsent⟩
    intro u' hu' otp hotp
    rcases users_succ set gateway hk with hsame | ⟨i, op, hop, hexec⟩
    · exact hcodes u' (hsame ▸ hu') otp hotp
    · rw [hexec] at hu'
      rcases hop.renewed hu' with ⟨u, hu, hrenewed⟩ | ⟨-, hnone⟩
      · cases hrenewed with
        | same => exact hcodes _ hu otp hotp
        | @issue i b env h hb =>
          exact ⟨i, b, env, hb.trans (Nat.le_succ k), h, (Option.mem_some.mp hotp).symm, rfl⟩
        | reset h hcode hexpiry hseen => exact absurd hotp (Option.not_mem_none otp)
      · rw [hnone] at hotp
        exact absurd hotp (Option.not_mem_none otp)

/-- **A password changes only by a code.**  Whatever the sessions do, and however their runs are
interleaved or dropped: where the act of number `k` changes the password of a user, someone has
had a code sent to the phone of that user, and the form was submitted with that code, with the
password that is now set, and by a run that read the clock before the code had expired. -/
theorem password_changes (set : Setting) (gateway : ℕ → Response) (acts : List (LiveAct ι))
    (k : ℕ) (hk : k < acts.length) (u u' : User)
    (hu : u ∈ (siteAt set gateway acts k).world.users.docs)
    (hu' : u' ∈ (siteAt set gateway acts (k + 1)).world.users.docs) (hid : u'.id = u.id)
    (hne : u'.password ≠ u.password) :
    ∃ i b env password, ∃ i' b' env', b ≤ k ∧ b' ≤ k ∧
      Submitted acts i' b' (.sendOtp env' u.phone) ∧
        Submitted acts i b (.resetPassword env (generateOtp env') password password) ∧
          u'.password = hashPassword set.bcrypt env password ∧
            env.utcnow 0 ≤ env'.utcnow 0 + otpLifetime := by
  rcases users_succ set gateway hk with hsame | ⟨i, op, hop, hexec⟩
  · rw [hsame] at hu'
    exact absurd (congrArg User.password (Collection.eq_of_key_eq hu' hu hid)) hne
  rw [hexec] at hu'
  rcases hop.renewed hu' with ⟨u₀, hu₀, hrenewed⟩ | ⟨hfresh, -⟩
  · cases hrenewed with
    | same => exact absurd (congrArg User.password (Collection.eq_of_key_eq hu₀ hu hid)) hne
    | issue h hb =>
      obtain rfl : u₀ = u := Collection.eq_of_key_eq hu₀ hu hid
      exact absurd rfl hne
    | @reset i b env otp password v h hotp hexpiry hseen =>
      obtain rfl : u₀ = u := Collection.eq_of_key_eq hu₀ hu hid
      obtain ⟨k', hb, hk', hv⟩ := hseen
      have hphone : u₀.phone = v.phone := phone_of_byPhone hv
      obtain ⟨i', b', env', hb', hsent, rfl, hlifetime⟩ :=
        codesSent set gateway (hk'.trans (Nat.le_of_lt hk)) v (IndexedCollection.mem_of_findOne hv)
          otp hotp
      rw [hlifetime, Option.getD_some] at hexpiry
      exact ⟨i, b, env, password, i', b', env', hb.trans hk', hb'.trans hk', hphone ▸ hsent, h, rfl,
        hexpiry⟩
  · exact absurd hid.symm (hfresh u hu)

/-- A merchant registers, has a code sent, and sets another password with it. -/
def sampleReset : List (LiveAct Bool) :=
  [.begin false (.page (.auth (.register (.sample 1 0) "asha" "Asha Stores" "98" "pw" "pw"))),
    .step false, .step false,
    .begin false (.page (.auth (.sendOtp (.sample 1) "98"))),
    .step false, .step false, .step false,
    .begin false (.page (.auth (.resetPassword (.sample 2 2) "123456" "new" "new"))),
    .step false, .step false]

/-- The user of the sample, before its password is set. -/
def sampleOwner : User where
  id := ObjectId.ofNat 1
  username := "asha"
  password := "$pw"
  businessName := "Asha Stores"
  phone := "98"
  createdAt := 0
  resetOtp := some "123456"
  otpExpiry := some (1 + otpLifetime)

theorem password_changes_sample :
    ∃ i b env password, ∃ i' b' env', b ≤ 9 ∧ b' ≤ 9 ∧
      Submitted sampleReset i' b' (.sendOtp env' "98") ∧
        Submitted sampleReset i b (.resetPassword env (generateOtp env') password password) ∧
          "$new" = hashPassword markingBcrypt env password ∧
            env.utcnow 0 ≤ env'.utcnow 0 + otpLifetime :=
  password_changes sampleSetting (fun _ => .failure "timed out") sampleReset 9 (by decide)
    sampleOwner { sampleOwner with password := "$new", resetOtp := none, otpExpiry := none }
    (by decide +kernel) (by decide +kernel) rfl (by decide)

end DigitalLedger
