import DigitalLedger.Credentials

/-!
# What is sent

Messages leave the process for the phones of people who never open the application: codes,
reminders and receipts.  Each of them is written by a run that has read the ledger some calls
before.  This module says of every message that is ever sent who had asked for it, and what was
stored that it tells of.

## Main definitions

* `Channel.address` — the address of a phone on a channel.
* `MessageDue` — the messages there is reason to send.
* `SentDue` — all messages that were sent are of this kind.

## Main results

* `tells_serve` — the runs send no others.
* `messages_due` — so no others are ever sent.
-/

namespace DigitalLedger

open Prog

variable {ι : Type}

/-! ### Programs of the layers below, in a history -/

section Layers

variable {α : Type} {hist : ℕ → Site ι} {n b : ℕ} {Q : ℕ → α → Prop}

/-- A program of the application, in a page. -/
theorem tracks_ofApp [DecidableEq ι] {i : ι} {P : ℕ → PageCall → Prop} {p : App α}
    (hp : p.Tracks execApp (fun k => (hist k).world) n (fun j c => P j (.app c)) Q b) :
    (Script.ofApp p).Tracks (execPage i) hist n P Q b := by
  induction p generalizing b with
  | ret a => exact hp
  | raise e => trivial
  | call c k ih =>
    intro j hj hn hstore
    obtain ⟨hc, hk⟩ := hp j hj hn (congrArg Site.world hstore)
    exact ⟨hc, ih _ hk⟩

/-- A program over the ledger, in one of the application. -/
theorem App.tracks_ofDb {worlds : ℕ → World} {P : ℕ → AppCall → Prop} {p : Db α}
    (hp : p.Tracks exec (fun k => (worlds k).ledger) n (fun j c => P j (.ledger c)) Q b) :
    (App.ofDb p).Tracks execApp worlds n P Q b := by
  induction p generalizing b with
  | ret a => exact hp
  | raise e => trivial
  | call c k ih =>
    rw [App.ofDb]
    intro j hj hn hstore
    obtain ⟨hc, hk⟩ := hp j hj hn (congrArg World.ledger hstore)
    refine ⟨hc, ?_⟩
    have hanswer : (execApp (.ledger c) (worlds j)).1 =
        (exec c (worlds j).ledger).1.mapError AppExn.database := rfl
    rw [hanswer]
    cases hr : (exec c (worlds j).ledger).1 with
    | ok a =>
      rw [hr] at hk
      exact ih _ hk
    | error e =>
      rw [hr] at hk
      exact ih _ hk

end Layers

/-! ### The messages there is reason to send -/

/-- The address of a phone number on a channel. -/
def Channel.address : Channel → String → String
  | .whatsapp, phone => whatsappAddress phone
  | .sms, phone => phone

/-- The text of a reminder on a channel. -/
def Channel.reminder : Channel → String → String → ℚ → String
  | .whatsapp => buildReminderMessage
  | .sms => buildSmsReminderMessage

/-- The run of the trigger sends reminders about the customers of `m`. -/
def Trigger.Reminds (m : String) (st : SessionState) (channel : Channel) : Trigger → Prop
  | .page (.reminders (.send _ channel')) => channel' = channel ∧ m = st.userId
  | .monthlyReminders => channel = .whatsapp
  | _ => False

variable [DecidableEq ι]

/-- By the moment `j`, the session `i` had reason to send this message to this address. -/
inductive MessageDue (set : Setting) (gateway : ℕ → Response) (acts : List (LiveAct ι)) (i : ι)
    (j : ℕ) : String → String → Prop
  /-- A code was asked for the phone of a user. -/
  | otp {b : ℕ} {env : OtpEnv} {u : User} (h : Submitted acts i b (.sendOtp env u.phone))
      (hu : Seen set gateway acts b j fun site => u ∈ site.world.users.docs) :
      MessageDue set gateway acts i j u.phone (otpMessage (generateOtp env))
  /-- The customer owed this much to the business. -/
  | reminder {b : ℕ} {t : Trigger} {channel : Channel} {c : Customer} {u : User}
      (h : acts[b]? = some (.begin i t))
      (ht : t.Reminds c.merchantId ((siteAt set gateway acts b).sessions i) channel)
      (hc : Seen set gateway acts b j fun site => c ∈ site.world.ledger.customers.docs)
      (howes : 0 < c.balance)
      (hu : Seen set gateway acts b j fun site => u ∈ site.world.users.docs)
      (hid : u.id.str = c.merchantId) :
      MessageDue set gateway acts i j (channel.address c.phone)
        (channel.reminder u.businessName c.name c.balance)
  /-- The transaction was stored, and this was the balance of the customer afterwards. -/
  | receipt {b : ℕ} {env logEnv : Env} {txnType : TxnType} {amount : InputAmount} {note : String}
      {channel : Channel} {c c' : Customer}
      (h : acts[b]? = some (.begin i (.page (.transactions
        (.record env logEnv c.name txnType amount note (some channel))))))
      (hc : Seen set gateway acts b j fun site => c ∈ site.world.ledger.customers.docs)
      (hmerchant : c.merchantId = ((siteAt set gateway acts b).sessions i).userId)
      (ht : ∃ k, b ≤ k ∧ k ≤ j ∧
        (∃ t ∈ (siteAt set gateway acts k).world.ledger.transactions.docs,
          t.merchantId = c.merchantId ∧ t.customerId = c.id.str ∧ t.type = txnType ∧
            t.amount = amount.val) ∧
        Seen set gateway acts k j fun site => c' ∈ site.world.ledger.customers.docs)
      (hsame : c'.id = c.id) :
      MessageDue set gateway acts i j (channel.address c.phone)
        (receiptMessage ((siteAt set gateway acts b).sessions i).businessName c.name txnType.str
          amount.val c'.balance)

/-- The call posts a message; every other request is a `GET`. -/
def Request.Posts (addressee message : String) (r : Request) : Prop :=
  ∃ sender, r.data = some [("Body", message), ("From", sender), ("To", addressee)]

/-- The request sends nothing, or what there is reason to send. -/
def RequestDue (set : Setting) (gateway : ℕ → Response) (acts : List (LiveAct ι)) (i : ι) (j : ℕ)
    (r : Request) : Prop :=
  r.data = none ∨ ∃ addressee message, r.Posts addressee message ∧
    MessageDue set gateway acts i j addressee message

/-- What a run of the session may send at the moment `j`. -/
def PageCall.Tells (set : Setting) (gateway : ℕ → Response) (acts : List (LiveAct ι)) (i : ι)
    (j : ℕ) : PageCall → Prop
  | .app (.request r) => RequestDue set gateway acts i j r
  | _ => True

/-- From the moment `b` on, the run sends what there is reason to send. -/
abbrev Script.Tells {α : Type} (set : Setting) (gateway : ℕ → Response) (acts : List (LiveAct ι))
    (i : ι) (b : ℕ) (Q : ℕ → α → Prop) (p : Script α) : Prop :=
  p.Tracks (execPage i) (siteAt set gateway acts) acts.length
    (PageCall.Tells set gateway acts i) Q b

variable {set : Setting} {gateway : ℕ → Response} {acts : List (LiveAct ι)} {i : ι} {b j : ℕ}
  {st : SessionState}

theorem MessageDue.later {j' : ℕ} {addressee message : String}
    (h : MessageDue set gateway acts i j addressee message) (hj : j ≤ j') :
    MessageDue set gateway acts i j' addressee message := by
  cases h with
  | otp h hu => exact .otp h (hu.later hj)
  | reminder h ht hc howes hu hid => exact .reminder h ht (hc.later hj) howes (hu.later hj) hid
  | receipt h hc hmerchant ht hsame =>
    obtain ⟨k, hb, hk, hstored, hseen⟩ := ht
    exact .receipt h (hc.later hj) hmerchant ⟨k, hb, hk.trans hj, hstored, hseen.later hj⟩ hsame

/-! ### The users over the history -/

theorem sound_siteAt (set : Setting) (gateway : ℕ → Response) (acts : List (LiveAct ι)) (k : ℕ) :
    (siteAt set gateway acts k).Sound set := live_sound set gateway (acts.take k)

theorem persist_siteAt {k : ℕ} (hkj : k ≤ j) (hj : j ≤ acts.length) :
    (siteAt set gateway acts k).world.users.Persist (siteAt set gateway acts j).world.users := by
  induction j, hkj using Nat.le_induction with
  | base => exact .refl _
  | succ j hkj ih =>
    refine (ih (Nat.le_of_succ_le hj)).trans ?_
    rcases users_succ set gateway hj with hsame | ⟨i, op, hop, hexec⟩
    · rw [hsame]
      exact .refl _
    · rw [hexec]
      cases hop with
      | findOne q => exact .refl _
      | find q => exact .refl _
      | register h hb =>
        rw [Op.execIndexed]
        cases hinsert : (siteAt set gateway acts j).world.users.insertOne _ with
        | none => exact .refl _
        | some users' => exact .insertOne hinsert
      | issue h hb => exact .updateOne _ _ _
      | reset h hotp hexpiry hseen => exact .updateOne _ _ _

/-! ### The messages of a run -/

/-- A call of a run that sends one message. -/
def AppCall.Sends (addressee message : String) : AppCall → Prop
  | .request r => r.data = none ∨ r.Posts addressee message
  | _ => False

theorem sends_postMessage (environ : Environ) (sender addressee message : String) :
    Uses (AppCall.Sends addressee message) (postMessage environ sender addressee message) :=
  (uses_twilioRequest environ _ _ fun _ hr => .inr ⟨sender, hr⟩).bind fun payload =>
    uses_followMessage (fun _ hr => .inl hr) environ payload

theorem sends_sendSms (environ : Environ) (phone message : String) :
    Uses (AppCall.Sends (Channel.address .sms phone) message) (sendSms environ phone message) := by
  unfold sendSms
  split
  · exact .ret _
  · exact sends_postMessage environ _ _ _

theorem sends_sendWhatsapp (environ : Environ) (phone message : String) :
    Uses (AppCall.Sends (Channel.address .whatsapp phone) message)
      (sendWhatsapp environ phone message) := sends_postMessage environ _ _ _

theorem sends_sendReminder (environ : Environ) (channel : Channel) (bizName : String)
    (c : Customer) : Uses (AppCall.Sends (channel.address c.phone)
      (channel.reminder bizName c.name c.balance))
        (sendReminder environ channel.str bizName c) := by
  cases channel with
  | whatsapp => exact sends_sendWhatsapp environ _ _
  | sms => exact sends_sendSms environ _ _

theorem sends_sendReceipt (environ : Environ) (bizName custName phone txnType : String)
    (amount newBalance : ℚ) (channel : Channel) :
    Uses (AppCall.Sends (channel.address phone)
      (receiptMessage bizName custName txnType amount newBalance))
        (sendReceipt environ bizName custName phone txnType amount newBalance channel.str) := by
  cases channel with
  | whatsapp => exact sends_sendWhatsapp environ _ _
  | sms => exact sends_sendSms environ _ _

/-- From the moment `b` on, the program sends what there is reason to send. -/
abbrev App.Tells {α : Type} (set : Setting) (gateway : ℕ → Response) (acts : List (LiveAct ι))
    (i : ι) (b : ℕ) (Q : ℕ → α → Prop) (p : App α) : Prop :=
  p.Tracks execApp (fun k => (siteAt set gateway acts k).world) acts.length
    (fun j c => PageCall.Tells set gateway acts i j (.app c)) Q b

section Programs

variable {α : Type}

/-- A program that sends one message, for which there is reason. -/
theorem tells_of_sends {p : App α} {addressee message : String}
    (hp : Uses (AppCall.Sends addressee message) p)
    (h : MessageDue set gateway acts i b addressee message) :
    App.Tells set gateway acts i b (fun _ _ => True) p := by
  refine Tracks.of_uses hp (fun j c hj hc => ?_) fun _ _ _ => trivial
  cases c with
  | request r => exact hc.imp_right fun hposts => ⟨_, _, hposts, h.later hj⟩
  | ledger c => exact hc.elim
  | users op => exact hc.elim

/-- The call makes no request. -/
def PageCall.Mute : PageCall → Prop
  | .app (.request _) => False
  | _ => True

theorem PageCall.Mute.tells {c : PageCall} (hc : c.Mute) :
    c.Tells set gateway acts i j := by
  rcases c with (c | op | r) | op | st
  · trivial
  · trivial
  · exact hc.elim
  · trivial
  · trivial

theorem tells_mute {p : Script α} (hp : Uses PageCall.Mute p) :
    Script.Tells set gateway acts i b (fun _ _ => True) p :=
  Tracks.of_uses hp (fun _ _ _ hc => hc.tells) fun _ _ _ => trivial

/-- A page that sends no messages makes no request. -/
theorem tells_plan {t : Trigger} {m : String} {p : Script (List Notice)}
    (hp : Plan set t m (.any False) p) :
    Script.Tells set gateway acts i b (fun _ _ => True) p :=
  tells_mute (uses_plan hp (admits_of (fun _ => trivial) (fun _ => trivial) False.elim
    False.elim))

/-- A single call of the application. -/
theorem tells_perform {c : AppCall} {Q : ℕ → c.Answer → Prop}
    (hc : ∀ j, b ≤ j → PageCall.Tells set gateway acts i j (.app c) ∧
      ∀ a, (execApp c (siteAt set gateway acts j).world).1 = .ok a → Q (j + 1) a) :
    App.Tells set gateway acts i b Q (App.perform c) :=
  Tracks.perform fun j hj _ _ => hc j hj

theorem tells_item (d : Dict) (key : String) :
    App.Tells set gateway acts i b (fun _ _ => True) (d.item key) :=
  Tracks.of_uses (uses_item (fun _ => False) d key) (fun _ _ _ hc => hc.elim) fun _ _ _ => trivial

/-- From the moment `b` on, a program over the ledger; it sends nothing. -/
abbrev Db.Tracks {α : Type} (set : Setting) (gateway : ℕ → Response) (acts : List (LiveAct ι))
    (b : ℕ) (Q : ℕ → α → Prop) (p : Db α) : Prop :=
  Prog.Tracks exec (fun k => (siteAt set gateway acts k).world.ledger) acts.length
    (fun _ _ => True) Q p b

theorem tells_ofDb {p : Db α} {Q : ℕ → α → Prop} (hp : Db.Tracks set gateway acts b Q p) :
    Script.Tells set gateway acts i b Q (Script.ofDb p) :=
  tracks_ofApp (App.tracks_ofDb hp)

/-- A single call on the ledger. -/
theorem tracks_query {c : DbCall} {Q : ℕ → c.Answer → Prop}
    (hQ : ∀ j, b ≤ j → (siteAt set gateway acts (j + 1)).world.ledger =
      (exec c (siteAt set gateway acts j).world.ledger).2 →
        ∀ a, (exec c (siteAt set gateway acts j).world.ledger).1 = .ok a → Q (j + 1) a) :
    Db.Tracks set gateway acts b Q (query c) :=
  Tracks.perform fun j hj _ hstore => ⟨trivial, hQ j hj hstore⟩

theorem tracks_trivially (p : Db α) : Db.Tracks set gateway acts b (fun _ _ => True) p :=
  Tracks.of_uses (Uses.trivially p) (fun _ _ _ _ => trivial) fun _ _ _ => trivial

/-! ### Reminders -/

/-- The business of a customer that is stored is that of a user. -/
theorem tells_reminderBusinessName {c : Customer}
    (hc : Seen set gateway acts 0 b fun site => c ∈ site.world.ledger.customers.docs) :
    App.Tells set gateway acts i b (fun j name => ∃ u : User, name = u.businessName ∧
      u.id.str = c.merchantId ∧ Seen set gateway acts b j fun site => u ∈ site.world.users.docs)
      (reminderBusinessName c.merchantId) := by
  obtain ⟨k, -, hk, hc⟩ := hc
  obtain ⟨u, hu, hid⟩ := ((sound_siteAt set gateway acts k).customers c hc).1
  rw [reminderBusinessName, ← hid, objectIdApp, objectId_eq_ret (ObjectId.ofString?_str u.id)]
  intro j hj hn _
  refine ⟨trivial, ?_⟩
  -- the user is still there when it is looked up
  obtain ⟨u', hu', hid', -⟩ := persist_siteAt (hk.trans hj) (Nat.le_of_lt hn) u hu
  have hid : ∀ v : User,
      Document.test ({ id := some u.id } : UserQuery) v = true ↔ v.id = u.id := by
    intro v
    show UserQuery.test { id := some u.id } v = true ↔ _
    simp only [UserQuery.test, Option.all_none, Option.all_some, Bool.and_true, beq_iff_eq]
    exact eq_comm
  cases hfind : (siteAt set gateway acts j).world.users.findOne
      ({ id := some u.id } : UserQuery) with
  | none =>
    have hnot := Collection.findOne_eq_none.mp hfind u' hu'
    rw [(hid u').mpr hid'] at hnot
    exact absurd hnot (by decide)
  | some found =>
    have hanswer : (execApp (.users (.findOne { id := some u.id }))
        (siteAt set gateway acts j).world).1 = .ok (some found) := congrArg Except.ok hfind
    rw [hanswer]
    have hfound : found.id = u.id := (hid found).mp (IndexedCollection.test_of_findOne hfind)
    exact ⟨found, rfl, congrArg ObjectId.str hfound, j, hj, Nat.le_succ j,
      IndexedCollection.mem_of_findOne hfind⟩

/-- The customers a run was given to remind. -/
def Remindable (set : Setting) (gateway : ℕ → Response) (acts : List (LiveAct ι)) (t : Trigger)
    (i : ι) (b j : ℕ) (channel : Channel) (c : Customer) : Prop :=
  t.Reminds c.merchantId ((siteAt set gateway acts b).sessions i) channel ∧ 0 < c.balance ∧
    Seen set gateway acts b j fun site => c ∈ site.world.ledger.customers.docs

theorem tells_remind {t : Trigger} {b' : ℕ} {channel : Channel} {c : Customer}
    (h : acts[b]? = some (.begin i t)) (hb : b ≤ b')
    (hc : Remindable set gateway acts t i b b' channel c) :
    App.Tells set gateway acts i b' (fun _ _ => True) (remind set.environ channel.str c) := by
  obtain ⟨ht, howes, hseen⟩ := hc
  obtain ⟨k, hbk, hk, hstored⟩ := hseen
  refine (tells_reminderBusinessName ⟨k, Nat.zero_le k, hk, hstored⟩).bind fun j name hj hname => ?_
  obtain ⟨u, rfl, hid, k', hk', hkj, hu⟩ := hname
  have hdue : MessageDue set gateway acts i j (channel.address c.phone)
      (channel.reminder u.businessName c.name c.balance) :=
    .reminder h ht ⟨k, hbk, hk.trans hj, hstored⟩ howes ⟨k', hb.trans hk', hkj, hu⟩ hid
  refine (tells_of_sends (sends_sendReminder _ _ _ _) hdue).bind fun _ result _ _ => ?_
  exact (tells_item result "success").bind fun _ _ _ _ => trivial

theorem tells_remindAll {t : Trigger} {b' : ℕ} {channel : Channel} {customers : List Customer}
    (h : acts[b]? = some (.begin i t)) (hb : b ≤ b')
    (hcustomers : ∀ c ∈ customers, Remindable set gateway acts t i b b' channel c) :
    App.Tells set gateway acts i b' (fun _ _ => True)
      (remindAll set.environ channel.str customers) := by
  induction customers generalizing b' with
  | nil => trivial
  | cons c customers ih =>
    refine (tells_remind h hb (hcustomers c List.mem_cons_self)).bind fun j _ hj _ => ?_
    refine (ih (hb.trans hj) fun c' hc' => ?_).bind fun _ _ _ _ => trivial
    obtain ⟨ht, howes, hseen⟩ := hcustomers c' (List.mem_cons_of_mem c hc')
    exact ⟨ht, howes, hseen.later hj⟩

theorem tells_runMonthlyReminders {t : Trigger} {channel : Channel} {m : Option String} {b' : ℕ}
    (h : acts[b]? = some (.begin i t)) (hb : b ≤ b')
    (ht : ∀ c : Customer, (∀ m' ∈ nonempty m, m' = c.merchantId) →
      t.Reminds c.merchantId ((siteAt set gateway acts b).sessions i) channel) :
    App.Tells set gateway acts i b' (fun _ _ => True)
      (runMonthlyReminders set.environ m channel.str) := by
  have hfind : App.Tells set gateway acts i b' (fun j customers => ∀ c ∈ customers,
      Remindable set gateway acts t i b j channel c)
      (App.ofDb (CustomersCol.find (defaultersQuery m))) := by
    refine App.tracks_ofDb (tracks_query fun j hj _ found hanswer c hc => ?_)
    obtain rfl := Except.ok.inj hanswer
    obtain ⟨hstored, htest⟩ := List.mem_filter.mp hc
    obtain ⟨-, hmerchant, -, hbalance⟩ := test_customerQuery.mp htest
    exact ⟨ht c hmerchant, hbalance 0 rfl, j, hb.trans hj, Nat.le_succ j, hstored⟩
  exact hfind.bind fun j customers hj hcustomers =>
    tells_remindAll h (hb.trans hj) hcustomers

/-! ### Receipts -/

theorem tracks_getCustomers (m : String) :
    Db.Tracks set gateway acts b (fun j customers => ∀ cust ∈ customers, ∃ c : Customer,
      cust = c.withStrId ∧ c.merchantId = m ∧
        Seen set gateway acts b j fun site => c ∈ site.world.ledger.customers.docs)
      (getCustomers m) := by
  have hfind : Db.Tracks set gateway acts b (fun j found => ∀ c ∈ found, c.merchantId = m ∧
      Seen set gateway acts b j fun site => c ∈ site.world.ledger.customers.docs)
      (CustomersCol.find { merchantId := some m }) := by
    refine tracks_query fun j hj _ found hanswer c hc => ?_
    obtain rfl := Except.ok.inj hanswer
    obtain ⟨hstored, hm⟩ := mem_customersOf.mp hc
    exact ⟨hm, j, hj, Nat.le_succ j, hstored⟩
  refine hfind.bind fun j found _ hfound cust hcust => ?_
  obtain ⟨c, hc, rfl⟩ := List.mem_map.mp hcust
  exact ⟨c, rfl, hfound c hc⟩

/-- The customer that is looked up at the end is one that is stored then. -/
theorem tracks_conclude (oid : ObjectId) (cid : String) (δ : Totals) (last now : Time) :
    Db.Tracks set gateway acts b (fun j reply => ∀ newBalance, reply = .success newBalance →
      ∃ c' : Customer, c'.id = oid ∧ newBalance = c'.balance ∧
        Seen set gateway acts b j fun site => c' ∈ site.world.ledger.customers.docs)
      (conclude oid cid δ last now) := by
  refine (tracks_trivially _).bind fun j _ hj _ => ?_
  refine (tracks_trivially _).bind fun j' _ hj' _ => ?_
  refine Tracks.bind (Q := fun j found => ∀ c' ∈ found, c'.id = oid ∧
    Seen set gateway acts b j fun site => c' ∈ site.world.ledger.customers.docs)
      (tracks_query fun j'' hj'' _ found hanswer c' hc' => ?_) fun j'' found _ hfound => ?_
  · have hfind : (siteAt set gateway acts j'').world.ledger.customers.findOne { id := some oid } =
        some c' := (Except.ok.inj hanswer).trans hc'
    exact ⟨test_customer_id.mp (Collection.test_of_findOne hfind), j'',
      hj.trans (hj'.trans hj''), Nat.le_succ j'', Collection.mem_of_findOne hfind⟩
  · cases found with
    | none => trivial
    | some c' =>
      intro newBalance hreply
      obtain ⟨hid, hseen⟩ := hfound c' rfl
      exact ⟨c', hid, (Reply.success.inj hreply).symm, hseen⟩

/-- A transaction that is said to be recorded has been stored. -/
theorem tracks_addTransaction (env : Env) (c : Customer) (txnType : TxnType) (amount : ℚ)
    (note : String) :
    Db.Tracks set gateway acts b (fun j reply => ∀ newBalance, reply = .success newBalance →
      ∃ c' : Customer, c'.id = c.id ∧ newBalance = c'.balance ∧ ∃ k, b ≤ k ∧ k ≤ j ∧
        (∃ t ∈ (siteAt set gateway acts k).world.ledger.transactions.docs,
          t.merchantId = c.merchantId ∧ t.customerId = c.id.str ∧ t.type = txnType ∧
            t.amount = amount) ∧
        Seen set gateway acts k j fun site => c' ∈ site.world.ledger.customers.docs)
      (addTransaction env c.merchantId c.id.str txnType.str amount note) := by
  rcases addTransaction_cases env c.merchantId c.id.str txnType.str amount note with
    ⟨message, heq⟩ | heq | ⟨type, oid, -, htype, hoid, heq⟩
  · rw [heq]
    exact fun newBalance hreply => absurd hreply (by simp)
  · rw [heq]
    trivial
  obtain rfl : c.id = oid := Option.some.inj ((ObjectId.ofString?_str c.id).symm.trans hoid)
  obtain rfl : txnType = type := by
    cases txnType <;> exact Option.some.inj htype
  rw [heq]
  refine (tracks_trivially _).bind fun j found hj _ => ?_
  cases found with
  | none => exact fun newBalance hreply => absurd hreply (by simp)
  | some customer =>
    refine Tracks.bind (Q := fun k _ => b ≤ k ∧
      ∃ t ∈ (siteAt set gateway acts k).world.ledger.transactions.docs,
        t.merchantId = c.merchantId ∧ t.customerId = c.id.str ∧ t.type = txnType ∧
          t.amount = amount)
      (tracks_query fun j' hj' hstore _ hanswer => ?_) fun k _ hk hstored => ?_
    · refine ⟨hj.trans (hj'.trans (Nat.le_succ j')), ?_⟩
      have hmem := Op.mem_exec_insertOne hanswer
      refine ⟨newTransaction env c.merchantId c.id.str customer txnType amount note, ?_, rfl, rfl,
        rfl, rfl⟩
      rw [hstore]
      exact hmem
    · refine Tracks.mono (tracks_conclude _ _ _ _ _) fun j' reply hj' hreply newBalance hok => ?_
      obtain ⟨c', hid, hbalance, hseen⟩ := hreply newBalance hok
      exact ⟨c', hid, hbalance, k, hstored.1, hj', hstored.2, hseen⟩

theorem tells_sendRcpt {env logEnv : Env} {txnType : TxnType} {amount : InputAmount} {note : String}
    {receipt : Option Channel} {c c' : Customer} {b' : ℕ}
    (h : acts[b]? = some (.begin i (.page (.transactions
      (.record env logEnv c.name txnType amount note receipt)))))
    (hmerchant : c.merchantId = ((siteAt set gateway acts b).sessions i).userId)
    (hc : Seen set gateway acts b b' fun site => c ∈ site.world.ledger.customers.docs)
    (ht : ∃ k, b ≤ k ∧ k ≤ b' ∧
      (∃ t ∈ (siteAt set gateway acts k).world.ledger.transactions.docs,
        t.merchantId = c.merchantId ∧ t.customerId = c.id.str ∧ t.type = txnType ∧
          t.amount = amount.val) ∧
      Seen set gateway acts k b' fun site => c' ∈ site.world.ledger.customers.docs)
    (hsame : c'.id = c.id) :
    Script.Tells set gateway acts i b' (fun _ _ => True)
      (sendRcpt set ((siteAt set gateway acts b).sessions i) c.withStrId c.name txnType amount.val
        c'.balance receipt) := by
  cases receipt with
  | none => trivial
  | some channel =>
    have hdue := MessageDue.receipt h hc hmerchant ht hsame
    have hsend := tells_of_sends (i := i) (sends_sendReceipt set.environ
      ((siteAt set gateway acts b).sessions i).businessName c.name c.phone txnType.str amount.val
        c'.balance channel) hdue
    refine (tracks_ofApp hsend).bind fun _ rcpt _ _ => ?_
    split
    · trivial
    · trivial

theorem tells_showTransactions {e : TransactionsEvent}
    (h : acts[b]? = some (.begin i (.page (.transactions e)))) :
    Script.Tells set gateway acts i b (fun _ _ => True)
      (showTransactions set ((siteAt set gateway acts b).sessions i) e) := by
  cases e with
  | record env logEnv custName txnType amount note receipt =>
    refine (tells_ofDb (tracks_getCustomers _)).bind fun j customers hj hcustomers => ?_
    split
    · trivial
    refine Tracks.bind (Q := fun _ cust => cust ∈ customers ∧ cust.name = custName) ?_
      fun j' cust hj' hcust => ?_
    · unfold custItem
      split
      · next hlookup => exact Keyed.of_lookup_ofList hlookup
      · trivial
    obtain ⟨hmem, rfl⟩ := hcust
    obtain ⟨c, rfl, hmerchant, hc⟩ := hcustomers cust hmem
    rw [← hmerchant]
    refine (tells_ofDb (tracks_addTransaction env c txnType amount.val note)).bind
      fun j'' reply hj'' hreply => ?_
    cases reply with
    | failure message => trivial
    | success newBalance =>
      obtain ⟨c', hsame, rfl, k, hk, hkj, hstored, hseen⟩ := hreply newBalance rfl
      have hlog : ∀ details, Uses PageCall.Mute
          (logAction logEnv c.merchantId "ADD_TXN" details) := fun details => Uses.perform trivial
      refine (tells_mute (hlog _)).bind fun j₃ _ hj₃ _ => ?_
      refine (tells_sendRcpt h hmerchant (hc.later (hj'.trans (hj''.trans hj₃)))
        ⟨k, hj.trans (hj'.trans hk), hkj.trans hj₃, hstored, hseen.later hj₃⟩ hsame).bind
          fun _ _ _ _ => trivial
  | edit env logEnv filterCust txnId newAmt newNote =>
    exact tells_plan (plan_showTransactions id fun _ _ _ => trivial)
  | delete env logEnv filterCust txnId =>
    exact tells_plan (plan_showTransactions id fun _ _ _ => trivial)

theorem tells_showReminders {e : RemindersEvent}
    (h : acts[b]? = some (.begin i (.page (.reminders e))))
    (hid : ((siteAt set gateway acts b).sessions i).userId ≠ "") :
    Script.Tells set gateway acts i b (fun _ _ => True)
      (showReminders set ((siteAt set gateway acts b).sessions i) e) := by
  cases e with
  | send logEnv channel =>
    refine (tells_ofDb (tracks_trivially _)).bind fun j defaulters hj _ => ?_
    split
    · trivial
    have hreminders := tells_runMonthlyReminders (m := some _) h hj fun c hc =>
      ⟨rfl, (hc _ (Option.mem_filter_iff.mpr ⟨rfl, decide_eq_true hid⟩)).symm⟩
    refine (tracks_ofApp hreminders).bind fun _ results _ _ => ?_
    have hlog : ∀ details, Uses PageCall.Mute (logAction logEnv
        ((siteAt set gateway acts b).sessions i).userId "SEND_REMINDERS" details) :=
      fun details => Uses.perform trivial
    exact (tells_mute (hlog _)).bind fun _ _ _ _ => tells_mute (uses_showResults _ _ _)

/-! ### The other pages -/

theorem tells_sendOtpToPhone {env : OtpEnv} {phone : String}
    (h : Submitted acts i b (.sendOtp env phone)) :
    App.Tells set gateway acts i b (fun _ _ => True) (sendOtpToPhone set.environ env phone) := by
  have hfound : App.Tells set gateway acts i b (fun j found => ∀ u ∈ found, u.phone = phone ∧
      Seen set gateway acts b j fun site => u ∈ site.world.users.docs)
      (UsersCol.findOne { phone := some phone }) := by
    refine tells_perform (c := .users (.findOne { phone := some phone })) fun j hj =>
      ⟨trivial, fun found hanswer u hu => ?_⟩
    have hfind : (siteAt set gateway acts j).world.users.byPhone phone = some u :=
      (Except.ok.inj hanswer).trans hu
    exact ⟨(phone_of_byPhone hfind).symm, j, hj, Nat.le_succ j,
      IndexedCollection.mem_of_findOne hfind⟩
  refine hfound.bind fun j found hj hfound => ?_
  cases found with
  | none => trivial
  | some u =>
    obtain ⟨rfl, hu⟩ := hfound u rfl
    refine Tracks.bind (Q := fun _ _ => True) ?_ fun j' _ hj' _ => ?_
    · exact Tracks.of_uses (Uses.perform (P := fun c => ∃ op, c = .users op) ⟨_, rfl⟩)
        (fun _ c _ hc => by obtain ⟨op, rfl⟩ := hc; trivial) fun _ _ _ => trivial
    have hdue : MessageDue set gateway acts i j' u.phone (otpMessage (generateOtp env)) :=
      .otp h (hu.later hj')
    refine Tracks.catchWith ((tells_of_sends (sends_sendSms _ _ _) hdue).bind
      fun _ result _ _ => ?_) fun _ _ _ => trivial
    refine (tells_item result "success").bind fun _ success _ _ => ?_
    split
    · trivial
    · trivial

theorem tells_showAuthPage {e : AuthEvent} (h : Submitted acts i b e) :
    Script.Tells set gateway acts i b (fun _ _ => True) (showAuthPage set st e) := by
  by_cases he : ∃ env fpPhone, e = .sendOtp env fpPhone
  · obtain ⟨env, fpPhone, rfl⟩ := he
    rw [showAuthPage]
    split
    · trivial
    refine (tracks_ofApp (tells_sendOtpToPhone h)).bind fun _ reply _ _ => ?_
    cases reply with
    | failure message => trivial
    | success res => exact tells_mute (Uses.bind (Uses.perform trivial) fun _ => .ret _)
  · exact tells_mute (uses_showAuthPage
      { findUser := fun _ => trivial
        addUser := fun _ => trivial
        setUser := fun _ _ => trivial
        findCustomer := fun _ => trivial
        session := fun _ => trivial
        log := fun _ _ _ => trivial
        request := fun h => absurd h he })

end Programs

/-- **A run sends what there is reason to send.** -/
theorem tells_serve {t : Trigger} (h : acts[b]? = some (.begin i t)) :
    Script.Tells set gateway acts i b (fun _ _ => True)
      (serve set i t (siteAt set gateway acts b)) := by
  cases t with
  | monthlyReminders =>
    have hreminders : App.Tells set gateway acts i b (fun _ _ => True)
        (runMonthlyReminders set.environ none (Channel.str .whatsapp)) :=
      tells_runMonthlyReminders h le_rfl fun c _ => rfl
    exact (tracks_ofApp hreminders).bind fun _ _ _ _ => trivial
  | page e =>
    rw [serve]
    unfold main
    split
    · cases e with
      | portal e =>
        cases e with
        | logout => exact tells_mute (Uses.bind (Uses.perform trivial) fun _ => .ret _)
      | auth e => trivial
      | sidebar e => trivial
      | customers e => trivial
      | transactions e => trivial
      | reminders e => trivial
      | activity e => trivial
    split
    · cases e with
      | auth e => exact tells_showAuthPage h
      | portal e => trivial
      | sidebar e => trivial
      | customers e => trivial
      | transactions e => trivial
      | reminders e => trivial
      | activity e => trivial
    next hin =>
    cases e with
    | sidebar e =>
      cases e with
      | logout logEnv =>
        exact tells_mute (Uses.bind (Uses.perform trivial) fun _ =>
          Uses.bind (Uses.perform trivial) fun _ => .ret _)
    | customers e =>
      exact tells_plan (plan_showCustomers e)
    | transactions e => exact tells_showTransactions h
    | reminders e =>
      refine tells_showReminders h fun hempty => ?_
      obtain ⟨u, -, hid, -⟩ := ((sound_siteAt set gateway acts b).sessions i).merchant
        (by simpa using hin)
      have hnone : ObjectId.ofString? u.id.str = none := by
        rw [← hid, hempty]
        rfl
      exact absurd ((ObjectId.ofString?_str u.id).symm.trans hnone) (Option.some_ne_none u.id)
    | activity e => exact tells_plan (plan_showActivityLog e)
    | auth e => trivial
    | portal e => trivial

/-! ### The process -/

/-- By the moment `j`, nothing was sent without reason. -/
def SentDue (set : Setting) (gateway : ℕ → Response) (acts : List (LiveAct ι)) (j : ℕ) : Prop :=
  ∀ r ∈ (siteAt set gateway acts j).world.sent, ∃ i, RequestDue set gateway acts i j r

theorem RequestDue.later {j' : ℕ} {r : Request} (h : RequestDue set gateway acts i j r)
    (hj : j ≤ j') : RequestDue set gateway acts i j' r :=
  h.imp_right fun ⟨addressee, message, hposts, hdue⟩ =>
    ⟨addressee, message, hposts, hdue.later hj⟩

/-- **Nothing is sent without reason.**  Whatever the sessions do, and however their runs are
interleaved or dropped: every message that is posted is a code that was asked for, to the phone
of the user; or a reminder, to a customer that owed that much to that business, by the job or
by its merchant; or a receipt, to the customer of a transaction that its merchant has recorded
and that was stored, with the balance of the customer at some moment since. -/
theorem messages_due (set : Setting) (gateway : ℕ → Response) (acts : List (LiveAct ι)) :
    SentDue set gateway acts acts.length := by
  have hsame : ∀ k, SentDue set gateway acts k →
      ∀ r ∈ (siteAt set gateway acts k).world.sent, ∃ i, RequestDue set gateway acts i (k + 1) r :=
    fun k hsent r hr => (hsent r hr).imp fun _ h => h.later (Nat.le_succ k)
  have hstart : ∀ i, Pool.Follows execPage (serve set) (Live.start gateway) acts
      (PageCall.Tells set gateway acts) i ((Live.start gateway : Live ι).threads i) 0 :=
    fun i => trivial
  refine (Pool.tracks_moment (J := SentDue set gateway acts)
    (fun r hr => absurd hr List.not_mem_nil) ?_ ?_ hstart (fun b i t hb _ => tells_serve hb)
      le_rfl).1
  · intro i k c _ hc hstore hsent
    rw [SentDue, siteAt, hstore]
    rcases c with (c | op | r) | op | st
    · exact hsame k hsent
    · exact hsame k hsent
    · intro r' hr'
      rcases List.mem_append.mp hr' with hr' | hr'
      · exact hsame k hsent r' hr'
      · rw [List.mem_singleton.mp hr']
        exact ⟨i, RequestDue.later hc (Nat.le_succ k)⟩
    · exact hsame k hsent
    · exact hsame k hsent
  · intro k hstore hsent
    rw [SentDue, siteAt, hstore]
    exact hsame k hsent

end DigitalLedger
