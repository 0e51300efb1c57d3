import DigitalLedger.Pages

/-!
# What the pages let in

The functions below the pages take any arguments; what keeps nonsense and other people's
data out of the database is what the pages check and where they take their arguments from.
This module says which calls are thereby possible, with the users registered at the time,
and that such calls keep the site sound.

## Main definitions

* `CustomerDoc.WellFormed`, `User.WellFormed` — what the forms ask for.
* `SessionState.Sound`, `Site.Sound` — the invariant: sessions of one kind at most, for
  accounts that exist, and documents that belong to registered users.
* `Users.Persist` — the users are still there, under their names.
* `PageCall.Fits` — the calls the pages may make; `PageCall.Plain` — those among them that
  fit whoever is registered.

## Main results

* `PageCall.Fits.sound` — these calls keep the site sound and the users there.
-/

namespace DigitalLedger

open Prog Collection

variable {ι : Type} {set : Setting} {users users' : Users} {site : Site ι}

/-! ### What the forms ask for -/

/-- The PIN of a customer is not set, or is the hash of four digits. -/
def Setting.PinHash (set : Setting) (hashed : String) : Prop :=
  hashed = "" ∨ ∃ pin salt, isdigit set.digit pin = true ∧ pin.length = 4 ∧
    hashed = set.bcrypt.hashpw pin salt

/-- What is owed is what was given less what was paid back. -/
def Totals.Balanced (δ : Totals) : Prop := δ.balance = δ.totalCredit - δ.totalPaid

/-- The score is on the scale and has its category, or both are those of a new customer. -/
def CustomerDoc.Graded {κ : Type} (c : CustomerDoc κ) : Prop :=
  (c.creditScore = 100 ∧ c.riskCategory = .lowRisk) ∨
    (0 ≤ c.creditScore ∧ c.creditScore ≤ 100 ∧ c.Matches)

structure CustomerDoc.WellFormed {κ : Type} (set : Setting) (c : CustomerDoc κ) : Prop where
  name : c.name ≠ ""
  phone : c.phone ≠ ""
  portalPin : set.PinHash c.portalPin
  balanced : c.totals.Balanced
  graded : c.Graded

structure User.WellFormed (u : User) : Prop where
  username : u.username ≠ ""
  businessName : u.businessName ≠ ""
  phone : u.phone ≠ ""

/-! ### The invariant -/

/-- The text is the identifier of a user. -/
def Users.Registered (users : Users) (m : String) : Prop := ∃ u ∈ users.docs, u.id.str = m

/-- A session is that of a visitor, of a merchant or of a customer.  A merchant's is for a
user, a customer's for a customer of a user, and a code has been sent to a user's phone. -/
structure SessionState.Sound (users : Users) (st : SessionState) : Prop where
  apart : ¬(st.loggedIn = true ∧ st.custLoggedIn = true)
  mode : st.mode = .customer ↔ st.custLoggedIn = true
  merchant : st.loggedIn = true → ∃ u ∈ users.docs,
    st.userId = u.id.str ∧ st.username = u.username ∧ st.businessName = u.businessName
  visitor : st.loggedIn = false → st.userId = "" ∧ st.username = "" ∧ st.businessName = ""
  customer : st.custLoggedIn = st.custData.isSome
  custData : ∀ c ∈ st.custData, users.Registered c.merchantId
  otp : st.otpSent = true → ∃ u ∈ users.docs, u.phone = st.otpPhone

theorem sound_initial (users : Users) : SessionState.initial.Sound users where
  apart h := absurd h.1 (by decide)
  mode := by decide
  merchant h := absurd h (by decide)
  visitor _ := ⟨rfl, rfl, rfl⟩
  customer := rfl
  custData _ hc := absurd hc (Option.not_mem_none _)
  otp h := absurd h (by decide)

/-- The invariant. -/
structure Site.Sound (set : Setting) (site : Site ι) : Prop where
  users : ∀ u ∈ site.world.users.docs, u.WellFormed
  customers : ∀ c ∈ site.world.ledger.customers.docs,
    site.world.users.Registered c.merchantId ∧ c.WellFormed set
  transactions : ∀ t ∈ site.world.ledger.transactions.docs,
    site.world.users.Registered t.merchantId ∧ 1 / 100 ≤ t.amount
  logs : ∀ l ∈ site.logs.docs, site.world.users.Registered l.merchantId
  sessions : ∀ i, (site.sessions i).Sound site.world.users

theorem sound_start (set : Setting) (gateway : ℕ → Response) :
    (Site.start gateway : Site ι).Sound set where
  users _ hu := absurd hu List.not_mem_nil
  customers _ hc := absurd hc List.not_mem_nil
  transactions _ ht := absurd ht List.not_mem_nil
  logs _ hl := absurd hl List.not_mem_nil
  sessions _ := sound_initial _

/-! ### Users persist -/

/-- The users are still there; only their passwords and codes may have changed. -/
def Users.Persist (users users' : Users) : Prop :=
  ∀ u ∈ users.docs, ∃ u' ∈ users'.docs, u'.id = u.id ∧ u'.username = u.username ∧
    u'.businessName = u.businessName ∧ u'.phone = u.phone

namespace Users.Persist

theorem refl (users : Users) : users.Persist users := fun u hu => ⟨u, hu, rfl, rfl, rfl, rfl⟩

theorem trans {users'' : Users} (h : users.Persist users') (h' : users'.Persist users'') :
    users.Persist users'' := by
  intro u hu
  obtain ⟨u', hu', hid, hname, hbusiness, hphone⟩ := h u hu
  obtain ⟨u'', hu'', hid', hname', hbusiness', hphone'⟩ := h' u' hu'
  exact ⟨u'', hu'', hid'.trans hid, hname'.trans hname, hbusiness'.trans hbusiness,
    hphone'.trans hphone⟩

theorem registered (h : users.Persist users') {m : String} (hm : users.Registered m) :
    users'.Registered m := by
  obtain ⟨u, hu, rfl⟩ := hm
  obtain ⟨u', hu', hid, -⟩ := h u hu
  exact ⟨u', hu', by rw [hid]⟩

theorem sound (h : users.Persist users') {st : SessionState} (hst : st.Sound users) :
    st.Sound users' where
  apart := hst.apart
  mode := hst.mode
  merchant hin := by
    obtain ⟨u, hu, hid, hname, hbusiness⟩ := hst.merchant hin
    obtain ⟨u', hu', hid', hname', hbusiness', -⟩ := h u hu
    exact ⟨u', hu', by rw [hid, hid'], hname.trans hname'.symm, hbusiness.trans hbusiness'.symm⟩
  visitor := hst.visitor
  customer := hst.customer
  custData c hc := h.registered (hst.custData c hc)
  otp hsent := by
    obtain ⟨u, hu, hphone⟩ := hst.otp hsent
    obtain ⟨u', hu', -, -, -, hphone'⟩ := h u hu
    exact ⟨u', hu', hphone'.trans hphone⟩

/-- An update of a user keeps all that persists. -/
theorem updateOne (users : Users) (q : UserQuery) (x : UserUpdate) :
    users.Persist (users.updateOne userIndexes_kept q x) := by
  intro u hu
  have hkept := Collection.map_updateOne (D := User) (u := x)
    (g := fun u : User => (u.id, u.username, u.businessName, u.phone)) (fun u => rfl) q
      users.collection
  have hmem : (u.id, u.username, u.businessName, u.phone) ∈
      (users.collection.updateOne q x).docs.map
        fun u : User => (u.id, u.username, u.businessName, u.phone) := by
    rw [hkept]
    exact List.mem_map_of_mem (f := fun u : User => (u.id, u.username, u.businessName, u.phone)) hu
  obtain ⟨u', hu', heq⟩ := List.mem_map.mp hmem
  obtain ⟨hid, hname, hbusiness, hphone⟩ := by simpa using heq
  exact ⟨u', hu', hid, hname, hbusiness, hphone⟩

theorem insertOne {u : User} (h : users.insertOne u = some users') : users.Persist users' := by
  intro u' hu'
  refine ⟨u', ?_, rfl, rfl, rfl, rfl⟩
  rw [IndexedCollection.docs_insertOne h]
  exact List.mem_append_left _ hu'

end Users.Persist

/-! ### The calls of the pages -/

/-- An update that keeps customers well formed. -/
structure CustomerUpdate.Fits (set : Setting) (u : CustomerUpdate) : Prop where
  portalPin : ∀ pin ∈ u.portalPin, set.PinHash pin
  balanced : u.inc.Balanced
  graded : (u.creditScore = none ∧ u.riskCategory = none) ∨ ∃ score, 0 ≤ score ∧ score ≤ 100 ∧
    u.creditScore = some score ∧ u.riskCategory = some (DigitalLedger.riskCategory score)

@[simp] theorem balanced_zero : (0 : Totals).Balanced := by simp [Totals.Balanced]

theorem balanced_effect (type : TxnType) (amount : ℚ) : (type.effect amount).Balanced := by
  cases type <;> simp [Totals.Balanced, TxnType.effect]

theorem Totals.Balanced.add {δ δ' : Totals} (h : δ.Balanced) (h' : δ'.Balanced) :
    (δ + δ').Balanced := by
  rw [Balanced] at h h' ⊢
  simp only [balance_add, totalCredit_add, totalPaid_add, h, h']
  ring

theorem CustomerDoc.WellFormed.apply {c : Customer} {u : CustomerUpdate} (hc : c.WellFormed set)
    (hu : u.Fits set) : (u.apply c).WellFormed set where
  name := hc.name
  phone := hc.phone
  portalPin := by
    change set.PinHash (u.portalPin.getD c.portalPin)
    cases hpin : u.portalPin with
    | none => exact hc.portalPin
    | some pin => exact hu.portalPin pin hpin
  balanced := by
    rw [totals_apply]
    exact hc.balanced.add hu.balanced
  graded := by
    rw [CustomerUpdate.apply, Graded, Matches]
    rcases hu.graded with ⟨hscore, hcategory⟩ | ⟨score, hle, hge, hscore, hcategory⟩
    · simp only [hscore, hcategory, Option.getD_none]
      exact hc.graded
    · simp only [hscore, hcategory, Option.getD_some]
      exact .inr ⟨hle, hge, trivial⟩

/-- What a page may ask of the ledger: it inserts well formed documents of registered users,
and it updates to well formed ones. -/
def DbCall.Fits (set : Setting) (users : Users) : DbCall → Prop
  | .customers (.insertOne c) => users.Registered c.merchantId ∧ c.WellFormed set
  | .customers (.updateOne _ u) => u.Fits set
  | .transactions (.insertOne t) => users.Registered t.merchantId ∧ 1 / 100 ≤ t.amount
  | .transactions (.updateOne _ u) => 1 / 100 ≤ u.amount
  | _ => True

/-- What a page may ask of the users: it removes none. -/
def UsersFit : Op User UserQuery UserUpdate → Prop
  | .insertOne u => u.WellFormed
  | .deleteOne _ => False
  | .deleteMany _ => False
  | _ => True

/-- The calls of the pages. -/
def PageCall.Fits (set : Setting) (users : Users) : PageCall → Prop
  | .app (.ledger c) => c.Fits set users
  | .app (.users op) => UsersFit op
  | .app (.request _) => True
  | .logs op => op.Inserts fun l => users.Registered l.merchantId
  | .session st => st.Sound users

/-- The call writes nothing that is stored, and sets no session. -/
def PageCall.Plain : PageCall → Prop
  | .app (.ledger (.customers (.findOne _))) => True
  | .app (.ledger (.customers (.find _))) => True
  | .app (.ledger (.transactions (.findOne _))) => True
  | .app (.ledger (.transactions (.find _))) => True
  | .app (.ledger _) => False
  | .app (.users (.findOne _)) => True
  | .app (.users (.find _)) => True
  | .app (.users _) => False
  | .app (.request _) => True
  | .logs (.findOne _) => True
  | .logs (.find _) => True
  | .logs _ => False
  | .session _ => False

theorem PageCall.Plain.fits {c : PageCall} (hc : c.Plain) : c.Fits set users := by
  rcases c with ((op | op) | op | r) | op | st
  · cases op with
    | findOne q => trivial
    | find q => trivial
    | insertOne c => exact hc.elim
    | updateOne q u => exact hc.elim
    | deleteOne q => exact hc.elim
    | deleteMany q => exact hc.elim
  · cases op with
    | findOne q => trivial
    | find q => trivial
    | insertOne t => exact hc.elim
    | updateOne q u => exact hc.elim
    | deleteOne q => exact hc.elim
    | deleteMany q => exact hc.elim
  · cases op with
    | findOne q => trivial
    | find q => trivial
    | insertOne u => exact hc.elim
    | updateOne q x => exact hc.elim
    | deleteOne q => exact hc.elim
    | deleteMany q => exact hc.elim
  · trivial
  · cases op with
    | findOne q => trivial
    | find q => trivial
    | insertOne l => exact hc.elim
    | updateOne q x => exact x.elim
    | deleteOne q => exact hc.elim
    | deleteMany q => exact hc.elim
  · exact hc.elim

/-- What fits, fits as long as the users are there. -/
theorem PageCall.Fits.persist {c : PageCall} (hc : c.Fits set users) (h : users.Persist users') :
    c.Fits set users' := by
  cases c with
  | app c =>
    cases c with
    | ledger c =>
      cases c with
      | customers op =>
        cases op with
        | insertOne c => exact ⟨h.registered hc.1, hc.2⟩
        | updateOne q u => exact hc
        | findOne q => trivial
        | find q => trivial
        | deleteOne q => trivial
        | deleteMany q => trivial
      | transactions op =>
        cases op with
        | insertOne t => exact ⟨h.registered hc.1, hc.2⟩
        | updateOne q u => exact hc
        | findOne q => trivial
        | find q => trivial
        | deleteOne q => trivial
        | deleteMany q => trivial
    | users op => exact hc
    | request r => trivial
  | logs op => exact Op.Inserts.mono (fun l hl => h.registered hl) hc
  | session st => exact h.sound hc

/-! ### They keep the site sound -/

theorem DbCall.Fits.customers {c : DbCall} (hc : c.Fits set users) {s : Store}
    (hs : ∀ c ∈ s.customers.docs, users.Registered c.merchantId ∧ c.WellFormed set) :
    ∀ c' ∈ (exec c s).2.customers.docs, users.Registered c'.merchantId ∧ c'.WellFormed set := by
  cases c with
  | transactions op => exact hs
  | customers op =>
    refine Op.Writes.forall_docs_exec ?_ hs
    cases op with
    | insertOne c => exact hc
    | updateOne q u => exact fun d hd => ⟨hd.1, hd.2.apply hc⟩
    | findOne q => trivial
    | find q => trivial
    | deleteOne q => trivial
    | deleteMany q => trivial

theorem DbCall.Fits.transactions {c : DbCall} (hc : c.Fits set users) {s : Store}
    (hs : ∀ t ∈ s.transactions.docs, users.Registered t.merchantId ∧ 1 / 100 ≤ t.amount) :
    ∀ t ∈ (exec c s).2.transactions.docs, users.Registered t.merchantId ∧ 1 / 100 ≤ t.amount := by
  cases c with
  | customers op => exact hs
  | transactions op =>
    refine Op.Writes.forall_docs_exec ?_ hs
    cases op with
    | insertOne t => exact hc
    | updateOne q u => exact fun d hd => ⟨hd.1, hc⟩
    | findOne q => trivial
    | find q => trivial
    | deleteOne q => trivial
    | deleteMany q => trivial

/-- What a call on the users leaves of them. -/
theorem UsersFit.persist {op : Op User UserQuery UserUpdate} (hop : UsersFit op) {e : AppExn}
    (hwf : ∀ u ∈ users.docs, u.WellFormed) :
    users.Persist (op.execIndexed userIndexes_kept e users).2 ∧
      ∀ u ∈ (op.execIndexed userIndexes_kept e users).2.docs, u.WellFormed := by
  cases op with
  | findOne q => exact ⟨.refl _, hwf⟩
  | find q => exact ⟨.refl _, hwf⟩
  | updateOne q x =>
    refine ⟨.updateOne users q x, ?_⟩
    exact List.forall_mem_updateFirst (fun u hu => ⟨hu.username, hu.businessName, hu.phone⟩) hwf
  | insertOne u =>
    rw [Op.execIndexed]
    cases hinsert : users.insertOne u with
    | none => exact ⟨.refl _, hwf⟩
    | some users' =>
      refine ⟨.insertOne hinsert, fun u' hu' => ?_⟩
      rw [IndexedCollection.docs_insertOne hinsert, List.mem_append, List.mem_singleton] at hu'
      rcases hu' with hu' | rfl
      · exact hwf u' hu'
      · exact hop
  | deleteOne q => exact hop.elim
  | deleteMany q => exact hop.elim

/-- **A call that fits keeps the site sound**, and the users there. -/
theorem PageCall.Fits.sound [DecidableEq ι] {i : ι} {c : PageCall}
    (hc : c.Fits set site.world.users) (hsite : site.Sound set) :
    site.world.users.Persist (execPage i c site).2.world.users ∧
      (execPage i c site).2.Sound set := by
  cases c with
  | app c =>
    cases c with
    | ledger c =>
      exact ⟨.refl _, { hsite with
        customers := DbCall.Fits.customers hc hsite.customers
        transactions := DbCall.Fits.transactions hc hsite.transactions }⟩
    | users op =>
      obtain ⟨hpersist, hwf⟩ := UsersFit.persist hc hsite.users
        (e := AppExn.database .duplicateKeyError)
      exact ⟨hpersist, {
        users := hwf
        customers := fun c hc => ⟨hpersist.registered (hsite.customers c hc).1,
          (hsite.customers c hc).2⟩
        transactions := fun t ht => ⟨hpersist.registered (hsite.transactions t ht).1,
          (hsite.transactions t ht).2⟩
        logs := fun l hl => hpersist.registered (hsite.logs l hl)
        sessions := fun j => hpersist.sound (hsite.sessions j) }⟩
    | request r => exact ⟨.refl _, { hsite with }⟩
  | logs op =>
    refine ⟨.refl _, { hsite with logs := ?_ }⟩
    refine Op.forall_docs_exec ?_ hc hsite.logs
    exact fun x => x.elim
  | session st =>
    refine ⟨.refl _, { hsite with sessions := fun j => ?_ }⟩
    change (Function.update site.sessions i st j).Sound site.world.users
    by_cases hj : j = i
    · subst hj
      rw [Function.update_self]
      exact hc
    · rw [Function.update_of_ne hj]
      exact hsite.sessions j

end DigitalLedger
