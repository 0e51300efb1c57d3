import DigitalLedger.Interleaving

/-!
# Calls that race for one transaction

Any number of edits and deletions of one transaction are interleaved, each step on
the database being atomic.  Each call reads the amount, writes the transaction two
steps after and moves the figures by the difference to the amount it has read.
When another call has written in between, the difference is taken from an amount
that is no longer there, and the figures are off by as much for good: nothing looks
at how many documents the update or the deletion has found.

## Main definitions

* `Session.read` — the transaction a session has read.
* `staleAmount` — by how much the amount a session has read is off when it writes.

## Main results

* `Racing.slip_eq` — a write slips by its stale amount.
* `racing_exact_iff` — racing calls leave exact figures when the stale amounts cancel,
  so in particular when there are none.
* `double_delete` — two deletions at once take the amount off twice.
-/

namespace DigitalLedger

open Collection Prog

section Reading

variable {α : Type}

/-- The transaction a session has read: an edit or a deletion begins with that. -/
def Session.read (y : Session DbCall DbCall.Answer Exn α) : Option Transaction :=
  match y.seen with
  | ⟨.transactions (.findOne _), .ok found⟩ :: _ => found
  | _ => none

/-- By how much the amount a session has read is off when it writes.  The write finds
the transaction as another call has left it; once the transaction is gone there is
nothing to set or to take off. -/
def staleAmount {ι : Type} (x : Sessions ι α) (i : ι) : ℚ :=
  match (x.sessions i).read, (x.sessions i).rest with
  | some r, .call (.transactions (.updateOne q u)) _ =>
    match x.store.transactions.findOne q with
    | some stored => stored.amount - r.amount
    | none => u.amount - r.amount
  | some r, .call (.transactions (.deleteOne q)) _ =>
    match x.store.transactions.findOne q with
    | some stored => stored.amount - r.amount
    | none => 0 - r.amount
  | _, _ => 0

end Reading

/-- The effect of an amount, as a homomorphism. -/
def TxnType.effectHom (type : TxnType) : ℚ →+ Totals :=
  AddMonoidHom.mk' type.effect fun a b => (type.effect_add a b).symm

variable {ι : Type} {x : Sessions ι Outcome} {i : ι} {t : Transaction}

/-! ### What the racing sessions know -/

/-- What holds of a session at a stage when it races for `t`. -/
def Races (t : Transaction) (y : Session DbCall DbCall.Answer Exn Outcome) : Stage → Prop
  | .checking => False
  | .inserting _ => False
  | .reading oid _ => oid = t.id ∧ y.seen = []
  | .writing r _ => r.SameEntry t ∧ y.read = some r
  | _ => True

/-- Every session races for `t`, which is stored, if at all, with its type and its
customer. -/
structure Racing (t : Transaction) (x : Sessions ι Outcome) : Prop where
  races : ∀ i, ∃ st, At st (x.sessions i).rest ∧ Races t (x.sessions i) st
  stored : ∀ r ∈ x.store.transactions.docs, r.id = t.id → r.SameEntry t

theorem races_settling (y : Session DbCall DbCall.Answer Exn Outcome) (o : Option ObjectId)
    (δ : Totals) : Races t y (Stage.settling o δ) := by
  cases o with
  | none => trivial
  | some oid => trivial

/-- Only a session that is about to write has a stale amount. -/
theorem At.staleAmount_eq_zero {st : Stage} (h : At st (x.sessions i).rest)
    (hst : ∀ r w, st ≠ .writing r w) : staleAmount x i = 0 := by
  rw [staleAmount]
  generalize (x.sessions i).read = found
  generalize (x.sessions i).rest = p at h
  cases h with
  | amending hk => exact absurd rfl (hst _ _)
  | voiding hk => exact absurd rfl (hst _ _)
  | owing hk => cases found <;> rfl
  | reading hnone hsome => cases found <;> rfl
  | inserting herror hok => cases found <;> rfl
  | checking hnone hsome => cases found <;> rfl
  | quiet hp =>
    cases hp with
    | ret b => cases found <;> rfl
    | raise e => cases found <;> rfl
    | @call c k hc hk =>
      cases c with
      | customers op => cases found <;> rfl
      | transactions op =>
        cases op with
        | find q => cases found <;> rfl
        | findOne q => exact hc.elim
        | insertOne d => exact hc.elim
        | updateOne q u => exact hc.elim
        | deleteOne q => exact hc.elim
        | deleteMany q => exact hc.elim

/-- By how much the difference taken from `r` is off, when `r` and `r'` are one
transaction at two moments. -/
theorem delta_sub_delta {r r' : Transaction} (htype : r.type = r'.type)
    (w : Option TransactionUpdate) :
    r.delta w - r'.delta w = r'.type.effect (r'.amount - r.amount) := by
  have heffect : r'.effect - r.effect = r'.type.effect (r'.amount - r.amount) := by
    rw [TransactionDoc.effect, TransactionDoc.effect, htype, TxnType.effect_sub]
  rw [← heffect]
  cases w with
  | some u =>
    rw [TransactionDoc.delta, TransactionDoc.delta, htype]
    abel
  | none =>
    rw [TransactionDoc.delta, TransactionDoc.delta]
    abel

/-- A write that finds its transaction is off by what was written since it was read. -/
theorem At.staleAmount_of_some {r stored : Transaction} {w : Option TransactionUpdate}
    (h : At (.writing r w) (x.sessions i).rest) (hread : (x.sessions i).read = some r)
    (hfind : x.store.transactions.findOne { id := some r.id } = some stored) :
    staleAmount x i = stored.amount - r.amount := by
  rw [staleAmount, hread]
  generalize (x.sessions i).rest = p at h
  cases h with
  | amending hk => simp only [hfind]
  | voiding hk => simp only [hfind]

/-- A write that finds its transaction gone is off by the whole of its difference. -/
theorem At.delta_of_none {r : Transaction} {w : Option TransactionUpdate}
    (h : At (.writing r w) (x.sessions i).rest) (hread : (x.sessions i).read = some r)
    (hfind : x.store.transactions.findOne { id := some r.id } = none) :
    r.delta w = r.type.effect (staleAmount x i) := by
  rw [staleAmount, hread]
  generalize (x.sessions i).rest = p at h
  cases h with
  | amending hk =>
    simp only [hfind]
    rw [TransactionDoc.delta, TransactionDoc.effect, TxnType.effect_sub]
  | voiding hk =>
    simp only [hfind]
    rw [TransactionDoc.delta, TransactionDoc.effect, TxnType.effect_neg, zero_sub]

/-- **A write slips by its stale amount.** -/
theorem Racing.slip_eq (hx : Racing t x) {st : Stage} (hat : At st (x.sessions i).rest)
    (hraces : Races t (x.sessions i) st) (a : ObjectId) :
    st.slip x.store a = if t.owner = some a then t.type.effect (staleAmount x i) else 0 := by
  by_cases hst : ∃ r w, st = .writing r w
  · obtain ⟨r, w, rfl⟩ := hst
    obtain ⟨hr, hread⟩ := hraces
    rw [Stage.slip, hr.owner]
    cases hfind : x.store.transactions.findOne { id := some r.id } with
    | some stored =>
      -- what was read and what is stored are of one type and one customer
      obtain ⟨hmem, hid⟩ := findOne_transaction.mp hfind
      have hs := hx.stored stored hmem (hid.trans hr.id)
      have hdelta := delta_sub_delta (hr.type.trans hs.type.symm) w
      rw [hs.type, ← hat.staleAmount_of_some hread hfind] at hdelta
      dsimp only
      rw [hs.owner, ← hdelta]
      split
      · rfl
      · exact sub_zero _
    | none =>
      have hdelta := hat.delta_of_none hread hfind
      rw [hr.type] at hdelta
      dsimp only
      rw [hdelta, sub_zero]
  · -- only a write can slip
    have hnot : ∀ r w, st ≠ .writing r w := fun r w h => hst ⟨r, w, h⟩
    have hslip : st.slip x.store a = 0 := by
      cases st with
      | writing r w => exact absurd rfl (hnot r w)
      | quiet => rfl
      | checking => rfl
      | inserting r => rfl
      | reading oid w => rfl
      | owing oid δ => rfl
    rw [hslip, hat.staleAmount_eq_zero hnot, TxnType.effect_zero, ite_self]

/-! ### Steps of the race -/

/-- The answer to the lookup of a session is what it has read. -/
theorem At.step_reading {α : Type} {oid : ObjectId} {w : Option TransactionUpdate} {c : DbCall}
    {k : Except Exn c.Answer → Db α} (h : At (.reading oid w) (.call c k)) (s : Store) :
    At .quiet (k (exec c s).1) ∨ ∃ r ∈ s.transactions.docs, r.id = oid ∧
      At (.writing r w) (k (exec c s).1) ∧
        Session.read ⟨[⟨c, (exec c s).1⟩], k (exec c s).1⟩ = some r := by
  cases h with
  | @reading _ _ m k hnone hsome =>
    rw [exec_transactions_findOne]
    cases hfind : s.transactions.findOne { id := some oid, merchantId := some m } with
    | none => exact .inl (.quiet hnone)
    | some r =>
      obtain ⟨hr, hid, -⟩ := findOne_transaction_merchant.mp hfind
      exact .inr ⟨r, hr, hid, hsome r hid, rfl⟩

variable [DecidableEq ι]

/-- Where the session that steps gets to in the race. -/
theorem Racing.races_step (hx : Racing t x) (i : ι) :
    ∃ st, At st ((x.step exec i).sessions i).rest ∧ Races t ((x.step exec i).sessions i) st := by
  obtain ⟨st, hat, hraces⟩ := hx.races i
  -- an edit or a deletion never records a transaction
  cases st with
  | checking => exact hraces.elim
  | inserting r => exact hraces.elim
  | reading oid w =>
    obtain ⟨rfl, hseen⟩ := hraces
    cases hrest : (x.sessions i).rest with
    | ret b => rw [hrest] at hat; cases hat
    | raise e => rw [hrest] at hat; cases hat
    | call c k =>
      rw [hrest] at hat
      rw [System.sessions_step_self hrest, hseen, List.nil_append]
      rcases hat.step_reading x.store with hquiet | ⟨r, hr, hid, hwriting, hread⟩
      · exact ⟨.quiet, hquiet, trivial⟩
      · exact ⟨.writing r w, hwriting, hx.stored r hr hid, hread⟩
  | writing r w =>
    obtain ⟨st', hstep, hat'⟩ := hat.system_step
    refine ⟨st', hat', ?_⟩
    generalize (x.step exec i).store = s' at hstep
    cases hstep with
    | write => exact races_settling _ _ _
  | quiet =>
    obtain ⟨st', hstep, hat'⟩ := hat.system_step
    refine ⟨st', hat', ?_⟩
    cases hstep with
    | quiet hT hC => trivial
  | owing oid δ =>
    obtain ⟨st', hstep, hat'⟩ := hat.system_step
    refine ⟨st', hat', ?_⟩
    generalize (x.step exec i).store = s' at hstep
    cases hstep with
    | inc => trivial

/-- The stored transactions keep their type and their customer. -/
theorem Racing.stored_step (hx : Racing t x) (i : ι) :
    ∀ r ∈ (x.step exec i).store.transactions.docs, r.id = t.id → r.SameEntry t := by
  obtain ⟨st, hat, hraces⟩ := hx.races i
  obtain ⟨st', hstep, -⟩ := hat.system_step
  intro r hr hid
  generalize (x.step exec i).store = s' at hstep hr
  cases hstep with
  | quiet hT hC =>
    rw [hT] at hr
    exact hx.stored r hr hid
  | write r' w =>
    obtain ⟨r'', hr'', hsame⟩ := mem_transactions_write hr
    exact hsame.trans (hx.stored r'' hr'' (hsame.id.symm.trans hid))
  | checkFails => exact hraces.elim
  | check r' => exact hraces.elim
  | insertFails r' => exact hraces.elim
  | insert hT => exact hraces.elim
  | readFails oid w => exact hx.stored r hr hid
  | read hr' w => exact hx.stored r hr hid
  | inc oid u => exact hx.stored r hr hid

theorem Racing.step (hx : Racing t x) (i : ι) : Racing t (x.step exec i) where
  stored := hx.stored_step i
  races j := by
    by_cases hij : j = i
    · subst hij
      exact hx.races_step j
    · rw [System.sessions_step_of_ne hij]
      exact hx.races j

/-- What every step of a race keeps. -/
theorem Racing.step_keeps {ids : List ObjectId} (hx : Racing t x) (hids : x.store.customerIds = ids)
    (i : ι) : Racing t (x.step exec i) ∧ (x.step exec i).store.customerIds = ids := by
  obtain ⟨st, hat, -⟩ := hx.races i
  obtain ⟨st', hstep, -⟩ := hat.system_step
  exact ⟨hx.step i, hstep.customerIds.trans hids⟩

/-! ### Whole races -/

variable {bcrypt : Bcrypt} {s : Store} {calls : ι → Call}

/-- The calls edit or delete the transaction, each as its merchant. -/
def Call.WritesTo (t : Transaction) : Call → Prop
  | .editTransaction _ tid m _ _ => ObjectId.ofString? tid = some t.id ∧ m = t.merchantId
  | .deleteTransaction _ tid m => ObjectId.ofString? tid = some t.id ∧ m = t.merchantId
  | _ => False

theorem Call.WritesTo.movesMoney {call : Call} (h : call.WritesTo t) :
    call.MovesMoney ∧ call.target = some t.id := by
  cases call with
  | editTransaction env tid m amount note => exact ⟨trivial, h.1⟩
  | deleteTransaction env tid m => exact ⟨trivial, h.1⟩
  | addTransaction env m cid txnType amount note => exact h.elim
  | computeCreditScore env m cid => exact h.elim
  | addCustomer env m name phone address pin => exact h.elim
  | deleteCustomer cid m => exact h.elim
  | updateCustomerPin env cid m pin => exact h.elim
  | importCustomersFromExcel env m file => exact h.elim

/-- An edit or a deletion begins with the lookup of the transaction. -/
theorem Call.WritesTo.at_code (bcrypt : Bcrypt) {call : Call} (h : call.WritesTo t) :
    ∃ w, At (.reading t.id w) (call.code bcrypt) := by
  cases call with
  | editTransaction env tid m amount note =>
    refine ⟨some ⟨amount, note, true, env.utcnow 0⟩, At.map _ ?_⟩
    rw [editTransaction_eq, h.1]
    exact at_amendFor env t.id m amount note
  | deleteTransaction env tid m =>
    refine ⟨none, At.map _ ?_⟩
    rw [deleteTransaction_eq, h.1]
    exact at_voidFor env t.id m
  | addTransaction env m cid txnType amount note => exact h.elim
  | computeCreditScore env m cid => exact h.elim
  | addCustomer env m name phone address pin => exact h.elim
  | deleteCustomer cid m => exact h.elim
  | updateCustomerPin env cid m pin => exact h.elim
  | importCustomersFromExcel env m file => exact h.elim

omit [DecidableEq ι] in
theorem racing_start (ht : t ∈ s.transactions.docs) (hcalls : ∀ i, (calls i).WritesTo t) :
    Racing t (System.start s fun i => (calls i).code bcrypt) where
  races i := by
    obtain ⟨w, hat⟩ := (hcalls i).at_code bcrypt
    exact ⟨_, hat, rfl, rfl⟩
  stored r hr hid := by
    rw [eq_of_key_eq hr ht hid]
    exact .refl t

variable [Fintype ι]

/-- The gap a race leaves: the effect of the stale amounts, on the customer of the
transaction. -/
theorem racing_gap (hs : s.Exact) (ht : t ∈ s.transactions.docs)
    (hcalls : ∀ i, (calls i).WritesTo t) (sched : List ι) {a : ObjectId} (ha : a ∈ s.customerIds) :
    let start := System.start s fun i => (calls i).code bcrypt
    Sessions.gap (System.run exec start sched) a =
      if t.owner = some a then t.type.effect (System.total exec staleAmount start sched) else 0 := by
  intro start
  have hkeeps : ∀ (y : Sessions ι Outcome) i, Racing t y ∧ y.store.customerIds = s.customerIds →
      Racing t (y.step exec i) ∧ (y.step exec i).store.customerIds = s.customerIds :=
    fun y i hy => hy.1.step_keeps hy.2 i
  have hslip : ∀ (y : Sessions ι Outcome) i, Racing t y ∧ y.store.customerIds = s.customerIds →
      Sessions.gap (y.step exec i) a = Sessions.gap y a +
      if t.owner = some a then t.type.effect (staleAmount y i) else 0 := by
    rintro y i ⟨hracing, hids⟩
    obtain ⟨st, hat, hraces⟩ := hracing.races i
    rw [Sessions.gap_step hat (hids ▸ ha), hracing.slip_eq hat hraces]
  have hstart : Sessions.gap start a = 0 := gap_start hs (fun i => (hcalls i).movesMoney.1) ha
  rw [System.run_total (g := fun y => Sessions.gap y a) hkeeps hslip
    ⟨racing_start ht hcalls, rfl⟩ sched, hstart, zero_add]
  split
  · -- effects add up as amounts do
    exact System.total_map t.type.effectHom staleAmount sched
  · exact System.total_eq_zero (P := fun _ _ => True) (fun _ _ _ => rfl)
      (System.along_of_forall (fun _ _ => trivial) sched)

/-- **A race for one transaction leaves exact figures when the stale amounts cancel.**
In particular it does when no write meets another amount than its session has read, and
then nothing is lost at any moment before. -/
theorem racing_exact_iff (h : Reachable bcrypt s) (ht : t ∈ s.transactions.docs)
    (hcalls : ∀ i, (calls i).WritesTo t) (sched : List ι) :
    let start := System.start s fun i => (calls i).code bcrypt
    let x := System.run exec start sched
    (System.Along exec (fun y i => staleAmount y i = 0) start sched →
      (∀ c ∈ x.store.customers.docs,
        c.totals + ∑ i, pending (x.sessions i).rest c.id = x.store.effects c.id) ∧
      (x.Finished → x.store.Exact)) ∧
    (x.Finished → (x.store.Exact ↔ System.total exec staleAmount start sched = 0)) := by
  intro start x
  have hids : x.store.customerIds = s.customerIds := by
    have hinv : Racing t x ∧ x.store.customerIds = s.customerIds :=
      System.run_preserves (I := fun y => Racing t y ∧ y.store.customerIds = s.customerIds)
        (fun y i hy => hy.1.step_keeps hy.2 i) ⟨racing_start ht hcalls, rfl⟩ sched
    exact hinv.2
  have hgap : ∀ c ∈ x.store.customers.docs, Sessions.gap x c.id =
      if t.owner = some c.id then t.type.effect (System.total exec staleAmount start sched)
      else 0 := by
    intro c hc
    refine racing_gap h.consistent.figures ht hcalls sched ?_
    rw [← hids]
    exact List.mem_map_of_mem hc
  have hzero : System.total exec staleAmount start sched = 0 →
      ∀ c ∈ x.store.customers.docs, Sessions.gap x c.id = 0 := by
    intro htotal c hc
    rw [hgap c hc, htotal, TxnType.effect_zero, ite_self]
  refine ⟨fun hfresh => ?_, fun hfinished => ?_⟩
  · -- nothing stale on the way: the gap is closed at every moment
    have hall := hzero (System.total_eq_zero (fun _ _ hstale => hstale) hfresh)
    refine ⟨fun c hc => ?_, fun hfinished => (Sessions.exact_iff_gap hfinished).mpr hall⟩
    have hbalance := hall c hc
    rw [Sessions.gap_of_mem hc] at hbalance
    exact sub_eq_zero.mp hbalance
  · refine (Sessions.exact_iff_gap hfinished).trans ⟨fun hall => ?_, hzero⟩
    -- the customer of the transaction is stored, so its gap gives the total away
    obtain ⟨c, hc, howner⟩ := h.consistent.exists_owner ht
    have hmem : c.id ∈ x.store.customerIds := by
      rw [hids]
      exact List.mem_map_of_mem hc
    obtain ⟨c', hc', hid⟩ := List.mem_map.mp hmem
    have heffect := hgap c' hc'
    rw [hall c' hc', if_pos (hid ▸ howner)] at heffect
    exact TxnType.effect_eq_zero.mp heffect.symm

/-- The credit is deleted twice. -/
def sampleRace : Bool → Call := fun _ => .deleteTransaction (.sample 4 0) (ObjectId.ofNat 2).str "m"

/-- One deletion after the other takes it off once. -/
theorem racing_exact_iff_sample :
    let start := System.start sampleStore fun i => (sampleRace i).code markingBcrypt
    let x := System.run exec start [false, false, false, false, false, false, true]
    (∀ c ∈ x.store.customers.docs,
      c.totals + ∑ i, pending (x.sessions i).rest c.id = x.store.effects c.id) ∧
    (x.store.Exact ↔
      System.total exec staleAmount start [false, false, false, false, false, false, true] = 0) := by
  have hcalls : ∀ i, (sampleRace i).WritesTo sampleCredit := fun _ =>
    ⟨ObjectId.ofString?_str _, rfl⟩
  have hrace := racing_exact_iff sampleStore_reachable sampleCredit_mem hcalls
    [false, false, false, false, false, false, true]
  exact ⟨(hrace.1 (by decide +kernel)).1, hrace.2 (by decide +kernel)⟩

/-- **Two deletions at once take the amount off twice**: the second one deletes nothing
and reverses the effect all the same. -/
theorem double_delete :
    ¬∀ (bcrypt : Bcrypt) (s : Store), Reachable bcrypt s → ∀ t ∈ s.transactions.docs,
      ∀ calls : Bool → Call, (∀ i, (calls i).WritesTo t) → ∀ sched : List Bool,
        let x := System.run exec (System.start s fun i => (calls i).code bcrypt) sched
        x.Finished → x.store.Exact := by
  intro hclaim
  have hexact := hclaim markingBcrypt _ sampleStore_reachable _ sampleCredit_mem sampleRace
    (fun i => ⟨ObjectId.ofString?_str _, rfl⟩)
    [false, true, false, true, false, true, false, true, false, true, false, true]
    (by decide +kernel)
  revert hexact
  decide +kernel

end DigitalLedger
