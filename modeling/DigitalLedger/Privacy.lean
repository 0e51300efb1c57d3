import DigitalLedger.Tenancy

/-!
# Merchants do not notice each other

That the sessions of others change nothing of a merchant's is one half of it; the other is that
they do not show.  The process is compared with itself where the other sessions stand still:
the runs of the merchant's sessions are answered the same, call by call, and leave the same.
What they ask of users and of the gateway is left out, since a user can change its password,
and what the gateway answers may depend on what it was asked before.

## Main definitions

* `PageCall.Local` — the calls on the ledger, the log and the session.
* `Site.Alike` — what a merchant's sessions can see of two sites is the same.
* `Live.Marked.Apart` — some sessions are those of a merchant, the others are not.

## Main results

* `PageCall.For.alike` — a merchant's call is answered the same on sites that it sees alike.
* `tenants_unaware` — so are its runs, whatever the others do in between.
-/

namespace DigitalLedger

open Collection Prog

variable {ι : Type} {owner : ObjectId → String} {mark : Option String} {m : String} {s s' : Store}

/-! ### The calls for a merchant -/

theorem confined_customers {op : Op Customer CustomerQuery CustomerUpdate}
    (hop : DbCall.For owner m (.customers op)) (hs : s.Attributed owner) :
    op.Confined (fun c => decide (c.merchantId = m)) s.customers := by
  refine Op.KeepsTo.confined hop (fun c hc => ⟨decide_eq_true hc.1, fun c' hc' hid => ?_⟩)
    fun q hq c hc htest => decide_eq_true (hq.merchant hs hc htest)
  -- who has the identifier of a customer of `m` is one
  have howner : owner c'.id = m := (congrArg owner hid).trans hc.2
  exact decide_eq_true ((hs.customers c' hc').symm.trans howner)

theorem confined_transactions {op : Op Transaction TransactionQuery TransactionUpdate}
    (hop : DbCall.For owner m (.transactions op)) (hs : s.Attributed owner) :
    op.Confined (fun t => decide (t.merchantId = m)) s.transactions := by
  refine Op.KeepsTo.confined hop (fun t ht => ⟨decide_eq_true ht.1, fun t' ht' hid => ?_⟩)
    fun q hq t ht htest => decide_eq_true (hq.merchant hs ht htest)
  have howner : owner t'.id = m := (congrArg owner hid).trans ht.2.1
  exact decide_eq_true ((hs.transactions t' ht').1.symm.trans howner)

/-- **A call on the ledger** is answered the same on stores with the same documents of the
merchant, and leaves such stores. -/
theorem alike_exec {c : DbCall} (hc : c.For owner m) (hs : s.Attributed owner)
    (hs' : s'.Attributed owner) (hview : s.view m = s'.view m) :
    (exec c s).1 = (exec c s').1 ∧ (exec c s).2.view m = (exec c s').2.view m := by
  obtain ⟨hcustomers, htransactions⟩ := Store.mk.inj hview
  cases c with
  | customers op =>
    obtain ⟨hanswer, hleft⟩ := Op.exec_congr Exn.duplicateKeyError (fun _ _ => rfl)
      (confined_customers hc hs) (confined_customers hc hs') hcustomers
    refine ⟨hanswer, ?_⟩
    simp only [exec, Store.view, hleft, htransactions]
  | transactions op =>
    obtain ⟨hanswer, hleft⟩ := Op.exec_congr Exn.duplicateKeyError (fun _ _ => rfl)
      (confined_transactions hc hs) (confined_transactions hc hs') htransactions
    refine ⟨hanswer, ?_⟩
    simp only [exec, Store.view, hleft, hcustomers]

/-- **So is a call on the log.** -/
theorem alike_exec_logs {site site' : Site ι} {op : LogOp} (hm : m ≠ "")
    (hop : PageCall.For owner m (.logs op)) (hs : site.Attributed owner)
    (hs' : site'.Attributed owner)
    (hlogs : site.logs.find (⟨m⟩ : LogQuery) = site'.logs.find (⟨m⟩ : LogQuery)) :
    (op.exec (AppExn.database .duplicateKeyError) site.logs).1 =
        (op.exec (AppExn.database .duplicateKeyError) site'.logs).1 ∧
      (op.exec (AppExn.database .duplicateKeyError) site.logs).2.find (⟨m⟩ : LogQuery) =
        (op.exec (AppExn.database .duplicateKeyError) site'.logs).2.find (⟨m⟩ : LogQuery) := by
  have hconfined : ∀ {site : Site ι}, site.Attributed owner →
      op.Confined (fun l => decide (l.merchantId = m)) site.logs := by
    intro site hs
    refine Op.KeepsTo.confined hop (fun l hl => ⟨decide_eq_true hl.1, fun l' hl' hid => ?_⟩)
      fun q hq l _ htest => decide_eq_true ((test_logQuery.mp htest).trans hq)
    have howner : owner l'.id = m := (congrArg owner hid).trans hl.2
    rcases hs.logs l' hl' with hmerchant | hnone
    · exact decide_eq_true (hmerchant.symm.trans howner)
    · exact absurd (howner.symm.trans hnone) hm
  have hrestrict : (site.logs.restrict fun l => decide (l.merchantId = m)) =
      site'.logs.restrict fun l => decide (l.merchantId = m) := by
    refine Collection.ext' ?_
    rw [← find_eq_restrict, ← find_eq_restrict]
    exact hlogs
  obtain ⟨hanswer, hleft⟩ := Op.exec_congr (AppExn.database .duplicateKeyError)
    (fun x _ => x.elim) (hconfined hs) (hconfined hs') hrestrict
  exact ⟨hanswer, by rw [find_eq_restrict, hleft, ← find_eq_restrict]⟩

/-! ### What a merchant's sessions can see -/

/-- The call is one on the ledger, the log or the session. -/
def PageCall.Local : PageCall → Prop
  | .app (.ledger _) => True
  | .app _ => False
  | .logs _ => True
  | .session _ => True

/-- The documents of the merchant, and the states of its sessions, are the same. -/
structure Site.Alike (owner : ObjectId → String) (S : ι → Prop) (m : String)
    (site site' : Site ι) : Prop where
  attributed : site'.Attributed owner
  ledger : site.world.ledger.view m = site'.world.ledger.view m
  logs : site.logs.find (⟨m⟩ : LogQuery) = site'.logs.find (⟨m⟩ : LogQuery)
  sessions : ∀ i, S i → site.sessions i = site'.sessions i

variable [DecidableEq ι] {S : ι → Prop} {i : ι} {site site' : Site ι}

/-- **A call for the merchant** is answered the same on sites that its sessions see alike. -/
theorem Site.Alike.own {c : PageCall} (h : Site.Alike owner S m site site')
    (hs : site.Attributed owner) (hc : c.Allowed owner (some m)) (hlocal : c.Local) :
    (execPage i c site).1 = (execPage i c site').1 ∧
      Site.Alike owner S m (execPage i c site).2 (execPage i c site').2 := by
  have hattributed := (hc.exec h.attributed (i := i)).1
  obtain ⟨hm, hfor⟩ := hc
  rcases c with (c | op | r) | op | st
  · obtain ⟨hanswer, hleft⟩ := alike_exec hfor hs.ledger h.attributed.ledger h.ledger
    exact ⟨congrArg (Except.mapError AppExn.database) hanswer, hattributed, hleft, h.logs,
      h.sessions⟩
  · exact hlocal.elim
  · exact hlocal.elim
  · obtain ⟨hanswer, hleft⟩ := alike_exec_logs hm hfor hs h.attributed h.logs
    exact ⟨hanswer, hattributed, h.ledger, hleft, h.sessions⟩
  · refine ⟨rfl, hattributed, h.ledger, h.logs, fun j hj => ?_⟩
    by_cases hji : j = i
    · subst hji
      simp only [execPage, Function.update_self]
    · simp only [execPage, Function.update_of_ne hji]
      exact h.sessions j hj

/-- **A call for another** does not show. -/
theorem Site.Alike.other {c : PageCall} (h : Site.Alike owner S m site site')
    (hs : site.Attributed owner) (hc : c.Allowed owner mark) (hmark : mark ≠ some m)
    (hlogin : ¬c.LogsIn m) (hi : ¬S i) : Site.Alike owner S m (execPage i c site).2 site' := by
  obtain ⟨hview, hlogs⟩ := (hc.exec hs (i := i)).2 m hmark
  refine ⟨h.attributed, hview.trans h.ledger, (hlogs hlogin).trans h.logs, fun j hj => ?_⟩
  rcases c with c | op | st
  · exact h.sessions j hj
  · exact h.sessions j hj
  · have hji : j ≠ i := fun h => hi (h ▸ hj)
    simp only [execPage, Function.update_of_ne hji]
    exact h.sessions j hj

/-! ### The process -/

/-- The sessions in `S` are those of `m`, and ask nothing of users and of the gateway; the others
do nothing for `m`, and do not log in as `m`. -/
def Live.Marked.Apart (S : ι → Prop) (m : String) (x : Live.Marked ι) : LiveAct ι → Prop
  | .begin i t => S i → t.merchant i x.1.store = some m
  | .step i => (S i → x.2 i = some m ∧ ∀ c ∈ x.1.pending i, c.Local) ∧
      (¬S i → x.2 i ≠ some m ∧ ∀ c ∈ x.1.pending i, ¬c.LogsIn m)

instance : DecidablePred PageCall.Local
  | .app (.ledger _) => inferInstanceAs (Decidable True)
  | .app (.users _) => inferInstanceAs (Decidable False)
  | .app (.request _) => inferInstanceAs (Decidable False)
  | .logs _ => inferInstanceAs (Decidable True)
  | .session _ => inferInstanceAs (Decidable True)

instance (m : String) : DecidablePred (PageCall.LogsIn m)
  | .logs (.insertOne l) => inferInstanceAs (Decidable (l.action = "LOGIN" ∧ l.merchantId = m))
  | .logs (.findOne _) => inferInstanceAs (Decidable False)
  | .logs (.find _) => inferInstanceAs (Decidable False)
  | .logs (.updateOne _ x) => x.elim
  | .logs (.deleteOne _) => inferInstanceAs (Decidable False)
  | .logs (.deleteMany _) => inferInstanceAs (Decidable False)
  | .app _ => inferInstanceAs (Decidable False)
  | .session _ => inferInstanceAs (Decidable False)

instance (S : ι → Prop) [DecidablePred S] (m : String) (x : Live.Marked ι) :
    DecidablePred (x.Apart S m)
  | .begin i t => inferInstanceAs (Decidable (S i → t.merchant i x.1.store = some m))
  | .step i => inferInstanceAs (Decidable
      ((S i → x.2 i = some m ∧ ∀ c ∈ x.1.pending i, c.Local) ∧
        (¬S i → x.2 i ≠ some m ∧ ∀ c ∈ x.1.pending i, ¬c.LogsIn m)))

/-- The process seen with the sessions in `S` is like the other. -/
abbrev Live.Alike (owner : ObjectId → String) (S : ι → Prop) (m : String) (x y : Live ι) : Prop :=
  Pool.Alike S (Site.Alike owner S m) x y

omit [DecidableEq ι] in
/-- What a run is begun with, in a session of the merchant. -/
theorem serve_congr {set : Setting} (h : Site.Alike owner S m site site') (hi : S i)
    (t : Trigger) : serve set i t site = serve set i t site' := by
  cases t with
  | page e => rw [serve, serve, h.sessions i hi]
  | monthlyReminders => rfl

/-- A call that a run is about to make is one it may make. -/
theorem Live.Marked.Guarded.allowed {x : Live.Marked ι} (hx : x.Guarded owner) {c : PageCall}
    (hc : c ∈ x.1.pending i) : c.Allowed owner (x.2 i) := by
  have hi := hx.threads i
  rw [Pool.pending] at hc
  cases hthread : x.1.threads i with
  | ret a =>
    rw [hthread] at hc
    exact absurd hc (Option.not_mem_none c)
  | raise e =>
    rw [hthread] at hc
    exact absurd hc (Option.not_mem_none c)
  | call c' k =>
    rw [hthread] at hc hi
    obtain rfl : c' = c := Option.some.inj hc
    exact hi.1

/-- **An act of a merchant's session**, with the other sessions and without. -/
theorem Live.Marked.Guarded.own {set : Setting} {x : Live.Marked ι} {y : Live ι} {a : LiveAct ι}
    (hx : x.Guarded owner) (ha : x.Apart S m a) (hS : S a.session)
    (hxy : Live.Alike owner S m x.1 y) :
    Live.Alike owner S m (Live.Marked.act set x a).1 (y.act execPage (serve set) a) := by
  refine Pool.Alike.act hxy hS ?_ ?_
  · rintro i t rfl
    exact serve_congr hxy.store hS t
  · rintro i rfl c hc
    obtain ⟨hmark, hlocal⟩ := ha.1 hS
    have hallowed := hx.allowed hc
    rw [hmark] at hallowed
    exact hxy.store.own hx.store hallowed (hlocal c hc)

/-- **An act of another session** leaves no trace. -/
theorem Live.Marked.Guarded.other {set : Setting} {x : Live.Marked ι} {y : Live ι} {a : LiveAct ι}
    (hx : x.Guarded owner) (ha : x.Apart S m a) (hS : ¬S a.session)
    (hxy : Live.Alike owner S m x.1 y) :
    Live.Alike owner S m (Live.Marked.act set x a).1 y := by
  refine Pool.Alike.other hxy hS ?_
  rintro i rfl c hc
  obtain ⟨hmark, hlogin⟩ := ha.2 hS
  exact hxy.store.other hx.store (hx.allowed hc) hmark (hlogin c hc) hS

/-- **Merchants do not notice each other.**  Whatever has happened before, let acts follow of
which those of the sessions in `S` are for the merchant `m`, and those of the others are not,
nor log in as `m`, however they are interleaved: had the others not happened, every run of the
sessions in `S` would be where it is, with the same answers and notices, and the customers, the
transactions and the log of `m` would be the same. -/
theorem tenants_unaware (set : Setting) (gateway : ℕ → Response) (acts acts' : List (LiveAct ι))
    (hids : ((acts ++ acts').flatMap issuedFor).Nodup) (S : ι → Prop) [DecidablePred S]
    (m : String) :
    let x := Trace.after (Live.Marked.act set) (Live.Marked.start gateway) acts
    let y := Live.after set x.1 acts'
    let y' := Live.after set x.1 (acts'.filter fun a => decide (S a.session))
    Trace.Along (Live.Marked.act set) (Live.Marked.Apart S m) x acts' →
      (∀ i, S i → y.threads i = y'.threads i ∧ y.store.sessions i = y'.store.sessions i) ∧
        y.store.world.ledger.view m = y'.store.world.ledger.view m ∧
          y.store.logs.find (⟨m⟩ : LogQuery) = y'.store.logs.find (⟨m⟩ : LogQuery) := by
  intro x y y' hapart
  obtain ⟨owner, hx, hgiven⟩ := exists_guarded set gateway hids
  have hstart : Live.Alike owner S m x.1 x.1 :=
    ⟨⟨hx.store, rfl, rfl, fun _ _ => rfl⟩, fun _ _ => rfl⟩
  let E (z w : Live.Marked ι) : Prop := z.Guarded owner ∧ Live.Alike owner S m z.1 w.1
  have hrun : E (Trace.after (Live.Marked.act set) x acts')
      (Trace.after (Live.Marked.act set) x (acts'.filter fun a => decide (S a.session))) := by
    refine Trace.Along.purge (fun z w a ha hS hzw => ?_) (fun z w a ha hS hzw => ?_)
      (hgiven.and hapart) ⟨hx, hstart⟩
    · exact ⟨(hzw.1.act ha.1 (m := m)).1, hzw.1.own ha.2 (of_decide_eq_true hS) hzw.2⟩
    · have hS : ¬S a.session := fun h => hS (decide_eq_true h)
      exact ⟨(hzw.1.act ha.1 (m := m)).1, hzw.1.other ha.2 hS hzw.2⟩
  obtain ⟨hstore, hthreads⟩ := hrun.2
  rw [fst_after set x acts', fst_after set x (acts'.filter _)] at hstore hthreads
  exact ⟨fun i hi => ⟨hthreads i hi, hstore.sessions i hi⟩, hstore.ledger, hstore.logs⟩

/-- The two runs take turns. -/
def sampleBusyActs : List (LiveAct Bool) :=
  sampleBegun ++ (List.replicate 10 [.step true, .step false]).flatten

theorem tenants_unaware_sample :
    let x := Trace.after (Live.Marked.act sampleSetting)
      (Live.Marked.start fun _ => .failure "timed out") sampleActs
    let y := Live.after sampleSetting x.1 sampleBusyActs
    let y' := Live.after sampleSetting x.1
      (sampleBusyActs.filter fun a => decide (a.session = false))
    (∀ i, i = false → y.threads i = y'.threads i ∧ y.store.sessions i = y'.store.sessions i) ∧
      y.store.world.ledger.view (ObjectId.ofNat 1).str =
          y'.store.world.ledger.view (ObjectId.ofNat 1).str ∧
        y.store.logs.find (⟨(ObjectId.ofNat 1).str⟩ : LogQuery) =
          y'.store.logs.find (⟨(ObjectId.ofNat 1).str⟩ : LogQuery) :=
  tenants_unaware sampleSetting (fun _ => .failure "timed out") sampleActs sampleBusyActs
    (by decide +kernel) (fun i => i = false) (ObjectId.ofNat 1).str (by decide +kernel)

end DigitalLedger
