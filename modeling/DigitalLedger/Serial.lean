import DigitalLedger.Privacy
import DigitalLedger.Lib.Turns

/-!
# Merchants who do one thing at a time

Totals go wrong where two runs for the same merchant overlap, or where one is dropped before its
end.  A merchant who waits for each run to end before the next is begun is spared that, whatever
the other merchants do meanwhile: its documents are those that its calls would have left, had
they been made one after the other and had no one else used the application.

## Main definitions

* `Store.MadeBy set m v` — the store is left by calls for `m` that the pages may make.
* `PageCall.Aside` — the calls that write no customers and no transactions.
* `Script.Alone` — what a run comes to, if no other writes the documents of its merchant.
* `Live.Marked.InTurn` — the runs for `m` do not overlap, and none is dropped.

## Main results

* `Db.Guards.alone` — an operation for the merchant does what it would do on its own.
* `makes_plan` — a page for the merchant makes a call of the application.
* `makes_serve` — a run for the merchant makes calls of the application.
* `tenants_serial` — so do all of them, in any interleaving with the runs for others.
-/

namespace DigitalLedger

open Collection Prog

variable {ι : Type} {owner : ObjectId → String} {m : String} {v : Store} {set : Setting}

/-! ### The documents of one merchant -/

/-- All documents are the merchant's. -/
structure Store.Of (m : String) (v : Store) : Prop where
  customers : ∀ c ∈ v.customers.docs, c.merchantId = m
  transactions : ∀ t ∈ v.transactions.docs, t.merchantId = m

theorem of_view (m : String) (s : Store) : (s.view m).Of m where
  customers _ hc := of_decide_eq_true (List.mem_filter.mp hc).2
  transactions _ ht := of_decide_eq_true (List.mem_filter.mp ht).2

theorem Store.Of.view_eq (hv : v.Of m) : v.view m = v := by
  have hcustomers : (v.customers.restrict fun c => decide (c.merchantId = m)) = v.customers :=
    ext' (List.filter_eq_self.mpr fun c hc => decide_eq_true (hv.customers c hc))
  have htransactions : (v.transactions.restrict fun t => decide (t.merchantId = m)) =
      v.transactions :=
    ext' (List.filter_eq_self.mpr fun t ht => decide_eq_true (hv.transactions t ht))
  rw [Store.view, hcustomers, htransactions]

/-- A call for the merchant adds no document of another. -/
theorem Store.Of.exec (hv : v.Of m) {c : DbCall} (hc : c.For owner m) :
    (DigitalLedger.exec c v).2.Of m := by
  cases c with
  | customers op =>
    exact ⟨Op.forall_docs_exec (fun _ _ hd => hd) (Op.KeepsTo.inserts hc fun c hc => hc.1)
      hv.customers, hv.transactions⟩
  | transactions op =>
    exact ⟨hv.customers, Op.forall_docs_exec (fun _ _ hd => hd)
      (Op.KeepsTo.inserts hc fun t ht => ht.1) hv.transactions⟩

theorem Store.Attributed.view {s : Store} (hs : s.Attributed owner) (m : String) :
    (s.view m).Attributed owner where
  customers c hc := hs.customers c (List.mem_of_mem_filter hc)
  transactions t ht := hs.transactions t (List.mem_of_mem_filter ht)

/-- A call for the merchant does to its documents what it does on its own. -/
theorem view_exec {c : DbCall} (hc : c.For owner m) {s : Store} (hs : s.Attributed owner) :
    (exec c s).1 = (exec c (s.view m)).1 ∧ (exec c s).2.view m = (exec c (s.view m)).2 := by
  have hof := of_view m s
  obtain ⟨hanswer, hleft⟩ := alike_exec hc hs (hs.view m) hof.view_eq.symm
  exact ⟨hanswer, hleft.trans (hof.exec hc).view_eq⟩

/-! ### Programs of a page -/

/-- The documents of the merchant, on a site. -/
def Site.viewOf (m : String) (site : Site ι) : Store := site.world.ledger.view m

/-- The program ends as `Q` has it, if no other writes the documents of the merchant. -/
abbrev Script.Alone [DecidableEq ι] {α : Type} (i : ι) (owner : ObjectId → String) (m : String)
    (Q : Except AppExn α → Store → Prop) (p : Script α) (v : Store) : Prop :=
  Prog.Alone (execPage i) (Site.Attributed owner) (Site.viewOf m) Q p v

/-- The call writes no customers and no transactions. -/
def PageCall.Aside : PageCall → Prop
  | .logs _ => True
  | c => c.Quiet

theorem PageCall.Quiet.aside {c : PageCall} (hc : c.Quiet) : c.Aside := by
  rcases c with c | op | st
  · exact hc
  · trivial
  · exact hc

theorem aside_plain {α : Type} {p : Script α} (hp : Uses PageCall.Plain p) :
    Uses PageCall.Aside p := (quiet_plain hp).mono fun _ hc => hc.aside

section Pages

variable [DecidableEq ι] {i : ι} {α β : Type}

/-- **An operation for the merchant** does what it would do on its own. -/
theorem Db.Guards.alone {Q : α → Prop} {p : Db α} (hp : Db.Guards owner m Q p) :
    Script.Alone i owner m (fun r v' => r = (run exec p v).1.mapError AppExn.database ∧
      v' = (run exec p v).2 ∧ ∀ a, r = .ok a → Q a) (Script.ofDb p) v := by
  induction p generalizing v with
  | ret a => exact ⟨rfl, rfl, fun a' ha => Except.ok.inj ha ▸ hp⟩
  | raise e => exact ⟨rfl, rfl, fun a ha => by cases ha⟩
  | call c k ih =>
    obtain ⟨hc, hk⟩ := hp
    rw [Script.ofDb, App.ofDb, Script.ofApp]
    rintro site hsite rfl
    have hanswer : (exec c site.world.ledger).1 = (exec c (site.viewOf m)).1 :=
      (view_exec hc hsite.ledger).1
    have hview : Site.viewOf m (execPage i (.app (.ledger c)) site).2 =
        (exec c (site.viewOf m)).2 := (view_exec hc hsite.ledger).2
    have hreply : (execPage i (.app (.ledger c)) site).1 =
        (exec c (site.viewOf m)).1.mapError AppExn.database :=
      congrArg (Except.mapError AppExn.database) hanswer
    have hnext := ih _ (v := (exec c (site.viewOf m)).2)
      (hanswer ▸ hk site.world.ledger hsite.ledger)
    rw [hview, hreply, run_call]
    cases hr : (exec c (site.viewOf m)).1 with
    | ok a =>
      rw [hr] at hnext
      exact hnext
    | error e =>
      rw [hr] at hnext
      exact hnext

variable {Q : Except AppExn α → Store → Prop} {Q' : Except AppExn β → Store → Prop}

/-- What a program makes of other things than the ledger, it makes of any answers. -/
theorem alone_aside {p : Script α} (hp : Uses PageCall.Aside p) (hQ : ∀ r, Q r v) :
    Script.Alone i owner m Q p v := by
  refine Prog.Alone.of_uses (fun c site _ hc => ?_) hp hQ
  rcases c with c | op | st
  · exact congrArg (Store.view m) (Prod.mk.inj (books_execPage (i := i) hc site)).1
  · rfl
  · rfl

theorem alone_read {p : Script α} {f : α → Script β} (hp : Uses PageCall.Aside p)
    (hok : ∀ a, Script.Alone i owner m Q' (f a) v) (herror : ∀ e, Q' (.error e) v) :
    Script.Alone i owner m Q' (p >>= f) v :=
  (alone_aside (Q := fun _ v' => v' = v) hp fun _ => rfl).bind
    (fun a _ hv => hv ▸ hok a) (fun e _ hv => hv ▸ herror e)

/-! ### The pages -/

/-- A call for the merchant that a page may make. -/
structure Call.Proper (set : Setting) (m : String) (call : Call) : Prop where
  merchant : call.merchantId = m
  canonical : call.Canonical
  checked : call.Checked set

/-- The store is one that calls for the merchant leave, made one after the other. -/
def Store.MadeBy (set : Setting) (m : String) (v : Store) : Prop :=
  ∃ calls, (∀ call ∈ calls, call.Proper set m) ∧ v = execAll set.bcrypt calls .empty

theorem Store.MadeBy.execAll (hv : v.MadeBy set m) {calls : List Call}
    (hcalls : ∀ call ∈ calls, call.Proper set m) : (execAll set.bcrypt calls v).MadeBy set m := by
  obtain ⟨before, hbefore, rfl⟩ := hv
  refine ⟨before ++ calls, List.forall_mem_append.mpr ⟨hbefore, hcalls⟩, ?_⟩
  rw [DigitalLedger.execAll, DigitalLedger.execAll, DigitalLedger.execAll, List.foldl_append]

/-- The run leaves a store that calls for the merchant leave. -/
abbrev Script.Makes (i : ι) (owner : ObjectId → String) (m : String) (set : Setting)
    (p : Script α) (v : Store) : Prop :=
  Script.Alone i owner m (fun _ => Store.MadeBy set m) p v

/-- A run that writes nothing of the merchant's. -/
theorem makes_aside (hv : v.MadeBy set m) {p : Script α} (hp : Uses PageCall.Aside p) :
    Script.Makes i owner m set p v := alone_aside hp fun _ => hv

/-- Its end, where something may be logged. -/
theorem makes_logAction (hv : v.MadeBy set m) {logEnv : Env} {action details : String}
    {f : Unit → Script α} (hf : Uses PageCall.Quiet (f ())) :
    Script.Makes i owner m set (logAction logEnv m action details >>= f) v :=
  makes_aside hv (Uses.bind (Uses.perform trivial) fun _ => hf.mono fun _ hc => hc.aside)

/-- **The rule for a call on the ledger.** -/
theorem makes_call (call : Call) {p : Db α} {wrap : α → Outcome} {f : α → Script β}
    (hcode : call.code set.bcrypt = wrap <$> p) (hp : Db.Guards owner m (fun _ => True) p)
    (hcall : call.Proper set m) (hv : v.MadeBy set m)
    (hf : ∀ a v', v'.MadeBy set m → Script.Makes i owner m set (f a) v') :
    Script.Makes i owner m set (Script.ofDb p >>= f) v := by
  have hmade : (run exec p v).2.MadeBy set m := by
    have hexec : (run exec p v).2 = execAll set.bcrypt [call] v := by
      rw [execAll, List.foldl_cons, List.foldl_nil, Call.exec, hcode, run_map]
    rw [hexec]
    exact hv.execAll fun c hc => List.mem_singleton.mp hc ▸ hcall
  refine hp.alone.bind (fun a v' hrun => ?_) (fun e v' hrun => ?_)
  · exact hf a v' (hrun.2.1 ▸ hmade)
  · exact hrun.2.1 ▸ hmade

/-- **The rule for the list of customers.** -/
theorem makes_listed {f : List (CustomerDoc String) → Script α} (hv : v.MadeBy set m)
    (hf : ∀ customers, (Terms.owned owner m).Lists customers →
      Script.Makes i owner m set (f customers) v) :
    Script.Makes i owner m set (Script.ofDb (getCustomers m) >>= f) v := by
  refine (guards_getCustomers owner m).alone.bind (fun customers v' hrun => ?_)
    (fun e v' hrun => ?_)
  · obtain ⟨hanswer, hleft, howner⟩ := hrun
    rw [run_getCustomers] at hanswer hleft
    obtain rfl : customers = v.listed m := Except.ok.inj hanswer
    exact hleft ▸ hf _ (howner _ rfl)
  · rw [run_getCustomers] at hrun
    exact hrun.2.1 ▸ hv

variable {st : SessionState}

theorem makes_showSidebar (hv : v.MadeBy set st.userId) (e : SidebarEvent) :
    Script.Makes i owner st.userId set (showSidebar st e) v := by
  cases e with
  | logout logEnv => exact makes_logAction hv (Uses.bind (Uses.perform trivial) fun _ => .ret _)

/-- **A page for the merchant** makes a call of the application, or scores its customers. -/
theorem makes_plan {t : Trigger} {p : Script (List Notice)}
    (hp : Plan set t m (.owned owner m) p) (hids : ∀ oid ∈ t.issued, owner oid = m)
    (hv : v.MadeBy set m) : Script.Makes i owner m set p v := by
  have hcanonical : ∀ cid, (Terms.owned owner m).Known cid → ObjectId.Canonical cid := by
    rintro cid ⟨oid, hid, -⟩
    exact ⟨oid, hid⟩
  induction hp with
  | ret notices => exact hv
  | listed hf ih => exact makes_listed hv fun customers hlists => ih customers hlists
  | @chosen customers name f hlists hname hf ih =>
    rcases custItem_cases customers name with heq | ⟨cust, hcust, heq⟩
    · rw [heq]
      exact hv
    · rw [heq]
      exact ih cust hcust
  | history hlists hentry hf ih =>
    exact alone_read (aside_plain (plain_showHistory _ _ _))
      (fun txns => ih txns fun _ _ => trivial) fun _ => hv
  | call call hcode hm hplanned hissued hf =>
    have hguards := guards_call set.bcrypt hm (hissued ▸ hids) hplanned
    rw [hcode] at hguards
    refine makes_call call hcode hguards.of_map
      ⟨hm, hplanned.canonical hcanonical, hplanned.checked⟩ hv fun a v' hv' => ?_
    exact makes_aside hv' ((hf a).uses (fun _ _ => trivial) fun _ _ _ => trivial)
  | @recalculate env customers notices hlists =>
    have hids : ∀ c ∈ customers, ObjectId.Canonical c.id :=
      fun c hc => hcanonical c.id (hlists c hc)
    have hmade : (run exec (recalculate env 0 customers) v).2.MadeBy set m := by
      rw [run_recalculate set.bcrypt env m 0 hids]
      refine hv.execAll fun call hcall => ?_
      obtain ⟨env', c, hc, rfl⟩ := mem_scoringCalls hcall
      exact ⟨rfl, hids c hc, trivial⟩
    have hguards : Db.Guards owner m (fun _ => True) (recalculate env 0 customers) :=
      Prog.Guards.of_uses (uses_own_recalculate env 0 hlists) fun _ => trivial
    refine hguards.alone.bind (fun _ v' hrun => ?_) (fun e v' hrun => ?_)
    · exact hrun.2.1 ▸ hmade
    · exact hrun.2.1 ▸ hmade
  | defaulters hf ih => exact alone_read (aside_plain plain_getDefaulters) ih fun _ => hv
  | reminders hsends hf ih =>
    exact alone_read (aside_plain (plain_runMonthlyReminders _ _ _)) ih fun _ => hv
  | note hlog hf => exact makes_logAction hv hf.quiet
  | logs hf ih =>
    have hread : Uses PageCall.Aside (getLogs set.order m defaultLimit) :=
      Uses.bind (Uses.perform trivial) fun logs => .ret _
    exact alone_read hread ih fun _ => hv
  | clear hlog =>
    refine makes_aside hv (Uses.bind (Uses.bind (Uses.perform trivial) fun _ => .ret _) fun _ => ?_)
    exact Uses.bind (Uses.perform trivial) fun _ => .ret _

/-- **A run for the merchant makes calls of the application**, if no other run writes its
documents. -/
theorem makes_serve (i : ι) (t : Trigger) (site : Site ι) (hm : t.merchant i site = some m)
    (hv : v.MadeBy set m) (hids : ∀ oid ∈ t.issued, owner oid = m) :
    Script.Makes i owner m set (serve set i t site) v := by
  cases t with
  | monthlyReminders => exact absurd hm (by simp [Trigger.merchant])
  | page e =>
    have hin : (site.sessions i).loggedIn = true := by
      by_contra hout
      exact absurd ((if_neg hout).symm.trans hm) (by simp)
    obtain rfl : (site.sessions i).userId = m := Option.some.inj ((if_pos hin).symm.trans hm)
    rw [serve]
    unfold main
    split
    · cases e with
      | portal e =>
        cases e with
        | logout => exact makes_aside hv (Uses.bind (Uses.perform trivial) fun _ => .ret _)
      | auth e => exact hv
      | sidebar e => exact hv
      | customers e => exact hv
      | transactions e => exact hv
      | reminders e => exact hv
      | activity e => exact hv
    split
    next hout => exact absurd hin (by simp [hout])
    · cases e with
      | sidebar e => exact makes_showSidebar hv e
      | customers e => exact makes_plan (plan_showCustomers e) hids hv
      | transactions e =>
        exact makes_plan (plan_showTransactions (fun _ => trivial) fun _ _ _ =>
          e.offered_of (fun _ _ => trivial) _) hids hv
      | reminders e => exact makes_plan (plan_showReminders trivial e) hids hv
      | activity e => exact makes_plan (plan_showActivityLog e) hids hv
      | auth e => exact hv
      | portal e => exact hv

end Pages

/-! ### The process -/

section Process

variable [DecidableEq ι]

/-- The runs for `m` do not overlap, and none is dropped. -/
abbrev Live.Marked.InTurn (m : String) (x : Live.Marked ι) (a : LiveAct ι) : Prop :=
  Pool.InTurn Trigger.merchant (some m) x a

/-- Whenever no run for the merchant is in progress, its documents are what its calls leave. -/
abbrev Live.Marked.Serial (owner : ObjectId → String) (set : Setting) (m : String)
    (x : Live.Marked ι) : Prop :=
  Pool.Settled execPage (Site.Attributed owner) (Site.viewOf m) (Store.MadeBy set m) (some m) x

theorem serial_start (owner : ObjectId → String) (set : Setting) (m : String)
    (gateway : ℕ → Response) :
    (Live.Marked.start gateway : Live.Marked ι).Serial owner set m where
  rest _ := ⟨[], fun _ h => absurd h List.not_mem_nil, rfl⟩
  threads _ hi := absurd hi (by simp [Live.Marked.start])
  single _ _ hi := absurd hi (by simp [Live.Marked.start])

/-- **One act.** -/
theorem Live.Marked.Serial.act {x : Live.Marked ι} (hguarded : x.Guarded owner)
    (hx : x.Serial owner set m) {a : LiveAct ι} (hgiven : x.Given owner a) (hturn : x.InTurn m a) :
    (Live.Marked.act set x a).Serial owner set m := by
  refine Pool.Settled.act hguarded.store hx hturn ?_ ?_
  · rintro i t rfl hm hv
    refine makes_serve i t x.1.store hm hv fun oid hoid => ?_
    refine (hgiven oid (List.mem_append_left _ hoid)).trans ?_
    rw [Live.Marked.ownerOf, hm]
    rfl
  · rintro i rfl hne c hc
    exact ((hguarded.allowed hc).exec hguarded.store).2 m hne |>.1

/-- **One thing at a time.**  Whatever the sessions do, and however their runs are interleaved
and dropped: if those for the merchant `m` do not overlap and none of them is dropped, then
whenever none is in progress its documents are those that its own calls leave, made one after
the other, with what the forms have checked; so its running figures are exact. -/
theorem tenants_serial (set : Setting) (gateway : ℕ → Response) (acts : List (LiveAct ι))
    (hids : (acts.flatMap issuedFor).Nodup) (m : String)
    (hturn : Trace.Along (Live.Marked.act set) (Live.Marked.InTurn m) (Live.Marked.start gateway)
      acts) :
    let x := Trace.after (Live.Marked.act set) (Live.Marked.start gateway) acts
    Pool.Resting (some m) x →
      (∃ calls, (∀ call ∈ calls, call.merchantId = m ∧ call.Canonical ∧ call.Checked set) ∧
        x.1.store.world.ledger.view m = execAll set.bcrypt calls .empty) ∧
        Consistent (x.1.store.world.ledger.view m) := by
  intro x hrest
  have hids : (([] ++ acts).flatMap issuedFor).Nodup := hids
  obtain ⟨owner, hstart, hgiven⟩ := exists_guarded set gateway hids
  have hrun := (hgiven.and hturn).preserves
    (I := fun y : Live.Marked ι => y.Guarded owner ∧ y.Serial owner set m)
    (fun y a ha hy => ⟨(hy.1.act ha.1 (m := m)).1, hy.2.act hy.1 ha.1.1 ha.2⟩)
    ⟨hstart, serial_start owner set m gateway⟩
  obtain ⟨calls, hcalls, hview⟩ := hrun.2.rest hrest
  have hview : x.1.store.world.ledger.view m = execAll set.bcrypt calls .empty := hview
  refine ⟨⟨calls, fun call hcall => ?_, hview⟩, ?_⟩
  · obtain ⟨hmerchant, hcanonical, hchecked⟩ := hcalls call hcall
    exact ⟨hmerchant, hcanonical, hchecked⟩
  · rw [hview]
    exact (Reachable.empty.execAll fun call hcall => (hcalls call hcall).canonical).consistent

end Process

/-- The second merchant adds a customer while the first sells something, whose runs are done one
after the other. -/
theorem tenants_serial_sample :
    let x := Trace.after (Live.Marked.act sampleSetting)
      (Live.Marked.start fun _ => .failure "timed out") (sampleActs ++ sampleBusyActs)
    let m := (ObjectId.ofNat 1).str
    (∃ calls, (∀ call ∈ calls, call.merchantId = m ∧ call.Canonical ∧
        call.Checked sampleSetting) ∧
      x.1.store.world.ledger.view m = execAll sampleSetting.bcrypt calls .empty) ∧
      Consistent (x.1.store.world.ledger.view m) :=
  tenants_serial sampleSetting (fun _ => .failure "timed out") (sampleActs ++ sampleBusyActs)
    (by decide +kernel) (ObjectId.ofNat 1).str (by decide +kernel) (by decide +kernel)

end DigitalLedger
