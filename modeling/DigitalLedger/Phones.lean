import DigitalLedger.Lib.Index
import DigitalLedger.Sessions

/-!
# One customer per phone number

`add_customer` looks for a customer of the merchant with the same phone number and
inserts the new one if there is none.  The two steps are separate calls on the
database, and the index that `create_indexes` declares on the two fields is not a
unique one.  Registrations from several sessions leave one customer per phone number
exactly as long as no two of them are past the look-up with the same number at once.

## Main definitions

* `customerIndexes` — the index declared on `customers`.
* `CustomerDoc.phoneKey`, `Store.OnePerPhone` — a merchant has one customer per number.
* `Enrols`, `Enrolment` — where a registering session stands, and what it does next.
* `inserting`, `NoRace` — the customer a session is about to insert; no two sessions are
  about to insert one number.

## Main results

* `insertIndexed_customerIndexes` — the declared index refuses nothing.
* `Enrols.system_step` — registrations go from look-up to insertion and back.
* `one_customer_per_phone_iff` — when interleaved registrations keep numbers apart.
-/

namespace DigitalLedger

open Collection Prog

variable {bcrypt : Bcrypt} {s s' : Store} {α β : Type}

/-! ### The declared index -/

/-- The merchant and phone number of a customer. -/
def CustomerDoc.phoneKey {ι : Type} (c : CustomerDoc ι) : String × String :=
  (c.merchantId, c.phone)

/-- No merchant has two customers with one phone number. -/
def Store.OnePerPhone (s : Store) : Prop := (s.customers.docs.map CustomerDoc.phoneKey).Nodup

instance (s : Store) : Decidable s.OnePerPhone :=
  inferInstanceAs (Decidable (s.customers.docs.map CustomerDoc.phoneKey).Nodup)

/-- The index `create_indexes` declares on `customers`. -/
def customerIndexes : List (Index Customer) := [⟨fun c => [c.merchantId, c.phone], false⟩]

/-- **The declared index refuses nothing**: inserting a customer fails only where its
identifier is taken. -/
theorem insertIndexed_customerIndexes (c : Customer) (C : Collection Customer) :
    C.insertIndexed customerIndexes c = C.insertOne c := by
  refine insertIndexed_of_not_unique (fun ix hix => ?_) c C
  rw [customerIndexes, List.mem_singleton] at hix
  rw [hix]

/-! ### Registering sessions -/

/-- The customer the next call of a program inserts. -/
def inserting : Db α → Option Customer
  | .call (.customers (.insertOne c)) _ => some c
  | _ => none

/-- Where a registering program stands: it has ended or is about to look a number up, or,
at `some c`, it is about to insert `c`.  The identifiers of the customers it may yet
insert are among `ids`, in their order. -/
inductive Enrols : List ObjectId → Option Customer → Db α → Prop
  | ret {ids : List ObjectId} (a : α) : Enrols ids none (.ret a)
  | raise {ids : List ObjectId} (e : Exn) : Enrols ids none (.raise e)
  | checking {ids : List ObjectId} (new : Customer)
      {k : Except Exn (Option Customer) → Db α} (herror : ∀ e, Enrols ids none (k (.error e)))
      (hfound : ∀ c, Enrols ids none (k (.ok (some c))))
      (hnone : Enrols ids (some new) (k (.ok none))) :
      Enrols ids none (.call (.customers (.findOne
        { merchantId := some new.merchantId, phone := some new.phone })) k)
  | inserting {ids rest : List ObjectId} {new : Customer} {k : Except Exn Unit → Db α}
      (hids : (new.id :: rest).Sublist ids) (hk : ∀ r, Enrols rest none (k r)) :
      Enrols ids (some new) (.call (.customers (.insertOne new)) k)

namespace Enrols

variable {ids ids' : List ObjectId} {st : Option Customer} {p : Db α}

theorem inserting_eq (h : Enrols ids st p) : DigitalLedger.inserting p = st := by
  cases h with
  | ret a => rfl
  | raise e => rfl
  | checking new herror hfound hnone => rfl
  | inserting hids hk => rfl

theorem mono (h : Enrols ids st p) (hsub : ids.Sublist ids') : Enrols ids' st p := by
  induction h generalizing ids' with
  | ret a => exact .ret a
  | raise e => exact .raise e
  | checking new herror hfound hnone ihe ihf ihn =>
    exact .checking new (fun e => ihe e hsub) (fun c => ihf c hsub) (ihn hsub)
  | inserting hids hk ih => exact .inserting (hids.trans hsub) hk

theorem bind {f : α → Db β} (h : Enrols ids st p) (hf : ∀ a, Enrols ids' none (f a)) :
    Enrols (ids ++ ids') st (p >>= f) := by
  induction h with
  | ret a => exact (hf a).mono (List.sublist_append_right _ _)
  | raise e => exact .raise e
  | checking new herror hfound hnone ihe ihf ihn => exact .checking new ihe ihf ihn
  | inserting hids hk ih => exact .inserting (hids.append_right ids') ih

theorem map (f : α → β) (h : Enrols ids st p) : Enrols ids st (f <$> p) := by
  induction h with
  | ret a => exact .ret _
  | raise e => exact .raise e
  | checking new herror hfound hnone ihe ihf ihn => exact .checking new ihe ihf ihn
  | inserting hids hk ih => exact .inserting hids ih

theorem catchWith {f : Exn → Db α} (h : Enrols ids st p) (hf : ∀ e, Enrols [] none (f e)) :
    Enrols ids st (Prog.catchWith p f) := by
  induction h with
  | ret a => exact .ret a
  | raise e => exact (hf e).mono (List.nil_sublist _)
  | checking new herror hfound hnone ihe ihf ihn => exact .checking new ihe ihf ihn
  | inserting hids hk ih => exact .inserting hids ih

end Enrols

/-- A program that makes no call registers no one. -/
theorem enrols_of_uses {p : Db α} (h : Uses (fun _ => False) p) : Enrols [] none p := by
  cases h with
  | ret a => exact .ret a
  | raise e => exact .raise e
  | call hc hk => exact hc.elim

theorem enrols_addCustomer (bcrypt : Bcrypt) (env : Env) (m name phone address pin : String) :
    Enrols [env.objectId 0] none (addCustomer bcrypt env m name phone address pin) := by
  refine .checking (newCustomer bcrypt env m name phone address pin) (fun e => .raise e)
    (fun c => .ret _) (.inserting (List.Sublist.refl _) fun r => ?_)
  -- nothing follows the insertion, whatever it answers
  cases r with
  | ok a => exact .ret _
  | error e => exact .raise e

theorem enrols_importRow (bcrypt : Bcrypt) (env : Env) (m : String) (df : DataFrame)
    (columns : List String) (idx : ℕ) (row : Row) (results : ImportResults) :
    Enrols [env.objectId idx] none (importRow bcrypt env m df columns idx row results) := by
  rcases importRow_cases bcrypt env m df columns idx row results with
    ⟨results', heq⟩ | ⟨name, phone, address, count, heq, hcount⟩
  · rw [heq]
    exact .ret _
  · rw [heq]
    refine (enrols_addCustomer bcrypt (env.row idx) m name phone address "").bind fun reply => ?_
    obtain ⟨results', hresults⟩ := hcount reply
    rw [hresults]
    exact .ret _

theorem enrols_importRows (bcrypt : Bcrypt) (env : Env) (m : String) (df : DataFrame)
    (columns : List String) (rows : List Row) (idx : ℕ) (results : ImportResults) :
    Enrols ((List.range' idx rows.length).map env.objectId) none
      (importRows bcrypt env m df columns idx rows results) := by
  induction rows generalizing idx results with
  | nil => exact .ret _
  | cons row rows ih =>
    exact (enrols_importRow bcrypt env m df columns idx row results).bind fun results' =>
      ih (idx + 1) results'

/-- The calls that register customers. -/
def Call.RegistersCustomers : Call → Prop
  | .addCustomer _ _ _ _ _ _ => True
  | .importCustomersFromExcel _ _ _ => True
  | _ => False

/-- The identifiers a call may give to new customers: one to `add_customer`, one to each
row of an import. -/
def Call.newIds : Call → List ObjectId
  | .addCustomer env _ _ _ _ _ => [env.objectId 0]
  | .importCustomersFromExcel env _ (.ok df) =>
    (List.range' 0 df.rows.length).map env.objectId
  | _ => []

theorem enrols_code (bcrypt : Bcrypt) {call : Call} (hcall : call.RegistersCustomers) :
    Enrols call.newIds none (call.code bcrypt) := by
  cases call with
  | addCustomer env m name phone address pin =>
    exact (enrols_addCustomer bcrypt env m name phone address pin).map _
  | importCustomersFromExcel env m file =>
    refine Enrols.map _ ?_
    cases file with
    | error message => exact .ret _
    | ok df =>
      -- the handler of the `try` makes no call
      refine Enrols.catchWith ?_ fun e => .ret _
      have hheaders : Enrols [] none (normaliseHeaders df.columns) :=
        enrols_of_uses (uses_normaliseHeaders df.columns)
      refine hheaders.bind fun columns => ?_
      dsimp only
      split
      · exact .ret _
      · have hrows := enrols_importRows bcrypt env m df columns df.iterrows 0 ⟨0, 0, []⟩
        have hreply : ∀ results : ImportResults,
            Enrols [] none (.ret (.success results) : Db (Reply ImportResults)) := fun _ => .ret _
        have hall := hrows.bind hreply
        rw [List.append_nil, df.length_iterrows] at hall
        exact hall
  | addTransaction env m cid txnType amount note => exact hcall.elim
  | editTransaction env tid m amount note => exact hcall.elim
  | deleteTransaction env tid m => exact hcall.elim
  | deleteCustomer cid m => exact hcall.elim
  | updateCustomerPin env cid m pin => exact hcall.elim
  | computeCreditScore env m cid => exact hcall.elim

/-! ### Steps of a registering session -/

/-- A step of a registering session. -/
inductive Enrolment (s : Store) :
    List ObjectId → Option Customer → Store → List ObjectId → Option Customer → Prop
  /-- It looks a number up, and is about to insert a customer if no one has it. -/
  | look {ids : List ObjectId} {st' : Option Customer}
      (hfree : ∀ new ∈ st', ∀ c ∈ s.customers.docs, c.phoneKey ≠ new.phoneKey) :
      Enrolment s ids none s ids st'
  /-- The identifier of the new customer is taken. -/
  | refuse {ids rest : List ObjectId} {new : Customer} (hids : (new.id :: rest).Sublist ids)
      (htaken : new.id ∈ s.customerIds) : Enrolment s ids (some new) s rest none
  /-- The new customer is inserted. -/
  | insert {s' : Store} {ids rest : List ObjectId} {new : Customer}
      (hids : (new.id :: rest).Sublist ids) (hnew : new.id ∉ s.customerIds)
      (hdocs : s'.customers.docs = s.customers.docs ++ [new]) :
      Enrolment s ids (some new) s' rest none

namespace Enrolment

variable {ids ids' : List ObjectId} {st st' : Option Customer}

/-- A number looked up is free. -/
theorem looked (h : Enrolment s ids st s' ids' st') :
    ∀ new ∈ st', ∀ c ∈ s'.customers.docs, c.phoneKey ≠ new.phoneKey := by
  cases h with
  | look hfree => exact hfree
  | refuse hids htaken => simp
  | insert hids hnew hdocs => simp

/-- What is free stays so under a step of a session that is not about to take it. -/
theorem free (h : Enrolment s ids st s' ids' st') {key : String × String}
    (hst : ∀ new ∈ st, new.phoneKey ≠ key) (hfree : ∀ c ∈ s.customers.docs, c.phoneKey ≠ key) :
    ∀ c ∈ s'.customers.docs, c.phoneKey ≠ key := by
  cases h with
  | look hlook => exact hfree
  | refuse hids htaken => exact hfree
  | @insert _ _ _ new hids hnew hdocs =>
    intro c hc
    rw [hdocs, List.mem_append, List.mem_singleton] at hc
    rcases hc with hold | rfl
    · exact hfree c hold
    · exact hst c rfl

/-- A customer inserted under a free number keeps the numbers apart. -/
theorem onePerPhone (h : Enrolment s ids st s' ids' st') (hs : s.OnePerPhone)
    (hfree : ∀ new ∈ st, ∀ c ∈ s.customers.docs, c.phoneKey ≠ new.phoneKey) :
    s'.OnePerPhone := by
  cases h with
  | look hlook => exact hs
  | refuse hids htaken => exact hs
  | @insert _ _ _ new hids hnew hdocs =>
    have hnotin : new.phoneKey ∉ s.customers.docs.map CustomerDoc.phoneKey := by
      intro hmem
      obtain ⟨c, hc, hkey⟩ := List.mem_map.mp hmem
      exact hfree new rfl c hc hkey
    rw [Store.OnePerPhone, hdocs, List.map_append, List.map_singleton]
    exact List.Nodup.append hs (List.nodup_singleton _) (List.disjoint_singleton.mpr hnotin)

theorem sublist (h : Enrolment s ids st s' ids' st') : ids'.Sublist ids := by
  cases h with
  | look hlook => exact List.Sublist.refl _
  | refuse hids htaken => exact (List.sublist_cons_self _ _).trans hids
  | insert hids hnew hdocs => exact (List.sublist_cons_self _ _).trans hids

theorem keeps (h : Enrolment s ids st s' ids' st') {c : Customer} (hc : c ∈ s.customers.docs) :
    c ∈ s'.customers.docs := by
  cases h with
  | look hlook => exact hc
  | refuse hids htaken => exact hc
  | insert hids hnew hdocs =>
    rw [hdocs]
    exact List.mem_append_left _ hc

/-- A customer under an identifier that is not taken is inserted. -/
theorem inserts {new : Customer} (h : Enrolment s ids (some new) s' ids' st') :
    new.id ∈ ids ∧ (new.id ∉ s.customerIds → new ∈ s'.customers.docs) := by
  cases h with
  | refuse hids htaken =>
    exact ⟨hids.subset List.mem_cons_self, fun hnew => absurd htaken hnew⟩
  | insert hids hnew hdocs =>
    refine ⟨hids.subset List.mem_cons_self, fun _ => ?_⟩
    rw [hdocs]
    exact List.mem_append_right _ List.mem_cons_self

/-- An identifier that is in use afterwards was in use before, or has been used up. -/
theorem mem_customerIds (h : Enrolment s ids st s' ids' st') {a : ObjectId}
    (ha : a ∈ s'.customerIds) : a ∈ s.customerIds ∨ (a :: ids').Sublist ids := by
  cases h with
  | look hlook => exact .inl ha
  | refuse hids htaken => exact .inl ha
  | insert hids hnew hdocs =>
    rw [Store.customerIds, hdocs, List.map_append, List.mem_append, List.map_singleton,
      List.mem_singleton] at ha
    rcases ha with hold | rfl
    · exact .inl hold
    · exact .inr hids

end Enrolment

section Systems

variable {ι : Type} [DecidableEq ι] {x : Sessions ι α} {i : ι} {ids : List ObjectId}
  {st : Option Customer}

/-- **Registrations go from look-up to insertion and back.** -/
theorem Enrols.system_step (h : Enrols ids st (x.sessions i).rest) :
    ∃ ids' st', Enrolment x.store ids st (x.step exec i).store ids' st' ∧
      Enrols ids' st' ((x.step exec i).sessions i).rest := by
  cases hrest : (x.sessions i).rest with
  -- a session that has ended stands still
  | ret a =>
    rw [hrest] at h
    obtain rfl : st = none := by rw [← h.inserting_eq]; rfl
    rw [System.step_of_outcome (Session.outcome_ret hrest), hrest]
    exact ⟨ids, none, .look (by simp), h⟩
  | raise e =>
    rw [hrest] at h
    obtain rfl : st = none := by rw [← h.inserting_eq]; rfl
    rw [System.step_of_outcome (Session.outcome_raise hrest), hrest]
    exact ⟨ids, none, .look (by simp), h⟩
  | call c k =>
    rw [hrest] at h
    rw [System.store_step_call hrest, System.sessions_step_self hrest]
    cases h with
    | checking new herror hfound hnone =>
      rw [exec_customers_findOne]
      dsimp only
      cases hfind : x.store.customers.findOne
          { merchantId := some new.merchantId, phone := some new.phone } with
      | some c => exact ⟨ids, none, .look (by simp), hfound c⟩
      | none =>
        refine ⟨ids, some new, .look fun new' hnew' c hc hkey => ?_, hnone⟩
        obtain rfl := Option.mem_some.mp hnew'
        have htest := findOne_eq_none.mp hfind c hc
        rw [Bool.eq_false_iff, Ne, test_customer_merchant_phone] at htest
        exact htest (Prod.mk.inj hkey)
    | @inserting _ rest new k hids hk =>
      rw [exec, Op.exec]
      cases hC : x.store.customers.insertOne new with
      | none =>
        obtain ⟨c, hc, hid⟩ := insertOne_eq_none.mp hC
        have htaken : new.id ∈ x.store.customerIds := List.mem_map.mpr ⟨c, hc, hid⟩
        exact ⟨rest, none, .refuse hids htaken, hk _⟩
      | some C =>
        refine ⟨rest, none, .insert hids (fun hmem => ?_) (docs_insertOne hC), hk _⟩
        obtain ⟨c, hc, hid⟩ := List.mem_map.mp hmem
        exact key_ne_of_insertOne hC c hc hid

/-! ### Without a race -/

/-- No two sessions are about to insert customers of one merchant with one number. -/
def NoRace (x : Sessions ι α) : Prop :=
  ∀ i j, i ≠ j → ∀ c c', inserting (x.sessions i).rest = some c →
    inserting (x.sessions j).rest = some c' → c.phoneKey ≠ c'.phoneKey

/-- The numbers are apart, also from those the sessions are about to insert. -/
structure Apart (x : Sessions ι α) : Prop where
  stored : x.store.OnePerPhone
  free : ∀ i, ∃ ids st, Enrols ids st (x.sessions i).rest ∧
    ∀ new ∈ st, ∀ c ∈ x.store.customers.docs, c.phoneKey ≠ new.phoneKey

/-- **Without a race the numbers stay apart.** -/
theorem Apart.step (hno : NoRace x) (h : Apart x) (i : ι) : Apart (x.step exec i) := by
  obtain ⟨ids, st, hi, hfree⟩ := h.free i
  obtain ⟨ids', st', hstep, hi'⟩ := hi.system_step
  refine ⟨hstep.onePerPhone h.stored hfree, fun j => ?_⟩
  by_cases hij : j = i
  · subst hij
    exact ⟨ids', st', hi', hstep.looked⟩
  · obtain ⟨idsj, stj, hj, hfreej⟩ := h.free j
    refine ⟨idsj, stj, ?_, fun new hnew => ?_⟩
    · rw [System.sessions_step_of_ne hij]
      exact hj
    · refine hstep.free (fun new' hnew' => ?_) (hfreej new hnew)
      have hrace := hno i j (Ne.symm hij) new' new
      rw [hi.inserting_eq, hj.inserting_eq] at hrace
      exact hrace hnew' hnew

/-! ### With a race -/

/-- The identifiers the sessions may give to new customers are new and all distinct. -/
structure Fresh (ids : ι → List ObjectId) (s : Store) : Prop where
  nodup : ∀ i, (ids i).Nodup
  disjoint : ∀ i j, i ≠ j → (ids i).Disjoint (ids j)
  unused : ∀ i, ∀ a ∈ ids i, a ∉ s.customerIds

/-- A session's identifiers are used at most once. -/
theorem Enrolment.fresh {s' : Store} {idsOf : ι → List ObjectId} {ids' : List ObjectId}
    {st' : Option Customer} (hfresh : Fresh idsOf s) (i : ι)
    (h : Enrolment s (idsOf i) st s' ids' st') : Fresh (Function.update idsOf i ids') s' := by
  have hsub : ∀ j, (Function.update idsOf i ids' j).Sublist (idsOf j) := by
    intro j
    by_cases hij : j = i
    · subst hij
      rw [Function.update_self]
      exact h.sublist
    · rw [Function.update_of_ne hij]
  refine ⟨fun j => (hfresh.nodup j).sublist (hsub j), fun j k hjk a hj hk => ?_,
    fun j a ha hused => ?_⟩
  · exact hfresh.disjoint j k hjk ((hsub j).subset hj) ((hsub k).subset hk)
  · rcases h.mem_customerIds hused with hold | hids
    · exact hfresh.unused j a ((hsub j).subset ha) hold
    · -- the identifier just used is not among those left
      by_cases hij : j = i
      · subst hij
        rw [Function.update_self] at ha
        exact (List.nodup_cons.mp ((hfresh.nodup j).sublist hids)).1 ha
      · have hmine : a ∈ idsOf i := hids.subset List.mem_cons_self
        exact hfresh.disjoint j i hij ((hsub j).subset ha) hmine

/-- Every session registers customers, under identifiers of its own. -/
def Enrolling (x : Sessions ι α) : Prop :=
  ∃ ids : ι → List ObjectId, (∀ i, ∃ st, Enrols (ids i) st (x.sessions i).rest) ∧
    Fresh ids x.store

theorem Enrolling.step (h : Enrolling x) (i : ι) : Enrolling (x.step exec i) := by
  obtain ⟨ids, hat, hfresh⟩ := h
  obtain ⟨st, hi⟩ := hat i
  obtain ⟨ids', st', hstep, hi'⟩ := hi.system_step
  refine ⟨Function.update ids i ids', fun j => ?_, hstep.fresh hfresh i⟩
  by_cases hij : j = i
  · subst hij
    rw [Function.update_self]
    exact ⟨st', hi'⟩
  · rw [Function.update_of_ne hij, System.sessions_step_of_ne hij]
    exact hat j

/-- The customer is stored, or session `i` is about to insert it. -/
def Due (i : ι) (c : Customer) (x : Sessions ι α) : Prop :=
  inserting (x.sessions i).rest = some c ∨ c ∈ x.store.customers.docs

/-- A customer a session is about to insert is inserted at the session's next step. -/
theorem Due.step {c : Customer} (hx : Enrolling x) (h : Due i c x) (j : ι) :
    Due i c (x.step exec j) := by
  obtain ⟨ids, hat, hfresh⟩ := hx
  obtain ⟨st, hj⟩ := hat j
  obtain ⟨ids', st', hstep, -⟩ := hj.system_step
  rcases h with hdue | hc
  · by_cases hij : i = j
    · subst hij
      rw [hj.inserting_eq] at hdue
      subst hdue
      obtain ⟨hmem, hinserts⟩ := hstep.inserts
      exact .inr (hinserts (hfresh.unused i _ hmem))
    · refine .inl ?_
      rw [System.sessions_step_of_ne hij]
      exact hdue
  · exact .inr (hstep.keeps hc)

omit [DecidableEq ι] in
/-- Once every session has ended, what was due is stored. -/
theorem Due.mem_of_finished {c : Customer} (h : Due i c x) (hfinished : x.Finished) :
    c ∈ x.store.customers.docs := by
  rcases h with hdue | hc
  · have houtcome := hfinished i
    cases hrest : (x.sessions i).rest with
    | ret a =>
      rw [hrest] at hdue
      exact absurd hdue (by simp [inserting])
    | raise e =>
      rw [hrest] at hdue
      exact absurd hdue (by simp [inserting])
    | call c k => exact absurd (Session.outcome_call hrest) houtcome
  · exact hc

/-- A race leaves two customers with one number. -/
theorem not_onePerPhone_of_race {j : ι} {c c' : Customer} (hx : Enrolling x) (hij : i ≠ j)
    (hi : inserting (x.sessions i).rest = some c) (hj : inserting (x.sessions j).rest = some c')
    (hkey : c.phoneKey = c'.phoneKey) {sched : List ι} (hfinished : (x.run exec sched).Finished) :
    ¬(x.run exec sched).store.OnePerPhone := by
  -- the two customers have identifiers of their own
  have hid : c.id ≠ c'.id := by
    obtain ⟨ids, hat, hfresh⟩ := hx
    have hmem : ∀ {k : ι} {d : Customer}, inserting (x.sessions k).rest = some d →
        d.id ∈ ids k := by
      intro k d hk
      obtain ⟨st, hst⟩ := hat k
      rw [hst.inserting_eq] at hk
      subst hk
      obtain ⟨ids', st', hstep, -⟩ := hst.system_step
      exact hstep.inserts.1
    exact fun heq => hfresh.disjoint i j hij (hmem hi) (heq ▸ hmem hj)
  have hdue : Enrolling (x.run exec sched) ∧ Due i c (x.run exec sched) ∧
      Due j c' (x.run exec sched) := by
    refine System.run_preserves (I := fun y => Enrolling y ∧ Due i c y ∧ Due j c' y) ?_
      ⟨hx, .inl hi, .inl hj⟩ sched
    rintro y k ⟨hy, hdue, hdue'⟩
    exact ⟨hy.step k, hdue.step hy k, hdue'.step hy k⟩
  obtain ⟨-, hdue, hdue'⟩ := hdue
  intro hone
  have heq := List.inj_on_of_nodup_map hone (hdue.mem_of_finished hfinished)
    (hdue'.mem_of_finished hfinished) hkey
  exact hid (congrArg CustomerDoc.id heq)

end Systems

/-! ### The registrations of the application -/

section Calls

variable {ι : Type} [DecidableEq ι] {calls : ι → Call}

/-- **One customer per phone number, exactly without a race.**  Registrations by
`add_customer` and by imports are interleaved, each step on the database being atomic.
As long as no two sessions are past the look-up with one number at once, every merchant
has one customer per number; where two are, and the new customers have identifiers of
their own, it has two once every session has ended. -/
theorem one_customer_per_phone_iff (hcalls : ∀ i, (calls i).RegistersCustomers)
    (hs : s.OnePerPhone) (sched : List ι) :
    let start := System.start s fun i => (calls i).code bcrypt
    let x := System.run exec start sched
    (System.Along exec (fun x _ => NoRace x) start sched → x.store.OnePerPhone) ∧
      (Fresh (fun i => (calls i).newIds) s → x.Finished →
        (x.store.OnePerPhone ↔ System.Along exec (fun x _ => NoRace x) start sched)) := by
  intro start x
  have hat : ∀ i, Enrols (calls i).newIds none ((calls i).code bcrypt) := fun i =>
    enrols_code bcrypt (hcalls i)
  have hapart : System.Along exec (fun x _ => NoRace x) start sched → x.store.OnePerPhone := by
    intro hno
    have hstart : Apart start := ⟨hs, fun i => ⟨_, none, hat i, by simp⟩⟩
    have hx : Apart x :=
      System.run_invariant (I := Apart) (fun x i hno hx => hx.step hno i) hno hstart
    exact hx.stored
  refine ⟨hapart, fun hids hfinished => ⟨fun hone => ?_, hapart⟩⟩
  by_contra hrace
  -- from the first race on, two customers with one number are due
  obtain ⟨before, k, after, hsched, -, hk⟩ := System.exists_of_not_along hrace
  have hstart : Enrolling start := ⟨fun i => (calls i).newIds, fun i => ⟨none, hat i⟩, hids⟩
  have hx : Enrolling (System.run exec start before) :=
    System.run_preserves (I := Enrolling) (fun x i hx => hx.step i) hstart before
  have hsplit : x = System.run exec (System.run exec start before) (k :: after) := by
    rw [← System.run_append, ← hsched]
  rw [hsplit] at hone hfinished
  refine hk fun i j hij c c' hi hj hkey => ?_
  exact not_onePerPhone_of_race hx hij hi hj hkey hfinished hone

/-- A registration and an import with one phone number in common. -/
def sampleRegistrations : Bool → Call
  | false => .addCustomer (.sample 4 0) "m" "Ravi" "99" "" ""
  | true => .importCustomersFromExcel (.sample 5 0) "m" (.ok
      { columns := [.text "Name", .text "Phone"]
        rows := [[some "Meena", some "97"], [some "Ravi", some "99"]]
        seriesStr := fun _ _ _ => "" })

theorem sampleRegistrations_register : ∀ i, (sampleRegistrations i).RegistersCustomers := by
  rintro (_ | _)
  · trivial
  · trivial

theorem sampleRegistrations_fresh :
    Fresh (fun i => (sampleRegistrations i).newIds) sampleStore := by
  refine ⟨by decide +kernel, ?_, by decide +kernel⟩
  intro i j hij a hi hj
  have hdisjoint : ∀ i j, i ≠ j → ∀ a ∈ (sampleRegistrations i).newIds,
      a ∉ (sampleRegistrations j).newIds := by decide +kernel
  exact hdisjoint i j hij a hi hj

/-- The two leave one customer per number when the registration is over before the import
comes to its second row. -/
theorem one_customer_per_phone_iff_sample :
    (System.run exec (System.start sampleStore fun i => (sampleRegistrations i).code markingBcrypt)
        [true, false, false, true, true]).store.OnePerPhone ↔
      System.Along exec (fun x _ => NoRace x)
        (System.start sampleStore fun i => (sampleRegistrations i).code markingBcrypt)
        [true, false, false, true, true] := by
  have hone : sampleStore.OnePerPhone := by decide +kernel
  exact (one_customer_per_phone_iff sampleRegistrations_register hone
    [true, false, false, true, true]).2 sampleRegistrations_fresh (by decide +kernel)

/-- Two sessions past the look-up at once register one number twice. -/
theorem duplicate_phone :
    ¬∀ (bcrypt : Bcrypt) (s : Store), s.OnePerPhone → ∀ calls : Bool → Call,
      (∀ i, (calls i).RegistersCustomers) → Fresh (fun i => (calls i).newIds) s →
        ∀ sched, (System.run exec (System.start s fun i => (calls i).code bcrypt)
          sched).Finished →
        (System.run exec (System.start s fun i => (calls i).code bcrypt)
          sched).store.OnePerPhone := by
  intro hclaim
  have hone := hclaim markingBcrypt sampleStore (by decide +kernel) sampleRegistrations
    sampleRegistrations_register sampleRegistrations_fresh [true, true, true, false, false, true]
    (by decide +kernel)
  exact absurd hone (by decide +kernel)

end Calls

end DigitalLedger
