import DigitalLedger.Moves

/-!
# The customer portal

A customer logs in with a phone number and a PIN.  `add_customer` keeps phone
numbers distinct within one merchant only, while the login looks a customer up by
phone alone, so it reaches the first customer registered under that number with
any merchant.  This module follows, along a run, the PIN each customer was last
given and says exactly whom the login lets in.

## Main definitions

* `Call.setPins` — the PINs last set, after a completed call.
* `PinRun` — the reachable states, each with the PINs last set.
* `Shadowed` — an earlier customer has the same phone number.

## Main results

* `PinRun.hashed` — the stored hash is a hash of the PIN last set.
* `portal_login_iff` — logging in with the PIN last set reaches the customer's own
  document exactly when no earlier customer has the same phone number.
* `portal_login_shadowed` — two merchants, one phone number, and a customer locked
  out.
-/

namespace DigitalLedger

open Collection

/-! ### The PINs last set -/

/-- The PIN each customer was last given, if any. -/
abbrev Pins := ObjectId → Option String

/-- The PINs last set once a call has completed: a registration with a PIN and a
successful `update_customer_pin` set one, and a deleted customer has none. -/
def Call.setPins (call : Call) (outcome : Except Exn Outcome) (pins : Pins) : Pins :=
  match call, outcome with
  | .addCustomer env _ _ _ _ pin, .ok (.customerId (.success _)) =>
    Function.update pins (env.objectId 0) (if pin ≠ "" then some pin else none)
  | .updateCustomerPin _ cid _ pin, .ok (.done (.success _)) =>
    fun oid => if ObjectId.ofString? cid = some oid then some pin else pins oid
  | .deleteCustomer cid _, .ok (.done (.success _)) =>
    fun oid => if ObjectId.ofString? cid = some oid then none else pins oid
  | _, _ => pins

/-- The states reached from the empty store by completed calls, each with the PINs
last set. -/
inductive PinRun (bcrypt : Bcrypt) : Store → Pins → Prop
  | empty : PinRun bcrypt Store.empty fun _ => none
  | call {s : Store} {pins : Pins} (c : Call) (hs : PinRun bcrypt s pins) (hc : c.Canonical) :
      PinRun bcrypt (c.exec bcrypt s).2 (c.setPins (c.exec bcrypt s).1 pins)

variable {bcrypt : Bcrypt} {s s' : Store} {pins : Pins}

/-- The PINs last set after completed calls, made one after the other. -/
def pinsAll (bcrypt : Bcrypt) : List Call → Store → Pins → Pins
  | [], _, pins => pins
  | c :: calls, s, pins =>
    pinsAll bcrypt calls (c.exec bcrypt s).2 (c.setPins (c.exec bcrypt s).1 pins)

theorem PinRun.execAll {calls : List Call} (h : PinRun bcrypt s pins)
    (hcalls : ∀ c ∈ calls, c.Canonical) :
    PinRun bcrypt (execAll bcrypt calls s) (pinsAll bcrypt calls s pins) := by
  induction calls generalizing s pins with
  | nil => exact h
  | cons c calls ih =>
    have hc := hcalls c List.mem_cons_self
    exact ih (h.call c hc) fun c' hc' => hcalls c' (List.mem_cons_of_mem c hc')

/-- Every reachable state is reached with some PINs set. -/
theorem Reachable.exists_pinRun (h : Reachable bcrypt s) : ∃ pins, PinRun bcrypt s pins := by
  induction h with
  | empty => exact ⟨_, .empty⟩
  | call c _ hc ih =>
    obtain ⟨pins, hpins⟩ := ih
    exact ⟨_, hpins.call c hc⟩

/-! ### Calls that leave the PINs alone -/

/-- Every customer is still stored, with the same PIN. -/
def KeepsPins (s s' : Store) : Prop :=
  ∀ c ∈ s.customers.docs, ∃ c' ∈ s'.customers.docs, c'.id = c.id ∧ c'.portalPin = c.portalPin

theorem KeepsPins.refl (s : Store) : KeepsPins s s := fun c hc => ⟨c, hc, rfl, rfl⟩

theorem KeepsPins.trans {s₁ s₂ s₃ : Store} (h : KeepsPins s₁ s₂) (h' : KeepsPins s₂ s₃) :
    KeepsPins s₁ s₃ := by
  intro c hc
  obtain ⟨c', hc', hid, hpin⟩ := h c hc
  obtain ⟨c'', hc'', hid', hpin'⟩ := h' c' hc'
  exact ⟨c'', hc'', hid'.trans hid, hpin'.trans hpin⟩

/-- The calls that remove no customer and set no PIN. -/
def DbCall.PinSafe : DbCall → Prop
  | .customers (.updateOne _ u) => u.portalPin = none
  | .customers (.deleteOne _) => False
  | .customers (.deleteMany _) => False
  | _ => True

theorem DbCall.PinSafe.keepsPins {c : DbCall} (hc : c.PinSafe) (s : Store) :
    KeepsPins s (exec c s).2 := by
  cases c with
  | transactions op => exact .refl s
  | customers op =>
    cases op with
    | findOne q => exact .refl s
    | find q => exact .refl s
    | insertOne d =>
      rw [exec, Op.exec]
      cases hinsert : s.customers.insertOne d with
      | none => exact .refl s
      | some C =>
        intro c hc
        have hmem : c ∈ C.docs := by
          rw [docs_insertOne hinsert]
          exact List.mem_append_left _ hc
        exact ⟨c, hmem, rfl, rfl⟩
    | updateOne q u =>
      have hmap : (s.customers.updateOne q u).docs.map (fun c => (c.id, c.portalPin)) =
          s.customers.docs.map fun c => (c.id, c.portalPin) := by
        refine map_updateOne (fun c => ?_) q s.customers
        change (c.id, u.portalPin.getD c.portalPin) = (c.id, c.portalPin)
        rw [show u.portalPin = none from hc, Option.getD_none]
      intro c hc
      have hmem : (c.id, c.portalPin) ∈
          (s.customers.updateOne q u).docs.map fun c => (c.id, c.portalPin) := by
        rw [hmap]
        exact List.mem_map_of_mem hc
      obtain ⟨c', hc', heq⟩ := List.mem_map.mp hmem
      exact ⟨c', hc', (Prod.mk.inj heq).1, (Prod.mk.inj heq).2⟩
    | deleteOne q => exact hc.elim
    | deleteMany q => exact hc.elim

/-- A program that removes no customer and sets no PIN keeps the PINs. -/
theorem keepsPins_run {α : Type} {p : Db α} (hp : Prog.Uses DbCall.PinSafe p) (s : Store) :
    KeepsPins s (p.run exec s).2 :=
  Prog.run_invariant exec (fun _ hc s' hs' => hs'.trans (hc.keepsPins s')) hp (.refl s)

theorem DbCall.Scoring.pinSafe (c : DbCall) (hc : c.Scoring) : c.PinSafe := by
  cases c with
  | transactions op => trivial
  | customers op =>
    cases op with
    | updateOne q u => exact hc.2
    | findOne q => trivial
    | find q => trivial
    | insertOne d => trivial
    | deleteOne q => exact hc
    | deleteMany q => exact hc

/-- All calls but `update_customer_pin` and `delete_customer` keep the PINs. -/
theorem keepsPins_exec {call : Call}
    (hupdate : ∀ env cid m pin, call ≠ .updateCustomerPin env cid m pin)
    (hdelete : ∀ cid m, call ≠ .deleteCustomer cid m) (s : Store) :
    KeepsPins s (call.exec bcrypt s).2 := by
  refine keepsPins_run ?_ s
  have hfind : ∀ q, DbCall.PinSafe (.customers (.findOne q)) := fun _ => trivial
  have htxns : ∀ op, DbCall.PinSafe (.transactions op) := fun _ => trivial
  cases call with
  | addCustomer env m name phone address pin =>
    exact (uses_addCustomer hfind (fun _ _ _ _ _ _ => trivial) _ _ _ _ _ _).map _
  | importCustomersFromExcel env m file =>
    exact (uses_importCustomersFromExcel hfind (fun _ _ _ _ _ _ => trivial) _ _ _).map _
  | addTransaction env m cid type amount note =>
    exact (uses_addTransaction DbCall.Scoring.pinSafe (fun _ _ h => h) env
      (fun _ _ _ _ _ _ => htxns _) _ _ _ _ _).map _
  | editTransaction env tid m amount note =>
    exact (uses_editTransaction DbCall.Scoring.pinSafe (fun _ _ h => h) (fun _ => htxns _)
      (fun _ _ => htxns _) _ _ _ _ _).map _
  | deleteTransaction env tid m =>
    exact (uses_deleteTransaction DbCall.Scoring.pinSafe (fun _ _ h => h) (fun _ => htxns _)
      (fun _ => htxns _) _ _ _).map _
  | computeCreditScore env m cid =>
    exact ((uses_computeCreditScore _ _).mono DbCall.Scoring.pinSafe).map _
  | deleteCustomer cid m => exact absurd rfl (hdelete cid m)
  | updateCustomerPin env cid m pin => exact absurd rfl (hupdate env cid m pin)

/-! ### The stored hash is a hash of the PIN last set -/

/-- Each customer with a PIN set is stored with a hash of that PIN. -/
def PinsHashed (bcrypt : Bcrypt) (s : Store) (pins : Pins) : Prop :=
  ∀ oid p, pins oid = some p →
    ∃ c ∈ s.customers.docs, c.id = oid ∧ ∃ salt, c.portalPin = bcrypt.hashpw p salt

theorem PinsHashed.keepsPins (h : PinsHashed bcrypt s pins) (hkeeps : KeepsPins s s') :
    PinsHashed bcrypt s' pins := by
  intro oid p hp
  obtain ⟨c, hc, hid, salt, hpin⟩ := h oid p hp
  obtain ⟨c', hc', hid', hpin'⟩ := hkeeps c hc
  exact ⟨c', hc', hid'.trans hid, salt, hpin'.trans hpin⟩

theorem PinsHashed.addCustomer (h : PinsHashed bcrypt s pins) (env : Env)
    (m name phone address pin : String) :
    PinsHashed bcrypt (Call.exec bcrypt (.addCustomer env m name phone address pin) s).2
      (Call.setPins (.addCustomer env m name phone address pin)
        (Call.exec bcrypt (.addCustomer env m name phone address pin) s).1 pins) := by
  rw [Call.exec, Call.code, Prog.run_map, run_addCustomer]
  split
  · exact h
  · cases hC : s.customers.insertOne (newCustomer bcrypt env m name phone address pin) with
    | none => exact h
    | some C =>
      have hdocs := docs_insertOne hC
      intro oid p hp
      change Function.update pins (env.objectId 0) _ oid = some p at hp
      by_cases hoid : oid = env.objectId 0
      · rw [hoid, Function.update_self] at hp
        refine ⟨newCustomer bcrypt env m name phone address pin, ?_, hoid.symm, env.gensalt, ?_⟩
        · change _ ∈ C.docs
          rw [hdocs]
          exact List.mem_append_right _ (List.mem_singleton_self _)
        · by_cases hpin : pin ≠ ""
          · rw [if_pos hpin, Option.some.injEq] at hp
            rw [← hp]
            exact if_pos hpin
          · rw [if_neg hpin] at hp
            exact absurd hp (by simp)
      · -- the documents already stored stay as they are
        rw [Function.update_of_ne hoid] at hp
        obtain ⟨c, hc, hrest⟩ := h oid p hp
        refine ⟨c, ?_, hrest⟩
        change c ∈ C.docs
        rw [hdocs]
        exact List.mem_append_left _ hc

theorem PinsHashed.deleteCustomer (h : PinsHashed bcrypt s pins) (cid m : String) :
    PinsHashed bcrypt (Call.exec bcrypt (.deleteCustomer cid m) s).2
      (Call.setPins (.deleteCustomer cid m)
        (Call.exec bcrypt (.deleteCustomer cid m) s).1 pins) := by
  rw [Call.exec, Call.code, Prog.run_map, run_deleteCustomer]
  cases hcid : ObjectId.ofString? cid with
  | none => exact h
  | some oid =>
    dsimp only
    cases hfind : s.customers.findOne { id := some oid, merchantId := some m } with
    | none => exact h
    | some c =>
      intro oid' p hp
      change (if ObjectId.ofString? cid = some oid' then none else pins oid') = some p at hp
      by_cases hoid : oid = oid'
      · rw [hcid, hoid, if_pos rfl] at hp
        exact absurd hp (by simp)
      · -- another customer is not the one deleted
        rw [hcid, if_neg (fun heq => hoid (Option.some.inj heq))] at hp
        obtain ⟨c', hc', hid', hrest⟩ := h oid' p hp
        exact ⟨c', mem_customers_deleteOne.mpr ⟨hc', fun heq => hoid (heq.1.symm.trans hid')⟩,
          hid', hrest⟩

/-- The documents of the other customers stay, that of `c` is updated. -/
theorem mem_customers_updateOne {c c' : Customer} (hc : c ∈ s.customers.docs)
    (hc' : c' ∈ s.customers.docs) (u : CustomerUpdate) :
    (if c'.id = c.id then u.apply c' else c') ∈ (s.customers.updateOne
      { id := some c.id, merchantId := some c.merchantId } u).docs := by
  rw [docs_updateOne (byKey_customer rfl)]
  refine List.mem_map.mpr ⟨c', hc', if_congr ?_ rfl rfl⟩
  rw [test_customer_id_merchant]
  refine ⟨And.left, fun hid => ⟨hid, ?_⟩⟩
  rw [customer_eq_of_id hc' hc hid]

/-- An update that changes nothing keeps the PINs. -/
theorem keepsPins_updateOne {c : Customer} (hc : c ∈ s.customers.docs) {u : CustomerUpdate}
    (hsame : u.apply c = c) :
    KeepsPins s { s with customers :=
      s.customers.updateOne { id := some c.id, merchantId := some c.merchantId } u } := by
  intro c' hc'
  refine ⟨_, mem_customers_updateOne hc hc' u, ?_⟩
  split
  · next hid =>
    rw [customer_eq_of_id hc' hc hid, hsame]
    exact ⟨rfl, rfl⟩
  · exact ⟨rfl, rfl⟩

theorem PinsHashed.updateCustomerPin (h : PinsHashed bcrypt s pins) (env : Env)
    (cid m pin : String) :
    PinsHashed bcrypt (Call.exec bcrypt (.updateCustomerPin env cid m pin) s).2
      (Call.setPins (.updateCustomerPin env cid m pin)
        (Call.exec bcrypt (.updateCustomerPin env cid m pin) s).1 pins) := by
  rw [Call.exec, Call.code, Prog.run_map, run_updateCustomerPin]
  cases hcid : ObjectId.ofString? cid with
  | none => exact h
  | some oid =>
    dsimp only
    set q : CustomerQuery := { id := some oid, merchantId := some m } with hq
    set u : CustomerUpdate := { portalPin := some (hashPin bcrypt env pin) } with hu
    cases hfind : s.customers.findOne q with
    | none =>
      rw [updateResult, hfind, updateOne_of_findOne_eq_none hfind]
      exact h
    | some c =>
      obtain ⟨hc, rfl, rfl⟩ := findOne_customer_merchant.mp hfind
      have hcount : (s.customers.updateResult q u).modifiedCount =
          if u.apply c = c then 0 else 1 := by
        rw [updateResult, hfind]
        rfl
      by_cases hsame : u.apply c = c
      · -- the hash is the one already stored: the code reports a failure
        rw [if_pos hsame] at hcount
        rw [if_neg (not_not.mpr hcount)]
        exact h.keepsPins (keepsPins_updateOne hc hsame)
      · rw [if_neg hsame] at hcount
        have hchanged : (s.customers.updateResult q u).modifiedCount ≠ 0 := by
          rw [hcount]
          exact one_ne_zero
        rw [if_pos hchanged]
        intro oid p hp
        change (if ObjectId.ofString? cid = some oid then some pin else pins oid) = some p at hp
        by_cases hoid : c.id = oid
        · rw [hcid, hoid, if_pos rfl, Option.some.injEq] at hp
          have hmem := mem_customers_updateOne hc hc u
          rw [if_pos rfl] at hmem
          exact ⟨u.apply c, hmem, hoid, env.gensalt, by rw [← hp]; rfl⟩
        · rw [hcid, if_neg (fun heq => hoid (Option.some.inj heq))] at hp
          obtain ⟨c', hc', hid, hrest⟩ := h oid p hp
          have hmem := mem_customers_updateOne hc hc' u
          rw [if_neg (fun heq => hoid (heq.symm.trans hid))] at hmem
          exact ⟨c', hmem, hid, hrest⟩

/-- **The stored hash is a hash of the PIN last set**, in every run. -/
theorem PinRun.hashed (h : PinRun bcrypt s pins) : PinsHashed bcrypt s pins := by
  induction h with
  | empty =>
    intro oid p hp
    exact absurd hp (by simp)
  | call c hs hc ih =>
    cases c with
    | addCustomer env m name phone address pin => exact ih.addCustomer env m name phone address pin
    | deleteCustomer cid m => exact ih.deleteCustomer cid m
    | updateCustomerPin env cid m pin => exact ih.updateCustomerPin env cid m pin
    | addTransaction env m cid type amount note =>
      exact ih.keepsPins (keepsPins_exec (by simp) (by simp) _)
    | editTransaction env tid m amount note =>
      exact ih.keepsPins (keepsPins_exec (by simp) (by simp) _)
    | deleteTransaction env tid m => exact ih.keepsPins (keepsPins_exec (by simp) (by simp) _)
    | computeCreditScore env m cid => exact ih.keepsPins (keepsPins_exec (by simp) (by simp) _)
    | importCustomersFromExcel env m file =>
      exact ih.keepsPins (keepsPins_exec (by simp) (by simp) _)

/-! ### Logging in -/

/-- An earlier customer of the collection has the same phone number. -/
def Shadowed (s : Store) (c : Customer) : Prop :=
  ∃ pre post c', s.customers.docs = pre ++ c :: post ∧ c' ∈ pre ∧ c'.phone = c.phone

/-- The customer the login looks up is the first one with the phone number. -/
theorem findOne_phone_iff {c : Customer} (hc : c ∈ s.customers.docs) :
    s.customers.findOne { phone := some c.phone } = some c ↔ ¬Shadowed s c := by
  rw [findOne, List.find?_eq_some_iff_append]
  simp only [test_customer_phone, true_and, Bool.not_eq_true', Bool.eq_false_iff, Ne]
  constructor
  · rintro ⟨pre, post, hdocs, hpre⟩ ⟨pre', post', c', hdocs', hc', hphone⟩
    -- the documents are distinct, so the two prefixes are one
    have hnodup : (c :: (pre' ++ post')).Nodup := by
      rw [← List.nodup_middle, ← hdocs']
      exact s.customers.docs_nodup
    have hnotMem := (List.nodup_cons.mp hnodup).1
    have hpre' : c ∉ pre' := fun h => hnotMem (List.mem_append_left _ h)
    have hpost' : c ∉ post' := fun h => hnotMem (List.mem_append_right _ h)
    have hsplit := (List.append_cons_inj_of_notMem hpre' hpost').mp (hdocs'.symm.trans hdocs)
    have heq : pre' = pre := hsplit.1
    exact hpre c' (heq ▸ hc') hphone
  · intro hshadow
    obtain ⟨pre, post, hdocs⟩ := List.append_of_mem hc
    exact ⟨pre, post, hdocs, fun c' hc' hphone => hshadow ⟨pre, post, c', hdocs, hc', hphone⟩⟩

theorem withStrId_injective {c c' : Customer} (h : c.withStrId = c'.withStrId) :
    c.id = c'.id := by
  have hid := congrArg CustomerDoc.id h
  exact ObjectId.str_injective hid

/-- **Logging in with the PIN last set reaches the customer's own document exactly
when no earlier customer has the same phone number.** -/
theorem portal_login_iff (hideal : bcrypt.Ideal) (h : PinRun bcrypt s pins) {c : Customer}
    (hc : c ∈ s.customers.docs) {p : String} (hp : pins c.id = some p) :
    Prog.run exec (customerPortalLogin bcrypt c.phone p) s = (.ok (.success c.withStrId), s) ↔
      ¬Shadowed s c := by
  obtain ⟨c', hc', hid, salt, hpin⟩ := h.hashed c.id p hp
  obtain rfl := customer_eq_of_id hc' hc hid
  rw [← findOne_phone_iff hc, customerPortalLogin, Prog.run_bind, run_customers_findOne,
    Prog.andThen_ok]
  constructor
  · -- a login that succeeds answers with the document the lookup has found
    intro hrun
    cases hfind : s.customers.findOne { phone := some c'.phone } with
    | none => simp [hfind] at hrun
    | some c'' =>
      simp only [hfind] at hrun
      split at hrun
      · simp at hrun
      · split at hrun
        · simp at hrun
        · have hreply : c''.withStrId = c'.withStrId := by simpa using hrun
          have hmem := mem_of_findOne hfind
          rw [customer_eq_of_id hmem hc (withStrId_injective hreply)]
  · -- the stored hash is one of the PIN, so it is set and verifies
    intro hfind
    have hset : c'.portalPin ≠ "" := by
      rw [hpin]
      exact hideal.hashpw_ne_empty p salt
    have hverify : verifyPin bcrypt p c'.portalPin = true := by
      rw [hpin]
      exact (hideal.checkpw_hashpw p p salt).mpr rfl
    rw [hfind]
    dsimp only
    rw [if_neg hset, hverify, if_neg (by simp)]
    rfl

/-- A customer registered with a PIN logs in. -/
theorem portal_login_iff_sample :
    Prog.run exec (customerPortalLogin markingBcrypt "98" "1234") sampleStore =
        (.ok (.success sampleCustomer.withStrId), sampleStore) ↔
      ¬Shadowed sampleStore sampleCustomer := by
  have hrun : PinRun markingBcrypt sampleStore
      (pinsAll markingBcrypt sampleCalls .empty fun _ => none) :=
    PinRun.empty.execAll sampleCalls_canonical
  have hpin : pinsAll markingBcrypt sampleCalls .empty (fun _ => none) sampleCustomer.id =
      some "1234" := by decide +kernel
  exact portal_login_iff markingBcrypt_ideal hrun sampleCustomer_mem hpin

/-! ### Two merchants, one phone number -/

/-- Two merchants each register a customer with the phone number 98, under different
PINs. -/
def sharedPhoneCalls : List Call :=
  [.addCustomer (.sample 1 0) "m" "Asha" "98" "" "1234",
    .addCustomer (.sample 2 0) "n" "Ravi" "98" "" "5678"]

/-- The second customer of a phone number cannot log in: the login looks up the
first one, whose PIN is another. -/
theorem portal_login_shadowed :
    ¬∀ (bcrypt : Bcrypt) (s : Store) (pins : Pins), bcrypt.Ideal → PinRun bcrypt s pins →
      ∀ c ∈ s.customers.docs, ∀ p, pins c.id = some p →
        Prog.run exec (customerPortalLogin bcrypt c.phone p) s =
          (.ok (.success c.withStrId), s) := by
  intro hclaim
  have hrun : PinRun markingBcrypt (execAll markingBcrypt sharedPhoneCalls .empty)
      (pinsAll markingBcrypt sharedPhoneCalls .empty fun _ => none) := by
    refine PinRun.empty.execAll fun c hc => ?_
    simp only [sharedPhoneCalls, List.mem_cons, List.not_mem_nil, or_false] at hc
    rcases hc with rfl | rfl <;> trivial
  have hravi : ∃ c ∈ (execAll markingBcrypt sharedPhoneCalls .empty).customers.docs,
      c.phone = "98" ∧
        pinsAll markingBcrypt sharedPhoneCalls .empty (fun _ => none) c.id = some "5678" := by
    decide +kernel
  obtain ⟨c, hc, hphone, hpin⟩ := hravi
  have hlogin := congrArg Prod.fst (hclaim _ _ _ markingBcrypt_ideal hrun c hc "5678" hpin)
  have hrefused : (Prog.run exec (customerPortalLogin markingBcrypt "98" "5678")
      (execAll markingBcrypt sharedPhoneCalls .empty)).1 = .ok (.failure "Incorrect PIN.") := by
    decide +kernel
  rw [hphone, hrefused] at hlogin
  exact absurd hlogin (by simp)

end DigitalLedger
