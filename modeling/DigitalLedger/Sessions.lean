import DigitalLedger.Lib.Interleave
import DigitalLedger.Ledger

/-!
# Sessions in progress

When calls are interleaved, each of them is somewhere between its first and its
last call on the database.  For the calls that move money there are seven places to
be, the *stages*, and each step of the session takes it from one stage to the next
while doing one of a few things to the store.  The stages and their steps form a
small machine; the programs of the application simulate it, and the later modules
reason about the machine only.

## Main definitions

* `Stage` — the stages of a session.
* `At st p` — the program `p` stands at the stage `st`.
* `Stage.Step s st s' st'` — the steps of the machine.
* `pending` — what the next call of a program adds to the figures of a customer.
* `Stage.slip` — by how much a step moves figures and transactions apart.

## Main results

* `At.step` — the programs simulate the machine.
* `at_addTransaction`, `at_editTransaction`, `at_deleteTransaction`,
  `at_computeCreditScore` — where the operations start.
* `Stage.Step.gap` — the conservation law of a single step.
-/

namespace DigitalLedger

open Collection Prog

/-! ### Stages -/

/-- Where a session that moves money stands. -/
inductive Stage
  /-- All that is left is reading and scoring. -/
  | quiet
  /-- About to look up the customer of a new transaction. -/
  | checking
  /-- About to insert a transaction. -/
  | inserting (t : Transaction)
  /-- About to look up the transaction to edit or delete. -/
  | reading (oid : ObjectId) (w : Option TransactionUpdate)
  /-- About to edit or delete the transaction it has read. -/
  | writing (t : Transaction) (w : Option TransactionUpdate)
  /-- About to move the figures of a customer. -/
  | owing (oid : ObjectId) (δ : Totals)

namespace Stage

/-- The stage once a transaction is written: its customer is owed the difference, if
the transaction names one. -/
def settling : Option ObjectId → Totals → Stage
  | some oid, δ => owing oid δ
  | none, _ => quiet

/-- What the stage still owes a customer. -/
def pending : Stage → ObjectId → Totals
  | owing oid δ, a => if oid = a then δ else 0
  | _, _ => 0

theorem pending_settling (o : Option ObjectId) (δ : Totals) (a : ObjectId) :
    (settling o δ).pending a = if o = some a then δ else 0 := by
  cases o with
  | none => exact (if_neg (by simp)).symm
  | some oid => simp only [settling, pending, Option.some.injEq]

theorem settling_ne_writing (o : Option ObjectId) (δ : Totals) (t : Transaction)
    (w : Option TransactionUpdate) : settling o δ ≠ writing t w := by
  cases o <;> exact Stage.noConfusion

theorem settling_ne_reading (o : Option ObjectId) (δ : Totals) (oid : ObjectId)
    (w : Option TransactionUpdate) : settling o δ ≠ reading oid w := by
  cases o <;> exact Stage.noConfusion

/-- The steps of the machine. -/
inductive Step (s : Store) : Stage → Store → Stage → Prop
  /-- Reading and scoring. -/
  | quiet {s' : Store} (hT : s'.transactions = s.transactions)
      (hC : s'.customers.docs.map (fun c => (c.id, c.totals)) =
        s.customers.docs.map fun c => (c.id, c.totals)) :
      Step s .quiet s' .quiet
  /-- The customer of a new transaction is not found, or it is. -/
  | checkFails : Step s .checking s .quiet
  | check (t : Transaction) : Step s .checking s (.inserting t)
  /-- The identifier of a new transaction is taken, or it is not. -/
  | insertFails (t : Transaction) : Step s (.inserting t) s .quiet
  | insert {t : Transaction} {T : Collection Transaction}
      (hT : s.transactions.insertOne t = some T) :
      Step s (.inserting t) { s with transactions := T } (settling t.owner t.effect)
  /-- The transaction to edit or delete is not found, or it is. -/
  | readFails (oid : ObjectId) (w : Option TransactionUpdate) : Step s (.reading oid w) s .quiet
  | read {t : Transaction} (ht : t ∈ s.transactions.docs) (w : Option TransactionUpdate) :
      Step s (.reading t.id w) s (.writing t w)
  /-- The transaction is written, whatever has become of it since it was read. -/
  | write (t : Transaction) (w : Option TransactionUpdate) :
      Step s (.writing t w) (s.write t.id w) (settling t.owner (t.delta w))
  /-- The `$inc`. -/
  | inc (oid : ObjectId) (u : CustomerUpdate) :
      Step s (.owing oid u.inc)
        { s with customers := s.customers.updateOne { id := some oid } u } .quiet

end Stage

/-! ### Programs at a stage -/

section At

variable {α β : Type}

/-- The program stands at the stage: its next call is the one of the stage, and
whatever answer the database gives, it goes on at a stage the machine allows. -/
inductive At : Stage → Db α → Prop
  | quiet {p : Db α} (hp : Uses DbCall.Scoring p) : At .quiet p
  | owing {oid : ObjectId} {u : CustomerUpdate} {k : Except Exn UpdateResult → Db α}
      (hk : ∀ r, Uses DbCall.Scoring (k r)) :
      At (.owing oid u.inc) (.call (.customers (.updateOne { id := some oid } u)) k)
  | amending {t : Transaction} {u : TransactionUpdate} {k : Except Exn UpdateResult → Db α}
      (hk : ∀ r, At (Stage.settling t.owner (t.delta (some u))) (k (.ok r))) :
      At (.writing t (some u)) (.call (.transactions (.updateOne { id := some t.id } u)) k)
  | voiding {t : Transaction} {k : Except Exn ℕ → Db α}
      (hk : ∀ r, At (Stage.settling t.owner (t.delta none)) (k (.ok r))) :
      At (.writing t none) (.call (.transactions (.deleteOne { id := some t.id })) k)
  | reading {oid : ObjectId} {w : Option TransactionUpdate} {m : String}
      {k : Except Exn (Option Transaction) → Db α} (hnone : Uses DbCall.Scoring (k (.ok none)))
      (hsome : ∀ t : Transaction, t.id = oid → At (.writing t w) (k (.ok (some t)))) :
      At (.reading oid w)
        (.call (.transactions (.findOne { id := some oid, merchantId := some m })) k)
  | inserting {t : Transaction} {k : Except Exn Unit → Db α}
      (herror : ∀ e, Uses DbCall.Scoring (k (.error e)))
      (hok : At (Stage.settling t.owner t.effect) (k (.ok ()))) :
      At (.inserting t) (.call (.transactions (.insertOne t)) k)
  | checking {q : CustomerQuery} {t : Customer → Transaction}
      {k : Except Exn (Option Customer) → Db α} (hnone : Uses DbCall.Scoring (k (.ok none)))
      (hsome : ∀ c, At (.inserting (t c)) (k (.ok (some c)))) :
      At .checking (.call (.customers (.findOne q)) k)

theorem At.map (f : α → β) {st : Stage} {p : Db α} (h : At st p) : At st (f <$> p) := by
  induction h with
  | quiet hp => exact .quiet (hp.map f)
  | owing hk => exact .owing fun r => (hk r).map f
  | amending _ ih => exact .amending ih
  | voiding _ ih => exact .voiding ih
  | reading hnone _ ih => exact .reading (hnone.map f) ih
  | inserting herror _ ih => exact .inserting (fun e => (herror e).map f) ih
  | checking hnone _ ih => exact .checking (hnone.map f) ih

/-! ### Where the operations start -/

theorem at_settle (cid : String) (δ : Totals) (now : Time) :
    At (Stage.settling (ObjectId.ofString? cid) δ) (settle cid δ now) := by
  rw [settle]
  cases hcid : ObjectId.ofString? cid with
  | none =>
    rw [objectId_eq_raise hcid]
    exact .quiet (.raise _)
  | some coid =>
    rw [objectId_eq_ret hcid]
    refine .owing (u := { inc := δ }) fun r => ?_
    cases r with
    | error e => exact .raise e
    | ok r => exact (uses_computeCreditScore now cid).bind fun _ => .ret _

theorem at_conclude (oid : ObjectId) (cid : String) (δ : Totals) (last now : Time) :
    At (.owing oid δ) (conclude oid cid δ last now) := by
  refine .owing (u := { inc := δ, lastTransaction := some last }) fun r => ?_
  cases r with
  | error e => exact .raise e
  | ok r =>
    refine (uses_computeCreditScore now cid).bind fun _ => ?_
    refine Uses.bind (uses_query trivial) fun updated => ?_
    cases updated with
    | none => exact .raise _
    | some c => exact .ret _

theorem at_recordFor (env : Env) (m cid : String) {oid : ObjectId}
    (hcid : ObjectId.ofString? cid = some oid) (type : TxnType) (amount : ℚ) (note : String) :
    At .checking (recordFor env m cid oid type amount note) := by
  refine .checking (t := fun c => newTransaction env m cid c type amount note) (.ret _) fun c => ?_
  refine .inserting (fun e => .raise e) ?_
  have howner : (newTransaction env m cid c type amount note).owner = some oid := hcid
  rw [howner]
  exact at_conclude oid cid (type.effect amount) _ _

theorem at_amendFor (env : Env) (oid : ObjectId) (m : String) (amount : ℚ) (note : String) :
    At (.reading oid (some ⟨amount, note, true, env.utcnow 0⟩))
      (amendFor env oid m amount note) := by
  refine .reading (.ret _) fun t ht => ?_
  subst ht
  exact .amending fun r => at_settle _ _ _

theorem at_voidFor (env : Env) (oid : ObjectId) (m : String) :
    At (.reading oid none) (voidFor env oid m) := by
  refine .reading (.ret _) fun t ht => ?_
  subst ht
  exact .voiding fun r => at_settle _ _ _

theorem at_addTransaction (env : Env) (m cid txnType : String) (amount : ℚ) (note : String) :
    At .quiet (addTransaction env m cid txnType amount note) ∨
      At .checking (addTransaction env m cid txnType amount note) := by
  rcases addTransaction_cases env m cid txnType amount note with
    ⟨message, heq⟩ | heq | ⟨type, oid, -, -, hcid, heq⟩
  · rw [heq]
    exact .inl (.quiet (.ret _))
  · rw [heq]
    exact .inl (.quiet (.raise _))
  · rw [heq]
    exact .inr (at_recordFor env m cid hcid type amount note)

theorem at_editTransaction (env : Env) (tid m : String) (amount : ℚ) (note : String) :
    At .quiet (editTransaction env tid m amount note) ∨
      ∃ oid w, ObjectId.ofString? tid = some oid ∧
        At (.reading oid w) (editTransaction env tid m amount note) := by
  rw [editTransaction_eq]
  cases ObjectId.ofString? tid with
  | none => exact .inl (.quiet (.raise _))
  | some oid => exact .inr ⟨oid, _, rfl, at_amendFor env oid m amount note⟩

theorem at_deleteTransaction (env : Env) (tid m : String) :
    At .quiet (deleteTransaction env tid m) ∨
      ∃ oid w, ObjectId.ofString? tid = some oid ∧
        At (.reading oid w) (deleteTransaction env tid m) := by
  rw [deleteTransaction_eq]
  cases ObjectId.ofString? tid with
  | none => exact .inl (.quiet (.raise _))
  | some oid => exact .inr ⟨oid, _, rfl, at_voidFor env oid m⟩

/-! ### The programs simulate the machine -/

/-- A scoring call leaves the transactions and the figures alone. -/
theorem DbCall.Scoring.frame {c : DbCall} (hc : c.Scoring) (s : Store) :
    (exec c s).2.transactions = s.transactions ∧
      (exec c s).2.customers.docs.map (fun c => (c.id, c.totals)) =
        s.customers.docs.map fun c => (c.id, c.totals) := by
  cases c with
  | transactions op =>
    cases op with
    | find q => exact ⟨rfl, rfl⟩
    | findOne q => exact hc.elim
    | insertOne d => exact hc.elim
    | updateOne q u => exact hc.elim
    | deleteOne q => exact hc.elim
    | deleteMany q => exact hc.elim
  | customers op =>
    cases op with
    | findOne q => exact ⟨rfl, rfl⟩
    | updateOne q u =>
      refine ⟨rfl, map_updateOne (fun c => ?_) q s.customers⟩
      change (c.id, c.totals + u.inc) = (c.id, c.totals)
      rw [hc.1, add_zero]
    | find q => exact hc.elim
    | insertOne d => exact hc.elim
    | deleteOne q => exact hc.elim
    | deleteMany q => exact hc.elim

/-- **The programs simulate the machine**: whatever the store, the next call of a
program takes it to a stage, and the store to a state, that the machine allows. -/
theorem At.step {st : Stage} {c : DbCall} {k : Except Exn c.Answer → Db α}
    (h : At st (.call c k)) (s : Store) :
    ∃ st', Stage.Step s st (exec c s).2 st' ∧ At st' (k (exec c s).1) := by
  cases h with
  | quiet hp =>
    obtain ⟨hT, hC⟩ := hp.head.frame s
    exact ⟨_, .quiet hT hC, .quiet (hp.next _)⟩
  | @owing oid u k hk => exact ⟨_, .inc oid u, .quiet (hk _)⟩
  | @amending t u k hk => exact ⟨_, .write t (some u), hk _⟩
  | @voiding t k hk => exact ⟨_, .write t none, hk _⟩
  | @reading oid w m k hnone hsome =>
    rw [exec_transactions_findOne]
    cases hfind : s.transactions.findOne { id := some oid, merchantId := some m } with
    | none => exact ⟨_, .readFails oid w, .quiet hnone⟩
    | some t =>
      obtain ⟨ht, rfl, -⟩ := findOne_transaction_merchant.mp hfind
      exact ⟨_, .read ht w, hsome t rfl⟩
  | @inserting t k herror hok =>
    cases hT : s.transactions.insertOne t with
    | none =>
      rw [exec_transactions_insertOne_none s hT]
      exact ⟨_, .insertFails t, .quiet (herror _)⟩
    | some T =>
      rw [exec_transactions_insertOne s hT]
      exact ⟨_, .insert hT, hok⟩
  | @checking q t k hnone hsome =>
    rw [exec_customers_findOne]
    cases s.customers.findOne q with
    | none => exact ⟨_, .checkFails, .quiet hnone⟩
    | some c => exact ⟨_, .check (t c), hsome c⟩

/-- A session about to write has not ended. -/
theorem At.outcome_writing {t : Transaction} {w : Option TransactionUpdate}
    {x : Session DbCall DbCall.Answer Exn α} (h : At (.writing t w) x.rest) :
    x.outcome = none := by
  generalize hp : x.rest = p at h
  cases h with
  | amending hk => exact Session.outcome_call hp
  | voiding hk => exact Session.outcome_call hp

/-- What the next call of a program adds to the figures of a customer. -/
def pending : Db α → ObjectId → Totals
  | .call (.customers (.updateOne q u)) _, a => if q.id = some a then u.inc else 0
  | _, _ => 0

/-- It is what the stage of the program owes. -/
theorem At.pending_eq {st : Stage} {p : Db α} (h : At st p) (a : ObjectId) :
    pending p a = st.pending a := by
  cases h with
  | owing hk => simp only [pending, Stage.pending, Option.some.injEq]
  | amending hk => rfl
  | voiding hk => rfl
  | reading hnone hsome => rfl
  | inserting herror hok => rfl
  | checking hnone hsome => rfl
  | quiet hp =>
    cases p with
    | ret a => rfl
    | raise e => rfl
    | call c k =>
      cases c with
      | transactions op => rfl
      | customers op =>
        cases op with
        | updateOne q u =>
          have hinc : u.inc = 0 := hp.head.1
          rw [pending, hinc, ite_self]
          rfl
        | findOne q => rfl
        | find q => rfl
        | insertOne d => rfl
        | deleteOne q => rfl
        | deleteMany q => rfl

/-- An ended session owes nothing. -/
theorem pending_of_outcome {x : Session DbCall DbCall.Answer Exn α} (h : x.outcome ≠ none)
    (a : ObjectId) : pending x.rest a = 0 := by
  cases hrest : x.rest with
  | ret b => rfl
  | raise e => rfl
  | call c k => exact absurd (Session.outcome_call hrest) h

end At

/-! ### The conservation law -/

/-- The running figures of a customer, zero if it is not stored. -/
def Store.figures (s : Store) (a : ObjectId) : Totals :=
  s.customers.account (fun c => some c.id) CustomerDoc.totals a

/-- The identifiers of the stored customers. -/
def Store.customerIds (s : Store) : List ObjectId := s.customers.docs.map CustomerDoc.id

theorem figures_of_mem {s : Store} {c : Customer} (hc : c ∈ s.customers.docs) :
    s.figures c.id = c.totals := account_key hc

theorem figures_congr {s s' : Store}
    (h : s'.customers.docs.map (fun c => (c.id, c.totals)) =
      s.customers.docs.map fun c => (c.id, c.totals)) (a : ObjectId) :
    s'.figures a = s.figures a := by
  have hpair : ∀ s : Store, s.figures a = ((s.customers.docs.map fun c => (c.id, c.totals)).map
      fun p => if some p.1 = some a then p.2 else 0).sum := by
    intro s
    rw [List.map_map]
    rfl
  rw [hpair, hpair, h]

theorem customerIds_congr {s s' : Store}
    (h : s'.customers.docs.map (fun c => (c.id, c.totals)) =
      s.customers.docs.map fun c => (c.id, c.totals)) : s'.customerIds = s.customerIds := by
  have hfst := congrArg (List.map Prod.fst) h
  rw [List.map_map, List.map_map] at hfst
  exact hfst

/-- An `$inc` moves the figures of a stored customer. -/
theorem figures_updateOne {s : Store} {a : ObjectId} (ha : a ∈ s.customerIds) (oid : ObjectId)
    (u : CustomerUpdate) :
    ({ s with customers := s.customers.updateOne { id := some oid } u } : Store).figures a =
      s.figures a + if oid = a then u.inc else 0 := by
  cases hfind : s.customers.findOne { id := some oid } with
  | none =>
    -- `a` is stored, so the customer that is missing is another one
    obtain ⟨c, hc, rfl⟩ := List.mem_map.mp ha
    have hne : oid ≠ c.id := by
      rintro rfl
      rw [findOne_customer.mpr ⟨hc, rfl⟩] at hfind
      exact absurd hfind (by simp)
    rw [updateOne_of_findOne_eq_none hfind, if_neg hne, add_zero]
  | some c =>
    obtain ⟨hc, rfl⟩ := findOne_customer.mp hfind
    have haccount : (s.customers.updateOne { id := some c.id } u).account
        (fun c => some c.id) CustomerDoc.totals a =
          s.customers.account (fun c => some c.id) CustomerDoc.totals a +
            if some c.id = some a then (u.apply c).totals - c.totals else 0 :=
      account_updateOne hfind rfl a
    rw [totals_apply, add_sub_cancel_left] at haccount
    rw [Store.figures, haccount, Store.figures]
    simp only [Option.some.injEq]

theorem customerIds_updateOne (s : Store) (q : CustomerQuery) (u : CustomerUpdate) :
    ({ s with customers := s.customers.updateOne q u } : Store).customerIds = s.customerIds :=
  map_updateOne (fun _ => rfl) q s.customers

namespace Stage

/-- By how much a step moves figures and transactions apart: what the session will add
to the figures, less what its write has done to the transactions. -/
def slip : Stage → Store → ObjectId → Totals
  | writing t w, s, a =>
    (if t.owner = some a then t.delta w else 0) -
      match s.transactions.findOne { id := some t.id } with
      | some stored => if stored.owner = some a then stored.delta w else 0
      | none => 0
  | _, _, _ => 0

variable {s s' : Store} {st st' : Stage}

theorem Step.customerIds (h : Step s st s' st') : s'.customerIds = s.customerIds := by
  cases h with
  | quiet hT hC => exact customerIds_congr hC
  | checkFails => rfl
  | check t => rfl
  | insertFails t => rfl
  | insert hT => rfl
  | readFails oid w => rfl
  | read ht w => rfl
  | write t w => rw [Store.customerIds, customers_write, Store.customerIds]
  | inc oid u => exact customerIds_updateOne s _ u

/-- A session comes to write a transaction by reading it. -/
theorem Step.eq_reading {t : Transaction} {w : Option TransactionUpdate}
    (h : Step s st s' (.writing t w)) :
    st = .reading t.id w ∧ t ∈ s.transactions.docs ∧ s' = s := by
  generalize hst' : Stage.writing t w = st' at h
  cases h with
  | read ht w' =>
    obtain ⟨rfl, rfl⟩ := Stage.writing.inj hst'
    exact ⟨rfl, ht, rfl⟩
  | insert hT => exact absurd hst'.symm (settling_ne_writing _ _ _ _)
  | write t' w' => exact absurd hst'.symm (settling_ne_writing _ _ _ _)
  | quiet hT hC => exact Stage.noConfusion hst'
  | checkFails => exact Stage.noConfusion hst'
  | check t' => exact Stage.noConfusion hst'
  | insertFails t' => exact Stage.noConfusion hst'
  | readFails oid w' => exact Stage.noConfusion hst'
  | inc oid u => exact Stage.noConfusion hst'

/-- A session reads a transaction only to begin with. -/
theorem Step.ne_reading (h : Step s st s' st') (oid : ObjectId)
    (w : Option TransactionUpdate) : st' ≠ .reading oid w := by
  cases h with
  | insert hT => exact settling_ne_reading _ _ _ _
  | write t w' => exact settling_ne_reading _ _ _ _
  | read ht w' => exact Stage.noConfusion
  | quiet hT hC => exact Stage.noConfusion
  | checkFails => exact Stage.noConfusion
  | check t => exact Stage.noConfusion
  | insertFails t => exact Stage.noConfusion
  | readFails oid' w' => exact Stage.noConfusion
  | inc oid' u => exact Stage.noConfusion

/-- A step leaves a stored transaction as it is, unless it writes that one. -/
theorem Step.mem_transactions (h : Step s st s' st') {t : Transaction}
    (ht : t ∈ s.transactions.docs) (hother : ∀ t' w, st = .writing t' w → t'.id ≠ t.id) :
    t ∈ s'.transactions.docs := by
  cases h with
  | quiet hT hC =>
    rw [hT]
    exact ht
  | @insert t' T hT =>
    have hdocs : T.docs = s.transactions.docs ++ [t'] := docs_insertOne hT
    have hmem : t ∈ T.docs := by
      rw [hdocs]
      exact List.mem_append_left _ ht
    exact hmem
  | write t' w => exact mem_write_of_ne w ht (hother t' w rfl).symm
  | inc oid u => exact ht
  | checkFails => exact ht
  | check t' => exact ht
  | insertFails t' => exact ht
  | readFails oid w => exact ht
  | read ht' w => exact ht

/-- **The conservation law of a single step**: figures, amounts still owed and the
amounts of the transactions stay in balance, but for the slip of a write. -/
theorem Step.gap (h : Step s st s' st') {a : ObjectId} (ha : a ∈ s.customerIds) :
    s'.figures a + st'.pending a - s'.effects a =
      s.figures a + st.pending a - s.effects a + st.slip s a := by
  cases h with
  | quiet hT hC =>
    rw [figures_congr hC, effects_of_transactions_eq hT]
    exact (add_zero _).symm
  | checkFails => exact (add_zero _).symm
  | check t => exact (add_zero _).symm
  | insertFails t => exact (add_zero _).symm
  | readFails oid w => exact (add_zero _).symm
  | read ht w => exact (add_zero _).symm
  | @insert t T hT =>
    rw [effects_insertOne hT, pending_settling]
    change s.figures a + share TransactionDoc.owner TransactionDoc.effect a t - _ =
      s.figures a + 0 - s.effects a + 0
    abel
  | write t w =>
    have hfigures : (s.write t.id w).figures a = s.figures a := by
      rw [Store.figures, customers_write, Store.figures]
    have hpending : (writing t w).pending a = 0 := rfl
    rw [hfigures, hpending, pending_settling, slip]
    cases hfind : s.transactions.findOne { id := some t.id } with
    | none =>
      -- another session has deleted the transaction: this write changes nothing
      have hgone : ∀ t' ∈ s.transactions.docs, t'.id ≠ t.id := by
        intro t' ht' hid
        rw [findOne_transaction.mpr ⟨ht', hid⟩] at hfind
        exact absurd hfind (by simp)
      rw [write_of_notMem hgone]
      dsimp only
      rw [add_zero, sub_zero, add_sub_right_comm]
    | some stored =>
      -- the write moves the effects by the difference from what is stored, not from `t`
      obtain ⟨hstored, hid⟩ := findOne_transaction.mp hfind
      rw [← hid, effects_write hstored]
      dsimp only
      abel
  | inc oid u =>
    rw [figures_updateOne ha]
    change s.figures a + (if oid = a then u.inc else 0) + 0 - s.effects a =
      s.figures a + (if oid = a then u.inc else 0) - s.effects a + 0
    abel

end Stage

/-! ### Sessions of a system -/

section Systems

variable {ι α : Type} [DecidableEq ι]

/-- Sessions on the ledger. -/
abbrev Sessions (ι α : Type) := System ι Store DbCall DbCall.Answer Exn α

variable {x : Sessions ι α} {i : ι} {st : Stage}

/-- A step of a session is a step of the machine. -/
theorem At.system_step (h : At st (x.sessions i).rest) :
    ∃ st', Stage.Step x.store st (x.step exec i).store st' ∧
      At st' ((x.step exec i).sessions i).rest := by
  cases hrest : (x.sessions i).rest with
  | call c k =>
    rw [hrest] at h
    obtain ⟨st', hstep, hat⟩ := h.step x.store
    refine ⟨st', ?_, ?_⟩
    · rw [System.store_step_call hrest]
      exact hstep
    · rw [System.sessions_step_self hrest]
      exact hat
  -- an ended session stands still, and it can only be at the quiet stage
  | ret a =>
    rw [System.step_of_outcome (Session.outcome_ret hrest), hrest]
    rw [hrest] at h
    refine ⟨.quiet, ?_, .quiet (.ret a)⟩
    cases h with
    | quiet hp => exact .quiet rfl rfl
  | raise e =>
    rw [System.step_of_outcome (Session.outcome_raise hrest), hrest]
    rw [hrest] at h
    refine ⟨.quiet, ?_, .quiet (.raise e)⟩
    cases h with
    | quiet hp => exact .quiet rfl rfl

variable [Fintype ι]

/-- How far the figures of a customer are from its transactions, once every session
has applied what it still owes. -/
def Sessions.gap (x : Sessions ι α) (a : ObjectId) : Totals :=
  x.store.figures a + ∑ i, pending (x.sessions i).rest a - x.store.effects a

/-- **The conservation law of the system**: a step moves the gap by the slip of the
session that takes it. -/
theorem Sessions.gap_step (h : At st (x.sessions i).rest) {a : ObjectId}
    (ha : a ∈ x.store.customerIds) :
    Sessions.gap (x.step exec i) a = Sessions.gap x a + st.slip x.store a := by
  obtain ⟨st', hstep, hat⟩ := h.system_step
  have hgap := hstep.gap ha
  have hsum := System.sum_step (h := exec) (x := x) (i := i) fun t => pending t.rest a
  rw [hat.pending_eq, h.pending_eq] at hsum
  rw [Sessions.gap, Sessions.gap, hsum]
  set y := x.step exec i with hy
  set owed := ∑ j, pending (x.sessions j).rest a with howed
  calc y.store.figures a + (owed + (st'.pending a - st.pending a)) - y.store.effects a
      = (y.store.figures a + st'.pending a - y.store.effects a) + (owed - st.pending a) := by abel
    _ = (x.store.figures a + st.pending a - x.store.effects a + st.slip x.store a) +
          (owed - st.pending a) := by rw [hgap]
    _ = x.store.figures a + owed - x.store.effects a + st.slip x.store a := by abel

omit [DecidableEq ι] in
/-- What the gap says of a stored customer. -/
theorem Sessions.gap_of_mem {c : Customer} (hc : c ∈ x.store.customers.docs) :
    Sessions.gap x c.id =
      c.totals + ∑ i, pending (x.sessions i).rest c.id - x.store.effects c.id := by
  rw [Sessions.gap, figures_of_mem hc]

omit [DecidableEq ι] in
/-- Once every session has ended, the figures are exact if there is no gap. -/
theorem Sessions.exact_iff_gap (hfinished : x.Finished) :
    x.store.Exact ↔ ∀ c ∈ x.store.customers.docs, Sessions.gap x c.id = 0 := by
  have hgap : ∀ c ∈ x.store.customers.docs,
      Sessions.gap x c.id = c.totals - x.store.effects c.id := by
    intro c hc
    have hsum : ∑ i, pending (x.sessions i).rest c.id = 0 :=
      Finset.sum_eq_zero fun i _ => pending_of_outcome (hfinished i) c.id
    rw [Sessions.gap_of_mem hc, hsum, add_zero]
  constructor
  · intro hexact c hc
    rw [hgap c hc, hexact c hc, sub_self]
  · intro hzero c hc
    have hbalance := hzero c hc
    rw [hgap c hc] at hbalance
    exact sub_eq_zero.mp hbalance

end Systems

end DigitalLedger
