import DigitalLedger.Calls

/-!
# The shape of the operations

Properties of an operation that is cut short or interleaved with others depend on
the order of its calls.  This module takes the operations on money apart at the
calls that write: what is left to do once a transaction is written is a program of
its own, the same for an edit and a deletion.  Where an operation need not be taken
apart, it is enough to know which calls it is able to make.

## Main definitions

* `recordFor`, `amendFor`, `voidFor` — the operations on money, once their arguments
  are accepted.
* `settle`, `conclude` — what is left to do once a transaction is written.
* `Record`, `rowRecord` — what a row of an import says of a customer.
* `DbCall.Scoring` — the calls of `compute_credit_score`.
* `DbCall.RegistersNone` — the calls that insert no customer.

## Main results

* `addTransaction_eq`, `editTransaction_eq`, `deleteTransaction_eq` — the operations
  on money, taken apart.
* `importRow_eq` — the body of the import's loop, by the record of its row.
* `uses_computeCreditScore`, `uses_deleteCustomer`, `uses_updateCustomerPin`,
  `uses_addCustomer`, `uses_importCustomersFromExcel`, `uses_addTransaction`,
  `uses_editTransaction`, `uses_deleteTransaction` — the calls the operations may make.
-/

namespace DigitalLedger

open Prog

/-! ### Taking the operations apart -/

/-- What `edit_transaction` and `delete_transaction` do once they have written the
transaction: they move the figures of its customer by `δ` and score it. -/
def settle (cid : String) (δ : Totals) (now : Time) : Db (Reply Unit) := do
  let coid ← objectId cid
  let _ ← CustomersCol.updateOne { id := some coid } { inc := δ }
  let _ ← computeCreditScore now cid
  return .success ()

/-- What `add_transaction` does once it has inserted the transaction. -/
def conclude (oid : ObjectId) (cid : String) (δ : Totals) (last now : Time) :
    Db (Reply ℚ) := do
  let _ ← CustomersCol.updateOne { id := some oid } { inc := δ, lastTransaction := some last }
  let _ ← computeCreditScore now cid
  match ← CustomersCol.findOne { id := some oid } with
  | none => .raise (.attributeError "NoneType" "get")
  | some updated => return .success updated.balance

/-- `add_transaction` of an accepted amount and type, for an identifier. -/
def recordFor (env : Env) (m cid : String) (oid : ObjectId) (type : TxnType) (amount : ℚ)
    (note : String) : Db (Reply ℚ) := do
  match ← CustomersCol.findOne { id := some oid, merchantId := some m } with
  | none => return .failure "Customer not found."
  | some customer =>
    TransactionsCol.insertOne (newTransaction env m cid customer type amount note)
    conclude oid cid (type.effect amount) (env.utcnow 1) (env.utcnow 2)

/-- `edit_transaction` of an identifier. -/
def amendFor (env : Env) (oid : ObjectId) (m : String) (amount : ℚ) (note : String) :
    Db (Reply Unit) := do
  match ← TransactionsCol.findOne { id := some oid, merchantId := some m } with
  | none => return .failure "Transaction not found."
  | some t =>
    let _ ← TransactionsCol.updateOne { id := some oid } ⟨amount, note, true, env.utcnow 0⟩
    settle t.customerId (t.type.effect amount - t.effect) (env.utcnow 1)

/-- `delete_transaction` of an identifier. -/
def voidFor (env : Env) (oid : ObjectId) (m : String) : Db (Reply Unit) := do
  match ← TransactionsCol.findOne { id := some oid, merchantId := some m } with
  | none => return .failure "Transaction not found."
  | some t =>
    let _ ← TransactionsCol.deleteOne { id := some oid }
    settle t.customerId (-t.effect) (env.utcnow 0)

theorem objectId_eq_ret {text : String} {oid : ObjectId}
    (h : ObjectId.ofString? text = some oid) : objectId text = .ret oid := by rw [objectId, h]

theorem objectId_eq_raise {text : String} (h : ObjectId.ofString? text = none) :
    objectId text = .raise (.invalidId text) := by rw [objectId, h]

theorem addTransaction_eq (env : Env) (m cid txnType : String) (amount : ℚ) (note : String) :
    addTransaction env m cid txnType amount note =
      if amount ≤ 0 then .ret (.failure "Amount must be positive.")
      else
        match TxnType.ofString? txnType with
        | none => .ret (.failure "Invalid transaction type.")
        | some type =>
          match ObjectId.ofString? cid with
          | none => .raise (.invalidId cid)
          | some oid => recordFor env m cid oid type amount note := by
  rw [addTransaction]
  refine if_congr Iff.rfl rfl ?_
  cases TxnType.ofString? txnType with
  | none => rfl
  | some type =>
    cases hcid : ObjectId.ofString? cid with
    | none =>
      rw [objectId_eq_raise hcid]
      rfl
    | some oid =>
      rw [objectId_eq_ret hcid]
      cases type with
      | credit => rfl
      | payment => rfl

theorem editTransaction_eq (env : Env) (tid m : String) (amount : ℚ) (note : String) :
    editTransaction env tid m amount note =
      match ObjectId.ofString? tid with
      | none => .raise (.invalidId tid)
      | some oid => amendFor env oid m amount note := by
  rw [editTransaction]
  cases htid : ObjectId.ofString? tid with
  | none =>
    rw [objectId_eq_raise htid]
    rfl
  | some oid =>
    rw [objectId_eq_ret htid, ret_bind]
    refine congrArg _ (funext fun found => ?_)
    cases found with
    | none => rfl
    | some t =>
      have hδ : t.type.effect amount - t.effect =
          if t.type = .credit then ⟨amount - t.amount, amount - t.amount, 0⟩
          else ⟨-(amount - t.amount), 0, amount - t.amount⟩ := by
        unfold TransactionDoc.effect
        cases t.type <;> ext <;> simp [TxnType.effect, neg_add_eq_sub]
      dsimp only
      rw [settle, hδ]
      split <;> rfl

theorem deleteTransaction_eq (env : Env) (tid m : String) :
    deleteTransaction env tid m =
      match ObjectId.ofString? tid with
      | none => .raise (.invalidId tid)
      | some oid => voidFor env oid m := by
  rw [deleteTransaction]
  cases htid : ObjectId.ofString? tid with
  | none =>
    rw [objectId_eq_raise htid]
    rfl
  | some oid =>
    rw [objectId_eq_ret htid, ret_bind]
    refine congrArg _ (funext fun found => ?_)
    cases found with
    | none => rfl
    | some t =>
      have hδ : -t.effect = ⟨if t.type = .credit then -t.amount else t.amount,
          if t.type = .credit then -t.amount else 0,
          if t.type = .payment then -t.amount else 0⟩ := by
        unfold TransactionDoc.effect
        cases t.type <;> ext <;> simp [TxnType.effect]
      dsimp only
      rw [settle, hδ]

/-- `add_transaction` is refused before its first call, or it records. -/
theorem addTransaction_cases (env : Env) (m cid txnType : String) (amount : ℚ) (note : String) :
    (∃ message, addTransaction env m cid txnType amount note = .ret (.failure message)) ∨
      addTransaction env m cid txnType amount note = .raise (.invalidId cid) ∨
      ∃ type oid, 0 < amount ∧ TxnType.ofString? txnType = some type ∧
        ObjectId.ofString? cid = some oid ∧
        addTransaction env m cid txnType amount note =
          recordFor env m cid oid type amount note := by
  rw [addTransaction_eq]
  by_cases hamount : amount ≤ 0
  · rw [if_pos hamount]
    exact .inl ⟨_, rfl⟩
  rw [if_neg hamount]
  cases TxnType.ofString? txnType with
  | none => exact .inl ⟨_, rfl⟩
  | some type =>
    cases ObjectId.ofString? cid with
    | none => exact .inr (.inl rfl)
    | some oid => exact .inr (.inr ⟨type, oid, not_le.mp hamount, rfl, rfl, rfl⟩)

/-! ### A row of the import -/

/-- The fields of a customer an import supplies. -/
structure Record where
  name : String
  phone : String
  address : String
  deriving DecidableEq

/-- The fields the import reads off a row. -/
def rowRecord (df : DataFrame) (columns : List String) (row : Row) : Record where
  name := strip (rowText df columns row "name")
  phone := strip (rowText df columns row "phone")
  address := if "address" ∈ columns then strip (rowText df columns row "address") else ""

/-- The row has a name and a phone. -/
def Record.Usable (r : Record) : Prop :=
  ¬(r.name = "" ∨ r.phone = "" ∨ r.name = "nan" ∨ r.phone = "nan")

instance (r : Record) : Decidable r.Usable := inferInstanceAs (Decidable (¬_))

/-- The error of a row without a name or a phone. -/
def missingError (idx : ℕ) : String :=
  let line := idx + 2
  s!"Row {line}: missing name or phone — skipped"

/-- The error of a row whose customer is refused. -/
def refusedError (idx : ℕ) (r : Record) (message : String) : String :=
  let line := idx + 2
  let name := r.name
  s!"Row {line} ({name}): {message}"

/-- The reply to a row is counted. -/
def countReply (idx : ℕ) (r : Record) (results : ImportResults) : Reply String → Db ImportResults
  | .success _ => .ret { results with added := results.added + 1 }
  | .failure message => .ret (results.fail (refusedError idx r message))

/-- **The body of the loop**, by the record of the row. -/
theorem importRow_eq (bcrypt : Bcrypt) (env : Env) (m : String) (df : DataFrame)
    (columns : List String) (idx : ℕ) (row : Row) (results : ImportResults) {r : Record}
    (hr : rowRecord df columns row = r) :
    importRow bcrypt env m df columns idx row results =
      if r.Usable then
        addCustomer bcrypt (env.row idx) m r.name r.phone r.address "" >>=
          countReply idx r results
      else .ret (results.fail (missingError idx)) := by
  subst hr
  rw [importRow]
  split
  · next hmissing =>
    rw [if_neg (show ¬(rowRecord df columns row).Usable from not_not.mpr hmissing)]
    rfl
  · next hboth =>
    rw [if_pos (show (rowRecord df columns row).Usable from hboth)]
    refine congrArg (addCustomer _ _ _ _ _ _ _ >>= ·) (funext fun reply => ?_)
    cases reply with
    | success oid => rfl
    | failure message => rfl

/-- A row of the import is skipped, or its customer is added and the reply counted. -/
theorem importRow_cases (bcrypt : Bcrypt) (env : Env) (m : String) (df : DataFrame)
    (columns : List String) (idx : ℕ) (row : Row) (results : ImportResults) :
    (∃ results', importRow bcrypt env m df columns idx row results = .ret results') ∨
      ∃ name phone address, ∃ count : Reply String → Db ImportResults,
        importRow bcrypt env m df columns idx row results =
            addCustomer bcrypt (env.row idx) m name phone address "" >>= count ∧
          ∀ reply, ∃ results', count reply = .ret results' := by
  rw [importRow_eq bcrypt env m df columns idx row results rfl]
  split_ifs
  · refine .inr ⟨_, _, _, _, rfl, fun reply => ?_⟩
    cases reply with
    | success oid => exact ⟨_, rfl⟩
    | failure message => exact ⟨_, rfl⟩
  · exact .inl ⟨_, rfl⟩

/-! ### The calls they may make -/

variable {P : DbCall → Prop}

/-- The calls of `compute_credit_score`: it reads, and it sets fields of a customer
without moving its running figures or its PIN. -/
def DbCall.Scoring : DbCall → Prop
  | .customers (.findOne _) => True
  | .customers (.updateOne _ u) => u.inc = 0 ∧ u.portalPin = none
  | .transactions (.find _) => True
  | _ => False

/-- The calls that register no customer. -/
def DbCall.RegistersNone : DbCall → Prop
  | .customers (.insertOne _) => False
  | _ => True

theorem DbCall.Scoring.registersNone {c : DbCall} (hc : c.Scoring) : c.RegistersNone := by
  cases c with
  | transactions op => trivial
  | customers op =>
    cases op with
    | insertOne d => exact hc.elim
    | findOne q => trivial
    | find q => trivial
    | updateOne q u => trivial
    | deleteOne q => trivial
    | deleteMany q => trivial

theorem uses_objectId (text : String) : Uses P (objectId text) := by
  unfold objectId
  cases ObjectId.ofString? text with
  | none => exact .raise _
  | some oid => exact .ret _

theorem uses_query {c : DbCall} (hc : P c) : Uses P (query c) := Uses.perform hc

theorem uses_computeCreditScore (now : Time) (cid : String) :
    Uses DbCall.Scoring (computeCreditScore now cid) := by
  refine (uses_objectId cid).bind fun oid => ?_
  refine Uses.bind (uses_query trivial) fun found => ?_
  cases found with
  | none => exact .ret _
  | some c =>
    refine Uses.bind (uses_query trivial) fun txns => ?_
    refine Uses.bind (uses_query ⟨rfl, rfl⟩) fun _ => ?_
    exact .ret _

theorem uses_deleteCustomer (hdelete : ∀ q, P (.customers (.deleteOne q)))
    (hdeleteMany : ∀ q, P (.transactions (.deleteMany q))) (cid m : String) :
    Uses P (deleteCustomer cid m) := by
  refine (uses_objectId cid).bind fun oid => ?_
  refine Uses.bind (uses_query (hdelete _)) fun deleted => ?_
  split
  · exact Uses.bind (uses_query (hdeleteMany _)) fun _ => .ret _
  · exact .ret _

theorem uses_updateCustomerPin {bcrypt : Bcrypt}
    (hupdate : ∀ q pin, P (.customers (.updateOne q { portalPin := some pin }))) (env : Env)
    (cid m pin : String) : Uses P (updateCustomerPin bcrypt env cid m pin) := by
  refine (uses_objectId cid).bind fun oid => ?_
  refine Uses.bind (uses_query (hupdate _ _)) fun result => ?_
  split
  · exact .ret _
  · exact .ret _

section Registration

variable {bcrypt : Bcrypt} (hfind : ∀ q, P (.customers (.findOne q)))
  (hinsert : ∀ env m name phone address pin,
    P (.customers (.insertOne (newCustomer bcrypt env m name phone address pin))))

include hfind hinsert

theorem uses_addCustomer (env : Env) (m name phone address pin : String) :
    Uses P (addCustomer bcrypt env m name phone address pin) := by
  refine Uses.bind (uses_query (hfind _)) fun existing => ?_
  split
  · exact .ret _
  · refine Uses.bind (uses_query (hinsert _ _ _ _ _ _)) fun _ => ?_
    exact .ret _

theorem uses_importRow (env : Env) (m : String) (df : DataFrame) (columns : List String)
    (idx : ℕ) (row : Row) (results : ImportResults) :
    Uses P (importRow bcrypt env m df columns idx row results) := by
  rcases importRow_cases bcrypt env m df columns idx row results with
    ⟨results', heq⟩ | ⟨name, phone, address, count, heq, hcount⟩
  · rw [heq]
    exact .ret _
  · rw [heq]
    refine (uses_addCustomer hfind hinsert _ _ _ _ _ _).bind fun reply => ?_
    obtain ⟨results', hresults⟩ := hcount reply
    rw [hresults]
    exact .ret _

theorem uses_importRows (env : Env) (m : String) (df : DataFrame) (columns : List String)
    (rows : List Row) (idx : ℕ) (results : ImportResults) :
    Uses P (importRows bcrypt env m df columns idx rows results) := by
  induction rows generalizing idx results with
  | nil => exact .ret _
  | cons row rows ih =>
    have hrow := uses_importRow hfind hinsert env m df columns idx row results
    exact hrow.bind fun results' => ih (idx + 1) results'

omit hfind hinsert in
theorem uses_normaliseHeaders (headers : List Header) : Uses P (normaliseHeaders headers) := by
  induction headers with
  | nil => exact .ret _
  | cons header headers ih =>
    have hheader : Uses P (normaliseHeader header) := by
      cases header with
      | text name => exact .ret _
      | other typeName => exact .raise _
    exact hheader.bind fun name => ih.bind fun names => .ret _

theorem uses_importCustomersFromExcel (env : Env) (m : String)
    (file : Except String DataFrame) :
    Uses P (importCustomersFromExcel bcrypt env m file) := by
  refine Uses.catchWith ?_ fun e => .ret _
  cases file with
  | error message => exact .raise _
  | ok df =>
    refine (uses_normaliseHeaders df.columns).bind fun columns => ?_
    dsimp only
    split
    · exact .ret _
    · exact (uses_importRows hfind hinsert _ _ _ _ _ _ _).bind fun results => .ret _

end Registration

section Money

variable (hscoring : ∀ c, DbCall.Scoring c → P c)
  (hinc : ∀ q u, u.portalPin = none → P (.customers (.updateOne q u)))

include hscoring hinc

theorem uses_settle (cid : String) (δ : Totals) (now : Time) : Uses P (settle cid δ now) := by
  refine (uses_objectId cid).bind fun coid => ?_
  refine Uses.bind (uses_query (hinc _ _ rfl)) fun _ => ?_
  refine ((uses_computeCreditScore now cid).mono hscoring).bind fun _ => ?_
  exact .ret _

theorem uses_conclude (oid : ObjectId) (cid : String) (δ : Totals) (last now : Time) :
    Uses P (conclude oid cid δ last now) := by
  refine Uses.bind (uses_query (hinc _ _ rfl)) fun _ => ?_
  refine ((uses_computeCreditScore now cid).mono hscoring).bind fun _ => ?_
  refine Uses.bind (uses_query (hscoring _ trivial)) fun updated => ?_
  cases updated with
  | none => exact .raise _
  | some c' => exact .ret _

theorem uses_addTransaction (env : Env)
    (hinsert : ∀ m cid c type amount note,
      P (.transactions (.insertOne (newTransaction env m cid c type amount note))))
    (m cid txnType : String) (amount : ℚ) (note : String) :
    Uses P (addTransaction env m cid txnType amount note) := by
  rcases addTransaction_cases env m cid txnType amount note with
    ⟨message, heq⟩ | heq | ⟨type, oid, -, -, -, heq⟩
  · rw [heq]
    exact .ret _
  · rw [heq]
    exact .raise _
  · rw [heq]
    refine Uses.bind (uses_query (hscoring _ trivial)) fun found => ?_
    cases found with
    | none => exact .ret _
    | some c =>
      refine Uses.bind (uses_query (hinsert _ _ _ _ _ _)) fun _ => ?_
      exact uses_conclude hscoring hinc _ _ _ _ _

variable (hfindOne : ∀ q, P (.transactions (.findOne q)))

include hfindOne

theorem uses_editTransaction (hupdate : ∀ q u, P (.transactions (.updateOne q u))) (env : Env)
    (tid m : String) (amount : ℚ) (note : String) :
    Uses P (editTransaction env tid m amount note) := by
  rw [editTransaction_eq]
  cases ObjectId.ofString? tid with
  | none => exact .raise _
  | some oid =>
    refine Uses.bind (uses_query (hfindOne _)) fun found => ?_
    cases found with
    | none => exact .ret _
    | some t =>
      refine Uses.bind (uses_query (hupdate _ _)) fun _ => ?_
      exact uses_settle hscoring hinc _ _ _

theorem uses_deleteTransaction (hdelete : ∀ q, P (.transactions (.deleteOne q))) (env : Env)
    (tid m : String) : Uses P (deleteTransaction env tid m) := by
  rw [deleteTransaction_eq]
  cases ObjectId.ofString? tid with
  | none => exact .raise _
  | some oid =>
    refine Uses.bind (uses_query (hfindOne _)) fun found => ?_
    cases found with
    | none => exact .ret _
    | some t =>
      refine Uses.bind (uses_query (hdelete _)) fun _ => ?_
      exact uses_settle hscoring hinc _ _ _

end Money

end DigitalLedger
