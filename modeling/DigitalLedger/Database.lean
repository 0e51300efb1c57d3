import DigitalLedger.Lib.Collection
import DigitalLedger.Lib.Prog
import DigitalLedger.ObjectId
import Mathlib.Algebra.Order.Field.Rat

/-!
# The database

The application keeps its ledger in two MongoDB collections, `customers` and
`transactions`, reached through `database.py`.  This module fixes the documents
of the two collections, the queries and updates the application sends, and what
the database answers.  Amounts are exact numbers, and a date is the millisecond
count MongoDB stores.

## Main definitions

* `CustomerDoc`, `TransactionDoc` — the documents, over the type of their `_id`:
  an `ObjectId` in the database, its text in what the application returns.
* `Totals` — the three running figures a customer carries, as one quantity.
* `CustomerQuery`, `CustomerUpdate`, `TransactionQuery`, `TransactionUpdate` —
  the filters and the `$inc`/`$set` updates of the application.
* `Store` — the two collections.
* `DbCall`, `exec`, `Db` — a call on the database, its answer, and the programs
  that make such calls.
-/

namespace DigitalLedger

/-- A date, in milliseconds since the epoch. -/
abbrev Time := ℤ

/-- The two kinds of transaction, `"credit"` and `"payment"`. -/
inductive TxnType
  | credit
  | payment
  deriving DecidableEq, Repr

/-- The value of the `type` field, when the text is one of the two the application
accepts. -/
def TxnType.ofString? : String → Option TxnType
  | "credit" => some .credit
  | "payment" => some .payment
  | _ => none

/-- The text of the `type` field. -/
def TxnType.str : TxnType → String
  | .credit => "credit"
  | .payment => "payment"

/-- The values of the `risk_category` field. -/
inductive RiskCategory
  | excellent
  | lowRisk
  | mediumRisk
  | highRisk
  | defaulter
  deriving DecidableEq, Repr

/-- The text of the `risk_category` field. -/
def RiskCategory.str : RiskCategory → String
  | .excellent => "Excellent"
  | .lowRisk => "Low Risk"
  | .mediumRisk => "Medium Risk"
  | .highRisk => "High Risk"
  | .defaulter => "Defaulter"

/-! ### Totals -/

/-- The three running figures of a customer: what `$inc` adds to, in one update. -/
@[ext] structure Totals where
  balance : ℚ
  totalCredit : ℚ
  totalPaid : ℚ
  deriving DecidableEq

namespace Totals

instance : Zero Totals := ⟨⟨0, 0, 0⟩⟩
instance : Add Totals :=
  ⟨fun a b => ⟨a.balance + b.balance, a.totalCredit + b.totalCredit, a.totalPaid + b.totalPaid⟩⟩
instance : Neg Totals := ⟨fun a => ⟨-a.balance, -a.totalCredit, -a.totalPaid⟩⟩
instance : Sub Totals :=
  ⟨fun a b => ⟨a.balance - b.balance, a.totalCredit - b.totalCredit, a.totalPaid - b.totalPaid⟩⟩

@[simp] theorem balance_zero : (0 : Totals).balance = 0 := rfl
@[simp] theorem totalCredit_zero : (0 : Totals).totalCredit = 0 := rfl
@[simp] theorem totalPaid_zero : (0 : Totals).totalPaid = 0 := rfl

@[simp] theorem balance_add (a b : Totals) : (a + b).balance = a.balance + b.balance := rfl
@[simp] theorem totalCredit_add (a b : Totals) :
    (a + b).totalCredit = a.totalCredit + b.totalCredit := rfl
@[simp] theorem totalPaid_add (a b : Totals) :
    (a + b).totalPaid = a.totalPaid + b.totalPaid := rfl

@[simp] theorem balance_neg (a : Totals) : (-a).balance = -a.balance := rfl
@[simp] theorem totalCredit_neg (a : Totals) : (-a).totalCredit = -a.totalCredit := rfl
@[simp] theorem totalPaid_neg (a : Totals) : (-a).totalPaid = -a.totalPaid := rfl

@[simp] theorem balance_sub (a b : Totals) : (a - b).balance = a.balance - b.balance := rfl
@[simp] theorem totalCredit_sub (a b : Totals) :
    (a - b).totalCredit = a.totalCredit - b.totalCredit := rfl
@[simp] theorem totalPaid_sub (a b : Totals) :
    (a - b).totalPaid = a.totalPaid - b.totalPaid := rfl

instance : AddCommGroup Totals where
  add_assoc a b c := by ext <;> exact add_assoc _ _ _
  zero_add a := by ext <;> exact zero_add _
  add_zero a := by ext <;> exact add_zero _
  add_comm a b := by ext <;> exact add_comm _ _
  neg_add_cancel a := by ext <;> exact neg_add_cancel _
  sub_eq_add_neg a b := by ext <;> exact sub_eq_add_neg _ _
  nsmul := nsmulRec
  zsmul := zsmulRec

/-- The projections to the figures, as homomorphisms. -/
def balanceHom : Totals →+ ℚ := ⟨⟨balance, rfl⟩, fun _ _ => rfl⟩
def totalCreditHom : Totals →+ ℚ := ⟨⟨totalCredit, rfl⟩, fun _ _ => rfl⟩
def totalPaidHom : Totals →+ ℚ := ⟨⟨totalPaid, rfl⟩, fun _ _ => rfl⟩

end Totals

/-! ### Documents -/

/-- A document of the `customers` collection. -/
structure CustomerDoc (ι : Type) where
  id : ι
  merchantId : String
  name : String
  phone : String
  address : String
  balance : ℚ
  totalCredit : ℚ
  totalPaid : ℚ
  creditScore : ℤ
  riskCategory : RiskCategory
  /-- The hash of the portal PIN, empty when none is set. -/
  portalPin : String
  createdAt : Time
  lastTransaction : Option Time
  deriving DecidableEq

/-- A document of the `transactions` collection; it refers to its customer by the
text of an identifier. -/
structure TransactionDoc (ι : Type) where
  id : ι
  merchantId : String
  customerId : String
  customerName : String
  type : TxnType
  amount : ℚ
  note : String
  date : Time
  edited : Bool
  editedAt : Option Time
  deriving DecidableEq

abbrev Customer := CustomerDoc ObjectId
abbrev Transaction := TransactionDoc ObjectId

/-- `c["_id"] = str(c["_id"])`. -/
def CustomerDoc.withStrId (c : Customer) : CustomerDoc String := { c with id := c.id.str }

/-- `t["_id"] = str(t["_id"])`. -/
def TransactionDoc.withStrId (t : Transaction) : TransactionDoc String :=
  { t with id := t.id.str }

/-- The running figures of a customer. -/
def CustomerDoc.totals {ι : Type} (c : CustomerDoc ι) : Totals :=
  ⟨c.balance, c.totalCredit, c.totalPaid⟩

/-! ### Queries and updates -/

/-- A filter on `customers`; a field left out does not constrain. -/
structure CustomerQuery where
  id : Option ObjectId := none
  merchantId : Option String := none
  phone : Option String := none
  /-- `{"balance": {"$gt": x}}` -/
  balanceGt : Option ℚ := none

/-- An update of a customer: `$inc` of the running figures and `$set` of the
fields given. -/
structure CustomerUpdate where
  inc : Totals := 0
  lastTransaction : Option Time := none
  portalPin : Option String := none
  creditScore : Option ℤ := none
  riskCategory : Option RiskCategory := none

/-- A filter on `transactions`; a field left out does not constrain. -/
structure TransactionQuery where
  id : Option ObjectId := none
  merchantId : Option String := none
  customerId : Option String := none

/-- An update of a transaction: `$set` of all four fields, as `edit_transaction`
sends it. -/
structure TransactionUpdate where
  amount : ℚ
  note : String
  edited : Bool
  editedAt : Time

def CustomerQuery.test (q : CustomerQuery) (c : Customer) : Bool :=
  q.id.all (· == c.id) && q.merchantId.all (· == c.merchantId) &&
    q.phone.all (· == c.phone) && q.balanceGt.all fun x => decide (x < c.balance)

def CustomerUpdate.apply (u : CustomerUpdate) (c : Customer) : Customer :=
  { c with
    balance := c.balance + u.inc.balance
    totalCredit := c.totalCredit + u.inc.totalCredit
    totalPaid := c.totalPaid + u.inc.totalPaid
    lastTransaction := u.lastTransaction.or c.lastTransaction
    portalPin := u.portalPin.getD c.portalPin
    creditScore := u.creditScore.getD c.creditScore
    riskCategory := u.riskCategory.getD c.riskCategory }

def TransactionQuery.test (q : TransactionQuery) (t : Transaction) : Bool :=
  q.id.all (· == t.id) && q.merchantId.all (· == t.merchantId) &&
    q.customerId.all (· == t.customerId)

def TransactionUpdate.apply (u : TransactionUpdate) (t : Transaction) : Transaction :=
  { t with
    amount := u.amount
    note := u.note
    edited := u.edited
    editedAt := some u.editedAt }

instance : Document Customer ObjectId CustomerQuery CustomerUpdate where
  key := CustomerDoc.id
  test := CustomerQuery.test
  apply := CustomerUpdate.apply
  key_apply _ _ := rfl

instance : Document Transaction ObjectId TransactionQuery TransactionUpdate where
  key := TransactionDoc.id
  test := TransactionQuery.test
  apply := TransactionUpdate.apply
  key_apply _ _ := rfl

/-! ### The store and its calls -/

/-- The two collections of the ledger. -/
structure Store where
  customers : Collection Customer
  transactions : Collection Transaction

/-- The empty database. -/
def Store.empty : Store := ⟨.empty, .empty⟩

/-- The exceptions a call of the application can end in. -/
inductive Exn
  /-- `bson.errors.InvalidId`, from `ObjectId(text)`. -/
  | invalidId (text : String)
  /-- `pymongo.errors.DuplicateKeyError`, from `insert_one`. -/
  | duplicateKeyError
  /-- `AttributeError`, from an attribute the object does not have. -/
  | attributeError (object attr : String)
  /-- An exception of `pandas.read_excel`, with its text. -/
  | readError (message : String)
  /-- Any other exception of the database driver, with its text. -/
  | databaseError (message : String)
  deriving DecidableEq, Repr

/-- `str(e)`; the server adds the offending key to a duplicate key error. -/
def Exn.str : Exn → String
  | .invalidId text =>
    s!"'{text}' is not a valid ObjectId, it must be a 12-byte input or a 24-character hex string"
  | .duplicateKeyError => "E11000 duplicate key error"
  | .attributeError object attr => s!"'{object}' object has no attribute '{attr}'"
  | .readError message => message
  | .databaseError message => message

/-- A call on one of the collections. -/
inductive DbCall
  | customers (op : Op Customer CustomerQuery CustomerUpdate)
  | transactions (op : Op Transaction TransactionQuery TransactionUpdate)

/-- The type of the answer to a call. -/
@[reducible] def DbCall.Answer : DbCall → Type
  | .customers op => op.Answer
  | .transactions op => op.Answer

/-- The database: each call is one atomic step on one collection. -/
def exec : Handler DbCall DbCall.Answer Exn Store
  | .customers op, s =>
    let r := op.exec Exn.duplicateKeyError s.customers
    (r.1, { s with customers := r.2 })
  | .transactions op, s =>
    let r := op.exec Exn.duplicateKeyError s.transactions
    (r.1, { s with transactions := r.2 })

/-- Programs over the database. -/
abbrev Db := Prog DbCall DbCall.Answer Exn

/-- `ObjectId(text)` inside a program: it raises on a malformed text. -/
def objectId (text : String) : Db ObjectId :=
  match ObjectId.ofString? text with
  | some oid => .ret oid
  | none => .raise (.invalidId text)

/-- A single call on the database. -/
def query (c : DbCall) : Db c.Answer := Prog.perform c

namespace CustomersCol

def findOne (q : CustomerQuery) : Db (Option Customer) := query (.customers (.findOne q))
def find (q : CustomerQuery) : Db (List Customer) := query (.customers (.find q))
def insertOne (c : Customer) : Db Unit := query (.customers (.insertOne c))
def updateOne (q : CustomerQuery) (u : CustomerUpdate) : Db UpdateResult :=
  query (.customers (.updateOne q u))
def deleteOne (q : CustomerQuery) : Db ℕ := query (.customers (.deleteOne q))

end CustomersCol

namespace TransactionsCol

def findOne (q : TransactionQuery) : Db (Option Transaction) :=
  query (.transactions (.findOne q))
def find (q : TransactionQuery) : Db (List Transaction) := query (.transactions (.find q))
def insertOne (t : Transaction) : Db Unit := query (.transactions (.insertOne t))
def updateOne (q : TransactionQuery) (u : TransactionUpdate) : Db UpdateResult :=
  query (.transactions (.updateOne q u))
def deleteOne (q : TransactionQuery) : Db ℕ := query (.transactions (.deleteOne q))
def deleteMany (q : TransactionQuery) : Db ℕ := query (.transactions (.deleteMany q))

end TransactionsCol

/-! ### What the application supplies and returns -/

/-- What a call of the application takes from its surroundings: the identifiers
`ObjectId()` generates, the readings of `datetime.utcnow()` and the salt
`bcrypt.gensalt()` draws, in the order in which the call asks for them. -/
structure Env where
  objectId : ℕ → ObjectId
  utcnow : ℕ → Time
  gensalt : String

/-- Surroundings that supply the identifiers from number `n` on and one reading of
the clock. -/
def Env.sample (n : ℕ) (now : Time) : Env where
  objectId k := ObjectId.ofNat (n + k)
  utcnow _ := now
  gensalt := ""

/-- `{"success": True, ...}` or `{"success": False, "message": ...}`. -/
inductive Reply (α : Type)
  | success (value : α)
  | failure (message : String)
  deriving DecidableEq, Repr

def Reply.map {α β : Type} (f : α → β) : Reply α → Reply β
  | .success a => .success (f a)
  | .failure message => .failure message

end DigitalLedger
