import DigitalLedger.CreditScore

/-!
# Customers

The functions of `customers.py`, as programs over the database: each `find_one`,
`find`, `insert_one`, `update_one`, `delete_one` and `delete_many` of the source
is one call, in the order of the source.

## Main definitions

* `Bcrypt` — the hashing library, which is not part of the application;
  `Bcrypt.Ideal` is what is assumed of it where PINs matter.
* `addCustomer`, `customerPortalLogin`, `updateCustomerPin`, `getCustomers`,
  `getDefaulters`, `computeCreditScore`, `deleteCustomer`.
-/

namespace DigitalLedger

/-- The functions of the `bcrypt` package the application uses. -/
structure Bcrypt where
  /-- `bcrypt.hashpw(text.encode(), salt).decode()` -/
  hashpw : String → String → String
  /-- `bcrypt.checkpw(text.encode(), hashed.encode())` -/
  checkpw : String → String → Bool

/-- Hashing is ideal: a text verifies against exactly the hashes of itself, and a
hash is never the empty text. -/
structure Bcrypt.Ideal (bcrypt : Bcrypt) : Prop where
  checkpw_hashpw : ∀ text text' salt,
    bcrypt.checkpw text (bcrypt.hashpw text' salt) = true ↔ text = text'
  hashpw_ne_empty : ∀ text salt, bcrypt.hashpw text salt ≠ ""

/-- A hashing library that marks a text and keeps it. -/
def markingBcrypt : Bcrypt where
  hashpw text _ := "$" ++ text
  checkpw text hashed := hashed = "$" ++ text

/-- The assumption can be met. -/
theorem markingBcrypt_ideal : markingBcrypt.Ideal where
  checkpw_hashpw text text' _ := by
    have hcancel : "$" ++ text' = "$" ++ text ↔ text = text' := by
      rw [← String.toList_inj, String.toList_append, String.toList_append,
        List.append_cancel_left_eq, String.toList_inj, eq_comm]
    simpa [markingBcrypt] using hcancel
  hashpw_ne_empty text _ := by
    intro h
    have hlist := congrArg String.toList h
    rw [markingBcrypt, String.toList_append] at hlist
    simp at hlist

/-- `_hash_pin` -/
def hashPin (bcrypt : Bcrypt) (env : Env) (pin : String) : String :=
  bcrypt.hashpw pin env.gensalt

/-- `_verify_pin` -/
def verifyPin (bcrypt : Bcrypt) (pin hashed : String) : Bool := bcrypt.checkpw pin hashed

/-- The document `add_customer` inserts. -/
def newCustomer (bcrypt : Bcrypt) (env : Env)
    (merchantId name phone address portalPin : String) : Customer where
  id := env.objectId 0
  merchantId := merchantId
  name := name
  phone := phone
  address := address
  balance := 0
  totalCredit := 0
  totalPaid := 0
  creditScore := 100
  riskCategory := .lowRisk
  portalPin := if portalPin ≠ "" then hashPin bcrypt env portalPin else ""
  createdAt := env.utcnow 0
  lastTransaction := none

/-- `add_customer` -/
def addCustomer (bcrypt : Bcrypt) (env : Env)
    (merchantId name phone address portalPin : String) : Db (Reply String) := do
  let existing ← CustomersCol.findOne { merchantId := some merchantId, phone := some phone }
  if existing.isSome then
    return .failure "Customer with this phone already exists."
  else
    let customer := newCustomer bcrypt env merchantId name phone address portalPin
    CustomersCol.insertOne customer
    return .success customer.id.str

/-- `customer_portal_login` -/
def customerPortalLogin (bcrypt : Bcrypt) (phone pin : String) :
    Db (Reply (CustomerDoc String)) := do
  match ← CustomersCol.findOne { phone := some phone } with
  | none => return .failure "Phone number not found."
  | some customer =>
    if customer.portalPin = "" then
      return .failure "Portal access not set up. Ask your merchant."
    else if verifyPin bcrypt pin customer.portalPin = false then
      return .failure "Incorrect PIN."
    else
      return .success customer.withStrId

/-- `update_customer_pin` -/
def updateCustomerPin (bcrypt : Bcrypt) (env : Env) (customerId merchantId newPin : String) :
    Db (Reply Unit) := do
  let oid ← objectId customerId
  let result ← CustomersCol.updateOne { id := some oid, merchantId := some merchantId }
    { portalPin := some (hashPin bcrypt env newPin) }
  if result.modifiedCount ≠ 0 then return .success ()
  else return .failure "Not found."

/-- `get_customers` -/
def getCustomers (merchantId : String) : Db (List (CustomerDoc String)) := do
  let customers ← CustomersCol.find { merchantId := some merchantId }
  return customers.map CustomerDoc.withStrId

/-- `get_defaulters` -/
def getDefaulters (merchantId : String) : Db (List (CustomerDoc String)) := do
  let defaulters ← CustomersCol.find { merchantId := some merchantId, balanceGt := some 0 }
  return defaulters.map CustomerDoc.withStrId

/-- `compute_credit_score`, with `now` the reading of the clock it takes. -/
def computeCreditScore (now : Time) (customerId : String) : Db (ℤ × RiskCategory) := do
  let oid ← objectId customerId
  match ← CustomersCol.findOne { id := some oid } with
  -- an unknown customer is rated like a new one
  | none => return (100, .lowRisk)
  | some customer =>
    let txns ← TransactionsCol.find { customerId := some customerId }
    let (score, category) := scoringRules (sortByDate txns) customer.balance now
    -- the pair is stored even if the customer has changed since it was read
    let _ ← CustomersCol.updateOne { id := some oid }
      { creditScore := some score, riskCategory := some category }
    return (score, category)

/-- `delete_customer` -/
def deleteCustomer (customerId merchantId : String) : Db (Reply Unit) := do
  let oid ← objectId customerId
  let deleted ← CustomersCol.deleteOne { id := some oid, merchantId := some merchantId }
  if deleted ≠ 0 then
    -- the transactions go in a second call, by the text of the identifier
    let _ ← TransactionsCol.deleteMany { customerId := some customerId }
    return .success ()
  else
    return .failure "Customer not found."

end DigitalLedger
