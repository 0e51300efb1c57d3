import DigitalLedger.Analytics
import DigitalLedger.BulkImport

/-!
# Calls of the application and their runs

The operations of the application that write the ledger, as one type of calls,
and the states the ledger reaches when completed calls follow one another.

## Main definitions

* `Call` — a call of one of the eight writing operations, with its arguments.
* `Call.code` — the program the call runs.
* `Call.exec` — the outcome of a completed call and the store it leaves.
* `Call.Canonical` — the customer identifier of the call is one that
  `get_customers` returns.
* `Call.issued` — the identifiers the database generates for a call.
* `Reachable` — the states reached from the empty store by completed calls.
* `EachCall` — a property of every call of a sequence and the store it meets.
* `sampleStore` — a small reachable ledger.
-/

namespace DigitalLedger

/-- A call of the application, with what it takes from its surroundings. -/
inductive Call
  | addCustomer (env : Env) (merchantId name phone address portalPin : String)
  | addTransaction (env : Env) (merchantId customerId txnType : String) (amount : ℚ)
      (note : String)
  | editTransaction (env : Env) (txnId merchantId : String) (newAmount : ℚ) (newNote : String)
  | deleteTransaction (env : Env) (txnId merchantId : String)
  | deleteCustomer (customerId merchantId : String)
  | updateCustomerPin (env : Env) (customerId merchantId newPin : String)
  /-- The session's merchant is not an argument of the source function. -/
  | computeCreditScore (env : Env) (merchantId customerId : String)
  | importCustomersFromExcel (env : Env) (merchantId : String)
      (file : Except String DataFrame)

/-- What a call returns. -/
inductive Outcome
  | customerId (reply : Reply String)
  | newBalance (reply : Reply ℚ)
  | done (reply : Reply Unit)
  | score (pair : ℤ × RiskCategory)
  | imported (reply : Reply ImportResults)
  deriving DecidableEq

namespace Call

/-- The merchant whose session makes the call. -/
def merchantId : Call → String
  | .addCustomer _ m _ _ _ _ => m
  | .addTransaction _ m _ _ _ _ => m
  | .editTransaction _ _ m _ _ => m
  | .deleteTransaction _ _ m => m
  | .deleteCustomer _ m => m
  | .updateCustomerPin _ _ m _ => m
  | .computeCreditScore _ m _ => m
  | .importCustomersFromExcel _ m _ => m

/-- The program a call runs. -/
def code (bcrypt : Bcrypt) : Call → Db Outcome
  | .addCustomer env m name phone address pin =>
    Outcome.customerId <$> DigitalLedger.addCustomer bcrypt env m name phone address pin
  | .addTransaction env m cid type amount note =>
    Outcome.newBalance <$> DigitalLedger.addTransaction env m cid type amount note
  | .editTransaction env tid m amount note =>
    Outcome.done <$> DigitalLedger.editTransaction env tid m amount note
  | .deleteTransaction env tid m => Outcome.done <$> DigitalLedger.deleteTransaction env tid m
  | .deleteCustomer cid m => Outcome.done <$> DigitalLedger.deleteCustomer cid m
  | .updateCustomerPin env cid m pin =>
    Outcome.done <$> DigitalLedger.updateCustomerPin bcrypt env cid m pin
  | .computeCreditScore env _ cid =>
    Outcome.score <$> DigitalLedger.computeCreditScore (env.utcnow 0) cid
  | .importCustomersFromExcel env m file =>
    Outcome.imported <$> DigitalLedger.importCustomersFromExcel bcrypt env m file

/-- A completed call: its outcome, and the store it leaves. -/
def exec (bcrypt : Bcrypt) (c : Call) (s : Store) : Except Exn Outcome × Store :=
  (c.code bcrypt).run DigitalLedger.exec s

/-- The customer identifier of the call, if it has one, is canonical: the pages of
`app.py` pass the `_id` that `get_customers` returns. -/
def Canonical : Call → Prop
  | .addTransaction _ _ cid _ _ _ => ObjectId.Canonical cid
  | .deleteCustomer cid _ => ObjectId.Canonical cid
  | .updateCustomerPin _ cid _ _ => ObjectId.Canonical cid
  | .computeCreditScore _ _ cid => ObjectId.Canonical cid
  | _ => True

end Call

/-- The identifiers the database generates for a call, row by row for an import. -/
def Call.issued : Call → List ObjectId
  | .addCustomer env _ _ _ _ _ => [env.objectId 0]
  | .addTransaction env _ _ _ _ _ => [env.objectId 0]
  | .importCustomersFromExcel env _ (.ok df) => (List.range df.rows.length).map env.objectId
  | _ => []

/-- The states reached from the empty store by completed calls, each accepted,
refused or ended by an exception, with canonical customer identifiers. -/
inductive Reachable (bcrypt : Bcrypt) : Store → Prop
  | empty : Reachable bcrypt Store.empty
  | call {s : Store} (c : Call) (hs : Reachable bcrypt s) (hc : c.Canonical) :
      Reachable bcrypt (c.exec bcrypt s).2

/-- The store completed calls leave, made one after the other. -/
def execAll (bcrypt : Bcrypt) (calls : List Call) (s : Store) : Store :=
  calls.foldl (fun s c => (c.exec bcrypt s).2) s

/-- `P` holds of each call of a sequence and the store it meets. -/
def EachCall (bcrypt : Bcrypt) (P : Store → Call → Prop) : Store → List Call → Prop
  | _, [] => True
  | s, c :: calls => P s c ∧ EachCall bcrypt P (c.exec bcrypt s).2 calls

theorem Reachable.execAll {bcrypt : Bcrypt} {calls : List Call} {s : Store}
    (h : Reachable bcrypt s) (hcalls : ∀ c ∈ calls, c.Canonical) :
    Reachable bcrypt (execAll bcrypt calls s) := by
  induction calls generalizing s with
  | nil => exact h
  | cons c calls ih =>
    have hc := hcalls c List.mem_cons_self
    exact ih (h.call c hc) fun c' hc' => hcalls c' (List.mem_cons_of_mem c hc')

/-! ### A small ledger -/

/-- A merchant registers a customer, gives it a credit of 50 and is paid 20. -/
def sampleCalls : List Call :=
  [.addCustomer (.sample 1 0) "m" "Asha" "98" "" "1234",
    .addTransaction (.sample 2 0) "m" (ObjectId.ofNat 1).str "credit" 50 "rice",
    .addTransaction (.sample 3 0) "m" (ObjectId.ofNat 1).str "payment" 20 ""]

def sampleStore : Store := execAll markingBcrypt sampleCalls .empty

theorem sampleCalls_canonical : ∀ c ∈ sampleCalls, c.Canonical := by
  intro c hc
  simp only [sampleCalls, List.mem_cons, List.not_mem_nil, or_false] at hc
  rcases hc with rfl | rfl | rfl
  · trivial
  · exact ObjectId.canonical_str _
  · exact ObjectId.canonical_str _

theorem sampleStore_reachable : Reachable markingBcrypt sampleStore :=
  Reachable.empty.execAll sampleCalls_canonical

/-- The customer of the sample ledger. -/
def sampleCustomer : Customer where
  id := ObjectId.ofNat 1
  merchantId := "m"
  name := "Asha"
  phone := "98"
  address := ""
  balance := 30
  totalCredit := 50
  totalPaid := 20
  creditScore := 68
  riskCategory := .lowRisk
  portalPin := "$1234"
  createdAt := 0
  lastTransaction := some 0

/-- The credit of the sample ledger. -/
def sampleCredit : Transaction where
  id := ObjectId.ofNat 2
  merchantId := "m"
  customerId := (ObjectId.ofNat 1).str
  customerName := "Asha"
  type := .credit
  amount := 50
  note := "rice"
  date := 0
  edited := false
  editedAt := none

theorem sampleCustomer_mem : sampleCustomer ∈ sampleStore.customers.docs := by decide +kernel

theorem sampleCredit_mem : sampleCredit ∈ sampleStore.transactions.docs := by decide +kernel

end DigitalLedger
