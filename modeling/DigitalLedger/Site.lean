import DigitalLedger.World

/-!
# The world of the pages

The pages of `app.py` run over what the application already has, and over two things of
their own: the collection `activity_logs`, and the state Streamlit keeps for each browser
session.  This module fixes the documents of the collection, the fields of the session
state, and the world a page runs in.

## Main definitions

* `LogDoc`, `LogQuery`, `Logs` — the collection `activity_logs`; its documents are never
  updated.
* `SessionState`, `SessionState.initial` — `st.session_state`, without the theme.
* `Site`, `PageCall`, `execPage`, `Script` — the world, the calls on it and what it answers
  to the session of a browser, and the programs that make such calls.
* `Script.ofApp` — a program of the application, as a program of the pages.

## Main results

* `Script.run_ofApp` — running it is running it on the world of the application.
-/

namespace DigitalLedger

open Prog

/-! ### The collection `activity_logs` -/

/-- A document of the collection `activity_logs`, over the type of its `_id`. -/
structure LogDoc (ι : Type) where
  id : ι
  merchantId : String
  action : String
  details : String
  timestamp : Time
  deriving DecidableEq

abbrev LogEntry := LogDoc ObjectId

/-- `log["_id"] = str(log["_id"])` -/
def LogDoc.withStrId (l : LogEntry) : LogDoc String := { l with id := l.id.str }

/-- The filter of the application: `{"merchant_id": merchantId}`. -/
structure LogQuery where
  merchantId : String

/-- No entry is ever updated. -/
instance : Document LogEntry ObjectId LogQuery Empty where
  key := LogDoc.id
  test q l := q.merchantId == l.merchantId
  apply x _ := x.elim
  key_apply x _ := x.elim

abbrev Logs := Collection LogEntry

abbrev LogOp := Op LogEntry LogQuery Empty

@[simp] theorem test_logQuery {m : String} {l : LogEntry} :
    Document.test (⟨m⟩ : LogQuery) l = true ↔ l.merchantId = m := by
  change (m == l.merchantId) = true ↔ l.merchantId = m
  rw [beq_iff_eq]
  exact eq_comm

/-! ### The session state -/

/-- The values of `mode`. -/
inductive Mode
  | merchant
  | customer
  deriving DecidableEq

/-- `st.session_state`; `cust_data` is empty or the document of a customer. -/
structure SessionState where
  loggedIn : Bool
  userId : String
  username : String
  businessName : String
  mode : Mode
  custLoggedIn : Bool
  custData : Option (CustomerDoc String)
  otpPhone : String
  otpSent : Bool

/-- The defaults. -/
def SessionState.initial : SessionState where
  loggedIn := false
  userId := ""
  username := ""
  businessName := ""
  mode := .merchant
  custLoggedIn := false
  custData := none
  otpPhone := ""
  otpSent := false

/-! ### The world -/

/-- The world of the application, its log, and the states of the browser sessions. -/
structure Site (ι : Type) where
  world : World
  logs : Logs
  sessions : ι → SessionState

/-- A site at its start: nothing is stored, and no one has logged in. -/
def Site.start {ι : Type} (gateway : ℕ → Response) : Site ι where
  world := ⟨.empty, .empty, gateway, []⟩
  logs := .empty
  sessions _ := .initial

/-- A call of a page. -/
inductive PageCall
  | app (c : AppCall)
  | logs (op : LogOp)
  /-- The session state is given these values. -/
  | session (st : SessionState)

/-- The type of the answer to a call. -/
@[reducible] def PageCall.Answer : PageCall → Type
  | .app c => c.Answer
  | .logs op => op.Answer
  | .session _ => Unit

variable {ι : Type} [DecidableEq ι]

/-- What the site answers to a call of the session `i`. -/
def execPage (i : ι) : Handler PageCall PageCall.Answer AppExn (Site ι)
  | .app c, site =>
    let r := execApp c site.world
    (r.1, { site with world := r.2 })
  | .logs op, site =>
    let r := op.exec (AppExn.database .duplicateKeyError) site.logs
    (r.1, { site with logs := r.2 })
  | .session st, site => (.ok (), { site with sessions := Function.update site.sessions i st })

/-- The programs of the pages: runs of the script `app.py`. -/
abbrev Script := Prog PageCall PageCall.Answer AppExn

/-- A single call of a page. -/
def Script.perform (c : PageCall) : Script c.Answer := Prog.perform c

namespace LogsCol

def find (q : LogQuery) : Script (List LogEntry) := Script.perform (.logs (.find q))
def insertOne (l : LogEntry) : Script Unit := Script.perform (.logs (.insertOne l))
def deleteMany (q : LogQuery) : Script ℕ := Script.perform (.logs (.deleteMany q))

end LogsCol

/-- Assignments to `st.session_state`.  A page assigns its fields one after the other and a run
may be dropped between two of them; here what is assigned in a row is one step, so that a
session is never seen with some of the fields assigned. -/
def setSession (st : SessionState) : Script Unit := Script.perform (.session st)

namespace Script

variable {α : Type}

/-- A program of the application, as a program of the pages. -/
def ofApp : App α → Script α
  | .ret a => .ret a
  | .raise e => .raise e
  | .call c k => .call (.app c) fun r => ofApp (k r)

/-- A program over the ledger, as a program of the pages. -/
def ofDb (p : Db α) : Script α := ofApp (App.ofDb p)

/-- **Running a program of the application** as a program of the pages is running it on
the world of the application. -/
theorem run_ofApp (i : ι) (p : App α) (site : Site ι) :
    run (execPage i) (ofApp p) site =
      ((run execApp p site.world).1, { site with world := (run execApp p site.world).2 }) := by
  induction p generalizing site with
  | ret a => rfl
  | raise e => rfl
  | call c k ih =>
    rw [ofApp, run_call, execPage, run_call]
    exact ih _ _

theorem run_ofDb (i : ι) (p : Db α) (site : Site ι) :
    run (execPage i) (ofDb p) site =
      ((run exec p site.world.ledger).1.mapError AppExn.database,
        { site with
          world := { site.world with ledger := (run exec p site.world.ledger).2 } }) := by
  rw [ofDb, run_ofApp, App.run_ofDb]

end Script

section Calls

variable (i : ι) (site : Site ι)

theorem run_logs_insertOne (l : LogEntry) :
    run (execPage i) (LogsCol.insertOne l) site =
      match site.logs.insertOne l with
      | some L => (.ok (), { site with logs := L })
      | none => (.error (.database .duplicateKeyError), site) := by
  rw [LogsCol.insertOne, Script.perform, run_perform, execPage, Op.exec]
  cases site.logs.insertOne l <;> rfl

@[simp] theorem run_setSession (st : SessionState) :
    run (execPage i) (setSession st) site =
      (.ok (), { site with sessions := Function.update site.sessions i st }) := rfl

end Calls

end DigitalLedger
