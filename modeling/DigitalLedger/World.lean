import DigitalLedger.Lib.Index
import DigitalLedger.Database

/-!
# The world of the application

Besides the ledger the application keeps its merchants in the collection `users`, and it
sends text messages through the HTTP interface of Twilio.  This module fixes the documents
and queries of `users`, the values a JSON body decodes to, and the world a program of the
application runs in: the database, and a gateway that answers each request in some way.

## Main definitions

* `User`, `UserQuery`, `UserUpdate`, `userIndexes` — the collection `users` and its index.
* `Value`, `Dict`, `Payload` — what `json.loads` returns, as far as the application looks
  into it.
* `Request`, `Response` — a request and what `urlopen` makes of its answer.
* `World`, `AppCall`, `execApp`, `App` — the world, the calls on it and what it answers,
  and the programs that make such calls.
* `App.ofDb` — a program over the ledger, as a program of the application.

## Main results

* `App.run_ofDb` — running it is running it on the ledger of the world.
-/

namespace DigitalLedger

open Prog

/-! ### The collection `users` -/

/-- A document of the collection `users`. -/
structure User where
  id : ObjectId
  username : String
  /-- The hash of the password. -/
  password : String
  businessName : String
  phone : String
  createdAt : Time
  resetOtp : Option String
  otpExpiry : Option Time
  deriving DecidableEq

/-- A filter on `users`; a field left out does not constrain. -/
structure UserQuery where
  id : Option ObjectId := none
  username : Option String := none
  phone : Option String := none

/-- An update of a user: of the fields given, `some v` is a `$set` and `none` an
`$unset`. -/
structure UserUpdate where
  password : Option String := none
  resetOtp : Option (Option String) := none
  otpExpiry : Option (Option Time) := none

def UserQuery.test (q : UserQuery) (u : User) : Bool :=
  q.id.all (· == u.id) && q.username.all (· == u.username) && q.phone.all (· == u.phone)

def UserUpdate.apply (x : UserUpdate) (u : User) : User :=
  { u with
    password := x.password.getD u.password
    resetOtp := x.resetOtp.getD u.resetOtp
    otpExpiry := x.otpExpiry.getD u.otpExpiry }

instance : Document User ObjectId UserQuery UserUpdate where
  key := User.id
  test := UserQuery.test
  apply := UserUpdate.apply
  key_apply _ _ := rfl

/-- The index `create_indexes` declares on `users`. -/
def userIndexes : List (Index User) := [⟨fun u => [u.username], true⟩]

theorem userIndexes_kept : Index.Kept userIndexes := by
  intro ix hix x u
  rw [userIndexes, List.mem_singleton] at hix
  rw [hix]
  rfl

abbrev Users := IndexedCollection User userIndexes

/-! ### Decoded bodies -/

/-- A value of a JSON object, with the text `str` makes of it.  The application looks into
none of the nested ones. -/
inductive Value
  | none
  | bool (b : Bool)
  /-- A number; `NaN` and the infinities have no value. -/
  | number (value : Option ℚ) (text : String)
  | str (text : String)
  /-- A `list` or a `dict`. -/
  | container (typeName : String) (nonempty : Bool) (text : String)
  deriving DecidableEq

namespace Value

/-- `bool(value)` -/
def truthy : Value → Bool
  | .none => false
  | .bool b => b
  | .number value _ => value != some 0
  | .str text => text != ""
  | .container _ nonempty _ => nonempty

/-- `str(value)` -/
def toStr : Value → String
  | .none => "None"
  | .bool b => if b then "True" else "False"
  | .number _ text => text
  | .str text => text
  | .container _ _ text => text

/-- The value can be a key of a dictionary. -/
def hashable : Value → Bool
  | .container _ _ _ => false
  | _ => true

end Value

/-- A dictionary with texts as keys. -/
abbrev Dict := List (String × Value)

/-- `d.get(key)`, without the default. -/
def Dict.get? (d : Dict) (key : String) : Option Value := d.lookup key

/-- `d.get(key, default)` -/
def Dict.getD (d : Dict) (key : String) (default : Value) : Value := (d.get? key).getD default

/-- What `json.loads` returns: a dictionary, or a value of another type. -/
inductive Payload
  | dict (entries : Dict)
  | other (typeName : String)
  deriving DecidableEq

/-! ### Requests -/

/-- A request to Twilio, before its parts are encoded. -/
structure Request where
  method : String
  url : String
  /-- The account and the token of the `Authorization` header. -/
  credentials : String
  data : Option (List (String × String))
  deriving DecidableEq

/-- What becomes of a request; a body is what it decodes to, or the text of the exception
its decoding raises. -/
inductive Response
  /-- `urlopen` returns a response with this body. -/
  | ok (body : Except String Payload)
  /-- `urlopen` raises `HTTPError`, with this body. -/
  | httpError (body : Except String Payload)
  /-- Another exception is raised, with this text. -/
  | failure (text : String)

/-! ### The world -/

/-- The database, and a gateway that gives its `n`-th answer to the `n`-th request. -/
structure World where
  ledger : Store
  users : Users
  gateway : ℕ → Response
  /-- The requests so far, oldest first. -/
  sent : List Request

/-- The exceptions a program of the application can end in. -/
inductive AppExn
  /-- An exception of the database calls. -/
  | database (e : Exn)
  | environmentError (message : String)
  /-- From decoding a body. -/
  | valueError (message : String)
  | attributeError (object attr : String)
  | keyError (key : String)
  | typeError (message : String)
  deriving DecidableEq

/-- A call of the application on its world. -/
inductive AppCall
  | ledger (c : DbCall)
  | users (op : Op User UserQuery UserUpdate)
  | request (r : Request)

/-- The type of the answer to a call. -/
@[reducible] def AppCall.Answer : AppCall → Type
  | .ledger c => c.Answer
  | .users op => op.Answer
  | .request _ => Response

/-- What the world answers to a call. -/
def execApp : Handler AppCall AppCall.Answer AppExn World
  | .ledger c, w =>
    let r := exec c w.ledger
    (r.1.mapError AppExn.database, { w with ledger := r.2 })
  | .users op, w =>
    let r := op.execIndexed userIndexes_kept (AppExn.database .duplicateKeyError) w.users
    (r.1, { w with users := r.2 })
  | .request r, w => (.ok (w.gateway w.sent.length), { w with sent := w.sent ++ [r] })

/-- Programs of the application. -/
abbrev App := Prog AppCall AppCall.Answer AppExn

/-- A single call on the world. -/
def App.perform (c : AppCall) : App c.Answer := Prog.perform c

namespace UsersCol

def findOne (q : UserQuery) : App (Option User) := App.perform (.users (.findOne q))
def insertOne (u : User) : App Unit := App.perform (.users (.insertOne u))
def updateOne (q : UserQuery) (x : UserUpdate) : App UpdateResult :=
  App.perform (.users (.updateOne q x))

end UsersCol

/-- `urllib.request.urlopen(request)` -/
def urlopen (r : Request) : App Response := App.perform (.request r)

namespace App

variable {α : Type}

/-- A program over the ledger, as a program of the application. -/
def ofDb : Db α → App α
  | .ret a => .ret a
  | .raise e => .raise (.database e)
  | .call c k => .call (.ledger c) fun
    | .ok a => ofDb (k (.ok a))
    | .error (.database e) => ofDb (k (.error e))
    | .error e => .raise e

@[simp] theorem ofDb_ret (a : α) : ofDb (.ret a) = .ret a := rfl

@[simp] theorem ofDb_raise (e : Exn) : ofDb (.raise e : Db α) = .raise (.database e) := rfl

/-- **Running a program over the ledger** as a program of the application is running it on
the ledger of the world. -/
theorem run_ofDb (p : Db α) (w : World) :
    run execApp (ofDb p) w =
      ((run exec p w.ledger).1.mapError AppExn.database,
        { w with ledger := (run exec p w.ledger).2 }) := by
  induction p generalizing w with
  | ret a => rfl
  | raise e => rfl
  | call c k ih =>
    rw [ofDb, run_call, execApp, run_call]
    cases hc : (exec c w.ledger).1 with
    | ok a => exact ih (.ok a) _
    | error e => exact ih (.error e) _

end App

section Calls

variable (w : World)

@[simp] theorem run_users_findOne (q : UserQuery) :
    run execApp (UsersCol.findOne q) w = (.ok (w.users.findOne q), w) := rfl

theorem run_users_insertOne (u : User) :
    run execApp (UsersCol.insertOne u) w =
      match w.users.insertOne u with
      | some C => (.ok (), { w with users := C })
      | none => (.error (.database .duplicateKeyError), w) := by
  rw [UsersCol.insertOne, App.perform, run_perform, execApp, Op.execIndexed]
  cases w.users.insertOne u <;> rfl

@[simp] theorem run_users_updateOne (q : UserQuery) (x : UserUpdate) :
    run execApp (UsersCol.updateOne q x) w =
      (.ok (w.users.collection.updateResult q x),
        { w with users := w.users.updateOne userIndexes_kept q x }) := rfl

@[simp] theorem run_urlopen (r : Request) :
    run execApp (urlopen r) w =
      (.ok (w.gateway w.sent.length), { w with sent := w.sent ++ [r] }) := rfl

end Calls

/-! ### Programs that only make requests -/

/-- The call is a request. -/
def AppCall.IsRequest : AppCall → Prop
  | .request _ => True
  | _ => False

/-- A program that only makes requests leaves the database alone. -/
theorem run_requests {α : Type} {p : App α} (hp : Uses AppCall.IsRequest p) (w : World) :
    ∃ sent, (run execApp p w).2 = { w with sent := sent } := by
  refine run_invariant (I := fun w' => ∃ sent, w' = { w with sent := sent }) execApp ?_ hp
    ⟨w.sent, rfl⟩
  rintro (c | op | r) hc w' ⟨sent, rfl⟩
  · exact hc.elim
  · exact hc.elim
  · exact ⟨sent ++ [r], rfl⟩

end DigitalLedger
