import DigitalLedger.Calls
import DigitalLedger.Shape

/-!
# Dates

A transaction is dated by the clock, when it is recorded, and keeps its date.  The clock of
the source reads a `datetime`, which lies in one of the years 1 to 9999; so does every date
stored.

## Main definitions

* `IsDatetime` — the dates a `datetime` can hold.
* `Call.Clocked P` — the clock the call reads satisfies `P`.

## Main results

* `monthOf_mem` — the months of a year.
* `dates_execAll` — what holds of the clock holds of the dates stored.
-/

namespace DigitalLedger

open Prog

variable {bcrypt : Bcrypt} {s : Store} {P : Time → Prop}

/-! ### The calendar -/

/-- The dates a `datetime` can hold. -/
def IsDatetime (date : Time) : Prop := 1 ≤ yearOf date ∧ yearOf date ≤ 9999

instance (date : Time) : Decidable (IsDatetime date) := inferInstanceAs (Decidable (_ ∧ _))

/-- The day of a year that begins in March, by the day of its era of 400 years. -/
theorem dayOfYear_mem {day : ℤ} (hday : 0 ≤ day) (hera : day < 146097) {year : ℤ}
    (hyear : year = (day - day / 1460 + day / 36524 - day / 146096) / 365) :
    0 ≤ day - (365 * year + year / 4 - year / 100) ∧
      day - (365 * year + year / 4 - year / 100) ≤ 365 := by
  have hcentury : day / 36524 = 0 ∨ day / 36524 = 1 ∨ day / 36524 = 2 ∨ day / 36524 = 3 ∨
      day / 36524 = 4 := by omega
  rcases (by omega : day / 146096 = 0 ∨ day = 146096) with hlast | rfl
  · rw [hlast] at hyear
    have hhundred : year / 100 = day / 36524 := by
      rcases hcentury with h | h | h | h | h <;> rw [h] at hyear ⊢ <;> omega
    have hfour : day / 1460 = year / 4 ∨ day / 1460 = year / 4 + 1 := by
      rcases hcentury with h | h | h | h | h <;> rw [h] at hyear <;> omega
    have hleap : year % 4 = 0 ∨ year % 4 = 1 ∨ year % 4 = 2 ∨ year % 4 = 3 := by omega
    rw [hhundred]
    rcases hcentury with h | h | h | h | h <;> rw [h] at hyear ⊢ <;>
      rcases hfour with h' | h' <;> rw [h'] at hyear <;>
      rcases hleap with h'' | h'' | h'' | h'' <;> omega
  · -- the last day of the era is the 29 February of its last year
    have hlast : year = 399 := by omega
    rw [hlast]
    decide

/-- The months of a year. -/
theorem monthOf_mem (date : Time) : 1 ≤ monthOf date ∧ monthOf date ≤ 12 := by
  have hday : 0 ≤ (date / 86400000 + 719468) % 146097 := Int.emod_nonneg _ (by decide)
  have hera : (date / 86400000 + 719468) % 146097 < 146097 := Int.emod_lt_of_pos _ (by decide)
  obtain ⟨hfirst, hlast⟩ := dayOfYear_mem hday hera rfl
  rw [monthOf, civilMonth]
  dsimp only
  generalize (date / 86400000 + 719468) % 146097 -
    (365 * _ + _ / 4 - _ / 100) = dayOfYear at hfirst hlast ⊢
  by_cases hmarch : ((5 * dayOfYear + 2) / 153 : ℤ) < 10
  · rw [if_pos hmarch]
    omega
  · rw [if_neg hmarch]
    omega

/-! ### The dates stored -/

/-- Every date stored satisfies `P`. -/
def Store.DatesIn (P : Time → Prop) (s : Store) : Prop := ∀ t ∈ s.transactions.docs, P t.date

/-- What the call inserts among the transactions has a date that satisfies `P`. -/
def DbCall.Dated (P : Time → Prop) : DbCall → Prop
  | .customers _ => True
  | .transactions op => op.Inserts fun t => P t.date

/-- A scoring inserts nothing. -/
theorem DbCall.Scoring.dated {c : DbCall} (h : c.Scoring) : c.Dated P := by
  cases c with
  | customers op => trivial
  | transactions op =>
    cases op with
    | find q => trivial
    | findOne q => exact h.elim
    | insertOne t => exact h.elim
    | updateOne q u => exact h.elim
    | deleteOne q => exact h.elim
    | deleteMany q => exact h.elim

/-- An update keeps the date. -/
theorem datesIn_exec {c : DbCall} (hc : c.Dated P) (h : s.DatesIn P) : (exec c s).2.DatesIn P := by
  cases c with
  | customers op => exact h
  | transactions op => exact Op.forall_docs_exec (fun _ _ ht => ht) hc h

/-- What the call takes from its surroundings. -/
def Call.env : Call → Option Env
  | .addCustomer env _ _ _ _ _ => some env
  | .addTransaction env _ _ _ _ _ => some env
  | .editTransaction env _ _ _ _ => some env
  | .deleteTransaction env _ _ => some env
  | .deleteCustomer _ _ => none
  | .updateCustomerPin env _ _ _ => some env
  | .computeCreditScore env _ _ => some env
  | .importCustomersFromExcel env _ _ => some env

/-- The clock the call reads satisfies `P`. -/
def Call.Clocked (P : Time → Prop) (call : Call) : Prop :=
  ∀ env, call.env = some env → ∀ n, P (env.utcnow n)

theorem uses_dated {call : Call} (hclock : call.Clocked P) :
    Uses (DbCall.Dated P) (call.code bcrypt) := by
  have hfind : ∀ q, DbCall.Dated P (.customers (.findOne q)) := fun _ => trivial
  cases call with
  | addCustomer env m name phone address pin =>
    exact (uses_addCustomer hfind (fun _ _ _ _ _ _ => trivial) _ _ _ _ _ _).map _
  | importCustomersFromExcel env m file =>
    exact (uses_importCustomersFromExcel hfind (fun _ _ _ _ _ _ => trivial) _ _ _).map _
  | addTransaction env m cid type amount note =>
    -- the one call that dates a transaction
    exact (uses_addTransaction (fun _ => DbCall.Scoring.dated) (fun _ _ _ => trivial) env
      (fun _ _ _ _ _ _ => hclock env rfl 0) _ _ _ _ _).map _
  | editTransaction env tid m amount note =>
    exact (uses_editTransaction (fun _ => DbCall.Scoring.dated) (fun _ _ _ => trivial)
      (fun _ => trivial) (fun _ _ => trivial) _ _ _ _ _).map _
  | deleteTransaction env tid m =>
    exact (uses_deleteTransaction (fun _ => DbCall.Scoring.dated) (fun _ _ _ => trivial)
      (fun _ => trivial) (fun _ => trivial) _ _ _).map _
  | computeCreditScore env m cid =>
    exact ((uses_computeCreditScore _ _).mono fun _ => DbCall.Scoring.dated).map _
  | deleteCustomer cid m =>
    exact (uses_deleteCustomer (fun _ => trivial) (fun _ => trivial) _ _).map _
  | updateCustomerPin env cid m pin =>
    exact (uses_updateCustomerPin (fun _ _ => trivial) _ _ _ _).map _

/-- **What holds of the clock holds of the dates stored**, after any sequence of calls. -/
theorem dates_execAll {calls : List Call} (hclock : ∀ c ∈ calls, c.Clocked P)
    (h : s.DatesIn P) : (execAll bcrypt calls s).DatesIn P := by
  induction calls generalizing s with
  | nil => exact h
  | cons call calls ih =>
    have hcall : (call.exec bcrypt s).2.DatesIn P :=
      run_invariant exec (fun c hc s hs => datesIn_exec hc hs)
        (uses_dated (hclock call List.mem_cons_self)) h
    exact ih (fun c hc => hclock c (List.mem_cons_of_mem call hc)) hcall

end DigitalLedger
