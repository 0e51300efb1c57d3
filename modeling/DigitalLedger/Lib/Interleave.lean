import DigitalLedger.Lib.Prog
import Mathlib.Algebra.BigOperators.Group.Finset.Piecewise
import Mathlib.Data.Fintype.Basic
import Mathlib.Tactic.Abel

/-!
# Interleaving programs over one store

Several sessions each run a program over the same store, one atomic call at a
time, in any order.  An interleaving is the list of the sessions in the order in
which they take their steps; a session that has finished takes no further step,
so every list is an interleaving and a statement about all lists is a statement
about all of them.

## Main definitions

* `Session` — a program in progress: what it has seen and what is left of it.
* `System` — the store and the sessions.
* `System.step`, `System.run` — one step of a session, and an interleaving.
* `System.Along P x sched` — `P` holds before each step of the interleaving.
* `System.total f x sched` — the sum of a quantity over the steps.

## Main results

* `System.run_invariant`, `System.run_preserves` — the invariant rule: what each step
  preserves holds at the end of every interleaving.
* `System.run_total` — a quantity that each step moves by `f` is moved by
  `System.total f` in all.
* `System.sum_step` — a sum over the sessions moves with the one that steps.
-/

namespace DigitalLedger

/-- A program in progress. -/
structure Session (C : Type) (R : C → Type) (ε α : Type) where
  /-- The calls it has made, oldest first, each with the answer it has had. -/
  seen : List ((c : C) × Except ε (R c))
  /-- What it has left to do. -/
  rest : Prog C R ε α

namespace Session

variable {C : Type} {R : C → Type} {ε α : Type}

/-- A session that has made no call yet. -/
def start (p : Prog C R ε α) : Session C R ε α := ⟨[], p⟩

/-- The outcome of a session, once it has ended. -/
def outcome (t : Session C R ε α) : Option (Except ε α) :=
  match t.rest with
  | .ret a => some (.ok a)
  | .raise e => some (.error e)
  | .call _ _ => none

/-- The session has made a call and has not ended. -/
def InFlight (t : Session C R ε α) : Prop := t.seen ≠ [] ∧ t.outcome = none

instance (t : Session C R ε α) : Decidable t.InFlight :=
  decidable_of_iff (t.seen.isEmpty = false ∧ t.outcome.isNone = true) (by simp [InFlight])

@[simp] theorem rest_start (p : Prog C R ε α) : (start p).rest = p := rfl

@[simp] theorem seen_start (p : Prog C R ε α) : (start p).seen = [] := rfl

theorem outcome_call {t : Session C R ε α} {c : C} {k : Except ε (R c) → Prog C R ε α}
    (h : t.rest = .call c k) : t.outcome = none := by rw [outcome, h]

theorem outcome_ret {t : Session C R ε α} {a : α} (h : t.rest = .ret a) :
    t.outcome = some (.ok a) := by rw [outcome, h]

theorem outcome_raise {t : Session C R ε α} {e : ε} (h : t.rest = .raise e) :
    t.outcome = some (.error e) := by rw [outcome, h]

end Session

/-- A store and the sessions that use it, named by `ι`. -/
structure System (ι σ C : Type) (R : C → Type) (ε α : Type) where
  store : σ
  sessions : ι → Session C R ε α

namespace System

variable {ι σ C : Type} {R : C → Type} {ε α : Type}

/-- Every session about to start. -/
def start (s : σ) (progs : ι → Prog C R ε α) : System ι σ C R ε α :=
  ⟨s, fun i => Session.start (progs i)⟩

/-- Every session has ended. -/
def Finished (x : System ι σ C R ε α) : Prop := ∀ i, (x.sessions i).outcome ≠ none

instance [Fintype ι] (x : System ι σ C R ε α) : Decidable x.Finished :=
  decidable_of_iff (∀ i, (x.sessions i).outcome.isSome = true)
    (by simp only [Finished, Option.isSome_iff_ne_none])

@[simp] theorem store_start (s : σ) (progs : ι → Prog C R ε α) :
    (start s progs).store = s := rfl

@[simp] theorem sessions_start (s : σ) (progs : ι → Prog C R ε α) (i : ι) :
    (start s progs).sessions i = Session.start (progs i) := rfl

variable [DecidableEq ι] (h : Handler C R ε σ)

/-- Session `i` makes its next call, if it has one left. -/
def step (x : System ι σ C R ε α) (i : ι) : System ι σ C R ε α :=
  match (x.sessions i).rest with
  | .call c k =>
    { store := (h c x.store).2
      sessions := Function.update x.sessions i
        ⟨(x.sessions i).seen ++ [⟨c, (h c x.store).1⟩], k (h c x.store).1⟩ }
  | _ => x

/-- The sessions take steps in the order of the list. -/
def run (x : System ι σ C R ε α) (sched : List ι) : System ι σ C R ε α :=
  sched.foldl (step h) x

@[simp] theorem run_nil (x : System ι σ C R ε α) : run h x [] = x := rfl

@[simp] theorem run_cons (x : System ι σ C R ε α) (i : ι) (sched : List ι) :
    run h x (i :: sched) = run h (step h x i) sched := rfl

theorem run_append (x : System ι σ C R ε α) (sched sched' : List ι) :
    run h x (sched ++ sched') = run h (run h x sched) sched' := List.foldl_append

variable {h} {x : System ι σ C R ε α} {i j : ι}

theorem step_call {c : C} {k : Except ε (R c) → Prog C R ε α}
    (hi : (x.sessions i).rest = .call c k) :
    step h x i =
      { store := (h c x.store).2
        sessions := Function.update x.sessions i
          ⟨(x.sessions i).seen ++ [⟨c, (h c x.store).1⟩], k (h c x.store).1⟩ } := by
  rw [step, hi]

theorem store_step_call {c : C} {k : Except ε (R c) → Prog C R ε α}
    (hi : (x.sessions i).rest = .call c k) : (step h x i).store = (h c x.store).2 := by
  rw [step_call hi]

theorem sessions_step_self {c : C} {k : Except ε (R c) → Prog C R ε α}
    (hi : (x.sessions i).rest = .call c k) :
    (step h x i).sessions i =
      ⟨(x.sessions i).seen ++ [⟨c, (h c x.store).1⟩], k (h c x.store).1⟩ := by
  rw [step_call hi]
  exact Function.update_self _ _ _

/-- A step of a session that goes on with the answer to a call. -/
theorem step_perform {c : C} {f : R c → Prog C R ε α} {a : R c}
    (hi : (x.sessions i).rest = Prog.perform c >>= f) (ha : (h c x.store).1 = .ok a) :
    step h x i =
      { store := (h c x.store).2
        sessions := Function.update x.sessions i
          ⟨(x.sessions i).seen ++ [⟨c, .ok a⟩], f a⟩ } := by
  rw [step_call hi, ha]
  rfl

/-- A session that has ended takes no step. -/
theorem step_of_outcome {o : Except ε α} (hi : (x.sessions i).outcome = some o) :
    step h x i = x := by
  rw [step]
  split
  · next hc => rw [Session.outcome_call hc] at hi; exact absurd hi (by simp)
  · rfl

/-- A session that has just stepped and has not ended is in flight. -/
theorem inFlight_step (hi : ((step h x i).sessions i).outcome = none) :
    ((step h x i).sessions i).InFlight := by
  cases hrest : (x.sessions i).rest with
  | call c k =>
    refine ⟨?_, hi⟩
    rw [sessions_step_self hrest]
    exact List.append_ne_nil_of_right_ne_nil _ (List.cons_ne_nil _ _)
  | ret a =>
    have hended := Session.outcome_ret hrest
    rw [step_of_outcome hended, hended] at hi
    exact absurd hi (by simp)
  | raise e =>
    have hended := Session.outcome_raise hrest
    rw [step_of_outcome hended, hended] at hi
    exact absurd hi (by simp)

/-- A step of one session leaves the others where they were. -/
theorem sessions_step_of_ne (hij : j ≠ i) : (step h x i).sessions j = x.sessions j := by
  rw [step]
  split
  · exact Function.update_of_ne hij _ _
  · rfl

/-- The sessions keep to the calls they may make. -/
theorem uses_step {P : C → Prop} (hx : ∀ j, Prog.Uses P (x.sessions j).rest) (i j : ι) :
    Prog.Uses P ((step h x i).sessions j).rest := by
  by_cases hij : j = i
  · subst hij
    cases hrest : (x.sessions j).rest with
    | call c k =>
      have hj := hx j
      rw [hrest] at hj
      rw [sessions_step_self hrest]
      exact hj.next _
    | ret a =>
      rw [step_of_outcome (Session.outcome_ret hrest)]
      exact hx j
    | raise e =>
      rw [step_of_outcome (Session.outcome_raise hrest)]
      exact hx j
  · rw [sessions_step_of_ne hij]
    exact hx j

/-! ### Invariants and totals over interleavings -/

/-- `P` holds before each step of the interleaving, of the system and the session
about to step. -/
def Along (h : Handler C R ε σ) (P : System ι σ C R ε α → ι → Prop) :
    System ι σ C R ε α → List ι → Prop
  | _, [] => True
  | x, i :: sched => P x i ∧ Along h P (step h x i) sched

instance decidableAlong {P : System ι σ C R ε α → ι → Prop} [∀ x i, Decidable (P x i)] :
    ∀ (x : System ι σ C R ε α) (sched : List ι), Decidable (Along h P x sched)
  | _, [] => inferInstanceAs (Decidable True)
  | x, i :: sched =>
    have _ : Decidable (Along h P (step h x i) sched) := decidableAlong (step h x i) sched
    instDecidableAnd

theorem along_of_forall {P : System ι σ C R ε α → ι → Prop} (hP : ∀ x i, P x i) (sched : List ι) :
    Along h P x sched := by
  induction sched generalizing x with
  | nil => trivial
  | cons i sched ih => exact ⟨hP x i, ih⟩

theorem along_append {P : System ι σ C R ε α → ι → Prop} {sched sched' : List ι} :
    Along h P x (sched ++ sched') ↔ Along h P x sched ∧ Along h P (run h x sched) sched' := by
  induction sched generalizing x with
  | nil => exact ⟨fun h => ⟨trivial, h⟩, And.right⟩
  | cons i sched ih => rw [List.cons_append, Along, Along, ih, run_cons, and_assoc]

/-- Where `P` fails along an interleaving, there is a first step at which it does. -/
theorem exists_of_not_along {P : System ι σ C R ε α → ι → Prop} {sched : List ι}
    (hP : ¬Along h P x sched) :
    ∃ before i after, sched = before ++ i :: after ∧ Along h P x before ∧
      ¬P (run h x before) i := by
  induction sched generalizing x with
  | nil => exact absurd trivial hP
  | cons i sched ih =>
    by_cases hi : P x i
    · obtain ⟨before, j, after, rfl, hbefore, hj⟩ := ih fun hrest => hP ⟨hi, hrest⟩
      exact ⟨i :: before, j, after, rfl, ⟨hi, hbefore⟩, hj⟩
    · exact ⟨[], i, sched, rfl, trivial, hi⟩

/-- **The invariant rule for interleavings**: what every step taken under `P`
preserves holds at the end. -/
theorem run_invariant {P : System ι σ C R ε α → ι → Prop} {I : System ι σ C R ε α → Prop}
    (hstep : ∀ x i, P x i → I x → I (step h x i)) {sched : List ι}
    (hP : Along h P x sched) (hx : I x) : I (run h x sched) := by
  induction sched generalizing x with
  | nil => exact hx
  | cons i sched ih => exact ih hP.2 (hstep x i hP.1 hx)

/-- What every step preserves holds at the end of every interleaving. -/
theorem run_preserves {I : System ι σ C R ε α → Prop} (hstep : ∀ x i, I x → I (step h x i))
    (hx : I x) (sched : List ι) : I (run h x sched) :=
  run_invariant (P := fun _ _ => True) (fun x i _ => hstep x i)
    (along_of_forall (fun _ _ => trivial) sched) hx

/-- The sum over the steps of the interleaving of a quantity read before each. -/
def total {M : Type*} [AddCommGroup M] (h : Handler C R ε σ)
    (f : System ι σ C R ε α → ι → M) : System ι σ C R ε α → List ι → M
  | _, [] => 0
  | x, i :: sched => f x i + total h f (step h x i) sched

section Total

variable {M : Type*} [AddCommGroup M]

/-- A quantity `g` that each step moves by `f` is moved by the total of `f`. -/
theorem run_total {I : System ι σ C R ε α → Prop} {f : System ι σ C R ε α → ι → M}
    {g : System ι σ C R ε α → M} (hstep : ∀ x i, I x → I (step h x i))
    (hg : ∀ x i, I x → g (step h x i) = g x + f x i) (hx : I x) (sched : List ι) :
    g (run h x sched) = g x + total h f x sched := by
  induction sched generalizing x with
  | nil => simp [total]
  | cons i sched ih =>
    rw [run_cons, ih (hstep x i hx), hg x i hx, total, add_assoc]

/-- A homomorphism passes through a total. -/
theorem total_map {N : Type*} [AddCommGroup N] (φ : M →+ N) (f : System ι σ C R ε α → ι → M)
    (sched : List ι) : total h (fun x i => φ (f x i)) x sched = φ (total h f x sched) := by
  induction sched generalizing x with
  | nil => exact (map_zero φ).symm
  | cons i sched ih => rw [total, total, ih, map_add]

/-- A total of zeroes is zero. -/
theorem total_eq_zero {P : System ι σ C R ε α → ι → Prop}
    {f : System ι σ C R ε α → ι → M} (hf : ∀ x i, P x i → f x i = 0) {sched : List ι}
    (hP : Along h P x sched) : total h f x sched = 0 := by
  induction sched generalizing x with
  | nil => rfl
  | cons i sched ih => rw [total, hf x i hP.1, ih hP.2, add_zero]

/-- A sum over the sessions moves by what the stepping session's share moves. -/
theorem sum_step [Fintype ι] (f : Session C R ε α → M) :
    ∑ j, f ((step h x i).sessions j) =
      ∑ j, f (x.sessions j) + (f ((step h x i).sessions i) - f (x.sessions i)) := by
  have hsplit : ∀ y : System ι σ C R ε α, ∑ j, f (y.sessions j) =
      f (y.sessions i) + ∑ j ∈ Finset.univ.erase i, f (y.sessions j) := fun y =>
    (Finset.add_sum_erase _ _ (Finset.mem_univ i)).symm
  have hrest : ∑ j ∈ Finset.univ.erase i, f ((step h x i).sessions j) =
      ∑ j ∈ Finset.univ.erase i, f (x.sessions j) :=
    Finset.sum_congr rfl fun j hj => by rw [sessions_step_of_ne (Finset.ne_of_mem_erase hj)]
  rw [hsplit, hrest, hsplit x]
  abel

end Total

end System

end DigitalLedger
