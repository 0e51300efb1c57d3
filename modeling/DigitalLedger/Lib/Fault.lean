import DigitalLedger.Lib.Prog

/-!
# Runs with a fault

A fault is an exception and the number of the call that raises it, without taking effect.
A run meets at most one: the rules say where it does, call by call.

## Main definitions

* `Prog.Fault` — a call number with the exception it raises, or none.
* `Prog.runFault` — the run of a program under a fault; `none` when the program makes too few
  calls to meet it.
* `Prog.Fault.Upto` — the fault is at one of the calls up to a number.

## Main results

* `Prog.runFault_perform_bind`, `Prog.runFault_perform_bind_error` — a sequence whose first
  call is answered, or raises by itself.
* `Prog.runFault_map`, `Prog.runFault_catchWith` — a mapped value, and a `try` whose handler
  makes no call.
* `Prog.runFault_invariant` — what every call preserves, a run under a fault preserves.
-/

namespace DigitalLedger

namespace Prog

variable {C : Type} {R : C → Type} {ε α β σ : Type} (h : Handler C R ε σ)

/-- The number of a call, and the exception it raises. -/
abbrev Fault (ε : Type) := Option (ε × ℕ)

namespace Fault

/-- The first call raises. -/
def Now (fault : Fault ε) (e : ε) : Prop := fault = some (e, 0)

/-- The fault as seen after one call. -/
def later (fault : Fault ε) : Fault ε := fault.map fun x => (x.1, x.2 - 1)

/-- The fault is at one of the calls up to number `n`. -/
def Upto (n : ℕ) (fault : Fault ε) : Prop := ∃ e k, fault = some (e, k) ∧ k ≤ n

theorem Now.upto {fault : Fault ε} {e : ε} (hnow : fault.Now e) (n : ℕ) : fault.Upto n :=
  ⟨e, 0, hnow, Nat.zero_le n⟩

/-- A fault that is not at the first call is one call nearer after it. -/
theorem upto_later_iff {fault : Fault ε} (hnow : ∀ e, ¬fault.Now e) (n : ℕ) :
    fault.later.Upto n ↔ fault.Upto (n + 1) := by
  constructor
  · rintro ⟨e, k, heq, hle⟩
    obtain ⟨⟨e', k'⟩, rfl, hpair⟩ := Option.map_eq_some_iff.mp heq
    obtain ⟨-, hk⟩ := Prod.mk.inj hpair
    exact ⟨e', k', rfl, by omega⟩
  · rintro ⟨e, k, rfl, hle⟩
    exact ⟨e, k - 1, rfl, by omega⟩

theorem not_upto_zero {fault : Fault ε} (hnow : ∀ e, ¬fault.Now e) : ¬fault.Upto 0 := by
  rintro ⟨e, k, rfl, hle⟩
  obtain rfl : k = 0 := Nat.le_zero.mp hle
  exact hnow e rfl

end Fault

/-- The run of a program under a fault: its outcome, and the store it leaves. -/
def runFault (fault : Fault ε) (p : Prog C R ε α) (s : σ) : Option (Except ε α × σ) :=
  match fault with
  | none => some (run h p s)
  | some (e, n) => runFailing h e n p s

variable {h} {fault : Fault ε} {s s' : σ}

theorem runFault_ret {a : α} {x : Except ε α × σ}
    (hx : runFault h fault (ret a : Prog C R ε α) s = some x) : x = (.ok a, s) := by
  cases fault with
  | none => exact (Option.some.inj hx).symm
  | some f =>
    rw [runFault, runFailing_ret] at hx
    exact absurd hx (by simp)

theorem runFault_raise {e : ε} {x : Except ε α × σ}
    (hx : runFault h fault (raise e : Prog C R ε α) s = some x) : x = (.error e, s) := by
  cases fault with
  | none => exact (Option.some.inj hx).symm
  | some f =>
    rw [runFault, runFailing_raise] at hx
    exact absurd hx (by simp)

/-- A sequence whose first call would be answered meets the fault there, or goes on with the
answer. -/
theorem runFault_perform_bind {c : C} {a : R c} (hc : h c s = (.ok a, s'))
    {f : R c → Prog C R ε α} {x : Except ε α × σ}
    (hx : runFault h fault (perform c >>= f) s = some x) :
    (∃ e, fault.Now e ∧ x.2 = s) ∨
      (∀ e, ¬fault.Now e) ∧ runFault h fault.later (f a) s' = some x := by
  cases fault with
  | none =>
    refine .inr ⟨fun e hnow => absurd hnow (by simp [Fault.Now]), ?_⟩
    rw [runFault, run_bind, run_perform, hc, andThen_ok] at hx
    exact hx
  | some ek =>
    obtain ⟨e, n⟩ := ek
    rcases runFailing_perform_bind_cases h hc hx with ⟨rfl, hs⟩ | ⟨k, rfl, hrest⟩
    · exact .inl ⟨e, rfl, hs⟩
    · exact .inr ⟨fun e' hnow => absurd hnow (by simp [Fault.Now]), hrest⟩

/-- A sequence whose first call raises by itself, unless it meets the fault, ends there. -/
theorem runFault_perform_bind_error {c : C} {e : ε} (hc : h c s = (.error e, s))
    {f : R c → Prog C R ε α} {x : Except ε α × σ}
    (hx : runFault h fault (perform c >>= f) s = some x) : x.2 = s := by
  cases fault with
  | none =>
    rw [runFault, run_bind, run_perform, hc, andThen_error, Option.some.injEq] at hx
    rw [← hx]
  | some ek =>
    obtain ⟨e', n⟩ := ek
    cases n with
    | zero =>
      rw [runFault, runFailing_perform_bind_zero, Option.some.injEq] at hx
      rw [← hx]
    | succ n =>
      rw [runFault, runFailing_perform_bind_error h e' hc] at hx
      exact absurd hx (by simp)

/-- Mapping over a program's value leaves its effect alone. -/
theorem runFault_map {p : Prog C R ε α} {f : α → β} {x : Except ε β × σ}
    (hx : runFault h fault (f <$> p) s = some x) :
    ∃ y, runFault h fault p s = some y ∧ x.2 = y.2 := by
  cases fault with
  | none =>
    rw [runFault, run_map, Option.some.injEq] at hx
    exact ⟨run h p s, rfl, by rw [← hx]⟩
  | some ek =>
    rw [runFault, runFailing_map, Option.map_eq_some_iff] at hx
    obtain ⟨y, hy, rfl⟩ := hx
    exact ⟨y, hy, rfl⟩

theorem snd_run_catchWith (p : Prog C R ε α) (g : ε → α) (s : σ) :
    (run h (catchWith p fun e => ret (g e)) s).2 = (run h p s).2 := by
  rw [run_catchWith]
  rcases run h p s with ⟨_ | a, s'⟩
  · rfl
  · rfl

theorem runFailing_catchWith (e : ε) (n : ℕ) (p : Prog C R ε α) (g : ε → α) (s : σ) :
    (runFailing h e n (catchWith p fun e => ret (g e)) s).map Prod.snd =
      (runFailing h e n p s).map Prod.snd := by
  induction p generalizing n s with
  | ret a => rfl
  | raise e' => rw [catchWith, runFailing_ret, runFailing_raise]
  | call c k ih =>
    rw [catchWith]
    cases n with
    | zero =>
      rw [runFailing_call_zero, runFailing_call_zero, Option.map_some, Option.map_some,
        snd_run_catchWith]
    | succ n => exact ih _ n _

/-- A `try` whose handler makes no call leaves the store its body leaves. -/
theorem runFault_catchWith {p : Prog C R ε α} {g : ε → α} {x : Except ε α × σ}
    (hx : runFault h fault (catchWith p fun e => ret (g e)) s = some x) :
    ∃ y, runFault h fault p s = some y ∧ x.2 = y.2 := by
  cases fault with
  | none =>
    refine ⟨run h p s, rfl, ?_⟩
    rw [← Option.some.inj hx, snd_run_catchWith]
  | some ek =>
    have hsnd := runFailing_catchWith (h := h) ek.1 ek.2 p g s
    rw [show runFailing h ek.1 ek.2 (catchWith p fun e => ret (g e)) s = some x from hx,
      Option.map_some] at hsnd
    obtain ⟨y, hy, hxy⟩ := Option.map_eq_some_iff.mp hsnd.symm
    exact ⟨y, hy, hxy.symm⟩

/-- The invariant rule for a run under a fault. -/
theorem runFault_invariant {P : C → Prop} {I : σ → Prop}
    (hstep : ∀ c, P c → ∀ s, I s → I (h c s).2) {p : Prog C R ε α} (hp : Uses P p) (hs : I s)
    {x : Except ε α × σ} (hx : runFault h fault p s = some x) : I x.2 := by
  cases fault with
  | none =>
    rw [← Option.some.inj hx]
    exact run_invariant h hstep hp hs
  | some ek => exact runFailing_invariant h hstep hp hs hx

end Prog

end DigitalLedger
