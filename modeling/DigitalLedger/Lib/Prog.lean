import Mathlib.Data.Nat.Notation
import Mathlib.Logic.Basic

/-!
# Programs over atomic calls

A program talks to a store only through *calls*, each of which the store answers
in one indivisible step.  What a program is does not fix how it is scheduled: the
same tree of calls is run from start to finish, is cut short by a call that
raises, or is interleaved with other programs, and the three readings are defined
here and in `DigitalLedger.Lib.Interleave` for an arbitrary signature of calls.

## Main definitions

* `Prog C R ε α` — programs making calls `c : C` with answers in `R c`, raising
  exceptions in `ε` and returning values in `α`.
* `Handler C R ε σ` — what a store of type `σ` answers to each call.
* `Prog.run` — the program executed on its own.
* `Prog.runFailing` — the program executed up to a call that raises instead.
* `Prog.Uses P p` — every call `p` may make satisfies `P`.
* `Prog.Meets h P p s` — every call the run of `p` from `s` makes satisfies `P`.
* `Prog.Exact h P p s` — that run ends normally exactly if they do.

## Main results

* `Prog.run_bind`, `Prog.run_perform` — running a sequence, and a single call.
* `Prog.run_invariant` — what every call of a program preserves, the program
  preserves.
* `Prog.Meets.bind`, `Prog.Meets.run_view` — the rule of composition for the calls of a
  run, and the rule by which a run is the same on a view of the store.
* `Prog.Exact.bind` — the rule of composition for normal ends.
-/

namespace DigitalLedger

/-- A program over atomic calls: it returns, raises, or makes a call and goes on
with its answer, which may itself be an exception. -/
inductive Prog (C : Type) (R : C → Type) (ε α : Type)
  /-- The program returns a value. -/
  | ret (a : α)
  /-- The program ends in an uncaught exception. -/
  | raise (e : ε)
  /-- The program makes the call `c` and continues with `k`. -/
  | call (c : C) (k : Except ε (R c) → Prog C R ε α)

/-- The answers of a store of type `σ` to the calls of a signature, together with
the store each call leaves behind. -/
abbrev Handler (C : Type) (R : C → Type) (ε σ : Type) :=
  (c : C) → σ → Except ε (R c) × σ

namespace Prog

variable {C : Type} {R : C → Type} {ε α β γ σ : Type}

/-- Sequential composition; an exception skips the continuation. -/
def bind : Prog C R ε α → (α → Prog C R ε β) → Prog C R ε β
  | ret a, f => f a
  | raise e, _ => raise e
  | call c k, f => call c fun r => bind (k r) f

/-- `try p except e: f e`. -/
def catchWith : Prog C R ε α → (ε → Prog C R ε α) → Prog C R ε α
  | ret a, _ => ret a
  | raise e, f => f e
  | call c k, f => call c fun r => catchWith (k r) f

/-- A single call; its exception, if any, is raised. -/
def perform (c : C) : Prog C R ε (R c) :=
  call c fun
    | .ok a => ret a
    | .error e => raise e

instance : Monad (Prog C R ε) where
  pure := ret
  bind := bind

@[simp] theorem pure_eq (a : α) : (pure a : Prog C R ε α) = ret a := rfl

@[simp] theorem ret_bind (a : α) (f : α → Prog C R ε β) : ret a >>= f = f a := rfl

@[simp] theorem raise_bind (e : ε) (f : α → Prog C R ε β) : raise e >>= f = raise e := rfl

@[simp] theorem call_bind (c : C) (k : Except ε (R c) → Prog C R ε α)
    (f : α → Prog C R ε β) : call c k >>= f = call c fun r => k r >>= f := rfl

theorem bind_ret (p : Prog C R ε α) : p >>= ret = p := by
  induction p with
  | ret a => rfl
  | raise e => rfl
  | call c k ih => rw [call_bind]; exact congrArg (call c) (funext ih)

theorem bind_assoc' (p : Prog C R ε α) (f : α → Prog C R ε β) (g : β → Prog C R ε γ) :
    (p >>= f) >>= g = p >>= fun a => f a >>= g := by
  induction p with
  | ret a => rfl
  | raise e => rfl
  | call c k ih => simp only [call_bind]; exact congrArg (call c) (funext ih)

instance : LawfulMonad (Prog C R ε) :=
  LawfulMonad.mk' (Prog C R ε) bind_ret (fun _ _ => rfl) bind_assoc'

@[simp] theorem map_ret (f : α → β) (a : α) : f <$> (ret a : Prog C R ε α) = ret (f a) := rfl

@[simp] theorem map_raise (f : α → β) (e : ε) :
    f <$> (raise e : Prog C R ε α) = raise e := rfl

@[simp] theorem map_call (f : α → β) (c : C) (k : Except ε (R c) → Prog C R ε α) :
    f <$> call c k = call c fun r => f <$> k r := rfl

/-! ### Running a program on its own -/

variable (h : Handler C R ε σ)

/-- The outcome of a program executed from start to finish, and the store it
leaves. -/
def run : Prog C R ε α → σ → Except ε α × σ
  | ret a, s => (.ok a, s)
  | raise e, s => (.error e, s)
  | call c k, s => run (k (h c s).1) (h c s).2

@[simp] theorem run_ret (a : α) (s : σ) : run h (ret a : Prog C R ε α) s = (.ok a, s) := rfl

@[simp] theorem run_raise (e : ε) (s : σ) :
    run h (raise e : Prog C R ε α) s = (.error e, s) := rfl

@[simp] theorem run_call (c : C) (k : Except ε (R c) → Prog C R ε α) (s : σ) :
    run h (call c k) s = run h (k (h c s).1) (h c s).2 := rfl

/-- How a finished run goes on with a continuation. -/
def andThen (f : α → Prog C R ε β) : Except ε α × σ → Except ε β × σ
  | (.ok a, s) => run h (f a) s
  | (.error e, s) => (.error e, s)

@[simp] theorem andThen_ok (f : α → Prog C R ε β) (a : α) (s : σ) :
    andThen h f (.ok a, s) = run h (f a) s := rfl

@[simp] theorem andThen_error (f : α → Prog C R ε β) (e : ε) (s : σ) :
    andThen h f (.error e, s) = (.error e, s) := rfl

/-- Running a sequence is running its parts one after the other. -/
theorem run_bind (p : Prog C R ε α) (f : α → Prog C R ε β) (s : σ) :
    run h (p >>= f) s = andThen h f (run h p s) := by
  induction p generalizing s with
  | ret a => rfl
  | raise e => rfl
  | call c k ih => rw [call_bind, run_call, run_call, ih]

@[simp] theorem run_perform (c : C) (s : σ) : run h (perform c : Prog C R ε (R c)) s = h c s := by
  rw [perform, run_call]
  rcases h c s with ⟨_ | _, _⟩ <;> rfl

/-- Mapping over a program's value leaves its effect alone. -/
theorem run_map (f : α → β) (p : Prog C R ε α) (s : σ) :
    run h (f <$> p) s = ((run h p s).1.map f, (run h p s).2) := by
  induction p generalizing s with
  | ret a => rfl
  | raise e => rfl
  | call c k ih => rw [map_call, run_call, run_call, ih]

/-- A transitive relation between the stores before and after composes along a
sequence. -/
theorem run_bind_trans {r : σ → σ → Prop} (htrans : ∀ {a b c}, r a b → r b c → r a c)
    {p : Prog C R ε α} {f : α → Prog C R ε β} {s : σ} (hp : r s (run h p s).2)
    (hf : ∀ a s', r s' (run h (f a) s').2) : r s (run h (p >>= f) s).2 := by
  rw [run_bind]
  rcases hrun : run h p s with ⟨_ | a, s'⟩
  · rw [hrun] at hp
    exact hp
  · rw [hrun] at hp
    exact htrans hp (hf a s')

theorem run_catchWith (p : Prog C R ε α) (f : ε → Prog C R ε α) (s : σ) :
    run h (catchWith p f) s =
      match run h p s with
      | (.ok a, s') => (.ok a, s')
      | (.error e, s') => run h (f e) s' := by
  induction p generalizing s with
  | ret a => rfl
  | raise e => rfl
  | call c k ih => rw [catchWith, run_call, run_call, ih]

/-! ### Running a program up to a call that raises -/

/-- `runFailing h e n p s` runs `p` with its call number `n`, counted from zero,
raising `e` without having taken effect; it is `none` when `p` makes no such
call. -/
def runFailing (e : ε) : ℕ → Prog C R ε α → σ → Option (Except ε α × σ)
  | _, ret _, _ => none
  | _, raise _, _ => none
  | 0, call _ k, s => some (run h (k (.error e)) s)
  | n + 1, call c k, s => runFailing e n (k (h c s).1) (h c s).2

@[simp] theorem runFailing_ret (e : ε) (n : ℕ) (a : α) (s : σ) :
    runFailing h e n (ret a : Prog C R ε α) s = none := by cases n <;> rfl

@[simp] theorem runFailing_raise (e e' : ε) (n : ℕ) (s : σ) :
    runFailing h e n (raise e' : Prog C R ε α) s = none := by cases n <;> rfl

@[simp] theorem runFailing_call_zero (e : ε) (c : C) (k : Except ε (R c) → Prog C R ε α)
    (s : σ) : runFailing h e 0 (call c k) s = some (run h (k (.error e)) s) := rfl

@[simp] theorem runFailing_call_succ (e : ε) (n : ℕ) (c : C)
    (k : Except ε (R c) → Prog C R ε α) (s : σ) :
    runFailing h e (n + 1) (call c k) s = runFailing h e n (k (h c s).1) (h c s).2 := rfl

theorem runFailing_map (e : ε) (n : ℕ) (f : α → β) (p : Prog C R ε α) (s : σ) :
    runFailing h e n (f <$> p) s = (runFailing h e n p s).map fun x => (x.1.map f, x.2) := by
  induction p generalizing n s with
  | ret a => cases n <;> rfl
  | raise e' => cases n <;> rfl
  | call c k ih =>
    cases n with
    | zero => rw [map_call, runFailing_call_zero, runFailing_call_zero, Option.map_some, run_map]
    | succ n => exact ih _ n _

/-- A sequence whose first call raises ends there. -/
theorem runFailing_perform_bind_zero (e : ε) (c : C) (f : R c → Prog C R ε α) (s : σ) :
    runFailing h e 0 (perform c >>= f) s = some (.error e, s) := rfl

/-- A sequence whose first call is answered goes on with the answer. -/
theorem runFailing_perform_bind_succ (e : ε) {c : C} {a : R c} {s s' : σ}
    (hc : h c s = (.ok a, s')) (n : ℕ) (f : R c → Prog C R ε α) :
    runFailing h e (n + 1) (perform c >>= f) s = runFailing h e n (f a) s' := by
  rw [perform, call_bind, runFailing_call_succ, hc]
  rfl

/-- A sequence whose first call would be answered is cut at that call, or later. -/
theorem runFailing_perform_bind_cases {e : ε} {c : C} {a : R c} {s s' : σ}
    (hc : h c s = (.ok a, s')) {n : ℕ} {f : R c → Prog C R ε α} {x : Except ε α × σ}
    (hx : runFailing h e n (perform c >>= f) s = some x) :
    (n = 0 ∧ x.2 = s) ∨ ∃ k, n = k + 1 ∧ runFailing h e k (f a) s' = some x := by
  cases n with
  | zero =>
    rw [runFailing_perform_bind_zero, Option.some.injEq] at hx
    exact .inl ⟨rfl, by rw [← hx]⟩
  | succ k =>
    rw [runFailing_perform_bind_succ h e hc] at hx
    exact .inr ⟨k, rfl, hx⟩

/-- A sequence whose first call is answered by an exception makes no later call. -/
theorem runFailing_perform_bind_error (e : ε) {c : C} {e' : ε} {s s' : σ}
    (hc : h c s = (.error e', s')) (n : ℕ) (f : R c → Prog C R ε α) :
    runFailing h e (n + 1) (perform c >>= f) s = none := by
  rw [perform, call_bind, runFailing_call_succ, hc]
  exact runFailing_raise h e e' n s'

/-! ### The calls a program may make -/

/-- Every call the program may make, whatever the answers to the earlier ones,
satisfies `P`. -/
inductive Uses (P : C → Prop) : Prog C R ε α → Prop
  | ret (a : α) : Uses P (ret a)
  | raise (e : ε) : Uses P (raise e)
  | call {c : C} {k : Except ε (R c) → Prog C R ε α} (hc : P c) (hk : ∀ r, Uses P (k r)) :
      Uses P (call c k)

namespace Uses

variable {P Q : C → Prop} {p : Prog C R ε α}

theorem head {c : C} {k : Except ε (R c) → Prog C R ε α} (h : Uses P (.call c k)) : P c := by
  cases h with
  | call hc hk => exact hc

theorem next {c : C} {k : Except ε (R c) → Prog C R ε α} (h : Uses P (.call c k))
    (r : Except ε (R c)) : Uses P (k r) := by
  cases h with
  | call hc hk => exact hk r

theorem mono (hp : Uses P p) (hPQ : ∀ c, P c → Q c) : Uses Q p := by
  induction hp with
  | ret a => exact .ret a
  | raise e => exact .raise e
  | call hc hk ih => exact .call (hPQ _ hc) ih

theorem bind {f : α → Prog C R ε β} (hp : Uses P p) (hf : ∀ a, Uses P (f a)) :
    Uses P (p >>= f) := by
  induction hp with
  | ret a => exact hf a
  | raise e => exact .raise e
  | call hc hk ih => exact .call hc ih

theorem map (f : α → β) (hp : Uses P p) : Uses P (f <$> p) := by
  induction hp with
  | ret a => exact .ret _
  | raise e => exact .raise e
  | call hc hk ih => exact .call hc ih

theorem of_map {f : α → β} (hp : Uses P (f <$> p)) : Uses P p := by
  induction p with
  | ret a => exact .ret a
  | raise e => exact .raise e
  | call c k ih => exact .call hp.head fun r => ih r (hp.next r)

theorem catchWith {f : ε → Prog C R ε α} (hp : Uses P p) (hf : ∀ e, Uses P (f e)) :
    Uses P (Prog.catchWith p f) := by
  induction hp with
  | ret a => exact .ret a
  | raise e => exact hf e
  | call hc hk ih => exact .call hc ih

theorem perform {c : C} (hc : P c) : Uses P (perform c : Prog C R ε (R c)) := by
  refine .call hc fun r => ?_
  cases r with
  | error e => exact .raise e
  | ok a => exact .ret a

theorem trivially (p : Prog C R ε α) : Uses (fun _ => True) p := by
  induction p with
  | ret a => exact .ret a
  | raise e => exact .raise e
  | call c k ih => exact .call trivial ih

end Uses

variable {P : C → Prop}

/-- **The invariant rule for a single program**: what each of its calls preserves,
the whole run preserves. -/
theorem run_invariant {I : σ → Prop} (hstep : ∀ c, P c → ∀ s, I s → I (h c s).2)
    {p : Prog C R ε α} (hp : Uses P p) {s : σ} (hs : I s) : I (run h p s).2 := by
  induction p generalizing s with
  | ret a => exact hs
  | raise e => exact hs
  | call c k ih => exact ih _ (hp.next _) (hstep c hp.head s hs)

/-- The invariant rule for a run one of whose calls raises. -/
theorem runFailing_invariant {I : σ → Prop} (hstep : ∀ c, P c → ∀ s, I s → I (h c s).2)
    {p : Prog C R ε α} (hp : Uses P p) {e : ε} {n : ℕ} {s : σ} (hs : I s)
    {x : Except ε α × σ} (hx : runFailing h e n p s = some x) : I x.2 := by
  induction p generalizing s n with
  | ret a => simp at hx
  | raise e => simp at hx
  | call c k ih =>
    cases n with
    | zero =>
      rw [runFailing_call_zero, Option.some.injEq] at hx
      rw [← hx]
      exact run_invariant h hstep (hp.next _) hs
    | succ n => exact ih _ (hp.next _) (hstep c hp.head s hs) hx

/-! ### The calls a run makes -/

/-- The calls of the run of `p` from `s` satisfy `P`, each at the store it meets. -/
def Meets (P : C → σ → Prop) : Prog C R ε α → σ → Prop
  | ret _, _ => True
  | raise _, _ => True
  | call c k, s => P c s ∧ Meets P (k (h c s).1) (h c s).2

namespace Meets

variable {h} {P Q : C → σ → Prop} {p : Prog C R ε α} {s : σ}

theorem mono (hp : Meets h P p s) (hPQ : ∀ c s, P c s → Q c s) : Meets h Q p s := by
  induction p generalizing s with
  | ret a => trivial
  | raise e => trivial
  | call c k ih => exact ⟨hPQ c s hp.1, ih _ hp.2⟩

/-- The rule of composition: the second part is run on what the first part leaves. -/
theorem bind {f : α → Prog C R ε β} (hp : Meets h P p s)
    (hf : ∀ a, (run h p s).1 = .ok a → Meets h P (f a) (run h p s).2) :
    Meets h P (p >>= f) s := by
  induction p generalizing s with
  | ret a => exact hf a rfl
  | raise e => trivial
  | call c k ih => exact ⟨hp.1, ih _ hp.2 hf⟩

theorem map (f : α → β) (hp : Meets h P p s) : Meets h P (f <$> p) s := by
  induction p generalizing s with
  | ret a => trivial
  | raise e => trivial
  | call c k ih => exact ⟨hp.1, ih _ hp.2⟩

theorem catchWith {f : ε → Prog C R ε α} (hp : Meets h P p s)
    (hf : ∀ e, (run h p s).1 = .error e → Meets h P (f e) (run h p s).2) :
    Meets h P (Prog.catchWith p f) s := by
  induction p generalizing s with
  | ret a => trivial
  | raise e => exact hf e rfl
  | call c k ih => exact ⟨hp.1, ih _ hp.2 hf⟩

theorem perform {c : C} (hc : P c s) : Meets h P (perform c : Prog C R ε (R c)) s := by
  refine ⟨hc, ?_⟩
  cases (h c s).1 with
  | ok a => trivial
  | error e => trivial

/-- What every run of a program calls, this one does. -/
theorem of_uses {P' : C → Prop} (hp : Uses P' p) (hP : ∀ c s, P' c → P c s) : Meets h P p s := by
  induction p generalizing s with
  | ret a => trivial
  | raise e => trivial
  | call c k ih => exact ⟨hP c s hp.head, ih _ (hp.next _)⟩

/-- **The invariant rule for the calls a run makes.** -/
theorem run_invariant {I : σ → Prop} (hstep : ∀ c s, P c s → I s → I (h c s).2)
    (hp : Meets h P p s) (hs : I s) : I (run h p s).2 := by
  induction p generalizing s with
  | ret a => exact hs
  | raise e => exact hs
  | call c k ih => exact ih _ hp.2 (hstep c s hp.1 hs)

/-- **The simulation rule**: where every call a run makes is answered the same way
on the view of the store, so is the whole run. -/
theorem run_view {σ' : Type} {h' : Handler C R ε σ'} {v : σ → σ'}
    (hview : ∀ c s, P c s → h' c (v s) = ((h c s).1, v (h c s).2)) (hp : Meets h P p s) :
    run h' p (v s) = ((run h p s).1, v (run h p s).2) := by
  induction p generalizing s with
  | ret a => rfl
  | raise e => rfl
  | call c k ih => rw [run_call, hview c s hp.1, run_call, ih _ hp.2]

end Meets

/-! ### The values a program may return -/

/-- Every value the program may return, whatever its calls are answered, satisfies `Q`. -/
def Yields (Q : α → Prop) : Prog C R ε α → Prop
  | ret a => Q a
  | raise _ => True
  | call _ k => ∀ r, Yields Q (k r)

namespace Yields

variable {Q : α → Prop} {p : Prog C R ε α}

theorem run (hp : Yields Q p) {s : σ} {a : α} (ha : (Prog.run h p s).1 = .ok a) : Q a := by
  induction p generalizing s with
  | ret a' =>
    rw [← Except.ok.inj ha]
    exact hp
  | raise e => exact absurd ha (by simp)
  | call c k ih => exact ih _ (hp _) ha

/-- The rule of composition; what the first part returns may be anything it may return. -/
theorem bind {Q' : β → Prop} {f : α → Prog C R ε β} (hp : Yields Q p)
    (hf : ∀ a, Q a → Yields Q' (f a)) : Yields Q' (p >>= f) := by
  induction p with
  | ret a => exact hf a hp
  | raise e => trivial
  | call c k ih => exact fun r => ih r (hp r)

theorem trivially (p : Prog C R ε α) : Yields (fun _ => True) p := by
  induction p with
  | ret a => trivial
  | raise e => trivial
  | call c k ih => exact ih

end Yields

/-! ### Programs that end normally exactly if their calls are answered well -/

section Returns

variable {h} {P : C → σ → Prop} {p : Prog C R ε α} {s : σ}

variable (h) in
/-- The run of the program from `s` ends normally. -/
def Returns (p : Prog C R ε α) (s : σ) : Prop := ∃ a, (run h p s).1 = .ok a

theorem returns_ret (a : α) : Returns h (ret a : Prog C R ε α) s := ⟨a, rfl⟩

theorem not_returns_raise (e : ε) : ¬Returns h (raise e : Prog C R ε α) s := by
  rintro ⟨a, ha⟩
  exact absurd ha (by simp)

theorem returns_bind {f : α → Prog C R ε β} :
    Returns h (p >>= f) s ↔
      ∃ a, (run h p s).1 = .ok a ∧ Returns h (f a) (run h p s).2 := by
  unfold Returns
  rw [run_bind]
  rcases run h p s with ⟨e | a, s'⟩
  · simp
  · simp

theorem returns_map {f : α → β} : Returns h (f <$> p) s ↔ Returns h p s := by
  rw [Returns, Returns, run_map]
  cases (run h p s).1 with
  | ok a => exact iff_of_true ⟨f a, rfl⟩ ⟨a, rfl⟩
  | error e => exact iff_of_false (by rintro ⟨b, hb⟩; cases hb) (by rintro ⟨a, ha⟩; cases ha)

theorem meets_bind {f : α → Prog C R ε β} :
    Meets h P (p >>= f) s ↔
      Meets h P p s ∧ ∀ a, (run h p s).1 = .ok a → Meets h P (f a) (run h p s).2 := by
  refine ⟨fun hmeets => ?_, fun hmeets => hmeets.1.bind hmeets.2⟩
  induction p generalizing s with
  | ret a => exact ⟨trivial, fun a' ha' => Except.ok.inj ha' ▸ hmeets⟩
  | raise e => exact ⟨trivial, fun a ha => absurd ha (by simp)⟩
  | call c k ih =>
    obtain ⟨hrest, hf⟩ := ih _ hmeets.2
    exact ⟨⟨hmeets.1, hrest⟩, hf⟩

variable (h P) in
/-- The run of the program from `s` ends normally exactly if each of its calls satisfies
`P`. -/
def Exact (p : Prog C R ε α) (s : σ) : Prop := Returns h p s ↔ Meets h P p s

namespace Exact

theorem ret (a : α) : Exact h P (ret a : Prog C R ε α) s :=
  iff_of_true (returns_ret a) trivial

/-- The rule of composition. -/
theorem bind {f : α → Prog C R ε β} (hp : Exact h P p s)
    (hf : ∀ a, (run h p s).1 = .ok a → Exact h P (f a) (run h p s).2) :
    Exact h P (p >>= f) s := by
  rw [Exact, returns_bind, meets_bind]
  constructor
  · rintro ⟨a, ha, hreturns⟩
    refine ⟨hp.mp ⟨a, ha⟩, fun a' ha' => (hf a' ha').mp ?_⟩
    rw [ha, Except.ok.injEq] at ha'
    rw [← ha']
    exact hreturns
  · rintro ⟨hmeets, hrest⟩
    obtain ⟨a, ha⟩ := hp.mpr hmeets
    exact ⟨a, ha, (hf a ha).mpr (hrest a ha)⟩

end Exact

end Returns

end Prog

end DigitalLedger
