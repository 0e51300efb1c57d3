import DigitalLedger.Lib.Prog

/-!
# Two runs side by side

Two programs, run from stores that are alike, may end the same way and leave stores that
are alike: an observer of the outcome cannot tell them apart.  The rules follow the
structure of the programs.

## Main definitions

* `Prog.Alike h E p p'` — from stores related by `E`, the runs of `p` and `p'` have one
  outcome and leave stores related by `E`.

## Main results

* `Prog.Alike.bind`, `Prog.Alike.catchWith` — the rules of composition.
* `Prog.Alike.of_uses` — a program is alike to itself if each of its calls is.
-/

namespace DigitalLedger

namespace Prog

variable {C : Type} {R : C → Type} {ε α β σ : Type}

/-- From stores related by `E` the two programs have the same outcome, and they leave
stores related by `E`. -/
def Alike (h : Handler C R ε σ) (E : σ → σ → Prop) (p p' : Prog C R ε α) : Prop :=
  ∀ s s', E s s' → (run h p s).1 = (run h p' s').1 ∧ E (run h p s).2 (run h p' s').2

namespace Alike

variable {h : Handler C R ε σ} {E : σ → σ → Prop} {p p' : Prog C R ε α}

theorem ret (a : α) : Alike h E (.ret a) (.ret a) := fun _ _ hE => ⟨rfl, hE⟩

theorem raise (e : ε) : Alike h E (.raise e : Prog C R ε α) (.raise e) := fun _ _ hE => ⟨rfl, hE⟩

/-- The rule of composition. -/
theorem bind {f f' : α → Prog C R ε β} (hp : Alike h E p p') (hf : ∀ a, Alike h E (f a) (f' a)) :
    Alike h E (p >>= f) (p' >>= f') := by
  intro s s' hE
  obtain ⟨houtcome, hE'⟩ := hp s s' hE
  rw [run_bind, run_bind]
  rcases hrun : run h p s with ⟨r, t⟩
  rcases hrun' : run h p' s' with ⟨r', t'⟩
  rw [hrun, hrun'] at houtcome hE'
  obtain rfl : r = r' := houtcome
  cases r with
  | error e => exact ⟨rfl, hE'⟩
  | ok a => exact hf a t t' hE'

/-- The rule for `try`. -/
theorem catchWith {f f' : ε → Prog C R ε α} (hp : Alike h E p p')
    (hf : ∀ e, Alike h E (f e) (f' e)) :
    Alike h E (Prog.catchWith p f) (Prog.catchWith p' f') := by
  intro s s' hE
  obtain ⟨houtcome, hE'⟩ := hp s s' hE
  rw [run_catchWith, run_catchWith]
  rcases hrun : run h p s with ⟨r, t⟩
  rcases hrun' : run h p' s' with ⟨r', t'⟩
  rw [hrun, hrun'] at houtcome hE'
  obtain rfl : r = r' := houtcome
  cases r with
  | error e => exact hf e t t' hE'
  | ok a => exact ⟨rfl, hE'⟩

/-- A program is alike to itself if each of its calls is. -/
theorem of_uses {P : C → Prop}
    (hstep : ∀ c, P c → ∀ s s', E s s' → (h c s).1 = (h c s').1 ∧ E (h c s).2 (h c s').2)
    (hp : Uses P p) : Alike h E p p := by
  intro s s' hE
  induction p generalizing s s' with
  | ret a => exact ⟨rfl, hE⟩
  | raise e => exact ⟨rfl, hE⟩
  | call c k ih =>
    obtain ⟨houtcome, hE'⟩ := hstep c hp.head s s' hE
    rw [run_call, run_call, ← houtcome]
    exact ih _ (hp.next _) _ _ hE'

end Alike

end Prog

end DigitalLedger
