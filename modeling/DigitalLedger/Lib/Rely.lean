import DigitalLedger.Lib.Prog
import DigitalLedger.Lib.Trace
import Mathlib.Logic.Function.Basic

/-!
# Programs among others

A server runs many programs over one store.  Each begins when a request comes in, with the
store as it is then, takes its calls one at a time between those of the others, and may be
dropped for a later request before it has ended.  What holds however that goes is proved of
one program at a time: between two of its calls the store may *drift*, in the ways the
others are allowed to change it, and each call of its own is such a change and keeps the
invariant.

## Main definitions

* `Prog.Abides h G I Q p s` — started from `s`, the program `p` keeps the invariant `I` and
  changes the store only along `G`, if the others do; what it returns satisfies `Q`.
* `Pool`, `Pool.act` — programs in progress over a store, and what can happen next.

## Main results

* `Prog.Abides.bind`, `Prog.Abides.perform`, `Prog.Abides.of_uses` — the rules for one
  program.
* `Pool.invariant` — the rule for all of them.
-/

namespace DigitalLedger

namespace Prog

variable {C : Type} {R : C → Type} {ε α β σ : Type}

/-- Among programs that change the store along `G` and keep `I`, so does this one, and what
it returns satisfies `Q`, then and later. -/
def Abides (h : Handler C R ε σ) (G : σ → σ → Prop) (I : σ → Prop) (Q : α → σ → Prop) :
    Prog C R ε α → σ → Prop
  | ret a, s => ∀ s', G s s' → I s' → Q a s'
  | raise _, _ => True
  | call c k, s => ∀ s', G s s' → I s' →
      G s' (h c s').2 ∧ I (h c s').2 ∧ Abides h G I Q (k (h c s').1) (h c s').2

namespace Abides

variable {h : Handler C R ε σ} {G : σ → σ → Prop} {I : σ → Prop} {Q : α → σ → Prop}
  {p : Prog C R ε α} {s s' : σ}

/-- What abides goes on to, however the store has drifted. -/
theorem drift (htrans : ∀ {a b c}, G a b → G b c → G a c) (hp : Abides h G I Q p s)
    (hdrift : G s s') : Abides h G I Q p s' := by
  cases p with
  | ret a => exact fun s'' hs'' => hp s'' (htrans hdrift hs'')
  | raise e => trivial
  | call c k => exact fun s'' hs'' => hp s'' (htrans hdrift hs'')

section Rules

variable (hrefl : ∀ a, G a a) (htrans : ∀ {a b c}, G a b → G b c → G a c)

include hrefl htrans

/-- The rule of composition: what follows is begun where the store may have drifted to. -/
theorem bind {f : α → Prog C R ε β} {Q' : β → σ → Prop} (hI : I s) (hp : Abides h G I Q p s)
    (hf : ∀ a s', G s s' → I s' → Q a s' → Abides h G I Q' (f a) s') :
    Abides h G I Q' (p >>= f) s := by
  induction p generalizing s with
  | ret a => exact hf a s (hrefl s) hI (hp s (hrefl s) hI)
  | raise e => trivial
  | call c k ih =>
    intro s' hs' hI'
    obtain ⟨hG, hIc, hk⟩ := hp s' hs' hI'
    exact ⟨hG, hIc, ih _ hIc hk fun a s'' hs'' => hf a s'' (htrans (htrans hs' hG) hs'')⟩

end Rules

theorem ret {a : α} (hQ : ∀ s', G s s' → I s' → Q a s') : Abides h G I Q (.ret a) s := hQ

/-- A single call. -/
theorem perform {c : C} {Q : R c → σ → Prop}
    (hc : ∀ s', G s s' → I s' → G s' (h c s').2 ∧ I (h c s').2 ∧
      ∀ a, (h c s').1 = .ok a → ∀ s'', G (h c s').2 s'' → I s'' → Q a s'') :
    Abides h G I Q (Prog.perform c : Prog C R ε (R c)) s := by
  intro s' hs' hI
  obtain ⟨hG, hI', hQ⟩ := hc s' hs' hI
  refine ⟨hG, hI', ?_⟩
  cases ha : (h c s').1 with
  | ok a => exact hQ a ha
  | error e => trivial

/-- A program abides if all calls it may make do, whatever they are answered. -/
theorem of_uses {P : C → Prop} (htrans : ∀ {a b c}, G a b → G b c → G a c) (hp : Uses P p)
    (hc : ∀ c s', G s s' → I s' → P c → G s' (h c s').2 ∧ I (h c s').2)
    (hQ : ∀ a s', G s s' → I s' → Q a s') : Abides h G I Q p s := by
  induction p generalizing s with
  | ret a => exact hQ a
  | raise e => trivial
  | call c k ih =>
    intro s' hs' hI
    obtain ⟨hG, hI'⟩ := hc c s' hs' hI hp.head
    have hdrift : ∀ {s''}, G (h c s').2 s'' → G s s'' := fun hs'' =>
      htrans (htrans hs' hG) hs''
    exact ⟨hG, hI', ih _ (hp.next _) (fun c' s'' hs'' => hc c' s'' (hdrift hs''))
      fun a s'' hs'' => hQ a s'' (hdrift hs'')⟩

end Abides

end Prog

/-! ### Many programs -/

/-- A store, and what the programs over it have left to do. -/
structure Pool (ι σ C : Type) (R : C → Type) (ε α : Type) where
  store : σ
  threads : ι → Prog C R ε α

namespace Pool

variable {ι σ C E : Type} {R : C → Type} {ε α : Type}

/-- What can happen next. -/
inductive Act (ι E : Type)
  /-- A request comes in; the program it is for drops what it has left to do. -/
  | begin (i : ι) (e : E)
  /-- A program makes its next call, if it has one left. -/
  | step (i : ι)

variable [DecidableEq ι] (h : ι → Handler C R ε σ) (code : ι → E → σ → Prog C R ε α)

def act (x : Pool ι σ C R ε α) : Act ι E → Pool ι σ C R ε α
  | .begin i e => { x with threads := Function.update x.threads i (code i e x.store) }
  | .step i =>
    match x.threads i with
    | .call c k =>
      { store := (h i c x.store).2
        threads := Function.update x.threads i (k (h i c x.store).1) }
    | _ => x

variable {h code} {G : σ → σ → Prop} {I : σ → Prop} {x : Pool ι σ C R ε α}

/-- The invariant holds, and all programs in progress abide. -/
structure Sound (h : ι → Handler C R ε σ) (G : σ → σ → Prop) (I : σ → Prop)
    (x : Pool ι σ C R ε α) : Prop where
  store : I x.store
  threads : ∀ i, (x.threads i).Abides (h i) G I (fun _ _ => True) x.store

/-- One step. -/
theorem Sound.act (hrefl : ∀ a, G a a) (htrans : ∀ {a b c}, G a b → G b c → G a c)
    (hcode : ∀ i e s, I s → (code i e s).Abides (h i) G I (fun _ _ => True) s)
    (hx : x.Sound h G I) (a : Act ι E) :
    (x.act h code a).Sound h G I ∧ G x.store (x.act h code a).store := by
  cases a with
  | begin i e =>
    refine ⟨⟨hx.store, fun j => ?_⟩, hrefl _⟩
    by_cases hj : j = i
    · subst hj
      rw [Pool.act]
      dsimp only
      rw [Function.update_self]
      exact hcode j e x.store hx.store
    · rw [Pool.act]
      dsimp only
      rw [Function.update_of_ne hj]
      exact hx.threads j
  | step i =>
    have hi := hx.threads i
    rw [Pool.act]
    cases hthread : x.threads i with
    | ret a => exact ⟨hx, hrefl _⟩
    | raise e => exact ⟨hx, hrefl _⟩
    | call c k =>
      rw [hthread] at hi
      obtain ⟨hG, hI, hk⟩ := hi x.store (hrefl _) hx.store
      refine ⟨⟨hI, fun j => ?_⟩, hG⟩
      by_cases hj : j = i
      · subst hj
        dsimp only
        rw [Function.update_self]
        exact hk
      · -- for the others, the call was a drift of the store
        dsimp only
        rw [Function.update_of_ne hj]
        exact (hx.threads j).drift htrans hG

/-- **The rule for programs among others**: where every program abides, the invariant holds
whatever happens, and the store has changed along `G`. -/
theorem invariant (hrefl : ∀ a, G a a) (htrans : ∀ {a b c}, G a b → G b c → G a c)
    (hcode : ∀ i e s, I s → (code i e s).Abides (h i) G I (fun _ _ => True) s)
    (hx : x.Sound h G I) (acts : List (Act ι E)) :
    (Trace.after (Pool.act h code) x acts).Sound h G I ∧
      G x.store (Trace.after (Pool.act h code) x acts).store := by
  induction acts generalizing x with
  | nil => exact ⟨hx, hrefl _⟩
  | cons a acts ih =>
    obtain ⟨hsound, hG⟩ := hx.act hrefl htrans hcode a
    obtain ⟨hsound', hG'⟩ := ih hsound
    exact ⟨hsound', htrans hG hG'⟩

end Pool

end DigitalLedger
