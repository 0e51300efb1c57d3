import DigitalLedger.Lib.Rely
import DigitalLedger.Lib.Trace

/-!
# Programs that guard their calls

A program that runs among others may meet any store at its next call.  What it can rely on
is that the store satisfies the common invariant then, and what its own earlier answers have
told it.  `Prog.Guards` says that on this ground every call the program makes meets a
condition; the condition is one on the call alone, so it outlives the store it was read
from.  Where every program in progress guards its calls, each under a mark it was given when
it was begun, a step of the pool is always a call that its mark allows.

## Main definitions

* `Prog.Guards h I P Q p` — the calls of `p`, at stores with the invariant `I`, satisfy `P`;
  what it returns satisfies `Q`.
* `Pool.Marked`, `Pool.actMarked` — a pool whose programs carry the marks they were begun
  under.
* `Pool.Guarded` — the invariant holds, and all programs guard their calls.
* `Pool.Alike` — two pools cannot be told apart by some of their programs.

## Main results

* `Prog.Guards.bind`, `Prog.Guards.of_uses` — the rules for programs.
* `Pool.Guarded.act`, `Pool.store_step` — what a step keeps, and what it is.
* `Pool.Alike.act`, `Pool.Alike.other` — the steps of those programs, and of the others.
-/

namespace DigitalLedger

namespace Prog

variable {C : Type} {R : C → Type} {ε α β σ : Type}

/-- The calls of a program satisfy `P`, whatever store with the invariant `I` each of them
meets, and what it returns satisfies `Q`. -/
def Guards (h : Handler C R ε σ) (I : σ → Prop) (P : C → Prop) (Q : α → Prop) :
    Prog C R ε α → Prop
  | ret a => Q a
  | raise _ => True
  | call c k => P c ∧ ∀ s, I s → Guards h I P Q (k (h c s).1)

namespace Guards

variable {h : Handler C R ε σ} {I : σ → Prop} {P : C → Prop} {Q : α → Prop}
  {p : Prog C R ε α}

theorem mono {P' : C → Prop} {Q' : α → Prop} (hp : Guards h I P Q p) (hP : ∀ c, P c → P' c)
    (hQ : ∀ a, Q a → Q' a) : Guards h I P' Q' p := by
  induction p with
  | ret a => exact hQ a hp
  | raise e => trivial
  | call c k ih => exact ⟨hP c hp.1, fun s hs => ih _ (hp.2 s hs)⟩

/-- The rule of composition. -/
theorem bind {f : α → Prog C R ε β} {Q' : β → Prop} (hp : Guards h I P Q p)
    (hf : ∀ a, Q a → Guards h I P Q' (f a)) : Guards h I P Q' (p >>= f) := by
  induction p with
  | ret a => exact hf a hp
  | raise e => trivial
  | call c k ih => exact ⟨hp.1, fun s hs => ih _ (hp.2 s hs)⟩

/-- A single call; what it is answered is an answer of a store with the invariant. -/
theorem perform {c : C} {Q : R c → Prop} (hc : P c)
    (hQ : ∀ s, I s → ∀ a, (h c s).1 = .ok a → Q a) :
    Guards h I P Q (Prog.perform c : Prog C R ε (R c)) := by
  refine ⟨hc, fun s hs => ?_⟩
  cases ha : (h c s).1 with
  | ok a => exact hQ s hs a ha
  | error e => trivial

/-- A program whose calls satisfy `P` whatever they are answered. -/
theorem of_uses (hp : Uses P p) (hQ : ∀ a, Q a) : Guards h I P Q p := by
  induction p with
  | ret a => exact hQ a
  | raise e => trivial
  | call c k ih => exact ⟨hp.head, fun s _ => ih _ (hp.next _)⟩

theorem map {f : α → β} {Q' : β → Prop} (hp : Guards h I P Q p) (hf : ∀ a, Q a → Q' (f a)) :
    Guards h I P Q' (f <$> p) := hp.bind fun a ha => hf a ha

theorem of_map {f : α → β} {Q' : β → Prop} (hp : Guards h I P Q' (f <$> p)) :
    Guards h I P (fun a => Q' (f a)) p := by
  induction p with
  | ret a => exact hp
  | raise e => trivial
  | call c k ih => exact ⟨hp.1, fun s hs => ih _ (hp.2 s hs)⟩

end Guards

end Prog

/-! ### Pools -/

namespace Pool

variable {ι σ C E L : Type} {R : C → Type} {ε α : Type}

/-- A pool, and the marks its programs were begun under. -/
abbrev Marked (ι σ C : Type) (R : C → Type) (ε α L : Type) := Pool ι σ C R ε α × (ι → L)

variable [DecidableEq ι] (h : ι → Handler C R ε σ) (code : ι → E → σ → Prog C R ε α)
  (mark : ι → E → σ → L)

/-- One step; a program that is begun is marked. -/
def actMarked (x : Marked ι σ C R ε α L) (a : Act ι E) : Marked ι σ C R ε α L :=
  (x.1.act h code a,
    match a with
    | .begin i e => Function.update x.2 i (mark i e x.1.store)
    | .step _ => x.2)

/-- The marks are not looked at. -/
theorem fst_after_actMarked (x : Marked ι σ C R ε α L) (acts : List (Act ι E)) :
    (Trace.after (actMarked h code mark) x acts).1 = Trace.after (Pool.act h code) x.1 acts := by
  induction acts generalizing x with
  | nil => rfl
  | cons a acts ih => exact ih _

section Step

variable {h code} {I : σ → Prop} {i : ι} {Pc : C → Prop} {Q : α → Prop} {x : Pool ι σ C R ε α}

/-- A program guards its calls as long as it is in progress. -/
theorem guards_act (hs : I x.store) (hi : (x.threads i).Guards (h i) I Pc Q) {a : Act ι E}
    (ha : ∀ e, a ≠ .begin i e) : ((x.act h code a).threads i).Guards (h i) I Pc Q := by
  cases a with
  | begin j e =>
    have hj : i ≠ j := fun hij => ha e (hij ▸ rfl)
    rw [Pool.act]
    dsimp only
    rw [Function.update_of_ne hj]
    exact hi
  | step j =>
    rw [Pool.act]
    cases hthread : x.threads j with
    | ret a => exact hi
    | raise e => exact hi
    | call c k =>
      dsimp only
      by_cases hj : i = j
      · subst hj
        rw [hthread] at hi
        rw [Function.update_self]
        exact hi.2 x.store hs
      · rw [Function.update_of_ne hj]
        exact hi

variable (code) in
/-- **What a step is**: nothing, or a call of the kind the program makes. -/
theorem store_step (hi : (x.threads i).Guards (h i) I Pc Q) :
    (x.act h code (.step i)).store = x.store ∨
      ∃ c, Pc c ∧ (x.act h code (.step i)).store = (h i c x.store).2 := by
  rw [Pool.act]
  cases hthread : x.threads i with
  | ret a => exact .inl rfl
  | raise e => exact .inl rfl
  | call c k =>
    rw [hthread] at hi
    exact .inr ⟨c, hi.1, rfl⟩

end Step

variable {h code mark} {I : σ → Prop} {P : ι → L → C → Prop} {x : Marked ι σ C R ε α L}

/-- The invariant holds, and the programs in progress guard their calls under their marks. -/
structure Guarded (h : ι → Handler C R ε σ) (I : σ → Prop) (P : ι → L → C → Prop)
    (x : Marked ι σ C R ε α L) : Prop where
  store : I x.1.store
  threads : ∀ i, (x.1.threads i).Guards (h i) I (P i (x.2 i)) fun _ => True

/-- One step, where the program it begins, if any, guards its calls. -/
theorem Guarded.act (hcall : ∀ i l c s, I s → P i l c → I (h i c s).2) (hx : Guarded h I P x)
    {a : Act ι E} (hbegin : ∀ i e, a = .begin i e →
      (code i e x.1.store).Guards (h i) I (P i (mark i e x.1.store)) fun _ => True) :
    Guarded h I P (actMarked h code mark x a) := by
  have hother : ∀ j, (∀ e, a ≠ .begin j e) →
      ((x.1.act h code a).threads j).Guards (h j) I (P j (x.2 j)) fun _ => True :=
    fun j hj => guards_act hx.store (hx.threads j) hj
  cases a with
  | begin i e =>
    refine ⟨hx.store, fun j => ?_⟩
    by_cases hj : j = i
    · subst hj
      simp only [actMarked, Pool.act, Function.update_self]
      exact hbegin j e rfl
    · simp only [actMarked, Function.update_of_ne hj]
      exact hother j fun e' h' => hj (Act.begin.inj h').1.symm
  | step i =>
    refine ⟨?_, fun j => hother j (by simp)⟩
    rcases store_step code (hx.threads i) with hsame | ⟨c, hc, hstore⟩
    · exact hsame.symm ▸ hx.store
    · exact hstore.symm ▸ hcall i _ c _ hx.store hc

/-! ### Pools side by side -/

/-- The session of an act. -/
def Act.session : Act ι E → ι
  | .begin i _ => i
  | .step i => i

/-- The call a program is about to make. -/
def pending (x : Pool ι σ C R ε α) (i : ι) : Option C :=
  match x.threads i with
  | .call c _ => some c
  | _ => none

/-- The programs of some sessions have the same left to do in both pools, and what they can see
of the stores is alike. -/
structure Alike (S : ι → Prop) (V : σ → σ → Prop) (x y : Pool ι σ C R ε α) : Prop where
  store : V x.store y.store
  threads : ∀ i, S i → x.threads i = y.threads i

namespace Alike

variable {S : ι → Prop} {V : σ → σ → Prop} {x y : Pool ι σ C R ε α} {a : Act ι E}

/-- An act of one of these sessions, on both sides: its program is begun in the same way, and
its call is answered in the same way. -/
theorem act (hxy : Alike S V x y) (ha : S a.session)
    (hbegin : ∀ i e, a = .begin i e → code i e x.store = code i e y.store)
    (hcall : ∀ i, a = .step i → ∀ c ∈ x.pending i, (h i c x.store).1 = (h i c y.store).1 ∧
      V (h i c x.store).2 (h i c y.store).2) : Alike S V (x.act h code a) (y.act h code a) := by
  cases a with
  | begin i e =>
    refine ⟨hxy.store, fun j hj => ?_⟩
    by_cases hji : j = i
    · subst hji
      simp only [Pool.act, Function.update_self]
      exact hbegin j e rfl
    · simp only [Pool.act, Function.update_of_ne hji]
      exact hxy.threads j hj
  | step i =>
    have hi : x.threads i = y.threads i := hxy.threads i ha
    cases hthread : x.threads i with
    | ret r =>
      rw [Pool.act, Pool.act, ← hi, hthread]
      exact hxy
    | raise e =>
      rw [Pool.act, Pool.act, ← hi, hthread]
      exact hxy
    | call c k =>
      obtain ⟨hanswer, hstore⟩ := hcall i rfl c (by rw [pending, hthread]; rfl)
      rw [Pool.act, Pool.act, ← hi, hthread]
      refine ⟨hstore, fun j hj => ?_⟩
      by_cases hji : j = i
      · subst hji
        dsimp only
        rw [Function.update_self, Function.update_self, hanswer]
      · dsimp only
        rw [Function.update_of_ne hji, Function.update_of_ne hji]
        exact hxy.threads j hj

/-- An act of another session, on one side: its call does not show. -/
theorem other (hxy : Alike S V x y) (ha : ¬S a.session)
    (hcall : ∀ i, a = .step i → ∀ c ∈ x.pending i, V (h i c x.store).2 y.store) :
    Alike S V (x.act h code a) y := by
  cases a with
  | begin i e =>
    refine ⟨hxy.store, fun j hj => ?_⟩
    have hji : j ≠ i := fun h => ha (h ▸ hj)
    simp only [Pool.act, Function.update_of_ne hji]
    exact hxy.threads j hj
  | step i =>
    rw [Pool.act]
    cases hthread : x.threads i with
    | ret r => exact hxy
    | raise e => exact hxy
    | call c k =>
      refine ⟨hcall i rfl c (by rw [pending, hthread]; rfl), fun j hj => ?_⟩
      have hji : j ≠ i := fun h => ha (h ▸ hj)
      dsimp only
      rw [Function.update_of_ne hji]
      exact hxy.threads j hj

end Alike

end Pool

end DigitalLedger
