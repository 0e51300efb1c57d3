import DigitalLedger.Lib.Guard
import Mathlib.Data.Fintype.Defs

/-!
# Programs that take turns

Programs of one kind may have a part of the store to themselves.  If at most one of them is in
progress at a time, and each is left to its end, each of its calls finds of that part what its
call before has left, whatever happens to the rest of the store; so of that part it may be
thought of as running alone.

## Main definitions

* `Prog.Alone h I V Q p v` — begun when the part `V` of the store is `v`, the program ends as `Q`
  has it, if each of its calls finds the part as the one before has left it.
* `Pool.Resting l x` — no program under the mark `l` is in progress.
* `Pool.InTurn mark l x a` — the act drops no program under `l` that is in progress, and begins
  none while one is.
* `Pool.Settled` — the part satisfies an invariant whenever these programs rest, and the one that
  is in progress leads there.

## Main results

* `Prog.Alone.bind`, `Prog.Alone.of_uses` — the rules for programs.
* `Pool.Settled.act` — what a step keeps.
-/

namespace DigitalLedger

namespace Prog

variable {C : Type} {R : C → Type} {ε α β σ τ : Type}

/-- The program ends as `Q` has it, if the part `V` of the store is left to it. -/
def Alone (h : Handler C R ε σ) (I : σ → Prop) (V : σ → τ) (Q : Except ε α → τ → Prop) :
    Prog C R ε α → τ → Prop
  | ret a, v => Q (.ok a) v
  | raise e, v => Q (.error e) v
  | call c k, v => ∀ s, I s → V s = v → Alone h I V Q (k (h c s).1) (V (h c s).2)

namespace Alone

variable {h : Handler C R ε σ} {I : σ → Prop} {V : σ → τ} {Q : Except ε α → τ → Prop}
  {p : Prog C R ε α} {v : τ}

/-- The rule of composition. -/
theorem bind {f : α → Prog C R ε β} {Q' : Except ε β → τ → Prop} (hp : Alone h I V Q p v)
    (hok : ∀ a v', Q (.ok a) v' → Alone h I V Q' (f a) v')
    (herror : ∀ e v', Q (.error e) v' → Q' (.error e) v') : Alone h I V Q' (p >>= f) v := by
  induction p generalizing v with
  | ret a => exact hok a v hp
  | raise e => exact herror e v hp
  | call c k ih =>
    intro s hs hv
    exact ih _ (hp s hs hv)

/-- A program that does not write the part may be answered anything. -/
theorem of_uses {P : C → Prop} (hkeep : ∀ c s, I s → P c → V (h c s).2 = V s) (hp : Uses P p)
    (hQ : ∀ r, Q r v) : Alone h I V Q p v := by
  induction p with
  | ret a => exact hQ (.ok a)
  | raise e => exact hQ (.error e)
  | call c k ih =>
    intro s hs hv
    rw [hkeep c s hs hp.head, hv]
    exact ih _ (hp.next _)

end Alone

end Prog

/-! ### Pools -/

namespace Pool

variable {ι σ τ C E L : Type} {R : C → Type} {ε α : Type}

/-- No program under the mark is in progress. -/
def Resting (l : L) (x : Marked ι σ C R ε α L) : Prop :=
  ∀ i, x.2 i = l → (x.1.pending i).isNone

instance [Fintype ι] [DecidableEq L] (l : L) (x : Marked ι σ C R ε α L) :
    Decidable (Resting l x) := Fintype.decidableForallFintype

/-- The act drops no program under the mark that is in progress, and begins none while one
is. -/
def InTurn (mark : ι → E → σ → L) (l : L) (x : Marked ι σ C R ε α L) : Act ι E → Prop
  | .begin i e => (x.2 i = l → (x.1.pending i).isNone) ∧ (mark i e x.1.store = l → Resting l x)
  | .step _ => True

instance [Fintype ι] [DecidableEq L] (mark : ι → E → σ → L) (l : L)
    (x : Marked ι σ C R ε α L) : DecidablePred (InTurn mark l x)
  | .begin i e => inferInstanceAs (Decidable
      ((x.2 i = l → (x.1.pending i).isNone) ∧ (mark i e x.1.store = l → Resting l x)))
  | .step _ => inferInstanceAs (Decidable True)

/-- The part satisfies `T` whenever the programs under the mark rest; the one that is in progress,
if any, leads there. -/
structure Settled (h : ι → Handler C R ε σ) (I : σ → Prop) (V : σ → τ) (T : τ → Prop) (l : L)
    (x : Marked ι σ C R ε α L) : Prop where
  rest : Resting l x → T (V x.1.store)
  threads : ∀ i, x.2 i = l → ¬(x.1.pending i).isNone →
    (x.1.threads i).Alone (h i) I V (fun _ => T) (V x.1.store)
  single : ∀ i j, x.2 i = l → x.2 j = l → ¬(x.1.pending i).isNone → ¬(x.1.pending j).isNone → i = j

theorem pending_congr {x y : Pool ι σ C R ε α} {i : ι} (h : x.threads i = y.threads i) :
    x.pending i = y.pending i := by rw [pending, pending, h]

section Act

variable [DecidableEq ι] {h : ι → Handler C R ε σ} {code : ι → E → σ → Prog C R ε α}
  {mark : ι → E → σ → L} {I : σ → Prop} {V : σ → τ} {T : τ → Prop} {l : L}
  {x : Marked ι σ C R ε α L}

/-- A program is begun. -/
theorem Settled.begin (hx : Settled h I V T l x) {i : ι} {e : E}
    (hturn : InTurn mark l x (.begin i e))
    (hbegin : mark i e x.1.store = l → T (V x.1.store) →
      (code i e x.1.store).Alone (h i) I V (fun _ => T) (V x.1.store)) :
    Settled h I V T l (actMarked h code mark x (.begin i e)) := by
  obtain ⟨hdropped, hothers⟩ := hturn
  let x' := actMarked h code mark x (.begin i e)
  have hself : x'.1.threads i = code i e x.1.store ∧ x'.2 i = mark i e x.1.store :=
    ⟨Function.update_self .., Function.update_self ..⟩
  have hother : ∀ j, j ≠ i → x'.1.threads j = x.1.threads j ∧ x'.2 j = x.2 j :=
    fun j hj => ⟨Function.update_of_ne hj .., Function.update_of_ne hj ..⟩
  have hpending : ∀ j, j ≠ i → x'.1.pending j = x.1.pending j :=
    fun j hj => pending_congr (hother j hj).1
  by_cases hmark : mark i e x.1.store = l
  · -- the others rest
    have hrest := hothers hmark
    have honly : ∀ j, x'.2 j = l → ¬(x'.1.pending j).isNone → j = i := by
      intro j hj hin
      by_contra hne
      rw [(hother j hne).2] at hj
      rw [hpending j hne] at hin
      exact hin (hrest j hj)
    refine ⟨fun _ => hx.rest hrest, fun j hj hin => ?_, fun j k hj hk hinj hink => ?_⟩
    · have hji := honly j hj hin
      subst hji
      exact hself.1 ▸ hbegin hmark (hx.rest hrest)
    · exact (honly j hj hinj).trans (honly k hk hink).symm
  · have hne : ∀ j, x'.2 j = l → j ≠ i := by
      rintro j hj rfl
      exact hmark (hself.2.symm.trans hj)
    refine ⟨fun hresting => hx.rest fun j hj => ?_, fun j hj hin => ?_,
      fun j k hj hk hinj hink => ?_⟩
    · by_cases hji : j = i
      · subst hji
        exact hdropped hj
      · rw [← hpending j hji]
        exact hresting j ((hother j hji).2.trans hj)
    · have hji := hne j hj
      rw [hpending j hji] at hin
      exact (hother j hji).1 ▸ hx.threads j ((hother j hji).2.symm.trans hj) hin
    · have hji := hne j hj
      have hki := hne k hk
      rw [hpending j hji] at hinj
      rw [hpending k hki] at hink
      exact hx.single j k ((hother j hji).2.symm.trans hj) ((hother k hki).2.symm.trans hk) hinj
        hink

/-- A program makes a call. -/
theorem Settled.step (hI : I x.1.store) (hx : Settled h I V T l x) {i : ι}
    (hkeep : x.2 i ≠ l → ∀ c ∈ x.1.pending i, V (h i c x.1.store).2 = V x.1.store) :
    Settled h I V T l (actMarked h code mark x (.step i)) := by
  let x' := actMarked h code mark x (.step i)
  cases hthread : x.1.threads i with
  | ret a =>
    have hsame : x' = x := Prod.ext (by simp only [x', actMarked, Pool.act, hthread]) rfl
    change Settled h I V T l x'
    rw [hsame]
    exact hx
  | raise e =>
    have hsame : x' = x := Prod.ext (by simp only [x', actMarked, Pool.act, hthread]) rfl
    change Settled h I V T l x'
    rw [hsame]
    exact hx
  | call c k =>
    have hpend : x.1.pending i = some c := by rw [pending, hthread]
    have hin : ¬(x.1.pending i).isNone := by rw [hpend]; simp
    have hstore : x'.1.store = (h i c x.1.store).2 := by
      simp only [x', actMarked, Pool.act, hthread]
    have hself : x'.1.threads i = k (h i c x.1.store).1 := by
      simp only [x', actMarked, Pool.act, hthread, Function.update_self]
    have hother : ∀ j, j ≠ i → x'.1.threads j = x.1.threads j := by
      intro j hj
      simp only [x', actMarked, Pool.act, hthread, Function.update_of_ne hj]
    have hpending : ∀ j, j ≠ i → x'.1.pending j = x.1.pending j :=
      fun j hj => pending_congr (hother j hj)
    by_cases hmark : x.2 i = l
    · -- no other is in progress
      have halone := hx.threads i hmark hin
      rw [hthread] at halone
      have hnext := halone x.1.store hI rfl
      rw [← hstore, ← hself] at hnext
      have honly : ∀ j, x.2 j = l → ¬(x'.1.pending j).isNone → j = i := by
        intro j hj hinj
        by_contra hne
        rw [hpending j hne] at hinj
        exact hne (hx.single j i hj hmark hinj hin)
      refine ⟨fun hresting => ?_, fun j hj hinj => ?_, fun j k hj hk hinj hink => ?_⟩
      · have hended := hresting i hmark
        change (x'.1.pending i).isNone at hended
        rw [pending] at hended
        change T (V x'.1.store)
        cases hp : x'.1.threads i with
        | ret a =>
          rw [hp] at hnext
          exact hnext
        | raise e =>
          rw [hp] at hnext
          exact hnext
        | call c' k' =>
          rw [hp] at hended
          exact absurd hended (by simp)
      · obtain rfl := honly j hj hinj
        exact hnext
      · exact (honly j hj hinj).trans (honly k hk hink).symm
    · have hkept : V x'.1.store = V x.1.store := by rw [hstore, hkeep hmark c hpend]
      have hne : ∀ j, x.2 j = l → j ≠ i := by
        rintro j hj rfl
        exact hmark hj
      refine ⟨fun hresting => ?_, fun j hj hinj => ?_, fun j k hj hk hinj hink => ?_⟩
      · change T (V x'.1.store)
        rw [hkept]
        exact hx.rest fun j hj => hpending j (hne j hj) ▸ hresting j hj
      · change (x'.1.threads j).Alone (h j) I V (fun _ => T) (V x'.1.store)
        rw [hkept, hother j (hne j hj)]
        exact hx.threads j hj (hpending j (hne j hj) ▸ hinj)
      · exact hx.single j k hj hk (hpending j (hne j hj) ▸ hinj) (hpending k (hne k hk) ▸ hink)

/-- **What a step keeps**, if the programs under the mark take turns and no others write the
part. -/
theorem Settled.act (hI : I x.1.store) (hx : Settled h I V T l x) {a : Act ι E}
    (hturn : InTurn mark l x a)
    (hbegin : ∀ i e, a = .begin i e → mark i e x.1.store = l → T (V x.1.store) →
      (code i e x.1.store).Alone (h i) I V (fun _ => T) (V x.1.store))
    (hkeep : ∀ i, a = .step i → x.2 i ≠ l → ∀ c ∈ x.1.pending i,
      V (h i c x.1.store).2 = V x.1.store) :
    Settled h I V T l (actMarked h code mark x a) := by
  cases a with
  | begin i e => exact hx.begin hturn (hbegin i e rfl)
  | step i => exact hx.step hI (hkeep i rfl)

end Act

end Pool

end DigitalLedger
