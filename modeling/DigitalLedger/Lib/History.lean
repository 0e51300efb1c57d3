import DigitalLedger.Lib.Rely
import DigitalLedger.Lib.Trace

/-!
# Programs in a history

What a program among others does is often right for what *was* so: an answer it was given is
that of the store at the moment of the call, and by the time it acts on it the store may have
changed.  Here the whole history of the store is fixed, and a program is followed through it:
its calls fall on moments that come one after the other, and each of them takes the store from
one moment to the next.

## Main definitions

* `Prog.Tracks h hist n P Q p b` — from the moment `b` on, the calls of `p` satisfy `P` at the
  moments they are made; what it returns satisfies `Q`.
* `Pool.moment`, `Pool.history` — the pool, and its store, after the first acts.

## Main results

* `Prog.Tracks.bind`, `Prog.Tracks.perform`, `Prog.Tracks.of_uses` — the rules for one program.
* `Pool.tracks_moment` — the rule for all of them.
* `Pool.history_succ` — what an act is, under that rule.
-/

namespace DigitalLedger

namespace Prog

variable {C : Type} {R : C → Type} {ε α β σ : Type}

/-- In a history of `n` acts, from the moment `b` on, the calls of the program satisfy `P` at
the moments they are made, and what it returns satisfies `Q` then. -/
def Tracks (h : Handler C R ε σ) (hist : ℕ → σ) (n : ℕ) (P : ℕ → C → Prop)
    (Q : ℕ → α → Prop) : Prog C R ε α → ℕ → Prop
  | ret a, b => Q b a
  | raise _, _ => True
  | call c k, b => ∀ j, b ≤ j → j < n → hist (j + 1) = (h c (hist j)).2 →
      P j c ∧ Tracks h hist n P Q (k (h c (hist j)).1) (j + 1)

namespace Tracks

variable {h : Handler C R ε σ} {hist : ℕ → σ} {n b : ℕ} {P : ℕ → C → Prop} {Q : ℕ → α → Prop}
  {p : Prog C R ε α}

theorem mono {Q' : ℕ → α → Prop} (hp : p.Tracks h hist n P Q b)
    (hQ : ∀ j a, b ≤ j → Q j a → Q' j a) : p.Tracks h hist n P Q' b := by
  induction p generalizing b with
  | ret a => exact hQ b a (Nat.le_refl b) hp
  | raise e => trivial
  | call c k ih =>
    intro j hj hn hstore
    obtain ⟨hc, hk⟩ := hp j hj hn hstore
    refine ⟨hc, ih _ hk fun j' a hj' => hQ j' a ?_⟩
    exact Nat.le_trans hj (Nat.le_of_succ_le hj')

/-- The rule of composition: what follows is begun at a later moment. -/
theorem bind {f : α → Prog C R ε β} {Q' : ℕ → β → Prop} (hp : p.Tracks h hist n P Q b)
    (hf : ∀ j a, b ≤ j → Q j a → (f a).Tracks h hist n P Q' j) :
    (p >>= f).Tracks h hist n P Q' b := by
  induction p generalizing b with
  | ret a => exact hf b a (Nat.le_refl b) hp
  | raise e => trivial
  | call c k ih =>
    intro j hj hn hstore
    obtain ⟨hc, hk⟩ := hp j hj hn hstore
    refine ⟨hc, ih _ hk fun j' a hj' => hf j' a ?_⟩
    exact Nat.le_trans hj (Nat.le_of_succ_le hj')

theorem catchWith {f : ε → Prog C R ε α} (hp : p.Tracks h hist n P Q b)
    (hf : ∀ j e, b ≤ j → (f e).Tracks h hist n P Q j) :
    (Prog.catchWith p f).Tracks h hist n P Q b := by
  induction p generalizing b with
  | ret a => exact hp
  | raise e => exact hf b e (Nat.le_refl b)
  | call c k ih =>
    intro j hj hn hstore
    obtain ⟨hc, hk⟩ := hp j hj hn hstore
    refine ⟨hc, ih _ hk fun j' e hj' => hf j' e ?_⟩
    exact Nat.le_trans hj (Nat.le_of_succ_le hj')

/-- A single call: it takes the store from one moment to the next. -/
theorem perform {c : C} {Q : ℕ → R c → Prop}
    (hc : ∀ j, b ≤ j → j < n → hist (j + 1) = (h c (hist j)).2 → P j c ∧
      ∀ a, (h c (hist j)).1 = .ok a → Q (j + 1) a) :
    (Prog.perform c : Prog C R ε (R c)).Tracks h hist n P Q b := by
  intro j hj hn hstore
  obtain ⟨hP, hQ⟩ := hc j hj hn hstore
  refine ⟨hP, ?_⟩
  cases ha : (h c (hist j)).1 with
  | ok a => exact hQ a ha
  | error e => trivial

/-- A program of which it is known what calls it makes, whatever they are answered. -/
theorem of_uses {P' : C → Prop} (hp : Uses P' p) (hP : ∀ j c, b ≤ j → P' c → P j c)
    (hQ : ∀ j a, b ≤ j → Q j a) : p.Tracks h hist n P Q b := by
  induction p generalizing b with
  | ret a => exact hQ b a (Nat.le_refl b)
  | raise e => trivial
  | call c k ih =>
    intro j hj hn hstore
    have hlater : ∀ {j'}, j + 1 ≤ j' → b ≤ j' := fun hj' =>
      Nat.le_trans hj (Nat.le_of_succ_le hj')
    exact ⟨hP j c hj hp.head, ih _ (hp.next _) (fun j' c' hj' => hP j' c' (hlater hj'))
      fun j' a hj' => hQ j' a (hlater hj')⟩

/-- A program that has not been continued yet can be at any later moment. -/
theorem later {b' : ℕ} (hb : b ≤ b') (hp : p.Tracks h hist n P (fun _ _ => True) b) :
    p.Tracks h hist n P (fun _ _ => True) b' := by
  cases p with
  | ret a => trivial
  | raise e => trivial
  | call c k => exact fun j hj => hp j (Nat.le_trans hb hj)

end Tracks

end Prog

/-! ### The history of a pool -/

namespace Pool

variable {ι σ C E : Type} {R : C → Type} {ε α : Type} [DecidableEq ι]

section Define

variable (h : ι → Handler C R ε σ) (code : ι → E → σ → Prog C R ε α) (x : Pool ι σ C R ε α)
  (acts : List (Act ι E))

/-- The pool after the first `k` acts. -/
def moment (k : ℕ) : Pool ι σ C R ε α := Trace.after (Pool.act h code) x (acts.take k)

/-- The store after the first `k` acts. -/
def history (k : ℕ) : σ := (moment h code x acts k).store

end Define

variable {h : ι → Handler C R ε σ} {code : ι → E → σ → Prog C R ε α} {x : Pool ι σ C R ε α}
  {acts : List (Act ι E)} {P : ι → ℕ → C → Prop} {J : ℕ → Prop}

variable (h code x) in
theorem moment_succ {k : ℕ} {a : Act ι E} (ha : acts[k]? = some a) :
    moment h code x acts (k + 1) = (moment h code x acts k).act h code a := by
  rw [moment, List.take_add_one, ha, Option.toList_some, Trace.after_append]
  rfl

theorem moment_length :
    moment h code x acts acts.length = Trace.after (Pool.act h code) x acts := by
  rw [moment, List.take_length]

/-- The program in progress makes calls that satisfy `P`, in this history. -/
abbrev Follows (h : ι → Handler C R ε σ) (code : ι → E → σ → Prog C R ε α)
    (x : Pool ι σ C R ε α) (acts : List (Act ι E)) (P : ι → ℕ → C → Prop) (i : ι)
    (p : Prog C R ε α) (b : ℕ) : Prop :=
  p.Tracks (h i) (history h code x acts) acts.length (P i) (fun _ _ => True) b

/-- **What an act is**: a call that satisfies `P`, or nothing that changes the store. -/
theorem history_succ {k : ℕ} (hk : k < acts.length)
    (hx : ∀ i, Follows h code x acts P i ((moment h code x acts k).threads i) k) :
    history h code x acts (k + 1) = history h code x acts k ∨
      ∃ i c, P i k c ∧
        history h code x acts (k + 1) = (h i c (history h code x acts k)).2 := by
  have ha : acts[k]? = some acts[k] := List.getElem?_eq_getElem hk
  have hsucc := moment_succ h code x ha
  generalize acts[k] = a at hsucc
  cases a with
  | begin i e =>
    rw [history, hsucc]
    exact .inl rfl
  | step i =>
    have hi := hx i
    rw [Pool.act] at hsucc
    cases hthread : (moment h code x acts k).threads i with
    | ret a =>
      rw [hthread] at hsucc
      exact .inl (congrArg Pool.store hsucc)
    | raise e =>
      rw [hthread] at hsucc
      exact .inl (congrArg Pool.store hsucc)
    | call c p =>
      rw [hthread] at hsucc hi
      have hstore : history h code x acts (k + 1) = (h i c (history h code x acts k)).2 :=
        congrArg Pool.store hsucc
      exact .inr ⟨i, c, (hi k (Nat.le_refl k) hk hstore).1, hstore⟩

/-- **The rule for programs in a history**: where every program that is begun makes calls that
satisfy `P`, as long as the invariant holds when it is begun, and these calls keep the
invariant, it holds at every moment, and all programs do so. -/
theorem tracks_moment (hJ : J 0)
    (hcall : ∀ i k c, k < acts.length → P i k c →
      history h code x acts (k + 1) = (h i c (history h code x acts k)).2 → J k → J (k + 1))
    (hsame : ∀ k, history h code x acts (k + 1) = history h code x acts k → J k → J (k + 1))
    (hstart : ∀ i, Follows h code x acts P i (x.threads i) 0)
    (hbegin : ∀ b i e, acts[b]? = some (.begin i e) → J b →
      Follows h code x acts P i (code i e (history h code x acts b)) b) {k : ℕ}
    (hk : k ≤ acts.length) :
    J k ∧ ∀ i, Follows h code x acts P i ((moment h code x acts k).threads i) k := by
  induction k with
  | zero => exact ⟨hJ, hstart⟩
  | succ k ih =>
    obtain ⟨hinv, hfollows⟩ := ih (Nat.le_of_succ_le hk)
    have hinv' : J (k + 1) := by
      rcases history_succ hk hfollows with hstore | ⟨i, c, hc, hstore⟩
      · exact hsame k hstore hinv
      · exact hcall i k c hk hc hstore hinv
    refine ⟨hinv', fun j => ?_⟩
    have ha : acts[k]? = some acts[k] := List.getElem?_eq_getElem hk
    have hsucc := moment_succ h code x ha
    generalize acts[k] = a at ha hsucc
    rw [hsucc]
    cases a with
    | begin i e =>
      by_cases hj : j = i
      · subst hj
        simp only [Pool.act, Function.update_self]
        exact (hbegin k j e ha hinv).later (Nat.le_succ k)
      · simp only [Pool.act, Function.update_of_ne hj]
        exact (hfollows j).later (Nat.le_succ k)
    | step i =>
      rw [Pool.act] at hsucc ⊢
      cases hthread : (moment h code x acts k).threads i with
      | ret a => exact (hfollows j).later (Nat.le_succ k)
      | raise e => exact (hfollows j).later (Nat.le_succ k)
      | call c p =>
        dsimp only
        by_cases hj : j = i
        · subst hj
          have hi := hfollows j
          rw [hthread] at hi hsucc
          rw [Function.update_self]
          exact (hi k (Nat.le_refl k) hk (congrArg Pool.store hsucc)).2
        · rw [Function.update_of_ne hj]
          exact (hfollows j).later (Nat.le_succ k)

end Pool

end DigitalLedger
