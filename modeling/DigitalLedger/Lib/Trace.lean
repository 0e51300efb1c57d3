import Mathlib.Logic.Basic

/-!
# Runs of a step function

Calls are made one at a time, each taking the state to the next.  The rules here are
about what holds along such a run, and about the last call of a kind: what a state owes to
its history is often owed to that call alone.

## Main definitions

* `Trace.after` — the state a list of calls leads to.
* `Trace.Along` — each call satisfies a condition, at the state it is made in.

## Main results

* `Trace.Along.preserves` — the invariant rule.
* `Trace.along_congr` — when two conditions agree along a run.
* `Trace.Along.purge` — the rule for leaving calls out.
* `Trace.never_or_last` — either no call is of a kind, or one of them is the last.
-/

namespace DigitalLedger

namespace Trace

variable {σ κ : Type} (step : σ → κ → σ)

/-- The state after the calls. -/
def after (s : σ) (calls : List κ) : σ := calls.foldl step s

@[simp] theorem after_nil (s : σ) : after step s [] = s := rfl

@[simp] theorem after_cons (s : σ) (c : κ) (calls : List κ) :
    after step s (c :: calls) = after step (step s c) calls := rfl

theorem after_append (s : σ) (calls calls' : List κ) :
    after step s (calls ++ calls') = after step (after step s calls) calls' :=
  List.foldl_append

/-- Each call satisfies `P`, at the state it is made in. -/
def Along (P : σ → κ → Prop) : σ → List κ → Prop
  | _, [] => True
  | s, c :: calls => P s c ∧ Along P (step s c) calls

instance decidableAlong (P : σ → κ → Prop) [∀ s c, Decidable (P s c)] :
    ∀ (s : σ) (calls : List κ), Decidable (Along step P s calls)
  | _, [] => inferInstanceAs (Decidable True)
  | s, c :: calls =>
    have _ : Decidable (Along step P (step s c) calls) := decidableAlong P (step s c) calls
    instDecidableAnd

variable {step} {P W : σ → κ → Prop} {s : σ}

theorem Along.mono (hPW : ∀ s c, P s c → W s c) {calls : List κ} (h : Along step P s calls) :
    Along step W s calls := by
  induction calls generalizing s with
  | nil => trivial
  | cons c calls ih => exact ⟨hPW s c h.1, ih h.2⟩

theorem Along.and {calls : List κ} (hP : Along step P s calls) (hW : Along step W s calls) :
    Along step (fun s c => P s c ∧ W s c) s calls := by
  induction calls generalizing s with
  | nil => trivial
  | cons c calls ih => exact ⟨⟨hP.1, hW.1⟩, ih hP.2 hW.2⟩

theorem along_append {calls calls' : List κ} : Along step P s (calls ++ calls') ↔
    Along step P s calls ∧ Along step P (after step s calls) calls' := by
  induction calls generalizing s with
  | nil => exact ⟨fun h => ⟨trivial, h⟩, And.right⟩
  | cons c calls ih =>
    rw [List.cons_append, Along, Along, ih, and_assoc, after_cons]

/-- What holds in every state that is met, and of the call made there, holds along. -/
theorem along_of_after {calls : List κ}
    (h : ∀ before c rest, calls = before ++ c :: rest → P (after step s before) c) :
    Along step P s calls := by
  induction calls generalizing s with
  | nil => trivial
  | cons c calls ih =>
    refine ⟨h [] c calls rfl, ih fun before c' rest hcalls => ?_⟩
    exact h (c :: before) c' rest (by rw [hcalls, List.cons_append])

theorem along_of_forall {P : κ → Prop} {calls : List κ} (h : ∀ c ∈ calls, P c) :
    Along step (fun _ c => P c) s calls := by
  induction calls generalizing s with
  | nil => trivial
  | cons c calls ih =>
    exact ⟨h c List.mem_cons_self, ih fun c' hc' => h c' (List.mem_cons_of_mem c hc')⟩

/-- **The invariant rule**: what every call preserves that satisfies `P`, the run
preserves. -/
theorem Along.preserves {I : σ → Prop} (hstep : ∀ s c, P s c → I s → I (step s c))
    {calls : List κ} (h : Along step P s calls) (hs : I s) : I (after step s calls) := by
  induction calls generalizing s with
  | nil => exact hs
  | cons c calls ih => exact ih h.2 (hstep s c h.1 hs)

/-- Conditions that agree where an invariant holds, and preserve it, agree along a run. -/
theorem along_congr {I : σ → Prop} (hiff : ∀ s c, I s → (P s c ↔ W s c))
    (hstep : ∀ s c, W s c → I s → I (step s c)) {calls : List κ} (hs : I s) :
    Along step P s calls ↔ Along step W s calls := by
  induction calls generalizing s with
  | nil => exact Iff.rfl
  | cons c calls ih =>
    constructor
    · rintro ⟨hc, hcalls⟩
      have hW := (hiff s c hs).mp hc
      exact ⟨hW, (ih (hstep s c hW hs)).mp hcalls⟩
    · rintro ⟨hW, hcalls⟩
      exact ⟨(hiff s c hs).mpr hW, (ih (hstep s c hW hs)).mpr hcalls⟩

/-- **The rule for leaving calls out**: where a call that is left out cannot be told from none,
and the others keep what cannot be told apart so, the run that is left is like the whole. -/
theorem Along.purge {mine : κ → Bool} {E : σ → σ → Prop}
    (hmine : ∀ s s' c, P s c → mine c → E s s' → E (step s c) (step s' c))
    (hother : ∀ s s' c, P s c → ¬mine c → E s s' → E (step s c) s') {calls : List κ} {s' : σ}
    (h : Along step P s calls) (hs : E s s') :
    E (after step s calls) (after step s' (calls.filter mine)) := by
  induction calls generalizing s s' with
  | nil => exact hs
  | cons c calls ih =>
    by_cases hc : mine c
    · rw [List.filter_cons_of_pos hc]
      exact ih h.2 (hmine s s' c h.1 hc hs)
    · rw [List.filter_cons_of_neg hc]
      exact ih h.2 (hother s s' c h.1 hc hs)

variable (step) in
/-- **The last call of a kind**: either no call of the run is of the kind `W`, or there is
one after which none is. -/
theorem never_or_last (W : σ → κ → Prop) (s : σ) (calls : List κ) :
    Along step (fun s c => ¬W s c) s calls ∨
      ∃ before c rest, calls = before ++ c :: rest ∧ W (after step s before) c ∧
        Along step (fun s c => ¬W s c) (step (after step s before) c) rest := by
  induction calls generalizing s with
  | nil => exact .inl trivial
  | cons c calls ih =>
    rcases ih (step s c) with hnever | ⟨before, c', rest, hcalls, hc', hrest⟩
    · by_cases hc : W s c
      · exact .inr ⟨[], c, calls, rfl, hc, hnever⟩
      · exact .inl ⟨hc, hnever⟩
    · refine .inr ⟨c :: before, c', rest, ?_, hc', hrest⟩
      rw [hcalls, List.cons_append]

end Trace

end DigitalLedger
