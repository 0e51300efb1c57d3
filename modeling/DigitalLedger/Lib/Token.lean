import Mathlib.Data.List.Count
import Mathlib.Data.List.Infix
import Mathlib.Logic.Function.Basic

/-!
# A token that is looked at before it is spent

Any number of sessions want the same token.  Each takes two steps: it looks whether the token
is there and suits it, and if so it spends the token, without looking again.  The steps are
interleaved in any order, and an interleaving is the list of the sessions in the order of
their steps; a session that has ended takes no further step.

## Main definitions

* `Phase`, `State`, `step`, `run` — the token and the sessions.
* `Unspent` — no session the token suits takes two steps.
* `Early` — a session looks before the token is spent.
* `Spends` — a session looks in time and takes its second step.
* `Overlap` — two sessions look in time and take their second step.

## Main results

* `tracked_run` — how far each session is after an interleaving.
* `spent_iff` — which sessions spend the token.
* `spent_once_iff` — when no two do.
-/

namespace DigitalLedger
namespace Token

/-- How far a session is. -/
inductive Phase
  /-- It is about to look. -/
  | fresh
  /-- It has seen the token and is about to spend it. -/
  | holding
  /-- It has not seen the token, or it does not suit it, and has ended. -/
  | refused
  /-- It has spent the token and has ended. -/
  | spent
  deriving DecidableEq

/-- The token and the sessions. -/
structure State (ι : Type*) where
  /-- The token is there. -/
  live : Bool
  phase : ι → Phase

variable {ι : Type*}

/-- The token is there, and every session is about to look. -/
def start : State ι := ⟨true, fun _ => .fresh⟩

variable [DecidableEq ι] (suits : ι → Prop)

/-- No session the token suits takes two steps. -/
def Unspent (sched : List ι) : Prop := ∀ k, suits k → sched.count k ≤ 1

/-- A session looks before the token is spent. -/
def Early (sched : List ι) (i : ι) : Prop :=
  ∃ before, before <+: sched ∧ i ∈ before ∧ Unspent suits before

/-- A session the token suits looks before it is spent, and takes its second step. -/
structure Spends (sched : List ι) (i : ι) : Prop where
  suited : suits i
  early : Early suits sched i
  twice : 2 ≤ sched.count i

/-- Two sessions the token suits both look before it is spent, and both take their second
step. -/
structure Overlap (sched : List ι) (i j : ι) : Prop where
  left_suited : suits i
  right_suited : suits j
  left_twice : 2 ≤ sched.count i
  right_twice : 2 ≤ sched.count j
  together : ∃ before, before <+: sched ∧ i ∈ before ∧ j ∈ before ∧ Unspent suits before

/-- How far a session is after an interleaving. -/
def PhaseAt (sched : List ι) (i : ι) : Phase → Prop
  | .fresh => i ∉ sched
  | .holding => suits i ∧ Early suits sched i ∧ sched.count i = 1
  | .refused => i ∈ sched ∧ ¬(suits i ∧ Early suits sched i)
  | .spent => Spends suits sched i

/-- The next step of a session. -/
def step [DecidablePred suits] (x : State ι) (i : ι) : State ι :=
  match x.phase i with
  | .fresh =>
    { x with
      phase := Function.update x.phase i
        (if x.live = true ∧ suits i then .holding else .refused) }
  | .holding => ⟨false, Function.update x.phase i .spent⟩
  | .refused => x
  | .spent => x

/-- The sessions take steps in the order of the list. -/
def run [DecidablePred suits] (x : State ι) (sched : List ι) : State ι :=
  sched.foldl (step suits) x

theorem run_concat [DecidablePred suits] (x : State ι) (sched : List ι) (i : ι) :
    run suits x (sched ++ [i]) = step suits (run suits x sched) i := by
  rw [run, List.foldl_append]
  rfl

variable {suits} {sched : List ι} {i j : ι}

theorem Overlap.left (h : Overlap suits sched i j) : Spends suits sched i := by
  obtain ⟨before, hpre, hmem, -, hunspent⟩ := h.together
  exact ⟨h.left_suited, ⟨before, hpre, hmem, hunspent⟩, h.left_twice⟩

theorem Overlap.right (h : Overlap suits sched i j) : Spends suits sched j := by
  obtain ⟨before, hpre, -, hmem, hunspent⟩ := h.together
  exact ⟨h.right_suited, ⟨before, hpre, hmem, hunspent⟩, h.right_twice⟩

/-! ### One more step of an interleaving -/

theorem Unspent.of_prefix {before : List ι} (h : Unspent suits sched) (hpre : before <+: sched) :
    Unspent suits before := fun k hk => (hpre.sublist.count_le k).trans (h k hk)

theorem early_concat :
    Early suits (sched ++ [j]) i ↔
      Early suits sched i ∨ i ∈ sched ++ [j] ∧ Unspent suits (sched ++ [j]) := by
  constructor
  · rintro ⟨before, hpre, hmem, hunspent⟩
    rcases List.prefix_concat_iff.1 hpre with rfl | hpre
    · exact .inr ⟨hmem, hunspent⟩
    · exact .inl ⟨before, hpre, hmem, hunspent⟩
  · rintro (⟨before, hpre, hmem, hunspent⟩ | ⟨hmem, hunspent⟩)
    · exact ⟨before, hpre.trans (List.prefix_append _ _), hmem, hunspent⟩
    · exact ⟨_, List.prefix_rfl, hmem, hunspent⟩

/-- A session that has looked has looked in time or not, whoever steps next. -/
theorem early_concat_of_mem (hi : i ∈ sched) :
    Early suits (sched ++ [j]) i ↔ Early suits sched i := by
  refine early_concat.trans (or_iff_left_of_imp ?_)
  rintro ⟨-, hunspent⟩
  exact ⟨sched, List.prefix_rfl, hi, hunspent.of_prefix (List.prefix_append _ _)⟩

theorem count_concat_of_ne (hij : i ≠ j) : (sched ++ [j]).count i = sched.count i := by
  rw [List.count_append, List.count_singleton, if_neg (by simpa using hij.symm), Nat.add_zero]

theorem count_concat_self : (sched ++ [j]).count j = sched.count j + 1 := by
  rw [List.count_append, List.count_singleton_self]

/-- A first step spends nothing. -/
theorem unspent_concat_of_not_mem (hj : j ∉ sched) :
    Unspent suits (sched ++ [j]) ↔ Unspent suits sched := by
  refine ⟨fun h => h.of_prefix (List.prefix_append _ _), fun h k hk => ?_⟩
  by_cases hkj : k = j
  · subst hkj
    rw [count_concat_self, List.count_eq_zero.2 hj]
  · rw [count_concat_of_ne hkj]
    exact h k hk

/-- A session looks in time exactly if the token is there. -/
theorem early_concat_self (hj : j ∉ sched) :
    Early suits (sched ++ [j]) j ↔ Unspent suits sched := by
  rw [early_concat, unspent_concat_of_not_mem hj]
  constructor
  · rintro (⟨before, hpre, hmem, -⟩ | ⟨-, hunspent⟩)
    · exact absurd (hpre.subset hmem) hj
    · exact hunspent
  · exact fun h => .inr ⟨List.mem_append_right _ (List.mem_singleton_self j), h⟩

/-- The steps of the sessions the token does not suit spend nothing. -/
theorem unspent_concat_of_not (hj : ¬suits j) :
    Unspent suits (sched ++ [j]) ↔ Unspent suits sched := by
  refine ⟨fun h => h.of_prefix (List.prefix_append _ _), fun h k hk => ?_⟩
  have hkj : k ≠ j := by
    rintro rfl
    exact hj hk
  rw [count_concat_of_ne hkj]
  exact h k hk

/-- The step of a session that has been refused spends nothing. -/
theorem unspent_concat_of_refused (hmem : j ∈ sched) (hnot : ¬(suits j ∧ Early suits sched j)) :
    Unspent suits (sched ++ [j]) ↔ Unspent suits sched := by
  by_cases hsuits : suits j
  · -- it came late, so the token is spent already
    have hlate : ¬Unspent suits sched := fun hunspent =>
      hnot ⟨hsuits, sched, List.prefix_rfl, hmem, hunspent⟩
    exact iff_of_false (fun h => hlate (h.of_prefix (List.prefix_append _ _))) hlate
  · exact unspent_concat_of_not hsuits

/-- Nor does the step of a session that has spent the token. -/
theorem unspent_concat_of_spends (h : Spends suits sched j) :
    Unspent suits (sched ++ [j]) ↔ Unspent suits sched := by
  have htwice := h.twice
  have hspent : ¬Unspent suits sched := fun hunspent => by
    have hle := hunspent j h.suited
    omega
  exact iff_of_false (fun h => hspent (h.of_prefix (List.prefix_append _ _))) hspent

/-- Steps of others leave a session as far as it is. -/
theorem PhaseAt.concat_of_ne {p : Phase} (h : PhaseAt suits sched i p) (hij : i ≠ j) :
    PhaseAt suits (sched ++ [j]) i p := by
  have hcount : (sched ++ [j]).count i = sched.count i := count_concat_of_ne hij
  cases p with
  | fresh =>
    rw [PhaseAt, ← List.count_eq_zero, hcount]
    exact List.count_eq_zero.2 h
  | holding =>
    obtain ⟨hsuits, hearly, hone⟩ := h
    have hmem : i ∈ sched := List.count_pos_iff.1 (by omega)
    exact ⟨hsuits, (early_concat_of_mem hmem).2 hearly, hcount.trans hone⟩
  | refused =>
    obtain ⟨hmem, hnot⟩ := h
    refine ⟨List.mem_append_left _ hmem, ?_⟩
    rwa [early_concat_of_mem hmem]
  | spent =>
    have hmem : i ∈ sched := List.count_pos_iff.1 (by have := h.twice; omega)
    refine ⟨h.suited, (early_concat_of_mem hmem).2 h.early, ?_⟩
    rw [hcount]
    exact h.twice

/-! ### The phases -/

/-- The token is there until it is spent, and each session is as far as the interleaving
has it. -/
structure Tracked (suits : ι → Prop) (sched : List ι) (x : State ι) : Prop where
  live : x.live = true ↔ Unspent suits sched
  phase : ∀ i, PhaseAt suits sched i (x.phase i)

variable {x : State ι}

/-- A step that moves its session on. -/
theorem Tracked.update (h : Tracked suits sched x) {live : Bool} {p : Phase}
    (hlive : live = true ↔ Unspent suits (sched ++ [j]))
    (hp : PhaseAt suits (sched ++ [j]) j p) :
    Tracked suits (sched ++ [j]) ⟨live, Function.update x.phase j p⟩ := by
  refine ⟨hlive, fun i => ?_⟩
  dsimp only
  by_cases hij : i = j
  · subst hij
    rwa [Function.update_self]
  · rw [Function.update_of_ne hij]
    exact (h.phase i).concat_of_ne hij

/-- A session that has ended steps to no effect. -/
theorem Tracked.idle (h : Tracked suits sched x)
    (hspent : Unspent suits (sched ++ [j]) ↔ Unspent suits sched)
    (hp : PhaseAt suits (sched ++ [j]) j (x.phase j)) : Tracked suits (sched ++ [j]) x := by
  refine ⟨h.live.trans hspent.symm, fun i => ?_⟩
  by_cases hij : i = j
  · subst hij
    exact hp
  · exact (h.phase i).concat_of_ne hij

theorem tracked_start : Tracked suits [] (start : State ι) := by
  refine ⟨iff_of_true rfl fun k _ => ?_, fun i => List.not_mem_nil⟩
  rw [List.count_nil]
  exact Nat.zero_le _

variable [DecidablePred suits]

/-- **One step** of a session. -/
theorem Tracked.step (h : Tracked suits sched x) (j : ι) :
    Tracked suits (sched ++ [j]) (step suits x j) := by
  have hj := h.phase j
  rw [Token.step]
  cases hphase : x.phase j with
  | fresh =>
    rw [hphase] at hj
    refine h.update (h.live.trans (unspent_concat_of_not_mem hj).symm) ?_
    have hmem : j ∈ sched ++ [j] := List.mem_append_right _ (List.mem_singleton_self j)
    split_ifs with hlook
    · obtain ⟨hlive, hsuits⟩ := hlook
      refine ⟨hsuits, (early_concat_self hj).2 (h.live.1 hlive), ?_⟩
      rw [count_concat_self, List.count_eq_zero.2 hj]
    · refine ⟨hmem, fun ⟨hsuits, hearly⟩ => hlook ⟨?_, hsuits⟩⟩
      exact h.live.2 ((early_concat_self hj).1 hearly)
  | holding =>
    rw [hphase] at hj
    obtain ⟨hsuits, hearly, hone⟩ := hj
    have hmem : j ∈ sched := List.count_pos_iff.1 (by omega)
    have htwo : (sched ++ [j]).count j = 2 := by rw [count_concat_self, hone]
    refine h.update (iff_of_false Bool.false_ne_true fun hunspent => ?_) ?_
    · have hle := hunspent j hsuits
      omega
    · exact ⟨hsuits, (early_concat_of_mem hmem).2 hearly, htwo.ge⟩
  | refused =>
    rw [hphase] at hj
    obtain ⟨hmem, hnot⟩ := hj
    refine h.idle (unspent_concat_of_refused hmem hnot) ?_
    rw [hphase]
    refine ⟨List.mem_append_left _ hmem, ?_⟩
    rwa [early_concat_of_mem hmem]
  | spent =>
    rw [hphase] at hj
    have htwice := hj.twice
    have hmem : j ∈ sched := List.count_pos_iff.1 (by omega)
    refine h.idle (unspent_concat_of_spends hj) ?_
    rw [hphase]
    refine ⟨hj.suited, (early_concat_of_mem hmem).2 hj.early, ?_⟩
    rw [count_concat_self]
    omega

/-- **How far each session is** after an interleaving. -/
theorem tracked_run (sched : List ι) : Tracked suits sched (run suits start sched) := by
  induction sched using List.reverseRecOn with
  | nil => exact tracked_start
  | append_singleton sched j ih =>
    rw [run_concat]
    exact ih.step j

/-- **Which sessions spend the token**: those that look in time and take their second step. -/
theorem spent_iff (sched : List ι) (i : ι) :
    (run suits start sched).phase i = .spent ↔ Spends suits sched i := by
  have htracked : Tracked suits sched (run suits start sched) := tracked_run sched
  have hi := htracked.phase i
  constructor
  · intro hphase
    rwa [hphase] at hi
  · intro hspends
    have htwice := hspends.twice
    cases hphase : (run suits start sched).phase i with
    | spent => rfl
    | fresh =>
      rw [hphase] at hi
      rw [List.count_eq_zero.2 hi] at htwice
      omega
    | holding =>
      rw [hphase] at hi
      obtain ⟨-, -, hone⟩ := hi
      omega
    | refused =>
      rw [hphase] at hi
      exact absurd ⟨hspends.suited, hspends.early⟩ hi.2

/-- **The token is spent once** unless two sessions overlap. -/
theorem spent_once_iff (sched : List ι) :
    (∀ i j, (run suits start sched).phase i = .spent → (run suits start sched).phase j = .spent →
        i = j) ↔ ∀ i j, Overlap suits sched i j → i = j := by
  simp only [spent_iff]
  constructor
  · intro honce i j hover
    exact honce i j hover.left hover.right
  · rintro hover i j hi hj
    obtain ⟨before, hpre, hmem, hunspent⟩ := hi.early
    obtain ⟨before', hpre', hmem', hunspent'⟩ := hj.early
    -- the longer of the two beginnings has a step of each
    rcases List.prefix_or_prefix_of_prefix hpre hpre' with hle | hle
    · exact hover i j ⟨hi.suited, hj.suited, hi.twice, hj.twice, before', hpre', hle.subset hmem,
        hmem', hunspent'⟩
    · exact hover i j ⟨hi.suited, hj.suited, hi.twice, hj.twice, before, hpre, hmem,
        hle.subset hmem', hunspent⟩

end Token
end DigitalLedger
