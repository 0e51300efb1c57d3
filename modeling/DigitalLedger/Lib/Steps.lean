import Mathlib.Order.Basic

/-!
# Step functions

A scale of thresholds gives each band of its argument a value: a chain of tests, each
with the value of its band.  Such a scale respects an order of its argument when every
test is passed by all better arguments and no later band is worth more.

## Main definitions

* `Rises r f bot top` — `f` grows along `r`, from `bot` to `top`.

## Main results

* `Rises.const`, `Rises.step` — a scale, from its last band up.
* `Rises.step_ge`, `Rises.step_le` — thresholds to be reached, and limits to be kept.
-/

namespace DigitalLedger

variable {α β : Type*}

/-- `f` grows along `r`, and its values stay between `bot` and `top`. -/
structure Rises [LE β] (r : α → α → Prop) (f : α → β) (bot top : β) : Prop where
  mono : ∀ x y, r x y → f x ≤ f y
  bot_le : ∀ x, bot ≤ f x
  le_top : ∀ x, f x ≤ top

namespace Rises

variable [Preorder β] {r : α → α → Prop} {f : α → β} {bot b b' : β}

/-- The last band of a scale takes every argument. -/
theorem const (b : β) : Rises r (fun _ => b) b b where
  mono _ _ _ := le_refl b
  bot_le _ := le_refl b
  le_top _ := le_refl b

/-- A band above a scale: its test is passed by all better arguments, and its value is
not below those of the scale. -/
theorem step (h : Rises r f bot b) (hb : b ≤ b') {p : α → Prop} [DecidablePred p]
    (hp : ∀ x y, r x y → p x → p y) : Rises r (fun x => if p x then b' else f x) bot b' where
  mono x y hxy := by
    show (if p x then b' else f x) ≤ if p y then b' else f y
    by_cases hx : p x
    · rw [if_pos hx, if_pos (hp x y hxy hx)]
    · rw [if_neg hx]
      split_ifs
      · exact (h.le_top x).trans hb
      · exact h.mono x y hxy
  bot_le x := by
    show bot ≤ if p x then b' else f x
    split_ifs
    · exact ((h.bot_le x).trans (h.le_top x)).trans hb
    · exact h.bot_le x
  le_top x := by
    show (if p x then b' else f x) ≤ b'
    split_ifs
    · exact le_refl b'
    · exact (h.le_top x).trans hb

variable [Preorder α] [DecidableLE α]

/-- A band for the arguments that reach a threshold. -/
theorem step_ge {f : α → β} (c : α) (h : Rises (· ≤ ·) f bot b) (hb : b ≤ b') :
    Rises (· ≤ ·) (fun x => if x ≥ c then b' else f x) bot b' :=
  h.step hb fun _ _ hxy hx => le_trans hx hxy

/-- A band for the arguments that keep a limit. -/
theorem step_le {f : α → β} (c : α) (h : Rises (fun x y => y ≤ x) f bot b) (hb : b ≤ b') :
    Rises (fun x y => y ≤ x) (fun x => if x ≤ c then b' else f x) bot b' :=
  h.step hb fun _ _ hxy hx => le_trans hxy hx

end Rises

end DigitalLedger
