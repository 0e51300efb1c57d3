import Mathlib.Algebra.BigOperators.Group.List.Basic
import Mathlib.Algebra.Order.Field.Basic

/-!
# Numbers with infinities

A floating-point format holds, besides numbers, two infinities and a value that is not a
number.  Here the numbers are those of an ordered field and arithmetic on them is exact, so
that only what the format adds to arithmetic is left: an infinity absorbs numbers, opposite
infinities add up to `nan`, and every comparison with `nan` is false.

## Main definitions

* `Extended` — numbers, infinities, and `nan`, with their arithmetic and their order.

## Main results

* `Extended.add_num_cancel` — a number that was added can be taken off again.
* `Extended.nonneg_add`, `Extended.nonneg_sum` — what is not negative adds up to such.
* `Extended.posInf_add_sub` — an infinity that was added cannot be taken off again.
-/

namespace DigitalLedger

/-- A number of `α`, an infinity, or the result of an operation that has none. -/
inductive Extended (α : Type)
  | num (x : α)
  | posInf
  | negInf
  | nan
  deriving DecidableEq

namespace Extended

variable {α : Type}

/-! ### Arithmetic -/

section Group

variable [AddCommGroup α]

instance : Zero (Extended α) := ⟨num 0⟩

protected def add : Extended α → Extended α → Extended α
  | num x, num y => num (x + y)
  | nan, _ => nan
  | _, nan => nan
  | posInf, negInf => nan
  | negInf, posInf => nan
  | posInf, _ => posInf
  | _, posInf => posInf
  | negInf, _ => negInf
  | _, negInf => negInf

protected def neg : Extended α → Extended α
  | num x => num (-x)
  | posInf => negInf
  | negInf => posInf
  | nan => nan

instance : Add (Extended α) := ⟨Extended.add⟩
instance : Neg (Extended α) := ⟨Extended.neg⟩
instance : Sub (Extended α) := ⟨fun x y => x + -y⟩

@[simp] theorem zero_def : (num 0 : Extended α) = 0 := rfl

@[simp] theorem num_add_num (x y : α) : num x + num y = num (x + y) := rfl
@[simp] theorem neg_num (x : α) : -num x = num (-x) := rfl

theorem sub_def (x y : Extended α) : x - y = x + -y := rfl

theorem num_sub_num (x y : α) : num x - num y = num (x - y) := by
  rw [sub_def, neg_num, num_add_num, sub_eq_add_neg]

@[simp] theorem nan_add (x : Extended α) : nan + x = nan := by cases x <;> rfl
@[simp] theorem add_nan (x : Extended α) : x + nan = nan := by cases x <;> rfl
@[simp] theorem posInf_add_num (x : α) : posInf + num x = posInf := rfl
@[simp] theorem num_add_posInf (x : α) : num x + posInf = posInf := rfl
@[simp] theorem negInf_add_num (x : α) : negInf + num x = negInf := rfl
@[simp] theorem num_add_negInf (x : α) : num x + negInf = negInf := rfl
@[simp] theorem posInf_add_posInf : (posInf + posInf : Extended α) = posInf := rfl
@[simp] theorem negInf_add_negInf : (negInf + negInf : Extended α) = negInf := rfl
@[simp] theorem posInf_add_negInf : (posInf + negInf : Extended α) = nan := rfl
@[simp] theorem negInf_add_posInf : (negInf + posInf : Extended α) = nan := rfl
@[simp] theorem neg_posInf : (-posInf : Extended α) = negInf := rfl
@[simp] theorem neg_negInf : (-negInf : Extended α) = posInf := rfl
@[simp] theorem neg_nan : (-nan : Extended α) = nan := rfl

@[simp] protected theorem neg_neg (x : Extended α) : - -x = x := by
  cases x with
  | num x => rw [neg_num, neg_num, neg_neg]
  | posInf => rfl
  | negInf => rfl
  | nan => rfl

instance : AddCommMonoid (Extended α) where
  add_assoc x y z := by
    cases x <;> cases y <;> cases z <;> simp [add_assoc]
  zero_add x := by
    cases x <;> simp [← zero_def]
  add_zero x := by
    cases x <;> simp [← zero_def]
  add_comm x y := by
    cases x <;> cases y <;> simp [add_comm]
  nsmul := nsmulRec

/-- A number that was added can be taken off again. -/
theorem add_num_cancel (x : Extended α) (a : α) : x + num a + -num a = x := by
  rw [add_assoc, neg_num, num_add_num, add_neg_cancel, zero_def, add_zero]

theorem eq_sub_of_add_num {x y : Extended α} {a : α} (h : x + num a = y) : x = y - num a := by
  rw [← h, sub_def, add_num_cancel]

protected theorem add_sub_assoc (x y z : Extended α) : x + y - z = x + (y - z) := by
  rw [sub_def, sub_def, add_assoc]

theorem sum_map_num {β : Type} (f : β → α) (l : List β) :
    (l.map fun b => num (f b)).sum = num (l.map f).sum := by
  induction l with
  | nil => rfl
  | cons b l ih => rw [List.map_cons, List.sum_cons, ih, num_add_num, List.map_cons, List.sum_cons]

end Group

/-! ### Order -/

section Order

variable [LinearOrder α]

/-- Comparisons with `nan` are false, the one with itself too. -/
protected def le : Extended α → Extended α → Bool
  | nan, _ => false
  | _, nan => false
  | negInf, _ => true
  | _, posInf => true
  | num x, num y => decide (x ≤ y)
  | _, _ => false

protected def lt : Extended α → Extended α → Bool
  | nan, _ => false
  | _, nan => false
  | posInf, _ => false
  | _, negInf => false
  | num x, num y => decide (x < y)
  | _, _ => true

instance : LE (Extended α) := ⟨fun x y => Extended.le x y = true⟩
instance : LT (Extended α) := ⟨fun x y => Extended.lt x y = true⟩

instance (x y : Extended α) : Decidable (x ≤ y) :=
  inferInstanceAs (Decidable (Extended.le x y = true))
instance (x y : Extended α) : Decidable (x < y) :=
  inferInstanceAs (Decidable (Extended.lt x y = true))

@[simp] theorem num_le_num {x y : α} : num x ≤ num y ↔ x ≤ y := decide_eq_true_iff
@[simp] theorem num_lt_num {x y : α} : num x < num y ↔ x < y := decide_eq_true_iff
@[simp] theorem num_lt_posInf (x : α) : num x < posInf := rfl
@[simp] theorem num_le_posInf (x : α) : num x ≤ posInf := rfl
@[simp] theorem not_num_lt_negInf (x : α) : ¬num x < negInf := Bool.false_ne_true
@[simp] theorem not_num_le_negInf (x : α) : ¬num x ≤ negInf := Bool.false_ne_true
@[simp] theorem not_lt_nan (x : Extended α) : ¬x < nan := by cases x <;> exact Bool.false_ne_true
@[simp] theorem not_le_nan (x : Extended α) : ¬x ≤ nan := by cases x <;> exact Bool.false_ne_true
@[simp] theorem negInf_le_num (x : α) : negInf ≤ num x := rfl
@[simp] theorem not_posInf_le_num (x : α) : ¬posInf ≤ num x := Bool.false_ne_true
@[simp] theorem not_nan_le (x : Extended α) : ¬nan ≤ x := by cases x <;> exact Bool.false_ne_true

theorem num_le_of_num_lt {x : α} {y : Extended α} (h : num x < y) : num x ≤ y := by
  cases y with
  | num y => exact num_le_num.mpr (num_lt_num.mp h).le
  | posInf => exact num_le_posInf x
  | negInf => exact absurd h (not_num_lt_negInf x)
  | nan => exact absurd h (not_lt_nan _)

/-- What is neither above a number nor at most that number is no number. -/
theorem lt_or_le_num (x : α) {y : Extended α} (hy : y ≠ nan) : num x < y ∨ y ≤ num x := by
  cases y with
  | num y => exact (lt_or_ge x y).imp num_lt_num.mpr num_le_num.mpr
  | posInf => exact .inl (num_lt_posInf x)
  | negInf => exact .inr (negInf_le_num x)
  | nan => exact absurd rfl hy

end Order

/-! ### Signs -/

section Signs

variable [AddCommGroup α] [LinearOrder α]

@[simp] theorem pos_num {x : α} : 0 < num x ↔ 0 < x := num_lt_num
@[simp] theorem nonneg_num {x : α} : 0 ≤ num x ↔ 0 ≤ x := num_le_num
@[simp] theorem nonpos_num {x : α} : num x ≤ 0 ↔ x ≤ 0 := num_le_num
@[simp] theorem not_nonneg_negInf : ¬(0 : Extended α) ≤ negInf := not_num_le_negInf 0

theorem nonneg_of_pos {x : Extended α} (h : 0 < x) : 0 ≤ x := num_le_of_num_lt h

/-- What is positive is a number or infinite. -/
theorem pos_cases {x : Extended α} (h : 0 < x) : (∃ a, x = num a) ∨ x = posInf := by
  cases x with
  | num a => exact .inl ⟨a, rfl⟩
  | posInf => exact .inr rfl
  | negInf => exact absurd h (not_num_lt_negInf 0)
  | nan => exact absurd h (not_lt_nan _)

theorem posInf_add_of_nonneg {x : Extended α} (h : 0 ≤ x) : posInf + x = posInf := by
  cases x with
  | num x => rfl
  | posInf => rfl
  | negInf => exact absurd h not_nonneg_negInf
  | nan => exact absurd h (not_le_nan _)

/-- An infinity that was added cannot be taken off again. -/
theorem posInf_add_sub (x y : Extended α) (hx : 0 ≤ x) : x + posInf + (y - posInf) = nan := by
  rw [add_comm x, posInf_add_of_nonneg hx, sub_def]
  cases y with
  | num y => rfl
  | posInf => rfl
  | negInf => rfl
  | nan => rfl

variable [IsOrderedAddMonoid α]

theorem nonneg_add {x y : Extended α} (hx : 0 ≤ x) (hy : 0 ≤ y) : 0 ≤ x + y := by
  cases x with
  | num x =>
    cases y with
    | num y => exact nonneg_num.mpr (add_nonneg (nonneg_num.mp hx) (nonneg_num.mp hy))
    | posInf => exact num_le_posInf 0
    | negInf => exact absurd hy not_nonneg_negInf
    | nan => exact absurd hy (not_le_nan _)
  | posInf =>
    rw [posInf_add_of_nonneg hy]
    exact hx
  | negInf => exact absurd hx not_nonneg_negInf
  | nan => exact absurd hx (not_le_nan _)

theorem nonneg_sum {l : List (Extended α)} (h : ∀ x ∈ l, 0 ≤ x) : 0 ≤ l.sum := by
  induction l with
  | nil => exact num_le_num.mpr (le_refl 0)
  | cons x l ih =>
    rw [List.forall_mem_cons] at h
    rw [List.sum_cons]
    exact nonneg_add h.1 (ih h.2)

end Signs

/-! ### Quotients -/

/-- Division by what is not zero. -/
protected def div [Field α] [LinearOrder α] : Extended α → Extended α → Extended α
  | num x, num y => num (x / y)
  | nan, _ => nan
  | _, nan => nan
  | num _, _ => num 0
  | posInf, num y => if 0 < y then posInf else negInf
  | negInf, num y => if 0 < y then negInf else posInf
  | _, _ => nan

instance [Field α] [LinearOrder α] : Div (Extended α) := ⟨Extended.div⟩

@[simp] theorem num_div_num [Field α] [LinearOrder α] (x y : α) : num x / num y = num (x / y) := rfl

end Extended

end DigitalLedger
