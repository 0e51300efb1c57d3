import DigitalLedger.Reminders
import Mathlib.Data.Rat.Floor
import Mathlib.Tactic.Linarith

/-!
# Printed amounts

Reminders print an amount with two decimals, receipts and pages also with commas between
the thousands.  A reader who knows nothing of how the text came about reads the amount off
it to the nearest cent.

## Main definitions

* `commaDecimals` — an amount with two decimals and commas.
* `readAmount` — the amount a text stands for.

## Main results

* `printed_amounts` — the two texts, read, and how they differ.
-/

namespace DigitalLedger

/-! ### Commas -/

/-- A comma after each three digits that another one follows; the digits come last first. -/
def groupDigits : List Char → List Char
  | a :: b :: c :: d :: ds => a :: b :: c :: ',' :: groupDigits (d :: ds)
  | ds => ds

/-- `f"{n:,}"` of a natural number. -/
def withCommas (n : ℕ) : String := String.ofList (groupDigits (Nat.toDigits 10 n).reverse).reverse

/-- `f"{x:,.2f}"` of an exact amount. -/
def commaDecimals (x : ℚ) : String :=
  let cents := (roundHalfEven (100 * x)).natAbs
  let sign := if x < 0 then "-" else ""
  let units := withCommas (cents / 100)
  let rest := if cents % 100 < 10 then "0" ++ toString (cents % 100) else toString (cents % 100)
  s!"{sign}{units}.{rest}"

example : commaDecimals (-1234567.125) = "-1,234,567.12" := by decide +kernel

/-- Taking the commas out leaves the digits. -/
theorem filter_groupDigits {p : Char → Bool} (hcomma : p ',' = false) {ds : List Char}
    (hds : ∀ c ∈ ds, p c = true) : (groupDigits ds).filter p = ds := by
  induction ds using groupDigits.induct with
  | case1 a b c d ds ih =>
    have ha : p a = true := hds a (by simp)
    have hb : p b = true := hds b (by simp)
    have hc : p c = true := hds c (by simp)
    have hfilter := ih fun e he => hds e (by simp at he ⊢; tauto)
    rw [groupDigits]
    simp [ha, hb, hc, hcomma, hfilter]
  | case2 ds hshort =>
    have hgroup : groupDigits ds = ds := by
      rw [groupDigits]
      exact hshort
    rw [hgroup, List.filter_eq_self]
    exact hds

/-- From the end, every fourth character is a comma, and no other. -/
theorem groupDigits_eq_comma {ds : List Char} (hds : ∀ c ∈ ds, c ≠ ',') {i : ℕ} {c : Char}
    (hi : (groupDigits ds)[i]? = some c) : c = ',' ↔ i % 4 = 3 := by
  induction ds using groupDigits.induct generalizing i with
  | case1 a b c' d ds ih =>
    have ha : a ≠ ',' := hds a (by simp)
    have hb : b ≠ ',' := hds b (by simp)
    have hc : c' ≠ ',' := hds c' (by simp)
    have hrest : ∀ e ∈ d :: ds, e ≠ ',' := fun e he => hds e (by simp at he ⊢; tauto)
    rw [groupDigits] at hi
    match i with
    | 0 => simp_all
    | 1 => simp_all
    | 2 => simp_all
    | 3 => simpa using hi.symm
    | i + 4 =>
      simp only [List.getElem?_cons_succ] at hi
      rw [ih hrest hi]
      omega
  | case2 ds hshort =>
    have hgroup : groupDigits ds = ds := by
      rw [groupDigits]
      exact hshort
    have hlength : ds.length ≤ 3 := by
      match ds with
      | [] => simp
      | [_] => simp
      | [_, _] => simp
      | [_, _, _] => simp
      | a :: b :: c :: d :: ds => exact (hshort a b c d ds rfl).elim
    rw [hgroup] at hi
    obtain ⟨hlt, hget⟩ := List.getElem?_eq_some_iff.mp hi
    have hne : c ≠ ',' := hds c (hget ▸ List.getElem_mem hlt)
    have hmod : i % 4 ≠ 3 := by omega
    exact iff_of_false hne hmod

/-! ### Reading an amount -/

/-- The number the digits among the characters form. -/
def digitsValue (cs : List Char) : ℕ := Nat.ofDigitChars 10 (cs.filter Char.isDigit) 0

/-- The amount a text stands for: units before the point, cents after it, and the sign. -/
def readAmount (text : String) : ℚ :=
  let cs := text.toList
  let value : ℚ :=
    digitsValue (cs.takeWhile (· ≠ '.')) + digitsValue (cs.dropWhile (· ≠ '.')) / 100
  if cs.head? = some '-' then -value else value

theorem isDigit_toDigits {n : ℕ} {c : Char} (hc : c ∈ Nat.toDigits 10 n) : c.isDigit = true :=
  Nat.isDigit_of_mem_toDigits (by decide) (by decide) hc

theorem ne_of_isDigit {c c' : Char} (hc : c.isDigit = true) (hc' : c'.isDigit = false) :
    c ≠ c' := by
  rintro rfl
  rw [hc] at hc'
  exact absurd hc' (by decide)

theorem digitsValue_toDigits (n : ℕ) : digitsValue (Nat.toDigits 10 n) = n := by
  rw [digitsValue, List.filter_eq_self.mpr fun c hc => isDigit_toDigits hc,
    Nat.ofDigitChars_ten_toDigits]

theorem digitsValue_withCommas (n : ℕ) : digitsValue (withCommas n).toList = n := by
  have hdigits : (groupDigits (Nat.toDigits 10 n).reverse).filter Char.isDigit =
      (Nat.toDigits 10 n).reverse :=
    filter_groupDigits rfl fun c hc => isDigit_toDigits (List.mem_reverse.mp hc)
  rw [digitsValue, withCommas, String.toList_ofList, List.filter_reverse, hdigits,
    List.reverse_reverse, Nat.ofDigitChars_ten_toDigits]

theorem mem_groupDigits {c : Char} {ds : List Char} (hc : c ∈ groupDigits ds) :
    c = ',' ∨ c ∈ ds := by
  induction ds using groupDigits.induct with
  | case1 a b c' d ds ih =>
    rw [groupDigits] at hc
    simp only [List.mem_cons] at hc ⊢
    rcases hc with hc | hc | hc | hc | hc
    · exact .inr (.inl hc)
    · exact .inr (.inr (.inl hc))
    · exact .inr (.inr (.inr (.inl hc)))
    · exact .inl hc
    · rcases ih hc with hc | hc
      · exact .inl hc
      · exact .inr (.inr (.inr (.inr (List.mem_cons.mp hc))))
  | case2 ds hshort =>
    have hgroup : groupDigits ds = ds := by
      rw [groupDigits]
      exact hshort
    rw [hgroup] at hc
    exact .inr hc

theorem mem_withCommas {n : ℕ} {c : Char} (hc : c ∈ (withCommas n).toList) :
    c = ',' ∨ c.isDigit = true := by
  rw [withCommas, String.toList_ofList, List.mem_reverse] at hc
  rcases mem_groupDigits hc with hc | hc
  · exact .inl hc
  · exact .inr (isDigit_toDigits (List.mem_reverse.mp hc))

/-! ### The two texts -/

/-- The two digits of the cents. -/
def centsText (k : ℕ) : String := if k < 10 then "0" ++ toString k else toString k

/-- An amount in cents, without its sign. -/
def centsOf (x : ℚ) : ℕ := (roundHalfEven (100 * x)).natAbs

/-- The characters of a printed amount. -/
def amountChars (negative : Bool) (units : List Char) (cents : ℕ) : List Char :=
  (if negative then ['-'] else []) ++ units ++ '.' :: (centsText cents).toList

theorem toList_twoDecimals (x : ℚ) :
    (twoDecimals x).toList =
      amountChars (decide (x < 0)) (Nat.toDigits 10 (centsOf x / 100)) (centsOf x % 100) := by
  have htext : twoDecimals x = (if x < 0 then "-" else "") ++ Nat.repr (centsOf x / 100) ++
      "." ++ centsText (centsOf x % 100) := rfl
  rw [htext, amountChars, String.toList_append, String.toList_append, String.toList_append,
    Nat.toList_repr]
  by_cases hx : x < 0
  · simp [hx]
  · simp [hx]

theorem toList_commaDecimals (x : ℚ) :
    (commaDecimals x).toList =
      amountChars (decide (x < 0)) (withCommas (centsOf x / 100)).toList (centsOf x % 100) := by
  have htext : commaDecimals x = (if x < 0 then "-" else "") ++ withCommas (centsOf x / 100) ++
      "." ++ centsText (centsOf x % 100) := rfl
  rw [htext, amountChars, String.toList_append, String.toList_append, String.toList_append]
  by_cases hx : x < 0
  · simp [hx]
  · simp [hx]

theorem digitsValue_centsText (k : ℕ) : digitsValue (centsText k).toList = k := by
  have hdigits : (toString k).toList = Nat.toDigits 10 k := Nat.toList_repr
  unfold centsText
  split
  · rw [String.toList_append, digitsValue, List.filter_append, Nat.ofDigitChars_append, hdigits]
    exact digitsValue_toDigits k
  · rw [hdigits]
    exact digitsValue_toDigits k

theorem isDigit_centsText {k : ℕ} {c : Char} (hc : c ∈ (centsText k).toList) :
    c.isDigit = true := by
  have hdigits : (toString k).toList = Nat.toDigits 10 k := Nat.toList_repr
  unfold centsText at hc
  split at hc
  · rw [String.toList_append, hdigits, List.mem_append] at hc
    rcases hc with hc | hc
    · rw [List.mem_singleton.mp hc]
      decide
    · exact isDigit_toDigits hc
  · rw [hdigits] at hc
    exact isDigit_toDigits hc

theorem length_centsText {k : ℕ} (hk : k < 100) : (centsText k).toList.length = 2 := by
  have hdigits : (toString k).toList = Nat.toDigits 10 k := Nat.toList_repr
  unfold centsText
  split
  · next h =>
    rw [String.toList_append, hdigits, Nat.toDigits_of_lt_base h]
    rfl
  · next h =>
    rw [hdigits, Nat.toDigits_of_base_le (by decide) (not_lt.mp h),
      Nat.toDigits_of_lt_base (show k / 10 < 10 by omega)]
    rfl

/-- A printed amount is read as its sign, its units and its cents. -/
theorem readAmount_printed {text : String} {negative : Bool} {units : List Char} {cents : ℕ}
    (htext : text.toList = amountChars negative units cents)
    (hunits : ∀ c ∈ units, c = ',' ∨ c.isDigit = true) :
    readAmount text =
      (if negative then -1 else 1) * (digitsValue units + (cents : ℚ) / 100) := by
  have hpoint : ∀ c ∈ units, c ≠ '.' ∧ c ≠ '-' := by
    intro c hc
    rcases hunits c hc with rfl | hdigit
    · decide
    · exact ⟨ne_of_isDigit hdigit rfl, ne_of_isDigit hdigit rfl⟩
  have hbefore : ∀ c ∈ (if negative then ['-'] else []) ++ units, decide (c ≠ '.') = true := by
    intro c hc
    rw [decide_eq_true_eq]
    rcases List.mem_append.mp hc with hc | hc
    · cases negative with
      | false => exact absurd hc List.not_mem_nil
      | true =>
        rw [List.mem_singleton.mp hc]
        decide
    · exact (hpoint c hc).1
  have hvalue : digitsValue ((if negative then ['-'] else []) ++ units) = digitsValue units := by
    cases negative with
    | false => rfl
    | true => rfl
  have hrest : digitsValue ('.' :: (centsText cents).toList) = cents := digitsValue_centsText cents
  have hhead : (amountChars negative units cents).head? = some '-' ↔ negative = true := by
    cases negative with
    | true => exact iff_of_true rfl rfl
    | false =>
      refine iff_of_false (fun h => ?_) (by decide)
      cases units with
      | nil => exact absurd h (by simp [amountChars])
      | cons c units => exact (hpoint c List.mem_cons_self).2 (Option.some.inj h)
  have htake : (amountChars negative units cents).takeWhile (· ≠ '.') =
      (if negative then ['-'] else []) ++ units := by
    rw [amountChars, List.takeWhile_append_of_pos hbefore]
    simp
  have hdrop : (amountChars negative units cents).dropWhile (· ≠ '.') =
      '.' :: (centsText cents).toList := by
    rw [amountChars, List.dropWhile_append_of_pos hbefore]
    simp
  rw [readAmount, htext, htake, hdrop, hvalue, hrest]
  by_cases hneg : negative = true
  · rw [if_pos (hhead.mpr hneg), if_pos hneg, neg_one_mul]
  · rw [if_neg (fun h => hneg (hhead.mp h)), if_neg hneg, one_mul]

/-! ### The nearest cent -/

/-- The nearest amount in whole cents, of two the one with an even number of them. -/
def nearestCent (x : ℚ) : ℚ := roundHalfEven (100 * x) / 100

theorem roundHalfEven_cases (x : ℚ) :
    (roundHalfEven x = ⌊x⌋ ∧ x - ⌊x⌋ ≤ 1 / 2) ∨
      (roundHalfEven x = ⌊x⌋ + 1 ∧ 1 / 2 ≤ x - ⌊x⌋) := by
  unfold roundHalfEven
  dsimp only
  split
  · next h => exact .inl ⟨rfl, h.le⟩
  · next h =>
    split
    · next h' => exact .inr ⟨rfl, h'.le⟩
    · next h' =>
      split
      · exact .inl ⟨rfl, not_lt.mp h'⟩
      · exact .inr ⟨rfl, not_lt.mp h⟩

theorem abs_roundHalfEven_sub_le (x : ℚ) : |(roundHalfEven x : ℚ) - x| ≤ 1 / 2 := by
  have hfloor := Int.floor_le x
  have hceil := Int.lt_floor_add_one x
  rcases roundHalfEven_cases x with ⟨hround, hle⟩ | ⟨hround, hle⟩
  · rw [hround, abs_le]
    constructor <;> linarith
  · rw [hround, abs_le]
    push_cast
    constructor <;> linarith

theorem roundHalfEven_intCast (n : ℤ) : roundHalfEven n = n := by
  have hfloor : ⌊(n : ℚ)⌋ = n := Int.floor_intCast n
  unfold roundHalfEven
  dsimp only
  rw [hfloor, sub_self, if_pos (by norm_num)]

/-- Rounding does not change the sign. -/
theorem roundHalfEven_nonpos {x : ℚ} (hx : x < 0) : roundHalfEven x ≤ 0 := by
  have hfloor : ⌊x⌋ < 0 := Int.floor_lt.mpr (by simpa using hx)
  rcases roundHalfEven_cases x with ⟨hround, -⟩ | ⟨hround, -⟩
  · omega
  · omega

theorem roundHalfEven_nonneg {x : ℚ} (hx : 0 ≤ x) : 0 ≤ roundHalfEven x := by
  have hfloor : 0 ≤ ⌊x⌋ := Int.floor_nonneg.mpr hx
  rcases roundHalfEven_cases x with ⟨hround, -⟩ | ⟨hround, -⟩
  · omega
  · omega

theorem nearestCent_eq (x : ℚ) :
    nearestCent x = (if decide (x < 0) then -1 else 1) * ((centsOf x : ℚ) / 100) := by
  have hcents : ((centsOf x : ℤ) : ℚ) = (centsOf x : ℚ) := Int.cast_natCast _
  unfold nearestCent
  by_cases hx : x < 0
  · have hround := roundHalfEven_nonpos (show 100 * x < 0 by linarith)
    have habs : roundHalfEven (100 * x) = -(centsOf x : ℤ) := by
      rw [centsOf]
      omega
    rw [if_pos (decide_eq_true hx), habs]
    push_cast
    ring
  · have hround := roundHalfEven_nonneg (show 0 ≤ 100 * x by linarith)
    have habs : roundHalfEven (100 * x) = (centsOf x : ℤ) := by
      rw [centsOf]
      omega
    rw [if_neg (by simpa using hx), habs]
    push_cast
    ring

/-- Units and cents make up the amount. -/
theorem units_add_cents (n : ℕ) : ((n / 100 : ℕ) : ℚ) + ((n % 100 : ℕ) : ℚ) / 100 = n / 100 := by
  have hsplit : ((100 * (n / 100) + n % 100 : ℕ) : ℚ) = n := by rw [Nat.div_add_mod]
  push_cast at hsplit
  linarith

theorem readAmount_twoDecimals (x : ℚ) : readAmount (twoDecimals x) = nearestCent x := by
  rw [readAmount_printed (toList_twoDecimals x) fun c hc => .inr (isDigit_toDigits hc),
    digitsValue_toDigits, units_add_cents, nearestCent_eq]

theorem readAmount_commaDecimals (x : ℚ) : readAmount (commaDecimals x) = nearestCent x := by
  rw [readAmount_printed (toList_commaDecimals x) fun c hc => mem_withCommas hc,
    digitsValue_withCommas, units_add_cents, nearestCent_eq]

theorem abs_nearestCent_sub_le (x : ℚ) : |nearestCent x - x| ≤ 1 / 200 := by
  have hround := abs_le.mp (abs_roundHalfEven_sub_le (100 * x))
  rw [nearestCent, abs_le]
  constructor <;> linarith [hround.1, hround.2]

theorem nearestCent_of_cents (n : ℤ) : nearestCent (n / 100) = n / 100 := by
  have hcents : (100 : ℚ) * (n / 100) = n := by ring
  rw [nearestCent, hcents, roundHalfEven_intCast]

/-- The comma keeps to its places: counted from the last unit, the fourth character, the
eighth, and so on. -/
theorem commaDecimals_eq_comma {x : ℚ} {i : ℕ} {c : Char}
    (hi : (commaDecimals x).toList.reverse[i + 3]? = some c) (hc : c ≠ '-') :
    c = ',' ↔ i % 4 = 3 := by
  have hmod : centsOf x % 100 < 100 := Nat.mod_lt _ (by decide)
  have hunits : (withCommas (centsOf x / 100)).toList.reverse =
      groupDigits (Nat.toDigits 10 (centsOf x / 100)).reverse := by
    rw [withCommas, String.toList_ofList, List.reverse_reverse]
  have hnocomma : ∀ c ∈ (Nat.toDigits 10 (centsOf x / 100)).reverse, c ≠ ',' := fun c hc =>
    ne_of_isDigit (isDigit_toDigits (List.mem_reverse.mp hc)) rfl
  rw [toList_commaDecimals, amountChars, List.reverse_append, List.reverse_cons,
    List.reverse_append, hunits, List.append_assoc, List.singleton_append,
    List.getElem?_append_right (by rw [List.length_reverse, length_centsText hmod]; omega),
    List.length_reverse, length_centsText hmod] at hi
  rw [show i + 3 - 2 = i + 1 by omega, List.getElem?_cons_succ] at hi
  rcases Nat.lt_or_ge i (groupDigits (Nat.toDigits 10 (centsOf x / 100)).reverse).length with
    hlt | hge
  · rw [List.getElem?_append_left hlt] at hi
    exact groupDigits_eq_comma hnocomma hi
  · -- beyond the units there is only the sign
    rw [List.getElem?_append_right hge] at hi
    have hmem := List.mem_of_getElem? hi
    rw [List.mem_reverse] at hmem
    split at hmem
    · exact absurd (List.mem_singleton.mp hmem) hc
    · exact absurd hmem List.not_mem_nil

/-- **What is printed of an amount.**  With commas or without, the text is read as the
nearest cent, which is the amount itself where that is in whole cents; and taking the commas
out of the one text gives the other. -/
theorem printed_amounts (x : ℚ) :
    (readAmount (twoDecimals x) = nearestCent x ∧ readAmount (commaDecimals x) = nearestCent x) ∧
      |nearestCent x - x| ≤ 1 / 200 ∧ ((∃ n : ℤ, x = n / 100) → nearestCent x = x) ∧
      (commaDecimals x).toList.filter (· ≠ ',') = (twoDecimals x).toList ∧
      ∀ i c, (commaDecimals x).toList.reverse[i + 3]? = some c → c ≠ '-' →
        (c = ',' ↔ i % 4 = 3) := by
  refine ⟨⟨readAmount_twoDecimals x, readAmount_commaDecimals x⟩, abs_nearestCent_sub_le x, ?_,
    ?_, fun i c hi hc => commaDecimals_eq_comma hi hc⟩
  · rintro ⟨n, rfl⟩
    exact nearestCent_of_cents n
  · have hcents : ∀ c ∈ (centsText (centsOf x % 100)).toList, decide (c ≠ ',') = true :=
      fun c hc => decide_eq_true (ne_of_isDigit (isDigit_centsText hc) rfl)
    have hunits : (groupDigits (Nat.toDigits 10 (centsOf x / 100)).reverse).filter
        (fun c => decide (c ≠ ',')) = (Nat.toDigits 10 (centsOf x / 100)).reverse :=
      filter_groupDigits rfl fun c hc =>
        decide_eq_true (ne_of_isDigit (isDigit_toDigits (List.mem_reverse.mp hc)) rfl)
    rw [toList_commaDecimals, toList_twoDecimals, amountChars, amountChars, List.filter_append,
      List.filter_append, List.filter_cons_of_pos (by decide), List.filter_eq_self.mpr hcents,
      withCommas, String.toList_ofList, List.filter_reverse, hunits, List.reverse_reverse]
    congr 2
    split <;> rfl

end DigitalLedger
