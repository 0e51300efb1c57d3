import DigitalLedger.Lib.Collection

/-!
# Accounts

A collection of entries, each of which may belong to an account and has a value in
a commutative monoid, determines for every account the sum of the values of its
entries.  A program that keeps such sums as running figures must move them by the
right amount whenever it inserts, rewrites or deletes an entry; these amounts are
computed here, once, for arbitrary entries, accounts and values.

## Main definitions

* `share owner value a d` — what the entry `d` contributes to the account `a`.
* `Collection.account owner value a C` — the sum of the entries of the account.

## Main results

* `Collection.account_insertOne`, `account_updateOne`, `account_deleteOne` — how
  each operation moves an account; `account_updateOne_add` and `account_deleteOne_add`
  where the values have no differences.
* `Collection.account_deleteMany_of_ne` — deleting the entries of one account
  leaves the others.
* `Collection.sum_shares`, `Collection.sum_account` — summing over accounts is summing
  over their entries.
-/

namespace DigitalLedger

variable {D κ Q U A M : Type} [Document D κ Q U] [DecidableEq A] [AddCommMonoid M]
variable (owner : D → Option A) (value : D → M)

/-- What an entry contributes to an account. -/
def share (a : A) (d : D) : M := if owner d = some a then value d else 0

variable {owner value}

theorem share_of_owner {a : A} {d : D} (h : owner d = some a) : share owner value a d = value d :=
  if_pos h

theorem share_of_ne {a : A} {d : D} (h : owner d ≠ some a) : share owner value a d = 0 :=
  if_neg h

namespace Collection

variable (owner value)

/-- The sum of the values of the entries of an account. -/
def account (a : A) (C : Collection D) : M := C.sum (share owner value a)

@[simp] theorem account_empty (a : A) : (empty : Collection D).account owner value a = 0 := rfl

variable {owner value} {C C' : Collection D} {a : A} {d : D} {q : Q} {u : U}

theorem account_insertOne [DecidableEq κ] (h : C.insertOne d = some C') (a : A) :
    C'.account owner value a = C.account owner value a + share owner value a d :=
  sum_insertOne _ h

/-- Rewriting an entry moves the account by what it contributes before and after. -/
theorem account_updateOne_add (h : C.findOne q = some d) (a : A) :
    (C.updateOne q u).account owner value a + share owner value a d =
      C.account owner value a + share owner value a (apply u d) :=
  sum_updateOne_add _ h

theorem account_deleteOne_add (h : C.findOne q = some d) (a : A) :
    (C.deleteOne q).account owner value a + share owner value a d = C.account owner value a :=
  sum_deleteOne_add _ h

/-- Rewriting an entry within its account moves that account by the difference of
the values, in a group. -/
theorem account_updateOne {M : Type} [AddCommGroup M] {value : D → M} (h : C.findOne q = some d)
    (howner : owner (apply u d) = owner d) (a : A) :
    (C.updateOne q u).account owner value a = C.account owner value a +
      if owner d = some a then value (apply u d) - value d else 0 := by
  rw [account, sum_updateOne _ h, account]
  by_cases ha : owner d = some a
  · rw [share_of_owner ha, share_of_owner (howner.trans ha), if_pos ha]
    abel
  · rw [share_of_ne ha, share_of_ne (fun h' => ha (howner.symm.trans h')), if_neg ha]
    abel

theorem account_deleteOne {M : Type} [AddCommGroup M] {value : D → M} (h : C.findOne q = some d)
    (a : A) :
    (C.deleteOne q).account owner value a = C.account owner value a - share owner value a d :=
  sum_deleteOne _ h

/-- An account with no entries is zero. -/
theorem account_eq_zero (h : ∀ d ∈ C.docs, owner d ≠ some a) : C.account owner value a = 0 :=
  sum_eq_zero fun d hd => share_of_ne (h d hd)

/-- Deleting entries of other accounts keeps an account. -/
theorem account_deleteMany_of_ne (h : ∀ d ∈ C.docs, test q d = true → owner d ≠ some a) :
    (C.deleteMany q).account owner value a = C.account owner value a :=
  sum_deleteMany fun d hd hq => share_of_ne (h d hd hq)

/-- The shares of an account add up to the values of its entries. -/
theorem sum_share (a : A) (l : List D) :
    (l.map (share owner value a)).sum =
      ((l.filter fun d => decide (owner d = some a)).map value).sum := by
  induction l with
  | nil => rfl
  | cons d l ih =>
    rw [List.map_cons, List.sum_cons, ih]
    by_cases hd : owner d = some a
    · rw [share_of_owner hd, List.filter_cons_of_pos (by simpa using hd), List.map_cons,
        List.sum_cons]
    · rw [share_of_ne hd, List.filter_cons_of_neg (by simpa using hd), zero_add]

/-- The entries of an account, listed. -/
theorem account_eq_sum_filter (a : A) (C : Collection D) :
    C.account owner value a =
      ((C.docs.filter fun d => decide (owner d = some a)).map value).sum := sum_share a C.docs

/-- Where every entry is the one of its own account, an account is its entry. -/
theorem account_key [DecidableEq κ] {value : D → M} (hd : d ∈ C.docs) :
    C.account (fun d => some (key d)) value (key d) = value d := by
  obtain ⟨pre, post, hdocs⟩ := List.append_of_mem hd
  have hnodup : (key d :: (pre.map key ++ post.map key)).Nodup := by
    have h := C.nodup
    rw [hdocs, List.map_append, List.map_cons] at h
    exact List.nodup_middle.mp h
  have hne := (List.nodup_cons.mp hnodup).1
  have hzero : ∀ l : List D, key d ∉ l.map key →
      (l.map (share (fun d => some (key d)) value (key d))).sum = 0 := by
    intro l hl
    refine List.sum_eq_zero fun x hx => ?_
    obtain ⟨d', hd', rfl⟩ := List.mem_map.mp hx
    exact share_of_ne fun h => hl (List.mem_map.mpr ⟨d', hd', Option.some.inj h⟩)
  have hpre := hzero pre fun h => hne (List.mem_append_left _ h)
  have hpost := hzero post fun h => hne (List.mem_append_right _ h)
  rw [account, sum, hdocs, List.map_append, List.map_cons, List.sum_append, List.sum_cons, hpre,
    hpost, zero_add, add_zero]
  exact share_of_owner rfl

/-! ### Summing over accounts -/

/-- An entry of none of the accounts contributes to none of them. -/
theorem sum_share_of_notMem {as : List A} (h : ∀ a ∈ as, owner d ≠ some a) :
    (as.map fun a => share owner value a d).sum = 0 :=
  List.sum_eq_zero fun x hx => by
    obtain ⟨a, ha, rfl⟩ := List.mem_map.mp hx
    exact share_of_ne (h a ha)

/-- An entry of one of several distinct accounts contributes its value once. -/
theorem sum_share_of_mem {as : List A} (has : as.Nodup) (ha : a ∈ as) (h : owner d = some a) :
    (as.map fun a => share owner value a d).sum = value d := by
  induction as with
  | nil => exact absurd ha List.not_mem_nil
  | cons b as ih =>
    obtain ⟨hb, has⟩ := List.nodup_cons.mp has
    rw [List.map_cons, List.sum_cons]
    by_cases hab : a = b
    · have hrest : ∀ a' ∈ as, owner d ≠ some a' := by
        intro a' ha' h'
        have hba' : a' = b := (Option.some.inj (h'.symm.trans h)).trans hab
        exact hb (hba' ▸ ha')
      rw [share_of_owner (hab ▸ h), sum_share_of_notMem hrest, add_zero]
    · have hne : owner d ≠ some b := fun h' => hab (Option.some.inj (h.symm.trans h'))
      rw [share_of_ne hne, zero_add]
      exact ih has (List.mem_of_ne_of_mem hab ha)

/-- The shares of several distinct accounts add up to the values of their entries, which `p`
singles out. -/
theorem sum_shares {as : List A} (has : as.Nodup) {p : D → Bool} {l : List D}
    (hp : ∀ d ∈ l, p d = true ↔ ∃ a ∈ as, owner d = some a) :
    (as.map fun a => (l.map (share owner value a)).sum).sum = ((l.filter p).map value).sum := by
  induction l with
  | nil => simp
  | cons d l ih =>
    have hsplit : (as.map fun a => ((d :: l).map (share owner value a)).sum).sum =
        (as.map fun a => share owner value a d).sum +
          (as.map fun a => (l.map (share owner value a)).sum).sum := by
      rw [← List.sum_map_add]
      simp only [List.map_cons, List.sum_cons]
    rw [hsplit, ih fun d' hd' => hp d' (List.mem_cons_of_mem d hd')]
    by_cases hd : p d = true
    · obtain ⟨a, ha, howner⟩ := (hp d List.mem_cons_self).mp hd
      rw [sum_share_of_mem has ha howner, List.filter_cons_of_pos hd, List.map_cons,
        List.sum_cons]
    · have hnone : ∀ a ∈ as, owner d ≠ some a := fun a ha howner =>
        hd ((hp d List.mem_cons_self).mpr ⟨a, ha, howner⟩)
      rw [sum_share_of_notMem hnone, List.filter_cons_of_neg hd, zero_add]

/-- **Summing over accounts is summing over their entries.**  The entries singled
out by `p` are those of the listed accounts. -/
theorem sum_account {as : List A} (has : as.Nodup) {p : D → Bool}
    (hp : ∀ d ∈ C.docs, p d = true ↔ ∃ a ∈ as, owner d = some a) :
    (as.map fun a => C.account owner value a).sum = ((C.docs.filter p).map value).sum :=
  sum_shares has hp

end Collection

end DigitalLedger
