import Mathlib.Data.List.Induction
import Mathlib.Data.List.Nodup

/-!
# Dictionaries in order of insertion

A dictionary as the list of its items: assigning to a key that is there replaces the value
where it stands, and a new key comes last.  A dictionary built from a list of values, each
under a key of its own, keeps of the values with one key the last.

## Main definitions

* `Keyed.set` — assignment to a key.
* `Keyed.keys` — the keys, in order.
* `Keyed.ofList` — the dictionary of a list, by a key of its values.

## Main results

* `Keyed.lookup_set` — what is found after an assignment.
* `Keyed.lookup_ofList` — what is found in a dictionary built from a list.
* `Keyed.mem_keys_ofList` — its keys.
-/

namespace DigitalLedger
namespace Keyed

variable {κ α : Type*} [DecidableEq κ]

/-- The keys, in order. -/
def keys (d : List (κ × α)) : List κ := d.map Prod.fst

/-- Assignment to a key. -/
def set (k : κ) (a : α) (d : List (κ × α)) : List (κ × α) :=
  if k ∈ keys d then d.map fun e => if e.1 = k then (k, a) else e else d ++ [(k, a)]

/-- The dictionary of a list, by a key of its values. -/
def ofList (key : α → κ) (l : List α) : List (κ × α) := l.foldl (fun d a => set (key a) a d) []

variable {k k' : κ} {a : α} {d : List (κ × α)} {key : α → κ} {l : List α}

theorem keys_set : keys (set k a d) = if k ∈ keys d then keys d else keys d ++ [k] := by
  rw [set]
  split_ifs with hmem
  · rw [keys, List.map_map, keys]
    refine List.map_congr_left fun e _ => ?_
    rw [Function.comp_apply]
    split_ifs with he
    · exact he.symm
    · rfl
  · rw [keys, List.map_append, List.map_singleton, ← keys]

theorem mem_keys_set : k' ∈ keys (set k a d) ↔ k' ∈ keys d ∨ k' = k := by
  rw [keys_set]
  split_ifs with hmem
  · exact (or_iff_left_of_imp fun h => h ▸ hmem).symm
  · rw [List.mem_append, List.mem_singleton]

theorem lookup_eq_none_iff : d.lookup k = none ↔ k ∉ keys d := by
  rw [List.lookup_eq_none_iff, keys, List.mem_map]
  constructor
  · rintro h ⟨e, he, rfl⟩
    exact absurd (h e he) (by simp)
  · intro h e he
    exact bne_iff_ne.2 fun heq => h ⟨e, he, heq.symm⟩

/-- Replacing the value of a key, seen from that key. -/
theorem lookup_replace_self (hmem : k ∈ keys d) :
    (d.map fun e => if e.1 = k then (k, a) else e).lookup k = some a := by
  induction d with
  | nil => exact absurd hmem List.not_mem_nil
  | cons e d ih =>
    rw [List.map_cons]
    by_cases he : e.1 = k
    · rw [if_pos he, List.lookup_cons_self]
    · rw [if_neg he, List.lookup_cons, beq_eq_false_iff_ne.2 (Ne.symm he)]
      exact ih (List.mem_of_ne_of_mem (Ne.symm he) hmem)

/-- Replacing the value of a key, seen from another. -/
theorem lookup_replace_of_ne (hne : k' ≠ k) :
    (d.map fun e => if e.1 = k then (k, a) else e).lookup k' = d.lookup k' := by
  induction d with
  | nil => rfl
  | cons e d ih =>
    rw [List.map_cons, List.lookup_cons, List.lookup_cons, ih]
    by_cases he : e.1 = k
    · rw [if_pos he, he]
      dsimp only
      rw [beq_eq_false_iff_ne.2 hne]
    · rw [if_neg he]

/-- **What is found after an assignment.** -/
theorem lookup_set : (set k a d).lookup k' = if k' = k then some a else d.lookup k' := by
  rw [set]
  by_cases hk : k' = k
  · subst hk
    rw [if_pos rfl]
    split_ifs with hmem
    · exact lookup_replace_self hmem
    · rw [List.lookup_append, lookup_eq_none_iff.2 hmem, List.lookup_cons_self]
      rfl
  · rw [if_neg hk]
    split_ifs with hmem
    · exact lookup_replace_of_ne hk
    · rw [List.lookup_append, List.lookup_cons, beq_eq_false_iff_ne.2 hk]
      exact Option.or_none

/-- **What is found in a dictionary built from a list**: the last of its values. -/
theorem lookup_ofList : (ofList key l).lookup k = l.reverse.find? fun a => key a = k := by
  induction l using List.reverseRecOn with
  | nil => rfl
  | append_singleton l a ih =>
    rw [ofList, List.foldl_append, ← ofList, List.foldl_cons, List.foldl_nil, lookup_set, ih,
      List.reverse_append, List.reverse_singleton, List.singleton_append, List.find?_cons]
    by_cases hk : k = key a
    · rw [if_pos hk, decide_eq_true hk.symm]
    · rw [if_neg hk, decide_eq_false (Ne.symm hk)]

theorem of_lookup_ofList (h : (ofList key l).lookup k = some a) : a ∈ l ∧ key a = k := by
  rw [lookup_ofList] at h
  exact ⟨List.mem_reverse.1 (List.mem_of_find?_eq_some h), by simpa using List.find?_some h⟩

/-- Where the keys differ, every value is found under its key. -/
theorem lookup_ofList_of_nodup (hl : (l.map key).Nodup) (ha : a ∈ l) :
    (ofList key l).lookup (key a) = some a := by
  cases hfound : (ofList key l).lookup (key a) with
  | some b =>
    obtain ⟨hb, hkey⟩ := of_lookup_ofList hfound
    rw [List.inj_on_of_nodup_map hl hb ha hkey]
  | none =>
    rw [lookup_ofList, List.find?_eq_none] at hfound
    exact absurd (hfound a (List.mem_reverse.2 ha)) (by simp)

theorem mem_keys_ofList : k ∈ keys (ofList key l) ↔ k ∈ l.map key := by
  induction l using List.reverseRecOn with
  | nil => simp [ofList, keys]
  | append_singleton l a ih =>
    rw [ofList, List.foldl_append, ← ofList, List.foldl_cons, List.foldl_nil, mem_keys_set, ih,
      List.map_append, List.mem_append, List.map_singleton, List.mem_singleton]

end Keyed
end DigitalLedger
