import DigitalLedger.Lib.Collection

/-!
# Purging a run

The documents of a collection belong to somebody, and a caller that reads and writes
only what is its own neither learns of the rest nor changes it.  To say so, the store
is restricted to the documents of one owner, and a run is purged of the actions of
everybody else.

## Main definitions

* `Collection.restrict p C` — the documents of `C` that satisfy `p`.
* `Op.Within p C o` — the call `o` selects and inserts only documents that satisfy `p`.
* `Op.Confined p C o` — the same, where a key may be taken by a document that satisfies `p`.
* `Op.KeepsTo P S o` — the call `o` inserts documents with `P`, and selects by queries with `S`.
* `log`, `final` — the outcomes of a sequence of actions, and the store it leaves.

## Main results

* `Op.exec_restrict` — a call within `p` is answered the same on the restriction.
* `Op.exec_congr` — and on any two collections with the same restriction.
* `Op.restrict_exec_of_disjoint` — a call within the complement does not change it.
* `log_purge` — the unwinding theorem: purging the run of what its view hides leaves
  the outcomes of the rest and the view of the final store.
-/

namespace List

variable {α : Type*} {p q : α → Bool} {f : α → α} {l : List α}

theorem find?_filter_of_imp (h : ∀ a ∈ l, q a → p a) : (l.filter p).find? q = l.find? q := by
  induction l with
  | nil => rfl
  | cons a l ih =>
    have htail := ih fun b hb => h b (mem_cons_of_mem a hb)
    by_cases hp : p a
    · rw [filter_cons_of_pos hp, find?_cons, find?_cons, htail]
    · have hq : ¬q a := fun hqa => hp (h a mem_cons_self hqa)
      rw [filter_cons_of_neg hp, find?_cons_of_neg hq, htail]

theorem filter_updateFirst_of_imp (hf : ∀ a, p (f a) = p a) (h : ∀ a ∈ l, q a → p a) :
    (l.updateFirst q f).filter p = (l.filter p).updateFirst q f := by
  induction l with
  | nil => rfl
  | cons a l ih =>
    have htail := ih fun b hb => h b (mem_cons_of_mem a hb)
    by_cases hq : q a
    · have hp : p a := h a mem_cons_self hq
      rw [updateFirst, if_pos hq, filter_cons_of_pos (by rw [hf]; exact hp), filter_cons_of_pos hp,
        updateFirst, if_pos hq]
    · rw [updateFirst, if_neg hq]
      by_cases hp : p a
      · rw [filter_cons_of_pos hp, filter_cons_of_pos hp, updateFirst, if_neg hq, htail]
      · rw [filter_cons_of_neg hp, filter_cons_of_neg hp, htail]

theorem filter_updateFirst_of_disjoint (hf : ∀ a, p (f a) = p a) (h : ∀ a ∈ l, q a → ¬p a) :
    (l.updateFirst q f).filter p = l.filter p := by
  induction l with
  | nil => rfl
  | cons a l ih =>
    have htail := ih fun b hb => h b (mem_cons_of_mem a hb)
    by_cases hq : q a
    · have hp : ¬p a := h a mem_cons_self hq
      rw [updateFirst, if_pos hq, filter_cons_of_neg (by rw [hf]; exact hp), filter_cons_of_neg hp]
    · rw [updateFirst, if_neg hq, filter_cons, filter_cons, htail]

theorem filter_eraseP_of_imp (h : ∀ a ∈ l, q a → p a) :
    (l.eraseP q).filter p = (l.filter p).eraseP q := by
  induction l with
  | nil => rfl
  | cons a l ih =>
    have htail := ih fun b hb => h b (mem_cons_of_mem a hb)
    by_cases hq : q a
    · have hp : p a := h a mem_cons_self hq
      rw [eraseP_cons_of_pos hq, filter_cons_of_pos hp, eraseP_cons_of_pos hq]
    · rw [eraseP_cons_of_neg hq]
      by_cases hp : p a
      · rw [filter_cons_of_pos hp, filter_cons_of_pos hp, eraseP_cons_of_neg hq, htail]
      · rw [filter_cons_of_neg hp, filter_cons_of_neg hp, htail]

theorem filter_eraseP_of_disjoint (h : ∀ a ∈ l, q a → ¬p a) :
    (l.eraseP q).filter p = l.filter p := by
  induction l with
  | nil => rfl
  | cons a l ih =>
    have htail := ih fun b hb => h b (mem_cons_of_mem a hb)
    by_cases hq : q a
    · rw [eraseP_cons_of_pos hq, filter_cons_of_neg (h a mem_cons_self hq)]
    · rw [eraseP_cons_of_neg hq, filter_cons, filter_cons, htail]

end List

namespace DigitalLedger

/-! ### Restricted collections -/

section Restrict

variable {D κ Q U : Type} [Document D κ Q U]

/-- The documents that satisfy `p`. -/
def Collection.restrict (p : D → Bool) (C : Collection D) : Collection D :=
  ⟨C.docs.filter p, C.nodup.sublist (List.filter_sublist.map key)⟩

@[simp] theorem Collection.docs_restrict (p : D → Bool) (C : Collection D) :
    (C.restrict p).docs = C.docs.filter p := rfl

/-- The call selects and inserts only documents that satisfy `p`. -/
def Op.Within (p : D → Bool) (C : Collection D) : Op D Q U → Prop
  | .findOne q => ∀ d ∈ C.docs, test q d → p d
  | .find q => ∀ d ∈ C.docs, test q d → p d
  | .insertOne d => p d ∧ ∀ d' ∈ C.docs, key d' ≠ key d
  | .updateOne q _ => ∀ d ∈ C.docs, test q d → p d
  | .deleteOne q => ∀ d ∈ C.docs, test q d → p d
  | .deleteMany q => ∀ d ∈ C.docs, test q d → p d

namespace Collection

variable {p : D → Bool} {q : Q} {C : Collection D}

theorem findOne_restrict (h : ∀ d ∈ C.docs, test q d → p d) :
    (C.restrict p).findOne q = C.findOne q := List.find?_filter_of_imp h

theorem find_restrict (h : ∀ d ∈ C.docs, test q d → p d) : (C.restrict p).find q = C.find q := by
  rw [find, docs_restrict, List.filter_filter, find]
  refine List.filter_congr fun d hd => ?_
  cases htest : test q d with
  | false => rfl
  | true => exact (Bool.true_and _).trans (h d hd htest)

theorem insertOne_of_fresh [DecidableEq κ] {d : D} (h : ∀ d' ∈ C.docs, key d' ≠ key d) :
    ∃ C', C.insertOne d = some C' ∧ C'.docs = C.docs ++ [d] := by
  cases hC : C.insertOne d with
  | none =>
    obtain ⟨d', hd', hkey⟩ := insertOne_eq_none.mp hC
    exact absurd hkey (h d' hd')
  | some C' => exact ⟨C', rfl, docs_insertOne hC⟩

end Collection

variable {ε : Type} [DecidableEq κ] [DecidableEq D] (dup : ε) {p : D → Bool} {C : Collection D}

open Collection

/-- **A call within `p` is answered the same on the restriction to `p`**, and leaves the
restriction of what it leaves. -/
theorem Op.exec_restrict (hp : ∀ (u : U) d, p (apply u d) = p d) {o : Op D Q U}
    (ho : o.Within p C) :
    o.exec dup (C.restrict p) = ((o.exec dup C).1, (o.exec dup C).2.restrict p) := by
  cases o with
  | findOne q => exact congrArg (fun r => (Except.ok r, C.restrict p)) (findOne_restrict ho)
  | find q => exact congrArg (fun r => (Except.ok r, C.restrict p)) (find_restrict ho)
  | insertOne d =>
    obtain ⟨C', hC', hdocs⟩ := insertOne_of_fresh ho.2
    have hfresh : ∀ d' ∈ (C.restrict p).docs, key d' ≠ key d := fun d' hd' =>
      ho.2 d' (List.mem_of_mem_filter hd')
    obtain ⟨C'', hC'', hdocs'⟩ := insertOne_of_fresh hfresh
    have heq : C'' = C'.restrict p := by
      refine ext' ?_
      rw [hdocs', docs_restrict, docs_restrict, hdocs, List.filter_append,
        List.filter_cons_of_pos ho.1, List.filter_nil]
    rw [Op.exec, Op.exec, hC', hC'', heq]
  | updateOne q u =>
    have hresult : (C.restrict p).updateResult q u = C.updateResult q u := by
      rw [updateResult, findOne_restrict ho, updateResult]
    have hleft : (C.restrict p).updateOne q u = (C.updateOne q u).restrict p :=
      ext' (List.filter_updateFirst_of_imp (hp u) ho).symm
    rw [Op.exec, Op.exec, hresult, hleft]
  | deleteOne q =>
    have hleft : (C.restrict p).deleteOne q = (C.deleteOne q).restrict p :=
      ext' (List.filter_eraseP_of_imp ho).symm
    rw [Op.exec, Op.exec, findOne_restrict ho, hleft]
  | deleteMany q =>
    have hleft : (C.restrict p).deleteMany q = (C.deleteMany q).restrict p := by
      refine ext' ?_
      rw [docs_deleteMany, docs_restrict, docs_restrict, docs_deleteMany, List.filter_filter,
        List.filter_filter]
      exact List.filter_congr fun d _ => Bool.and_comm _ _
    rw [Op.exec, Op.exec, find_restrict ho, hleft]

/-- The call selects and inserts only documents that satisfy `p`, and so do those with the key of
what it inserts. -/
def Op.Confined (p : D → Bool) (C : Collection D) : Op D Q U → Prop
  | .findOne q => ∀ d ∈ C.docs, test q d → p d
  | .find q => ∀ d ∈ C.docs, test q d → p d
  | .insertOne d => p d ∧ ∀ d' ∈ C.docs, key d' = key d → p d'
  | .updateOne q _ => ∀ d ∈ C.docs, test q d → p d
  | .deleteOne q => ∀ d ∈ C.docs, test q d → p d
  | .deleteMany q => ∀ d ∈ C.docs, test q d → p d

/-- So is a call that is confined to `p`: whether a key is taken can be seen on the restriction. -/
theorem Op.exec_restrict_of_confined (hp : ∀ (u : U) d, p (apply u d) = p d) {o : Op D Q U}
    (ho : o.Confined p C) :
    o.exec dup (C.restrict p) = ((o.exec dup C).1, (o.exec dup C).2.restrict p) := by
  cases o with
  | insertOne d =>
    cases hC : C.insertOne d with
    | none =>
      obtain ⟨d', hd', hkey⟩ := insertOne_eq_none.mp hC
      have hrestrict : (C.restrict p).insertOne d = none :=
        insertOne_eq_none.mpr ⟨d', List.mem_filter.mpr ⟨hd', ho.2 d' hd' hkey⟩, hkey⟩
      rw [Op.exec, Op.exec, hC, hrestrict]
    | some C' =>
      have hfresh : ∀ d' ∈ C.docs, key d' ≠ key d := by
        intro d' hd' hkey
        have hnone : C.insertOne d = none := insertOne_eq_none.mpr ⟨d', hd', hkey⟩
        exact Option.some_ne_none C' (hC.symm.trans hnone)
      exact Op.exec_restrict dup hp (o := .insertOne d) ⟨ho.1, hfresh⟩
  | findOne q => exact Op.exec_restrict dup hp (o := .findOne q) ho
  | find q => exact Op.exec_restrict dup hp (o := .find q) ho
  | updateOne q u => exact Op.exec_restrict dup hp (o := .updateOne q u) ho
  | deleteOne q => exact Op.exec_restrict dup hp (o := .deleteOne q) ho
  | deleteMany q => exact Op.exec_restrict dup hp (o := .deleteMany q) ho

/-- **What is confined to `p` shows nothing else**: on collections with the same restriction to
`p` the call has the same answer, and it leaves such collections. -/
theorem Op.exec_congr (hp : ∀ (u : U) d, p (apply u d) = p d) {o : Op D Q U} {C' : Collection D}
    (ho : o.Confined p C) (ho' : o.Confined p C') (heq : C.restrict p = C'.restrict p) :
    (o.exec dup C).1 = (o.exec dup C').1 ∧
      (o.exec dup C).2.restrict p = (o.exec dup C').2.restrict p := by
  have hexec := Op.exec_restrict_of_confined dup hp ho
  rw [heq, Op.exec_restrict_of_confined dup hp ho'] at hexec
  exact ⟨(Prod.mk.inj hexec).1.symm, (Prod.mk.inj hexec).2.symm⟩

/-- What the call inserts, rewrites or removes does not satisfy `p`. -/
def Op.Spares (p : D → Bool) (C : Collection D) : Op D Q U → Prop
  | .insertOne d => ¬p d
  | .updateOne q _ => ∀ d ∈ C.docs, test q d → ¬p d
  | .deleteOne q => ∀ d ∈ C.docs, test q d → ¬p d
  | .deleteMany q => ∀ d ∈ C.docs, test q d → ¬p d
  | _ => True

/-- **A call that spares `p` does not change the restriction to `p`.** -/
theorem Op.restrict_exec_of_spares (hp : ∀ (u : U) d, p (apply u d) = p d) {o : Op D Q U}
    (ho : o.Spares p C) : (o.exec dup C).2.restrict p = C.restrict p := by
  cases o with
  | findOne q => rfl
  | find q => rfl
  | insertOne d =>
    rw [Op.exec]
    cases hC : C.insertOne d with
    | none => rfl
    | some C' =>
      refine ext' ?_
      rw [docs_restrict, docs_restrict, docs_insertOne hC, List.filter_append,
        List.filter_cons_of_neg ho, List.filter_nil, List.append_nil]
  | updateOne q u => exact ext' (List.filter_updateFirst_of_disjoint (hp u) ho)
  | deleteOne q => exact ext' (List.filter_eraseP_of_disjoint ho)
  | deleteMany q =>
    refine ext' ?_
    change (C.docs.filter fun d => !test q d).filter p = C.docs.filter p
    rw [List.filter_filter]
    refine List.filter_congr fun d hd => ?_
    cases hpd : p d with
    | false => rfl
    | true =>
      cases htest : test q d with
      | false => rfl
      | true => exact absurd hpd (ho d hd htest)

/-- The call inserts only documents with `P`, and selects only by queries with `S`. -/
def Op.KeepsTo (P : D → Prop) (S : Q → Prop) : Op D Q U → Prop
  | .findOne q => S q
  | .find q => S q
  | .insertOne d => P d
  | .updateOne q _ => S q
  | .deleteOne q => S q
  | .deleteMany q => S q

namespace Op.KeepsTo

variable {P : D → Prop} {S : Q → Prop} {o : Op D Q U}

omit [Document D κ Q U] [DecidableEq κ] [DecidableEq D] in
theorem mono {P' : D → Prop} (ho : o.KeepsTo P S) (hP : ∀ d, P d → P' d) : o.KeepsTo P' S := by
  cases o with
  | insertOne d => exact hP d ho
  | findOne q => exact ho
  | find q => exact ho
  | updateOne q u => exact ho
  | deleteOne q => exact ho
  | deleteMany q => exact ho

omit [Document D κ Q U] [DecidableEq κ] [DecidableEq D] in
theorem inserts {P' : D → Prop} (ho : o.KeepsTo P S) (hP : ∀ d, P d → P' d) : o.Inserts P' := by
  cases o with
  | insertOne d => exact hP d ho
  | findOne q => trivial
  | find q => trivial
  | updateOne q u => trivial
  | deleteOne q => trivial
  | deleteMany q => trivial

omit [DecidableEq κ] [DecidableEq D] in
theorem spares (ho : o.KeepsTo P S) (hP : ∀ d, P d → ¬p d)
    (hS : ∀ q, S q → ∀ d ∈ C.docs, test q d → ¬p d) : o.Spares p C := by
  cases o with
  | insertOne d => exact hP d ho
  | findOne q => trivial
  | find q => trivial
  | updateOne q u => exact hS q ho
  | deleteOne q => exact hS q ho
  | deleteMany q => exact hS q ho

omit [DecidableEq κ] [DecidableEq D] in
theorem confined (ho : o.KeepsTo P S)
    (hP : ∀ d, P d → p d ∧ ∀ d' ∈ C.docs, key d' = key d → p d')
    (hS : ∀ q, S q → ∀ d ∈ C.docs, test q d → p d) : o.Confined p C := by
  cases o with
  | insertOne d => exact hP d ho
  | findOne q => exact hS q ho
  | find q => exact hS q ho
  | updateOne q u => exact hS q ho
  | deleteOne q => exact hS q ho
  | deleteMany q => exact hS q ho

end Op.KeepsTo

/-- **A call within `p'` does not change the restriction to a disjoint `p`.** -/
theorem Op.restrict_exec_of_disjoint (hp : ∀ (u : U) d, p (apply u d) = p d) {p' : D → Bool}
    (hdisjoint : ∀ d, p' d → ¬p d) {o : Op D Q U} (ho : o.Within p' C) :
    (o.exec dup C).2.restrict p = C.restrict p := by
  refine Op.restrict_exec_of_spares dup hp ?_
  cases o with
  | findOne q => trivial
  | find q => trivial
  | insertOne d => exact hdisjoint d ho.1
  | updateOne q u => exact fun d hd htest => hdisjoint d (ho d hd htest)
  | deleteOne q => exact fun d hd htest => hdisjoint d (ho d hd htest)
  | deleteMany q => exact fun d hd htest => hdisjoint d (ho d hd htest)

end Restrict

/-! ### Purged runs -/

section Purge

variable {A O σ : Type} (exec : A → σ → O × σ)

/-- The outcomes of the actions, taken one after the other. -/
def log : List A → σ → List (A × O)
  | [], _ => []
  | a :: as, s => (a, (exec a s).1) :: log as (exec a s).2

/-- The store the actions leave. -/
def final (as : List A) (s : σ) : σ := as.foldl (fun s a => (exec a s).2) s

theorem final_cons (a : A) (as : List A) (s : σ) :
    final exec (a :: as) s = final exec as (exec a s).2 := rfl

/-- **The unwinding theorem.**  Under an invariant `I` of the actions to come, let the
actions of one party be answered the same on its view of the store, and let the others
not change that view.  Then purging a run of the others leaves the outcomes of that
party's actions and its view of the final store. -/
theorem log_purge (view : σ → σ) (mine : A → Bool) {I : List A → σ → Prop}
    (hstep : ∀ a as s, I (a :: as) s → I as (exec a s).2)
    (hown : ∀ a as s, I (a :: as) s → mine a →
      exec a (view s) = ((exec a s).1, view (exec a s).2))
    (hother : ∀ a as s, I (a :: as) s → ¬mine a → view (exec a s).2 = view s)
    {as : List A} {s : σ} (hs : I as s) :
    log exec (as.filter mine) (view s) = (log exec as s).filter (fun r => mine r.1) ∧
      final exec (as.filter mine) (view s) = view (final exec as s) := by
  induction as generalizing s with
  | nil => exact ⟨rfl, rfl⟩
  | cons a as ih =>
    obtain ⟨hlog, hfinal⟩ := ih (hstep a as s hs)
    rw [log, final_cons]
    by_cases ha : mine a
    · have hkeep : ((a, (exec a s).1) :: log exec as (exec a s).2).filter (fun r => mine r.1) =
          (a, (exec a s).1) :: (log exec as (exec a s).2).filter fun r => mine r.1 :=
        List.filter_cons_of_pos ha
      rw [List.filter_cons_of_pos ha, log, final_cons, hown a as s hs ha, hkeep, hlog, hfinal]
      exact ⟨rfl, rfl⟩
    · have hdrop : ((a, (exec a s).1) :: log exec as (exec a s).2).filter (fun r => mine r.1) =
          (log exec as (exec a s).2).filter fun r => mine r.1 := List.filter_cons_of_neg ha
      rw [List.filter_cons_of_neg ha, ← hother a as s hs ha, hdrop]
      exact ⟨hlog, hfinal⟩

end Purge

end DigitalLedger
