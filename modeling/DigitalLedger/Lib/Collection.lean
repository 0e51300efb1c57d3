import Mathlib.Algebra.BigOperators.Group.List.Basic
import Mathlib.Data.List.Nodup
import Mathlib.Tactic.Abel

/-!
# Collections of documents

A document database keeps *collections*: sequences of documents, in the order
they were inserted, in which no two documents have the same key.  The client
selects documents by queries and rewrites them by updates; what a query or an
update is depends on the kind of document, and is a parameter here.  That keys
are unique is a field of the structure, so no operation can lose it.

## Main definitions

* `Document D κ Q U` — documents `D` with keys `κ`, queries `Q` and updates `U`.
* `Collection D` — a sequence of documents with distinct keys.
* `Collection.findOne`, `find`, `insertOne`, `updateOne`, `deleteOne`,
  `deleteMany` — the operations, each on the documents its query selects.
* `Op`, `Op.exec` — the operations as calls, with their answers.
* `Op.Inserts P o` — what `o` inserts, if anything, satisfies `P`.
* `ByKey q k` — the query `q` selects nothing but a document of key `k`.
* `Collection.image` — the images of the documents under a map that keeps their keys.
* `Collection.sum` — the sum of a quantity over a collection.

## Main results

* `Collection.docs_updateOne`, `Collection.docs_deleteOne` — updating or deleting
  by key acts on the whole sequence at once.
* `Collection.findOne_image`, `Collection.updateOne_image`, … — the operations commute with
  such a map.
* `Collection.sum_insertOne`, `Collection.sum_updateOne`,
  `Collection.sum_deleteOne` — how each operation moves a sum: by the quantity of
  the one document it adds, rewrites or removes, `Collection.sum_updateOne_add` and
  `Collection.sum_deleteOne_add` where there are no differences;
  `Collection.length_find_insertOne` and the lemmas next to it say the same of the number
  of documents a query selects.
* `Op.forall_docs_exec` — what updates keep and insertions meet holds of all documents.
-/

namespace List

variable {α β : Type*} {p : α → Bool} {f : α → α} {l : List α}

/-- Rewrite the first element satisfying `p`. -/
def updateFirst (p : α → Bool) (f : α → α) : List α → List α
  | [] => []
  | a :: l => if p a then f a :: l else a :: updateFirst p f l

theorem map_updateFirst {g : α → β} (hg : ∀ a, g (f a) = g a) (l : List α) :
    (l.updateFirst p f).map g = l.map g := by
  induction l with
  | nil => rfl
  | cons a l ih =>
    rw [updateFirst]
    split
    · rw [map_cons, map_cons, hg]
    · rw [map_cons, map_cons, ih]

theorem forall_mem_updateFirst {P : α → Prop} (hf : ∀ a, P a → P (f a)) {l : List α}
    (hl : ∀ a ∈ l, P a) : ∀ a ∈ l.updateFirst p f, P a := by
  induction l with
  | nil => exact hl
  | cons b l ih =>
    rw [List.forall_mem_cons] at hl
    rw [updateFirst]
    split
    · exact List.forall_mem_cons.2 ⟨hf b hl.1, hl.2⟩
    · exact List.forall_mem_cons.2 ⟨hl.1, ih hl.2⟩

/-- Rewriting the first element commutes with a map that the condition does not notice. -/
theorem map_updateFirst_of_comm {g : α → β} {p' : β → Bool} {f' : β → β}
    (hp : ∀ a, p' (g a) = p a) (hf : ∀ a, g (f a) = f' (g a)) (l : List α) :
    (l.updateFirst p f).map g = (l.map g).updateFirst p' f' := by
  induction l with
  | nil => rfl
  | cons a l ih =>
    rw [updateFirst, map_cons, updateFirst, hp]
    split
    · rw [map_cons, hf]
    · rw [map_cons, ih]

theorem updateFirst_of_find?_eq_none (h : l.find? p = none) : l.updateFirst p f = l := by
  induction l with
  | nil => rfl
  | cons a l ih =>
    rw [find?_eq_none] at h
    rw [updateFirst, if_neg (h a mem_cons_self), ih]
    exact find?_eq_none.mpr fun b hb => h b (mem_cons_of_mem a hb)

/-- The first element satisfying `p` is found again where it has been rewritten. -/
theorem find?_updateFirst_self {a : α} (h : l.find? p = some a) (hf : p (f a)) :
    (l.updateFirst p f).find? p = some (f a) := by
  induction l with
  | nil => simp at h
  | cons b l ih =>
    by_cases hb : p b
    · rw [find?_cons_of_pos hb, Option.some.injEq] at h
      rw [updateFirst, if_pos hb, h, find?_cons_of_pos hf]
    · rw [find?_cons_of_neg hb] at h
      rw [updateFirst, if_neg hb, find?_cons_of_neg hb, ih h]

/-- Rewriting an element satisfying `p` leaves a search alone that passes such elements by,
rewritten or not. -/
theorem find?_updateFirst_of_not {p' : α → Bool} (hp : ∀ a, p a → p' a = false)
    (hf : ∀ a, p a → p' (f a) = false) (l : List α) :
    (l.updateFirst p f).find? p' = l.find? p' := by
  induction l with
  | nil => rfl
  | cons b l ih =>
    rw [updateFirst]
    split
    · next hb => rw [find?_cons_of_neg (by simp [hf b hb]), find?_cons_of_neg (by simp [hp b hb])]
    · rw [find?_cons, find?_cons, ih]

/-- Rewriting the first element satisfying `p` is rewriting the element of its key. -/
theorem updateFirst_eq_map_of_find? {k : α → β} [DecidableEq β] {a : α} (hl : (l.map k).Nodup)
    (h : l.find? p = some a) :
    l.updateFirst p f = l.map fun b => if k b = k a then f b else b := by
  induction l with
  | nil => rfl
  | cons b l ih =>
    obtain ⟨hbl, hl⟩ := nodup_cons.mp hl
    rw [updateFirst, map_cons]
    split
    · next hb =>
      rw [find?_cons_of_pos hb, Option.some.injEq] at h
      have htail : l.map (fun c => if k c = k a then f c else c) = l := by
        refine (map_congr_left fun c hc => if_neg fun hk => ?_).trans (map_id l)
        rw [h, ← hk] at hbl
        exact hbl (mem_map_of_mem hc)
      rw [htail, h, if_pos rfl]
    · next hb =>
      rw [find?_cons_of_neg hb] at h
      have hne : k b ≠ k a := fun hk => hbl (hk ▸ mem_map_of_mem (mem_of_find?_eq_some h))
      rw [if_neg hne, ih hl h]

/-- Where `p` picks out at most one element, rewriting the first is rewriting
every element that satisfies `p`. -/
theorem updateFirst_eq_map (hl : l.Nodup) (hp : ∀ a ∈ l, ∀ b ∈ l, p a → p b → a = b) :
    l.updateFirst p f = l.map fun a => if p a then f a else a := by
  induction l with
  | nil => rfl
  | cons a l ih =>
    obtain ⟨hal, hl⟩ := nodup_cons.mp hl
    rw [updateFirst, map_cons]
    split
    · next ha =>
      -- `a` is the one element satisfying `p`, so the tail stays as it is
      have htail : l.map (fun b => if p b then f b else b) = l := by
        refine (map_congr_left fun b hb => if_neg fun hpb => ?_).trans (map_id l)
        exact hal (hp a mem_cons_self b (mem_cons_of_mem a hb) ha hpb ▸ hb)
      rw [htail]
    · rw [ih hl fun b hb c hc => hp b (mem_cons_of_mem a hb) c (mem_cons_of_mem a hc)]

/-- Where `p` picks out at most one element, erasing the first is keeping every
element that does not satisfy `p`. -/
theorem eraseP_eq_filter (hl : l.Nodup) (hp : ∀ a ∈ l, ∀ b ∈ l, p a → p b → a = b) :
    l.eraseP p = l.filter fun a => !p a := by
  induction l with
  | nil => rfl
  | cons a l ih =>
    obtain ⟨hal, hl⟩ := nodup_cons.mp hl
    by_cases ha : p a
    · rw [eraseP_cons_of_pos ha, filter_cons_of_neg (by simp [ha])]
      refine (filter_eq_self.mpr fun b hb => ?_).symm
      rw [Bool.not_eq_true', Bool.eq_false_iff]
      exact fun hpb => hal (hp a mem_cons_self b (mem_cons_of_mem a hb) ha hpb ▸ hb)
    · rw [eraseP_cons_of_neg ha, filter_cons_of_pos (by simp [ha]),
        ih hl fun b hb c hc => hp b (mem_cons_of_mem a hb) c (mem_cons_of_mem a hc)]

section Sum

variable {M : Type*} [AddCommMonoid M] {a : α}

theorem sum_map_updateFirst_add (g : α → M) (h : l.find? p = some a) :
    ((l.updateFirst p f).map g).sum + g a = (l.map g).sum + g (f a) := by
  induction l with
  | nil => simp at h
  | cons b l ih =>
    by_cases hb : p b
    · rw [find?_cons_of_pos hb, Option.some.injEq] at h
      rw [updateFirst, if_pos hb, map_cons, map_cons, sum_cons, sum_cons, h]
      abel
    · rw [find?_cons_of_neg hb] at h
      rw [updateFirst, if_neg hb, map_cons, map_cons, sum_cons, sum_cons, add_assoc, ih h,
        add_assoc]

theorem sum_map_eraseP_add (g : α → M) (h : l.find? p = some a) :
    ((l.eraseP p).map g).sum + g a = (l.map g).sum := by
  induction l with
  | nil => simp at h
  | cons b l ih =>
    by_cases hb : p b
    · rw [find?_cons_of_pos hb, Option.some.injEq] at h
      rw [eraseP_cons_of_pos hb, map_cons, sum_cons, h, add_comm]
    · rw [find?_cons_of_neg hb] at h
      rw [eraseP_cons_of_neg hb, map_cons, map_cons, sum_cons, sum_cons, add_assoc, ih h]

end Sum

end List

namespace DigitalLedger

/-! ### Collections -/

/-- A kind of document: its keys, the queries that select documents and the
updates that rewrite one in place.  An update never touches the key. -/
class Document (D : Type) (κ Q U : outParam Type) where
  /-- The key of a document, unique in its collection. -/
  key : D → κ
  /-- Whether a query selects a document. -/
  test : Q → D → Bool
  /-- The document an update leaves. -/
  apply : U → D → D
  key_apply : ∀ u d, key (apply u d) = key d

export Document (key test apply key_apply)

attribute [simp] key_apply

/-- A collection: documents in insertion order, with distinct keys. -/
structure Collection (D : Type) {κ Q U : Type} [Document D κ Q U] where
  /-- The documents, oldest first. -/
  docs : List D
  nodup : (docs.map key).Nodup

/-- The query `q` selects nothing but a document of key `k`. -/
def ByKey {D κ Q U : Type} [Document D κ Q U] (q : Q) (k : κ) : Prop :=
  ∀ d : D, test q d = true → key d = k

namespace Collection

variable {D κ Q U : Type} [Document D κ Q U]

/-- The empty collection. -/
def empty : Collection D := ⟨[], List.nodup_nil⟩

/-- The first document the query selects. -/
def findOne (q : Q) (C : Collection D) : Option D := C.docs.find? (test q)

/-- The documents the query selects, in insertion order. -/
def find (q : Q) (C : Collection D) : List D := C.docs.filter (test q)

/-- Add a document at the end; `none` if its key is taken. -/
def insertOne [DecidableEq κ] (d : D) (C : Collection D) : Option (Collection D) :=
  if h : key d ∈ C.docs.map key then none
  else some ⟨C.docs ++ [d], by
    rw [List.map_append, List.map_singleton]
    exact List.Nodup.append C.nodup (List.nodup_singleton _)
      (List.disjoint_singleton.mpr h)⟩

/-- Rewrite the first document the query selects. -/
def updateOne (q : Q) (u : U) (C : Collection D) : Collection D :=
  ⟨C.docs.updateFirst (test q) (apply u), by
    rw [List.map_updateFirst (key_apply u)]; exact C.nodup⟩

/-- Remove the first document the query selects. -/
def deleteOne (q : Q) (C : Collection D) : Collection D :=
  ⟨C.docs.eraseP (test q), C.nodup.sublist ((List.eraseP_sublist).map key)⟩

/-- Remove every document the query selects. -/
def deleteMany (q : Q) (C : Collection D) : Collection D :=
  ⟨C.docs.filter fun d => !test q d, C.nodup.sublist (List.filter_sublist.map key)⟩

@[simp] theorem docs_empty : (empty : Collection D).docs = [] := rfl

theorem ext' {C C' : Collection D} (h : C.docs = C'.docs) : C = C' := by
  cases C
  cases C'
  subst h
  rfl

theorem docs_nodup (C : Collection D) : C.docs.Nodup := C.nodup.of_map key

/-- A key belongs to one document. -/
theorem eq_of_key_eq {C : Collection D} {d d' : D} (hd : d ∈ C.docs) (hd' : d' ∈ C.docs)
    (h : key d = key d') : d = d' :=
  List.inj_on_of_nodup_map C.nodup hd hd' h

theorem mem_of_findOne {q : Q} {C : Collection D} {d : D} (h : C.findOne q = some d) :
    d ∈ C.docs := List.mem_of_find?_eq_some h

theorem test_of_findOne {q : Q} {C : Collection D} {d : D} (h : C.findOne q = some d) :
    test q d = true := List.find?_some h

theorem findOne_eq_none {q : Q} {C : Collection D} :
    C.findOne q = none ↔ ∀ d ∈ C.docs, test q d = false := by
  simp [findOne]

theorem mem_find {q : Q} {C : Collection D} {d : D} :
    d ∈ C.find q ↔ d ∈ C.docs ∧ test q d = true := List.mem_filter

/-- A query by key finds the document of that key that passes it. -/
theorem findOne_eq_some {q : Q} {k : κ} (hq : ByKey (D := D) q k) {C : Collection D} {d : D} :
    C.findOne q = some d ↔ d ∈ C.docs ∧ test q d = true := by
  refine ⟨fun h => ⟨mem_of_findOne h, test_of_findOne h⟩, fun ⟨hd, ht⟩ => ?_⟩
  cases hf : C.findOne q with
  | none => rw [findOne_eq_none.mp hf d hd] at ht; exact absurd ht (by simp)
  | some d' =>
    have hkey : key d' = key d := (hq d' (test_of_findOne hf)).trans (hq d ht).symm
    rw [eq_of_key_eq (mem_of_findOne hf) hd hkey]

/-- A query by key selects at most one document of a collection. -/
private theorem unique_of_byKey {q : Q} {k : κ} (hq : ByKey (D := D) q k) (C : Collection D) :
    ∀ d ∈ C.docs, ∀ d' ∈ C.docs, test q d → test q d' → d = d' :=
  fun d hd d' hd' ht ht' => eq_of_key_eq hd hd' ((hq d ht).trans (hq d' ht').symm)

/-! ### What the operations do to the sequence -/

section Insert

variable [DecidableEq κ]

theorem insertOne_eq_none {d : D} {C : Collection D} :
    C.insertOne d = none ↔ ∃ d' ∈ C.docs, key d' = key d := by
  rw [insertOne]
  split
  · next h => simpa using h
  · next h => simpa using h

theorem docs_insertOne {d : D} {C C' : Collection D} (h : C.insertOne d = some C') :
    C'.docs = C.docs ++ [d] := by
  rw [insertOne] at h
  split at h
  · exact absurd h (by simp)
  · rw [Option.some.injEq] at h
    rw [← h]

theorem key_ne_of_insertOne {d : D} {C C' : Collection D} (h : C.insertOne d = some C') :
    ∀ d' ∈ C.docs, key d' ≠ key d := by
  intro d' hd' hk
  rw [insertOne_eq_none.mpr ⟨d', hd', hk⟩] at h
  exact absurd h (by simp)

end Insert

theorem updateOne_of_findOne_eq_none {q : Q} {u : U} {C : Collection D}
    (h : C.findOne q = none) : C.updateOne q u = C :=
  ext' (List.updateFirst_of_find?_eq_none h)

theorem deleteOne_of_findOne_eq_none {q : Q} {C : Collection D} (h : C.findOne q = none) :
    C.deleteOne q = C :=
  ext' (List.eraseP_of_forall_not fun d hd => by simp [findOne_eq_none.mp h d hd])

/-- **Updating by key acts on the whole sequence at once.** -/
theorem docs_updateOne {q : Q} {k : κ} (hq : ByKey (D := D) q k) (u : U) (C : Collection D) :
    (C.updateOne q u).docs = C.docs.map fun d => if test q d then apply u d else d :=
  List.updateFirst_eq_map C.docs_nodup (unique_of_byKey hq C)

/-- **Deleting by key acts on the whole sequence at once.** -/
theorem docs_deleteOne {q : Q} {k : κ} (hq : ByKey (D := D) q k) (C : Collection D) :
    (C.deleteOne q).docs = C.docs.filter fun d => !test q d :=
  List.eraseP_eq_filter C.docs_nodup (unique_of_byKey hq C)

@[simp] theorem docs_deleteMany (q : Q) (C : Collection D) :
    (C.deleteMany q).docs = C.docs.filter fun d => !test q d := rfl

theorem mem_deleteMany {q : Q} {C : Collection D} {d : D} :
    d ∈ (C.deleteMany q).docs ↔ d ∈ C.docs ∧ test q d = false := by simp

/-- An update leaves every quantity of the documents that it does not touch. -/
theorem map_updateOne {β : Type*} {g : D → β} {u : U} (hg : ∀ d, g (apply u d) = g d) (q : Q)
    (C : Collection D) : (C.updateOne q u).docs.map g = C.docs.map g :=
  List.map_updateFirst hg C.docs

/-! ### Images -/

section Image

variable {D' Q' U' : Type} [Document D' κ Q' U'] {f : D → D'} (hf : ∀ d, key (f d) = key d)

include hf in
theorem keys_map (l : List D) : (l.map f).map key = l.map key := by
  rw [List.map_map]
  exact List.map_congr_left fun d _ => hf d

/-- The images of the documents under a map that keeps their keys. -/
def image (C : Collection D) : Collection D' :=
  ⟨C.docs.map f, by rw [keys_map hf]; exact C.nodup⟩

variable {q : Q} {q' : Q'} (hq : ∀ d, test q' (f d) = test q d) (C : Collection D)

include hq

theorem findOne_image : (C.image hf).findOne q' = (C.findOne q).map f :=
  calc (C.docs.map f).find? (test q') = (C.docs.find? (test q' ∘ f)).map f := List.find?_map
    _ = (C.docs.find? (test q)).map f := by rw [show test q' ∘ f = test q from funext hq]

theorem find_image : (C.image hf).find q' = (C.find q).map f :=
  calc (C.docs.map f).filter (test q') = (C.docs.filter (test q' ∘ f)).map f := List.filter_map
    _ = (C.docs.filter (test q)).map f := by rw [show test q' ∘ f = test q from funext hq]

theorem updateOne_image {u : U} {u' : U'} (hu : ∀ d, f (apply u d) = apply u' (f d)) :
    (C.image hf).updateOne q' u' = (C.updateOne q u).image hf :=
  ext' (List.map_updateFirst_of_comm hq hu C.docs).symm

theorem deleteOne_image : (C.image hf).deleteOne q' = (C.deleteOne q).image hf := by
  refine ext' ?_
  calc (C.docs.map f).eraseP (test q') = (C.docs.eraseP (test q' ∘ f)).map f := List.eraseP_map
    _ = (C.docs.eraseP (test q)).map f := by rw [show test q' ∘ f = test q from funext hq]

theorem deleteMany_image : (C.image hf).deleteMany q' = (C.deleteMany q).image hf := by
  refine ext' ?_
  calc (C.docs.map f).filter (fun d => !test q' d)
      = (C.docs.filter fun d => !test q' (f d)).map f := List.filter_map
    _ = (C.docs.filter fun d => !test q d).map f := by simp only [hq]

omit hq in
theorem insertOne_image [DecidableEq κ] (d : D) :
    (C.image hf).insertOne (f d) = (C.insertOne d).map (image hf) := by
  have hkeys : (C.image hf).docs.map key = C.docs.map key := keys_map hf C.docs
  cases hC : C.insertOne d with
  | none =>
    obtain ⟨d', hd', hk⟩ := insertOne_eq_none.mp hC
    exact insertOne_eq_none.mpr ⟨f d', List.mem_map_of_mem hd', by rw [hf, hf, hk]⟩
  | some C' =>
    cases hC' : (C.image hf).insertOne (f d) with
    | none =>
      obtain ⟨d', hd', hk⟩ := insertOne_eq_none.mp hC'
      have hmem : key (f d) ∈ C.docs.map key := by
        rw [← hkeys, ← hk]
        exact List.mem_map_of_mem hd'
      obtain ⟨d₀, hd₀, hk₀⟩ := List.mem_map.mp hmem
      exact absurd (hk₀.trans (hf d)) (key_ne_of_insertOne hC d₀ hd₀)
    | some C'' =>
      refine congrArg some (ext' ((docs_insertOne hC').trans ?_))
      change C.docs.map f ++ [f d] = C'.docs.map f
      rw [docs_insertOne hC, List.map_append, List.map_singleton]

end Image

/-! ### Sums over a collection -/

section Sum

variable {M : Type*} [AddCommMonoid M]

/-- The sum of a quantity over the documents of a collection. -/
def sum (g : D → M) (C : Collection D) : M := (C.docs.map g).sum

@[simp] theorem sum_empty (g : D → M) : (empty : Collection D).sum g = 0 := rfl

theorem sum_congr {g g' : D → M} {C : Collection D} (h : ∀ d ∈ C.docs, g d = g' d) :
    C.sum g = C.sum g' := congrArg List.sum (List.map_congr_left h)

theorem sum_eq_zero {g : D → M} {C : Collection D} (h : ∀ d ∈ C.docs, g d = 0) :
    C.sum g = 0 :=
  List.sum_eq_zero fun x hx => by
    obtain ⟨d, hd, rfl⟩ := List.mem_map.mp hx
    exact h d hd

theorem sum_insertOne [DecidableEq κ] (g : D → M) {d : D} {C C' : Collection D}
    (h : C.insertOne d = some C') : C'.sum g = C.sum g + g d := by
  rw [sum, docs_insertOne h, List.map_append, List.sum_append, List.map_singleton,
    List.sum_singleton, sum]

theorem sum_updateOne_add (g : D → M) {q : Q} {u : U} {C : Collection D} {d : D}
    (h : C.findOne q = some d) : (C.updateOne q u).sum g + g d = C.sum g + g (apply u d) :=
  List.sum_map_updateFirst_add g h

theorem sum_deleteOne_add (g : D → M) {q : Q} {C : Collection D} {d : D}
    (h : C.findOne q = some d) : (C.deleteOne q).sum g + g d = C.sum g :=
  List.sum_map_eraseP_add g h

theorem sum_updateOne {M : Type*} [AddCommGroup M] (g : D → M) {q : Q} {u : U} {C : Collection D}
    {d : D} (h : C.findOne q = some d) :
    (C.updateOne q u).sum g = C.sum g - g d + g (apply u d) := by
  rw [sub_add_eq_add_sub, ← sum_updateOne_add g h, add_sub_cancel_right]

theorem sum_deleteOne {M : Type*} [AddCommGroup M] (g : D → M) {q : Q} {C : Collection D} {d : D}
    (h : C.findOne q = some d) : (C.deleteOne q).sum g = C.sum g - g d :=
  eq_sub_of_add_eq (sum_deleteOne_add g h)

/-- Deleting documents whose quantity is zero keeps the sum. -/
theorem sum_deleteMany {g : D → M} {q : Q} {C : Collection D}
    (h : ∀ d ∈ C.docs, test q d = true → g d = 0) : (C.deleteMany q).sum g = C.sum g := by
  have key : ∀ l : List D, (∀ d ∈ l, test q d = true → g d = 0) →
      ((l.filter fun d => !test q d).map g).sum = (l.map g).sum := by
    intro l
    induction l with
    | nil => intro _; rfl
    | cons a l ih =>
      intro hl
      have ih := ih fun d hd => hl d (List.mem_cons_of_mem a hd)
      by_cases ha : test q a = true
      · rw [List.filter_cons_of_neg (by simp [ha]), ih, List.map_cons, List.sum_cons,
          hl a List.mem_cons_self ha, zero_add]
      · rw [List.filter_cons_of_pos (by simp [ha]), List.map_cons, List.map_cons, List.sum_cons,
          List.sum_cons, ih]
  exact key C.docs h

/-! ### Counting what a query selects -/

/-- How many documents a query selects, as a sum. -/
theorem length_find (q : Q) (C : Collection D) :
    ((C.find q).length : ℤ) = C.sum fun d => if test q d then 1 else 0 := by
  rw [find, sum]
  induction C.docs with
  | nil => rfl
  | cons d l ih =>
    rw [List.filter_cons, List.map_cons, List.sum_cons, ← ih]
    split
    · rw [List.length_cons]
      omega
    · rw [zero_add]

theorem length_find_insertOne [DecidableEq κ] (q : Q) {d : D} {C C' : Collection D}
    (h : C.insertOne d = some C') :
    ((C'.find q).length : ℤ) = (C.find q).length + if test q d then 1 else 0 := by
  rw [length_find, length_find, sum_insertOne _ h]

/-- An update that the query does not see moves no count. -/
theorem length_find_updateOne {q : Q} {u : U} (h : ∀ d : D, test q (apply u d) = test q d)
    (q' : Q) (C : Collection D) : ((C.updateOne q' u).find q).length = (C.find q).length := by
  have hcount : (((C.updateOne q' u).find q).length : ℤ) = (C.find q).length := by
    rw [length_find, length_find, sum, sum, map_updateOne (fun d => by rw [h])]
  exact_mod_cast hcount

theorem length_find_deleteOne (q : Q) {q' : Q} {C : Collection D} {d : D}
    (h : C.findOne q' = some d) :
    (((C.deleteOne q').find q).length : ℤ) =
      (C.find q).length - if test q d then 1 else 0 := by
  rw [length_find, length_find, sum_deleteOne _ h]

theorem length_find_deleteMany_le (q q' : Q) (C : Collection D) :
    ((C.deleteMany q').find q).length ≤ (C.find q).length :=
  (List.filter_sublist.filter _).length_le

end Sum

end Collection

/-! ### The operations as calls -/

/-- What an update reports: how many documents it matched and how many of them
it changed. -/
structure UpdateResult where
  matchedCount : ℕ
  modifiedCount : ℕ
  deriving DecidableEq, Repr

/-- The calls a client makes on a collection of documents `D`. -/
inductive Op (D Q U : Type)
  | findOne (q : Q)
  | find (q : Q)
  | insertOne (d : D)
  | updateOne (q : Q) (u : U)
  | deleteOne (q : Q)
  | deleteMany (q : Q)

/-- The answer each call returns; the deletions report how many documents they
removed. -/
@[reducible] def Op.Answer {D Q U : Type} : Op D Q U → Type
  | .findOne _ => Option D
  | .find _ => List D
  | .insertOne _ => Unit
  | .updateOne _ _ => UpdateResult
  | .deleteOne _ => ℕ
  | .deleteMany _ => ℕ

/-- The report of an update. -/
def Collection.updateResult {D κ Q U : Type} [Document D κ Q U] [DecidableEq D] (q : Q) (u : U)
    (C : Collection D) : UpdateResult :=
  match C.findOne q with
  | some d => ⟨1, if apply u d = d then 0 else 1⟩
  | none => ⟨0, 0⟩

/-- The answer of a collection to a call and the collection it leaves; `dup` is
raised on inserting a document whose key is taken. -/
def Op.exec {D κ Q U ε : Type} [Document D κ Q U] [DecidableEq κ] [DecidableEq D] (dup : ε) :
    (o : Op D Q U) → Collection D → Except ε o.Answer × Collection D
  | .findOne q, C => (.ok (C.findOne q), C)
  | .find q, C => (.ok (C.find q), C)
  | .insertOne d, C =>
    match C.insertOne d with
    | some C' => (.ok (), C')
    | none => (.error dup, C)
  | .updateOne q u, C => (.ok (C.updateResult q u), C.updateOne q u)
  | .deleteOne q, C => (.ok (if (C.findOne q).isSome then 1 else 0), C.deleteOne q)
  | .deleteMany q, C => (.ok (C.find q).length, C.deleteMany q)

/-- A document that is not refused is stored. -/
theorem Op.mem_exec_insertOne {D κ Q U ε : Type} [Document D κ Q U] [DecidableEq κ] [DecidableEq D]
    {dup : ε} {d : D} {C : Collection D}
    (h : ((Op.insertOne d : Op D Q U).exec dup C).1 = .ok ()) :
    d ∈ ((Op.insertOne d : Op D Q U).exec dup C).2.docs := by
  rw [Op.exec] at h ⊢
  cases hinsert : C.insertOne d with
  | none =>
    rw [hinsert] at h
    exact absurd h (by simp)
  | some C' =>
    dsimp only
    rw [Collection.docs_insertOne hinsert]
    exact List.mem_append_right _ (List.mem_singleton_self d)

/-- What the call inserts, if anything, satisfies `P`. -/
def Op.Inserts {D Q U : Type} (P : D → Prop) : Op D Q U → Prop
  | .insertOne d => P d
  | _ => True

theorem Op.Inserts.mono {D Q U : Type} {P P' : D → Prop} (hP : ∀ d, P d → P' d) {o : Op D Q U}
    (ho : o.Inserts P) : o.Inserts P' := by
  cases o with
  | insertOne d => exact hP d ho
  | findOne q => trivial
  | find q => trivial
  | updateOne q u => trivial
  | deleteOne q => trivial
  | deleteMany q => trivial

/-- What the call inserts, if anything, satisfies `P`, and what it updates keeps it. -/
def Op.Writes {D κ Q U : Type} [Document D κ Q U] (P : D → Prop) : Op D Q U → Prop
  | .insertOne d => P d
  | .updateOne _ u => ∀ d, P d → P (apply u d)
  | _ => True

/-- What the writes of a call have, every document of the collection has. -/
theorem Op.Writes.forall_docs_exec {D κ Q U ε : Type} [Document D κ Q U] [DecidableEq κ]
    [DecidableEq D] {dup : ε} {P : D → Prop} {o : Op D Q U} (ho : o.Writes P)
    {C : Collection D} (hC : ∀ d ∈ C.docs, P d) : ∀ d ∈ (o.exec dup C).2.docs, P d := by
  cases o with
  | findOne q => exact hC
  | find q => exact hC
  | insertOne d =>
    rw [Op.exec]
    cases hC' : C.insertOne d with
    | none => exact hC
    | some C' =>
      intro d' hd'
      rw [show C'.docs = C.docs ++ [d] from Collection.docs_insertOne hC', List.mem_append,
        List.mem_singleton] at hd'
      rcases hd' with hold | rfl
      · exact hC d' hold
      · exact ho
  | updateOne q u => exact List.forall_mem_updateFirst (fun d hd => ho d hd) hC
  | deleteOne q => exact fun d hd => hC d (List.mem_of_mem_eraseP hd)
  | deleteMany q => exact fun d hd => hC d (List.mem_of_mem_filter hd)

/-- **What updates keep and insertions have**, every document of the collection has. -/
theorem Op.forall_docs_exec {D κ Q U ε : Type} [Document D κ Q U] [DecidableEq κ] [DecidableEq D]
    {dup : ε} {P : D → Prop} (happly : ∀ (u : U) d, P d → P (apply u d)) {o : Op D Q U}
    (ho : o.Inserts P) {C : Collection D} (hC : ∀ d ∈ C.docs, P d) :
    ∀ d ∈ (o.exec dup C).2.docs, P d := by
  refine Op.Writes.forall_docs_exec ?_ hC
  cases o with
  | insertOne d => exact ho
  | updateOne q u => exact happly u
  | findOne q => trivial
  | find q => trivial
  | deleteOne q => trivial
  | deleteMany q => trivial

end DigitalLedger
