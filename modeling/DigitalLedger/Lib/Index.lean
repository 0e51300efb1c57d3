import DigitalLedger.Lib.Collection

/-!
# Indexes

An index of a collection is declared on some fields of its documents.  A unique index
makes the store refuse a document that agrees with a stored one on these fields; an
index that is not unique only makes look-ups faster.

## Main definitions

* `Index D` — an index on documents `D`: its fields, and whether it is unique.
* `Index.Rejects` — the index refuses a document.
* `Collection.insertIndexed` — insertion under a list of indexes.
* `Collection.Indexed` — no two documents agree on the fields of a unique index.
* `IndexedCollection` — a collection with its indexes, `Op.execIndexed` its operations.

## Main results

* `Collection.insertIndexed_of_not_unique` — indexes that are not unique refuse nothing.
* `Collection.Indexed.insertIndexed`, `Collection.Indexed.updateOne` — a collection stays
  indexed under insertion, and under updates that leave the fields alone.
-/

namespace DigitalLedger

/-- An index on documents `D`. -/
structure Index (D : Type) where
  /-- The values of a document in the fields the index is on. -/
  fields : D → List String
  unique : Bool

variable {D κ Q U : Type} [Document D κ Q U]

/-- The index is unique, and a stored document agrees with `d` on its fields. -/
def Index.Rejects (ix : Index D) (d : D) (C : Collection D) : Prop :=
  ix.unique = true ∧ ix.fields d ∈ C.docs.map ix.fields

instance (ix : Index D) (d : D) (C : Collection D) : Decidable (ix.Rejects d C) :=
  inferInstanceAs (Decidable (_ ∧ _))

namespace Collection

variable {indexes : List (Index D)} {C C' : Collection D} {d : D}

/-- No two documents agree on the fields of a unique index. -/
def Indexed (indexes : List (Index D)) (C : Collection D) : Prop :=
  ∀ ix ∈ indexes, ix.unique = true → (C.docs.map ix.fields).Nodup

theorem indexed_empty (indexes : List (Index D)) : Indexed indexes (empty : Collection D) :=
  fun _ _ _ => List.nodup_nil

section Insert

variable [DecidableEq κ]

/-- Add a document at the end; `none` if its key is taken or an index refuses it. -/
def insertIndexed (indexes : List (Index D)) (d : D) (C : Collection D) :
    Option (Collection D) :=
  if ∃ ix ∈ indexes, ix.Rejects d C then none else C.insertOne d

theorem insertIndexed_of_not_unique (h : ∀ ix ∈ indexes, ix.unique = false) (d : D)
    (C : Collection D) : C.insertIndexed indexes d = C.insertOne d := by
  refine if_neg ?_
  rintro ⟨ix, hix, hunique, -⟩
  rw [h ix hix] at hunique
  exact Bool.false_ne_true hunique

theorem insertIndexed_eq_some (h : C.insertIndexed indexes d = some C') :
    (∀ ix ∈ indexes, ¬ix.Rejects d C) ∧ C.insertOne d = some C' := by
  rw [insertIndexed] at h
  split at h
  · exact absurd h (by simp)
  · next hno => exact ⟨fun ix hix hrejects => hno ⟨ix, hix, hrejects⟩, h⟩

/-- **A collection stays indexed** when a document is inserted under its indexes. -/
theorem Indexed.insertIndexed (hC : C.Indexed indexes) (h : C.insertIndexed indexes d = some C') :
    C'.Indexed indexes := by
  obtain ⟨hno, hinsert⟩ := insertIndexed_eq_some h
  intro ix hix hunique
  have hfree : ix.fields d ∉ C.docs.map ix.fields := fun hmem => hno ix hix ⟨hunique, hmem⟩
  rw [docs_insertOne hinsert, List.map_append, List.map_singleton]
  exact List.Nodup.append (hC ix hix hunique) (List.nodup_singleton _)
    (List.disjoint_singleton.mpr hfree)

end Insert

/-- A collection stays indexed under an update that leaves the fields alone. -/
theorem Indexed.updateOne (hC : C.Indexed indexes) {u : U}
    (hu : ∀ ix ∈ indexes, ∀ d, ix.fields (apply u d) = ix.fields d) (q : Q) :
    (C.updateOne q u).Indexed indexes := by
  intro ix hix hunique
  rw [map_updateOne (hu ix hix)]
  exact hC ix hix hunique

/-- A collection stays indexed when documents are removed. -/
theorem Indexed.sublist (hC : C.Indexed indexes) (h : C'.docs.Sublist C.docs) :
    C'.Indexed indexes :=
  fun ix hix hunique => (hC ix hix hunique).sublist (h.map ix.fields)

end Collection

/-- No update rewrites a field of the indexes. -/
def Index.Kept (indexes : List (Index D)) : Prop :=
  ∀ ix ∈ indexes, ∀ (u : U) (d : D), ix.fields (apply u d) = ix.fields d

/-- A collection with its indexes. -/
structure IndexedCollection (D : Type) {κ Q U : Type} [Document D κ Q U]
    (indexes : List (Index D)) where
  collection : Collection D
  indexed : collection.Indexed indexes

namespace IndexedCollection

variable {indexes : List (Index D)}

/-- The documents, oldest first. -/
def docs (C : IndexedCollection D indexes) : List D := C.collection.docs

/-- The empty collection. -/
def empty : IndexedCollection D indexes := ⟨.empty, Collection.indexed_empty indexes⟩

/-- The first document the query selects. -/
def findOne (q : Q) (C : IndexedCollection D indexes) : Option D := C.collection.findOne q

/-- Rewrite the first document the query selects. -/
def updateOne (hkept : Index.Kept indexes) (q : Q) (u : U) (C : IndexedCollection D indexes) :
    IndexedCollection D indexes :=
  ⟨C.collection.updateOne q u, C.indexed.updateOne (fun ix hix d => hkept ix hix u d) q⟩

@[simp] theorem docs_empty : (empty : IndexedCollection D indexes).docs = [] := rfl

theorem docs_updateOne (hkept : Index.Kept indexes) (q : Q) (u : U)
    (C : IndexedCollection D indexes) :
    (C.updateOne hkept q u).docs = C.docs.updateFirst (test q) (apply u) := rfl

theorem ext' {C C' : IndexedCollection D indexes} (h : C.docs = C'.docs) : C = C' := by
  cases C
  cases C'
  congr
  exact Collection.ext' h

theorem mem_of_findOne {q : Q} {C : IndexedCollection D indexes} {d : D}
    (h : C.findOne q = some d) : d ∈ C.docs := Collection.mem_of_findOne h

theorem test_of_findOne {q : Q} {C : IndexedCollection D indexes} {d : D}
    (h : C.findOne q = some d) : test q d = true := Collection.test_of_findOne h

/-- The document a query finds is found again where it has been rewritten. -/
theorem findOne_updateOne_self (hkept : Index.Kept indexes) {q : Q} {u : U}
    {C : IndexedCollection D indexes} {d : D} (h : C.findOne q = some d)
    (hu : test q (apply u d) = true) :
    (C.updateOne hkept q u).findOne q = some (apply u d) :=
  List.find?_updateFirst_self h hu

/-- An update leaves a query alone that passes by what the update is for. -/
theorem findOne_updateOne_of_not (hkept : Index.Kept indexes) {q q' : Q} {u : U}
    (hq : ∀ d : D, test q d = true → test q' d = false)
    (hu : ∀ d : D, test q d = true → test q' (apply u d) = false)
    (C : IndexedCollection D indexes) :
    (C.updateOne hkept q u).findOne q' = C.findOne q' :=
  List.find?_updateFirst_of_not hq hu C.docs

/-- An update rewrites the document the query finds, and no other. -/
theorem docs_updateOne_of_findOne [DecidableEq κ] (hkept : Index.Kept indexes) {q : Q} (u : U)
    {C : IndexedCollection D indexes} {d : D} (h : C.findOne q = some d) :
    (C.updateOne hkept q u).docs = C.docs.map fun d' => if key d' = key d then apply u d' else d' :=
  List.updateFirst_eq_map_of_find? C.collection.nodup h

/-- Documents that agree on the fields of a unique index are one. -/
theorem eq_of_fields_eq {C : IndexedCollection D indexes} {ix : Index D} (hix : ix ∈ indexes)
    (hunique : ix.unique = true) {d d' : D} (hd : d ∈ C.docs) (hd' : d' ∈ C.docs)
    (h : ix.fields d = ix.fields d') : d = d' :=
  List.inj_on_of_nodup_map (C.indexed ix hix hunique) hd hd' h

variable [DecidableEq κ]

/-- Add a document at the end; `none` if its key is taken or an index refuses it. -/
def insertOne (d : D) (C : IndexedCollection D indexes) : Option (IndexedCollection D indexes) :=
  match h : C.collection.insertIndexed indexes d with
  | some C' => some ⟨C', C.indexed.insertIndexed h⟩
  | none => none

/-- Whether a document is refused depends on the keys and on the fields of the indexes. -/
theorem insertOne_eq_none {d : D} {C : IndexedCollection D indexes} :
    C.insertOne d = none ↔
      (∃ ix ∈ indexes, ix.unique = true ∧ ix.fields d ∈ C.docs.map ix.fields) ∨
        key d ∈ C.docs.map key := by
  have hkey : C.collection.insertOne d = none ↔ key d ∈ C.docs.map key := by
    rw [Collection.insertOne_eq_none]
    exact List.mem_map.symm
  have hindexed : C.collection.insertIndexed indexes d = none ↔
      (∃ ix ∈ indexes, ix.unique = true ∧ ix.fields d ∈ C.docs.map ix.fields) ∨
        key d ∈ C.docs.map key := by
    rw [Collection.insertIndexed]
    split
    · next hrejects => exact iff_of_true rfl (.inl hrejects)
    · next hrejects => exact hkey.trans (or_iff_right hrejects).symm
  rw [← hindexed, insertOne]
  split
  · next C' hinsert =>
    refine iff_of_false (Option.some_ne_none _) fun hnone => ?_
    rw [hinsert] at hnone
    exact absurd hnone (Option.some_ne_none C')
  · next hinsert => exact iff_of_true rfl hinsert

/-- A document is inserted at the end, if its key is new and no index refuses it. -/
theorem docs_insertOne {d : D} {C C' : IndexedCollection D indexes}
    (h : C.insertOne d = some C') : C'.docs = C.docs ++ [d] := by
  rw [insertOne] at h
  split at h
  · next C₀ hinsert =>
    obtain ⟨-, hcollection⟩ := Collection.insertIndexed_eq_some hinsert
    rw [← Option.some.inj h]
    exact Collection.docs_insertOne hcollection
  · exact absurd h (by simp)

/-- What a query finds, it finds after an insertion; otherwise it may find the new document. -/
theorem findOne_insertOne {q : Q} {d : D} {C C' : IndexedCollection D indexes}
    (h : C.insertOne d = some C') :
    C'.findOne q = (C.findOne q).or (if test q d then some d else none) := by
  have hsearch : C'.findOne q = C'.docs.find? (test q) := rfl
  rw [hsearch, docs_insertOne h, List.find?_append, List.find?_singleton]
  rfl

end IndexedCollection

/-- The answer of an indexed collection to a call and the collection it leaves; `dup` is
raised on inserting a document that is refused. -/
def Op.execIndexed {ε : Type} [DecidableEq κ] [DecidableEq D] {indexes : List (Index D)}
    (hkept : Index.Kept indexes) (dup : ε) :
    (o : Op D Q U) → IndexedCollection D indexes →
      Except ε o.Answer × IndexedCollection D indexes
  | .findOne q, C => (.ok (C.findOne q), C)
  | .find q, C => (.ok (C.collection.find q), C)
  | .insertOne d, C =>
    match C.insertOne d with
    | some C' => (.ok (), C')
    | none => (.error dup, C)
  | .updateOne q u, C => (.ok (C.collection.updateResult q u), C.updateOne hkept q u)
  | .deleteOne q, C =>
    (.ok (if (C.findOne q).isSome then 1 else 0),
      ⟨C.collection.deleteOne q, C.indexed.sublist List.eraseP_sublist⟩)
  | .deleteMany q, C =>
    (.ok (C.collection.find q).length,
      ⟨C.collection.deleteMany q, C.indexed.sublist List.filter_sublist⟩)

end DigitalLedger
