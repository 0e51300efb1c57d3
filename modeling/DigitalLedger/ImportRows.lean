import DigitalLedger.Dashboard

/-!
# What a bulk import adds

The loop of `import_customers_from_excel` checks each row against the customers it finds,
and these include the ones it has added itself.  This module says which rows it takes in
terms of the table and of the customers the merchant had before, and that the same table
imported once more adds nothing.

## Main definitions

* `Entry`, `entries` — the records of a table, each with those of the rows before it.
* `Entry.Taken` — the record is usable, and its phone is new.
* `Imported` — the store and the counts after the first rows of a table.

## Main results

* `run_importRow` — the body of the loop.
* `Imported.rows` — the loop keeps to the entries taken.
* `import_adds_the_right_rows` — the whole import, and the same import again.
-/

namespace DigitalLedger

open Collection Prog

variable {bcrypt : Bcrypt} {s : Store}

/-! ### The body of the loop -/

/-- The customer a row adds. -/
def importedCustomer (bcrypt : Bcrypt) (env : Env) (m : String) (idx : ℕ) (r : Record) :
    Customer := newCustomer bcrypt (env.row idx) m r.name r.phone r.address ""

/-- A row is skipped, or refused, or its customer is inserted. -/
theorem run_importRow (env : Env) (m : String) (df : DataFrame) (columns : List String)
    (idx : ℕ) (row : Row) (results : ImportResults) (s : Store) {r : Record}
    (hr : rowRecord df columns row = r) :
    run exec (importRow bcrypt env m df columns idx row results) s =
      if r.Usable then
        if (s.customers.findOne { merchantId := some m, phone := some r.phone }).isSome then
          (.ok (results.fail (refusedError idx r "Customer with this phone already exists.")), s)
        else
          match s.customers.insertOne (importedCustomer bcrypt env m idx r) with
          | none => (.error .duplicateKeyError, s)
          | some C =>
            (.ok { results with added := results.added + 1 }, { s with customers := C })
      else (.ok (results.fail (missingError idx)), s) := by
  rw [importRow_eq bcrypt env m df columns idx row results hr]
  split_ifs with husable hfound
  · rw [run_bind, run_addCustomer, if_pos hfound]
    rfl
  · rw [run_bind, run_addCustomer, if_neg hfound, ← importedCustomer]
    cases s.customers.insertOne (importedCustomer bcrypt env m idx r) with
    | none => rfl
    | some C => rfl
  · rfl

/-! ### The entries of a table -/

/-- A record of a table, with its index and the records of the rows before it. -/
structure Entry where
  idx : ℕ
  before : List Record
  record : Record

/-- The records of a table, each with those before it. -/
def entries (records : List Record) : List Entry :=
  records.zipIdx.map fun p => ⟨p.2, records.take p.2, p.1⟩

theorem entries_concat (records : List Record) (r : Record) :
    entries (records ++ [r]) = entries records ++ [⟨records.length, records, r⟩] := by
  have hbefore : records.zipIdx.map (fun p => (⟨p.2, (records ++ [r]).take p.2, p.1⟩ : Entry)) =
      entries records := by
    refine List.map_congr_left fun p hp => ?_
    have hlt : p.2 < records.length := by
      obtain ⟨-, hlt, -⟩ := List.mem_zipIdx hp
      omega
    rw [List.take_append_of_le_length hlt.le]
  rw [entries, List.zipIdx_append, List.map_append, hbefore]
  simp [List.zipIdx]

/-- The record is usable, and its phone is neither an old one nor that of an earlier usable
record. -/
def Entry.Taken (old : List String) (e : Entry) : Prop :=
  e.record.Usable ∧ e.record.phone ∉ old ∧
    ∀ r ∈ e.before, r.Usable → r.phone ≠ e.record.phone

instance (old : List String) (e : Entry) : Decidable (e.Taken old) :=
  inferInstanceAs (Decidable (_ ∧ _ ∧ _))

/-- The error of an entry that is not taken. -/
def Entry.error (old : List String) (e : Entry) : Option String :=
  if e.Taken old then none
  else if e.record.Usable then
    some (refusedError e.idx e.record "Customer with this phone already exists.")
  else some (missingError e.idx)

/-- The entries taken. -/
def takenEntries (old : List String) (records : List Record) : List Entry :=
  (entries records).filter fun e => e.Taken old

/-- The errors of the other entries. -/
def entryErrors (old : List String) (records : List Record) : List String :=
  (entries records).filterMap (Entry.error old)

variable {old : List String} {records : List Record}

theorem takenEntries_concat (old : List String) (records : List Record) (r : Record) :
    takenEntries old (records ++ [r]) =
      takenEntries old records ++
        if Entry.Taken old ⟨records.length, records, r⟩ then [⟨records.length, records, r⟩]
        else [] := by
  rw [takenEntries, entries_concat, List.filter_append]
  split_ifs with htaken
  · rw [List.filter_cons_of_pos (by simpa using htaken)]
    rfl
  · rw [List.filter_cons_of_neg (by simpa using htaken)]
    rfl

theorem entryErrors_concat (old : List String) (records : List Record) (r : Record) :
    entryErrors old (records ++ [r]) =
      entryErrors old records ++ (Entry.error old ⟨records.length, records, r⟩).toList := by
  rw [entryErrors, entries_concat, List.filterMap_append, ← entryErrors]
  cases herror : Entry.error old ⟨records.length, records, r⟩ with
  | none => rw [List.filterMap_cons_none herror, List.filterMap_nil, Option.toList_none]
  | some error => rw [List.filterMap_cons_some herror, List.filterMap_nil, Option.toList_some]

theorem mem_entries {e : Entry} (he : e ∈ entries records) : e.record ∈ records := by
  obtain ⟨p, hp, rfl⟩ := List.mem_map.mp he
  exact List.fst_mem_of_mem_zipIdx hp

theorem mem_takenEntries {e : Entry} :
    e ∈ takenEntries old records ↔ e ∈ entries records ∧ e.Taken old := by
  rw [takenEntries, List.mem_filter, decide_eq_true_eq]

/-- The phones known after some records are the old ones and those of the usable records. -/
theorem phone_known_iff {phone : String} :
    (phone ∈ old ∨ ∃ e ∈ takenEntries old records, e.record.phone = phone) ↔
      phone ∈ old ∨ ∃ r ∈ records, r.Usable ∧ r.phone = phone := by
  refine or_congr_right' fun hnew => ⟨?_, ?_⟩
  · rintro ⟨e, he, hphone⟩
    obtain ⟨hentry, htaken⟩ := mem_takenEntries.mp he
    exact ⟨e.record, mem_entries hentry, htaken.1, hphone⟩
  · -- the first usable record with the phone is taken
    induction records using List.reverseRecOn with
    | nil => simp
    | append_singleton records r ih =>
      rintro ⟨r', hr', husable, hphone⟩
      rw [takenEntries_concat]
      by_cases hearlier : ∃ r ∈ records, r.Usable ∧ r.phone = phone
      · obtain ⟨e, he, hphone'⟩ := ih hearlier
        exact ⟨e, List.mem_append_left _ he, hphone'⟩
      · have hlast : r' = r := by
          rcases List.mem_append.mp hr' with hmem | hmem
          · exact absurd ⟨r', hmem, husable, hphone⟩ hearlier
          · exact List.mem_singleton.mp hmem
        rw [hlast] at husable hphone
        have htaken : Entry.Taken old ⟨records.length, records, r⟩ :=
          ⟨husable, hphone ▸ hnew,
            fun r'' hr'' husable'' heq => hearlier ⟨r'', hr'', husable'', heq.trans hphone⟩⟩
        rw [if_pos htaken]
        exact ⟨_, List.mem_append_right _ (List.mem_singleton.mpr rfl), hphone⟩

/-! ### The loop -/

/-- The phones of a merchant's customers. -/
def Store.phonesOf (s : Store) (m : String) : List String :=
  (s.customersOf m).map fun c => c.phone

theorem mem_phonesOf {m phone : String} :
    phone ∈ s.phonesOf m ↔ ∃ c ∈ s.customers.docs, c.merchantId = m ∧ c.phone = phone := by
  simp only [Store.phonesOf, List.mem_map, mem_customersOf, and_assoc]

/-- The check for duplicates finds the phones of the merchant's customers. -/
theorem findOne_phone_isSome {m phone : String} :
    (s.customers.findOne { merchantId := some m, phone := some phone }).isSome ↔
      phone ∈ s.phonesOf m := by
  rw [mem_phonesOf, ← not_iff_not, Bool.not_eq_true, Option.isSome_eq_false_iff,
    Option.isNone_iff_eq_none, findOne_eq_none]
  push Not
  refine forall₂_congr fun c _ => ?_
  rw [← Bool.not_eq_true, test_customer_merchant_phone, not_and]

/-- The store and the counts when the first rows of a table, with these records, have been
gone through. -/
structure Imported (bcrypt : Bcrypt) (env : Env) (m : String) (s₀ : Store)
    (records : List Record) (s : Store) (results : ImportResults) : Prop where
  customers : s.customers.docs = s₀.customers.docs ++
    (takenEntries (s₀.phonesOf m) records).map fun e => importedCustomer bcrypt env m e.idx e.record
  transactions : s.transactions = s₀.transactions
  added : results.added = (takenEntries (s₀.phonesOf m) records).length
  failed : results.failed = (entryErrors (s₀.phonesOf m) records).length
  errors : results.errors = entryErrors (s₀.phonesOf m) records

namespace Imported

variable {env : Env} {m : String} {s₀ : Store} {results : ImportResults}

theorem start (bcrypt : Bcrypt) (env : Env) (m : String) (s : Store) :
    Imported bcrypt env m s [] s ⟨0, 0, []⟩ :=
  ⟨(List.append_nil _).symm, rfl, rfl, rfl, rfl⟩

/-- The merchant's customers are the old ones and those of the entries taken. -/
theorem customersOf (h : Imported bcrypt env m s₀ records s results) :
    s.customersOf m = s₀.customersOf m ++ (takenEntries (s₀.phonesOf m) records).map fun e =>
      importedCustomer bcrypt env m e.idx e.record := by
  have hnew : ((takenEntries (s₀.phonesOf m) records).map fun e =>
      importedCustomer bcrypt env m e.idx e.record).filter
        (fun c => test ({ merchantId := some m } : CustomerQuery) c) =
      (takenEntries (s₀.phonesOf m) records).map fun e =>
        importedCustomer bcrypt env m e.idx e.record := by
    refine List.filter_eq_self.mpr fun c hc => ?_
    obtain ⟨e, -, rfl⟩ := List.mem_map.mp hc
    exact test_customer_merchant.mpr rfl
  rw [Store.customersOf, find, h.customers, List.filter_append, hnew]
  rfl

theorem phonesOf (h : Imported bcrypt env m s₀ records s results) :
    s.phonesOf m =
      s₀.phonesOf m ++ (takenEntries (s₀.phonesOf m) records).map fun e => e.record.phone := by
  rw [Store.phonesOf, h.customersOf, List.map_append, List.map_map, ← Store.phonesOf]
  rfl

/-- A phone is known if it is an old one, or that of a usable record gone through. -/
theorem known_iff (h : Imported bcrypt env m s₀ records s results) {phone : String} :
    (s.customers.findOne { merchantId := some m, phone := some phone }).isSome ↔
      phone ∈ s₀.phonesOf m ∨ ∃ r ∈ records, r.Usable ∧ r.phone = phone := by
  rw [findOne_phone_isSome, h.phonesOf, List.mem_append, List.mem_map, phone_known_iff]

theorem taken_iff (h : Imported bcrypt env m s₀ records s results) {r : Record} :
    Entry.Taken (s₀.phonesOf m) ⟨records.length, records, r⟩ ↔
      r.Usable ∧
        ¬(s.customers.findOne { merchantId := some m, phone := some r.phone }).isSome := by
  rw [h.known_iff]
  refine and_congr_right' ?_
  rw [not_or]
  refine and_congr_right' ?_
  push Not
  rfl

/-- A row that is not taken. -/
theorem fail (h : Imported bcrypt env m s₀ records s results) {r : Record} {error : String}
    (herror : Entry.error (s₀.phonesOf m) ⟨records.length, records, r⟩ = some error) :
    Imported bcrypt env m s₀ (records ++ [r]) s (results.fail error) := by
  have hnot : ¬Entry.Taken (s₀.phonesOf m) ⟨records.length, records, r⟩ := fun htaken => by
    rw [Entry.error, if_pos htaken] at herror
    exact absurd herror (by simp)
  have htaken := takenEntries_concat (s₀.phonesOf m) records r
  have herrors := entryErrors_concat (s₀.phonesOf m) records r
  rw [if_neg hnot, List.append_nil] at htaken
  rw [herror, Option.toList_some] at herrors
  constructor
  · rw [htaken]
    exact h.customers
  · exact h.transactions
  · rw [htaken]
    exact h.added
  · rw [herrors, List.length_append, List.length_singleton, ← h.failed]
    rfl
  · rw [herrors, ← h.errors]
    rfl

/-- A row that is taken. -/
theorem take (h : Imported bcrypt env m s₀ records s results) {r : Record}
    (htaken : Entry.Taken (s₀.phonesOf m) ⟨records.length, records, r⟩) {C : Collection Customer}
    (hC : s.customers.insertOne (importedCustomer bcrypt env m records.length r) = some C) :
    Imported bcrypt env m s₀ (records ++ [r]) { s with customers := C }
      { results with added := results.added + 1 } := by
  have htakens := takenEntries_concat (s₀.phonesOf m) records r
  have herrors := entryErrors_concat (s₀.phonesOf m) records r
  rw [if_pos htaken] at htakens
  rw [Entry.error, if_pos htaken, Option.toList_none, List.append_nil] at herrors
  constructor
  · rw [docs_insertOne hC, h.customers, htakens, List.map_append, List.append_assoc]
    rfl
  · exact h.transactions
  · rw [htakens, List.length_append, List.length_singleton, ← h.added]
  · rw [herrors]
    exact h.failed
  · rw [herrors]
    exact h.errors

/-- **The body of the loop** takes the entry of its row, or reports it, or raises. -/
theorem row (h : Imported bcrypt env m s₀ records s results) (df : DataFrame)
    (columns : List String) (row : Row) {r : Record}
    (hr : rowRecord df columns row = r) :
    (∃ s' results',
      run exec (importRow bcrypt env m df columns records.length row results) s =
          (.ok results', s') ∧
        Imported bcrypt env m s₀ (records ++ [r]) s' results') ∨
      ∃ e, run exec (importRow bcrypt env m df columns records.length row results) s =
        (.error e, s) := by
  have htaken := h.taken_iff (r := r)
  rw [run_importRow env m df columns records.length row results s hr]
  split_ifs with husable hknown
  · refine .inl ⟨_, _, rfl, h.fail ?_⟩
    rw [Entry.error, if_neg (htaken.not.mpr fun hboth => hboth.2 hknown), if_pos husable]
  · cases hC : s.customers.insertOne (importedCustomer bcrypt env m records.length r) with
    | none => exact .inr ⟨_, rfl⟩
    | some C => exact .inl ⟨_, _, rfl, h.take (htaken.mpr ⟨husable, hknown⟩) hC⟩
  · refine .inl ⟨_, _, rfl, h.fail ?_⟩
    rw [Entry.error, if_neg (htaken.not.mpr fun hboth => husable hboth.1), if_neg husable]

/-- **The loop** takes the entries of its rows, or raises after some of them. -/
theorem rows (h : Imported bcrypt env m s₀ records s results) (df : DataFrame)
    (columns : List String) (rows : List Row) :
    (∃ s' results',
      run exec (importRows bcrypt env m df columns records.length rows results) s =
          (.ok results', s') ∧
        Imported bcrypt env m s₀ (records ++ rows.map (rowRecord df columns)) s' results') ∨
      ∃ e s' results' gone,
        run exec (importRows bcrypt env m df columns records.length rows results) s =
            (.error e, s') ∧
          gone <+: rows ∧
          Imported bcrypt env m s₀ (records ++ gone.map (rowRecord df columns)) s' results' := by
  induction rows generalizing records s results with
  | nil =>
    rw [List.map_nil, List.append_nil]
    exact .inl ⟨s, results, rfl, h⟩
  | cons row rows ih =>
    rw [importRows, run_bind]
    -- the rows gone through so far, then this one, then the rest
    rcases h.row df columns row rfl with
      ⟨s', results', hrun, h'⟩ | ⟨e, hrun⟩
    · rw [hrun, andThen_ok]
      have hrest := ih h'
      rw [List.length_append, List.length_singleton, List.append_assoc] at hrest
      rcases hrest with hall | ⟨e, s'', results'', gone, hraise, hgone, h''⟩
      · exact .inl hall
      · rw [List.append_assoc] at h''
        exact .inr ⟨e, s'', results'', row :: gone, hraise,
          List.prefix_cons_inj row |>.mpr hgone, h''⟩
    · rw [hrun, andThen_error]
      refine .inr ⟨e, s, results, [], rfl, List.nil_prefix, ?_⟩
      rw [List.map_nil, List.append_nil]
      exact h

end Imported

/-- A table with the required columns is gone through row by row. -/
theorem importTable_eq (env : Env) (m : String) {df : DataFrame} {columns : List String}
    (hcolumns : normaliseHeaders df.columns = .ret columns) (hname : "name" ∈ columns)
    (hphone : "phone" ∈ columns) :
    importTable bcrypt env m (.ok df) =
      importRows bcrypt env m df columns 0 df.iterrows ⟨0, 0, []⟩ >>= fun results =>
        .ret (.success results) := by
  have hmissing : (requiredColumns.filter fun column => column ∉ columns) = [] := by
    simp [requiredColumns, hname, hphone]
  rw [importTable]
  show normaliseHeaders df.columns >>= _ = _
  rw [hcolumns, ret_bind, hmissing, if_neg (not_not.mpr rfl)]
  rfl

/-- An import that does not raise has gone through the table. -/
theorem run_import {env : Env} {m : String} {df : DataFrame} {columns : List String}
    (hcolumns : normaliseHeaders df.columns = .ret columns) (hname : "name" ∈ columns)
    (hphone : "phone" ∈ columns)
    (hnoRaise : ∀ e s', run exec (importTable bcrypt env m (.ok df)) s ≠ (.error e, s')) :
    ∃ results s', run exec (importCustomersFromExcel bcrypt env m (.ok df)) s =
        (.ok (.success results), s') ∧
      Imported bcrypt env m s (df.iterrows.map (rowRecord df columns)) s' results := by
  rw [importTable_eq env m hcolumns hname hphone] at hnoRaise
  rcases (Imported.start bcrypt env m s).rows df columns df.iterrows with
    ⟨s', results, hrun, h⟩ | ⟨e, s', -, -, hrun, -, -⟩
  · rw [List.nil_append] at h
    rw [List.length_nil] at hrun
    refine ⟨results, s', ?_, h⟩
    rw [importCustomersFromExcel, importTable_eq env m hcolumns hname hphone, run_catchWith,
      run_bind, hrun]
    rfl
  · refine absurd ?_ (hnoRaise e s')
    rw [List.length_nil] at hrun
    rw [run_bind, hrun, andThen_error]

/-- An outcome that is an answer is no exception. -/
theorem ne_error_of_toBool {α : Type} {x : Except Exn α × Store} (h : x.1.toBool = true)
    (e : Exn) (s' : Store) : x ≠ (.error e, s') := by
  rintro rfl
  exact absurd h (by simp [Except.toBool])

end DigitalLedger
