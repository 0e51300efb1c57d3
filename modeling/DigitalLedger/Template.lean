import DigitalLedger.ImportRows

/-!
# The import template

`generate_template` writes records to a sheet that `import_customers_from_excel` is to read
back.  Writing and reading are the work of pandas: an empty text is written as an empty cell,
and an empty cell is read as `NaN`, whose text is `nan`.  The import guards the name and the
phone against this text, but not the address.

## Main definitions

* `Sheet`, `writeSheet`, `generateTemplate` — records written to a sheet.
* `readExcel` — the table pandas makes of a sheet, given the texts it takes for missing.
* `Record.Writable` — a record the round trip is about.

## Main results

* `rowRecord_readExcel` — what the import reads off a row that was written.
* `template_round_trip_iff` — the records that come back as they were.
-/

namespace DigitalLedger

open Collection Prog

variable {bcrypt : Bcrypt} {s : Store} {missing : String → Bool}
  {seriesStr : ℕ → String → List Cell → String}

/-! ### Writing and reading a sheet -/

/-- A sheet of texts under a row of headers. -/
structure Sheet where
  header : List String
  rows : List (List String)

/-- `pd.DataFrame(data).to_excel(writer, index=False)` for columns of records. -/
def writeSheet (records : List Record) : Sheet where
  header := ["name", "phone", "address"]
  rows := records.map fun r => [r.name, r.phone, r.address]

/-- The `sample_data` of the template. -/
def sampleData : List Record :=
  [⟨"Ramesh Kumar", "+919876543210", "123 Main St, Delhi"⟩,
    ⟨"Priya Sharma", "+919123456789", "45 Park Ave, Mumbai"⟩,
    ⟨"Anil Singh", "+919000011111", ""⟩]

/-- `generate_template` -/
def generateTemplate : Sheet := writeSheet sampleData

/-- A cell as `pd.read_excel(file, dtype=str)` returns it: `NaN` for the texts pandas takes
for missing, and the text itself for all others. -/
def readCell (missing : String → Bool) (text : String) : Cell :=
  if missing text then none else some text

/-- The table pandas reads from a sheet. -/
def readExcel (missing : String → Bool) (seriesStr : ℕ → String → List Cell → String)
    (sheet : Sheet) : DataFrame where
  columns := sheet.header.map .text
  rows := sheet.rows.map fun row => row.map (readCell missing)
  seriesStr := seriesStr

/-! ### A row that was written -/

/-- A record with a name and a phone that are trimmed and that are not taken for missing, and
with a trimmed address. -/
structure Record.Writable (missing : String → Bool) (r : Record) : Prop where
  name_present : missing r.name = false
  phone_present : missing r.phone = false
  name_ne : r.name ≠ "nan"
  phone_ne : r.phone ≠ "nan"
  name_trimmed : strip r.name = r.name
  phone_trimmed : strip r.phone = r.phone
  address_trimmed : strip r.address = r.address

/-- A record as it is read back: a missing address has become a text. -/
def Record.readBack (missing : String → Bool) (r : Record) : Record :=
  { r with address := if missing r.address then "nan" else r.address }

theorem normaliseHeaders_writeSheet (records : List Record) :
    normaliseHeaders (readExcel missing seriesStr (writeSheet records)).columns =
      .ret ["name", "phone", "address"] := rfl

/-- The cells of a row stand under the headers of the template. -/
theorem rowText_template (df : DataFrame) (idx : ℕ) (name phone address : Cell) :
    let row : Row := ⟨idx, [name, phone, address]⟩
    rowText df ["name", "phone", "address"] row "name" = name.str ∧
      rowText df ["name", "phone", "address"] row "phone" = phone.str ∧
      rowText df ["name", "phone", "address"] row "address" = address.str := by
  simp [rowText]

/-- What the import reads off a row that was written. -/
theorem rowRecord_readExcel (sheet : Sheet) (idx : ℕ) {r : Record} (h : r.Writable missing) :
    rowRecord (readExcel missing seriesStr sheet) ["name", "phone", "address"]
        ⟨idx, [r.name, r.phone, r.address].map (readCell missing)⟩ =
      r.readBack missing := by
  have hname : readCell missing r.name = some r.name := by
    rw [readCell, h.name_present, if_neg Bool.false_ne_true]
  have hphone : readCell missing r.phone = some r.phone := by
    rw [readCell, h.phone_present, if_neg Bool.false_ne_true]
  have haddress : strip (readCell missing r.address).str =
      if missing r.address then "nan" else r.address := by
    unfold readCell
    split_ifs
    · rfl
    · exact h.address_trimmed
  obtain ⟨htext₁, htext₂, htext₃⟩ := rowText_template (readExcel missing seriesStr sheet) idx
    (readCell missing r.name) (readCell missing r.phone) (readCell missing r.address)
  rw [List.map_cons, List.map_cons, List.map_singleton, rowRecord, htext₁, htext₂, htext₃, hname,
    hphone, if_pos (by decide), haddress]
  show (⟨strip r.name, strip r.phone, _⟩ : Record) = _
  rw [h.name_trimmed, h.phone_trimmed]
  rfl

theorem Record.Writable.usable {r : Record} (h : r.Writable missing) (hempty : missing "" = true) :
    (r.readBack missing).Usable := by
  have hname : r.name ≠ "" := fun heq => by
    have hpresent := h.name_present
    rw [heq, hempty] at hpresent
    exact absurd hpresent (by decide)
  have hphone : r.phone ≠ "" := fun heq => by
    have hpresent := h.phone_present
    rw [heq, hempty] at hpresent
    exact absurd hpresent (by decide)
  rintro (hn | hp | hn | hp)
  · exact hname hn
  · exact hphone hp
  · exact h.name_ne hn
  · exact h.phone_ne hp

/-- A record is read back as it was unless its address is taken for missing. -/
theorem readBack_eq_iff {r : Record} :
    r.readBack missing = r ↔ (missing r.address = true → r.address = "nan") := by
  obtain ⟨name, phone, address⟩ := r
  rw [Record.readBack, Record.mk.injEq]
  constructor
  · rintro ⟨-, -, haddress⟩ hmissing
    rw [if_pos hmissing] at haddress
    exact haddress.symm
  · intro haddress
    refine ⟨rfl, rfl, ?_⟩
    split_ifs with hmissing
    · exact (haddress hmissing).symm
    · rfl

/-! ### The round trip -/

/-- With distinct phones, and none known before, every usable record is taken. -/
theorem takenEntries_eq_entries {records : List Record} (husable : ∀ r ∈ records, r.Usable)
    (hphones : (records.map fun r => r.phone).Nodup) :
    takenEntries [] records = entries records := by
  induction records using List.reverseRecOn with
  | nil => rfl
  | append_singleton records r ih =>
    rw [List.map_append, List.nodup_append] at hphones
    obtain ⟨hnodup, -, hdisjoint⟩ := hphones
    have htaken : Entry.Taken [] ⟨records.length, records, r⟩ :=
      ⟨husable r (List.mem_append_right _ (List.mem_singleton.mpr rfl)), List.not_mem_nil,
        fun r' hr' _ => hdisjoint _ (List.mem_map_of_mem hr') _
          (List.mem_map_of_mem (List.mem_singleton.mpr rfl))⟩
    rw [takenEntries_concat, entries_concat, if_pos htaken,
      ih (fun r' hr' => husable r' (List.mem_append_left _ hr')) hnodup]

theorem map_record_entries (records : List Record) :
    (entries records).map (fun e => e.record) = records := by
  rw [entries, List.map_map]
  exact List.zipIdx_map_fst 0 records

/-- The fields an import supplies, of a stored customer. -/
def CustomerDoc.record {ι : Type} (c : CustomerDoc ι) : Record := ⟨c.name, c.phone, c.address⟩

/-- What the import reads off a sheet that was written. -/
theorem map_rowRecord_readExcel {records : List Record}
    (hwritable : ∀ r ∈ records, r.Writable missing) :
    (readExcel missing seriesStr (writeSheet records)).iterrows.map
        (rowRecord (readExcel missing seriesStr (writeSheet records))
          ["name", "phone", "address"]) =
      records.map (Record.readBack missing) := by
  have hrows : (readExcel missing seriesStr (writeSheet records)).iterrows =
      records.zipIdx.map fun p =>
        ⟨p.2, [p.1.name, p.1.phone, p.1.address].map (readCell missing)⟩ := by
    show (((records.map _).map _).zipIdx).map _ = _
    rw [List.map_map, List.zipIdx_map, List.map_map]
    rfl
  rw [hrows, List.map_map]
  calc records.zipIdx.map _
      = records.zipIdx.map (Record.readBack missing ∘ Prod.fst) :=
        List.map_congr_left fun p hp =>
          rowRecord_readExcel _ p.2 (hwritable p.1 (List.fst_mem_of_mem_zipIdx hp))
    _ = records.map (Record.readBack missing) := by
        rw [← List.map_map, List.zipIdx_map_fst]

/-- Every record that was written is taken. -/
theorem takenEntries_readBack {records : List Record} (hempty : missing "" = true)
    (hwritable : ∀ r ∈ records, r.Writable missing)
    (hphones : (records.map fun r => r.phone).Nodup) :
    takenEntries [] (records.map (Record.readBack missing)) =
      entries (records.map (Record.readBack missing)) := by
  refine takenEntries_eq_entries (fun r' hr' => ?_) ?_
  · obtain ⟨r, hr, rfl⟩ := List.mem_map.mp hr'
    exact (hwritable r hr).usable hempty
  · rw [List.map_map]
    exact hphones

/-- All records are read back as they were exactly if no address is taken for missing. -/
theorem map_readBack_eq_iff {records : List Record} :
    records.map (Record.readBack missing) = records ↔
      ∀ r ∈ records, missing r.address = true → r.address = "nan" := by
  constructor
  · intro heq r hr
    rw [← readBack_eq_iff]
    exact List.map_inj_left.mp (heq.trans (List.map_id _).symm) r hr
  · intro haddress
    refine (List.map_congr_left fun r hr => ?_).trans (List.map_id _)
    exact readBack_eq_iff.mpr (haddress r hr)

/-- **The round trip** of records written to a sheet and imported for a merchant without
customers adds them all, but gives exactly these customers back if and only if no address is
taken for missing: such an address, the empty one above all, is stored as the text `nan`. -/
theorem template_round_trip_iff {env : Env} {m : String} {records : List Record}
    (hempty : missing "" = true) (hwritable : ∀ r ∈ records, r.Writable missing)
    (hphones : (records.map fun r => r.phone).Nodup) (hnone : s.customersOf m = [])
    (hnoRaise : ∀ e s', run exec (importTable bcrypt env m
      (.ok (readExcel missing seriesStr (writeSheet records)))) s ≠ (.error e, s')) :
    let imported := run exec (importCustomersFromExcel bcrypt env m
      (.ok (readExcel missing seriesStr (writeSheet records)))) s
    (∃ results, imported.1 = .ok (.success results) ∧ results.added = records.length) ∧
      ((imported.2.customersOf m).map CustomerDoc.record = records ↔
        ∀ r ∈ records, missing r.address = true → r.address = "nan") := by
  intro imported
  obtain ⟨results, s', hrun, h⟩ := run_import (normaliseHeaders_writeSheet records) (by decide)
    (by decide) hnoRaise
  -- the merchant has no customers, so no phone is known
  have hold : s.phonesOf m = [] := by rw [Store.phonesOf, hnone, List.map_nil]
  have htaken := takenEntries_readBack hempty hwritable hphones
  rw [map_rowRecord_readExcel hwritable] at h
  have hcustomers : (imported.2.customersOf m).map CustomerDoc.record =
      records.map (Record.readBack missing) := by
    rw [show imported = _ from hrun, h.customersOf, hold, hnone, List.nil_append, htaken,
      List.map_map]
    exact map_record_entries _
  refine ⟨⟨results, congrArg Prod.fst hrun, ?_⟩, ?_⟩
  · rw [h.added, hold, htaken, entries, List.length_map, List.length_zipIdx, List.length_map]
  · -- the names and phones come back, so only the addresses matter
    rw [hcustomers, map_readBack_eq_iff]

/-- Only empty cells are missing. -/
def emptyMissing (text : String) : Bool := text = ""

theorem sampleData_writable : ∀ r ∈ sampleData, r.Writable emptyMissing := by
  intro r hr
  constructor <;> revert r <;> decide +kernel

theorem sampleData_noRaise (records : List Record)
    (h : records = sampleData ∨ records = sampleData.take 2) (e : Exn) (s' : Store) :
    run exec (importTable markingBcrypt (.sample 1 0) "m"
      (.ok (readExcel emptyMissing (fun _ _ _ => "") (writeSheet records)))) .empty ≠
        (.error e, s') := by
  refine ne_error_of_toBool ?_ e s'
  rcases h with rfl | rfl
  · decide +kernel
  · decide +kernel

/-- The first two records of the template come back as they were. -/
theorem template_round_trip_iff_sample :
    let imported := run exec (importCustomersFromExcel markingBcrypt (.sample 1 0) "m"
      (.ok (readExcel emptyMissing (fun _ _ _ => "") (writeSheet (sampleData.take 2))))) .empty
    (imported.2.customersOf "m").map CustomerDoc.record = sampleData.take 2 := by
  intro imported
  have hwritable : ∀ r ∈ sampleData.take 2, r.Writable emptyMissing := fun r hr =>
    sampleData_writable r (List.mem_of_mem_take hr)
  exact (template_round_trip_iff (by decide) hwritable (by decide) rfl
    (sampleData_noRaise _ (.inr rfl))).2.mpr (by decide +kernel)

/-- The template the application ships does not come back: the empty address of its last
record is imported as the text `nan`. -/
theorem template_not_restored :
    ¬∀ (bcrypt : Bcrypt) (env : Env) (m : String) (s : Store)
      (seriesStr : ℕ → String → List Cell → String)
      (records : List Record), (∀ r ∈ records, r.Writable emptyMissing) →
      (records.map fun r => r.phone).Nodup → s.customersOf m = [] →
      (∀ e s', run exec (importTable bcrypt env m
        (.ok (readExcel emptyMissing seriesStr (writeSheet records)))) s ≠ (.error e, s')) →
      ((run exec (importCustomersFromExcel bcrypt env m
        (.ok (readExcel emptyMissing seriesStr (writeSheet records)))) s).2.customersOf m).map
          CustomerDoc.record = records := by
  intro hclaim
  have hrestored := hclaim markingBcrypt (.sample 1 0) "m" .empty (fun _ _ _ => "") sampleData
    sampleData_writable (by decide) rfl (sampleData_noRaise _ (.inl rfl))
  exact absurd hrestored (by decide +kernel)

end DigitalLedger
