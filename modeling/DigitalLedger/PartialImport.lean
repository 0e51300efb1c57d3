import DigitalLedger.ImportRows
import DigitalLedger.Lib.Fault

/-!
# Imports that fail

One `try` of `import_customers_from_excel` covers reading the file and the whole loop over
its rows, and the loop inserts customers as it goes.  So a failure is reported in the same
words whether or not customers have been inserted before it.  This module says exactly when
none have.

## Main definitions

* `FirstInsert`, `firstInsert` — the row whose customer the import inserts first, and the
  number of the call that inserts it.
* `InsertsNothing` — that call is never made, or it raises.

## Main results

* `importRows_unchanged_iff` — the loop under a fault.
* `failed_import_unchanged_iff` — the failed imports that change nothing.
-/

namespace DigitalLedger

open Collection Prog

variable {bcrypt : Bcrypt} {s s' : Store} {fault : Fault Exn}

/-! ### The first insertion -/

/-- The index of a row, and the number of the call that inserts its customer, counted from
zero. -/
structure FirstInsert where
  idx : ℕ
  call : ℕ
  deriving DecidableEq

/-- The first insertion of the loop from the row of index `idx` on: each usable row looks for
its phone, by one call, and the first new phone is inserted by the next. -/
def firstInsert (old : List String) : ℕ → List Record → Option FirstInsert
  | _, [] => none
  | idx, r :: records =>
    if r.Usable then
      if r.phone ∈ old then
        (firstInsert old (idx + 1) records).map fun first => { first with call := first.call + 1 }
      else some ⟨idx, 1⟩
    else firstInsert old (idx + 1) records

/-- The call is never made, or it raises: because of the fault, or because the identifier of
the row is taken. -/
def FirstInsert.Fails (env : Env) (fault : Fault Exn) (s : Store) (first : FirstInsert) : Prop :=
  fault.Upto first.call ∨ ∃ c ∈ s.customers.docs, c.id = env.objectId first.idx

/-! ### The loop under a fault -/

/-- The calls of the loop: it looks for customers, and it inserts some. -/
def DbCall.Registering : DbCall → Prop
  | .customers (.findOne _) => True
  | .customers (.insertOne _) => True
  | _ => False

/-- Customers are only added. -/
theorem length_registering (n : ℕ) (c : DbCall) (hc : c.Registering) (s : Store)
    (hs : n ≤ s.customers.docs.length) : n ≤ (exec c s).2.customers.docs.length := by
  cases c with
  | transactions op => exact hc.elim
  | customers op =>
    cases op with
    | findOne q => exact hs
    | insertOne c =>
      cases hC : s.customers.insertOne c with
      | none =>
        rw [exec_customers_insertOne_none s hC]
        exact hs
      | some C =>
        rw [exec_customers_insertOne s hC]
        show n ≤ C.docs.length
        rw [docs_insertOne hC, List.length_append]
        exact hs.trans (Nat.le_add_right _ _)
    | find q => exact hc.elim
    | updateOne q u => exact hc.elim
    | deleteOne q => exact hc.elim
    | deleteMany q => exact hc.elim

theorem length_importRows {env : Env} {m : String} {df : DataFrame} {columns : List String}
    {idx : ℕ} {rows : List Row} {results : ImportResults}
    {x : Except Exn ImportResults × Store}
    (hx : runFault exec fault (importRows bcrypt env m df columns idx rows results) s = some x) :
    s.customers.docs.length ≤ x.2.customers.docs.length :=
  runFault_invariant (P := DbCall.Registering)
    (I := fun s' => s.customers.docs.length ≤ s'.customers.docs.length)
    (length_registering _)
    (uses_importRows (fun _ => trivial) (fun _ _ _ _ _ _ => trivial) _ _ _ _ _ _ _) (le_refl _) hx

theorem importRows_cons_of_not_usable (env : Env) (m : String) (df : DataFrame)
    (columns : List String) (idx : ℕ) {row : Row} (rows : List Row)
    (results : ImportResults) (h : ¬(rowRecord df columns row).Usable) :
    importRows bcrypt env m df columns idx (row :: rows) results =
      importRows bcrypt env m df columns (idx + 1) rows (results.fail (missingError idx)) := by
  rw [importRows, importRow_eq bcrypt env m df columns idx row results rfl, if_neg h, ret_bind]

/-- A usable row looks for its phone, and inserts its customer if there is none. -/
theorem importRows_cons_of_usable (env : Env) (m : String) (df : DataFrame)
    (columns : List String) (idx : ℕ) {row : Row} (rows : List Row)
    (results : ImportResults) {r : Record} (hr : rowRecord df columns row = r) (h : r.Usable) :
    importRows bcrypt env m df columns idx (row :: rows) results =
      query (.customers (.findOne { merchantId := some m, phone := some r.phone })) >>=
        fun existing =>
          if existing.isSome then
            importRows bcrypt env m df columns (idx + 1) rows
              (results.fail (refusedError idx r "Customer with this phone already exists."))
          else
            query (.customers (.insertOne (importedCustomer bcrypt env m idx r))) >>= fun _ =>
              importRows bcrypt env m df columns (idx + 1) rows
                { results with added := results.added + 1 } := by
  rw [importRows, importRow_eq bcrypt env m df columns idx row results hr, if_pos h, addCustomer,
    bind_assoc', bind_assoc']
  refine congrArg (_ >>= ·) (funext fun existing => ?_)
  split
  · rfl
  · show (CustomersCol.insertOne _ >>= fun _ => _) >>= _ = _
    rw [bind_assoc']
    rfl

/-- An insertion, followed by the rest of the loop, changes the customers unless it raises. -/
theorem insert_unchanged_iff {env : Env} {m : String} {df : DataFrame} {columns : List String}
    {idx : ℕ} {rows : List Row} {results : ImportResults} {c : Customer}
    {x : Except Exn ImportResults × Store}
    (hx : runFault exec fault (query (.customers (.insertOne c)) >>= fun _ =>
      importRows bcrypt env m df columns idx rows results) s = some x) :
    x.2.customers = s.customers ↔
      fault.Upto 0 ∨ ∃ c' ∈ s.customers.docs, c'.id = c.id := by
  cases hC : s.customers.insertOne c with
  | none =>
    rw [runFault_perform_bind_error (exec_customers_insertOne_none s hC) hx]
    exact iff_of_true rfl (.inr (insertOne_eq_none.mp hC))
  | some C =>
    have hfresh : ¬∃ c' ∈ s.customers.docs, c'.id = c.id := fun htaken => by
      rw [insertOne_eq_none.mpr htaken] at hC
      exact absurd hC (by simp)
    rcases runFault_perform_bind (exec_customers_insertOne s hC) hx with
      ⟨e, hnow, heq⟩ | ⟨hnow, hrest⟩
    · rw [heq]
      exact iff_of_true rfl (.inl (hnow.upto 0))
    · -- the rest of the loop takes no customer away
      refine iff_of_false (fun heq => ?_) fun hfails => ?_
      · have hlength := length_importRows hrest
        rw [heq] at hlength
        change C.docs.length ≤ _ at hlength
        rw [docs_insertOne hC, List.length_append, List.length_singleton] at hlength
        omega
      · exact hfails.elim (Fault.not_upto_zero hnow) hfresh

/-- A known phone costs a call. -/
theorem fails_later_iff {env : Env} (hnow : ∀ e, ¬fault.Now e) (first : Option FirstInsert) :
    (∀ f ∈ first, f.Fails env fault.later s) ↔
      ∀ f ∈ first.map fun f => { f with call := f.call + 1 }, f.Fails env fault s := by
  cases first with
  | none => simp
  | some first =>
    simp only [Option.map_some, Option.mem_some_iff, forall_eq', FirstInsert.Fails,
      Fault.upto_later_iff hnow]

/-- **The loop under a fault** leaves the customers as they are exactly if there is no first
insertion, or it fails. -/
theorem importRows_unchanged_iff (env : Env) (m : String) (df : DataFrame)
    (columns : List String) {rows : List Row} {idx : ℕ} {results : ImportResults}
    {x : Except Exn ImportResults × Store}
    (hx : runFault exec fault (importRows bcrypt env m df columns idx rows results) s = some x) :
    x.2.customers = s.customers ↔
      ∀ first ∈ firstInsert (s.phonesOf m) idx (rows.map (rowRecord df columns)),
        first.Fails env fault s := by
  induction rows generalizing idx results fault with
  | nil =>
    rw [runFault_ret hx]
    exact iff_of_true rfl fun first hfirst => absurd hfirst (by simp [firstInsert])
  | cons row rows ih =>
    rw [List.map_cons, firstInsert]
    by_cases husable : (rowRecord df columns row).Usable
    · rw [importRows_cons_of_usable env m df columns idx rows results rfl husable] at hx
      have hfind := runFault_perform_bind (exec_customers_findOne s _) hx
      rw [if_pos husable]
      by_cases hknown : (rowRecord df columns row).phone ∈ s.phonesOf m
      · -- the phone is known: one call, and on with the next row
        rw [if_pos (findOne_phone_isSome.mpr hknown)] at hfind
        rw [if_pos hknown]
        rcases hfind with ⟨e, hnow, heq⟩ | ⟨hnow, hrest⟩
        · rw [heq]
          exact iff_of_true rfl fun first _ => .inl (hnow.upto first.call)
        · rw [ih hrest]
          exact fails_later_iff hnow _
      · -- the phone is new: the next call inserts the customer
        rw [if_neg (findOne_phone_isSome.not.mpr hknown)] at hfind
        rw [if_neg hknown]
        rcases hfind with ⟨e, hnow, heq⟩ | ⟨hnow, hrest⟩
        · rw [heq]
          exact iff_of_true rfl fun first _ => .inl (hnow.upto first.call)
        · rw [insert_unchanged_iff hrest, Fault.upto_later_iff hnow]
          simp only [Option.mem_some_iff, forall_eq', FirstInsert.Fails]
          rfl
    · -- a row without a name or a phone makes no call
      rw [importRows_cons_of_not_usable env m df columns idx rows results husable] at hx
      rw [if_neg husable]
      exact ih hx

/-! ### The whole import -/

/-- The import inserts no customer: its file is not read, or has not the required columns, or
the first insertion is never made or fails. -/
def InsertsNothing (env : Env) (m : String) (file : Except String DataFrame)
    (fault : Fault Exn) (s : Store) : Prop :=
  ∀ df columns, file = .ok df → normaliseHeaders df.columns = .ret columns →
    "name" ∈ columns → "phone" ∈ columns →
      ∀ first ∈ firstInsert (s.phonesOf m) 0 (df.iterrows.map (rowRecord df columns)),
        first.Fails env fault s

theorem normaliseHeaders_cases (headers : List Header) :
    (∃ columns, normaliseHeaders headers = .ret columns) ∨
      ∃ e, normaliseHeaders headers = .raise e := by
  induction headers with
  | nil => exact .inl ⟨[], rfl⟩
  | cons header headers ih =>
    cases header with
    | other typeName => exact .inr ⟨_, rfl⟩
    | text name =>
      rcases ih with ⟨columns, heq⟩ | ⟨e, heq⟩
      · exact .inl ⟨_, by rw [normaliseHeaders, heq]; rfl⟩
      · exact .inr ⟨e, by rw [normaliseHeaders, heq]; rfl⟩

/-- A table without the required columns is refused before any call. -/
theorem importTable_of_missing (bcrypt : Bcrypt) (env : Env) (m : String) {df : DataFrame}
    {columns : List String} (hcolumns : normaliseHeaders df.columns = .ret columns)
    (hmissing : ¬("name" ∈ columns ∧ "phone" ∈ columns)) :
    ∃ message, importTable bcrypt env m (.ok df) = .ret (.failure message) := by
  have hfilter : (requiredColumns.filter fun column => column ∉ columns) ≠ [] := by
    simpa [requiredColumns] using fun hname hphone => hmissing ⟨hname, hphone⟩
  simp only [importTable]
  rw [hcolumns, ret_bind, if_pos hfilter]
  exact ⟨_, rfl⟩

/-- A header that is not a text raises before any call. -/
theorem importTable_of_raise (bcrypt : Bcrypt) (env : Env) (m : String) {df : DataFrame} {e : Exn}
    (hcolumns : normaliseHeaders df.columns = .raise e) :
    importTable bcrypt env m (.ok df) = .raise e := by
  rw [importTable]
  show normaliseHeaders df.columns >>= _ = _
  rw [hcolumns, raise_bind]

/-- Of a table with the required columns it matters whether the first insertion fails. -/
theorem insertsNothing_iff {env : Env} {m : String} {df : DataFrame} {columns : List String}
    (hcolumns : normaliseHeaders df.columns = .ret columns) (hname : "name" ∈ columns)
    (hphone : "phone" ∈ columns) :
    InsertsNothing env m (.ok df) fault s ↔
      ∀ first ∈ firstInsert (s.phonesOf m) 0 (df.iterrows.map (rowRecord df columns)),
        first.Fails env fault s := by
  constructor
  · intro hnothing
    exact hnothing df columns rfl hcolumns hname hphone
  · intro hfails df' columns' hfile hcolumns' _ _
    obtain rfl := Except.ok.inj hfile
    rw [hcolumns] at hcolumns'
    obtain rfl := Prog.ret.inj hcolumns'
    exact hfails

theorem importTable_unchanged_iff {env : Env} {m : String} {file : Except String DataFrame}
    {x : Except Exn (Reply ImportResults) × Store}
    (hx : runFault exec fault (importTable bcrypt env m file) s = some x) :
    x.2.customers = s.customers ↔ InsertsNothing env m file fault s := by
  cases file with
  | error message =>
    rw [runFault_raise hx]
    exact iff_of_true rfl fun df columns hfile => absurd hfile (by simp)
  | ok df =>
    rcases normaliseHeaders_cases df.columns with ⟨columns, hcolumns⟩ | ⟨e, hcolumns⟩
    · by_cases hrequired : "name" ∈ columns ∧ "phone" ∈ columns
      · obtain ⟨hname, hphone⟩ := hrequired
        rw [importTable_eq env m hcolumns hname hphone] at hx
        obtain ⟨y, hy, heq⟩ := runFault_map (f := Reply.success) hx
        rw [heq, importRows_unchanged_iff env m df columns hy,
          insertsNothing_iff hcolumns hname hphone]
      · -- the required columns are not there: no call is made
        obtain ⟨message, htable⟩ := importTable_of_missing bcrypt env m hcolumns hrequired
        rw [htable] at hx
        rw [runFault_ret hx]
        refine iff_of_true rfl fun df' columns' hfile hcolumns' hname hphone => ?_
        obtain rfl := Except.ok.inj hfile
        rw [hcolumns] at hcolumns'
        obtain rfl := Prog.ret.inj hcolumns'
        exact absurd ⟨hname, hphone⟩ hrequired
    · -- a header that is not a text: no call is made
      rw [importTable_of_raise bcrypt env m hcolumns] at hx
      rw [runFault_raise hx]
      refine iff_of_true rfl fun df' columns' hfile hcolumns' => ?_
      obtain rfl := Except.ok.inj hfile
      rw [hcolumns] at hcolumns'
      exact absurd hcolumns' (by simp)

/-- **A failed import changes nothing exactly if it inserts no customer before it fails.** -/
theorem failed_import_unchanged_iff {env : Env} {m : String} {file : Except String DataFrame}
    {message : String}
    (hx : runFault exec fault (importCustomersFromExcel bcrypt env m file) s =
      some (.ok (.failure message), s')) :
    s'.customers = s.customers ↔ InsertsNothing env m file fault s := by
  obtain ⟨y, hy, heq⟩ := runFault_catchWith hx
  rw [show s' = y.2 from heq]
  exact importTable_unchanged_iff hy

/-- A table of two new customers. -/
def twoRows : DataFrame where
  columns := [.text "name", .text "phone"]
  rows := [[some "Ravi", some "99"], [some "Mina", some "97"]]
  seriesStr _ _ _ := ""

/-- The import of the two customers into the sample ledger, the database failing at a call. -/
def importFailingAt (n : ℕ) : Option (Except Exn (Reply ImportResults) × Store) :=
  runFault exec (some (.databaseError "timed out", n))
    (importCustomersFromExcel markingBcrypt (.sample 4 0) "m" (.ok twoRows)) sampleStore

/-- The database fails when the first of the two customers is to be inserted. -/
theorem failed_import_unchanged_iff_sample :
    ∃ s', importFailingAt 1 =
        some (.ok (.failure "Error reading file: timed out"), s') ∧
      (s'.customers = sampleStore.customers ↔ InsertsNothing (.sample 4 0) "m" (.ok twoRows)
        (some (.databaseError "timed out", 1)) sampleStore) := by
  have hreply : (importFailingAt 1).map Prod.fst =
      some (.ok (.failure "Error reading file: timed out")) := by decide +kernel
  obtain ⟨⟨reply, s'⟩, hrun, rfl⟩ := Option.map_eq_some_iff.mp hreply
  exact ⟨s', hrun, failed_import_unchanged_iff hrun⟩

/-- When the database fails at the second of the two customers, the import reports a failure
and the first customer stays. -/
theorem failed_import_leaves_customer :
    ¬∀ (bcrypt : Bcrypt) (env : Env) (m : String) (file : Except String DataFrame)
      (fault : Fault Exn) (s s' : Store) (message : String),
      runFault exec fault (importCustomersFromExcel bcrypt env m file) s =
        some (.ok (.failure message), s') → s'.customers = s.customers := by
  intro hclaim
  have hreply : (importFailingAt 3).map Prod.fst =
      some (.ok (.failure "Error reading file: timed out")) := by decide +kernel
  have hlength : (importFailingAt 3).map (fun x => x.2.customers.docs.length) = some 2 := by
    decide +kernel
  obtain ⟨⟨reply, s'⟩, hrun, rfl⟩ := Option.map_eq_some_iff.mp hreply
  have hsame := hclaim _ _ _ _ _ _ _ _ hrun
  rw [hrun, Option.map_some, hsame] at hlength
  exact absurd hlength (by decide +kernel)

end DigitalLedger
