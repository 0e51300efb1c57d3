import DigitalLedger.Scores
import DigitalLedger.PartialImport

/-!
# Names of customers

A registration is refused where the merchant has a customer with the same phone; its name is
not looked at.  So which names a merchant's customers bear depends on the names it has ever
given, one by one or by an import.

## Main definitions

* `Store.namesOf` — the names of a merchant's customers.
* `Call.newNames` — the names a call gives to new customers.
* `Call.NamesNew` — these differ, and are neither names in use nor "All".
* `Store.NamesDiffer` — no merchant has two customers of one name, or one named "All".

## Main results

* `names_exec` — a call adds no names but its new ones.
* `namesDiffer_exec`, `namesDiffer_execAll` — calls with new names keep names apart.
-/

namespace DigitalLedger

open Collection Prog

variable {bcrypt : Bcrypt} {s s' : Store} {m : String}

/-! ### The names stored -/

/-- The names of a merchant's customers. -/
def Store.namesOf (s : Store) (m : String) : List String := (s.customersOf m).map fun c => c.name

/-- The names of all customers, each with its merchant. -/
def Store.names (s : Store) : List (String × String) :=
  s.customers.docs.map fun c => (c.merchantId, c.name)

theorem mem_names {name : String} : (m, name) ∈ s.names ↔ name ∈ s.namesOf m := by
  simp only [Store.names, Store.namesOf, List.mem_map, mem_customersOf, Prod.mk.injEq, and_assoc]

theorem namesOf_eq (s : Store) (m : String) :
    s.namesOf m = (s.names.filter fun p => p.1 = m).map Prod.snd := by
  rw [Store.names, List.filter_map, List.map_map, Store.namesOf, Store.customersOf, find]
  refine congrArg (List.map _) (List.filter_congr fun c _ => ?_)
  rw [Bool.eq_iff_iff, test_customer_merchant, Function.comp_apply, decide_eq_true_eq]

/-- Names that differ with their merchants differ under each. -/
theorem nodup_namesOf (h : s.names.Nodup) (m : String) : (s.namesOf m).Nodup := by
  rw [namesOf_eq]
  refine (h.filter _).map_on fun p hp p' hp' heq => ?_
  have hm := (List.mem_filter.mp hp).2
  have hm' := (List.mem_filter.mp hp').2
  rw [decide_eq_true_eq] at hm hm'
  exact Prod.ext (hm.trans hm'.symm) heq

/-- A call that registers no customer adds no name. -/
theorem DbCall.RegistersNone.names_sublist {c : DbCall} (hc : c.RegistersNone) (s : Store) :
    (exec c s).2.names.Sublist s.names := by
  cases c with
  | transactions op => cases op <;> exact List.Sublist.refl _
  | customers op =>
    cases op with
    | findOne q => exact List.Sublist.refl _
    | find q => exact List.Sublist.refl _
    | insertOne d => exact hc.elim
    | updateOne q u =>
      have hsame : (exec (.customers (.updateOne q u)) s).2.names = s.names :=
        map_updateOne (fun _ => rfl) q s.customers
      rw [hsame]
    | deleteOne q => exact List.eraseP_sublist.map _
    | deleteMany q => exact List.filter_sublist.map _

theorem names_of_uses {α : Type} {p : Db α} (hp : Uses DbCall.RegistersNone p) (s : Store) :
    (run exec p s).2.names.Sublist s.names :=
  run_invariant (I := fun s' => s'.names.Sublist s.names) exec
    (fun _ hc s' hs => (hc.names_sublist s').trans hs) hp (List.Sublist.refl _)

/-! ### The names a call gives -/

/-- The names a call gives to new customers, in their order. -/
def Call.newNames (s : Store) : Call → List String
  | .addCustomer _ m name phone _ _ => if phone ∈ s.phonesOf m then [] else [name]
  | .importCustomersFromExcel _ m (.ok df) =>
    match normaliseHeaders df.columns with
    | .ret columns => (takenEntries (s.phonesOf m) (df.iterrows.map (rowRecord df columns))).map
        fun e => e.record.name
    | _ => []
  | _ => []

theorem newNames_import {env : Env} {df : DataFrame} {columns : List String}
    (hcolumns : normaliseHeaders df.columns = .ret columns) :
    Call.newNames s (.importCustomersFromExcel env m (.ok df)) =
      (takenEntries (s.phonesOf m) (df.iterrows.map (rowRecord df columns))).map
        fun e => e.record.name := by
  rw [Call.newNames, hcolumns]

/-- The first rows of a table take the first of its entries. -/
theorem takenEntries_sublist {old : List String} {gone records : List Record}
    (h : gone <+: records) : (takenEntries old gone).Sublist (takenEntries old records) := by
  obtain ⟨rest, rfl⟩ := h
  induction rest using List.reverseRecOn with
  | nil =>
    rw [List.append_nil]
  | append_singleton rest r ih =>
    rw [← List.append_assoc, takenEntries_concat]
    exact ih.trans (List.sublist_append_left _ _)

theorem Imported.names {env : Env} {s₀ : Store} {records : List Record} {results : ImportResults}
    (h : Imported bcrypt env m s₀ records s results) :
    s.names = s₀.names ++ ((takenEntries (s₀.phonesOf m) records).map
      fun e => e.record.name).map fun name => (m, name) := by
  rw [Store.names, h.customers, List.map_append, List.map_map, List.map_map, ← Store.names]
  rfl

/-- An import adds no names but those of the entries it takes. -/
theorem names_import (env : Env) (m : String) (file : Except String DataFrame) (s : Store) :
    (run exec (importTable bcrypt env m file) s).2.names.Sublist
      (s.names ++ (Call.newNames s (.importCustomersFromExcel env m file)).map
        fun name => (m, name)) := by
  cases file with
  | error message => exact List.sublist_append_left _ _
  | ok df =>
    rcases normaliseHeaders_cases df.columns with ⟨columns, hcolumns⟩ | ⟨e, hcolumns⟩
    · by_cases hrequired : "name" ∈ columns ∧ "phone" ∈ columns
      · obtain ⟨hname, hphone⟩ := hrequired
        rw [newNames_import hcolumns, importTable_eq env m hcolumns hname hphone, run_bind]
        rcases (Imported.start bcrypt env m s).rows df columns df.iterrows with
          ⟨s', results, hrun, h⟩ | ⟨e, s', results, gone, hrun, hgone, h⟩
        · rw [List.length_nil] at hrun
          rw [List.nil_append] at h
          rw [hrun, andThen_ok]
          exact h.names ▸ List.Sublist.refl _
        · -- the rows gone through before the exception
          rw [List.length_nil] at hrun
          rw [List.nil_append] at h
          rw [hrun, andThen_error]
          have htaken : (takenEntries (s.phonesOf m) (gone.map (rowRecord df columns))).Sublist _ :=
            takenEntries_sublist (hgone.map (rowRecord df columns))
          show s'.names.Sublist _
          rw [h.names]
          exact ((htaken.map _).map _).append_left _
      · obtain ⟨message, htable⟩ := importTable_of_missing bcrypt env m hcolumns hrequired
        rw [htable]
        exact List.sublist_append_left _ _
    · rw [importTable_of_raise bcrypt env m hcolumns]
      exact List.sublist_append_left _ _

/-- The handler of the `try` leaves the store as the rows have left it. -/
theorem exec_import (env : Env) (m : String) (file : Except String DataFrame) (s : Store) :
    (Call.exec bcrypt (.importCustomersFromExcel env m file) s).2 =
      (run exec (importTable bcrypt env m file) s).2 := by
  rw [Call.exec, Call.code, run_map, importCustomersFromExcel, run_catchWith]
  rcases run exec (importTable bcrypt env m file) s with ⟨e | reply, s'⟩
  · rfl
  · rfl

/-- A registration adds its name where the phone is new. -/
theorem names_addCustomer (env : Env) (m name phone address pin : String) (s : Store) :
    (Call.exec bcrypt (.addCustomer env m name phone address pin) s).2.names.Sublist
      (s.names ++ (Call.newNames s (.addCustomer env m name phone address pin)).map
        fun name => (m, name)) := by
  rw [Call.exec, Call.code, run_map, run_addCustomer, Call.newNames]
  split_ifs with hfound hknown hknown
  · exact List.sublist_append_left _ _
  · exact List.sublist_append_left _ _
  · exact absurd (findOne_phone_isSome.mpr hknown) hfound
  · cases hC : s.customers.insertOne (newCustomer bcrypt env m name phone address pin) with
    | none => exact List.sublist_append_left _ _
    | some C =>
      have hnames : C.docs.map (fun c => (c.merchantId, c.name)) = s.names ++ [(m, name)] := by
        rw [docs_insertOne hC, List.map_append]
        rfl
      exact hnames ▸ List.Sublist.refl _

/-- **A call adds no names but its new ones.** -/
theorem names_exec (call : Call) (s : Store) :
    (call.exec bcrypt s).2.names.Sublist
      (s.names ++ (call.newNames s).map fun name => (call.merchantId, name)) := by
  -- the calls that register no customer
  have hnone : Uses DbCall.RegistersNone (call.code bcrypt) →
      (call.exec bcrypt s).2.names.Sublist
        (s.names ++ (call.newNames s).map fun name => (call.merchantId, name)) :=
    fun huses => (names_of_uses huses s).trans (List.sublist_append_left _ _)
  cases call with
  | addCustomer env m name phone address pin =>
    exact names_addCustomer env m name phone address pin s
  | importCustomersFromExcel env m file =>
    rw [exec_import]
    exact names_import env m file s
  | addTransaction env m cid type amount note =>
    exact hnone ((uses_addTransaction (fun _ hc => hc.registersNone) (fun _ _ _ => trivial) _
      (fun _ _ _ _ _ _ => trivial) _ _ _ _ _).map _)
  | editTransaction env tid m amount note =>
    exact hnone ((uses_editTransaction (fun _ hc => hc.registersNone) (fun _ _ _ => trivial)
      (fun _ => trivial) (fun _ _ => trivial) _ _ _ _ _).map _)
  | deleteTransaction env tid m =>
    exact hnone ((uses_deleteTransaction (fun _ hc => hc.registersNone) (fun _ _ _ => trivial)
      (fun _ => trivial) (fun _ => trivial) _ _ _).map _)
  | deleteCustomer cid m =>
    exact hnone ((uses_deleteCustomer (fun _ => trivial) (fun _ => trivial) _ _).map _)
  | updateCustomerPin env cid m pin =>
    exact hnone ((uses_updateCustomerPin (fun _ _ => trivial) _ _ _ _).map _)
  | computeCreditScore env m cid =>
    exact hnone (((uses_computeCreditScore _ _).mono fun _ hc => hc.registersNone).map _)

/-! ### Names stay apart -/

/-- The new names differ from one another, from the names the merchant's customers have, and
from "All". -/
structure Call.NamesNew (s : Store) (call : Call) : Prop where
  nodup : (call.newNames s).Nodup
  unused : ∀ name ∈ call.newNames s, name ∉ s.namesOf call.merchantId
  notAll : "All" ∉ call.newNames s

/-- No merchant has two customers of one name, or one named "All". -/
structure Store.NamesDiffer (s : Store) : Prop where
  nodup : s.names.Nodup
  notAll : ∀ p ∈ s.names, p.2 ≠ "All"

theorem namesDiffer_empty : Store.empty.NamesDiffer :=
  ⟨List.nodup_nil, fun _ hp => absurd hp List.not_mem_nil⟩

/-- **A call with new names keeps names apart.** -/
theorem namesDiffer_exec {call : Call} (hs : s.NamesDiffer) (hnew : call.NamesNew s) :
    (call.exec bcrypt s).2.NamesDiffer := by
  have hsub : (call.exec bcrypt s).2.names.Sublist _ := names_exec call s
  constructor
  · refine List.Nodup.sublist hsub (List.Nodup.append hs.nodup ?_ ?_)
    · exact hnew.nodup.map (Prod.mk_right_injective _)
    · intro p hp hp'
      obtain ⟨name, hname, rfl⟩ := List.mem_map.mp hp'
      exact hnew.unused name hname (mem_names.mp hp)
  · intro p hp
    rcases List.mem_append.mp (hsub.subset hp) with hold | hadded
    · exact hs.notAll p hold
    · obtain ⟨name, hname, rfl⟩ := List.mem_map.mp hadded
      rintro rfl
      exact hnew.notAll hname

/-- **Along a run whose calls give new names only, names stay apart.** -/
theorem namesDiffer_execAll {calls gone : List Call} (hs : s.NamesDiffer)
    (hcalls : EachCall bcrypt (fun s call => call.NamesNew s) s calls) (hgone : gone <+: calls) :
    (execAll bcrypt gone s).NamesDiffer := by
  induction gone generalizing s calls with
  | nil => exact hs
  | cons call gone ih =>
    obtain ⟨rest, rfl⟩ := hgone
    obtain ⟨hcall, hrest⟩ := hcalls
    exact ih (namesDiffer_exec hs hcall) hrest (List.prefix_append gone rest)

end DigitalLedger
