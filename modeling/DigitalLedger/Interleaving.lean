import DigitalLedger.Moves
import DigitalLedger.Sessions

/-!
# Interleaved calls without a conflict

Calls that record, edit, delete or score are interleaved, each step on the database
being atomic, and no two of them in flight edit or delete the same transaction.
Then the figures of every customer are, at every moment, those of its stored
transactions less what the calls in flight still owe: the transaction a session has
read is still stored as it was read when the session writes it, so no write slips.

## Main definitions

* `Call.MovesMoney` — the calls that are interleaved here.
* `Call.target` — the transaction a call edits or deletes.
* `NoConflict` — no two calls in flight edit or delete the same transaction.

## Main results

* `Tracked.step` — what a session has read stays stored until the session writes it.
* `interleaved_totals` — the figures under every interleaving without a conflict.
-/

namespace DigitalLedger

open Collection Prog

variable {bcrypt : Bcrypt} {s : Store}

/-- The calls that record, edit, delete or score. -/
def Call.MovesMoney : Call → Prop
  | .addTransaction _ _ _ _ _ _ => True
  | .editTransaction _ _ _ _ _ => True
  | .deleteTransaction _ _ _ => True
  | .computeCreditScore _ _ _ => True
  | _ => False

/-- The transaction a call edits or deletes. -/
def Call.target : Call → Option ObjectId
  | .editTransaction _ tid _ _ _ => ObjectId.ofString? tid
  | .deleteTransaction _ tid _ => ObjectId.ofString? tid
  | _ => none

/-- Where a call that moves money starts. -/
theorem Call.MovesMoney.at_code (bcrypt : Bcrypt) {call : Call} (hcall : call.MovesMoney) :
    ∃ st, At st (call.code bcrypt) ∧
      (st = .quiet ∨ st = .checking ∨ ∃ oid w, st = .reading oid w ∧ call.target = some oid) := by
  cases call with
  | addTransaction env m cid txnType amount note =>
    rcases at_addTransaction env m cid txnType amount note with h | h
    · exact ⟨_, h.map _, .inl rfl⟩
    · exact ⟨_, h.map _, .inr (.inl rfl)⟩
  | editTransaction env tid m amount note =>
    rcases at_editTransaction env tid m amount note with h | ⟨oid, w, htid, h⟩
    · exact ⟨_, h.map _, .inl rfl⟩
    · exact ⟨_, h.map _, .inr (.inr ⟨oid, w, rfl, htid⟩)⟩
  | deleteTransaction env tid m =>
    rcases at_deleteTransaction env tid m with h | ⟨oid, w, htid, h⟩
    · exact ⟨_, h.map _, .inl rfl⟩
    · exact ⟨_, h.map _, .inr (.inr ⟨oid, w, rfl, htid⟩)⟩
  | computeCreditScore env m cid =>
    exact ⟨_, .quiet ((uses_computeCreditScore _ _).map _), .inl rfl⟩
  | addCustomer env m name phone address pin => exact hcall.elim
  | deleteCustomer cid m => exact hcall.elim
  | updateCustomerPin env cid m pin => exact hcall.elim
  | importCustomersFromExcel env m file => exact hcall.elim

variable {ι : Type}

/-- No two calls in flight edit or delete the same transaction. -/
def NoConflict (calls : ι → Call) (x : Sessions ι Outcome) : Prop :=
  ∀ i j, i ≠ j → (x.sessions i).InFlight → (x.sessions j).InFlight →
    ∀ oid, (calls i).target = some oid → (calls j).target ≠ some oid

/-! ### What the sessions know -/

/-- What holds while session `i` is at a stage: a transaction it has read is still
stored as it was read. -/
def Knows (calls : ι → Call) (x : Sessions ι Outcome) (i : ι) : Stage → Prop
  | .reading oid _ => (calls i).target = some oid
  | .writing t _ =>
    (calls i).target = some t.id ∧ (x.sessions i).InFlight ∧ t ∈ x.store.transactions.docs
  | _ => True

/-- Every session is at a stage and knows what belongs to it. -/
def Tracked (calls : ι → Call) (x : Sessions ι Outcome) : Prop :=
  ∀ i, ∃ st, At st (x.sessions i).rest ∧ Knows calls x i st

variable {calls : ι → Call} {x : Sessions ι Outcome}

/-- A session about to write finds what it has read, so its write does not slip. -/
theorem Knows.slip_eq_zero {i : ι} {st : Stage} (h : Knows calls x i st) (a : ObjectId) :
    st.slip x.store a = 0 := by
  cases st with
  | writing t w =>
    rw [Stage.slip, findOne_transaction.mpr ⟨h.2.2, rfl⟩]
    exact sub_self _
  | quiet => rfl
  | checking => rfl
  | inserting t => rfl
  | reading oid w => rfl
  | owing oid δ => rfl

variable [DecidableEq ι]

/-- What the session that steps knows afterwards. -/
theorem Knows.step_self {i : ι} {st st' : Stage} (h : Knows calls x i st)
    (hstep : Stage.Step x.store st (x.step exec i).store st')
    (hat : At st' ((x.step exec i).sessions i).rest) : Knows calls (x.step exec i) i st' := by
  cases st' with
  | writing t w =>
    obtain ⟨rfl, ht, hstore⟩ := hstep.eq_reading
    have htarget : (calls i).target = some t.id := h
    refine ⟨htarget, System.inFlight_step hat.outcome_writing, ?_⟩
    rw [hstore]
    exact ht
  | reading oid w => exact absurd rfl (hstep.ne_reading oid w)
  | quiet => trivial
  | checking => trivial
  | inserting t => trivial
  | owing oid δ => trivial

/-- What the other sessions know afterwards: without a conflict, the step writes no
transaction they have read. -/
theorem Knows.step_other (hconflict : NoConflict calls x) {i j : ι} (hij : j ≠ i)
    {st st' sj : Stage} (hi : Knows calls x i st)
    (hstep : Stage.Step x.store st (x.step exec i).store st') (hj : Knows calls x j sj) :
    Knows calls (x.step exec i) j sj := by
  cases sj with
  | writing t w =>
    obtain ⟨htarget, hflight, ht⟩ := hj
    refine ⟨htarget, ?_, hstep.mem_transactions ht ?_⟩
    · rw [System.sessions_step_of_ne hij]
      exact hflight
    · rintro t' w' rfl hid
      obtain ⟨htarget', hflight', -⟩ := hi
      rw [← hid] at htarget
      exact hconflict i j hij.symm hflight' hflight _ htarget' htarget
  | reading oid w => exact hj
  | quiet => trivial
  | checking => trivial
  | inserting t => trivial
  | owing oid δ => trivial

/-- **What a session has read stays stored until the session writes it**, as long as
there is no conflict. -/
theorem Tracked.step (hconflict : NoConflict calls x) (h : Tracked calls x) (i : ι) :
    Tracked calls (x.step exec i) := by
  obtain ⟨st, hat, hknows⟩ := h i
  obtain ⟨st', hstep, hat'⟩ := hat.system_step
  intro j
  by_cases hij : j = i
  · subst hij
    exact ⟨st', hat', hknows.step_self hstep hat'⟩
  · obtain ⟨sj, hatj, hknowsj⟩ := h j
    refine ⟨sj, ?_, hknows.step_other hconflict hij hstep hknowsj⟩
    rw [System.sessions_step_of_ne hij]
    exact hatj

omit [DecidableEq ι] in
theorem tracked_start (hcalls : ∀ i, (calls i).MovesMoney) (s : Store) :
    Tracked calls (System.start s fun i => (calls i).code bcrypt) := by
  intro i
  obtain ⟨st, hat, hst⟩ := (hcalls i).at_code bcrypt
  refine ⟨st, hat, ?_⟩
  rcases hst with rfl | rfl | ⟨oid, w, rfl, htarget⟩
  · trivial
  · trivial
  · exact htarget

/-! ### The figures -/

variable [Fintype ι]

omit [DecidableEq ι] in
/-- A program that is about to start owes nothing. -/
theorem gap_start (hs : s.Exact) (hcalls : ∀ i, (calls i).MovesMoney) {a : ObjectId}
    (ha : a ∈ s.customerIds) :
    Sessions.gap (System.start s fun i => (calls i).code bcrypt) a = 0 := by
  obtain ⟨c, hc, rfl⟩ := List.mem_map.mp ha
  have hpending : ∀ i, pending ((calls i).code bcrypt) c.id = 0 := by
    intro i
    obtain ⟨st, hat, hst⟩ := (hcalls i).at_code bcrypt
    rw [hat.pending_eq]
    rcases hst with rfl | rfl | ⟨oid, w, rfl, -⟩
    · rfl
    · rfl
    · rfl
  have hsum : ∑ i, pending ((calls i).code bcrypt) c.id = 0 :=
    Finset.sum_eq_zero fun i _ => hpending i
  rw [Sessions.gap]
  change s.figures c.id + ∑ i, pending ((calls i).code bcrypt) c.id - s.effects c.id = 0
  rw [hsum, add_zero, figures_of_mem hc, hs c hc, sub_self]

/-- **Interleaved calls without a conflict lose nothing.**  At every moment the figures
of every customer, with what the calls in flight still owe it, are those of its
stored transactions; once every call has ended the figures are exact. -/
theorem interleaved_totals (h : Reachable bcrypt s) (hcalls : ∀ i, (calls i).MovesMoney)
    {sched : List ι}
    (hconflict : System.Along exec (fun x _ => NoConflict calls x)
      (System.start s fun i => (calls i).code bcrypt) sched) :
    let x := System.run exec (System.start s fun i => (calls i).code bcrypt) sched
    (∀ c ∈ x.store.customers.docs,
      c.totals + ∑ i, pending (x.sessions i).rest c.id = x.store.effects c.id) ∧
      (x.Finished → x.store.Exact) := by
  intro x
  have hinv : Tracked calls x ∧ x.store.customerIds = s.customerIds ∧
      ∀ a ∈ s.customerIds, Sessions.gap x a = 0 := by
    refine System.run_invariant (I := fun x => Tracked calls x ∧
      x.store.customerIds = s.customerIds ∧ ∀ a ∈ s.customerIds, Sessions.gap x a = 0) ?_
      hconflict ⟨tracked_start hcalls s, rfl,
        fun a ha => gap_start h.consistent.figures hcalls ha⟩
    -- without a conflict the step does not slip, and the gap stays closed
    rintro y i hno ⟨htracked, hids, hgap⟩
    obtain ⟨st, hat, hknows⟩ := htracked i
    obtain ⟨st', hstep, -⟩ := hat.system_step
    refine ⟨htracked.step hno i, hstep.customerIds.trans hids, fun a ha => ?_⟩
    rw [Sessions.gap_step hat (hids ▸ ha), hknows.slip_eq_zero, add_zero]
    exact hgap a ha
  obtain ⟨-, hids, hgap⟩ := hinv
  have hzero : ∀ c ∈ x.store.customers.docs, Sessions.gap x c.id = 0 := by
    intro c hc
    refine hgap c.id ?_
    rw [← hids]
    exact List.mem_map_of_mem hc
  refine ⟨fun c hc => ?_, fun hfinished => (Sessions.exact_iff_gap hfinished).mpr hzero⟩
  have hbalance := hzero c hc
  rw [Sessions.gap_of_mem hc] at hbalance
  exact sub_eq_zero.mp hbalance

/-- A payment of 10 and an edit of the credit, in flight together. -/
def sampleInFlight : Bool → Call
  | false => .addTransaction (.sample 4 0) "m" (ObjectId.ofNat 1).str "payment" 10 ""
  | true => .editTransaction (.sample 5 0) (ObjectId.ofNat 2).str "m" 60 "rice"

/-- The two lose nothing, interleaved step by step. -/
theorem interleaved_totals_sample :
    let x := System.run exec
      (System.start sampleStore fun i => (sampleInFlight i).code markingBcrypt)
      [false, true, false, true, true, false, false, true, false, true, true, false, false]
    (∀ c ∈ x.store.customers.docs,
      c.totals + ∑ i, pending (x.sessions i).rest c.id = x.store.effects c.id) ∧
      x.store.Exact := by
  have hmoves : ∀ i, (sampleInFlight i).MovesMoney := by
    rintro (_ | _) <;> trivial
  have hconflict : ∀ x : Sessions Bool Outcome, NoConflict sampleInFlight x := by
    -- only one of the two edits or deletes a transaction
    rintro x (_ | _) (_ | _) hij - - oid htarget
    · exact absurd rfl hij
    · exact absurd htarget (by simp [sampleInFlight, Call.target])
    · simp [sampleInFlight, Call.target]
    · exact absurd rfl hij
  have htotals := interleaved_totals sampleStore_reachable hmoves (System.along_of_forall
    (fun x _ => hconflict x)
    [false, true, false, true, true, false, false, true, false, true, true, false, false])
  exact ⟨htotals.1, htotals.2 (by decide +kernel)⟩

end DigitalLedger
