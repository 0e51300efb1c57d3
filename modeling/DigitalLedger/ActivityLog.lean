import DigitalLedger.Lib.Trace
import DigitalLedger.Site
import Mathlib.Data.List.Pairwise
import Mathlib.Data.List.Sort

/-!
# The activity log

The functions of `activity_log.py`: a merchant's actions are logged with the time, listed
newest first, and cleared.

Behind the collection, which all merchants share, stands a plain idea: a merchant's history
is the list of what it did since it last cleared its log.  Whatever the other merchants log
and clear in between, the page shows the newest entries of that list.

## Main definitions

* `logAction`, `getLogs`, `clearLogs` — the functions, `LogSort` being the order in which
  the database sorts.
* `LogCall`, `stepLog` — the calls on the log, made by any session.
* `Activity`, `history` — the history of a merchant, as the calls alone tell it.
* `Newest` — a list shows the newest entries of another, newest first.

## Main results

* `activities_after` — the entries stored of a merchant are its history.
* `getLogs_history` — what `get_logs` returns of it.
-/

namespace DigitalLedger

open Prog Collection Trace

/-! ### The functions -/

/-- The document `log_action` inserts. -/
def newLogEntry (env : Env) (merchantId action details : String) : LogEntry where
  id := env.objectId 0
  merchantId := merchantId
  action := action
  details := details
  timestamp := env.utcnow 0

/-- `log_action` -/
def logAction (env : Env) (merchantId action details : String) : Script Unit :=
  LogsCol.insertOne (newLogEntry env merchantId action details)

/-- What `.sort("timestamp", -1)` may be: the entries in descending order of time, ties
resolved in any way. -/
structure LogSort where
  sort : List LogEntry → List LogEntry
  perm : ∀ logs, (sort logs).Perm logs
  descending : ∀ logs, (sort logs).Pairwise fun l l' => l'.timestamp ≤ l.timestamp

/-- Ties in the order of the collection. -/
def LogSort.stable : LogSort where
  sort logs := logs.insertionSort fun l l' => l'.timestamp ≤ l.timestamp
  perm logs := logs.perm_insertionSort _
  descending logs := by
    have : Std.Total fun l l' : LogEntry => l'.timestamp ≤ l.timestamp :=
      ⟨fun l l' => le_total _ _⟩
    have : IsTrans LogEntry fun l l' => l'.timestamp ≤ l.timestamp :=
      ⟨fun l l' l'' h h' => h'.trans h⟩
    exact logs.pairwise_insertionSort _

/-- `.limit(n)`; a limit of zero is none. -/
def limited {α : Type} (n : ℕ) (l : List α) : List α := if n = 0 then l else l.take n

/-- `get_logs` -/
def getLogs (order : LogSort) (merchantId : String) (limit : ℕ) :
    Script (List (LogDoc String)) := do
  let logs ← LogsCol.find ⟨merchantId⟩
  return (limited limit (order.sort logs)).map LogDoc.withStrId

/-- The limit of `get_logs` where none is given. -/
def defaultLimit : ℕ := 100

/-- `clear_logs` -/
def clearLogs (merchantId : String) : Script Unit := do
  let _ ← LogsCol.deleteMany ⟨merchantId⟩
  return ()

section Run

variable {ι : Type} [DecidableEq ι] (i : ι) (site : Site ι)

theorem run_logAction (env : Env) (m action details : String) :
    run (execPage i) (logAction env m action details) site =
      match site.logs.insertOne (newLogEntry env m action details) with
      | some L => (.ok (), { site with logs := L })
      | none => (.error (.database .duplicateKeyError), site) :=
  run_logs_insertOne i site _

theorem run_getLogs (order : LogSort) (m : String) (limit : ℕ) :
    run (execPage i) (getLogs order m limit) site =
      (.ok ((limited limit (order.sort (site.logs.find (⟨m⟩ : LogQuery)))).map LogDoc.withStrId),
        site) := rfl

theorem run_clearLogs (m : String) :
    run (execPage i) (clearLogs m) site =
      (.ok (), { site with logs := site.logs.deleteMany (⟨m⟩ : LogQuery) }) := rfl

end Run

/-! ### Histories -/

/-- The calls on the log. -/
inductive LogCall
  | log (env : Env) (merchantId action details : String)
  | clear (merchantId : String)

namespace LogCall

/-- The program of a call. -/
def code : LogCall → Script Unit
  | .log env m action details => logAction env m action details
  | .clear m => clearLogs m

/-- The identifier the database generates for a call. -/
def issued : LogCall → List ObjectId
  | .log env _ _ _ => [env.objectId 0]
  | .clear _ => []

/-- What a call leaves of the log; where its identifier is taken, nothing is inserted. -/
def apply (logs : Logs) : LogCall → Logs
  | .log env m action details => (logs.insertOne (newLogEntry env m action details)).getD logs
  | .clear m => logs.deleteMany (⟨m⟩ : LogQuery)

end LogCall

/-- The site after a call of a session. -/
def stepLog {ι : Type} [DecidableEq ι] (site : Site ι) (c : ι × LogCall) : Site ι :=
  (run (execPage c.1) c.2.code site).2

theorem logs_stepLog {ι : Type} [DecidableEq ι] (site : Site ι) (c : ι × LogCall) :
    (stepLog site c).logs = c.2.apply site.logs := by
  obtain ⟨i, ⟨env, m, action, details⟩ | m⟩ := c
  · rw [stepLog, LogCall.code, run_logAction, LogCall.apply]
    cases site.logs.insertOne (newLogEntry env m action details) <;> rfl
  · rfl

/-- What the page shows of an entry. -/
structure Activity where
  timestamp : Time
  action : String
  details : String
  deriving DecidableEq

def LogDoc.activity {ι : Type} (l : LogDoc ι) : Activity := ⟨l.timestamp, l.action, l.details⟩

/-- What a call adds to the history of the merchant `m`, or leaves of it. -/
def LogCall.extend (m : String) (acts : List Activity) : LogCall → List Activity
  | .log env m' action details =>
    if m' = m then acts ++ [⟨env.utcnow 0, action, details⟩] else acts
  | .clear m' => if m' = m then [] else acts

/-- What the merchant `m` did since it last cleared its log, oldest first. -/
def history (m : String) (calls : List LogCall) : List Activity :=
  calls.foldl (LogCall.extend m) []

/-- Of the activities `acts`, the `n` newest are shown, newest first; with `n = 0` all. -/
structure Newest (n : ℕ) (acts shown : List Activity) : Prop where
  descending : shown.Pairwise fun a a' => a'.timestamp ≤ a.timestamp
  rest : ∃ rest, (shown ++ rest).Perm acts ∧
    ∀ a ∈ shown, ∀ b ∈ rest, b.timestamp ≤ a.timestamp
  length : shown.length = if n = 0 then acts.length else min n acts.length

section History

variable {ι : Type} [DecidableEq ι] {site : Site ι} {m : String}

/-- The activities stored of a merchant, in the order of the collection. -/
def Logs.activities (m : String) (logs : Logs) : List Activity :=
  (logs.find (⟨m⟩ : LogQuery)).map LogDoc.activity

theorem activities_insertOne {logs logs' : Logs} {l : LogEntry}
    (h : logs.insertOne l = some logs') :
    Logs.activities m logs' =
      Logs.activities m logs ++ if l.merchantId = m then [l.activity] else [] := by
  rw [Logs.activities, Collection.find, docs_insertOne h, List.filter_append, List.map_append]
  congr 1
  by_cases hm : l.merchantId = m
  · simp [hm]
  · simp [hm]

/-- Clearing the log of a merchant leaves the entries of another. -/
theorem find_deleteMany_of_ne {m' : String} (h : m' ≠ m) (logs : Logs) :
    (logs.deleteMany (⟨m'⟩ : LogQuery)).find (⟨m⟩ : LogQuery) = logs.find (⟨m⟩ : LogQuery) := by
  rw [Collection.find, docs_deleteMany, List.filter_filter]
  refine List.filter_congr fun l _ => ?_
  rw [Bool.and_eq_left_iff_imp, test_logQuery, Bool.not_eq_true', Bool.eq_false_iff, Ne,
    test_logQuery]
  intro hm hm'
  exact h (hm'.symm.trans hm)

theorem activities_deleteMany (m' : String) (logs : Logs) :
    Logs.activities m (logs.deleteMany (⟨m'⟩ : LogQuery)) =
      if m' = m then [] else Logs.activities m logs := by
  split
  · next h =>
    subst h
    rw [Logs.activities, Collection.find, docs_deleteMany, List.filter_filter]
    simp
  · next h => rw [Logs.activities, find_deleteMany_of_ne h, Logs.activities]

/-- What one call does to the activities stored of a merchant. -/
theorem activities_apply {c : LogCall} {logs : Logs}
    (hfresh : ∀ oid ∈ c.issued, ∀ l ∈ logs.docs, l.id ≠ oid) :
    Logs.activities m (c.apply logs) = c.extend m (Logs.activities m logs) := by
  cases c with
  | log env m' action details =>
    rw [LogCall.apply]
    cases hinsert : logs.insertOne (newLogEntry env m' action details) with
    | none =>
      obtain ⟨l, hl, hid⟩ := insertOne_eq_none.mp hinsert
      exact absurd hid (hfresh _ List.mem_cons_self l hl)
    | some logs' =>
      rw [Option.getD_some, activities_insertOne hinsert, LogCall.extend]
      by_cases hm : m' = m
      · rw [if_pos hm]
        exact congrArg _ (if_pos hm)
      · rw [if_neg hm]
        exact (congrArg _ (if_neg hm)).trans (List.append_nil _)
  | clear m' => rw [LogCall.apply, activities_deleteMany, LogCall.extend]

/-- The entries after a call: those before it, and one with the identifier issued. -/
theorem mem_apply {c : LogCall} {logs : Logs} {l : LogEntry} (hl : l ∈ (c.apply logs).docs) :
    l ∈ logs.docs ∨ l.id ∈ c.issued := by
  cases c with
  | log env m' action details =>
    rw [LogCall.apply] at hl
    cases hinsert : logs.insertOne (newLogEntry env m' action details) with
    | none =>
      rw [hinsert] at hl
      exact .inl hl
    | some logs' =>
      rw [hinsert, Option.getD_some, docs_insertOne hinsert, List.mem_append,
        List.mem_singleton] at hl
      rcases hl with hl | rfl
      · exact .inl hl
      · exact .inr List.mem_cons_self
  | clear m' => exact .inl (mem_deleteMany.mp hl).1

/-- **The entries stored of a merchant are its history**, whoever else uses the log. -/
theorem activities_after {calls : List (ι × LogCall)}
    (hids : (calls.flatMap fun c => c.2.issued).Nodup)
    (hfresh : ∀ oid ∈ calls.flatMap fun c => c.2.issued, ∀ l ∈ site.logs.docs, l.id ≠ oid) :
    Logs.activities m (after stepLog site calls).logs =
      (calls.map Prod.snd).foldl (LogCall.extend m) (Logs.activities m site.logs) := by
  induction calls generalizing site with
  | nil => rfl
  | cons c calls ih =>
    rw [List.flatMap_cons, List.nodup_append] at hids
    obtain ⟨-, hrest, hdisjoint⟩ := hids
    have hhead : ∀ oid ∈ c.2.issued, ∀ l ∈ site.logs.docs, l.id ≠ oid := fun oid hoid =>
      hfresh oid (List.mem_append_left _ hoid)
    rw [after_cons, ih hrest, logs_stepLog, activities_apply hhead, List.map_cons,
      List.foldl_cons]
    intro oid hoid l hl hid
    rw [logs_stepLog] at hl
    rcases mem_apply hl with hold | hnew
    · exact hfresh oid (List.mem_append_right _ hoid) l hold hid
    · exact hdisjoint l.id hnew oid hoid hid

/-- A list in descending order that is a permutation of one in strictly ascending order is
that one, reversed. -/
theorem eq_reverse_of_perm {acts acts' : List Activity} (hperm : acts'.Perm acts)
    (hdesc : acts'.Pairwise fun a a' => a'.timestamp ≤ a.timestamp)
    (hasc : acts.Pairwise fun a a' => a.timestamp < a'.timestamp) : acts' = acts.reverse := by
  have hreverse : acts.reverse.Pairwise fun a a' => a'.timestamp ≤ a.timestamp :=
    List.pairwise_reverse.mpr (hasc.imp fun h => h.le)
  refine (hperm.trans acts.reverse_perm.symm).eq_of_pairwise (fun a a' ha ha' h h' => ?_) hdesc
    hreverse
  -- two activities of one moment are one
  by_contra hne
  have : Std.Symm fun a a' : Activity => a.timestamp ≠ a'.timestamp := ⟨fun a a' h => h.symm⟩
  have hinj : acts.Pairwise fun a a' => a.timestamp ≠ a'.timestamp :=
    hasc.imp fun h => ne_of_lt h
  exact hinj.forall (hperm.mem_iff.mp ha) (List.mem_reverse.mp ha') hne (le_antisymm h' h)

theorem limited_append_rest {α : Type} (n : ℕ) (l : List α) :
    ∃ rest, limited n l ++ rest = l := by
  unfold limited
  split
  · exact ⟨[], List.append_nil l⟩
  · exact ⟨l.drop n, List.take_append_drop n l⟩

theorem length_limited {α : Type} (n : ℕ) (l : List α) :
    (limited n l).length = if n = 0 then l.length else min n l.length := by
  unfold limited
  split
  · rfl
  · exact List.length_take

/-- The first entries of a list in descending order are the newest. -/
theorem newest_limited {acts sorted : List Activity} (n : ℕ) (hperm : sorted.Perm acts)
    (hdesc : sorted.Pairwise fun a a' => a'.timestamp ≤ a.timestamp) :
    Newest n acts (limited n sorted) := by
  obtain ⟨rest, hrest⟩ := limited_append_rest n sorted
  have hsplit := hdesc
  rw [← hrest, List.pairwise_append] at hsplit
  refine ⟨hsplit.1, ⟨rest, by rw [hrest]; exact hperm, hsplit.2.2⟩, ?_⟩
  rw [length_limited, hperm.length_eq]

/-- **What the activity page shows a merchant**: whatever calls on the log any sessions have
made, for this merchant and for others, the page shows the newest entries of the merchant's
own history, however the database resolves ties; where no two of them are of the same moment
and the clock has not gone back, it shows the history from its end. -/
theorem getLogs_history {calls : List (ι × LogCall)} (hsite : site.logs = .empty)
    (hids : (calls.flatMap fun c => c.2.issued).Nodup) (order : LogSort) (j : ι) (m : String)
    (n : ℕ) :
    ∃ shown, run (execPage j) (getLogs order m n) (after stepLog site calls) =
        (.ok shown, after stepLog site calls) ∧
      Newest n (history m (calls.map Prod.snd)) (shown.map LogDoc.activity) ∧
      ((history m (calls.map Prod.snd)).Pairwise (fun a a' => a.timestamp < a'.timestamp) →
        shown.map LogDoc.activity = limited n (history m (calls.map Prod.snd)).reverse) := by
  have hstored : Logs.activities m (after stepLog site calls).logs =
      history m (calls.map Prod.snd) := by
    rw [activities_after hids, hsite]
    · rfl
    · intro oid hoid l hl
      rw [hsite] at hl
      exact absurd hl List.not_mem_nil
  rw [run_getLogs]
  generalize (after stepLog site calls).logs = logs at hstored
  have hperm : ((order.sort (logs.find (⟨m⟩ : LogQuery))).map LogDoc.activity).Perm
      (history m (calls.map Prod.snd)) := by
    rw [← hstored]
    exact (order.perm _).map _
  have hdesc : ((order.sort (logs.find (⟨m⟩ : LogQuery))).map LogDoc.activity).Pairwise
      fun a a' => a'.timestamp ≤ a.timestamp :=
    List.pairwise_map.mpr (order.descending _)
  have hshown : ((limited n (order.sort (logs.find (⟨m⟩ : LogQuery)))).map
      LogDoc.withStrId).map LogDoc.activity =
        limited n ((order.sort (logs.find (⟨m⟩ : LogQuery))).map LogDoc.activity) := by
    rw [List.map_map]
    unfold limited
    split
    · rfl
    · exact List.map_take
  refine ⟨_, rfl, ?_, fun hasc => ?_⟩
  · rw [hshown]
    exact newest_limited n hperm hdesc
  · rw [hshown, eq_reverse_of_perm hperm hdesc hasc]

end History

/-- Two merchants log and clear. -/
def sampleLogCalls : List (Unit × LogCall) :=
  [((), .log (.sample 1 10) "m" "LOGIN" ""), ((), .log (.sample 2 20) "n" "LOGIN" ""),
    ((), .log (.sample 3 30) "m" "LOGOUT" ""), ((), .clear "n")]

/-- The first of them is shown its two actions. -/
theorem getLogs_history_sample :
    let site := after stepLog (Site.start fun _ => .failure "timed out") sampleLogCalls
    ∃ shown, run (execPage ()) (getLogs .stable "m" 100) site = (.ok shown, site) ∧
      Newest 100 [⟨10, "LOGIN", ""⟩, ⟨30, "LOGOUT", ""⟩] (shown.map LogDoc.activity) ∧
      ([⟨10, "LOGIN", ""⟩, ⟨30, "LOGOUT", ""⟩].Pairwise
          (fun a a' : Activity => a.timestamp < a'.timestamp) →
        shown.map LogDoc.activity = [⟨30, "LOGOUT", ""⟩, ⟨10, "LOGIN", ""⟩]) :=
  @getLogs_history Unit _ (Site.start fun _ => .failure "timed out") sampleLogCalls rfl
    (by decide) .stable () "m" 100

end DigitalLedger
