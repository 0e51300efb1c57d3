import DigitalLedger.Dashboard
import DigitalLedger.Dates
import DigitalLedger.World

/-!
# The monthly trend

`get_monthly_trend_df` regroups what `get_monthly_summary` returns: one document for each
year, month and type becomes one row for each month, found by the text of the month, with a
cell for each type.  A cell is assigned, not added to, and the rows are sorted at the end by
the month itself.  No amount is lost or counted twice, in whatever order the documents of a
month arrive.

## Main definitions

* `MonthOrder` — an aggregation, with the documents of a month in any order.
* `getMonthlyTrendDf` — the frame of the chart.
* `rowOf` — the row of a month, read off the transactions.

## Main results

* `strftime_inj` — a month is found by its text.
* `collectRows_eq`, `cellsOf_eq` — the loop over the documents; where each cell is assigned
  once, assigning is adding.
* `trend_conserves` — the rows are the months in order, and the columns add up to the totals
  of the dashboard.
-/

namespace DigitalLedger

open Prog

/-! ### The source -/

/-- A year and a month. -/
abbrev YearMonth := ℤ × ℤ

/-- The order of months. -/
def YearMonth.Le (a b : YearMonth) : Prop := a.1 < b.1 ∨ (a.1 = b.1 ∧ a.2 ≤ b.2)

/-- The strict order of months. -/
def YearMonth.Lt (a b : YearMonth) : Prop := a.1 < b.1 ∨ (a.1 = b.1 ∧ a.2 < b.2)

instance : DecidableRel YearMonth.Le := fun _ _ => inferInstanceAs (Decidable (_ ∨ _))

/-- The month of a document of the aggregation. -/
def MonthlyTotal.yearMonth (g : MonthlyTotal) : YearMonth := (g.year, g.month)

/-- The month of a transaction. -/
def TransactionDoc.yearMonth (t : Transaction) : YearMonth := (yearOf t.date, monthOf t.date)

/-- What the pipeline of `get_monthly_summary` may return: the documents of the `$group`
stage, in ascending order of year and month, and within a month in any order. -/
structure MonthOrder where
  aggregate : List Transaction → List MonthlyTotal
  perm : ∀ txns, (aggregate txns).Perm (groupByMonth txns)
  ascending : ∀ txns, (aggregate txns).Pairwise fun g g' => g.yearMonth.Le g'.yearMonth

/-- `get_monthly_summary`, over an aggregation. -/
def getMonthlySummaryBy (order : MonthOrder) (merchantId : String) : Db (List MonthlyTotal) := do
  let txns ← TransactionsCol.find { merchantId := some merchantId }
  return order.aggregate txns

/-- `datetime(year, month, 1)` -/
def firstOfMonth (year month : ℤ) : App YearMonth :=
  if ¬(1 ≤ year ∧ year ≤ 9999) then .raise (.valueError s!"year {year} is out of range")
  else if ¬(1 ≤ month ∧ month ≤ 12) then .raise (.valueError "month must be in 1..12")
  else .ret (year, month)

/-- What `%b` writes for each of the months. -/
def monthNames : List String :=
  ["Jan", "Feb", "Mar", "Apr", "May", "Jun", "Jul", "Aug", "Sep", "Oct", "Nov", "Dec"]

/-- `strftime("%b %Y")` -/
def strftime (first : YearMonth) : String :=
  let name := monthNames.getD (first.2 - 1).toNat ""
  let year := toString first.1.toNat
  s!"{name} {year}"

/-- A value of the dictionary `rows`. -/
structure TrendEntry where
  month : String
  credit : ℚ
  payment : ℚ
  sortKey : YearMonth

/-- `rows[key] = {...}`, if `key not in rows`.  The dictionary is the list of its values,
each of which carries its key. -/
def ensureRow (rows : List TrendEntry) (first : YearMonth) : List TrendEntry :=
  let key := strftime first
  if rows.any fun e => e.month == key then rows else rows ++ [⟨key, 0, 0, first⟩]

/-- `row[type] = total` -/
def TrendEntry.assign (type : TxnType) (total : ℚ) (e : TrendEntry) : TrendEntry :=
  match type with
  | .credit => { e with credit := total }
  | .payment => { e with payment := total }

/-- `rows[key][type] = total` -/
def assignCell (key : String) (type : TxnType) (total : ℚ) (rows : List TrendEntry) :
    List TrendEntry :=
  rows.map fun e => if e.month = key then e.assign type total else e

/-- The loop of `get_monthly_trend_df` over the documents of the summary. -/
def collectRows : List TrendEntry → List MonthlyTotal → App (List TrendEntry)
  | rows, [] => .ret rows
  | rows, r :: raw => do
    let first ← firstOfMonth r.year r.month
    collectRows (assignCell (strftime first) r.type r.total (ensureRow rows first)) raw

/-- A row of the data frame. -/
structure TrendRow where
  month : String
  credit : ℚ
  payment : ℚ
  deriving DecidableEq

/-- The entry without its column `sort_key`. -/
def TrendEntry.row (e : TrendEntry) : TrendRow := ⟨e.month, e.credit, e.payment⟩

/-- `get_monthly_trend_df` -/
def getMonthlyTrendDf (order : MonthOrder) (merchantId : String) : App (List TrendRow) := do
  let raw ← App.ofDb (getMonthlySummaryBy order merchantId)
  if raw.isEmpty then return []
  else
    let rows ← collectRows [] raw
    return (rows.insertionSort fun e e' => e.sortKey.Le e'.sortKey).map TrendEntry.row

/-! ### Months and their texts -/

/-- A month a `datetime` can lie in. -/
structure IsMonth (a : YearMonth) : Prop where
  year : 1 ≤ a.1 ∧ a.1 ≤ 9999
  month : 1 ≤ a.2 ∧ a.2 ≤ 12

theorem digits_injective {m n : ℕ} (h : Nat.toDigits 10 m = Nat.toDigits 10 n) : m = n := by
  have hm := Nat.ofDigitChars_toDigits (n := m) (by decide : 1 < 10) (by decide : 10 ≤ 10)
  have hn := Nat.ofDigitChars_toDigits (n := n) (by decide : 1 < 10) (by decide : 10 ≤ 10)
  rw [← hm, h, hn]

/-- The text of a month, by its characters. -/
theorem toList_strftime (a : YearMonth) :
    (strftime a).toList = (monthNames.getD (a.2 - 1).toNat "").toList ++
      ' ' :: Nat.toDigits 10 a.1.toNat := by
  have htext : strftime a =
      monthNames.getD (a.2 - 1).toNat "" ++ " " ++ Nat.repr a.1.toNat := rfl
  rw [htext, String.toList_append, String.toList_append, List.append_assoc, Nat.toList_repr]
  rfl

theorem monthName_length {i : ℕ} (hi : i < 12) : (monthNames.getD i "").toList.length = 3 := by
  have hall : ∀ j : Fin 12, (monthNames.getD j.val "").toList.length = 3 := by decide
  exact hall ⟨i, hi⟩

theorem monthName_inj {i j : ℕ} (hi : i < 12) (hj : j < 12)
    (h : monthNames.getD i "" = monthNames.getD j "") : i = j := by
  have hall : ∀ j k : Fin 12, monthNames.getD j.val "" = monthNames.getD k.val "" → j = k := by
    decide
  exact congrArg Fin.val (hall ⟨i, hi⟩ ⟨j, hj⟩ h)

/-- **A month is found by its text.** -/
theorem strftime_inj {a b : YearMonth} (ha : IsMonth a) (hb : IsMonth b) :
    strftime a = strftime b ↔ a = b := by
  refine ⟨fun h => ?_, congrArg strftime⟩
  have ha' := ha.month
  have hb' := hb.month
  have hlist := congrArg String.toList h
  rw [toList_strftime, toList_strftime] at hlist
  have hi : (a.2 - 1).toNat < 12 := by omega
  have hj : (b.2 - 1).toNat < 12 := by omega
  obtain ⟨hname, hrest⟩ := List.append_inj hlist
    ((monthName_length hi).trans (monthName_length hj).symm)
  have hmonth := monthName_inj hi hj (String.toList_inj.1 hname)
  have hyear := digits_injective (List.cons.inj hrest).2
  have ha'' := ha.year
  have hb'' := hb.year
  exact Prod.ext (by omega) (by omega)

example : strftime (2026, 1) = "Jan 2026" := by decide

theorem firstOfMonth_eq {year month : ℤ} (h : IsMonth (year, month)) :
    firstOfMonth year month = .ret (year, month) := by
  rw [firstOfMonth, if_neg (not_not.2 h.year), if_neg (not_not.2 h.month)]

/-! ### The loop -/

/-- The entry of a month, by the figures of the cells. -/
def entryOf (cells : YearMonth → TxnType → ℚ) (ym : YearMonth) : TrendEntry :=
  ⟨strftime ym, cells ym .credit, cells ym .payment, ym⟩

/-- The keys once a row for the month is ensured. -/
def insertKey (keys : List YearMonth) (ym : YearMonth) : List YearMonth :=
  if ym ∈ keys then keys else keys ++ [ym]

/-- The cells once one of them is assigned. -/
def assignAt (cells : YearMonth → TxnType → ℚ) (g : MonthlyTotal) : YearMonth → TxnType → ℚ :=
  fun ym type => if ym = g.yearMonth ∧ type = g.type then g.total else cells ym type

section Loop

variable {keys : List YearMonth} {cells : YearMonth → TxnType → ℚ} {ym : YearMonth}

/-- A new row has empty cells. -/
theorem ensureRow_eq (hkeys : ∀ k ∈ keys, IsMonth k) (hym : IsMonth ym)
    (hzero : ∀ k ∉ keys, ∀ type, cells k type = 0) :
    ensureRow (keys.map (entryOf cells)) ym = (insertKey keys ym).map (entryOf cells) := by
  have hany : ((keys.map (entryOf cells)).any fun e => e.month == strftime ym) = true ↔
      ym ∈ keys := by
    rw [List.any_map, List.any_eq_true]
    constructor
    · rintro ⟨k, hk, heq⟩
      rwa [← (strftime_inj (hkeys k hk) hym).1 (beq_iff_eq.1 heq)]
    · exact fun hmem => ⟨ym, hmem, beq_self_eq_true _⟩
  rw [ensureRow, insertKey]
  by_cases hmem : ym ∈ keys
  · rw [if_pos (hany.2 hmem), if_pos hmem]
  · rw [if_neg (mt hany.1 hmem), if_neg hmem, List.map_append, List.map_singleton, entryOf,
      hzero ym hmem .credit, hzero ym hmem .payment]

/-- An assignment finds the row of its month and no other. -/
theorem assignCell_eq (hkeys : ∀ k ∈ keys, IsMonth k) (g : MonthlyTotal)
    (hg : IsMonth g.yearMonth) :
    assignCell (strftime g.yearMonth) g.type g.total (keys.map (entryOf cells)) =
      keys.map (entryOf (assignAt cells g)) := by
  rw [assignCell, List.map_map]
  refine List.map_congr_left fun k hk => ?_
  rw [Function.comp_apply]
  have hkey : (entryOf cells k).month = strftime g.yearMonth ↔ k = g.yearMonth :=
    strftime_inj (hkeys k hk) hg
  by_cases hkg : k = g.yearMonth
  · rw [if_pos (hkey.2 hkg)]
    subst hkg
    cases htype : g.type with
    | credit => simp [entryOf, assignAt, TrendEntry.assign, htype]
    | payment => simp [entryOf, assignAt, TrendEntry.assign, htype]
  · rw [if_neg (mt hkey.1 hkg)]
    simp [entryOf, assignAt, hkg]

theorem mem_insertKey {k : YearMonth} : k ∈ insertKey keys ym ↔ k ∈ keys ∨ k = ym := by
  rw [insertKey]
  split_ifs with hmem
  · exact (or_iff_left_of_imp fun h => h ▸ hmem).symm
  · rw [List.mem_append, List.mem_singleton]

theorem nodup_insertKey (h : keys.Nodup) : (insertKey keys ym).Nodup := by
  rw [insertKey]
  split_ifs with hmem
  · exact h
  · refine List.nodup_append.2 ⟨h, List.nodup_singleton ym, fun k hk k' hk' hkk' => hmem ?_⟩
    rw [List.mem_singleton] at hk'
    rwa [← hk', ← hkk']

/-- The keys once the documents are read. -/
def keysOf (keys : List YearMonth) (raw : List MonthlyTotal) : List YearMonth :=
  raw.foldl (fun keys g => insertKey keys g.yearMonth) keys

/-- The cells once the documents are read. -/
def cellsOf (cells : YearMonth → TxnType → ℚ) (raw : List MonthlyTotal) :
    YearMonth → TxnType → ℚ := raw.foldl assignAt cells

/-- **The loop over the documents.** -/
theorem collectRows_eq {raw : List MonthlyTotal} (hraw : ∀ g ∈ raw, IsMonth g.yearMonth)
    (hkeys : ∀ k ∈ keys, IsMonth k) (hzero : ∀ k ∉ keys, ∀ type, cells k type = 0) :
    collectRows (keys.map (entryOf cells)) raw =
      .ret ((keysOf keys raw).map (entryOf (cellsOf cells raw))) := by
  induction raw generalizing keys cells with
  | nil => rfl
  | cons g raw ih =>
    obtain ⟨hg, hrest⟩ := List.forall_mem_cons.1 hraw
    have hfirst : firstOfMonth g.year g.month = .ret g.yearMonth := firstOfMonth_eq hg
    have hkeys' : ∀ k ∈ insertKey keys g.yearMonth, IsMonth k := by
      intro k hk
      rcases mem_insertKey.1 hk with hold | rfl
      · exact hkeys k hold
      · exact hg
    have hzero' : ∀ k ∉ insertKey keys g.yearMonth, ∀ type, assignAt cells g k type = 0 := by
      intro k hk type
      obtain ⟨hold, hne⟩ := not_or.1 (mt mem_insertKey.2 hk)
      rw [assignAt, if_neg fun h => hne h.1]
      exact hzero k hold type
    rw [collectRows, hfirst, ret_bind, ensureRow_eq hkeys hg hzero, assignCell_eq hkeys' g hg,
      ih hrest hkeys' hzero']
    rfl

theorem mem_keysOf {k : YearMonth} {raw : List MonthlyTotal} :
    k ∈ keysOf keys raw ↔ k ∈ keys ∨ k ∈ raw.map MonthlyTotal.yearMonth := by
  induction raw generalizing keys with
  | nil => simp [keysOf]
  | cons g raw ih =>
    rw [keysOf, List.foldl_cons, ← keysOf, ih, mem_insertKey, List.map_cons, List.mem_cons,
      or_assoc]

theorem nodup_keysOf (h : keys.Nodup) (raw : List MonthlyTotal) : (keysOf keys raw).Nodup := by
  induction raw generalizing keys with
  | nil => exact h
  | cons g raw ih => exact ih (nodup_insertKey h)

/-- What the documents have in a cell. -/
def cellTotal (raw : List MonthlyTotal) (ym : YearMonth) (type : TxnType) : ℚ :=
  ((raw.filter fun g => decide (ym = g.yearMonth ∧ type = g.type)).map MonthlyTotal.total).sum

/-- **Assigning is adding** where each cell is assigned once. -/
theorem cellsOf_eq {raw : List MonthlyTotal}
    (hnodup : (raw.map fun g => (g.yearMonth, g.type)).Nodup)
    (hzero : ∀ g ∈ raw, cells g.yearMonth g.type = 0) (ym : YearMonth) (type : TxnType) :
    cellsOf cells raw ym type = cells ym type + cellTotal raw ym type := by
  induction raw generalizing cells with
  | nil => exact (add_zero _).symm
  | cons g raw ih =>
    obtain ⟨hfresh, hnodup⟩ := List.nodup_cons.1 hnodup
    obtain ⟨hg, hrest⟩ := List.forall_mem_cons.1 hzero
    have hzero' : ∀ g' ∈ raw, assignAt cells g g'.yearMonth g'.type = 0 := by
      intro g' hg'
      rw [assignAt, if_neg, hrest g' hg']
      rintro ⟨hmonth, htype⟩
      refine hfresh (List.mem_map.2 ⟨g', hg', ?_⟩)
      rw [hmonth, htype]
    have hcells : cellsOf cells (g :: raw) = cellsOf (assignAt cells g) raw := rfl
    rw [hcells, ih hnodup hzero', assignAt, cellTotal, cellTotal]
    by_cases hcell : ym = g.yearMonth ∧ type = g.type
    · rw [if_pos hcell, List.filter_cons_of_pos (by simpa using hcell), List.map_cons,
        List.sum_cons, hcell.1, hcell.2, hg, zero_add]
    · rw [if_neg hcell, List.filter_cons_of_neg (by simpa using hcell)]

end Loop

/-! ### The summary -/

theorem cellTotal_perm {raw raw' : List MonthlyTotal} (h : raw.Perm raw') (ym : YearMonth)
    (type : TxnType) : cellTotal raw ym type = cellTotal raw' ym type :=
  ((h.filter _).map _).sum_eq

/-- The groups are distinct. -/
theorem nodup_groupByMonth (txns : List Transaction) :
    ((groupByMonth txns).map fun g => (g.yearMonth, g.type)).Nodup := by
  rw [groupByMonth, List.map_map]
  refine (List.nodup_dedup _).map ?_
  rintro ⟨year, month, type⟩ ⟨year', month', type'⟩ h
  simpa [MonthlyTotal.yearMonth, and_assoc] using h

/-- The months of the groups are those of the transactions. -/
theorem mem_months_groupByMonth {txns : List Transaction} {ym : YearMonth} :
    ym ∈ (groupByMonth txns).map MonthlyTotal.yearMonth ↔ ∃ t ∈ txns, t.yearMonth = ym := by
  rw [groupByMonth, List.map_map, List.mem_map]
  constructor
  · rintro ⟨g, hg, rfl⟩
    obtain ⟨t, ht, rfl⟩ := List.mem_map.1 (List.mem_dedup.1 hg)
    exact ⟨t, ht, rfl⟩
  · rintro ⟨t, ht, rfl⟩
    exact ⟨groupOf t, List.mem_dedup.2 (List.mem_map_of_mem ht), rfl⟩

/-- What the transactions of a type and a month amount to. -/
def monthAmount (type : TxnType) (txns : List Transaction) (ym : YearMonth) : ℚ :=
  sumAmounts ((ofType type txns).filter fun t => t.yearMonth = ym)

theorem groupOf_eq_iff {t : Transaction} {ym : YearMonth} {type : TxnType} :
    groupOf t = (ym.1, ym.2, type) ↔ t.yearMonth = ym ∧ t.type = type := by
  rw [groupOf, TransactionDoc.yearMonth, Prod.mk.injEq, Prod.mk.injEq, ← and_assoc, Prod.ext_iff]

theorem monthAmount_eq (type : TxnType) (txns : List Transaction) (ym : YearMonth) :
    monthAmount type txns ym =
      sumAmounts (txns.filter fun t => groupOf t = (ym.1, ym.2, type)) := by
  rw [monthAmount, ofType, List.filter_filter]
  refine congrArg sumAmounts (List.filter_congr fun t _ => ?_)
  rw [← Bool.decide_and, decide_eq_decide, groupOf_eq_iff]

/-- What the groups have in a cell. -/
theorem cellTotal_groupByMonth (txns : List Transaction) (ym : YearMonth) (type : TxnType) :
    cellTotal (groupByMonth txns) ym type = monthAmount type txns ym := by
  have hgroup : (groupByMonth txns).filter
        (fun g => decide (ym = g.yearMonth ∧ type = g.type)) =
      ((txns.map groupOf).dedup.filter fun k => decide (k = (ym.1, ym.2, type))).map fun k =>
        ⟨k.1, k.2.1, k.2.2, sumAmounts (txns.filter fun t => groupOf t = k)⟩ := by
    rw [groupByMonth, List.filter_map]
    refine congrArg (List.map _) (List.filter_congr fun k _ => ?_)
    rw [Function.comp_apply, decide_eq_decide, MonthlyTotal.yearMonth]
    constructor
    · rintro ⟨rfl, rfl⟩
      rfl
    · rintro rfl
      exact ⟨rfl, rfl⟩
  rw [cellTotal, hgroup, List.filter_eq, monthAmount_eq]
  by_cases hmem : (ym.1, ym.2, type) ∈ txns.map groupOf
  · rw [List.count_eq_one_of_mem (List.nodup_dedup _) (List.mem_dedup.2 hmem), List.replicate_one,
      List.map_singleton, List.map_singleton, List.sum_singleton]
  · -- no transaction is in the group
    rw [List.count_eq_zero.2 (mt List.mem_dedup.1 hmem), List.replicate_zero, List.map_nil,
      List.map_nil, List.sum_nil, List.filter_eq_nil_iff.2]
    · rfl
    · intro t ht hgroup
      exact hmem (List.mem_map.2 ⟨t, ht, of_decide_eq_true hgroup⟩)

/-! ### The rows -/

instance : Std.Total YearMonth.Le := ⟨fun a b => by
  rw [YearMonth.Le, YearMonth.Le]
  omega⟩

instance : IsTrans YearMonth YearMonth.Le := ⟨fun a b c hab hbc => by
  rw [YearMonth.Le] at hab hbc ⊢
  omega⟩

theorem YearMonth.Le.lt_of_ne {a b : YearMonth} (h : a.Le b) (hne : a ≠ b) : a.Lt b := by
  rcases h with h | ⟨h, h'⟩
  · exact .inl h
  · refine .inr ⟨h, lt_of_le_of_ne h' fun h'' => hne (Prod.ext h h'')⟩

theorem YearMonth.Lt.ne {a b : YearMonth} (h : a.Lt b) : a ≠ b := by
  rintro rfl
  rcases h with h | ⟨-, h⟩
  · exact lt_irrefl _ h
  · exact lt_irrefl _ h

/-- The documents in the order of the collection, sorted by month. -/
def MonthOrder.stable : MonthOrder where
  aggregate txns := (groupByMonth txns).insertionSort fun g g' => g.yearMonth.Le g'.yearMonth
  perm txns := List.perm_insertionSort _ _
  ascending txns := by
    have htotal : Std.Total fun g g' : MonthlyTotal => g.yearMonth.Le g'.yearMonth :=
      ⟨fun g g' => total_of YearMonth.Le g.yearMonth g'.yearMonth⟩
    have htrans : IsTrans MonthlyTotal fun g g' => g.yearMonth.Le g'.yearMonth :=
      ⟨fun g g' g'' => trans_of YearMonth.Le⟩
    exact List.pairwise_insertionSort _ _

theorem getMonthlySummaryBy_stable (m : String) :
    getMonthlySummaryBy .stable m = getMonthlySummary m := rfl

/-- The row of a month, read off the transactions. -/
def rowOf (txns : List Transaction) (ym : YearMonth) : TrendRow :=
  ⟨strftime ym, monthAmount .credit txns ym, monthAmount .payment txns ym⟩

/-- The amounts of the months add up. -/
theorem sum_monthAmount {months : List YearMonth} (hmonths : months.Nodup)
    {txns : List Transaction} (hmem : ∀ t ∈ txns, t.yearMonth ∈ months) (type : TxnType) :
    (months.map (monthAmount type txns)).sum = sumAmounts (ofType type txns) := by
  have hshare : monthAmount type txns = fun ym => ((ofType type txns).map
      (share (fun t : Transaction => some t.yearMonth) (fun t => t.amount) ym)).sum := by
    funext ym
    rw [Collection.sum_share, monthAmount, sumAmounts]
    simp only [Option.some.injEq]
  rw [hshare, Collection.sum_shares hmonths (p := fun _ => true), List.filter_true, sumAmounts]
  intro t ht
  exact iff_of_true rfl ⟨_, hmem t (List.mem_of_mem_filter ht), rfl⟩

section Aggregation

variable (order : MonthOrder) {txns : List Transaction}

/-- The months of the documents are those of the transactions. -/
theorem MonthOrder.mem_months {ym : YearMonth} :
    ym ∈ (order.aggregate txns).map MonthlyTotal.yearMonth ↔ ∃ t ∈ txns, t.yearMonth = ym := by
  rw [((order.perm txns).map _).mem_iff, mem_months_groupByMonth]

theorem MonthOrder.isMonth (hdates : ∀ t ∈ txns, IsDatetime t.date) :
    ∀ g ∈ order.aggregate txns, IsMonth g.yearMonth := by
  intro g hg
  obtain ⟨t, ht, hmonth⟩ := order.mem_months.1 (List.mem_map_of_mem hg)
  rw [← hmonth]
  exact ⟨hdates t ht, monthOf_mem t.date⟩

/-- The cells hold what the transactions of their type and month amount to. -/
theorem MonthOrder.cellsOf_eq (ym : YearMonth) (type : TxnType) :
    cellsOf (fun _ _ => 0) (order.aggregate txns) ym type = monthAmount type txns ym := by
  have hnodup : ((order.aggregate txns).map fun g => (g.yearMonth, g.type)).Nodup :=
    ((order.perm txns).map _).nodup_iff.2 (nodup_groupByMonth txns)
  rw [DigitalLedger.cellsOf_eq hnodup (fun _ _ => rfl), zero_add, cellTotal_perm (order.perm txns),
    cellTotal_groupByMonth]

theorem MonthOrder.row_entryOf :
    TrendEntry.row ∘ entryOf (cellsOf (fun _ _ => 0) (order.aggregate txns)) = rowOf txns := by
  funext ym
  rw [Function.comp_apply, entryOf, order.cellsOf_eq, order.cellsOf_eq]
  rfl

/-- The rows are sorted by their months. -/
theorem insertionSort_entryOf (cells : YearMonth → TxnType → ℚ) (keys : List YearMonth) :
    (keys.map (entryOf cells)).insertionSort (fun e e' => e.sortKey.Le e'.sortKey) =
      (keys.insertionSort YearMonth.Le).map (entryOf cells) :=
  (List.map_insertionSort YearMonth.Le (fun e e' => e.sortKey.Le e'.sortKey) (entryOf cells)
    keys fun _ _ _ _ => Iff.rfl).symm

theorem pairwise_sorted_keysOf (raw : List MonthlyTotal) :
    ((keysOf [] raw).insertionSort YearMonth.Le).Pairwise YearMonth.Lt := by
  have hdistinct : ((keysOf [] raw).insertionSort YearMonth.Le).Nodup :=
    (List.perm_insertionSort _ _).nodup_iff.2 (nodup_keysOf List.nodup_nil _)
  have hordered := List.pairwise_insertionSort YearMonth.Le (keysOf [] raw)
  exact (hordered.and hdistinct).imp fun h => h.1.lt_of_ne h.2

/-- **The rows over any aggregation**: the months of the transactions in order, each with the
amounts of its transactions. -/
theorem run_getMonthlyTrendDf (m : String) {w : World}
    (hdates : ∀ t ∈ w.ledger.transactionsBy m, IsDatetime t.date) :
    ∃ months : List YearMonth,
      run execApp (getMonthlyTrendDf order m) w =
        (.ok (months.map (rowOf (w.ledger.transactionsBy m))), w) ∧
      months.Pairwise YearMonth.Lt ∧
      ∀ ym, ym ∈ months ↔ ∃ t ∈ w.ledger.transactionsBy m, t.yearMonth = ym := by
  set txns := w.ledger.transactionsBy m
  have hraw : run execApp (App.ofDb (getMonthlySummaryBy order m)) w =
      (.ok (order.aggregate txns), w) := App.run_ofDb _ w
  have hrows : collectRows [] (order.aggregate txns) =
      .ret ((keysOf [] (order.aggregate txns)).map
        (entryOf (cellsOf (fun _ _ => 0) (order.aggregate txns)))) :=
    collectRows_eq (order.isMonth hdates) (fun _ h => absurd h List.not_mem_nil)
      fun _ _ _ => rfl
  refine ⟨(keysOf [] (order.aggregate txns)).insertionSort YearMonth.Le, ?_,
    pairwise_sorted_keysOf _, ?_⟩
  · rw [getMonthlyTrendDf, run_bind, hraw, andThen_ok]
    split_ifs with hempty
    · -- without transactions the frame is empty
      rw [List.isEmpty_iff.1 hempty]
      rfl
    · rw [hrows, ret_bind, insertionSort_entryOf, List.map_map, order.row_entryOf]
      rfl
  · intro ym
    rw [List.mem_insertionSort, mem_keysOf, order.mem_months]
    exact or_iff_right List.not_mem_nil

end Aggregation

/-- **The monthly trend conserves money and keeps time order**: after any sequence of calls by
a clock that reads datetimes, and over any aggregation, there is one row for each month with
transactions of the merchant, in the order of time, with what its credits and its payments
amount to; so the columns add up to the totals of the dashboard. -/
theorem trend_conserves {bcrypt : Bcrypt} {calls : List Call}
    (hclock : ∀ c ∈ calls, c.Clocked IsDatetime) (order : MonthOrder) (m : String) {w : World}
    (hw : w.ledger = execAll bcrypt calls .empty) :
    ∃ (months : List YearMonth) (rows : List TrendRow) (stats : SummaryStats),
      run execApp (getMonthlyTrendDf order m) w = (.ok rows, w) ∧
      run exec (getSummaryStats m) w.ledger = (.ok stats, w.ledger) ∧
      months.Pairwise YearMonth.Lt ∧
      (∀ ym, ym ∈ months ↔ ∃ t ∈ w.ledger.transactionsBy m, t.yearMonth = ym) ∧
      rows = months.map (rowOf (w.ledger.transactionsBy m)) ∧
      (rows.map TrendRow.credit).sum = stats.totalCredit ∧
      (rows.map TrendRow.payment).sum = stats.totalPayment := by
  have hdates : w.ledger.DatesIn IsDatetime := by
    rw [hw]
    exact dates_execAll hclock fun t ht => absurd ht List.not_mem_nil
  obtain ⟨months, hrun, hordered, hmonths⟩ := run_getMonthlyTrendDf order m
    fun t ht => hdates t (List.mem_of_mem_filter ht)
  have hnodup : months.Nodup := hordered.imp fun h => h.ne
  have hmem : ∀ t ∈ w.ledger.transactionsBy m, t.yearMonth ∈ months := fun t ht =>
    (hmonths _).2 ⟨t, ht, rfl⟩
  refine ⟨months, _, summaryOf (w.ledger.customersOf m) (w.ledger.transactionsBy m), hrun, rfl,
    hordered, hmonths, rfl, ?_, ?_⟩
  · rw [List.map_map]
    exact sum_monthAmount hnodup hmem .credit
  · rw [List.map_map]
    exact sum_monthAmount hnodup hmem .payment

/-- A world with the sample ledger, whose gateway cannot be reached. -/
def World.sampleLedger : World := ⟨sampleStore, .empty, fun _ => .failure "timed out", []⟩

/-- The trend of the sample ledger. -/
theorem trend_conserves_sample :
    ∃ (months : List YearMonth) (rows : List TrendRow) (stats : SummaryStats),
      run execApp (getMonthlyTrendDf .stable "m") .sampleLedger = (.ok rows, .sampleLedger) ∧
      run exec (getSummaryStats "m") sampleStore = (.ok stats, sampleStore) ∧
      months.Pairwise YearMonth.Lt ∧
      (∀ ym, ym ∈ months ↔ ∃ t ∈ sampleStore.transactionsBy "m", t.yearMonth = ym) ∧
      rows = months.map (rowOf (sampleStore.transactionsBy "m")) ∧
      (rows.map TrendRow.credit).sum = stats.totalCredit ∧
      (rows.map TrendRow.payment).sum = stats.totalPayment := by
  have hclock : ∀ c ∈ sampleCalls, c.Clocked IsDatetime := by
    intro c hc env henv n
    simp only [sampleCalls, List.mem_cons, List.not_mem_nil, or_false] at hc
    rcases hc with rfl | rfl | rfl
    · cases henv
      exact (by decide : IsDatetime 0)
    · cases henv
      exact (by decide : IsDatetime 0)
    · cases henv
      exact (by decide : IsDatetime 0)
  have hledger : World.sampleLedger.ledger = execAll markingBcrypt sampleCalls .empty := rfl
  exact trend_conserves hclock .stable "m" hledger

end DigitalLedger
