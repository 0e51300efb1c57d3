import DigitalLedger.Invoice
import Mathlib.Data.List.Chain
import Mathlib.Tactic.Linarith

/-!
# The layout of an invoice

The rows of an invoice run down its pages.  This module says where each row stands: a
layout places the rows on pages that are sound by construction, and the loop of
`generate_invoice` draws exactly this layout.  The summary that follows the rows tests for
no foot of the page, and falls off it for some numbers of rows.

## Main definitions

* `Placed`, `Page`, `Layout` — rows with their positions, pages of rows, and the pages the
  loop has filled.
* `Layout.place` — one more row.
* `Mark.OnPage` — a mark lies within its page.

## Main results

* `drawRows_eq` — the loop draws the layout.
* `invoice_rows_complete` — every row stands once, in order, and apart from the others.
* `invoice_on_page_iff` — the numbers of rows whose summary stays on the page.
-/

namespace DigitalLedger

/-! ### Pages of rows -/

/-- A row of the table, with its number and its position. -/
structure Placed where
  rowNum : ℕ
  txn : TransactionDoc String
  y : ℚ

/-- The rows of a page: above the foot, below the head, and 18 points from one to the
next. -/
structure Page where
  rows : List Placed
  inside : ∀ row ∈ rows, 80 ≤ row.y ∧ row.y ≤ pageHeight - 50
  spaced : rows.IsChain fun row next => next.y = row.y - 18

/-- The head of a page is above its foot. -/
theorem foot_le_head : 80 ≤ pageHeight - 50 := by decide +kernel

namespace Page

/-- A page without rows. -/
def blank : Page := ⟨[], fun _ h => absurd h List.not_mem_nil, .nil⟩

/-- A page with one more row, below the last. -/
def push (page : Page) (row : Placed) (hinside : 80 ≤ row.y ∧ row.y ≤ pageHeight - 50)
    (hnext : ∀ last ∈ page.rows.getLast?, row.y = last.y - 18) : Page where
  rows := page.rows ++ [row]
  inside := by
    intro row' hrow'
    rcases List.mem_append.mp hrow' with hmem | hmem
    · exact page.inside row' hmem
    · rw [List.mem_singleton.mp hmem]
      exact hinside
  spaced := by
    refine List.isChain_append.mpr ⟨page.spaced, .singleton row, fun last hlast next hnext' => ?_⟩
    obtain rfl : row = next := by simpa using hnext'
    exact hnext last hlast

/-- The marks of the rows. -/
def marks (page : Page) : List Mark :=
  page.rows.flatMap fun row => rowMarks row.rowNum row.txn row.y

end Page

/-! ### The layout -/

/-- The pages filled so far, the current page, and the place of the next row. -/
structure Layout where
  done : List Page
  current : Page
  y : ℚ
  rowNum : ℕ
  below_head : y ≤ pageHeight - 50
  /-- The next row stands 18 points below the last. -/
  next : ∀ last ∈ current.rows.getLast?, y = last.y - 18
  /-- There is room on a blank page. -/
  room : current.rows = [] → 80 ≤ y
  /-- The pages filled have no room for another row. -/
  full : ∀ page ∈ done, ∃ last ∈ page.rows.getLast?, last.y - 18 < 80

namespace Layout

/-- All pages, the current one last. -/
def pages (l : Layout) : List Page := l.done ++ [l.current]

/-- All rows, in the order of the pages. -/
def rows (l : Layout) : List Placed := l.pages.flatMap Page.rows

/-- The current page has no room for another row, so it has a last row. -/
theorem current_full (l : Layout) (h : l.y < 80) :
    ∃ last ∈ l.current.rows.getLast?, last.y - 18 < 80 := by
  have hne : l.current.rows ≠ [] := fun hnil => absurd (l.room hnil) (not_le.mpr h)
  have hlast := List.getLast?_eq_some_getLast hne
  refine ⟨_, hlast, ?_⟩
  rw [← l.next _ hlast]
  exact h

/-- One more row, on the current page or at the head of a new one. -/
def place (l : Layout) (t : TransactionDoc String) : Layout :=
  if h : l.y < 80 then
    { done := l.done ++ [l.current]
      current := Page.blank.push ⟨l.rowNum, t, pageHeight - 50⟩ ⟨foot_le_head, le_refl _⟩
        fun last hlast => absurd hlast (by simp [Page.blank])
      y := pageHeight - 50 - 18
      rowNum := l.rowNum + 1
      below_head := sub_le_self _ (by decide)
      next := fun last hlast => by
        obtain rfl : _ = last := by simpa [Page.blank, Page.push] using hlast
        rfl
      room := fun hnil => absurd hnil (by simp [Page.blank, Page.push])
      full := fun page hpage => by
        rcases List.mem_append.mp hpage with hmem | hmem
        · exact l.full page hmem
        · rw [List.mem_singleton.mp hmem]
          exact l.current_full h }
  else
    { done := l.done
      current := l.current.push ⟨l.rowNum, t, l.y⟩ ⟨not_lt.mp h, l.below_head⟩ l.next
      y := l.y - 18
      rowNum := l.rowNum + 1
      below_head := (sub_le_self _ (by decide)).trans l.below_head
      next := fun last hlast => by
        obtain rfl : _ = last := by simpa [Page.push] using hlast
        rfl
      room := fun hnil => absurd hnil (by simp [Page.push])
      full := l.full }

/-- A new invoice, below the header of the table. -/
def start : Layout where
  done := []
  current := .blank
  y := pageHeight - 215
  rowNum := 0
  below_head := by decide +kernel
  next := fun last hlast => absurd hlast (by simp [Page.blank])
  room := fun _ => by decide +kernel
  full := fun page hpage => absurd hpage List.not_mem_nil

theorem rowNum_place (l : Layout) (t : TransactionDoc String) :
    (l.place t).rowNum = l.rowNum + 1 := by
  unfold place
  split
  · rfl
  · rfl

theorem y_place (l : Layout) (t : TransactionDoc String) :
    (l.place t).y = (if l.y < 80 then pageHeight - 50 else l.y) - 18 := by
  unfold place
  split
  · rfl
  · rfl

theorem done_place (l : Layout) (t : TransactionDoc String) :
    (l.place t).done = if l.y < 80 then l.done ++ [l.current] else l.done := by
  unfold place
  split
  · rfl
  · rfl

theorem marks_place (l : Layout) (t : TransactionDoc String) :
    (l.place t).current.marks =
      if l.y < 80 then rowMarks l.rowNum t (pageHeight - 50)
      else l.current.marks ++ rowMarks l.rowNum t l.y := by
  unfold place
  split
  · simp [Page.marks, Page.push, Page.blank]
  · simp [Page.marks, Page.push]

end Layout

/-! ### The drawing -/

/-- The pages of a layout as they are drawn: the header goes before the first rows, and the
summary after the last. -/
def Layout.draw (header : List Mark) (l : Layout) (summary : List Mark) : List (List Mark) :=
  (l.done.map Page.marks ++ [l.current.marks ++ summary]).modifyHead (header ++ ·)

theorem Layout.draw_eq (header : List Mark) (l : Layout) (summary : List Mark) :
    l.draw header summary =
      (l.done.map Page.marks).modifyHead (header ++ ·) ++
        [(if l.done = [] then header else []) ++ l.current.marks ++ summary] := by
  unfold Layout.draw
  cases l.done with
  | nil => simp
  | cons page done => simp

/-- The loop has drawn the layout, under the header. -/
structure Rows.Draws (header : List Mark) (r : Rows) (l : Layout) : Prop where
  pages : r.canvas.pages = (l.done.map Page.marks).modifyHead (header ++ ·)
  marks : r.canvas.marks = (if l.done = [] then header else []) ++ l.current.marks
  y : r.y = l.y
  rowNum : r.rowNum = l.rowNum

variable {header : List Mark} {r : Rows} {l : Layout}

/-- The pages shown when the current one is shown too. -/
theorem Rows.Draws.showPage (h : r.Draws header l) :
    r.canvas.showPage.pages =
      ((l.done ++ [l.current]).map Page.marks).modifyHead (header ++ ·) := by
  show r.canvas.pages ++ [r.canvas.marks] = _
  rw [h.pages, h.marks]
  cases l.done with
  | nil => simp
  | cons page done => simp

/-- The body of the loop places a row. -/
theorem Rows.Draws.drawRow (h : r.Draws header l) (t : TransactionDoc String) :
    (drawRow r t).Draws header (l.place t) := by
  -- with a page break, and without
  by_cases hfoot : l.y < 80
  · have hbreak : r.breakPage = (r.canvas.showPage, pageHeight - 50) := by
      rw [Rows.breakPage, h.y, if_pos hfoot]
    constructor
    · show r.breakPage.1.pages = _
      rw [hbreak, l.done_place t, if_pos hfoot]
      exact h.showPage
    · show r.breakPage.1.marks ++ rowMarks r.rowNum t r.breakPage.2 = _
      rw [hbreak, h.rowNum, l.done_place t, if_pos hfoot, if_neg (by simp), l.marks_place t,
        if_pos hfoot]
      rfl
    · show r.breakPage.2 - 18 = _
      rw [hbreak, l.y_place t, if_pos hfoot]
    · show r.rowNum + 1 = _
      rw [h.rowNum, l.rowNum_place t]
  · have hbreak : r.breakPage = (r.canvas, l.y) := by rw [Rows.breakPage, h.y, if_neg hfoot]
    constructor
    · show r.breakPage.1.pages = _
      rw [hbreak, l.done_place t, if_neg hfoot]
      exact h.pages
    · show r.breakPage.1.marks ++ rowMarks r.rowNum t r.breakPage.2 = _
      rw [hbreak, h.rowNum, l.done_place t, if_neg hfoot, l.marks_place t, if_neg hfoot, h.marks,
        List.append_assoc]
    · show r.breakPage.2 - 18 = _
      rw [hbreak, l.y_place t, if_neg hfoot]
    · show r.rowNum + 1 = _
      rw [h.rowNum, l.rowNum_place t]

/-- **The loop draws the layout.** -/
theorem drawRows_eq (transactions : List (TransactionDoc String)) (h : r.Draws header l) :
    (transactions.foldl drawRow r).Draws header (transactions.foldl Layout.place l) := by
  induction transactions generalizing r l with
  | nil => exact h
  | cons t transactions ih => exact ih (h.drawRow t)

/-- The marks above the first row. -/
def invoiceHeader (now : ℕ → Time) (businessName customerName customerPhone : String) :
    List Mark :=
  headerMarks now ++ partyMarks businessName customerName customerPhone (pageHeight - 110) ++
    tableMarks (pageHeight - 110 - 60 - 25)

/-- The layout of the rows of an invoice. -/
def invoiceLayout (transactions : List (TransactionDoc String)) : Layout :=
  transactions.foldl Layout.place .start

theorem draws_startRows (now : ℕ → Time) (businessName customerName customerPhone : String) :
    (startRows now businessName customerName customerPhone).Draws
      (invoiceHeader now businessName customerName customerPhone) .start where
  pages := rfl
  marks := by
    show [] ++ _ = _ ++ []
    rw [List.nil_append, List.append_nil]
    rfl
  y := by
    show pageHeight - 110 - 60 - 25 - 20 = pageHeight - 215
    linarith
  rowNum := rfl

/-- **An invoice is its header, the layout of its rows, and its summary.** -/
theorem generateInvoice_eq (now : ℕ → Time) (businessName customerName customerPhone : String)
    (transactions : List (TransactionDoc String)) (balance : ℚ) :
    generateInvoice now businessName customerName customerPhone transactions balance =
      (invoiceLayout transactions).draw
        (invoiceHeader now businessName customerName customerPhone)
        (summaryMarks (amountsOf .credit transactions).sum (amountsOf .payment transactions).sum
          balance (invoiceLayout transactions).y) := by
  have hdraws : Rows.Draws _ _ (invoiceLayout transactions) := drawRows_eq transactions
    (draws_startRows now businessName customerName customerPhone)
  obtain ⟨hcredit, hpaid⟩ := totals_drawRows transactions
    (startRows now businessName customerName customerPhone)
  have hzero : (startRows now businessName customerName customerPhone).totalCredit = 0 ∧
      (startRows now businessName customerName customerPhone).totalPaid = 0 := ⟨rfl, rfl⟩
  rw [hzero.1, zero_add] at hcredit
  rw [hzero.2, zero_add] at hpaid
  rw [generateInvoice, Layout.draw_eq, hcredit, hpaid, hdraws.y, Canvas.save,
    Canvas.draw, hdraws.pages, hdraws.marks]

namespace Mark

/-- The lowest point of a mark; a text stands on its position. -/
def bottom : Mark → ℚ
  | .rect _ y _ _ => y
  | .line _ y₁ _ y₂ => min y₁ y₂
  | .drawString _ y _ => y
  | .drawRightString _ y _ => y
  | .drawCentredString _ y _ => y

/-- The highest point of a mark, the height of a text left out. -/
def top : Mark → ℚ
  | .rect _ y _ height => y + height
  | .line _ y₁ _ y₂ => max y₁ y₂
  | .drawString _ y _ => y
  | .drawRightString _ y _ => y
  | .drawCentredString _ y _ => y

/-- A mark lies within its page. -/
def OnPage (mark : Mark) : Prop := 0 ≤ mark.bottom ∧ mark.top ≤ pageHeight

instance (mark : Mark) : Decidable mark.OnPage := inferInstanceAs (Decidable (_ ∧ _))

end Mark

/-- The header lies on the first page. -/
theorem onPage_invoiceHeader (now : ℕ → Time) (businessName customerName customerPhone : String) :
    ∀ mark ∈ invoiceHeader now businessName customerName customerPhone, mark.OnPage := by
  have hheight : 841 < pageHeight := by decide +kernel
  simp only [invoiceHeader, headerMarks, partyMarks, tableMarks, List.forall_mem_append,
    List.forall_mem_cons, Mark.OnPage, Mark.bottom, Mark.top, min_self, max_self]
  refine ⟨⟨⟨?_, ?_, ?_, ?_, ?_, ?_⟩, ?_, ?_, ?_, ?_, ?_, ?_, ?_⟩, ?_, ?_, ?_, ?_, ?_, ?_⟩
  -- each mark has a fixed distance from the head of the page
  all_goals first | exact fun _ h => absurd h List.not_mem_nil | constructor <;> linarith

/-- A row above the foot and below the head of a page lies on it. -/
theorem onPage_rowMarks (rowNum : ℕ) (t : TransactionDoc String) {y : ℚ} (hfoot : 80 ≤ y)
    (hhead : y ≤ pageHeight - 50) : ∀ mark ∈ rowMarks rowNum t y, mark.OnPage := by
  have hrect : (Mark.rect 30 (y - 5) (pageWidth - 60) 18).OnPage := by
    show 0 ≤ y - 5 ∧ y - 5 + 18 ≤ pageHeight
    constructor <;> linarith
  have htext : 0 ≤ y + 1 ∧ y + 1 ≤ pageHeight := by constructor <;> linarith
  intro mark hmark
  rcases List.mem_append.mp hmark with hmem | hmem
  · split_ifs at hmem
    · rw [List.mem_singleton.mp hmem]
      exact hrect
    · exact absurd hmem List.not_mem_nil
  · simp only [List.mem_cons, List.not_mem_nil, or_false] at hmem
    rcases hmem with rfl | rfl | rfl | rfl <;> exact htext

/-- The lowest mark of the summary is the box of the outstanding balance, 88 points below the
rows. -/
theorem onPage_summaryMarks_iff (totalCredit totalPaid balance : ℚ) {y : ℚ}
    (hhead : y ≤ pageHeight - 50) :
    (∀ mark ∈ summaryMarks totalCredit totalPaid balance y, mark.OnPage) ↔ 88 ≤ y := by
  have hheight : 841 < pageHeight := by decide +kernel
  constructor
  · intro hall
    -- the bottom edge of the box alone asks for the room
    have hbox : (Mark.rect 300 (y - 80 - 8) (pageWidth - 330) 28).OnPage :=
      hall _ (by simp [summaryMarks])
    have hbottom : 0 ≤ y - 80 - 8 := hbox.1
    linarith
  · intro hroom
    simp only [summaryMarks, List.forall_mem_cons, Mark.OnPage, Mark.bottom, Mark.top, min_self,
      max_self]
    refine ⟨?_, ?_, ?_, ?_, ?_, ?_, fun _ h => absurd h List.not_mem_nil⟩ <;>
      constructor <;> linarith

/-! ### Where the rows end -/

/-- Where the rows of an invoice end: 31 of them fit on the first page, and 40 on each
other. -/
def rowsEnd (n : ℕ) : ℚ :=
  if n ≤ 31 then pageHeight - 215 - 18 * n else pageHeight - 50 - 18 * ((n - 32) % 40 + 1 : ℕ)

/-- The page is full after 31 rows, and after every 40 more. -/
theorem rowsEnd_lt_foot_iff (n : ℕ) : rowsEnd n < 80 ↔ n % 40 = 31 := by
  have hlow : 841 < pageHeight := by decide +kernel
  have hhigh : pageHeight < 842 := by decide +kernel
  unfold rowsEnd
  split_ifs with hfirst
  · constructor
    · intro hfoot
      have hcast : (n : ℚ) > 30 := by linarith
      have hn : n > 30 := by exact_mod_cast hcast
      omega
    · intro hmod
      obtain rfl : n = 31 := by omega
      norm_num
      linarith
  · constructor
    · intro hfoot
      have hcast : (((n - 32) % 40 + 1 : ℕ) : ℚ) > 39 := by linarith
      have hn : (n - 32) % 40 + 1 > 39 := by exact_mod_cast hcast
      omega
    · intro hmod
      have hn : (n - 32) % 40 + 1 = 40 := by omega
      rw [hn]
      norm_num
      linarith

theorem rowsEnd_succ (n : ℕ) :
    rowsEnd (n + 1) = (if rowsEnd n < 80 then pageHeight - 50 else rowsEnd n) - 18 := by
  by_cases hfull : n % 40 = 31
  · -- the page is full, and the row is the first of the next
    rw [if_pos ((rowsEnd_lt_foot_iff n).mpr hfull), rowsEnd, if_neg (by omega)]
    have hn : (n + 1 - 32) % 40 + 1 = 1 := by omega
    rw [hn, Nat.cast_one, mul_one]
  · rw [if_neg ((rowsEnd_lt_foot_iff n).not.mpr hfull), rowsEnd, rowsEnd]
    by_cases hfirst : n ≤ 31
    · rw [if_pos hfirst, if_pos (by omega)]
      push_cast
      linarith
    · have hn : (n + 1 - 32) % 40 + 1 = (n - 32) % 40 + 1 + 1 := by omega
      rw [if_neg hfirst, if_neg (by omega), hn]
      push_cast
      linarith

/-- **Where the rows of an invoice end** depends on their number only. -/
theorem y_invoiceLayout (transactions : List (TransactionDoc String)) :
    (invoiceLayout transactions).y = rowsEnd transactions.length := by
  induction transactions using List.reverseRecOn with
  | nil =>
    show pageHeight - 215 = _
    rw [rowsEnd, List.length_nil, if_pos (Nat.zero_le 31), Nat.cast_zero, mul_zero, sub_zero]
  | append_singleton transactions t ih =>
    -- one more row moves the end as the step of the loop does
    rw [invoiceLayout, List.foldl_append, List.foldl_cons, List.foldl_nil, ← invoiceLayout,
      Layout.y_place, ih, List.length_append, List.length_singleton, rowsEnd_succ]

/-- There is room for the summary unless the last page is full or nearly so. -/
theorem room_rowsEnd_iff (n : ℕ) : 88 ≤ rowsEnd n ↔ n ≠ 30 ∧ n % 40 ≠ 31 := by
  have hlow : 841 < pageHeight := by decide +kernel
  have hhigh : pageHeight < 842 := by decide +kernel
  unfold rowsEnd
  split_ifs with hfirst
  · constructor
    · intro hroom
      have hcast : (n : ℚ) < 30 := by linarith
      have hn : n < 30 := by exact_mod_cast hcast
      omega
    · rintro ⟨hn, hmod⟩
      have hle : n ≤ 29 := by omega
      have hcast : (n : ℚ) ≤ 29 := by exact_mod_cast hle
      linarith
  · constructor
    · intro hroom
      have hcast : (((n - 32) % 40 + 1 : ℕ) : ℚ) < 40 := by linarith
      have hn : (n - 32) % 40 + 1 < 40 := by exact_mod_cast hcast
      omega
    · rintro ⟨-, hmod⟩
      have hle : (n - 32) % 40 + 1 ≤ 39 := by omega
      have hcast : (((n - 32) % 40 + 1 : ℕ) : ℚ) ≤ 39 := by exact_mod_cast hle
      linarith

/-! ### The whole invoice -/

/-- What holds of all marks of a drawn layout. -/
theorem forall_mark_draw_iff {header summary : List Mark} {l : Layout} {P : Mark → Prop} :
    (∀ page ∈ l.draw header summary, ∀ mark ∈ page, P mark) ↔
      (∀ mark ∈ header, P mark) ∧ (∀ page ∈ l.pages, ∀ mark ∈ page.marks, P mark) ∧
        ∀ mark ∈ summary, P mark := by
  have hrest : ∀ done : List Page,
      (∀ marks ∈ done.map Page.marks, ∀ mark ∈ marks, P mark) ↔
        ∀ page ∈ done, ∀ mark ∈ page.marks, P mark := fun done => List.forall_mem_map
  unfold Layout.draw Layout.pages
  cases l.done with
  | nil =>
    simp only [List.map_nil, List.nil_append, List.modifyHead_cons, List.forall_mem_singleton,
      List.forall_mem_append]
  | cons page done =>
    simp only [List.map_cons, List.cons_append, List.modifyHead_cons, List.forall_mem_cons,
      List.forall_mem_append, hrest, and_assoc, List.not_mem_nil, false_implies, implies_true,
      and_true]

/-- The rows of a page lie on it. -/
theorem Page.onPage (page : Page) : ∀ mark ∈ page.marks, mark.OnPage := by
  intro mark hmark
  obtain ⟨row, hrow, hmem⟩ := List.mem_flatMap.mp hmark
  obtain ⟨hfoot, hhead⟩ := page.inside row hrow
  exact onPage_rowMarks row.rowNum row.txn hfoot hhead mark hmem

/-- **The summary falls off the page exactly for 30 rows, and for 31 rows and every 40 more.**
For all other numbers of rows everything an invoice shows lies within its page. -/
theorem invoice_on_page_iff (now : ℕ → Time) (businessName customerName customerPhone : String)
    (transactions : List (TransactionDoc String)) (balance : ℚ) :
    (∀ page ∈ generateInvoice now businessName customerName customerPhone transactions balance,
        ∀ mark ∈ page, mark.OnPage) ↔
      transactions.length ≠ 30 ∧ transactions.length % 40 ≠ 31 := by
  have hheader := onPage_invoiceHeader now businessName customerName customerPhone
  have hrows : ∀ page ∈ (invoiceLayout transactions).pages, ∀ mark ∈ page.marks, mark.OnPage :=
    fun page _ => page.onPage
  rw [generateInvoice_eq, forall_mark_draw_iff,
    onPage_summaryMarks_iff _ _ _ (invoiceLayout transactions).below_head, y_invoiceLayout,
    room_rowsEnd_iff]
  exact ⟨fun h => h.2.2, fun h => ⟨hheader, hrows, h⟩⟩

/-- The rows of an invoice with 31 transactions fill the first page, and the box and the text
of the outstanding balance fall off it. -/
theorem invoice_falls_off_page :
    ¬∀ (now : ℕ → Time) (businessName customerName customerPhone : String)
      (transactions : List (TransactionDoc String)) (balance : ℚ),
      ∀ page ∈ generateInvoice now businessName customerName customerPhone transactions balance,
        ∀ mark ∈ page, mark.OnPage := by
  intro hclaim
  have hall := hclaim (fun _ => 0) "Store" "Asha" "98"
    (List.replicate 31 ⟨"1", "m", "c", "Asha", .credit, 10, "rice", 0, false, none⟩) 310
  exact absurd hall (by decide +kernel)

end DigitalLedger
