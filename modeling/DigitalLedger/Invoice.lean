import DigitalLedger.Transactions

/-!
# Invoices

The function of `invoice.py`: an invoice is drawn on A4 pages from the top down, one row
for each transaction and a summary below the last of them.  A drawing is kept as the marks
on each page with their positions; colours and fonts are left out, and numbers are exact
where the source rounds them to two decimals.

## Main definitions

* `Text`, `Mark`, `Canvas` — what is drawn, and the pages it is drawn on.
* `drawRow`, `generateInvoice` — the loop over the transactions, and the whole function.
* `printed` — the amounts printed under a label.

## Main results

* `totals_drawRows` — the totals of the loop are sums by type.
* `printed_generateInvoice` — the three amounts of the summary.
-/

namespace DigitalLedger

/-! ### Drawings -/

/-- A text that is drawn. -/
inductive Text
  | plain (text : String)
  /-- `strftime("%d %b %Y")` -/
  | date (t : Time)
  /-- `INV-` and `strftime("%Y%m%d%H%M%S")` -/
  | invoiceNumber (t : Time)
  /-- A label, and an amount as `₹{amount:,.2f}`. -/
  | money (label : String) (amount : ℚ)
  deriving DecidableEq

/-- A mark on a page, with its position in points from the bottom left. -/
inductive Mark
  | rect (x y width height : ℚ)
  | line (x₁ y₁ x₂ y₂ : ℚ)
  | drawString (x y : ℚ) (text : Text)
  | drawRightString (x y : ℚ) (text : Text)
  | drawCentredString (x y : ℚ) (text : Text)
  deriving DecidableEq

/-- The pages shown so far, and the marks on the current one, each in drawing order. -/
structure Canvas where
  pages : List (List Mark)
  marks : List Mark
  deriving DecidableEq

namespace Canvas

/-- `canvas.Canvas(buffer, pagesize=A4)` -/
def empty : Canvas := ⟨[], []⟩

def draw (marks : List Mark) (c : Canvas) : Canvas := { c with marks := c.marks ++ marks }

def showPage (c : Canvas) : Canvas := ⟨c.pages ++ [c.marks], []⟩

/-- The pages of the document; `save` shows the current one. -/
def save (c : Canvas) : List (List Mark) := c.pages ++ [c.marks]

end Canvas

/-- The width of A4, 210 mm, in points. -/
def pageWidth : ℚ := 210 * 72 / 25.4

/-- The height of A4, 297 mm, in points. -/
def pageHeight : ℚ := 297 * 72 / 25.4

/-! ### The invoice -/

/-- The header bar, with two readings of the clock. -/
def headerMarks (now : ℕ → Time) : List Mark :=
  [.rect 0 (pageHeight - 80) pageWidth 80,
    .drawString 30 (pageHeight - 45) (.plain "📒 Digital Ledger"),
    .drawString 30 (pageHeight - 65) (.plain "Transaction Invoice"),
    .drawRightString (pageWidth - 30) (pageHeight - 45) (.date (now 0)),
    .drawRightString (pageWidth - 30) (pageHeight - 60) (.invoiceNumber (now 1))]

/-- The customer, the merchant and the divider below them. -/
def partyMarks (businessName customerName customerPhone : String) (y : ℚ) : List Mark :=
  [.drawString 30 y (.plain "Bill To:"),
    .drawString 30 (y - 18) (.plain customerName),
    .drawString 30 (y - 34) (.plain s!"Phone: {customerPhone}"),
    .drawString 320 y (.plain "From:"),
    .drawString 320 (y - 18) (.plain businessName),
    .line 30 (y - 60) (pageWidth - 30) (y - 60)]

/-- The header of the table. -/
def tableMarks (y : ℚ) : List Mark :=
  [.rect 30 (y - 5) (pageWidth - 60) 22,
    .drawString 35 (y + 4) (.plain "Date"),
    .drawString 155 (y + 4) (.plain "Type"),
    .drawString 275 (y + 4) (.plain "Amount (₹)"),
    .drawString 390 (y + 4) (.plain "Note")]

/-- A row of the table; every other one has a background. -/
def rowMarks (rowNum : ℕ) (t : TransactionDoc String) (y : ℚ) : List Mark :=
  (if rowNum % 2 = 0 then [.rect 30 (y - 5) (pageWidth - 60) 18] else []) ++
    [.drawString 35 (y + 1) (.date t.date),
      .drawString 155 (y + 1) (.plain (if t.type = .credit then "Credit" else "Payment")),
      .drawString 275 (y + 1) (.money "" t.amount),
      .drawString 390 (y + 1) (.plain (String.ofList (t.note.toList.take 22)))]

/-- The variables of the loop over the transactions. -/
structure Rows where
  canvas : Canvas
  y : ℚ
  rowNum : ℕ
  totalCredit : ℚ
  totalPaid : ℚ

/-- The start of the loop's body: near the foot of a page a new one is begun. -/
def Rows.breakPage (r : Rows) : Canvas × ℚ :=
  if r.y < 80 then (r.canvas.showPage, pageHeight - 50) else (r.canvas, r.y)

/-- The body of the loop. -/
def drawRow (r : Rows) (t : TransactionDoc String) : Rows :=
  let (canvas, y) := r.breakPage
  { canvas := canvas.draw (rowMarks r.rowNum t y)
    y := y - 18
    rowNum := r.rowNum + 1
    totalCredit := if t.type = .credit then r.totalCredit + t.amount else r.totalCredit
    totalPaid := if t.type = .credit then r.totalPaid else r.totalPaid + t.amount }

/-- The summary below the rows, and the footer; `y` is where the rows end. -/
def summaryMarks (totalCredit totalPaid balance y : ℚ) : List Mark :=
  [.line 30 (y - 20) (pageWidth - 30) (y - 20),
    .drawString 320 (y - 40) (.money "Total Credit:   " totalCredit),
    .drawString 320 (y - 40 - 18) (.money "Total Paid:     " totalPaid),
    .rect 300 (y - 80 - 8) (pageWidth - 330) 28,
    .drawString 310 (y - 80 + 4) (.money "Outstanding Balance:  " balance),
    .drawCentredString (pageWidth / 2) 30
      (.plain "Generated by Digital Ledger • Thank you for your business!")]

/-- The canvas and the variables before the loop. -/
def startRows (now : ℕ → Time) (businessName customerName customerPhone : String) : Rows :=
  let y := pageHeight - 110
  { canvas := Canvas.empty.draw (headerMarks now ++
      partyMarks businessName customerName customerPhone y ++ tableMarks (y - 60 - 25))
    y := y - 60 - 25 - 20
    rowNum := 0
    totalCredit := 0
    totalPaid := 0 }

/-- `generate_invoice` -/
def generateInvoice (now : ℕ → Time) (businessName customerName customerPhone : String)
    (transactions : List (TransactionDoc String)) (balance : ℚ) : List (List Mark) :=
  let rows := transactions.foldl drawRow (startRows now businessName customerName customerPhone)
  (rows.canvas.draw (summaryMarks rows.totalCredit rows.totalPaid balance rows.y)).save

/-! ### The printed amounts -/

/-- The amount a mark prints under the label. -/
def Mark.amount (label : String) : Mark → Option ℚ
  | .drawString _ _ (.money label' amount) => if label' = label then some amount else none
  | _ => none

/-- The amounts printed under the label, in drawing order. -/
def printed (label : String) (pages : List (List Mark)) : List ℚ :=
  pages.flatten.filterMap (Mark.amount label)

/-- The amounts of the transactions of a type. -/
def amountsOf (type : TxnType) (transactions : List (TransactionDoc String)) : List ℚ :=
  (transactions.filter fun t => t.type = type).map fun t => t.amount

theorem printed_draw (label : String) (c : Canvas) (marks : List Mark) :
    printed label (c.draw marks).save =
      printed label c.save ++ marks.filterMap (Mark.amount label) := by
  rw [printed, printed, Canvas.draw, Canvas.save, Canvas.save, List.flatten_append,
    List.flatten_append, List.flatten_singleton, List.flatten_singleton, ← List.append_assoc,
    List.filterMap_append]

theorem printed_showPage (label : String) (c : Canvas) :
    printed label c.showPage.save = printed label c.save := by
  rw [printed, printed, Canvas.save, Canvas.showPage, List.flatten_append, List.flatten_singleton,
    List.append_nil]
  rfl

/-- No row prints an amount under a label. -/
theorem amount_rowMarks {label : String} (hlabel : label ≠ "") (rowNum : ℕ)
    (t : TransactionDoc String) (y : ℚ) :
    (rowMarks rowNum t y).filterMap (Mark.amount label) = [] := by
  unfold rowMarks
  split
  · simp [Mark.amount, hlabel.symm]
  · simp [Mark.amount, hlabel.symm]

/-- Drawing a row prints nothing under a label. -/
theorem printed_drawRow {label : String} (hlabel : label ≠ "") (r : Rows)
    (t : TransactionDoc String) :
    printed label (drawRow r t).canvas.save = printed label r.canvas.save := by
  have hbreak : printed label r.breakPage.1.save = printed label r.canvas.save := by
    unfold Rows.breakPage
    split
    · exact printed_showPage label r.canvas
    · rfl
  show printed label (r.breakPage.1.draw _).save = _
  rw [printed_draw, amount_rowMarks hlabel, List.append_nil, hbreak]

theorem printed_drawRows {label : String} (hlabel : label ≠ "")
    (transactions : List (TransactionDoc String)) (r : Rows) :
    printed label (transactions.foldl drawRow r).canvas.save = printed label r.canvas.save := by
  induction transactions generalizing r with
  | nil => rfl
  | cons t transactions ih => rw [List.foldl_cons, ih, printed_drawRow hlabel]

/-- **The totals of the loop are sums by type.** -/
theorem totals_drawRows (transactions : List (TransactionDoc String)) (r : Rows) :
    (transactions.foldl drawRow r).totalCredit =
        r.totalCredit + (amountsOf .credit transactions).sum ∧
      (transactions.foldl drawRow r).totalPaid =
        r.totalPaid + (amountsOf .payment transactions).sum := by
  induction transactions generalizing r with
  | nil => simp [amountsOf]
  | cons t transactions ih =>
    obtain ⟨hcredit, hpaid⟩ := ih (drawRow r t)
    rw [List.foldl_cons, hcredit, hpaid]
    cases htype : t.type with
    | credit => simp [amountsOf, drawRow, htype, add_assoc]
    | payment => simp [amountsOf, drawRow, htype, add_assoc]

/-- **The summary of an invoice** prints the sums of the transactions it is handed, and the
balance it is handed. -/
theorem printed_generateInvoice (now : ℕ → Time)
    (businessName customerName customerPhone : String)
    (transactions : List (TransactionDoc String)) (balance : ℚ) :
    let pages := generateInvoice now businessName customerName customerPhone transactions balance
    printed "Total Credit:   " pages = [(amountsOf .credit transactions).sum] ∧
      printed "Total Paid:     " pages = [(amountsOf .payment transactions).sum] ∧
      printed "Outstanding Balance:  " pages = [balance] := by
  intro pages
  obtain ⟨hcredit, hpaid⟩ := totals_drawRows transactions
    (startRows now businessName customerName customerPhone)
  -- the rows print nothing under a label, so only the header and the summary count
  have hpages : ∀ label : String, label ≠ "" → printed label pages =
      printed label (startRows now businessName customerName customerPhone).canvas.save ++
        (summaryMarks (amountsOf .credit transactions).sum (amountsOf .payment transactions).sum
          balance (transactions.foldl drawRow
            (startRows now businessName customerName customerPhone)).y).filterMap
          (Mark.amount label) := by
    intro label hlabel
    have hzero : (startRows now businessName customerName customerPhone).totalCredit = 0 ∧
        (startRows now businessName customerName customerPhone).totalPaid = 0 := ⟨rfl, rfl⟩
    show printed label (Canvas.draw _ _).save = _
    rw [printed_draw, printed_drawRows hlabel, hcredit, hpaid, hzero.1, hzero.2, zero_add, zero_add]
  rw [hpages _ (by decide), hpages _ (by decide), hpages _ (by decide)]
  exact ⟨rfl, rfl, rfl⟩

end DigitalLedger
