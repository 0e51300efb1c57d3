import DigitalLedger.Customers

/-!
# Bulk import

`import_customers_from_excel` of `bulk_import.py` reads a spreadsheet and adds one
customer for each usable row; any exception raised on the way is caught and
reported.  Reading the spreadsheet is the work of pandas: what it makes of the
uploaded file, an exception or a table, is the argument here.

## Main definitions

* `DataFrame` — the table `pandas.read_excel(file, dtype=str)` returns.
* `Row` — a row of it, as the loop gets it.
* `strip`, `lower` — the text functions the import applies.
* `importRow`, `importRows` — the loop over the rows.
* `importCustomersFromExcel` — the import.
-/

namespace DigitalLedger

/-! ### The table -/

/-- A cell read with `dtype=str`: a text, or `NaN` for an empty cell. -/
abbrev Cell := Option String

/-- A column header: a text, or a value of another type, which has no `lower`. -/
inductive Header
  | text (name : String)
  | other (typeName : String)
  deriving DecidableEq

/-- The table pandas reads from a sheet. -/
structure DataFrame where
  columns : List Header
  rows : List (List Cell)
  /-- How pandas prints the cells of a row that stand under one repeated header, from the label
  of the row, the header and the cells: all three are printed. -/
  seriesStr : ℕ → String → List Cell → String

/-- A row as `df.iterrows()` gives it, with its label. -/
structure Row where
  name : ℕ
  cells : List Cell

/-- `df.iterrows()`: the labels of a table that was read count its rows. -/
def DataFrame.iterrows (df : DataFrame) : List Row := df.rows.zipIdx.map fun p => ⟨p.2, p.1⟩

@[simp] theorem DataFrame.length_iterrows (df : DataFrame) :
    df.iterrows.length = df.rows.length := by
  rw [iterrows, List.length_map, List.length_zipIdx]

/-- The characters `str.strip` removes. -/
def isSpace (c : Char) : Bool :=
  c.toNat ∈ [9, 10, 11, 12, 13, 28, 29, 30, 31, 32, 133, 160, 5760, 8192, 8193, 8194, 8195,
    8196, 8197, 8198, 8199, 8200, 8201, 8202, 8232, 8233, 8239, 8287, 12288]

/-- `text.strip()` -/
def strip (text : String) : String :=
  String.ofList ((text.toList.dropWhile isSpace).reverse.dropWhile isSpace).reverse

/-- `text.lower()`.  Headers are only compared with words whose letters are the
lower case of no character outside ASCII, so only ASCII letters matter. -/
def lower (text : String) : String := String.ofList (text.toList.map Char.toLower)

/-- `str(cell)` -/
def Cell.str (cell : Cell) : String := cell.getD "nan"

/-- `c.lower().strip()` of a column header. -/
def normaliseHeader : Header → Db String
  | .text name => .ret (strip (lower name))
  | .other typeName => .raise (.attributeError typeName "lower")

/-- `[c.lower().strip() for c in df.columns]` -/
def normaliseHeaders : List Header → Db (List String)
  | [] => .ret []
  | header :: headers => do
    let name ← normaliseHeader header
    let names ← normaliseHeaders headers
    return name :: names

/-- `str(row.get(column, ""))` -/
def rowText (df : DataFrame) (columns : List String) (row : Row) (column : String) :
    String :=
  match ((columns.zip row.cells).filter fun p => p.1 = column).map Prod.snd with
  -- no such column: the default of `get`
  | [] => ""
  | [cell] => cell.str
  | cells => df.seriesStr row.name column cells

/-! ### The import -/

/-- `REQUIRED_COLUMNS` -/
def requiredColumns : List String := ["name", "phone"]

/-- The `results` dictionary. -/
structure ImportResults where
  added : ℕ
  failed : ℕ
  errors : List String
  deriving DecidableEq

/-- One more failed row. -/
def ImportResults.fail (results : ImportResults) (error : String) : ImportResults :=
  { results with failed := results.failed + 1, errors := results.errors ++ [error] }

/-- What the surroundings supply to the row of index `idx`. -/
def Env.row (env : Env) (idx : ℕ) : Env :=
  { env with
    objectId := fun k => env.objectId (idx + k)
    utcnow := fun k => env.utcnow (idx + k) }

/-- The body of the loop, for the row of index `idx`. -/
def importRow (bcrypt : Bcrypt) (env : Env) (merchantId : String) (df : DataFrame)
    (columns : List String) (idx : ℕ) (row : Row) (results : ImportResults) :
    Db ImportResults := do
  -- the line of the sheet: counted from one, the headers being the first
  let line := idx + 2
  let name := strip (rowText df columns row "name")
  let phone := strip (rowText df columns row "phone")
  let address := if "address" ∈ columns then strip (rowText df columns row "address") else ""
  if name = "" ∨ phone = "" ∨ name = "nan" ∨ phone = "nan" then
    return results.fail s!"Row {line}: missing name or phone — skipped"
  else
    match ← addCustomer bcrypt (env.row idx) merchantId name phone address "" with
    | .success _ => return { results with added := results.added + 1 }
    | .failure message => return results.fail s!"Row {line} ({name}): {message}"

/-- The loop over the rows, from the row of index `idx` on. -/
def importRows (bcrypt : Bcrypt) (env : Env) (merchantId : String) (df : DataFrame)
    (columns : List String) : ℕ → List Row → ImportResults → Db ImportResults
  | _, [], results => .ret results
  | idx, row :: rows, results => do
    let results ← importRow bcrypt env merchantId df columns idx row results
    importRows bcrypt env merchantId df columns (idx + 1) rows results

/-- The body of the `try`. -/
def importTable (bcrypt : Bcrypt) (env : Env) (merchantId : String)
    (file : Except String DataFrame) : Db (Reply ImportResults) := do
  match file with
  | .error message => .raise (.readError message)
  | .ok df =>
    -- a header that is not a text has no `lower`, and raises here
    let columns ← normaliseHeaders df.columns
    let missing := requiredColumns.filter fun column => column ∉ columns
    if missing ≠ [] then
      let names := ", ".intercalate missing
      return .failure (s!"Missing required column(s): {names}. " ++
        "Your file must have: name, phone (and optionally: address)")
    else
      let results ← importRows bcrypt env merchantId df columns 0 df.iterrows ⟨0, 0, []⟩
      return .success results

/-- `import_customers_from_excel` -/
def importCustomersFromExcel (bcrypt : Bcrypt) (env : Env) (merchantId : String)
    (file : Except String DataFrame) : Db (Reply ImportResults) :=
  (importTable bcrypt env merchantId file).catchWith fun e =>
    let text := e.str
    return .failure s!"Error reading file: {text}"

end DigitalLedger
