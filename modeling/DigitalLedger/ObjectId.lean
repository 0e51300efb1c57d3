import Mathlib.Data.List.Basic

/-!
# Object identifiers

MongoDB names a document by an `ObjectId` of twelve bytes.  The application
passes identifiers around as text: `str(oid)` is the twenty-four lower-case
hexadecimal digits of the identifier, and `ObjectId(text)` reads twenty-four
digits of either case back, so one identifier has many spellings and only the
one `str` writes is canonical.

## Main definitions

* `ObjectId` — twenty-four hexadecimal digits.
* `ObjectId.str` — the canonical text of an identifier.
* `ObjectId.ofString?` — the constructor `ObjectId(text)`, `none` where it raises.
* `ObjectId.ofNat` — the identifier of a number.
* `ObjectId.Canonical` — the text is what `str` writes.

## Main results

* `ObjectId.ofString?_str` — reading back what `str` writes.
* `ObjectId.str_injective` — distinct identifiers have distinct texts.
-/

namespace DigitalLedger

/-- An identifier, as its hexadecimal digits, most significant first. -/
structure ObjectId where
  digits : List (Fin 16)
  length_digits : digits.length = 24
  deriving DecidableEq

namespace ObjectId

/-- The digit `binascii.hexlify` writes. -/
def hexDigit (d : Fin 16) : Char :=
  ['0', '1', '2', '3', '4', '5', '6', '7', '8', '9', 'a', 'b', 'c', 'd', 'e', 'f'].getD d '0'

/-- The value of a digit `bytes.fromhex` reads, in either case. -/
def hexValue : Char → Option (Fin 16)
  | '0' => some 0 | '1' => some 1 | '2' => some 2 | '3' => some 3 | '4' => some 4
  | '5' => some 5 | '6' => some 6 | '7' => some 7 | '8' => some 8 | '9' => some 9
  | 'a' => some 10 | 'b' => some 11 | 'c' => some 12 | 'd' => some 13 | 'e' => some 14
  | 'f' => some 15
  | 'A' => some 10 | 'B' => some 11 | 'C' => some 12 | 'D' => some 13 | 'E' => some 14
  | 'F' => some 15
  | _ => none

/-- `str(oid)`. -/
def str (oid : ObjectId) : String := String.ofList (oid.digits.map hexDigit)

/-- `ObjectId(text)`: twenty-four hexadecimal digits.  The blanks that
`bytes.fromhex` skips would leave an identifier of fewer than twelve bytes, which
no document has; such a text is rejected here. -/
def ofString? (text : String) : Option ObjectId :=
  match text.toList.mapM hexValue with
  | none => none
  | some ds => if h : ds.length = 24 then some ⟨ds, h⟩ else none

/-- The identifier of a given number. -/
def ofNat (n : ℕ) : ObjectId where
  digits := (List.range 24).map fun i => Fin.ofNat 16 (n >>> (4 * (23 - i)))
  length_digits := by rw [List.length_map, List.length_range]

/-- The text is the canonical spelling of an identifier, the one `get_customers`
returns. -/
def Canonical (text : String) : Prop := ∃ oid : ObjectId, text = oid.str

theorem hexValue_hexDigit (d : Fin 16) : hexValue (hexDigit d) = some d := by
  revert d
  decide

theorem mapM_hexValue (ds : List (Fin 16)) : (ds.map hexDigit).mapM hexValue = some ds := by
  induction ds with
  | nil => rfl
  | cons d ds ih => simp [hexValue_hexDigit, ih]

@[simp] theorem ofString?_str (oid : ObjectId) : ofString? oid.str = some oid := by
  rw [ofString?, str, String.toList_ofList, mapM_hexValue]
  simp [oid.length_digits]

theorem str_injective {oid oid' : ObjectId} (h : oid.str = oid'.str) : oid = oid' := by
  have h' := congrArg ofString? h
  rw [ofString?_str, ofString?_str, Option.some.injEq] at h'
  exact h'

@[simp] theorem str_inj {oid oid' : ObjectId} : oid.str = oid'.str ↔ oid = oid' :=
  ⟨str_injective, congrArg str⟩

theorem canonical_str (oid : ObjectId) : Canonical oid.str := ⟨oid, rfl⟩

/-- A text that is read as an identifier is canonical when it is what `str` writes of it. -/
theorem canonical_iff {text : String} {oid : ObjectId} (h : ofString? text = some oid) :
    Canonical text ↔ text = oid.str := by
  refine ⟨?_, fun heq => ⟨oid, heq⟩⟩
  rintro ⟨oid', rfl⟩
  rw [ofString?_str, Option.some.injEq] at h
  rw [h]

end ObjectId

end DigitalLedger
