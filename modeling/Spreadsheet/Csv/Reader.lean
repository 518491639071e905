/-!
# Reading CSV

A record ends at a line feed or a carriage return, and empty lines are no
records. A field that starts with a quote runs to the next quote that is not
doubled; what follows up to the separator belongs to it as it is. A quote
elsewhere is an ordinary character, and one that nothing closes runs to the
end. Every sequence of bytes can be read; only decoding the fields can fail.
-/

namespace Spreadsheet.Csv

/-- The byte that an ASCII character is written as. -/
def byte (c : Char) : UInt8 := c.toNat.toUInt8

/-- A record as it was read. -/
structure Record where
  /-- The input from the end of the record before. -/
  start : List UInt8
  fields : List (List UInt8)

/-- The byte ends a line. -/
def isLineEnd (b : UInt8) : Bool := b = byte '\n' || b = byte '\r'

/-- Where in a field reading is: in front of it, in its plain part, inside its quotes,
or after a quote inside them. -/
inductive Place where
  | front | plain | quoted | afterQuote
  deriving DecidableEq

/-- Puts a byte in front of the first of the fields. -/
def prepend (b : UInt8) : List (List UInt8) × List UInt8 → List (List UInt8) × List UInt8
  | (field :: fields, rest) => ((b :: field) :: fields, rest)
  | ([], rest) => ([[b]], rest)

/-- Puts an empty field in front of the fields. -/
def separate : List (List UInt8) × List UInt8 → List (List UInt8) × List UInt8
  | (fields, rest) => ([] :: fields, rest)

/-- The rest of the fields of a record and what follows the record. -/
def readFields (place : Place) : List UInt8 → List (List UInt8) × List UInt8
  | [] => ([[]], [])
  | b :: rest =>
    if place = .front && b = byte '"' then readFields .quoted rest
    else if place = .quoted && b = byte '"' then readFields .afterQuote rest
    else if place = .quoted || (place = .afterQuote && b = byte '"') then
      prepend b (readFields .quoted rest)
    else if b = byte ',' then separate (readFields .front rest)
    else if isLineEnd b then ([[]], rest)
    else prepend b (readFields .plain rest)

theorem prepend_snd (b : UInt8) (p : List (List UInt8) × List UInt8) : (prepend b p).2 = p.2 := by
  obtain ⟨_ | _, _⟩ := p <;> rfl

theorem separate_snd (p : List (List UInt8) × List UInt8) : (separate p).2 = p.2 := rfl

/-- Reading fields leaves no more than there was. -/
theorem readFields_length_le (place : Place) (input : List UInt8) :
    (readFields place input).2.length ≤ input.length := by
  induction input generalizing place with
  | nil => simp [readFields]
  | cons b rest ih =>
    have := ih .quoted
    have := ih .afterQuote
    have := ih .front
    have := ih .plain
    simp only [readFields]
    repeat' split
    all_goals simp only [prepend_snd, separate_snd, List.length_cons]; omega

/-- Reading fields takes at least the first byte. -/
theorem readFields_length_lt (place : Place) (b : UInt8) (rest : List UInt8) :
    (readFields place (b :: rest)).2.length < rest.length + 1 := by
  have := readFields_length_le .quoted rest
  have := readFields_length_le .afterQuote rest
  have := readFields_length_le .front rest
  have := readFields_length_le .plain rest
  simp only [readFields]
  repeat' split
  all_goals simp only [prepend_snd, separate_snd, Nat.lt_succ_iff]; omega

/-- The records of `input`, where the first counts as starting at `start`. -/
def readFrom (start input : List UInt8) : List Record :=
  match _ : input.dropWhile isLineEnd with
  | [] => []
  | b :: rest =>
    let p := readFields .front (b :: rest)
    ⟨start, p.1⟩ :: readFrom p.2 p.2
termination_by input.length
decreasing_by
  rename_i h
  have h1 := (List.dropWhile_suffix isLineEnd (l := input)).sublist.length_le
  have h2 := readFields_length_lt .front b rest
  rw [h, List.length_cons] at h1
  omega

/-- The input without the mark of its byte order. -/
def dropByteOrderMark : List UInt8 → List UInt8
  | 0xEF :: 0xBB :: 0xBF :: rest => rest
  | input => input

/-- The records of a file. -/
def read (input : List UInt8) : List Record := readFrom input (dropByteOrderMark input)

/-- The byte is a blank of ASCII. -/
def isBlank (b : UInt8) : Bool := b = byte ' ' || b = byte '\t' || b = 0x0C || isLineEnd b

/-- The field without the blanks around it. -/
def trimBlanks (field : List UInt8) : List UInt8 :=
  ((field.dropWhile isBlank).reverse.dropWhile isBlank).reverse

/-- The records without the blanks around their fields, so that places in a field are
counted from its first other byte. The first record stays as it is. -/
def trimLater : List Record → List Record
  | [] => []
  | first :: later => first :: later.map fun r => { r with fields := r.fields.map trimBlanks }

/-- What can be wrong with a record. -/
inductive RecordError where
  | unequalLengths (number line offset count expected : Nat)
  | invalidText (number line offset field index : Nat)
  deriving DecidableEq

/-- What is said of the error. -/
def RecordError.message : RecordError → String
  | unequalLengths number line offset count expected =>
    s!"CSV error: record {number} (line: {line}, byte: {offset}): " ++
      s!"found record with {count} fields, but the previous record has {expected} fields"
  | invalidText number line offset field index =>
    s!"CSV parse error: record {number} (line {line}, field: {field}, byte: {offset}): " ++
      s!"invalid utf-8: invalid UTF-8 in field {field} near byte index {index}"

/-- The length of the longest part of `bytes` from `index` on that is valid UTF-8,
counted from the start. -/
def validLength (bytes : ByteArray) (index : Nat) : Nat :=
  match bytes.utf8DecodeChar? index with
  | none => index
  | some c =>
    if index < bytes.size then validLength bytes (index + c.utf8Size) else index
termination_by bytes.size - index
decreasing_by
  have := c.utf8Size_pos
  omega

/-- The text of a field, or where it stops being one. -/
def fieldText (field : List UInt8) : Except Nat String :=
  match String.fromUTF8? (ByteArray.mk field.toArray) with
  | some s => .ok s
  | none => .error (validLength (ByteArray.mk field.toArray) 0)

/-- The texts of fields, or the number of the first that is no text and where it stops
being one. -/
def fieldTexts (number : Nat) : List (List UInt8) → Except (Nat × Nat) (List String)
  | [] => .ok []
  | field :: fields =>
    match fieldText field with
    | .error index => .error (number, index)
    | .ok s => (fieldTexts (number + 1) fields).map (s :: ·)

/-- The line and the offset where the reading of a record of `input` started. -/
def Record.position (input : List UInt8) (r : Record) : Nat × Nat :=
  (1 + input.count (byte '\n') - r.start.count (byte '\n'), input.length - r.start.length)

/-- The texts of a record, the `number`-th of `input`. If a number of fields is
expected, it must have that many. -/
def Record.texts (input : List UInt8) (number : Nat) (expected : Option Nat) (r : Record) :
    Except RecordError (List String) :=
  match expected.filter (· ≠ r.fields.length) with
  | some count =>
    let (line, offset) := r.position input
    .error (.unequalLengths number line offset r.fields.length count)
  | none =>
    match fieldTexts 0 r.fields with
    | .ok texts => .ok texts
    | .error (field, index) =>
      let (line, offset) := r.position input
      .error (.invalidText number line offset field index)

end Spreadsheet.Csv
