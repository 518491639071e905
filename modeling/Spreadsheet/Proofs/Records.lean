import Mathlib
import Spreadsheet.Csv.Writer
import Spreadsheet.Proofs.Bytes
/-!
# Reading back written records

What is written for a field is read as that field, up to the comma or the line
feed behind it: `readFields_writeField`. A field that contains one of these, or
a quote, is written in quotes. So records are read back as they were written, if
the file does not begin with the mark of its byte order, which is taken off:
`read_write`.
-/

namespace Spreadsheet.Csv

/-! ## One byte -/

section
variable {place : Place} {b : UInt8} {rest : List UInt8}

theorem readFields_open : readFields .front (byte '"' :: rest) = readFields .quoted rest := rfl

theorem readFields_quote : readFields .quoted (byte '"' :: rest) = readFields .afterQuote rest := rfl

theorem readFields_doubled :
    readFields .afterQuote (byte '"' :: rest) = prepend (byte '"') (readFields .quoted rest) := rfl

theorem readFields_quoted (hb : b ≠ byte '"') :
    readFields .quoted (b :: rest) = prepend b (readFields .quoted rest) := by
  simp [readFields, hb]

theorem readFields_comma (hplace : place ≠ .quoted) :
    readFields place (byte ',' :: rest) = separate (readFields .front rest) := by
  cases place with
  | quoted => exact absurd rfl hplace
  | front | plain | afterQuote => rfl

theorem readFields_lineFeed (hplace : place ≠ .quoted) :
    readFields place (byte '\n' :: rest) = ([[]], rest) := by
  cases place with
  | quoted => exact absurd rfl hplace
  | front | plain | afterQuote => rfl

/-- The byte has no meaning outside quotes. -/
def IsBare (b : UInt8) : Prop := b ≠ byte '"' ∧ b ≠ byte ',' ∧ isLineEnd b = false

theorem readFields_bare (hb : IsBare b) (hplace : place = .front ∨ place = .plain) :
    readFields place (b :: rest) = prepend b (readFields .plain rest) := by
  obtain ⟨hquote, hcomma, hend⟩ := hb
  rcases hplace with rfl | rfl <;> simp [readFields, hquote, hcomma, hend]

end

/-! ## One field -/

section
variable {field : List Char} {bytes rest : List UInt8}

theorem foldr_prepend (bytes first : List UInt8) (fields : List (List UInt8)) :
    bytes.foldr prepend (first :: fields, rest) = ((bytes ++ first) :: fields, rest) := by
  induction bytes with
  | nil => rfl
  | cons b bytes ih =>
    rw [List.foldr_cons, ih]
    rfl

/-- Bytes without meaning are read as they are. -/
theorem readFields_bare_append (hbytes : ∀ b ∈ bytes, IsBare b) :
    ∃ place, place ≠ .quoted ∧ ∀ rest,
      readFields .front (bytes ++ rest) = bytes.foldr prepend (readFields place rest) := by
  have hplain : ∀ bytes : List UInt8, (∀ b ∈ bytes, IsBare b) → ∀ rest,
      readFields .plain (bytes ++ rest) = bytes.foldr prepend (readFields .plain rest) := by
    intro bytes hbytes rest
    induction bytes with
    | nil => rfl
    | cons b bytes ih =>
      obtain ⟨hb, hbytes⟩ := List.forall_mem_cons.1 hbytes
      rw [List.cons_append, readFields_bare hb (.inr rfl), ih hbytes]
      rfl
  cases bytes with
  | nil => exact ⟨.front, nofun, fun _ => rfl⟩
  | cons b bytes =>
    obtain ⟨hb, hbytes⟩ := List.forall_mem_cons.1 hbytes
    refine ⟨.plain, nofun, fun rest => ?_⟩
    rw [List.cons_append, readFields_bare hb (.inl rfl), hplain bytes hbytes]
    rfl

theorem readFields_quoted_append (hbytes : ∀ b ∈ bytes, b ≠ byte '"') :
    readFields .quoted (bytes ++ rest) = bytes.foldr prepend (readFields .quoted rest) := by
  induction bytes with
  | nil => rfl
  | cons b bytes ih =>
    obtain ⟨hb, hbytes⟩ := List.forall_mem_cons.1 hbytes
    rw [List.cons_append, readFields_quoted hb, ih hbytes]
    rfl

/-- A character between quotes is read as it is, a doubled quote as one. -/
theorem readFields_doubleQuotes :
    readFields .quoted (utf8 (doubleQuotes field) ++ byte '"' :: rest) =
      (utf8 field).foldr prepend (readFields .afterQuote rest) := by
  induction field with
  | nil => rfl
  | cons c field ih =>
    by_cases hc : c = '"'
    · subst hc
      show readFields .quoted (byte '"' :: byte '"' ::
        (utf8 (doubleQuotes field) ++ byte '"' :: rest)) = _
      rw [readFields_quote, readFields_doubled, ih]
      rfl
    · have hbytes : ∀ b ∈ String.utf8EncodeChar c, b ≠ byte '"' := by
        rintro b hb rfl
        exact byte_notMem_utf8EncodeChar (by decide) hc hb
      have hdouble : doubleQuotes (c :: field) = c :: doubleQuotes field := by
        simp [doubleQuotes, hc]
      rw [hdouble, utf8_cons, List.append_assoc, readFields_quoted_append hbytes, ih, utf8_cons,
        List.foldr_append]

theorem not_isLineEnd_of_mem_utf8EncodeChar {c : Char} (hreturn : c ≠ '\r') (hfeed : c ≠ '\n')
    {b : UInt8} (hb : b ∈ String.utf8EncodeChar c) : isLineEnd b = false := by
  have hne : ∀ d, IsAscii d → c ≠ d → b ≠ byte d := by
    rintro d hd hcd rfl
    exact byte_notMem_utf8EncodeChar hd hcd hb
  simp [isLineEnd, hne '\n' (by decide) hfeed, hne '\r' (by decide) hreturn]

theorem isBare_of_mem_utf8 (h : needsQuotes field = false) : ∀ b ∈ utf8 field, IsBare b := by
  intro b hb
  obtain ⟨c, hc, hb⟩ := List.mem_flatMap.1 hb
  have hplain := List.any_eq_false.1 h c hc
  simp only [Bool.or_eq_true, decide_eq_true_eq, not_or] at hplain
  obtain ⟨⟨⟨hcomma, hquote⟩, hreturn⟩, hfeed⟩ := hplain
  refine ⟨?_, ?_, not_isLineEnd_of_mem_utf8EncodeChar hreturn hfeed hb⟩
  · rintro rfl
    exact byte_notMem_utf8EncodeChar (by decide) hquote hb
  · rintro rfl
    exact byte_notMem_utf8EncodeChar (by decide) hcomma hb

/-- What is written for a field is read as the field, whatever follows it. -/
theorem readFields_writeField (field : List Char) :
    ∃ place, place ≠ .quoted ∧ ∀ rest, readFields .front (utf8 (writeField field) ++ rest) =
      (utf8 field).foldr prepend (readFields place rest) := by
  unfold writeField
  split
  · refine ⟨.afterQuote, nofun, fun rest => ?_⟩
    have hquoted : utf8 ('"' :: doubleQuotes field ++ ['"']) ++ rest =
        byte '"' :: (utf8 (doubleQuotes field) ++ byte '"' :: rest) := by
      rw [utf8_append, List.append_assoc, utf8_cons, List.append_assoc]
      rfl
    rw [hquoted, readFields_open, readFields_doubleQuotes]
  · rename_i h
    exact readFields_bare_append (isBare_of_mem_utf8 (Bool.eq_false_iff.2 h))

theorem readFields_writeField_comma (field : List Char) (rest : List UInt8) :
    readFields .front (utf8 (writeField field) ++ byte ',' :: rest) =
      (utf8 field :: (readFields .front rest).1, (readFields .front rest).2) := by
  obtain ⟨place, hplace, hfield⟩ := readFields_writeField field
  rw [hfield, readFields_comma hplace, separate, foldr_prepend, List.append_nil]

theorem readFields_writeField_lineFeed (field : List Char) (rest : List UInt8) :
    readFields .front (utf8 (writeField field) ++ byte '\n' :: rest) = ([utf8 field], rest) := by
  obtain ⟨place, hplace, hfield⟩ := readFields_writeField field
  rw [hfield, readFields_lineFeed hplace, foldr_prepend, List.append_nil]

end

/-! ## One record -/

section
variable {field : List Char} {fields : List (List Char)} {rest : List UInt8}

theorem readFields_joined (hfields : fields ≠ []) : readFields .front
    (utf8 (List.intersperse [','] (fields.map writeField)).flatten ++ byte '\n' :: rest) =
      (fields.map utf8, rest) := by
  induction fields with
  | nil => exact absurd rfl hfields
  | cons field fields ih =>
    cases fields with
    | nil =>
      show readFields .front (utf8 (writeField field ++ []) ++ byte '\n' :: rest) = _
      rw [List.append_nil, readFields_writeField_lineFeed]
      rfl
    | cons next fields =>
      have hcomma : utf8 (List.intersperse [','] ((field :: next :: fields).map writeField)).flatten =
          utf8 (writeField field) ++ byte ',' ::
            utf8 (List.intersperse [','] ((next :: fields).map writeField)).flatten := by
        rw [List.map_cons, List.map_cons, List.intersperse_cons_cons, List.flatten_cons,
          List.flatten_cons, utf8_append, utf8_append]
        rfl
      rw [hcomma, List.append_assoc, List.cons_append, readFields_writeField_comma,
        ih (List.cons_ne_nil _ _)]
      rfl

theorem readFields_writeRecord (hfields : fields ≠ []) :
    readFields .front (utf8 (writeRecord fields) ++ rest) = (fields.map utf8, rest) := by
  unfold writeRecord
  split
  · rfl
  · rw [utf8_append, List.append_assoc]
    exact readFields_joined hfields

/-- A record starts with a quote, with a comma, or with the first character of its first field if
that needs no quotes. -/
theorem head?_writeRecord (field : List Char) (fields : List (List Char)) :
    ∃ c, (writeRecord (field :: fields)).head? = some c ∧
      (c = '"' ∨ c = ',' ∨ (field.head? = some c ∧ needsQuotes field = false)) := by
  cases field with
  | nil =>
    cases fields with
    | nil => exact ⟨'"', rfl, .inl rfl⟩
    | cons next fields => exact ⟨',', rfl, .inr (.inl rfl)⟩
  | cons d field =>
    obtain ⟨rest, hrest⟩ : ∃ rest,
        writeRecord ((d :: field) :: fields) = writeField (d :: field) ++ rest := by
      cases fields with
      | nil => exact ⟨['\n'], by simp [writeRecord]⟩
      | cons next fields => exact ⟨_, List.append_assoc _ _ _⟩
    rw [hrest, writeField]
    split
    · exact ⟨'"', rfl, .inl rfl⟩
    · rename_i h
      exact ⟨d, rfl, .inr (.inr ⟨rfl, Bool.eq_false_iff.2 h⟩)⟩

/-- What is written for a record does not start with the end of a line. -/
theorem exists_utf8_writeRecord (hfields : fields ≠ []) :
    ∃ b bytes, utf8 (writeRecord fields) = b :: bytes ∧ isLineEnd b = false := by
  obtain ⟨field, fields, rfl⟩ := List.exists_cons_of_ne_nil hfields
  obtain ⟨c, hhead, hc⟩ := head?_writeRecord field fields
  obtain ⟨text, htext⟩ := List.head?_eq_some_iff.1 hhead
  obtain ⟨b, bytes, hbytes⟩ := List.exists_cons_of_ne_nil (@String.utf8EncodeChar_ne_nil c)
  have hb : b ∈ String.utf8EncodeChar c := hbytes ▸ List.mem_cons_self
  have hend : c ≠ '\r' ∧ c ≠ '\n' := by
    rcases hc with rfl | rfl | ⟨hfirst, hquotes⟩
    · decide
    · decide
    · have hplain := List.any_eq_false.1 hquotes c (List.mem_of_head? hfirst)
      simp_all
  refine ⟨b, bytes ++ utf8 text, ?_, not_isLineEnd_of_mem_utf8EncodeChar hend.1 hend.2 hb⟩
  rw [htext, utf8_cons, hbytes, List.cons_append]

end

/-! ## All records -/

theorem readFrom_cons {b : UInt8} (hb : isLineEnd b = false) (start rest : List UInt8) :
    readFrom start (b :: rest) =
      ⟨start, (readFields .front (b :: rest)).1⟩ ::
        readFrom (readFields .front (b :: rest)).2 (readFields .front (b :: rest)).2 := by
  have hdrop : (b :: rest).dropWhile isLineEnd = b :: rest := by
    rw [List.dropWhile_cons_of_neg (by simp [hb])]
  rw [readFrom]
  split
  · simp_all
  · rename_i h
    rw [hdrop] at h
    cases h
    rfl

theorem fields_readFrom {records : List (List (List Char))} (h : ∀ fields ∈ records, fields ≠ [])
    (start : List UInt8) :
    (readFrom start (utf8 (records.flatMap writeRecord))).map Record.fields =
      records.map (·.map utf8) := by
  induction records generalizing start with
  | nil =>
    rw [readFrom]
    rfl
  | cons fields records ih =>
    obtain ⟨hfields, hrecords⟩ := List.forall_mem_cons.1 h
    obtain ⟨b, bytes, hbytes, hb⟩ := exists_utf8_writeRecord hfields
    have hread := @readFields_writeRecord fields (utf8 (records.flatMap writeRecord)) hfields
    rw [List.flatMap_cons, utf8_append]
    rw [hbytes, List.cons_append] at hread ⊢
    rw [readFrom_cons hb, hread, List.map_cons, ih hrecords, List.map_cons]

/-- The mark of the byte order is a character of its own. -/
theorem dropByteOrderMark_utf8 {text : List Char} (h : text.head? ≠ some '\uFEFF') :
    dropByteOrderMark (utf8 text) = utf8 text := by
  unfold dropByteOrderMark
  split
  · rename_i rest hmark
    have hbytes : utf8 text = String.utf8EncodeChar '\uFEFF' ++ rest := hmark
    cases text with
    | nil => cases hbytes
    | cons c text =>
      rw [utf8_cons] at hbytes
      rw [eq_of_utf8EncodeChar_append hbytes] at h
      exact absurd rfl h
  · rfl

/-- Records are read back as they were written. -/
theorem read_write {records : List (List String)} (h : ∀ fields ∈ records, fields ≠ [])
    (hmark : ∀ text, records.head?.bind List.head? = some text →
      text.toList.head? ≠ some '\uFEFF') :
    (read (write records).toUTF8.toList).map Record.fields =
      records.map (·.map fun text => utf8 text.toList) := by
  have hwrite : write records =
      String.ofList ((records.map (·.map String.toList)).flatMap writeRecord) := by
    rw [write, List.flatMap_map]
  have hfields : ∀ fields ∈ records.map (·.map String.toList), fields ≠ [] := by
    intro fields hfields
    obtain ⟨fields, hmem, rfl⟩ := List.mem_map.1 hfields
    exact fun hnil => h fields hmem (List.map_eq_nil_iff.1 hnil)
  have hfirst : ((records.map (·.map String.toList)).flatMap writeRecord).head? ≠
      some '\uFEFF' := by
    cases records with
    | nil => nofun
    | cons fields records =>
      obtain ⟨text, fields, rfl⟩ := List.exists_cons_of_ne_nil (h fields List.mem_cons_self)
      obtain ⟨c, hhead, hc⟩ := head?_writeRecord text.toList (fields.map String.toList)
      rw [List.map_cons, List.map_cons, List.flatMap_cons, List.head?_append, hhead, Option.some_or]
      rcases hc with rfl | rfl | ⟨hfirst, -⟩
      · decide
      · decide
      · rw [← hfirst]
        exact hmark text rfl
  rw [hwrite, toUTF8_toList, String.toList_ofList, read, dropByteOrderMark_utf8 hfirst,
    fields_readFrom hfields, List.map_map]
  simp

end Spreadsheet.Csv
