import Mathlib.Data.List.DropRight
import Spreadsheet.Proofs.Links
/-!
# The texts of addresses

A cell has one text, and that text addresses no other cell, `Cell.ofText?_eq_some_iff`. So reading
an address and writing it undo each other. The text of a link may have white space around the name
of its table, which is left off; the text written without it is read as the same link:
`texts_of_addresses`.
-/

namespace Spreadsheet

/-! ## Row numbers -/

namespace Decimal

theorem digitChar_of_isDigit {c : Char} (h : c.isDigit) :
    c.toNat - '0'.toNat < 10 ∧ (c.toNat - '0'.toNat).digitChar = c := by
  have hbounds : 48 ≤ c.toNat ∧ c.toNat ≤ 57 := by
    simp only [Char.isDigit, Bool.and_eq_true, decide_eq_true_eq, ge_iff_le,
      UInt32.le_iff_toNat_le] at h
    exact h
  have hlt : c.toNat - '0'.toNat < 10 := by
    show c.toNat - 48 < 10
    omega
  refine ⟨hlt, Char.toNat_inj.1 ?_⟩
  rw [Nat.toNat_digitChar_of_lt_ten hlt]
  show 48 + (c.toNat - 48) = c.toNat
  omega

theorem ofDigits_toDigits (n : Nat) : ofDigits (Nat.toDigits 10 n) = n :=
  Nat.ofDigitChars_toDigits (by decide) (by decide)

/-- Digits behind those of a positive number are the last digits of the number they all denote. -/
theorem toDigits_append {n : Nat} (hn : 0 < n) {digits : List Char}
    (h : ∀ c ∈ digits, c.isDigit) :
    Nat.toDigits 10 n ++ digits =
      Nat.toDigits 10 (digits.foldl (fun n c => 10 * n + (c.toNat - '0'.toNat)) n) := by
  induction digits generalizing n with
  | nil => exact List.append_nil _
  | cons c digits ih =>
    obtain ⟨hc, hdigits⟩ := List.forall_mem_cons.1 h
    obtain ⟨hlt, hchar⟩ := digitChar_of_isDigit hc
    have hlast : Nat.toDigits 10 n ++ [c] = Nat.toDigits 10 (10 * n + (c.toNat - '0'.toNat)) := by
      rw [← Nat.toDigits_append_toDigits (by decide) hn hlt, Nat.toDigits_of_lt_base hlt, hchar]
    rw [List.foldl_cons, ← ih (by omega) hdigits, ← hlast, List.append_assoc,
      List.singleton_append]

/-- Digits that start with no zero are those of the number they denote, which is positive. -/
theorem toDigits_ofDigits {d : Char} {digits : List Char} (hd : d ≠ '0')
    (h : ∀ c ∈ d :: digits, c.isDigit) :
    0 < ofDigits (d :: digits) ∧ Nat.toDigits 10 (ofDigits (d :: digits)) = d :: digits := by
  obtain ⟨hdigit, hdigits⟩ := List.forall_mem_cons.1 h
  obtain ⟨hlt, hchar⟩ := digitChar_of_isDigit hdigit
  have hpos : 0 < d.toNat - '0'.toNat := by
    refine Nat.pos_of_ne_zero fun hzero => hd ?_
    rw [← hchar, hzero]
    rfl
  have hfirst : ofDigits (d :: digits) =
      digits.foldl (fun n c => 10 * n + (c.toNat - '0'.toNat)) (d.toNat - '0'.toNat) := by
    rw [ofDigits, List.foldl_cons, Nat.mul_zero, Nat.zero_add]
  have htext : Nat.toDigits 10 (ofDigits (d :: digits)) = d :: digits := by
    rw [hfirst, ← toDigits_append hpos hdigits, Nat.toDigits_of_lt_base hlt, hchar,
      List.singleton_append]
  refine ⟨Nat.pos_of_ne_zero fun hzero => hd ?_, htext⟩
  rw [hzero] at htext
  exact (List.cons.inj htext).1.symm

/-- The digits of a positive number start with no zero. -/
theorem exists_toDigits {n : Nat} (hn : 0 < n) :
    ∃ d digits, Nat.toDigits 10 n = d :: digits ∧ d ≠ '0' := by
  induction n using Nat.strong_induction_on with
  | _ n ih =>
    by_cases hlt : n < 10
    · refine ⟨n.digitChar, [], Nat.toDigits_of_lt_base hlt, fun hzero => ?_⟩
      exact Nat.ne_of_gt hn (Nat.digitChar_eq_zero.1 hzero)
    · obtain ⟨d, digits, hdigits, hd⟩ := ih (n / 10) (by omega) (by omega)
      refine ⟨d, digits ++ [(n % 10).digitChar], ?_, hd⟩
      rw [Nat.toDigits_of_base_le (by decide) (by omega), hdigits, List.cons_append]

end Decimal

namespace Cell
variable {text digits : List Char} {n : Nat} {c : Cell}

/-- A row number is read from the digits of a positive number, and from nothing else. -/
theorem readRow?_eq_some_iff : readRow? digits = some n ↔ 0 < n ∧ digits = Nat.toDigits 10 n := by
  constructor
  · intro h
    cases digits with
    | nil => cases h
    | cons d digits =>
      rw [readRow?, Option.ite_none_right_eq_some, Bool.and_eq_true, decide_eq_true_eq] at h
      obtain ⟨⟨hd, hdigits⟩, hn⟩ := h
      obtain ⟨hpos, htext⟩ := Decimal.toDigits_ofDigits hd (List.all_eq_true.1 hdigits)
      cases hn
      exact ⟨hpos, htext.symm⟩
  · rintro ⟨hn, rfl⟩
    obtain ⟨d, digits, hdigits, hd⟩ := Decimal.exists_toDigits hn
    have hall : (d :: digits).all Char.isDigit := by
      rw [← hdigits, List.all_eq_true]
      exact fun c => Nat.isDigit_of_mem_toDigits (by decide) (by decide)
    rw [hdigits, readRow?, if_pos (by simp [hd, hall]), ← hdigits, Decimal.ofDigits_toDigits]

/-! ## Cells -/

theorem ofIndices_eq_ok_iff {row column : Nat} :
    ofIndices row column = .ok c ↔ row = c.row ∧ column = c.column := by
  unfold ofIndices
  constructor
  · intro h
    split at h
    · split at h
      · cases h
        exact ⟨rfl, rfl⟩
      · cases h
    · cases h
  · rintro ⟨rfl, rfl⟩
    rw [dif_pos c.column.isLt, dif_pos c.row.isLt]

theorem isUpper_iff {letter : Char} : letter.isUpper ↔ 'A' ≤ letter ∧ letter ≤ 'Z' :=
  ⟨fun h => of_decide_eq_true h, fun h => decide_eq_true h⟩

theorem letter_facts (column : Fin columnLimit) :
    (Char.ofNat ('A'.toNat + column)).isUpper ∧
      (Char.ofNat ('A'.toNat + column)).toNat = 'A'.toNat + column := by
  revert column
  decide

/-- The letter of a column is the capital letter as far from the first one as the column is. -/
theorem eq_letter_iff {letter : Char} :
    letter = c.letter ↔ letter.isUpper ∧ letter.toNat - 'A'.toNat = c.column := by
  obtain ⟨hupper, hnat⟩ := letter_facts c.column
  constructor
  · rintro rfl
    refine ⟨hupper, ?_⟩
    rw [Cell.letter, hnat, Nat.add_sub_cancel_left]
  · rintro ⟨hletter, hcolumn⟩
    have hlow : 'A'.toNat ≤ letter.toNat := (isUpper_iff.1 hletter).1
    rw [← Char.toNat_inj, Cell.letter, hnat, ← hcolumn]
    omega

theorem ofText?_cons_eq_some_iff {letter : Char} : ofText? (letter :: digits) = some c ↔
    letter.isUpper ∧ ∃ n, readRow? digits = some n ∧
      ofIndices (n - 1) (letter.toNat - 'A'.toNat) = .ok c := by
  have htoOption : ∀ x : Except AddressError Cell, x.toOption = some c ↔ x = .ok c := by
    rintro (e | d) <;> simp [Except.toOption]
  unfold ofText?
  cases hletter : letter.isUpper with
  | false => simp [hletter]
  | true =>
    cases hrow : readRow? digits with
    | none => simp [hletter, hrow]
    | some n => simpa [hletter, hrow] using htoOption _

/-- A text addresses a cell exactly if it is the text of the cell. -/
theorem ofText?_eq_some_iff : ofText? text = some c ↔ text = c.text.toList := by
  rw [Cell.text, String.toList_ofList]
  cases text with
  | nil => simp [ofText?]
  | cons letter digits =>
    simp only [ofText?_cons_eq_some_iff, readRow?_eq_some_iff, ofIndices_eq_ok_iff, List.cons.injEq,
      eq_letter_iff]
    constructor
    · rintro ⟨hletter, n, ⟨hn, rfl⟩, hrow, hcolumn⟩
      have hsucc : n = c.row.val + 1 := by omega
      exact ⟨⟨hletter, hcolumn⟩, congrArg _ hsucc⟩
    · rintro ⟨⟨hletter, hcolumn⟩, rfl⟩
      exact ⟨hletter, c.row.val + 1, ⟨Nat.succ_pos _, rfl⟩, rfl, hcolumn⟩

theorem ofText_eq_ok_iff {s : String} : ofText s = .ok c ↔ c.text = s := by
  have htext : c.text = s ↔ s.toList = c.text.toList := by
    rw [eq_comm, String.toList_inj]
  rw [htext, ← ofText?_eq_some_iff]
  unfold ofText
  cases ofText? s.toList with
  | none => simp
  | some d => simp

/-- The texts of addresses are the capital letters followed by row numbers. -/
theorem exists_ofText_iff {s : String} : (∃ c, ofText s = .ok c) ↔
    ∃ letter n, ('A' ≤ letter ∧ letter ≤ 'Z') ∧ (1 ≤ n ∧ n ≤ 4294967295) ∧
      s = String.ofList (letter :: Nat.toDigits 10 n) := by
  simp only [ofText_eq_ok_iff, ← isUpper_iff]
  constructor
  · rintro ⟨c, rfl⟩
    have hrow : c.row.val < 4294967295 := c.row.isLt
    exact ⟨c.letter, c.row.val + 1, (eq_letter_iff.1 rfl).1, by omega, rfl⟩
  · rintro ⟨letter, n, hletter, ⟨hn, hlimit⟩, rfl⟩
    have hhigh : letter.toNat ≤ 'Z'.toNat := (isUpper_iff.1 hletter).2
    have hrow : n - 1 < rowLimit := by
      show n - 1 < 4294967295
      omega
    have hcolumn : letter.toNat - 'A'.toNat < columnLimit := by
      show letter.toNat - 'A'.toNat < 'Z'.toNat - 'A'.toNat + 1
      omega
    let c : Cell := ⟨⟨n - 1, hrow⟩, ⟨letter.toNat - 'A'.toNat, hcolumn⟩⟩
    have hc : letter = c.letter := eq_letter_iff.2 ⟨hletter, rfl⟩
    have hn' : n = c.row.val + 1 := by
      show n = n - 1 + 1
      omega
    exact ⟨c, by rw [hc, hn', Cell.text]⟩

end Cell

/-! ## Links -/

namespace Unicode

variable {text : List Char}

theorem trim_eq : trim text = (text.dropWhile isWhitespace).rdropWhile isWhitespace := rfl

/-- A trimmed text begins with no white space. -/
theorem head?_trim : ∀ c ∈ (trim text).head?, isWhitespace c = false := by
  intro c hc
  have hfront : trim text <+: text.dropWhile isWhitespace := List.rdropWhile_prefix _ _
  have hhead := List.head?_dropWhile_not isWhitespace text
  obtain ⟨rest, hrest⟩ := List.head?_eq_some_iff.1 hc
  rw [hrest] at hfront
  obtain ⟨end_, hend⟩ := hfront
  rw [← hend] at hhead
  simpa using hhead

/-- A trimmed text ends with no white space. -/
theorem getLast?_trim : ∀ c ∈ (trim text).getLast?, isWhitespace c = false := by
  intro c hc
  obtain ⟨hne, rfl⟩ := List.mem_getLast?_eq_getLast hc
  exact Bool.eq_false_iff.2 (List.rdropWhile_last_not isWhitespace _ hne)

theorem trim_trim : trim (trim text) = trim text := by
  have hdrop : (trim text).dropWhile isWhitespace = trim text := by
    cases htrim : trim text with
    | nil => rfl
    | cons c rest =>
      have hc := @head?_trim text c (by simp [htrim])
      rw [List.dropWhile_cons_of_neg (by simp [hc])]
  rw [trim_eq, hdrop, trim_eq, List.rdropWhile_idempotent]

theorem mem_of_mem_trim {c : Char} (h : c ∈ trim text) : c ∈ text := by
  have hfront : trim text <+: text.dropWhile isWhitespace := List.rdropWhile_prefix _ _
  exact (List.dropWhile_suffix _).subset (hfront.subset h)

end Unicode

namespace Link
variable {text : List Char} {l : Link}

theorem isNameCharacter_colon : isNameCharacter ':' = false := by decide +kernel

/-- A link is read from a name that does not consist of white space, a colon and the text of a
cell. -/
theorem ofText?_eq_some_iff : ofText? text = some l ↔
    ∃ name, text = name ++ ':' :: l.cell.text.toList ∧ (∀ x ∈ name, isNameCharacter x) ∧
      Unicode.trim name = l.table.toList ∧ l.table.toList ≠ [] := by
  have hcolon : ¬ isNameCharacter ':' := by simp [isNameCharacter_colon]
  constructor
  · intro h
    have hsplit := List.takeWhile_append_dropWhile (p := isNameCharacter) (l := text)
    unfold ofText? at h
    split at h
    · rename_i address haddress
      rw [haddress] at hsplit
      cases hcell : Cell.ofText? address with
      | none => simp [hcell] at h
      | some c =>
        obtain ⟨hne, rfl⟩ : Unicode.trim (text.takeWhile isNameCharacter) ≠ [] ∧
            ⟨String.ofList (Unicode.trim (text.takeWhile isNameCharacter)), c⟩ = l := by
          simpa [hcell] using h
        refine ⟨_, ?_, List.all_eq_true.1 List.all_takeWhile, String.toList_ofList.symm, ?_⟩
        · rw [← Cell.ofText?_eq_some_iff.1 hcell, hsplit]
        · rwa [String.toList_ofList]
    · cases h
  · rintro ⟨name, rfl, hname, htable, hne⟩
    have hcell : Cell.ofText? l.cell.text.toList = some l.cell := Cell.ofText?_eq_some_iff.2 rfl
    unfold ofText?
    rw [List.dropWhile_append_of_pos hname, List.takeWhile_append_of_pos hname,
      List.dropWhile_cons_of_neg hcolon, List.takeWhile_cons_of_neg hcolon, List.append_nil, htable]
    simp [hcell, hne]

theorem ofText_eq_ok_iff {s : String} : ofText s = .ok l ↔ ofText? s.toList = some l := by
  unfold ofText
  cases ofText? s.toList with
  | none => simp
  | some k => simp

/-- The text of a link that is read from some text is read as the link. -/
theorem ofText?_text (h : ofText? text = some l) : ofText? l.text.toList = some l := by
  obtain ⟨name, -, hname, htable, hne⟩ := ofText?_eq_some_iff.1 h
  refine ofText?_eq_some_iff.2 ⟨l.table.toList, ?_, ?_, ?_, hne⟩
  · simp [Link.text]
  · intro x hx
    exact hname x (Unicode.mem_of_mem_trim (htable ▸ hx))
  · rw [← htable, Unicode.trim_trim]

end Link

/-- Texts of addresses and addresses determine each other. A text addresses a cell exactly if it is
a capital letter and a row number without a zero in front, and it is the text of that cell; the text
of every cell addresses it. The text of a link that was read is read as that link, and its table has
a name, with no white space around it. -/
theorem texts_of_addresses :
    (∀ s, (∃ c, Cell.ofText s = .ok c) ↔
      ∃ letter n, ('A' ≤ letter ∧ letter ≤ 'Z') ∧ (1 ≤ n ∧ n ≤ 4294967295) ∧
        s = String.ofList (letter :: Nat.toDigits 10 n)) ∧
    (∀ s c, Cell.ofText s = .ok c → c.text = s) ∧
    (∀ row column c, Cell.ofIndices row column = .ok c →
      Cell.ofText c.text = .ok c ∧ row = c.row ∧ column = c.column) ∧
    ∀ s l, Link.ofText s = .ok l → Link.ofText l.text = .ok l ∧ l.table ≠ "" ∧
      (∀ c ∈ l.table.toList.head?, Unicode.isWhitespace c = false) ∧
      ∀ c ∈ l.table.toList.getLast?, Unicode.isWhitespace c = false := by
  refine ⟨fun s => Cell.exists_ofText_iff, fun s c => Cell.ofText_eq_ok_iff.1, ?_, ?_⟩
  · intro row column c h
    exact ⟨Cell.ofText_eq_ok_iff.2 rfl, Cell.ofIndices_eq_ok_iff.1 h⟩
  · intro s l h
    have hread := Link.ofText_eq_ok_iff.1 h
    obtain ⟨name, -, -, htable, hne⟩ := Link.ofText?_eq_some_iff.1 hread
    refine ⟨Link.ofText_eq_ok_iff.2 (Link.ofText?_text hread), ?_, ?_, ?_⟩
    · rintro hempty
      exact hne (by rw [hempty]; rfl)
    · rw [← htable]
      exact Unicode.head?_trim
    · rw [← htable]
      exact Unicode.getLast?_trim

/-- The last row, and a name with white space around it and in it. -/
theorem texts_of_addresses_last :
    let c : Cell := ⟨⟨4294967294, by decide⟩, ⟨25, by decide⟩⟩
    let l : Link := ⟨"Sales 2024", c⟩
    (Cell.ofText "Z4294967295" = .ok c ∧ c.text = "Z4294967295") ∧
      (Cell.ofIndices 4294967294 25 = .ok c ∧ Cell.ofText c.text = .ok c) ∧
      Link.ofText " Sales 2024\t:Z4294967295" = .ok l ∧ Link.ofText l.text = .ok l := by
  intro c l
  obtain ⟨-, hcell, hindices, hlink⟩ := texts_of_addresses
  have hread : Cell.ofText "Z4294967295" = .ok c := by decide +kernel
  have hmade : Cell.ofIndices 4294967294 25 = .ok c := by decide +kernel
  have hname : Link.ofText " Sales 2024\t:Z4294967295" = .ok l := by decide +kernel
  exact ⟨⟨hread, hcell _ _ hread⟩, ⟨hmade, (hindices _ _ _ hmade).1⟩, hname, (hlink _ _ hname).1⟩

end Spreadsheet
