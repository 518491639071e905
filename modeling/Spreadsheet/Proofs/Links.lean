import Mathlib.Data.List.TakeWhile
import Spreadsheet.Proofs.Grammar
import Spreadsheet.Proofs.Tokens
/-!
# Links among tokens

A link is recognised twice: as an address, where its name consists of the
characters of identifiers, and among the tokens of a formula, where it consists
of letters, numbers, low lines and white space. So the text of a link is one
token exactly if no character of its name belongs to identifiers only:
`Link.tokenize_eq_iff`.
-/

namespace Spreadsheet

/-! ## Characters -/

namespace Unicode

theorem isAscii_of_le {c d : Char} (hd : isAscii d) (h : c ≤ d) : isAscii c := by
  simp only [isAscii, decide_eq_true_eq] at hd ⊢
  exact Nat.lt_of_le_of_lt h hd

theorem isAlphabetic_of_isUpper {c : Char} (h : c.isUpper) : isAlphabetic c := by
  have hle : c ≤ 'Z' := (of_decide_eq_true h).2
  have halpha : c.isAlpha := Bool.or_eq_true_iff.2 (.inl h)
  rwa [isAlphabetic, isAscii_of_le (by decide) hle, if_pos rfl]

theorem isDecimalDigit_of_isDigit {c : Char} (h : c.isDigit) : isDecimalDigit c := by
  have hle : c ≤ '9' := by
    simp only [Char.isDigit, Bool.and_eq_true, decide_eq_true_eq] at h
    exact h.2
  rw [isDecimalDigit, isAscii_of_le (by decide) hle, if_pos rfl, h]

theorem trim_append {w text : List Char} (hw : ∀ x ∈ w, isWhitespace x) :
    trim (w ++ text) = trim text := by
  rw [trim, trim, List.dropWhile_append_of_pos hw]

end Unicode

open Token (isWordCharacter isLinkCharacter)

/-- The character may stand in the name of a table, but in no word of a formula: a mark that is no
letter, a connector but for the low line, or a join control. -/
def Link.isJoining (c : Char) : Bool :=
  (Unicode.isMark c || Unicode.inRanges Unicode.connectorRanges c ||
    Unicode.inRanges Unicode.joinControlRanges c) && !isLinkCharacter c

namespace Token
variable {c : Char}

theorem isLinkCharacter_of_isWordCharacter (h : isWordCharacter c) : isLinkCharacter c := by
  rw [isLinkCharacter, h, Bool.true_or]

theorem isLinkCharacter_of_isWhitespace (h : Unicode.isWhitespace c) : isLinkCharacter c := by
  rw [isLinkCharacter, h, Bool.or_true]

/-- The two classes of characters differ in the joining ones. -/
theorem isLinkCharacter_of_isNameCharacter (h : Link.isNameCharacter c)
    (hc : Link.isJoining c = false) : isLinkCharacter c := by
  simp only [Link.isNameCharacter, Unicode.isIdentifierCharacter, Link.isJoining, isLinkCharacter,
    isWordCharacter, Unicode.isAlphanumeric, Unicode.isNumeric] at h hc ⊢
  grind

/-- No word begins with a character that is a token of another kind, or begins one. -/
theorem kind_of_isWordCharacter (h : isWordCharacter c) :
    ofChar? c = none ∧ isComparisonCharacter c = false ∧ c ≠ '"' := by
  have hothers : ∀ o, isWordCharacter o = false → c ≠ o := by
    rintro o ho rfl
    rw [ho] at h
    cases h
  refine ⟨?_, ?_, hothers '"' (by decide +kernel)⟩
  · cases ho : ofChar? c with
    | none => rfl
    | some t =>
      rw [isWordCharacter_of_mark ho] at h
      cases h
  · have hless := hothers '<' (by decide +kernel)
    have hgreater := hothers '>' (by decide +kernel)
    have hequal := hothers '=' (by decide +kernel)
    simp [isComparisonCharacter, hless, hgreater, hequal]

theorem isLinkCharacter_colon : isLinkCharacter ':' = false := by decide +kernel

end Token

/-! ## The parts of a link -/

theorem Cell.isWordCharacter_of_ofText? {address : List Char} {c : Cell}
    (h : Cell.ofText? address = some c) : ∀ x ∈ address, isWordCharacter x := by
  cases address with
  | nil => cases h
  | cons letter digits =>
    unfold Cell.ofText? at h
    cases hletter : letter.isUpper with
    | false => simp [hletter] at h
    | true =>
      cases hrow : readRow? digits with
      | none => simp [hletter, hrow] at h
      | some row =>
        have hdigits : ∀ x ∈ digits, x.isDigit := by
          cases digits with
          | nil => nofun
          | cons d digits =>
            rw [readRow?, Option.ite_none_right_eq_some, Bool.and_eq_true] at hrow
            exact List.all_eq_true.1 hrow.1.2
        have hupper := Unicode.isAlphabetic_of_isUpper hletter
        have hfirst : isWordCharacter letter := by
          simp [isWordCharacter, Unicode.isAlphanumeric, hupper]
        refine List.forall_mem_cons.2 ⟨hfirst, fun x hx => ?_⟩
        have hdigit := Unicode.isDecimalDigit_of_isDigit (hdigits x hx)
        simp [isWordCharacter, Unicode.isAlphanumeric, Unicode.isNumeric, hdigit]

namespace Link
variable {text : List Char} {l : Link}

/-- White space before a link is no part of it. -/
theorem ofText?_append {w : List Char} (hw : ∀ x ∈ w, Unicode.isWhitespace x) :
    ofText? (w ++ text) = ofText? text := by
  have hname : ∀ x ∈ w, isNameCharacter x := by
    intro x hx
    rw [isNameCharacter, hw x hx, Bool.or_true]
  unfold ofText?
  rw [List.dropWhile_append_of_pos hname, List.takeWhile_append_of_pos hname,
    Unicode.trim_append hw]

/-- A link is written as a name, which does not consist of white space, and an address with a
colon between them. -/
theorem exists_name (h : ofText? text = some l) : ∃ name address, text = name ++ ':' :: address ∧
    (∀ x ∈ name, isNameCharacter x) ∧ Unicode.trim name ≠ [] ∧
      ∀ x ∈ address, isWordCharacter x := by
  have hsplit := List.takeWhile_append_dropWhile (p := isNameCharacter) (l := text)
  unfold ofText? at h
  split at h
  · rename_i address haddress
    rw [haddress] at hsplit
    cases hcell : Cell.ofText? address with
    | none => simp [hcell] at h
    | some c =>
      refine ⟨_, address, hsplit.symm, List.all_eq_true.1 List.all_takeWhile, ?_,
        Cell.isWordCharacter_of_ofText? hcell⟩
      intro hempty
      simp [hempty] at h
  · cases h

/-- Behind white space, the name begins with a character that is none. -/
theorem exists_word (h : ofText? text = some l) : ∃ w c word address,
    text = w ++ c :: (word ++ ':' :: address) ∧ (∀ x ∈ w, Unicode.isWhitespace x) ∧
      Unicode.isWhitespace c = false ∧ (∀ x ∈ c :: word, isNameCharacter x) ∧
      ∀ x ∈ address, isWordCharacter x := by
  obtain ⟨name, address, rfl, hname, hne, haddress⟩ := exists_name h
  have hsplit := List.takeWhile_append_dropWhile (p := Unicode.isWhitespace) (l := name)
  have hhead := List.head?_dropWhile_not Unicode.isWhitespace name
  cases hdrop : name.dropWhile Unicode.isWhitespace with
  | nil =>
    rw [Unicode.trim, hdrop] at hne
    exact absurd rfl hne
  | cons c word =>
    rw [hdrop] at hsplit hhead
    refine ⟨name.takeWhile Unicode.isWhitespace, c, word, address, ?_,
      List.all_eq_true.1 List.all_takeWhile, by simpa using hhead, ?_, haddress⟩
    · rw [← List.cons_append, ← List.append_assoc, hsplit]
    · exact fun x hx => hname x (hsplit ▸ List.mem_append_right _ hx)

end Link

namespace Token
variable {text name address rest after : List Char} {l : Link} {c : Char}

/-- A link is read up to the end of its address. -/
theorem readLink?_eq (hname : ∀ x ∈ name, isLinkCharacter x)
    (haddress : ∀ x ∈ address, isWordCharacter x) :
    readLink? (name ++ ':' :: address) =
      (Link.ofText? (name ++ ':' :: address)).map fun l => (l, []) := by
  have hcolon : ¬ isLinkCharacter ':' := by simp [isLinkCharacter_colon]
  have htake : address.takeWhile isWordCharacter = address := List.takeWhile_eq_self_iff.2 haddress
  have hdrop : address.dropWhile isWordCharacter = [] := List.dropWhile_eq_nil_iff.2 haddress
  unfold readLink?
  rw [List.dropWhile_append_of_pos hname, List.takeWhile_append_of_pos hname,
    List.dropWhile_cons_of_neg hcolon, List.takeWhile_cons_of_neg hcolon]
  simp only [htake, hdrop, List.append_nil]

theorem read_eq_link (hc : Unicode.isWhitespace c = false)
    (hname : ∀ x ∈ c :: name, isLinkCharacter x) (haddress : ∀ x ∈ address, isWordCharacter x)
    (h : Link.ofText? (c :: (name ++ ':' :: address)) = some l) :
    read c (name ++ ':' :: address) = .ok (link l, []) := by
  have hword : isWordCharacter c := by
    simpa [isLinkCharacter, hc] using hname c List.mem_cons_self
  obtain ⟨hmark, hcomparison, hquote⟩ := kind_of_isWordCharacter hword
  have hlink := readLink?_eq hname haddress
  rw [List.cons_append, h] at hlink
  unfold read
  simp only [hmark, hcomparison, hquote, hword, hlink, Bool.false_eq_true, if_false, if_true,
    Option.map_some]

theorem readWord_ne_link : readWord c rest ≠ .ok (link l, after) := by
  unfold readWord readNumber
  intro h
  split at h
  · split at h
    · split at h <;> cases h
    · cases h
  · split at h <;> cases h

/-- Only links are read as links. -/
theorem readLink?_of_read (h : read c rest = .ok (link l, after)) :
    readLink? (c :: rest) = some (l, after) := by
  unfold read at h
  split at h
  · rename_i t ho
    cases h
    obtain ⟨hne, -⟩ := mark_facts (mem_of_ofChar? ho)
    unfold ofChar? at ho
    split at ho <;> simp_all
  · split at h
    · cases h
    · split at h
      · split at h <;> cases h
      · split at h
        · rename_i hlink
          cases h
          split at hlink
          · exact hlink
          · cases hlink
        · exact absurd h readWord_ne_link

/-- What is read as a link consists of characters of links and a colon. -/
theorem isLinkCharacter_of_read (h : read c rest = .ok (link l, after)) :
    ∃ front, c :: rest = front ++ after ∧ ∀ x ∈ front, x ≠ ':' → isLinkCharacter x := by
  have hlink := readLink?_of_read h
  have hsplit := List.takeWhile_append_dropWhile (p := isLinkCharacter) (l := c :: rest)
  unfold readLink? at hlink
  split at hlink
  · rename_i address haddress
    obtain ⟨l', -, heq⟩ := Option.map_eq_some_iff.1 hlink
    cases heq
    rw [haddress] at hsplit
    refine ⟨(c :: rest).takeWhile isLinkCharacter ++ ':' :: address.takeWhile isWordCharacter,
      ?_, ?_⟩
    · rw [List.append_assoc, List.cons_append, List.takeWhile_append_dropWhile, hsplit]
    · intro x hx hcolon
      rcases List.mem_append.1 hx with hx | hx
      · exact List.all_eq_true.1 List.all_takeWhile x hx
      · have hmem := (List.mem_cons.1 hx).resolve_left hcolon
        exact isLinkCharacter_of_isWordCharacter (List.all_eq_true.1 List.all_takeWhile x hmem)
  · cases hlink

theorem isWhitespace_of_tokenize_eq_nil (h : tokenize text = .ok []) :
    ∀ x ∈ text, Unicode.isWhitespace x := by
  refine List.dropWhile_eq_nil_iff.1 ?_
  cases hdrop : text.dropWhile Unicode.isWhitespace with
  | nil => rfl
  | cons c rest =>
    cases hr : read c rest with
    | error e =>
      rw [tokenize_of_error hdrop hr] at h
      cases h
    | ok r =>
      rw [tokenize_of_ok hdrop hr] at h
      cases ht : tokenize r.2 with
      | error e => rw [ht] at h; cases h
      | ok ts => rw [ht] at h; cases h

/-! ## The one token of a link -/

theorem tokenize_eq_link (h : Link.ofText? text = some l)
    (hjoining : ∀ x ∈ text, Link.isJoining x = false) : tokenize text = .ok [link l] := by
  obtain ⟨w, c, name, address, rfl, hw, hc, hname, haddress⟩ := Link.exists_word h
  have hlink : ∀ x ∈ c :: name, isLinkCharacter x := by
    intro x hx
    refine isLinkCharacter_of_isNameCharacter (hname x hx) (hjoining x ?_)
    rw [← List.cons_append, ← List.append_assoc]
    exact List.mem_append_left _ (List.mem_append_right _ hx)
  rw [Link.ofText?_append hw] at h
  rw [tokenize_of_ok (dropWhile_spaces hw hc _) (read_eq_link hc hlink haddress h),
    tokenize_of_nil rfl]
  rfl

theorem isLinkCharacter_of_tokenize (h : tokenize text = .ok [link l]) :
    ∀ x ∈ text, x ≠ ':' → isLinkCharacter x := by
  obtain ⟨w, c, rest, after, rfl, hw, -, hr, hafter⟩ := tokenize_eq_cons h
  obtain ⟨front, hfront, hchars⟩ := isLinkCharacter_of_read hr
  rw [hfront]
  intro x hx hcolon
  rcases List.mem_append.1 hx with hx | hx
  · exact isLinkCharacter_of_isWhitespace (hw x hx)
  · rcases List.mem_append.1 hx with hx | hx
    · exact hchars x hx hcolon
    · exact isLinkCharacter_of_isWhitespace (isWhitespace_of_tokenize_eq_nil hafter x hx)

end Token

/-- The text of a link is one token, and a formula by itself, exactly if none of its characters is
a mark, a connector or a join control that words of a formula do not have. -/
theorem Link.tokenize_eq_iff {text : List Char} {l : Link} (h : ofText? text = some l) :
    (Token.tokenize text = .ok [.link l] ↔ ∀ x ∈ text, isJoining x = false) ∧
      ((∀ x ∈ text, isJoining x = false) → Expr.ofFormula ('=' :: text) = .ok (.link l)) := by
  refine ⟨⟨fun htokens x hx => ?_, Token.tokenize_eq_link h⟩, fun hjoining => ?_⟩
  · by_cases hcolon : x = ':'
    · subst hcolon
      decide +kernel
    · simp [isJoining, Token.isLinkCharacter_of_tokenize htokens x hx hcolon]
  · exact Expr.ofText_of_derives (Token.tokenize_eq_link h hjoining)
      (.product (.signed (.primary (.link l))))

/-- A name in two words, with letters beyond ASCII and white space around it. -/
theorem Link.tokenize_eq_iff_words :
    let text := "  Größe_2 2024 :A1".toList
    let l : Link := ⟨"Größe_2 2024", ⟨⟨0, by decide⟩, ⟨0, by decide⟩⟩⟩
    ofText? text = some l ∧ (∀ x ∈ text, isJoining x = false) ∧
      Token.tokenize text = .ok [.link l] ∧ Expr.ofFormula ('=' :: text) = .ok (.link l) := by
  intro text l
  have h : ofText? text = some l := by decide +kernel
  have hjoining : ∀ x ∈ text, isJoining x = false := by
    have hall : text.all fun x => !isJoining x := by decide +kernel
    simpa using hall
  obtain ⟨htokens, hformula⟩ := tokenize_eq_iff h
  exact ⟨h, hjoining, htokens.2 hjoining, hformula hjoining⟩

/-- The accent of a letter joins the word in the name of a table. In a formula it ends the name
there, and so the whole is a text that stands for itself. -/
theorem Link.tokenize_accent :
    let text := ['e', '\u0301', ':', 'A', '1']
    let l : Link := ⟨String.ofList ['e', '\u0301'], ⟨⟨0, by decide⟩, ⟨0, by decide⟩⟩⟩
    ofText? text = some l ∧ Token.tokenize text = .ok [.word (String.ofList text)] ∧
      Expr.ofFormula ('=' :: text) = .ok (.text (String.ofList text)) := by
  intro text l
  have htokens : Token.tokenize text = .ok [.word (String.ofList text)] := by decide +kernel
  exact ⟨by decide +kernel, htokens, Expr.ofText_of_derives htokens
    (.product (.signed (.primary (.word _))))⟩

end Spreadsheet
