import Spreadsheet.Formula.Token
/-!
# From text to tokens

White space separates tokens and is otherwise skipped. Most tokens end at the
next delimiter; a link may contain spaces and is found by its colon; words that
follow one another are one token.

Reading a token takes at least its first character, so that `tokenize` ends.
-/

namespace Spreadsheet.Token

/-- The character may stand in the words of a link. -/
def isWordCharacter (c : Char) : Bool := Unicode.isAlphanumeric c || c = '_'

/-- The character belongs to a comparison. -/
def isComparisonCharacter (c : Char) : Bool := c = '<' || c = '>' || c = '='

/-- The token that is a single character. -/
def ofChar? : Char → Option Token
  | '(' => some openParen
  | ')' => some closeParen
  | ';' => some separator
  | c => (Operator.ofChar? c).map operator

/-- The character is a mark that ends words wherever it stands. -/
def isMark (c : Char) : Bool := (ofChar? c).isSome || isComparisonCharacter c || c = '"'

/-- The character ends a word. -/
def isDelimiter (c : Char) : Bool := Unicode.isWhitespace c || isMark c

/-- The text up to the closing quote and what follows it. A quote written twice is
one quote of the text. -/
def readQuoted : List Char → Option (List Char × List Char)
  | [] => none
  | '"' :: '"' :: rest => (readQuoted rest).map fun (s, rest) => ('"' :: s, rest)
  | '"' :: rest => some ([], rest)
  | c :: rest => (readQuoted rest).map fun (s, rest) => (c :: s, rest)

/-- The character may stand before the colon of a link. -/
def isLinkCharacter (c : Char) : Bool := isWordCharacter c || Unicode.isWhitespace c

/-- The link at the front of the text and what follows it: words and spaces up to a
colon, then an address as long as a word. -/
def readLink? (text : List Char) : Option (Link × List Char) :=
  match text.dropWhile isLinkCharacter with
  | ':' :: rest =>
    (Link.ofText? (text.takeWhile isLinkCharacter ++ ':' :: rest.takeWhile isWordCharacter)).map
      fun l => (l, rest.dropWhile isWordCharacter)
  | _ => none

/-- The number that a word starting with a digit denotes: digits with at most one
point. -/
def readNumber (word : List Char) : Except ParseError Token :=
  if (word.all fun c => c.isDigit || c = '.') && word.count '.' ≤ 1 then
    match Number.readDecimal? word with
    | some d => .ok (number d.toFloat)
    | none => .error (.malformedNumber (String.ofList word))
  else .error (.malformedNumber (String.ofList word))

/-- The text without the white space at its end. -/
def trimEnd (text : List Char) : List Char :=
  (text.reverse.dropWhile Unicode.isWhitespace).reverse

/-- The words that start with the character `c`. They run on over white space up to
the next mark. -/
def readPhrase (c : Char) (rest : List Char) : Token × List Char :=
  let phrase := trimEnd (rest.takeWhile (!isMark ·))
  (word (String.ofList (c :: phrase)), rest.drop phrase.length)

/-- The number, cell or phrase that starts with the character `c`, and what follows it. -/
def readWord (c : Char) (rest : List Char) : Except ParseError (Token × List Char) :=
  if c.isDigit then
    (readNumber (c :: rest.takeWhile (!isDelimiter ·))).map
      (·, rest.dropWhile (!isDelimiter ·))
  else
    match Cell.ofText? (c :: rest.takeWhile (!isDelimiter ·)) with
    | some a => .ok (cell a, rest.dropWhile (!isDelimiter ·))
    | none => .ok (readPhrase c rest)

/-- The token that starts with the character `c`, which is no white space, and what
follows it. -/
def read (c : Char) (rest : List Char) : Except ParseError (Token × List Char) :=
  match ofChar? c with
  | some t => .ok (t, rest)
  | none =>
    if isComparisonCharacter c then
      .ok (comparison (String.ofList (c :: rest.takeWhile isComparisonCharacter)),
        rest.dropWhile isComparisonCharacter)
    else if c = '"' then
      match readQuoted rest with
      | some (s, after) => .ok (text (String.ofList s), after)
      | none => .error .unterminatedText
    else
      match if isWordCharacter c then readLink? (c :: rest) else none with
      | some (l, after) => .ok (link l, after)
      | none => readWord c rest

/-! ## Every token takes a character -/

theorem length_dropWhile_le {α : Type} (p : α → Bool) (l : List α) :
    (l.dropWhile p).length ≤ l.length :=
  (List.dropWhile_suffix p).sublist.length_le

theorem readQuoted_length {text s rest : List Char} (h : readQuoted text = some (s, rest)) :
    rest.length ≤ text.length := by
  fun_induction readQuoted text generalizing s rest with
  | case1 => simp at h
  | case2 text ih =>
    obtain ⟨⟨s', rest'⟩, h', heq⟩ := Option.map_eq_some_iff.1 h
    simp only [Prod.mk.injEq] at heq
    have := ih h'
    simp [← heq.2]; omega
  | case3 => simp_all
  | case4 c text _ _ ih =>
    obtain ⟨⟨s', rest'⟩, h', heq⟩ := Option.map_eq_some_iff.1 h
    simp only [Prod.mk.injEq] at heq
    have := ih h'
    simp [← heq.2]; omega

theorem readLink?_length {c : Char} {text rest : List Char} {l : Link}
    (h : readLink? (c :: text) = some (l, rest)) : rest.length ≤ text.length := by
  unfold readLink? at h
  split at h
  · rename_i after heq
    obtain ⟨l', _, hl⟩ := Option.map_eq_some_iff.1 h
    simp only [Prod.mk.injEq] at hl
    have h1 := length_dropWhile_le isLinkCharacter (c :: text)
    have h2 := length_dropWhile_le isWordCharacter after
    simp only [heq, List.length_cons] at h1
    rw [← hl.2]
    omega
  · simp at h

theorem readWord_length {c : Char} {text rest : List Char} {t : Token}
    (h : readWord c text = .ok (t, rest)) : rest.length ≤ text.length := by
  unfold readWord at h
  split at h
  · cases hn : readNumber (c :: text.takeWhile (!isDelimiter ·)) with
    | error e => rw [hn] at h; simp [Except.map] at h
    | ok t' =>
      rw [hn] at h
      simp only [Except.map, Except.ok.injEq, Prod.mk.injEq] at h
      rw [← h.2]
      exact length_dropWhile_le _ _
  · split at h
    · simp only [Except.ok.injEq, Prod.mk.injEq] at h
      rw [← h.2]
      exact length_dropWhile_le _ _
    · simp only [readPhrase, Except.ok.injEq, Prod.mk.injEq] at h
      simp [← h.2]

/-- What follows a token is no longer than what followed its first character. -/
theorem read_length {c : Char} {text rest : List Char} {t : Token}
    (h : read c text = .ok (t, rest)) : rest.length ≤ text.length := by
  unfold read at h
  split at h
  · simp_all
  · split at h
    · simp only [Except.ok.injEq, Prod.mk.injEq] at h
      rw [← h.2]
      exact length_dropWhile_le _ _
    · split at h
      · split at h
        · rename_i heq
          simp only [Except.ok.injEq, Prod.mk.injEq] at h
          rw [← h.2]
          exact readQuoted_length heq
        · simp at h
      · split at h
        · rename_i heq
          split at heq
          · simp only [Except.ok.injEq, Prod.mk.injEq] at h
            rw [← h.2]
            exact readLink?_length heq
          · simp at heq
        · exact readWord_length h

/-- The tokens of a text. -/
def tokenize (text : List Char) : Except ParseError (List Token) :=
  match _ : text.dropWhile Unicode.isWhitespace with
  | [] => .ok []
  | c :: rest =>
    match _ : read c rest with
    | .error e => .error e
    | .ok (t, rest') => (tokenize rest').map (t :: ·)
termination_by text.length
decreasing_by
  rename_i h hr
  have h1 := length_dropWhile_le Unicode.isWhitespace text
  have h2 := read_length hr
  rw [h] at h1
  simp at h1
  omega

end Spreadsheet.Token
