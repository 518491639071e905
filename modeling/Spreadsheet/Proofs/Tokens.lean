import Mathlib.Control.Monad.Basic
import Spreadsheet.Formula.Lexer
/-!
# Tokens around a mark

No token reaches over an operator, a parenthesis or a separator. So the tokens of
a text are those before such a mark, the mark, and those after it:
`tokenize_append`. And a mark among the tokens cuts the text: `exists_cut`.
-/

namespace Spreadsheet.Token

/-! ## Marks -/

theorem mem_of_ofChar? {o : Char} {t : Token} (h : ofChar? o = some t) :
    o ∈ ['(', ')', ';', '+', '-', '*', '/'] := by
  unfold ofChar? at h
  split at h
  · simp
  · simp
  · simp
  · unfold Operator.ofChar? at h
    split at h <;> simp_all

/-- What the characters of other tokens are not. -/
theorem mark_facts {o : Char} (h : o ∈ ['(', ')', ';', '+', '-', '*', '/']) :
    Unicode.isWhitespace o = false ∧ isMark o = true ∧ isWordCharacter o = false ∧
      isComparisonCharacter o = false ∧ o ≠ '"' ∧ o ≠ ':' := by
  simp only [List.mem_cons, List.not_mem_nil, or_false] at h
  rcases h with rfl | rfl | rfl | rfl | rfl | rfl | rfl <;> decide +kernel

section
variable {o : Char} {t : Token} (ho : ofChar? o = some t)
include ho

theorem isWhitespace_of_mark : Unicode.isWhitespace o = false := (mark_facts (mem_of_ofChar? ho)).1

theorem isMark_of_mark : isMark o = true := (mark_facts (mem_of_ofChar? ho)).2.1

theorem isWordCharacter_of_mark : isWordCharacter o = false :=
  (mark_facts (mem_of_ofChar? ho)).2.2.1

theorem isComparisonCharacter_of_mark : isComparisonCharacter o = false :=
  (mark_facts (mem_of_ofChar? ho)).2.2.2.1

theorem ne_quote_of_mark : o ≠ '"' := (mark_facts (mem_of_ofChar? ho)).2.2.2.2.1

theorem ne_colon_of_mark : o ≠ ':' := (mark_facts (mem_of_ofChar? ho)).2.2.2.2.2

theorem isLinkCharacter_of_mark : isLinkCharacter o = false := by
  unfold isLinkCharacter
  rw [isWordCharacter_of_mark ho, isWhitespace_of_mark ho]
  rfl

theorem isDelimiter_of_mark : isDelimiter o = true := by
  unfold isDelimiter
  rw [isMark_of_mark ho, Bool.or_true]

end

/-! ## Runs of characters -/

theorem takeWhile_append {p : Char → Bool} {o : Char} (ho : p o = false) (x b : List Char) :
    (x ++ o :: b).takeWhile p = x.takeWhile p := by
  induction x with
  | nil => simp [ho]
  | cons c x ih => simp [List.takeWhile_cons, ih]

theorem dropWhile_append {p : Char → Bool} {o : Char} (ho : p o = false) (x b : List Char) :
    (x ++ o :: b).dropWhile p = x.dropWhile p ++ o :: b := by
  induction x with
  | nil => simp [ho]
  | cons c x ih =>
    rw [List.cons_append, List.dropWhile_cons, List.dropWhile_cons, ih]
    split <;> rfl

/-! ## One token before a mark -/

section
variable {o : Char} {t : Token}

theorem readQuoted_append (ho : ofChar? o = some t) {x s r : List Char}
    (h : readQuoted x = some (s, r)) (b : List Char) :
    readQuoted (x ++ o :: b) = some (s, r ++ o :: b) := by
  fun_induction readQuoted x generalizing s r with
  | case1 => cases h
  | case2 x ih =>
    obtain ⟨⟨s', r'⟩, h', heq⟩ := Option.map_eq_some_iff.1 h
    cases heq
    simp only [List.cons_append, readQuoted, ih h', Option.map_some]
  | case3 x hx =>
    cases h
    cases x with
    | nil => simp [readQuoted, ne_quote_of_mark ho]
    | cons c x =>
      have hc : c ≠ '"' := by
        rintro rfl
        exact hx x rfl
      simp [readQuoted, hc]
  | case4 c x hc hc' ih =>
    obtain ⟨⟨s', r'⟩, h', heq⟩ := Option.map_eq_some_iff.1 h
    cases heq
    have hne : c ≠ '"' := by
      rintro rfl
      exact hc' rfl
    simp [readQuoted, hne, ih h']

theorem readLink?_append (ho : ofChar? o = some t) (x b : List Char) :
    readLink? (x ++ o :: b) = (readLink? x).map fun (l, r) => (l, r ++ o :: b) := by
  unfold readLink?
  rw [dropWhile_append (isLinkCharacter_of_mark ho), takeWhile_append (isLinkCharacter_of_mark ho)]
  cases x.dropWhile isLinkCharacter with
  | nil => simp [ne_colon_of_mark ho]
  | cons c rest =>
    by_cases hc : c = ':'
    · subst hc
      simp only [List.cons_append, takeWhile_append (isWordCharacter_of_mark ho),
        dropWhile_append (isWordCharacter_of_mark ho), Option.map_map]
      rfl
    · simp [hc]

theorem length_trimEnd_le (text : List Char) : (trimEnd text).length ≤ text.length := by
  unfold trimEnd
  rw [List.length_reverse]
  exact Nat.le_trans (length_dropWhile_le _ _) (Nat.le_of_eq List.length_reverse)

theorem readPhrase_append (ho : ofChar? o = some t) (c : Char) (x b : List Char) :
    readPhrase c (x ++ o :: b) = ((readPhrase c x).1, (readPhrase c x).2 ++ o :: b) := by
  have hmark : (!isMark o) = false := by rw [isMark_of_mark ho]; rfl
  have hlength : (trimEnd (x.takeWhile (!isMark ·))).length ≤ x.length :=
    Nat.le_trans (length_trimEnd_le _) (List.takeWhile_sublist _).length_le
  unfold readPhrase
  dsimp only
  rw [takeWhile_append hmark, List.drop_append_of_le_length hlength]

theorem readWord_append (ho : ofChar? o = some t) (c : Char) (x b : List Char) :
    readWord c (x ++ o :: b) = (readWord c x).map fun (t, r) => (t, r ++ o :: b) := by
  have hdelimiter : (!isDelimiter o) = false := by rw [isDelimiter_of_mark ho]; rfl
  unfold readWord
  rw [takeWhile_append hdelimiter, dropWhile_append hdelimiter, readPhrase_append ho]
  split
  · cases readNumber (c :: x.takeWhile (!isDelimiter ·)) <;> rfl
  · split <;> rfl

/-- A token before a mark is the same without the mark and what follows it, unless it is a text
that is not closed. -/
theorem read_append (ho : ofChar? o = some t) {c : Char} {x : List Char}
    (h : read c x ≠ .error .unterminatedText) (b : List Char) :
    read c (x ++ o :: b) = (read c x).map fun (t, r) => (t, r ++ o :: b) := by
  unfold read at h ⊢
  split
  · rfl
  · rename_i hc
    simp only [hc] at h
    split
    · rw [takeWhile_append (isComparisonCharacter_of_mark ho),
        dropWhile_append (isComparisonCharacter_of_mark ho)]
      rfl
    · rename_i hcomparison
      split
      · rename_i hquote
        rw [if_neg hcomparison, if_pos hquote] at h
        cases hq : readQuoted x with
        | none => exact absurd (by rw [hq]) h
        | some r =>
          obtain ⟨s, r⟩ := r
          rw [readQuoted_append ho hq]
          rfl
      · rw [← List.cons_append, readLink?_append ho, readWord_append ho]
        by_cases hword : isWordCharacter c
        · simp only [hword, if_true]
          cases readLink? (c :: x) <;> rfl
        · simp only [hword]
          rfl

end

/-! ## What is left after a token -/

theorem readQuoted_suffix {x s r : List Char} (h : readQuoted x = some (s, r)) : r <:+ x := by
  fun_induction readQuoted x generalizing s r with
  | case1 => cases h
  | case2 x ih =>
    obtain ⟨⟨s', r'⟩, h', heq⟩ := Option.map_eq_some_iff.1 h
    cases heq
    exact (ih h').trans ⟨['"', '"'], rfl⟩
  | case3 x =>
    cases h
    exact List.suffix_cons _ _
  | case4 c x _ _ ih =>
    obtain ⟨⟨s', r'⟩, h', heq⟩ := Option.map_eq_some_iff.1 h
    cases heq
    exact (ih h').trans (List.suffix_cons _ _)

theorem readLink?_suffix {c : Char} {x r : List Char} {l : Link} (hc : isLinkCharacter c)
    (h : readLink? (c :: x) = some (l, r)) : r <:+ x := by
  unfold readLink? at h
  rw [List.dropWhile_cons_of_pos hc] at h
  split at h
  · rename_i rest hrest
    obtain ⟨l', _, heq⟩ := Option.map_eq_some_iff.1 h
    cases heq
    have hsuffix : ':' :: rest <:+ x := hrest ▸ List.dropWhile_suffix _
    exact ((List.dropWhile_suffix _).trans (List.suffix_cons _ _)).trans hsuffix
  · cases h

theorem readWord_suffix {c : Char} {x r : List Char} {t : Token}
    (h : readWord c x = .ok (t, r)) : r <:+ x := by
  unfold readWord at h
  split at h
  · cases hn : readNumber (c :: x.takeWhile (!isDelimiter ·)) with
    | error e =>
      rw [hn] at h
      cases h
    | ok t' =>
      rw [hn] at h
      cases h
      exact List.dropWhile_suffix _
  · split at h
    · cases h
      exact List.dropWhile_suffix _
    · cases h
      exact List.drop_suffix _ _

/-- What is left after a token is the end of the text. -/
theorem read_suffix {c : Char} {x r : List Char} {t : Token} (h : read c x = .ok (t, r)) :
    r <:+ x := by
  unfold read at h
  split at h
  · cases h
    exact List.suffix_rfl
  · split at h
    · cases h
      exact List.dropWhile_suffix _
    · split at h
      · split at h
        · rename_i hq
          cases h
          exact readQuoted_suffix hq
        · cases h
      · split at h
        · rename_i hlink
          split at hlink
          · rename_i hword
            cases h
            have hc : isLinkCharacter c := by rw [isLinkCharacter, hword, Bool.true_or]
            exact readLink?_suffix hc hlink
          · cases hlink
        · exact readWord_suffix h

theorem readNumber_ne_unterminated {word : List Char} :
    readNumber word ≠ .error .unterminatedText := by
  unfold readNumber
  split
  · split <;> simp
  · simp

/-- Only a text in quotes can be left open. -/
theorem read_ne_unterminated {c : Char} {x : List Char} (hc : c ≠ '"') :
    read c x ≠ .error .unterminatedText := by
  unfold read
  split
  · simp
  · split
    · simp
    · split
      · simp
      · unfold readWord
        split
        · have hnumber := @readNumber_ne_unterminated (c :: x.takeWhile (!isDelimiter ·))
          cases hn : readNumber (c :: x.takeWhile (!isDelimiter ·)) with
          | error e => simpa [Except.map, hn] using hnumber
          | ok t => simp [Except.map]
        · split <;> simp

/-- A mark among the tokens is a character of the text. -/
theorem read_eq_mark {c : Char} {x r : List Char} {t : Token} (h : read c x = .ok (t, r))
    (ht : ∃ o, ofChar? o = some t) : ofChar? c = some t ∧ r = x := by
  obtain ⟨o, ho⟩ := ht
  have hmark : t = openParen ∨ t = closeParen ∨ t = separator ∨ ∃ op, t = operator op := by
    unfold ofChar? at ho
    split at ho
    · simp_all
    · simp_all
    · simp_all
    · obtain ⟨op, -, rfl⟩ := Option.map_eq_some_iff.1 ho
      simp
  unfold read at h
  split at h
  · cases h
    exact ⟨‹_›, rfl⟩
  · exfalso
    split at h
    · cases h
      simp at hmark
    · split at h
      · split at h
        · cases h
          simp at hmark
        · cases h
      · split at h
        · cases h
          simp at hmark
        · unfold readWord at h
          split at h
          · unfold readNumber at h
            split at h
            · split at h
              · cases h
                simp at hmark
              · cases h
            · cases h
          · split at h
            · cases h
              simp at hmark
            · cases h
              simp at hmark

/-! ## All tokens around a mark -/

section
variable {text : List Char}

theorem tokenize_of_nil (h : text.dropWhile Unicode.isWhitespace = []) :
    tokenize text = .ok [] := by
  rw [tokenize]
  split
  · rfl
  · simp_all

theorem tokenize_of_error {c : Char} {rest : List Char} {e : ParseError}
    (h : text.dropWhile Unicode.isWhitespace = c :: rest) (hr : read c rest = .error e) :
    tokenize text = .error e := by
  rw [tokenize]
  split
  · simp_all
  · rename_i c' rest' h'
    rw [h] at h'
    cases h'
    split <;> simp_all

theorem tokenize_of_ok {c : Char} {rest after : List Char} {t : Token}
    (h : text.dropWhile Unicode.isWhitespace = c :: rest) (hr : read c rest = .ok (t, after)) :
    tokenize text = (tokenize after).map (t :: ·) := by
  rw [tokenize]
  split
  · simp_all
  · rename_i c' rest' h'
    rw [h] at h'
    cases h'
    split <;> simp_all

/-- The first token starts behind white space. -/
theorem tokenize_eq_cons {t : Token} {ts : List Token} (h : tokenize text = .ok (t :: ts)) :
    ∃ w c rest after, text = w ++ c :: rest ∧ (∀ x ∈ w, Unicode.isWhitespace x) ∧
      Unicode.isWhitespace c = false ∧ read c rest = .ok (t, after) ∧ tokenize after = .ok ts := by
  have hsplit := List.takeWhile_append_dropWhile (p := Unicode.isWhitespace) (l := text)
  cases hdrop : text.dropWhile Unicode.isWhitespace with
  | nil =>
    rw [tokenize_of_nil hdrop] at h
    cases h
  | cons c rest =>
    rw [hdrop] at hsplit
    have hc : Unicode.isWhitespace c = false := by
      have hhead := List.head?_dropWhile_not Unicode.isWhitespace text
      rw [hdrop] at hhead
      simpa using hhead
    refine ⟨text.takeWhile Unicode.isWhitespace, c, rest, ?_⟩
    cases hr : read c rest with
    | error e =>
      rw [tokenize_of_error hdrop hr] at h
      cases h
    | ok r =>
      obtain ⟨t', after⟩ := r
      rw [tokenize_of_ok hdrop hr] at h
      cases hafter : tokenize after with
      | error e =>
        rw [hafter] at h
        cases h
      | ok ts' =>
        rw [hafter] at h
        cases h
        exact ⟨after, hsplit.symm, List.all_eq_true.1 List.all_takeWhile, hc, rfl, hafter⟩

theorem dropWhile_spaces {w : List Char} (hw : ∀ x ∈ w, Unicode.isWhitespace x) {c : Char}
    (hc : Unicode.isWhitespace c = false) (rest : List Char) :
    (w ++ c :: rest).dropWhile Unicode.isWhitespace = c :: rest := by
  rw [List.dropWhile_append_of_pos hw, List.dropWhile_cons_of_neg (by simp [hc])]

theorem tokenize_spaces {w : List Char} (hw : ∀ x ∈ w, Unicode.isWhitespace x) :
    tokenize w = .ok [] := by
  refine tokenize_of_nil ?_
  have hdrop : (w ++ []).dropWhile Unicode.isWhitespace = [] := List.dropWhile_append_of_pos hw
  rwa [List.append_nil] at hdrop

/-- The tokens of a text are those before a mark, the mark, and those after it, unless the mark
stands in a text that is not closed. -/
theorem tokenize_append {a b : List Char} {o : Char} {t : Token} (ho : ofChar? o = some t)
    (ha : tokenize a ≠ .error .unterminatedText) :
    tokenize (a ++ o :: b) = do
      let ts ← tokenize a
      let us ← tokenize b
      return ts ++ t :: us := by
  have hdrop := dropWhile_append (isWhitespace_of_mark ho) a b
  fun_induction tokenize a with
  | case1 a h =>
    rw [h] at hdrop
    have hread : read o b = .ok (t, b) := by rw [read, ho]
    rw [tokenize_of_ok hdrop hread]
    cases tokenize b <;> rfl
  | case2 a c rest h e hr =>
    -- What fails to be a token before the mark still fails with it.
    rw [h] at hdrop
    have hne : read c rest ≠ .error .unterminatedText := by
      rw [hr]
      rintro ⟨⟩
      exact ha rfl
    have hread := read_append ho hne b
    rw [hr] at hread
    exact tokenize_of_error hdrop hread
  | case3 a c rest h t' rest' hr ih =>
    rw [h] at hdrop
    have hread := read_append ho (by rw [hr]; simp) b
    rw [hr] at hread
    have hrest : tokenize rest' ≠ .error .unterminatedText := by
      intro herror
      rw [herror] at ha
      exact ha rfl
    rw [tokenize_of_ok hdrop hread, ih hrest (dropWhile_append (isWhitespace_of_mark ho) rest' b)]
    cases tokenize rest' with
    | error e => rfl
    | ok ts => cases tokenize b <;> rfl

end

/-- A text is read on both sides of a mark as if the other side were not there: no link, phrase,
number, comparison or text in quotes that ends before the mark would have been longer without it. -/
theorem tokenize_mark {a b : List Char} {ta tb : List Token} {o : Char} {t : Token}
    (hmark : (o, t) ∈ [('+', operator .add), ('-', operator .subtract), ('*', operator .multiply),
      ('/', operator .divide), ('(', openParen), (')', closeParen), (';', separator)])
    (ha : tokenize a = .ok ta) (hb : tokenize b = .ok tb) :
    tokenize (a ++ o :: b) = .ok (ta ++ t :: tb) := by
  have ho : ofChar? o = some t := by
    simp only [List.mem_cons, Prod.mk.injEq, List.not_mem_nil, or_false] at hmark
    rcases hmark with ⟨rfl, rfl⟩ | ⟨rfl, rfl⟩ | ⟨rfl, rfl⟩ | ⟨rfl, rfl⟩ | ⟨rfl, rfl⟩ | ⟨rfl, rfl⟩ |
      ⟨rfl, rfl⟩ <;> rfl
  have hclosed : tokenize a ≠ .error .unterminatedText := by
    rw [ha]
    exact nofun
  rw [tokenize_append ho hclosed, ha, hb]
  rfl

/-- Without the mark between them, the words would be the name of one table. -/
theorem tokenize_mark_words :
    let before := "\"yes\" < Sales ".toList
    let after := " 2024:A1".toList
    let c : Cell := ⟨⟨0, by decide⟩, ⟨0, by decide⟩⟩
    tokenize before = .ok [text "yes", comparison "<", word "Sales"] ∧
      tokenize after = .ok [link ⟨"2024", c⟩] ∧
      tokenize (before ++ '*' :: after) =
        .ok [text "yes", comparison "<", word "Sales", operator .multiply, link ⟨"2024", c⟩] := by
  intro before after c
  have hbefore : tokenize before = .ok [text "yes", comparison "<", word "Sales"] := by
    decide +kernel
  have hafter : tokenize after = .ok [link ⟨"2024", c⟩] := by decide +kernel
  exact ⟨hbefore, hafter, tokenize_mark (by simp) hbefore hafter⟩

/-! ## Texts without quotes -/

section
variable {text : List Char} (hquote : '"' ∉ text)
include hquote

theorem tokenize_ne_unterminated : tokenize text ≠ .error .unterminatedText := by
  fun_induction tokenize text with
  | case1 => simp
  | case2 text c rest h e hr =>
    have hc : c ∈ text := (List.dropWhile_suffix _).subset (h ▸ List.mem_cons_self)
    have hne : c ≠ '"' := fun heq => hquote (heq ▸ hc)
    rintro ⟨⟩
    exact read_ne_unterminated hne hr
  | case3 text c rest h t rest' hr ih =>
    have hsuffix : rest' <:+ text :=
      ((read_suffix hr).trans (List.suffix_cons c rest)).trans (h ▸ List.dropWhile_suffix _)
    have hrest := ih fun hq => hquote (hsuffix.subset hq)
    intro herror
    cases ht : tokenize rest' with
    | error e =>
      rw [ht] at herror hrest
      cases herror
      exact hrest rfl
    | ok ts =>
      rw [ht] at herror
      cases herror

/-- A mark among the tokens cuts the text. -/
theorem exists_cut {ts us : List Token} {t : Token} (h : tokenize text = .ok (ts ++ t :: us))
    (ht : ∃ o, ofChar? o = some t) :
    ∃ a o b, text = a ++ o :: b ∧ ofChar? o = some t ∧ tokenize a = .ok ts ∧
      tokenize b = .ok us := by
  induction ts generalizing text with
  | nil =>
    obtain ⟨w, c, rest, after, rfl, hw, -, hr, hafter⟩ := tokenize_eq_cons h
    obtain ⟨hc, rfl⟩ := read_eq_mark hr ht
    exact ⟨w, c, after, rfl, hc, tokenize_spaces hw, hafter⟩
  | cons t' ts ih =>
    obtain ⟨w, c, rest, after, rfl, hw, hc, hr, hafter⟩ := tokenize_eq_cons h
    obtain ⟨pre, rfl⟩ := read_suffix hr
    have hquote' : '"' ∉ after := fun hq => hquote (by simp [hq])
    obtain ⟨a, o, b, rfl, ho, hta, htb⟩ := ih hquote' hafter
    refine ⟨w ++ c :: (pre ++ a), o, b, by simp, ho, ?_, htb⟩
    -- What is read before the mark is read without it too.
    have hne : c ≠ '"' := fun heq => hquote (by simp [heq])
    have hread := read_append ho (@read_ne_unterminated c (pre ++ a) hne) b
    rw [List.append_assoc, hr] at hread
    cases hr' : read c (pre ++ a) with
    | error e =>
      rw [hr'] at hread
      cases hread
    | ok r =>
      obtain ⟨t'', rest'⟩ := r
      rw [hr'] at hread
      simp only [Except.map, Except.ok.injEq, Prod.mk.injEq, List.append_cancel_right_eq] at hread
      obtain ⟨rfl, rfl⟩ := hread
      rw [tokenize_of_ok (dropWhile_spaces hw hc _) hr', hta]
      rfl

/-- A mark of the text is among its tokens. -/
theorem mem_of_mark {ts : List Token} (h : tokenize text = .ok ts) {o : Char} {t : Token}
    (ho : ofChar? o = some t) (hmem : o ∈ text) : t ∈ ts := by
  obtain ⟨a, b, rfl⟩ := List.append_of_mem hmem
  have ha : '"' ∉ a := fun hq => hquote (List.mem_append_left _ hq)
  rw [tokenize_append ho (tokenize_ne_unterminated ha)] at h
  cases hta : tokenize a with
  | error e =>
    rw [hta] at h
    cases h
  | ok ta =>
    cases htb : tokenize b with
    | error e =>
      rw [hta, htb] at h
      cases h
    | ok tb =>
      rw [hta, htb] at h
      cases h
      simp

end

end Spreadsheet.Token
