import Spreadsheet.Proofs.Layouts
import Spreadsheet.Proofs.Links
/-!
# White space between tokens

White space at the end of a text is no part of a token, and a mark is a token
wherever it stands. So white space next to a mark changes nothing about the
tokens of a text: `tokenize_insert`.
-/

namespace Spreadsheet.Token

/-- All characters are white space. -/
def Blank (w : List Char) : Prop := ∀ c ∈ w, Unicode.isWhitespace c

section
variable {w x : List Char} {c : Char}

/-! ## Runs of characters -/

theorem Blank.takeWhile_append {p : Char → Bool} (hw : Blank w)
    (hp : ∀ c, Unicode.isWhitespace c → p c = false) (x : List Char) :
    (x ++ w).takeWhile p = x.takeWhile p := by
  cases w with
  | nil => rw [List.append_nil]
  | cons o w => exact Token.takeWhile_append (hp o (hw o List.mem_cons_self)) x w

theorem Blank.dropWhile_append {p : Char → Bool} (hw : Blank w)
    (hp : ∀ c, Unicode.isWhitespace c → p c = false) (x : List Char) :
    (x ++ w).dropWhile p = x.dropWhile p ++ w := by
  cases w with
  | nil => rw [List.append_nil, List.append_nil]
  | cons o w => exact Token.dropWhile_append (hp o (hw o List.mem_cons_self)) x w

/-- The numbers of the characters that are white space. -/
def blanks : List Nat :=
  List.range' 0x09 5 ++ List.range' 0x2000 11 ++
    [0x20, 0x85, 0xA0, 0x1680, 0x2028, 0x2029, 0x202F, 0x205F, 0x3000]

theorem mem_blanks (hc : Unicode.isWhitespace c) : c.toNat ∈ blanks := by
  simp only [blanks, List.mem_append, List.mem_range'_1, List.mem_cons, List.not_mem_nil, or_false]
  unfold Unicode.isWhitespace at hc
  split at hc
  · simp at hc
    omega
  · simp [Unicode.inRanges, Unicode.whitespaceRanges] at hc
    omega

theorem blank_facts (hc : Unicode.isWhitespace c) :
    isWordCharacter c = false ∧ isMark c = false ∧ c ≠ ':' := by
  have hall : ∀ n ∈ blanks, isWordCharacter (Char.ofNat n) = false ∧ isMark (Char.ofNat n) = false ∧
      Char.ofNat n ≠ ':' := by decide +kernel
  have hfacts := hall c.toNat (mem_blanks hc)
  rwa [Char.ofNat_toNat] at hfacts

theorem isComparisonCharacter_of_isWhitespace (hc : Unicode.isWhitespace c) :
    isComparisonCharacter c = false := by
  have hmark := (blank_facts hc).2.1
  simp only [isMark, Bool.or_eq_false_iff] at hmark
  exact hmark.1.2

theorem isDelimiter_of_isWhitespace (hc : Unicode.isWhitespace c) : isDelimiter c = true := by
  rw [isDelimiter, hc, Bool.true_or]

theorem ofChar?_of_isWhitespace (hc : Unicode.isWhitespace c) : ofChar? c = none := by
  cases ho : ofChar? c with
  | none => rfl
  | some t =>
    rw [isWhitespace_of_mark ho] at hc
    cases hc

/-! ## White space at the end -/

theorem readLink?_blank (hw : Blank w) (x : List Char) :
    readLink? (x ++ w) = (readLink? x).map fun (l, r) => (l, r ++ w) := by
  have hlink : w.dropWhile isLinkCharacter = [] := by
    rw [List.dropWhile_eq_nil_iff]
    intro c hc
    rw [isLinkCharacter, hw c hc, Bool.or_true]
  have hword : ∀ c, Unicode.isWhitespace c → isWordCharacter c = false :=
    fun c hc => (blank_facts hc).1
  unfold readLink?
  rw [List.dropWhile_append]
  cases hdrop : x.dropWhile isLinkCharacter with
  | nil =>
    rw [List.isEmpty_nil, if_pos rfl, hlink]
    rfl
  | cons c rest =>
    have htake : (x ++ w).takeWhile isLinkCharacter = x.takeWhile isLinkCharacter := by
      have hlength := congrArg List.length
        (List.takeWhile_append_dropWhile (p := isLinkCharacter) (l := x))
      rw [List.length_append, hdrop, List.length_cons] at hlength
      rw [List.takeWhile_append, if_neg (by omega)]
    rw [htake, List.isEmpty_cons, if_neg (by simp), List.cons_append]
    by_cases hcolon : c = ':'
    · subst hcolon
      simp only [hw.takeWhile_append hword, hw.dropWhile_append hword, Option.map_map]
      rfl
    · simp [hcolon]

theorem trimEnd_blank (hw : Blank w) (x : List Char) : trimEnd (x ++ w) = trimEnd x := by
  unfold trimEnd
  rw [List.reverse_append, List.dropWhile_append_of_pos]
  exact fun c hc => hw c (List.mem_reverse.1 hc)

theorem readPhrase_blank (hw : Blank w) (c : Char) (x : List Char) :
    readPhrase c (x ++ w) = ((readPhrase c x).1, (readPhrase c x).2 ++ w) := by
  have hphrase : trimEnd ((x ++ w).takeWhile (!isMark ·)) = trimEnd (x.takeWhile (!isMark ·)) := by
    have hmark : w.takeWhile (!isMark ·) = w := by
      rw [List.takeWhile_eq_self_iff]
      intro c hc
      rw [(blank_facts (hw c hc)).2.1]
      rfl
    rw [List.takeWhile_append]
    split
    · rename_i hlength
      have hall : x.takeWhile (!isMark ·) = x :=
        (List.takeWhile_prefix _).eq_of_length hlength
      rw [hmark, hall, trimEnd_blank hw]
    · rfl
  have hlength : (trimEnd (x.takeWhile (!isMark ·))).length ≤ x.length :=
    Nat.le_trans (length_trimEnd_le _) (List.takeWhile_sublist _).length_le
  unfold readPhrase
  dsimp only
  rw [hphrase, List.drop_append_of_le_length hlength]

theorem readWord_blank (hw : Blank w) (c : Char) (x : List Char) :
    readWord c (x ++ w) = (readWord c x).map fun (t, r) => (t, r ++ w) := by
  have hdelimiter : ∀ c, Unicode.isWhitespace c → (!isDelimiter c) = false := fun c hc => by
    rw [isDelimiter_of_isWhitespace hc]
    rfl
  unfold readWord
  rw [hw.takeWhile_append hdelimiter, hw.dropWhile_append hdelimiter, readPhrase_blank hw]
  split
  · cases readNumber (c :: x.takeWhile (!isDelimiter ·)) <;> rfl
  · split <;> rfl

/-- White space at the end is no part of the token before it. -/
theorem read_blank (hw : Blank w) (hc : c ≠ '"') (x : List Char) :
    read c (x ++ w) = (read c x).map fun (t, r) => (t, r ++ w) := by
  unfold read
  split
  · rfl
  · split
    · rw [hw.takeWhile_append fun _ => isComparisonCharacter_of_isWhitespace,
        hw.dropWhile_append fun _ => isComparisonCharacter_of_isWhitespace]
      rfl
    · rw [← List.cons_append, readLink?_blank hw, readWord_blank hw]
      by_cases hword : isWordCharacter c
      · simp only [hword, if_true]
        cases readLink? (c :: x) <;> rfl
      · simp only [hword]
        rfl

/-! ## All tokens -/

/-- White space at the end has no tokens. -/
theorem tokenize_append_blank (hw : Blank w) (hquote : '"' ∉ x) :
    tokenize (x ++ w) = tokenize x := by
  fun_induction tokenize x with
  | case1 x h =>
    refine tokenize_spaces fun c hc => ?_
    rcases List.mem_append.1 hc with hc | hc
    · exact List.dropWhile_eq_nil_iff.1 h c hc
    · exact hw c hc
  | case2 x c rest h e hr =>
    have hc : c ≠ '"' := fun heq =>
      hquote (heq ▸ (List.dropWhile_suffix _).subset (h ▸ List.mem_cons_self))
    have hdrop : (x ++ w).dropWhile Unicode.isWhitespace = c :: (rest ++ w) := by
      rw [List.dropWhile_append, h]
      rfl
    have hread := read_blank hw hc rest
    rw [hr] at hread
    exact tokenize_of_error hdrop hread
  | case3 x c rest h t rest' hr ih =>
    have hc : c ≠ '"' := fun heq =>
      hquote (heq ▸ (List.dropWhile_suffix _).subset (h ▸ List.mem_cons_self))
    have hdrop : (x ++ w).dropWhile Unicode.isWhitespace = c :: (rest ++ w) := by
      rw [List.dropWhile_append, h]
      rfl
    have hsuffix : rest' <:+ x :=
      ((read_suffix hr).trans (List.suffix_cons c rest)).trans (h ▸ List.dropWhile_suffix _)
    have hread := read_blank hw hc rest
    rw [hr] at hread
    rw [tokenize_of_ok hdrop hread, ih fun hq => hquote (hsuffix.subset hq)]

/-- White space in front has no tokens. -/
theorem tokenize_blank_append (hw : Blank w) (x : List Char) : tokenize (w ++ x) = tokenize x := by
  have hdrop : (w ++ x).dropWhile Unicode.isWhitespace = x.dropWhile Unicode.isWhitespace :=
    List.dropWhile_append_of_pos hw
  cases hx : x.dropWhile Unicode.isWhitespace with
  | nil => rw [tokenize_of_nil hx, tokenize_of_nil (hdrop.trans hx)]
  | cons c rest =>
    cases hr : read c rest with
    | error e => rw [tokenize_of_error hx hr, tokenize_of_error (hdrop.trans hx) hr]
    | ok r => rw [tokenize_of_ok hx hr, tokenize_of_ok (hdrop.trans hx) hr]

/-- The texts meet at a mark, or one of them is empty. -/
def Meet (a b : List Char) : Prop :=
  (∀ o ∈ a.getLast?, (ofChar? o).isSome) ∨ ∀ o ∈ b.head?, (ofChar? o).isSome

/-- White space next to a mark, or at the end of a text, changes nothing about its tokens. -/
theorem tokenize_insert {a b : List Char} (hw : Blank w) (hquote : '"' ∉ a ++ b)
    (hmeet : Meet a b) : tokenize (a ++ (w ++ b)) = tokenize (a ++ b) := by
  have ha : '"' ∉ a := fun h => hquote (List.mem_append_left _ h)
  rcases hmeet with hlast | hhead
  · rcases List.eq_nil_or_concat a with rfl | ⟨a, o, rfl⟩
    · exact tokenize_blank_append hw b
    · obtain ⟨t, ho⟩ := Option.isSome_iff_exists.1 (hlast o (by simp))
      have ha' : tokenize a ≠ .error .unterminatedText :=
        tokenize_ne_unterminated fun h => ha (by simp [h])
      simp only [List.concat_eq_append, List.append_assoc, List.singleton_append]
      rw [tokenize_append ho ha', tokenize_append ho ha', tokenize_blank_append hw]
  · cases b with
    | nil => rw [List.append_nil, List.append_nil, tokenize_append_blank hw ha]
    | cons o b =>
      obtain ⟨t, ho⟩ := Option.isSome_iff_exists.1 (hhead o (by simp))
      have ha' : tokenize a ≠ .error .unterminatedText := tokenize_ne_unterminated ha
      rw [← List.append_assoc, tokenize_append ho (by rwa [tokenize_append_blank hw ha]),
        tokenize_append ho ha', tokenize_append_blank hw ha]

/-- Only white space has no tokens. -/
theorem trim_isEmpty_iff : (Unicode.trim x).isEmpty ↔ tokenize x = .ok [] := by
  refine ⟨tokenize_of_trim, fun h => ?_⟩
  unfold Unicode.trim
  rw [List.dropWhile_eq_nil_iff.2 (isWhitespace_of_tokenize_eq_nil h)]
  rfl

end
end Spreadsheet.Token
