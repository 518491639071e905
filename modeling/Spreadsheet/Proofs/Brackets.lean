import Spreadsheet.Proofs.Grammar
import Spreadsheet.Proofs.Nesting
import Spreadsheet.Proofs.Tokens
/-!
# The parentheses of a formula

Outside quotes, the parentheses of a text are those among its tokens, in the same
order: `parentheses_tokenize`. So a text from whose tokens the grammar derives an
expression is closed, and its parentheses are nested no deeper than the
derivation: `closed_of_derives`.
-/

namespace Spreadsheet

/-- The character is a parenthesis. -/
def isParenthesis (c : Char) : Bool := c = '(' || c = ')'

/-- The parenthesis that the token is, if it is one. -/
def Token.parenthesis : Token → List Char
  | openParen => ['(']
  | closeParen => [')']
  | _ => []

/-- The parentheses among tokens, in order. -/
def Token.parentheses (ts : List Token) : List Char := ts.flatMap parenthesis

namespace Textual

theorem isParenthesis_eq_false_iff {c : Char} : isParenthesis c = false ↔ IsPlain c := by
  simp [isParenthesis, IsPlain]

section
variable {depth : Nat} {text : List Char}

theorem openAfter_filter : openAfter depth (text.filter isParenthesis) = openAfter depth text := by
  induction text generalizing depth with
  | nil => rfl
  | cons c text ih =>
    cases hc : isParenthesis c with
    | true =>
      rw [List.filter_cons_of_pos hc, openAfter, openAfter, ih, ih, ih]
    | false =>
      rw [List.filter_cons_of_neg (by simp [hc]),
        openAfter_plain (isParenthesis_eq_false_iff.1 hc), ih]

theorem nestingFrom_filter :
    nestingFrom depth (text.filter isParenthesis) = nestingFrom depth text := by
  fun_induction nestingFrom depth text with
  | case1 => rfl
  | case2 depth rest ih =>
    rw [List.filter_cons_of_pos (by rfl), nestingFrom, ih]
  | case3 depth rest ih =>
    rw [List.filter_cons_of_pos (by rfl), nestingFrom, ih]
  | case4 depth c rest hopen hclose ih =>
    have hc : IsPlain c := ⟨hopen, hclose⟩
    rw [List.filter_cons_of_neg (by simp [isParenthesis_eq_false_iff.2 hc]), ih]

end

end Textual

namespace Token

theorem parentheses_append (ts us : List Token) :
    parentheses (ts ++ us) = parentheses ts ++ parentheses us := List.flatMap_append

theorem parentheses_cons (t : Token) (ts : List Token) :
    parentheses (t :: ts) = t.parenthesis ++ parentheses ts := List.flatMap_cons

theorem parenthesis_of_isParenthesis {c : Char} (hc : isParenthesis c) :
    ∃ t, ofChar? c = some t ∧ t.parenthesis = [c] := by
  simp only [isParenthesis, Bool.or_eq_true, decide_eq_true_eq] at hc
  rcases hc with rfl | rfl
  · exact ⟨openParen, rfl, rfl⟩
  · exact ⟨closeParen, rfl, rfl⟩

theorem isParenthesis_of_parenthesis {t : Token} {o : Char} (ho : ofChar? o = some t)
    (ht : t.parenthesis ≠ []) : isParenthesis o := by
  have hmem := mem_of_ofChar? ho
  simp only [List.mem_cons, List.not_mem_nil, or_false] at hmem
  rcases hmem with rfl | rfl | rfl | rfl | rfl | rfl | rfl <;> cases ho
  · rfl
  · rfl
  all_goals exact absurd rfl ht

theorem exists_ofChar?_of_parenthesis {t : Token} (ht : t.parenthesis ≠ []) :
    ∃ o, ofChar? o = some t := by
  cases t with
  | openParen => exact ⟨'(', rfl⟩
  | closeParen => exact ⟨')', rfl⟩
  | _ => exact absurd rfl ht

/-- The parentheses of a text without quotes are those among its tokens. -/
theorem parentheses_tokenize {text : List Char} (hquote : '"' ∉ text) {ts : List Token}
    (h : tokenize text = .ok ts) : text.filter isParenthesis = parentheses ts := by
  induction hn : text.length using Nat.strongRecOn generalizing text ts with
  | ind n ih =>
    subst hn
    -- A parenthesis of the text cuts the tokens too, and both sides are shorter.
    by_cases hsome : ∃ c ∈ text, isParenthesis c
    · obtain ⟨c, hmem, hc⟩ := hsome
      obtain ⟨a, b, rfl⟩ := List.append_of_mem hmem
      obtain ⟨t, ht, hparenthesis⟩ := parenthesis_of_isParenthesis hc
      have ha : '"' ∉ a := fun hq => hquote (List.mem_append_left _ hq)
      have hb : '"' ∉ b := fun hq => hquote (List.mem_append_right _ (List.mem_cons_of_mem _ hq))
      rw [tokenize_append ht (tokenize_ne_unterminated ha)] at h
      obtain ⟨ta, hta, h⟩ := Reader.bind_eq_ok h
      obtain ⟨tb, htb, h⟩ := Reader.bind_eq_ok h
      cases h
      rw [List.filter_append, List.filter_cons_of_pos hc, parentheses_append, parentheses_cons,
        hparenthesis, ih a.length (by simp) ha hta rfl, ih b.length (by simp; omega) hb htb rfl]
      rfl
    · have hnone : parentheses ts = [] := by
        apply List.flatMap_eq_nil_iff.2
        intro t ht
        by_cases hp : t.parenthesis = []
        · exact hp
        · obtain ⟨us, vs, rfl⟩ := List.append_of_mem ht
          obtain ⟨a, o, b, rfl, ho, -, -⟩ := exists_cut hquote h (exists_ofChar?_of_parenthesis hp)
          exact absurd ⟨o, by simp, isParenthesis_of_parenthesis ho hp⟩ hsome
      rw [hnone]
      refine List.filter_eq_nil_iff.2 fun c hc hparenthesis => hsome ⟨c, hc, hparenthesis⟩

end Token

namespace Textual
variable {text : List Char} {ts : List Token}

/-- A text is closed if the parentheses among its tokens are. -/
theorem closed_of_tokens (hquote : '"' ∉ text) (h : Token.tokenize text = .ok ts)
    (hts : Closed (Token.parentheses ts)) : Closed text := by
  rw [← Token.parentheses_tokenize hquote h] at hts
  exact openAfter_filter.symm.trans hts

/-- The parentheses of a text are nested as deeply as those among its tokens. -/
theorem nestingDepth_of_tokens (hquote : '"' ∉ text) (h : Token.tokenize text = .ok ts) :
    nestingDepth text = nestingDepth (Token.parentheses ts) := by
  rw [← Token.parentheses_tokenize hquote h]
  exact nestingFrom_filter.symm

end Textual

/-! ## What the grammar derives is closed -/

namespace Textual

/-- The parentheses of the text match and are at most `n` deep. -/
def NestedWithin (n : Nat) (text : List Char) : Prop := Closed text ∧ nestingDepth text ≤ n

section
variable {n n' : Nat} {a b : List Char}

theorem nestedWithin_nil : NestedWithin n [] := ⟨closed_nil, Nat.zero_le n⟩

theorem NestedWithin.append (ha : NestedWithin n a) (hb : NestedWithin n b) :
    NestedWithin n (a ++ b) :=
  ⟨ha.1.append hb.1, by rw [nestingDepth_append ha.1]; exact Nat.max_le.2 ⟨ha.2, hb.2⟩⟩

theorem NestedWithin.group (ha : NestedWithin n a) : NestedWithin (n + 1) ('(' :: a ++ [')']) :=
  ⟨ha.1.group, by rw [nestingDepth_group ha.1]; exact Nat.succ_le_succ ha.2⟩

end

end Textual

/-- How deep the parentheses of a part may be nested. -/
def Part.nesting (n : Nat) : Part → Nat
  | .primary => n + 1
  | _ => n

section
variable {n : Nat} {ts us : List Token} {t : Token}

theorem nestedWithin_cons (ht : t.parenthesis = [])
    (h : Textual.NestedWithin n (Token.parentheses ts)) :
    Textual.NestedWithin n (Token.parentheses (t :: ts)) := by
  rw [Token.parentheses_cons, ht]
  exact h

theorem nestedWithin_append (hts : Textual.NestedWithin n (Token.parentheses ts))
    (hus : Textual.NestedWithin n (Token.parentheses us)) :
    Textual.NestedWithin n (Token.parentheses (ts ++ us)) := by
  rw [Token.parentheses_append]
  exact hts.append hus

theorem nestedWithin_group (h : Textual.NestedWithin n (Token.parentheses ts)) :
    Textual.NestedWithin (n + 1) (Token.parentheses (.openParen :: ts ++ [.closeParen])) := by
  rw [Token.parentheses_append, Token.parentheses_cons]
  exact h.group

theorem parenthesis_of_callee {name : String} (ht : t.callee? = some name) :
    t.parenthesis = [] := by
  cases t <;> cases ht <;> rfl

end

theorem nestedWithin_parentheses {n : Nat} {p : Part} {ts : List Token} {a : p.Tree}
    (h : Derives n p ts a) : Textual.NestedWithin (p.nesting n) (Token.parentheses ts) := by
  induction h with
  | product _ ih => exact ih
  | loose _ _ _ ihe ihf => exact nestedWithin_append ihe (nestedWithin_cons rfl ihf)
  | signed _ ih => exact ih
  | tight _ _ _ ihe ihf => exact nestedWithin_append ihe (nestedWithin_cons rfl ihf)
  | negate _ ih => exact nestedWithin_cons rfl ⟨ih.1, Nat.le_succ_of_le ih.2⟩
  | plus _ ih => exact nestedWithin_cons rfl ⟨ih.1, Nat.le_succ_of_le ih.2⟩
  | primary _ ih => exact ih
  | number | text | link | cell | word => exact Textual.nestedWithin_nil
  | group _ ih => exact nestedWithin_group ih
  | emptyCall ht =>
    exact nestedWithin_cons (parenthesis_of_callee ht) ⟨rfl, Nat.le_add_left 1 _⟩
  | call ht _ ih => exact nestedWithin_cons (parenthesis_of_callee ht) (nestedWithin_group ih)
  | value _ ih => exact ih
  | condition _ _ _ ihe ihf => exact nestedWithin_append ihe (nestedWithin_cons rfl ihf)
  | criterion _ _ ih => exact nestedWithin_cons rfl ih
  | one _ ih => exact ih
  | more _ _ ihas iha => exact nestedWithin_append ihas (nestedWithin_cons rfl iha)

/-- A text from whose tokens a part is derived is closed, and not nested deeper than the
derivation. -/
theorem closed_of_derives {n : Nat} {p : Part} {ts : List Token} {a : p.Tree}
    (h : Derives n p ts a) {text : List Char} (hquote : '"' ∉ text)
    (htokens : Token.tokenize text = .ok ts) :
    Textual.Closed text ∧ Textual.nestingDepth text ≤ p.nesting n := by
  obtain ⟨hclosed, hdepth⟩ := nestedWithin_parentheses h
  refine ⟨Textual.closed_of_tokens hquote htokens hclosed, ?_⟩
  rw [Textual.nestingDepth_of_tokens hquote htokens]
  exact hdepth

end Spreadsheet
