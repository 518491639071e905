import Spreadsheet.Proofs.Precedence
/-!
# The original spelling

A normalised text can be restored, but for the two groups that were put around
it, `restore_normalize`. What stands for a character is recognised whatever
follows it. Only the two parentheses in front stand for none: if the text begins
with groups, they are taken for a part of those, and so they are found behind
the opening parentheses of the text instead of before them.
-/

namespace Spreadsheet.Textual

section
variable {text rest : List Char}

/-! ## The groups around the whole -/

theorem restore_open (h : ∀ rest, text ≠ '(' :: '(' :: rest) :
    restore ('(' :: text) = '(' :: restore text := by
  rw [restore] <;> simp [h]

theorem restore_pair (h : text.head? ≠ some '(') :
    restore ('(' :: '(' :: text) = '(' :: '(' :: restore text := by
  have hfirst : ∀ rest, '(' :: text ≠ '(' :: '(' :: rest := by
    rintro rest ⟨⟩
    exact h rfl
  have hsecond : ∀ rest, text ≠ '(' :: '(' :: rest := by
    rintro rest rfl
    exact h rfl
  rw [restore_open hfirst, restore_open hsecond]

/-- Only an opening parenthesis is replaced by what starts with one. -/
theorem head?_spreadAll {c : Char} (hc : c ≠ '(') :
    (spreadAll (c :: text) ++ rest).head? ≠ some '(' := by
  have hclose : some ')' ≠ some '(' := by decide
  rw [spreadAll_cons]
  rcases open_or_close_or_plain c with rfl | rfl | hplain
  · exact absurd rfl hc
  · exact hclose
  · cases hop : Operator.ofChar? c with
    | none =>
      rw [spread_plain hplain hop]
      exact fun heq => hc (Option.some.inj heq)
    | some op =>
      rw [symbol_of_ofChar? hop]
      cases op <;> exact hclose

/-- Up to two parentheses in front of a spread text come back in front of the text, though they are
those at the end of the run of parentheses that it begins with. -/
theorem restore_opens_spreadAll {k : Nat} (hk : k ≤ 2) (hrest : rest.head? ≠ some '(') :
    restore (List.replicate k '(' ++ (spreadAll text ++ rest)) =
      List.replicate k '(' ++ (text ++ restore rest) := by
  have hopens : ∀ {y : List Char}, y.head? ≠ some '(' →
      restore (List.replicate k '(' ++ y) = List.replicate k '(' ++ restore y := by
    intro y hy
    obtain rfl | rfl | rfl : k = 0 ∨ k = 1 ∨ k = 2 := by omega
    · rfl
    · refine restore_open ?_
      rintro rest rfl
      exact hy rfl
    · exact restore_pair hy
  induction text with
  | nil => exact hopens hrest
  | cons c text ih =>
    by_cases hc : c = '('
    · subst hc
      have hrun : List.replicate k '(' ++ (spreadAll ('(' :: text) ++ rest) =
          '(' :: '(' :: '(' :: (List.replicate k '(' ++ (spreadAll text ++ rest)) := by
        show List.replicate k '(' ++ (List.replicate 3 '(' ++ (spreadAll text ++ rest)) = _
        rw [← List.append_assoc, List.replicate_append_replicate, Nat.add_comm,
          ← List.replicate_append_replicate]
        rfl
      rw [hrun, restore, ih, List.cons_append, ← List.cons_append, ← List.replicate_succ,
        List.replicate_succ', List.append_assoc]
      rfl
    · rw [hopens (head?_spreadAll hc), restore_spreadAll_append]

theorem restore_pair_spreadAll (hrest : rest.head? ≠ some '(') :
    restore ('(' :: '(' :: (spreadAll text ++ rest)) = '(' :: '(' :: (text ++ restore rest) :=
  restore_opens_spreadAll (k := 2) (Nat.le_refl 2) hrest

/-! ## Balance -/

/-- Each parenthesis becomes three, and each operator brings as many opening as closing ones. -/
theorem count_spreadAll (text : List Char) : ∃ k,
    (spreadAll text).count '(' = 3 * text.count '(' + k ∧
      (spreadAll text).count ')' = 3 * text.count ')' + k := by
  induction text with
  | nil => exact ⟨0, rfl, rfl⟩
  | cons c text ih =>
    obtain ⟨k, hopen, hclose⟩ := ih
    rw [spreadAll_cons, List.count_append, List.count_append, hopen, hclose]
    rcases open_or_close_or_plain c with rfl | rfl | hc
    · refine ⟨k, ?_, ?_⟩ <;> simp [spread]
      omega
    · refine ⟨k, ?_, ?_⟩ <;> simp [spread]
      omega
    · rw [List.count_cons_of_ne hc.1, List.count_cons_of_ne hc.2]
      cases hop : Operator.ofChar? c with
      | none =>
        refine ⟨k, ?_, ?_⟩ <;> simp [spread_plain hc hop, hc.1, hc.2]
      | some op =>
        rw [symbol_of_ofChar? hop]
        cases op with
        | add | subtract => refine ⟨k + 2, ?_, ?_⟩ <;> simp [spread, Operator.symbol] <;> omega
        | multiply | divide => refine ⟨k + 1, ?_, ?_⟩ <;> simp [spread, Operator.symbol] <;> omega

/-- A spread text is balanced exactly if the text is. -/
theorem isBalanced_spreadAll (body : List Char) :
    isBalanced ('(' :: '(' :: spreadAll body ++ [')', ')']) = isBalanced body := by
  obtain ⟨k, hopen, hclose⟩ := count_spreadAll body
  have hiff : (spreadAll body).count '(' + 2 = (spreadAll body).count ')' + 2 ↔
      body.count '(' = body.count ')' := by omega
  rw [Bool.eq_iff_iff]
  simpa [isBalanced] using hiff

theorem normalize_eq (body : List Char) : normalize body =
    if body.count '(' = body.count ')' then '(' :: '(' :: (spreadAll body ++ [')', ')'])
    else body := by
  show (if isBalanced ('(' :: '(' :: spreadAll body ++ [')', ')']) then _ else body) = _
  rw [isBalanced_spreadAll, isBalanced]
  simp only [beq_iff_eq]
  rfl

end

/-- Restoring a normalised text gives the text back within two groups, in whatever order its
parentheses stand. A text that is not balanced is not normalised. -/
theorem restore_normalize (body : List Char) :
    (body.count '(' = body.count ')' →
      restore (normalize body) = '(' :: '(' :: body ++ [')', ')']) ∧
    (body.count '(' ≠ body.count ')' → normalize body = body) := by
  rw [normalize_eq]
  constructor
  · intro h
    rw [if_pos h, restore_pair_spreadAll (by decide)]
    rfl
  · exact fun h => if_neg h

/-- Parentheses in no due order, in runs and next to operators without operands. -/
theorem restore_normalize_runs :
    let body := ")))+((*(".toList
    let unbalanced := "((1)+2".toList
    (body.count '(' = body.count ')' ∧
        restore (normalize body) = '(' :: '(' :: body ++ [')', ')']) ∧
      unbalanced.count '(' ≠ unbalanced.count ')' ∧ normalize unbalanced = unbalanced := by
  intro body unbalanced
  have hbody : body.count '(' = body.count ')' := by decide
  have hunbalanced : unbalanced.count '(' ≠ unbalanced.count ')' := by decide
  exact ⟨⟨hbody, (restore_normalize body).1 hbody⟩,
    hunbalanced, (restore_normalize unbalanced).2 hunbalanced⟩

end Spreadsheet.Textual
