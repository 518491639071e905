import Mathlib.Data.List.Infix
import Spreadsheet.Proofs.Grammar
import Spreadsheet.Proofs.Cuts
import Spreadsheet.Proofs.PrecedenceTree
import Spreadsheet.Proofs.Spelling
import Spreadsheet.Proofs.Pipelines
/-!
# Texts in quotes

A text in quotes, where each quote in it is written twice, is one token and
denotes the text. Reducing a formula from left to right takes no notice of
quotes. So a quoted text is cut at its operators like any other, and then its
first piece begins with a quote that nothing ends, also after its spelling is
restored: `Host.reduce_quoted_of_closed`, `Host.reduce_quoted_of_not_closed`.
Where nothing cuts it, it stands for itself: `Context.evaluate_quoted`.
-/

namespace Spreadsheet

/-! ## Quotes -/

namespace Token

/-- The text with each quote in it written twice. -/
def escape (s : List Char) : List Char := s.flatMap fun c => if c = '"' then ['"', '"'] else [c]

/-- The text in quotes. -/
def quoted (s : List Char) : List Char := '"' :: (escape s ++ ['"'])

section
variable {c : Char} {s a b rest : List Char}

theorem escape_quote : escape ('"' :: s) = '"' :: '"' :: escape s := rfl

theorem escape_cons (hc : c ≠ '"') : escape (c :: s) = c :: escape s := by
  show (if c = '"' then ['"', '"'] else [c]) ++ escape s = _
  rw [if_neg hc]
  rfl

theorem readQuoted_other (hc : c ≠ '"') :
    readQuoted (c :: rest) = (readQuoted rest).map fun (s, rest) => (c :: s, rest) := by
  rw [readQuoted] <;> simp [hc]

theorem readQuoted_end (hrest : rest.head? ≠ some '"') :
    readQuoted ('"' :: rest) = some ([], rest) := by
  rw [readQuoted]
  rintro rest' rfl
  exact hrest rfl

/-- A text in quotes is read up to the quote that ends it. -/
theorem readQuoted_escape (s : List Char) (hrest : rest.head? ≠ some '"') :
    readQuoted (escape s ++ '"' :: rest) = some (s, rest) := by
  induction s with
  | nil => exact readQuoted_end hrest
  | cons c s ih =>
    by_cases hc : c = '"'
    · subst hc
      rw [escape_quote, List.cons_append, List.cons_append, readQuoted, ih]
      rfl
    · rw [escape_cons hc, List.cons_append, readQuoted_other hc, ih]
      rfl

theorem dropWhile_quote :
    ('"' :: rest).dropWhile Unicode.isWhitespace = '"' :: rest :=
  List.dropWhile_cons_of_neg (by decide +kernel)

theorem tokenize_of_readQuoted (h : readQuoted rest = some (s, b)) :
    tokenize ('"' :: rest) = (tokenize b).map (text (String.ofList s) :: ·) := by
  refine tokenize_of_ok dropWhile_quote ?_
  unfold read
  rw [show ofChar? '"' = none from rfl, h]
  rfl

theorem tokenize_of_readQuoted_none (h : readQuoted rest = none) :
    tokenize ('"' :: rest) = .error .unterminatedText := by
  refine tokenize_of_error dropWhile_quote ?_
  unfold read
  rw [show ofChar? '"' = none from rfl, h]
  rfl

theorem tokenize_quoted_append (s : List Char) (hrest : rest.head? ≠ some '"') :
    tokenize (quoted s ++ rest) = (tokenize rest).map (text (String.ofList s) :: ·) := by
  have hquoted : quoted s ++ rest = '"' :: (escape s ++ '"' :: rest) := by simp [quoted]
  rw [hquoted, tokenize_of_readQuoted (readQuoted_escape s hrest)]

theorem tokenize_quoted (s : List Char) : tokenize (quoted s) = .ok [text (String.ofList s)] := by
  have happend := @tokenize_quoted_append [] s nofun
  rw [List.append_nil, tokenize_spaces (List.forall_mem_nil _)] at happend
  exact happend

theorem tokenize_open (rest : List Char) :
    tokenize ('(' :: rest) = (tokenize rest).map (openParen :: ·) :=
  tokenize_of_ok (List.dropWhile_cons_of_neg (by decide +kernel)) rfl

/-- Characters that are no quotes, in front, do not close a text. -/
theorem readQuoted_append_eq_none (ha : '"' ∉ a) :
    readQuoted (a ++ b) = none ↔ readQuoted b = none := by
  induction a with
  | nil => rfl
  | cons c a ih =>
    rw [List.cons_append, readQuoted_other (fun heq => ha (heq ▸ List.mem_cons_self)),
      Option.map_eq_none_iff]
    exact ih fun h => ha (List.mem_cons_of_mem c h)

theorem readQuoted_pair : readQuoted ('"' :: '"' :: rest) = none ↔ readQuoted rest = none := by
  rw [readQuoted, Option.map_eq_none_iff]

/-- What has been cut off at a mark was not closed in front of it either. -/
theorem readQuoted_left {o : Char} {t : Token} (ho : ofChar? o = some t)
    (h : readQuoted (a ++ o :: b) = none) : readQuoted a = none := by
  cases ha : readQuoted a with
  | none => rfl
  | some r =>
    obtain ⟨s, r⟩ := r
    rw [readQuoted_append ho ha] at h
    cases h

end

end Token

namespace Textual
open Token (escape quoted readQuoted)

theorem quote_notMem_spread {c : Char} (hc : c ≠ '"') : '"' ∉ spread c := by
  unfold spread
  split <;> simp_all [eq_comm]

/-- Spreading closes no text. -/
theorem readQuoted_spreadAll (s : List Char) : readQuoted (spreadAll (escape s)) = none := by
  induction s with
  | nil => rfl
  | cons c s ih =>
    by_cases hc : c = '"'
    · subst hc
      exact Token.readQuoted_pair.2 ih
    · rw [Token.escape_cons hc, spreadAll_cons]
      exact (Token.readQuoted_append_eq_none (quote_notMem_spread hc)).2 ih

/-- Restoring closes no text, and takes no quote for the first one of a pair that was not. -/
theorem readQuoted_restore (y : List Char) :
    (readQuoted y = none → readQuoted (restore y) = none) ∧
      (readQuoted ('"' :: y) = none → readQuoted ('"' :: restore y) = none) := by
  fun_induction restore y with
  | case1 rest ih | case2 rest ih | case3 rest ih | case4 rest ih | case5 rest ih
  | case6 rest ih => simpa [readQuoted] using ih.1
  | case7 c rest _ _ _ _ _ _ ih =>
    by_cases hc : c = '"'
    · subst hc
      exact ⟨ih.2, fun h => Token.readQuoted_pair.2 (ih.1 (Token.readQuoted_pair.1 h))⟩
    · rw [Token.readQuoted_other hc, Token.readQuoted_other hc, Option.map_eq_none_iff,
        Option.map_eq_none_iff, Token.readQuoted_end (by simp [hc])]
      refine ⟨ih.1, fun h => ?_⟩
      cases h
  | case8 => exact ⟨id, id⟩

/-- Restoring leaves a quote in its place, and changes the parentheses in front of it only in
number. -/
theorem exists_restore_opens (j : Nat) (y : List Char) : ∃ k,
    restore (List.replicate j '(' ++ '"' :: y) = List.replicate k '(' ++ '"' :: restore y := by
  have hquote : restore ('"' :: y) = '"' :: restore y := restore_plain ⟨by decide, by decide⟩ y
  induction j using Nat.strongRecOn with
  | ind j ih =>
    match j with
    | 0 => exact ⟨0, hquote⟩
    | 1 =>
      refine ⟨1, ?_⟩
      rw [← hquote]
      exact restore_open (by simp)
    | 2 =>
      refine ⟨2, ?_⟩
      rw [← hquote]
      exact restore_pair nofun
    | j + 3 =>
      obtain ⟨k, hk⟩ := ih j (by omega)
      refine ⟨k + 1, ?_⟩
      show restore ('(' :: '(' :: '(' :: (List.replicate j '(' ++ '"' :: y)) = _
      rw [restore, hk]
      rfl

end Textual

theorem Token.tokenize_opens {y : List Char} (h : readQuoted y = none) (k : Nat) :
    tokenize (List.replicate k '(' ++ '"' :: y) = .error .unterminatedText := by
  induction k with
  | zero => exact tokenize_of_readQuoted_none h
  | succ k ih =>
    rw [List.replicate_succ, List.cons_append, tokenize_open, ih]
    rfl

/-! ## A quote that nothing ends -/

section
variable {σ : Type} {host : Host (Run σ)}

theorem Host.evaluateOperand_opens {y : List Char} (h : Token.readQuoted y = none) (j : Nat) :
    host.evaluateOperand (List.replicate j '(' ++ '"' :: y) =
      Evaluation.fail (.malformed .unterminatedText) := by
  obtain ⟨k, hk⟩ := Textual.exists_restore_opens j y
  have htokens := Token.tokenize_opens ((Textual.readQuoted_restore y).1 h) k
  rw [← hk] at htokens
  have hne : ¬ (Unicode.trim (Textual.restore (List.replicate j '(' ++ '"' :: y))).isEmpty := by
    intro hempty
    rw [Token.tokenize_of_trim hempty] at htokens
    cases htokens
  have hparsed : Expr.ofText (Textual.restore (List.replicate j '(' ++ '"' :: y)) =
      .error .unterminatedText := by
    unfold Expr.ofText
    rw [htokens]
    rfl
  unfold evaluateOperand
  dsimp only
  rw [if_neg hne, hparsed]
  rfl

/-- What stands before a mark still begins with the parentheses and the quote. -/
theorem exists_opens_of_append {j : Nat} {y a b : List Char} {o : Char} {t : Token}
    (ho : Token.ofChar? o = some t) (hopen : o ≠ '(') (hy : Token.readQuoted y = none)
    (h : List.replicate j '(' ++ '"' :: y = a ++ o :: b) :
    ∃ y', a = List.replicate j '(' ++ '"' :: y' ∧ Token.readQuoted y' = none := by
  rw [List.append_cons] at h
  rcases Textual.split_at h with ⟨y', rfl, rfl⟩ | ⟨y', hfront, -⟩
  · exact ⟨y', by simp, Token.readQuoted_left ho hy⟩
  · -- The mark would be one of the parentheses or the quote.
    have hmem : o ∈ List.replicate j '(' ++ ['"'] := by simp [hfront]
    rcases List.mem_append.1 hmem with hmem | hmem
    · exact absurd (List.mem_replicate.1 hmem).2 hopen
    · exact absurd (List.mem_singleton.1 hmem) (Token.ne_quote_of_mark ho)

theorem operands_opens {j : Nat} {y : List Char} (hy : Token.readQuoted y = none) :
    ∃ y', (Textual.operands (List.replicate j '(' ++ '"' :: y)).1 =
      List.replicate j '(' ++ '"' :: y' ∧ Token.readQuoted y' = none := by
  cases hcut : Textual.cut? (List.replicate j '(' ++ '"' :: y) with
  | none => exact ⟨y, by rw [Textual.operands_of_cut?_none hcut], hy⟩
  | some p =>
    obtain ⟨before, op, after⟩ := p
    rw [Textual.operands_of_cut? hcut]
    exact exists_opens_of_append (Token.ofChar?_operator op) (Textual.isPlain_symbol op).1 hy
      (Textual.eq_of_cut? hcut)

/-- A text whose first operand has a quote that nothing ends comes to that failure, through all
groups in front of the quote. -/
theorem reduceWithin_unterminated {levels j : Nat} {text y : List Char}
    (hfirst : (Textual.operands text).1 = List.replicate j '(' ++ '"' :: y)
    (hy : Token.readQuoted y = none) (hj : j ≤ levels) (s : σ) :
    (Textual.reduceWithin host.evaluateOperand Evaluation.arithmetic levels text s).1 =
      .error (.malformed .unterminatedText) := by
  have hleaf : ∀ s, (host.evaluateOperand (List.replicate j '(' ++ '"' :: y) s).1 =
      .error (.malformed .unterminatedText) := by
    intro s
    rw [Host.evaluateOperand_opens hy]
    rfl
  induction levels generalizing j text y s with
  | zero =>
    obtain rfl : j = 0 := Nat.le_zero.1 hj
    rw [Textual.reduceWithin]
    apply joinOperands_failed
    rw [hfirst, Textual.group?_of_head (by simp)]
    exact hleaf s
  | succ levels ih =>
    rw [Textual.reduceWithin]
    apply joinOperands_failed
    rw [hfirst]
    cases hgroup : Textual.group? (List.replicate j '(' ++ '"' :: y) with
    | none => exact hleaf s
    | some inner =>
      obtain ⟨htext, -⟩ := Textual.group?_eq_some_iff.1 hgroup
      cases j with
      | zero => cases htext
      | succ j =>
        obtain ⟨y', rfl, hy'⟩ :=
          exists_opens_of_append (o := ')') rfl (by decide) hy (List.cons.inj htext).2
        obtain ⟨y'', hfirst', hy''⟩ := @operands_opens j y' hy'
        refine ih hfirst' hy'' (Nat.le_of_succ_le_succ hj) s fun s => ?_
        rw [Host.evaluateOperand_opens hy'']
        rfl

/-- If a text in quotes is cut, the first quote is not ended in front of the operator. -/
theorem reduceWithin_of_cut {levels j : Nat} (hj : j ≤ levels) {s z text : List Char}
    (htext : text = List.replicate j '(' ++ (Textual.spreadAll (Token.quoted s) ++ z))
    (hz : ∀ op : Operator, op.symbol ∉ z) (hcut : (Textual.cut? text).isSome) (st : σ) :
    (Textual.reduceWithin host.evaluateOperand Evaluation.arithmetic levels text st).1 =
      .error (.malformed .unterminatedText) := by
  obtain ⟨⟨before, op, after⟩, hsome⟩ := Option.isSome_iff_exists.1 hcut
  have hend : op.symbol ∉ '"' :: z := by
    intro hmem
    rcases List.mem_cons.1 hmem with heq | hmem
    · exact Token.ne_quote_of_mark (Token.ofChar?_operator op) heq
    · exact hz op hmem
  have heq : (List.replicate j '(' ++ '"' :: Textual.spreadAll (Token.escape s)) ++ '"' :: z =
      before ++ op.symbol :: after := by
    rw [← Textual.eq_of_cut? hsome, htext]
    show _ = _ ++ ('"' :: Textual.spreadAll (Token.escape s ++ ['"']) ++ z)
    rw [Textual.spreadAll_append]
    simp [Textual.spreadAll, Textual.spread]
  obtain ⟨y, hy, hyquoted⟩ : ∃ y, before = List.replicate j '(' ++ '"' :: y ∧
      Token.readQuoted y = none := by
    rcases Textual.split_at heq with ⟨front, -, hback⟩ | ⟨back, hfront, -⟩
    · exact absurd (hback ▸ List.mem_append_right front List.mem_cons_self) hend
    · exact exists_opens_of_append (Token.ofChar?_operator op) (Textual.isPlain_symbol op).1
        (Textual.readQuoted_spreadAll s) hfront
  exact reduceWithin_unterminated (by rw [Textual.operands_of_cut? hsome, hy]) hyquoted hj st

end

namespace Textual
open Token (escape quoted)

section
variable {all : Bool} {depth : Nat} {text : List Char}

/-! ## Texts in quotes as they are -/

theorem filter_quoted (s : List Char) :
    (quoted s).filter isParenthesis = s.filter isParenthesis := by
  have hescape : (escape s).filter isParenthesis = s.filter isParenthesis := by
    induction s with
    | nil => rfl
    | cons c s ih =>
      by_cases hc : c = '"'
      · subst hc
        exact ih
      · rw [Token.escape_cons hc, List.filter_cons, List.filter_cons, ih]
  show ((escape s ++ ['"']).filter isParenthesis) = _
  rw [List.filter_append, hescape]
  exact List.append_nil _

theorem count_quoted {c : Char} (hc : isParenthesis c) (s : List Char) :
    (quoted s).count c = s.count c := by
  rw [← List.count_filter hc, filter_quoted, List.count_filter hc]

theorem nestingDepth_quoted (s : List Char) : nestingDepth (quoted s) = nestingDepth s := by
  unfold nestingDepth
  rw [← nestingFrom_filter, filter_quoted, nestingFrom_filter]

theorem openAfter_quoted (s : List Char) : openAfter 0 (quoted s) = openAfter 0 s := by
  rw [← openAfter_filter, filter_quoted, openAfter_filter]

theorem severs_quote : severs all depth ('"' :: text) = severs all depth text := by
  rw [severs, depthBehind.eq_3 depth '"' (by decide) (by decide)]
  simp [Operator.ofChar?]

/-- The quotes change nothing about where a text is cut. -/
theorem severed_quoted (s : List Char) : severed (quoted s) = severed s := by
  have hescape : ∀ all depth, severs all depth (escape s ++ ['"']) = severs all depth s := by
    induction s with
    | nil => exact fun all depth => severs_quote
    | cons c s ih =>
      intro all depth
      by_cases hc : c = '"'
      · subst hc
        rw [Token.escape_quote, List.cons_append, List.cons_append, severs_quote, severs_quote,
          severs_quote, ih]
      · rw [Token.escape_cons hc, List.cons_append, severs, severs, ih]
  unfold severed
  rw [openAfter_quoted, quoted, severs_quote, hescape]

end

theorem restore_quoted_groups (s : List Char) :
    restore ('(' :: '(' :: (spreadAll (quoted s) ++ [')', ')'])) =
      '(' :: '(' :: (quoted s ++ [')', ')']) := by
  rw [restore_pair_spreadAll (by decide)]
  rfl

end Textual

/-! ## Evaluation -/

namespace Expr
open Token

theorem ofText_quoted (s : List Char) : ofText (quoted s) = .ok (.text (String.ofList s)) :=
  ofText_of_derives (tokenize_quoted s) (.product (.signed (.primary (.text _))))

theorem ofText_quoted_groups (s : List Char) :
    ofText ('(' :: '(' :: (quoted s ++ [')', ')'])) = .ok (.text (String.ofList s)) := by
  have hclose : tokenize [')', ')'] = .ok [closeParen, closeParen] := by decide +kernel
  have htokens : tokenize ('(' :: '(' :: (quoted s ++ [')', ')'])) =
      .ok [openParen, openParen, .text (String.ofList s), closeParen, closeParen] := by
    rw [tokenize_open, tokenize_open, tokenize_quoted_append s (by decide), hclose]
    rfl
  have htext : Derives 126 .sum [Token.text (String.ofList s)] (.text (String.ofList s)) :=
    .product (.signed (.primary (.text _)))
  have hgroup : Derives 127 .sum (openParen :: [Token.text (String.ofList s)] ++ [closeParen])
      (.text (String.ofList s)) := .product (.signed (.primary (.group htext)))
  exact ofText_of_derives htokens (.product (.signed (.primary (.group hgroup))))

end Expr

namespace Host
open Textual
variable {σ : Type} {host : Host (Run σ)} {s : List Char}

theorem evaluateOperand_of_ofText {token : List Char} {e : Expr}
    (h : Expr.ofText (restore token) = .ok e) :
    host.evaluateOperand token = host.evaluateExpr e := by
  have hne : ¬ (Unicode.trim (restore token)).isEmpty := by
    intro hempty
    unfold Expr.ofText at h
    rw [Token.tokenize_of_trim hempty] at h
    cases h
  unfold evaluateOperand
  dsimp only
  rw [if_neg hne, h]
  rfl

theorem evaluateExpr_text (s : String) : host.evaluateExpr (.text s) = pure (.text s) := rfl

theorem evaluateOperand_quoted :
    host.evaluateOperand (spreadAll (Token.quoted s)) = pure (.text (String.ofList s)) := by
  rw [evaluateOperand_of_ofText (e := .text (String.ofList s)), evaluateExpr_text]
  rw [restore_spreadAll]
  exact Expr.ofText_quoted s

theorem operator_notMem_closes (op : Operator) : op.symbol ∉ [')', ')'] := by
  cases op <;> decide

/-- A text in quotes whose parentheses match, if no operator cuts it, is evaluated as a whole, and
otherwise the first piece of it has a quote that nothing ends. -/
theorem reduce_quoted_of_closed (hclosed : Closed (Token.quoted s))
    (hdepth : nestingDepth (Token.quoted s) ≤ nestingLimit) (st : σ) :
    (reduce host.evaluateOperand Evaluation.arithmetic (normalize (Token.quoted s)) st).1 =
      if severed (Token.quoted s) then .error (.malformed .unterminatedText)
      else .text (String.ofList s) := by
  have hsevered : severed (Token.quoted s) = severs true 0 (Token.quoted s) := by
    unfold severed
    rw [decide_eq_true (p := openAfter 0 (Token.quoted s) = some 0) hclosed]
  have hlays := (lays_layout hclosed hdepth).1
  rw [hsevered]
  clear hsevered
  generalize hbody : Token.quoted s = body at *
  generalize layout body = l at hlays
  cases hlays with
  | @loose _ a b op l r hop ha hb =>
    rw [if_pos (ha.severs_loose hop), normalize_closed hclosed]
    refine reduceWithin_of_cut (j := 2) (s := s) (by decide) ?_ operator_notMem_closes ?_ st
    · rw [hbody]
      rfl
    · simpa using ha.isSome_cut?_loose (b := b) hop []
  | product h =>
    cases h with
    | @tight _ a b op l r hop ha hb =>
      have hsevers : severs true 0 (a ++ op.symbol :: b) := by
        rw [severs_append ha.pieces.1.closed, severs_operator rfl, Bool.or_true]
      rw [if_pos hsevers, normalize_closed hclosed, Rank.wrap_sum]
      -- The sum is a single group, in which the product is cut.
      show (reduceWithin host.evaluateOperand Evaluation.arithmetic (385 + 1) _ st).1 = _
      rw [reduceWithin_group (Lays.tight hop ha hb).joined.1.closed]
      refine reduceWithin_of_cut (j := 1) (s := s) (z := [')']) (by decide) ?_ ?_
        (ha.isSome_cut?_tight hop) st
      · rw [hbody]
        rfl
      · exact fun op hmem => operator_notMem_closes op (List.mem_cons_of_mem _ hmem)
    | factor h =>
      cases h with
      | group _ _ => cases hbody
      | leaf hsolid hgroup =>
        rw [hsolid.severs, reduce_of_lays hclosed (.product (.factor (.leaf hsolid hgroup)))]
        show (host.evaluateOperand (spreadAll body) st).1 = _
        rw [← hbody, evaluateOperand_quoted]
        rfl

/-- If the parentheses do not match, a text in quotes that no operator cuts is evaluated within the
groups that were put around it. -/
theorem reduce_quoted_of_not_closed (hcount : s.count '(' = s.count ')')
    (hclosed : ¬ Closed (Token.quoted s)) (st : σ) :
    (reduce host.evaluateOperand Evaluation.arithmetic (normalize (Token.quoted s)) st).1 =
      if severed (Token.quoted s) then .error (.malformed .unterminatedText)
      else .text (String.ofList s) := by
  have hnone : openAfter 0 (Token.quoted s) = none :=
    openAfter_eq_none (by rw [count_quoted rfl, count_quoted rfl, hcount]) hclosed
  obtain ⟨front, back, hbody, hfront⟩ := exists_stray hnone
  have hfront : Closed front := hfront
  have hsevered : severed (Token.quoted s) = (severs false 0 front || (cut? back).isSome) := by
    unfold severed
    rw [hnone, hbody, severs_append hfront, ← severs_true]
    rfl
  have hnormalize : normalize (Token.quoted s) =
      '(' :: '(' :: (spreadAll (Token.quoted s) ++ [')', ')']) := by
    rw [normalize_eq, count_quoted rfl, count_quoted rfl, if_pos hcount]
  have htext : '(' :: '(' :: (spreadAll (Token.quoted s) ++ [')', ')']) =
      Rank.sum.wrap front ++ ')' :: (spreadAll back ++ [')', ')']) := by
    rw [hbody, spreadAll_append, spreadAll_cons]
    simp [Rank.wrap, spread]
  rw [hsevered, hnormalize]
  have hcut := @isSome_cut?_stray front back hfront
  cases hsome : (severs false 0 front || (cut? back).isSome) with
  | true =>
    rw [hsome, ← htext] at hcut
    exact reduceWithin_of_cut (j := 2) (by decide) rfl operator_notMem_closes hcut st
  | false =>
    have hgroup : group? ('(' :: '(' :: (spreadAll (Token.quoted s) ++ [')', ')'])) = none := by
      rw [htext]
      exact group?_stray hfront.spreadAll
    rw [hsome, ← htext, Option.isSome_eq_false_iff, Option.isNone_iff_eq_none] at hcut
    unfold reduce
    rw [reduceWithin_uncut hcut hgroup, evaluateOperand_of_ofText (e := .text (String.ofList s)),
      evaluateExpr_text]
    · rfl
    · rw [restore_quoted_groups]
      exact Expr.ofText_quoted_groups s

end Host

namespace Context
variable {σ : Type}

/-- A text in quotes is a formula that comes to the text itself. If formulas are reduced from left
to right, this is so unless the text is nested too deeply or an operator in it cuts it, quotes or
not: then the quote in front of the first piece is not ended. -/
theorem evaluate_quoted (ctx : Context σ) (s : String)
    (h : s.toList.count '(' = s.toList.count ')') (st : σ) :
    let content := String.ofList ('=' :: Token.quoted s.toList)
    ((ctx.withPipeline .grammar).evaluate content st).1 = .text s ∧
      ((ctx.withPipeline .textual).evaluate content st).1 =
        if nestingLimit < Textual.nestingDepth s.toList then .error (.malformed .nestedTooDeeply)
        else if Textual.severed s.toList then .error (.malformed .unterminatedText)
        else .text s := by
  intro content
  have hcount : (Token.quoted s.toList).count '(' = (Token.quoted s.toList).count ')' := by
    rw [Textual.count_quoted rfl, Textual.count_quoted rfl, h]
  have htext : Value.text (String.ofList s.toList) = .text s := by rw [String.ofList_toList]
  rw [evaluate_formula _ hcount, evaluate_formula _ hcount]
  constructor
  · show ((ctx.withPipeline .grammar).rootHost.evaluateParsed
      (Expr.ofText (Token.quoted s.toList)) st).1 = _
    rw [Expr.ofText_quoted, ← htext]
    rfl
  · show ((ctx.withPipeline .textual).rootHost.reduceBody (Token.quoted s.toList) st).1 = _
    rw [← htext, ← Textual.severed_quoted, ← Textual.nestingDepth_quoted s.toList]
    generalize (ctx.withPipeline .textual).rootHost = host
    unfold Host.reduceBody
    by_cases hdepth : nestingLimit < Textual.nestingDepth (Token.quoted s.toList)
    · rw [if_pos hdepth, if_pos hdepth]
      rfl
    · rw [if_neg hdepth, if_neg hdepth]
      by_cases hclosed : Textual.Closed (Token.quoted s.toList)
      · exact Host.reduce_quoted_of_closed hclosed (Nat.not_lt.1 hdepth) st
      · exact Host.reduce_quoted_of_not_closed h hclosed st

/-- Within parentheses, an operator does not cut the text. -/
theorem evaluate_quoted_group :
    let ctx : Context Unit := { grid := Grid.column [] }
    let s := "a \"(b+c)\" d"
    let content := String.ofList ('=' :: Token.quoted s.toList)
    s.toList.count '(' = s.toList.count ')' ∧
      ((ctx.withPipeline .grammar).evaluate content ()).1 = .text s ∧
      ((ctx.withPipeline .textual).evaluate content ()).1 = .text s := by
  intro ctx s content
  have hcount : s.toList.count '(' = s.toList.count ')' := by decide
  obtain ⟨hgrammar, htextual⟩ := evaluate_quoted ctx s hcount ()
  exact ⟨hcount, hgrammar, htextual.trans (by decide +kernel)⟩

/-- Outside parentheses, an operator cuts the text. Parentheses in quotes count as nested. -/
theorem evaluate_quoted_cut :
    let ctx : Context Unit := { grid := Grid.column [] }
    let nested := List.replicate 129 '(' ++ List.replicate 129 ')'
    ((ctx.withPipeline .textual).evaluate "=\"+\"" ()).1 ≠ .text "+" ∧
      nested.count '(' = nested.count ')' ∧
      ((ctx.withPipeline .textual).evaluate (String.ofList ('=' :: '"' :: (nested ++ ['"']))) ()).1 ≠
        .text (String.ofList nested) := by
  decide +kernel

end Context

end Spreadsheet
