import Spreadsheet.Proofs.Levels
import Spreadsheet.Proofs.Pipelines
import Spreadsheet.Proofs.Places
import Spreadsheet.Proofs.Spaces
/-!
# White space in formulas

White space next to a mark is no part of a token, so that a formula that is
parsed comes to the same with it. If a formula is reduced from left to right,
white space becomes a part of an operand, and that has the same tokens as
before. But a group with white space next to it is no group any more, and is
left to the grammar. There it comes to the same if it is plain, as it is then
evaluated in pieces or as a whole: `Context.evaluate_spaced`.
-/

namespace Spreadsheet
open Textual Token

section
variable {w pre post x y a f g b : List Char} {k j : Nat}

/-! ## Operands -/

theorem Token.Blank.unmarked (hw : Blank w) : Unmarked w := by
  intro c hc
  have hnone := ofChar?_of_isWhitespace (hw c hc)
  refine ⟨⟨?_, ?_⟩, ?_⟩
  · rintro rfl
    cases hnone
  · rintro rfl
    cases hnone
  · cases hop : Operator.ofChar? c with
    | none => rfl
    | some op =>
      rw [symbol_of_ofChar? hop, ofChar?_operator] at hnone
      cases hnone

/-- Parentheses next to the place of a part are marks, as the characters there in the body are. -/
theorem Token.Meet.framed (h : Meet (a ++ f) (g ++ b)) :
    Meet (List.replicate k '(' ++ f) (g ++ List.replicate j ')') := by
  rcases h with hlast | hhead
  · left
    rcases List.eq_nil_or_concat f with rfl | ⟨f, c, rfl⟩
    · intro o ho
      rw [List.append_nil] at ho
      rw [(List.mem_replicate.1 (List.mem_of_getLast? ho)).2]
      rfl
    · simpa using hlast
  · right
    cases g with
    | nil =>
      intro o ho
      rw [List.nil_append] at ho
      rw [(List.mem_replicate.1 (List.mem_of_head? ho)).2]
      rfl
    | cons c g => simpa using hhead

theorem tokenize_restore_insert (hw : Blank w) (hquote : '"' ∉ pre ++ post) (hmeet : Meet pre post)
    (hx : Fronts pre x) (hy : Backs post y) :
    tokenize (restore (x ++ (w ++ y))) = tokenize (restore (x ++ y)) := by
  obtain ⟨k, a, f, hk, rfl, -, rfl⟩ := hx
  obtain ⟨j, g, c, hj, rfl, -, rfl⟩ := hy
  have hbody : List.replicate k '(' ++ spreadAll f ++ (spreadAll g ++ List.replicate j ')') =
      List.replicate k '(' ++ (spreadAll (f ++ g) ++ List.replicate j ')') := by
    simp [spreadAll_append]
  have hspaced : List.replicate k '(' ++ spreadAll f ++
      (w ++ (spreadAll g ++ List.replicate j ')')) =
      List.replicate k '(' ++ (spreadAll (f ++ (w ++ g)) ++ List.replicate j ')') := by
    simp [spreadAll_append, hw.unmarked.spreadAll]
  rw [hbody, hspaced, restore_framed hk hj, restore_framed hk hj]
  have hquote' : '"' ∉ (List.replicate k '(' ++ f) ++ (g ++ List.replicate j ')') := by
    simp only [List.mem_append, not_or] at hquote ⊢
    simp [hquote, List.mem_replicate]
  have hinsert := tokenize_insert hw hquote' hmeet.framed
  simpa using hinsert

theorem Host.evaluateOperand_congr_tokens {m : Type → Type} [Monad m] [Reporter m] {host : Host m}
    {text text' : List Char} (h : tokenize (restore text) = tokenize (restore text')) :
    host.evaluateOperand text = host.evaluateOperand text' := by
  have hempty : (Unicode.trim (restore text)).isEmpty = (Unicode.trim (restore text')).isEmpty := by
    rw [Bool.eq_iff_iff, trim_isEmpty_iff, trim_isEmpty_iff, h]
  have hparsed : Expr.ofText (restore text) = Expr.ofText (restore text') := by
    unfold Expr.ofText
    rw [h]
  unfold evaluateOperand
  dsimp only
  rw [hempty, hparsed]

end

/-! ## Groups that are touched -/

section
variable {σ : Type} {g : Grid} {links : LinkSource} {formula : Cell → Run σ Value}
  {table : Link → Option String} {pre post w x y body inner text : List Char} {levels : Nat}

/-- A plain group is evaluated in pieces or, as an operand, as a whole. -/
theorem matches_group (htable : links.Answers table) (hplain : Plain body)
    (hgroup : group? (spreadAll body) = some inner) (hlevels : nestingDepth inner ≤ levels)
    (htokens : tokenize (restore text) = tokenize body) :
    Run.Matches
      (reduceWithin (g.host links formula).evaluateOperand Evaluation.arithmetic levels inner)
      ((g.host links formula).evaluateOperand text) := by
  obtain ⟨e, hparsed⟩ : ∃ e, Expr.ofText body = .ok e := by
    have haccepted := hplain.accepted
    cases hparsed : Expr.ofText body with
    | ok e => exact ⟨e, rfl⟩
    | error e =>
      rw [hparsed] at haccepted
      cases haccepted
  obtain ⟨ts, hts, hderives⟩ := Reader.bind_eq_ok hparsed
  have hbare := bare_of_derives (Expr.derives_of_ofTokens hderives) (hplain.unsigned ts hts)
  obtain ⟨l, hlays, hpieces⟩ : LaysOut (g.host links formula) nestingLimit .sum body e :=
    laysOut_of_bare hbare (Nat.le_refl _) hplain.quote hts
  obtain ⟨hclosed, hdepth⟩ := closed_of_derives hbare.derives hplain.quote hts
  have hoperand : (g.host links formula).evaluateOperand text =
      (g.host links formula).evaluateExpr e := by
    rw [← Host.evaluateOperand_spreadAll hts (Expr.derives_of_ofTokens hderives)]
    apply Host.evaluateOperand_congr_tokens
    rw [htokens, restore_spreadAll]
  rw [reduceWithin_inner hlays hclosed hdepth hgroup hlevels, hoperand]
  exact hpieces.matches htable

/-- What is inserted at a place changes nothing about the value, if it does not for the operands. -/
theorem matches_joinOperands_insert {term : List Char → Run σ Value} (hw : Unmarked w)
    (h : PlacedWithin levels pre post x y)
    (hterm : ∀ x y, PlacedWithin levels pre post x y →
      Run.Matches (term (x ++ y)) (term (x ++ (w ++ y)))) :
    Run.Matches (joinOperands Evaluation.arithmetic term (x ++ y))
      (joinOperands Evaluation.arithmetic term (x ++ (w ++ y))) := by
  have hdiffer : ∀ {t t' : List Char}, Differ w (PlacedWithin levels pre post) t t' →
      Run.Matches (term t) (term t') := by
    rintro t t' (rfl | ⟨x, y, h, rfl, rfl⟩)
    · exact Run.matches_refl _
    · exact hterm x y h
  obtain ⟨hfirst, hrest⟩ := h.operands hw
  exact matches_joinOperands (hdiffer hfirst)
    (hrest.imp fun _ _ hnext => ⟨hnext.1, hdiffer hnext.2⟩)

/-- White space next to a mark changes nothing about the value of a part, if the groups that it
touches are plain. -/
theorem matches_reduceWithin (hw : Blank w) (hne : w ≠ []) (hquote : '"' ∉ pre ++ post)
    (hmeet : Meet pre post)
    (htouched : ∀ text ∈ touched pre post, Plain text ∧ ∃ table, links.Answers table)
    (h : PlacedWithin levels pre post x y) :
    Run.Matches
      (reduceWithin (g.host links formula).evaluateOperand Evaluation.arithmetic levels (x ++ y))
      (reduceWithin (g.host links formula).evaluateOperand Evaluation.arithmetic levels
        (x ++ (w ++ y))) := by
  have hleaf : ∀ {levels x y}, PlacedWithin levels pre post x y →
      (g.host links formula).evaluateOperand (x ++ y) =
        (g.host links formula).evaluateOperand (x ++ (w ++ y)) := by
    intro levels x y h
    apply Host.evaluateOperand_congr_tokens
    exact (tokenize_restore_insert hw hquote hmeet h.fronts h.backs).symm
  induction levels generalizing x y with
  | zero =>
    refine matches_joinOperands_insert hw.unmarked h fun x y h => ?_
    have hnone : group? (x ++ y) = none := by
      cases hgroup : group? (x ++ y) with
      | none => rfl
      | some inner =>
        have hinner := nestingDepth_of_group? hgroup
        have hdepth := h.depth
        omega
    rw [hnone, group?_insert_eq_none hw.unmarked hne hnone, hleaf h]
    exact Run.matches_refl _
  | succ levels ih =>
    refine matches_joinOperands_insert hw.unmarked h fun x y h => ?_
    cases hgroup : group? (x ++ y) with
    | none =>
      rw [group?_insert_eq_none hw.unmarked hne hgroup, hleaf h]
      exact Run.matches_refl _
    | some inner =>
      have hdepth : nestingDepth inner ≤ levels := by
        have hinner := nestingDepth_of_group? hgroup
        have hdepth := h.depth
        omega
      rcases group?_place h.fronts h.backs hgroup with
        ⟨x, y, rfl, rfl, rfl, hx, hy⟩ | ⟨hedge, body, hbody, htext⟩
      · -- The white space stays within the group.
        have hclosed : Closed (x ++ y) := (group?_eq_some_iff.1 hgroup).2
        rw [(group?_insert hw.unmarked hne).2 ⟨x, y, rfl, rfl, rfl, hclosed⟩]
        exact ih ⟨hx, hy, hdepth⟩
      · -- The white space is left outside, and so the group is left to the grammar.
        have hnone : group? (x ++ (w ++ y)) = none := group?_insert_edge hw.unmarked hne hedge
        obtain ⟨hplain, table, htable⟩ := htouched body hbody
        rw [hnone]
        refine matches_group htable hplain (htext ▸ hgroup) hdepth ?_
        rw [tokenize_restore_insert hw hquote hmeet h.fronts h.backs, htext, restore_spreadAll]

/-- White space next to a mark changes nothing about the value of a body that is reduced, if the
groups that it touches are plain. -/
theorem matches_reduceBody (hw : Blank w) (hquote : '"' ∉ pre ++ post) (hmeet : Meet pre post)
    (hcount : (pre ++ post).count '(' = (pre ++ post).count ')')
    (htouched : ∀ text ∈ touched pre post, Plain text ∧ ∃ table, links.Answers table) :
    Run.Matches ((g.host links formula).reduceBody (pre ++ post))
      ((g.host links formula).reduceBody (pre ++ (w ++ post))) := by
  rcases eq_or_ne w [] with rfl | hne
  · exact Run.matches_refl _
  unfold Host.reduceBody
  rw [hw.unmarked.nestingDepth_insert]
  split
  · exact Run.matches_refl _
  · rename_i hdepth
    have hbody := @normalize_insert pre post [] (List.forall_mem_nil _) hcount
    rw [List.nil_append, List.nil_append] at hbody
    rw [hbody, normalize_insert hw.unmarked hcount]
    exact matches_reduceWithin hw hne hquote hmeet htouched
      (placedWithin_normalize hcount (Nat.not_lt.1 hdepth))

end

/-! ## Formulas -/

namespace Context
variable {σ : Type}

/-- White space next to a mark changes nothing about the value of a formula that is parsed, and if
it is reduced from left to right, nothing unless it touches a group that is an operand: then the
group is left to the grammar, and that comes to the same if the group is plain. -/
theorem evaluate_spaced (ctx : Context σ) {pre w post : List Char}
    (hvalid : isValid ('=' :: (pre ++ post))) (hquote : '"' ∉ pre ++ post) (hw : Blank w)
    (hmeet : Meet pre post) (st : σ) :
    let content := String.ofList ('=' :: (pre ++ post))
    let spaced := String.ofList ('=' :: (pre ++ (w ++ post)))
    ((ctx.withPipeline .grammar).evaluate spaced st).1 =
        ((ctx.withPipeline .grammar).evaluate content st).1 ∧
      ((∀ text ∈ touched pre post, Plain text ∧ ∃ table, ctx.links.Answers table) →
        ((ctx.withPipeline .textual).evaluate spaced st).1 =
          ((ctx.withPipeline .textual).evaluate content st).1) := by
  intro content spaced
  have hcount : (pre ++ post).count '(' = (pre ++ post).count ')' := by
    simpa [isValid, isBalanced] using hvalid
  have hcount' : (pre ++ (w ++ post)).count '(' = (pre ++ (w ++ post)).count ')' := by
    rw [hw.unmarked.count_insert rfl, hw.unmarked.count_insert rfl, hcount]
  simp only [content, spaced, evaluate_formula _ hcount, evaluate_formula _ hcount']
  constructor
  · have hparsed : Expr.ofText (pre ++ (w ++ post)) = Expr.ofText (pre ++ post) := by
      unfold Expr.ofText
      rw [tokenize_insert hw hquote hmeet]
    show ((ctx.withPipeline .grammar).rootHost.evaluateParsed
      (Expr.ofText (pre ++ (w ++ post))) st).1 = _
    rw [hparsed]
    rfl
  · intro htouched
    exact (matches_reduceBody hw hquote hmeet hcount htouched st).1.symm

/-- A plain group may have white space in front of it. -/
theorem evaluate_spaced_group :
    let ctx : Context Unit := { grid := Grid.column ["5"] }
    let pre := "2*".toList
    let post := "(A1 + 1)/3".toList
    isValid ('=' :: (pre ++ post)) ∧ '"' ∉ pre ++ post ∧ Blank [' '] ∧ Meet pre post ∧
      touched pre post = ["(A1 + 1)".toList] ∧ Plain "(A1 + 1)".toList ∧
      ((ctx.withPipeline .grammar).evaluate "=2* (A1 + 1)/3" ()).1 =
        ((ctx.withPipeline .grammar).evaluate "=2*(A1 + 1)/3" ()).1 ∧
      ((ctx.withPipeline .textual).evaluate "=2* (A1 + 1)/3" ()).1 =
        ((ctx.withPipeline .textual).evaluate "=2*(A1 + 1)/3" ()).1 := by
  intro ctx pre post
  have hvalid : isValid ('=' :: (pre ++ post)) := by decide
  have hquote : '"' ∉ pre ++ post := by decide
  have hw : Blank [' '] := List.forall_mem_singleton.2 (by decide +kernel)
  have hmeet : Meet pre post := .inl fun o ho => by
    cases ho
    rfl
  have htouched : touched pre post = ["(A1 + 1)".toList] := by decide +kernel
  have hplain : Plain "(A1 + 1)".toList := by decide +kernel
  obtain ⟨hgrammar, htextual⟩ := evaluate_spaced ctx hvalid hquote hw hmeet ()
  refine ⟨hvalid, hquote, hw, hmeet, htouched, hplain, hgrammar, htextual ?_⟩
  rw [htouched]
  exact List.forall_mem_singleton.2 ⟨hplain, fun _ => none, fun _ _ _ => rfl⟩

/-- A group with a sign is reduced, where the sign has no left operand, unless there is white space
in front of it. -/
theorem evaluate_spaced_sign :
    let ctx : Context Unit := { grid := Grid.column [] }
    ((ctx.withPipeline .textual).evaluate "=(-1)" ()).1 = .error .missingOperand ∧
      ((ctx.withPipeline .textual).evaluate "= (-1)" ()).1 = .number (-1) := by
  decide +kernel

end Context

end Spreadsheet
