import Spreadsheet.Proofs.Depth
import Spreadsheet.Proofs.Pipelines
/-!
# The limit on nesting

The two pipelines limit nesting each in its own way. A formula that is read as a
whole has to be nested less deeply than the limit. A formula that is reduced is
refused as a whole only if its parentheses are nested more deeply than that, and
then its operands are read each by itself. What this comes to below and above
the limit is said by `Context.evaluate_of_nests`. As deep as the limit, operands
in groups are refused by the one and evaluated by the other:
`Host.evaluate_groups`.
-/

namespace Spreadsheet

/-! ## Parentheses -/

section
variable {signs : Bool} {n m : Nat} {p : Part} {a : p.Tree} {t : Token} {ts us : List Token}

theorem Nests.closed (h : Nests signs n p ts a) : Textual.Closed (Token.parentheses ts) :=
  (nestedWithin_parentheses (h.derives (Nat.le_refl _))).1

theorem le_nestingDepth_cons (ht : t.parenthesis = [])
    (h : n ≤ Textual.nestingDepth (Token.parentheses ts)) :
    n ≤ Textual.nestingDepth (Token.parentheses (t :: ts)) := by
  rw [Token.parentheses_cons, ht]
  exact h

theorem le_nestingDepth_append (hclosed : Textual.Closed (Token.parentheses ts))
    (hts : n ≤ Textual.nestingDepth (Token.parentheses ts))
    (hus : m ≤ Textual.nestingDepth (Token.parentheses us)) :
    max n m ≤ Textual.nestingDepth (Token.parentheses (ts ++ us)) := by
  rw [Token.parentheses_append, Textual.nestingDepth_append hclosed]
  omega

theorem le_nestingDepth_group (hclosed : Textual.Closed (Token.parentheses ts))
    (h : n ≤ Textual.nestingDepth (Token.parentheses ts)) :
    n + 1 ≤ Textual.nestingDepth (Token.parentheses (.openParen :: ts ++ [.closeParen])) := by
  rw [Token.parentheses_append, Token.parentheses_cons]
  show n + 1 ≤ Textual.nestingDepth ('(' :: Token.parentheses ts ++ [')'])
  rw [Textual.nestingDepth_group hclosed]
  exact Nat.succ_le_succ h

/-- Without signs, all nesting is by parentheses. -/
theorem Nests.le_nestingDepth (h : Nests false n p ts a) :
    n ≤ Textual.nestingDepth (Token.parentheses ts) := by
  induction h with
  | product _ ih => exact ih
  | loose _ he _ ihe ihf => exact le_nestingDepth_append he.closed ihe (le_nestingDepth_cons rfl ihf)
  | signed _ ih => exact ih
  | tight _ he _ ihe ihf => exact le_nestingDepth_append he.closed ihe (le_nestingDepth_cons rfl ihf)
  | negate hsigns => cases hsigns
  | plus hsigns => cases hsigns
  | primary _ ih => exact ih
  | number | text | link | cell | word | emptyCall => exact Nat.zero_le _
  | group h ih => exact le_nestingDepth_group h.closed ih
  | call ht h ih =>
    exact le_nestingDepth_cons (parenthesis_of_callee ht) (le_nestingDepth_group h.closed ih)
  | value _ ih => exact ih
  | condition _ he _ ihe ihf =>
    exact le_nestingDepth_append he.closed ihe (le_nestingDepth_cons rfl ihf)
  | criterion _ _ ih => exact le_nestingDepth_cons rfl ih
  | one _ ih => exact ih
  | more has _ ihas iha =>
    exact le_nestingDepth_append has.closed ihas (le_nestingDepth_cons rfl iha)

/-! ## Operands -/

/-- What a part without signs is outside the arguments of calls. -/
def Part.Bare (m : Nat) : (p : Part) → List Token → p.Tree → Prop
  | .sum, ts, e => Spreadsheet.Bare m .sum ts e
  | .product, ts, e => Spreadsheet.Bare m .product ts e
  | .signed, ts, e => Spreadsheet.Bare m .factor ts e
  | .primary, ts, e => Spreadsheet.Bare (m + 1) .factor ts e
  | .argument, _, _ => True
  | .arguments, _, _ => True

theorem bare_atom {e : Expr} (hends : t.endsOperand = true) (hclose : t ≠ .closeParen)
    (h : Derives m .primary [t] e) : Part.primary.Bare m [t] e :=
  .atom (ofChar?_ne_of_endsOperand hends hclose) h

theorem Nests.bare (h : Nests false n p ts a) (hm : n + p.base ≤ m) : p.Bare m ts a := by
  induction h generalizing m with
  | product _ ih => exact Bare.product (ih hm)
  | loose hop _ _ ihe ihf => exact Bare.loose hop (ihe (levels_left hm)) (ihf (levels_right hm))
  | signed _ ih => exact Bare.factor (ih hm)
  | tight hop _ _ ihe ihf => exact Bare.tight hop (ihe (levels_left hm)) (ihf (levels_right hm))
  | negate hsigns => cases hsigns
  | plus hsigns => cases hsigns
  | primary _ ih =>
    obtain ⟨k, rfl⟩ := Nat.exists_eq_add_of_le' hm
    exact ih (Nat.le_add_left _ k)
  | number x => exact bare_atom rfl nofun (.number x)
  | text s => exact bare_atom rfl nofun (.text s)
  | link l => exact bare_atom rfl nofun (.link l)
  | cell c => exact bare_atom rfl nofun (.cell c)
  | word w => exact bare_atom rfl nofun (.word w)
  | group _ ih => exact Bare.group (ih hm)
  | emptyCall ht =>
    have hnil : Textual.Closed (Token.parentheses []) := Textual.closed_nil
    exact Bare.call ht hnil (.emptyCall ht)
  | call ht h _ => exact Bare.call ht h.closed (.call ht (h.derives hm))
  | value | condition | criterion | one | more => trivial

end

/-! ## Formulas -/

namespace Host
variable {m : Type → Type} [Monad m] [Reporter m] (host : Host m) {signs : Bool} {n : Nat}
  {body : List Char} {ts : List Token} {e : Expr}

/-- A body is read as a whole if it is nested less deeply than the limit. -/
theorem evaluateParsed_of_nests (htokens : Token.tokenize body = .ok ts)
    (h : Nests signs n .sum ts e) :
    host.evaluateParsed (Expr.ofText body) =
      if n < nestingLimit then host.evaluateExpr e
      else Evaluation.fail (.malformed .nestedTooDeeply) := by
  have hparsed : Expr.ofText body = Expr.ofTokens ts := by
    unfold Expr.ofText
    rw [htokens]
    rfl
  rw [hparsed, Expr.ofTokens_of_nests h]
  split <;> rfl

/-- A body without signs is not reduced if it is nested more deeply than the limit. -/
theorem reduceBody_of_limit_lt (hquote : '"' ∉ body) (htokens : Token.tokenize body = .ok ts)
    (h : Nests false n .sum ts e) (hn : nestingLimit < n) :
    host.reduceBody body = Evaluation.fail (.malformed .nestedTooDeeply) := by
  have hdepth : Textual.nestingDepth body > nestingLimit := by
    rw [Textual.nestingDepth_of_tokens hquote htokens]
    exact Nat.lt_of_lt_of_le hn h.le_nestingDepth
  unfold reduceBody
  rw [if_pos hdepth]

/-- A body without signs is evaluated in pieces if it is nested less deeply than the limit. -/
theorem reduceBody_of_lt_limit [LawfulMonad m] (hquote : '"' ∉ body)
    (htokens : Token.tokenize body = .ok ts) (h : Nests false n .sum ts e) (hn : n < nestingLimit) :
    host.Piecewise e (host.reduceBody body) :=
  reduceBody_of_bare hquote htokens (h.bare hn)

end Host

namespace Context
variable {σ : Type}

theorem evaluate_of_closed (ctx : Context σ) {body : List Char} (h : Textual.Closed body) :
    ctx.evaluate (String.ofList ('=' :: body)) =
      ctx.rootHost.evaluateFormula ctx.options.pipeline ('=' :: body) := by
  have hclosed : Textual.Closed ('=' :: body) := h.cons ⟨by decide, by decide⟩
  have hvalid : Textual.isValid ('=' :: body) := by
    unfold Textual.isValid
    rw [hclosed.isBalanced]
    rfl
  unfold evaluate
  rw [String.toList_ofList, if_pos hvalid]
  rfl

/-- A formula without quotes is refused by the grammar exactly if it is nested as deeply as the
limit, or deeper. Without signs, reducing it is refused if it is nested deeper than the limit; if it
is nested less deeply, it is evaluated in pieces. -/
theorem evaluate_of_nests (ctx : Context σ) {signs : Bool} {n : Nat} {body : List Char}
    {ts : List Token} {e : Expr} (hquote : '"' ∉ body) (htokens : Token.tokenize body = .ok ts)
    (h : Nests signs n .sum ts e) :
    (ctx.withPipeline .grammar).evaluate (String.ofList ('=' :: body)) =
        (if n < nestingLimit then (ctx.withPipeline .grammar).rootHost.evaluateExpr e
          else Evaluation.fail (.malformed .nestedTooDeeply)) ∧
      (signs = false → nestingLimit < n →
        (ctx.withPipeline .textual).evaluate (String.ofList ('=' :: body)) =
          Evaluation.fail (.malformed .nestedTooDeeply)) ∧
      (signs = false → n < nestingLimit →
        (ctx.withPipeline .textual).rootHost.Piecewise e
          ((ctx.withPipeline .textual).evaluate (String.ofList ('=' :: body)))) := by
  have hclosed : Textual.Closed body := Textual.closed_of_tokens hquote htokens h.closed
  rw [evaluate_of_closed _ hclosed, evaluate_of_closed _ hclosed]
  refine ⟨Host.evaluateParsed_of_nests _ htokens h, ?_, ?_⟩
  · rintro rfl hn
    exact Host.reduceBody_of_limit_lt _ hquote htokens h hn
  · rintro rfl hn
    exact Host.reduceBody_of_lt_limit _ hquote htokens h hn

end Context

/-! ## At the limit -/

/-- The list between `n` times the one and `n` times the other. -/
def enclose {α : Type} (opening closing : α) : Nat → List α → List α
  | 0, l => l
  | n + 1, l => opening :: enclose opening closing n l ++ [closing]

namespace Textual
variable {text : List Char} {ts : List Token}

/-- The text in `n` groups. -/
abbrev groups (n : Nat) (text : List Char) : List Char := enclose '(' ')' n text

theorem quote_notMem_groups (hquote : '"' ∉ text) (n : Nat) : '"' ∉ groups n text := by
  induction n with
  | zero => exact hquote
  | succ n ih => simp [enclose, ih]

theorem tokenize_groups (h : Token.tokenize text = .ok ts) (n : Nat) :
    Token.tokenize (groups n text) = .ok (enclose .openParen .closeParen n ts) := by
  induction n with
  | zero => exact h
  | succ n ih =>
    have hnil : Token.tokenize [] = .ok [] := Token.tokenize_of_nil rfl
    have hopen : Token.tokenize ('(' :: groups n text) =
        .ok (.openParen :: enclose .openParen .closeParen n ts) := by
      have happend := @Token.tokenize_append [] (groups n text) '(' .openParen rfl (by simp [hnil])
      rw [hnil, ih] at happend
      exact happend
    have hclose := @Token.tokenize_append ('(' :: groups n text) [] ')' .closeParen rfl
      (by simp [hopen])
    rw [hopen, hnil] at hclose
    exact hclose

theorem closed_groups (h : Closed text) (n : Nat) : Closed (groups n text) := by
  induction n with
  | zero => exact h
  | succ n ih => exact ih.group

theorem nestingDepth_groups (h : Closed text) (n : Nat) :
    nestingDepth (groups n text) = nestingDepth text + n := by
  induction n with
  | zero => rfl
  | succ n ih =>
    show nestingDepth ('(' :: groups n text ++ [')']) = _
    rw [nestingDepth_group (closed_groups h n), ih, Nat.add_assoc]

end Textual

theorem Nests.groups {signs : Bool} {k : Nat} {ts : List Token} {e : Expr}
    (h : Nests signs k .sum ts e) (n : Nat) :
    Nests signs (k + n) .sum (enclose .openParen .closeParen n ts) e := by
  induction n with
  | zero => exact h
  | succ n ih => exact .product (.signed (.primary (.group ih)))

theorem LaysOut.groups {m : Type → Type} [Monad m] [Reporter m] {host : Host m} {k : Nat}
    {text : List Char} {e : Expr} (hclosed : Textual.Closed text) (h : LaysOut host k .sum text e)
    (n : Nat) : LaysOut host (k + n) .sum (Textual.groups n text) e := by
  induction n with
  | zero => exact h
  | succ n ih => exact (ih.group (Textual.closed_groups hclosed n)).factor.product

/-- An operand in as many groups as the limit is refused by the grammar. Reduced, it is evaluated
like the operand alone, as the groups are opened before the operand is read. -/
theorem Host.evaluate_groups {m : Type → Type} [Monad m] [LawfulMonad m] [Reporter m]
    (host : Host m) {text : List Char} {t : Token} {e : Expr} (hquote : '"' ∉ text)
    (htokens : Token.tokenize text = .ok [t]) (ht : ∀ o, Token.ofChar? o ≠ some t)
    (h : Nests false 0 .sum [t] e) :
    host.evaluateParsed (Expr.ofText (Textual.groups nestingLimit text)) =
        Evaluation.fail (.malformed .nestedTooDeeply) ∧
      host.Piecewise e (host.reduceBody (Textual.groups nestingLimit text)) := by
  have hparenthesis : Token.parentheses [t] = [] := by
    by_contra hne
    rw [Token.parentheses, List.flatMap_singleton] at hne
    obtain ⟨o, ho⟩ := Token.exists_ofChar?_of_parenthesis hne
    exact ht o ho
  have hclosed : Textual.Closed text := Textual.closed_of_tokens hquote htokens h.closed
  constructor
  · rw [evaluateParsed_of_nests host (Textual.tokenize_groups htokens _) (h.groups _),
      if_neg (by omega)]
  · have hdepth : Textual.nestingDepth (Textual.groups nestingLimit text) ≤ nestingLimit := by
      rw [Textual.nestingDepth_groups hclosed, Textual.nestingDepth_of_tokens hquote htokens,
        hparenthesis]
      exact Nat.le_of_eq (Nat.zero_add _)
    have hlays : LaysOut host 0 .factor text e :=
      laysOut_atom hquote htokens ht (h.derives (by decide))
    have hgroups := hlays.factor.product.groups hclosed nestingLimit
    rw [Nat.zero_add] at hgroups
    exact reduceBody_of_laysOut (Textual.closed_groups hclosed _) hdepth hgroups

theorem nests_word (n : Nat) : Nests false n .sum
    (enclose .openParen .closeParen n [.word "x"]) (.text "x") := by
  have hword : Nests false 0 .sum [.word "x"] (.text "x") :=
    .product (.signed (.primary (.word "x")))
  have hgroups := hword.groups n
  rwa [Nat.zero_add] at hgroups

theorem tokenize_word : Token.tokenize ['x'] = .ok [.word "x"] := by decide +kernel

namespace Context

theorem evaluate_of_nests_beside :
    let ctx : Context Unit := { grid := Grid.column [] }
    let content (n : Nat) := String.ofList ('=' :: Textual.groups n ['x'])
    ((ctx.withPipeline .grammar).evaluate (content 127) =
        (ctx.withPipeline .grammar).rootHost.evaluateExpr (.text "x") ∧
      (ctx.withPipeline .textual).rootHost.Piecewise (.text "x")
        ((ctx.withPipeline .textual).evaluate (content 127))) ∧
    ((ctx.withPipeline .grammar).evaluate (content 129) =
        Evaluation.fail (.malformed .nestedTooDeeply) ∧
      (ctx.withPipeline .textual).evaluate (content 129) =
        Evaluation.fail (.malformed .nestedTooDeeply)) := by
  intro ctx content
  have hquote : ∀ n, '"' ∉ Textual.groups n ['x'] := Textual.quote_notMem_groups (by decide)
  have htokens := Textual.tokenize_groups tokenize_word
  obtain ⟨hgrammar, -, htextual⟩ :=
    evaluate_of_nests ctx (hquote 127) (htokens 127) (nests_word 127)
  obtain ⟨hgrammar', htextual', -⟩ :=
    evaluate_of_nests ctx (hquote 129) (htokens 129) (nests_word 129)
  exact ⟨⟨hgrammar, htextual rfl (by decide)⟩, hgrammar', htextual' rfl (by decide)⟩

/-- As deep as the limit, one pipeline refuses what the other evaluates. -/
theorem evaluate_at_limit :
    let ctx : Context Unit := { grid := Grid.column [] }
    let content := String.ofList ('=' :: Textual.groups nestingLimit ['x'])
    ((ctx.withPipeline .grammar).evaluate content ()).1 = .error (.malformed .nestedTooDeeply) ∧
      ((ctx.withPipeline .textual).evaluate content ()).1 = .text "x" := by
  intro ctx content
  have hmark : ∀ o, Token.ofChar? o ≠ some (.word "x") := ofChar?_ne_of_endsOperand rfl nofun
  have hclosed : Textual.Closed ['x'] := rfl
  have hhost := fun p => Host.evaluate_groups (ctx.withPipeline p).rootHost (by decide)
    tokenize_word hmark (nests_word 0)
  have hevaluate := fun p => evaluate_of_closed (ctx.withPipeline p)
    (Textual.closed_groups hclosed nestingLimit)
  constructor
  · have hgrammar : (ctx.withPipeline .grammar).evaluate content =
        Evaluation.fail (.malformed .nestedTooDeeply) :=
      (hevaluate .grammar).trans (hhost .grammar).1
    rw [hgrammar]
    rfl
  · have hpieces : (ctx.withPipeline .textual).rootHost.Piecewise (.text "x")
        ((ctx.withPipeline .textual).evaluate content) := by
      rw [hevaluate .textual]
      exact (hhost .textual).2
    have htable : ctx.links.Answers fun _ => none := fun _ _ _ => rfl
    exact value_of_pieces htable hpieces ()

end Context

end Spreadsheet
