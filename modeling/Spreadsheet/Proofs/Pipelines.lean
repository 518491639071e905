import Mathlib.Data.List.Forall2
import Spreadsheet.Proofs.Layouts
import Spreadsheet.Proofs.Values
/-!
# The two pipelines agree

A plain body is read as an expression, and has neither quotes nor signs. It
comes to the same whether it is read as a whole or reduced from left to right,
`Host.reduceBody_eq`. So where all formulas of a grid have plain bodies, nothing
depends on the pipeline: `Context.evaluate_withPipeline`. With a memory too, an
expression comes to the value it has as a whole if it is evaluated in pieces:
`Context.value_of_pieces`.
-/

namespace Spreadsheet

/-- The body of a formula is read as an expression, and has neither quotes nor, outside the
arguments of calls, signs. -/
structure Textual.Plain (body : List Char) : Prop where
  quote : '"' ∉ body
  accepted : (Expr.ofText body).isOk
  unsigned : ∀ ts, Token.tokenize body = .ok ts → Token.Unsigned ts

instance (body : List Char) : Decidable (Textual.Plain body) :=
  decidable_of_iff ('"' ∉ body ∧ (Expr.ofText body).isOk ∧
      ∀ ts ∈ (Token.tokenize body).toOption, Token.Unsigned ts) <| by
    constructor
    · rintro ⟨hquote, haccepted, hunsigned⟩
      exact ⟨hquote, haccepted, fun ts hts => hunsigned ts (by rw [hts]; rfl)⟩
    · rintro ⟨hquote, haccepted, hunsigned⟩
      refine ⟨hquote, haccepted, fun ts hts => hunsigned ts ?_⟩
      cases htokens : Token.tokenize body with
      | error e => simp [htokens, Except.toOption] at hts
      | ok us => simp_all [Except.toOption]

-- A sign may stand in the arguments of a call, and nowhere else.
example : Textual.Plain "sum(-A1; +2) - A1".toList ∧ ¬ Textual.Plain "(-A1) * 2".toList := by
  decide +kernel

namespace Host

section
variable {m : Type → Type} [Monad m] [LawfulMonad m] [Reporter m] {host : Host m}
  {body : List Char} {e : Expr}

/-- A body that is laid out as an expression is evaluated in pieces, unless its parentheses are
nested too deeply. -/
theorem reduceBody_of_laysOut (hclosed : Textual.Closed body)
    (hdepth : Textual.nestingDepth body ≤ nestingLimit)
    (h : LaysOut host nestingLimit .sum body e) : host.Piecewise e (host.reduceBody body) := by
  obtain ⟨l, hlays, hpieces⟩ := h
  unfold reduceBody
  rw [if_neg (show ¬ Textual.nestingDepth body > nestingLimit from Nat.not_lt.2 hdepth),
    Textual.reduce_of_lays hclosed hlays]
  exact hpieces

/-- A body whose tokens denote an expression without signs is evaluated in pieces. -/
theorem reduceBody_of_bare {ts : List Token} (hquote : '"' ∉ body)
    (htokens : Token.tokenize body = .ok ts) (h : Bare nestingLimit .sum ts e) :
    host.Piecewise e (host.reduceBody body) := by
  obtain ⟨hclosed, hdepth⟩ := closed_of_derives h.derives hquote htokens
  exact reduceBody_of_laysOut hclosed hdepth (laysOut_of_bare h (Nat.le_refl _) hquote htokens)

end

variable {host : Host Id} {table : Link → Option String}

/-- Reducing a plain body comes to the value of its expression. -/
theorem reduceBody_eq (htable : LinkSource.Answers host.resolve table) {body : List Char}
    (h : Textual.Plain body) :
    host.reduceBody body = host.evaluateParsed (Expr.ofText body) := by
  cases hparsed : Expr.ofText body with
  | error e =>
    have haccepted := h.accepted
    rw [hparsed] at haccepted
    cases haccepted
  | ok e =>
    obtain ⟨ts, htokens, hts⟩ := Reader.bind_eq_ok hparsed
    have hbare := bare_of_derives (Expr.derives_of_ofTokens hts) (h.unsigned ts htokens)
    have hpieces : host.Piecewise e (host.reduceBody body) :=
      reduceBody_of_bare h.quote htokens hbare
    rw [hpieces.eq_eval htable]
    exact (evaluateExpr_eq htable e).symm

theorem evaluateFormula_textual (htable : LinkSource.Answers host.resolve table)
    {formula : List Char} (hvalid : Textual.isValid formula)
    (h : Textual.Plain (formula.drop 1)) :
    host.evaluateFormula .textual formula = host.evaluateFormula .grammar formula := by
  cases formula with
  | nil => cases hvalid
  | cons c body =>
    obtain rfl : c = '=' := by simp_all [Textual.isValid]
    exact reduceBody_eq htable h

end Host

namespace Grid
variable {g : Grid} {links : LinkSource} {table : Link → Option String}

/-- All formulas of the grid have plain bodies. -/
def Plain (g : Grid) : Prop :=
  ∀ c, g.HoldsFormula c → Textual.Plain ((g.content c).toList.drop 1)

theorem formulaValue_textual (htable : links.Answers table) {formula : List Char}
    (hvalid : Textual.isValid formula) (h : Textual.Plain (formula.drop 1))
    {cells cells' : Cell → Value} (hcells : ∀ c, g.HoldsFormula c → cells c = cells' c) :
    g.formulaValue links .textual formula cells =
      g.formulaValue links .grammar formula cells' := by
  unfold formulaValue
  rw [Grid.evaluateFormula_congr (m := Id) fun c _ => hcells c]
  exact Host.evaluateFormula_textual htable hvalid h

/-- The value of a formula cell does not depend on the pipeline, wherever it is reached. -/
theorem valueWithin_textual (hg : g.Plain) (htable : links.Answers table) (n : Nat)
    (path : List Cell) {c : Cell} (hc : g.HoldsFormula c) :
    g.valueWithin links .textual n path c = g.valueWithin links .grammar n path c := by
  induction n generalizing path c with
  | zero => rfl
  | succ n ih =>
    unfold valueWithin
    split
    · rfl
    · exact formulaValue_textual htable hc.2 (hg c hc) fun d hd => ih (c :: path) hd

end Grid

namespace Context
variable {σ : Type} {ctx : Context σ} {table : Link → Option String}

/-- The context with another pipeline. -/
def withPipeline (ctx : Context σ) (p : Pipeline) : Context σ :=
  { ctx with options := { ctx.options with pipeline := p } }

/-- The value of a cell does not depend on the pipeline. -/
theorem evaluateCell_withPipeline (hoff : ctx.activeMemo = Memo.off) (hg : ctx.grid.Plain)
    (htable : ctx.links.Answers table) (c : Cell) (s s' : σ) :
    ((ctx.withPipeline .textual).evaluateCell c s).1 =
      ((ctx.withPipeline .grammar).evaluateCell c s').1 := by
  have hoff' : ∀ p, (ctx.withPipeline p).activeMemo = Memo.off := fun _ => hoff
  by_cases hc : ctx.grid.HoldsFormula c
  · rw [evaluateCell_value (hoff' .textual) hc, evaluateCell_value (hoff' .grammar) hc]
    exact Grid.valueWithin_textual hg htable _ [] hc
  · have hown : ∀ p, (ctx.withPipeline p).evaluateCell c = Evaluation.passOn (ctx.grid.ownValue c) :=
      fun _ => evaluateCell_of_not_formula hc
    rw [hown, hown]
    cases ctx.grid.ownValue c <;> rfl

/-- In a grid of formulas with plain bodies, a content with a plain body comes to the same in both
pipelines, if nothing is remembered and links do not depend on the batches they are asked in. -/
theorem evaluate_withPipeline (ctx : Context σ) (hoff : ctx.activeMemo = Memo.off)
    (hg : ctx.grid.Plain) (hlinks : ∃ table, ctx.links.Answers table) (content : String)
    (h : Textual.Plain (content.toList.drop 1)) (s s' : σ) :
    ((ctx.withPipeline .textual).evaluate content s).1 =
      ((ctx.withPipeline .grammar).evaluate content s').1 := by
  obtain ⟨table, htable⟩ := hlinks
  have hoff' : ∀ p, (ctx.withPipeline p).activeMemo = Memo.off := fun _ => hoff
  by_cases hvalid : Textual.isValid content.toList
  · rw [evaluate_value (hoff' .textual) hvalid, evaluate_value (hoff' .grammar) hvalid]
    exact Grid.formulaValue_textual htable hvalid h fun d hd =>
      Grid.valueWithin_textual hg htable _ [] hd
  · unfold evaluate
    rw [if_neg hvalid, if_neg hvalid]
    split <;> rfl

end Context

/-! ## What pieces come to -/

theorem arithmetic_left {m : Type → Type} [Monad m] [Reporter m] {op : Operator} {v : Value}
    (hv : v.isError) (w : Value) : Evaluation.arithmetic op v w = (pure v : m Value) := by
  cases v <;> first | rfl | cases hv

theorem arithmetic_right {m : Type → Type} [Monad m] [Reporter m] {op : Operator} {v w : Value}
    (hv : v.isError = false) (hw : w.isError) :
    Evaluation.arithmetic op v w = (pure w : m Value) := by
  cases w <;> cases hw
  cases v <;> first | rfl | cases hv

/-- The runs come to the same value, and also to the same state unless the value is a failure. -/
def Run.Matches {σ : Type} (x y : Run σ Value) : Prop :=
  ∀ s, (x s).1 = (y s).1 ∧ ((y s).1.isError = false → (x s).2.2 = (y s).2.2)

section
variable {σ : Type} {x y : Run σ Value}

theorem Run.matches_refl (x : Run σ Value) : Run.Matches x x := fun _ => ⟨rfl, fun _ => rfl⟩

theorem Run.Matches.symm (h : Run.Matches x y) : Run.Matches y x := fun s =>
  ⟨(h s).1.symm, fun hv => ((h s).2 (by rwa [← (h s).1])).symm⟩

theorem Run.Matches.trans {z : Run σ Value} (h : Run.Matches x y) (h' : Run.Matches y z) :
    Run.Matches x z := fun s =>
  ⟨(h s).1.trans (h' s).1, fun hv => ((h s).2 (by rwa [(h' s).1])).trans ((h' s).2 hv)⟩

/-- Runs that match may be followed by what hands failures on and matches on all other values. -/
theorem Run.Matches.bind {k l : Value → Run σ Value} (h : Run.Matches x y)
    (hvalue : ∀ v, v.isError = false → Run.Matches (k v) (l v))
    (herror : ∀ v, v.isError → ∀ s, (k v s).1 = v ∧ (l v s).1 = v) :
    Run.Matches (x >>= k) (y >>= l) := by
  intro s
  obtain ⟨hfst, hstate⟩ := h s
  show (k (x s).1 (x s).2.2).1 = (l (y s).1 (y s).2.2).1 ∧
    ((l (y s).1 (y s).2.2).1.isError = false →
      (k (x s).1 (x s).2.2).2.2 = (l (y s).1 (y s).2.2).2.2)
  rw [hfst]
  cases hv : (y s).1.isError with
  | false =>
    rw [hstate hv]
    exact hvalue _ hv _
  | true =>
    rw [(herror _ hv _).1, (herror _ hv _).2]
    refine ⟨rfl, fun h => ?_⟩
    rw [hv] at h
    cases h

end

/-! ## Joining operands -/

section
variable {σ : Type} {term term' : List Char → Run σ Value} {text text' : List Char} {v : Value}

/-- The value after one more operand. -/
def joinNext (term : List Char → Run σ Value) (value : Value) (next : Operator × List Char) :
    Run σ Value := do
  Evaluation.arithmetic next.1 value (← term next.2)

theorem joinOperands_eq : Textual.joinOperands Evaluation.arithmetic term text =
    term (Textual.operands text).1 >>=
      fun v => (Textual.operands text).2.foldlM (joinNext term) v :=
  rfl

theorem joinNext_failed (hv : v.isError) (next : Operator × List Char) (s : σ) :
    (joinNext term v next s).1 = v := by
  show ((Evaluation.arithmetic next.1 v (term next.2 s).1 : Run σ Value) _).1 = v
  rw [arithmetic_left hv]
  rfl

/-- A failure is handed on by all operators behind it. -/
theorem foldlM_failed (hv : v.isError) (rest : List (Operator × List Char)) (s : σ) :
    (rest.foldlM (joinNext term) v s).1 = v := by
  induction rest generalizing s with
  | nil => rfl
  | cons next rest ih =>
    rw [List.foldlM_cons]
    show (rest.foldlM (joinNext term) (joinNext term v next s).1 _).1 = v
    rw [joinNext_failed hv]
    exact ih _

/-- A text comes to the failure that its first operand comes to. -/
theorem joinOperands_failed {f : Failure} {s : σ}
    (h : (term (Textual.operands text).1 s).1 = .error f) :
    (Textual.joinOperands Evaluation.arithmetic term text s).1 = .error f := by
  rw [joinOperands_eq]
  show ((Textual.operands text).2.foldlM (joinNext term)
    (term (Textual.operands text).1 s).1 _).1 = _
  rw [h]
  exact foldlM_failed rfl _ _

theorem matches_joinNext {next next' : Operator × List Char} (hop : next.1 = next'.1)
    (h : Run.Matches (term next.2) (term' next'.2)) (v : Value) :
    Run.Matches (joinNext term v next) (joinNext term' v next') := by
  cases hv : v.isError with
  | true =>
    intro s
    rw [joinNext_failed hv, joinNext_failed hv]
    refine ⟨rfl, fun hnot => ?_⟩
    rw [hv] at hnot
    cases hnot
  | false =>
    unfold joinNext
    rw [hop]
    apply h.bind
    · exact fun w _ => Run.matches_refl _
    · intro w hw s
      rw [arithmetic_right hv hw]
      exact ⟨rfl, rfl⟩

theorem matches_foldlM {rest rest' : List (Operator × List Char)}
    (h : List.Forall₂ (fun next next' => next.1 = next'.1 ∧
      Run.Matches (term next.2) (term' next'.2)) rest rest') (v : Value) :
    Run.Matches (rest.foldlM (joinNext term) v) (rest'.foldlM (joinNext term') v) := by
  induction h generalizing v with
  | nil => exact Run.matches_refl _
  | cons hnext _ ih =>
    rw [List.foldlM_cons, List.foldlM_cons]
    exact (matches_joinNext hnext.1 hnext.2 v).bind (fun w _ => ih w)
      fun w hw s => ⟨foldlM_failed hw _ _, foldlM_failed hw _ _⟩

/-- Texts match if their operands do, one by one. -/
theorem matches_joinOperands
    (hfirst : Run.Matches (term (Textual.operands text).1) (term' (Textual.operands text').1))
    (hrest : List.Forall₂ (fun next next' => next.1 = next'.1 ∧
      Run.Matches (term next.2) (term' next'.2))
      (Textual.operands text).2 (Textual.operands text').2) :
    Run.Matches (Textual.joinOperands Evaluation.arithmetic term text)
      (Textual.joinOperands Evaluation.arithmetic term' text') := by
  rw [joinOperands_eq, joinOperands_eq]
  exact hfirst.bind (fun v _ => matches_foldlM hrest v)
    fun v hv s => ⟨foldlM_failed hv _ _, foldlM_failed hv _ _⟩

end

/-! ## Values of expressions in pieces -/

section
variable {σ : Type} {g : Grid} {links : LinkSource} {formula : Cell → Run σ Value}
  {table : Link → Option String} {e f : Expr} {x y : Run σ Value}

theorem matches_evaluateExpr (htable : links.Answers table) (e : Expr) :
    Run.Matches ((g.host links formula).evaluateExpr e)
      (e.eval ⟨(g.host links formula).reference, table⟩) := by
  unfold Host.evaluateExpr
  split
  · rename_i hempty
    have hnone : ∀ l ∈ e.batch, none = table l := by
      rw [List.isEmpty_iff.1 hempty]
      exact List.forall_mem_nil _
    rw [Expr.eval_link hnone]
    exact Run.matches_refl _
  · intro s
    rw [← Expr.eval_link (htable e.batch)]
    exact ⟨rfl, fun _ => rfl⟩

/-- Evaluating the right operand in vain changes nothing about the failure of the left one. -/
theorem Run.Matches.binary {scope : Scope (Run σ)} (op : Operator)
    (hx : Run.Matches x (e.eval scope)) (hy : Run.Matches y (f.eval scope)) :
    Run.Matches (do
      let v ← x
      Evaluation.arithmetic op v (← y)) ((Expr.binary op e f).eval scope) := by
  rw [Expr.eval]
  apply hx.bind
  · intro v hv
    rw [if_neg (by simp [hv])]
    apply hy.bind
    · exact fun w _ => Run.matches_refl _
    · intro w hw s
      rw [arithmetic_right hv hw]
      exact ⟨rfl, rfl⟩
  · intro v hv s
    rw [if_pos hv]
    refine ⟨?_, rfl⟩
    show ((Evaluation.arithmetic op v (y s).1 : Run σ Value) (y s).2.2).1 = v
    rw [arithmetic_left hv]
    rfl

/-- In pieces, an expression comes to what it does as a whole, if links do not depend on the batches
they are asked in. -/
theorem Host.Piecewise.matches (htable : links.Answers table)
    (h : (g.host links formula).Piecewise e x) :
    Run.Matches x ((g.host links formula).evaluateExpr e) := by
  have heval : Run.Matches x (e.eval ⟨(g.host links formula).reference, table⟩) := by
    induction h with
    | whole e => exact matches_evaluateExpr htable e
    | binary op _ _ ihe ihf => exact ihe.binary op ihf
  exact heval.trans (matches_evaluateExpr htable e).symm

end

namespace Context

/-- What formulas ask for when nothing is under evaluation. -/
def rootHost {σ : Type} (ctx : Context σ) : Host (Run σ) := ctx.grid.host ctx.links ctx.rootCell

theorem evaluate_formula {σ : Type} {ctx : Context σ} {body : List Char} (p : Pipeline)
    (hcount : body.count '(' = body.count ')') :
    (ctx.withPipeline p).evaluate (String.ofList ('=' :: body)) =
      (ctx.withPipeline p).rootHost.evaluateFormula p ('=' :: body) := by
  have hvalid : Textual.isValid ('=' :: body) := by
    simpa [Textual.isValid, Textual.isBalanced] using hcount
  unfold evaluate
  rw [String.toList_ofList, if_pos hvalid]
  rfl

/-- In pieces, an expression comes to the value it has as a whole. -/
theorem value_of_pieces {σ : Type} {ctx : Context σ} {table : Link → Option String}
    (htable : ctx.links.Answers table) {e : Expr} {x : Run σ Value}
    (h : ctx.rootHost.Piecewise e x) (s : σ) :
    (x s).1 = (ctx.rootHost.evaluateExpr e s).1 :=
  (Host.Piecewise.matches htable h s).1

end Context

/-! ## Groups and calls -/

/-- A grid in which `A3` refers to `A2`, which refers to `A1`, each among groups and calls. -/
def Grid.grouped : Grid := column ["2", "=(A1 + A1) * A1", "=sum(A1; -A2) - (A2/A1)"]

theorem Grid.plain_grouped : grouped.Plain := by
  have hkeys : ∀ c ∈ grouped.contents.keys, grouped.HoldsFormula c →
      Textual.Plain ((grouped.content c).toList.drop 1) := by decide +kernel
  exact fun c hc => hkeys c hc.mem_keys hc

theorem Context.evaluate_withPipeline_grouped :
    let ctx : Context Unit := { grid := Grid.grouped }
    ctx.activeMemo = Memo.off ∧ ctx.grid.Plain ∧ (∃ table, ctx.links.Answers table) ∧
      Textual.Plain ("=A3 * (A2 - A1)".toList.drop 1) ∧
      ((ctx.withPipeline .textual).evaluate "=A3 * (A2 - A1)" ()).1 =
        ((ctx.withPipeline .grammar).evaluate "=A3 * (A2 - A1)" ()).1 := by
  have hbody : Textual.Plain ("=A3 * (A2 - A1)".toList.drop 1) := by decide +kernel
  have hlinks : ∃ table, LinkSource.none.Answers table := ⟨fun _ => none, fun _ _ _ => rfl⟩
  exact ⟨rfl, Grid.plain_grouped, hlinks, hbody,
    evaluate_withPipeline { grid := Grid.grouped } rfl Grid.plain_grouped hlinks _ hbody () ()⟩

end Spreadsheet
