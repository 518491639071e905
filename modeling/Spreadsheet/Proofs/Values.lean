import Spreadsheet.Proofs.References
/-!
# Values without a memory

Without a memory, what a run does has no part in its value. `Grid.valueWithin`
is the value of a formula cell alone, given the path to it and how many more
cells may be under evaluation: `Context.formulaCell_value`.
-/

namespace Spreadsheet

namespace Grid
variable {g : Grid} {c : Cell}

theorem reference_id_of_formula (h : g.HoldsFormula c) (formula : Cell → Id Value) :
    g.reference formula c = formula c := by
  rw [reference_of_formula h]
  show (if (formula c).isError then formula c else formula c) = formula c
  split <;> rfl

theorem reference_id_of_not_formula (h : ¬ g.HoldsFormula c) (formula : Cell → Id Value) :
    g.reference formula c = g.literalValue c := by
  rw [reference_of_not_formula h]
  unfold literalValue Evaluation.passOn
  cases g.literal c <;> cases g.contains c <;> rfl

/-- The value of a formula, given the values of the cells with formulas. -/
def formulaValue (g : Grid) (links : LinkSource) (p : Pipeline) (formula : List Char)
    (cells : Cell → Value) : Value :=
  ((g.host links cells : Host Id).evaluateFormula p formula).run

/-- The value of a cell with a valid formula, reached over the cells of `path`, if `remaining`
more may be under evaluation. -/
def valueWithin (g : Grid) (links : LinkSource) (p : Pipeline) :
    (remaining : Nat) → (path : List Cell) → Cell → Value
  | 0, path, c => .error (if c ∈ path then .circular c else .chainTooDeep c)
  | remaining + 1, path, c =>
    if c ∈ path then .error (.circular c)
    else g.formulaValue links p (g.content c).toList (valueWithin g links p remaining (c :: path))

end Grid

theorem Plan.run_value {σ α : Type} {g : Grid} {links : LinkSource} {formula : Cell → Run σ Value}
    {cells : Cell → Value} (h : ∀ d s, (formula d s).1 = cells d) (q : Plan α) (s : σ) :
    (q.run (g.host links formula) s).1 = (q.run (g.host links cells : Host Id)).run := by
  induction q generalizing s with
  | done a => rfl
  | report f next ih =>
    rw [run_report_apply]
    exact ih s
  | resolve batch next ih =>
    rw [run_resolve_apply]
    exact ih _ s
  | ask c next ih =>
    have hrun : ∀ v : Value, (g.reference cells c : Id Value) = v →
        (Plan.ask c next).run (g.host links cells : Host Id) =
          (next v).run (g.host links cells : Host Id) := by
      rintro _ rfl
      rfl
    by_cases hc : g.HoldsFormula c
    · rw [run_ask_of_formula hc, hrun _ (Grid.reference_id_of_formula hc cells), ← h c s]
      exact ih _ _
    · rw [run_ask_of_not_formula hc, hrun _ (Grid.reference_id_of_not_formula hc cells)]
      exact ih _ _

namespace Context
variable {σ : Type} {ctx : Context σ}

theorem evaluateFormula_value {formula : Cell → Run σ Value} {cells : Cell → Value}
    (h : ∀ d s, (formula d s).1 = cells d) (text : List Char) (s : σ) :
    ((ctx.grid.host ctx.links formula).evaluateFormula ctx.options.pipeline text s).1 =
      ctx.grid.formulaValue ctx.links ctx.options.pipeline text cells := by
  unfold Grid.formulaValue
  rw [← Plan.run_evaluateFormula (ctx.grid.host ctx.links formula),
    ← Plan.run_evaluateFormula (ctx.grid.host ctx.links cells : Host Id)]
  exact Plan.run_value h _ s

theorem rememberedOr_off (hoff : ctx.activeMemo = Memo.off) (c : Cell) (run : Run σ Value) :
    ctx.rememberedOr c run = run := by
  funext s
  simp only [rememberedOr, hoff, Memo.off]

/-- Without a memory, the value of a formula cell does not depend on the state. -/
theorem formulaCell_value (hoff : ctx.activeMemo = Memo.off) (n : Nat) (path : List Cell) (c : Cell)
    (s : σ) : (ctx.formulaCell n path c s).1 =
      ctx.grid.valueWithin ctx.links ctx.options.pipeline n path c := by
  induction n generalizing path c s with
  | zero =>
    rw [formulaCell, Grid.valueWithin, rememberedOr_off hoff]
    rfl
  | succ n ih =>
    rw [formulaCell, Grid.valueWithin, rememberedOr_off hoff]
    split
    · rfl
    · exact evaluateFormula_value (fun d s => ih (c :: path) d s) _ s

theorem formulaCell_of_lookup {n : Nat} {path : List Cell} {c : Cell} {v : Value} {s s' : σ}
    (hl : ctx.activeMemo.lookup c s = (some v, s')) :
    ctx.formulaCell n path c s = (v, .empty, s') := by
  cases n <;> simp only [formulaCell, rememberedOr, hl]

/-! ## Entry points -/

theorem evaluateCell_of_formula {c : Cell} (hc : ctx.grid.HoldsFormula c) :
    ctx.evaluateCell c = ctx.formulaCell ctx.options.maxDepth [] c :=
  Grid.cellValue_of_formula hc _

theorem evaluateCell_of_not_formula {c : Cell} (hc : ¬ ctx.grid.HoldsFormula c) :
    ctx.evaluateCell c = Evaluation.passOn (ctx.grid.ownValue c) :=
  Grid.cellValue_of_not_formula hc _

section
variable (hoff : ctx.activeMemo = Memo.off)
include hoff

theorem rootCell_value (c : Cell) (s : σ) : (ctx.rootCell c s).1 =
    ctx.grid.valueWithin ctx.links ctx.options.pipeline ctx.options.maxDepth [] c :=
  formulaCell_value hoff _ _ c s

theorem evaluateCell_value {c : Cell} (hc : ctx.grid.HoldsFormula c) (s : σ) :
    (ctx.evaluateCell c s).1 =
      ctx.grid.valueWithin ctx.links ctx.options.pipeline ctx.options.maxDepth [] c := by
  rw [evaluateCell_of_formula hc]
  exact formulaCell_value hoff _ _ c s

theorem evaluate_value {content : String} (hvalid : Textual.isValid content.toList) (s : σ) :
    (ctx.evaluate content s).1 =
      ctx.grid.formulaValue ctx.links ctx.options.pipeline content.toList
        (ctx.grid.valueWithin ctx.links ctx.options.pipeline ctx.options.maxDepth []) := by
  rw [evaluate, if_pos hvalid]
  exact evaluateFormula_value (rootCell_value hoff) _ s

end

end Context

end Spreadsheet
