import Spreadsheet.Proofs.References
/-!
# What is written in a formula

Evaluating a formula asks for no cell but those that are written in it, and for
no link but those of the batch. So hosts that agree on these give a formula the
same value: `Host.evaluateFormula_congr`. The numbers and calls written in it
are listed here, too, each as often as it is written.
-/

namespace Spreadsheet

mutual

/-- The cells that an expression refers to, from left to right. -/
def Expr.cells : Expr → List Cell
  | .number _ | .text _ | .link _ => []
  | .cell c => [c]
  | .negate operand => operand.cells
  | .binary _ left right => left.cells ++ right.cells
  | .call _ arguments => Argument.cells arguments

/-- The cells that arguments refer to, from left to right. -/
def Argument.cells : List (Argument Expr) → List Cell
  | [] => []
  | .value operand :: rest => operand.cells ++ Argument.cells rest
  | .condition _ left right :: rest => left.cells ++ right.cells ++ Argument.cells rest
  | .criterion _ operand :: rest => operand.cells ++ Argument.cells rest

end

theorem Expr.mem_batch {e : Expr} {l : Link} : l ∈ e.batch ↔ l ∈ e.links := by
  unfold batch
  rw [Std.TreeSet.mem_toList, Std.TreeSet.mem_ofList, List.contains_iff_mem]

/-- The cells that an expression refers to, if there is one. -/
def writtenCells : Except ParseError Expr → List Cell
  | .ok e => e.cells
  | .error _ => []

namespace Textual

/-- The operands of a text. -/
def terms (text : List Char) : List (List Char) :=
  (operands text).1 :: (operands text).2.map (·.2)

/-- The operands that are no groups, in a text with groups nested at most `levels` deep. -/
def leavesWithin : (levels : Nat) → List Char → List (List Char)
  | 0, text => (terms text).filter fun token => (group? token).isNone
  | levels + 1, text => (terms text).flatMap fun token =>
    match group? token with
    | some inner => leavesWithin levels inner
    | none => [token]

end Textual

/-- The cells written in the operands of a body that is reduced. -/
def writtenInBody (body : List Char) : List Cell :=
  if Textual.nestingDepth body > nestingLimit then []
  else (Textual.leavesWithin Textual.groupLimit (Textual.normalize body)).flatMap fun token =>
    writtenCells (Expr.ofText (Textual.restore token))

/-- The cells written in a formula. -/
def written (pipeline : Pipeline) (formula : List Char) : List Cell :=
  match pipeline with
  | .grammar => writtenCells (Expr.ofFormula formula)
  | .textual => writtenInBody (formula.drop 1)

/-! ## Numbers, calls and operands -/

mutual

/-- The numbers written in an expression. -/
def Expr.numbers : Expr → List Float
  | .number x => [x]
  | .text _ | .cell _ | .link _ => []
  | .negate operand => operand.numbers
  | .binary _ left right => left.numbers ++ right.numbers
  | .call _ arguments => Argument.numbers arguments

/-- The numbers written in arguments. -/
def Argument.numbers : List (Argument Expr) → List Float
  | [] => []
  | .value operand :: rest => operand.numbers ++ Argument.numbers rest
  | .condition _ left right :: rest => left.numbers ++ right.numbers ++ Argument.numbers rest
  | .criterion _ operand :: rest => operand.numbers ++ Argument.numbers rest

end

mutual

/-- How many arguments the calls of an expression have. -/
def Expr.widths : Expr → List Nat
  | .number _ | .text _ | .cell _ | .link _ => []
  | .negate operand => operand.widths
  | .binary _ left right => left.widths ++ right.widths
  | .call _ arguments => arguments.length :: Argument.widths arguments

/-- How many arguments the calls in arguments have. -/
def Argument.widths : List (Argument Expr) → List Nat
  | [] => []
  | .value operand :: rest => operand.widths ++ Argument.widths rest
  | .condition _ left right :: rest => left.widths ++ right.widths ++ Argument.widths rest
  | .criterion _ operand :: rest => operand.widths ++ Argument.widths rest

end

mutual

/-- The names of the functions that an expression calls. -/
def Expr.calls : Expr → List String
  | .number _ | .text _ | .cell _ | .link _ => []
  | .negate operand => operand.calls
  | .binary _ left right => left.calls ++ right.calls
  | .call name arguments => name :: Argument.calls arguments

/-- The names of the functions that arguments call. -/
def Argument.calls : List (Argument Expr) → List String
  | [] => []
  | .value operand :: rest => operand.calls ++ Argument.calls rest
  | .condition _ left right :: rest => left.calls ++ right.calls ++ Argument.calls rest
  | .criterion _ operand :: rest => operand.calls ++ Argument.calls rest

end

/-- The expressions that a formula is read as, as a whole or in pieces. -/
def readings (pipeline : Pipeline) (formula : List Char) : List Expr :=
  match pipeline with
  | .grammar => (Expr.ofFormula formula).toOption.toList
  | .textual =>
    (Textual.leavesWithin Textual.groupLimit (Textual.normalize (formula.drop 1))).filterMap
      fun token => (Expr.ofText (Textual.restore token)).toOption

/-- The names of the functions that a formula calls, if it can be read. -/
def calledIn (formula : List Char) : List String :=
  match Expr.ofFormula formula with
  | .ok e => e.calls
  | .error _ => []

theorem mem_calledIn {formula : List Char} {e : Expr} {name : String}
    (he : e ∈ readings .grammar formula) (hname : name ∈ e.calls) : name ∈ calledIn formula := by
  have hparsed : (Expr.ofFormula formula).toOption = some e := Option.mem_toList.1 he
  unfold calledIn
  cases h : Expr.ofFormula formula with
  | error error =>
    rw [h] at hparsed
    cases hparsed
  | ok e' =>
    rw [h] at hparsed
    cases hparsed
    exact hname

/-- The expressions in an argument. -/
def Argument.operands {α : Type} : Argument α → List α
  | .value operand => [operand]
  | .condition _ left right => [left, right]
  | .criterion _ operand => [operand]

theorem Argument.cells_eq_flatMap (arguments : List (Argument Expr)) :
    Argument.cells arguments = arguments.flatMap fun a => a.operands.flatMap Expr.cells := by
  induction arguments with
  | nil => rfl
  | cons a arguments ih => cases a <;> simp [Argument.cells, operands, ih]

theorem Argument.delay_eq_map {m : Type → Type} [Monad m] [Reporter m] (scope : Scope m)
    (arguments : List (Argument Expr)) :
    Argument.delay scope arguments = arguments.map (Argument.map (Expr.eval scope)) := by
  induction arguments with
  | nil => rfl
  | cons a arguments ih => cases a <;> simp [Argument.delay, Argument.map, ih]

/-! ## Expressions -/

section
variable {m : Type → Type} [Monad m] [Reporter m]

mutual

theorem Expr.eval_congr {scope scope' : Scope m} : ∀ e : Expr,
    (∀ c ∈ e.cells, scope.reference c = scope'.reference c) →
    (∀ l ∈ e.links, scope.link l = scope'.link l) → e.eval scope = e.eval scope'
  | .number _, _, _ => rfl
  | .text _, _, _ => rfl
  | .cell c, hc, _ => hc c List.mem_cons_self
  | .link l, _, hl => congrArg (Evaluation.follow l) (hl l List.mem_cons_self)
  | .negate operand, hc, hl => by simp only [Expr.eval, Expr.eval_congr operand hc hl]
  | .binary op left right, hc, hl => by
    simp only [Expr.cells, Expr.links, List.forall_mem_append] at hc hl
    simp only [Expr.eval, Expr.eval_congr left hc.1 hl.1, Expr.eval_congr right hc.2 hl.2]
  | .call name arguments, hc, hl => by
    simp only [Expr.eval, Argument.delay_congr arguments hc hl]

theorem Argument.delay_congr {scope scope' : Scope m} : ∀ arguments : List (Argument Expr),
    (∀ c ∈ Argument.cells arguments, scope.reference c = scope'.reference c) →
    (∀ l ∈ Argument.links arguments, scope.link l = scope'.link l) →
    Argument.delay scope arguments = Argument.delay scope' arguments
  | [], _, _ => rfl
  | .value operand :: rest, hc, hl => by
    simp only [Argument.cells, Argument.links, List.forall_mem_append] at hc hl
    simp only [Argument.delay, Expr.eval_congr operand hc.1 hl.1,
      Argument.delay_congr rest hc.2 hl.2]
  | .condition op left right :: rest, hc, hl => by
    simp only [Argument.cells, Argument.links, List.forall_mem_append] at hc hl
    simp only [Argument.delay, Expr.eval_congr left hc.1.1 hl.1.1,
      Expr.eval_congr right hc.1.2 hl.1.2, Argument.delay_congr rest hc.2 hl.2]
  | .criterion op operand :: rest, hc, hl => by
    simp only [Argument.cells, Argument.links, List.forall_mem_append] at hc hl
    simp only [Argument.delay, Expr.eval_congr operand hc.1 hl.1,
      Argument.delay_congr rest hc.2 hl.2]

end

end

/-! ## Texts -/

namespace Textual
variable {m : Type → Type} [Monad m]

theorem joinOperands_congr {combine : Operator → Value → Value → m Value}
    {term term' : List Char → m Value} {text : List Char}
    (h : ∀ token ∈ terms text, term token = term' token) :
    joinOperands combine term text = joinOperands combine term' text := by
  obtain ⟨hfirst, hrest⟩ := List.forall_mem_cons.1 h
  simp only [joinOperands, hfirst]
  congr 1
  funext start
  generalize (operands text).2 = rest at hrest ⊢
  induction rest generalizing start with
  | nil => rfl
  | cons next rest ih =>
    obtain ⟨hnext, hrest⟩ := List.forall_mem_cons.1 hrest
    simp only [List.foldlM_cons, hnext, fun v => ih v hrest]

theorem reduceWithin_congr {combine : Operator → Value → Value → m Value}
    {operand operand' : List Char → m Value} {levels : Nat} {text : List Char}
    (h : ∀ token ∈ leavesWithin levels text, operand token = operand' token) :
    reduceWithin operand combine levels text = reduceWithin operand' combine levels text := by
  induction levels generalizing text with
  | zero =>
    apply joinOperands_congr
    intro token htoken
    split
    · rfl
    · rename_i hgroup
      exact h token (List.mem_filter.2 ⟨htoken, by rw [hgroup]; rfl⟩)
  | succ levels ih =>
    apply joinOperands_congr
    intro token htoken
    have htoken' := fun leaf hleaf => h leaf (List.mem_flatMap.2 ⟨token, htoken, hleaf⟩)
    split
    · rename_i inner hgroup
      rw [hgroup] at htoken'
      exact ih htoken'
    · rename_i hgroup
      rw [hgroup] at htoken'
      exact htoken' token List.mem_cons_self

end Textual

/-! ## Formulas -/

namespace Host
variable {m : Type → Type} [Monad m] [Reporter m] {host host' : Host m}

theorem evaluateExpr_congr {e : Expr} (hresolve : host.resolve = host'.resolve)
    (h : ∀ c ∈ e.cells, host.reference c = host'.reference c) :
    host.evaluateExpr e = host'.evaluateExpr e := by
  have heval : ∀ link, e.eval ⟨host.reference, link⟩ = e.eval ⟨host'.reference, link⟩ :=
    fun link => Expr.eval_congr e h fun _ _ => rfl
  unfold evaluateExpr
  simp only [heval, hresolve]

theorem evaluateParsed_congr {e : Except ParseError Expr}
    (hresolve : host.resolve = host'.resolve)
    (h : ∀ c ∈ writtenCells e, host.reference c = host'.reference c) :
    host.evaluateParsed e = host'.evaluateParsed e := by
  cases e with
  | error e => rfl
  | ok e => exact evaluateExpr_congr hresolve h

theorem evaluateOperand_congr {token : List Char} (hresolve : host.resolve = host'.resolve)
    (h : ∀ c ∈ writtenCells (Expr.ofText (Textual.restore token)),
      host.reference c = host'.reference c) :
    host.evaluateOperand token = host'.evaluateOperand token := by
  unfold evaluateOperand
  simp only [evaluateParsed_congr hresolve h]

theorem reduceBody_congr {body : List Char} (hresolve : host.resolve = host'.resolve)
    (h : ∀ c ∈ writtenInBody body, host.reference c = host'.reference c) :
    host.reduceBody body = host'.reduceBody body := by
  unfold reduceBody
  unfold writtenInBody at h
  split
  · rfl
  · rename_i hdepth
    rw [if_neg hdepth] at h
    apply Textual.reduceWithin_congr
    intro token htoken
    exact evaluateOperand_congr hresolve fun c hc =>
      h c (List.mem_flatMap.2 ⟨token, htoken, hc⟩)

/-- A formula comes to the same with hosts that agree on the cells written in it. -/
theorem evaluateFormula_congr {pipeline : Pipeline} {formula : List Char}
    (hresolve : host.resolve = host'.resolve)
    (h : ∀ c ∈ written pipeline formula, host.reference c = host'.reference c) :
    host.evaluateFormula pipeline formula = host'.evaluateFormula pipeline formula := by
  cases pipeline with
  | grammar => exact evaluateParsed_congr hresolve h
  | textual => exact reduceBody_congr hresolve h

end Host

/-- A formula of a grid comes to the same if the formulas of the cells written in it do. -/
theorem Grid.evaluateFormula_congr {m : Type → Type} [Monad m] [LawfulMonad m] [Observer m]
    {g : Grid} {links : LinkSource} {cells cells' : Cell → m Value} {pipeline : Pipeline}
    {formula : List Char}
    (h : ∀ c ∈ written pipeline formula, g.HoldsFormula c → cells c = cells' c) :
    (g.host links cells).evaluateFormula pipeline formula =
      (g.host links cells').evaluateFormula pipeline formula :=
  Host.evaluateFormula_congr rfl fun c hc => Grid.reference_congr (h c hc)

end Spreadsheet
