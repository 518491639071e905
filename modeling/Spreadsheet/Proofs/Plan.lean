import Spreadsheet.Evaluation
/-!
# Plans of evaluation

What a formula asks for depends on the answers it has had so far. Its evaluation
is therefore a tree, a plan, whose nodes ask for cells and links and report
failures. A plan is run by a host. Every host evaluates a formula by running one
and the same plan, `run_evaluateFormula`, so that facts about evaluation can be
proved by induction on plans.
-/

namespace Spreadsheet

/-- The argument with its expressions changed by `f`. -/
def Argument.map {α β : Type} (f : α → β) : Argument α → Argument β
  | .value operand => .value (f operand)
  | .condition op left right => .condition op (f left) (f right)
  | .criterion op operand => .criterion op (f operand)

theorem Comparison.select_map {α β : Type} (f : α → β) (op : Comparison) (a b : Float)
    (yes no : Option α) : op.select a b (yes.map f) (no.map f) = (op.select a b yes no).map f := by
  unfold Comparison.select
  split <;> rfl

/-- Whichever of two members of a list is chosen, it is a member. -/
theorem Comparison.mem_of_select {α : Type} {op : Comparison} {a b : Float} {l : List α}
    {i j : Nat} {x : α} (h : op.select a b l[i]? l[j]? = some x) : x ∈ l := by
  unfold Comparison.select at h
  split at h
  · exact List.mem_of_getElem? h
  · exact List.mem_of_getElem? h

/-- What an evaluation does next, for each answer it may get. -/
inductive Plan (α : Type) : Type where
  | done (a : α)
  | report (f : Failure) (next : Plan α)
  | resolve (batch : List Link) (next : (Link → Option String) → Plan α)
  | ask (c : Cell) (next : Value → Plan α)

namespace Plan
variable {α β : Type}

def bind : Plan α → (α → Plan β) → Plan β
  | done a, k => k a
  | report f next, k => report f (next.bind k)
  | resolve batch next, k => resolve batch fun link => (next link).bind k
  | ask c next, k => ask c fun v => (next v).bind k

instance : Monad Plan where
  pure := done
  bind := bind

theorem bind_done (p : Plan α) : p.bind done = p := by
  induction p with
  | done a => rfl
  | report f next ih => exact congrArg (report f) ih
  | resolve batch next ih => exact congrArg (resolve batch) (funext ih)
  | ask c next ih => exact congrArg (ask c) (funext ih)

theorem bind_assoc {γ : Type} (p : Plan α) (k : α → Plan β) (l : β → Plan γ) :
    (p.bind k).bind l = p.bind fun a => (k a).bind l := by
  induction p with
  | done a => rfl
  | report f next ih => exact congrArg (report f) ih
  | resolve batch next ih => exact congrArg (resolve batch) (funext ih)
  | ask c next ih => exact congrArg (ask c) (funext ih)

instance : LawfulMonad Plan := LawfulMonad.mk' Plan bind_done (fun _ _ => rfl) bind_assoc

instance : Reporter Plan := ⟨fun f => report f (done ())⟩

/-- The host that leaves every question open. -/
def host : Host Plan := ⟨fun c => ask c done, fun batch => resolve batch done⟩

/-! ## Running a plan -/

section
variable {m : Type → Type} [Monad m] [Reporter m] (h : Host m)

/-- The plan carried out with the answers of a host. -/
def run : Plan α → m α
  | done a => pure a
  | report f next => do
    Reporter.report f
    next.run
  | resolve batch next => do (next (← h.resolve batch)).run
  | ask c next => do (next (← h.reference c)).run

/-- A computation that may stop at a failure, carried out with the answers of a host. -/
def runExcept {ε : Type} (x : ExceptT ε Plan α) : ExceptT ε m α := ExceptT.mk (x.run.run h)

variable {ε : Type}

@[simp]
theorem run_pure (a : α) : run h (pure a) = pure a := rfl

@[simp]
theorem runExcept_pure (a : α) : runExcept h (pure a : ExceptT ε Plan α) = pure a := rfl

@[simp]
theorem runExcept_throw (e : ε) : runExcept h (throw e : ExceptT ε Plan α) = throw e := rfl

variable [LawfulMonad m]

@[simp]
theorem run_bind (p : Plan α) (k : α → Plan β) :
    run h (p >>= k) = run h p >>= fun a => run h (k a) := by
  show run h (p.bind k) = _
  induction p with
  | done a => simp [bind, run]
  | report f next ih => simp [bind, run, ih]
  | resolve batch next ih => simp [bind, run, ih]
  | ask c next ih => simp [bind, run, ih]

@[simp]
theorem run_map (f : α → β) (p : Plan α) : run h (f <$> p) = f <$> run h p := by
  rw [map_eq_pure_bind, map_eq_pure_bind, run_bind]
  rfl

@[simp]
theorem run_reference (c : Cell) : run h (host.reference c) = h.reference c := by
  simp [host, run]

@[simp]
theorem run_resolve (batch : List Link) : run h (host.resolve batch) = h.resolve batch := by
  simp [host, run]

@[simp]
theorem run_report (f : Failure) : run h (Reporter.report f) = Reporter.report f := by
  simp [Reporter.report, run]

@[simp]
theorem run_fail (f : Failure) : run h (Evaluation.fail f) = Evaluation.fail f := by
  simp [Evaluation.fail]

@[simp]
theorem run_mapM {γ : Type} (f : γ → Plan α) (l : List γ) :
    run h (l.mapM f) = l.mapM fun c => run h (f c) := by
  induction l with
  | nil => simp
  | cons c l ih => simp [ih]

@[simp]
theorem runExcept_bind (x : ExceptT ε Plan α) (k : α → ExceptT ε Plan β) :
    runExcept h (x >>= k) = runExcept h x >>= fun a => runExcept h (k a) := by
  refine ExceptT.ext ?_
  simp only [runExcept, ExceptT.run_bind, ExceptT.run_mk, run_bind]
  congr 1
  funext r
  cases r <;> rfl

@[simp]
theorem runExcept_map (f : α → β) (x : ExceptT ε Plan α) :
    runExcept h (f <$> x) = f <$> runExcept h x := by
  rw [map_eq_pure_bind, map_eq_pure_bind, runExcept_bind]
  rfl

@[simp]
theorem runExcept_lift (p : Plan α) :
    runExcept h (liftM p : ExceptT ε Plan α) = liftM (run h p) := by
  refine ExceptT.ext ?_
  simp [runExcept]

@[simp]
theorem runExcept_report (f : Failure) :
    runExcept h (Reporter.report f : ExceptT ε Plan Unit) = Reporter.report f := by
  refine ExceptT.ext ?_
  show run h (Except.ok <$> Reporter.report f) = Except.ok <$> Reporter.report f
  simp

@[simp]
theorem runExcept_fail (f : Failure) :
    runExcept h (Evaluation.fail f : ExceptT ε Plan Value) = Evaluation.fail f := by
  simp [Evaluation.fail]

@[simp]
theorem runExcept_mapM {γ : Type} (f : γ → ExceptT ε Plan α) (l : List γ) :
    runExcept h (l.mapM f) = l.mapM fun c => runExcept h (f c) := by
  induction l with
  | nil => simp
  | cons c l ih => simp [ih]

@[simp]
theorem run_settle (x : ExceptT Failure Plan Value) :
    run h (Evaluation.settle x) = Evaluation.settle (runExcept h x) := by
  simp only [Evaluation.settle, run_bind]
  congr 1
  funext r
  cases r <;> rfl

/-! ## Values -/

@[simp]
theorem runExcept_number (v : Value) :
    runExcept h (Evaluation.number v : ExceptT Failure Plan Float) = Evaluation.number v := by
  cases v with
  | error f => rfl
  | number x => rfl
  | text s =>
    simp only [Evaluation.number]
    cases (Value.text s).number? <;> simp

@[simp]
theorem run_finite (x : Float) : run h (Evaluation.finite x) = Evaluation.finite x := by
  simp only [Evaluation.finite]
  split <;> simp

@[simp]
theorem runExcept_finite (x : Float) :
    runExcept h (Evaluation.finite x : ExceptT Failure Plan Value) = Evaluation.finite x := by
  simp only [Evaluation.finite]
  split <;> simp

@[simp]
theorem run_negate (v : Value) : run h (Evaluation.negate v) = Evaluation.negate v := by
  simp [Evaluation.negate]

@[simp]
theorem run_arithmetic (op : Operator) (a b : Value) :
    run h (Evaluation.arithmetic op a b) = Evaluation.arithmetic op a b := by
  unfold Evaluation.arithmetic
  split
  · rfl
  · rfl
  · simp only [run_settle, runExcept_bind, runExcept_number]
    congr 2
    funext x
    congr 1
    funext y
    split <;> simp

/-! ## Calls -/

@[simp]
theorem run_argument (a : Argument (Plan Value)) :
    run h (Evaluation.argument a) = Evaluation.argument (a.map (run h)) := by
  cases a <;> simp [Evaluation.argument, Argument.map]

@[simp]
theorem runExcept_numberOf (v : Plan Value) :
    runExcept h (Evaluation.numberOf v) = Evaluation.numberOf (run h v) := by
  simp [Evaluation.numberOf]

@[simp]
theorem runExcept_numbers (as : List (Argument (Plan Value))) :
    runExcept h (Evaluation.numbers as) = Evaluation.numbers (as.map (Argument.map (run h))) := by
  simp [Evaluation.numbers, List.mapM_map, Function.comp_def]

theorem run_choose (as : List (Argument (Plan Value))) :
    run h (Evaluation.choose as) = Evaluation.choose (as.map (Argument.map (run h))) := by
  unfold Evaluation.choose
  rcases as with _ | ⟨_ | ⟨op, left, right⟩ | _, branches⟩
  · simp
  · simp [Argument.map]
  · simp only [List.map_cons, Argument.map, run_settle, runExcept_bind, runExcept_numberOf]
    congr 2
    funext a
    congr 1
    funext b
    simp only [List.getElem?_map, Comparison.select_map]
    cases op.select a b branches[0]? branches[1]? <;> simp
  · simp [Argument.map]

theorem run_countWhere (as : List (Argument (Plan Value))) :
    run h (Evaluation.countWhere as) = Evaluation.countWhere (as.map (Argument.map (run h))) := by
  unfold Evaluation.countWhere
  rw [List.getLast?_map]
  rcases as.getLast? with _ | _ | _ | ⟨op, operand⟩
  · simp
  · simp [Argument.map]
  · simp [Argument.map]
  · simp [Argument.map, List.map_dropLast]

theorem run_apply (f : Function) (as : List (Argument (Plan Value))) :
    run h (Evaluation.apply f as) = Evaluation.apply f (as.map (Argument.map (run h))) := by
  cases f with
  | choice => exact run_choose h as
  | countWhere => exact run_countWhere h as
  | sum | average | count | minimum | maximum => simp [Evaluation.apply, List.mapM_map, Function.comp_def]

theorem run_call (name : String) (as : List (Argument (Plan Value))) :
    run h (Evaluation.call name as) = Evaluation.call name (as.map (Argument.map (run h))) := by
  unfold Evaluation.call
  rw [List.length_map]
  split
  · simp
  · split
    · exact run_apply h _ as
    · simp

/-! ## Expressions -/

set_option linter.unusedSectionVars false in
mutual

theorem run_eval (link : Link → Option String) : ∀ e : Expr,
    run h (e.eval ⟨host.reference, link⟩) = e.eval ⟨h.reference, link⟩
  | .number x => by simp [Expr.eval]
  | .text s => by simp [Expr.eval]
  | .cell c => by simp [Expr.eval]
  | .link l => by
    simp only [Expr.eval, Evaluation.follow]
    split
    · simp
    · split <;> simp
  | .negate operand => by simp [Expr.eval, run_eval link operand]
  | .binary op left right => by
    simp only [Expr.eval, run_bind, run_eval link left]
    congr 1
    funext a
    split <;> simp [run_eval link right]
  | .call name as => by simp [Expr.eval, run_call, map_delay link as]

theorem map_delay (link : Link → Option String) : ∀ as : List (Argument Expr),
    (Argument.delay ⟨host.reference, link⟩ as).map (Argument.map (run h)) =
      Argument.delay ⟨h.reference, link⟩ as
  | [] => rfl
  | .value operand :: rest => by
    simp [Argument.delay, Argument.map, run_eval link operand, map_delay link rest]
  | .condition op left right :: rest => by
    simp [Argument.delay, Argument.map, run_eval link left, run_eval link right,
      map_delay link rest]
  | .criterion op operand :: rest => by
    simp [Argument.delay, Argument.map, run_eval link operand, map_delay link rest]

end

/-! ## Formulas -/

theorem run_joinOperands {combine : Operator → Value → Value → Plan Value}
    {combine' : Operator → Value → Value → m Value} {term : List Char → Plan Value}
    {term' : List Char → m Value} (hcombine : ∀ op a b, run h (combine op a b) = combine' op a b)
    (hterm : ∀ token, run h (term token) = term' token) (text : List Char) :
    run h (Textual.joinOperands combine term text) = Textual.joinOperands combine' term' text := by
  simp only [Textual.joinOperands, run_bind, hterm]
  congr 1
  funext start
  generalize (Textual.operands text).2 = rest
  induction rest generalizing start with
  | nil => simp
  | cons next rest ih => simp [hterm, hcombine, ih]

theorem run_reduceWithin {operand : List Char → Plan Value} {operand' : List Char → m Value}
    {combine : Operator → Value → Value → Plan Value}
    {combine' : Operator → Value → Value → m Value}
    (hoperand : ∀ token, run h (operand token) = operand' token)
    (hcombine : ∀ op a b, run h (combine op a b) = combine' op a b) (levels : Nat)
    (text : List Char) :
    run h (Textual.reduceWithin operand combine levels text) =
      Textual.reduceWithin operand' combine' levels text := by
  induction levels generalizing text with
  | zero =>
    refine run_joinOperands h hcombine (fun token => ?_) text
    split <;> simp [hoperand]
  | succ levels ih =>
    refine run_joinOperands h hcombine (fun token => ?_) text
    split
    · exact ih _
    · exact hoperand token

@[simp]
theorem run_evaluateExpr (e : Expr) : run h (host.evaluateExpr e) = h.evaluateExpr e := by
  unfold Host.evaluateExpr
  split
  · exact run_eval h _ e
  · simp [run_eval]

@[simp]
theorem run_evaluateParsed (e : Except ParseError Expr) :
    run h (host.evaluateParsed e) = h.evaluateParsed e := by
  cases e <;> simp [Host.evaluateParsed]

theorem run_evaluateOperand (token : List Char) :
    run h (host.evaluateOperand token) = h.evaluateOperand token := by
  simp only [Host.evaluateOperand]
  split <;> simp

theorem run_reduceBody (body : List Char) : run h (host.reduceBody body) = h.reduceBody body := by
  unfold Host.reduceBody
  split
  · simp
  · exact run_reduceWithin h (run_evaluateOperand h) (run_arithmetic h) _ _

/-- Every host evaluates a formula by running the same plan. -/
theorem run_evaluateFormula (pipeline : Pipeline) (formula : List Char) :
    run h (host.evaluateFormula pipeline formula) = h.evaluateFormula pipeline formula := by
  cases pipeline with
  | grammar => exact run_evaluateParsed h _
  | textual => exact run_reduceBody h _

end

end Plan

end Spreadsheet
