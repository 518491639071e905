import Spreadsheet.Proofs.Reports
import Spreadsheet.Proofs.Values
import Spreadsheet.Proofs.Written
/-!
# Batches of links

The values of the links in a formula are asked for together, before anything
else is evaluated, and in one batch that has each link of the formula once. The
formulas of the cells that it refers to have batches of their own, asked for
while it is under evaluation. `Grid.Batched` and `Grid.Within` say so of what
happens during an evaluation, and `Context.evaluateBy_batched` says that these
hold of every evaluation, whatever answers the batches.
-/

namespace Spreadsheet

/-! ## Links in an expression -/

/-- The link stands in the expression. -/
inductive Link.OccursIn (l : Link) : Expr → Prop where
  | self : OccursIn l (.link l)
  | negate {operand : Expr} : OccursIn l operand → OccursIn l (.negate operand)
  | left {op : Operator} {left right : Expr} : OccursIn l left → OccursIn l (.binary op left right)
  | right {op : Operator} {left right : Expr} :
      OccursIn l right → OccursIn l (.binary op left right)
  | argument {name : String} {as : List (Argument Expr)} {a : Argument Expr} {operand : Expr} :
      a ∈ as → operand ∈ a.operands → OccursIn l operand → OccursIn l (.call name as)

theorem Argument.links_eq_flatMap (as : List (Argument Expr)) :
    Argument.links as = as.flatMap fun a => a.operands.flatMap Expr.links := by
  induction as with
  | nil => rfl
  | cons a as ih => cases a <;> simp [Argument.links, Argument.operands, ih]

theorem Link.OccursIn.mem_links {l : Link} {e : Expr} (h : l.OccursIn e) : l ∈ e.links := by
  induction h with
  | self => exact List.mem_cons_self
  | negate _ ih => exact ih
  | left _ ih => exact List.mem_append_left _ ih
  | right _ ih => exact List.mem_append_right _ ih
  | argument ha hoperand _ ih =>
    rw [Expr.links, Argument.links_eq_flatMap]
    exact List.mem_flatMap.2 ⟨_, ha, List.mem_flatMap.2 ⟨_, hoperand, ih⟩⟩

theorem Argument.sizeOf_operand_lt {a : Argument Expr} {operand : Expr}
    (h : operand ∈ a.operands) : sizeOf operand < sizeOf a := by
  cases a <;> grind [operands, value.sizeOf_spec, condition.sizeOf_spec, criterion.sizeOf_spec]

theorem Expr.occursIn_of_mem_links {l : Link} : ∀ e : Expr, l ∈ e.links → l.OccursIn e
  | .number _, h => nomatch h
  | .text _, h => nomatch h
  | .cell _, h => nomatch h
  | .link l', h => by
    obtain rfl := List.mem_singleton.1 h
    exact .self
  | .negate operand, h => .negate (occursIn_of_mem_links operand h)
  | .binary op left right, h => by
    rw [links, List.mem_append] at h
    cases h with
    | inl h => exact .left (occursIn_of_mem_links left h)
    | inr h => exact .right (occursIn_of_mem_links right h)
  | .call name as, h => by
    rw [links, Argument.links_eq_flatMap, List.mem_flatMap] at h
    obtain ⟨a, ha, h⟩ := h
    obtain ⟨operand, hoperand, h⟩ := List.mem_flatMap.1 h
    have := List.sizeOf_lt_of_mem ha
    have := Argument.sizeOf_operand_lt hoperand
    exact .argument ha hoperand (occursIn_of_mem_links operand h)
termination_by e => sizeOf e
decreasing_by
  all_goals simp only [negate.sizeOf_spec, binary.sizeOf_spec, call.sizeOf_spec]
  all_goals omega

/-- The batch of an expression has the links that stand in it. -/
theorem Expr.mem_batch_iff_occursIn {e : Expr} {l : Link} : l ∈ e.batch ↔ l.OccursIn e :=
  Expr.mem_batch.trans ⟨Expr.occursIn_of_mem_links e, Link.OccursIn.mem_links⟩

/-- The batch of an expression is in order, so that it has each link once. -/
theorem Expr.pairwise_batch (e : Expr) : e.batch.Pairwise fun l l' => compare l l' = .lt :=
  Std.TreeSet.ordered_toList

/-! ## Evaluation with a resolver

The links of a context answer a batch alike whenever they are asked for it. A resolver may keep
account of the batches, and answer the same one differently the next time. Evaluation with a
resolver is that of `Context` but for the answers to batches, and with `LinkSource.resolver` it
is the very same.
-/

/-- Answers a batch of distinct links, given in order. What it answers may depend on a state,
which it may change. -/
abbrev Resolver (σ : Type) := (batch : List Link) → σ → (Link → Option String) × σ

/-- A source of linked values answers in every state alike. -/
def LinkSource.resolver {σ : Type} (links : LinkSource) : Resolver σ := fun batch s =>
  (links batch, s)

namespace Resolver
variable {σ : Type} (resolver : Resolver σ)

/-- The resolver has no part in what a run leaves behind. -/
def answer (batch : List Link) : Run σ (Link → Option String) := fun s =>
  ((resolver batch s).1, .empty, (resolver batch s).2)

/-- The resolver that gives the same answers, but to the links of the batch alone. -/
def restricted : Resolver σ := fun batch s =>
  (fun l => if l ∈ batch then (resolver batch s).1 l else none, (resolver batch s).2)

end Resolver

namespace Context
variable {σ : Type} (ctx : Context σ) (resolver : Resolver σ)

/-- The host that looks up cells in the grid and gives batches to the resolver. -/
def hostBy (formula : Cell → Run σ Value) : Host (Run σ) where
  reference := ctx.grid.reference formula
  resolve batch := do
    Observer.resolve batch
    resolver.answer batch

/-- The value of a formula cell, as `formulaCell` has it, where the resolver gives the values
of links. -/
def formulaCellBy : (remaining : Nat) → (path : List Cell) → Cell → Run σ Value
  | 0, path, c =>
    ctx.rememberedOr c (breakOff (if c ∈ path then .circular c else .chainTooDeep c))
  | remaining + 1, path, c =>
    ctx.rememberedOr c <|
      if c ∈ path then breakOff (.circular c)
      else
        ctx.visit c <|
          (ctx.hostBy resolver (formulaCellBy remaining (c :: path))).evaluateFormula
            ctx.options.pipeline (ctx.grid.content c).toList

/-- The value of a formula cell when nothing is under evaluation. -/
def rootCellBy (c : Cell) : Run σ Value := ctx.formulaCellBy resolver ctx.options.maxDepth [] c

/-- The value of a cell, where the resolver gives the values of links. -/
def evaluateCellBy (c : Cell) : Run σ Value := ctx.grid.cellValue (ctx.rootCellBy resolver) c

/-- The value of a content that stands in no cell, where the resolver gives the values of
links. -/
def evaluateBy (content : String) : Run σ Value :=
  if Textual.isValid content.toList then
    (ctx.hostBy resolver (ctx.rootCellBy resolver)).evaluateFormula ctx.options.pipeline
      content.toList
  else if isFormula content then return .text content
  else return .ofLiteral content

/-! ### Evaluation with a source of linked values -/

theorem hostBy_resolver (formula : Cell → Run σ Value) :
    ctx.hostBy ctx.links.resolver formula = ctx.grid.host ctx.links formula := rfl

theorem formulaCellBy_resolver (n : Nat) (path : List Cell) (c : Cell) :
    ctx.formulaCellBy ctx.links.resolver n path c = ctx.formulaCell n path c := by
  induction n generalizing path c with
  | zero => rfl
  | succ n ih =>
    have hcells : ctx.formulaCellBy ctx.links.resolver n (c :: path) =
        ctx.formulaCell n (c :: path) := funext fun d => ih (c :: path) d
    rw [formulaCellBy, formulaCell, hcells, hostBy_resolver]

theorem rootCellBy_resolver : ctx.rootCellBy ctx.links.resolver = ctx.rootCell :=
  funext fun c => ctx.formulaCellBy_resolver _ [] c

theorem evaluateCellBy_resolver : ctx.evaluateCellBy ctx.links.resolver = ctx.evaluateCell := by
  funext c
  rw [evaluateCellBy, evaluateCell, rootCellBy_resolver]

theorem evaluateBy_resolver : ctx.evaluateBy ctx.links.resolver = ctx.evaluate := by
  funext content
  rw [evaluateBy, evaluate, rootCellBy_resolver, hostBy_resolver]

/-! ### Answers to other links than those of the batch -/

variable {ctx}

theorem resolve_hostBy_restricted (formula : Cell → Run σ Value) (batch : List Link) :
    (ctx.hostBy resolver.restricted formula).resolve batch =
      (fun link l => if l ∈ batch then link l else none) <$>
        (ctx.hostBy resolver formula).resolve batch := by
  simp only [hostBy, map_bind]
  rfl

variable (hgrammar : ctx.options.pipeline = .grammar)
include hgrammar

/-- A formula follows no link but those of its batch. -/
theorem evaluateFormula_restricted (cells : Cell → Run σ Value) (formula : List Char) :
    (ctx.hostBy resolver.restricted cells).evaluateFormula ctx.options.pipeline formula =
      (ctx.hostBy resolver cells).evaluateFormula ctx.options.pipeline formula := by
  rw [hgrammar]
  simp only [Host.evaluateFormula]
  cases Expr.ofFormula formula with
  | error error => rfl
  | ok e =>
    simp only [Host.evaluateParsed, Host.evaluateExpr, resolve_hostBy_restricted, bind_map_left]
    split
    · rfl
    · congr 1
      funext link
      refine Expr.eval_congr e (fun _ _ => rfl) fun l hl => ?_
      exact if_pos (Expr.mem_batch.2 hl)

theorem formulaCellBy_restricted (n : Nat) (path : List Cell) (c : Cell) :
    ctx.formulaCellBy resolver.restricted n path c = ctx.formulaCellBy resolver n path c := by
  induction n generalizing path c with
  | zero => rfl
  | succ n ih =>
    have hcells : ctx.formulaCellBy resolver.restricted n (c :: path) =
        ctx.formulaCellBy resolver n (c :: path) := funext fun d => ih (c :: path) d
    rw [formulaCellBy, formulaCellBy, hcells, evaluateFormula_restricted resolver hgrammar]

theorem rootCellBy_restricted : ctx.rootCellBy resolver.restricted = ctx.rootCellBy resolver :=
  funext fun c => formulaCellBy_restricted resolver hgrammar _ [] c

theorem evaluateCellBy_restricted :
    ctx.evaluateCellBy resolver.restricted = ctx.evaluateCellBy resolver := by
  funext c
  rw [evaluateCellBy, evaluateCellBy, rootCellBy_restricted resolver hgrammar]

theorem evaluateBy_restricted : ctx.evaluateBy resolver.restricted = ctx.evaluateBy resolver := by
  funext content
  rw [evaluateBy, evaluateBy, rootCellBy_restricted resolver hgrammar,
    evaluateFormula_restricted resolver hgrammar]

end Context

/-! ## What happens during an evaluation -/

/-- A failure to look up a link is due to the answer to the batch, which has the link but no
content for it, or the mark of an error. -/
def Failure.DueTo (batch : List Link) (answer : Link → Option String) (f : Failure) : Prop :=
  f.kind = .externalLookupFailure →
    ∃ l ∈ batch, f = .lookupFailed l ∧ (answer l = none ∨ answer l = some errorMark)

namespace Grid
variable {σ : Type}

mutual

/-- What happens while a formula is evaluated, which takes the resolver from one state to
another. Links that stand in the formula are asked for at once, and in one batch. -/
inductive Batched (g : Grid) (resolver : Resolver σ) : List Char → σ → List Event → σ → Prop where
  | malformed {formula : List Char} {error : ParseError} {s : σ} :
      Expr.ofFormula formula = .error error →
      Batched g resolver formula s [.reported (.malformed error)] s
  | unlinked {formula : List Char} {e : Expr} {events : List Event} {s s' : σ} :
      Expr.ofFormula formula = .ok e → (∀ l : Link, ¬ l.OccursIn e) →
      Within g resolver [] (fun _ => none) s events s' → Batched g resolver formula s events s'
  | linked {formula : List Char} {e : Expr} {batch : List Link} {events : List Event} {s s' : σ} :
      Expr.ofFormula formula = .ok e → (∃ l : Link, l.OccursIn e) →
      (∀ l, l ∈ batch ↔ l.OccursIn e) → (batch.Pairwise fun l l' => compare l l' = .lt) →
      Within g resolver batch (resolver batch s).1 (resolver batch s).2 events s' →
      Batched g resolver formula s (.resolved batch :: events) s'

/-- What happens while a formula is evaluated that has the answer to its batch: failures are
reported, and the formulas of cells are evaluated with batches of their own. -/
inductive Within (g : Grid) (resolver : Resolver σ) :
    List Link → (Link → Option String) → σ → List Event → σ → Prop where
  | done {batch : List Link} {answer : Link → Option String} {s : σ} :
      Within g resolver batch answer s [] s
  | report {batch : List Link} {answer : Link → Option String} {f : Failure} {events : List Event}
      {s s' : σ} :
      f.DueTo batch answer → Within g resolver batch answer s events s' →
      Within g resolver batch answer s (.reported f :: events) s'
  | visit {batch : List Link} {answer : Link → Option String} {c : Cell} {value : Value}
      {reads : List Cell} {volatile : Bool} {inner events : List Event} {s s₁ s' : σ} :
      g.HoldsFormula c → Batched g resolver (g.content c).toList s inner s₁ →
      Within g resolver batch answer s₁ events s' →
      Within g resolver batch answer s
        (.opened c :: inner ++ .closed c value reads volatile :: events) s'

end

theorem Within.append {g : Grid} {resolver : Resolver σ} {batch : List Link}
    {answer : Link → Option String} {s s₁ s' : σ} {events events' : List Event} :
    g.Within resolver batch answer s events s₁ → g.Within resolver batch answer s₁ events' s' →
      g.Within resolver batch answer s (events ++ events') s'
  | .done, h' => h'
  | .report hf h, h' => .report hf (h.append h')
  | .visit hc hinner h, h' => by
    rw [List.append_assoc]
    exact .visit hc hinner (h.append h')

theorem Within.reported {g : Grid} {resolver : Resolver σ} {batch : List Link}
    {answer : Link → Option String} {s : σ} {f : Failure} (hf : f.kind ≠ .externalLookupFailure) :
    g.Within resolver batch answer s [.reported f] s :=
  .report (fun h => absurd h hf) .done

/-- What happens while the formula of a cell is evaluated may happen while any formula is that
refers to the cell, whatever the batch of that one. -/
def CellsWithin (g : Grid) (resolver : Resolver σ) (cells : Cell → Run σ Value) : Prop :=
  ∀ c s batch answer, g.HoldsFormula c →
    g.Within resolver batch answer s (cells c s).2.1.events (cells c s).2.2

end Grid

section
variable {σ : Type} {ctx : Context σ} {resolver : Resolver σ} {cells : Cell → Run σ Value}
  {batch : List Link} {answer : Link → Option String}
  (hcells : ctx.grid.CellsWithin resolver cells)
include hcells

theorem Grid.within_reference (c : Cell) (s : σ) :
    ctx.grid.Within resolver batch answer s (ctx.grid.reference cells c s).2.1.events
      (ctx.grid.reference cells c s).2.2 := by
  by_cases hc : ctx.grid.HoldsFormula c
  · -- A failure in the cell is met again as one of the reference, which no link is to blame for.
    rw [run_reference_of_formula hc]
    refine (hcells c s batch answer hc).append ?_
    split
    · exact .reported nofun
    · exact .done
  · rw [run_reference_of_not_formula hc]
    simp only [literalTrace]
    cases hl : ctx.grid.literal c with
    | ok v => exact .done
    | error f => exact .reported (by simp [kind_of_literal hl])

/-- The run of a plan that asks for no batch. -/
theorem Plan.Confined.run_within {α : Type} {q : Plan α}
    (hq : q.Confined (fun _ => False) (Failure.DueTo batch answer)) (s : σ) :
    ctx.grid.Within resolver batch answer s (q.run (ctx.hostBy resolver cells) s).2.1.events
      (q.run (ctx.hostBy resolver cells) s).2.2 := by
  induction q generalizing s with
  | done a => exact .done
  | report f next ih => exact .report hq.1 (ih hq.2 s)
  | resolve batch next ih => exact hq.1.elim
  | ask c next ih => exact (Grid.within_reference hcells c s).append (ih _ (hq _) _)

theorem Expr.eval_within {e : Expr} {link : Link → Option String}
    (hbatch : ∀ l : Link, l.OccursIn e → l ∈ batch) (s : σ) :
    let r := e.eval ⟨(ctx.hostBy resolver cells).reference, link⟩ s
    ctx.grid.Within resolver batch link s r.2.1.events r.2.2 := by
  -- What the expression may report is known of its plan, which asks for no batch.
  rw [← Plan.run_eval]
  have hcalculation : ∀ f : Failure, f.OfCalculation → f.DueTo batch link :=
    fun f hf h => absurd h hf.kind_ne
  refine Plan.Confined.run_within hcells (Plan.confined_eval hcalculation e ?_) s
  intro l hl hlink _
  exact ⟨l, hbatch l (Expr.occursIn_of_mem_links e hl), rfl, hlink⟩

theorem Grid.batched_evaluateFormula (formula : List Char) (s : σ) :
    let r := (ctx.hostBy resolver cells).evaluateFormula .grammar formula s
    ctx.grid.Batched resolver formula s r.2.1.events r.2.2 := by
  simp only [Host.evaluateFormula]
  cases he : Expr.ofFormula formula with
  | error error => exact .malformed he
  | ok e =>
    simp only [Host.evaluateParsed, Host.evaluateExpr]
    split
    · rename_i hempty
      have hnone : ∀ l : Link, ¬ l.OccursIn e := by
        intro l hl
        rw [← Expr.mem_batch_iff_occursIn, List.isEmpty_iff.1 hempty] at hl
        cases hl
      exact .unlinked he hnone (Expr.eval_within hcells (fun l hl => absurd hl (hnone l)) s)
    · rename_i hbatch
      obtain ⟨l, hl⟩ := List.exists_mem_of_ne_nil _ fun h => hbatch (List.isEmpty_iff.2 h)
      exact .linked he ⟨l, Expr.mem_batch_iff_occursIn.1 hl⟩ (fun _ => Expr.mem_batch_iff_occursIn)
        e.pairwise_batch (Expr.eval_within hcells (fun _ => Expr.mem_batch_iff_occursIn.2) _)

end

/-! ## Evaluation without a memory -/

namespace Context

section
variable {σ : Type} {ctx : Context σ} (resolver : Resolver σ)
  (hgrammar : ctx.options.pipeline = .grammar) (hoff : ctx.activeMemo = Memo.off)
include hgrammar hoff

/-- A formula cell outside the path is visited, if the limit on depth allows it. -/
theorem formulaCellBy_visits {n : Nat} {path : List Cell} {c : Cell} (hc : c ∉ path)
    (hcells : ctx.grid.CellsWithin resolver (ctx.formulaCellBy resolver n (c :: path))) (s : σ) :
    let r := ctx.formulaCellBy resolver (n + 1) path c s
    ∃ events value reads volatile,
      r.2.1.events = .opened c :: events ++ [.closed c value reads volatile] ∧
      ctx.grid.Batched resolver (ctx.grid.content c).toList s events r.2.2 := by
  rw [formulaCellBy, rememberedOr_off hoff, if_neg hc, hgrammar]
  simp only [visit, hoff, Memo.off]
  exact ⟨_, _, _, _, rfl, Grid.batched_evaluateFormula hcells _ s⟩

theorem cellsWithin_formulaCellBy (n : Nat) (path : List Cell) :
    ctx.grid.CellsWithin resolver (ctx.formulaCellBy resolver n path) := by
  intro c s batch answer hc
  induction n generalizing path c s batch answer with
  | zero =>
    rw [formulaCellBy, rememberedOr_off hoff]
    split <;> exact .reported nofun
  | succ n ih =>
    by_cases hpath : c ∈ path
    · -- The cell closes a cycle, and its formula is not evaluated again.
      rw [formulaCellBy, rememberedOr_off hoff, if_pos hpath]
      exact .reported nofun
    · have hcells : ctx.grid.CellsWithin resolver (ctx.formulaCellBy resolver n (c :: path)) :=
        fun d s batch answer hd => ih (c :: path) d s batch answer hd
      obtain ⟨events, value, reads, volatile, hevents, h⟩ :=
        formulaCellBy_visits resolver hgrammar hoff hpath hcells s
      rw [hevents]
      exact .visit hc h .done

theorem evaluateCellBy_visits {c : Cell} (hc : ctx.grid.HoldsFormula c)
    (hdepth : 0 < ctx.options.maxDepth) (s : σ) :
    let r := ctx.evaluateCellBy resolver c s
    ∃ events value reads volatile,
      r.2.1.events = .opened c :: events ++ [.closed c value reads volatile] ∧
      ctx.grid.Batched resolver (ctx.grid.content c).toList s events r.2.2 := by
  simp only [evaluateCellBy, Grid.cellValue_of_formula hc, rootCellBy]
  obtain ⟨n, hn⟩ := Nat.exists_eq_succ_of_ne_zero (Nat.ne_of_gt hdepth)
  rw [hn]
  exact formulaCellBy_visits resolver hgrammar hoff List.not_mem_nil
    (cellsWithin_formulaCellBy resolver hgrammar hoff n [c]) s

omit hgrammar in
/-- A cell whose formula is not evaluated reports at most why it has no value. -/
theorem evaluateCellBy_reports {c : Cell}
    (h : ¬ (ctx.grid.HoldsFormula c ∧ 0 < ctx.options.maxDepth)) (s : σ) :
    let r := ctx.evaluateCellBy resolver c s
    (∀ e ∈ r.2.1.events, ∃ f : Failure, e = .reported f ∧ f.kind ≠ .externalLookupFailure) ∧
      r.2.2 = s := by
  simp only [evaluateCellBy]
  by_cases hc : ctx.grid.HoldsFormula c
  · have hdepth : ctx.options.maxDepth = 0 := Nat.eq_zero_of_not_pos fun hpos => h ⟨hc, hpos⟩
    rw [Grid.cellValue_of_formula hc, rootCellBy, hdepth, formulaCellBy, rememberedOr_off hoff]
    exact ⟨List.forall_mem_singleton.2 ⟨_, rfl, nofun⟩, rfl⟩
  · rw [Grid.cellValue_of_not_formula hc]
    cases hown : ctx.grid.ownValue c with
    | ok v => exact ⟨List.forall_mem_nil _, rfl⟩
    | error f =>
      have hkind : f.kind ≠ .externalLookupFailure := by simp [Grid.kind_of_ownValue hown]
      exact ⟨List.forall_mem_singleton.2 ⟨f, rfl, hkind⟩, rfl⟩

theorem evaluateBy_valid {content : String} (hvalid : Textual.isValid content.toList) (s : σ) :
    let r := ctx.evaluateBy resolver content s
    ctx.grid.Batched resolver content.toList s r.2.1.events r.2.2 := by
  simp only [evaluateBy, if_pos hvalid, hgrammar]
  exact Grid.batched_evaluateFormula
    (cellsWithin_formulaCellBy resolver hgrammar hoff ctx.options.maxDepth []) _ s

variable (ctx) in
/-- Each formula that is evaluated has the links that stand in it asked for once and together,
those of other cells excluded, and no others are asked for. No answer counts but those to the
links of the batch, and a failure to look up a link arises only where the batch of its formula
was answered with nothing for the link, or with the mark of an error. -/
theorem evaluateBy_batched (s : σ) :
    (∀ content : String,
      let r := ctx.evaluateBy resolver content s
      if Textual.isValid content.toList then
        ctx.grid.Batched resolver content.toList s r.2.1.events r.2.2
      else r.2.1.events = [] ∧ r.2.2 = s) ∧
    (∀ c : Cell,
      let r := ctx.evaluateCellBy resolver c s
      if ctx.grid.HoldsFormula c ∧ 0 < ctx.options.maxDepth then
        ∃ events value reads volatile,
          r.2.1.events = .opened c :: events ++ [.closed c value reads volatile] ∧
          ctx.grid.Batched resolver (ctx.grid.content c).toList s events r.2.2
      else
        (∀ e ∈ r.2.1.events, ∃ f : Failure, e = .reported f ∧ f.kind ≠ .externalLookupFailure) ∧
        r.2.2 = s) ∧
    (ctx.evaluateBy resolver.restricted = ctx.evaluateBy resolver ∧
      ctx.evaluateCellBy resolver.restricted = ctx.evaluateCellBy resolver) ∧
    (ctx.evaluateBy ctx.links.resolver = ctx.evaluate ∧
      ctx.evaluateCellBy ctx.links.resolver = ctx.evaluateCell) := by
  refine ⟨?_, ?_, ⟨evaluateBy_restricted resolver hgrammar,
    evaluateCellBy_restricted resolver hgrammar⟩, ctx.evaluateBy_resolver,
    ctx.evaluateCellBy_resolver⟩
  · intro content
    split
    · rename_i hvalid
      exact evaluateBy_valid resolver hgrammar hoff hvalid s
    · rename_i hvalid
      simp only [evaluateBy, if_neg hvalid]
      split <;> exact ⟨rfl, rfl⟩
  · intro c
    split
    · rename_i h
      exact evaluateCellBy_visits resolver hgrammar hoff h.1 h.2 s
    · rename_i h
      exact evaluateCellBy_reports resolver hoff h s

end

/-- The branch that is not chosen has its link asked for, and the formula of the other cell has a
batch of its own, whose answer lacks the link. -/
theorem evaluateBy_batched_column :
    let ctx : Context Nat :=
      { grid := Grid.column ["=Sales:A2+if(1<2;A2;Old:A1)", "=Costs:A3+1"]
        options := { cache := false } }
    let resolver : Resolver Nat := fun _ n => (fun _ => if n = 0 then some "4" else none, n + 1)
    let r := ctx.evaluateCellBy resolver .a1 0
    let failed : Failure := .lookupFailed ⟨"Costs", .a3⟩
    ctx.options.pipeline = .grammar ∧ ctx.activeMemo = Memo.off ∧
    (∃ events value reads volatile,
      r.2.1.events = .opened .a1 :: events ++ [.closed .a1 value reads volatile] ∧
      ctx.grid.Batched resolver (ctx.grid.content .a1).toList 0 events r.2.2) ∧
    r.2.1.events =
      [.opened .a1, .resolved [⟨"Old", .a1⟩, ⟨"Sales", .a2⟩],
        .opened .a2, .resolved [⟨"Costs", .a3⟩], .reported failed,
        .closed .a2 (.error failed) [] true, .reported (.invalidCell .a2),
        .closed .a1 (.error failed) [.a2] true] := by
  intro ctx resolver r failed
  have hc : ctx.grid.HoldsFormula .a1 ∧ 0 < ctx.options.maxDepth := by decide +kernel
  have h := (evaluateBy_batched ctx resolver rfl rfl 0).2.1 .a1
  rw [if_pos hc] at h
  exact ⟨rfl, rfl, h, by decide +kernel⟩

end Context

end Spreadsheet
