import Spreadsheet.Proofs.Acyclic
import Spreadsheet.Proofs.Demands
import Spreadsheet.Proofs.Transparency
/-!
# Cycles of strict formulas

A strict formula has a value only after all cells that it refers to have one.
A cell with a value is therefore accessible along the references of formulas,
`Context.acc_of_formulaCell`, whatever has been remembered. So nothing but a
failure comes out of a cycle: `Sheet.value_of_cycle`.
-/

namespace Spreadsheet

open Relation

namespace Grid
variable {g : Grid} {p : Pipeline} {c d : Cell}

/-- No formula of the grid calls a function that may do without the value of an argument. -/
def Strict (g : Grid) : Prop := ∀ c, g.HoldsFormula c → StrictCalls (calledIn (g.content c).toList)

/-- No cycle is reached from a cell that is accessible. -/
theorem acyclic_of_acc (h : Acc (g.Refers p) c) : g.Acyclic p c := by
  induction h with
  | intro c _ ih =>
    intro d hd hcycle
    -- A way round the cycle before going to `c` shows a last step to `c`.
    obtain ⟨x, hdx, hx⟩ := TransGen.tail'_iff.1 (hcycle.trans_left hd)
    exact ih x hx d hdx hcycle

end Grid

/-! ## Answers to demands -/

namespace Plan
variable {α : Type} {g : Grid} {d : Cell} {ok : α → Prop} {q : Plan α}

theorem Demands.settled {p : Pipeline} {k : Nat} {a : α} {reads : List Cell}
    (hq : q.Demands d ok) (hd : g.HoldsFormula d)
    (hrun : q.run (g.settledHost p k) = .yields a reads) (ha : ok a) :
    ∃ v r, g.settled p k d = .yields v r ∧ v.isError = false := by
  induction q generalizing reads with
  | done b =>
    cases hrun
    exact absurd ha hq
  | report f next ih => exact ih hq (run_report_settledHost_iff.1 hrun)
  | resolve batch next ih => cases hrun
  | ask c next ih =>
    by_cases hc : g.HoldsFormula c
    · obtain ⟨v, r, r', hv, hn, -⟩ := (run_ask_settledHost_iff hc).1 hrun
      rcases hq v with ⟨rfl, hvalue⟩ | hq
      · exact ⟨v, r, hv, hvalue⟩
      · exact ih v hq hn
    · obtain ⟨r, hn, -⟩ := (run_ask_literal_settledHost_iff hc).1 hrun
      rcases hq (g.literalValue c) with ⟨rfl, -⟩ | hq
      · exact absurd hd hc
      · exact ih _ hq hn

/-- What follows whenever the cell has a value follows if the run of the plan comes to a result
in `ok`. -/
theorem Demands.run {σ : Type} (hq : q.Demands d ok) (hd : g.HoldsFormula d) (links : LinkSource)
    {formula : Cell → Run σ Value} {I : σ → Prop} {P : Prop}
    (hformula : ∀ c s, I s → I (formula c s).2.2)
    (hvalue : ∀ s, I s → (formula d s).1.isError = false → P) {s : σ} (hs : I s)
    (ha : ok (q.run (g.host links formula) s).1) : P := by
  induction q generalizing s with
  | done a => exact absurd ha hq
  | report f next ih => exact ih hq hs ha
  | resolve batch next ih => exact ih _ (hq _) hs ha
  | ask c next ih =>
    by_cases hc : g.HoldsFormula c
    · rw [run_ask_of_formula hc] at ha
      rcases hq (formula c s).1 with ⟨rfl, herror⟩ | hq
      · exact hvalue s hs herror
      · exact ih _ hq (hformula c s hs) ha
    · rw [run_ask_of_not_formula hc] at ha
      rcases hq (g.literalValue c) with ⟨rfl, -⟩ | hq
      · exact absurd hd hc
      · exact ih _ hq hs ha

end Plan

/-! ## Cells with values -/

theorem Grid.acc_of_settled {g : Grid} (hstrict : g.Strict) {k : Nat} {c : Cell} {v : Value}
    {reads : List Cell} (hv : g.settled .grammar k c = .yields v reads)
    (hvalue : v.isError = false) : Acc (g.Refers .grammar) c := by
  induction k generalizing c v reads with
  | zero => cases hv
  | succ k ih =>
    rw [settled_succ] at hv
    refine .intro c fun d hd => ?_
    obtain ⟨hc, hformula, hwritten⟩ := hd
    obtain ⟨w, r, hw, herror⟩ :=
      (Plan.needs_evaluateFormula (hstrict c hc) hwritten).settled hformula hv hvalue
    exact ih hw herror

namespace Context
variable {σ : Type} {ctx : Context σ} {V : Memo.View σ}

theorem acc_of_lookup (hm : ctx.activeMemo.Faithful ctx.grid ctx.options.pipeline V)
    (hp : ctx.options.pipeline = .grammar) (hstrict : ctx.grid.Strict) {c : Cell} {v : Value}
    {s s' : σ} (hs : V.Inv s) (hl : ctx.activeMemo.lookup c s = (some v, s'))
    (hvalue : v.isError = false) : Acc (ctx.grid.Refers .grammar) c := by
  obtain ⟨-, -, k, reads, hk⟩ := hm.lookup_some hs hl
  rw [hp] at hk
  exact Grid.acc_of_settled hstrict hk hvalue

/-- A formula cell that comes to a value is accessible along the references of formulas. -/
theorem acc_of_formulaCell (hm : ctx.activeMemo.Faithful ctx.grid ctx.options.pipeline V)
    (hp : ctx.options.pipeline = .grammar) (hstrict : ctx.grid.Strict) {n : Nat} {path : List Cell}
    {c : Cell} {s : σ} (hs : V.Inv s) (hpath : ∀ d ∈ path, V.Open s d)
    (hvalue : (ctx.formulaCell n path c s).1.isError = false) :
    Acc (ctx.grid.Refers .grammar) c := by
  induction n generalizing path c s with
  | zero =>
    rcases hl : ctx.activeMemo.lookup c s with ⟨_ | v, s'⟩
    · simp only [formulaCell, rememberedOr, hl] at hvalue
      cases hvalue
    · rw [formulaCell_of_lookup hl] at hvalue
      exact acc_of_lookup hm hp hstrict hs hl hvalue
  | succ n ih =>
    rcases hl : ctx.activeMemo.lookup c s with ⟨_ | v, s'⟩
    · obtain ⟨hstep, hopen⟩ := hm.lookup_none hs hl
      rw [formulaCell_succ] at hvalue
      simp only [rememberedOr, hl] at hvalue
      by_cases hc : c ∈ path
      · rw [if_pos hc] at hvalue
        cases hvalue
      · rw [if_neg hc, hp] at hvalue
        have hopen' : ∀ d ∈ c :: path, V.Open s' d :=
          List.forall_mem_cons.2 ⟨hopen, fun d hd => hstep.still d trivial (hpath d hd)⟩
        refine .intro c fun d hd => ?_
        obtain ⟨hformula, hformula', hwritten⟩ := hd
        -- Each cell that the formula of `c` refers to came to a value on the way.
        refine (Plan.needs_evaluateFormula (hstrict c hformula) hwritten).run hformula' ctx.links
          (I := fun s => V.Inv s ∧ ∀ d ∈ c :: path, V.Open s d) ?_ ?_ ⟨hstep.inv, hopen'⟩ hvalue
        · rintro x s ⟨hs, hopen⟩
          obtain ⟨hstep, -, -⟩ := formulaCell_keeps hm n (c :: path) x s hs hopen
          exact ⟨hstep.inv, fun y hy => hstep.still y hy (hopen y hy)⟩
        · rintro s ⟨hs, hopen⟩ herror
          exact ih hs hopen herror
    · rw [formulaCell_of_lookup hl] at hvalue
      exact acc_of_lookup hm hp hstrict hs hl hvalue

end Context

/-! ## Sheets -/

namespace Sheet
variable {s : Sheet}

/-- A cell from which a cycle of strict formulas is reached has no value but a failure, however
the sheet has been edited and read. -/
theorem value_of_cycle (h : s.Reachable) (hp : s.options.pipeline = .grammar)
    (hstrict : s.grid.Strict) {address : String} {c d : Cell}
    (hc : s.grid.locate address = .ok c) (hd : ReflTransGen (s.grid.Refers .grammar) d c)
    (hcycle : TransGen (s.grid.Refers .grammar) d d) :
    ∃ f t s', s.value address = .ok (.error f, t, s') := by
  have hformula : s.context.grid.HoldsFormula c := by
    obtain ⟨x, -, hx⟩ := TransGen.tail'_iff.1 (hcycle.trans_left hd)
    exact hx.1
  have hvalue := value_of_locate hc
  rw [Context.evaluateCell_of_formula hformula] at hvalue
  generalize hr : s.context.formulaCell s.context.options.maxDepth [] c s.cache = r at hvalue
  have herror : r.1.isError := by
    by_contra hvalue
    rw [Bool.not_eq_true, ← hr] at hvalue
    have hacc := Context.acc_of_formulaCell s.faithful_activeMemo hp hstrict h.upToDate
      (List.forall_mem_nil _) hvalue
    exact Grid.acyclic_of_acc hacc d hd hcycle
  cases hv : r.1 with
  | error f =>
    rw [hv] at hvalue
    exact ⟨f, _, _, hvalue⟩
  | number x =>
    rw [hv] at herror
    cases herror
  | text x =>
    rw [hv] at herror
    cases herror

/-! ### A cycle -/

/-- A sheet in which `A1` and `A2` refer to each other and `A3` refers to both. -/
def ring : Sheet := ofGrid (Grid.column ["=A2", "=A1", "=sum(A1;A2)"])

/-- A formula that leads into a cycle has no value, also when the cycle has been read before. -/
theorem value_of_cycle_ring :
    let s := ring.displayGrid.2.2
    s.Reachable ∧ s.options.pipeline = .grammar ∧ s.grid.Strict ∧
      s.grid.locate "A3" = .ok .a3 ∧ ReflTransGen (s.grid.Refers .grammar) .a1 .a3 ∧
      TransGen (s.grid.Refers .grammar) .a1 .a1 ∧
      ∃ f t s', s.value "A3" = .ok (.error f, t, s') := by
  have hreachable : ring.displayGrid.2.2.Reachable := .displayGrid (.ofGrid _)
  have hstrict : ring.grid.Strict := by
    have hkeys : ∀ c ∈ ring.grid.contents.keys,
        StrictCalls (calledIn (ring.grid.content c).toList) := by decide +kernel
    exact fun c hc => hkeys c hc.mem_keys
  have hlocate : ring.grid.locate "A3" = .ok .a3 := by decide +kernel
  have hin : ring.grid.Refers .grammar .a1 .a3 := by decide +kernel
  have hthere : ring.grid.Refers .grammar .a1 .a2 := by decide +kernel
  have hback : ring.grid.Refers .grammar .a2 .a1 := by decide +kernel
  have hcycle : TransGen (ring.grid.Refers .grammar) .a1 .a1 := .tail (.single hthere) hback
  exact ⟨hreachable, rfl, hstrict, hlocate, .single hin, hcycle,
    value_of_cycle hreachable rfl hstrict hlocate (.single hin) hcycle⟩

end Sheet

end Spreadsheet
