import Mathlib.Data.List.Chain
import Mathlib.Logic.Relation
import Spreadsheet.Proofs.Reports
import Spreadsheet.Proofs.Values
import Spreadsheet.Proofs.Written
/-!
# Cells without cycles

The references written in formulas make a graph. Where no cycle is reached in it,
a cell has a meaning by recursion on the graph alone, `Grid.meaning`, which knows
of no path, no depth and no memory. Evaluation comes to that meaning if no chain
of references is too long, and meets no cycle: `Context.evaluateCell_eq_meaning`.
-/

namespace Spreadsheet

open Relation

namespace Grid

/-- The formula of the cell `c` refers to the cell `d`, which holds a formula too. -/
def Refers (g : Grid) (p : Pipeline) (d c : Cell) : Prop :=
  g.HoldsFormula c ∧ g.HoldsFormula d ∧ d ∈ written p (g.content c).toList

instance (g : Grid) (p : Pipeline) (d c : Cell) : Decidable (g.Refers p d c) :=
  inferInstanceAs (Decidable (_ ∧ _))

/-- The value of a cell, by recursion on the references written in formulas. What stands for the
cells that a formula does not refer to has no part in it. -/
def meaning (g : Grid) (links : LinkSource) (p : Pipeline) (c : Cell)
    (h : Acc (g.Refers p) c) : Value :=
  (g.cellValue (fun _ => g.formulaValue links p (g.content c).toList fun d =>
    if hd : g.Refers p d c then meaning g links p d (h.inv hd) else .text "") c : Id Value).run
termination_by (⟨c, h⟩ : {c // Acc (g.Refers p) c})
decreasing_by
  exact hd

/-- Formula cells, each of which refers to the next. -/
def Chain (g : Grid) (p : Pipeline) (cells : List Cell) : Prop :=
  (∀ c ∈ cells, g.HoldsFormula c) ∧ cells.IsChain fun c d => g.Refers p d c

/-- No cycle of formula cells is reached from the cell. -/
def Acyclic (g : Grid) (p : Pipeline) (c : Cell) : Prop :=
  ∀ d, ReflTransGen (g.Refers p) d c → ¬ TransGen (g.Refers p) d d

/-- No chain of formula cells that starts with the cell is longer than `n`. -/
def ChainsWithin (g : Grid) (p : Pipeline) (n : Nat) (c : Cell) : Prop :=
  ∀ rest, g.Chain p (c :: rest) → (c :: rest).length ≤ n

section
variable {g : Grid} {links : LinkSource} {p : Pipeline} {n : Nat} {path : List Cell} {c d : Cell}

theorem Acyclic.of_refers (h : g.Acyclic p c) (hd : g.Refers p d c) : g.Acyclic p d :=
  fun x hx => h x (hx.tail hd)

theorem ChainsWithin.mono {n' : Nat} (h : g.ChainsWithin p n c) (hn : n ≤ n') :
    g.ChainsWithin p n' c := fun rest hrest => Nat.le_trans (h rest hrest) hn

theorem not_chainsWithin_zero (hc : g.HoldsFormula c) : ¬ g.ChainsWithin p 0 c := by
  intro h
  have hchain : g.Chain p [c] :=
    ⟨List.forall_mem_cons.2 ⟨hc, fun _ h => nomatch h⟩, .singleton c⟩
  exact absurd (h [] hchain) (Nat.not_succ_le_zero 0)

theorem Chain.cons {cells : List Cell} (h : g.Chain p (d :: cells)) (hd : g.Refers p d c) :
    g.Chain p (c :: d :: cells) :=
  ⟨List.forall_mem_cons.2 ⟨hd.1, h.1⟩, .cons_cons hd h.2⟩

theorem ChainsWithin.of_refers (h : g.ChainsWithin p (n + 1) c) (hd : g.Refers p d c) :
    g.ChainsWithin p n d :=
  fun rest hrest => Nat.le_of_succ_le_succ (h (d :: rest) (hrest.cons hd))

theorem ChainsWithin.trans (h : g.ChainsWithin p n c) (hd : g.Refers p d c) :
    g.ChainsWithin p n d :=
  fun rest hrest => Nat.le_of_succ_le (h (d :: rest) (hrest.cons hd))

theorem ChainsWithin.acc (h : g.ChainsWithin p n c) : Acc (g.Refers p) c := by
  induction n generalizing c with
  | zero => exact .intro c fun d hd => absurd h (not_chainsWithin_zero hd.1)
  | succ n ih => exact .intro c fun d hd => ih (h.of_refers hd)

theorem meaning_of_formula (hc : g.HoldsFormula c) (h : Acc (g.Refers p) c) :
    g.meaning links p c h = g.formulaValue links p (g.content c).toList fun d =>
      if hd : g.Refers p d c then g.meaning links p d (h.inv hd) else .text "" := by
  rw [meaning, cellValue_of_formula hc]
  rfl

theorem formulaValue_congr {formula : List Char} {cells cells' : Cell → Value}
    (h : ∀ d ∈ written p formula, g.HoldsFormula d → cells d = cells' d) :
    g.formulaValue links p formula cells = g.formulaValue links p formula cells' :=
  evaluateFormula_congr h

/-! ## Formulas that refer only to cells of lower rank -/

theorem lt_of_transGen {rank : Cell → Nat} (hrank : ∀ c d, g.Refers p d c → rank d < rank c)
    (h : TransGen (g.Refers p) d c) : rank d < rank c := by
  induction h with
  | single hd => exact hrank _ _ hd
  | tail _ hd ih => exact Nat.lt_trans ih (hrank _ _ hd)

theorem acyclic_of_rank {rank : Cell → Nat} (hrank : ∀ c d, g.Refers p d c → rank d < rank c)
    (c : Cell) : g.Acyclic p c :=
  fun _ _ hcycle => Nat.lt_irrefl _ (lt_of_transGen hrank hcycle)

theorem chainsWithin_of_rank {rank : Cell → Nat}
    (hrank : ∀ c d, g.Refers p d c → rank d < rank c) (c : Cell) :
    g.ChainsWithin p (rank c + 1) c := by
  intro rest hchain
  induction rest generalizing c with
  | nil => exact Nat.le_add_left 1 _
  | cons d rest ih =>
    obtain ⟨hformulas, hrefers⟩ := hchain
    cases hrefers with
    | cons_cons hd htail =>
      have hlength := ih d ⟨(List.forall_mem_cons.1 hformulas).2, htail⟩
      have hlt := hrank c d hd
      simp only [List.length_cons] at hlength ⊢
      omega

/-! ## The path to a cell has no part in its value -/

theorem not_mem_path (hacyclic : g.Acyclic p c)
    (hpath : ∀ x ∈ path, TransGen (g.Refers p) c x) : c ∉ path :=
  fun hc => hacyclic c .refl (hpath c hc)

theorem forall_mem_path (hpath : ∀ x ∈ path, TransGen (g.Refers p) c x) (hd : g.Refers p d c) :
    ∀ x ∈ c :: path, TransGen (g.Refers p) d x :=
  List.forall_mem_cons.2 ⟨.single hd, fun x hx => .head hd (hpath x hx)⟩

theorem valueWithin_eq_meaning (hc : g.HoldsFormula c) (hacyclic : g.Acyclic p c)
    (hchains : g.ChainsWithin p n c) (hpath : ∀ x ∈ path, TransGen (g.Refers p) c x)
    (h : Acc (g.Refers p) c) : g.valueWithin links p n path c = g.meaning links p c h := by
  induction n generalizing path c with
  | zero => exact absurd hchains (not_chainsWithin_zero hc)
  | succ n ih =>
    rw [valueWithin, if_neg (not_mem_path hacyclic hpath), meaning_of_formula hc]
    apply formulaValue_congr
    intro d hd hformula
    have hrefers : g.Refers p d c := ⟨hc, hformula, hd⟩
    rw [dif_pos hrefers]
    exact ih hformula (hacyclic.of_refers hrefers) (hchains.of_refers hrefers)
      (forall_mem_path hpath hrefers) (h.inv hrefers)

end

end Grid

/-! ## What happens on the way -/

theorem Failure.OfFormula.kind_ne {f : Failure} (h : f.OfFormula) :
    f.kind ≠ .circularReference := by
  cases f <;> first | exact h.elim | skip
  all_goals simp [kind]
  case malformed e => cases e <;> simp

section
variable {σ α : Type} {g : Grid} {links : LinkSource} {formula : Cell → Run σ Value}

/-- All that happens while a plan is run happens in the formulas of cells, or it is a failure that
has nothing to do with cycles. -/
theorem Plan.run_events {E : Event → Prop} (hreported : ∀ f, f.kind ≠ .circularReference →
      E (.reported f)) (hresolved : ∀ batch, E (.resolved batch))
    (hformula : ∀ d, g.HoldsFormula d → ∀ s, ∀ e ∈ (formula d s).2.1.events, E e)
    {q : Plan α} (hq : q.Own) (s : σ) :
    ∀ e ∈ (q.run (g.host links formula) s).2.1.events, E e := by
  induction q generalizing s with
  | done a => exact fun _ h => nomatch h
  | report f next ih =>
    rw [run_report_apply]
    exact List.forall_mem_cons.2 ⟨hreported f hq.1.kind_ne, ih hq.2 s⟩
  | resolve batch next ih =>
    rw [run_resolve_apply]
    exact List.forall_mem_cons.2 ⟨hresolved batch, ih _ (hq.2 _) s⟩
  | ask c next ih =>
    by_cases hc : g.HoldsFormula c
    · rw [run_ask_of_formula hc]
      refine List.forall_mem_append.2
        ⟨List.forall_mem_append.2 ⟨hformula c hc s, ?_⟩, ih _ (hq _) _⟩
      split
      · exact List.forall_mem_singleton.2 (hreported _ (by simp [Failure.kind]))
      · exact fun _ h => nomatch h
    · rw [run_ask_of_not_formula hc]
      refine List.forall_mem_append.2 ⟨?_, ih _ (hq _) _⟩
      unfold Grid.literalTrace
      dsimp only
      split
      · exact fun _ h => nomatch h
      · rename_i f hf
        have hkind := Grid.kind_of_literal hf
        exact List.forall_mem_singleton.2 (hreported f (by simp [hkind]))

end

namespace Context
variable {σ : Type} {ctx : Context σ}

/-- What may happen where there are no cycles: no failure is due to a cycle, and each formula cell
comes to the value that it has by itself. -/
def Regular (ctx : Context σ) : Event → Prop
  | .reported f => f.kind ≠ .circularReference
  | .closed c v _ _ => ctx.grid.HoldsFormula c ∧
    v = ctx.grid.valueWithin ctx.links ctx.options.pipeline ctx.options.maxDepth [] c
  | _ => True

theorem regular_formulaCell (hoff : ctx.activeMemo = Memo.off) {n : Nat} {path : List Cell}
    {c : Cell} (hn : n ≤ ctx.options.maxDepth) (hc : ctx.grid.HoldsFormula c)
    (hacyclic : ctx.grid.Acyclic ctx.options.pipeline c)
    (hchains : ctx.grid.ChainsWithin ctx.options.pipeline n c)
    (hpath : ∀ x ∈ path, TransGen (ctx.grid.Refers ctx.options.pipeline) c x) (s : σ) :
    ∀ e ∈ (ctx.formulaCell n path c s).2.1.events, ctx.Regular e := by
  induction n generalizing path c s with
  | zero => exact absurd hchains (Grid.not_chainsWithin_zero hc)
  | succ n ih =>
    have hvalue : (ctx.formulaCell (n + 1) path c s).1 =
        ctx.grid.valueWithin ctx.links ctx.options.pipeline ctx.options.maxDepth [] c := by
      rw [formulaCell_value hoff, Grid.valueWithin_eq_meaning hc hacyclic hchains hpath hchains.acc,
        Grid.valueWithin_eq_meaning hc hacyclic (hchains.mono hn)
          (List.forall_mem_nil _)]
    rw [formulaCell, rememberedOr_off hoff, if_neg (Grid.not_mem_path hacyclic hpath)] at hvalue ⊢
    -- The formula asks only for cells that it refers to, so that others may be left out.
    have hformula : (ctx.grid.host ctx.links (ctx.formulaCell n (c :: path))).evaluateFormula
          ctx.options.pipeline (ctx.grid.content c).toList =
        (ctx.grid.host ctx.links fun d =>
          if ctx.grid.Refers ctx.options.pipeline d c then ctx.formulaCell n (c :: path) d
          else pure (.text "")).evaluateFormula
          ctx.options.pipeline (ctx.grid.content c).toList :=
      Grid.evaluateFormula_congr fun d hd hd' => (if_pos ⟨hc, hd', hd⟩).symm
    rw [hformula, ← Plan.run_evaluateFormula] at hvalue ⊢
    refine List.forall_mem_cons.2 ⟨trivial, List.forall_mem_append.2 ⟨?_, ?_⟩⟩
    · refine Plan.run_events (fun f hf => hf) (fun _ => trivial) (fun d _ s => ?_)
        (Plan.own_evaluateFormula _ _) s
      split
      · rename_i hd
        exact ih (Nat.le_of_succ_le hn) hd.2.1 (hacyclic.of_refers hd) (hchains.of_refers hd)
          (Grid.forall_mem_path hpath hd) s
      · intro e he
        cases he
    · exact List.forall_mem_singleton.2 ⟨hc, hvalue⟩

/-! ## Evaluation from a cell -/

theorem regular_evaluateCell (hoff : ctx.activeMemo = Memo.off) {c : Cell}
    (hacyclic : ctx.grid.Acyclic ctx.options.pipeline c)
    (hchains : ctx.grid.ChainsWithin ctx.options.pipeline ctx.options.maxDepth c) (s : σ) :
    ∀ e ∈ (ctx.evaluateCell c s).2.1.events, ctx.Regular e := by
  unfold evaluateCell
  by_cases hc : ctx.grid.HoldsFormula c
  · rw [Grid.cellValue_of_formula hc]
    exact regular_formulaCell hoff (Nat.le_refl _) hc hacyclic hchains (List.forall_mem_nil _) s
  · rw [Grid.cellValue_of_not_formula hc]
    cases hown : ctx.grid.ownValue c with
    | ok v =>
      intro e he
      cases he
    | error f =>
      have hkind : f.kind ≠ .circularReference := by simp [Grid.kind_of_ownValue hown]
      exact List.forall_mem_singleton.2 hkind

theorem evaluateCell_meaning (hoff : ctx.activeMemo = Memo.off) {c : Cell}
    (hacyclic : ctx.grid.Acyclic ctx.options.pipeline c)
    (hchains : ctx.grid.ChainsWithin ctx.options.pipeline ctx.options.maxDepth c) (s : σ) :
    (ctx.evaluateCell c s).1 =
      ctx.grid.meaning ctx.links ctx.options.pipeline c hchains.acc := by
  by_cases hc : ctx.grid.HoldsFormula c
  · rw [evaluateCell_value hoff hc]
    exact Grid.valueWithin_eq_meaning hc hacyclic hchains (List.forall_mem_nil _) _
  · rw [evaluateCell_of_not_formula hc, Grid.meaning, Grid.cellValue_of_not_formula hc]
    cases ctx.grid.ownValue c <;> rfl

/-- A formula sees the cells that it refers to as they are by themselves. -/
theorem evaluateCell_of_references (hoff : ctx.activeMemo = Memo.off) {c : Cell}
    (hc : ctx.grid.HoldsFormula c) (hacyclic : ctx.grid.Acyclic ctx.options.pipeline c)
    (hchains : ctx.grid.ChainsWithin ctx.options.pipeline ctx.options.maxDepth c) (s s' : σ) :
    (ctx.evaluateCell c s).1 = ctx.grid.formulaValue ctx.links ctx.options.pipeline
      (ctx.grid.content c).toList fun d => (ctx.evaluateCell d s').1 := by
  rw [evaluateCell_meaning hoff hacyclic hchains, Grid.meaning_of_formula hc]
  apply Grid.formulaValue_congr
  intro d hd hformula
  have hrefers : ctx.grid.Refers ctx.options.pipeline d c := ⟨hc, hformula, hd⟩
  rw [evaluateCell_meaning hoff (hacyclic.of_refers hrefers) (hchains.trans hrefers)]
  exact dif_pos hrefers

/-- Where no cycle is reached and no chain of formula cells is longer than the limit, a cell comes
to its meaning, no failure is due to a cycle, and each formula cell on the way comes to what it
comes to by itself. -/
theorem evaluateCell_eq_meaning (ctx : Context σ) (hoff : ctx.activeMemo = Memo.off) (c : Cell)
    (hacyclic : ctx.grid.Acyclic ctx.options.pipeline c)
    (hchains : ctx.grid.ChainsWithin ctx.options.pipeline ctx.options.maxDepth c) (s s' : σ) :
    (∃ h : Acc (ctx.grid.Refers ctx.options.pipeline) c,
      (ctx.evaluateCell c s).1 = ctx.grid.meaning ctx.links ctx.options.pipeline c h) ∧
    (∀ f, .reported f ∈ (ctx.evaluateCell c s).2.1.events → f.kind ≠ .circularReference) ∧
    (∀ d v reads volatile, .closed d v reads volatile ∈ (ctx.evaluateCell c s).2.1.events →
      (ctx.evaluateCell d s').1 = v) ∧
    (ctx.grid.HoldsFormula c →
      (ctx.evaluateCell c s).1 = ctx.grid.formulaValue ctx.links ctx.options.pipeline
        (ctx.grid.content c).toList fun d => (ctx.evaluateCell d s').1) := by
  have hregular := regular_evaluateCell hoff hacyclic hchains s
  refine ⟨⟨hchains.acc, evaluateCell_meaning hoff hacyclic hchains s⟩, ?_, ?_, ?_⟩
  · intro f hf
    exact hregular _ hf
  · intro d v reads volatile hd
    obtain ⟨hformula, hv⟩ := hregular _ hd
    rw [evaluateCell_value hoff hformula, hv]
  · intro hc
    exact evaluateCell_of_references hoff hc hacyclic hchains s s'

end Context

/-! ## A shared reference -/

namespace Grid

/-- A grid in which `A3` refers twice to `A2`, which refers to `A1`. -/
def shared : Grid := column ["2", "=A1", "=A2+A2"]

theorem refers_shared {c d : Cell} (h : shared.Refers .grammar d c) : d.row.val < c.row.val := by
  obtain ⟨hc, -, hd⟩ := h
  have hwritten : ∀ c ∈ shared.contents.keys, ∀ d ∈ written .grammar (shared.content c).toList,
      d.row.val < c.row.val := by decide +kernel
  exact hwritten c hc.mem_keys d hd

end Grid

namespace Context

/-- Nothing is taken for a cycle when a cell is referred to twice, and both times it has the value
that it has by itself. -/
theorem evaluateCell_eq_meaning_shared :
    let ctx : Context Unit := { grid := Grid.shared }
    ctx.activeMemo = Memo.off ∧ ctx.grid.Acyclic .grammar .a3 ∧
      ctx.grid.ChainsWithin .grammar ctx.options.maxDepth .a3 ∧ ctx.grid.HoldsFormula .a3 ∧
      (ctx.evaluateCell .a2 ()).1 = .number 2.0 ∧ (ctx.evaluateCell .a3 ()).1 = .number 4.0 ∧
      (∃ h : Acc (ctx.grid.Refers .grammar) .a3,
        ctx.grid.meaning ctx.links .grammar .a3 h = .number 4.0) ∧
      (∀ f, .reported f ∈ (ctx.evaluateCell .a3 ()).2.1.events → f.kind ≠ .circularReference) ∧
      (∀ v reads volatile, .closed .a2 v reads volatile ∈ (ctx.evaluateCell .a3 ()).2.1.events →
        v = .number 2.0) ∧
      ctx.grid.formulaValue ctx.links .grammar "=A2+A2".toList
        (fun d => (ctx.evaluateCell d ()).1) = .number 4.0 := by
  intro ctx
  have hrank : ∀ c d, Grid.shared.Refers .grammar d c → d.row.val < c.row.val :=
    fun _ _ => Grid.refers_shared
  have hchains : Grid.shared.ChainsWithin .grammar 256 .a3 :=
    (Grid.chainsWithin_of_rank hrank .a3).mono (by decide)
  have hacyclic := Grid.acyclic_of_rank hrank .a3
  have hformula : ctx.grid.HoldsFormula .a3 := by decide +kernel
  have hinner : (ctx.evaluateCell .a2 ()).1 = .number 2.0 := by decide +kernel
  have hvalue : (ctx.evaluateCell .a3 ()).1 = .number 4.0 := by decide +kernel
  obtain ⟨⟨hacc, hmeaning⟩, hreported, hclosed, hown⟩ :=
    evaluateCell_eq_meaning ctx rfl .a3 hacyclic hchains () ()
  refine ⟨rfl, hacyclic, hchains, hformula, hinner, hvalue, ⟨hacc, hmeaning.symm.trans hvalue⟩,
    hreported, ?_, (hown hformula).symm.trans hvalue⟩
  intro v reads volatile hmem
  rw [← hclosed .a2 v reads volatile hmem, hinner]

end Context

end Spreadsheet
