import Spreadsheet.Proofs.Reading
import Spreadsheet.Proofs.UpToDate
/-!
# Caching does not show

However a sheet has been edited and read, its cache is up to date,
`Reachable.upToDate`. So what is read from it is what evaluation without a
memory yields, `reads_eq_fresh`, unless that evaluation meets the limit on depth.
-/

namespace Spreadsheet

namespace Context
variable {σ : Type} {ctx : Context σ} {V : Memo.View σ}

theorem preserves_rootCell (hm : ctx.activeMemo.Faithful ctx.grid ctx.options.pipeline V)
    (c : Cell) : Run.Preserves V.Inv (ctx.rootCell c) :=
  fun s hs => (formulaCell_keeps hm _ [] c s hs fun _ h => nomatch h).1.inv

theorem evaluateCell_eq_fresh (hm : ctx.activeMemo.Faithful ctx.grid ctx.options.pipeline V)
    {c : Cell} {s : σ} (hs : V.Inv s) (hshallow : (ctx.fresh.evaluateCell c ()).2.1.Shallow) :
    (ctx.evaluateCell c s).1 = (ctx.fresh.evaluateCell c ()).1 := by
  have hgrid : ctx.fresh.grid = ctx.grid := rfl
  by_cases hc : ctx.grid.HoldsFormula c
  · have hc' : ctx.fresh.grid.HoldsFormula c := hc
    rw [evaluateCell_of_formula hc'] at hshallow ⊢
    rw [evaluateCell_of_formula hc]
    exact formulaCell_eq_fresh hm _ hs (fun _ h => nomatch h) Grid.below_nil hshallow
  · have hc' : ¬ ctx.fresh.grid.HoldsFormula c := hc
    rw [evaluateCell_of_not_formula hc, evaluateCell_of_not_formula hc', hgrid]
    cases ctx.grid.ownValue c <;> rfl

theorem displayCell_eq_fresh (hm : ctx.activeMemo.Faithful ctx.grid ctx.options.pipeline V)
    {c : Cell} {s : σ} (hs : V.Inv s) (hshallow : (ctx.fresh.displayCell c ()).2.1.Shallow) :
    (ctx.displayCell c s).1 = (ctx.fresh.displayCell c ()).1 := by
  unfold displayCell at hshallow ⊢
  have hgrid : ctx.fresh.grid = ctx.grid := rfl
  rw [hgrid] at hshallow ⊢
  split
  · rename_i h
    rw [if_pos h] at hshallow
    have heval : (ctx.fresh.evaluateCell c ()).2.1.Shallow := (Trace.shallow_append.1 hshallow).1
    exact congrArg Value.display (evaluateCell_eq_fresh hm hs heval)
  · rfl

theorem evaluate_eq_fresh (hm : ctx.activeMemo.Faithful ctx.grid ctx.options.pipeline V)
    {content : String} {s : σ} (hs : V.Inv s)
    (hshallow : (ctx.fresh.evaluate content ()).2.1.Shallow) :
    (ctx.evaluate content s).1 = (ctx.fresh.evaluate content ()).1 := by
  unfold evaluate at hshallow ⊢
  split
  · rename_i h
    rw [if_pos h, ← Plan.run_evaluateFormula] at hshallow
    rw [← Plan.run_evaluateFormula (ctx.grid.host ctx.links ctx.rootCell),
      ← Plan.run_evaluateFormula (ctx.fresh.grid.host ctx.fresh.links ctx.fresh.rootCell)]
    -- No cell waits for the formula, so nothing needs to be settled on the way.
    exact Plan.run_agree (P := fun _ => False) ctx.links
      (fun d s hs hpath => formulaCell_keeps hm _ [] d s hs hpath)
      (fun d s u hs hpath _ hsh => formulaCell_eq_fresh hm _ hs hpath Grid.below_nil hsh)
      (fun _ _ _ _ _ hk _ _ => hk.elim) hs (fun _ h => nomatch h) (fun _ hk => hk.elim) hshallow
  · split <;> rfl

end Context

namespace Grid

theorem getElem?_filterMap {α β : Type} {f : α → Option β} {l : List α}
    (hf : ∀ a ∈ l, (f a).isSome) (i : Nat) : (l.filterMap f)[i]? = l[i]?.bind f := by
  induction l generalizing i with
  | nil => simp
  | cons a l ih =>
    obtain ⟨b, hb⟩ := Option.isSome_iff_exists.1 (hf a List.mem_cons_self)
    rw [List.filterMap_cons_some hb]
    cases i with
    | zero => simp [hb]
    | succ i => simpa using ih (fun a ha => hf a (List.mem_cons_of_mem _ ha)) i

variable {g : Grid} {row column : Nat} {c : Cell}

theorem isSome_cellAt (hr : row < g.rows) (hc : column < g.columns) :
    (g.cellAt row column).toOption.isSome := by
  obtain ⟨c, h⟩ := exists_cellAt hr hc
  rw [h]
  rfl

/-- The cell in a row and column of the grid stands there among all cells. -/
theorem getElem?_cellRows (h : g.cellAt row column = .ok c) :
    ∃ cells, g.cellRows[row]? = some cells ∧ cells[column]? = some c := by
  obtain ⟨⟨hr, hc⟩, -⟩ := cellAt_eq_ok_iff.1 h
  refine ⟨g.rowCells row, ?_, ?_⟩
  · simp [cellRows, hr]
  · unfold rowCells
    rw [getElem?_filterMap fun j hj => isSome_cellAt hr (List.mem_range.1 hj), List.getElem?_range hc]
    simp [h, Except.toOption]

end Grid

/-! ## Sheets -/

namespace Sheet

/-- The cache of the sheet is up to date. -/
def UpToDate (s : Sheet) : Prop := s.cache.UpToDate s.grid s.options.pipeline

/-- How the sheet sees its cache. -/
def view (s : Sheet) : Memo.View Cache :=
  Cache.view s.options.cache s.grid s.options.pipeline

variable {s s' : Sheet}

theorem faithful_activeMemo (s : Sheet) :
    s.context.activeMemo.Faithful s.grid s.options.pipeline s.view := by
  unfold Context.activeMemo view
  have hoptions : s.context.options = s.options := rfl
  rw [hoptions]
  cases s.options.cache with
  | true => exact Cache.faithful_memo
  | false => exact Cache.faithful_off

theorem preserves_rootCell (s : Sheet) (c : Cell) (_ : s.grid.HoldsFormula c) :
    Run.Preserves s.view.Inv (s.context.rootCell c) :=
  Context.preserves_rootCell s.faithful_activeMemo c

/-! ### What keeps the cache up to date -/

theorem UpToDate.read {α : Type} {run : Run Cache α} (hs : s.UpToDate)
    (hrun : run.Preserves s.view.Inv) : (s.read run).2.2.UpToDate := hrun s.cache hs

theorem upToDate_of_set {address content : String} (hs : s.UpToDate)
    (h : s.set address content = .ok s') : s'.UpToDate := by
  obtain ⟨c, -, rfl⟩ := set_eq_ok_iff.1 h
  exact hs.put c content

theorem Reachable.upToDate (h : s.Reachable) : s.UpToDate := by
  refine h.invariant (fun g => Cache.upToDate_empty) ?_ ?_ (fun s _ => Cache.upToDate_clear)
    (fun s options _ => Cache.upToDate_clear) fun s links hs => hs
  · intro s s' address content hs hset
    exact upToDate_of_set hs hset
  · intro s s' hs hread
    have hs' : s'.cache.UpToDate s.grid s.options.pipeline :=
      hread.preserves s.preserves_rootCell hs
    rw [hread.eq_with_cache]
    exact hs'

/-- A read keeps all that is remembered. -/
theorem Reachable.read_keeps (h : s.Reachable) (hon : s.options.cache = true)
    (hread : s.ReadsTo s') {y : Cell} {v : Value} (hv : s.cache.values[y]? = some v) :
    s'.cache.values[y]? = some v := by
  have hroot (c : Cell) (_ : s.grid.HoldsFormula c) :
      Run.Preserves (fun cache => s.view.Inv cache ∧ ∀ d, s.view.Kept s.cache d →
        s.view.Kept cache d) (s.context.rootCell c) := by
    rintro cache ⟨hinv, hkept⟩
    obtain ⟨hstep, -, -⟩ := Context.formulaCell_keeps s.faithful_activeMemo s.options.maxDepth [] c
      cache hinv fun _ h => nomatch h
    exact ⟨hstep.inv, fun d hd => hstep.kept d (hkept d hd)⟩
  obtain ⟨hinv, hkept⟩ := hread.preserves hroot ⟨h.upToDate, fun d hd => hd⟩
  obtain ⟨w, hw⟩ := Cache.isCached_iff.1 (hkept y (fun _ => Cache.isCached_iff.2 ⟨v, hv⟩) hon)
  -- Both values are the settled one.
  obtain ⟨k, reads, hk, -⟩ := h.upToDate.settled y v hv
  obtain ⟨l, reads', hl, -⟩ := Cache.UpToDate.settled hinv y w hw
  obtain ⟨rfl, -⟩ := Grid.settled_unique hk hl
  exact hw

/-! ### What is read -/

theorem value_eq_fresh (h : s.Reachable) {address : String} {c : Cell}
    (hc : s.grid.locate address = .ok c)
    (hshallow : (s.context.fresh.evaluateCell c ()).2.1.Shallow) :
    ∃ t s', s.value address = .ok ((s.context.fresh.evaluateCell c ()).1, t, s') := by
  have hm := s.faithful_activeMemo
  have heval : (s.context.evaluateCell c s.cache).1 = (s.context.fresh.evaluateCell c ()).1 :=
    Context.evaluateCell_eq_fresh hm h.upToDate hshallow
  exact ⟨_, _, value_eq_ok_iff.2 ⟨c, hc, Prod.ext heval rfl⟩⟩

theorem display_eq_fresh (h : s.Reachable) {address : String} {c : Cell}
    (hc : s.grid.locate address = .ok c)
    (hshallow : (s.context.fresh.displayCell c ()).2.1.Shallow) :
    ∃ t s', s.display address = .ok ((s.context.fresh.displayCell c ()).1, t, s') := by
  have hm := s.faithful_activeMemo
  have hdisplay : (s.context.displayCell c s.cache).1 = (s.context.fresh.displayCell c ()).1 :=
    Context.displayCell_eq_fresh hm h.upToDate hshallow
  exact ⟨_, _, display_eq_ok_iff.2 ⟨c, hc, Prod.ext hdisplay rfl⟩⟩

theorem displayGrid_eq_fresh (h : s.Reachable) {row column : Nat} {c : Cell}
    (hc : s.grid.cellAt row column = .ok c)
    (hshallow : (s.context.fresh.displayCell c ()).2.1.Shallow) :
    ∃ texts, s.displayGrid.1[row]? = some texts ∧
      texts[column]? = some (s.context.fresh.displayCell c ()).1 := by
  have hm := s.faithful_activeMemo
  have hcell : ∀ c, Run.Preserves s.view.Inv (s.context.displayCell c) :=
    Context.preserves_displayCell s.preserves_rootCell
  obtain ⟨cells, hrow, hcolumn⟩ := Grid.getElem?_cellRows hc
  -- The row is shown from some state of the cache, and so is the cell in it.
  obtain ⟨cache, hcache, htexts⟩ := Run.getElem?_mapM
    (fun cells => Run.preserves_mapM hcell cells) h.upToDate hrow
  obtain ⟨cache', hcache', htext⟩ := Run.getElem?_mapM hcell hcache hcolumn
  refine ⟨_, htexts, ?_⟩
  rw [htext, Context.displayCell_eq_fresh hm hcache' hshallow]

/-- Whatever is read from a sheet is what its cells, settings and links come to without a
memory, unless that meets the limit on depth. -/
theorem reads_eq_fresh (h : s.Reachable) :
    (∀ address c, s.grid.locate address = .ok c →
      (s.context.fresh.evaluateCell c ()).2.1.Shallow →
      ∃ t s', s.value address = .ok ((s.context.fresh.evaluateCell c ()).1, t, s')) ∧
    (∀ address c, s.grid.locate address = .ok c →
      (s.context.fresh.displayCell c ()).2.1.Shallow →
      ∃ t s', s.display address = .ok ((s.context.fresh.displayCell c ()).1, t, s')) ∧
    (∀ content, (s.context.fresh.evaluate content ()).2.1.Shallow →
      (s.evaluate content).1 = (s.context.fresh.evaluate content ()).1) ∧
    (∀ row column c, s.grid.cellAt row column = .ok c →
      (s.context.fresh.displayCell c ()).2.1.Shallow →
      ∃ texts, s.displayGrid.1[row]? = some texts ∧
        texts[column]? = some (s.context.fresh.displayCell c ()).1) :=
  ⟨fun _ _ => value_eq_fresh h, fun _ _ => display_eq_fresh h,
    fun _ => Context.evaluate_eq_fresh s.faithful_activeMemo h.upToDate,
    fun _ _ _ => displayGrid_eq_fresh h⟩

/-! ### A changed cell -/

/-- A sheet with a text in `A1` and a reference to it in `A2`, whose value is remembered. -/
def before : Sheet :=
  ((ofGrid (Grid.column ["x", "=A1"])).evaluate "=A2").2.2

/-- The sheet after `A1` has changed. -/
def after : Sheet :=
  { before with grid := before.grid.put .a1 "y", cache := (before.cache.invalidate .a1).2 }

/-- A value that is remembered when a cell changes from which it was read is not read again. -/
theorem reads_eq_fresh_after :
    before.isCached "A2" = .ok true ∧ before.set "A1" "y" = .ok after ∧ after.Reachable ∧
      (after.context.fresh.evaluateCell .a2 ()).2.1.Shallow ∧
      ∃ t s, after.value "A2" = .ok (.text "y", t, s) := by
  have hset : before.set "A1" "y" = .ok after :=
    set_eq_ok_iff.2 ⟨.a1, by decide +kernel, rfl⟩
  have hreachable : after.Reachable := .set (.evaluate "=A2" (.ofGrid _)) hset
  have hvalue : (after.context.fresh.evaluateCell .a2 ()).1 = .text "y" := by decide +kernel
  have hevents : (after.context.fresh.evaluateCell .a2 ()).2.1.events =
      [.opened .a2, .closed .a2 (.text "y") [.a1] false] := by decide +kernel
  have hshallow : (after.context.fresh.evaluateCell .a2 ()).2.1.Shallow := by
    intro c hc
    rw [hevents] at hc
    simp at hc
  have hread := (reads_eq_fresh hreachable).1 "A2" .a2 (by decide +kernel) hshallow
  rw [hvalue] at hread
  exact ⟨by decide +kernel, hset, hreachable, hshallow, hread⟩

end Sheet

end Spreadsheet
