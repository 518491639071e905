import Spreadsheet.Proofs.Values
import Spreadsheet.Sheet
/-!
# Editing and reading sheets

A read goes through the formulas of cells and changes nothing but the cache, so
it keeps whatever those keep: `Sheet.ReadsTo.preserves`. What edits and reads
keep holds of every sheet that comes about by them, `Sheet.Reachable.invariant`.
-/

namespace Spreadsheet

/-! ## Runs that keep an invariant -/

namespace Run
variable {σ α β : Type} {I : σ → Prop}

/-- The run keeps an invariant of the state. -/
def Preserves (I : σ → Prop) (x : Run σ α) : Prop := ∀ s, I s → I (x s).2.2

theorem preserves_pure (a : α) : Preserves I (Pure.pure a : Run σ α) := fun _ hs => hs

theorem Preserves.bind {x : Run σ α} {f : α → Run σ β} (hx : Preserves I x)
    (hf : ∀ a, Preserves I (f a)) : Preserves I (x >>= f) := fun s hs => hf _ _ (hx s hs)

theorem preserves_mapM {f : α → Run σ β} (hf : ∀ a, Preserves I (f a)) (l : List α) :
    Preserves I (l.mapM f) := by
  induction l with
  | nil =>
    rw [List.mapM_nil]
    exact preserves_pure _
  | cons a l ih =>
    rw [List.mapM_cons]
    exact (hf a).bind fun b => ih.bind fun bs => preserves_pure _

/-- Each result in a row of runs is that of its run in some state with the invariant. -/
theorem getElem?_mapM {f : α → Run σ β} (hf : ∀ a, Preserves I (f a)) {l : List α} {s : σ}
    (hs : I s) {i : Nat} {a : α} (ha : l[i]? = some a) :
    ∃ s', I s' ∧ (l.mapM f s).1[i]? = some (f a s').1 := by
  induction l generalizing s i with
  | nil => simp at ha
  | cons b l ih =>
    rw [List.mapM_cons]
    cases i with
    | zero =>
      cases ha
      exact ⟨s, hs, rfl⟩
    | succ i => exact ih (hf b s hs) ha

end Run

/-! ## Reading in a context -/

/-- A plan keeps what the formulas of the cells keep that it comes to. -/
theorem Plan.preserves_run {σ α : Type} {I : σ → Prop} {g : Grid} {links : LinkSource}
    {formula : Cell → Run σ Value}
    (hformula : ∀ c, g.HoldsFormula c → Run.Preserves I (formula c)) (q : Plan α) :
    Run.Preserves I (q.run (g.host links formula)) := by
  induction q with
  | done a => exact Run.preserves_pure a
  | report f next ih => exact Run.Preserves.bind (fun _ hs => hs) fun _ => ih
  | resolve batch next ih => exact Run.Preserves.bind (fun _ hs => hs) ih
  | ask c next ih =>
    intro s hs
    by_cases hc : g.HoldsFormula c
    · rw [run_ask_of_formula hc]
      exact ih _ _ (hformula c hc s hs)
    · rw [run_ask_of_not_formula hc]
      exact ih _ s hs

namespace Context
variable {σ : Type} {ctx : Context σ}

section
variable {I : σ → Prop}
  (hroot : ∀ c, ctx.grid.HoldsFormula c → Run.Preserves I (ctx.rootCell c))
include hroot

theorem preserves_evaluateCell (c : Cell) : Run.Preserves I (ctx.evaluateCell c) := by
  by_cases hc : ctx.grid.HoldsFormula c
  · rw [evaluateCell_of_formula hc]
    exact hroot c hc
  · rw [evaluateCell_of_not_formula hc]
    cases ctx.grid.ownValue c <;> exact fun _ hs => hs

theorem preserves_displayCell (c : Cell) : Run.Preserves I (ctx.displayCell c) := by
  unfold displayCell
  split
  · exact (preserves_evaluateCell hroot c).bind fun v => Run.preserves_pure _
  · exact Run.preserves_pure _

theorem preserves_displayCells (rows : List (List Cell)) :
    Run.Preserves I (rows.mapM fun row => row.mapM ctx.displayCell) :=
  Run.preserves_mapM (fun row => Run.preserves_mapM (preserves_displayCell hroot) row) rows

theorem preserves_evaluate (content : String) : Run.Preserves I (ctx.evaluate content) := by
  unfold evaluate
  split
  · rw [← Plan.run_evaluateFormula]
    exact Plan.preserves_run hroot _
  · split <;> exact Run.preserves_pure _

end

end Context

/-! ## Sheets -/

namespace Sheet

/-- The sheets that come about by editing and reading, from any grid. -/
inductive Reachable : Sheet → Prop
  | ofGrid (g : Grid) : Reachable (ofGrid g)
  | set {s s' : Sheet} {address content : String} :
    Reachable s → s.set address content = .ok s' → Reachable s'
  | clearCell {s s' : Sheet} {address : String} :
    Reachable s → s.clearCell address = .ok s' → Reachable s'
  | value {s s' : Sheet} {address : String} {v : Value} {t : Trace} :
    Reachable s → s.value address = .ok (v, t, s') → Reachable s'
  | display {s s' : Sheet} {address text : String} {t : Trace} :
    Reachable s → s.display address = .ok (text, t, s') → Reachable s'
  | displayGrid {s : Sheet} : Reachable s → Reachable s.displayGrid.2.2
  | evaluate {s : Sheet} (content : String) : Reachable s → Reachable (s.evaluate content).2.2
  | clearCache {s : Sheet} : Reachable s → Reachable s.clearCache
  | withOptions {s : Sheet} (options : Options) : Reachable s → Reachable (s.withOptions options)
  | withLinks {s : Sheet} (links : LinkSource) : Reachable s → Reachable (s.withLinks links)

variable {s s' : Sheet}

theorem locate_eq_ok_iff {α : Type} {g : Grid} {address : String} {f : Cell → α} {a : α} :
    (do return f (← g.locate address) : Except AddressError α) = .ok a ↔
      ∃ c, g.locate address = .ok c ∧ f c = a := by
  cases g.locate address with
  | error e =>
    constructor
    · intro h
      cases h
    · rintro ⟨_, h, -⟩
      cases h
  | ok c =>
    constructor
    · rintro ⟨⟩
      exact ⟨c, rfl, rfl⟩
    · rintro ⟨_, ⟨⟩, rfl⟩
      rfl

theorem value_eq_ok_iff {address : String} {r : Value × Trace × Sheet} :
    s.value address = .ok r ↔
      ∃ c, s.grid.locate address = .ok c ∧ s.read (s.context.evaluateCell c) = r :=
  locate_eq_ok_iff

theorem value_of_locate {address : String} {c : Cell} (h : s.grid.locate address = .ok c) :
    s.value address = .ok ((s.context.evaluateCell c s.cache).1,
      (s.context.evaluateCell c s.cache).2.1, (s.read (s.context.evaluateCell c)).2.2) :=
  value_eq_ok_iff.2 ⟨c, h, rfl⟩

theorem display_eq_ok_iff {address : String} {r : String × Trace × Sheet} :
    s.display address = .ok r ↔
      ∃ c, s.grid.locate address = .ok c ∧ s.read (s.context.displayCell c) = r :=
  locate_eq_ok_iff

theorem set_eq_ok_iff {address content : String} :
    s.set address content = .ok s' ↔ ∃ c, s.grid.locate address = .ok c ∧
      { s with grid := s.grid.put c content, cache := (s.cache.invalidate c).2 } = s' :=
  locate_eq_ok_iff

/-! ### Reads -/

/-- The second sheet is what a read of the first one leaves. -/
inductive ReadsTo (s : Sheet) : Sheet → Prop
  | value {s' : Sheet} {address : String} {v : Value} {t : Trace} :
    s.value address = .ok (v, t, s') → ReadsTo s s'
  | display {s' : Sheet} {address text : String} {t : Trace} :
    s.display address = .ok (text, t, s') → ReadsTo s s'
  | displayGrid : ReadsTo s s.displayGrid.2.2
  | evaluate (content : String) : ReadsTo s (s.evaluate content).2.2

/-- A read is a run that keeps what the formulas of cells keep. -/
theorem ReadsTo.exists_run (h : s.ReadsTo s') :
    ∃ (α : Type) (run : Run Cache α), (s.read run).2.2 = s' ∧
      ∀ I : Cache → Prop, (∀ c, s.grid.HoldsFormula c → Run.Preserves I (s.context.rootCell c)) →
        Run.Preserves I run := by
  cases h with
  | value hvalue =>
    obtain ⟨c, -, hread⟩ := value_eq_ok_iff.1 hvalue
    refine ⟨_, s.context.evaluateCell c, by rw [hread], ?_⟩
    intro I hroot
    exact Context.preserves_evaluateCell hroot c
  | display hdisplay =>
    obtain ⟨c, -, hread⟩ := display_eq_ok_iff.1 hdisplay
    refine ⟨_, s.context.displayCell c, by rw [hread], ?_⟩
    intro I hroot
    exact Context.preserves_displayCell hroot c
  | displayGrid => exact ⟨_, _, rfl, fun I hroot => Context.preserves_displayCells hroot _⟩
  | evaluate content => exact ⟨_, _, rfl, fun I hroot => Context.preserves_evaluate hroot content⟩

/-- A read changes nothing but the cache. -/
theorem ReadsTo.eq_with_cache (h : s.ReadsTo s') : s' = { s with cache := s'.cache } := by
  obtain ⟨α, run, rfl, -⟩ := h.exists_run
  rfl

theorem ReadsTo.preserves {I : Cache → Prop}
    (hroot : ∀ c, s.grid.HoldsFormula c → Run.Preserves I (s.context.rootCell c))
    (h : s.ReadsTo s') (hs : I s.cache) : I s'.cache := by
  obtain ⟨α, run, rfl, hrun⟩ := h.exists_run
  exact hrun I hroot s.cache hs

theorem Reachable.read (h : s.Reachable) (hread : s.ReadsTo s') : s'.Reachable := by
  cases hread with
  | value hvalue => exact .value h hvalue
  | display hdisplay => exact .display h hdisplay
  | displayGrid => exact .displayGrid h
  | evaluate content => exact .evaluate content h

/-- What holds at first and is kept by edits, by reads and by changes of the settings, holds of
every sheet. -/
theorem Reachable.invariant {P : Sheet → Prop} (hgrid : ∀ g, P (Sheet.ofGrid g))
    (hset : ∀ s s' address content, P s → s.set address content = .ok s' → P s')
    (hread : ∀ s s', P s → s.ReadsTo s' → P s') (hclear : ∀ s, P s → P s.clearCache)
    (hoptions : ∀ s options, P s → P (s.withOptions options))
    (hlinks : ∀ s links, P s → P (s.withLinks links)) (h : s.Reachable) : P s := by
  induction h with
  | ofGrid g => exact hgrid g
  | set _ h ih => exact hset _ _ _ _ ih h
  | clearCell _ h ih => exact hset _ _ _ _ ih h
  | value _ h ih => exact hread _ _ ih (.value h)
  | display _ h ih => exact hread _ _ ih (.display h)
  | displayGrid _ ih => exact hread _ _ ih .displayGrid
  | evaluate content _ ih => exact hread _ _ ih (.evaluate content)
  | clearCache _ ih => exact hclear _ ih
  | withOptions options _ ih => exact hoptions _ options ih
  | withLinks links _ ih => exact hlinks _ links ih

end Sheet

end Spreadsheet
