import Mathlib.Data.List.Perm.Subperm
import Spreadsheet.Proofs.Acyclic
import Spreadsheet.Proofs.Recorded
/-!
# A change drops what has read the changed cell

Evaluation without a memory and without a limit reads, from a settled cell on,
just the cells that it depends on: `Context.formulaCell_full`. A change of a cell
therefore drops the remembered values of those cells whose evaluation reads it,
and a read drops nothing: `Sheet.edit_dropsExactly`.
-/

namespace Spreadsheet

open Relation

/-! ## What an evaluation reads -/

namespace Trace

/-- A formula that was evaluated has read the cell. -/
def HasRead (t : Trace) (x : Cell) : Prop :=
  ∃ c v reads volatile, Event.closed c v reads volatile ∈ t.events ∧ x ∈ reads

/-- Nothing happens but that failures are reported, none of which is due to a cycle. -/
def Quiet (t : Trace) : Prop :=
  ∀ e ∈ t.events, ∃ f : Failure, e = .reported f ∧ f.kind ≠ .circularReference

variable {t u : Trace} {x : Cell}

theorem hasRead_append : (t ++ u).HasRead x ↔ t.HasRead x ∨ u.HasRead x := by
  simp only [HasRead, append_def, List.mem_append, or_and_right, exists_or]

theorem Quiet.not_hasRead (h : t.Quiet) : ¬ t.HasRead x := by
  rintro ⟨c, v, reads, volatile, hmem, -⟩
  obtain ⟨f, hf, -⟩ := h _ hmem
  cases hf

theorem Quiet.shallow (h : t.Quiet) : t.Shallow := by
  intro c hc
  obtain ⟨f, hf, hkind⟩ := h _ hc
  cases hf
  exact hkind rfl

theorem quiet_empty : empty.Quiet := fun _ h => nomatch h

theorem quiet_report {f : Failure} (hf : f.kind ≠ .circularReference) :
    Quiet ⟨[], false, [.reported f]⟩ := by
  intro e he
  exact ⟨f, List.mem_singleton.1 he, hf⟩

end Trace

namespace Grid
variable {g : Grid} {p : Pipeline} {c d x : Cell} {k : Nat} {v : Value}

theorem quiet_literalTrace : (g.literalTrace c).Quiet := by
  intro e he
  unfold literalTrace at he
  cases hl : g.literal c with
  | ok v => simp [hl] at he
  | error f =>
    simp only [hl, List.mem_singleton] at he
    have hkind := kind_of_literal hl
    exact ⟨f, he, by simp [hkind]⟩

theorem passTrace_eq (t : Trace) : passTrace c v t = ⟨[c], false, []⟩ ++ t ++
    ⟨[], false, if v.isError then [.reported (.invalidCell c)] else []⟩ := by
  simp [passTrace, Trace.append_def]

theorem hasRead_passTrace {t : Trace} : (passTrace c v t).HasRead x ↔ t.HasRead x := by
  have hread : Trace.Quiet ⟨[c], false, []⟩ := fun _ h => nomatch h
  have hreport : Trace.Quiet ⟨[], false,
      if v.isError then [.reported (.invalidCell c)] else []⟩ := by
    intro e he
    dsimp only at he
    split at he
    · exact ⟨_, List.mem_singleton.1 he, by simp [Failure.kind]⟩
    · cases he
  rw [passTrace_eq, Trace.hasRead_append, Trace.hasRead_append]
  simp [hread.not_hasRead, hreport.not_hasRead]

/-- The evaluation of a settled cell came to its value, met no limit, and read what the cell
reads, itself or through formula cells. -/
structure Full {σ : Type} (g : Grid) (p : Pipeline) (c : Cell) (r : Value × Trace × σ) : Prop where
  value : ∀ k v reads, g.settled p k c = .yields v reads → r.1 = v
  shallow : r.2.1.Shallow
  reads : r.2.1.reads = []
  hasRead : ∀ x, r.2.1.HasRead x ↔ TransGen (g.Reads p) x c

/-- What a settled cell reads, itself or through formula cells. -/
theorem transGen_reads_iff {reads : List Cell} (hc : g.HoldsFormula c)
    (h : g.settled p k c = .yields v reads) :
    TransGen (g.Reads p) x c ↔ x ∈ reads ∨ ∃ d ∈ reads, TransGen (g.Reads p) x d := by
  rw [TransGen.tail'_iff]
  simp only [reads_iff hc h, reflTransGen_iff_eq_or_transGen]
  constructor
  · rintro ⟨d, rfl | hxd, hd⟩
    · exact .inl hd
    · exact .inr ⟨d, hd, hxd⟩
  · rintro (hx | ⟨d, hd, hxd⟩)
    · exact ⟨x, .inl rfl, hx⟩
    · exact ⟨d, .inr hxd, hd⟩

/-- Only formula cells read other cells. -/
theorem not_transGen_reads (hc : ¬ g.HoldsFormula c) : ¬ TransGen (g.Reads p) x c :=
  fun h => hc (holdsFormula_of_transGen_reads h)

/-- Nothing is read through a cell without a formula. -/
theorem exists_transGen_reads_append (hc : ¬ g.HoldsFormula c) {reads : List Cell} :
    (∃ d ∈ (if g.contains c then [c] else []) ++ reads, TransGen (g.Reads p) x d) ↔
      ∃ d ∈ reads, TransGen (g.Reads p) x d := by
  constructor
  · rintro ⟨d, hd, hxd⟩
    rcases List.mem_append.1 hd with hd | hd
    · split at hd
      · rw [List.mem_singleton.1 hd] at hxd
        exact absurd hxd (not_transGen_reads hc)
      · cases hd
    · exact ⟨d, hd, hxd⟩
  · rintro ⟨d, hd, hxd⟩
    exact ⟨d, List.mem_append_right _ hd, hxd⟩

end Grid

theorem Plan.run_full {σ α : Type} {g : Grid} {p : Pipeline} (links : LinkSource)
    {formula : Cell → Run σ Value} {k : Nat}
    (hformula : ∀ d s, g.HoldsFormula d → g.SettlesAt p k d → g.Full p d (formula d s))
    {q : Plan α} (hown : q.Own) {s : σ} {a : α} {reads : List Cell}
    (hq : q.run (g.settledHost p k) = .yields a reads) :
    let r := q.run (g.host links formula) s
    r.1 = a ∧ r.2.1.Shallow ∧ r.2.1.reads = reads ∧
      ∀ x, r.2.1.HasRead x ↔ ∃ d ∈ reads, TransGen (g.Reads p) x d := by
  induction q generalizing s reads with
  | done b =>
    cases hq
    refine ⟨rfl, Trace.quiet_empty.shallow, rfl, ?_⟩
    intro x
    exact iff_of_false Trace.quiet_empty.not_hasRead (by simp)
  | report f next ih =>
    have hquiet := Trace.quiet_report hown.1.kind_ne
    obtain ⟨ha, hshallow, hreads, hhas⟩ := ih hown.2 (s := s) (run_report_settledHost_iff.1 hq)
    rw [run_report_apply]
    refine ⟨ha, Trace.shallow_append.2 ⟨hquiet.shallow, hshallow⟩, hreads, ?_⟩
    intro x
    simp only [Trace.hasRead_append, hquiet.not_hasRead, false_or, hhas]
  | resolve batch next ih => cases hq
  | ask c next ih =>
    by_cases hc : g.HoldsFormula c
    · obtain ⟨v, r, r', hv, hn, rfl⟩ := (run_ask_settledHost_iff hc).1 hq
      have hfull := hformula c s hc ⟨v, r, hv⟩
      rw [run_ask_of_formula hc]
      simp only [hfull.value k v r hv]
      obtain ⟨ha, hshallow, hreads, hhas⟩ := ih v (hown v) (s := (formula c s).2.2) hn
      refine ⟨ha, Trace.shallow_append.2 ⟨Grid.shallow_passTrace.2 hfull.shallow, hshallow⟩, ?_, ?_⟩
      · simp [Trace.append_def, Grid.passTrace, hfull.reads, hreads]
      · intro x
        simp only [Trace.hasRead_append, Grid.hasRead_passTrace, hfull.hasRead, hhas,
          List.mem_cons, exists_eq_or_imp]
    · obtain ⟨r, hn, rfl⟩ := (run_ask_literal_settledHost_iff hc).1 hq
      have hquiet := Grid.quiet_literalTrace (g := g) (c := c)
      rw [run_ask_of_not_formula hc]
      obtain ⟨ha, hshallow, hreads, hhas⟩ := ih (g.literalValue c) (hown _) (s := s) hn
      refine ⟨ha, Trace.shallow_append.2 ⟨hquiet.shallow, hshallow⟩, ?_, ?_⟩
      · simp [Trace.append_def, Grid.literalTrace, hreads]
      · intro x
        simp only [Trace.hasRead_append, hquiet.not_hasRead, false_or, hhas]
        exact (Grid.exists_transGen_reads_append hc).symm

/-! ## Evaluation without a limit -/

namespace Grid
variable {g : Grid} {path : List Cell} {c : Cell}

/-- Fewer formula cells than there are contents lead to a further formula cell. -/
theorem length_lt_size (hpath : path.Nodup) (hformulas : ∀ d ∈ path, g.HoldsFormula d)
    (hc : g.HoldsFormula c) (hmem : c ∉ path) : path.length < g.contents.size := by
  have hnodup : (c :: path).Nodup := List.nodup_cons.2 ⟨hmem, hpath⟩
  have hsubset : c :: path ⊆ g.contents.keys :=
    List.cons_subset.2 ⟨hc.mem_keys, fun d hd => (hformulas d hd).mem_keys⟩
  have hlength := (List.subperm_of_subset hnodup hsubset).length_le
  rw [Std.TreeMap.length_keys] at hlength
  exact hlength

end Grid

namespace Context
variable {σ : Type} {ctx : Context σ}

theorem hasRead_visit {c : Cell} {run : Run σ Value} {s : σ} {x : Cell} :
    (ctx.visit c run s).2.1.HasRead x ↔ x ∈ (run s).2.1.reads ∨ (run s).2.1.HasRead x := by
  constructor
  · rintro ⟨d, v, reads, volatile, hmem, hx⟩
    rcases List.mem_append.1 hmem with hmem | hmem
    · rcases List.mem_cons.1 hmem with hmem | hmem
      · cases hmem
      · exact .inr ⟨d, v, reads, volatile, hmem, hx⟩
    · cases List.mem_singleton.1 hmem
      exact .inl hx
  · rintro (hx | ⟨d, v, reads, volatile, hmem, hx⟩)
    · exact ⟨c, _, _, _, List.mem_append_right _ List.mem_cons_self, hx⟩
    · exact ⟨d, v, reads, volatile, List.mem_append_left _ (List.mem_cons_of_mem _ hmem), hx⟩

theorem shallow_visit_iff {c : Cell} {run : Run σ Value} {s : σ} :
    (ctx.visit c run s).2.1.Shallow ↔ (run s).2.1.Shallow := by
  refine ⟨shallow_visit, fun h d hd => ?_⟩
  rcases List.mem_append.1 hd with hd | hd
  · rcases List.mem_cons.1 hd with hd | hd
    · cases hd
    · exact h d hd
  · cases List.mem_singleton.1 hd

/-- Without a memory, a settled cell that is below the path is evaluated in full if the limit
leaves room for all formula cells. -/
theorem formulaCell_full (hoff : ctx.activeMemo = Memo.off) {n k : Nat} {path : List Cell}
    {c : Cell} {s : σ} (hpath : path.Nodup) (hformulas : ∀ d ∈ path, ctx.grid.HoldsFormula d)
    (hn : ctx.grid.contents.size ≤ n + path.length)
    (hb : ctx.grid.Below ctx.options.pipeline path c) (hc : ctx.grid.HoldsFormula c)
    (hsettles : ctx.grid.SettlesAt ctx.options.pipeline k c) :
    ctx.grid.Full ctx.options.pipeline c (ctx.formulaCell n path c s) := by
  induction n generalizing k path c s with
  | zero =>
    have hlength := Grid.length_lt_size hpath hformulas hc (hb.not_mem hsettles)
    omega
  | succ n ih =>
    have hmem : c ∉ path := hb.not_mem hsettles
    obtain ⟨l, hl⟩ := Grid.exists_settlesFirst hsettles
    obtain ⟨v, reads, hv⟩ := hl.1
    have hplan := (Grid.settled_succ _ _ _ _).symm.trans hv
    have hown : (ctx.grid.plan ctx.options.pipeline c).Own := Plan.own_evaluateFormula _ _
    have hnodup : (c :: path).Nodup := List.nodup_cons.2 ⟨hmem, hpath⟩
    have hopen : ∀ x ∈ c :: path, ctx.grid.HoldsFormula x :=
      List.forall_mem_cons.2 ⟨hc, hformulas⟩
    have hformula : ∀ d s, ctx.grid.HoldsFormula d →
        ctx.grid.SettlesAt ctx.options.pipeline l d →
        ctx.grid.Full ctx.options.pipeline d (ctx.formulaCell n (c :: path) d s) := by
      intro d s hd hat
      -- What the formula asks for has settled before `c`.
      have hbelow : ctx.grid.Below ctx.options.pipeline (c :: path) d :=
        hb.cons fun m hm => hl.unique hm ▸ hat
      refine ih hnodup hopen ?_ hbelow hd hat
      rw [List.length_cons]
      omega
    obtain ⟨hvalue, hshallow, hreads, hhas⟩ :=
      Plan.run_full ctx.links (s := s) hformula hown hplan
    rw [formulaCell_succ, rememberedOr_off hoff, if_neg hmem]
    refine ⟨fun m w r hw => ?_, shallow_visit_iff.2 hshallow, rfl, fun x => ?_⟩
    · obtain ⟨rfl, -⟩ := Grid.settled_unique hv hw
      exact hvalue
    · rw [hasRead_visit, Grid.transGen_reads_iff hc hv, hreads, hhas]

/-- The same evaluation without a memory, with another limit on depth. -/
def freshWithin (ctx : Context σ) (limit : Nat) : Context Unit :=
  ⟨ctx.grid, ctx.links, { ctx.options with maxDepth := limit }, Memo.off⟩

theorem activeMemo_freshWithin (limit : Nat) : (ctx.freshWithin limit).activeMemo = Memo.off := by
  unfold activeMemo
  split <;> rfl

/-- A settled cell is evaluated in full from nothing if the limit leaves room for all formula
cells. -/
theorem evaluateCell_full {c : Cell} {limit k : Nat} (hlimit : ctx.grid.contents.size ≤ limit)
    (hc : ctx.grid.HoldsFormula c) (hsettles : ctx.grid.SettlesAt ctx.options.pipeline k c) :
    ctx.grid.Full ctx.options.pipeline c ((ctx.freshWithin limit).evaluateCell c ()) := by
  have hc' : (ctx.freshWithin limit).grid.HoldsFormula c := hc
  rw [evaluateCell_of_formula hc']
  have hroom : ctx.grid.contents.size ≤ limit + ([] : List Cell).length := by simpa using hlimit
  exact formulaCell_full (activeMemo_freshWithin limit) .nil (fun _ h => nomatch h) hroom
    Grid.below_nil hc hsettles

end Context

/-! ## Sheets -/

namespace Cache
variable {cache : Cache} {c y : Cell}

/-- As many values are counted as dropped as were remembered and are no longer. -/
theorem invalidations_invalidate : (cache.invalidate c).2.invalidations = cache.invalidations +
    cache.values.keys.countP fun y => !(cache.invalidate c).2.isCached y := by
  have hkeys : ∀ y, y ∈ cache.values.keys ↔ cache.isCached y := by
    intro y
    rw [Std.TreeMap.mem_keys, isCached, Std.TreeMap.mem_iff_contains]
  have hdropped : ((cache.graph.invalidationSet c).filter cache.isCached).Perm
      (cache.values.keys.filter fun y => !(cache.invalidate c).2.isCached y) := by
    refine (List.perm_ext_iff_of_nodup (DependencyGraph.nodup_invalidationSet.filter _)
      (Std.TreeMap.nodup_keys.filter _)).2 fun y => ?_
    have hdrop : (cache.invalidate c).2.isCached y ↔
        y ∉ cache.graph.invalidationSet c ∧ cache.isCached y := isCached_invalidate
    rw [List.mem_filter, List.mem_filter, hkeys]
    grind
  show cache.invalidations + (cache.graph.invalidationSet c).countP cache.isCached = _
  rw [List.countP_eq_length_filter, List.countP_eq_length_filter, hdropped.length_eq]

end Cache

namespace Sheet
variable {s s' : Sheet}

/-- From the first sheet to the second, a change of the cell `c` has dropped the values of
those remembered cells whose evaluation without a limit on depth reads `c`. It has left the others
and counted what it dropped. -/
structure DropsExactly (s : Sheet) (c : Cell) (s' : Sheet) : Prop where
  dropped : ∀ y, s.cache.isCached y → ∀ limit, s.grid.contents.size ≤ limit →
    ((s.context.freshWithin limit).evaluateCell y ()).2.1.Shallow ∧
      (¬ s'.cache.isCached y ↔
        y = c ∨ ((s.context.freshWithin limit).evaluateCell y ()).2.1.HasRead c)
  kept : ∀ y, s'.cache.isCached y → s'.cache.values[y]? = s.cache.values[y]?
  counted : s'.cache.invalidations =
    s.cache.invalidations + s.cache.values.keys.countP fun y => !s'.cache.isCached y

theorem Reachable.dropsExactly (h : s.Reachable) (c : Cell) (content : String) :
    s.DropsExactly c
      { s with grid := s.grid.put c content, cache := (s.cache.invalidate c).2 } where
  dropped y hy limit hlimit := by
    have hexact := h.exact
    obtain ⟨v, hv⟩ := Cache.isCached_iff.1 hy
    obtain ⟨k, reads, hk, -, -⟩ := hexact.upToDate.settled y v hv
    have hfull : s.context.grid.Full s.context.options.pipeline y
        ((s.context.freshWithin limit).evaluateCell y ()) :=
      Context.evaluateCell_full hlimit (hexact.onFormulas y (.inl hy)) ⟨v, reads, hk⟩
    refine ⟨hfull.shallow, ?_⟩
    rw [hfull.hasRead c]
    have hdrop : (s.cache.invalidate c).2.isCached y ↔
        y ∉ s.cache.graph.invalidationSet c ∧ s.cache.isCached y := Cache.isCached_invalidate
    rw [hdrop, and_iff_left hy, not_not]
    exact hexact.mem_invalidationSet_iff hy
  kept y hy := by
    have hy' := (Cache.isCached_invalidate.1 hy).1
    simp only [Cache.values_invalidate, if_neg hy']
  counted := Cache.invalidations_invalidate

/-- An edit drops the values of the cells whose evaluation reads the changed cell, and a read
drops none. -/
theorem edit_dropsExactly (h : s.Reachable) (hon : s.options.cache = true) :
    (∀ address c content, s.grid.locate address = .ok c →
      ∃ s', s.set address content = .ok s' ∧ s.DropsExactly c s') ∧
    (∀ address c, s.grid.locate address = .ok c →
      ∃ s', s.clearCell address = .ok s' ∧ s.DropsExactly c s') ∧
    ∀ s', s.ReadsTo s' → ∀ (y : Cell) (v : Value), s.cache.values[y]? = some v →
      s'.cache.values[y]? = some v := by
  have hset (address : String) (c : Cell) (content : String) (hc : s.grid.locate address = .ok c) :
      ∃ s', s.set address content = .ok s' ∧ s.DropsExactly c s' :=
    ⟨_, set_eq_ok_iff.2 ⟨c, hc, rfl⟩, h.dropsExactly c content⟩
  refine ⟨hset, fun address c hc => hset address c "" hc, ?_⟩
  intro s' hread y v hv
  exact h.read_keeps hon hread hv

/-- The value of `A2`, which refers to `A1`, is dropped when `A1` changes. -/
theorem edit_dropsExactly_before :
    before.Reachable ∧ before.options.cache = true ∧ before.isCached "A2" = .ok true ∧
      ∃ s', before.set "A1" "y" = .ok s' ∧ before.DropsExactly .a1 s' ∧ ¬ s'.cache.isCached .a2 := by
  have hreachable : before.Reachable := .evaluate "=A2" (.ofGrid _)
  have hon : before.options.cache = true := rfl
  obtain ⟨s', hset, hdrops⟩ :=
    (edit_dropsExactly hreachable hon).1 "A1" .a1 "y" (by decide +kernel)
  have hs' : after = s' := by
    obtain ⟨c, hc, hs'⟩ := set_eq_ok_iff.1 hset
    have ha1 : before.grid.locate "A1" = .ok .a1 := by decide +kernel
    rw [ha1] at hc
    cases hc
    exact hs'
  refine ⟨hreachable, hon, by decide +kernel, s', hset, hdrops, ?_⟩
  rw [← hs']
  decide +kernel

end Sheet

end Spreadsheet
