import Spreadsheet.Proofs.Transparency
/-!
# What is recorded

A cache records what formula cells have read. For the cells whose values it
remembers that is exactly what their formulas read, `Reachable.exact`. A change
then spreads to just those of them that read the changed cell, directly or
through other formula cells: `Exact.mem_invalidationSet_iff`.
-/

namespace Spreadsheet

open Relation

namespace Grid
variable {g : Grid} {p : Pipeline} {c d : Cell}

/-- The cell `c` holds a formula that is settled and reads the cell `d`. -/
def Reads (g : Grid) (p : Pipeline) (d c : Cell) : Prop :=
  g.HoldsFormula c ∧ ∃ k v reads, g.settled p k c = .yields v reads ∧ d ∈ reads

theorem reads_iff {k : Nat} {v : Value} {reads : List Cell} (hc : g.HoldsFormula c)
    (h : g.settled p k c = .yields v reads) : g.Reads p d c ↔ d ∈ reads := by
  constructor
  · rintro ⟨-, l, w, reads', h', hd⟩
    obtain ⟨-, rfl⟩ := settled_unique h h'
    exact hd
  · intro hd
    exact ⟨hc, k, v, reads, h, hd⟩

theorem holdsFormula_of_transGen_reads (h : TransGen (g.Reads p) d c) : g.HoldsFormula c := by
  obtain ⟨x, -, hx⟩ := TransGen.tail'_iff.1 h
  exact hx.1

end Grid

namespace Cache

/-- Only formula cells have remembered values or recorded reads. -/
def OnFormulas (cache : Cache) (g : Grid) : Prop :=
  ∀ c, cache.isCached c ∨ (∃ d, d ∈ cache.graph.precedents c) → g.HoldsFormula c

/-- Nothing is recorded for a remembered value but what it was read from. -/
def Recorded (cache : Cache) (g : Grid) (p : Pipeline) : Prop :=
  ∀ c d, cache.isCached c → d ∈ cache.graph.precedents c →
    ∃ k v reads, g.settled p k c = .yields v reads ∧ d ∈ reads

/-- The cache is up to date and holds nothing out of place. -/
structure Exact (cache : Cache) (g : Grid) (p : Pipeline) : Prop where
  upToDate : cache.UpToDate g p
  onFormulas : cache.OnFormulas g
  recorded : cache.Recorded g p

variable {cache : Cache} {g : Grid} {p : Pipeline} {c d y : Cell} {v : Value} {reads : List Cell}

theorem not_isCached_empty : ¬ empty.isCached c := by
  intro h
  obtain ⟨v, hv⟩ := isCached_iff.1 h
  have hnone : empty.values[c]? = none := Std.TreeMap.getElem?_emptyc
  rw [hnone] at hv
  cases hv

theorem exact_empty : empty.Exact g p where
  upToDate := upToDate_empty
  onFormulas c h := by
    rcases h with h | ⟨d, hd⟩
    · exact absurd h not_isCached_empty
    · exact absurd hd DependencyGraph.not_mem_precedents_empty
  recorded c d h := absurd h not_isCached_empty

theorem exact_clear : cache.clear.Exact g p where
  upToDate := upToDate_clear
  onFormulas := (exact_empty (p := p)).onFormulas
  recorded := exact_empty.recorded

/-! ## Evaluating -/

theorem OnFormulas.store (h : cache.OnFormulas g) (hc : g.HoldsFormula c) (v : Value)
    (reads : List Cell) (volatile : Bool) : (cache.store c v reads volatile).OnFormulas g := by
  intro d hd
  by_cases hdc : d = c
  · rw [hdc]
    exact hc
  · apply h d
    simp only [precedents_store, if_neg hdc] at hd
    exact hd.imp_left fun hcached => (isCached_of_store hcached).resolve_left hdc

theorem Recorded.store_volatile (h : cache.Recorded g p) (hc : ¬ cache.isCached c) (v : Value)
    (reads : List Cell) : (cache.store c v reads true).Recorded g p := by
  intro d x hd hx
  rw [isCached_store_volatile hc] at hd
  have hne : d ≠ c := by
    rintro rfl
    exact hc hd
  rw [precedents_store, if_neg hne] at hx
  exact h d x hd hx

theorem Recorded.store_settled {k : Nat} (h : cache.Recorded g p)
    (hk : g.settled p k c = .yields v reads) : (cache.store c v reads false).Recorded g p := by
  intro d x hd hx
  rw [isCached_store_settled] at hd
  rw [precedents_store] at hx
  by_cases hdc : d = c
  · subst hdc
    rw [if_pos rfl] at hx
    exact ⟨k, v, reads, hk, hx⟩
  · rw [if_neg hdc] at hx
    exact h d x (hd.resolve_left hdc) hx

theorem isCached_lookup : (lookup c cache).2.isCached d = cache.isCached d := by
  unfold lookup
  split <;> rfl

theorem graph_lookup : (lookup c cache).2.graph = cache.graph := by
  unfold lookup
  split <;> rfl

theorem OnFormulas.lookup (h : cache.OnFormulas g) : (lookup c cache).2.OnFormulas g := by
  intro d hd
  rw [isCached_lookup, graph_lookup] at hd
  exact h d hd

theorem Recorded.lookup (h : cache.Recorded g p) : (lookup c cache).2.Recorded g p := by
  intro d x hd hx
  rw [isCached_lookup] at hd
  rw [graph_lookup] at hx
  exact h d x hd hx

/-! ## Changing one cell -/

theorem mem_precedents_invalidate :
    d ∈ (cache.invalidate c).2.graph.precedents y ↔ y ≠ c ∧ d ∈ cache.graph.precedents y :=
  DependencyGraph.mem_precedents_clearPrecedents

theorem Exact.put (h : cache.Exact g p) (d : Cell) (content : String) :
    (cache.invalidate d).2.Exact (g.put d content) p where
  upToDate := h.upToDate.put d content
  onFormulas c hc := by
    have hne : c ≠ d ∧ (cache.isCached c ∨ ∃ x, x ∈ cache.graph.precedents c) := by
      rcases hc with hc | ⟨x, hx⟩
      · obtain ⟨hstale, hcached⟩ := isCached_invalidate.1 hc
        exact ⟨DependencyGraph.ne_of_not_mem_invalidationSet hstale, .inl hcached⟩
      · obtain ⟨hne, hx⟩ := mem_precedents_invalidate.1 hx
        exact ⟨hne, .inr ⟨x, hx⟩⟩
    exact (Grid.holdsFormula_put_of_ne hne.1).2 (h.onFormulas c hne.2)
  recorded c x hc hx := by
    obtain ⟨hstale, hcached⟩ := isCached_invalidate.1 hc
    obtain ⟨k, v, reads, hk, hmem⟩ := h.recorded c x hcached (mem_precedents_invalidate.1 hx).2
    exact ⟨k, v, reads, h.upToDate.settled_put content hstale hcached hk, hmem⟩

/-! ## What a change spreads to -/

/-- A remembered value was read from the cells that are recorded for it. -/
theorem Exact.mem_precedents_iff (h : cache.Exact g p) (hc : cache.isCached c) :
    d ∈ cache.graph.precedents c ↔ g.Reads p d c := by
  constructor
  · intro hd
    exact ⟨h.onFormulas c (.inl hc), h.recorded c d hc hd⟩
  · rintro ⟨-, k, v, reads, hk, hd⟩
    obtain ⟨w, hw⟩ := isCached_iff.1 hc
    obtain ⟨l, reads', hl, hprecedents, -⟩ := h.upToDate.settled c w hw
    obtain ⟨-, rfl⟩ := Grid.settled_unique hk hl
    exact hprecedents d hd

/-- A formula cell from which a remembered value was read is remembered too. -/
theorem Exact.isCached_of_reads (h : cache.Exact g p) (hc : cache.isCached c) (hd : g.Reads p d c)
    (hf : g.HoldsFormula d) : cache.isCached d := by
  obtain ⟨v, hv⟩ := isCached_iff.1 hc
  obtain ⟨k, reads, hk, -, hformulas⟩ := h.upToDate.settled c v hv
  exact hformulas d ((Grid.reads_iff (h.onFormulas c (.inl hc)) hk).1 hd) hf

/-- Outdated records of cells that are not remembered lead to no remembered cell, and all that
lead to one are there. -/
theorem Exact.transGen_precedents_iff (h : cache.Exact g p) (hy : cache.isCached y) :
    TransGen (fun d c => d ∈ cache.graph.precedents c) c y ↔ TransGen (g.Reads p) c y := by
  constructor
  · intro hcy
    induction hcy with
    | single hc => exact .single ((h.mem_precedents_iff hy).1 hc)
    | tail hcx hxy ih =>
      rename_i x y
      have hread := (h.mem_precedents_iff hy).1 hxy
      -- What something is recorded for holds a formula, so its value is remembered with `y`.
      obtain ⟨d, -, hd⟩ := TransGen.tail'_iff.1 hcx
      exact .tail (ih (h.isCached_of_reads hy hread (h.onFormulas x (.inr ⟨d, hd⟩)))) hread
  · intro hcy
    induction hcy with
    | single hc => exact .single ((h.mem_precedents_iff hy).2 hc)
    | tail hcx hxy ih =>
      have hf := Grid.holdsFormula_of_transGen_reads hcx
      exact .tail (ih (h.isCached_of_reads hy hxy hf)) ((h.mem_precedents_iff hy).2 hxy)

/-- A change reaches a remembered cell if it is the cell itself or one that it reads. -/
theorem Exact.mem_invalidationSet_iff (h : cache.Exact g p) (hy : cache.isCached y) :
    y ∈ cache.graph.invalidationSet c ↔ y = c ∨ TransGen (g.Reads p) c y := by
  rw [DependencyGraph.mem_invalidationSet_iff h.upToDate.inverse, reflTransGen_iff_eq_or_transGen,
    h.transGen_precedents_iff hy]

end Cache

/-! ## Reading -/

namespace Context
variable {σ : Type} {ctx : Context σ} {I : σ → Prop}

/-- The formulas of cells keep what looking up and storing values of formula cells keep. -/
theorem preserves_formulaCell (hlookup : ∀ c s, I s → I (ctx.activeMemo.lookup c s).2)
    (hstore : ∀ c v reads volatile s, ctx.grid.HoldsFormula c → I s →
      I (ctx.activeMemo.store c v reads volatile s))
    (n : Nat) (path : List Cell) {c : Cell} (hc : ctx.grid.HoldsFormula c) :
    Run.Preserves I (ctx.formulaCell n path c) := by
  have hremembered (c : Cell) (run : Run σ Value) (hrun : Run.Preserves I run) :
      Run.Preserves I (ctx.rememberedOr c run) := by
    intro s hs
    have hs' := hlookup c s hs
    rcases hl : ctx.activeMemo.lookup c s with ⟨_ | v, s'⟩
    · rw [hl] at hs'
      simp only [rememberedOr, hl]
      exact hrun s' hs'
    · rw [hl] at hs'
      simp only [rememberedOr, hl]
      exact hs'
  have hbreak (f : Failure) : Run.Preserves I (breakOff f : Run σ Value) := fun s hs => hs
  induction n generalizing path c with
  | zero => exact hremembered c _ (hbreak _)
  | succ n ih =>
    rw [formulaCell_succ]
    apply hremembered
    split
    · exact hbreak _
    · intro s hs
      exact hstore c _ _ _ _ hc (Plan.preserves_run (fun d hd => ih (c :: path) hd) _ s hs)

end Context

namespace Sheet
variable {s : Sheet}

/-- The cache of the sheet is exact. -/
def Exact (s : Sheet) : Prop := s.cache.Exact s.grid s.options.pipeline

theorem faithful_recorded (s : Sheet) :
    s.context.activeMemo.Faithful s.grid s.options.pipeline
      (s.view.and fun cache => cache.Recorded s.grid s.options.pipeline) := by
  have hm := s.faithful_activeMemo
  unfold Context.activeMemo view at hm ⊢
  have hoptions : s.context.options = s.options := rfl
  rw [hoptions] at hm ⊢
  cases hon : s.options.cache with
  | true =>
    rw [hon] at hm
    exact hm.and (fun _ _ h => h.lookup) (fun _ _ _ _ hopen h => h.store_volatile (hopen rfl) _ _)
      fun _ _ _ _ _ h hk => h.store_settled hk
  | false =>
    rw [hon] at hm
    exact hm.and (fun _ _ h => h) (fun _ _ _ _ _ h => h) fun _ _ _ _ _ h _ => h

theorem preserves_onFormulas (s : Sheet) {c : Cell} (hc : s.grid.HoldsFormula c) :
    Run.Preserves (fun cache => cache.OnFormulas s.grid) (s.context.rootCell c) := by
  refine Context.preserves_formulaCell ?_ ?_ _ _ hc
  · intro c cache h
    unfold Context.activeMemo
    split
    · exact h.lookup
    · exact h
  · intro c v reads volatile cache hc h
    unfold Context.activeMemo
    split
    · exact h.store hc v reads volatile
    · exact h

theorem Exact.read {s s' : Sheet} (h : s.Exact) (hread : s.ReadsTo s') : s'.Exact := by
  have hrecorded := hread.preserves
    (fun c _ => Context.preserves_rootCell s.faithful_recorded c) ⟨h.upToDate, h.recorded⟩
  have hformulas := hread.preserves (fun c hc => s.preserves_onFormulas hc) h.onFormulas
  have hexact : s'.cache.Exact s.grid s.options.pipeline := ⟨hrecorded.1, hformulas, hrecorded.2⟩
  rw [hread.eq_with_cache]
  exact hexact

/-- However a sheet has been edited and read, its cache is exact. -/
theorem Reachable.exact (h : s.Reachable) : s.Exact := by
  refine h.invariant (fun g => Cache.exact_empty) ?_ (fun _ _ h => h.read)
    (fun s _ => Cache.exact_clear) (fun s options _ => Cache.exact_clear) fun s links hs => hs
  intro s s' address content hs hset
  obtain ⟨c, -, rfl⟩ := set_eq_ok_iff.1 hset
  exact hs.put c content

end Sheet

end Spreadsheet
