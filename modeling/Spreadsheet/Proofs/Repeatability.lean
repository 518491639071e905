import Spreadsheet.Proofs.Transparency
/-!
# Reading again

A read leaves more remembered than before. A cell that is read without meeting
the limit on depth is then read to the same value again, whatever has been read
in between: `Sheet.value_again`. A cell whose chain of references is too long
may have a value later, once the far end of the chain is remembered:
`Sheet.value_deep`.
-/

namespace Spreadsheet

open Relation

/-! ## Two runs of a plan -/

/-- Two runs come to the same value, the second one is volatile only if the first one is, and their
states are related. -/
structure Run.Agree {σ τ α : Type} (R : σ → τ → Prop) (r : α × Trace × σ) (r' : α × Trace × τ) :
    Prop where
  value : r'.1 = r.1
  volatile : r'.2.1.volatile → r.2.1.volatile
  states : R r.2.2 r'.2.2

theorem Plan.run_related {σ τ α : Type} {g : Grid} (links : LinkSource) {R : σ → τ → Prop}
    {formula : Cell → Run σ Value} {formula' : Cell → Run τ Value}
    (hformula : ∀ c s u, R s u → (formula c s).2.1.Shallow →
      Run.Agree R (formula c s) (formula' c u))
    {q : Plan α} {s : σ} {u : τ} (h : R s u)
    (hshallow : (q.run (g.host links formula) s).2.1.Shallow) :
    Run.Agree R (q.run (g.host links formula) s) (q.run (g.host links formula') u) := by
  induction q generalizing s u with
  | done a => exact ⟨rfl, id, h⟩
  | report f next ih =>
    rw [run_report_apply] at hshallow ⊢
    obtain ⟨hvalue, hvolatile, hstates⟩ := ih h (Trace.shallow_append.1 hshallow).2
    exact ⟨hvalue, hvolatile, hstates⟩
  | resolve batch next ih =>
    rw [run_resolve_apply] at hshallow ⊢
    obtain ⟨hvalue, hvolatile, hstates⟩ := ih _ h (Trace.shallow_append.1 hshallow).2
    exact ⟨hvalue, fun _ => rfl, hstates⟩
  | ask c next ih =>
    by_cases hc : g.HoldsFormula c
    · rw [run_ask_of_formula hc] at hshallow ⊢
      rw [run_ask_of_formula hc]
      obtain ⟨hsh, hsh'⟩ := Trace.shallow_append.1 hshallow
      obtain ⟨hvalue, hvolatile, hstates⟩ := hformula c s u h (Grid.shallow_passTrace.1 hsh)
      simp only [hvalue]
      obtain ⟨hvalue', hvolatile', hstates'⟩ := ih _ hstates hsh'
      refine ⟨hvalue', ?_, hstates'⟩
      simp only [Trace.append_def, Grid.passTrace, Bool.or_eq_true]
      exact Or.imp hvolatile hvolatile'
    · rw [run_ask_of_not_formula hc] at hshallow ⊢
      rw [run_ask_of_not_formula hc]
      obtain ⟨hvalue, hvolatile, hstates⟩ := ih _ h (Trace.shallow_append.1 hshallow).2
      refine ⟨hvalue, ?_, hstates⟩
      simpa only [Trace.append_def, Grid.literalTrace, Bool.false_or] using hvolatile

/-! ## Evaluation with more in memory -/

namespace Cache

/-- What the first cache remembers is remembered in the second one too. -/
def Within (cache cache' : Cache) : Prop := ∀ c, cache.isCached c → cache'.isCached c

/-- A cache is up to date, remembers no more than the other one, and remembers no cell of the
path. -/
structure Lags (g : Grid) (p : Pipeline) (path : List Cell) (cache cache' : Cache) : Prop where
  upToDate : cache.UpToDate g p
  within : cache.Within cache'
  openPath : ∀ d ∈ path, ¬ cache.isCached d

/-- Two caches are up to date, the second remembers as much as the first one, and neither
remembers a cell of the path. -/
structure Grows (g : Grid) (p : Pipeline) (path : List Cell) (cache cache' : Cache) : Prop where
  upToDate : cache.UpToDate g p
  upToDate' : cache'.UpToDate g p
  within : cache.Within cache'
  openPath : ∀ d ∈ path, ¬ cache'.isCached d

variable {g : Grid} {p : Pipeline} {path : List Cell} {cache cache' : Cache} {c d : Cell}

theorem Grows.lags (h : Grows g p path cache cache') : Lags g p path cache cache' :=
  ⟨h.upToDate, h.within, fun d hd hcached => h.openPath d hd (h.within d hcached)⟩

/-- Storing keeps the second cache ahead if it stores what the first one stores. -/
theorem Within.store (h : cache.Within cache') (hc : ¬ cache'.isCached c) {v v' : Value}
    {reads reads' : List Cell} {volatile volatile' : Bool} (hvolatile : volatile' → volatile) :
    (cache.store c v reads volatile).Within (cache'.store c v' reads' volatile') := by
  intro d hd
  have hcached : cache'.isCached d → (cache'.store c v' reads' volatile').isCached d := by
    cases volatile' with
    | true => exact (isCached_store_volatile hc v' reads').2
    | false => exact fun hd => (isCached_store_settled v' reads').2 (.inr hd)
  cases volatile with
  | true =>
    rw [isCached_store_volatile fun hcached => hc (h c hcached)] at hd
    exact hcached (h d hd)
  | false =>
    rcases (isCached_store_settled v reads).1 hd with rfl | hd
    · have hfalse : volatile' = false := by simpa using hvolatile
      rw [hfalse]
      exact (isCached_store_settled v' reads').2 (.inl rfl)
    · exact hcached (h d hd)

end Cache

namespace Context
variable {ctx : Context Cache} {n k : Nat} {path : List Cell} {c : Cell} {v : Value}
  {cache cache' : Cache}

section
variable (hmemo : ctx.activeMemo = Cache.memo)
include hmemo

theorem rememberedOr_of_not_cached (hc : ¬ cache.isCached c) (run : Run Cache Value) :
    ctx.rememberedOr c run cache = run cache := by
  simp only [rememberedOr, hmemo, Cache.memo, Cache.lookup, Cache.getElem?_of_not_isCached hc]

theorem formulaCell_of_cached (hv : cache.values[c]? = some v) :
    ctx.formulaCell n path c cache = (v, .empty, { cache with hits := cache.hits + 1 }) := by
  apply formulaCell_of_lookup
  simp only [hmemo, Cache.memo, Cache.lookup, hv]

theorem faithful_of_memo : ctx.activeMemo.Faithful ctx.grid ctx.options.pipeline
    (Cache.view true ctx.grid ctx.options.pipeline) := by
  rw [hmemo]
  exact Cache.faithful_memo

/-- The evaluation of a formula cell keeps the cache up to date and remembers no cell of the
path. -/
theorem upToDate_formulaCell (hcache : cache.UpToDate ctx.grid ctx.options.pipeline)
    (hpath : ∀ d ∈ path, ¬ cache.isCached d) :
    (ctx.formulaCell n path c cache).2.2.UpToDate ctx.grid ctx.options.pipeline ∧
      ∀ d ∈ path, ¬ (ctx.formulaCell n path c cache).2.2.isCached d := by
  obtain ⟨hstep, -, -⟩ :=
    formulaCell_keeps (faithful_of_memo hmemo) n path c cache hcache fun d hd _ => hpath d hd
  exact ⟨hstep.inv, fun d hd => hstep.still d hd (fun _ => hpath d hd) rfl⟩

theorem lags_of_within (h : Cache.Lags ctx.grid ctx.options.pipeline path cache cache')
    (hwithin : (ctx.formulaCell n path c cache).1 = v ∧
      (ctx.formulaCell n path c cache).2.2.Within cache') :
    (ctx.formulaCell n path c cache).1 = v ∧
      Cache.Lags ctx.grid ctx.options.pipeline path (ctx.formulaCell n path c cache).2.2 cache' := by
  obtain ⟨hupToDate, hopen⟩ := upToDate_formulaCell hmemo (n := n) (c := c) h.upToDate h.openPath
  exact ⟨hwithin.1, hupToDate, hwithin.2, hopen⟩

theorem formulaCell_within_of_cached
    (h : Cache.Lags ctx.grid ctx.options.pipeline path cache cache') (hcached : cache.isCached c)
    {reads : List Cell} (hv : ctx.grid.settled ctx.options.pipeline k c = .yields v reads) :
    (ctx.formulaCell n path c cache).1 = v ∧ (ctx.formulaCell n path c cache).2.2.Within cache' := by
  obtain ⟨w, hw⟩ := Cache.isCached_iff.1 hcached
  obtain ⟨l, reads', hl, -⟩ := h.upToDate.settled c w hw
  obtain ⟨rfl, -⟩ := Grid.settled_unique hv hl
  rw [formulaCell_of_cached hmemo hw]
  exact ⟨rfl, h.within⟩

/-- A cell that a larger cache remembers has the same value when it is evaluated with a smaller
one, and nothing is remembered then that is not in the larger one. -/
theorem formulaCell_lags (hcache' : cache'.UpToDate ctx.grid ctx.options.pipeline)
    (h : Cache.Lags ctx.grid ctx.options.pipeline path cache cache')
    (hb : ctx.grid.Below ctx.options.pipeline (path.filter cache'.isCached) c)
    (hc : cache'.isCached c) {reads : List Cell}
    (hv : ctx.grid.settled ctx.options.pipeline k c = .yields v reads)
    (hshallow : (ctx.formulaCell n path c cache).2.1.Shallow) :
    (ctx.formulaCell n path c cache).1 = v ∧
      Cache.Lags ctx.grid ctx.options.pipeline path (ctx.formulaCell n path c cache).2.2 cache' := by
  induction n generalizing k path c cache v reads with
  | zero =>
    apply lags_of_within hmemo h
    by_cases hcached : cache.isCached c
    · exact formulaCell_within_of_cached hmemo h hcached hv
    · have hmem : c ∉ path := fun hmem =>
        hb.not_mem ⟨v, reads, hv⟩ (List.mem_filter.2 ⟨hmem, hc⟩)
      simp only [formulaCell, rememberedOr_of_not_cached hmemo hcached, if_neg hmem] at hshallow
      exact absurd List.mem_cons_self (hshallow c)
  | succ n ih =>
    apply lags_of_within hmemo h
    by_cases hcached : cache.isCached c
    · exact formulaCell_within_of_cached hmemo h hcached hv
    have hmem : c ∉ path := fun hmem =>
      hb.not_mem ⟨v, reads, hv⟩ (List.mem_filter.2 ⟨hmem, hc⟩)
    obtain ⟨l, hl⟩ := Grid.exists_settlesFirst ⟨v, reads, hv⟩
    obtain ⟨w, r, hw⟩ := hl.1
    obtain ⟨rfl, rfl⟩ := Grid.settled_unique hv hw
    have hplan := (Grid.settled_succ _ _ _ _).symm.trans hw
    -- All formula cells that `c` reads are in the larger cache with it.
    have hreads : ∀ d ∈ reads, ctx.grid.HoldsFormula d → cache'.isCached d := by
      obtain ⟨u, hu⟩ := Cache.isCached_iff.1 hc
      obtain ⟨m, reads', hm, -, hformulas⟩ := hcache'.settled c u hu
      obtain ⟨-, rfl⟩ := Grid.settled_unique hv hm
      exact hformulas
    have hformula : ∀ d (s : Cache) v reads, cache'.isCached d →
        Cache.Lags ctx.grid ctx.options.pipeline (c :: path) s cache' →
        ctx.grid.settled ctx.options.pipeline l d = .yields v reads →
        (ctx.formulaCell n (c :: path) d s).2.1.Shallow →
        (ctx.formulaCell n (c :: path) d s).1 = v ∧ Cache.Lags ctx.grid ctx.options.pipeline
          (c :: path) (ctx.formulaCell n (c :: path) d s).2.2 cache' := by
      intro d s v reads hd hs hv hsh
      have hbelow : ctx.grid.Below ctx.options.pipeline ((c :: path).filter cache'.isCached) d := by
        rw [List.filter_cons_of_pos hc]
        exact hb.cons fun m hm => hl.unique hm ▸ ⟨v, reads, hv⟩
      exact ih hs hbelow hd hv hsh
    have hopen : Cache.Lags ctx.grid ctx.options.pipeline (c :: path) cache cache' :=
      { h with openPath := List.forall_mem_cons.2 ⟨hcached, h.openPath⟩ }
    rw [formulaCell_succ, rememberedOr_of_not_cached hmemo hcached, if_neg hmem] at hshallow ⊢
    obtain ⟨hvalue, hlags⟩ :=
      Plan.run_of_settled ctx.links hformula hopen hreads hplan (shallow_visit hshallow)
    refine ⟨hvalue, fun d hd => ?_⟩
    simp only [visit, hmemo, Cache.memo] at hd
    rcases Cache.isCached_of_store hd with rfl | hd
    · exact hc
    · exact hlags.within d hd

theorem grows_of_agree (h : Cache.Grows ctx.grid ctx.options.pipeline path cache cache')
    (hagree : Run.Agree Cache.Within (ctx.formulaCell n path c cache)
      (ctx.formulaCell n path c cache')) :
    Run.Agree (Cache.Grows ctx.grid ctx.options.pipeline path) (ctx.formulaCell n path c cache)
      (ctx.formulaCell n path c cache') where
  value := hagree.value
  volatile := hagree.volatile
  states :=
    { upToDate := (upToDate_formulaCell hmemo h.upToDate h.lags.openPath).1
      upToDate' := (upToDate_formulaCell hmemo h.upToDate' h.openPath).1
      within := hagree.states
      openPath := (upToDate_formulaCell hmemo h.upToDate' h.openPath).2 }

theorem agree_of_cached (h : Cache.Grows ctx.grid ctx.options.pipeline path cache cache')
    (hc : cache'.isCached c) (hshallow : (ctx.formulaCell n path c cache).2.1.Shallow) :
    Run.Agree Cache.Within (ctx.formulaCell n path c cache) (ctx.formulaCell n path c cache') := by
  obtain ⟨v, hv⟩ := Cache.isCached_iff.1 hc
  obtain ⟨k, reads, hk, -⟩ := h.upToDate'.settled c v hv
  have hnone : path.filter cache'.isCached = [] :=
    List.filter_eq_nil_iff.2 fun d hd => h.openPath d hd
  have hbelow : ctx.grid.Below ctx.options.pipeline (path.filter cache'.isCached) c := by
    rw [hnone]
    exact Grid.below_nil
  obtain ⟨hvalue, hlags⟩ := formulaCell_lags hmemo h.upToDate' h.lags hbelow hc hk hshallow
  rw [formulaCell_of_cached hmemo hv]
  exact ⟨hvalue.symm, fun hvolatile => (nomatch hvolatile), hlags.within⟩

/-- The evaluation of a formula cell that does not meet the limit comes to the same value with a
larger cache, which is then still the larger one. -/
theorem formulaCell_grows (h : Cache.Grows ctx.grid ctx.options.pipeline path cache cache')
    (hshallow : (ctx.formulaCell n path c cache).2.1.Shallow) :
    Run.Agree (Cache.Grows ctx.grid ctx.options.pipeline path) (ctx.formulaCell n path c cache)
      (ctx.formulaCell n path c cache') := by
  induction n generalizing path c cache cache' with
  | zero =>
    apply grows_of_agree hmemo h
    by_cases hc' : cache'.isCached c
    · exact agree_of_cached hmemo h hc' hshallow
    have hc : ¬ cache.isCached c := fun hc => hc' (h.within c hc)
    simp only [formulaCell, rememberedOr_of_not_cached hmemo hc,
      rememberedOr_of_not_cached hmemo hc'] at hshallow ⊢
    exact ⟨rfl, id, h.within⟩
  | succ n ih =>
    apply grows_of_agree hmemo h
    by_cases hc' : cache'.isCached c
    · exact agree_of_cached hmemo h hc' hshallow
    have hc : ¬ cache.isCached c := fun hc => hc' (h.within c hc)
    rw [formulaCell_succ, rememberedOr_of_not_cached hmemo hc] at hshallow ⊢
    rw [rememberedOr_of_not_cached hmemo hc']
    by_cases hmem : c ∈ path
    · simp only [if_pos hmem]
      exact ⟨rfl, id, h.within⟩
    · simp only [if_neg hmem] at hshallow ⊢
      have hgrows : Cache.Grows ctx.grid ctx.options.pipeline (c :: path) cache cache' :=
        { h with openPath := List.forall_mem_cons.2 ⟨hc', h.openPath⟩ }
      have hformula : ∀ d s t, Cache.Grows ctx.grid ctx.options.pipeline (c :: path) s t →
          (ctx.formulaCell n (c :: path) d s).2.1.Shallow →
          Run.Agree (Cache.Grows ctx.grid ctx.options.pipeline (c :: path))
            (ctx.formulaCell n (c :: path) d s) (ctx.formulaCell n (c :: path) d t) :=
        fun d s t hst hsh => ih hst hsh
      obtain ⟨hvalue, hvolatile, hstates⟩ :=
        Plan.run_related ctx.links hformula hgrows (shallow_visit hshallow)
      refine ⟨hvalue, hvolatile, ?_⟩
      simp only [visit, hmemo, Cache.memo]
      exact hstates.within.store (hstates.openPath c List.mem_cons_self) hvolatile

end

/-- A cell whose evaluation does not meet the limit has the same value with a larger cache. -/
theorem evaluateCell_of_within (hmemo : ctx.activeMemo = Cache.memo)
    (hcache : cache.UpToDate ctx.grid ctx.options.pipeline)
    (hcache' : cache'.UpToDate ctx.grid ctx.options.pipeline) (hwithin : cache.Within cache')
    (hshallow : (ctx.evaluateCell c cache).2.1.Shallow) :
    (ctx.evaluateCell c cache').1 = (ctx.evaluateCell c cache).1 := by
  by_cases hc : ctx.grid.HoldsFormula c
  · rw [evaluateCell_of_formula hc] at hshallow ⊢
    have hgrows : Cache.Grows ctx.grid ctx.options.pipeline [] cache cache' :=
      ⟨hcache, hcache', hwithin, fun _ h => nomatch h⟩
    exact (formulaCell_grows hmemo hgrows hshallow).value
  · rw [evaluateCell_of_not_formula hc]
    cases ctx.grid.ownValue c <;> rfl

end Context

/-! ## Sheets -/

namespace Sheet
variable {s s' : Sheet}

/-- Reading on keeps the sheet but for its cache, which remembers no less. -/
theorem Reachable.reads (h : s.Reachable) (hreads : ReflTransGen ReadsTo s s') :
    s'.Reachable ∧ s' = { s with cache := s'.cache } ∧
      (s.options.cache = true → s.cache.Within s'.cache) := by
  induction hreads with
  | refl => exact ⟨h, rfl, fun _ _ hc => hc⟩
  | @tail s₁ s₂ _ hread ih =>
    obtain ⟨hreachable, hsame, hwithin⟩ := ih
    have hsame' := hread.eq_with_cache
    refine ⟨hreachable.read hread, by rw [hsame', hsame], fun hon c hc => ?_⟩
    obtain ⟨v, hv⟩ := Cache.isCached_iff.1 (hwithin hon c hc)
    have hon' : s₁.options.cache = true := by rw [hsame]; exact hon
    exact Cache.isCached_iff.2 ⟨v, hreachable.read_keeps hon' hread hv⟩

theorem evaluateCell_again (h : s.Reachable) (hreads : ReflTransGen ReadsTo s s') {c : Cell}
    (hdeep : s.options.cache = false ∨ (s.context.evaluateCell c s.cache).2.1.Shallow) :
    (s'.context.evaluateCell c s'.cache).1 = (s.context.evaluateCell c s.cache).1 := by
  obtain ⟨h', hsame, hwithin⟩ := h.reads hreads
  have hcontext : s'.context = s.context := by rw [hsame]; rfl
  have hoptions : s.context.options = s.options := rfl
  have hactive : s.context.activeMemo = if s.options.cache then Cache.memo else Memo.off := rfl
  rw [hcontext]
  cases hon : s.options.cache with
  | false =>
    rw [hon] at hactive
    by_cases hc : s.context.grid.HoldsFormula c
    · rw [Context.evaluateCell_value hactive hc, Context.evaluateCell_value hactive hc]
    · rw [Context.evaluateCell_of_not_formula hc]
      cases s.context.grid.ownValue c <;> rfl
  | true =>
    rw [hon] at hactive hdeep
    have hupToDate' : s'.cache.UpToDate s.grid s.options.pipeline := by
      have := h'.upToDate
      rw [hsame] at this
      exact this
    exact Context.evaluateCell_of_within hactive h.upToDate hupToDate' (hwithin hon)
      (hdeep.resolve_left Bool.noConfusion)

/-- A value that was read without a memory, or without meeting the limit on depth, is read again
after any further reads. -/
theorem value_again (h : s.Reachable) (hreads : ReflTransGen ReadsTo s s') {address : String}
    {v : Value} {t : Trace} {s₁ : Sheet} (hvalue : s.value address = .ok (v, t, s₁))
    (hdeep : s.options.cache = false ∨ t.Shallow) :
    ∃ t' s₂, s'.value address = .ok (v, t', s₂) := by
  obtain ⟨c, hc, hread⟩ := value_eq_ok_iff.1 hvalue
  have hv : (s.context.evaluateCell c s.cache).1 = v := congrArg (·.1) hread
  have ht : (s.context.evaluateCell c s.cache).2.1 = t := congrArg (·.2.1) hread
  rw [← ht] at hdeep
  have hgrid : s'.grid.locate address = .ok c := by
    rw [(h.reads hreads).2.1]
    exact hc
  rw [← hv, ← evaluateCell_again h hreads hdeep]
  exact ⟨_, _, value_of_locate hgrid⟩

/-! ### Chains of references -/

/-- A sheet with a chain of three formulas, of which two may be under evaluation at a time. -/
def deep : Sheet :=
  (ofGrid (Grid.column ["=A2", "=A3", "=1"])).withOptions { maxDepth := 2 }

/-- The end of the chain is as deep as the limit allows, so it is read again to the same value. -/
theorem value_again_deep :
    deep.Reachable ∧ ReflTransGen ReadsTo deep deep.displayGrid.2.2 ∧
      ∃ v t s t' s', deep.value "A2" = .ok (v, t, s) ∧ t.Shallow ∧
        deep.displayGrid.2.2.value "A2" = .ok (v, t', s') := by
  have hreachable : deep.Reachable := .withOptions _ (.ofGrid _)
  have hreads : ReflTransGen ReadsTo deep deep.displayGrid.2.2 := .single .displayGrid
  have hlocate : deep.grid.locate "A2" = .ok .a2 := by decide +kernel
  have hvalue := value_of_locate hlocate
  have hshallow : (deep.context.evaluateCell .a2 deep.cache).2.1.Shallow := by decide +kernel
  obtain ⟨t', s', hagain⟩ := value_again hreachable hreads hvalue (.inr hshallow)
  exact ⟨hreachable, hreads, _, _, _, t', s', hvalue, hshallow, hagain⟩

/-- The start of the chain is beyond the limit until the end of the chain has been read. -/
theorem value_deep :
    deep.Reachable ∧ ∃ t s₁ w u s₂ v x s₃,
      deep.value "A1" = .ok (.error (.chainTooDeep .a3), t, s₁) ∧
      s₁.value "A3" = .ok (w, u, s₂) ∧ s₂.value "A1" = .ok (v, x, s₃) ∧ v.isError = false := by
  have hlocate : deep.grid.locate "A1" = .ok .a1 ∧ deep.grid.locate "A3" = .ok .a3 := by
    decide +kernel
  have hfirst := value_of_locate hlocate.1
  have hdeep : (deep.context.evaluateCell .a1 deep.cache).1 = .error (.chainTooDeep .a3) := by
    decide +kernel
  rw [hdeep] at hfirst
  -- Reading leaves the grid as it is.
  have hsecond := value_of_locate (s := (deep.read (deep.context.evaluateCell .a1)).2.2) hlocate.2
  refine ⟨.withOptions _ (.ofGrid _), _, _, _, _, _, _, _, _, hfirst, hsecond,
    value_of_locate hlocate.1, ?_⟩
  decide +kernel

end Sheet

end Spreadsheet
