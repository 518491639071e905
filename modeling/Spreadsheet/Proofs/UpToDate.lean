import Spreadsheet.Cache
import Spreadsheet.Proofs.Dependencies
import Spreadsheet.Proofs.Memory
/-!
# The cache is up to date

All that a cache remembers are settled values, each with the cells it was read
from. Evaluation keeps a cache so, `faithful_memo`, and so does a change of a
cell, `UpToDate.put`: a cell that keeps its value has read only cells that the
change does not spread to.
-/

namespace Spreadsheet

namespace Grid

/-! ## The cells of a grid -/

section
variable {g : Grid} {row column : Nat} {c : Cell}

theorem exists_cellAt (hrow : row < g.rows) (hcolumn : column < g.columns) :
    ∃ c, g.cellAt row column = .ok c := by
  unfold cellAt
  rw [dif_pos hrow, dif_pos hcolumn]
  exact ⟨_, rfl⟩

theorem cellAt_eq_ok_iff : g.cellAt row column = .ok c ↔
    (row < g.rows ∧ column < g.columns) ∧ c.row.val = row ∧ c.column.val = column := by
  unfold cellAt
  constructor
  · intro h
    split at h
    · split at h
      · cases h
        exact ⟨⟨‹_›, ‹_›⟩, rfl, rfl⟩
      · cases h
    · cases h
  · rintro ⟨⟨hrow, hcolumn⟩, rfl, rfl⟩
    rw [dif_pos hrow, dif_pos hcolumn]

end

/-! ## Changing one cell -/

theorem cellAt_put (g : Grid) (c : Cell) (content : String) (row column : Nat) :
    (g.put c content).cellAt row column = g.cellAt row column := by
  unfold put
  split <;> rfl

@[simp]
theorem contains_put (g : Grid) (c d : Cell) (content : String) :
    (g.put c content).contains d = g.contains d := by
  unfold put
  split <;> rfl

theorem content_put (g : Grid) (c d : Cell) (content : String) :
    (g.put c content).content d = if c = d then content else g.content d := by
  unfold put Grid.content
  split
  · rename_i h
    rw [String.isEmpty_iff.1 h]
    dsimp only
    rw [Std.TreeMap.getD_erase]
    simp only [Std.LawfulEqCmp.compare_eq_iff_eq]
  · dsimp only
    rw [Std.TreeMap.getD_insert]
    simp only [Std.LawfulEqCmp.compare_eq_iff_eq]

variable {g : Grid} {c d : Cell} {content : String}

theorem content_put_of_ne (h : d ≠ c) : (g.put c content).content d = g.content d := by
  rw [content_put, if_neg h.symm]

theorem holdsFormula_put_of_ne (h : d ≠ c) :
    (g.put c content).HoldsFormula d ↔ g.HoldsFormula d := by
  unfold HoldsFormula
  rw [contains_put, content_put_of_ne h]

theorem literalValue_put (h : g.contains d → d ≠ c) :
    (g.put c content).literalValue d = g.literalValue d := by
  unfold literalValue literal
  rw [contains_put]
  by_cases hd : g.contains d
  · rw [content_put_of_ne (h hd)]
  · rw [Bool.not_eq_true] at hd
    simp [hd]

end Grid

namespace Cache

/-- Each remembered value is settled. What it was read from is recorded, and the values of the
formulas among that are remembered too. -/
structure UpToDate (cache : Cache) (g : Grid) (p : Pipeline) : Prop where
  inverse : cache.graph.Inverse
  settled : ∀ c v, cache.values[c]? = some v → ∃ k reads, g.settled p k c = .yields v reads ∧
    (∀ d ∈ reads, d ∈ cache.graph.precedents c) ∧
    ∀ d ∈ reads, g.HoldsFormula d → cache.isCached d

variable {cache : Cache} {g : Grid} {p : Pipeline} {c d : Cell}

theorem isCached_iff : cache.isCached c ↔ ∃ v, cache.values[c]? = some v := by
  unfold isCached
  rw [← Std.TreeMap.mem_iff_contains, Std.TreeMap.mem_iff_isSome_getElem?,
    Option.isSome_iff_exists]

theorem getElem?_of_not_isCached (h : ¬ cache.isCached c) : cache.values[c]? = none := by
  unfold isCached at h
  rw [← Std.TreeMap.mem_iff_contains] at h
  exact Std.TreeMap.getElem?_eq_none h

theorem upToDate_empty : empty.UpToDate g p where
  inverse := DependencyGraph.inverse_empty
  settled c v h := by
    have hnone : empty.values[c]? = none := Std.TreeMap.getElem?_emptyc
    rw [hnone] at h
    cases h

theorem upToDate_clear : cache.clear.UpToDate g p where
  inverse := DependencyGraph.inverse_empty
  settled := upToDate_empty.settled

/-! ## Evaluating -/

/-- The cache as a memory that may be switched off. -/
def view (on : Bool) (g : Grid) (p : Pipeline) : Memo.View Cache where
  Inv cache := cache.UpToDate g p
  Kept cache c := on → cache.isCached c
  Open cache c := on → ¬ cache.isCached c

theorem step_refl {on : Bool} (h : cache.UpToDate g p) (cells : Cell → Prop) :
    (view on g p).Step cells cache cache where
  inv := h
  kept _ hd := hd
  still _ _ hd := hd

theorem values_store_volatile (h : ¬ cache.isCached c) (v : Value) (reads : List Cell) :
    (cache.store c v reads true).values[d]? = cache.values[d]? := by
  simp only [store, if_true, Std.TreeMap.getElem?_erase, Std.LawfulEqCmp.compare_eq_iff_eq]
  split
  · rename_i hd
    rw [← hd, getElem?_of_not_isCached h]
  · rfl

theorem values_store_settled (v : Value) (reads : List Cell) :
    (cache.store c v reads false).values[d]? = if c = d then some v else cache.values[d]? := by
  simp only [store, Bool.false_eq_true, if_false, Std.TreeMap.getElem?_insert,
    Std.LawfulEqCmp.compare_eq_iff_eq]

theorem precedents_store {v : Value} {reads : List Cell} {volatile : Bool} {x : Cell} :
    x ∈ (cache.store c v reads volatile).graph.precedents d ↔
      if d = c then x ∈ reads else x ∈ cache.graph.precedents d :=
  DependencyGraph.mem_precedents_setPrecedents

theorem isCached_store_volatile (h : ¬ cache.isCached c) (v : Value) (reads : List Cell) :
    (cache.store c v reads true).isCached d ↔ cache.isCached d := by
  rw [isCached_iff, isCached_iff, values_store_volatile h]

theorem isCached_store_settled (v : Value) (reads : List Cell) :
    (cache.store c v reads false).isCached d ↔ d = c ∨ cache.isCached d := by
  rw [isCached_iff, isCached_iff, values_store_settled]
  by_cases hd : c = d
  · simp [hd]
  · simp [hd, Ne.symm hd]

theorem isCached_of_store {v : Value} {reads : List Cell} {volatile : Bool}
    (h : (cache.store c v reads volatile).isCached d) : d = c ∨ cache.isCached d := by
  cases volatile with
  | true =>
    obtain ⟨w, hw⟩ := isCached_iff.1 h
    simp only [store, if_true, Std.TreeMap.getElem?_erase, Std.LawfulEqCmp.compare_eq_iff_eq] at hw
    split at hw
    · cases hw
    · exact .inr (isCached_iff.2 ⟨w, hw⟩)
  | false => exact (isCached_store_settled v reads).1 h

theorem UpToDate.store_volatile (h : cache.UpToDate g p) (hc : ¬ cache.isCached c) (v : Value)
    (reads : List Cell) : (cache.store c v reads true).UpToDate g p where
  inverse := h.inverse.setPrecedents
  settled d w hd := by
    rw [values_store_volatile hc] at hd
    have hne : d ≠ c := by
      rintro rfl
      exact hc (isCached_iff.2 ⟨w, hd⟩)
    obtain ⟨k, r, hk, hprecedents, hcached⟩ := h.settled d w hd
    refine ⟨k, r, hk, ?_, ?_⟩
    · intro x hx
      rw [precedents_store, if_neg hne]
      exact hprecedents x hx
    · intro x hx hf
      rw [isCached_store_volatile hc]
      exact hcached x hx hf

theorem UpToDate.store_settled {k : Nat} {v : Value} {reads : List Cell} (h : cache.UpToDate g p)
    (hk : g.settled p k c = .yields v reads)
    (hreads : ∀ d ∈ reads, g.HoldsFormula d → cache.isCached d) :
    (cache.store c v reads false).UpToDate g p where
  inverse := h.inverse.setPrecedents
  settled d w hd := by
    simp only [precedents_store, isCached_store_settled]
    rw [values_store_settled] at hd
    by_cases hc : c = d
    · subst hc
      rw [if_pos rfl] at hd
      cases hd
      simp only [if_true]
      exact ⟨k, reads, hk, fun _ hx => hx, fun x hx hf => Or.inr (hreads x hx hf)⟩
    · rw [if_neg hc] at hd
      simp only [if_neg (Ne.symm hc)]
      obtain ⟨l, r, hl, hprecedents, hcached⟩ := h.settled d w hd
      exact ⟨l, r, hl, hprecedents, fun x hx hf => Or.inr (hcached x hx hf)⟩

theorem UpToDate.hit (h : cache.UpToDate g p) (hits : Nat) :
    { cache with hits }.UpToDate g p := ⟨h.inverse, h.settled⟩

/-- The cache is a faithful memory. -/
theorem faithful_memo : memo.Faithful g p (view true g p) where
  lookup_some {c s v s'} hs hl := by
    simp only [memo, lookup] at hl
    split at hl
    · rename_i w hw
      cases hl
      obtain ⟨k, reads, hk, -, -⟩ := UpToDate.settled hs c v hw
      exact ⟨⟨UpToDate.hit hs _, fun _ hd => hd, fun _ _ hd => hd⟩,
        fun _ => isCached_iff.2 ⟨v, hw⟩, k, reads, hk⟩
    · cases hl
  lookup_none {c s s'} hs hl := by
    simp only [memo, lookup] at hl
    split at hl
    · cases hl
    · rename_i hnone
      cases hl
      refine ⟨step_refl hs _, ?_⟩
      intro _ hc
      obtain ⟨v, hv⟩ := isCached_iff.1 hc
      rw [hnone] at hv
      cases hv
  store_volatile {c v reads s} hs hc := by
    have hc := hc rfl
    refine ⟨UpToDate.store_volatile hs hc v reads, ?_, ?_⟩
    · intro d hd _
      exact (isCached_store_volatile hc v reads).2 (hd rfl)
    · intro d _ hd _ hcached
      exact hd rfl ((isCached_store_volatile hc v reads).1 hcached)
  store_settled {c v reads s k} hs hc hk hreads := by
    have hreads' := fun d hd hf => hreads d hd hf rfl
    refine ⟨⟨UpToDate.store_settled hs hk hreads', ?_, ?_⟩,
      fun _ => (isCached_store_settled v reads).2 (Or.inl rfl)⟩
    · intro d hd _
      exact (isCached_store_settled v reads).2 (Or.inr (hd rfl))
    · intro d hne hd _ hcached
      rcases (isCached_store_settled v reads).1 hcached with rfl | hcached
      · exact hne rfl
      · exact hd rfl hcached

/-- A memory that is switched off is faithful for want of any answer. -/
theorem faithful_off : Memo.off.Faithful g p (view false g p) where
  lookup_some _ hl := nomatch hl
  lookup_none hs hl := by
    cases hl
    exact ⟨step_refl hs _, fun h => nomatch h⟩
  store_volatile hs _ := step_refl hs _
  store_settled hs _ _ _ := ⟨step_refl hs _, fun h => nomatch h⟩

/-! ## Changing one cell -/

theorem getElem?_foldl_erase (values : Std.TreeMap Cell Value) (cells : List Cell) :
    (cells.foldl (fun values d => values.erase d) values)[c]? =
      if c ∈ cells then none else values[c]? := by
  induction cells generalizing values with
  | nil => simp
  | cons d cells ih =>
    rw [List.foldl_cons, ih, Std.TreeMap.getElem?_erase]
    simp only [Std.LawfulEqCmp.compare_eq_iff_eq]
    grind

theorem values_invalidate :
    (cache.invalidate c).2.values[d]? =
      if d ∈ cache.graph.invalidationSet c then none else cache.values[d]? :=
  getElem?_foldl_erase cache.values _

theorem isCached_invalidate :
    (cache.invalidate c).2.isCached d ↔
      d ∉ cache.graph.invalidationSet c ∧ cache.isCached d := by
  rw [isCached_iff, isCached_iff, values_invalidate]
  by_cases hd : d ∈ cache.graph.invalidationSet c <;> simp [hd]

/-- What a cell to which a change does not spread has read, the change does not spread to. -/
theorem not_mem_invalidationSet_of_precedent (h : cache.UpToDate g p)
    (hc : c ∉ cache.graph.invalidationSet d) {x : Cell} (hx : x ∈ cache.graph.precedents c) :
    x ∉ cache.graph.invalidationSet d := fun hmem =>
  hc (DependencyGraph.mem_invalidationSet_of_dependent h.inverse hmem ((h.inverse x c).2 hx))

/-- A remembered value that a change does not spread to stays settled. -/
theorem UpToDate.settled_put (h : cache.UpToDate g p) (content : String) {k : Nat} {v : Value}
    {reads : List Cell} (hc : c ∉ cache.graph.invalidationSet d) (hcached : cache.isCached c)
    (hk : g.settled p k c = .yields v reads) :
    (g.put d content).settled p k c = .yields v reads := by
  have hne {x : Cell} : x ∉ cache.graph.invalidationSet d → x ≠ d :=
    DependencyGraph.ne_of_not_mem_invalidationSet
  induction k generalizing c v reads with
  | zero => cases hk
  | succ k ih =>
    have hplan : (g.put d content).plan p c = g.plan p c := by
      unfold Grid.plan
      rw [Grid.content_put_of_ne (hne hc)]
    obtain ⟨w, hw⟩ := isCached_iff.1 hcached
    obtain ⟨l, r, hl, hprecedents, hformulas⟩ := h.settled c w hw
    obtain ⟨rfl, rfl⟩ := Grid.settled_unique hk hl
    rw [Grid.settled_succ] at hk ⊢
    rw [hplan]
    -- All that the formula of `c` reads is as it was, cells with formulas by the induction.
    refine Plan.run_mono (P := fun x => x ∉ cache.graph.invalidationSet d ∧
      (g.HoldsFormula x → cache.isCached x)) (Grid.resolve_settledHost k) ?_ hk
      fun x hx => ⟨not_mem_invalidationSet_of_precedent h hc (hprecedents x hx), hformulas x hx⟩
    intro x u r' hx hr'
    by_cases hf : g.HoldsFormula x
    · rw [Grid.reference_settledHost_of_formula hf, Steady.readFrom_eq_yields_iff] at hx
      obtain ⟨rfl, r'', hx⟩ := hx
      obtain ⟨hstale, hxc⟩ := hr' x List.mem_cons_self
      have hf' : (g.put d content).HoldsFormula x :=
        (Grid.holdsFormula_put_of_ne (hne hstale)).2 hf
      rw [Grid.reference_settledHost_of_formula hf', Steady.readFrom_eq_yields_iff]
      exact ⟨rfl, r'', ih hstale (hxc hf) hx⟩
    · rw [Grid.reference_settledHost_of_not_formula hf] at hx
      cases hx
      have hxd : g.contains x → x ≠ d := by
        intro hin
        rw [if_pos hin] at hr'
        exact hne (hr' x List.mem_cons_self).1
      have hf' : ¬ (g.put d content).HoldsFormula x := by
        by_cases hin : g.contains x
        · rwa [Grid.holdsFormula_put_of_ne (hxd hin)]
        · exact fun hf' => hin (Grid.contains_put g d x content ▸ hf'.1)
      rw [Grid.reference_settledHost_of_not_formula hf', Grid.literalValue_put hxd,
        Grid.contains_put]

/-- After a change the cache is up to date once what the change spreads to is dropped. -/
theorem UpToDate.put (h : cache.UpToDate g p) (d : Cell) (content : String) :
    (cache.invalidate d).2.UpToDate (g.put d content) p where
  inverse := h.inverse.clearPrecedents
  settled c v hv := by
    rw [values_invalidate] at hv
    split at hv
    · cases hv
    rename_i hc
    obtain ⟨k, reads, hk, hprecedents, hformulas⟩ := h.settled c v hv
    have hstale : ∀ x ∈ reads, x ∉ cache.graph.invalidationSet d := fun x hx =>
      not_mem_invalidationSet_of_precedent h hc (hprecedents x hx)
    have hne {x : Cell} : x ∉ cache.graph.invalidationSet d → x ≠ d :=
      DependencyGraph.ne_of_not_mem_invalidationSet
    refine ⟨k, reads, h.settled_put content hc (isCached_iff.2 ⟨v, hv⟩) hk, ?_, ?_⟩
    · intro x hx
      exact DependencyGraph.mem_precedents_clearPrecedents.2 ⟨hne hc, hprecedents x hx⟩
    · intro x hx hf
      rw [Grid.holdsFormula_put_of_ne (hne (hstale x hx))] at hf
      exact isCached_invalidate.2 ⟨hstale x hx, hformulas x hx hf⟩

end Cache

end Spreadsheet
