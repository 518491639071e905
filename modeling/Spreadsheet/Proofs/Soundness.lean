import Spreadsheet.Proofs.Outcomes
import Spreadsheet.Proofs.Settled
import Spreadsheet.Proofs.Values
/-!
# What evaluation may come to

Evaluation comes to failures that were reported in its course or remembered,
and to numbers that are as fine as those it starts from: `Context.evaluate_sound`
and `Context.evaluateCell_sound`, with any memory that keeps to such values.
-/

namespace Spreadsheet

/-! ## Reports -/

/-- The failure that is reported. -/
def Event.failure? : Event → Option Failure
  | .reported f => some f
  | _ => none

/-- The failures that were reported, in order. -/
def Trace.failures (t : Trace) : List Failure := t.events.filterMap Event.failure?

theorem Trace.failures_append (t u : Trace) : (t ++ u).failures = t.failures ++ u.failures :=
  List.filterMap_append

/-- The marks of a visit are no reports. -/
theorem Trace.failures_visit (t : Trace) (c : Cell) (v : Value) (reads : List Cell)
    (volatile volatile' : Bool) :
    (⟨[], volatile', .opened c :: t.events ++ [.closed c v reads volatile]⟩ : Trace).failures =
      t.failures := by
  simp [failures, List.filterMap_cons, Event.failure?]

namespace Grid
variable {g : Grid} {c : Cell} {v : Value}

theorem eq_of_literal (h : g.literal c = .ok v) :
    v = .text (g.content c) ∨ v = .ofLiteral (g.content c) := by
  simp only [literal] at h
  split at h
  · cases h
  · split at h
    · cases h
    · split at h
      · cases h
      · split at h
        · exact .inl (Except.ok.inj h).symm
        · exact .inr (Except.ok.inj h).symm

theorem eq_of_ownValue (h : g.ownValue c = .ok v) :
    v = .text (g.content c) ∨ v = .ofLiteral (g.content c) := by
  simp only [ownValue] at h
  split at h
  · cases h
  · split at h
    · exact .inl (Except.ok.inj h).symm
    · exact .inr (Except.ok.inj h).symm

/-- A failure of a reference to a cell without a formula is reported. -/
theorem literalValue_sound {fine : Float → Prop} (hfine : Admits fine) (g : Grid) (c : Cell) :
    (g.literalValue c).Sound fine {f | f ∈ (g.literalTrace c).failures} := by
  unfold literalValue literalTrace Trace.failures
  dsimp only
  cases h : g.literal c with
  | error f => exact List.mem_singleton_self f
  | ok v =>
    rcases eq_of_literal h with rfl | rfl
    · trivial
    · exact hfine.ofLiteral _ _

end Grid

/-! ## Runs -/

/-- The memory yields sound values if it is told no others. What it yields may be a failure in
`base` only. -/
structure Memo.Sound {σ : Type} (memo : Memo σ) (fine : Float → Prop) (base : Set Failure)
    (I : σ → Prop) : Prop where
  lookup_some {c s v s'} : I s → memo.lookup c s = (some v, s') → I s' ∧ v.Sound fine base
  lookup_none {c s s'} : I s → memo.lookup c s = (none, s') → I s'
  store {c v reads volatile s} : I s → v.Sound fine Set.univ → I (memo.store c v reads volatile s)

theorem Memo.sound_off {σ : Type} (fine : Float → Prop) (base : Set Failure) :
    (Memo.off : Memo σ).Sound fine base fun _ => True where
  lookup_some _ h := nomatch h
  lookup_none _ _ := trivial
  store _ _ := trivial

/-- The run has a sound value, if what it reported is known too, and leaves a state that the memory
keeps to. -/
def SoundRun {σ : Type} (fine : Float → Prop) (base : Set Failure) (I : σ → Prop)
    (r : Value × Trace × σ) : Prop :=
  I r.2.2 ∧ r.1.Sound fine (base ∪ {f | f ∈ r.2.1.failures})

theorem union_failures_append (known : Set Failure) (t u : Trace) :
    known ∪ {f | f ∈ (t ++ u).failures} =
      known ∪ {f | f ∈ t.failures} ∪ {f | f ∈ u.failures} := by
  ext f
  simp only [Trace.failures_append, Set.mem_union, Set.mem_ofPred_eq, List.mem_append, or_assoc]

theorem union_failures_nil (known : Set Failure) {t : Trace} (h : t.failures = []) :
    known ∪ {f | f ∈ t.failures} = known := by
  ext f
  simp only [h, Set.mem_union, Set.mem_ofPred_eq, List.not_mem_nil, or_false]

/-- What a plan ends in holds after its run, if the formulas of the cells it comes to are sound. -/
theorem Plan.Ends.run {σ α : Type} {fine : Float → Prop} {base : Set Failure} {I : σ → Prop}
    {post : α → Set Failure → Prop} {g : Grid} (links : LinkSource) {formula : Cell → Run σ Value}
    (hfine : Admits fine)
    (hformula : ∀ c s, g.HoldsFormula c → I s → SoundRun fine base I (formula c s)) {q : Plan α}
    {known : Set Failure} (hbase : base ⊆ known) (hq : q.Ends (.knowing fine) post known)
    {s : σ} (hs : I s) :
    I (q.run (g.host links formula) s).2.2 ∧
      post (q.run (g.host links formula) s).1
        (known ∪ {f | f ∈ (q.run (g.host links formula) s).2.1.failures}) := by
  induction q generalizing known s with
  | done a =>
    refine ⟨hs, ?_⟩
    rw [union_failures_nil known rfl]
    exact hq
  | report f next ih =>
    have hreport : known ∪ {f' | f' ∈ (⟨[], false, [.reported f]⟩ : Trace).failures} =
        insert f known := by
      ext f'
      simp [Trace.failures, Event.failure?, or_comm]
    rw [run_report_apply, union_failures_append, hreport]
    exact ih (hbase.trans (Set.subset_insert f known)) hq hs
  | resolve batch next ih =>
    rw [run_resolve_apply, union_failures_append, union_failures_nil known rfl]
    exact ih _ hbase (hq _) hs
  | ask c next ih =>
    have hsub := fun t : Trace => (Set.subset_union_left (s := known) (t := {f | f ∈ t.failures}))
    by_cases hc : g.HoldsFormula c
    · obtain ⟨hs', hv⟩ := hformula c s hc hs
      rw [run_ask_of_formula hc, union_failures_append]
      refine ih _ (hbase.trans (hsub _)) (hq _ _ (hsub _) (hv.mono ?_)) hs'
      refine Set.union_subset_union hbase fun f hf => ?_
      simp only [Trace.failures, Grid.passTrace, List.filterMap_append, Set.mem_ofPred_eq]
      exact List.mem_append_left _ hf
    · rw [run_ask_of_not_formula hc, union_failures_append]
      exact ih _ (hbase.trans (hsub _))
        (hq _ _ (hsub _) ((g.literalValue_sound hfine c).mono Set.subset_union_right)) hs

namespace Context
variable {σ : Type} {ctx : Context σ} {fine : Float → Prop} {base : Set Failure} {I : σ → Prop}

section
variable (hfine : Admits fine) (hmemo : ctx.activeMemo.Sound fine base I)
  (hgrid : ∀ c, ctx.grid.HoldsFormula c →
    ∀ e ∈ readings ctx.options.pipeline (ctx.grid.content c).toList, Finely fine e.numbers e.widths)
include hfine hmemo hgrid

omit hfine hgrid in
theorem rememberedOr_sound {c : Cell} {run : Run σ Value} {s : σ} (hs : I s)
    (hrun : ∀ s, I s → SoundRun fine base I (run s)) :
    SoundRun fine base I (ctx.rememberedOr c run s) := by
  rcases hl : ctx.activeMemo.lookup c s with ⟨_ | v, s'⟩
  · simp only [rememberedOr, hl]
    exact hrun s' (hmemo.lookup_none hs hl)
  · obtain ⟨hs', hv⟩ := hmemo.lookup_some hs hl
    simp only [rememberedOr, hl]
    exact ⟨hs', hv.mono Set.subset_union_left⟩

omit hfine hmemo hgrid in
theorem breakOff_sound (f : Failure) {s : σ} (hs : I s) :
    SoundRun fine base I (breakOff f s) :=
  ⟨hs, .inr List.mem_cons_self⟩

theorem formulaCell_sound (n : Nat) (path : List Cell) {c : Cell} (hc : ctx.grid.HoldsFormula c)
    {s : σ} (hs : I s) : SoundRun fine base I (ctx.formulaCell n path c s) := by
  induction n generalizing path c s with
  | zero => exact rememberedOr_sound hmemo hs fun s hs => breakOff_sound _ hs
  | succ n ih =>
    rw [formulaCell_succ]
    refine rememberedOr_sound hmemo hs fun s hs => ?_
    split
    · exact breakOff_sound _ hs
    · obtain ⟨hs', hv⟩ := Plan.Ends.run ctx.links hfine (fun d s hd hs => ih (c :: path) hd hs)
        subset_rfl (Plan.sound_evaluateFormula hfine (hgrid c hc) base) hs
      refine ⟨hmemo.store hs' (hv.mono (Set.subset_univ _)), ?_⟩
      unfold visit
      rw [Trace.failures_visit]
      exact hv

/-- Evaluating a cell comes to a sound value. -/
theorem evaluateCell_sound (c : Cell) {s : σ} (hs : I s) :
    SoundRun fine base I (ctx.evaluateCell c s) := by
  by_cases hc : ctx.grid.HoldsFormula c
  · rw [evaluateCell_of_formula hc]
    exact formulaCell_sound hfine hmemo hgrid _ [] hc hs
  · rw [evaluateCell_of_not_formula hc]
    cases h : ctx.grid.ownValue c with
    | error f => exact ⟨hs, .inr List.mem_cons_self⟩
    | ok v =>
      rcases Grid.eq_of_ownValue h with rfl | rfl
      · exact ⟨hs, trivial⟩
      · exact ⟨hs, hfine.ofLiteral _ _⟩

/-- Evaluating a content comes to a sound value. -/
theorem evaluate_sound (content : String)
    (hcontent : Textual.isValid content.toList →
      ∀ e ∈ readings ctx.options.pipeline content.toList, Finely fine e.numbers e.widths)
    {s : σ} (hs : I s) : SoundRun fine base I (ctx.evaluate content s) := by
  unfold evaluate
  split
  · rename_i hvalid
    rw [← Plan.run_evaluateFormula]
    exact Plan.Ends.run ctx.links hfine
      (fun d s hd hs => formulaCell_sound hfine hmemo hgrid _ [] hd hs) subset_rfl
      (Plan.sound_evaluateFormula hfine (hcontent hvalid) base) hs
  · split
    · exact ⟨hs, trivial⟩
    · exact ⟨hs, hfine.ofLiteral _ _⟩

end

end Context

end Spreadsheet
