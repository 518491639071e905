import Spreadsheet.Proofs.Reading
import Spreadsheet.Proofs.Settled
/-!
# Cells evaluated alone

A value that is not volatile is settled, over chains no longer than evaluation
had left when it came to the cell: `Context.formulaCell_settles`. And a settled
cell has its settled value wherever it is evaluated, with any links, if its
chains are not too long: `Context.formulaCell_of_serves`. So whatever a memory
is told of a cell as not volatile, it is told again when that cell is evaluated
alone: `Context.evaluateCell_of_note`.
-/

namespace Spreadsheet

/-- A memory that has no value for any cell. -/
def Memo.ServesNothing {σ : Type} (memo : Memo σ) : Prop := ∀ c s, memo.lookup c s = (none, s)

/-! ## From runs to settled values -/

/-- A plan that is not volatile ends as it does with the values settled up to a height, if the
formula cells that are not volatile are settled up to that height. -/
theorem Plan.run_settles {σ α : Type} {g : Grid} {p : Pipeline} (links : LinkSource) {n : Nat}
    {formula : Cell → Run σ Value}
    (hformula : ∀ c s, (formula c s).2.1.reads = [] ∧ ((formula c s).2.1.volatile = false →
      ∃ reads, g.settled p n c = .yields (formula c s).1 reads))
    (q : Plan α) (s : σ) (hv : (q.run (g.host links formula) s).2.1.volatile = false) :
    q.run (g.settledHost p n) = .yields (q.run (g.host links formula) s).1
      (q.run (g.host links formula) s).2.1.reads := by
  induction q generalizing s with
  | done a => rfl
  | report f next ih => exact run_report_settledHost_iff.2 (ih s hv)
  | resolve batch next ih =>
    -- Links are volatile.
    rw [run_resolve_apply] at hv
    cases hv
  | ask c next ih =>
    by_cases hc : g.HoldsFormula c
    · rw [run_ask_of_formula hc] at hv ⊢
      simp only [Trace.append_def, Grid.passTrace, Bool.or_eq_false_iff] at hv
      obtain ⟨hreads, hsettles⟩ := hformula c s
      obtain ⟨r, hr⟩ := hsettles hv.1
      refine (run_ask_settledHost_iff hc).2 ⟨_, _, _, hr, ih _ _ hv.2, ?_⟩
      simp only [Trace.append_def, Grid.passTrace, hreads, List.cons_append, List.nil_append]
    · rw [run_ask_of_not_formula hc] at hv ⊢
      exact (run_ask_literal_settledHost_iff hc).2 ⟨_, ih _ s hv, rfl⟩

namespace Context
variable {σ : Type} {ctx : Context σ}

theorem rememberedOr_of_serves (hmemo : ctx.activeMemo.ServesNothing) (c : Cell)
    (run : Run σ Value) : ctx.rememberedOr c run = run := by
  funext s
  simp only [rememberedOr, hmemo c s]

/-- What evaluation finds not to be volatile is settled, over no longer chains than it had
left. -/
theorem formulaCell_settles (hmemo : ctx.activeMemo.ServesNothing) (n : Nat) (path : List Cell)
    (c : Cell) (s : σ) : (ctx.formulaCell n path c s).2.1.reads = [] ∧
      ((ctx.formulaCell n path c s).2.1.volatile = false →
        ∃ reads, ctx.grid.settled ctx.options.pipeline n c =
          .yields (ctx.formulaCell n path c s).1 reads) := by
  induction n generalizing path c s with
  | zero =>
    rw [formulaCell, rememberedOr_of_serves hmemo]
    exact ⟨rfl, fun hv => by cases hv⟩
  | succ n ih =>
    rw [formulaCell_succ, rememberedOr_of_serves hmemo]
    split
    · exact ⟨rfl, fun hv => by cases hv⟩
    · refine ⟨rfl, fun hv => ?_⟩
      have hplan := Plan.run_settles ctx.links (ih (c :: path))
        (ctx.grid.plan ctx.options.pipeline c) s hv
      exact ⟨_, (Grid.settled_succ _ _ n c).trans hplan⟩

end Context

/-! ## From settled values to runs -/

/-- The run yields a value that is not volatile after the reads. -/
structure Run.Yields {σ α : Type} (r : α × Trace × σ) (a : α) (reads : List Cell) : Prop where
  value : r.1 = a
  reads : r.2.1.reads = reads
  volatile : r.2.1.volatile = false

/-- A plan runs as it does with the values settled up to a height, if the formula cells that are
settled up to there yield their settled values. -/
theorem Plan.yields_of_settled {σ α : Type} {g : Grid} {p : Pipeline} (links : LinkSource) {k : Nat}
    {formula : Cell → Run σ Value}
    (hformula : ∀ d s v r, g.settled p k d = .yields v r → Run.Yields (formula d s) v [])
    {q : Plan α} (s : σ) {a : α} {reads : List Cell}
    (hq : q.run (g.settledHost p k) = .yields a reads) :
    Run.Yields (q.run (g.host links formula) s) a reads := by
  induction q generalizing s reads with
  | done b =>
    cases hq
    exact ⟨rfl, rfl, rfl⟩
  | report f next ih =>
    obtain ⟨hvalue, hreads, hvolatile⟩ := ih s (run_report_settledHost_iff.1 hq)
    exact ⟨hvalue, hreads, hvolatile⟩
  | resolve batch next ih => cases hq
  | ask c next ih =>
    by_cases hc : g.HoldsFormula c
    · obtain ⟨v, r, r', hr, hn, rfl⟩ := (run_ask_settledHost_iff hc).1 hq
      obtain ⟨rfl, hreads, hvolatile⟩ := hformula c s v r hr
      obtain ⟨hvalue', hreads', hvolatile'⟩ := ih _ (formula c s).2.2 hn
      rw [run_ask_of_formula hc]
      refine ⟨hvalue', ?_, ?_⟩
      · simp only [Trace.append_def, Grid.passTrace, hreads, hreads', List.cons_append,
          List.nil_append]
      · simp only [Trace.append_def, Grid.passTrace, hvolatile, hvolatile', Bool.or_false]
    · obtain ⟨r, hn, rfl⟩ := (run_ask_literal_settledHost_iff hc).1 hq
      obtain ⟨hvalue, hreads, hvolatile⟩ := ih _ s hn
      rw [run_ask_of_not_formula hc]
      refine ⟨hvalue, ?_, ?_⟩
      · simp only [Trace.append_def, Grid.literalTrace, hreads]
      · simp only [Trace.append_def, Grid.literalTrace, hvolatile, Bool.or_false]

namespace Context
variable {σ : Type} {ctx : Context σ}

/-- A settled cell below the path has its settled value if evaluation may go as deep as it was
settled. The memory is told so at last. -/
theorem formulaCell_of_serves (hmemo : ctx.activeMemo.ServesNothing) {n k : Nat} {path : List Cell}
    {c : Cell} {s : σ} {v : Value} {reads : List Cell}
    (hb : ctx.grid.Below ctx.options.pipeline path c) (hk : k ≤ n)
    (hv : ctx.grid.settled ctx.options.pipeline k c = .yields v reads) :
    Run.Yields (ctx.formulaCell n path c s) v [] ∧
      ∃ s', (ctx.formulaCell n path c s).2.2 = ctx.activeMemo.store c v reads false s' := by
  induction n generalizing k path c s v reads with
  | zero =>
    obtain rfl := Nat.le_zero.1 hk
    cases hv
  | succ n ih =>
    obtain ⟨l, hl⟩ := Grid.exists_settlesFirst ⟨v, reads, hv⟩
    have hlk : l < k := hl.2 k ⟨v, reads, hv⟩
    obtain ⟨w, r, hw⟩ := hl.1
    obtain ⟨rfl, rfl⟩ := Grid.settled_unique hv hw
    rw [formulaCell_succ, rememberedOr_of_serves hmemo, if_neg (hb.not_mem hl.1)]
    -- What the formula asks for has settled before `c`.
    have hformula : ∀ d s w r, ctx.grid.settled ctx.options.pipeline l d = .yields w r →
        Run.Yields (ctx.formulaCell n (c :: path) d s) w [] := by
      intro d s w r hd
      have hbelow : ctx.grid.Below ctx.options.pipeline (c :: path) d :=
        hb.cons fun m hm => hl.unique hm ▸ ⟨w, r, hd⟩
      exact (ih hbelow (by omega) hd).1
    obtain ⟨hvalue, hreads, hvolatile⟩ := Plan.yields_of_settled ctx.links hformula s
      ((Grid.settled_succ _ _ _ _).symm.trans hw)
    unfold visit
    refine ⟨⟨hvalue, rfl, hvolatile⟩, ?_⟩
    rw [← hvalue, ← hreads, ← hvolatile]
    exact ⟨_, rfl⟩

end Context

/-! ## What is told to a memory -/

/-- What a memory is told of a cell that was evaluated. -/
structure Note where
  cell : Cell
  value : Value
  reads : List Cell
  volatile : Bool
  deriving DecidableEq

/-- The memory that records all it is told and serves nothing. -/
def Memo.recorder : Memo (List Note) where
  lookup _ notes := (none, notes)
  store c v reads volatile notes := notes ++ [⟨c, v, reads, volatile⟩]

/-- Unless it is volatile, the note tells of a formula cell that is settled within the limit on
depth, and of what the formula reads. -/
def Note.Settles (g : Grid) (options : Options) (note : Note) : Prop :=
  note.volatile = false → options.cache ∧ g.HoldsFormula note.cell ∧
    g.settled options.pipeline options.maxDepth note.cell = .yields note.value note.reads

/-- What a context may be asked for. -/
inductive Request where
  | evaluate (content : String)
  | evaluateCell (c : Cell)
  | display (content : String)
  | displayCell (c : Cell)

namespace Context

/-- The state that a request leaves. -/
def after {σ : Type} (ctx : Context σ) (s : σ) : Request → σ
  | .evaluate content => (ctx.evaluate content s).2.2
  | .evaluateCell c => (ctx.evaluateCell c s).2.2
  | .display content => (ctx.display content s).2.2
  | .displayCell c => (ctx.displayCell c s).2.2

/-- A request keeps what the formulas of cells keep. -/
theorem preserves_after {σ : Type} {ctx : Context σ} {I : σ → Prop}
    (hroot : ∀ c, ctx.grid.HoldsFormula c → Run.Preserves I (ctx.rootCell c)) {s : σ} (hs : I s)
    (request : Request) : I (ctx.after s request) := by
  cases request with
  | evaluate content => exact preserves_evaluate hroot content s hs
  | evaluateCell c => exact preserves_evaluateCell hroot c s hs
  | display content =>
    have hdisplay : Run.Preserves I (ctx.display content) := by
      unfold display
      split
      · exact (preserves_evaluate hroot content).bind fun v => Run.preserves_pure _
      · exact Run.preserves_pure _
    exact hdisplay s hs
  | displayCell c => exact preserves_displayCell hroot c s hs

/-- The context that has all it tells its memory recorded. -/
def recording (g : Grid) (options : Options) (links : LinkSource) : Context (List Note) where
  grid := g
  links := links
  options := options
  memo := Memo.recorder

theorem servesNothing_recording (g : Grid) (options : Options) (links : LinkSource) :
    (recording g options links).activeMemo.ServesNothing := by
  intro c s
  unfold activeMemo
  split <;> rfl

theorem settles_formulaCell {g : Grid} {options : Options} (links : LinkSource) {n : Nat}
    (hn : n ≤ options.maxDepth) {c : Cell} (hc : g.HoldsFormula c) (path : List Cell) :
    Run.Preserves (fun notes : List Note => ∀ note ∈ notes, note.Settles g options)
      ((recording g options links).formulaCell n path c) := by
  induction n generalizing c path with
  | zero =>
    rw [formulaCell, rememberedOr_of_serves (servesNothing_recording g options links)]
    exact fun _ hs => hs
  | succ n ih =>
    intro s hs
    rw [formulaCell_succ, rememberedOr_of_serves (servesNothing_recording g options links)]
    split
    · exact hs
    · have hnotes : ∀ note ∈ ((g.plan options.pipeline c).run
          (g.host links ((recording g options links).formulaCell n (c :: path))) s).2.2,
          note.Settles g options :=
        Plan.preserves_run (I := fun notes : List Note => ∀ note ∈ notes, note.Settles g options)
          (fun d hd => ih (by omega) hd (c :: path)) _ s hs
      have hsettles := Plan.run_settles links
        (formulaCell_settles (servesNothing_recording g options links) n (c :: path))
        (g.plan options.pipeline c) s
      unfold visit
      show ∀ note ∈ (recording g options links).activeMemo.store _ _ _ _ _, note.Settles g options
      unfold activeMemo
      split
      · rename_i hcache
        refine List.forall_mem_append.2 ⟨hnotes, List.forall_mem_singleton.2 fun hv => ?_⟩
        refine ⟨hcache, hc, Grid.settled_mono hn ?_⟩
        exact (Grid.settled_succ _ _ n c).trans (hsettles hv)
      · exact hnotes

/-- Whatever a memory is told of a cell as not volatile in the course of a request, it is told
again, and at last, when that cell is evaluated alone with any links, and that is the value of
the cell then. -/
theorem evaluateCell_of_note (g : Grid) (options : Options) (links links' : LinkSource)
    (request : Request) (note : Note)
    (hnote : note ∈ (recording g options links).after [] request) (hv : note.volatile = false) :
    ((recording g options links').evaluateCell note.cell []).1 = note.value ∧
      ∃ notes, ((recording g options links').evaluateCell note.cell []).2.2 = notes ++ [note] := by
  have hnotes : ∀ note ∈ (recording g options links).after [] request, note.Settles g options :=
    preserves_after (I := fun notes : List Note => ∀ note ∈ notes, note.Settles g options)
      (fun c hc => settles_formulaCell links (Nat.le_refl _) hc []) (List.forall_mem_nil _) request
  obtain ⟨hcache, hformula, hsettled⟩ := hnotes note hnote hv
  have hformula' : (recording g options links').grid.HoldsFormula note.cell := hformula
  obtain ⟨hyields, notes, hlast⟩ := formulaCell_of_serves (s := [])
    (servesNothing_recording g options links') Grid.below_nil (Nat.le_refl options.maxDepth)
    hsettled
  rw [evaluateCell_of_formula hformula']
  refine ⟨hyields.value, notes, hlast.trans ?_⟩
  simp only [activeMemo, recording, hcache, if_true, Memo.recorder, ← hv]

/-- The value of a cell that was come to inside a cycle, but is no part of it. -/
theorem evaluateCell_of_note_insideCycle :
    let g := Grid.column ["=A3+A2", "=A1", "=1+1"]
    let note : Note := ⟨.a3, .number 2.0, [], false⟩
    note ∈ (recording g {} LinkSource.none).after [] (.evaluateCell .a1) ∧
      note.volatile = false ∧
      ((recording g {} LinkSource.none).evaluateCell .a3 []).1 = .number 2.0 := by
  have hnote : (⟨.a3, .number 2.0, [], false⟩ : Note) ∈
      (recording (Grid.column ["=A3+A2", "=A1", "=1+1"]) {} LinkSource.none).after []
        (.evaluateCell .a1) := by decide +kernel
  exact ⟨hnote, rfl, (evaluateCell_of_note _ {} LinkSource.none LinkSource.none (.evaluateCell .a1)
    _ hnote rfl).1⟩

end Context

end Spreadsheet
