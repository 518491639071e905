import Mathlib.Data.Nat.Find
import Spreadsheet.Proofs.Values
/-!
# Settled values

A formula cell is settled if its value rests on the contents of cells alone: no
link is asked for on the way, and no chain of references comes back on itself.
`Grid.settled` computes such values to a limited height and knows of no path, no
depth and no memory. Evaluation without a memory yields the settled value of a
cell unless it meets the limit on depth, `formulaCell_of_settled`.
-/

namespace Spreadsheet

/-- What a computation comes to that has no state and must meet nothing volatile. -/
inductive Steady (α : Type) : Type where
  /-- Something volatile is met. -/
  | stops
  /-- The result, and the cells it was read from. -/
  | yields (a : α) (reads : List Cell)

namespace Steady
variable {α β : Type}

def bind (x : Steady α) (f : α → Steady β) : Steady β :=
  match x with
  | stops => stops
  | yields a reads =>
    match f a with
    | stops => stops
    | yields b more => yields b (reads ++ more)

instance : Monad Steady where
  pure a := yields a []
  bind := bind

theorem bind_eq_yields_iff {x : Steady α} {f : α → Steady β} {b : β} {reads : List Cell} :
    x >>= f = yields b reads ↔
      ∃ a r₁ r₂, x = yields a r₁ ∧ f a = yields b r₂ ∧ reads = r₁ ++ r₂ := by
  show bind x f = _ ↔ _
  rcases x with _ | ⟨a, r₁⟩
  · simp [bind]
  · rcases hf : f a with _ | ⟨b', r₂⟩ <;> simp [bind, hf]
    grind

theorem bind_pure (x : Steady α) : bind x pure = x := by
  rcases x with _ | ⟨a, reads⟩
  · rfl
  · show yields a (reads ++ []) = yields a reads
    rw [List.append_nil]

theorem pure_bind (a : α) (f : α → Steady β) : bind (pure a) f = f a := by
  show bind (yields a []) f = f a
  rcases h : f a with _ | ⟨b, reads⟩ <;> simp [bind, h]

theorem bind_assoc {γ : Type} (x : Steady α) (f : α → Steady β) (g : β → Steady γ) :
    bind (bind x f) g = bind x fun a => bind (f a) g := by
  rcases x with _ | ⟨a, r₁⟩
  · rfl
  · rcases h : f a with _ | ⟨b, r₂⟩
    · simp [bind, h]
    · rcases h' : g b with _ | ⟨c, r₃⟩ <;> simp [bind, h, h']

instance : LawfulMonad Steady := LawfulMonad.mk' Steady bind_pure pure_bind bind_assoc

/-- Failures do no harm, but links are volatile. -/
instance : Observer Steady where
  report _ := yields () []
  read c := yields () [c]
  resolve _ := stops

/-- The same result, read from other cells. -/
def readFrom (reads : List Cell) : Steady α → Steady α
  | stops => stops
  | yields a _ => yields a reads

theorem readFrom_eq_yields_iff {x : Steady α} {a : α} {reads r : List Cell} :
    x.readFrom reads = yields a r ↔ r = reads ∧ ∃ r', x = yields a r' := by
  cases x <;> grind [readFrom]

end Steady

namespace Grid
variable (g : Grid) (p : Pipeline)

/-- The plan of evaluating the formula of a cell. -/
def plan (c : Cell) : Plan Value := Plan.host.evaluateFormula p (g.content c).toList

/-- The value of the formula of a cell and what that formula reads, if it rests on the contents
of cells alone, over chains of fewer than `height` formula cells. -/
def settled : (height : Nat) → Cell → Steady Value
  | 0, _ => .stops
  | height + 1, c =>
    (g.host LinkSource.none fun d => (settled height d).readFrom []).evaluateFormula p
      (g.content c).toList

/-- The host that knows the settled values up to a height. -/
def settledHost (height : Nat) : Host Steady :=
  g.host LinkSource.none fun d => (g.settled p height d).readFrom []

theorem settled_succ (height : Nat) (c : Cell) :
    g.settled p (height + 1) c = (g.plan p c).run (g.settledHost p height) :=
  (Plan.run_evaluateFormula _ _ _).symm

variable {g p}

theorem resolve_settledHost (height : Nat) (batch : List Link) :
    (g.settledHost p height).resolve batch = .stops := rfl

theorem reference_settledHost_of_formula {height : Nat} {c : Cell} (h : g.HoldsFormula c) :
    (g.settledHost p height).reference c = (g.settled p height c).readFrom [c] := by
  simp only [settledHost, host]
  rw [reference_of_formula h]
  rcases hs : g.settled p height c with _ | ⟨v, reads⟩
  · rfl
  · cases he : v.isError <;>
      simp [bind, Steady.bind, Steady.readFrom, he, Observer.read, Reporter.report, pure]

theorem reference_settledHost_of_not_formula {height : Nat} {c : Cell} (h : ¬ g.HoldsFormula c) :
    (g.settledHost p height).reference c =
      .yields (g.literalValue c) (if g.contains c then [c] else []) := by
  simp only [settledHost, host]
  rw [reference_of_not_formula h]
  by_cases hc : g.contains c <;> cases hl : g.literal c <;>
    simp [bind, Steady.bind, hc, hl, Observer.read, Evaluation.passOn, Evaluation.fail,
      Reporter.report, pure, literalValue]

end Grid

namespace Plan
variable {α : Type} {g : Grid} {p : Pipeline} {k : Nat} {a : α} {reads : List Cell}

theorem run_report_settledHost_iff {f : Failure} {next : Plan α} :
    (report f next).run (g.settledHost p k) = .yields a reads ↔
      next.run (g.settledHost p k) = .yields a reads := by
  refine Steady.bind_eq_yields_iff.trans ⟨?_, fun h => ⟨(), [], reads, rfl, h, rfl⟩⟩
  rintro ⟨_, _, _, hr, h, rfl⟩
  cases hr
  exact h

theorem run_ask_settledHost_iff {c : Cell} (hc : g.HoldsFormula c) {next : Value → Plan α} :
    (ask c next).run (g.settledHost p k) = .yields a reads ↔
      ∃ v r r', g.settled p k c = .yields v r ∧ (next v).run (g.settledHost p k) = .yields a r' ∧
        reads = c :: r' := by
  refine Steady.bind_eq_yields_iff.trans ?_
  rw [Grid.reference_settledHost_of_formula hc]
  constructor
  · rintro ⟨v, _, r', hr, h, rfl⟩
    obtain ⟨rfl, r, hr⟩ := Steady.readFrom_eq_yields_iff.1 hr
    exact ⟨v, r, r', hr, h, rfl⟩
  · rintro ⟨v, r, r', hr, h, rfl⟩
    exact ⟨v, [c], r', Steady.readFrom_eq_yields_iff.2 ⟨rfl, r, hr⟩, h, rfl⟩

theorem run_ask_literal_settledHost_iff {c : Cell} (hc : ¬ g.HoldsFormula c)
    {next : Value → Plan α} :
    (ask c next).run (g.settledHost p k) = .yields a reads ↔
      ∃ r, (next (g.literalValue c)).run (g.settledHost p k) = .yields a r ∧
        reads = (if g.contains c then [c] else []) ++ r := by
  refine Steady.bind_eq_yields_iff.trans ?_
  rw [Grid.reference_settledHost_of_not_formula hc]
  constructor
  · rintro ⟨_, _, r, hr, h, rfl⟩
    cases hr
    exact ⟨r, h, rfl⟩
  · rintro ⟨r, h, rfl⟩
    exact ⟨_, _, r, rfl, h, rfl⟩

end Plan

/-! ## Greater heights settle more -/

/-- A plan ends the same way with a host that has the same answers where the plan reads cells
of `P`, if it reads no others. -/
theorem Plan.run_mono {α : Type} {h h' : Host Steady} {P : Cell → Prop}
    (hresolve : ∀ batch, h.resolve batch = .stops)
    (href : ∀ c v r, h.reference c = .yields v r → (∀ d ∈ r, P d) → h'.reference c = .yields v r)
    {q : Plan α} {a : α} {reads : List Cell} (hq : q.run h = .yields a reads)
    (hreads : ∀ d ∈ reads, P d) : q.run h' = .yields a reads := by
  induction q generalizing reads with
  | done a => exact hq
  | report f next ih =>
    obtain ⟨u, r₁, r₂, hr, hn, rfl⟩ := Steady.bind_eq_yields_iff.1 hq
    have hreads₂ := fun d hd => hreads d (List.mem_append_right r₁ hd)
    exact Steady.bind_eq_yields_iff.2 ⟨u, r₁, r₂, hr, ih hn hreads₂, rfl⟩
  | resolve batch next ih =>
    obtain ⟨_, _, _, hr, _, _⟩ := Steady.bind_eq_yields_iff.1 hq
    rw [hresolve] at hr
    cases hr
  | ask c next ih =>
    obtain ⟨v, r₁, r₂, hr, hn, rfl⟩ := Steady.bind_eq_yields_iff.1 hq
    have hreads₁ := fun d hd => hreads d (List.mem_append_left r₂ hd)
    have hreads₂ := fun d hd => hreads d (List.mem_append_right r₁ hd)
    exact Steady.bind_eq_yields_iff.2 ⟨v, r₁, r₂, href c v r₁ hr hreads₁, ih v hn hreads₂, rfl⟩

namespace Grid
variable {g : Grid} {p : Pipeline} {k l : Nat} {c : Cell} {v : Value} {reads : List Cell}

theorem settledHost_mono_of
    (h : ∀ c v r, g.settled p k c = .yields v r → g.settled p l c = .yields v r)
    (hc : (g.settledHost p k).reference c = .yields v reads) :
    (g.settledHost p l).reference c = .yields v reads := by
  by_cases hf : g.HoldsFormula c
  · rw [reference_settledHost_of_formula hf, Steady.readFrom_eq_yields_iff] at hc ⊢
    obtain ⟨hreads, r, hr⟩ := hc
    exact ⟨hreads, r, h c v r hr⟩
  · rwa [reference_settledHost_of_not_formula hf] at hc ⊢

theorem settled_step (h : g.settled p k c = .yields v reads) :
    g.settled p (k + 1) c = .yields v reads := by
  induction k generalizing c v reads with
  | zero => cases h
  | succ k ih =>
    rw [settled_succ] at h ⊢
    exact Plan.run_mono (P := fun _ => True) (resolve_settledHost k)
      (fun _ _ _ hr _ => settledHost_mono_of (fun _ _ _ => ih) hr) h fun _ _ => trivial

theorem settled_mono (hkl : k ≤ l) (h : g.settled p k c = .yields v reads) :
    g.settled p l c = .yields v reads := by
  induction hkl with
  | refl => exact h
  | step _ ih => exact settled_step ih

/-- A cell settles in one way only. -/
theorem settled_unique {w : Value} {reads' : List Cell} (hv : g.settled p k c = .yields v reads)
    (hw : g.settled p l c = .yields w reads') : v = w ∧ reads = reads' := by
  have hv := settled_mono (Nat.le_max_left k l) hv
  have hw := settled_mono (Nat.le_max_right k l) hw
  rw [hv] at hw
  cases hw
  exact ⟨rfl, rfl⟩

theorem settledHost_mono (hkl : k ≤ l) (h : (g.settledHost p k).reference c = .yields v reads) :
    (g.settledHost p l).reference c = .yields v reads :=
  settledHost_mono_of (fun _ _ _ => settled_mono hkl) h

theorem run_settledHost_mono {α : Type} {q : Plan α} {a : α} (hkl : k ≤ l)
    (h : q.run (g.settledHost p k) = .yields a reads) :
    q.run (g.settledHost p l) = .yields a reads :=
  Plan.run_mono (P := fun _ => True) (resolve_settledHost k)
    (fun _ _ _ hr _ => settledHost_mono hkl hr) h fun _ _ => trivial

end Grid

/-! ## Where a cell settles first -/

namespace Grid

/-- The cell is settled up to the height. -/
def SettlesAt (g : Grid) (p : Pipeline) (k : Nat) (c : Cell) : Prop :=
  ∃ v reads, g.settled p k c = .yields v reads

/-- The cell settles one above the height, and not before. -/
def SettlesFirst (g : Grid) (p : Pipeline) (k : Nat) (c : Cell) : Prop :=
  g.SettlesAt p (k + 1) c ∧ ∀ l, g.SettlesAt p l c → k < l

/-- Each cell of the path that settles at all does so later than `c`. So `c` is reached on the
way to them, and they are not reached on the way to `c`. -/
def Below (g : Grid) (p : Pipeline) (path : List Cell) (c : Cell) : Prop :=
  ∀ d ∈ path, ∀ k, g.SettlesAt p k d → ∃ l < k, g.SettlesAt p l c

variable {g : Grid} {p : Pipeline} {k l : Nat} {path : List Cell} {c d : Cell}

theorem exists_settlesFirst (h : g.SettlesAt p k c) : ∃ l, g.SettlesFirst p l c := by
  classical
  have hex : ∃ k, g.SettlesAt p k c := ⟨k, h⟩
  cases hl : Nat.find hex with
  | zero =>
    obtain ⟨v, reads, h0⟩ := hl ▸ Nat.find_spec hex
    cases h0
  | succ l =>
    refine ⟨l, hl ▸ Nat.find_spec hex, ?_⟩
    intro m hm
    have := Nat.find_min' hex hm
    omega

theorem SettlesFirst.unique (hk : g.SettlesFirst p k c) (hl : g.SettlesFirst p l c) : k = l := by
  have := hk.2 _ hl.1
  have := hl.2 _ hk.1
  omega

theorem below_nil : g.Below p [] c := fun _ h => nomatch h

theorem Below.not_mem (hb : g.Below p path c) (h : g.SettlesAt p k c) : c ∉ path := by
  intro hc
  obtain ⟨l, hfirst⟩ := exists_settlesFirst h
  obtain ⟨m, hm, hs⟩ := hb c hc _ hfirst.1
  have := hfirst.2 m hs
  omega

/-- What a cell has to wait for is below it, and below what waits for it. -/
theorem Below.cons (hb : g.Below p path c) (h : ∀ k, g.SettlesFirst p k c → g.SettlesAt p k d) :
    g.Below p (c :: path) d := by
  intro x hx k hk
  rcases List.mem_cons.1 hx with rfl | hx
  · obtain ⟨l, hl⟩ := exists_settlesFirst hk
    exact ⟨l, hl.2 k hk, h l hl⟩
  · obtain ⟨m, hm, hc⟩ := hb x hx k hk
    obtain ⟨l, hl⟩ := exists_settlesFirst hc
    exact ⟨l, Nat.lt_trans (hl.2 m hc) hm, h l hl⟩

end Grid

/-! ## Evaluation without a memory -/

/-- The limit on the length of chains of formula cells was not met. -/
def Trace.Shallow (t : Trace) : Prop := ∀ c, .reported (.chainTooDeep c) ∉ t.events

/-- The limit on the length of chains of formula cells was met here. -/
def Event.meetsLimit : Event → Bool
  | .reported (.chainTooDeep _) => true
  | _ => false

theorem Trace.shallow_iff {t : Trace} : t.Shallow ↔ ∀ e ∈ t.events, e.meetsLimit = false := by
  constructor
  · intro h e he
    unfold Event.meetsLimit
    split
    · exact absurd he (h _)
    · rfl
  · intro h c hc
    exact Bool.noConfusion (h _ hc)

instance (t : Trace) : Decidable t.Shallow := decidable_of_iff _ Trace.shallow_iff.symm

theorem Trace.shallow_append {t u : Trace} : (t ++ u).Shallow ↔ t.Shallow ∧ u.Shallow := by
  simp only [Shallow, append_def, List.mem_append, not_or]
  exact forall_and

theorem Grid.shallow_passTrace {c : Cell} {v : Value} {t : Trace} :
    (passTrace c v t).Shallow ↔ t.Shallow := by
  simp only [Trace.Shallow, passTrace, List.mem_append, not_or]
  refine forall_congr' fun d => and_iff_left ?_
  split <;> simp

section
variable {σ : Type} {g : Grid} {p : Pipeline}

/-- A plan ends in a run as it does with settled values alone, if the formula cells among those
that it reads have those values in the run, as long as the state keeps an invariant. -/
theorem Plan.run_of_settled {α : Type} (links : LinkSource) {formula : Cell → Run σ Value} {k : Nat}
    {I : σ → Prop} {P : Cell → Prop}
    (hformula : ∀ d s v reads, P d → I s → g.settled p k d = .yields v reads →
      (formula d s).2.1.Shallow → (formula d s).1 = v ∧ I (formula d s).2.2)
    {q : Plan α} {s : σ} {a : α} {reads : List Cell} (hs : I s)
    (hreads : ∀ d ∈ reads, g.HoldsFormula d → P d)
    (hq : q.run (g.settledHost p k) = .yields a reads)
    (hshallow : (q.run (g.host links formula) s).2.1.Shallow) :
    (q.run (g.host links formula) s).1 = a ∧ I (q.run (g.host links formula) s).2.2 := by
  induction q generalizing s reads with
  | done b =>
    cases hq
    exact ⟨rfl, hs⟩
  | report f next ih =>
    rw [run_report_apply] at hshallow ⊢
    exact ih hs hreads (run_report_settledHost_iff.1 hq) (Trace.shallow_append.1 hshallow).2
  | resolve batch next ih => cases hq
  | ask c next ih =>
    by_cases hc : g.HoldsFormula c
    · obtain ⟨v, r, r', hr, hn, rfl⟩ := (run_ask_settledHost_iff hc).1 hq
      rw [run_ask_of_formula hc] at hshallow ⊢
      obtain ⟨hsh, hsh'⟩ := Trace.shallow_append.1 hshallow
      obtain ⟨hc', hrest⟩ := List.forall_mem_cons.1 hreads
      obtain ⟨rfl, hs'⟩ := hformula c s v r (hc' hc) hs hr (Grid.shallow_passTrace.1 hsh)
      exact ih _ hs' hrest hn hsh'
    · obtain ⟨r, hn, rfl⟩ := (run_ask_literal_settledHost_iff hc).1 hq
      rw [run_ask_of_not_formula hc] at hshallow ⊢
      exact ih _ hs (fun d hd => hreads d (List.mem_append_right _ hd)) hn
        (Trace.shallow_append.1 hshallow).2

end

namespace Context
variable {σ : Type} {ctx : Context σ}

theorem formulaCell_succ (n : Nat) (path : List Cell) (c : Cell) :
    ctx.formulaCell (n + 1) path c = ctx.rememberedOr c
      (if c ∈ path then breakOff (.circular c)
      else ctx.visit c ((ctx.grid.plan ctx.options.pipeline c).run
        (ctx.grid.host ctx.links (ctx.formulaCell n (c :: path))))) := by
  rw [formulaCell, Grid.plan, Plan.run_evaluateFormula]

/-- What a visit leaves behind is what its run does, in between the marks of the visit. -/
theorem shallow_visit {c : Cell} {run : Run σ Value} {s : σ}
    (h : (ctx.visit c run s).2.1.Shallow) : (run s).2.1.Shallow := by
  intro d hd
  exact h d (List.mem_append_left _ (List.mem_cons_of_mem _ hd))

/-- Without a memory, a settled cell that is below the path has its settled value. -/
theorem formulaCell_of_settled (hoff : ctx.activeMemo = Memo.off) {n k : Nat} {path : List Cell}
    {c : Cell} {s : σ} {v : Value} {reads : List Cell}
    (hb : ctx.grid.Below ctx.options.pipeline path c)
    (hshallow : (ctx.formulaCell n path c s).2.1.Shallow)
    (hv : ctx.grid.settled ctx.options.pipeline k c = .yields v reads) :
    (ctx.formulaCell n path c s).1 = v := by
  induction n generalizing k path c s v reads with
  | zero =>
    -- A cell below the path closes no cycle, so here the limit is met.
    simp only [formulaCell, rememberedOr_off hoff, if_neg (hb.not_mem ⟨v, reads, hv⟩)] at hshallow
    exact absurd List.mem_cons_self (hshallow c)
  | succ n ih =>
    obtain ⟨l, hl⟩ := Grid.exists_settlesFirst ⟨v, reads, hv⟩
    obtain ⟨w, r, hw⟩ := hl.1
    obtain ⟨rfl, rfl⟩ := Grid.settled_unique hv hw
    rw [formulaCell_succ, rememberedOr_off hoff, if_neg (hb.not_mem hl.1)] at hshallow ⊢
    have hrun := Plan.run_of_settled (I := fun _ => True) (P := fun _ => True) ctx.links
      (fun d s v reads _ _ hd hs => ⟨?_, trivial⟩) trivial (fun _ _ _ => trivial)
      ((Grid.settled_succ _ _ _ _).symm.trans hw) (shallow_visit hshallow)
    · exact hrun.1
    -- What the formula asks for has settled before `c`.
    · exact ih (hb.cons fun m hm => hl.unique hm ▸ ⟨v, reads, hd⟩) hs hd

end Context

end Spreadsheet
