import Spreadsheet.Proofs.Settled
/-!
# What a memory may keep

A memory is faithful if it answers with settled values as long as it is given
such. Evaluation only gives it such: `formulaCell_keeps`. And evaluation with a
faithful memory comes to the same values as without one, unless the evaluation
without it meets the limit on depth: `formulaCell_eq_fresh`.
-/

namespace Spreadsheet

/-- How the states of a memory are seen: when it has kept to settled values so far, and for
which cells it remembers a value and for which it does not. -/
structure Memo.View (σ : Type) where
  Inv : σ → Prop
  Kept : σ → Cell → Prop
  Open : σ → Cell → Prop

/-- The memory goes over to a state in which it still keeps to settled values. It remembers as
much as before, and nothing for those of the given cells for which it remembered nothing. -/
structure Memo.View.Step {σ : Type} (V : Memo.View σ) (cells : Cell → Prop) (s s' : σ) : Prop where
  inv : V.Inv s'
  kept : ∀ d, V.Kept s d → V.Kept s' d
  still : ∀ d, cells d → V.Open s d → V.Open s' d

theorem Memo.View.Step.trans {σ : Type} {V : Memo.View σ} {cells : Cell → Prop} {s s' s'' : σ}
    (h : V.Step cells s s') (h' : V.Step cells s' s'') : V.Step cells s s'' where
  inv := h'.inv
  kept d hd := h'.kept d (h.kept d hd)
  still d hd ho := h'.still d hd (h.still d hd ho)

theorem Memo.View.Step.mono {σ : Type} {V : Memo.View σ} {cells cells' : Cell → Prop} {s s' : σ}
    (h : V.Step cells s s') (hc : ∀ d, cells' d → cells d) : V.Step cells' s s' where
  inv := h.inv
  kept := h.kept
  still d hd := h.still d (hc d hd)

/-- The memory answers with settled values as long as only settled values are stored as not
volatile, after the values of the formulas they were read from. -/
structure Memo.Faithful {σ : Type} (memo : Memo σ) (g : Grid) (p : Pipeline)
    (V : Memo.View σ) : Prop where
  lookup_some {c s v s'} : V.Inv s → memo.lookup c s = (some v, s') →
    V.Step (fun _ => True) s s' ∧ V.Kept s' c ∧ ∃ k reads, g.settled p k c = .yields v reads
  lookup_none {c s s'} : V.Inv s → memo.lookup c s = (none, s') →
    V.Step (fun _ => True) s s' ∧ V.Open s' c
  store_volatile {c v reads s} : V.Inv s → V.Open s c →
    V.Step (fun _ => True) s (memo.store c v reads true s)
  store_settled {c v reads s k} : V.Inv s → V.Open s c → g.settled p k c = .yields v reads →
    (∀ d ∈ reads, g.HoldsFormula d → V.Kept s d) →
    V.Step (· ≠ c) s (memo.store c v reads false s) ∧ V.Kept (memo.store c v reads false s) c

section
variable {σ : Type} {g : Grid} {p : Pipeline} {V : Memo.View σ}

/-- The view in which a further property of the states belongs to what the memory keeps to. -/
def Memo.View.and (V : Memo.View σ) (J : σ → Prop) : Memo.View σ :=
  { V with Inv := fun s => V.Inv s ∧ J s }

theorem Memo.View.Step.and {J : σ → Prop} {cells : Cell → Prop} {s s' : σ} (h : V.Step cells s s')
    (hs' : J s') : (V.and J).Step cells s s' where
  inv := ⟨h.inv, hs'⟩
  kept := h.kept
  still := h.still

theorem Memo.Faithful.and {memo : Memo σ} {J : σ → Prop} (h : memo.Faithful g p V)
    (hlookup : ∀ c s, J s → J (memo.lookup c s).2)
    (hvolatile : ∀ c v reads s, V.Open s c → J s → J (memo.store c v reads true s))
    (hsettled : ∀ c v reads s k, J s → g.settled p k c = .yields v reads →
      J (memo.store c v reads false s)) :
    memo.Faithful g p (V.and J) where
  lookup_some {c s v s'} hs hl := by
    obtain ⟨hstep, hkept, hv⟩ := h.lookup_some hs.1 hl
    have hs' : J s' := by simpa only [hl] using hlookup c s hs.2
    exact ⟨hstep.and hs', hkept, hv⟩
  lookup_none {c s s'} hs hl := by
    obtain ⟨hstep, hopen⟩ := h.lookup_none hs.1 hl
    have hs' : J s' := by simpa only [hl] using hlookup c s hs.2
    exact ⟨hstep.and hs', hopen⟩
  store_volatile {c v reads s} hs hc :=
    (h.store_volatile hs.1 hc).and (hvolatile c v reads s hc hs.2)
  store_settled {c v reads s k} hs hc hk hreads := by
    obtain ⟨hstep, hkept⟩ := h.store_settled hs.1 hc hk hreads
    exact ⟨hstep.and (hsettled c v reads s k hs.2 hk), hkept⟩

/-- What a formula cell comes to is remembered and settled unless it is volatile. -/
def Memo.View.Keeps (V : Memo.View σ) (g : Grid) (p : Pipeline) (path : List Cell) (c : Cell)
    (s : σ) (r : Value × Trace × σ) : Prop :=
  V.Step (· ∈ path) s r.2.2 ∧ r.2.1.reads = [] ∧
    (r.2.1.volatile = false → V.Kept r.2.2 c ∧ ∃ k reads, g.settled p k c = .yields r.1 reads)

theorem Plan.run_keeps {α : Type} (links : LinkSource) {path : List Cell}
    {formula : Cell → Run σ Value}
    (hformula : ∀ c s, g.HoldsFormula c → V.Inv s → (∀ d ∈ path, V.Open s d) →
      V.Keeps g p path c s (formula c s))
    (q : Plan α) (s : σ) (hs : V.Inv s) (hpath : ∀ d ∈ path, V.Open s d) :
    let r := q.run (g.host links formula) s
    V.Step (· ∈ path) s r.2.2 ∧ (r.2.1.volatile = false →
      (∃ k, q.run (g.settledHost p k) = .yields r.1 r.2.1.reads) ∧
        ∀ d ∈ r.2.1.reads, g.HoldsFormula d → V.Kept r.2.2 d) := by
  induction q generalizing s with
  | done a =>
    exact ⟨⟨hs, fun _ h => h, fun _ _ h => h⟩, fun _ => ⟨⟨0, rfl⟩, fun _ h => nomatch h⟩⟩
  | report f next ih =>
    obtain ⟨hstep, hkeeps⟩ := ih s hs hpath
    rw [run_report_apply]
    refine ⟨hstep, ?_⟩
    intro hv
    obtain ⟨⟨k, hk⟩, hkept⟩ := hkeeps hv
    exact ⟨⟨k, run_report_settledHost_iff.2 hk⟩, hkept⟩
  | resolve batch next ih =>
    rw [run_resolve_apply]
    -- Links are volatile.
    exact ⟨(ih _ s hs hpath).1, fun hv => nomatch hv⟩
  | ask c next ih =>
    by_cases hc : g.HoldsFormula c
    · obtain ⟨hstep, hreads, hsettled⟩ := hformula c s hc hs hpath
      rw [run_ask_of_formula hc]
      obtain ⟨hstep', hkeeps⟩ := ih (formula c s).1 (formula c s).2.2 hstep.inv
        fun d hd => hstep.still d hd (hpath d hd)
      refine ⟨hstep.trans hstep', ?_⟩
      intro hv
      simp only [Trace.append_def, Grid.passTrace, Bool.or_eq_false_iff] at hv
      obtain ⟨hkept, k, reads, hk⟩ := hsettled hv.1
      obtain ⟨⟨l, hl⟩, hkept'⟩ := hkeeps hv.2
      simp only [Trace.append_def, Grid.passTrace, hreads, List.cons_append, List.nil_append]
      refine ⟨⟨max k l, (run_ask_settledHost_iff hc).2 ⟨_, _, _,
        Grid.settled_mono (Nat.le_max_left k l) hk,
        Grid.run_settledHost_mono (Nat.le_max_right k l) hl, rfl⟩⟩, fun d hd hf => ?_⟩
      rcases List.mem_cons.1 hd with rfl | hd
      · exact hstep'.kept d hkept
      · exact hkept' d hd hf
    · rw [run_ask_of_not_formula hc]
      obtain ⟨hstep, hkeeps⟩ := ih (g.literalValue c) s hs hpath
      refine ⟨hstep, ?_⟩
      intro hv
      obtain ⟨⟨k, hk⟩, hkept⟩ := hkeeps hv
      refine ⟨⟨k, (run_ask_literal_settledHost_iff hc).2 ⟨_, hk, rfl⟩⟩, ?_⟩
      intro d hd hf
      rcases List.mem_append.1 hd with hd | hd
      · simp only [Grid.literalTrace] at hd
        split at hd
        · cases List.mem_singleton.1 hd
          exact absurd hf hc
        · cases hd
      · exact hkept d hd hf

end

namespace Context
variable {σ : Type} {ctx : Context σ} {V : Memo.View σ}

theorem rememberedOr_keeps
    (hm : ctx.activeMemo.Faithful ctx.grid ctx.options.pipeline V) {path : List Cell} {c : Cell}
    {run : Run σ Value} {s : σ} (hs : V.Inv s) (hpath : ∀ d ∈ path, V.Open s d)
    (hrun : ∀ s, V.Inv s → V.Open s c → (∀ d ∈ path, V.Open s d) →
      V.Keeps ctx.grid ctx.options.pipeline path c s (run s)) :
    V.Keeps ctx.grid ctx.options.pipeline path c s (ctx.rememberedOr c run s) := by
  rcases hl : ctx.activeMemo.lookup c s with ⟨_ | v, s'⟩
  · obtain ⟨hstep, hopen⟩ := hm.lookup_none hs hl
    obtain ⟨hstep', hreads, hkeeps⟩ := hrun s' hstep.inv hopen
      fun d hd => hstep.still d trivial (hpath d hd)
    simp only [rememberedOr, hl]
    exact ⟨(hstep.mono fun _ _ => trivial).trans hstep', hreads, hkeeps⟩
  · obtain ⟨hstep, hkept, hsettled⟩ := hm.lookup_some hs hl
    simp only [rememberedOr, hl]
    exact ⟨hstep.mono fun _ _ => trivial, rfl, fun _ => ⟨hkept, hsettled⟩⟩

theorem breakOff_keeps {path : List Cell} {c : Cell} {f : Failure} {s : σ} (hs : V.Inv s) :
    V.Keeps ctx.grid ctx.options.pipeline path c s (breakOff f s) :=
  ⟨⟨hs, fun _ h => h, fun _ _ h => h⟩, rfl, fun h => nomatch h⟩

/-- Whatever has been remembered so far is settled, and so is what the evaluation of a formula
cell adds to it. -/
theorem formulaCell_keeps (hm : ctx.activeMemo.Faithful ctx.grid ctx.options.pipeline V) (n : Nat)
    (path : List Cell) (c : Cell) (s : σ) (hs : V.Inv s)
    (hpath : ∀ d ∈ path, V.Open s d) :
    V.Keeps ctx.grid ctx.options.pipeline path c s (ctx.formulaCell n path c s) := by
  induction n generalizing path c s with
  | zero => exact rememberedOr_keeps hm hs hpath fun s hs _ _ => breakOff_keeps hs
  | succ n ih =>
    rw [formulaCell_succ]
    apply rememberedOr_keeps hm hs hpath
    intro s hs hc hpath
    split
    · exact breakOff_keeps hs
    · rename_i hfresh
      -- While its formula is evaluated, nothing gets remembered for `c` itself.
      have hopen : ∀ d ∈ c :: path, V.Open s d := List.forall_mem_cons.2 ⟨hc, hpath⟩
      obtain ⟨hstep, hkeeps⟩ := Plan.run_keeps ctx.links
        (fun c' s' _ hs' hpath' => ih (c :: path) c' s' hs' hpath')
        (ctx.grid.plan ctx.options.pipeline c) s hs hopen
      unfold visit
      generalize (ctx.grid.plan ctx.options.pipeline c).run
        (ctx.grid.host ctx.links (ctx.formulaCell n (c :: path))) s = r at hstep hkeeps ⊢
      obtain ⟨v, t, s'⟩ := r
      have hopen' : V.Open s' c := hstep.still c List.mem_cons_self hc
      have htail : V.Step (· ∈ path) s s' := hstep.mono fun d hd => List.mem_cons_of_mem c hd
      cases hv : t.volatile with
      | true =>
        have hstore : V.Step (fun _ => True) s' (ctx.activeMemo.store c v t.reads true s') :=
          hm.store_volatile hstep.inv hopen'
        simp only [hv]
        exact ⟨htail.trans (hstore.mono fun _ _ => trivial), rfl, fun h => nomatch h⟩
      | false =>
        obtain ⟨⟨k, hk⟩, hkept⟩ := hkeeps hv
        have hsettled := (ctx.grid.settled_succ ctx.options.pipeline k c).trans hk
        obtain ⟨hstore, hkept'⟩ := hm.store_settled hstep.inv hopen' hsettled hkept
        simp only [hv]
        refine ⟨htail.trans (hstore.mono fun d hd => ?_), rfl,
          fun _ => ⟨hkept', k + 1, t.reads, hsettled⟩⟩
        rintro rfl
        exact hfresh hd

end Context

/-! ## Evaluation with a memory and without -/

/-- A plan ends in the same way with two formula hosts if those agree on the cells that it comes
to. What is settled first above the heights in `P` guides the second run. -/
theorem Plan.run_agree {σ τ α : Type} {g : Grid} {p : Pipeline} {V : Memo.View σ}
    (links : LinkSource) {path : List Cell} {formula : Cell → Run σ Value}
    {formula' : Cell → Run τ Value} {P : Nat → Prop}
    (hkeeps : ∀ d s, V.Inv s → (∀ d ∈ path, V.Open s d) → V.Keeps g p path d s (formula d s))
    (hagree : ∀ d s u, V.Inv s → (∀ d ∈ path, V.Open s d) → (∀ k, P k → g.SettlesAt p k d) →
      (formula' d u).2.1.Shallow → (formula d s).1 = (formula' d u).1)
    (hsettled : ∀ d u k v reads, P k → g.settled p k d = .yields v reads →
      (formula' d u).2.1.Shallow → (formula' d u).1 = v)
    {q : Plan α} {s : σ} {u : τ} (hs : V.Inv s) (hpath : ∀ d ∈ path, V.Open s d)
    (hq : ∀ k, P k → ∃ a reads, q.run (g.settledHost p k) = .yields a reads)
    (hshallow : (q.run (g.host links formula') u).2.1.Shallow) :
    (q.run (g.host links formula) s).1 = (q.run (g.host links formula') u).1 := by
  induction q generalizing s u with
  | done a => rfl
  | report f next ih =>
    rw [run_report_apply] at hshallow ⊢
    refine ih hs hpath (fun k hk => ?_) (Trace.shallow_append.1 hshallow).2
    obtain ⟨a, reads, ha⟩ := hq k hk
    exact ⟨a, reads, run_report_settledHost_iff.1 ha⟩
  | resolve batch next ih =>
    rw [run_resolve_apply] at hshallow ⊢
    refine ih _ hs hpath (fun k hk => ?_) (Trace.shallow_append.1 hshallow).2
    obtain ⟨a, reads, ha⟩ := hq k hk
    cases ha
  | ask c next ih =>
    by_cases hc : g.HoldsFormula c
    · rw [run_ask_of_formula hc] at hshallow ⊢
      rw [run_ask_of_formula hc]
      obtain ⟨hsh, hsh'⟩ := Trace.shallow_append.1 hshallow
      rw [Grid.shallow_passTrace] at hsh
      have hat : ∀ k, P k → g.SettlesAt p k c := by
        intro k hk
        obtain ⟨a, reads, ha⟩ := hq k hk
        obtain ⟨v, r, _, hr, -, -⟩ := (run_ask_settledHost_iff hc).1 ha
        exact ⟨v, r, hr⟩
      obtain ⟨hstep, -, -⟩ := hkeeps c s hs hpath
      simp only [hagree c s u hs hpath hat hsh]
      refine ih _ hstep.inv (fun d hd => hstep.still d hd (hpath d hd)) (fun k hk => ?_) hsh'
      obtain ⟨a, reads, ha⟩ := hq k hk
      obtain ⟨v, r, r', hr, hn, -⟩ := (run_ask_settledHost_iff hc).1 ha
      rw [hsettled c u k v r hk hr hsh]
      exact ⟨a, r', hn⟩
    · rw [run_ask_of_not_formula hc] at hshallow ⊢
      rw [run_ask_of_not_formula hc]
      refine ih _ hs hpath (fun k hk => ?_) (Trace.shallow_append.1 hshallow).2
      obtain ⟨a, reads, ha⟩ := hq k hk
      obtain ⟨r, hn, -⟩ := (run_ask_literal_settledHost_iff hc).1 ha
      exact ⟨a, r, hn⟩

namespace Context
variable {σ : Type} {ctx : Context σ} {V : Memo.View σ}

/-- The same evaluation without a memory. -/
def fresh (ctx : Context σ) : Context Unit := ⟨ctx.grid, ctx.links, ctx.options, Memo.off⟩

theorem activeMemo_fresh : ctx.fresh.activeMemo = Memo.off := by
  unfold activeMemo
  split <;> rfl

/-- What a faithful memory has to do with the value of a formula cell does not show, unless the
evaluation without it meets the limit on depth. -/
theorem formulaCell_eq_fresh (hm : ctx.activeMemo.Faithful ctx.grid ctx.options.pipeline V) (n : Nat)
    {path : List Cell} {c : Cell} {s : σ} {u : Unit} (hs : V.Inv s)
    (hpath : ∀ d ∈ path, V.Open s d) (hb : ctx.grid.Below ctx.options.pipeline path c)
    (hshallow : (ctx.fresh.formulaCell n path c u).2.1.Shallow) :
    (ctx.formulaCell n path c s).1 = (ctx.fresh.formulaCell n path c u).1 := by
  induction n generalizing path c s u with
  | zero =>
    rcases hl : ctx.activeMemo.lookup c s with ⟨_ | v, s'⟩
    · simp only [formulaCell, rememberedOr_off activeMemo_fresh]
      simp only [rememberedOr, hl]
      rfl
    · obtain ⟨-, -, k, reads, hk⟩ := hm.lookup_some hs hl
      rw [formulaCell_of_settled activeMemo_fresh hb hshallow hk, formulaCell_of_lookup hl]
  | succ n ih =>
    rcases hl : ctx.activeMemo.lookup c s with ⟨_ | v, s'⟩
    · obtain ⟨hstep, hopen⟩ := hm.lookup_none hs hl
      simp only [formulaCell_succ, rememberedOr_off activeMemo_fresh] at hshallow ⊢
      simp only [rememberedOr, hl]
      by_cases hc : c ∈ path
      · simp only [if_pos hc]
        rfl
      · simp only [if_neg hc] at hshallow ⊢
        have hpath' : ∀ d ∈ c :: path, V.Open s' d :=
          List.forall_mem_cons.2 ⟨hopen, fun d hd => hstep.still d trivial (hpath d hd)⟩
        refine Plan.run_agree (P := fun k => ctx.grid.SettlesFirst ctx.options.pipeline k c) ctx.links
          (fun d s hs hpath => formulaCell_keeps hm n (c :: path) d s hs hpath)
          (fun d s u hs hpath hd hsh => ih hs hpath (hb.cons hd) hsh)
          (fun d u k v reads hk hd hsh => formulaCell_of_settled activeMemo_fresh
            (hb.cons fun l hl => hl.unique hk ▸ ⟨v, reads, hd⟩) hsh hd)
          hstep.inv hpath' (fun k hk => ?_) (shallow_visit hshallow)
        obtain ⟨v, reads, hv⟩ := hk.1
        exact ⟨v, reads, (Grid.settled_succ _ _ _ _).symm.trans hv⟩
    · obtain ⟨-, -, k, reads, hk⟩ := hm.lookup_some hs hl
      rw [formulaCell_of_settled activeMemo_fresh hb hshallow hk, formulaCell_of_lookup hl]

end Context

end Spreadsheet
