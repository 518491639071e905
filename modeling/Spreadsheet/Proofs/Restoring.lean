import Spreadsheet.Proofs.CallStack
import Spreadsheet.Proofs.Values
/-!
# Evaluation leaves the call stack as it was

Evaluation with a call stack follows the run of the same evaluation without one, step by
step: what it comes to is the same, what the run leaves as its trace has been collected in the
innermost frame, and nothing else of the stack is changed. A cell whose frame was opened is
closed again whatever its formula comes to, so that nothing is under evaluation once it is over:
`Context.evaluation_restores`.
-/

namespace Spreadsheet

/-! ## Frames -/

namespace Frame

theorem add_empty (f : Frame) : f.add .empty = f := by
  simp [add, Trace.empty]

theorem add_append (f : Frame) (t u : Trace) : f.add (t ++ u) = (f.add t).add u := by
  simp [add, Trace.append_def, Bool.or_assoc]

theorem map_mark_map_mark (frames : List Frame) :
    (frames.map mark).map mark = frames.map mark := by
  rw [List.map_map]
  rfl

end Frame

/-- The innermost frame has collected a trace. The frames around it are as they were, or all of
them are volatile, but only if the innermost is. -/
def Collects (t : Trace) : List Frame → List Frame → Prop
  | [], frames => frames = []
  | top :: rest, frames => ∃ rest', frames = top.add t :: rest' ∧
    (rest' = rest ∨ t.volatile ∧ rest' = rest.map Frame.mark)

section
variable {t u : Trace} {frames frames' frames'' : List Frame}

theorem collects_empty : Collects .empty frames frames := by
  cases frames with
  | nil => rfl
  | cons top rest => exact ⟨rest, by rw [Frame.add_empty], .inl rfl⟩

theorem Collects.trans (h : Collects t frames frames') (h' : Collects u frames' frames'') :
    Collects (t ++ u) frames frames'' := by
  cases frames with
  | nil =>
    cases h
    exact h'
  | cons top rest =>
    obtain ⟨rest', rfl, hrest⟩ := h
    obtain ⟨rest'', rfl, hrest'⟩ := h'
    refine ⟨rest'', by rw [Frame.add_append], ?_⟩
    simp only [Trace.append_def, Bool.or_eq_true]
    rcases hrest' with rfl | ⟨hu, rfl⟩
    · rcases hrest with rfl | ⟨ht, rfl⟩
      · exact .inl rfl
      · exact .inr ⟨.inl ht, rfl⟩
    · rcases hrest with rfl | ⟨ht, rfl⟩
      · exact .inr ⟨.inr hu, rfl⟩
      · exact .inr ⟨.inl ht, Frame.map_mark_map_mark rest⟩

theorem Collects.owners_eq (h : Collects t frames frames') :
    frames'.map Frame.owner = frames.map Frame.owner := by
  cases frames with
  | nil =>
    cases h
    rfl
  | cons top rest =>
    obtain ⟨rest', rfl, rfl | ⟨-, rfl⟩⟩ := h
    · rfl
    · rw [List.map_cons, List.map_map]
      rfl

end

/-! ## Following a run -/

namespace Stacked
variable {σ α β : Type}

theorem bind_apply (x : Stacked σ α) (f : α → Stacked σ β) (s : Machine σ) :
    (x >>= f) s = (x s).bind fun r => f r.1 r.2 := rfl

theorem lookup_apply (memo : Memo σ) (c : Cell) (s : Machine σ) :
    lookup memo c s =
      some ((memo.lookup c s.memory).1, { s with memory := (memo.lookup c s.memory).2 }) := rfl

end Stacked

namespace Context
variable {σ : Type} {ctx : Context σ}

/-- The machine has gone on by what a run has left: its trace and the state of the memory. All
more on the way were in order. -/
structure Leads (ctx : Context σ) (s : Machine σ) (r : Trace × σ) (s' : Machine σ) : Prop where
  visiting : s'.stack.visiting = s.stack.visiting
  frames : Collects r.1 s.stack.frames s'.stack.frames
  events : s'.events = s.events ++ r.1.events
  memory : s'.memory = r.2
  past : ∃ more, s'.past = s.past ++ more ∧ ∀ stack ∈ more, ctx.Orderly stack

section
variable {s s' s'' : Machine σ} {t u : Trace} {memory memory' : σ}

theorem Leads.orderly (h : ctx.Leads s (t, memory) s') (hs : ctx.Orderly s.stack) :
    ctx.Orderly s'.stack :=
  hs.of_owners_eq h.visiting h.frames.owners_eq

theorem Leads.owners_eq (h : ctx.Leads s (t, memory) s') : s'.stack.owners = s.stack.owners :=
  h.frames.owners_eq

theorem leads_refl (s : Machine σ) : ctx.Leads s (.empty, s.memory) s where
  visiting := rfl
  frames := collects_empty
  events := (List.append_nil _).symm
  memory := rfl
  past := ⟨[], (List.append_nil _).symm, nofun⟩

theorem Leads.trans (h : ctx.Leads s (t, memory) s') (h' : ctx.Leads s' (u, memory') s'') :
    ctx.Leads s (t ++ u, memory') s'' where
  visiting := h'.visiting.trans h.visiting
  frames := h.frames.trans h'.frames
  events := by rw [h'.events, h.events, List.append_assoc]; rfl
  memory := h'.memory
  past := by
    obtain ⟨more, hpast, hmore⟩ := h.past
    obtain ⟨more', hpast', hmore'⟩ := h'.past
    refine ⟨more ++ more', by rw [hpast', hpast, List.append_assoc], ?_⟩
    intro stack hstack
    rcases List.mem_append.1 hstack with hstack | hstack
    · exact hmore stack hstack
    · exact hmore' stack hstack

end

/-- With the cells of `path` under evaluation, the computation ends with what the run comes to,
and leads to what it leaves. -/
def Follows (ctx : Context σ) {α : Type} (path : List Cell) (x : Stacked σ α) (run : Run σ α) :
    Prop :=
  ∀ s, ctx.Orderly s.stack → s.stack.owners = path →
    ∃ s', x s = some ((run s.memory).1, s') ∧ ctx.Leads s (run s.memory).2 s'

section
variable {α β : Type} {path : List Cell} {c : Cell}

theorem follows_pure (a : α) : ctx.Follows path (pure a) (pure a) :=
  fun s _ _ => ⟨s, rfl, leads_refl s⟩

theorem Follows.bind {x : Stacked σ α} {run : Run σ α} {f : α → Stacked σ β} {g : α → Run σ β}
    (hx : ctx.Follows path x run) (hf : ∀ a, ctx.Follows path (f a) (g a)) :
    ctx.Follows path (x >>= f) (run >>= g) := by
  intro s hs hpath
  obtain ⟨s', hx, hleads⟩ := hx s hs hpath
  obtain ⟨s'', hf, hleads'⟩ :=
    hf (run s.memory).1 s' (hleads.orderly hs) (hleads.owners_eq.trans hpath)
  rw [hleads.memory] at hf hleads'
  refine ⟨s'', ?_, hleads.trans hleads'⟩
  rw [Stacked.bind_apply, hx]
  exact hf

theorem Follows.mapM {f : α → Stacked σ β} {g : α → Run σ β}
    (hf : ∀ a, ctx.Follows path (f a) (g a)) (l : List α) :
    ctx.Follows path (l.mapM f) (l.mapM g) := by
  induction l with
  | nil =>
    rw [List.mapM_nil, List.mapM_nil]
    exact follows_pure _
  | cons a l ih =>
    rw [List.mapM_cons, List.mapM_cons]
    exact (hf a).bind fun b => ih.bind fun bs => follows_pure _

/-! ## Single steps -/

theorem follows_emit (e : Event) : ctx.Follows path (Stacked.emit e) (Run.emit e) := by
  intro s _ _
  refine ⟨{ s with events := s.events ++ [e] }, rfl, ?_⟩
  have hrefl : ctx.Leads s (.empty, s.memory) s := leads_refl s
  exact ⟨rfl, hrefl.frames, rfl, rfl, hrefl.past⟩

/-- A change of frames is followed by what it makes them collect. -/
theorem follows_change {f : CallStack → CallStack} {run : Run σ Unit} {t : Trace}
    (hrun : ∀ memory, run memory = ((), t, memory)) (hevents : t.events = [])
    (hvisiting : ∀ stack, (f stack).visiting = stack.visiting)
    (hframes : ∀ stack, Collects t stack.frames (f stack).frames) :
    ctx.Follows path (Stacked.change f) run := by
  intro s hs _
  rw [hrun]
  refine ⟨_, rfl, hvisiting _, hframes _, ?_, rfl, [f s.stack], rfl, ?_⟩
  · rw [hevents, List.append_nil]
  · intro stack hstack
    cases List.mem_singleton.1 hstack
    exact hs.of_owners_eq (hvisiting _) (hframes _).owners_eq

/-- What changes only the innermost frame, and that as a trace does, makes it collect the trace. -/
theorem collects_modifyTop {t : Trace} {f : Frame → Frame} (h : ∀ frame, f frame = frame.add t)
    (stack : CallStack) : Collects t stack.frames (stack.modifyTop f).frames := by
  obtain ⟨visiting, _ | ⟨top, rest⟩⟩ := stack
  · rfl
  · exact ⟨rest, by rw [← h]; rfl, .inl rfl⟩

theorem collects_markAll (stack : CallStack) :
    Collects ⟨[], true, []⟩ stack.frames stack.markAll.frames := by
  obtain ⟨visiting, _ | ⟨top, rest⟩⟩ := stack
  · rfl
  · exact ⟨rest.map Frame.mark, by simp [CallStack.markAll, Frame.mark, Frame.add], .inr ⟨rfl, rfl⟩⟩

theorem follows_read (c : Cell) :
    ctx.Follows path (Observer.read c : Stacked σ Unit) (Observer.read c) :=
  follows_change (fun _ => rfl) rfl (fun _ => rfl)
    (collects_modifyTop (t := ⟨[c], false, []⟩) fun _ => by simp [Frame.add])

theorem follows_report (f : Failure) :
    ctx.Follows path (Reporter.report f : Stacked σ Unit) (Reporter.report f) :=
  follows_emit _

theorem follows_resolve (batch : List Link) :
    ctx.Follows path (Observer.resolve batch : Stacked σ Unit) (Observer.resolve batch) := by
  have hmark : ctx.Follows path (Stacked.change (·.modifyTop Frame.mark)) Run.markVolatile :=
    follows_change (fun _ => rfl) rfl (fun _ => rfl)
      (collects_modifyTop (t := ⟨[], true, []⟩) fun _ => by simp [Frame.mark, Frame.add])
  exact hmark.bind fun _ => follows_emit _

theorem follows_fail (f : Failure) :
    ctx.Follows path (Evaluation.fail f : Stacked σ Value) (Evaluation.fail f) :=
  (follows_report f).bind fun _ => follows_pure _

theorem follows_passOn (v : Except Failure Value) :
    ctx.Follows path (Evaluation.passOn v : Stacked σ Value) (Evaluation.passOn v) := by
  cases v with
  | ok v => exact follows_pure v
  | error f => exact follows_fail f

theorem follows_breakOff (f : Failure) :
    ctx.Follows path (stackedBreakOff f : Stacked σ Value) (breakOff f) := by
  have hmark : ctx.Follows path (Stacked.change CallStack.markAll) Run.markVolatile :=
    follows_change (fun _ => rfl) rfl (fun _ => rfl) collects_markAll
  exact hmark.bind fun _ => follows_fail f

/-! ## Formulas -/

section
variable {formula : Cell → Stacked σ Value} {formula' : Cell → Run σ Value}
  (hformula : ∀ c, ctx.grid.HoldsFormula c → ctx.Follows path (formula c) (formula' c))
include hformula

theorem follows_reference (c : Cell) :
    ctx.Follows path (ctx.grid.reference formula c) (ctx.grid.reference formula' c) := by
  by_cases hc : ctx.grid.HoldsFormula c
  · rw [Grid.reference_of_formula hc, Grid.reference_of_formula hc]
    refine (follows_read c).bind fun _ => (hformula c hc).bind fun v => ?_
    split
    · exact (follows_report _).bind fun _ => follows_pure v
    · exact follows_pure v
  · rw [Grid.reference_of_not_formula hc, Grid.reference_of_not_formula hc]
    split
    · exact (follows_read c).bind fun _ => follows_passOn _
    · exact follows_passOn _

/-- A plan follows its run if the formulas of the cells that it comes to do. -/
theorem follows_plan (q : Plan α) :
    ctx.Follows path (q.run (ctx.grid.host ctx.links formula))
      (q.run (ctx.grid.host ctx.links formula')) := by
  induction q with
  | done a => exact follows_pure a
  | report f next ih => exact (follows_report f).bind fun _ => ih
  | resolve batch next ih =>
    exact ((follows_resolve batch).bind fun _ => follows_pure _).bind ih
  | ask c next ih => exact (follows_reference hformula c).bind ih

theorem follows_evaluateFormula (p : Pipeline) (text : List Char) :
    ctx.Follows path ((ctx.grid.host ctx.links formula).evaluateFormula p text)
      ((ctx.grid.host ctx.links formula').evaluateFormula p text) := by
  rw [← Plan.run_evaluateFormula (ctx.grid.host ctx.links formula),
    ← Plan.run_evaluateFormula (ctx.grid.host ctx.links formula')]
  exact follows_plan hformula _

theorem follows_cellValue (c : Cell) :
    ctx.Follows path (ctx.grid.cellValue formula c) (ctx.grid.cellValue formula' c) := by
  by_cases hc : ctx.grid.HoldsFormula c
  · rw [Grid.cellValue_of_formula hc, Grid.cellValue_of_formula hc]
    exact hformula c hc
  · rw [Grid.cellValue_of_not_formula hc, Grid.cellValue_of_not_formula hc]
    exact follows_passOn _

end

/-! ## Formula cells -/

/-- The frames after a cell is closed, whose own frame has collected a trace: the cell that refers
to it has become volatile if the cell is, and read nothing. -/
theorem collects_pop {t : Trace} (visiting : Finset Cell) {frames frames' : List Frame}
    (h : Collects t (⟨c, [], false⟩ :: frames) frames') :
    (CallStack.mk visiting frames').top = (t.reads, t.volatile) ∧
      ∀ events, Collects ⟨[], t.volatile, events⟩ frames
        ((CallStack.mk visiting frames').pop c).frames := by
  obtain ⟨rest, rfl, hrest⟩ := h
  have htop : (CallStack.mk visiting (Frame.add t ⟨c, [], false⟩ :: rest)).top =
      (t.reads, t.volatile) := by
    simp [CallStack.top, Frame.add]
  refine ⟨htop, ?_⟩
  intro events
  unfold CallStack.pop
  rw [htop]
  cases hv : t.volatile with
  | false =>
    rcases hrest with rfl | ⟨htrue, -⟩
    · exact collects_empty
    · rw [hv] at htrue
      cases htrue
  | true =>
    -- The frame below is marked now, if it was not when a cycle was met.
    rcases hrest with rfl | ⟨-, rfl⟩
    · cases rest with
      | nil => rfl
      | cons top rest =>
        exact ⟨rest, by simp [CallStack.modifyTop, Frame.mark, Frame.add], .inl rfl⟩
    · cases frames with
      | nil => rfl
      | cons top rest =>
        exact ⟨rest.map Frame.mark, by simp [CallStack.modifyTop, Frame.mark, Frame.add],
          .inr ⟨rfl, rfl⟩⟩

theorem visiting_pop (stack : CallStack) :
    (stack.pop c).visiting = stack.visiting.erase c := by
  unfold CallStack.pop
  dsimp only
  split <;> rfl

theorem stackedVisit_apply {x : Stacked σ Value} {s s' : Machine σ} {v : Value}
    (h : x ⟨s.stack.push c, s.past ++ [s.stack.push c], s.events ++ [.opened c], s.memory⟩ =
      some (v, s')) :
    ctx.stackedVisit c x s = some (v,
      { stack := s'.stack.pop c
        past := s'.past ++ [s'.stack.pop c]
        events := s'.events ++ [.closed c v s'.stack.top.1 s'.stack.top.2]
        memory := ctx.activeMemo.store c v s'.stack.top.1 s'.stack.top.2 s'.memory }) := by
  show (x ⟨s.stack.push c, s.past ++ [s.stack.push c], s.events ++ [.opened c],
    s.memory⟩).bind _ = _
  rw [h]
  rfl

/-- In a frame of its own, a formula is evaluated as the run has it, and the frame is gone when it
is. -/
theorem follows_visit {x : Stacked σ Value} {run : Run σ Value} (hformula : ctx.grid.HoldsFormula c)
    (hc : c ∉ path) (hdepth : path.length < ctx.options.maxDepth)
    (h : ctx.Follows (c :: path) x run) :
    ctx.Follows path (ctx.stackedVisit c x) (ctx.visit c run) := by
  rintro s hs rfl
  have hpush : ctx.Orderly (s.stack.push c) := hs.push hformula hc hdepth
  obtain ⟨s', hx, hleads⟩ :=
    h ⟨s.stack.push c, s.past ++ [s.stack.push c], s.events ++ [.opened c], s.memory⟩ hpush rfl
  obtain ⟨htop, hpop⟩ := collects_pop s'.stack.visiting hleads.frames
  have hvisiting : (s'.stack.pop c).visiting = s.stack.visiting := by
    rw [visiting_pop, hleads.visiting]
    exact Finset.erase_insert fun hmem => hc (hs.mem_visiting.1 hmem)
  have hframes := hpop (ctx.visit c run s.memory).2.1.events
  refine ⟨_, stackedVisit_apply hx, hvisiting, hframes, ?_, ?_, ?_⟩
  · rw [hleads.events, htop]
    simp [visit]
  · rw [hleads.memory, htop]
    rfl
  · obtain ⟨more, hpast, hmore⟩ := hleads.past
    refine ⟨s.stack.push c :: more ++ [s'.stack.pop c], by simp [hpast], ?_⟩
    intro stack hstack
    rcases List.mem_append.1 hstack with hstack | hstack
    · rcases List.mem_cons.1 hstack with rfl | hstack
      · exact hpush
      · exact hmore stack hstack
    · cases List.mem_singleton.1 hstack
      exact hs.of_owners_eq hvisiting hframes.owners_eq

theorem follows_remembered {x : Stacked σ Value} {run : Run σ Value} (h : ctx.Follows path x run) :
    ctx.Follows path
      (do match ← Stacked.lookup ctx.activeMemo c with
        | some value => return value
        | none => x)
      (ctx.rememberedOr c run) := by
  intro s hs hpath
  unfold rememberedOr
  rcases hl : ctx.activeMemo.lookup c s.memory with ⟨_ | value, memory⟩
  · obtain ⟨s', hx, hleads⟩ := h { s with memory } hs hpath
    refine ⟨s', ?_, hleads.visiting, hleads.frames, hleads.events, hleads.memory, hleads.past⟩
    rw [Stacked.bind_apply, Stacked.lookup_apply, hl]
    exact hx
  · have hrefl : ctx.Leads s (.empty, s.memory) s := leads_refl s
    refine ⟨{ s with memory }, ?_, rfl, hrefl.frames, hrefl.events, rfl, hrefl.past⟩
    rw [Stacked.bind_apply, Stacked.lookup_apply, hl]
    rfl

theorem formulaCell_eq (n : Nat) (path : List Cell) (c : Cell) : ctx.formulaCell n path c =
    ctx.rememberedOr c
      (if c ∈ path ∨ n = 0 then breakOff (if c ∈ path then .circular c else .chainTooDeep c)
      else
        ctx.visit c <|
          (ctx.grid.host ctx.links (ctx.formulaCell (n - 1) (c :: path))).evaluateFormula
            ctx.options.pipeline (ctx.grid.content c).toList) := by
  cases n with
  | zero => simp [formulaCell]
  | succ n =>
    rw [formulaCell]
    by_cases hc : c ∈ path <;> simp [hc]

/-- What depends on the stack at hand may take it to be in order, with the cells of the path. -/
theorem follows_stack {f : CallStack → Stacked σ α} {run : Run σ α}
    (h : ∀ stack, ctx.Orderly stack → stack.owners = path → ctx.Follows path (f stack) run) :
    ctx.Follows path (Stacked.stack >>= f) run :=
  fun s hs hpath => h s.stack hs hpath s hs hpath

/-- A formula cell is evaluated with levels as with a path, if there are levels enough for all the
cells that can still be under evaluation and for one that cannot. -/
theorem follows_formulaCell (levels : Nat) (path : List Cell) (hc : ctx.grid.HoldsFormula c)
    (hlevels : ctx.depthLimit - path.length < levels) :
    ctx.Follows path (ctx.stackedCell levels c)
      (ctx.formulaCell (ctx.options.maxDepth - path.length) path c) := by
  induction levels generalizing path c with
  | zero => exact absurd hlevels (Nat.not_lt_zero _)
  | succ levels ih =>
    rw [stackedCell, formulaCell_eq]
    refine follows_remembered (follows_stack ?_)
    rintro stack hstack rfl
    simp only [hstack.mem_visiting, hstack.card_visiting, Nat.sub_eq_zero_iff_le]
    split
    · exact follows_breakOff _
    · rename_i hguard
      obtain ⟨hnew, hdepth⟩ := not_or.1 hguard
      -- One more cell is under evaluation then, so that one level less is enough.
      have hlength : (stack.push c).frames.length ≤ ctx.depthLimit :=
        (hstack.push hc hnew (Nat.not_le.1 hdepth)).length_le
      refine follows_visit hc hnew (Nat.not_le.1 hdepth) (follows_evaluateFormula ?_ _ _)
      intro d hd
      rw [Nat.sub_sub]
      refine ih (c :: stack.owners) hd ?_
      simp only [CallStack.push, CallStack.owners, List.length_cons, List.length_map]
        at hlength hlevels ⊢
      omega

end

/-! ## Entry points -/

section
variable {levels : Nat} (hlevels : ctx.depthLimit < levels)
include hlevels

theorem follows_rootCell (c : Cell) (hc : ctx.grid.HoldsFormula c) :
    ctx.Follows [] (ctx.stackedCell levels c) (ctx.rootCell c) :=
  follows_formulaCell levels [] hc hlevels

theorem follows_evaluateCell (c : Cell) :
    ctx.Follows [] (ctx.stackedEvaluateCell levels c) (ctx.evaluateCell c) :=
  follows_cellValue (follows_rootCell hlevels) c

theorem follows_displayCell (c : Cell) :
    ctx.Follows [] (ctx.stackedDisplayCell levels c) (ctx.displayCell c) := by
  unfold stackedDisplayCell displayCell
  split
  · exact (follows_evaluateCell hlevels c).bind fun v => follows_pure _
  · exact follows_pure _

theorem follows_evaluate (content : String) :
    ctx.Follows [] (ctx.stackedEvaluate levels content) (ctx.evaluate content) := by
  unfold stackedEvaluate evaluate
  split
  · exact follows_evaluateFormula (follows_rootCell hlevels) _ _
  · split <;> exact follows_pure _

theorem follows_display (content : String) :
    ctx.Follows [] (ctx.stackedDisplay levels content) (ctx.display content) := by
  unfold stackedDisplay display
  split
  · exact (follows_evaluate hlevels content).bind fun v => follows_pure _
  · exact follows_pure _

end

/-- Started with nothing under evaluation, the computation comes to an end, with the result, the
events and the memory that the run has. Then nothing is under evaluation again, and all stacks on
the way were in order. -/
def Restores (ctx : Context σ) {α : Type} (x : Stacked σ α) (run : Run σ α) : Prop :=
  ∀ past events memory, ∃ more,
    x ⟨.empty, past, events, memory⟩ = some ((run memory).1,
      ⟨.empty, past ++ more, events ++ (run memory).2.1.events, (run memory).2.2⟩) ∧
    ∀ stack ∈ more, ctx.Orderly stack

theorem Follows.restores {α : Type} {x : Stacked σ α} {run : Run σ α} (h : ctx.Follows [] x run) :
    ctx.Restores x run := by
  intro past events memory
  obtain ⟨⟨⟨visiting, frames⟩, past', events', memory'⟩, hx, hvisiting, hframes, hevents, hmemory,
    more, hpast, hmore⟩ := h ⟨.empty, past, events, memory⟩ orderly_empty rfl
  dsimp only at hvisiting hframes hevents hmemory hpast
  subst hvisiting hframes hevents hmemory hpast
  exact ⟨more, hx, hmore⟩

/-- With levels enough for all the cells that can be under evaluation and for one that cannot,
every evaluation ends, keeps its stack in order and leaves it as empty as before. So does an
evaluation of all cells one after the other. -/
theorem evaluation_restores (ctx : Context σ) (spare : Nat) :
    let levels := ctx.depthLimit + 1 + spare
    (∀ content, ctx.Restores (ctx.stackedEvaluate levels content) (ctx.evaluate content)) ∧
      (∀ c, ctx.Restores (ctx.stackedEvaluateCell levels c) (ctx.evaluateCell c)) ∧
      (∀ content, ctx.Restores (ctx.stackedDisplay levels content) (ctx.display content)) ∧
      (∀ c, ctx.Restores (ctx.stackedDisplayCell levels c) (ctx.displayCell c)) ∧
      ∀ rows : List (List Cell), ctx.Restores
        (rows.mapM fun row => row.mapM (ctx.stackedDisplayCell levels))
        (rows.mapM fun row => row.mapM ctx.displayCell) := by
  intro levels
  have hlevels : ctx.depthLimit < levels := by
    simp only [levels]
    omega
  refine ⟨fun content => (follows_evaluate hlevels content).restores,
    fun c => (follows_evaluateCell hlevels c).restores,
    fun content => (follows_display hlevels content).restores,
    fun c => (follows_displayCell hlevels c).restores, fun rows => Follows.restores ?_⟩
  exact Follows.mapM (fun row => Follows.mapM (follows_displayCell hlevels) row) rows

end Context

end Spreadsheet
