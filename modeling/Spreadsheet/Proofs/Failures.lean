import Spreadsheet.Proofs.Acyclic
import Spreadsheet.Proofs.Reports
import Spreadsheet.Proofs.Soundness
import Spreadsheet.Proofs.Stopping
/-!
# Failures and their reports

A failure that evaluation comes to has been reported. Where no tolerant function
is called, nothing else is reported but the cells that it was handed through on
its way back, from the last one reached: `Context.failure_reported`.
-/

namespace Spreadsheet

/-! ## Paths -/

/-- The formula cell that was reached last, if it was to be evaluated and this is why it was
not. -/
def Failure.refused : Failure → List Cell
  | circular c | chainTooDeep c => [c]
  | _ => []

/-- The cells under evaluation after the events if those of `path` were so before, the last one
first. -/
def openCells (path : List Cell) : List Event → List Cell
  | [] => path
  | .opened c :: events => openCells (c :: path) events
  | .closed _ _ _ _ :: events => openCells path.tail events
  | .reported _ :: events | .resolved _ :: events => openCells path events

/-- The formula cells on the way to the first failure that is reported, the last one first, if
those of `path` are under evaluation before the events: all that are under evaluation when it is
reported, and the one that was reached then but refused. -/
def pathToFailure (path : List Cell) : List Event → List Cell
  | [] => []
  | .opened c :: events => pathToFailure (c :: path) events
  | .closed _ _ _ _ :: events => pathToFailure path.tail events
  | .reported f :: _ => f.refused ++ path
  | .resolved _ :: events => pathToFailure path events

/-- What is said of the failures that were reported. -/
def Trace.messages (t : Trace) : List String := t.failures.map Failure.message

theorem Failure.refused_of_ofFormula {f : Failure} (h : f.OfFormula) : f.refused = [] := by
  cases f <;> first | rfl | cases h

theorem Failure.refused_of_kind {f : Failure} (h : f.kind = .invalidReference) :
    f.refused = [] := by
  cases f <;> first | rfl | cases h

section
variable {path : List Cell} {events events' : List Event}

theorem openCells_append :
    openCells path (events ++ events') = openCells (openCells path events) events' := by
  induction events generalizing path with
  | nil => rfl
  | cons e events ih => cases e <;> exact ih

theorem pathToFailure_append_of_eq_nil (h : events.filterMap Event.failure? = []) :
    pathToFailure path (events ++ events') = pathToFailure (openCells path events) events' := by
  induction events generalizing path with
  | nil => rfl
  | cons e events ih =>
    cases e with
    | reported f => cases h
    | resolved batch => exact ih h
    | opened c => exact ih h
    | closed c v reads volatile => exact ih h

theorem pathToFailure_append_of_ne_nil (h : events.filterMap Event.failure? ≠ []) :
    pathToFailure path (events ++ events') = pathToFailure path events := by
  induction events generalizing path with
  | nil => exact absurd rfl h
  | cons e events ih =>
    cases e with
    | reported f => rfl
    | resolved batch => exact ih h
    | opened c => exact ih h
    | closed c v reads volatile => exact ih h

end

/-! ## Questions -/

namespace Plan
variable {α : Type}

/-- The plan asks for no other cells than those of `P`. -/
def Asks (P : Cell → Prop) : Plan α → Prop
  | done _ => True
  | report _ next => next.Asks P
  | resolve _ next => ∀ link, (next link).Asks P
  | ask c next => P c ∧ ∀ v, (next v).Asks P

/-- The host that leaves questions open if they are for the given cells, and puts off others. -/
def hostWithin (cells : List Cell) : Host Plan where
  reference c := if c ∈ cells then host.reference c else done (.error (.emptyCell c))
  resolve := host.resolve

theorem asks_run (cells : List Cell) (q : Plan α) :
    (q.run (hostWithin cells)).Asks (· ∈ cells) := by
  induction q with
  | done a => trivial
  | report f next ih => exact ih
  | resolve batch next ih => exact ih
  | ask c next ih =>
    show ((hostWithin cells).reference c >>= fun v => (next v).run _).Asks _
    unfold hostWithin
    dsimp only
    split
    · exact ⟨‹_›, ih⟩
    · exact ih _

/-- A formula asks only for the cells written in it. -/
theorem asks_evaluateFormula (p : Pipeline) (formula : List Char) :
    (host.evaluateFormula p formula).Asks (· ∈ written p formula) := by
  have hwithin : host.evaluateFormula p formula =
      (hostWithin (written p formula)).evaluateFormula p formula :=
    Host.evaluateFormula_congr rfl fun c hc => (if_pos hc).symm
  rw [hwithin, ← run_evaluateFormula]
  exact asks_run _ _

end Plan

/-! ## What a trace tells -/

/-- The trace tells of nothing but the failure and of the cells that it was handed through, if
there is one. The cells of `within` are on the way to it, but it was not handed through them yet.
On the way each cell is referred to by the next one, and the last one is in `P`. -/
def Trace.Tells (g : Grid) (P : Cell → Prop) (within : List Cell) (t : Trace) :
    Option Failure → Prop
  | none => t.failures = [] ∧ ∀ path, openCells path t.events = path
  | some f => ∃ cells : List Cell, t.failures = f :: cells.map Failure.invalidCell ∧
      (∀ path, pathToFailure path t.events = cells ++ within ++ path) ∧
      (cells ++ within).IsChain (g.Refers .grammar) ∧ ∀ x ∈ (cells ++ within).getLast?, P x

section
variable {g : Grid} {P : Cell → Prop} {within : List Cell} {t u : Trace} {o : Option Failure}
  {f : Failure} {c : Cell}

theorem Trace.tells_nil (h : t.events = []) : t.Tells g P within none := by
  unfold Tells failures
  rw [h]
  exact ⟨rfl, fun _ => rfl⟩

theorem Trace.tells_reported (h : t.events = [.reported f]) (hrefused : ∀ x ∈ f.refused, P x) :
    t.Tells g P f.refused (some f) := by
  have hchain : f.refused.IsChain (g.Refers .grammar) := by
    cases f <;> first | exact .nil | exact .singleton _
  unfold Tells failures
  rw [h]
  exact ⟨[], rfl, fun _ => rfl, hchain, fun x hx => hrefused x (List.mem_of_getLast? hx)⟩

theorem Trace.tells_congr (h : t.events = u.events) :
    t.Tells g P within o ↔ u.Tells g P within o := by
  unfold Tells failures
  rw [h]

/-- What happens before a failure, without one, makes no difference to what is told of it. -/
theorem Trace.Tells.append (ht : t.Tells g P within none) (hu : u.Tells g P within o) :
    (t ++ u).Tells g P within o := by
  obtain ⟨hnone, hopen⟩ := ht
  have hpath : ∀ path, pathToFailure path (t ++ u).events = pathToFailure path u.events := by
    intro path
    rw [append_def, pathToFailure_append_of_eq_nil hnone, hopen]
  cases o with
  | none =>
    refine ⟨?_, fun path => ?_⟩
    · rw [failures_append, hnone, hu.1]
      rfl
    · rw [append_def, openCells_append, hopen, hu.2]
  | some f =>
    obtain ⟨cells, hfailures, hcells, hchain⟩ := hu
    refine ⟨cells, ?_, fun path => ?_, hchain⟩
    · rw [failures_append, hnone, hfailures]
      rfl
    · rw [hpath, hcells]

theorem Trace.Tells.reports_ne_nil (ht : t.Tells g P within (some f)) :
    t.events.filterMap Event.failure? ≠ [] := by
  obtain ⟨cells, hfailures, -⟩ := ht
  intro h
  rw [failures, h] at hfailures
  cases hfailures

/-- A reference hands a failure through the cell. -/
theorem Trace.Tells.pass {Q : Cell → Prop} {v : Value} (ht : t.Tells g Q [c] v.failure?)
    (hc : P c) : (Grid.passTrace c v t).Tells g P [] v.failure? := by
  cases v with
  | number x => exact (tells_congr (List.append_nil _)).2 ht
  | text s => exact (tells_congr (List.append_nil _)).2 ht
  | error f =>
    have hne := Tells.reports_ne_nil (f := f) ht
    obtain ⟨cells, hfailures, hcells, hchain, -⟩ := ht
    refine ⟨cells ++ [c], ?_, fun path => ?_, ?_⟩
    · rw [List.map_append, ← List.cons_append, ← hfailures]
      exact List.filterMap_append
    · rw [List.append_nil, ← hcells]
      exact pathToFailure_append_of_ne_nil hne
    · rw [List.append_nil]
      refine ⟨hchain, fun x hx => ?_⟩
      rw [List.getLast?_concat] at hx
      cases hx
      exact hc

/-- A cell under evaluation refers to the first of the cells on the way to a failure in it. -/
theorem Trace.Tells.visit {v : Value} {reads : List Cell} {volatile volatile' : Bool}
    (ht : t.Tells g (fun x => g.Refers .grammar x c) [] o) : Trace.Tells g (fun _ => True) [c]
      ⟨[], volatile', .opened c :: t.events ++ [.closed c v reads volatile]⟩ o := by
  have hfailures := t.failures_visit c v reads volatile volatile'
  cases o with
  | none =>
    refine ⟨hfailures.trans ht.1, fun path => ?_⟩
    show openCells (c :: path) (t.events ++ _) = path
    rw [openCells_append, ht.2]
    rfl
  | some f =>
    have hne := ht.reports_ne_nil
    obtain ⟨cells, hcells, hpath, hchain, hlast⟩ := ht
    rw [List.append_nil] at hchain hlast
    refine ⟨cells, hfailures.trans hcells, fun path => ?_, ?_, fun _ _ => trivial⟩
    · show pathToFailure (c :: path) (t.events ++ _) = _
      rw [pathToFailure_append_of_ne_nil hne, hpath]
      simp
    · refine List.isChain_append.2 ⟨hchain, .singleton c, fun x hx y hy => ?_⟩
      cases hy
      exact hlast x hx

/-- There are reports exactly if there is a failure to tell of. -/
theorem Trace.Tells.isSome_iff (h : t.Tells g P within o) : o.isSome ↔ t.messages ≠ [] := by
  unfold messages
  cases o with
  | none => simp [h.1]
  | some f =>
    obtain ⟨cells, hfailures, -⟩ := h
    simp [hfailures]

/-- The reports are of the failure and of the cells on the way to it. -/
theorem Trace.Tells.messages_eq (h : t.Tells g P [] (some f)) :
    t.messages = f.message ::
        (pathToFailure [] t.events).map (fun c => "invalid cell data: " ++ c.text) ∧
      (pathToFailure [] t.events).IsChain (g.Refers .grammar) ∧
      ∀ c ∈ (pathToFailure [] t.events).getLast?, P c := by
  obtain ⟨cells, hfailures, hpath, hchain, hlast⟩ := h
  rw [hpath, List.append_nil]
  refine ⟨?_, hchain, hlast⟩
  unfold messages
  rw [hfailures, List.append_nil, List.map_cons, List.map_map]
  exact congrArg _ (List.map_congr_left fun c _ => Failure.message_invalidCell c)

end

/-! ## Runs -/

/-- No formula of the grid calls a tolerant function. -/
def Grid.Intolerant (g : Grid) : Prop :=
  ∀ c, g.HoldsFormula c → IntolerantCalls (calledIn (g.content c).toList)

/-- The literal value of a cell fails as its trace tells. -/
theorem Grid.tells_literalTrace (g : Grid) (P : Cell → Prop) (c : Cell) :
    (g.literalTrace c).Tells g P [] (g.literalValue c).failure? := by
  unfold literalTrace literalValue
  cases h : g.literal c with
  | error f =>
    have hrefused : f.refused = [] := Failure.refused_of_kind (kind_of_literal h)
    have htells : Trace.Tells g P f.refused
        ⟨if g.contains c then [c] else [], false, [.reported f]⟩ (some f) :=
      Trace.tells_reported rfl (by simp [hrefused])
    rw [hrefused] at htells
    exact htells
  | ok v =>
    have hv : v.failure? = none := by
      rcases eq_of_literal h with rfl | rfl
      · rfl
      · exact Value.failure?_ofLiteral _
    dsimp only
    rw [hv]
    exact Trace.tells_nil rfl

namespace Plan
variable {σ α : Type} {φ : α → Option Failure} {g : Grid} {links : LinkSource}
  {formula : Cell → Run σ Value} {P : Cell → Prop}

theorem Stops.next {c : Cell} {next : Value → Plan α} (hq : (ask c next).Stops φ) {v : Value}
    (hv : v.failure? = none) : (next v).Stops φ := by
  have hnext := hq.2 v
  rwa [hv] at hnext

/-- A plan that is answered a failure is done with it, and goes on behind any other answer. -/
theorem Stops.tells_next {c : Cell} {next : Value → Plan α} (hq : (ask c next).Stops φ) {t : Trace}
    {v : Value} (ht : t.Tells g P [] v.failure?) {s : σ}
    (hnext : v.failure? = none → ((next v).run (g.host links formula) s).2.1.Tells g P []
      (φ ((next v).run (g.host links formula) s).1)) :
    (t ++ ((next v).run (g.host links formula) s).2.1).Tells g P []
      (φ ((next v).run (g.host links formula) s).1) := by
  cases hv : v.failure? with
  | none =>
    rw [hv] at ht
    exact ht.append (hnext hv)
  | some f =>
    rw [hv] at ht
    rw [Value.failure?_eq_some_iff] at hv
    subst hv
    obtain ⟨a, hdone, ha⟩ := (hq.2 (.error f)).stopped
    rw [hdone]
    show (t ++ Trace.empty).Tells g P [] (φ a)
    rwa [ha, Trace.append_empty]

/-- The trace of a plan that stops tells of the failure that is its result. -/
theorem Stops.run_tells {Q : Cell → Prop}
    (hformula : ∀ c s, g.HoldsFormula c →
      (formula c s).2.1.Tells g Q [c] (formula c s).1.failure?)
    {q : Plan α} (hq : q.Stops φ) (hown : q.Own)
    (hasks : q.Asks fun c => g.HoldsFormula c → P c) (s : σ) :
    (q.run (g.host links formula) s).2.1.Tells g P [] (φ (q.run (g.host links formula) s).1) := by
  induction q generalizing s with
  | done a =>
    show Trace.Tells g P [] Trace.empty (φ a)
    rw [show φ a = none from hq]
    exact Trace.tells_nil rfl
  | report f next ih =>
    obtain ⟨a, rfl, ha⟩ := hq.2.stopped
    have hrefused : f.refused = [] := Failure.refused_of_ofFormula hown.1
    have htells : Trace.Tells g P f.refused ⟨[], false, [.reported f]⟩ (some f) :=
      Trace.tells_reported rfl (by simp [hrefused])
    show Trace.Tells g P [] (⟨[], false, [.reported f]⟩ ++ Trace.empty) (φ a)
    rwa [ha, Trace.append_empty, ← hrefused]
  | resolve batch next ih =>
    rw [run_resolve_apply]
    exact Trace.Tells.append ⟨rfl, fun _ => rfl⟩ (ih _ (hq.2 _) (hown.2 _) (hasks _) s)
  | ask c next ih =>
    obtain ⟨hP, hasks⟩ := hasks
    by_cases hc : g.HoldsFormula c
    · rw [run_ask_of_formula hc]
      exact hq.tells_next ((hformula c s hc).pass (hP hc))
        fun hv => ih _ (hq.next hv) (hown _) (hasks _) _
    · rw [run_ask_of_not_formula hc]
      exact hq.tells_next (g.tells_literalTrace P c)
        fun hv => ih _ (hq.next hv) (hown _) (hasks _) _

theorem Asks.imp {Q : Cell → Prop} {q : Plan α} (hq : q.Asks P) (h : ∀ c, P c → Q c) :
    q.Asks Q := by
  induction q with
  | done a => trivial
  | report f next ih => exact ih hq
  | resolve batch next ih => exact fun link => ih link (hq link)
  | ask c next ih => exact ⟨h c hq.1, fun v => ih v (hq.2 v)⟩

variable (links) in
/-- The evaluation of a formula that calls no tolerant function tells of the failure that is its
value, if those of the cells do. -/
theorem evaluateFormula_tells {Q : Cell → Prop} {text : List Char}
    (hcalls : IntolerantCalls (calledIn text))
    (hformula : ∀ c s, g.HoldsFormula c →
      (formula c s).2.1.Tells g Q [c] (formula c s).1.failure?)
    (hP : ∀ c ∈ written .grammar text, g.HoldsFormula c → P c) (s : σ) :
    ((g.host links formula).evaluateFormula .grammar text s).2.1.Tells g P []
      ((g.host links formula).evaluateFormula .grammar text s).1.failure? := by
  rw [← run_evaluateFormula]
  exact (stops_evaluateFormula hcalls).run_tells hformula (own_evaluateFormula _ _)
    ((asks_evaluateFormula _ _).imp hP) s

end Plan

namespace Context
variable {σ : Type} {ctx : Context σ}

theorem tells_breakOff {g : Grid} {f : Failure} (s : σ) :
    (breakOff f s).2.1.Tells g (fun _ => True) f.refused (breakOff f s).1.failure? :=
  Trace.tells_reported rfl fun _ _ => trivial

section
variable (hoff : ctx.activeMemo = Memo.off)
include hoff

theorem sound_of_off : ctx.activeMemo.Sound (fun _ => True) ∅ fun _ => True := by
  rw [hoff]
  exact Memo.sound_off _ _

theorem message_mem_of_evaluate {content : String} {s : σ} {f : Failure}
    (h : (ctx.evaluate content s).1 = .error f) :
    f.message ∈ (ctx.evaluate content s).2.1.messages := by
  have hsound := (evaluate_sound admits_true (sound_of_off hoff) (fun _ _ _ _ => finely_true _ _)
    content (fun _ _ _ => finely_true _ _) (s := s) trivial).2
  rw [h] at hsound
  exact List.mem_map_of_mem (hsound.resolve_left id)

theorem message_mem_of_evaluateCell {c : Cell} {s : σ} {f : Failure}
    (h : (ctx.evaluateCell c s).1 = .error f) :
    f.message ∈ (ctx.evaluateCell c s).2.1.messages := by
  have hsound := (evaluateCell_sound admits_true (sound_of_off hoff)
    (fun _ _ _ _ => finely_true _ _) c (s := s) trivial).2
  rw [h] at hsound
  exact List.mem_map_of_mem (hsound.resolve_left id)

variable (hp : ctx.options.pipeline = .grammar) (hgrid : ctx.grid.Intolerant)
include hp hgrid

/-- Where no formula calls a tolerant function, the evaluation of a formula cell tells of the
failure that is its value. -/
theorem formulaCell_tells (n : Nat) (path : List Cell) {c : Cell} (hc : ctx.grid.HoldsFormula c)
    (s : σ) : (ctx.formulaCell n path c s).2.1.Tells ctx.grid (fun _ => True) [c]
      (ctx.formulaCell n path c s).1.failure? := by
  induction n generalizing path c s with
  | zero =>
    rw [formulaCell, rememberedOr_off hoff]
    split <;> exact tells_breakOff s
  | succ n ih =>
    rw [formulaCell, rememberedOr_off hoff, hp]
    split
    · exact tells_breakOff s
    · have htells := Plan.evaluateFormula_tells (P := fun x => ctx.grid.Refers .grammar x c)
        ctx.links (hgrid c hc) (fun d s hd => ih (c :: path) hd s)
        (fun d hd hformula => ⟨hc, hformula, hd⟩) s
      exact htells.visit

theorem evaluate_tells {content : String}
    (hcontent : Textual.isValid content.toList → IntolerantCalls (calledIn content.toList))
    (s : σ) :
    (ctx.evaluate content s).2.1.Tells ctx.grid
      (fun c => ctx.grid.HoldsFormula c ∧ c ∈ written .grammar content.toList) []
      (ctx.evaluate content s).1.failure? := by
  unfold evaluate
  split
  · rename_i hvalid
    rw [hp]
    exact Plan.evaluateFormula_tells ctx.links (hcontent hvalid)
      (fun d s hd => formulaCell_tells hoff hp hgrid _ [] hd s)
      (fun d hd hformula => ⟨hformula, hd⟩) s
  · split
    · exact Trace.tells_nil rfl
    · show Trace.Tells _ _ [] Trace.empty (Value.ofLiteral content).failure?
      rw [Value.failure?_ofLiteral]
      exact Trace.tells_nil rfl

end

/-- Without a memory, a failure that evaluation comes to is among those reported. If formulas are
read as a whole, and neither the content nor a formula of the grid calls a tolerant function, then
the content comes to a failure exactly if there is a report. That failure is reported first, and
all other reports are of the formula cells on the way to it, from the last one back: each is
referred to by the formula of the next one, and the last one by the content. -/
theorem failure_reported (ctx : Context σ) (hoff : ctx.activeMemo = Memo.off) (s : σ) :
    (∀ content f, (ctx.evaluate content s).1 = .error f →
      f.message ∈ (ctx.evaluate content s).2.1.messages) ∧
    (∀ c f, (ctx.evaluateCell c s).1 = .error f →
      f.message ∈ (ctx.evaluateCell c s).2.1.messages) ∧
    (ctx.options.pipeline = .grammar → ctx.grid.Intolerant →
      ∀ content, (Textual.isValid content.toList → IntolerantCalls (calledIn content.toList)) →
      ((ctx.evaluate content s).1.isError ↔ (ctx.evaluate content s).2.1.messages ≠ []) ∧
      ∀ f, (ctx.evaluate content s).1 = .error f →
        let path := pathToFailure [] (ctx.evaluate content s).2.1.events
        (ctx.evaluate content s).2.1.messages =
            f.message :: path.map (fun c => "invalid cell data: " ++ c.text) ∧
          path.IsChain (ctx.grid.Refers .grammar) ∧
          ∀ c ∈ path.getLast?, ctx.grid.HoldsFormula c ∧ c ∈ written .grammar content.toList) := by
  refine ⟨fun content f => message_mem_of_evaluate hoff,
    fun c f => message_mem_of_evaluateCell hoff, ?_⟩
  intro hp hgrid content hcontent
  have htells := evaluate_tells hoff hp hgrid hcontent s
  constructor
  · rw [Value.isError_eq_isSome]
    exact htells.isSome_iff
  · intro f hf
    rw [Value.failure?_eq_some_iff.2 hf] at htells
    exact htells.messages_eq

/-- The reference that closes a cycle is on the way to the failure, too. -/
theorem failure_reported_cycle :
    let ctx : Context Unit := { grid := Grid.column ["=A2", "=A1"] }
    ctx.activeMemo = Memo.off ∧ ctx.grid.Intolerant ∧ IntolerantCalls (calledIn "=1+A1".toList) ∧
      (ctx.evaluate "=1+A1" ()).1 = .error (.circular .a1) ∧
      (ctx.evaluate "=1+A1" ()).2.1.messages = ["circular reference: A1",
        "invalid cell data: A1", "invalid cell data: A2", "invalid cell data: A1"] := by
  intro ctx
  have hgrid : ctx.grid.Intolerant := by
    have hkeys : ∀ c ∈ ctx.grid.contents.keys,
        IntolerantCalls (calledIn (ctx.grid.content c).toList) := by decide +kernel
    exact fun c hc => hkeys c hc.mem_keys
  have hcontent : IntolerantCalls (calledIn "=1+A1".toList) := by decide +kernel
  have hvalue : (ctx.evaluate "=1+A1" ()).1 = .error (.circular .a1) := by decide +kernel
  have hpath : pathToFailure [] (ctx.evaluate "=1+A1" ()).2.1.events = [.a1, .a2, .a1] := by
    decide +kernel
  have htexts : (Failure.circular .a1).message ::
      [Cell.a1, .a2, .a1].map (fun c => "invalid cell data: " ++ c.text) =
      ["circular reference: A1", "invalid cell data: A1", "invalid cell data: A2",
        "invalid cell data: A1"] := by decide +kernel
  obtain ⟨-, -, hgrammar⟩ := failure_reported ctx rfl ()
  obtain ⟨hmessages, -⟩ := (hgrammar rfl hgrid "=1+A1" fun _ => hcontent).2 _ hvalue
  rw [hpath] at hmessages
  exact ⟨rfl, hgrid, hcontent, hvalue, hmessages.trans htexts⟩

end Context

end Spreadsheet
