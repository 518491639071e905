import Mathlib.Data.Finset.Card
import Mathlib.Data.Finset.Dedup
import Spreadsheet.Proofs.References
/-!
# Evaluation with a call stack

`Context.formulaCell` is told on which path it reaches a cell, and what it reads comes out of the
trace of a run. Here evaluation keeps all this in a state that it changes as it goes: the set of
the cells under evaluation and a stack of frames, one for each of them, that collect what
formulas read. Nothing but the number of nested cells bounds it: an evaluation that needs more
`levels` than it is given comes to nothing.
-/

namespace Spreadsheet

/-- What the formula of a cell under evaluation has read so far, and whether its value is
volatile. -/
structure Frame where
  owner : Cell
  reads : List Cell
  volatile : Bool

namespace Frame

/-- The frame of a formula that goes on to leave a trace. -/
def add (t : Trace) (f : Frame) : Frame :=
  { f with reads := f.reads ++ t.reads, volatile := f.volatile || t.volatile }

/-- The frame of a formula whose value is volatile. -/
def mark (f : Frame) : Frame := { f with volatile := true }

end Frame

/-- The cells under evaluation and their frames, the innermost first. -/
structure CallStack where
  visiting : Finset Cell
  frames : List Frame

namespace CallStack

/-- Nothing is under evaluation. -/
def empty : CallStack := ⟨∅, []⟩

/-- The cells that have a frame, the innermost first. -/
def owners (s : CallStack) : List Cell := s.frames.map Frame.owner

/-- The evaluation of a cell begins. -/
def push (c : Cell) (s : CallStack) : CallStack := ⟨insert c s.visiting, ⟨c, [], false⟩ :: s.frames⟩

/-- Changes the innermost frame, if there is one. -/
def modifyTop (f : Frame → Frame) (s : CallStack) : CallStack :=
  { s with frames := s.frames.modifyHead f }

/-- All that is under evaluation becomes volatile. -/
def markAll (s : CallStack) : CallStack := { s with frames := s.frames.map Frame.mark }

/-- What the innermost formula has read, and whether it is volatile. -/
def top (s : CallStack) : List Cell × Bool :=
  match s.frames with
  | [] => ([], false)
  | f :: _ => (f.reads, f.volatile)

/-- The evaluation of a cell ends. A volatile cell makes the one that refers to it volatile. -/
def pop (c : Cell) (s : CallStack) : CallStack :=
  let rest : CallStack := ⟨s.visiting.erase c, s.frames.tail⟩
  if s.top.2 then rest.modifyTop Frame.mark else rest

end CallStack

/-- The state of an evaluation with a call stack, and what there was on the way. -/
structure Machine (σ : Type) where
  stack : CallStack
  /-- All stacks that there have been after a change. -/
  past : List CallStack
  events : List Event
  memory : σ

/-- A computation with a call stack, which may need more levels than it has. -/
abbrev Stacked (σ : Type) : Type → Type := StateT (Machine σ) Option

namespace Stacked
variable {σ : Type}

/-- Changes the stack. -/
def change (f : CallStack → CallStack) : Stacked σ Unit :=
  modify fun s => { s with stack := f s.stack, past := s.past ++ [f s.stack] }

/-- Takes note of an event. -/
def emit (e : Event) : Stacked σ Unit := modify fun s => { s with events := s.events ++ [e] }

/-- What is read goes into the innermost frame, and links make it volatile. -/
instance : Observer (Stacked σ) where
  report f := emit (.reported f)
  read c := change (·.modifyTop fun f => { f with reads := f.reads ++ [c] })
  resolve batch := do
    change (·.modifyTop Frame.mark)
    emit (.resolved batch)

/-- The stack at hand. -/
def stack : Stacked σ CallStack := Machine.stack <$> get

/-- The remembered value of a cell. -/
def lookup (memo : Memo σ) (c : Cell) : Stacked σ (Option Value) := do
  let s ← get
  let (value, memory) := memo.lookup c s.memory
  set { s with memory }
  return value

/-- Takes note of the value of an evaluated cell. -/
def store (memo : Memo σ) (c : Cell) (value : Value) (reads : List Cell) (volatile : Bool) :
    Stacked σ Unit :=
  modify fun s => { s with memory := memo.store c value reads volatile s.memory }

end Stacked

namespace Context
variable {σ : Type} (ctx : Context σ)

/-- Ends a chain of formula cells. All that is under evaluation becomes volatile at once. -/
def stackedBreakOff (f : Failure) : Stacked σ Value := do
  Stacked.change CallStack.markAll
  Evaluation.fail f

/-- Evaluates the formula of a cell by `x` in a frame of its own, and takes note of its value. -/
def stackedVisit (c : Cell) (x : Stacked σ Value) : Stacked σ Value := do
  Stacked.change (·.push c)
  Stacked.emit (.opened c)
  let value ← x
  let (reads, volatile) := (← Stacked.stack).top
  Stacked.change (·.pop c)
  Stacked.emit (.closed c value reads volatile)
  Stacked.store ctx.activeMemo c value reads volatile
  return value

/-- The value of a cell with a valid formula. At most `levels` such cells may be nested. -/
def stackedCell : (levels : Nat) → Cell → Stacked σ Value
  | 0, _ => fun _ => none
  | levels + 1, c => do
    match ← Stacked.lookup ctx.activeMemo c with
    | some value => return value
    | none =>
      let stack ← Stacked.stack
      if c ∈ stack.visiting ∨ ctx.options.maxDepth ≤ stack.visiting.card then
        stackedBreakOff (if c ∈ stack.visiting then .circular c else .chainTooDeep c)
      else
        ctx.stackedVisit c <|
          (ctx.grid.host ctx.links (stackedCell levels)).evaluateFormula
            ctx.options.pipeline (ctx.grid.content c).toList

/-! ## Entry points -/

/-- The value of a cell. -/
def stackedEvaluateCell (levels : Nat) (c : Cell) : Stacked σ Value :=
  ctx.grid.cellValue (ctx.stackedCell levels) c

/-- The text shown for a cell. -/
def stackedDisplayCell (levels : Nat) (c : Cell) : Stacked σ String := do
  if !ctx.grid.contains c || Textual.isValid (ctx.grid.content c).toList then
    return (← ctx.stackedEvaluateCell levels c).display
  else return ctx.grid.content c

/-- The value of a content that stands in no cell. -/
def stackedEvaluate (levels : Nat) (content : String) : Stacked σ Value :=
  if Textual.isValid content.toList then
    (ctx.grid.host ctx.links (ctx.stackedCell levels)).evaluateFormula
      ctx.options.pipeline content.toList
  else if isFormula content then return .text content
  else return .ofLiteral content

/-- The text shown for a content that stands in no cell. -/
def stackedDisplay (levels : Nat) (content : String) : Stacked σ String := do
  if Textual.isValid content.toList then return (← ctx.stackedEvaluate levels content).display
  else return content

end Context

/-! ## Stacks in order -/

namespace Grid

/-- The cells of the grid that hold valid formulas. -/
def formulaCells (g : Grid) : List Cell := g.contents.keys.filter (g.HoldsFormula ·)

theorem mem_formulaCells {g : Grid} {c : Cell} : c ∈ g.formulaCells ↔ g.HoldsFormula c := by
  unfold formulaCells
  rw [List.mem_filter, decide_eq_true_iff]
  exact ⟨fun h => h.2, fun h => ⟨h.mem_keys, h⟩⟩

end Grid

namespace Context
variable {σ : Type} (ctx : Context σ) {stack stack' : CallStack} {c : Cell}

/-- How many formula cells can be under evaluation at a time. -/
def depthLimit : Nat := min ctx.options.maxDepth ctx.grid.formulaCells.length

/-- The cells under evaluation are those that have a frame, each of them one. They hold formulas,
and there are no more of them than there can be. -/
structure Orderly (stack : CallStack) : Prop where
  visiting_eq : stack.visiting = stack.owners.toFinset
  nodup : stack.owners.Nodup
  holdsFormula : ∀ c ∈ stack.owners, ctx.grid.HoldsFormula c
  length_le : stack.frames.length ≤ ctx.depthLimit

variable {ctx}

theorem orderly_empty : ctx.Orderly .empty where
  visiting_eq := rfl
  nodup := .nil
  holdsFormula _ h := nomatch h
  length_le := Nat.zero_le _

namespace Orderly

theorem mem_visiting (h : ctx.Orderly stack) : c ∈ stack.visiting ↔ c ∈ stack.owners := by
  rw [h.visiting_eq, List.mem_toFinset]

theorem card_visiting (h : ctx.Orderly stack) : stack.visiting.card = stack.owners.length := by
  rw [h.visiting_eq, List.toFinset_card_of_nodup h.nodup]

/-- What changes frames alone, but not whose they are, keeps the order. -/
theorem of_owners_eq (h : ctx.Orderly stack) (hvisiting : stack'.visiting = stack.visiting)
    (howners : stack'.owners = stack.owners) : ctx.Orderly stack' where
  visiting_eq := by rw [hvisiting, howners, h.visiting_eq]
  nodup := howners ▸ h.nodup
  holdsFormula := howners ▸ h.holdsFormula
  length_le := by
    have hlength := congrArg List.length howners
    simp only [CallStack.owners, List.length_map] at hlength
    rw [hlength]
    exact h.length_le

/-- Another cell may be evaluated if it is not yet and the limit on depth allows for it. -/
theorem push (h : ctx.Orderly stack) (hformula : ctx.grid.HoldsFormula c)
    (hc : c ∉ stack.owners) (hdepth : stack.owners.length < ctx.options.maxDepth) :
    ctx.Orderly (stack.push c) := by
  have hnodup : (c :: stack.owners).Nodup := List.nodup_cons.2 ⟨hc, h.nodup⟩
  have hholds : ∀ d ∈ c :: stack.owners, ctx.grid.HoldsFormula d :=
    List.forall_mem_cons.2 ⟨hformula, h.holdsFormula⟩
  refine ⟨?_, hnodup, hholds, ?_⟩
  · show insert c stack.visiting = (c :: stack.owners).toFinset
    rw [h.visiting_eq, List.toFinset_cons]
  · have hcells : (c :: stack.owners).length ≤ ctx.grid.formulaCells.length :=
      (hnodup.subperm fun d hd => Grid.mem_formulaCells.2 (hholds d hd)).length_le
    simp only [CallStack.owners, List.length_cons, List.length_map] at hcells hdepth
    exact Nat.le_min.2 ⟨hdepth, hcells⟩

end Orderly

end Context

end Spreadsheet
