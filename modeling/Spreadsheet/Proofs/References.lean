import Spreadsheet.Proofs.Plan
/-!
# What a reference comes to

A reference to a cell with a valid formula passes on what that formula yields.
Any other cell has a value of its own, or a reference to it fails, whatever the
formulas of the grid yield.
-/

namespace Spreadsheet

/-- Evaluation to a value alone, with nothing noted. -/
instance : Observer Id where
  report _ := ()
  read _ := ()
  resolve _ := ()

/-- The value, or else the failure after it is reported. -/
def Evaluation.passOn {m : Type → Type} [Monad m] [Reporter m] : Except Failure Value → m Value
  | .ok v => return v
  | .error f => fail f

namespace Cell

def a1 : Cell := ⟨⟨0, by decide⟩, ⟨0, by decide⟩⟩

def a2 : Cell := ⟨⟨1, by decide⟩, ⟨0, by decide⟩⟩

def a3 : Cell := ⟨⟨2, by decide⟩, ⟨0, by decide⟩⟩

end Cell

namespace Grid

/-- The cell lies in the grid and its content is a valid formula. -/
def HoldsFormula (g : Grid) (c : Cell) : Prop :=
  g.contains c ∧ Textual.isValid (g.content c).toList

instance (g : Grid) (c : Cell) : Decidable (g.HoldsFormula c) :=
  inferInstanceAs (Decidable (_ ∧ _))

/-- The grid of three rows and one column with the contents, from the first row on. -/
def column (contents : List String) : Grid where
  rows := 3
  columns := 1
  contents := .ofList (List.zip [Cell.a1, Cell.a2, Cell.a3] contents)
  rows_le := by decide
  columns_le := by decide

/-- Only cells with contents hold formulas. -/
theorem HoldsFormula.mem_keys {g : Grid} {c : Cell} (h : g.HoldsFormula c) :
    c ∈ g.contents.keys := by
  rw [Std.TreeMap.mem_keys]
  by_cases hmem : c ∈ g.contents
  · exact hmem
  · have hempty : g.content c = "" := Std.TreeMap.getD_eq_fallback hmem
    have hvalid := h.2
    rw [hempty] at hvalid
    cases hvalid

/-- The value of a reference to a cell without a valid formula, or why it has none. -/
def literal (g : Grid) (c : Cell) : Except Failure Value :=
  if !g.contains c then .error (.outsideGrid c)
  else
    let content := g.content c
    if content.isEmpty then .error (.emptyCell c)
    else if content = errorMark then .error (.invalidCell c)
    else if isFormula content then .ok (.text content)
    else .ok (.ofLiteral content)

@[simp]
theorem isError_text (s : String) : (Value.text s).isError = false := rfl

@[simp]
theorem isError_ofLiteral (s : String) : (Value.ofLiteral s).isError = false := by
  unfold Value.ofLiteral
  split <;> rfl

theorem kind_of_literal {g : Grid} {c : Cell} {f : Failure} (h : g.literal c = .error f) :
    f.kind = .invalidReference := by
  simp only [literal] at h
  split at h
  · cases h; rfl
  · split at h
    · cases h; rfl
    · split at h
      · cases h; rfl
      · split at h <;> cases h

/-- A valid formula is neither empty nor the mark of an error. -/
theorem isValid_content {s : String} (h : Textual.isValid s.toList) :
    s.isEmpty = false ∧ s ≠ errorMark := by
  constructor
  · cases hs : s.isEmpty with
    | false => rfl
    | true =>
      rw [String.isEmpty_iff.1 hs] at h
      cases h
  · rintro rfl
    cases h

section
variable {m : Type → Type} [Monad m] [LawfulMonad m] [Observer m] {g : Grid} {c : Cell}

theorem reference_of_formula (h : g.HoldsFormula c) (formula : Cell → m Value) :
    g.reference formula c = (do
      Observer.read c
      let v ← formula c
      if v.isError then Reporter.report (.invalidCell c)
      return v) := by
  obtain ⟨hc, hv⟩ := h
  obtain ⟨hempty, hmark⟩ := isValid_content hv
  simp [reference, cellValue, hc, hv, hempty, hmark]

theorem reference_of_not_formula (h : ¬ g.HoldsFormula c) (formula : Cell → m Value) :
    g.reference formula c = (do
      if g.contains c then Observer.read c
      Evaluation.passOn (g.literal c)) := by
  unfold reference literal
  by_cases hc : g.contains c
  · have hv : Textual.isValid (g.content c).toList = false := by simpa [HoldsFormula, hc] using h
    simp only [hc, hv, cellValue, Bool.not_true, Bool.false_eq_true, if_false, if_true]
    congr 1
    funext _
    split
    · rfl
    · split
      · rfl
      · split <;> simp [Evaluation.passOn]
  · simp [hc, Evaluation.passOn]

/-- References depend only on what the formulas of cells yield. -/
theorem reference_congr {formula formula' : Cell → m Value}
    (h : g.HoldsFormula c → formula c = formula' c) :
    g.reference formula c = g.reference formula' c := by
  by_cases hc : g.HoldsFormula c
  · rw [reference_of_formula hc, reference_of_formula hc, h hc]
  · rw [reference_of_not_formula hc, reference_of_not_formula hc]

end

/-! ## Cells by themselves -/

/-- The value of a cell without a valid formula, or why it has none. -/
def ownValue (g : Grid) (c : Cell) : Except Failure Value :=
  if !g.contains c then .error (.outsideGrid c)
  else if isFormula (g.content c) then .ok (.text (g.content c))
  else .ok (.ofLiteral (g.content c))

theorem kind_of_ownValue {g : Grid} {c : Cell} {f : Failure} (h : g.ownValue c = .error f) :
    f.kind = .invalidReference := by
  unfold ownValue at h
  split at h
  · cases h; rfl
  · split at h <;> cases h

section
variable {m : Type → Type} [Monad m] [Observer m] {g : Grid} {c : Cell}

theorem cellValue_of_formula (h : g.HoldsFormula c) (formula : Cell → m Value) :
    g.cellValue formula c = formula c := by
  simp [cellValue, h.1, h.2]

theorem cellValue_of_not_formula (h : ¬ g.HoldsFormula c) (formula : Cell → m Value) :
    g.cellValue formula c = Evaluation.passOn (g.ownValue c) := by
  unfold cellValue ownValue
  by_cases hc : g.contains c
  · have hv : Textual.isValid (g.content c).toList = false := by simpa [HoldsFormula, hc] using h
    simp only [hc, hv, Bool.not_true, Bool.false_eq_true, if_false]
    split <;> rfl
  · simp [hc, Evaluation.passOn]

end

/-! ## In a run -/

/-- The value of a reference to a cell without a valid formula. -/
def literalValue (g : Grid) (c : Cell) : Value :=
  match g.literal c with
  | .ok v => v
  | .error f => .error f

/-- What a reference to a cell without a valid formula leaves behind. -/
def literalTrace (g : Grid) (c : Cell) : Trace where
  reads := if g.contains c then [c] else []
  volatile := false
  events :=
    match g.literal c with
    | .ok _ => []
    | .error f => [.reported f]

/-- What a reference leaves behind when the formula of the cell yields a value: the cell is
read, and a failure is reported again. -/
def passTrace (c : Cell) (v : Value) (t : Trace) : Trace where
  reads := c :: t.reads
  volatile := t.volatile
  events := t.events ++ if v.isError then [.reported (.invalidCell c)] else []

section
variable {σ : Type} {g : Grid} {c : Cell}

theorem run_reference_of_formula (h : g.HoldsFormula c) (formula : Cell → Run σ Value) (s : σ) :
    g.reference formula c s = ((formula c s).1, passTrace c (formula c s).1 (formula c s).2.1,
      (formula c s).2.2) := by
  rw [reference_of_formula h]
  cases he : (formula c s).1.isError <;>
    simp [bind, Run.bind, he, Observer.read, Run.read, Reporter.report, Run.emit, pure,
      Run.pure, Trace.append_def, Trace.empty, passTrace]

theorem run_reference_of_not_formula (h : ¬ g.HoldsFormula c) (formula : Cell → Run σ Value)
    (s : σ) : g.reference formula c s = (g.literalValue c, g.literalTrace c, s) := by
  rw [reference_of_not_formula h]
  by_cases hc : g.contains c <;> cases hl : g.literal c <;>
    simp [bind, Run.bind, hc, hl, Observer.read, Run.read, Evaluation.passOn, Evaluation.fail,
      Reporter.report, Run.emit, pure, Run.pure, Trace.append_def, Trace.empty, literalValue,
      literalTrace]

end

end Grid

namespace Plan
variable {σ α : Type}

theorem run_report_apply (h : Host (Run σ)) (f : Failure) (next : Plan α) (s : σ) :
    (report f next).run h s = ((next.run h s).1, ⟨[], false, [.reported f]⟩ ++ (next.run h s).2.1,
      (next.run h s).2.2) := rfl

variable {g : Grid} {links : LinkSource} {formula : Cell → Run σ Value}

theorem run_resolve_apply (batch : List Link) (next : (Link → Option String) → Plan α) (s : σ) :
    (resolve batch next).run (g.host links formula) s =
      let r := (next (links batch)).run (g.host links formula) s
      (r.1, ⟨[], true, [.resolved batch]⟩ ++ r.2.1, r.2.2) := rfl

theorem run_ask_of_formula {c : Cell} (hc : g.HoldsFormula c) (next : Value → Plan α) (s : σ) :
    (ask c next).run (g.host links formula) s =
      let r := formula c s
      let r' := (next r.1).run (g.host links formula) r.2.2
      (r'.1, Grid.passTrace c r.1 r.2.1 ++ r'.2.1, r'.2.2) := by
  show (Run.bind (g.reference formula c) fun v => (next v).run _) s = _
  simp only [Run.bind, Grid.run_reference_of_formula hc]

theorem run_ask_of_not_formula {c : Cell} (hc : ¬ g.HoldsFormula c) (next : Value → Plan α)
    (s : σ) :
    (ask c next).run (g.host links formula) s =
      let r := (next (g.literalValue c)).run (g.host links formula) s
      (r.1, g.literalTrace c ++ r.2.1, r.2.2) := by
  show (Run.bind (g.reference formula c) fun v => (next v).run _) s = _
  simp only [Run.bind, Grid.run_reference_of_not_formula hc]

end Plan

end Spreadsheet
