import Spreadsheet.Proofs.Promises
/-!
# What a formula needs

A formula is strict if it calls no function that may do without the value of an
argument. A strict formula then has no value but a failure unless each cell
written in it has one: `Plan.needs_evaluateFormula`.
-/

namespace Spreadsheet

/-- Those of the names that stand for functions stand for strict ones. -/
def StrictCalls (names : List String) : Prop :=
  ∀ name ∈ names, (Function.ofName? name).all Function.isStrict

instance (names : List String) : Decidable (StrictCalls names) :=
  inferInstanceAs (Decidable (∀ name ∈ names, _))

/-- Where a value for the cell is an answer, all is well. -/
def Watch.demanding (d : Cell) : Watch Unit where
  report _ behind s := behind s
  resolve _ behind s := behind s
  ask c behind s := ∀ v : Value, (c = d ∧ v.isError = false) ∨ behind v s
  report_mono h := h _
  resolve_mono h := h _
  ask_mono h hs v := (hs v).imp_right (h v _)

/-- Evaluation comes to no value by way of the cell. -/
def Promise.needing (d : Cell) : Promise Unit where
  toWatch := .demanding d
  ready _ := True
  failed _ _ := True
  fine _ := True
  seen c := c ≠ d
  admits := admits_true
  fails _ _ := trivial
  asks {c s} _ v := by
    cases v with
    | error f => exact .inr trivial
    | number x | text x =>
      by_cases hc : c = d
      · exact .inl ⟨hc, rfl⟩
      · exact .inr (by simp [Outlook.Good, hc])

namespace Plan
variable {α : Type} {d : Cell}

/-- On each way to a result in `ok` the plan asks for the cell and is answered no failure. -/
def Demands (d : Cell) (ok : α → Prop) (p : Plan α) : Prop :=
  p.Ends (.demanding d) (fun a _ => ¬ ok a) ()

/-- The plan has no value but a failure unless the cell has one. -/
def Needs (d : Cell) (p : Plan Value) : Prop := p.Demands d fun v => v.isError = false

/-- A strict formula has no value but a failure unless each cell written in it has one. -/
theorem needs_evaluateFormula {formula : List Char} (hstrict : StrictCalls (calledIn formula))
    (hd : d ∈ written .grammar formula) : Needs d (host.evaluateFormula .grammar formula) := by
  have hq : (Promise.needing d).OfFormulas := ⟨fun _ _ _ _ => trivial, fun _ _ _ => trivial⟩
  have hsuits : ∀ e ∈ readings .grammar formula, (Promise.needing d).Suits e := by
    refine fun e he => ⟨finely_true _ _, fun name hname f hf => ⟨fun _ _ _ _ => trivial, ?_⟩⟩
    intro hnot
    have hall := hstrict name (mem_calledIn he hname)
    rw [hf, Option.all_some, hnot] at hall
    cases hall
  refine (Promise.keeps_grammar hq hsuits () trivial).mono fun v _ hv hvalue => ?_
  exact Promise.seen_of_good hv hvalue d hd rfl

end Plan

end Spreadsheet
