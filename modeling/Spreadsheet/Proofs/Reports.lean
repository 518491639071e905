import Spreadsheet.Proofs.Promises
/-!
# What formulas report

The failures that a formula reports by itself concern its syntax, its functions,
its numbers and its links. Those that concern cells are reported by the
references to them. `Plan.own_evaluateFormula` says so of the plan of a formula.
An expression asks for no batch by itself, and it fails for want of a link only
if the link stands in it: `Plan.confined_eval`.
-/

namespace Spreadsheet

/-- Each batch that is asked for satisfies `R`, and each failure that is reported `P`. -/
def Watch.confining (R : List Link → Prop) (P : Failure → Prop) : Watch Unit where
  report f behind s := P f ∧ behind s
  resolve batch behind s := R batch ∧ behind s
  ask _ behind s := ∀ v, behind v s
  report_mono h hs := ⟨hs.1, h _ hs.2⟩
  resolve_mono h hs := ⟨hs.1, h _ hs.2⟩
  ask_mono h hs v := h v _ (hs v)

/-- Nothing is said of values, only of what happens on the way to them. -/
def Promise.confined (R : List Link → Prop) {P : Failure → Prop}
    (hP : ∀ f : Failure, f.OfCalculation → P f) : Promise Unit where
  toWatch := .confining R P
  ready _ := True
  failed _ _ := True
  fine _ := True
  seen _ := True
  admits := admits_true
  fails h _ := ⟨hP _ h, trivial⟩
  asks _ v := by cases v <;> simp [Outlook.Good]

namespace Plan
variable {α : Type}

/-- Each batch that the plan asks for satisfies `R`, and each failure that it reports itself
satisfies `P`. -/
def Confined (R : List Link → Prop) (P : Failure → Prop) (p : Plan α) : Prop :=
  p.Ends (.confining R P) (fun _ _ => True) ()

/-- All failures that the plan itself reports arise in the formula. -/
def Own (p : Plan α) : Prop := p.Confined (fun _ => True) Failure.OfFormula

/-- An expression asks for no batch by itself. It reports that a link cannot be looked up only
if the link stands in it and has no content but the mark of an error. -/
theorem confined_eval {R : List Link → Prop} {P : Failure → Prop}
    (hP : ∀ f : Failure, f.OfCalculation → P f) {link : Link → Option String} (e : Expr)
    (hlost : ∀ l ∈ e.links, link l = none ∨ link l = some errorMark → P (.lookupFailed l)) :
    Confined R P (e.eval ⟨host.reference, link⟩) := by
  have hcovers : (Promise.confined R hP).Covers link e.numbers e.widths e.links e.calls :=
    ⟨finely_true _ _, fun l hl h _ _ => ⟨hlost l hl h, trivial⟩,
      fun _ _ f _ => Promise.takes_of_forall (fun _ => trivial) (fun _ => trivial) f⟩
  exact (Promise.keeps_eval e hcovers () trivial).mono fun _ _ _ => trivial

/-- All that a formula reports by itself arises in it. -/
theorem own_evaluateFormula (pipeline : Pipeline) (formula : List Char) :
    Own (host.evaluateFormula pipeline formula) := by
  let q := Promise.confined (fun _ => True) fun _ h => Failure.OfCalculation.ofFormula h
  have hq : q.Lasting :=
    { fails := fun _ hf _ _ => ⟨hf, trivial⟩
      resolves := fun _ _ _ => ⟨trivial, trivial⟩
      ready := fun _ => trivial
      steady := fun _ => ⟨fun _ h => ⟨h.1, h.2, trivial⟩, fun _ h => ⟨h.1, h.2, trivial⟩,
        fun _ h v => ⟨h v, trivial⟩⟩ }
  have hkeeps : q.Keeps [] (host.evaluateFormula pipeline formula) :=
    Promise.keeps_evaluateFormula hq fun e _ =>
      Promise.suits_of_forall (finely_true _ _) (fun _ => trivial) (fun _ => trivial)
  exact (hkeeps () trivial).mono fun _ _ _ => trivial

end Plan

end Spreadsheet
