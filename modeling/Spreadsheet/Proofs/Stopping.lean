import Spreadsheet.Proofs.Promises
/-!
# Stopping at the first failure

Only an average and a count go on when an argument fails. A formula read as a
whole that calls neither is done as soon as it reports a failure or is answered
one, and that failure is its value: `Plan.stops_evaluateFormula`.
-/

namespace Spreadsheet

/-- None of the names stands for a function that is tolerant. -/
def IntolerantCalls (names : List String) : Prop :=
  ∀ name ∈ names, (Function.ofName? name).all (!·.isTolerant)

instance (names : List String) : Decidable (IntolerantCalls names) :=
  inferInstanceAs (Decidable (∀ name ∈ names, _))

/-- The failure that the value is, if any. -/
def Value.failure? : Value → Option Failure
  | .error f => some f
  | _ => none

theorem Value.isError_eq_isSome (v : Value) : v.isError = v.failure?.isSome := by
  cases v <;> rfl

theorem Value.failure?_eq_some_iff {v : Value} {f : Failure} :
    v.failure? = some f ↔ v = .error f := by
  cases v <;> simp [failure?]

theorem Value.failure?_ofLiteral (s : String) : (Value.ofLiteral s).failure? = none := by
  unfold ofLiteral
  split <;> rfl

/-- The state is the failure that was reported or was an answer, if any. Nothing is asked for or
reported after it. -/
def Watch.stopping : Watch (Option Failure) where
  report f behind s := s = none ∧ behind (some f)
  resolve _ behind s := s = none ∧ behind none
  ask _ behind s := s = none ∧ ∀ v : Value, behind v v.failure?
  report_mono h hs := ⟨hs.1, h _ hs.2⟩
  resolve_mono h hs := ⟨hs.1, h _ hs.2⟩
  ask_mono h hs := ⟨hs.1, fun v => h v _ (hs.2 v)⟩

/-- Evaluation comes to the failure that it has met, and goes on while there is none. -/
def Promise.stopping : Promise (Option Failure) where
  toWatch := .stopping
  ready s := s = none
  failed f s := s = some f
  fine _ := True
  seen _ := True
  admits := admits_true
  fails _ hs := ⟨hs, rfl⟩
  asks hs := ⟨hs, fun v => by cases v <;> simp [Outlook.Good, Value.failure?]⟩

theorem Promise.failure?_of_good {cells : List Cell} {v : Value} {s : Option Failure}
    (hv : stopping.Good cells v s) : v.failure? = s := by
  cases v with
  | error f => exact hv.symm
  | number x => exact hv.1.symm
  | text x => exact hv.1.symm

namespace Plan
variable {α : Type} {φ : α → Option Failure}

/-- The plan is done with the first failure that it reports or is answered, and with none
otherwise. `φ` tells which results are failures. -/
def Stops (φ : α → Option Failure) (p : Plan α) : Prop :=
  p.Ends .stopping (fun a s => φ a = s) none

/-- Nothing is left of a plan after a failure but a result. -/
theorem Ends.stopped {post : α → Option Failure → Prop} {p : Plan α} {f : Failure}
    (hp : p.Ends .stopping post (some f)) : ∃ a, p = done a ∧ post a (some f) := by
  cases p with
  | done a => exact ⟨a, rfl, hp⟩
  | report f next => cases hp.1
  | resolve batch next => cases hp.1
  | ask c next => cases hp.1

/-- A formula that is read as a whole and calls no tolerant function stops at its first
failure. -/
theorem stops_evaluateFormula {formula : List Char} (h : IntolerantCalls (calledIn formula)) :
    Stops Value.failure? (host.evaluateFormula .grammar formula) := by
  have hq : Promise.stopping.OfFormulas :=
    ⟨fun _ _ _ hs => ⟨hs, rfl⟩, fun _ _ hs => ⟨hs, rfl⟩⟩
  have hsuits : ∀ e ∈ readings .grammar formula, Promise.stopping.Suits e := by
    refine fun e he => ⟨finely_true _ _, fun name hname f hf => ⟨?_, fun _ _ => trivial⟩⟩
    intro htolerant
    have hall := h name (mem_calledIn he hname)
    rw [hf, Option.all_some, htolerant] at hall
    cases hall
  exact (Promise.keeps_grammar hq hsuits none rfl).mono fun v s => Promise.failure?_of_good

end Plan

end Spreadsheet
