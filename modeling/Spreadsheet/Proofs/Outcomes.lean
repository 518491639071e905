import Mathlib.Data.Set.Insert
import Spreadsheet.Proofs.Promises
/-!
# What formulas may come to

Whatever a formula comes to can be traced back. A failure was reported on the
way, by the formula or by what it refers to. A number was written in the
formula or in a cell or link, was counted, or was computed and found finite.
`Plan.sound_evaluateFormula` says so of the plan of a formula.
-/

namespace Spreadsheet

/-- The numbers are among the fine ones and the failures among those that are known. -/
def Value.Sound (fine : Float → Prop) (known : Set Failure) : Value → Prop
  | .number x => fine x
  | .text _ => True
  | .error f => f ∈ known

theorem Value.Sound.mono {fine : Float → Prop} {known known' : Set Failure} {v : Value}
    (hv : v.Sound fine known) (h : known ⊆ known') : v.Sound fine known' := by
  cases v with
  | number x => exact hv
  | text s => trivial
  | error f => exact h hv

theorem Admits.ofLiteral {fine : Float → Prop} (hfine : Admits fine) (known : Set Failure)
    (s : String) : (Value.ofLiteral s).Sound fine known := by
  unfold Value.ofLiteral
  split
  · exact hfine.read? ‹_›
  · trivial

/-- The state is the set of known failures. A failure is known from when it is reported or is an
answer, and answers are sound. -/
def Watch.knowing (fine : Float → Prop) : Watch (Set Failure) where
  report f behind known := behind (insert f known)
  resolve _ behind known := behind known
  ask _ behind known := ∀ (v : Value) (known' : Set Failure), known ⊆ known' →
    v.Sound fine known' → behind v known'
  report_mono h := h _
  resolve_mono h := h _
  ask_mono h hs v known' hknown hv := h v known' (hs v known' hknown hv)

/-- Evaluation comes to known failures and to fine numbers. -/
def Promise.sound {fine : Float → Prop} (hfine : Admits fine) : Promise (Set Failure) where
  toWatch := .knowing fine
  ready _ := True
  failed f known := f ∈ known
  fine := fine
  seen _ := True
  admits := hfine
  fails {f known} _ _ := Set.mem_insert f known
  asks _ v known' _ hv := by
    cases v with
    | number x => exact ⟨trivial, hv, fun _ _ => trivial⟩
    | text x => exact ⟨trivial, fun _ _ => trivial⟩
    | error f => exact hv

namespace Promise
variable {fine : Float → Prop} (hfine : Admits fine)

theorem sound_of_good {cells : List Cell} {v : Value} {known : Set Failure}
    (hv : (sound hfine).Good cells v known) : v.Sound fine known := by
  cases v with
  | number x => exact hv.2.1
  | text x => trivial
  | error f => exact hv

theorem lasting_sound : (sound hfine).Lasting where
  fails _ _ _ _ := Set.mem_insert _ _
  resolves _ _ _ := trivial
  ready _ := trivial
  steady _ := ⟨fun hf h => ⟨h, Set.mem_insert_of_mem _ hf⟩, fun hf h => ⟨h, hf⟩,
    fun hf h v known' hknown hv => ⟨h v known' hknown hv, hknown hf⟩⟩

end Promise

namespace Plan
variable {fine : Float → Prop}

/-- Whatever is known before, the plan ends in a sound value. -/
def Sound (fine : Float → Prop) (p : Plan Value) : Prop :=
  ∀ known, p.Ends (.knowing fine) (fun v known => v.Sound fine known) known

/-- A formula comes to a sound value if the numbers written in it are fine and so are the counts
of arguments. -/
theorem sound_evaluateFormula (hfine : Admits fine) {pipeline : Pipeline} {formula : List Char}
    (h : ∀ e ∈ readings pipeline formula, Finely fine e.numbers e.widths) :
    Sound fine (host.evaluateFormula pipeline formula) := by
  have hsuits : ∀ e ∈ readings pipeline formula, (Promise.sound hfine).Suits e := fun e he =>
    Promise.suits_of_forall (h e he) (fun _ => trivial) (fun _ => trivial)
  intro known
  exact (Promise.keeps_evaluateFormula (Promise.lasting_sound hfine) hsuits known trivial).mono
    fun v known => Promise.sound_of_good hfine

end Plan

end Spreadsheet
