import Spreadsheet.Proofs.Plan
/-!
# Following a plan

A plan is followed step by step. A `Watch` says what has to hold before a step so
that something holds behind it, and `Plan.Ends` what has to hold before a whole
plan. Plans are put together as computations are, `Plan.Ends.bind`, and
what no step undoes is kept throughout, `Plan.Ends.and_steady`.
-/

namespace Spreadsheet

/-- What has to hold in a state before each kind of step, so that something holds behind it. -/
structure Watch (S : Type) where
  report : Failure → (behind : S → Prop) → S → Prop
  resolve : List Link → (behind : S → Prop) → S → Prop
  ask : Cell → (behind : Value → S → Prop) → S → Prop
  report_mono {f P Q s} : (∀ s, P s → Q s) → report f P s → report f Q s
  resolve_mono {batch P Q s} : (∀ s, P s → Q s) → resolve batch P s → resolve batch Q s
  ask_mono {c P Q s} : (∀ v s, P v s → Q v s) → ask c P s → ask c Q s

/-- No step undoes what holds. -/
structure Watch.Steady {S : Type} (w : Watch S) (I : S → Prop) : Prop where
  report {f P s} : I s → w.report f P s → w.report f (fun s => P s ∧ I s) s
  resolve {batch P s} : I s → w.resolve batch P s → w.resolve batch (fun s => P s ∧ I s) s
  ask {c P s} : I s → w.ask c P s → w.ask c (fun v s => P v s ∧ I s) s

namespace Plan

section
variable {S α β : Type} {w : Watch S} {post : α → S → Prop} {post' : β → S → Prop} {s : S}

/-- Each way through the plan ends in a result and a state with `post`. -/
def Ends (w : Watch S) (post : α → S → Prop) : Plan α → S → Prop
  | done a => post a
  | report f next => w.report f (next.Ends w post)
  | resolve batch next => w.resolve batch fun s => ∀ link, (next link).Ends w post s
  | ask c next => w.ask c fun v => (next v).Ends w post

theorem Ends.bind {p : Plan α} {k : α → Plan β} (hp : p.Ends w post s)
    (hk : ∀ a s, post a s → (k a).Ends w post' s) : (p >>= k).Ends w post' s := by
  show (p.bind k).Ends w post' s
  induction p generalizing s with
  | done a => exact hk a s hp
  | report f next ih => exact w.report_mono (fun s h => ih h) hp
  | resolve batch next ih => exact w.resolve_mono (fun s h link => ih link (h link)) hp
  | ask c next ih => exact w.ask_mono (fun v s h => ih v h) hp

theorem Ends.mono {post' : α → S → Prop} {p : Plan α} (hp : p.Ends w post s)
    (h : ∀ a s, post a s → post' a s) : p.Ends w post' s := by
  rw [← bind_pure p]
  exact hp.bind h

/-- What no step undoes still holds at the end. -/
theorem Ends.and_steady {I : S → Prop} {p : Plan α} (hp : p.Ends w post s) (hI : w.Steady I)
    (hs : I s) : p.Ends w (fun a s => post a s ∧ I s) s := by
  induction p generalizing s with
  | done a => exact ⟨hp, hs⟩
  | report f next ih => exact w.report_mono (fun s h => ih h.1 h.2) (hI.report hs hp)
  | resolve batch next ih =>
    exact w.resolve_mono (fun s h link => ih link (h.1 link) h.2) (hI.resolve hs hp)
  | ask c next ih => exact w.ask_mono (fun v s h => ih v h.1 h.2) (hI.ask hs hp)

/-! ## Plans that may stop at a failure -/

variable {failed : Failure → S → Prop}

/-- The plan stops at a failure with `failed`, or ends as `post` says. -/
def EndsExcept (w : Watch S) (failed : Failure → S → Prop) (post : α → S → Prop)
    (x : ExceptT Failure Plan α) : S → Prop :=
  x.run.Ends w fun r s =>
    match r with
    | .ok a => post a s
    | .error f => failed f s

theorem EndsExcept.bind {x : ExceptT Failure Plan α} {k : α → ExceptT Failure Plan β}
    (hx : EndsExcept w failed post x s)
    (hk : ∀ a s, post a s → EndsExcept w failed post' (k a) s) :
    EndsExcept w failed post' (x >>= k) s := by
  unfold EndsExcept
  rw [ExceptT.run_bind]
  refine Ends.bind hx ?_
  intro r s hr
  cases r with
  | error f => exact hr
  | ok a => exact hk a s hr

theorem endsExcept_lift {p : Plan α} (hp : p.Ends w post s) :
    EndsExcept w failed post (liftM p : ExceptT Failure Plan α) s :=
  Ends.bind hp fun _ _ h => h

/-- A value that settles a computation is one that it comes to, or a failure. -/
theorem ends_settle {good : Value → S → Prop} {x : ExceptT Failure Plan Value}
    (hx : EndsExcept w failed good x s) (hfailed : ∀ f s, failed f s → good (.error f) s) :
    (Evaluation.settle x).Ends w good s := by
  refine Ends.bind hx ?_
  intro r s hr
  cases r with
  | error f => exact hfailed f s hr
  | ok v => exact hr

end

end Plan

end Spreadsheet
