import Mathlib.Control.Monad.Basic
import Spreadsheet.Proofs.Levels
import Spreadsheet.Proofs.NestingLimit
/-!
# The limit on groups

Reduction gives up, with a failure that nothing reports, at a group that stands
within as many others as the limit on groups. As it enters no more groups, one
inside the other, than its text is nested deep, that never happens to a formula
whose nesting is within bounds: `groupLimit_suffices`. No lower limit would do:
an operand nested as deeply as a formula may be takes all of it,
`reduceOr_normalize_groups`.
-/

namespace Spreadsheet.Textual

section
variable {m : Type → Type} [Monad m] {beyond operand : List Char → m Value}
  {combine : Operator → Value → Value → m Value} {text : List Char}

/-! ## Operands in groups -/

theorem groups_succ (n : Nat) : groups (n + 1) text = groups n ('(' :: text ++ [')']) := by
  induction n with
  | zero => rfl
  | succ n ih =>
    show '(' :: groups (n + 1) text ++ [')'] = _
    rw [ih]
    rfl

theorem spreadAll_groups (n : Nat) :
    spreadAll (groups n text) = groups (3 * n) (spreadAll text) := by
  induction n with
  | zero => rfl
  | succ n ih =>
    show spreadAll ('(' :: groups n text ++ [')']) = groups (3 * n + 1 + 1 + 1) (spreadAll text)
    rw [List.cons_append, spreadAll_group, ih]
    simp [enclose, spreadAll]

/-- Normalised, an operand stands in three groups for each of its own and in two more. -/
theorem normalize_groups (h : Closed text) (n : Nat) :
    normalize (groups n text) = groups (3 * n + 2) (spreadAll text) := by
  rw [normalize_closed (closed_groups h n), Rank.wrap_sum, Rank.wrap, spreadAll_groups]
  rfl

variable [LawfulMonad m]

/-- Each group takes one level. -/
theorem reduceOr_groups (h : Closed text) (n : Nat) :
    reduceOr beyond operand combine n (groups n text) =
      reduceOr beyond operand combine 0 text := by
  induction n with
  | zero => rfl
  | succ n ih =>
    have hclosed := closed_groups h n
    refine Eq.trans ?_ ih
    show reduceOr beyond operand combine (n + 1) ('(' :: groups n text ++ [')']) = _
    rw [reduceOr, joinOperands_solid (solid_group hclosed), group?_group hclosed]

/-- An operand in `n` groups is evaluated within `3 * n + 2` levels once it is normalised. With one
level less, it is left over. -/
theorem reduceOr_normalize_groups (h : Solid text) (hgroup : group? text = none) (n : Nat) :
    reduceOr beyond operand combine (3 * n + 2) (normalize (groups n text)) =
        operand (spreadAll text) ∧
      reduceOr beyond operand combine (3 * n + 1) (normalize (groups n text)) =
        beyond (spreadAll text) := by
  have hspread := h.spreadAll
  rw [normalize_groups h.closed]
  constructor
  · rw [reduceOr_groups hspread.closed, reduceOr, joinOperands_solid hspread,
      group?_spreadAll h hgroup]
  · have hinner := solid_group hspread.closed
    rw [groups_succ, reduceOr_groups hinner.closed, reduceOr, joinOperands_solid hinner,
      group?_group hspread.closed]

end

/-! ## Within the limit -/

section
variable {m : Type → Type} [Monad m]

/-- What stands in place of a group for which no level is left has no part in the value of a text
with as many levels as it is nested deep. -/
theorem reduceWithin_eq_reduceOr_of_le (beyond : List Char → m Value) {operand : List Char → m Value}
    {combine : Operator → Value → Value → m Value} {levels levels' : Nat} {text : List Char}
    (h : nestingDepth text ≤ levels) (hle : levels ≤ levels') :
    reduceWithin operand combine levels' text = reduceOr beyond operand combine levels text := by
  rw [reduceWithin_eq_reduceOr, reduceOr_eq h hle]

/-- The reduction fails at a group for which no level is left. It enters no more groups, one inside
the other, than the text is nested deep, and normalising turns one level of nesting into three and
adds two. So whatever stood in place of that failure, it would have no part in the value of a
formula: one that is nested too deeply has failed before, and that was reported. -/
theorem groupLimit_suffices [Reporter m] (host : Host m) (beyond operand : List Char → m Value)
    (combine : Operator → Value → Value → m Value) (text body : List Char) :
    (∀ levels, reduceWithin operand combine levels text =
        reduceOr (fun _ => pure (.error (.malformed .nestedTooDeeply))) operand combine levels
          text) ∧
      (∀ levels, nestingDepth text ≤ levels → reduceWithin operand combine levels text =
        reduceOr beyond operand combine (nestingDepth text) text) ∧
      nestingDepth (normalize body) ≤ 3 * nestingDepth body + 2 ∧
      (nestingDepth body ≤ nestingLimit → reduce operand combine (normalize body) =
        reduceOr beyond operand combine groupLimit (normalize body)) ∧
      host.reduceBody body =
        if nestingDepth body > nestingLimit then Evaluation.fail (.malformed .nestedTooDeeply)
        else reduceOr beyond host.evaluateOperand Evaluation.arithmetic groupLimit
          (normalize body) := by
  refine ⟨fun _ => reduceWithin_eq_reduceOr,
    fun _ h => reduceWithin_eq_reduceOr_of_le beyond (Nat.le_refl _) h,
    nestingDepth_normalize body, fun h => ?_, ?_⟩
  · exact reduceWithin_eq_reduceOr_of_le beyond (nestingDepth_normalize_le_groupLimit h)
      (Nat.le_refl _)
  · unfold Host.reduceBody
    split
    · rfl
    · rename_i h
      exact reduceWithin_eq_reduceOr_of_le beyond
        (nestingDepth_normalize_le_groupLimit (Nat.le_of_not_lt h)) (Nat.le_refl _)

end

/-- An operand in as many groups as the limit takes all levels. It is evaluated, and with one level
less the run would be broken off. -/
theorem groupLimit_suffices_atLimit :
    let body := groups nestingLimit ['x']
    let host : Host (ExceptT String (Run Unit)) := ⟨fun _ => throw "cell", fun _ => throw "link"⟩
    let beyond : List Char → ExceptT String (Run Unit) Value := fun _ => throw "group"
    nestingDepth body ≤ nestingLimit ∧ nestingDepth (normalize body) ≤ groupLimit ∧
      host.reduceBody body = host.evaluateOperand ['x'] ∧
      reduce host.evaluateOperand Evaluation.arithmetic (normalize body) =
        host.evaluateOperand ['x'] ∧
      reduceWithin host.evaluateOperand Evaluation.arithmetic groupLimit (normalize body) =
        reduceOr beyond host.evaluateOperand Evaluation.arithmetic (nestingDepth (normalize body))
          (normalize body) ∧
      reduceOr beyond host.evaluateOperand Evaluation.arithmetic (groupLimit - 1)
        (normalize body) = throw "group" := by
  intro body host beyond
  have hsolid : Solid ['x'] := .char ⟨by decide, by decide⟩ rfl .nil
  have hdepth : nestingDepth body ≤ nestingLimit :=
    Nat.le_of_eq (nestingDepth_groups hsolid.closed nestingLimit)
  have hlimit := nestingDepth_normalize_le_groupLimit hdepth
  obtain ⟨-, hlevels, -, hreduce, hbody⟩ := groupLimit_suffices host beyond host.evaluateOperand
    Evaluation.arithmetic (normalize body) body
  obtain ⟨hvalue, hbroken⟩ := @reduceOr_normalize_groups _ _ beyond host.evaluateOperand
    Evaluation.arithmetic _ _ hsolid rfl nestingLimit
  refine ⟨hdepth, hlimit, ?_, (hreduce hdepth).trans hvalue, hlevels groupLimit hlimit, hbroken⟩
  rw [hbody, if_neg (Nat.not_lt.2 hdepth)]
  exact hvalue

end Spreadsheet.Textual
