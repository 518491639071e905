import Spreadsheet.Proofs.Precedence
import Spreadsheet.Proofs.Written
/-!
# Levels of groups

The operands of a text are nested no more deeply than the text itself, and what
a group encloses is nested less deeply. Normalising turns one level into three
and adds two, `nestingDepth_normalize`. So a text within the limit on nesting is
reduced down to its operands: there are levels enough for all of its groups.
-/

namespace Spreadsheet.Textual

section
variable {depth depth' n : Nat} {a b text inner : List Char}

/-! ## Parts of a text -/

theorem nestingFrom_open :
    nestingFrom depth ('(' :: text) = max depth (nestingFrom (depth + 1) text) := rfl

theorem nestingFrom_close :
    nestingFrom depth (')' :: text) = max depth (nestingFrom (depth - 1) text) := rfl

theorem nestingFrom_mono (h : depth ≤ depth') :
    nestingFrom depth text ≤ nestingFrom depth' text := by
  induction text generalizing depth depth' with
  | nil => exact h
  | cons c text ih =>
    rcases open_or_close_or_plain c with rfl | rfl | hc
    · have := ih (Nat.add_le_add_right h 1)
      rw [nestingFrom_open, nestingFrom_open]
      omega
    · have := ih (Nat.sub_le_sub_right h 1)
      rw [nestingFrom_close, nestingFrom_close]
      omega
    · rw [nestingFrom_plain hc, nestingFrom_plain hc]
      exact ih h

theorem nestingFrom_left : nestingFrom depth a ≤ nestingFrom depth (a ++ b) := by
  induction a generalizing depth with
  | nil => exact le_nestingFrom
  | cons c a ih =>
    rw [List.cons_append]
    rcases open_or_close_or_plain c with rfl | rfl | hc
    · have := @ih (depth + 1)
      rw [nestingFrom_open, nestingFrom_open]
      omega
    · have := @ih (depth - 1)
      rw [nestingFrom_close, nestingFrom_close]
      omega
    · rw [nestingFrom_plain hc, nestingFrom_plain hc]
      exact ih

theorem nestingDepth_right : nestingDepth b ≤ nestingFrom depth (a ++ b) := by
  induction a generalizing depth with
  | nil => exact nestingFrom_mono (Nat.zero_le depth)
  | cons c a ih =>
    rw [List.cons_append]
    rcases open_or_close_or_plain c with rfl | rfl | hc
    · exact Nat.le_trans ih (Nat.le_max_right _ _)
    · exact Nat.le_trans ih (Nat.le_max_right _ _)
    · rw [nestingFrom_plain hc]
      exact ih

/-- What a text is cut into makes up the text. -/
theorem eq_of_cut? {before after : List Char} {op : Operator}
    (h : cut? text = some (before, op, after)) : text = before ++ op.symbol :: after := by
  fun_induction cut? text generalizing before with
  | case1 => cases h
  | case2 => cases h
  | case3 rest n hn ih =>
    obtain ⟨⟨before', op', after'⟩, h', heq⟩ := Option.map_eq_some_iff.1 h
    cases heq
    rw [List.append_assoc, ← ih h', List.cons_append, List.take_append_drop]
  | case4 c rest hc op' hop =>
    cases h
    rw [symbol_of_ofChar? hop, List.nil_append]
  | case5 c rest hc hop ih =>
    obtain ⟨⟨before', op', after'⟩, h', heq⟩ := Option.map_eq_some_iff.1 h
    cases heq
    rw [List.cons_append, ← ih h']

theorem nestingDepth_of_mem_terms {token : List Char} (h : token ∈ terms text) :
    nestingDepth token ≤ nestingDepth text := by
  unfold terms at h
  fun_induction operands text with
  | case1 text hcut =>
    obtain rfl := List.mem_singleton.1 h
    exact Nat.le_refl _
  | case2 text before op after hcut next rest hnext ih =>
    rw [eq_of_cut? hcut]
    rcases List.mem_cons.1 h with rfl | h
    · exact nestingFrom_left
    · have hafter : nestingDepth after ≤ nestingDepth (before ++ op.symbol :: after) := by
        rw [List.append_cons]
        exact nestingDepth_right
      rw [hnext] at ih
      exact Nat.le_trans (ih h) hafter

/-! ## Groups -/

theorem nestingFrom_take (h : closing? (depth + 1) text = some n) :
    nestingFrom depth (text.take n) + 1 ≤ nestingFrom (depth + 1) text := by
  induction text generalizing depth n with
  | nil => cases h
  | cons c rest ih =>
    rcases open_or_close_or_plain c with rfl | rfl | hc
    · obtain ⟨k, hk, rfl⟩ := Option.map_eq_some_iff.1 h
      have := ih hk
      rw [List.take_succ_cons, nestingFrom_open, nestingFrom_open]
      omega
    · cases depth with
      | zero =>
        cases h
        exact le_nestingFrom
      | succ depth =>
        obtain ⟨k, hk, rfl⟩ := Option.map_eq_some_iff.1 h
        have := ih hk
        rw [List.take_succ_cons, nestingFrom_close, nestingFrom_close]
        simp only [Nat.add_sub_cancel]
        omega
    · rw [closing?_plain hc] at h
      obtain ⟨k, hk, rfl⟩ := Option.map_eq_some_iff.1 h
      rw [List.take_succ_cons, nestingFrom_plain hc, nestingFrom_plain hc]
      exact ih hk

/-- What a group encloses is nested less deeply than the group. -/
theorem nestingDepth_of_group? (h : group? text = some inner) :
    nestingDepth inner < nestingDepth text := by
  unfold group? at h
  split at h
  · rename_i rest
    split at h
    · rename_i hclosing
      cases h
      have htake := nestingFrom_take hclosing
      rw [← List.dropLast_eq_take] at htake
      exact Nat.lt_of_lt_of_le htake (Nat.le_max_right _ _)
    · cases h
  · cases h

end

section
variable {m : Type → Type} [Monad m] {beyond beyond' operand : List Char → m Value}
  {combine : Operator → Value → Value → m Value} {levels levels' : Nat} {text : List Char}

/-- Evaluates a text from left to right, and by `beyond` what a group encloses within `levels` other
groups. -/
def reduceOr (beyond operand : List Char → m Value)
    (combine : Operator → Value → Value → m Value) : (levels : Nat) → List Char → m Value
  | 0, text =>
    joinOperands combine (fun token =>
      match group? token with
      | some inner => beyond inner
      | none => operand token) text
  | levels + 1, text =>
    joinOperands combine (fun token =>
      match group? token with
      | some inner => reduceOr beyond operand combine levels inner
      | none => operand token) text

/-- A group within as many others as there are levels is a failure. -/
theorem reduceWithin_eq_reduceOr : reduceWithin operand combine levels text =
    reduceOr (fun _ => pure (.error (.malformed .nestedTooDeeply))) operand combine levels text := by
  induction levels generalizing text with
  | zero => rfl
  | succ levels ih =>
    rw [reduceWithin, reduceOr]
    congr 1
    funext token
    cases group? token with
    | none => rfl
    | some inner => exact ih

/-- With as many levels as the text is nested deep, no group is left over. -/
theorem reduceOr_eq (h : nestingDepth text ≤ levels) (hle : levels ≤ levels') :
    reduceOr beyond' operand combine levels' text = reduceOr beyond operand combine levels text := by
  induction levels generalizing text levels' with
  | zero =>
    have hnone : ∀ token ∈ terms text, group? token = none := by
      intro token htoken
      have htext := nestingDepth_of_mem_terms htoken
      cases hgroup : group? token with
      | none => rfl
      | some inner =>
        have hinner := nestingDepth_of_group? hgroup
        omega
    cases levels' with
    | zero | succ levels' =>
      apply joinOperands_congr
      intro token htoken
      rw [hnone token htoken]
  | succ levels ih =>
    obtain ⟨levels', rfl⟩ := Nat.exists_eq_add_of_le' (Nat.le_trans (Nat.le_add_left 1 levels) hle)
    apply joinOperands_congr
    intro token htoken
    have htext := nestingDepth_of_mem_terms htoken
    split
    · rename_i inner hgroup
      have hinner := nestingDepth_of_group? hgroup
      exact ih (by omega) (Nat.le_of_succ_le_succ hle)
    · rfl

/-- Levels beyond those that groups take change nothing. -/
theorem reduceWithin_eq (h : nestingDepth text ≤ levels) (hle : levels ≤ levels') :
    reduceWithin operand combine levels' text = reduceWithin operand combine levels text := by
  rw [reduceWithin_eq_reduceOr, reduceWithin_eq_reduceOr, reduceOr_eq h hle]

end

section
variable {depth depth' : Nat} {text : List Char}

/-! ## Normalised texts -/

/-- One level of the text is three levels when all is spread, above two that operators may close. -/
theorem nestingFrom_spreadAll (h : depth' ≤ 3 * depth + 2) :
    nestingFrom depth' (spreadAll text ++ [')', ')']) ≤ 3 * nestingFrom depth text + 2 := by
  induction text generalizing depth depth' with
  | nil =>
    simp only [spreadAll, List.flatMap_nil, List.nil_append, nestingFrom]
    omega
  | cons c text ih =>
    rw [spreadAll_cons, List.append_assoc]
    rcases open_or_close_or_plain c with rfl | rfl | hc
    · have hle : depth + 1 ≤ nestingFrom (depth + 1) text := le_nestingFrom
      have := @ih (depth + 1) (depth' + 1 + 1 + 1) (by omega)
      simp only [spread, List.cons_append, List.nil_append, nestingFrom_open]
      omega
    · have := @ih (depth - 1) (depth' - 1 - 1 - 1) (by omega)
      simp only [spread, List.cons_append, List.nil_append, nestingFrom_close]
      omega
    · rw [nestingFrom_plain hc]
      have hle : depth ≤ nestingFrom depth text := le_nestingFrom
      cases hop : Operator.ofChar? c with
      | none =>
        rw [spread_plain hc hop, List.singleton_append, nestingFrom_plain hc]
        exact ih h
      | some op =>
        rw [symbol_of_ofChar? hop]
        have hsymbol := isPlain_symbol op
        cases op with
        | add | subtract =>
          have := @ih depth (depth' - 1 - 1 + 1 + 1) (by omega)
          rw [spread_loose (by simp)]
          simp only [List.cons_append, List.nil_append, nestingFrom_close, nestingFrom_open,
            nestingFrom_plain hsymbol]
          omega
        | multiply | divide =>
          have := @ih depth (depth' - 1 + 1) (by omega)
          rw [spread_tight (by simp)]
          simp only [List.cons_append, List.nil_append, nestingFrom_close, nestingFrom_open,
            nestingFrom_plain hsymbol]
          omega

/-- Normalising turns one level into three and adds two. -/
theorem nestingDepth_normalize (body : List Char) :
    nestingDepth (normalize body) ≤ 3 * nestingDepth body + 2 := by
  unfold normalize
  dsimp only
  split
  · have hspread := @nestingFrom_spreadAll 0 2 body (by omega)
    exact Nat.max_le.2 ⟨Nat.zero_le _, Nat.max_le.2 ⟨by omega, hspread⟩⟩
  · omega

/-- A body within the limit on nesting is normalised to a text within the limit on groups. -/
theorem nestingDepth_normalize_le_groupLimit {body : List Char}
    (h : nestingDepth body ≤ nestingLimit) : nestingDepth (normalize body) ≤ groupLimit := by
  have hnormal := nestingDepth_normalize body
  unfold groupLimit
  omega

end

end Spreadsheet.Textual
