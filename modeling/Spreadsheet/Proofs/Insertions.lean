import Mathlib.Data.List.Forall2
import Spreadsheet.Proofs.Brackets
import Spreadsheet.Proofs.Cuts
/-!
# Characters without meaning

Where a text is cut, and what its groups are, depends on its parentheses and
operators only. If other characters are inserted, they are a part of one of the
operands, and nothing else changes: `operands_insert`.
-/

namespace Spreadsheet.Textual

section
variable {depth depth' : Nat} {w x y a b text inner : List Char} {op : Operator}

/-! ## Parentheses -/

theorem Unmarked.filter_insert (hw : Unmarked w) :
    (x ++ (w ++ y)).filter isParenthesis = (x ++ y).filter isParenthesis := by
  have hnone : w.filter isParenthesis = [] := by
    rw [List.filter_eq_nil_iff]
    intro c hc
    simp [isParenthesis_eq_false_iff.2 (hw c hc).1]
  rw [List.filter_append, List.filter_append, hnone, List.nil_append, List.filter_append]

theorem Unmarked.openAfter_insert (hw : Unmarked w) :
    openAfter depth (x ++ (w ++ y)) = openAfter depth (x ++ y) := by
  rw [← openAfter_filter, hw.filter_insert, openAfter_filter]

theorem Unmarked.nestingDepth_insert (hw : Unmarked w) :
    nestingDepth (x ++ (w ++ y)) = nestingDepth (x ++ y) := by
  unfold nestingDepth
  rw [← nestingFrom_filter, hw.filter_insert, nestingFrom_filter]

theorem Unmarked.count_insert (hw : Unmarked w) {c : Char} (hc : isParenthesis c) :
    (x ++ (w ++ y)).count c = (x ++ y).count c := by
  rw [← List.count_filter hc, hw.filter_insert, List.count_filter hc]

theorem Unmarked.spreadAll (hw : Unmarked w) : spreadAll w = w := by
  induction w with
  | nil => rfl
  | cons c w ih =>
    obtain ⟨⟨hc, hop⟩, hw⟩ := List.forall_mem_cons.1 hw
    rw [spreadAll_cons, spread_plain hc hop, ih hw]
    rfl

/-! ## What is passed over -/

/-- The text has no operator outside parentheses, all that it opens is closed, and closing
parentheses too many may stand anywhere. -/
inductive Passed : List Char → Prop
  | nil : Passed []
  | char {c : Char} {rest : List Char} (hopen : c ≠ '(') (hop : Operator.ofChar? c = none) :
    Passed rest → Passed (c :: rest)
  | group {inner rest : List Char} : Closed inner → Passed rest →
    Passed ('(' :: (inner ++ ')' :: rest))

theorem Passed.cut?_append (ha : Passed a) :
    cut? (a ++ b) = (cut? b).map fun p => (a ++ p.1, p.2) := by
  induction ha with
  | nil =>
    rw [List.nil_append]
    cases cut? b <;> rfl
  | @char c a hopen hop _ ih =>
    rw [List.cons_append, cut?, hop, ih, Option.map_map]
    · rfl
    · exact hopen
  | @group inner a hinner _ ih =>
    have hgroup : '(' :: (inner ++ ')' :: a) = ('(' :: inner ++ [')']) ++ a := by simp
    rw [hgroup, List.append_assoc, (solid_group hinner).cut?_append, ih, Option.map_map]
    congr 1
    funext p
    simp

theorem Passed.cut?_eq_none (ha : Passed a) : cut? a = none := by
  have happend := @Passed.cut?_append a [] ha
  rwa [List.append_nil, cut?, Option.map_none] at happend

/-- A text is cut behind all that the search passes over. -/
theorem passed_of_cut? (h : cut? text = some (a, op, b)) : Passed a := by
  fun_induction cut? text generalizing a with
  | case1 => cases h
  | case2 => cases h
  | case3 rest n hclosing ih =>
    obtain ⟨inner, after, rfl, hinner, rfl⟩ := closing?_eq_some_iff.1 hclosing
    obtain ⟨⟨before, op', after'⟩, hcut, heq⟩ := Option.map_eq_some_iff.1 h
    cases heq
    have htake : (inner ++ ')' :: after).take (inner.length + 1) = inner ++ [')'] := by
      rw [List.append_cons, List.take_left' (by simp)]
    rw [htake, List.cons_append, List.append_assoc]
    exact .group hinner (ih hcut)
  | case4 =>
    cases h
    exact .nil
  | case5 c rest hopen hop ih =>
    obtain ⟨⟨before, op', after⟩, hcut, heq⟩ := Option.map_eq_some_iff.1 h
    cases heq
    exact .char hopen hop (ih hcut)

theorem cut?_eq_some_iff :
    cut? text = some (a, op, b) ↔ text = a ++ op.symbol :: b ∧ Passed a := by
  constructor
  · exact fun h => ⟨eq_of_cut? h, passed_of_cut? h⟩
  · rintro ⟨rfl, ha⟩
    have hop : cut? (op.symbol :: b) = some ([], op, b) := Solid.cut?_operator .nil
    rw [ha.cut?_append, hop]
    simp

/-- Where nothing is cut, all is passed over, but perhaps for what stands behind a parenthesis that
nothing closes. -/
theorem cut?_eq_none_iff : cut? text = none ↔ Passed text ∨
    ∃ p q, text = p ++ '(' :: q ∧ Passed p ∧ (openAfter 0 q).isSome := by
  constructor
  · intro h
    fun_induction cut? text with
    | case1 => exact .inl .nil
    | case2 rest hclosing =>
      obtain ⟨k, hk⟩ := closing?_eq_none_iff.1 hclosing
      exact .inr ⟨[], rest, rfl, .nil, by rw [hk]; rfl⟩
    | case3 rest n hclosing ih =>
      obtain ⟨inner, after, rfl, hinner, rfl⟩ := closing?_eq_some_iff.1 hclosing
      have hdrop : (inner ++ ')' :: after).drop (inner.length + 1) = after := by simp
      rw [hdrop, Option.map_eq_none_iff] at h
      rw [hdrop] at ih
      rcases ih h with hafter | ⟨p, q, rfl, hp, hq⟩
      · exact .inl (.group hinner hafter)
      · exact .inr ⟨'(' :: (inner ++ ')' :: p), q, by simp, .group hinner hp, hq⟩
    | case4 => cases h
    | case5 c rest hopen hop ih =>
      rcases ih (Option.map_eq_none_iff.1 h) with hrest | ⟨p, q, rfl, hp, hq⟩
      · exact .inl (.char hopen hop hrest)
      · exact .inr ⟨c :: p, q, rfl, .char hopen hop hp, hq⟩
  · rintro (h | ⟨p, q, rfl, hp, hq⟩)
    · exact h.cut?_eq_none
    · obtain ⟨k, hk⟩ := Option.isSome_iff_exists.1 hq
      rw [hp.cut?_append, cut?, closing?_eq_none_iff.2 ⟨k, hk⟩]
      rfl

theorem Unmarked.passed_append (hw : Unmarked w) (ha : Passed a) : Passed (w ++ a) := by
  induction w with
  | nil => exact ha
  | cons c w ih =>
    obtain ⟨⟨hc, hop⟩, hw⟩ := List.forall_mem_cons.1 hw
    exact .char hc.1 hop (ih hw)

/-- What is inserted is passed over too, in front, in a group or behind it. -/
theorem Passed.insert (hw : Unmarked w) (h : Passed (x ++ y)) : Passed (x ++ (w ++ y)) := by
  generalize htext : x ++ y = text at h
  induction h generalizing x with
  | nil =>
    obtain ⟨rfl, rfl⟩ := List.append_eq_nil_iff.1 htext
    exact hw.passed_append .nil
  | @char c rest hopen hop hrest ih =>
    rcases List.append_eq_cons_iff.1 htext with ⟨rfl, rfl⟩ | ⟨x, rfl, rfl⟩
    · exact hw.passed_append (.char hopen hop hrest)
    · exact .char hopen hop (ih rfl)
  | @group inner rest hinner hrest ih =>
    rcases List.append_eq_cons_iff.1 htext with ⟨rfl, rfl⟩ | ⟨x, rfl, heq⟩
    · exact hw.passed_append (.group hinner hrest)
    · rcases split_at heq.symm with ⟨y', rfl, rfl⟩ | ⟨x', rfl, rfl⟩
      · have hinner' : Closed (x ++ (w ++ y')) := hw.openAfter_insert.trans hinner
        have hgroup := Passed.group hinner' hrest
        simpa using hgroup
      · rw [List.cons_append, List.append_assoc, List.cons_append]
        exact .group hinner (ih rfl)

/-! ## What is inserted into a text -/

/-- Inserting changes nothing about where there is nothing to cut. -/
theorem cut?_insert_eq_none (hw : Unmarked w) (h : cut? (x ++ y) = none) :
    cut? (x ++ (w ++ y)) = none := by
  rw [cut?_eq_none_iff] at h ⊢
  rcases h with h | ⟨p, q, htext, hp, hq⟩
  · exact .inl (h.insert hw)
  · rcases split_at htext with ⟨y', rfl, rfl⟩ | ⟨x', rfl, rfl⟩
    · exact .inr ⟨x ++ (w ++ y'), q, by simp, hp.insert hw, hq⟩
    · exact .inr ⟨p, x' ++ (w ++ y), by simp, hp, by rwa [hw.openAfter_insert]⟩

/-- A text is cut at the same operator, and what is inserted stands before or behind it. -/
theorem cut?_insert_eq_some (hw : Unmarked w) (h : cut? (x ++ y) = some (a, op, b)) :
    (∃ y', a = x ++ y' ∧ y = y' ++ op.symbol :: b ∧
      cut? (x ++ (w ++ y)) = some (x ++ (w ++ y'), op, b)) ∨
    ∃ x', x = a ++ op.symbol :: x' ∧ b = x' ++ y ∧
      cut? (x ++ (w ++ y)) = some (a, op, x' ++ (w ++ y)) := by
  obtain ⟨htext, ha⟩ := cut?_eq_some_iff.1 h
  rcases split_at htext with ⟨y', rfl, rfl⟩ | ⟨x', rfl, rfl⟩
  · exact .inl ⟨y', rfl, rfl, cut?_eq_some_iff.2 ⟨by simp, ha.insert hw⟩⟩
  · exact .inr ⟨x', rfl, rfl, cut?_eq_some_iff.2 ⟨by simp, ha⟩⟩

/-- A group stays one if nothing is inserted in front of it or behind it. -/
theorem group?_insert (hw : Unmarked w) (hne : w ≠ []) :
    group? (x ++ (w ++ y)) = some inner ↔
      ∃ x' y', x = '(' :: x' ∧ y = y' ++ [')'] ∧ inner = x' ++ (w ++ y') ∧ Closed (x' ++ y') := by
  constructor
  · intro h
    obtain ⟨htext, hinner⟩ := group?_eq_some_iff.1 h
    have hmem : ∀ c ∈ w, c ≠ '(' ∧ c ≠ ')' := fun c hc => (hw c hc).1
    cases x with
    | nil =>
      obtain ⟨c, w, rfl⟩ := List.exists_cons_of_ne_nil hne
      exact absurd (List.cons.inj htext).1 (hmem c List.mem_cons_self).1
    | cons c x =>
      simp only [List.cons_append, List.cons.injEq] at htext
      obtain ⟨rfl, htext⟩ := htext
      rcases List.eq_nil_or_concat y with rfl | ⟨y, d, rfl⟩
      · have hlast : ')' ∈ w.getLast? := by
          rw [List.append_nil] at htext
          have := congrArg List.getLast? htext
          rwa [List.getLast?_append_of_ne_nil _ hne, List.getLast?_concat] at this
        exact absurd rfl (hmem ')' (List.mem_of_getLast? hlast)).2
      · rw [List.concat_eq_append, ← List.append_assoc, ← List.append_assoc] at htext
        obtain ⟨rfl, hd⟩ := List.append_inj' htext rfl
        cases hd
        rw [List.append_assoc] at hinner ⊢
        exact ⟨x, y, rfl, List.concat_eq_append, rfl, hw.openAfter_insert.symm.trans hinner⟩
  · rintro ⟨x', y', rfl, rfl, rfl, hinner⟩
    exact group?_eq_some_iff.2 ⟨by simp, hw.openAfter_insert.trans hinner⟩

/-- A text that is no group is none either with other characters in it. -/
theorem group?_insert_eq_none (hw : Unmarked w) (hne : w ≠ []) (h : group? (x ++ y) = none) :
    group? (x ++ (w ++ y)) = none := by
  cases hgroup : group? (x ++ (w ++ y)) with
  | none => rfl
  | some inner =>
    obtain ⟨x', y', rfl, rfl, -, hclosed⟩ := (group?_insert hw hne).1 hgroup
    rw [List.cons_append, ← List.append_assoc, ← List.cons_append, group?_group hclosed] at h
    cases h

/-- With other characters in front of it or behind it, a text is no group. -/
theorem group?_insert_edge (hw : Unmarked w) (hne : w ≠ []) (hedge : x = [] ∨ y = []) :
    group? (x ++ (w ++ y)) = none := by
  cases hgroup : group? (x ++ (w ++ y)) with
  | none => rfl
  | some inner =>
    obtain ⟨x', y', rfl, rfl, -, -⟩ := (group?_insert hw hne).1 hgroup
    simp at hedge

/-! ## Operands -/

/-- The texts are the same, or the second has something inserted at a place of the kind. -/
def Differ (w : List Char) (place : List Char → List Char → Prop) (t t' : List Char) : Prop :=
  t = t' ∨ ∃ x y, place x y ∧ t = x ++ y ∧ t' = x ++ (w ++ y)

/-- What is inserted into a text is inserted into one of its operands. -/
theorem operands_insert {place : List Char → List Char → Prop} (hw : Unmarked w)
    (hbefore : ∀ x y (op : Operator) b, place x (y ++ op.symbol :: b) → Passed (x ++ y) → place x y)
    (hbehind : ∀ a (op : Operator) x y, place (a ++ op.symbol :: x) y → Passed a → place x y)
    (h : place x y) :
    Differ w place (operands (x ++ y)).1 (operands (x ++ (w ++ y))).1 ∧
      List.Forall₂ (fun p q => p.1 = q.1 ∧ Differ w place p.2 q.2)
        (operands (x ++ y)).2 (operands (x ++ (w ++ y))).2 := by
  -- By induction on the length, as what stands behind an operator is shorter.
  induction hlength : (x ++ y).length using Nat.strongRecOn generalizing x y with
  | ind n ih =>
    subst hlength
    cases hcut : cut? (x ++ y) with
    | none =>
      rw [operands_of_cut?_none hcut, operands_of_cut?_none (cut?_insert_eq_none hw hcut)]
      exact ⟨.inr ⟨x, y, h, rfl, rfl⟩, .nil⟩
    | some p =>
      obtain ⟨before, op, after⟩ := p
      have hpassed := passed_of_cut? hcut
      rw [operands_of_cut? hcut]
      rcases cut?_insert_eq_some hw hcut with ⟨y', rfl, rfl, hcut'⟩ | ⟨x', rfl, rfl, hcut'⟩
      · rw [operands_of_cut? hcut']
        refine ⟨.inr ⟨x, y', hbefore _ _ _ _ h hpassed, rfl, rfl⟩, ?_⟩
        exact List.forall₂_same.2 fun p _ => ⟨rfl, .inl rfl⟩
      · rw [operands_of_cut? hcut']
        obtain ⟨hfirst, hrest⟩ := ih _ (by simp; omega) (hbehind _ _ _ _ h hpassed) rfl
        exact ⟨.inl rfl, .cons ⟨rfl, hfirst⟩ hrest⟩

end

end Spreadsheet.Textual
