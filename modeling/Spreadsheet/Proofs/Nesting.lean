import Spreadsheet.Textual.Reduction
/-!
# Closed texts

A text is closed if its parentheses match. In a closed text the search for a
closing parenthesis goes right, `closing?_closed`, and a text is cut at exactly
those operators that stand between pieces without operators outside parentheses:
`operands_snoc`.
-/

namespace Spreadsheet.Textual

/-! ## Open parentheses -/

/-- How many parentheses are open after the text if `depth` are open before it; none if it closes
one too many. -/
def openAfter (depth : Nat) : List Char → Option Nat
  | [] => some depth
  | c :: rest =>
    if c = '(' then openAfter (depth + 1) rest
    else if c = ')' then if depth = 0 then none else openAfter (depth - 1) rest
    else openAfter depth rest

/-- The character is no parenthesis. -/
def IsPlain (c : Char) : Prop := c ≠ '(' ∧ c ≠ ')'

theorem open_or_close_or_plain (c : Char) : c = '(' ∨ c = ')' ∨ IsPlain c := by
  by_cases hopen : c = '('
  · exact .inl hopen
  · by_cases hclose : c = ')'
    · exact .inr (.inl hclose)
    · exact .inr (.inr ⟨hopen, hclose⟩)

section
variable {c : Char} {depth depth' : Nat} {a b rest : List Char}

theorem openAfter_open : openAfter depth ('(' :: rest) = openAfter (depth + 1) rest := rfl

theorem openAfter_close : openAfter (depth + 1) (')' :: rest) = openAfter depth rest := rfl

theorem openAfter_plain (hc : IsPlain c) : openAfter depth (c :: rest) = openAfter depth rest := by
  rw [openAfter, if_neg hc.1, if_neg hc.2]

/-- What a text opens and closes is an opening parenthesis first, a closing one that closes an
open one, or a plain character. -/
theorem openAfter_cons_cases (h : openAfter depth (c :: rest) = some depth') :
    (c = '(' ∧ openAfter (depth + 1) rest = some depth') ∨
      (∃ d, c = ')' ∧ depth = d + 1 ∧ openAfter d rest = some depth') ∨
      (IsPlain c ∧ openAfter depth rest = some depth') := by
  by_cases hopen : c = '('
  · subst hopen
    exact .inl ⟨rfl, h⟩
  · by_cases hclose : c = ')'
    · subst hclose
      cases depth with
      | zero => cases h
      | succ d => exact .inr (.inl ⟨d, rfl, rfl, h⟩)
    · rw [openAfter_plain ⟨hopen, hclose⟩] at h
      exact .inr (.inr ⟨⟨hopen, hclose⟩, h⟩)

theorem openAfter_append (h : openAfter depth a = some depth') :
    openAfter depth (a ++ b) = openAfter depth' b := by
  induction a generalizing depth with
  | nil =>
    cases h
    rfl
  | cons c a ih =>
    rcases openAfter_cons_cases h with ⟨rfl, h'⟩ | ⟨d, rfl, rfl, h'⟩ | ⟨hc, h'⟩
    · exact ih h'
    · exact ih h'
    · rw [List.cons_append, openAfter_plain hc]
      exact ih h'

theorem openAfter_add (h : openAfter depth a = some depth') (k : Nat) :
    openAfter (depth + k) a = some (depth' + k) := by
  induction a generalizing depth with
  | nil =>
    cases h
    rfl
  | cons c a ih =>
    rcases openAfter_cons_cases h with ⟨rfl, h'⟩ | ⟨d, rfl, rfl, h'⟩ | ⟨hc, h'⟩
    · rw [openAfter_open, Nat.add_right_comm]
      exact ih h'
    · rw [Nat.add_right_comm, openAfter_close]
      exact ih h'
    · rw [openAfter_plain hc]
      exact ih h'

end

/-- Every parenthesis of the text is closed or closes one, in due order. -/
def Closed (text : List Char) : Prop := openAfter 0 text = some 0

section
variable {a b : List Char}

theorem Closed.openAfter_eq (h : Closed a) (depth : Nat) : openAfter depth a = some depth := by
  have hadd := openAfter_add h depth
  rwa [Nat.zero_add] at hadd

theorem closed_nil : Closed [] := rfl

theorem Closed.append (ha : Closed a) (hb : Closed b) : Closed (a ++ b) :=
  (openAfter_append ha).trans hb

theorem Closed.cons {c : Char} (hc : IsPlain c) (ha : Closed a) : Closed (c :: a) :=
  (openAfter_plain hc).trans ha

theorem Closed.group (ha : Closed a) : Closed ('(' :: a ++ [')']) :=
  openAfter_append (ha.openAfter_eq 1)

theorem count_of_openAfter {depth depth' : Nat} (h : openAfter depth a = some depth') :
    depth + a.count '(' = depth' + a.count ')' := by
  induction a generalizing depth with
  | nil =>
    cases h
    rfl
  | cons c a ih =>
    rcases openAfter_cons_cases h with ⟨rfl, h'⟩ | ⟨d, rfl, rfl, h'⟩ | ⟨hc, h'⟩
    · have := ih h'
      rw [List.count_cons_self, List.count_cons_of_ne (by decide)]
      omega
    · have := ih h'
      rw [List.count_cons_self, List.count_cons_of_ne (by decide)]
      omega
    · rw [List.count_cons_of_ne hc.1, List.count_cons_of_ne hc.2]
      exact ih h'

theorem Closed.isBalanced (h : Closed a) : isBalanced a := by
  have hcount := count_of_openAfter h
  unfold Textual.isBalanced
  rw [Nat.zero_add, Nat.zero_add] at hcount
  rw [hcount]
  exact beq_self_eq_true _

end

/-! ## The closing parenthesis -/

section
variable {c : Char} {depth depth' : Nat} {a rest : List Char}

theorem closing?_close :
    closing? (depth + 2) (')' :: rest) = (closing? (depth + 1) rest).map (· + 1) := rfl

theorem closing?_plain (hc : IsPlain c) :
    closing? depth (c :: rest) = (closing? depth rest).map (· + 1) := by
  rw [closing?] <;> simp [hc.1, hc.2]

theorem closing?_append (h : openAfter depth a = some depth') :
    closing? (depth + 1) (a ++ rest) = (closing? (depth' + 1) rest).map (· + a.length) := by
  have hadd (x : Option Nat) (n : Nat) : (x.map (· + n)).map (· + 1) = x.map (· + (n + 1)) := by
    cases x <;> rfl
  induction a generalizing depth with
  | nil =>
    cases h
    simp
  | cons c a ih =>
    rw [List.length_cons, ← hadd]
    rcases openAfter_cons_cases h with ⟨rfl, h'⟩ | ⟨d, rfl, rfl, h'⟩ | ⟨hc, h'⟩
    · rw [List.cons_append, closing?, ih h']
    · rw [List.cons_append, closing?_close, ih h']
    · rw [List.cons_append, closing?_plain hc, ih h']

/-- The parenthesis behind a closed text closes the one before it. -/
theorem closing?_closed (ha : Closed a) : closing? 1 (a ++ ')' :: rest) = some a.length := by
  rw [closing?_append ha]
  simp [closing?]

theorem group?_group (ha : Closed a) : group? ('(' :: a ++ [')']) = some a := by
  rw [List.cons_append, group?, closing?_closed ha]
  simp

theorem group?_of_append (ha : Closed a) (hrest : rest ≠ []) :
    group? ('(' :: (a ++ ')' :: rest)) = none := by
  rw [group?, closing?_closed ha, if_neg]
  have hlength := List.length_pos_iff.2 hrest
  simp only [Option.some.injEq, List.length_append, List.length_cons]
  omega

theorem group?_of_head (h : a.head? ≠ some '(') : group? a = none := by
  cases a with
  | nil => rfl
  | cons c a =>
    unfold group?
    split
    · simp_all
    · rfl

end

/-! ## Nesting -/

section
variable {c : Char} {depth depth' : Nat} {a b rest : List Char}

theorem nestingFrom_plain (hc : IsPlain c) :
    nestingFrom depth (c :: rest) = nestingFrom depth rest := by
  rw [nestingFrom.eq_4 depth c rest hc.1 hc.2]

theorem le_nestingFrom : depth ≤ nestingFrom depth a := by
  fun_induction nestingFrom depth a with
  | case1 => exact Nat.le_refl _
  | case2 => exact Nat.le_max_left _ _
  | case3 => exact Nat.le_max_left _ _
  | case4 _ _ _ _ _ ih => exact ih

theorem nestingFrom_append (h : openAfter depth a = some depth') :
    nestingFrom depth (a ++ b) = max (nestingFrom depth a) (nestingFrom depth' b) := by
  induction a generalizing depth with
  | nil =>
    cases h
    exact (Nat.max_eq_right le_nestingFrom).symm
  | cons c a ih =>
    rcases openAfter_cons_cases h with ⟨rfl, h'⟩ | ⟨d, rfl, rfl, h'⟩ | ⟨hc, h'⟩
    · rw [List.cons_append, nestingFrom, nestingFrom, ih h', Nat.max_assoc]
    · rw [List.cons_append, nestingFrom, nestingFrom, Nat.add_sub_cancel, ih h', Nat.max_assoc]
    · rw [List.cons_append, nestingFrom_plain hc, nestingFrom_plain hc, ih h']

theorem nestingFrom_add (h : openAfter depth a = some depth') (k : Nat) :
    nestingFrom (depth + k) a = nestingFrom depth a + k := by
  induction a generalizing depth with
  | nil => rfl
  | cons c a ih =>
    rcases openAfter_cons_cases h with ⟨rfl, h'⟩ | ⟨d, rfl, rfl, h'⟩ | ⟨hc, h'⟩
    · rw [nestingFrom, nestingFrom, Nat.add_right_comm, ih h']
      omega
    · rw [nestingFrom, nestingFrom, Nat.add_right_comm, Nat.add_sub_cancel, Nat.add_sub_cancel, ih h']
      omega
    · rw [nestingFrom_plain hc, nestingFrom_plain hc, ih h']

theorem nestingDepth_append (ha : Closed a) :
    nestingDepth (a ++ b) = max (nestingDepth a) (nestingDepth b) :=
  nestingFrom_append ha

theorem nestingDepth_group (ha : Closed a) :
    nestingDepth ('(' :: a ++ [')']) = nestingDepth a + 1 := by
  have hadd : nestingFrom 1 a = nestingDepth a + 1 := nestingFrom_add ha 1
  have hle : 1 ≤ nestingFrom 1 a := le_nestingFrom
  rw [List.cons_append, nestingDepth, nestingFrom, nestingFrom_append (ha.openAfter_eq 1), hadd]
  simp [nestingFrom]

end

/-! ## Pieces between operators -/

theorem ofChar?_symbol (op : Operator) : Operator.ofChar? op.symbol = some op := by
  cases op <;> rfl

theorem symbol_of_ofChar? {c : Char} {op : Operator} (h : Operator.ofChar? c = some op) :
    c = op.symbol := by
  unfold Operator.ofChar? at h
  split at h <;> cases h <;> rfl

theorem isPlain_symbol (op : Operator) : IsPlain op.symbol := by
  cases op <;> exact ⟨by decide, by decide⟩

/-- The text has neither parentheses nor operators. -/
def Unmarked (text : List Char) : Prop := ∀ c ∈ text, IsPlain c ∧ Operator.ofChar? c = none

/-- The text is closed and has no operators outside parentheses. -/
inductive Solid : List Char → Prop
  | nil : Solid []
  | char {c : Char} {rest : List Char} (hc : IsPlain c) (hop : Operator.ofChar? c = none) :
    Solid rest → Solid (c :: rest)
  | group {inner rest : List Char} : Closed inner → Solid rest →
    Solid ('(' :: (inner ++ ')' :: rest))

/-- The text consists of solid pieces with operators between them. -/
inductive Joined : List Char → Prop
  | solid {a : List Char} : Solid a → Joined a
  | cons {a b : List Char} (op : Operator) : Solid a → Joined b → Joined (a ++ op.symbol :: b)

section
variable {a b rest : List Char} {op : Operator}

theorem Solid.closed (h : Solid a) : Closed a := by
  induction h with
  | nil => exact closed_nil
  | char hc _ _ ih => exact ih.cons hc
  | @group inner rest hinner _ ih =>
    have hgroup := hinner.group.append ih
    rwa [List.append_assoc, List.cons_append] at hgroup

theorem Solid.append (ha : Solid a) (hb : Solid b) : Solid (a ++ b) := by
  induction ha with
  | nil => exact hb
  | char hc hop _ ih => exact .char hc hop ih
  | group hinner _ ih =>
    rw [List.cons_append, List.append_assoc]
    exact .group hinner ih

theorem solid_group (ha : Closed a) : Solid ('(' :: a ++ [')']) := .group ha .nil

theorem Unmarked.solid (h : Unmarked a) : Solid a := by
  induction a with
  | nil => exact .nil
  | cons c a ih =>
    obtain ⟨⟨hc, hop⟩, ha⟩ := List.forall_mem_cons.1 h
    exact .char hc hop (ih ha)

theorem Joined.closed (h : Joined a) : Closed a := by
  induction h with
  | solid ha => exact ha.closed
  | cons op ha _ ih => exact ha.closed.append (ih.cons (isPlain_symbol op))

theorem Joined.snoc (ha : Joined a) (op : Operator) (hb : Solid b) :
    Joined (a ++ op.symbol :: b) := by
  induction ha with
  | solid ha => exact .cons op ha (.solid hb)
  | cons op' ha _ ih =>
    rw [List.append_assoc, List.cons_append]
    exact .cons op' ha ih

/-! ## Cutting at operators -/

/-- A solid piece is passed over as a whole. -/
theorem Solid.cut?_append (ha : Solid a) :
    cut? (a ++ rest) = (cut? rest).map fun p => (a ++ p.1, p.2) := by
  induction ha with
  | nil =>
    rw [List.nil_append]
    cases cut? rest <;> rfl
  | @char c a hc hop _ ih =>
    rw [List.cons_append, cut?, hop, ih, Option.map_map]
    · rfl
    · exact hc.1
  | @group inner a hinner _ ih =>
    -- The search goes on behind the parenthesis that closes the group.
    have hclosing : closing? 1 (inner ++ ')' :: (a ++ rest)) = some inner.length :=
      closing?_closed hinner
    have hsplit : inner ++ ')' :: (a ++ rest) = (inner ++ [')']) ++ (a ++ rest) := by simp
    have hdrop : (inner ++ ')' :: (a ++ rest)).drop (inner.length + 1) = a ++ rest := by
      rw [hsplit, List.drop_left' (by simp)]
    have htake : (inner ++ ')' :: (a ++ rest)).take (inner.length + 1) = inner ++ [')'] := by
      rw [hsplit, List.take_left' (by simp)]
    rw [List.cons_append, List.append_assoc, List.cons_append, cut?, hclosing]
    dsimp only
    rw [hdrop, htake, ih, Option.map_map]
    congr 1
    funext p
    simp

theorem Solid.cut? (ha : Solid a) : Textual.cut? a = none := by
  have happend := @Solid.cut?_append a [] ha
  rwa [List.append_nil, Textual.cut?, Option.map_none] at happend

theorem Solid.cut?_operator (ha : Solid a) :
    Textual.cut? (a ++ op.symbol :: rest) = some (a, op, rest) := by
  rw [ha.cut?_append, Textual.cut?, ofChar?_symbol]
  · simp
  · exact (isPlain_symbol op).1

theorem Solid.operands (ha : Solid a) : operands a = (a, []) := by
  rw [Textual.operands]
  split
  · rfl
  · rename_i h
    rw [ha.cut?] at h
    cases h

theorem Solid.operands_operator (ha : Solid a) :
    Textual.operands (a ++ op.symbol :: rest) =
      (a, (op, (Textual.operands rest).1) :: (Textual.operands rest).2) := by
  rw [Textual.operands]
  split
  · rename_i h
    rw [ha.cut?_operator] at h
    cases h
  · rename_i h
    rw [ha.cut?_operator] at h
    cases h
    rfl

/-- An operator and a solid piece at the end of joined pieces are its last operand. -/
theorem Joined.operands_snoc (ha : Joined a) (hb : Solid b) :
    operands (a ++ op.symbol :: b) = ((operands a).1, (operands a).2 ++ [(op, b)]) := by
  induction ha with
  | solid ha => rw [ha.operands_operator, ha.operands, hb.operands, List.nil_append]
  | cons op' ha _ ih =>
    rw [List.append_assoc, List.cons_append, ha.operands_operator, ih, ha.operands_operator]
    rfl

end

/-! ## Joining operands -/

section
variable {m : Type → Type} [Monad m] [LawfulMonad m]
  {combine : Operator → Value → Value → m Value} {term : List Char → m Value} {a b : List Char}

theorem joinOperands_solid (ha : Solid a) : joinOperands combine term a = term a := by
  unfold joinOperands
  rw [ha.operands]
  simp

/-- The last of joined pieces is evaluated and combined after all others. -/
theorem joinOperands_snoc (ha : Joined a) (op : Operator) (hb : Solid b) :
    joinOperands combine term (a ++ op.symbol :: b) = (do
      let value ← joinOperands combine term a
      combine op value (← term b)) := by
  unfold joinOperands
  rw [ha.operands_snoc hb]
  simp

end

end Spreadsheet.Textual
