import Spreadsheet.Proofs.Nesting
/-!
# Reducing what was normalised

A text has a layout: the tree of its operators by precedence, whose leaves are
the pieces between them, groups being opened. Reducing the normalised text from
left to right evaluates the layout from its leaves up, `reduce_of_lays`, and
what it takes for a leaf is restored to the piece, `restore_spread`.
-/

namespace Spreadsheet.Textual

/-- The text with each operator and parenthesis replaced. -/
def spreadAll (text : List Char) : List Char := text.flatMap spread

/-- The tree of a text: operators by precedence, and the pieces between them. -/
inductive Layout where
  | leaf (text : List Char)
  | join (op : Operator) (left right : Layout)

/-- The value of a layout. Operands are evaluated from left to right, and each operator after
what it joins. -/
def Layout.fold {m : Type → Type} [Monad m] (operand : List Char → m Value)
    (combine : Operator → Value → Value → m Value) : Layout → m Value
  | leaf text => operand (spreadAll text)
  | join op left right => do
    let a ← left.fold operand combine
    combine op a (← right.fold operand combine)

/-- The ranks of texts by their operators outside parentheses: all, those that bind tight, none. -/
inductive Rank where
  | sum | product | factor

/-- The text has the layout, with groups nested at most `depth` deep. -/
inductive Lays : (depth : Nat) → Rank → List Char → Layout → Prop
  | product {depth text l} : Lays depth .product text l → Lays depth .sum text l
  | loose {depth a b op l r} (h : op = .add ∨ op = .subtract) :
    Lays depth .sum a l → Lays depth .product b r →
    Lays depth .sum (a ++ op.symbol :: b) (.join op l r)
  | factor {depth text l} : Lays depth .factor text l → Lays depth .product text l
  | tight {depth a b op l r} (h : op = .multiply ∨ op = .divide) :
    Lays depth .product a l → Lays depth .factor b r →
    Lays depth .product (a ++ op.symbol :: b) (.join op l r)
  | group {depth text l} : Closed text → Lays depth .sum text l →
    Lays (depth + 1) .factor ('(' :: text ++ [')']) l
  | leaf {depth text} : Solid text → group? text = none → Lays depth .factor text (.leaf text)

/-! ## Spreading -/

section
variable {c : Char} {op : Operator} {a b : List Char} {depth depth' : Nat}

theorem spread_plain (hc : IsPlain c) (hop : Operator.ofChar? c = none) : spread c = [c] := by
  unfold spread
  split <;> first | rfl | exact absurd rfl hc.1 | exact absurd rfl hc.2 | cases hop

theorem spread_loose (hop : op = .add ∨ op = .subtract) :
    spread op.symbol = [')', ')', op.symbol, '(', '('] := by
  rcases hop with rfl | rfl <;> rfl

theorem spread_tight (hop : op = .multiply ∨ op = .divide) :
    spread op.symbol = [')', op.symbol, '('] := by
  rcases hop with rfl | rfl <;> rfl

theorem spreadAll_append : spreadAll (a ++ b) = spreadAll a ++ spreadAll b := List.flatMap_append

theorem spreadAll_cons : spreadAll (c :: a) = spread c ++ spreadAll a := List.flatMap_cons

theorem spreadAll_loose (hop : op = .add ∨ op = .subtract) :
    '(' :: '(' :: spreadAll (a ++ op.symbol :: b) ++ [')', ')'] =
      ('(' :: '(' :: spreadAll a ++ [')', ')']) ++
        op.symbol :: ('(' :: '(' :: spreadAll b ++ [')', ')']) := by
  rw [spreadAll_append, spreadAll_cons, spread_loose hop]
  simp

theorem spreadAll_tight (hop : op = .multiply ∨ op = .divide) :
    '(' :: spreadAll (a ++ op.symbol :: b) ++ [')'] =
      ('(' :: spreadAll a ++ [')']) ++ op.symbol :: ('(' :: spreadAll b ++ [')']) := by
  rw [spreadAll_append, spreadAll_cons, spread_tight hop]
  simp

theorem spreadAll_group {inner : List Char} :
    spreadAll ('(' :: (inner ++ ')' :: a)) =
      '(' :: (('(' :: '(' :: spreadAll inner ++ [')', ')']) ++ ')' :: spreadAll a) := by
  rw [spreadAll_cons, spreadAll_append, spreadAll_cons]
  simp [spread]

theorem spreadAll_ne_nil (h : a ≠ []) : spreadAll a ≠ [] := by
  cases a with
  | nil => exact absurd rfl h
  | cons c a =>
    rw [spreadAll_cons]
    unfold spread
    split <;> simp

/-- A text opens three parentheses for each one, above two that the operators may close. -/
theorem openAfter_spreadAll (h : openAfter depth a = some depth') :
    openAfter (3 * depth + 2) (spreadAll a) = some (3 * depth' + 2) := by
  induction a generalizing depth with
  | nil =>
    cases h
    rfl
  | cons c a ih =>
    rw [spreadAll_cons]
    rcases openAfter_cons_cases h with ⟨rfl, h'⟩ | ⟨d, rfl, rfl, h'⟩ | ⟨hc, h'⟩
    · exact ih h'
    · exact ih h'
    · cases hop : Operator.ofChar? c with
      | none =>
        rw [spread_plain hc hop, List.singleton_append, openAfter_plain hc]
        exact ih h'
      | some op =>
        rw [symbol_of_ofChar? hop]
        cases op <;> exact ih h'

theorem Closed.spreadAll (h : Closed a) :
    Closed ('(' :: '(' :: Textual.spreadAll a ++ [')', ')']) :=
  openAfter_append (openAfter_spreadAll h)

theorem Solid.spreadAll (h : Solid a) : Solid (Textual.spreadAll a) := by
  induction h with
  | nil => exact .nil
  | char hc hop _ ih =>
    rw [spreadAll_cons, spread_plain hc hop]
    exact .char hc hop ih
  | group hinner _ ih =>
    rw [spreadAll_group]
    exact .group hinner.spreadAll ih

theorem group?_spreadAll (ha : Solid a) (h : group? a = none) : group? (spreadAll a) = none := by
  cases ha with
  | nil => rfl
  | char hc hop _ =>
    rw [spreadAll_cons, spread_plain hc hop]
    exact group?_of_head fun hhead => hc.1 (Option.some.inj hhead)
  | @group inner rest hinner hrest =>
    have hne : rest ≠ [] := by
      rintro rfl
      have hgroup := group?_group hinner
      rw [List.cons_append] at hgroup
      rw [hgroup] at h
      cases h
    rw [spreadAll_group]
    exact group?_of_append hinner.spreadAll (spreadAll_ne_nil hne)

end

/-! ## Reducing a layout -/

/-- How many levels of groups a text of the rank takes for each level of its own. -/
def Rank.levels : Rank → Nat
  | sum => 2
  | product => 1
  | factor => 0

/-- The spread text of the rank, in the groups that stand around it. -/
def Rank.wrap (text : List Char) : Rank → List Char
  | sum => '(' :: '(' :: spreadAll text ++ [')', ')']
  | product => '(' :: spreadAll text ++ [')']
  | factor => spreadAll text

theorem Rank.wrap_sum (text : List Char) :
    Rank.sum.wrap text = '(' :: Rank.product.wrap text ++ [')'] := by
  simp [Rank.wrap]

/-- Below its groups, a text of the rank consists of solid pieces; a factor is one. -/
theorem Lays.joined {depth : Nat} {rank : Rank} {text : List Char} {l : Layout}
    (h : Lays depth rank text l) :
    Joined (rank.wrap text) ∧ (rank = .factor → Solid (rank.wrap text)) := by
  induction h with
  | product _ ih =>
    refine ⟨?_, nofun⟩
    rw [Rank.wrap_sum]
    exact .solid (solid_group ih.1.closed)
  | @loose _ a b op _ _ hop _ _ iha ihb =>
    refine ⟨?_, nofun⟩
    have hb : Solid (Rank.sum.wrap b) := by
      rw [Rank.wrap_sum]
      exact solid_group ihb.1.closed
    show Joined ('(' :: '(' :: spreadAll (a ++ op.symbol :: b) ++ [')', ')'])
    rw [spreadAll_loose hop]
    exact iha.1.snoc op hb
  | factor _ ih => exact ⟨.solid (solid_group (ih.2 rfl).closed), nofun⟩
  | @tight _ a b op _ _ hop _ _ iha ihb =>
    refine ⟨?_, nofun⟩
    have hb : Solid (Rank.product.wrap b) := solid_group (ihb.2 rfl).closed
    show Joined ('(' :: spreadAll (a ++ op.symbol :: b) ++ [')'])
    rw [spreadAll_tight hop]
    exact iha.1.snoc op hb
  | @group _ text _ hclosed _ _ =>
    have hsolid : Solid (spreadAll ('(' :: text ++ [')'])) := (solid_group hclosed).spreadAll
    exact ⟨.solid hsolid, fun _ => hsolid⟩
  | leaf hsolid _ => exact ⟨.solid hsolid.spreadAll, fun _ => hsolid.spreadAll⟩

section
variable {m : Type → Type} [Monad m] [LawfulMonad m] {operand : List Char → m Value}
  {combine : Operator → Value → Value → m Value}

/-- What is made of an operand of a text within `levels + 1` levels. -/
theorem reduceWithin_group {levels : Nat} {text : List Char} (h : Closed text) :
    reduceWithin operand combine (levels + 1) ('(' :: text ++ [')']) =
      reduceWithin operand combine levels text := by
  rw [reduceWithin, joinOperands_solid (solid_group h), group?_group h]

theorem reduceWithin_snoc {levels : Nat} {a text : List Char} (ha : Joined a) (op : Operator)
    (h : Closed text) :
    reduceWithin operand combine (levels + 1) (a ++ op.symbol :: ('(' :: text ++ [')'])) = (do
      let value ← reduceWithin operand combine (levels + 1) a
      combine op value (← reduceWithin operand combine levels text)) := by
  rw [reduceWithin, joinOperands_snoc ha op (solid_group h), group?_group h]
  rfl

theorem reduceWithin_leaf {levels : Nat} {text : List Char} (h : Solid text)
    (hgroup : group? text = none) :
    reduceWithin operand combine levels text = operand text := by
  cases levels with
  | zero => rw [reduceWithin, joinOperands_solid h, hgroup]
  | succ levels => rw [reduceWithin, joinOperands_solid h, hgroup]

/-- Each rank of a text is reduced within the levels of groups it takes. -/
theorem Lays.reduceWithin {depth : Nat} {rank : Rank} {text : List Char} {l : Layout}
    (h : Lays depth rank text l) :
    Textual.reduceWithin operand combine (3 * depth + rank.levels) (rank.wrap text) =
      l.fold operand combine := by
  induction h with
  | product h ih =>
    -- A product among sums stands in a group more.
    rw [Rank.wrap_sum, ← ih]
    exact reduceWithin_group h.joined.1.closed
  | @loose depth a b op l r hop ha hb iha ihb =>
    have hwrap : Rank.sum.wrap (a ++ op.symbol :: b) =
        Rank.sum.wrap a ++ op.symbol :: ('(' :: Rank.product.wrap b ++ [')']) := by
      rw [← Rank.wrap_sum]
      exact spreadAll_loose hop
    rw [hwrap, Layout.fold, ← iha, ← ihb]
    exact reduceWithin_snoc ha.joined.1 op hb.joined.1.closed
  | factor h ih =>
    rw [← ih]
    exact reduceWithin_group (h.joined.2 rfl).closed
  | @tight depth a b op l r hop ha hb iha ihb =>
    have hwrap : Rank.product.wrap (a ++ op.symbol :: b) =
        Rank.product.wrap a ++ op.symbol :: ('(' :: Rank.factor.wrap b ++ [')']) :=
      spreadAll_tight hop
    rw [hwrap, Layout.fold, ← iha, ← ihb]
    exact reduceWithin_snoc ha.joined.1 op (hb.joined.2 rfl).closed
  | @group depth text l hclosed h ih =>
    -- The parentheses of a group become three: its own, and the two around a sum.
    rw [← ih]
    have hwrap : Rank.factor.wrap ('(' :: text ++ [')']) = '(' :: Rank.sum.wrap text ++ [')'] :=
      spreadAll_group
    rw [hwrap]
    exact reduceWithin_group hclosed.spreadAll
  | leaf hsolid hgroup => exact reduceWithin_leaf hsolid.spreadAll (group?_spreadAll hsolid hgroup)

theorem normalize_closed {body : List Char} (h : Closed body) :
    normalize body = Rank.sum.wrap body := by
  unfold normalize
  exact if_pos h.spreadAll.isBalanced

/-- Reducing the normalised text evaluates its layout, each operator after what it joins. -/
theorem reduce_of_lays {body : List Char} {l : Layout} (hclosed : Closed body)
    (h : Lays nestingLimit .sum body l) :
    reduce operand combine (normalize body) = l.fold operand combine := by
  rw [normalize_closed hclosed]
  exact h.reduceWithin

end

/-! ## Restoring -/

theorem restore_plain {c : Char} (hc : IsPlain c) (rest : List Char) :
    restore (c :: rest) = c :: restore rest := by
  rw [restore]
  all_goals
    intro _ h
    first | exact absurd h hc.1 | exact absurd h hc.2

/-- What was spread is restored, whatever follows it. -/
theorem restore_spreadAll_append (text rest : List Char) :
    restore (spreadAll text ++ rest) = text ++ restore rest := by
  induction text with
  | nil => rfl
  | cons c text ih =>
    rw [spreadAll_cons, List.append_assoc, List.cons_append]
    rcases open_or_close_or_plain c with rfl | rfl | hc
    · show restore ('(' :: '(' :: '(' :: (spreadAll text ++ rest)) = _
      rw [restore, ih]
    · show restore (')' :: ')' :: ')' :: (spreadAll text ++ rest)) = _
      rw [restore, ih]
    · cases hop : Operator.ofChar? c with
      | none => rw [spread_plain hc hop, List.singleton_append, restore_plain hc, ih]
      | some op =>
        rw [symbol_of_ofChar? hop]
        cases op <;> exact congrArg _ ih

theorem restore_spreadAll (text : List Char) : restore (spreadAll text) = text := by
  have happend := restore_spreadAll_append text []
  rwa [List.append_nil, restore, List.append_nil] at happend

end Spreadsheet.Textual
