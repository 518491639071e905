import Mathlib.Control.Monad.Basic
import Spreadsheet.Proofs.Grammar
import Spreadsheet.Proofs.References
import Spreadsheet.Proofs.Tokens
/-!
# How high the tree of a formula is

What goes through a tree goes as deep as the tree is high. A level of nesting adds
to the height what stands on it: the operators in a row of a sum, those in a row
of a product in it, a sign or call, and a condition. The limit bounds the levels,
so a formula is as high as the limit and its longest row of operators allow:
`Expr.height_lt_of_rows`. The limit alone bounds nothing. Each operator in a row
makes the tree higher by one, and a row is read however long it is:
`Expr.ofText_joined`.
-/

namespace Spreadsheet

/-! ## Heights -/

mutual

/-- How many expressions and conditions stand in one another, which is how deep it goes to visit
them all. -/
def Expr.height : Expr → Nat
  | .number _ | .text _ | .cell _ | .link _ => 1
  | .negate operand => operand.height + 1
  | .binary _ left right => max left.height right.height + 1
  | .call _ arguments => Argument.height arguments + 1

/-- The height of the highest of the arguments. -/
def Argument.height : List (Argument Expr) → Nat
  | [] => 0
  | .value operand :: rest => max operand.height (Argument.height rest)
  | .condition _ left right :: rest =>
    max (max left.height right.height + 1) (Argument.height rest)
  | .criterion _ operand :: rest => max (operand.height + 1) (Argument.height rest)

end

theorem Argument.height_append (as bs : List (Argument Expr)) :
    Argument.height (as ++ bs) = max (Argument.height as) (Argument.height bs) := by
  induction as with
  | nil => simp [Argument.height]
  | cons a as ih => cases a <;> simp only [List.cons_append, Argument.height, ih] <;> omega

/-! ## Rows of operators -/

/-- The tokens are a sum or a product with so many operators in a row, not counting those inside
its operands. -/
inductive Row : Part → Nat → List Token → Prop where
  | term {n ts e} : Derives n .product ts e → Row .sum 0 ts
  | loose {n k ts us op f} (h : op = .add ∨ op = .subtract) :
    Row .sum k ts → Derives n .product us f → Row .sum (k + 1) (ts ++ .operator op :: us)
  | factor {n ts e} : Derives n .signed ts e → Row .product 0 ts
  | tight {n k ts us op f} (h : op = .multiply ∨ op = .divide) :
    Row .product k ts → Derives n .signed us f →
    Row .product (k + 1) (ts ++ .operator op :: us)

/-- No sum and no product anywhere in the tokens has more operators in a row than that. -/
def RowsWithin (k : Nat) (ts : List Token) : Prop :=
  ∀ us, us <:+: ts → ∀ p j, Row p j us → j ≤ k

section
variable {k : Nat} {t : Token} {ts us : List Token}

theorem RowsWithin.le {p : Part} {j : Nat} (h : RowsWithin k ts) (hrow : Row p j ts) : j ≤ k :=
  h ts (List.infix_refl ts) p j hrow

theorem RowsWithin.of_infix (h : RowsWithin k ts) (hus : us <:+: ts) : RowsWithin k us :=
  fun vs hvs => h vs (hvs.trans hus)

theorem RowsWithin.left (h : RowsWithin k (ts ++ us)) : RowsWithin k ts :=
  h.of_infix (List.prefix_append ts us).isInfix

theorem RowsWithin.right (h : RowsWithin k (ts ++ t :: us)) : RowsWithin k us :=
  h.of_infix ((List.suffix_cons t us).trans (List.suffix_append ts _)).isInfix

theorem RowsWithin.tail (h : RowsWithin k (t :: ts)) : RowsWithin k ts :=
  h.of_infix (List.suffix_cons t ts).isInfix

/-- The tokens that join the operands of a sum, or of a product. -/
def Part.joins : Part → Token → Bool
  | .sum, .operator op => !Reader.isTight op
  | .product, .operator op => Reader.isTight op
  | _, _ => false

theorem Row.le_countP {p : Part} {j : Nat} (h : Row p j ts) : j ≤ ts.countP p.joins := by
  induction h with
  | term | factor => exact Nat.zero_le _
  | @loose _ _ _ _ op _ hop _ _ ih =>
    have hjoins : Part.sum.joins (.operator op) := (Reader.not_isTight_iff op).2 hop
    rw [List.countP_append, List.countP_cons_of_pos hjoins]
    omega
  | @tight _ _ _ _ op _ hop _ _ ih =>
    have hjoins : Part.product.joins (.operator op) := (Reader.isTight_iff op).2 hop
    rw [List.countP_append, List.countP_cons_of_pos hjoins]
    omega

/-- There are no more operators in a row than there are in all. -/
theorem rowsWithin_of_countP (h : ∀ p : Part, ts.countP p.joins ≤ k) : RowsWithin k ts := by
  intro us hus p j hrow
  calc
    j ≤ us.countP p.joins := hrow.le_countP
    _ ≤ ts.countP p.joins := hus.sublist.countP_le
    _ ≤ k := h p

end

/-! ## Heights of what is derived -/

/-- The height that a part has at most with signed operands nested `n` deep. Only the row that the
part itself is may go on, so a sum and a product are measured by the operators they have so far. -/
def Part.Low (k n : Nat) : (p : Part) → List Token → p.Tree → Prop
  | .sum, ts, e => ∃ j, Row .sum j ts ∧ e.height + k + 1 ≤ (2 * k + 2) * n + j
  | .product, ts, e => ∃ j, Row .product j ts ∧ e.height + 2 * k + 1 ≤ (2 * k + 2) * n + j
  | .signed, _, e => e.height + 2 * k + 1 ≤ (2 * k + 2) * n
  | .primary, _, e => e.height ≤ (2 * k + 2) * n + 1
  | .argument, _, a => Argument.height [a] ≤ (2 * k + 2) * n
  | .arguments, _, as => Argument.height as ≤ (2 * k + 2) * n

section
variable {k n : Nat} {ts us : List Token} {e f : Expr}

/-- A sum that is complete has no more than `k` operators. -/
theorem height_lt_of_low (hrows : RowsWithin k ts) (h : Part.sum.Low k n ts e) :
    e.height < (2 * k + 2) * n := by
  obtain ⟨j, hrow, hheight⟩ := h
  have hj : j ≤ k := hrows.le hrow
  omega

theorem low_term (hd : Derives n .product ts e) (hrows : RowsWithin k ts)
    (h : Part.product.Low k n ts e) : Part.sum.Low k n ts e := by
  obtain ⟨j, hrow, hheight⟩ := h
  have hj : j ≤ k := hrows.le hrow
  exact ⟨0, .term hd, by omega⟩

theorem low_loose {op : Operator} (hop : op = .add ∨ op = .subtract) (hd : Derives n .product us f)
    (hrows : RowsWithin k us) (he : Part.sum.Low k n ts e) (hf : Part.product.Low k n us f) :
    Part.sum.Low k n (ts ++ .operator op :: us) (.binary op e f) := by
  obtain ⟨j, hrow, hleft⟩ := he
  obtain ⟨i, hright, hheight⟩ := hf
  have hi : i ≤ k := hrows.le hright
  refine ⟨j + 1, .loose hop hrow hd, ?_⟩
  simp only [Expr.height]
  omega

theorem low_tight {op : Operator} (hop : op = .multiply ∨ op = .divide)
    (hd : Derives n .signed us f) (he : Part.product.Low k n ts e) (hf : Part.signed.Low k n us f) :
    Part.product.Low k n (ts ++ .operator op :: us) (.binary op e f) := by
  obtain ⟨j, hrow, hleft⟩ := he
  refine ⟨j + 1, .tight hop hrow hd, ?_⟩
  simp only [Part.Low] at hf
  simp only [Expr.height]
  omega

/-- A level adds at most a product of `k` operators in a sum of `k` operators, and what stands
around that. -/
theorem low_derives {p : Part} {a : p.Tree} (h : Derives n p ts a) (hrows : RowsWithin k ts) :
    p.Low k n ts a := by
  induction h with
  | product hd ih => exact low_term hd hrows (ih hrows)
  | loose hop _ hf ihe ihf =>
    exact low_loose hop hf hrows.right (ihe hrows.left) (ihf hrows.right)
  | signed hd ih => exact ⟨0, .factor hd, ih hrows⟩
  | tight hop _ hf ihe ihf => exact low_tight hop hf (ihe hrows.left) (ihf hrows.right)
  | negate _ ih =>
    have hoperand := ih hrows.tail
    simp only [Part.Low, Expr.height, Nat.mul_succ] at hoperand ⊢
    omega
  | plus _ ih =>
    have hoperand := ih hrows.tail
    simp only [Part.Low, Nat.mul_succ] at hoperand ⊢
    omega
  | primary _ ih =>
    have hoperand := ih hrows
    simp only [Part.Low, Nat.mul_succ] at hoperand ⊢
    omega
  | number | text | link | cell | word =>
    simp only [Part.Low, Expr.height]
    omega
  | group _ ih =>
    have hinner := hrows.left.tail
    exact Nat.le_succ_of_le (Nat.le_of_lt (height_lt_of_low hinner (ih hinner)))
  | emptyCall =>
    simp only [Part.Low, Expr.height, Argument.height]
    omega
  | call _ _ ih => exact Nat.succ_le_succ (ih hrows.left.tail.tail)
  | value _ ih =>
    have hoperand := height_lt_of_low hrows (ih hrows)
    simp only [Part.Low, Argument.height]
    omega
  | condition _ _ _ ihe ihf =>
    have hleft := height_lt_of_low hrows.left (ihe hrows.left)
    have hright := height_lt_of_low hrows.right (ihf hrows.right)
    simp only [Part.Low, Argument.height]
    omega
  | criterion _ _ ih =>
    have hoperand := height_lt_of_low hrows.tail (ih hrows.tail)
    simp only [Part.Low, Argument.height]
    omega
  | one _ ih => exact ih hrows
  | more _ _ ihas iha =>
    have hleft := ihas hrows.left
    have hright := iha hrows.right
    simp only [Part.Low, Argument.height_append] at hleft hright ⊢
    omega

end

/-- A formula without more than `k` operators in a row is less high than `2 * k + 2` times the limit
on nesting: less than four times if no two of one kind are in a row. -/
theorem Expr.height_lt_of_rows {text : List Char} {ts : List Token} {e : Expr} {k : Nat}
    (htokens : Token.tokenize text = .ok ts) (h : ofText text = .ok e)
    (hrows : RowsWithin k ts) : e.height < (2 * k + 2) * nestingLimit := by
  have hread : ofTokens ts = .ok e := by
    unfold ofText at h
    rwa [htokens] at h
  exact height_lt_of_low hrows (low_derives (derives_of_ofTokens hread) hrows)

theorem Expr.height_lt_of_rows_if :
    let x := Expr.text "x"
    let e := Expr.call "if" [.condition .less (.binary .add x (.binary .multiply x x)) x, .value x]
    ofText "if(x+x*x<x;x)".toList = .ok e ∧ e.height < 4 * nestingLimit := by
  intro x e
  let w := Token.word "x"
  let ts : List Token := [.word "if", .openParen, w, .operator .add, w, .operator .multiply, w,
    .comparison "<", w, .separator, w, .closeParen]
  have htokens : Token.tokenize "if(x+x*x<x;x)".toList = .ok ts := by decide +kernel
  have hx : Derives 127 .signed [w] x := .primary (.word "x")
  have hterm : Derives 127 .sum [w] x := .product (.signed hx)
  have hsum : Derives 127 .sum [w, .operator .add, w, .operator .multiply, w]
      (.binary .add x (.binary .multiply x x)) :=
    .loose (.inl rfl) hterm (.tight (.inl rfl) (.signed hx) hx)
  have hless : Comparison.ofSymbol? "<" = some .less := rfl
  have harguments := Derives.more (.one (.condition hless hsum hterm)) (.value hterm)
  have hname : String.ofList (Unicode.lowercase "if".toList) = "if" := by decide +kernel
  have hcall := Derives.call (t := .word "if") rfl harguments
  rw [hname] at hcall
  have hread : ofText "if(x+x*x<x;x)".toList = .ok e := by
    unfold ofText
    rw [htokens]
    exact ofTokens_of_derives (.product (.signed (.primary hcall)))
  have hrows : RowsWithin 1 ts := rowsWithin_of_countP fun p => by cases p <;> decide
  have hheight := height_lt_of_rows htokens hread hrows
  exact ⟨hread, by omega⟩

/-! ## Rows of operands -/

/-- The list and then `n` times the mark and the list again. -/
def joined {α : Type} (mark : α) (l : List α) : Nat → List α
  | 0 => l
  | n + 1 => joined mark l n ++ mark :: l

/-- The expression and then `n` times the same added to it. -/
def Expr.sumOf (e : Expr) : Nat → Expr
  | 0 => e
  | n + 1 => .binary .add (e.sumOf n) e

theorem tokenize_joined {text : List Char} {ts : List Token} {o : Char} {t : Token}
    (ho : Token.ofChar? o = some t) (h : Token.tokenize text = .ok ts) (n : Nat) :
    Token.tokenize (joined o text n) = .ok (joined t ts n) := by
  induction n with
  | zero => exact h
  | succ n ih =>
    have happend := Token.tokenize_append (b := text) ho (a := joined o text n) (by simp [ih])
    rw [ih, h] at happend
    exact happend

theorem Derives.joined {n : Nat} {ts : List Token} {e : Expr} (h : Derives n .product ts e)
    (k : Nat) : Derives n .sum (Spreadsheet.joined (.operator .add) ts k) (e.sumOf k) := by
  induction k with
  | zero => exact .product h
  | succ k ih => exact .loose (.inl rfl) ih h

namespace Expr

theorem height_sumOf (e : Expr) (n : Nat) : (e.sumOf n).height = e.height + n := by
  induction n with
  | zero => rfl
  | succ n ih =>
    simp only [sumOf, height, ih]
    omega

/-- A row of operands is read however long it is. -/
theorem ofText_joined {text : List Char} {ts : List Token} {e : Expr}
    (htokens : Token.tokenize text = .ok ts) (h : Derives nestingLimit .product ts e) (n : Nat) :
    ofText (joined '+' text n) = .ok (e.sumOf n) :=
  ofText_of_derives (tokenize_joined rfl htokens n) (h.joined n)

/-- Nothing is nested here, and yet the formula is higher than four times the limit. -/
theorem height_row_of_operands :
    let text := joined '+' ['A', '1'] (4 * nestingLimit)
    ∃ e, ofText text = .ok e ∧ 4 * nestingLimit < e.height := by
  intro text
  have htokens : Token.tokenize ['A', '1'] = .ok [.cell .a1] := by decide +kernel
  have hoperand : Derives nestingLimit .product [.cell .a1] (.cell .a1) :=
    .signed (.primary (.cell .a1))
  refine ⟨_, ofText_joined htokens hoperand _, ?_⟩
  rw [height_sumOf]
  exact Nat.lt_add_of_pos_left Nat.one_pos

end Expr

end Spreadsheet
