import Spreadsheet.Proofs.Brackets
import Spreadsheet.Proofs.Precedence
/-!
# Formulas without signs

Outside the arguments of calls, a plus or minus that stands behind an operand is
an operator and no sign. Where all of them do, the derivation of an expression
uses no sign there: `bare_of_derives`.
-/

namespace Spreadsheet

namespace Token

/-- The token is a plus or a minus. -/
def isSign : Token → Bool
  | operator .add | operator .subtract => true
  | _ => false

/-- The token may end an operand. -/
def endsOperand : Token → Bool
  | number _ | text _ | word _ | cell _ | link _ | closeParen => true
  | _ => false

end Token

/-- How far a walk over tokens has come: the token before, and how many parentheses are open since
the one that opened the arguments of a call. -/
structure Walk where
  previous : Option Token
  depth : Nat

namespace Walk

/-- How many parentheses are open behind the token. Outside the arguments of calls, only one that
opens arguments counts. -/
def depthBehind (w : Walk) : Token → Nat
  | .openParen => if w.depth = 0 ∧ w.previous.bind Token.callee? = none then 0 else w.depth + 1
  | .closeParen => w.depth - 1
  | _ => w.depth

/-- Goes on over a token. Outside the arguments of calls, a plus or minus has to stand behind an
operand. -/
def step (w : Walk) (t : Token) : Option Walk :=
  if t.isSign ∧ w.depth = 0 ∧ ¬w.previous.any Token.endsOperand then none
  else some ⟨some t, w.depthBehind t⟩

/-- Goes on over tokens. -/
def along (w : Walk) (ts : List Token) : Option Walk := ts.foldlM step w

/-- The walk stands behind an operand outside the arguments of calls. -/
def AfterOperand (w : Walk) : Prop := w.depth = 0 ∧ w.previous.any Token.endsOperand = true

end Walk

/-- Each plus and minus outside the arguments of calls stands behind an operand. -/
def Token.Unsigned (ts : List Token) : Prop := (Walk.along ⟨none, 0⟩ ts).isSome

instance (ts : List Token) : Decidable (Token.Unsigned ts) :=
  inferInstanceAs (Decidable (_ = true))

/-- The tokens denote the expression without signs outside the arguments of calls. -/
inductive Bare : (levels : Nat) → Textual.Rank → List Token → Expr → Prop
  | product {n ts e} : Bare n .product ts e → Bare n .sum ts e
  | loose {n ts us op e f} (h : op = .add ∨ op = .subtract) :
    Bare n .sum ts e → Bare n .product us f →
    Bare n .sum (ts ++ .operator op :: us) (.binary op e f)
  | factor {n ts e} : Bare n .factor ts e → Bare n .product ts e
  | tight {n ts us op e f} (h : op = .multiply ∨ op = .divide) :
    Bare n .product ts e → Bare n .factor us f →
    Bare n .product (ts ++ .operator op :: us) (.binary op e f)
  | group {n ts e} : Bare n .sum ts e →
    Bare (n + 1) .factor (.openParen :: ts ++ [.closeParen]) e
  | atom {n t e} (ht : ∀ o, Token.ofChar? o ≠ some t) : Derives n .primary [t] e →
    Bare (n + 1) .factor [t] e
  | call {n t name ts e} (ht : t.callee? = some name)
    (hts : Textual.Closed (Token.parentheses ts)) :
    Derives n .primary (t :: .openParen :: ts ++ [.closeParen]) e →
    Bare (n + 1) .factor (t :: .openParen :: ts ++ [.closeParen]) e

/-- The grammar derives the expression as a part of the rank. -/
def Textual.Rank.Derives (n : Nat) (ts : List Token) (e : Expr) : Rank → Prop
  | sum => Spreadsheet.Derives n .sum ts e
  | product => Spreadsheet.Derives n .product ts e
  | factor => Spreadsheet.Derives n .signed ts e

/-- What is denoted without signs is denoted. -/
theorem Bare.derives {n : Nat} {rank : Textual.Rank} {ts : List Token} {e : Expr}
    (h : Bare n rank ts e) : rank.Derives n ts e := by
  induction h with
  | product _ ih => exact .product ih
  | loose hop _ _ ihe ihf => exact .loose hop ihe ihf
  | factor _ ih => exact .signed ih
  | tight hop _ _ ihe ihf => exact .tight hop ihe ihf
  | group _ ih => exact .primary (.group ih)
  | atom _ hd => exact .primary hd
  | call _ _ hd => exact .primary hd

namespace Walk

section
variable {w w' : Walk} {t : Token} {ts us : List Token} {previous : Option Token} {depth : Nat}

theorem along_cons : w.along (t :: ts) = (w.step t).bind (along · ts) := List.foldlM_cons

theorem along_append : w.along (ts ++ us) = (w.along ts).bind (along · us) := List.foldlM_append

theorem along_singleton : w.along [t] = w.step t := by
  rw [along_cons]
  cases w.step t <;> rfl

theorem exists_of_along_append (h : w.along (ts ++ us) = some w') :
    ∃ w'', w.along ts = some w'' ∧ w''.along us = some w' := by
  rw [along_append] at h
  exact Option.bind_eq_some_iff.1 h

theorem exists_of_along_cons (h : w.along (t :: ts) = some w') :
    ∃ w'', w.step t = some w'' ∧ w''.along ts = some w' := by
  rw [along_cons] at h
  exact Option.bind_eq_some_iff.1 h

theorem depthBehind_of_parenthesis (ht : t.parenthesis = []) : w.depthBehind t = w.depth := by
  cases t <;> first | rfl | cases ht

theorem step_of_not_isSign (ht : t.isSign = false) : w.step t = some ⟨some t, w.depthBehind t⟩ := by
  simp [step, ht]

theorem step_inside : step ⟨previous, depth + 1⟩ t =
    some ⟨some t, depthBehind ⟨previous, depth + 1⟩ t⟩ := by
  simp [step]

/-- Inside the arguments of a call, a walk stops at nothing and counts parentheses. -/
theorem along_inside {depth' : Nat}
    (h : Textual.openAfter depth (Token.parentheses ts) = some depth') (previous : Option Token) :
    ∃ previous', along ⟨previous, depth + 1⟩ ts = some ⟨previous', depth' + 1⟩ := by
  induction ts generalizing depth previous with
  | nil =>
    cases h
    exact ⟨previous, rfl⟩
  | cons t ts ih =>
    rw [Token.parentheses_cons] at h
    rw [along_cons, step_inside, Option.bind_some]
    cases t with
    | openParen =>
      rw [depthBehind, if_neg (by simp)]
      exact ih h _
    | closeParen =>
      cases depth with
      | zero => cases h
      | succ depth => exact ih h _
    | _ => exact ih h _

/-- Behind an operand, a step over an operator goes through. -/
theorem step_operator {op : Operator} (hw : w.AfterOperand)
    (h : w.step (.operator op) = some w') : w' = ⟨some (.operator op), 0⟩ := by
  rw [step, if_neg fun hsign => hsign.2.2 hw.2] at h
  cases h
  exact congrArg _ hw.1

end

end Walk

/-! ## Walking past operands -/

/-- Behind a token that ends no operand, a walk over the tokens ends behind an operand, and then
they denote the expression without signs. -/
def EndsBare (n : Nat) (rank : Textual.Rank) (ts : List Token) (e : Expr) : Prop :=
  ∀ previous w, Option.any Token.endsOperand previous = false →
    Walk.along ⟨previous, 0⟩ ts = some w → Bare n rank ts e ∧ w.AfterOperand

/-- What a derivation says of a walk over its tokens. -/
def WalksBare (n : Nat) : (p : Part) → List Token → p.Tree → Prop
  | .sum, ts, e => EndsBare n .sum ts e
  | .product, ts, e => EndsBare n .product ts e
  | .signed, ts, e => EndsBare n .factor ts e
  | .primary, ts, e => EndsBare (n + 1) .factor ts e
  | .argument, _, _ => True
  | .arguments, _, _ => True

section
variable {n : Nat} {ts us : List Token} {op : Operator} {e f : Expr} {t : Token} {name : String}

theorem isSign_of_endsOperand (h : t.endsOperand = true) : t.isSign = false := by
  cases t <;> first | rfl | cases h

theorem parenthesis_of_endsOperand (h : t.endsOperand = true) (hclose : t ≠ .closeParen) :
    t.parenthesis = [] := by
  cases t <;> first | rfl | exact absurd rfl hclose | cases h

/-- The only mark that ends an operand is a closing parenthesis. -/
theorem ofChar?_ne_of_endsOperand (h : t.endsOperand = true) (hclose : t ≠ .closeParen) (o : Char) :
    Token.ofChar? o ≠ some t := by
  intro ho
  have hmem := Token.mem_of_ofChar? ho
  simp only [List.mem_cons, List.not_mem_nil, or_false] at hmem
  rcases hmem with rfl | rfl | rfl | rfl | rfl | rfl | rfl <;> cases ho <;>
    first | exact hclose rfl | cases h

theorem endsOperand_of_callee (h : t.callee? = some name) :
    t.endsOperand = true ∧ t ≠ .closeParen := by
  cases t <;> cases h <;> exact ⟨rfl, nofun⟩

/-- The walk does not go past a sign. -/
theorem endsBare_sign (hop : op = .add ∨ op = .subtract) :
    EndsBare n .factor (.operator op :: ts) e := by
  intro previous w hprevious h
  obtain ⟨w', hstep, -⟩ := Walk.exists_of_along_cons h
  have hsign : (Token.operator op).isSign = true := by rcases hop with rfl | rfl <;> rfl
  simp [Walk.step, hprevious, hsign] at hstep

theorem endsBare_atom (hends : t.endsOperand = true) (hclose : t ≠ .closeParen)
    (hd : Derives n .primary [t] e) : EndsBare (n + 1) .factor [t] e := by
  intro previous w hprevious h
  rw [Walk.along_singleton, Walk.step_of_not_isSign (isSign_of_endsOperand hends),
    Walk.depthBehind_of_parenthesis (parenthesis_of_endsOperand hends hclose)] at h
  cases h
  exact ⟨.atom (ofChar?_ne_of_endsOperand hends hclose) hd, rfl, hends⟩

theorem endsBare_call (ht : t.callee? = some name)
    (hclosed : Textual.Closed (Token.parentheses ts))
    (hd : Derives n .primary (t :: .openParen :: ts ++ [.closeParen]) e) :
    EndsBare (n + 1) .factor (t :: .openParen :: ts ++ [.closeParen]) e := by
  intro previous w hprevious h
  refine ⟨.call ht hclosed hd, ?_⟩
  obtain ⟨previous', hinside⟩ := Walk.along_inside hclosed (some .openParen)
  have hcallee : Walk.step ⟨previous, 0⟩ t = some ⟨some t, 0⟩ := by
    rw [Walk.step_of_not_isSign (isSign_of_endsOperand (endsOperand_of_callee ht).1),
      Walk.depthBehind_of_parenthesis (parenthesis_of_callee ht)]
  have hopen : Walk.step ⟨some t, 0⟩ .openParen = some ⟨some .openParen, 1⟩ := by
    rw [Walk.step_of_not_isSign rfl, Walk.depthBehind, Option.bind_some, ht, if_neg (by simp)]
  rw [List.cons_append, Walk.along_cons, hcallee, Option.bind_some, List.cons_append, Walk.along_cons,
    hopen, Option.bind_some, Walk.along_append, hinside] at h
  cases h
  exact ⟨rfl, rfl⟩

theorem EndsBare.group (h : EndsBare n .sum ts e) :
    EndsBare (n + 1) .factor (.openParen :: ts ++ [.closeParen]) e := by
  intro previous w hprevious halong
  -- What may call a function ends an operand, and no operand stands before the group.
  have hcallee : previous.bind Token.callee? = none := by
    cases previous with
    | none => rfl
    | some t => cases t <;> first | rfl | cases hprevious
  have hopen : Walk.step ⟨previous, 0⟩ .openParen = some ⟨some .openParen, 0⟩ := by
    rw [Walk.step_of_not_isSign rfl, Walk.depthBehind, if_pos ⟨rfl, hcallee⟩]
  rw [List.cons_append, Walk.along_cons, hopen, Option.bind_some] at halong
  obtain ⟨w', hts, hclose⟩ := Walk.exists_of_along_append halong
  obtain ⟨hbare, hdepth, -⟩ := h _ _ rfl hts
  obtain ⟨previous', depth⟩ := w'
  cases hdepth
  cases hclose
  exact ⟨.group hbare, rfl, rfl⟩

theorem EndsBare.product (h : EndsBare n .product ts e) : EndsBare n .sum ts e := by
  intro previous w hprevious halong
  obtain ⟨hbare, hafter⟩ := h previous w hprevious halong
  exact ⟨.product hbare, hafter⟩

theorem EndsBare.factor (h : EndsBare n .factor ts e) : EndsBare n .product ts e := by
  intro previous w hprevious halong
  obtain ⟨hbare, hafter⟩ := h previous w hprevious halong
  exact ⟨.factor hbare, hafter⟩

/-- A walk over an operator between two parts goes over the one, and behind the operator over the
other. -/
theorem EndsBare.operator {rank rank' : Textual.Rank} (he : EndsBare n rank ts e)
    (hf : EndsBare n rank' us f) {previous : Option Token} {w : Walk}
    (hprevious : Option.any Token.endsOperand previous = false)
    (halong : Walk.along ⟨previous, 0⟩ (ts ++ .operator op :: us) = some w) :
    Bare n rank ts e ∧ Bare n rank' us f ∧ w.AfterOperand := by
  obtain ⟨w', hts, hrest⟩ := Walk.exists_of_along_append halong
  obtain ⟨w'', hstep, hus⟩ := Walk.exists_of_along_cons hrest
  obtain ⟨hbare, hafter⟩ := he _ _ hprevious hts
  -- The first part ends behind an operand, so the operator is no sign.
  cases Walk.step_operator hafter hstep
  exact ⟨hbare, hf _ _ rfl hus⟩

theorem EndsBare.loose (hop : op = .add ∨ op = .subtract) (he : EndsBare n .sum ts e)
    (hf : EndsBare n .product us f) :
    EndsBare n .sum (ts ++ .operator op :: us) (.binary op e f) := by
  intro previous w hprevious halong
  obtain ⟨hbare, hbare', hafter⟩ := he.operator hf hprevious halong
  exact ⟨.loose hop hbare hbare', hafter⟩

theorem EndsBare.tight (hop : op = .multiply ∨ op = .divide) (he : EndsBare n .product ts e)
    (hf : EndsBare n .factor us f) :
    EndsBare n .product (ts ++ .operator op :: us) (.binary op e f) := by
  intro previous w hprevious halong
  obtain ⟨hbare, hbare', hafter⟩ := he.operator hf hprevious halong
  exact ⟨.tight hop hbare hbare', hafter⟩

end

theorem walksBare_of_derives {n : Nat} {p : Part} {ts : List Token} {a : p.Tree}
    (h : Derives n p ts a) : WalksBare n p ts a := by
  induction h with
  | product _ ih => exact EndsBare.product ih
  | loose hop _ _ ihe ihf => exact EndsBare.loose hop ihe ihf
  | signed _ ih => exact EndsBare.factor ih
  | tight hop _ _ ihe ihf => exact EndsBare.tight hop ihe ihf
  | negate _ _ => exact endsBare_sign (.inr rfl)
  | plus _ _ => exact endsBare_sign (.inl rfl)
  | primary _ ih => exact ih
  | number x => exact endsBare_atom rfl nofun (.number x)
  | text s => exact endsBare_atom rfl nofun (.text s)
  | link l => exact endsBare_atom rfl nofun (.link l)
  | cell c => exact endsBare_atom rfl nofun (.cell c)
  | word w => exact endsBare_atom rfl nofun (.word w)
  | group _ ih => exact EndsBare.group ih
  | emptyCall ht =>
    have hnil : Textual.Closed (Token.parentheses []) := Textual.closed_nil
    exact endsBare_call ht hnil (.emptyCall ht)
  | call ht hd _ =>
    exact endsBare_call ht (nestedWithin_parentheses hd).1 (.call ht hd)
  | value | condition | criterion | one | more => trivial

/-- An expression is denoted without signs outside the arguments of calls if each plus and minus
there stands behind an operand. -/
theorem bare_of_derives {n : Nat} {ts : List Token} {e : Expr} (h : Derives n .sum ts e)
    (hunsigned : Token.Unsigned ts) : Bare n .sum ts e := by
  obtain ⟨w, hw⟩ := Option.isSome_iff_exists.1 hunsigned
  exact (walksBare_of_derives h none w rfl hw).1

end Spreadsheet
