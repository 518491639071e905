import Spreadsheet.Formula.Parser
/-!
# The grammar of formulas

`Derives` states the grammar as rules for which tokens make up a sum, a product
and so on, and which tree they denote. It counts how deeply signed operands are
nested, and knows nothing of reading from left to right. Reading takes exactly
what the grammar derives, and yields the tree of the derivation:
`Expr.ofTokens_eq_ok_iff`.
-/

namespace Spreadsheet

/-- The parts that formulas are made of. -/
inductive Part where
  | sum | product | signed | primary | argument | arguments
  deriving DecidableEq

/-- What the tokens of a part denote. -/
abbrev Part.Tree : Part → Type
  | .sum | .product | .signed | .primary => Expr
  | .argument => Argument Expr
  | .arguments => List (Argument Expr)

/-- The name under which a token calls a function if a parenthesis follows it. -/
def Token.callee? : Token → Option String
  | .cell c => some c.text
  | .word w => some w
  | _ => none

/-- The tokens make up the part and denote the tree, with at most so many signed operands
nested in one another. -/
inductive Derives : (levels : Nat) → (p : Part) → List Token → p.Tree → Prop where
  | product {n ts e} : Derives n .product ts e → Derives n .sum ts e
  | loose {n ts us op e f} (h : op = .add ∨ op = .subtract) :
    Derives n .sum ts e → Derives n .product us f →
    Derives n .sum (ts ++ .operator op :: us) (.binary op e f)
  | signed {n ts e} : Derives n .signed ts e → Derives n .product ts e
  | tight {n ts us op e f} (h : op = .multiply ∨ op = .divide) :
    Derives n .product ts e → Derives n .signed us f →
    Derives n .product (ts ++ .operator op :: us) (.binary op e f)
  | negate {n ts e} : Derives n .signed ts e →
    Derives (n + 1) .signed (.operator .subtract :: ts) (.negate e)
  | plus {n ts e} : Derives n .signed ts e → Derives (n + 1) .signed (.operator .add :: ts) e
  | primary {n ts e} : Derives n .primary ts e → Derives (n + 1) .signed ts e
  | number {n} (x : Float) : Derives n .primary [.number x] (.number x)
  | text {n} (s : String) : Derives n .primary [.text s] (.text s)
  | link {n} (l : Link) : Derives n .primary [.link l] (.link l)
  | cell {n} (c : Cell) : Derives n .primary [.cell c] (.cell c)
  | word {n} (w : String) : Derives n .primary [.word w] (.text w)
  | group {n ts e} : Derives n .sum ts e →
    Derives n .primary (.openParen :: ts ++ [.closeParen]) e
  | emptyCall {n t name} (h : t.callee? = some name) :
    Derives n .primary [t, .openParen, .closeParen]
      (.call (String.ofList (Unicode.lowercase name.toList)) [])
  | call {n t name ts as} (h : t.callee? = some name) : Derives n .arguments ts as →
    Derives n .primary (t :: .openParen :: ts ++ [.closeParen])
      (.call (String.ofList (Unicode.lowercase name.toList)) as)
  | value {n ts e} : Derives n .sum ts e → Derives n .argument ts (.value e)
  | condition {n ts us s op e f} (h : Comparison.ofSymbol? s = some op) :
    Derives n .sum ts e → Derives n .sum us f →
    Derives n .argument (ts ++ .comparison s :: us) (.condition op e f)
  | criterion {n ts s op e} (h : Comparison.ofSymbol? s = some op) : Derives n .sum ts e →
    Derives n .argument (.comparison s :: ts) (.criterion op e)
  | one {n ts a} : Derives n .argument ts a → Derives n .arguments ts [a]
  | more {n ts us as a} : Derives n .arguments ts as → Derives n .argument us a →
    Derives n .arguments (ts ++ .separator :: us) (as ++ [a])

/-- What is derived with signed operands nested so deeply is derived with more of them allowed. -/
theorem Derives.mono {n m : Nat} {p : Part} {ts : List Token} {a : p.Tree} (h : Derives n p ts a)
    (hle : n ≤ m) : Derives m p ts a := by
  induction h generalizing m with
  | product _ ih => exact .product (ih hle)
  | loose hop _ _ ihe ihf => exact .loose hop (ihe hle) (ihf hle)
  | signed _ ih => exact .signed (ih hle)
  | tight hop _ _ ihe ihf => exact .tight hop (ihe hle) (ihf hle)
  | negate _ ih =>
    obtain ⟨m, rfl⟩ := Nat.exists_eq_add_of_lt hle
    exact .negate (ih (Nat.le_add_right _ _))
  | plus _ ih =>
    obtain ⟨m, rfl⟩ := Nat.exists_eq_add_of_lt hle
    exact .plus (ih (Nat.le_add_right _ _))
  | primary _ ih =>
    obtain ⟨m, rfl⟩ := Nat.exists_eq_add_of_lt hle
    exact .primary (ih (Nat.le_add_right _ _))
  | number x => exact .number x
  | text s => exact .text s
  | link l => exact .link l
  | cell c => exact .cell c
  | word w => exact .word w
  | group _ ih => exact .group (ih hle)
  | emptyCall ht => exact .emptyCall ht
  | call ht _ ih => exact .call ht (ih hle)
  | value _ ih => exact .value (ih hle)
  | condition hop _ _ ihe ihf => exact .condition hop (ihe hle) (ihf hle)
  | criterion hop _ ih => exact .criterion hop (ih hle)
  | one _ ih => exact .one (ih hle)
  | more _ _ ihas iha => exact .more (ihas hle) (iha hle)

namespace Reader

/-! ## What is read is derived -/

/-- All that the reader takes from the front of tokens is as `P` says. -/
def Sound {α : Type} (r : Reader α) (P : List Token → α → Prop) : Prop :=
  ∀ tokens p, r tokens = .ok p → ∃ ts, tokens = ts ++ p.rest ∧ P ts p.value

theorem sound_extend {operand : Reader Expr} {accepts : Operator → Bool}
    {P Q : List Token → Expr → Prop} (hop : Sound operand Q)
    (hstep : ∀ ts e op us f, accepts op → P ts e → Q us f →
      P (ts ++ .operator op :: us) (.binary op e f))
    {tokens : List Token} (p q : Parsed Expr tokens) (h : extend operand accepts p = .ok q) :
    (∃ ts, tokens = ts ++ p.rest ∧ P ts p.value) →
      ∃ ts, tokens = ts ++ q.rest ∧ P ts q.value := by
  fun_induction extend operand accepts p with
  | case1 => simp at h
  | case2 e op rest hlt hacc right hright ih =>
    rintro ⟨ts, htokens, hP⟩
    obtain ⟨us, hus, hQ⟩ := hop _ _ hright
    refine ih h ⟨ts ++ .operator op :: us, ?_, hstep _ _ _ _ _ hacc hP hQ⟩
    simp only at htokens
    simp [htokens, ← hus]
  | case3 => cases h; exact id
  | case4 => cases h; exact id

theorem bind_eq_ok {ε α β : Type} {x : Except ε α} {f : α → Except ε β} {b : β}
    (h : x >>= f = .ok b) : ∃ a, x = .ok a ∧ f a = .ok b := by
  cases x with
  | error e => cases h
  | ok a => exact ⟨a, rfl, h⟩

theorem isTight_iff (op : Operator) : isTight op ↔ op = .multiply ∨ op = .divide := by
  cases op <;> simp [isTight]

theorem not_isTight_iff (op : Operator) : !isTight op ↔ op = .add ∨ op = .subtract := by
  cases op <;> simp [isTight]

section
variable {r : Reader Expr} {n : Nat}

theorem sound_product (hr : Sound r (Derives n .signed)) :
    Sound (product r) (Derives n .product) := by
  intro tokens p h
  obtain ⟨first, hfirst, hext⟩ := bind_eq_ok h
  obtain ⟨ts, hts, hd⟩ := hr _ _ hfirst
  refine sound_extend hr (P := Derives n .product) ?_ first p hext ⟨ts, hts, .signed hd⟩
  intro ts e op us f hop he hf
  exact .tight ((isTight_iff op).1 hop) he hf

theorem sound_sum (hr : Sound r (Derives n .signed)) : Sound (sum r) (Derives n .sum) := by
  intro tokens p h
  obtain ⟨first, hfirst, hext⟩ := bind_eq_ok h
  obtain ⟨ts, hts, hd⟩ := sound_product hr _ _ hfirst
  refine sound_extend (sound_product hr) (P := Derives n .sum) ?_ first p hext
    ⟨ts, hts, .product hd⟩
  intro ts e op us f hop he hf
  exact .loose ((not_isTight_iff op).1 hop) he hf

theorem sound_close {α : Type} {tokens : List Token} {p q : Parsed α tokens}
    (h : close p = .ok q) : q.value = p.value ∧ p.rest = .closeParen :: q.rest := by
  obtain ⟨value, _ | ⟨t, rest⟩, hlt⟩ := p
  · cases h
  · cases t <;> cases h
    exact ⟨rfl, rfl⟩

theorem comparison_eq_ok {s : String} {op : Comparison} (h : comparison s = .ok op) :
    Comparison.ofSymbol? s = some op := by
  unfold comparison at h
  split at h
  · rename_i op' hs; cases h; exact hs
  · cases h

theorem sound_condition (hr : Sound r (Derives n .signed)) :
    Sound (condition r) (Derives n .argument) := by
  intro tokens p h
  obtain ⟨⟨e, rest, hlt⟩, hsum, h⟩ := bind_eq_ok h
  obtain ⟨ts, hts, he⟩ := sound_sum hr _ _ hsum
  dsimp only at h hts he
  split at h
  · rename_i e' s rest' hlt' heq
    cases heq
    obtain ⟨op, hop, h⟩ := bind_eq_ok h
    obtain ⟨right, hright, h⟩ := bind_eq_ok h
    obtain ⟨us, hus, hf⟩ := sound_sum hr _ _ hright
    cases h
    exact ⟨ts ++ .comparison s :: us, by simp [hts, hus, Parsed.lift],
      .condition (comparison_eq_ok hop) he hf⟩
  · cases h
    exact ⟨ts, hts, .value he⟩

theorem sound_argument (hr : Sound r (Derives n .signed)) :
    Sound (argument r) (Derives n .argument) := by
  intro tokens p h
  unfold argument at h
  split at h
  · rename_i s rest
    obtain ⟨op, hop, h⟩ := bind_eq_ok h
    obtain ⟨operand, hoperand, h⟩ := bind_eq_ok h
    obtain ⟨ts, hts, he⟩ := sound_sum hr _ _ hoperand
    cases h
    exact ⟨.comparison s :: ts, by simp [hts, Parsed.lift], .criterion (comparison_eq_ok hop) he⟩
  · cases h
  · cases h
  · exact sound_condition hr _ _ h

theorem sound_moreArguments (hr : Sound r (Derives n .signed)) {tokens : List Token}
    (p q : Parsed (List (Argument Expr)) tokens) (h : moreArguments r p = .ok q) :
    (∃ ts, tokens = ts ++ p.rest ∧ Derives n .arguments ts p.value) →
      ∃ ts, tokens = ts ++ q.rest ∧ Derives n .arguments ts q.value := by
  fun_induction moreArguments r p with
  | case1 => simp at h
  | case2 as rest hlt next hnext ih =>
    rintro ⟨ts, hts, has⟩
    obtain ⟨us, hus, ha⟩ := sound_argument hr _ _ hnext
    refine ih h ⟨ts ++ .separator :: us, ?_, .more has ha⟩
    simp only at hts
    simp [hts, ← hus]
  | case3 => cases h; exact id

/-- A call's tokens after its opening parenthesis: arguments, if any, and the closing one. -/
theorem sound_arguments (hr : Sound r (Derives n .signed)) :
    Sound (arguments r) fun ts as => ∃ us, ts = us ++ [.closeParen] ∧
      (us = [] ∧ as = [] ∨ Derives n .arguments us as) := by
  intro tokens p h
  unfold arguments at h
  split at h
  · cases h
    exact ⟨[.closeParen], rfl, [], rfl, .inl ⟨rfl, rfl⟩⟩
  · obtain ⟨first, hfirst, h⟩ := bind_eq_ok h
    obtain ⟨all, hall, h⟩ := bind_eq_ok h
    obtain ⟨hvalue, hrest⟩ := sound_close h
    obtain ⟨ts, hts, ha⟩ := sound_argument hr _ _ hfirst
    obtain ⟨us, hus, has⟩ := sound_moreArguments hr _ _ hall ⟨ts, hts, .one ha⟩
    exact ⟨us ++ [.closeParen], by simp [hus, hrest], us, rfl, .inr (hvalue ▸ has)⟩

/-- A token that names a function, and the arguments read behind it, are a call. -/
theorem sound_call (hr : Sound r (Derives n .signed)) {t : Token} {name : String}
    (ht : t.callee? = some name) {rest : List Token} {p : Parsed (List (Argument Expr)) rest}
    (h : arguments r rest = .ok p) :
    ∃ ts, t :: .openParen :: rest = ts ++ p.rest ∧
      Derives n .primary ts (call name p.value) := by
  obtain ⟨ts, hts, us, rfl, ⟨rfl, hnil⟩ | has⟩ := sound_arguments hr _ _ h
  · rw [hnil]
    exact ⟨_, by simp [hts], .emptyCall ht⟩
  · exact ⟨_, by simp [hts], .call ht has⟩

theorem sound_primary (hr : Sound r (Derives n .signed)) :
    Sound (primary r) (Derives n .primary) := by
  intro tokens p h
  unfold primary at h
  split at h
  · cases h; exact ⟨[_], rfl, .number _⟩
  · cases h; exact ⟨[_], rfl, .text _⟩
  · cases h; exact ⟨[_], rfl, .link _⟩
  · obtain ⟨inner, hinner, h⟩ := bind_eq_ok h
    obtain ⟨ts, hts, he⟩ := sound_sum hr _ _ hinner
    obtain ⟨hvalue, hrest⟩ := sound_close h
    rw [hvalue]
    exact ⟨.openParen :: ts ++ [.closeParen], by simp_all [Parsed.lift], .group he⟩
  · obtain ⟨q, hq, h⟩ := bind_eq_ok h
    cases h
    exact sound_call hr rfl hq
  · cases h; exact ⟨[_], rfl, .cell _⟩
  · obtain ⟨q, hq, h⟩ := bind_eq_ok h
    cases h
    exact sound_call hr rfl hq
  · cases h; exact ⟨[_], rfl, .word _⟩
  · cases h
  · cases h

theorem sound_signedOperand (hr : Sound r (Derives n .signed)) :
    Sound (signedOperand r) (Derives (n + 1) .signed) := by
  intro tokens p h
  unfold signedOperand at h
  split at h
  · obtain ⟨operand, hoperand, h⟩ := bind_eq_ok h
    obtain ⟨ts, hts, he⟩ := hr _ _ hoperand
    cases h
    exact ⟨_, by simp [hts, Parsed.lift], .negate he⟩
  · obtain ⟨operand, hoperand, h⟩ := bind_eq_ok h
    obtain ⟨ts, hts, he⟩ := hr _ _ hoperand
    cases h
    exact ⟨_, by simp [hts, Parsed.lift], .plus he⟩
  · obtain ⟨ts, hts, he⟩ := sound_primary hr _ _ h
    exact ⟨ts, hts, .primary he⟩

end

theorem sound_signed (n : Nat) : Sound (signed n) (Derives n .signed) := by
  induction n with
  | zero => intro tokens p h; cases h
  | succ n ih => exact sound_signedOperand ih

/-! ## What is derived is read -/

/-- The reader takes the value from the front of the tokens and leaves the rest. -/
def Takes {α : Type} (r : Reader α) (tokens : List Token) (a : α) (rest : List Token) : Prop :=
  ∃ h, r tokens = .ok ⟨a, rest, h⟩

/-- The reader comes to the value with the rest to go, and goes on from there by `more`. -/
def ReadsOn {α : Type} (r : Reader α)
    (more : {tokens : List Token} → Parsed α tokens → Except ParseError (Parsed α tokens))
    (tokens : List Token) (a : α) (rest : List Token) : Prop :=
  ∃ h, r tokens = more ⟨a, rest, h⟩

/-- Neither an operator nor the arguments of a call follow. -/
def Ends (rest : List Token) : Prop :=
  rest.head? ≠ some .openParen ∧ ∀ op, rest.head? ≠ some (.operator op)

/-- The end of an argument follows. -/
def Delimits (rest : List Token) : Prop :=
  rest.head? = some .separator ∨ rest.head? = some .closeParen

theorem Delimits.ends {rest : List Token} (h : Delimits rest) : Ends rest := by
  rcases h with h | h <;> simp [Ends, h]

theorem extend_stop {operand : Reader Expr} {accepts : Operator → Bool} {tokens : List Token}
    (p : Parsed Expr tokens) (h : ∀ op, accepts op → p.rest.head? ≠ some (.operator op)) :
    extend operand accepts p = .ok p := by
  fun_cases extend operand accepts p with
  | case1 e op rest hlt hacc => exact absurd rfl (h op hacc)
  | case2 e op rest hlt hacc => exact absurd rfl (h op hacc)
  | case3 => rfl
  | case4 => rfl

theorem extend_step (operand : Reader Expr) (accepts : Operator → Bool)
    {tokens mid rest : List Token} (e : Expr) {f : Expr} {op : Operator}
    (hlt : (Token.operator op :: mid).length < tokens.length) (hacc : accepts op) (hf : Takes operand mid f rest) :
    ∃ h, extend operand accepts (⟨e, .operator op :: mid, hlt⟩ : Parsed Expr tokens) =
      extend operand accepts ⟨.binary op e f, rest, h⟩ := by
  obtain ⟨hrest, hf⟩ := hf
  refine ⟨by simp only [List.length_cons] at hlt; omega, ?_⟩
  rw [extend, if_pos hacc]
  simp only [hf]

theorem moreArguments_step {r : Reader Expr} {tokens mid rest : List Token}
    (as : List (Argument Expr)) {a : Argument Expr}
    (hlt : (Token.separator :: mid).length < tokens.length) (ha : Takes (argument r) mid a rest) :
    ∃ h, moreArguments r (⟨as, .separator :: mid, hlt⟩ : Parsed _ tokens) =
      moreArguments r ⟨as ++ [a], rest, h⟩ := by
  obtain ⟨hrest, ha⟩ := ha
  refine ⟨by simp only [List.length_cons] at hlt; omega, ?_⟩
  rw [moreArguments]
  simp only [ha]

/-- Going on ends where no operator follows that is accepted. -/
theorem ReadsOn.takes {r operand : Reader Expr} {accepts : Operator → Bool}
    {tokens rest : List Token} {e : Expr} (h : ReadsOn r (extend operand accepts) tokens e rest)
    (hrest : ∀ op, accepts op → rest.head? ≠ some (.operator op)) : Takes r tokens e rest := by
  obtain ⟨hlt, h⟩ := h
  exact ⟨hlt, h.trans (extend_stop _ hrest)⟩

/-- Reads a first argument and those after it. -/
def argumentList (r : Reader Expr) : Reader (List (Argument Expr)) := fun tokens => do
  let first ← argument r tokens
  moreArguments r ⟨[first.value], first.rest, first.shorter⟩

/-- The token may stand at the front of the part. -/
def begins : Token → Part → Bool
  | .closeParen, _ | .separator, _ => false
  | .comparison _, p => p = .argument || p = .arguments
  | .operator _, p => p ≠ .primary
  | _, _ => true

theorem begins_of_callee {t : Token} {name : String} (h : t.callee? = some name) (p : Part) :
    begins t p := by
  cases t <;> first | rfl | cases h

/-- A part has tokens, and the first of them tells it from the end of an argument, from a
comparison in front of its operand and from a sign. -/
theorem exists_head {n : Nat} {p : Part} {ts : List Token} {a : p.Tree} (h : Derives n p ts a) :
    ∃ t us, ts = t :: us ∧ begins t p := by
  induction h with
  | product _ ih | signed _ ih | value _ ih | one _ ih | primary _ ih =>
    obtain ⟨t, us, rfl, ht⟩ := ih
    exact ⟨t, us, rfl, by cases t <;> simp_all [begins]⟩
  | loose _ _ _ ih | tight _ _ _ ih | condition _ _ _ ih | more _ _ ih =>
    obtain ⟨t, us, rfl, ht⟩ := ih
    exact ⟨t, us ++ _, rfl, by cases t <;> simp_all [begins]⟩
  | negate | plus | number | text | link | cell | word | group | criterion => exact ⟨_, _, rfl, rfl⟩
  | emptyCall h | call h => exact ⟨_, _, rfl, begins_of_callee h _⟩

/-- The part is read from in front of whatever may follow it. Sums and products may go on
behind what is derived so far, and so may arguments. -/
def Completes (n : Nat) : (p : Part) → List Token → p.Tree → Prop
  | .sum, ts, e => ∀ rest, rest.head? ≠ some .openParen →
    (∀ op, isTight op → rest.head? ≠ some (.operator op)) →
    ReadsOn (sum (signed n)) (extend (product (signed n)) (!isTight ·)) (ts ++ rest) e rest
  | .product, ts, e => ∀ rest, rest.head? ≠ some .openParen →
    ReadsOn (product (signed n)) (extend (signed n) isTight) (ts ++ rest) e rest
  | .signed, ts, e => ∀ rest, rest.head? ≠ some .openParen → Takes (signed n) (ts ++ rest) e rest
  | .primary, ts, e => ∀ rest, rest.head? ≠ some .openParen →
    Takes (primary (signed n)) (ts ++ rest) e rest
  | .argument, ts, a => ∀ rest, Delimits rest → Takes (argument (signed n)) (ts ++ rest) a rest
  | .arguments, ts, as => ∀ rest, Delimits rest →
    ReadsOn (argumentList (signed n)) (moreArguments (signed n)) (ts ++ rest) as rest

section
variable {n : Nat} {ts us rest : List Token} {e f : Expr}

theorem Completes.takes_sum (h : Completes n .sum ts e) (hrest : Ends rest) :
    Takes (sum (signed n)) (ts ++ rest) e rest :=
  (h rest hrest.1 fun op _ => hrest.2 op).takes fun op _ => hrest.2 op

theorem completes_sum (h : Completes n .product ts e) : Completes n .sum ts e := by
  intro rest hopen htight
  obtain ⟨hlt, h⟩ := (h rest hopen).takes htight
  exact ⟨hlt, by simp only [sum, h]; rfl⟩

theorem completes_loose {op : Operator} (hop : op = .add ∨ op = .subtract)
    (he : Completes n .sum ts e) (hf : Completes n .product us f) :
    Completes n .sum (ts ++ .operator op :: us) (.binary op e f) := by
  intro rest hopen htight
  obtain ⟨hlt, he⟩ := he (.operator op :: (us ++ rest)) (by simp) (by
    rcases hop with rfl | rfl <;> simp [isTight_iff])
  obtain ⟨hlt', hstep⟩ := extend_step (product (signed n)) (!isTight ·) e hlt
    ((not_isTight_iff op).2 hop) ((hf rest hopen).takes htight)
  simp only [List.append_assoc, List.cons_append]
  exact ⟨hlt', he.trans hstep⟩

theorem completes_product (h : Completes n .signed ts e) : Completes n .product ts e := by
  intro rest hopen
  obtain ⟨hlt, h⟩ := h rest hopen
  exact ⟨hlt, by simp only [product, h]; rfl⟩

theorem completes_tight {op : Operator} (hop : op = .multiply ∨ op = .divide)
    (he : Completes n .product ts e) (hf : Completes n .signed us f) :
    Completes n .product (ts ++ .operator op :: us) (.binary op e f) := by
  intro rest hopen
  obtain ⟨hlt, he⟩ := he (.operator op :: (us ++ rest)) (by simp)
  obtain ⟨hlt', hstep⟩ := extend_step (signed n) isTight e hlt ((isTight_iff op).2 hop)
    (hf rest hopen)
  simp only [List.append_assoc, List.cons_append]
  exact ⟨hlt', he.trans hstep⟩

theorem completes_signed (hd : Derives n .primary ts e) (h : Completes n .primary ts e) :
    Completes (n + 1) .signed ts e := by
  intro rest hopen
  obtain ⟨t, us, rfl, ht⟩ := exists_head hd
  obtain ⟨hlt, h⟩ := h rest hopen
  refine ⟨hlt, ?_⟩
  rw [← h]
  cases t <;> first | rfl | cases ht

theorem completes_negate (h : Completes n .signed ts e) :
    Completes (n + 1) .signed (.operator .subtract :: ts) (.negate e) := by
  intro rest hopen
  obtain ⟨hlt, h⟩ := h rest hopen
  refine ⟨Nat.lt_succ_of_lt hlt, ?_⟩
  simp only [signed, List.cons_append, signedOperand, h]
  rfl

theorem completes_plus (h : Completes n .signed ts e) :
    Completes (n + 1) .signed (.operator .add :: ts) e := by
  intro rest hopen
  obtain ⟨hlt, h⟩ := h rest hopen
  refine ⟨Nat.lt_succ_of_lt hlt, ?_⟩
  simp only [signed, List.cons_append, signedOperand, h]
  rfl

theorem completes_group (h : Completes n .sum ts e) :
    Completes n .primary (.openParen :: ts ++ [.closeParen]) e := by
  intro rest hopen
  have hrest : Ends (.closeParen :: rest) := by simp [Ends]
  obtain ⟨hlt, h⟩ := h.takes_sum hrest
  simp only [List.cons_append, List.append_assoc, List.nil_append]
  refine ⟨by simp only [List.length_cons] at hlt ⊢; omega, ?_⟩
  simp only [primary, h]
  rfl

theorem completes_call {t : Token} {name : String} (ht : t.callee? = some name)
    {as : List (Argument Expr)}
    (h : Takes (arguments (signed n)) (ts ++ .closeParen :: rest) as rest) :
    Takes (primary (signed n)) (t :: .openParen :: ts ++ [.closeParen] ++ rest) (call name as)
      rest := by
  obtain ⟨hlt, h⟩ := h
  simp only [List.cons_append, List.append_assoc, List.nil_append]
  refine ⟨by simp only [List.length_cons]; omega, ?_⟩
  cases t <;> cases ht <;> simp only [primary, h] <;> rfl

/-- A closing parenthesis in front would mean that there are no arguments. -/
theorem arguments_eq {t : Token} (ht : begins t .arguments) (r : Reader Expr) :
    arguments r (t :: us ++ rest) = argumentList r (t :: us ++ rest) >>= close := by
  cases t <;> first | exact (bind_assoc _ _ _).symm | cases ht

/-- Arguments are read to their end, and the closing parenthesis after them. -/
theorem takes_arguments {as : List (Argument Expr)} (hd : Derives n .arguments ts as)
    (h : Completes n .arguments ts as) :
    Takes (arguments (signed n)) (ts ++ .closeParen :: rest) as rest := by
  obtain ⟨t, us, rfl, ht⟩ := exists_head hd
  obtain ⟨hlt, h⟩ := h (.closeParen :: rest) (.inr rfl)
  have hstop : moreArguments (signed n) ⟨as, .closeParen :: rest, hlt⟩ =
      .ok ⟨as, .closeParen :: rest, hlt⟩ := by
    rw [moreArguments]
    rintro _ _ _ ⟨⟩
  refine ⟨Nat.lt_of_succ_lt hlt, ?_⟩
  rw [arguments_eq ht, h.trans hstop]
  rfl

theorem argument_eq_condition {t : Token} (ht : begins t .sum) (r : Reader Expr) :
    argument r (t :: us) = condition r (t :: us) := by
  cases t <;> first | rfl | cases ht

theorem completes_value (hd : Derives n .sum ts e) (h : Completes n .sum ts e) :
    Completes n .argument ts (.value e) := by
  intro rest hrest
  obtain ⟨t, us, rfl, ht⟩ := exists_head hd
  obtain ⟨hlt, h⟩ := h.takes_sum hrest.ends
  refine ⟨hlt, ?_⟩
  have hargument : argument (signed n) (t :: us ++ rest) = condition (signed n) (t :: us ++ rest) :=
    argument_eq_condition ht _
  rw [hargument, condition, h]
  -- What ends an argument is no comparison.
  rcases rest with _ | ⟨t', rest⟩
  · rfl
  · rcases hrest with hrest | hrest <;> cases hrest <;> rfl

theorem comparison_eq {s : String} {op : Comparison} (h : Comparison.ofSymbol? s = some op) :
    comparison s = .ok op := by
  rw [comparison, h]

theorem completes_condition {s : String} {op : Comparison} (hop : Comparison.ofSymbol? s = some op)
    (hd : Derives n .sum ts e) (he : Completes n .sum ts e) (hf : Completes n .sum us f) :
    Completes n .argument (ts ++ .comparison s :: us) (.condition op e f) := by
  intro rest hrest
  obtain ⟨t, ts, rfl, ht⟩ := exists_head hd
  have hends : Ends (.comparison s :: (us ++ rest)) := by simp [Ends]
  obtain ⟨hlt, he⟩ := he.takes_sum hends
  obtain ⟨hlt', hf⟩ := hf.takes_sum hrest.ends
  simp only [List.append_assoc, List.cons_append] at he hlt ⊢
  refine ⟨by simp only [List.length_cons] at hlt ⊢; omega, ?_⟩
  rw [argument_eq_condition ht, condition, he]
  simp only [comparison_eq hop, hf, bind, Except.bind]
  rfl

theorem completes_criterion {s : String} {op : Comparison} (hop : Comparison.ofSymbol? s = some op)
    (h : Completes n .sum ts e) : Completes n .argument (.comparison s :: ts) (.criterion op e) := by
  intro rest hrest
  obtain ⟨hlt, h⟩ := h.takes_sum hrest.ends
  refine ⟨Nat.lt_succ_of_lt hlt, ?_⟩
  simp only [List.cons_append, argument, comparison_eq hop, h]
  rfl

theorem completes_one {a : Argument Expr} (h : Completes n .argument ts a) :
    Completes n .arguments ts [a] := by
  intro rest hrest
  obtain ⟨hlt, h⟩ := h rest hrest
  exact ⟨hlt, by simp only [argumentList, h]; rfl⟩

theorem completes_more {as : List (Argument Expr)} {a : Argument Expr}
    (has : Completes n .arguments ts as) (ha : Completes n .argument us a) :
    Completes n .arguments (ts ++ .separator :: us) (as ++ [a]) := by
  intro rest hrest
  obtain ⟨hlt, has⟩ := has (.separator :: (us ++ rest)) (.inl rfl)
  obtain ⟨hlt', hstep⟩ := moreArguments_step as hlt (ha rest hrest)
  simp only [List.append_assoc, List.cons_append]
  exact ⟨hlt', has.trans hstep⟩

end

theorem completes_cell (c : Cell) : Completes n .primary [.cell c] (.cell c) := by
  rintro (_ | ⟨t, rest⟩) hopen
  · exact ⟨by simp, rfl⟩
  · refine ⟨by simp, ?_⟩
    -- Only in front of a parenthesis would the cell be read as a call.
    cases t <;> first | rfl | exact absurd rfl hopen

theorem completes_word (w : String) : Completes n .primary [.word w] (.text w) := by
  rintro (_ | ⟨t, rest⟩) hopen
  · exact ⟨by simp, rfl⟩
  · refine ⟨by simp, ?_⟩
    cases t <;> first | rfl | exact absurd rfl hopen

theorem completes {n : Nat} {p : Part} {ts : List Token} {a : p.Tree} (h : Derives n p ts a) :
    Completes n p ts a := by
  induction h with
  | product _ ih => exact completes_sum ih
  | loose hop _ _ ihe ihf => exact completes_loose hop ihe ihf
  | signed _ ih => exact completes_product ih
  | tight hop _ _ ihe ihf => exact completes_tight hop ihe ihf
  | negate _ ih => exact completes_negate ih
  | plus _ ih => exact completes_plus ih
  | primary hd ih => exact completes_signed hd ih
  | number | text | link => exact fun rest _ => ⟨by simp, rfl⟩
  | cell c => exact completes_cell c
  | word w => exact completes_word w
  | group _ ih => exact completes_group ih
  | @emptyCall n _ _ ht =>
    intro rest _
    have hnone : Takes (arguments (signed n)) ([] ++ .closeParen :: rest) [] rest := ⟨by simp, rfl⟩
    exact completes_call ht hnone
  | call ht hd ih => exact fun rest _ => completes_call ht (takes_arguments hd ih)
  | value hd ih => exact completes_value hd ih
  | condition hop hd _ ihe ihf => exact completes_condition hop hd ihe ihf
  | criterion hop _ ih => exact completes_criterion hop ih
  | one _ ih => exact completes_one ih
  | more _ _ ihas iha => exact completes_more ihas iha

end Reader

/-! ## Formulas -/

namespace Expr

theorem derives_of_ofTokens {tokens : List Token} {e : Expr} (h : ofTokens tokens = .ok e) :
    Derives nestingLimit .sum tokens e := by
  unfold ofTokens at h
  split at h
  · cases h
  · obtain ⟨⟨e', rest, hlt⟩, hsum, h⟩ := Reader.bind_eq_ok h
    obtain ⟨ts, hts, hd⟩ := Reader.sound_sum (Reader.sound_signed nestingLimit) _ _ hsum
    dsimp only at h hts hd
    split at h
    · cases h
      rw [hts, List.append_nil]
      exact hd
    · cases h
    · cases h

theorem ofTokens_of_derives {tokens : List Token} {e : Expr}
    (h : Derives nestingLimit .sum tokens e) : ofTokens tokens = .ok e := by
  obtain ⟨t, us, rfl, -⟩ := Reader.exists_head h
  have hends : Reader.Ends [] := by simp [Reader.Ends]
  have hsum := (Reader.completes h).takes_sum hends
  rw [List.append_nil] at hsum
  obtain ⟨hlt, hsum⟩ := hsum
  simp only [ofTokens, hsum]
  rfl

theorem ofText_of_derives {text : List Char} {tokens : List Token} {e : Expr}
    (htokens : Token.tokenize text = .ok tokens) (h : Derives nestingLimit .sum tokens e) :
    ofText text = .ok e := by
  unfold ofText
  rw [htokens]
  exact ofTokens_of_derives h

/-- Tokens are read as an expression exactly if the grammar derives them from it as a sum,
within the limit on nesting. -/
theorem ofTokens_eq_ok_iff (tokens : List Token) (e : Expr) :
    ofTokens tokens = .ok e ↔ Derives nestingLimit .sum tokens e :=
  ⟨derives_of_ofTokens, ofTokens_of_derives⟩

/-- The derivation of `IF(A1>=2;"big")`. -/
example :
    let a1 : Cell := ⟨⟨0, by decide⟩, ⟨0, by decide⟩⟩
    Derives nestingLimit .sum
      [.word "IF", .openParen, .cell a1, .comparison ">=", .number 2.0, .separator, .text "big",
        .closeParen]
      (.call "if" [.condition .greaterEqual (.cell a1) (.number 2.0), .value (.text "big")]) := by
  intro a1
  have hoperand : ∀ {n ts e}, Derives n .primary ts e → Derives (n + 1) .sum ts e :=
    fun h => .product (.signed (.primary h))
  have hspelling : Comparison.ofSymbol? ">=" = some .greaterEqual :=
    (Comparison.ofSymbol?_eq_some_iff _ _).2 (by decide)
  have hcondition : Derives 127 .argument ([.cell a1] ++ .comparison ">=" :: [.number 2.0])
      (.condition .greaterEqual (.cell a1) (.number 2.0)) :=
    .condition hspelling (hoperand (.cell a1)) (hoperand (.number 2.0))
  have hvalue : Derives 127 .argument [.text "big"] (.value (.text "big")) :=
    .value (hoperand (.text "big"))
  have hname : String.ofList (Unicode.lowercase "IF".toList) = "if" := by decide +kernel
  rw [← hname]
  exact hoperand (.call rfl (.more (.one hcondition) hvalue))

end Expr

end Spreadsheet
