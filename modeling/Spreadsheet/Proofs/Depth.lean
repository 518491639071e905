import Spreadsheet.Proofs.Grammar
/-!
# How deeply formulas are nested

`Nests` derives formulas by the grammar without a limit and measures how deeply
groups, calls and signs are nested around an operand in them. A reader for fewer
levels than that stops because the formula is nested too deeply, and for no other
reason: `Reader.overflows`. It reads a formula to the end only if it allows for
one level more than there are, as the operand itself takes up a level:
`Expr.ofTokens_of_nests`.
-/

namespace Spreadsheet

/-- The tokens make up the part and denote the tree, and groups, calls and signs are nested `n`
deep around some operand in them, and nowhere deeper. There are signs only where `signs` has it. -/
inductive Nests (signs : Bool) : (n : Nat) → (p : Part) → List Token → p.Tree → Prop where
  | product {n ts e} : Nests signs n .product ts e → Nests signs n .sum ts e
  | loose {n m ts us op e f} (h : op = .add ∨ op = .subtract) :
    Nests signs n .sum ts e → Nests signs m .product us f →
    Nests signs (max n m) .sum (ts ++ .operator op :: us) (.binary op e f)
  | signed {n ts e} : Nests signs n .signed ts e → Nests signs n .product ts e
  | tight {n m ts us op e f} (h : op = .multiply ∨ op = .divide) :
    Nests signs n .product ts e → Nests signs m .signed us f →
    Nests signs (max n m) .product (ts ++ .operator op :: us) (.binary op e f)
  | negate {n ts e} (h : signs) : Nests signs n .signed ts e →
    Nests signs (n + 1) .signed (.operator .subtract :: ts) (.negate e)
  | plus {n ts e} (h : signs) : Nests signs n .signed ts e →
    Nests signs (n + 1) .signed (.operator .add :: ts) e
  | primary {n ts e} : Nests signs n .primary ts e → Nests signs n .signed ts e
  | number (x : Float) : Nests signs 0 .primary [.number x] (.number x)
  | text (s : String) : Nests signs 0 .primary [.text s] (.text s)
  | link (l : Link) : Nests signs 0 .primary [.link l] (.link l)
  | cell (c : Cell) : Nests signs 0 .primary [.cell c] (.cell c)
  | word (w : String) : Nests signs 0 .primary [.word w] (.text w)
  | group {n ts e} : Nests signs n .sum ts e →
    Nests signs (n + 1) .primary (.openParen :: ts ++ [.closeParen]) e
  | emptyCall {t name} (h : t.callee? = some name) :
    Nests signs 0 .primary [t, .openParen, .closeParen]
      (.call (String.ofList (Unicode.lowercase name.toList)) [])
  | call {n t name ts as} (h : t.callee? = some name) : Nests signs n .arguments ts as →
    Nests signs (n + 1) .primary (t :: .openParen :: ts ++ [.closeParen])
      (.call (String.ofList (Unicode.lowercase name.toList)) as)
  | value {n ts e} : Nests signs n .sum ts e → Nests signs n .argument ts (.value e)
  | condition {n m ts us s op e f} (h : Comparison.ofSymbol? s = some op) :
    Nests signs n .sum ts e → Nests signs m .sum us f →
    Nests signs (max n m) .argument (ts ++ .comparison s :: us) (.condition op e f)
  | criterion {n ts s op e} (h : Comparison.ofSymbol? s = some op) : Nests signs n .sum ts e →
    Nests signs n .argument (.comparison s :: ts) (.criterion op e)
  | one {n ts a} : Nests signs n .argument ts a → Nests signs n .arguments ts [a]
  | more {n m ts us as a} : Nests signs n .arguments ts as → Nests signs m .argument us a →
    Nests signs (max n m) .arguments (ts ++ .separator :: us) (as ++ [a])

/-- How many levels a part takes up with no nesting in it. An operand that may have a sign takes up
one. -/
def Part.base : Part → Nat
  | .primary => 0
  | _ => 1

section
variable {n k m : Nat}

theorem levels_left (h : max n k + 1 ≤ m) : n + 1 ≤ m :=
  Nat.le_trans (Nat.add_le_add_right (Nat.le_max_left n k) 1) h

theorem levels_right (h : max n k + 1 ≤ m) : k + 1 ≤ m :=
  Nat.le_trans (Nat.add_le_add_right (Nat.le_max_right n k) 1) h

/-- Where there are levels enough for the left side but not for both, there are too few for the
right side. -/
theorem lacks_right (h : m < max n k + 1) (hn : ¬ m < n + 1) : m < k + 1 := by
  omega

end

section
variable {signs : Bool} {n m : Nat} {p : Part} {ts : List Token} {a : p.Tree}

/-- The grammar derives what is nested so deeply if it allows for one level more. -/
theorem Nests.derives (h : Nests signs n p ts a) (hm : n + p.base ≤ m) : Derives m p ts a := by
  induction h generalizing m with
  | product _ ih => exact .product (ih hm)
  | loose hop _ _ ihe ihf => exact .loose hop (ihe (levels_left hm)) (ihf (levels_right hm))
  | signed _ ih => exact .signed (ih hm)
  | tight hop _ _ ihe ihf => exact .tight hop (ihe (levels_left hm)) (ihf (levels_right hm))
  | negate _ _ ih =>
    obtain ⟨k, rfl⟩ := Nat.exists_eq_add_of_le' hm
    exact .negate (ih (Nat.le_add_left _ k))
  | plus _ _ ih =>
    obtain ⟨k, rfl⟩ := Nat.exists_eq_add_of_le' hm
    exact .plus (ih (Nat.le_add_left _ k))
  | primary _ ih =>
    obtain ⟨k, rfl⟩ := Nat.exists_eq_add_of_le' hm
    exact .primary (ih (Nat.le_add_left _ k))
  | number x => exact .number x
  | text s => exact .text s
  | link l => exact .link l
  | cell c => exact .cell c
  | word w => exact .word w
  | group _ ih => exact .group (ih hm)
  | emptyCall ht => exact .emptyCall ht
  | call ht _ ih => exact .call ht (ih hm)
  | value _ ih => exact .value (ih hm)
  | condition hop _ _ ihe ihf => exact .condition hop (ihe (levels_left hm)) (ihf (levels_right hm))
  | criterion hop _ ih => exact .criterion hop (ih hm)
  | one _ ih => exact .one (ih hm)
  | more _ _ ihas iha => exact .more (ihas (levels_left hm)) (iha (levels_right hm))

/-- All that the grammar derives at some level is nested to some depth. -/
theorem exists_nests (h : Derives m p ts a) : ∃ n, Nests true n p ts a := by
  induction h with
  | product _ ih => exact ih.imp fun _ => .product
  | loose hop _ _ ihe ihf =>
    obtain ⟨n, he⟩ := ihe
    obtain ⟨k, hf⟩ := ihf
    exact ⟨_, .loose hop he hf⟩
  | signed _ ih => exact ih.imp fun _ => .signed
  | tight hop _ _ ihe ihf =>
    obtain ⟨n, he⟩ := ihe
    obtain ⟨k, hf⟩ := ihf
    exact ⟨_, .tight hop he hf⟩
  | negate _ ih =>
    obtain ⟨n, ih⟩ := ih
    exact ⟨_, .negate rfl ih⟩
  | plus _ ih =>
    obtain ⟨n, ih⟩ := ih
    exact ⟨_, .plus rfl ih⟩
  | primary _ ih => exact ih.imp fun _ => .primary
  | number x => exact ⟨0, .number x⟩
  | text s => exact ⟨0, .text s⟩
  | link l => exact ⟨0, .link l⟩
  | cell c => exact ⟨0, .cell c⟩
  | word w => exact ⟨0, .word w⟩
  | group _ ih =>
    obtain ⟨n, ih⟩ := ih
    exact ⟨_, .group ih⟩
  | emptyCall ht => exact ⟨0, .emptyCall ht⟩
  | call ht _ ih =>
    obtain ⟨n, ih⟩ := ih
    exact ⟨_, .call ht ih⟩
  | value _ ih => exact ih.imp fun _ => .value
  | condition hop _ _ ihe ihf =>
    obtain ⟨n, he⟩ := ihe
    obtain ⟨k, hf⟩ := ihf
    exact ⟨_, .condition hop he hf⟩
  | criterion hop _ ih => exact ih.imp fun _ => .criterion hop
  | one _ ih => exact ih.imp fun _ => .one
  | more _ _ ihas iha =>
    obtain ⟨n, has⟩ := ihas
    obtain ⟨k, ha⟩ := iha
    exact ⟨_, .more has ha⟩

end

namespace Reader

/-! ## Too few levels -/

/-- The part is nested too deeply for its reader, whatever follows it. -/
def Overflows (m : Nat) : Part → List Token → Prop
  | .sum, ts => ∀ rest, sum (signed m) (ts ++ rest) = .error .nestedTooDeeply
  | .product, ts => ∀ rest, product (signed m) (ts ++ rest) = .error .nestedTooDeeply
  | .signed, ts => ∀ rest, signed m (ts ++ rest) = .error .nestedTooDeeply
  | .primary, ts => ∀ rest, primary (signed m) (ts ++ rest) = .error .nestedTooDeeply
  | .argument, ts => ∀ rest, argument (signed m) (ts ++ rest) = .error .nestedTooDeeply
  | .arguments, ts => ∀ rest, argumentList (signed m) (ts ++ rest) = .error .nestedTooDeeply

section
variable {m : Nat} {ts us : List Token} {e : Expr} {op : Operator}

theorem overflows_sum (h : Overflows m .product ts) : Overflows m .sum ts := by
  intro rest
  simp only [sum, h rest]
  rfl

theorem overflows_loose_left (h : Overflows m .sum ts) :
    Overflows m .sum (ts ++ .operator op :: us) := by
  intro rest
  rw [List.append_assoc]
  exact h _

theorem extend_overflow {operand : Reader Expr} {accepts : Operator → Bool}
    {tokens rest : List Token} (hlt : (Token.operator op :: rest).length < tokens.length)
    (hop : accepts op) (h : operand rest = .error .nestedTooDeeply) :
    extend operand accepts (⟨e, .operator op :: rest, hlt⟩ : Parsed Expr tokens) =
      .error .nestedTooDeeply := by
  rw [extend, if_pos hop]
  simp only [h]

theorem overflows_loose_right (hop : op = .add ∨ op = .subtract) (he : Completes m .sum ts e)
    (h : Overflows m .product us) : Overflows m .sum (ts ++ .operator op :: us) := by
  intro rest
  obtain ⟨hlt, he⟩ := he (.operator op :: (us ++ rest)) (by simp) (by
    rcases hop with rfl | rfl <;> simp [isTight_iff])
  rw [List.append_assoc, List.cons_append, he]
  exact extend_overflow hlt ((not_isTight_iff op).2 hop) (h rest)

theorem overflows_product (h : Overflows m .signed ts) : Overflows m .product ts := by
  intro rest
  simp only [product, h rest]
  rfl

theorem overflows_tight_left (h : Overflows m .product ts) :
    Overflows m .product (ts ++ .operator op :: us) := by
  intro rest
  rw [List.append_assoc]
  exact h _

theorem overflows_tight_right (hop : op = .multiply ∨ op = .divide)
    (he : Completes m .product ts e) (h : Overflows m .signed us) :
    Overflows m .product (ts ++ .operator op :: us) := by
  intro rest
  obtain ⟨hlt, he⟩ := he (.operator op :: (us ++ rest)) (by simp)
  rw [List.append_assoc, List.cons_append, he]
  exact extend_overflow hlt ((isTight_iff op).2 hop) (h rest)

theorem overflows_negate (h : Overflows m .signed ts) :
    Overflows (m + 1) .signed (.operator .subtract :: ts) := by
  intro rest
  simp only [signed, List.cons_append, signedOperand, h rest]
  rfl

theorem overflows_plus (h : Overflows m .signed ts) :
    Overflows (m + 1) .signed (.operator .add :: ts) := by
  intro rest
  simp only [signed, List.cons_append, signedOperand, h rest]
  rfl

theorem overflows_signed {n : Nat} (hd : Derives n .primary ts e) (h : Overflows m .primary ts) :
    Overflows (m + 1) .signed ts := by
  intro rest
  obtain ⟨t, us, rfl, ht⟩ := exists_head hd
  rw [← h rest]
  cases t <;> first | rfl | cases ht

theorem overflows_group (h : Overflows m .sum ts) :
    Overflows m .primary (.openParen :: ts ++ [.closeParen]) := by
  intro rest
  have hinner : sum (signed m) (ts ++ .closeParen :: rest) = .error .nestedTooDeeply := h _
  rw [List.append_assoc]
  simp only [List.cons_append, List.nil_append, primary, hinner]
  rfl

theorem overflows_call {n : Nat} {t : Token} {name : String} {as : List (Argument Expr)}
    (ht : t.callee? = some name) (hd : Derives n .arguments ts as)
    (h : Overflows m .arguments ts) :
    Overflows m .primary (t :: .openParen :: ts ++ [.closeParen]) := by
  intro rest
  obtain ⟨t', us, rfl, ht'⟩ := exists_head hd
  have harguments : arguments (signed m) (t' :: us ++ .closeParen :: rest) =
      .error .nestedTooDeeply := by
    rw [arguments_eq ht', h]
    rfl
  rw [List.append_assoc]
  simp only [List.cons_append, List.nil_append] at harguments ⊢
  cases t <;> cases ht <;> simp only [primary, harguments] <;> rfl

theorem overflows_value {n : Nat} (hd : Derives n .sum ts e) (h : Overflows m .sum ts) :
    Overflows m .argument ts := by
  intro rest
  obtain ⟨t, us, rfl, ht⟩ := exists_head hd
  rw [List.cons_append, argument_eq_condition ht, condition, ← List.cons_append, h]
  rfl

theorem overflows_condition_left {s : String} {n : Nat} (hd : Derives n .sum ts e)
    (h : Overflows m .sum ts) : Overflows m .argument (ts ++ .comparison s :: us) := by
  intro rest
  rw [List.append_assoc]
  exact overflows_value hd h _

theorem overflows_condition_right {s : String} {op : Comparison}
    (hop : Comparison.ofSymbol? s = some op) {n : Nat} (hd : Derives n .sum ts e)
    (he : Completes m .sum ts e) (h : Overflows m .sum us) :
    Overflows m .argument (ts ++ .comparison s :: us) := by
  intro rest
  obtain ⟨t, ts, rfl, ht⟩ := exists_head hd
  have hends : Ends (.comparison s :: (us ++ rest)) := by simp [Ends]
  obtain ⟨hlt, he⟩ := he.takes_sum hends
  rw [List.append_assoc]
  simp only [List.cons_append] at he hlt ⊢
  rw [argument_eq_condition ht, condition, he]
  simp only [comparison_eq hop, h rest, bind, Except.bind]

theorem overflows_criterion {s : String} {op : Comparison}
    (hop : Comparison.ofSymbol? s = some op) (h : Overflows m .sum ts) :
    Overflows m .argument (.comparison s :: ts) := by
  intro rest
  simp only [List.cons_append, argument, comparison_eq hop, h rest]
  rfl

theorem overflows_one (h : Overflows m .argument ts) : Overflows m .arguments ts := by
  intro rest
  simp only [argumentList, h rest]
  rfl

theorem overflows_more_left (h : Overflows m .arguments ts) :
    Overflows m .arguments (ts ++ .separator :: us) := by
  intro rest
  rw [List.append_assoc]
  exact h _

theorem overflows_more_right {as : List (Argument Expr)} (has : Completes m .arguments ts as)
    (h : Overflows m .argument us) : Overflows m .arguments (ts ++ .separator :: us) := by
  intro rest
  obtain ⟨hlt, has⟩ := has (.separator :: (us ++ rest)) (.inl rfl)
  have hmore : moreArguments (signed m)
      ⟨as, .separator :: (us ++ rest), hlt⟩ = .error .nestedTooDeeply := by
    rw [moreArguments]
    simp only [h rest]
  rw [List.append_assoc]
  exact has.trans hmore

end

/-- The reader of a part stops at what is nested as deeply as it allows for, or deeper. -/
theorem overflows {signs : Bool} {n m : Nat} {p : Part} {ts : List Token} {a : p.Tree}
    (h : Nests signs n p ts a) (hm : m < n + p.base) : Overflows m p ts := by
  induction h generalizing m with
  | product _ ih => exact overflows_sum (ih hm)
  | @loose n k ts us op e f hop he hf ihe ihf =>
    -- Either the left side stops the reader, or it is read and the right side does.
    by_cases hn : m < n + 1
    · exact overflows_loose_left (ihe hn)
    · have hk : m < k + 1 := lacks_right hm hn
      exact overflows_loose_right hop (completes (he.derives (Nat.not_lt.1 hn))) (ihf hk)
  | signed _ ih => exact overflows_product (ih hm)
  | @tight n k ts us op e f hop he hf ihe ihf =>
    by_cases hn : m < n + 1
    · exact overflows_tight_left (ihe hn)
    · have hk : m < k + 1 := lacks_right hm hn
      exact overflows_tight_right hop (completes (he.derives (Nat.not_lt.1 hn))) (ihf hk)
  | negate _ _ ih =>
    cases m with
    | zero => exact fun _ => rfl
    | succ m => exact overflows_negate (ih (Nat.lt_of_succ_lt_succ hm))
  | plus _ _ ih =>
    cases m with
    | zero => exact fun _ => rfl
    | succ m => exact overflows_plus (ih (Nat.lt_of_succ_lt_succ hm))
  | primary h ih =>
    cases m with
    | zero => exact fun _ => rfl
    | succ m => exact overflows_signed (h.derives (Nat.le_refl _)) (ih (Nat.lt_of_succ_lt_succ hm))
  | number | text | link | cell | word | emptyCall => exact absurd hm (Nat.not_lt_zero m)
  | group _ ih => exact overflows_group (ih hm)
  | call ht h ih => exact overflows_call ht (h.derives (Nat.le_refl _)) (ih hm)
  | value h ih => exact overflows_value (h.derives (Nat.le_refl _)) (ih hm)
  | @condition n k ts us s op e f hop he hf ihe ihf =>
    by_cases hn : m < n + 1
    · exact overflows_condition_left (he.derives (Nat.le_refl _)) (ihe hn)
    · have hk : m < k + 1 := lacks_right hm hn
      exact overflows_condition_right hop (he.derives (Nat.le_refl _))
        (completes (he.derives (Nat.not_lt.1 hn))) (ihf hk)
  | criterion hop _ ih => exact overflows_criterion hop (ih hm)
  | one _ ih => exact overflows_one (ih hm)
  | @more n k ts us as a has ha ihas iha =>
    by_cases hn : m < n + 1
    · exact overflows_more_left (ihas hn)
    · have hk : m < k + 1 := lacks_right hm hn
      exact overflows_more_right (completes (has.derives (Nat.not_lt.1 hn))) (iha hk)

end Reader

theorem Nests.depth_le {signs signs' : Bool} {n k : Nat} {ts : List Token} {e f : Expr}
    (h : Nests signs n .sum ts e) (h' : Nests signs' k .sum ts f) : k ≤ n := by
  apply Nat.not_lt.1
  intro hlt
  have hends : Reader.Ends [] := by simp [Reader.Ends]
  obtain ⟨hshorter, hok⟩ := (Reader.completes (h.derives (Nat.le_refl _))).takes_sum hends
  have herror := Reader.overflows h' (Nat.succ_lt_succ hlt) []
  cases hok.symm.trans herror

/-- What the grammar derives at some level is nested to exactly one depth. -/
theorem exists_depth {m : Nat} {ts : List Token} {e : Expr} (h : Derives m .sum ts e) :
    ∃ n, ∀ k, Nests true k .sum ts e ↔ k = n := by
  obtain ⟨n, hn⟩ := exists_nests h
  refine ⟨n, fun k => ⟨fun hk => Nat.le_antisymm (hn.depth_le hk) (hk.depth_le hn), ?_⟩⟩
  rintro rfl
  exact hn

/-- Whether tokens are read as an expression is a matter of how deeply it is nested. As the operand
takes up a level itself, the limit is out of reach. -/
theorem Expr.ofTokens_of_nests {signs : Bool} {n : Nat} {ts : List Token} {e : Expr}
    (h : Nests signs n .sum ts e) :
    ofTokens ts = if n < nestingLimit then .ok e else .error .nestedTooDeeply := by
  split
  · rename_i hn
    exact ofTokens_of_derives (h.derives hn)
  · rename_i hn
    obtain ⟨t, us, rfl, -⟩ := Reader.exists_head (h.derives (Nat.le_refl _))
    have hsum := Reader.overflows h (Nat.lt_succ_of_le (Nat.not_lt.1 hn)) []
    rw [List.append_nil] at hsum
    simp only [ofTokens, hsum]
    rfl

end Spreadsheet
