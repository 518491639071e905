import Mathlib.Data.List.TakeWhile
import Spreadsheet.Proofs.Signs
import Spreadsheet.Proofs.Written
/-!
# The layout of an expression

A text whose tokens denote an expression without signs is laid out as the
expression is, so that evaluating the layout from its leaves up evaluates the
expression in pieces, `laysOut_of_bare`. The pieces come to what the whole does:
`Host.Piecewise.eq_eval`.
-/

namespace Spreadsheet

namespace Token

theorem eq_of_ofChar? {o o' : Char} {t : Token} (h : ofChar? o = some t)
    (h' : ofChar? o' = some t) : o = o' := by
  have hmem := mem_of_ofChar? h
  have hmem' := mem_of_ofChar? h'
  simp only [List.mem_cons, List.not_mem_nil, or_false] at hmem hmem'
  rcases hmem with rfl | rfl | rfl | rfl | rfl | rfl | rfl <;> cases h <;>
    rcases hmem' with rfl | rfl | rfl | rfl | rfl | rfl | rfl <;> first | rfl | cases h'

theorem ofChar?_operator (op : Operator) : ofChar? op.symbol = some (.operator op) := by
  cases op <;> rfl

/-- A text of white space has no tokens. -/
theorem tokenize_of_trim {text : List Char} (h : (Unicode.trim text).isEmpty) :
    tokenize text = .ok [] := by
  unfold Unicode.trim at h
  rw [List.isEmpty_reverse, List.isEmpty_iff, List.dropWhile_eq_nil_iff] at h
  refine tokenize_of_nil ?_
  cases hdrop : text.dropWhile Unicode.isWhitespace with
  | nil => rfl
  | cons c rest =>
    have hhead := List.head?_dropWhile_not Unicode.isWhitespace text
    rw [hdrop] at h hhead
    simp [h c (by simp)] at hhead

end Token

namespace Textual

/-! ## Around a group -/

section
variable {text a x v : List Char} {ts : List Token}

/-- A text has neither parentheses nor operators if no mark is among its tokens. -/
theorem unmarked_of_tokens (hquote : '"' ∉ text) (h : Token.tokenize text = .ok ts)
    (hts : ∀ t ∈ ts, ∀ o, Token.ofChar? o ≠ some t) : Unmarked text := by
  intro c hc
  have hnone : ∀ t, Token.ofChar? c ≠ some t := fun t ht =>
    hts t (Token.mem_of_mark hquote h ht hc) c ht
  refine ⟨⟨?_, ?_⟩, ?_⟩
  · rintro rfl
    exact hnone _ rfl
  · rintro rfl
    exact hnone _ rfl
  · cases hop : Operator.ofChar? c with
    | none => rfl
    | some op =>
      rw [symbol_of_ofChar? hop] at hnone
      cases op <;> exact absurd rfl (hnone _)

theorem unmarked_of_nil (hquote : '"' ∉ text) (h : Token.tokenize text = .ok []) : Unmarked text :=
  unmarked_of_tokens hquote h (List.forall_mem_nil _)

/-- An operator among the tokens stands between what comes before and behind it. -/
theorem exists_operands {us : List Token} {op : Operator} (hquote : '"' ∉ text)
    (h : Token.tokenize text = .ok (ts ++ .operator op :: us)) :
    ∃ a b, text = a ++ op.symbol :: b ∧ Token.tokenize a = .ok ts ∧
      Token.tokenize b = .ok us := by
  have hop := Token.ofChar?_operator op
  obtain ⟨a, o, b, rfl, ho, ha, hb⟩ := Token.exists_cut hquote h ⟨op.symbol, hop⟩
  obtain rfl : o = op.symbol := Token.eq_of_ofChar? ho hop
  exact ⟨a, b, rfl, ha, hb⟩

/-- Where the tokens end in a group, so does the text, up to white space. -/
theorem exists_group (us : List Token) (hquote : '"' ∉ text)
    (h : Token.tokenize text = .ok (us ++ .openParen :: ts ++ [.closeParen])) :
    ∃ a x v, text = a ++ '(' :: (x ++ ')' :: v) ∧ Token.tokenize a = .ok us ∧
      Token.tokenize x = .ok ts ∧ Token.tokenize v = .ok [] := by
  rw [List.append_assoc, List.cons_append] at h
  obtain ⟨a, o, rest, rfl, ho, ha, hrest⟩ := Token.exists_cut hquote h ⟨'(', rfl⟩
  obtain rfl : o = '(' := Token.eq_of_ofChar? ho rfl
  have hquote' : '"' ∉ rest := fun hq => hquote (by simp [hq])
  obtain ⟨x, o, v, rfl, ho, hx, hv⟩ := Token.exists_cut hquote' hrest ⟨')', rfl⟩
  obtain rfl : o = ')' := Token.eq_of_ofChar? ho rfl
  exact ⟨a, x, v, rfl, ha, hx, hv⟩

theorem solid_around (ha : Unmarked a) (hx : Closed x) (hv : Unmarked v) :
    Solid (a ++ '(' :: (x ++ ')' :: v)) :=
  ha.solid.append (.group hx hv.solid)

/-- A group with something before or behind it is no single group. -/
theorem group?_around (ha : Unmarked a) (hx : Closed x) (h : a ≠ [] ∨ v ≠ []) :
    group? (a ++ '(' :: (x ++ ')' :: v)) = none := by
  cases a with
  | nil => exact group?_of_append hx (h.resolve_left (by simp))
  | cons c a =>
    apply group?_of_head
    intro hhead
    exact (ha c List.mem_cons_self).1.1 (Option.some.inj hhead)

end

end Textual

/-! ## Values -/

/-- The links of each batch have the values they have in the table. -/
def LinkSource.Answers (links : LinkSource) (table : Link → Option String) : Prop :=
  ∀ batch, ∀ l ∈ batch, links batch l = table l

theorem eval_binary (scope : Scope Id) (op : Operator) (e f : Expr) :
    (Expr.binary op e f).eval scope = Evaluation.arithmetic op (e.eval scope) (f.eval scope) := by
  show (if (e.eval scope).isError then e.eval scope else _) = _
  split
  · rename_i h
    cases hv : e.eval scope with
    | error => rfl
    | _ =>
      rw [hv] at h
      cases h
  · rfl

/-- Only what the links of the batch have matters. -/
theorem Expr.eval_link {m : Type → Type} [Monad m] [Reporter m] {reference : Cell → m Value}
    {link table : Link → Option String} {e : Expr} (h : ∀ l ∈ e.batch, link l = table l) :
    e.eval ⟨reference, link⟩ = e.eval ⟨reference, table⟩ :=
  eval_congr e (fun _ _ => rfl) fun l hl => h l (mem_batch.2 hl)

theorem Host.evaluateExpr_eq {host : Host Id} {table : Link → Option String}
    (htable : LinkSource.Answers host.resolve table) (e : Expr) :
    host.evaluateExpr e = e.eval ⟨host.reference, table⟩ := by
  show (if e.batch.isEmpty then e.eval ⟨host.reference, fun _ => none⟩
    else e.eval ⟨host.reference, host.resolve e.batch⟩) = _
  split
  · rename_i hempty
    apply Expr.eval_link
    rw [List.isEmpty_iff.1 hempty]
    exact List.forall_mem_nil _
  · exact Expr.eval_link (htable e.batch)

/-! ## Evaluation in pieces -/

section
variable {m : Type → Type} [Monad m] [Reporter m] {host : Host m} {n : Nat}
  {text a b : List Char} {ts : List Token} {op : Operator} {e f : Expr}

/-- The computation evaluates the expression in pieces: some of its operands each by itself, and
the operators between them from the values they have. -/
inductive Host.Piecewise (host : Host m) : Expr → m Value → Prop
  | whole (e : Expr) : Piecewise host e (host.evaluateExpr e)
  | binary (op : Operator) {e f : Expr} {x y : m Value} :
    Piecewise host e x → Piecewise host f y →
    Piecewise host (.binary op e f) (do
      let v ← x
      Evaluation.arithmetic op v (← y))

/-- The pieces come to what the expression does. -/
theorem Host.Piecewise.eq_eval {host : Host Id} {table : Link → Option String} {x : Id Value}
    (h : host.Piecewise e x) (htable : LinkSource.Answers host.resolve table) :
    x = e.eval ⟨host.reference, table⟩ := by
  induction h with
  | whole e => exact evaluateExpr_eq htable e
  | binary op _ _ ihe ihf =>
    rw [eval_binary, ← ihe, ← ihf]
    rfl

/-- A leaf of the layout is evaluated as the expression that its tokens denote. -/
theorem Host.evaluateOperand_spreadAll (htokens : Token.tokenize text = .ok ts)
    (h : Derives nestingLimit .sum ts e) :
    host.evaluateOperand (Textual.spreadAll text) = host.evaluateExpr e := by
  obtain ⟨t, us, rfl, -⟩ := Reader.exists_head h
  have hne : ¬ (Unicode.trim text).isEmpty := by
    intro hempty
    rw [Token.tokenize_of_trim hempty] at htokens
    cases htokens
  have hparsed : Expr.ofText text = .ok e := Expr.ofText_of_derives htokens h
  unfold evaluateOperand
  rw [Textual.restore_spreadAll, if_neg hne, hparsed]
  rfl

/-- The text is laid out so that evaluating the layout evaluates the expression in pieces. -/
def LaysOut (host : Host m) (depth : Nat) (rank : Textual.Rank) (text : List Char) (e : Expr) :
    Prop :=
  ∃ l, Textual.Lays depth rank text l ∧
    host.Piecewise e (l.fold host.evaluateOperand Evaluation.arithmetic)

theorem LaysOut.loose (hop : op = .add ∨ op = .subtract) (ha : LaysOut host n .sum a e)
    (hb : LaysOut host n .product b f) :
    LaysOut host n .sum (a ++ op.symbol :: b) (.binary op e f) := by
  obtain ⟨l, hl, hpieces⟩ := ha
  obtain ⟨r, hr, hpieces'⟩ := hb
  exact ⟨.join op l r, .loose hop hl hr, .binary op hpieces hpieces'⟩

theorem LaysOut.tight (hop : op = .multiply ∨ op = .divide) (ha : LaysOut host n .product a e)
    (hb : LaysOut host n .factor b f) :
    LaysOut host n .product (a ++ op.symbol :: b) (.binary op e f) := by
  obtain ⟨l, hl, hpieces⟩ := ha
  obtain ⟨r, hr, hpieces'⟩ := hb
  exact ⟨.join op l r, .tight hop hl hr, .binary op hpieces hpieces'⟩

theorem LaysOut.product (h : LaysOut host n .product text e) : LaysOut host n .sum text e := by
  obtain ⟨l, hl, hpieces⟩ := h
  exact ⟨l, .product hl, hpieces⟩

theorem LaysOut.factor (h : LaysOut host n .factor text e) : LaysOut host n .product text e := by
  obtain ⟨l, hl, hpieces⟩ := h
  exact ⟨l, .factor hl, hpieces⟩

/-- A group is laid out as what is in it. -/
theorem LaysOut.group (hclosed : Textual.Closed text) (h : LaysOut host n .sum text e) :
    LaysOut host (n + 1) .factor ('(' :: text ++ [')']) e := by
  obtain ⟨l, hl, hpieces⟩ := h
  exact ⟨l, .group hclosed hl, hpieces⟩

/-- A solid text that is no group is a leaf, whose tokens are read by themselves. -/
theorem laysOut_solid (hsolid : Textual.Solid text) (hgroup : Textual.group? text = none)
    (htokens : Token.tokenize text = .ok ts) (h : Derives nestingLimit .sum ts e) :
    LaysOut host n .factor text e := by
  refine ⟨.leaf text, .leaf hsolid hgroup, ?_⟩
  rw [Textual.Layout.fold, Host.evaluateOperand_spreadAll htokens h]
  exact .whole e

/-- A solid text that is no group is a leaf. -/
theorem laysOut_leaf (hn : n ≤ nestingLimit) (hsolid : Textual.Solid text)
    (hgroup : Textual.group? text = none) (htokens : Token.tokenize text = .ok ts)
    (h : Bare n .factor ts e) : LaysOut host n .factor text e := by
  have hderives : Derives n .signed ts e := h.derives
  exact laysOut_solid hsolid hgroup htokens (.product (.signed (hderives.mono hn)))

/-- A text whose one token is no mark is a leaf. -/
theorem laysOut_atom (hquote : '"' ∉ text) {t : Token} (htokens : Token.tokenize text = .ok [t])
    (ht : ∀ o, Token.ofChar? o ≠ some t) (h : Derives nestingLimit .sum [t] e) :
    LaysOut host n .factor text e := by
  have hunmarked := Textual.unmarked_of_tokens hquote htokens (List.forall_mem_singleton.2 ht)
  refine laysOut_solid hunmarked.solid ?_ htokens h
  apply Textual.group?_of_head
  intro hhead
  exact (hunmarked _ (List.mem_of_head? hhead)).1.1 rfl

/-- A text whose tokens are a group is a group, or it has white space around one and is a leaf. -/
theorem laysOut_group (hn : n + 1 ≤ nestingLimit)
    (hquote : '"' ∉ text)
    (htokens : Token.tokenize text = .ok (.openParen :: ts ++ [.closeParen]))
    (h : Bare n .sum ts e)
    (ih : ∀ x, '"' ∉ x → Token.tokenize x = .ok ts → LaysOut host n .sum x e) :
    LaysOut host (n + 1) .factor text e := by
  obtain ⟨a, x, v, rfl, ha, hx, hv⟩ := Textual.exists_group [] hquote htokens
  have hquotex : '"' ∉ x := fun hq => hquote (by simp [hq])
  have ha := Textual.unmarked_of_nil (fun hq => hquote (by simp [hq])) ha
  have hv := Textual.unmarked_of_nil (fun hq => hquote (by simp [hq])) hv
  have hderives : Derives n .sum ts e := h.derives
  have hclosed : Textual.Closed x := (closed_of_derives hderives hquotex hx).1
  -- With white space around it, the group is left to the grammar as a whole.
  by_cases hempty : a ≠ [] ∨ v ≠ []
  · exact laysOut_leaf hn (Textual.solid_around ha hclosed hv)
      (Textual.group?_around ha hclosed hempty) htokens (.group h)
  · obtain ⟨rfl, rfl⟩ : a = [] ∧ v = [] := by simpa using hempty
    exact (ih x hquotex hx).group hclosed

/-- A text whose tokens are a call has plain characters in front of the arguments, and is a leaf. -/
theorem laysOut_call (hn : n + 1 ≤ nestingLimit)
    (hquote : '"' ∉ text) {t : Token} {name : String}
    (htokens : Token.tokenize text = .ok (t :: .openParen :: ts ++ [.closeParen]))
    (ht : t.callee? = some name) (hts : Textual.Closed (Token.parentheses ts))
    (h : Derives n .primary (t :: .openParen :: ts ++ [.closeParen]) e) :
    LaysOut host (n + 1) .factor text e := by
  obtain ⟨a, x, v, rfl, ha, hx, hv⟩ := Textual.exists_group [t] hquote htokens
  obtain ⟨hends, hclose⟩ := endsOperand_of_callee ht
  have hne : a ≠ [] := by
    rintro rfl
    rw [Token.tokenize_of_nil rfl] at ha
    cases ha
  have ha := Textual.unmarked_of_tokens (fun hq => hquote (by simp [hq])) ha
    (List.forall_mem_singleton.2 (ofChar?_ne_of_endsOperand hends hclose))
  have hv := Textual.unmarked_of_nil (fun hq => hquote (by simp [hq])) hv
  have hclosed := Textual.closed_of_tokens (fun hq => hquote (by simp [hq])) hx hts
  exact laysOut_leaf hn (Textual.solid_around ha hclosed hv)
    (Textual.group?_around ha hclosed (.inl hne)) htokens (.call ht hts h)

/-- A text is laid out as the expression that its tokens denote without signs. -/
theorem laysOut_of_bare {rank : Textual.Rank}
    (h : Bare n rank ts e) (hn : n ≤ nestingLimit) (hquote : '"' ∉ text)
    (htokens : Token.tokenize text = .ok ts) : LaysOut host n rank text e := by
  induction h generalizing text with
  | product _ ih => exact (ih hn hquote htokens).product
  | factor _ ih => exact (ih hn hquote htokens).factor
  | @loose _ _ _ op _ _ hop _ _ ihe ihf =>
    obtain ⟨a, b, rfl, ha, hb⟩ := Textual.exists_operands hquote htokens
    exact (ihe hn (fun hq => hquote (by simp [hq])) ha).loose hop
      (ihf hn (fun hq => hquote (by simp [hq])) hb)
  | @tight _ _ _ op _ _ hop _ _ ihe ihf =>
    obtain ⟨a, b, rfl, ha, hb⟩ := Textual.exists_operands hquote htokens
    exact (ihe hn (fun hq => hquote (by simp [hq])) ha).tight hop
      (ihf hn (fun hq => hquote (by simp [hq])) hb)
  | group h ih =>
    exact laysOut_group hn hquote htokens h fun x => ih (Nat.le_of_succ_le hn)
  | atom ht hd =>
    exact laysOut_atom hquote htokens ht (.product (.signed ((Derives.primary hd).mono hn)))
  | call ht hts hd => exact laysOut_call hn hquote htokens ht hts hd

end

end Spreadsheet
