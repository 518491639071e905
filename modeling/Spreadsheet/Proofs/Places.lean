import Mathlib.Data.List.Infix
import Spreadsheet.Proofs.Insertions
import Spreadsheet.Proofs.PrecedenceTree
import Spreadsheet.Proofs.Spelling
/-!
# Places in a body

A place in a body is also one in the normalised body, and as that is taken apart
at its operators and groups, the part that has the place consists of the end of
what stands in front of it and the start of what stands behind it, each among at
most two further parentheses: `Fronts`, `Backs`. Only if a group of the body
begins or ends at the place, and is an operand there, does the place not stay
within a group of the normalised body: `touched`.
-/

namespace Spreadsheet.Textual

/-! ## Operands of a body -/

/-- What a place in a body stands behind. -/
structure Place where
  /-- An operand may begin here. -/
  starts : Bool
  /-- How many parentheses are open that do not begin an operand, such as those of calls. -/
  depth : Nat
  deriving DecidableEq

/-- The place behind the next character. A parenthesis where an operand may begin is not counted,
as long as no others are. -/
def Place.step (p : Place) (c : Char) : Place :=
  if c = '(' then if p.starts && p.depth = 0 then p else ⟨false, p.depth + 1⟩
  else if c = ')' then ⟨false, p.depth - 1⟩
  else ⟨(Operator.ofChar? c).isSome, p.depth⟩

/-- An operand of the body may begin behind the text, and not in the arguments of a call. -/
def beginsOperand (text : List Char) : Bool := text.foldl Place.step ⟨true, 0⟩ = ⟨true, 0⟩

/-- An operand may end in front of the text. -/
def endsOperand : List Char → Bool
  | [] => true
  | c :: _ => c = ')' || (Operator.ofChar? c).isSome

/-- Between two texts, the text is a group that may be an operand. -/
def isGroupedOperand (before text after : List Char) : Bool :=
  beginsOperand before && (group? text).isSome && endsOperand after

/-- The groups that begin or end between two texts and may be operands of what the texts make up. -/
def touched (pre post : List Char) : List (List Char) :=
  post.inits.filter (fun text => isGroupedOperand pre text (post.drop text.length)) ++
    pre.tails.filter fun text => isGroupedOperand (pre.take (pre.length - text.length)) text post

section
variable {pre post text x y a b f inner : List Char} {c : Char} {op : Operator} {i j k d e r : Nat}

theorem mem_touched_of_front (h : isGroupedOperand pre text post) :
    text ∈ touched pre (text ++ post) := by
  have hmem : text ∈ (text ++ post).inits := (List.mem_inits _ _).2 (List.prefix_append _ _)
  exact List.mem_append_left _ (List.mem_filter.2 ⟨hmem, by simpa⟩)

theorem mem_touched_of_back (h : isGroupedOperand pre text post) :
    text ∈ touched (pre ++ text) post := by
  have hmem : text ∈ (pre ++ text).tails := (List.mem_tails _ _).2 (List.suffix_append _ _)
  exact List.mem_append_right _ (List.mem_filter.2 ⟨hmem, by simpa⟩)

theorem beginsOperand_open (h : beginsOperand a) : beginsOperand (a ++ ['(']) := by
  unfold beginsOperand at h ⊢
  rw [List.foldl_append, of_decide_eq_true h]
  rfl

/-! ## Spread texts -/

theorem spread_symbol (op : Operator) : ∃ i, 1 ≤ i ∧ i ≤ 2 ∧
    spread op.symbol = List.replicate i ')' ++ op.symbol :: List.replicate i '(' := by
  cases op with
  | add | subtract => exact ⟨2, by decide, by decide, rfl⟩
  | multiply | divide => exact ⟨1, by decide, by decide, rfl⟩

theorem symbol_notMem_replicate (hc : c = '(' ∨ c = ')') : op.symbol ∉ List.replicate k c := by
  intro hmem
  have heq := (List.mem_replicate.1 hmem).2
  rcases hc with rfl | rfl
  · exact (isPlain_symbol op).1 heq
  · exact (isPlain_symbol op).2 heq

/-- An operator stands among what a character is replaced by only if that is the operator. -/
theorem eq_of_spread (h : spread c = a ++ op.symbol :: b) : ∃ i, 1 ≤ i ∧ i ≤ 2 ∧
    c = op.symbol ∧ a = List.replicate i ')' ∧ b = List.replicate i '(' := by
  have hplain := isPlain_symbol op
  have hmem : op.symbol ∈ spread c := by simp [h]
  rcases open_or_close_or_plain c with rfl | rfl | hc
  · simp [spread, hplain.1] at hmem
  · simp [spread, hplain.2] at hmem
  · cases hop : Operator.ofChar? c with
    | none =>
      rw [spread_plain hc hop, List.mem_singleton] at hmem
      rw [← hmem, ofChar?_symbol] at hop
      cases hop
    | some op' =>
      obtain rfl := symbol_of_ofChar? hop
      obtain ⟨i, hi, hi', hspread⟩ := spread_symbol op'
      rw [hspread] at h
      refine ⟨i, hi, hi', ?_⟩
      rcases split_at h with ⟨y, rfl, heq⟩ | ⟨x, heq, -⟩
      · rcases List.cons_eq_append_iff.1 heq with ⟨rfl, heq⟩ | ⟨y, rfl, heq⟩
        · obtain ⟨hsymbol, rfl⟩ := List.cons.inj heq
          exact ⟨hsymbol, List.append_nil _, rfl⟩
        · have hmem : op.symbol ∈ List.replicate i '(' := by simp [(List.cons.inj heq).2]
          exact absurd hmem (symbol_notMem_replicate (.inl rfl))
      · have hmem : op.symbol ∈ List.replicate i ')' := by simp [heq]
        exact absurd hmem (symbol_notMem_replicate (.inr rfl))

/-- An operator of a spread text is one of the text, with parentheses around it. -/
theorem exists_operator_of_spreadAll (h : spreadAll f = a ++ op.symbol :: b) :
    ∃ f₁ f₂ i, 1 ≤ i ∧ i ≤ 2 ∧ f = f₁ ++ op.symbol :: f₂ ∧
      a = spreadAll f₁ ++ List.replicate i ')' ∧ b = List.replicate i '(' ++ spreadAll f₂ := by
  induction f generalizing a with
  | nil => simp [spreadAll] at h
  | cons c f ih =>
    rw [spreadAll_cons] at h
    rcases split_at h with ⟨y, rfl, hy⟩ | ⟨x, hx, rfl⟩
    · obtain ⟨f₁, f₂, i, hi, hi', rfl, rfl, rfl⟩ := ih hy
      exact ⟨c :: f₁, f₂, i, hi, hi', rfl, by rw [spreadAll_cons, List.append_assoc], rfl⟩
    · obtain ⟨i, hi, hi', rfl, rfl, rfl⟩ := eq_of_spread hx
      exact ⟨[], f, i, hi, hi', rfl, rfl, rfl⟩

theorem exists_open_of_spreadAll (h : spreadAll f = '(' :: x) :
    ∃ g, f = '(' :: g ∧ x = List.replicate 2 '(' ++ spreadAll g := by
  cases f with
  | nil => cases h
  | cons c f =>
    by_cases hc : c = '('
    · subst hc
      exact ⟨f, rfl, (List.cons.inj h).2.symm⟩
    · have hhead := @head?_spreadAll f [] c hc
      rw [List.append_nil, h] at hhead
      exact absurd rfl hhead

theorem exists_close_of_spreadAll (h : spreadAll f = y ++ [')']) :
    ∃ g, f = g ++ [')'] ∧ y = spreadAll g ++ List.replicate 2 ')' := by
  rcases List.eq_nil_or_concat f with rfl | ⟨f, c, rfl⟩
  · simp [spreadAll] at h
  · rw [List.concat_eq_append, spreadAll_append] at h
    have hc : spreadAll [c] = spread c := List.append_nil _
    rw [hc] at h
    rcases open_or_close_or_plain c with rfl | rfl | hplain
    · have hlast := congrArg List.getLast? h
      simp [spread] at hlast
    · refine ⟨f, List.concat_eq_append, ?_⟩
      have hspread : spreadAll f ++ spread ')' =
          (spreadAll f ++ List.replicate 2 ')') ++ [')'] := by
        simp [spread]
      rw [hspread] at h
      exact (List.append_inj' h rfl).1.symm
    · have hlast := congrArg List.getLast? h
      cases hop : Operator.ofChar? c with
      | none =>
        rw [spread_plain hplain hop] at hlast
        simp at hlast
        exact absurd hlast hplain.2
      | some op =>
        obtain rfl := symbol_of_ofChar? hop
        cases op <;> simp [spread, Operator.symbol] at hlast

/-! ## Depths -/

theorem foldl_depthBehind (h : openAfter d a = some e) : a.foldl depthBehind d = e := by
  induction a generalizing d with
  | nil => exact Option.some.inj h
  | cons c a ih =>
    rw [openAfter_cons h] at h
    exact ih h

/-- Behind what is passed over, no parenthesis is open. -/
theorem Passed.depthBehind_eq (h : Passed a) : a.foldl depthBehind 0 = 0 := by
  induction h with
  | nil => rfl
  | @char c rest hopen _ _ ih =>
    have hc : depthBehind 0 c = 0 := by
      rcases open_or_close_or_plain c with rfl | rfl | hplain
      · exact absurd rfl hopen
      · rfl
      · exact depthBehind.eq_3 0 c hplain.1 hplain.2
    rw [List.foldl_cons, hc, ih]
  | @group inner rest hinner _ ih =>
    show (inner ++ ')' :: rest).foldl depthBehind 1 = 0
    rw [List.foldl_append, foldl_depthBehind (hinner.openAfter_eq 1)]
    exact ih

/-- A parenthesis that is counted opens three. -/
theorem depth_le_of_spreadAll {p : Place} (h : 3 * p.depth ≤ d) :
    3 * (f.foldl Place.step p).depth ≤ (spreadAll f).foldl depthBehind d := by
  induction f generalizing p d with
  | nil => exact h
  | cons c f ih =>
    rw [spreadAll_cons, List.foldl_append, List.foldl_cons]
    apply ih
    rcases open_or_close_or_plain c with rfl | rfl | hc
    · have hstep : (p.step '(').depth ≤ p.depth + 1 := by
        unfold Place.step
        rw [if_pos rfl]
        split <;> simp
      show _ ≤ d + 1 + 1 + 1
      omega
    · show 3 * (p.depth - 1) ≤ d - 1 - 1 - 1
      omega
    · have hstep : (p.step c).depth = p.depth := by
        unfold Place.step
        rw [if_neg hc.1, if_neg hc.2]
      rw [hstep]
      cases hop : Operator.ofChar? c with
      | none =>
        rw [spread_plain hc hop]
        show _ ≤ depthBehind d c
        rwa [depthBehind.eq_3 d c hc.1 hc.2]
      | some op =>
        obtain rfl := symbol_of_ofChar? hop
        cases op with
        | add | subtract =>
          show _ ≤ d - 1 - 1 + 1 + 1
          omega
        | multiply | divide =>
          show _ ≤ d - 1 + 1
          omega

/-! ## Parts of a normalised text -/

/-- The text stands in front of a place in a part of a normalised text: up to two parentheses around
an operand, and the start of that operand, which is an end of what stands in front in the body. -/
def Fronts (pre x : List Char) : Prop := ∃ k a f, k ≤ 2 ∧ pre = a ++ f ∧ beginsOperand a ∧
  x = List.replicate k '(' ++ spreadAll f

/-- The text stands behind a place in a part of a normalised text. -/
def Backs (post y : List Char) : Prop := ∃ j g c, j ≤ 2 ∧ post = g ++ c ∧ endsOperand c ∧
  y = spreadAll g ++ List.replicate j ')'

theorem fronts_self (pre : List Char) : Fronts pre ('(' :: '(' :: spreadAll pre) :=
  ⟨2, [], pre, Nat.le_refl 2, rfl, rfl, rfl⟩

theorem backs_self (post : List Char) : Backs post (spreadAll post ++ [')', ')']) :=
  ⟨2, post, [], Nat.le_refl 2, (List.append_nil post).symm, rfl, rfl⟩

theorem foldl_depthBehind_replicate :
    (List.replicate k '(').foldl depthBehind d = d + k ∧
      (List.replicate k ')').foldl depthBehind d = d - k := by
  induction k generalizing d with
  | zero => exact ⟨rfl, rfl⟩
  | succ k ih =>
    rw [List.replicate_succ, List.replicate_succ, List.foldl_cons, List.foldl_cons, ih.1, ih.2]
    show d + 1 + k = d + (k + 1) ∧ d - 1 - k = d - (k + 1)
    omega

/-- Behind an operator outside parentheses, another operand begins. -/
theorem Fronts.behind_operator (h : Fronts pre (a ++ op.symbol :: x)) (ha : Passed a) :
    Fronts pre x := by
  obtain ⟨k, b, f, hk, rfl, hb, htext⟩ := h
  rcases split_at htext.symm with ⟨y, rfl, hspread⟩ | ⟨z, hfront, -⟩
  · obtain ⟨f₁, f₂, i, hi, hi', rfl, rfl, rfl⟩ := exists_operator_of_spreadAll hspread
    refine ⟨i, b ++ (f₁ ++ [op.symbol]), f₂, hi', by simp, ?_, rfl⟩
    -- No parenthesis that is counted is open there, as three would be among those passed over.
    have hdepth : 3 * (f₁.foldl Place.step ⟨true, 0⟩).depth ≤ (spreadAll f₁).foldl depthBehind k :=
      depth_le_of_spreadAll (Nat.zero_le k)
    have hpassed := ha.depthBehind_eq
    rw [List.foldl_append, List.foldl_append, foldl_depthBehind_replicate.1,
      foldl_depthBehind_replicate.2, Nat.zero_add] at hpassed
    have hzero : (f₁.foldl Place.step ⟨true, 0⟩).depth = 0 := by omega
    have hplain := isPlain_symbol op
    unfold beginsOperand at hb ⊢
    rw [List.foldl_append, of_decide_eq_true hb, List.foldl_append, List.foldl_cons, List.foldl_nil,
      Place.step, if_neg hplain.1, if_neg hplain.2, ofChar?_symbol, hzero]
    rfl
  · have hmem : op.symbol ∈ List.replicate k '(' := by simp [hfront]
    exact absurd hmem (symbol_notMem_replicate (.inl rfl))

/-- In front of an operator, an operand ends. -/
theorem Backs.before_operator (h : Backs post (y ++ op.symbol :: b)) : Backs post y := by
  obtain ⟨j, g, c, hj, rfl, -, htext⟩ := h
  rcases split_at htext.symm with ⟨z, -, hback⟩ | ⟨z, hspread, -⟩
  · have hmem : op.symbol ∈ List.replicate j ')' := by simp [hback]
    exact absurd hmem (symbol_notMem_replicate (.inr rfl))
  · obtain ⟨g₁, g₂, i, -, hi, rfl, rfl, -⟩ := exists_operator_of_spreadAll hspread
    refine ⟨i, g₁, op.symbol :: (g₂ ++ c), hi, by simp, ?_, rfl⟩
    simp [endsOperand, ofChar?_symbol]

theorem Fronts.inside (h : Fronts pre ('(' :: x)) : Fronts pre x := by
  obtain ⟨k, a, f, hk, rfl, ha, htext⟩ := h
  cases k with
  | zero =>
    obtain ⟨f, rfl, rfl⟩ := exists_open_of_spreadAll htext.symm
    exact ⟨2, a ++ ['('], f, Nat.le_refl 2, by simp, beginsOperand_open ha, rfl⟩
  | succ k => exact ⟨k, a, f, Nat.le_of_succ_le hk, rfl, ha, (List.cons.inj htext).2⟩

theorem Backs.inside (h : Backs post (y ++ [')'])) : Backs post y := by
  obtain ⟨j, g, c, hj, rfl, hc, htext⟩ := h
  cases j with
  | zero =>
    rw [List.replicate_zero, List.append_nil] at htext
    obtain ⟨g, rfl, rfl⟩ := exists_close_of_spreadAll htext.symm
    exact ⟨2, g, ')' :: c, Nat.le_refl 2, by simp, rfl, rfl⟩
  | succ j =>
    rw [List.replicate_succ', ← List.append_assoc] at htext
    exact ⟨j, g, c, Nat.le_of_succ_le hj, rfl, hc, (List.append_inj' htext rfl).1⟩

/-! ## Groups that begin or end at a place -/

/-- An operator closes parentheses that are open, and opens them again. -/
theorem openAfter_of_spread_symbol (h : openAfter d (spread op.symbol ++ y) = some e) :
    openAfter d y = some e := by
  cases op with
  | add | subtract =>
    obtain _ | _ | d := d
    · cases h
    · cases h
    · exact h
  | multiply | divide =>
    obtain _ | d := d
    · cases h
    · exact h

/-- A spread text opens three parentheses for each one that the text opens. -/
theorem exists_openAfter_of_spreadAll (hr : r ≤ 2)
    (h : openAfter (3 * e + r) (spreadAll f) = some d) :
    ∃ e', d = 3 * e' + r ∧ openAfter e f = some e' := by
  induction f generalizing e with
  | nil =>
    cases h
    exact ⟨e, rfl, rfl⟩
  | cons c f ih =>
    rw [spreadAll_cons] at h
    rcases open_or_close_or_plain c with rfl | rfl | hc
    · refine ih (e := e + 1) ?_
      rw [show 3 * (e + 1) + r = 3 * e + r + 3 by omega]
      exact h
    · cases e with
      | zero =>
        obtain rfl | rfl | rfl : r = 0 ∨ r = 1 ∨ r = 2 := by omega
        all_goals cases h
      | succ e =>
        rw [show 3 * (e + 1) + r = 3 * e + r + 3 by omega] at h
        exact ih (e := e) h
    · rw [openAfter_plain hc]
      apply ih
      cases hop : Operator.ofChar? c with
      | none =>
        rw [spread_plain hc hop, List.singleton_append, openAfter_plain hc] at h
        exact h
      | some op =>
        obtain rfl := symbol_of_ofChar? hop
        exact openAfter_of_spread_symbol h

theorem openAfter_replicate : openAfter d (List.replicate k '(') = some (d + k) := by
  induction k generalizing d with
  | zero => rfl
  | succ k ih =>
    rw [List.replicate_succ, openAfter_open, ih, Nat.add_right_comm]
    rfl

theorem Closed.openAfter_of_framed
    (h : Closed (List.replicate k '(' ++ (y ++ List.replicate j ')'))) :
    openAfter k y = some j := by
  unfold Closed at h
  rw [openAfter_append openAfter_replicate, Nat.zero_add] at h
  obtain ⟨m, hm, hclose⟩ := exists_openAfter_of_append h
  have hcount := count_of_openAfter hclose
  simp only [List.count_replicate_self, List.count_replicate] at hcount
  obtain rfl : m = j := by simpa using hcount
  exact hm

/-- Of the groups in a part of a normalised text, those that are not put around an operand on both
sides are groups of the body. -/
theorem exists_group_of_spreadAll (hk : k ≤ 2) (hj : j ≤ 2) (hkj : k = 0 ∨ j = 0)
    (h : group? (List.replicate k '(' ++ (spreadAll f ++ List.replicate j ')')) = some inner) :
    k = 0 ∧ j = 0 ∧ (group? f).isSome := by
  obtain ⟨htext, hinner⟩ := group?_eq_some_iff.1 h
  have hopen : openAfter (3 * 0 + k) (spreadAll f) = some j := by
    have hgroup := hinner.group
    rw [← htext] at hgroup
    rw [Nat.zero_add]
    exact hgroup.openAfter_of_framed
  -- As the operand opens a multiple of three, as many stand in front of it as behind it.
  obtain ⟨e, hsum, -⟩ := exists_openAfter_of_spreadAll hk hopen
  obtain rfl : k = 0 := by omega
  obtain rfl : j = 0 := by omega
  refine ⟨rfl, rfl, ?_⟩
  simp only [List.replicate_zero, List.nil_append, List.append_nil] at htext
  obtain ⟨f', rfl, hback⟩ := exists_close_of_spreadAll htext
  cases f' with
  | nil => cases hback
  | cons c g =>
    obtain ⟨g', heq, -⟩ := exists_open_of_spreadAll htext
    obtain rfl : c = '(' := (List.cons.inj heq).1
    have hframed : inner = List.replicate 2 '(' ++ (spreadAll g ++ List.replicate 2 ')') :=
      (List.cons.inj hback).2
    rw [hframed] at hinner
    obtain ⟨e, hsum, hg⟩ :=
      exists_openAfter_of_spreadAll (e := 0) (Nat.le_refl 2) hinner.openAfter_of_framed
    obtain rfl : e = 0 := by omega
    rw [group?_group hg]
    rfl

theorem eq_nil_of_spreadAll (h : spreadAll f = []) : f = [] := by
  by_contra hne
  exact spreadAll_ne_nil hne h

theorem Fronts.beginsOperand (h : Fronts pre []) : beginsOperand pre := by
  obtain ⟨k, a, f, -, rfl, ha, htext⟩ := h
  obtain rfl := eq_nil_of_spreadAll (List.append_eq_nil_iff.1 htext.symm).2
  rwa [List.append_nil]

theorem Backs.endsOperand (h : Backs post []) : endsOperand post := by
  obtain ⟨j, g, c, -, rfl, hc, htext⟩ := h
  obtain rfl := eq_nil_of_spreadAll (List.append_eq_nil_iff.1 htext.symm).1
  exact hc

/-- If a part of a normalised text is a group, the place stays within that group, or it stands at
one of the groups of the body that it touches. -/
theorem group?_place (hx : Fronts pre x) (hy : Backs post y) (h : group? (x ++ y) = some inner) :
    (∃ x' y', x = '(' :: x' ∧ y = y' ++ [')'] ∧ inner = x' ++ y' ∧ Fronts pre x' ∧ Backs post y') ∨
      (x = [] ∨ y = []) ∧ ∃ text ∈ touched pre post, x ++ y = spreadAll text := by
  obtain ⟨htext, -⟩ := group?_eq_some_iff.1 h
  cases x with
  | nil =>
    obtain ⟨j, g, c, hj, rfl, hc, rfl⟩ := hy
    obtain ⟨-, rfl, hgroup⟩ := exists_group_of_spreadAll (k := 0) (by decide) hj (.inl rfl) h
    have hoperand : isGroupedOperand pre g c := by
      simp [isGroupedOperand, hx.beginsOperand, hgroup, hc]
    exact .inr ⟨.inl rfl, g, mem_touched_of_front hoperand, by simp⟩
  | cons o x =>
    obtain rfl : o = '(' := (List.cons.inj htext).1
    rcases List.eq_nil_or_concat y with rfl | ⟨y, o, rfl⟩
    · obtain ⟨k, a, f, hk, rfl, ha, hfront⟩ := hx
      rw [hfront] at h ⊢
      obtain ⟨rfl, -, hgroup⟩ := exists_group_of_spreadAll (j := 0) hk (by decide) (.inr rfl)
        (by simpa using h)
      have hoperand : isGroupedOperand a f post := by
        simp [isGroupedOperand, ha, hgroup, hy.endsOperand]
      exact .inr ⟨.inr rfl, f, mem_touched_of_back hoperand, by simp⟩
    · simp only [List.concat_eq_append] at htext hy ⊢
      rw [← List.append_assoc] at htext
      obtain ⟨hinner, ho⟩ := List.append_inj' htext rfl
      cases ho
      exact .inl ⟨x, y, rfl, rfl, (List.cons.inj hinner).2.symm, hx.inside, hy.inside⟩

/-! ## Operands of a part -/

/-- The texts are in front of and behind a place in a part of a normalised text, and the part is
nested at most so deep. -/
structure PlacedWithin (levels : Nat) (pre post x y : List Char) : Prop where
  fronts : Fronts pre x
  backs : Backs post y
  depth : nestingDepth (x ++ y) ≤ levels

/-- If something is inserted at a place, it is inserted at that place of one of the operands. -/
theorem PlacedWithin.operands {w : List Char} {levels : Nat} (hw : Unmarked w)
    (h : PlacedWithin levels pre post x y) :
    Differ w (PlacedWithin levels pre post) (operands (x ++ y)).1 (operands (x ++ (w ++ y))).1 ∧
      List.Forall₂ (fun p q => p.1 = q.1 ∧ Differ w (PlacedWithin levels pre post) p.2 q.2)
        (operands (x ++ y)).2 (operands (x ++ (w ++ y))).2 := by
  apply operands_insert hw
  · intro x y op b h _
    have hdepth := h.depth
    rw [← List.append_assoc] at hdepth
    exact ⟨h.fronts, h.backs.before_operator, Nat.le_trans nestingFrom_left hdepth⟩
  · intro a op x y h ha
    have hdepth := h.depth
    rw [List.append_cons, List.append_assoc] at hdepth
    exact ⟨h.fronts.behind_operator ha, h.backs, Nat.le_trans nestingDepth_right hdepth⟩
  · exact h

/-- In a balanced body, what is inserted stands at that place in the normalised body too. -/
theorem normalize_insert {w : List Char} (hw : Unmarked w)
    (hcount : (pre ++ post).count '(' = (pre ++ post).count ')') :
    normalize (pre ++ (w ++ post)) =
      ('(' :: '(' :: spreadAll pre) ++ (w ++ (spreadAll post ++ [')', ')'])) := by
  rw [normalize_eq, hw.count_insert rfl, hw.count_insert rfl, if_pos hcount, spreadAll_append,
    spreadAll_append, hw.spreadAll]
  simp

theorem placedWithin_normalize (hcount : (pre ++ post).count '(' = (pre ++ post).count ')')
    (hdepth : nestingDepth (pre ++ post) ≤ nestingLimit) :
    PlacedWithin groupLimit pre post ('(' :: '(' :: spreadAll pre)
      (spreadAll post ++ [')', ')']) := by
  have hnormal := nestingDepth_normalize_le_groupLimit hdepth
  have hbody := @normalize_insert pre post [] (List.forall_mem_nil _) hcount
  rw [List.nil_append, List.nil_append] at hbody
  rw [hbody] at hnormal
  exact ⟨fronts_self pre, backs_self post, hnormal⟩

/-! ## Restoring a part -/

/-- A part of a normalised text is restored to the part of the body, among parentheses as before. -/
theorem restore_framed (hk : k ≤ 2) (hj : j ≤ 2) :
    restore (List.replicate k '(' ++ (spreadAll f ++ List.replicate j ')')) =
      List.replicate k '(' ++ (f ++ List.replicate j ')') := by
  have hclose : (List.replicate j ')').head? ≠ some '(' ∧
      restore (List.replicate j ')') = List.replicate j ')' := by
    obtain rfl | rfl | rfl : j = 0 ∨ j = 1 ∨ j = 2 := by omega
    all_goals exact ⟨by decide, by decide⟩
  rw [restore_opens_spreadAll hk hclose.1, hclose.2]

/-! ## Evaluating what a group encloses -/

/-- The spread text of a group stands in three groups, of which the third is its own. -/
theorem wrap_group {body : List Char} (hgroup : group? (spreadAll body) = some inner) :
    Rank.sum.wrap body = '(' :: ('(' :: ('(' :: inner ++ [')']) ++ [')']) ++ [')'] := by
  rw [Rank.wrap_sum, Rank.wrap, (group?_eq_some_iff.1 hgroup).1]

/-- A group is evaluated as its layout, within levels enough for what it encloses. -/
theorem reduceWithin_inner {m : Type → Type} [Monad m] [LawfulMonad m]
    {operand : List Char → m Value} {combine : Operator → Value → Value → m Value} {l : Layout}
    {body : List Char} {levels : Nat} (h : Lays nestingLimit .sum body l) (hclosed : Closed body)
    (hdepth : nestingDepth body ≤ nestingLimit) (hgroup : group? (spreadAll body) = some inner)
    (hlevels : nestingDepth inner ≤ levels) :
    reduceWithin operand combine levels inner = l.fold operand combine := by
  have hinner : Closed inner := (group?_eq_some_iff.1 hgroup).2
  have hinnerDepth : nestingDepth inner ≤ 383 := by
    have hnormal := nestingDepth_normalize body
    rw [normalize_closed hclosed, wrap_group hgroup, nestingDepth_group hinner.group.group,
      nestingDepth_group hinner.group, nestingDepth_group hinner] at hnormal
    unfold nestingLimit at hdepth
    omega
  calc reduceWithin operand combine levels inner
      = reduceWithin operand combine (nestingDepth inner) inner :=
        reduceWithin_eq (Nat.le_refl _) hlevels
    _ = reduceWithin operand combine 383 inner :=
        (reduceWithin_eq (Nat.le_refl _) hinnerDepth).symm
    _ = reduceWithin operand combine (3 * nestingLimit + 2) (Rank.sum.wrap body) := by
        show _ = reduceWithin operand combine (383 + 1 + 1 + 1) _
        rw [wrap_group hgroup, reduceWithin_group hinner.group.group,
          reduceWithin_group hinner.group, reduceWithin_group hinner]
    _ = l.fold operand combine := h.reduceWithin

end

end Spreadsheet.Textual
