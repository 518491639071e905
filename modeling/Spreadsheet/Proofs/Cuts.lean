import Spreadsheet.Proofs.Levels
import Spreadsheet.Proofs.PrecedenceTree
/-!
# Where a text is cut

A search for a closing parenthesis that succeeds has passed over a closed text,
`closing?_eq_some_iff`, and so has one that fails, but for parentheses that
nothing closes. A group is therefore a closed text within its parentheses,
`group?_eq_some_iff`.

The operators outside parentheses tell whether a normalised text is cut between
its operands: any of them does it if the parentheses match, and otherwise those
of sums, and all behind the first parenthesis that closes none: `severed`.
-/

namespace Spreadsheet.Textual

/-- A character of two texts in a row belongs to one of them. -/
theorem split_at {x y a b : List Char} {o : Char} (h : x ++ y = a ++ o :: b) :
    (∃ y', a = x ++ y' ∧ y = y' ++ o :: b) ∨ ∃ x', x = a ++ o :: x' ∧ b = x' ++ y := by
  rcases List.append_eq_append_iff.1 h with ⟨y', rfl, rfl⟩ | ⟨x', rfl, hback⟩
  · exact .inl ⟨y', rfl, rfl⟩
  · rcases List.cons_eq_append_iff.1 hback with ⟨rfl, rfl⟩ | ⟨x', rfl, rfl⟩
    · exact .inl ⟨[], by simp, rfl⟩
    · exact .inr ⟨x', rfl, rfl⟩

section
variable {depth n : Nat} {text inner : List Char}

/-- The parenthesis that closes the last of the open ones stands behind a text that closes all that
it opens. -/
theorem closing?_eq_some_iff : closing? (depth + 1) text = some n ↔
    ∃ inner rest, text = inner ++ ')' :: rest ∧ openAfter depth inner = some 0 ∧
      inner.length = n := by
  constructor
  · intro h
    induction text generalizing depth n with
    | nil => cases h
    | cons c text ih =>
      rcases open_or_close_or_plain c with rfl | rfl | hc
      · obtain ⟨n, hn, rfl⟩ := Option.map_eq_some_iff.1 h
        obtain ⟨inner, rest, rfl, hinner, rfl⟩ := ih hn
        exact ⟨'(' :: inner, rest, rfl, hinner, rfl⟩
      · cases depth with
        | zero =>
          cases h
          exact ⟨[], text, rfl, rfl, rfl⟩
        | succ depth =>
          obtain ⟨n, hn, rfl⟩ := Option.map_eq_some_iff.1 h
          obtain ⟨inner, rest, rfl, hinner, rfl⟩ := ih hn
          exact ⟨')' :: inner, rest, rfl, hinner, rfl⟩
      · rw [closing?_plain hc] at h
        obtain ⟨n, hn, rfl⟩ := Option.map_eq_some_iff.1 h
        obtain ⟨inner, rest, rfl, hinner, rfl⟩ := ih hn
        exact ⟨c :: inner, rest, rfl, (openAfter_plain hc).trans hinner, rfl⟩
  · rintro ⟨inner, rest, rfl, hinner, rfl⟩
    rw [closing?_append hinner]
    simp [closing?]

/-- Where nothing closes the last of the open parentheses, none of the others is closed. -/
theorem closing?_eq_none_iff :
    closing? (depth + 1) text = none ↔ ∃ k, openAfter depth text = some k := by
  constructor
  · intro h
    induction text generalizing depth with
    | nil => exact ⟨depth, rfl⟩
    | cons c text ih =>
      rcases open_or_close_or_plain c with rfl | rfl | hc
      · exact ih (Option.map_eq_none_iff.1 h)
      · cases depth with
        | zero => cases h
        | succ depth => exact ih (Option.map_eq_none_iff.1 h)
      · rw [closing?_plain hc] at h
        rw [openAfter_plain hc]
        exact ih (Option.map_eq_none_iff.1 h)
  · rintro ⟨k, hk⟩
    have happend := @closing?_append depth k text [] hk
    rwa [List.append_nil] at happend

theorem group?_eq_some_iff :
    group? text = some inner ↔ text = '(' :: inner ++ [')'] ∧ Closed inner := by
  constructor
  · intro h
    unfold group? at h
    split at h
    · rename_i rest
      split at h
      · rename_i hclosing
        cases h
        obtain ⟨inner, after, rfl, hinner, hlength⟩ := closing?_eq_some_iff.1 hclosing
        obtain rfl : after = [] := by
          rw [List.length_append, List.length_cons] at hlength
          exact List.eq_nil_of_length_eq_zero (by omega)
        rw [List.dropLast_concat]
        exact ⟨rfl, hinner⟩
      · cases h
    · cases h
  · rintro ⟨rfl, hinner⟩
    exact group?_group hinner

end

/-! ## Operators outside parentheses -/

section
variable {text before after : List Char} {op : Operator}

theorem operands_of_cut? (h : cut? text = some (before, op, after)) :
    operands text = (before, (op, (operands after).1) :: (operands after).2) := by
  rw [operands]
  split
  · simp_all
  · simp_all

theorem operands_of_cut?_none (h : cut? text = none) : operands text = (text, []) := by
  rw [operands]
  split
  · rfl
  · simp_all

/-- A text that is not cut, and is no group, is a single operand. -/
theorem reduceWithin_uncut {m : Type → Type} [Monad m] [LawfulMonad m]
    {operand : List Char → m Value} {combine : Operator → Value → Value → m Value} {levels : Nat}
    (hcut : cut? text = none)
    (hgroup : group? text = none) : reduceWithin operand combine levels text = operand text := by
  cases levels with
  | zero => simp [reduceWithin, joinOperands, operands_of_cut?_none hcut, hgroup]
  | succ levels => simp [reduceWithin, joinOperands, operands_of_cut?_none hcut, hgroup]

end

/-! ## Operators that cut a quoted text -/

/-- An operator outside parentheses cuts the text, if `depth` parentheses are open before it and one
too many is passed over. Of the operators in front of that one, only those that bind least do,
unless `all` do. -/
def severs (all : Bool) (depth : Nat) : List Char → Bool
  | [] => false
  | c :: rest =>
    depth = 0 && (Operator.ofChar? c).any (fun op => all || isLoose op) ||
      severs (all || (c = ')' && depth = 0)) (depthBehind depth c) rest

/-- An operator cuts the text when it stands in quotes: any operator outside parentheses if the
parentheses match, and otherwise any such operator behind the first one that closes none, and any
plus or minus before it. -/
def severed (text : List Char) : Bool := severs (openAfter 0 text = some 0) 0 text

section
variable {all : Bool} {depth depth' : Nat} {a b text : List Char} {op : Operator}

/-- In front of a parenthesis that closes none, nothing changes about which operators cut. -/
theorem severs_append (h : openAfter depth a = some depth') :
    severs all depth (a ++ b) = (severs all depth a || severs all depth' b) := by
  induction a generalizing depth with
  | nil =>
    cases h
    rfl
  | cons c a ih =>
    have hall : (all || (c = ')' && depth = 0)) = all := by
      rcases openAfter_cons_cases h with ⟨rfl, -⟩ | ⟨d, rfl, rfl, -⟩ | ⟨hc, -⟩
      · simp
      · simp
      · simp [hc.2]
    rw [openAfter_cons h] at h
    rw [List.cons_append, severs, severs, hall, ih h, Bool.or_assoc]

/-- Inside parentheses, no operator cuts. -/
theorem severs_inside (h : openAfter depth a = some depth') : severs all (depth + 1) a = false := by
  induction a generalizing depth with
  | nil => rfl
  | cons c a ih =>
    rcases openAfter_cons_cases h with ⟨rfl, h⟩ | ⟨d, rfl, rfl, h⟩ | ⟨hc, h⟩
    · simpa [severs, depthBehind] using ih h
    · simpa [severs, depthBehind] using ih h
    · simpa [severs, depthBehind.eq_3 _ c hc.1 hc.2] using ih h

theorem severs_group (ha : Closed a) :
    severs all 0 ('(' :: (a ++ ')' :: b)) = severs all 0 b := by
  have hinside : severs all 1 (a ++ ')' :: b) = severs all 1 (')' :: b) := by
    rw [severs_append (ha.openAfter_eq 1), severs_inside ha, Bool.false_or]
  simpa [severs, Operator.ofChar?, depthBehind] using hinside

theorem severs_char {c : Char} (hc : IsPlain c) (hop : Operator.ofChar? c = none) :
    severs all 0 (c :: b) = severs all 0 b := by
  rw [severs, hop, depthBehind.eq_3 _ c hc.1 hc.2]
  simp [hc.2]

theorem severs_operator (h : all || isLoose op) : severs all 0 (op.symbol :: b) := by
  rw [severs, ofChar?_symbol]
  simp only [Option.any_some, h]
  rfl

theorem Solid.severs (h : Solid a) : Textual.severs all 0 a = false := by
  induction h with
  | nil => rfl
  | char hc hop _ ih => rw [severs_char hc hop, ih]
  | group hinner _ ih => rw [severs_group hinner, ih]

/-- If all operators cut, they do where the text is cut. -/
theorem severs_true : severs true 0 text = (cut? text).isSome := by
  fun_induction cut? text with
  | case1 => rfl
  | case2 rest hclosing =>
    obtain ⟨k, hk⟩ := closing?_eq_none_iff.1 hclosing
    simpa [severs, Operator.ofChar?, depthBehind] using severs_inside hk
  | case3 rest n hclosing ih =>
    obtain ⟨inner, after, rfl, hinner, rfl⟩ := closing?_eq_some_iff.1 hclosing
    rw [severs_group hinner, Option.isSome_map, ← ih]
    simp
  | case4 c rest hc op hop =>
    obtain rfl := symbol_of_ofChar? hop
    rw [severs_operator rfl]
    rfl
  | case5 c rest hc hop ih =>
    rw [Option.isSome_map, ← ih]
    by_cases hclose : c = ')'
    · subst hclose
      simp [severs, Operator.ofChar?, depthBehind]
    · exact severs_char ⟨hc, hclose⟩ hop

/-! ## Where a spread text is cut -/

theorem isSome_cut?_cons {c : Char} (hc : c ≠ '(') (hop : Operator.ofChar? c = none) :
    (cut? (c :: b)).isSome = (cut? b).isSome := by
  rw [cut?, hop]
  · exact Option.isSome_map
  · exact hc

theorem Joined.isSome_cut? (h : Joined a) : (cut? (a ++ op.symbol :: b)).isSome := by
  cases h with
  | solid ha =>
    rw [ha.cut?_operator]
    rfl
  | cons op' ha _ =>
    rw [List.append_assoc, List.cons_append, ha.cut?_operator]
    rfl

/-- A text may be spread before it is cut, also if its parentheses do not match. -/
theorem isSome_cut?_spreadAll :
    (cut? (spreadAll text ++ [')', ')'])).isSome = (cut? text).isSome := by
  fun_induction cut? text with
  | case1 => simp [spreadAll, cut?, Operator.ofChar?]
  | case2 rest hclosing =>
    obtain ⟨k, hk⟩ := closing?_eq_none_iff.1 hclosing
    have hspread : openAfter 0 ('(' :: '(' :: (spreadAll rest ++ [')', ')'])) = some (3 * k) :=
      openAfter_append (openAfter_spreadAll hk)
    show (cut? ('(' :: '(' :: '(' :: (spreadAll rest ++ [')', ')']))).isSome = _
    rw [cut?, closing?_eq_none_iff.2 ⟨_, hspread⟩]
  | case3 rest n hclosing ih =>
    obtain ⟨inner, after, rfl, hopen, rfl⟩ := closing?_eq_some_iff.1 hclosing
    have hinner : Closed inner := hopen
    have hafter : (inner ++ ')' :: after).drop (inner.length + 1) = after := by simp
    rw [hafter] at ih
    have hgroup : spreadAll ('(' :: (inner ++ ')' :: after)) ++ [')', ')'] =
        ('(' :: ('(' :: '(' :: spreadAll inner ++ [')', ')']) ++ [')']) ++
          (spreadAll after ++ [')', ')']) := by
      rw [spreadAll_group]
      simp
    rw [hgroup, (solid_group hinner.spreadAll).cut?_append, Option.isSome_map, Option.isSome_map,
      ih, hafter]
  | case4 c rest hc op hop =>
    obtain rfl := symbol_of_ofChar? hop
    have hoperator : ∀ text : List Char, (cut? (op.symbol :: text)).isSome := fun text =>
      Joined.isSome_cut? (.solid .nil)
    have hclose : ∀ text : List Char, (cut? (')' :: text)).isSome = (cut? text).isSome :=
      fun text => isSome_cut?_cons (by decide) rfl
    rw [spreadAll_cons, Option.isSome_some]
    cases op with
    | add | subtract => exact (hclose _).trans ((hclose _).trans (hoperator _))
    | multiply | divide => exact (hclose _).trans (hoperator _)
  | case5 c rest hc hop ih =>
    rw [Option.isSome_map, ← ih, spreadAll_cons, List.append_assoc]
    by_cases hclose : c = ')'
    · subst hclose
      show (cut? (')' :: ')' :: ')' :: _)).isSome = _
      rw [isSome_cut?_cons hc hop, isSome_cut?_cons hc hop, isSome_cut?_cons hc hop]
      rfl
    · rw [spread_plain ⟨hc, hclose⟩ hop]
      exact isSome_cut?_cons hc hop

/-! ## Which operators cut a text with a layout -/

theorem Joined.append_operator (ha : Joined a) (hb : Joined b) : Joined (a ++ op.symbol :: b) := by
  induction ha with
  | solid ha => exact .cons op ha hb
  | cons op' ha _ ih =>
    rw [List.append_assoc, List.cons_append]
    exact .cons op' ha ih

variable {rank : Rank} {l : Layout}

/-- A text with a layout consists of solid pieces; a factor is one. -/
theorem Lays.pieces (h : Lays depth rank text l) : Joined text ∧ (rank = .factor → Solid text) := by
  induction h with
  | product _ ih => exact ⟨ih.1, nofun⟩
  | loose _ _ _ iha ihb => exact ⟨iha.1.append_operator ihb.1, nofun⟩
  | factor _ ih => exact ⟨ih.1, nofun⟩
  | tight _ _ _ iha ihb => exact ⟨iha.1.append_operator ihb.1, nofun⟩
  | group hclosed _ _ => exact ⟨.solid (solid_group hclosed), fun _ => solid_group hclosed⟩
  | leaf hsolid _ => exact ⟨.solid hsolid, fun _ => hsolid⟩

/-- Operators that bind tight do not cut by themselves. -/
theorem Lays.severs_false (h : Lays depth rank text l) (hrank : rank ≠ .sum) :
    severs false 0 text = false := by
  induction h with
  | product _ _ => exact absurd rfl hrank
  | loose _ _ _ _ _ => exact absurd rfl hrank
  | factor h _ => exact (h.pieces.2 rfl).severs
  | @tight _ a b op _ _ hop ha hb iha _ =>
    have hoperator : severs false 0 (op.symbol :: b) = false := by
      rw [severs, ofChar?_symbol]
      rcases hop with rfl | rfl <;> simpa [isLoose, Operator.symbol, depthBehind] using
        (hb.pieces.2 rfl).severs
    rw [severs_append ha.pieces.1.closed, iha (by simp), hoperator]
    rfl
  | group hclosed _ _ => exact (solid_group hclosed).severs
  | leaf hsolid _ => exact hsolid.severs

theorem Lays.severs_loose (hop : op = .add ∨ op = .subtract)
    (ha : Lays depth .sum a l) :
    severs all 0 (a ++ op.symbol :: b) := by
  have hloose : all || isLoose op := by rcases hop with rfl | rfl <;> simp [isLoose]
  rw [severs_append ha.pieces.1.closed, severs_operator hloose, Bool.or_true]

/-- If a balanced text is not closed, one of its parentheses closes none. -/
theorem openAfter_eq_none (hcount : text.count '(' = text.count ')') (h : ¬ Closed text) :
    openAfter 0 text = none := by
  cases hopen : openAfter 0 text with
  | none => rfl
  | some k =>
    have hcounts := count_of_openAfter hopen
    obtain rfl : k = 0 := by omega
    exact absurd hopen h

/-- Where the search for open parentheses ends, one closes none. -/
theorem exists_stray (h : openAfter depth text = none) :
    ∃ front back, text = front ++ ')' :: back ∧ openAfter depth front = some 0 := by
  induction text generalizing depth with
  | nil => cases h
  | cons c text ih =>
    rcases open_or_close_or_plain c with rfl | rfl | hc
    · obtain ⟨front, back, rfl, hfront⟩ := ih h
      exact ⟨'(' :: front, back, rfl, hfront⟩
    · cases depth with
      | zero => exact ⟨[], text, rfl, rfl⟩
      | succ depth =>
        obtain ⟨front, back, rfl, hfront⟩ := ih h
        exact ⟨')' :: front, back, rfl, hfront⟩
    · rw [openAfter_plain hc] at h
      obtain ⟨front, back, rfl, hfront⟩ := ih h
      exact ⟨c :: front, back, rfl, (openAfter_plain hc).trans hfront⟩

/-- Within the groups around a normalised sum, it is cut. -/
theorem Lays.isSome_cut?_loose (hop : op = .add ∨ op = .subtract) (ha : Lays depth .sum a l)
    (rest : List Char) : (cut? (Rank.sum.wrap (a ++ op.symbol :: b) ++ rest)).isSome := by
  have hwrap : Rank.sum.wrap (a ++ op.symbol :: b) =
      Rank.sum.wrap a ++ op.symbol :: Rank.sum.wrap b := spreadAll_loose hop
  rw [hwrap, List.append_assoc]
  exact ha.joined.1.isSome_cut?

theorem Lays.isSome_cut?_tight (hop : op = .multiply ∨ op = .divide)
    (ha : Lays depth .product a l) : (cut? (Rank.product.wrap (a ++ op.symbol :: b))).isSome := by
  have hwrap : Rank.product.wrap (a ++ op.symbol :: b) =
      Rank.product.wrap a ++ op.symbol :: Rank.product.wrap b := spreadAll_tight hop
  rw [hwrap]
  exact ha.joined.1.isSome_cut?

/-- In front of a parenthesis that closes none, a normalised text is cut at the operators of sums,
and behind it at any operator. -/
theorem isSome_cut?_stray {front back : List Char} (hfront : Closed front) :
    (cut? (Rank.sum.wrap front ++ ')' :: (spreadAll back ++ [')', ')']))).isSome =
      (severs false 0 front || (cut? back).isSome) := by
  have hlays := (lays_layout hfront (Nat.le_refl (nestingDepth front))).1
  generalize nestingDepth front = depth, layout front = l at hlays
  cases hlays with
  | @loose _ a b op l r hop ha hb =>
    rw [ha.severs_loose hop, ha.isSome_cut?_loose hop]
    rfl
  | product h =>
    have hsolid : Solid (Rank.sum.wrap front) := by
      rw [Rank.wrap_sum]
      exact solid_group h.joined.1.closed
    rw [h.severs_false (by simp), hsolid.cut?_append, Option.isSome_map,
      isSome_cut?_cons (by decide) rfl, isSome_cut?_spreadAll, Bool.false_or]

/-- A text with a parenthesis that closes none is no group. -/
theorem group?_stray (ha : Closed a) : group? (a ++ ')' :: b) = none := by
  cases hgroup : group? (a ++ ')' :: b) with
  | none => rfl
  | some inner =>
    obtain ⟨htext, hinner⟩ := group?_eq_some_iff.1 hgroup
    have hopen := hinner.group
    rw [← htext] at hopen
    unfold Closed at hopen
    rw [openAfter_append ha] at hopen
    cases hopen

end

end Spreadsheet.Textual
