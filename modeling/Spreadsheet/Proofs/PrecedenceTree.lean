import Mathlib.Data.List.Infix
import Spreadsheet.Proofs.Precedence
/-!
# The precedence tree of a text

The layout of a text can be computed: a text is cut at its last plus or minus
outside parentheses, or else at its last operator there, and a group is opened.
Where the parentheses match, the text has the layout computed, `lays_layout`. So
reducing the normalised text makes the calls of that tree, in the order of its
nodes, each operator after what it joins: `reduce_normalize`.
-/

namespace Spreadsheet.Textual

/-! ## Closed texts -/

section
variable {depth depth' k : Nat} {a b text inner : List Char}

theorem exists_openAfter_of_append (h : openAfter depth (a ++ b) = some depth') :
    ∃ k, openAfter depth a = some k ∧ openAfter k b = some depth' := by
  induction a generalizing depth with
  | nil => exact ⟨depth, rfl, h⟩
  | cons c a ih =>
    rw [List.cons_append] at h
    rcases openAfter_cons_cases h with ⟨rfl, h'⟩ | ⟨d, rfl, rfl, h'⟩ | ⟨hc, h'⟩
    · exact ih h'
    · exact ih h'
    · rw [openAfter_plain hc]
      exact ih h'

/-- No front of the text closes more parentheses than are open, and the whole ends with as many
open as are left. -/
theorem openAfter_eq_some_iff : openAfter depth text = some depth' ↔
    (∀ front, front <+: text → front.count ')' ≤ depth + front.count '(') ∧
      depth + text.count '(' = depth' + text.count ')' := by
  constructor
  · intro h
    refine ⟨?_, count_of_openAfter h⟩
    rintro front ⟨rest, rfl⟩
    obtain ⟨k, hfront, -⟩ := exists_openAfter_of_append h
    rw [count_of_openAfter hfront]
    exact Nat.le_add_left _ _
  · rintro ⟨hfront, htotal⟩
    induction text generalizing depth with
    | nil => exact congrArg some htotal
    | cons c text ih =>
      have htail : ∀ front, front <+: text →
          (c :: front).count ')' ≤ depth + (c :: front).count '(' :=
        fun front h => hfront _ (List.cons_prefix_cons.2 ⟨rfl, h⟩)
      have hne : '(' ≠ ')' := by decide
      by_cases hopen : c = '('
      · subst hopen
        simp only [List.count_cons_self, List.count_cons_of_ne hne] at htail htotal
        refine ih (fun front h => ?_) (by omega)
        have := htail front h
        omega
      · by_cases hclose : c = ')'
        · subst hclose
          simp only [List.count_cons_self, List.count_cons_of_ne hne.symm] at htail htotal
          have hpos : 1 ≤ depth := by simpa using htail [] List.nil_prefix
          obtain ⟨d, rfl⟩ := Nat.exists_eq_add_of_le' hpos
          refine ih (fun front h => ?_) (by omega)
          have := htail front h
          omega
        · simp only [List.count_cons_of_ne hopen, List.count_cons_of_ne hclose] at htail htotal
          rw [openAfter_plain ⟨hopen, hclose⟩]
          exact ih htail htotal

/-- Where all open parentheses are closed, one closes the last of them but `depth`. -/
theorem exists_closing (h : openAfter (depth + 1) text = some 0) :
    ∃ inner rest, text = inner ++ ')' :: rest ∧ openAfter depth inner = some 0 ∧ Closed rest := by
  induction text generalizing depth with
  | nil => cases h
  | cons c text ih =>
    rcases openAfter_cons_cases h with ⟨rfl, h'⟩ | ⟨d, rfl, hd, h'⟩ | ⟨hc, h'⟩
    · obtain ⟨inner, rest, rfl, hinner, hrest⟩ := ih h'
      exact ⟨'(' :: inner, rest, rfl, hinner, hrest⟩
    · cases depth with
      | zero =>
        obtain rfl : d = 0 := by omega
        exact ⟨[], text, rfl, rfl, h'⟩
      | succ depth =>
        obtain rfl : d = depth + 1 := by omega
        obtain ⟨inner, rest, rfl, hinner, hrest⟩ := ih h'
        exact ⟨')' :: inner, rest, rfl, hinner, hrest⟩
    · obtain ⟨inner, rest, rfl, hinner, hrest⟩ := ih h'
      exact ⟨c :: inner, rest, rfl, (openAfter_plain hc).trans hinner, hrest⟩

end

/-! ## The last operator -/

/-- How many parentheses are open behind a character if `depth` are open before it. -/
def depthBehind (depth : Nat) : Char → Nat
  | '(' => depth + 1
  | ')' => depth - 1
  | _ => depth

/-- The text before and after its last operator of a kind outside parentheses, if `depth` are open
before it, and that operator. -/
def cutLast? (kind : Operator → Bool) (depth : Nat) :
    List Char → Option (List Char × Operator × List Char)
  | [] => none
  | c :: rest =>
    match cutLast? kind (depthBehind depth c) rest with
    | some (before, op, after) => some (c :: before, op, after)
    | none =>
      if depth = 0 then ((Operator.ofChar? c).filter kind).map fun op => ([], op, rest) else none

section
variable {kind : Operator → Bool} {depth depth' : Nat} {op : Operator} {a b text : List Char}

theorem openAfter_cons {c : Char} {rest : List Char} (h : openAfter depth (c :: rest) = some depth')
    (text : List Char) : openAfter depth (c :: text) = openAfter (depthBehind depth c) text := by
  rcases openAfter_cons_cases h with ⟨rfl, -⟩ | ⟨d, rfl, rfl, -⟩ | ⟨hc, -⟩
  · rfl
  · rfl
  · rw [openAfter_plain hc, depthBehind.eq_3 depth c hc.1 hc.2]

/-- A text is cut at an operator of the kind behind which there is no other. -/
theorem cutLast?_eq_some (h : cutLast? kind depth text = some (a, op, b)) :
    text = a ++ op.symbol :: b ∧ kind op ∧ cutLast? kind 0 b = none := by
  induction text generalizing depth a with
  | nil => cases h
  | cons c rest ih =>
    rw [cutLast?] at h
    split at h
    · rename_i before op' after hrest
      cases h
      obtain ⟨rfl, hkind, hb⟩ := ih hrest
      exact ⟨rfl, hkind, hb⟩
    · rename_i hrest
      split at h
      · rename_i hdepth
        obtain ⟨op', hop', heq⟩ := Option.map_eq_some_iff.1 h
        obtain ⟨hchar, hkind⟩ := Option.filter_eq_some_iff.1 hop'
        cases heq
        obtain rfl := symbol_of_ofChar? hchar
        have hbehind : depthBehind depth op.symbol = 0 := by
          rw [hdepth]
          cases op <;> rfl
        rw [hbehind] at hrest
        exact ⟨rfl, hkind, hrest⟩
      · cases h

theorem length_lt_of_cutLast? (h : cutLast? kind depth text = some (a, op, b)) :
    a.length < text.length ∧ b.length < text.length := by
  rw [(cutLast?_eq_some h).1]
  simp only [List.length_append, List.length_cons]
  omega

/-- All that is open before the operator that a text is cut at has been closed. -/
theorem openAfter_of_cutLast? (h : cutLast? kind depth text = some (a, op, b))
    (hopen : openAfter depth text = some depth') : openAfter depth a = some 0 := by
  induction text generalizing depth a with
  | nil => cases h
  | cons c rest ih =>
    have hcons := openAfter_cons hopen
    rw [cutLast?] at h
    split at h
    · rename_i before op' after hrest
      cases h
      rw [hcons] at hopen ⊢
      exact ih hrest hopen
    · split at h
      · rename_i hdepth
        obtain ⟨op', -, heq⟩ := Option.map_eq_some_iff.1 h
        cases heq
        exact congrArg some hdepth
      · cases h

theorem Closed.of_cutLast? (hclosed : Closed text) (h : cutLast? kind 0 text = some (a, op, b)) :
    Closed a ∧ Closed b := by
  have ha : Closed a := openAfter_of_cutLast? h hclosed
  obtain ⟨rfl, -, -⟩ := cutLast?_eq_some h
  unfold Closed at hclosed
  rw [openAfter_append ha, openAfter_plain (isPlain_symbol op)] at hclosed
  exact ⟨ha, hclosed⟩

theorem cutLast?_left (h : cutLast? kind depth (a ++ b) = none) : cutLast? kind depth a = none := by
  induction a generalizing depth with
  | nil => rfl
  | cons c a ih =>
    rw [List.cons_append, cutLast?] at h
    split at h
    · cases h
    · rename_i hrest
      rw [cutLast?, ih hrest]
      split at h <;> simp_all

theorem cutLast?_right (h : cutLast? kind depth (a ++ b) = none)
    (hopen : openAfter depth a = some depth') : cutLast? kind depth' b = none := by
  induction a generalizing depth with
  | nil =>
    cases hopen
    exact h
  | cons c a ih =>
    rw [List.cons_append, cutLast?] at h
    rw [openAfter_cons hopen] at hopen
    split at h
    · cases h
    · rename_i hrest
      exact ih hrest hopen

/-- A text is cut if one of its operators of the kind stands outside parentheses. -/
theorem cutLast?_operator (h : cutLast? kind 0 (a ++ op.symbol :: b) = none) (ha : Closed a) :
    kind op = false := by
  have hop := cutLast?_right h ha
  rw [cutLast?, ofChar?_symbol] at hop
  split at hop
  · cases hop
  · simpa using hop

/-- A closed text that cannot be cut is solid. -/
theorem Closed.solid (hclosed : Closed text) (h : cutLast? (fun _ => true) 0 text = none) :
    Solid text := by
  induction hlength : text.length using Nat.strongRecOn generalizing text with
  | ind n ih =>
    subst hlength
    cases text with
    | nil => exact .nil
    | cons c rest =>
      rcases openAfter_cons_cases hclosed with ⟨rfl, hrest⟩ | ⟨d, -, hd, -⟩ | ⟨hc, hrest⟩
      · obtain ⟨inner, rest, rfl, hinner, hrest⟩ := exists_closing hrest
        have hgroup : '(' :: (inner ++ ')' :: rest) = ('(' :: inner ++ [')']) ++ rest := by simp
        rw [hgroup] at h
        have hcut := cutLast?_right h (Closed.group hinner)
        exact .group hinner (ih _ (by simp; omega) hrest hcut rfl)
      · cases hd
      · have hop : Operator.ofChar? c = none := by
          cases hop : Operator.ofChar? c with
          | none => rfl
          | some op =>
            rw [cutLast?, hop] at h
            split at h <;> cases h
        exact .char hc hop (ih _ (Nat.lt_succ_self _) hrest
          (cutLast?_right (a := [c]) h (openAfter_plain hc)) rfl)

end

/-! ## The tree -/

/-- The operator binds less tightly than the others. -/
def isLoose (op : Operator) : Bool := op = .add || op = .subtract

/-- The text inside its parentheses, if one pair of them encloses the whole. -/
def enclosed? : List Char → Option (List Char)
  | '(' :: rest =>
    if rest.getLast? = some ')' ∧ openAfter 0 rest.dropLast = some 0 then some rest.dropLast
    else none
  | _ => none

theorem enclosed?_eq_some_iff {text inner : List Char} :
    enclosed? text = some inner ↔ text = '(' :: inner ++ [')'] ∧ Closed inner := by
  constructor
  · intro h
    unfold enclosed? at h
    split at h
    · split at h
      · rename_i hlast
        cases h
        obtain ⟨front, rfl⟩ := List.getLast?_eq_some_iff.1 hlast.1
        rw [List.dropLast_concat] at hlast ⊢
        exact ⟨rfl, hlast.2⟩
      · cases h
    · cases h
  · rintro ⟨rfl, hinner⟩
    rw [List.cons_append, enclosed?, List.dropLast_concat, if_pos ⟨List.getLast?_concat, hinner⟩]

theorem length_lt_of_enclosed? {text inner : List Char} (h : enclosed? text = some inner) :
    inner.length < text.length := by
  rw [(enclosed?_eq_some_iff.1 h).1]
  simp only [List.length_append, List.length_cons]
  omega

/-- A solid text that is not enclosed is no group. -/
theorem Solid.group?_eq_none {text : List Char} (hsolid : Solid text) (h : enclosed? text = none) :
    group? text = none := by
  cases hsolid with
  | nil => rfl
  | char hc _ _ => exact group?_of_head fun hhead => hc.1 (Option.some.inj hhead)
  | @group inner rest hinner _ =>
    refine group?_of_append hinner ?_
    rintro rfl
    have hsome : enclosed? ('(' :: (inner ++ [')'])) = some inner :=
      enclosed?_eq_some_iff.2 ⟨rfl, hinner⟩
    rw [hsome] at h
    cases h

/-- The precedence tree of a text: it is cut at its last loose operator outside parentheses, or
else at its last operator there. A text that is a single group has the tree of what is inside, and
any other is a leaf. -/
def layout (text : List Char) : Layout :=
  match _ : cutLast? isLoose 0 text with
  | some (before, op, after) => .join op (layout before) (layout after)
  | none =>
    match _ : cutLast? (fun _ => true) 0 text with
    | some (before, op, after) => .join op (layout before) (layout after)
    | none =>
      match _ : enclosed? text with
      | some inner => layout inner
      | none => .leaf text
termination_by text.length
decreasing_by
  · exact (length_lt_of_cutLast? ‹_›).1
  · exact (length_lt_of_cutLast? ‹_›).2
  · exact (length_lt_of_cutLast? ‹_›).1
  · exact (length_lt_of_cutLast? ‹_›).2
  · exact length_lt_of_enclosed? ‹_›

theorem nestingDepth_operator {a b : List Char} {op : Operator} (ha : Closed a) :
    nestingDepth (a ++ op.symbol :: b) = max (nestingDepth a) (nestingDepth b) := by
  rw [nestingDepth_append ha]
  congr 1
  exact nestingFrom_plain (isPlain_symbol op)

/-- A closed text has the layout computed for it, as a product if it cannot be cut at a loose
operator, and as a factor if it cannot be cut at all. -/
theorem lays_layout {depth : Nat} {text : List Char} (hclosed : Closed text)
    (hdepth : nestingDepth text ≤ depth) :
    Lays depth .sum text (layout text) ∧
      (cutLast? isLoose 0 text = none → Lays depth .product text (layout text)) ∧
      (cutLast? (fun _ => true) 0 text = none → Lays depth .factor text (layout text)) := by
  fun_induction layout text generalizing depth with
  | case1 text before op after h ihbefore ihafter =>
    obtain ⟨hbefore, hafter⟩ := hclosed.of_cutLast? h
    obtain ⟨rfl, hop, hnone⟩ := cutLast?_eq_some h
    rw [nestingDepth_operator hbefore, Nat.max_le] at hdepth
    refine ⟨?_, fun hloose => ?_, fun hall => ?_⟩
    · exact .loose (by simpa [isLoose] using hop) (ihbefore hbefore hdepth.1).1
        ((ihafter hafter hdepth.2).2.1 hnone)
    · rw [hloose] at h
      cases h
    · cases cutLast?_operator hall hbefore
  | case2 text hloose before op after h ihbefore ihafter =>
    obtain ⟨hbefore, hafter⟩ := hclosed.of_cutLast? h
    obtain ⟨rfl, -, hnone⟩ := cutLast?_eq_some h
    rw [nestingDepth_operator hbefore, Nat.max_le] at hdepth
    have hop : op = .multiply ∨ op = .divide := by
      have hnot := cutLast?_operator hloose hbefore
      cases op <;> first | exact .inl rfl | exact .inr rfl | cases hnot
    have hproduct : Lays depth .product (before ++ op.symbol :: after)
        (.join op (layout before) (layout after)) :=
      .tight hop ((ihbefore hbefore hdepth.1).2.1 (cutLast?_left hloose))
        ((ihafter hafter hdepth.2).2.2 hnone)
    refine ⟨.product hproduct, fun _ => hproduct, fun hall => ?_⟩
    rw [hall] at h
    cases h
  | case3 text hloose hall inner h ih =>
    obtain ⟨rfl, hinner⟩ := enclosed?_eq_some_iff.1 h
    rw [nestingDepth_group hinner] at hdepth
    obtain ⟨depth, rfl⟩ := Nat.exists_eq_add_of_le' (Nat.le_of_add_left_le hdepth)
    have hgroup : Lays (depth + 1) .factor ('(' :: inner ++ [')']) (layout inner) :=
      .group hinner (ih hinner (Nat.le_of_succ_le_succ hdepth)).1
    exact ⟨.product (.factor hgroup), fun _ => .factor hgroup, fun _ => hgroup⟩
  | case4 text hloose hall h =>
    have hsolid := hclosed.solid hall
    have hleaf : Lays depth .factor text (.leaf text) := .leaf hsolid (hsolid.group?_eq_none h)
    exact ⟨.product (.factor hleaf), fun _ => .factor hleaf, fun _ => hleaf⟩

/-! ## Reduction -/

section
variable {m : Type → Type} [Monad m] [LawfulMonad m]

/-- Reducing a normalised text evaluates its precedence tree in post-order: each leaf is handed on
once, from left to right, in a form that is restored to just that leaf, and each operator joins the
values on both of its sides as soon as it has them. -/
theorem reduce_normalize (operand : List Char → m Value)
    (combine : Operator → Value → Value → m Value) {body : List Char}
    (hfront : ∀ front, front <+: body → front.count ')' ≤ front.count '(')
    (htotal : body.count '(' = body.count ')') (hdepth : nestingDepth body ≤ nestingLimit) :
    reduce operand combine (normalize body) = (layout body).fold operand combine ∧
      ∀ leaf, restore (spreadAll leaf) = leaf := by
  have hclosed : Closed body := openAfter_eq_some_iff.2
    ⟨fun front h => Nat.le_add_left_of_le (hfront front h), by rw [htotal]⟩
  exact ⟨reduce_of_lays hclosed (lays_layout hclosed hdepth).1, restore_spreadAll⟩

end

/-- Notes what is handed over, and has it as a text for value. -/
def note (s : String) : StateM (List String) Value := fun notes => (.text s, notes ++ [s])

/-- The calls for a text with a product, a call and a group are its operands and operators in
reverse Polish order. -/
theorem reduce_normalize_notes :
    let body := "8/2-f(1+2)*(a-b)-".toList
    (∀ front, front <+: body → front.count ')' ≤ front.count '(') ∧
      body.count '(' = body.count ')' ∧ nestingDepth body ≤ nestingLimit ∧
      ((reduce (fun text => note (String.ofList (restore text)))
          (fun op _ _ => note op.symbol.toString) (normalize body)).run [] |>.run) =
        (.text "-", ["8", "2", "/", "f(1+2)", "a", "b", "-", "*", "-", "", "-"]) := by
  have hfront : ∀ front ∈ "8/2-f(1+2)*(a-b)-".toList.inits, front.count ')' ≤ front.count '(' := by
    decide
  have hfronts := fun front h => hfront front ((List.mem_inits _ _).2 h)
  refine ⟨hfronts, by decide, by decide, ?_⟩
  rw [(reduce_normalize _ _ hfronts (by decide) (by decide)).1]
  decide +kernel

end Spreadsheet.Textual
