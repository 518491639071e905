import Mathlib
import Spreadsheet.Proofs.Bytes
import Spreadsheet.Proofs.Places
/-!
# The first operator

The search for the first operator goes from each opening parenthesis straight to
the one that closes it. It finds what a scan finds that counts the open
parentheses byte by byte, also in texts whose parentheses do not match:
`firstOperator_isLeast`. No byte of an operator or a parenthesis is part of
another character, so what is found is where a character begins.
-/

namespace Spreadsheet.Textual

open Csv (byte)

/-! ## Counting by bytes -/

/-- How many parentheses are open behind a byte if `depth` are open before it. A closing one too
many is passed over. -/
def depthPast (depth : Nat) (b : UInt8) : Nat :=
  if b = byte '(' then depth + 1 else if b = byte ')' then depth - 1 else depth

/-- How many parentheses are open behind bytes. -/
def openDepth (bytes : List UInt8) : Nat := bytes.foldl depthPast 0

/-- The byte at the position stands for an operator, and no parenthesis is open before it. -/
def OutsideAt (bytes : List UInt8) (i : Nat) : Prop :=
  (∃ op : Operator, bytes[i]? = some (byte op.symbol)) ∧ openDepth (bytes.take i) = 0

section
variable {c : Char} {op : Operator} {depth i : Nat} {a b text : List Char} {bytes : List UInt8}

theorem isAscii_symbol (op : Operator) : IsAscii op.symbol := by cases op <;> decide

theorem depthPast_of_plain (hc : IsPlain c) {b : UInt8} (hb : b ∈ String.utf8EncodeChar c) :
    depthPast depth b = depth := by
  have hopen : b ≠ byte '(' := by
    rintro rfl
    exact byte_notMem_utf8EncodeChar (by decide) hc.1 hb
  have hclose : b ≠ byte ')' := by
    rintro rfl
    exact byte_notMem_utf8EncodeChar (by decide) hc.2 hb
  rw [depthPast, if_neg hopen, if_neg hclose]

theorem foldl_depthPast_of_plain (hc : IsPlain c)
    (hbytes : ∀ b ∈ bytes, b ∈ String.utf8EncodeChar c) :
    bytes.foldl depthPast depth = depth := by
  induction bytes with
  | nil => rfl
  | cons b bytes ih =>
    obtain ⟨hb, hbytes⟩ := List.forall_mem_cons.1 hbytes
    rw [List.foldl_cons, depthPast_of_plain hc hb, ih hbytes]

/-- Counting the bytes of a text is counting its characters. -/
theorem foldl_depthPast_utf8 : (utf8 a).foldl depthPast depth = a.foldl depthBehind depth := by
  induction a generalizing depth with
  | nil => rfl
  | cons c a ih =>
    rw [utf8_cons, List.foldl_append, List.foldl_cons, ih]
    congr 1
    rcases open_or_close_or_plain c with rfl | rfl | hc
    · rfl
    · rfl
    · rw [foldl_depthPast_of_plain hc fun _ h => h, depthBehind.eq_3 depth c hc.1 hc.2]

/-- Where the byte of a character of ASCII stands, the character stands. -/
theorem exists_of_getElem?_utf8 (hc : IsAscii c) (h : (utf8 text)[i]? = some (byte c)) :
    ∃ a b, text = a ++ c :: b ∧ (utf8 a).length = i := by
  induction text generalizing i with
  | nil => cases h
  | cons d text ih =>
    rw [utf8_cons] at h
    by_cases hi : i < (String.utf8EncodeChar d).length
    · rw [List.getElem?_append_left hi] at h
      by_cases hd : d = c
      · subst hd
        rw [utf8EncodeChar_ascii hc] at hi
        exact ⟨[], text, rfl, (Nat.lt_one_iff.1 hi).symm⟩
      · exact absurd (List.mem_of_getElem? h) (byte_notMem_utf8EncodeChar hc hd)
    · rw [List.getElem?_append_right (Nat.le_of_not_lt hi)] at h
      obtain ⟨a, b, rfl, ha⟩ := ih h
      refine ⟨d :: a, b, rfl, ?_⟩
      rw [utf8_cons, List.length_append, ha]
      omega

/-- An operator outside parentheses is one of the characters of the text. -/
theorem outsideAt_utf8_iff : OutsideAt (utf8 text) i ↔ ∃ a, ∃ op : Operator, ∃ b,
    text = a ++ op.symbol :: b ∧ a.foldl depthBehind 0 = 0 ∧ (utf8 a).length = i := by
  constructor
  · rintro ⟨⟨op, hop⟩, hdepth⟩
    obtain ⟨a, b, rfl, rfl⟩ := exists_of_getElem?_utf8 (isAscii_symbol op) hop
    rw [utf8_append, List.take_left, openDepth, foldl_depthPast_utf8] at hdepth
    exact ⟨a, op, b, rfl, hdepth, rfl⟩
  · rintro ⟨a, op, b, rfl, hdepth, rfl⟩
    refine ⟨⟨op, ?_⟩, ?_⟩
    · rw [utf8_append, List.getElem?_append_right (Nat.le_refl _), Nat.sub_self, utf8_cons,
        utf8EncodeChar_ascii (isAscii_symbol op)]
      rfl
    · rw [utf8_append, List.take_left, openDepth, foldl_depthPast_utf8, hdepth]

/-! ## Where a text is cut -/

/-- A text is cut if an operator stands outside parentheses. -/
theorem severs_true_iff : severs true depth text ↔
    ∃ a, ∃ op : Operator, ∃ b, text = a ++ op.symbol :: b ∧
      a.foldl depthBehind depth = 0 := by
  induction text generalizing depth with
  | nil => simp [severs]
  | cons c text ih =>
    simp only [severs, Bool.true_or, Bool.or_eq_true, Bool.and_eq_true, decide_eq_true_eq, ih]
    constructor
    · rintro (⟨rfl, hop⟩ | ⟨a, op, b, rfl, hdepth⟩)
      · cases hofChar : Operator.ofChar? c with
        | none =>
          rw [hofChar] at hop
          cases hop
        | some op =>
          rw [symbol_of_ofChar? hofChar]
          exact ⟨[], op, text, rfl, rfl⟩
      · exact ⟨c :: a, op, b, rfl, hdepth⟩
    · rintro ⟨a, op, b, htext, hdepth⟩
      cases a with
      | nil =>
        cases htext
        refine .inl ⟨hdepth, ?_⟩
        rw [ofChar?_symbol]
        rfl
      | cons d a =>
        cases htext
        exact .inr ⟨a, op, b, rfl, hdepth⟩

/-- What a search passes over has no operator outside parentheses. -/
theorem Passed.not_outside (h : Passed (a ++ op.symbol :: b)) :
    a.foldl depthBehind 0 ≠ 0 := by
  intro hdepth
  have hsevers := severs_true_iff.2 ⟨a, op, b, rfl, hdepth⟩
  rw [severs_true, h.cut?_eq_none] at hsevers
  cases hsevers

theorem firstOperator_eq_none_iff :
    firstOperator text = none ↔ ∀ i, ¬ OutsideAt (utf8 text) i := by
  have hcut : firstOperator text = none ↔ ¬ severs true 0 text := by
    rw [firstOperator, Option.map_eq_none_iff, severs_true, Bool.not_eq_true,
      Option.isSome_eq_false_iff, Option.isNone_iff_eq_none]
  rw [hcut, severs_true_iff]
  constructor
  · intro h i hi
    obtain ⟨a, op, b, htext, hdepth, -⟩ := outsideAt_utf8_iff.1 hi
    exact h ⟨a, op, b, htext, hdepth⟩
  · rintro h ⟨a, op, b, htext, hdepth⟩
    exact h _ (outsideAt_utf8_iff.2 ⟨a, op, b, htext, hdepth, rfl⟩)

/-- What the search finds stands outside parentheses, and nothing before it does. -/
theorem isLeast_of_firstOperator (h : firstOperator text = some i) :
    IsLeast {i | OutsideAt (utf8 text) i} i := by
  obtain ⟨⟨a, op, b⟩, hcut, hi⟩ := Option.map_eq_some_iff.1 h
  obtain ⟨rfl, ha⟩ := cut?_eq_some_iff.1 hcut
  change byteLength a = i at hi
  rw [← length_utf8] at hi
  refine ⟨outsideAt_utf8_iff.2 ⟨a, op, b, rfl, ha.depthBehind_eq, hi⟩, fun j hj => ?_⟩
  obtain ⟨a', op', b', htext, hdepth, hj⟩ := outsideAt_utf8_iff.1 hj
  rcases split_at htext with ⟨x, rfl, -⟩ | ⟨x, rfl, -⟩
  · -- The other operator stands behind the first one, or is the same.
    rw [← hi, ← hj, utf8_append, List.length_append]
    exact Nat.le_add_right _ _
  · exact absurd hdepth ha.not_outside

/-! ## Nesting -/

/-- The depths behind the first bytes, however many, if `depth` parentheses are open before. -/
def depths (depth : Nat) (bytes : List UInt8) : Set Nat :=
  Set.range fun i => (bytes.take i).foldl depthPast depth

theorem depths_cons {b : UInt8} :
    depths depth (b :: bytes) = insert depth (depths (depthPast depth b) bytes) := by
  ext n
  constructor
  · rintro ⟨i, rfl⟩
    cases i with
    | zero => exact .inl rfl
    | succ i => exact .inr ⟨i, rfl⟩
  · rintro (rfl | ⟨i, rfl⟩)
    · exact ⟨0, rfl⟩
    · exact ⟨i + 1, rfl⟩

theorem mem_depths_self : depth ∈ depths depth bytes := ⟨0, rfl⟩

theorem depths_append_of_plain {front : List UInt8} (hc : IsPlain c)
    (hfront : ∀ b ∈ front, b ∈ String.utf8EncodeChar c) :
    depths depth (front ++ bytes) = depths depth bytes := by
  induction front with
  | nil => rfl
  | cons b front ih =>
    obtain ⟨hb, hfront⟩ := List.forall_mem_cons.1 hfront
    rw [List.cons_append, depths_cons, depthPast_of_plain hc hb, ih hfront,
      Set.insert_eq_of_mem mem_depths_self]

/-- The deepest nesting is the greatest number of parentheses that are open anywhere. -/
theorem isGreatest_nestingFrom : IsGreatest (depths depth (utf8 text)) (nestingFrom depth text) := by
  induction text generalizing depth with
  | nil => simp [depths, utf8, nestingFrom, IsGreatest, upperBounds]
  | cons c text ih =>
    rw [utf8_cons]
    rcases open_or_close_or_plain c with rfl | rfl | hc
    · exact depths_cons ▸ ih.insert depth
    · exact depths_cons ▸ ih.insert depth
    · rw [depths_append_of_plain hc fun _ h => h, nestingFrom_plain hc]
      exact ih

end

/-! ## The search and the scan -/

/-- The search finds the first byte of an operator at which no parenthesis is open, counting them as
for the nesting of a text, and nothing if there is none. A character begins there. -/
theorem firstOperator_isLeast (text : List Char) :
    (∀ i, firstOperator text = some i ↔ IsLeast {i | OutsideAt (utf8 text) i} i) ∧
      (firstOperator text = none ↔ ∀ i, ¬ OutsideAt (utf8 text) i) ∧
      (∀ i, firstOperator text = some i → String.Pos.Raw.IsValid (String.ofList text) ⟨i⟩) ∧
      IsGreatest (Set.range fun i => openDepth ((utf8 text).take i)) (nestingDepth text) := by
  refine ⟨fun i => ⟨isLeast_of_firstOperator, fun h => ?_⟩, firstOperator_eq_none_iff, ?_,
    isGreatest_nestingFrom⟩
  · cases hfound : firstOperator text with
    | none => exact absurd h.1 (firstOperator_eq_none_iff.1 hfound i)
    | some j => rw [(isLeast_of_firstOperator hfound).unique h]
  · intro i h
    obtain ⟨a, op, b, rfl, -, rfl⟩ := outsideAt_utf8_iff.1 (isLeast_of_firstOperator h).1
    rw [String.Pos.Raw.isValid_iff_exists_append]
    refine ⟨String.ofList a, String.ofList (op.symbol :: b), String.ofList_append, ?_⟩
    have hsize : (String.ofList a).utf8ByteSize = (utf8 a).length := by
      rw [String.utf8ByteSize, String.toByteArray_ofList]
      exact List.size_toByteArray
    rw [String.rawEndPos, hsize]

/-- A closing parenthesis that closes none is passed over, a letter of two bytes counts as two, and
what stands in a group does not count. -/
theorem firstOperator_isLeast_stray :
    let text := ")ß(1+2)-3".toList
    firstOperator text = some 8 ∧ IsLeast {i | OutsideAt (utf8 text) i} 8 ∧
      String.Pos.Raw.IsValid (String.ofList text) ⟨8⟩ := by
  intro text
  obtain ⟨hleast, -, hvalid, -⟩ := firstOperator_isLeast text
  have hfound : firstOperator text = some 8 := by decide +kernel
  exact ⟨hfound, (hleast 8).1 hfound, hvalid 8 hfound⟩

end Spreadsheet.Textual
