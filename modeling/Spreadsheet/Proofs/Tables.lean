import Mathlib
import Spreadsheet.CommandLine
import Spreadsheet.Proofs.Records
import Spreadsheet.Proofs.UpToDate
/-!
# Tables read back

A grid made from rows of texts holds each text where it stands, as one cell is
written after the other and none is written twice: `gridOfRows_eq_ok`. As the
rows that are written as CSV are those that are read, a table of texts is read
back as a grid of its own size that holds just these texts: `readGrid_write`.
-/

namespace Spreadsheet

/-! ## Writing to the cells of a grid -/

namespace Grid

section
variable {g : Grid} {row column : Nat} {text : String}

/-- Writing inside the grid changes one cell and nothing else. -/
theorem setAt_eq_ok (g : Grid) (text : String) (hrow : row < g.rows)
    (hcolumn : column < g.columns) :
    ∃ g', g.setAt row column text = .ok g' ∧ g'.rows = g.rows ∧ g'.columns = g.columns ∧
      ∀ r c, g'.contentAt r c = if r = row ∧ c = column then text else g.contentAt r c := by
  obtain ⟨cell, hcell⟩ := exists_cellAt hrow hcolumn
  refine ⟨g.put cell text, ?_, ?_, ?_, fun r c => ?_⟩
  · rw [setAt, hcell]
    rfl
  · unfold put
    split <;> rfl
  · unfold put
    split <;> rfl
  · unfold contentAt
    rw [cellAt_put]
    cases hother : g.cellAt r c with
    | error e =>
      dsimp only
      rw [if_neg]
      rintro ⟨rfl, rfl⟩
      rw [hcell] at hother
      cases hother
    | ok other =>
      obtain ⟨-, rfl, rfl⟩ := cellAt_eq_ok_iff.1 hother
      obtain ⟨-, rfl, rfl⟩ := cellAt_eq_ok_iff.1 hcell
      have hsame : cell = other ↔
          other.row.val = cell.row.val ∧ other.column.val = cell.column.val := by
        rw [Cell.mk.injEq, Fin.ext_iff, Fin.ext_iff, eq_comm, @eq_comm _ cell.column.val]
      simp only [content_put, hsame]

/-- A grid is empty at first. -/
theorem ofSize_eq_ok {rows columns : Nat} (hrows : 0 < rows ∧ rows ≤ rowLimit)
    (hcolumns : 0 < columns ∧ columns ≤ columnLimit) :
    ∃ g, ofSize rows columns = .ok g ∧ g.rows = rows ∧ g.columns = columns ∧
      ∀ r c, g.contentAt r c = "" := by
  refine ⟨_, dif_pos ⟨hrows, hcolumns⟩, rfl, rfl, fun r c => ?_⟩
  unfold contentAt
  split
  · rfl
  · rfl

end

end Grid

/-! ## Grids made from rows -/

namespace CommandLine

section
variable {fields : List String} {rows : List (List String)} {row column : Nat}

/-- Writing a row into a grid, from a column on. -/
theorem foldlM_row (g : Grid) (hrow : row < g.rows)
    (hcolumns : column + fields.length ≤ g.columns) :
    ∃ g', ((fields.zipIdx column).foldlM
        (fun g p => (g.setAt row p.2 p.1).mapError .badAddress) g :
        Except CommandError Grid) = .ok g' ∧ g'.rows = g.rows ∧ g'.columns = g.columns ∧
      ∀ r c, g'.contentAt r c =
        if r = row ∧ column ≤ c then fields[c - column]?.getD (g.contentAt r c)
        else g.contentAt r c := by
  induction fields generalizing g column with
  | nil => exact ⟨g, rfl, rfl, rfl, fun r c => by simp⟩
  | cons text fields ih =>
    rw [List.length_cons] at hcolumns
    obtain ⟨g₁, hset, hrows₁, hcolumns₁, hcontent₁⟩ :=
      g.setAt_eq_ok text hrow (show column < g.columns by omega)
    obtain ⟨g₂, hrest, hrows₂, hcolumns₂, hcontent₂⟩ :=
      @ih (column + 1) g₁ (hrows₁ ▸ hrow) (by omega)
    refine ⟨g₂, ?_, hrows₂.trans hrows₁, hcolumns₂.trans hcolumns₁, fun r c => ?_⟩
    · rw [List.zipIdx_cons, List.foldlM_cons, hset]
      exact hrest
    · rw [hcontent₂, hcontent₁]
      rcases Nat.lt_trichotomy c column with hc | rfl | hc
      · rw [if_neg (by omega), if_neg (by omega), if_neg (by omega)]
      · rw [if_neg (by omega), Nat.sub_self]
        simp
      · have hindex : c - column = c - (column + 1) + 1 := by omega
        rw [hindex, List.getElem?_cons_succ, if_neg (show ¬ (r = row ∧ c = column) by omega)]
        simp only [hc, hc.le, Nat.succ_le_of_lt]

/-- Writing rows into a grid, from a row on. -/
theorem foldlM_rows (g : Grid) (hrows : row + rows.length ≤ g.rows)
    (hcolumns : ∀ fields ∈ rows, fields.length ≤ g.columns) :
    ∃ g', ((rows.zipIdx row).foldlM (fun g p => p.1.zipIdx.foldlM
        (fun g q => (g.setAt p.2 q.2 q.1).mapError .badAddress) g) g :
        Except CommandError Grid) = .ok g' ∧ g'.rows = g.rows ∧ g'.columns = g.columns ∧
      ∀ r c, g'.contentAt r c =
        if row ≤ r then (rows[r - row]?.bind (·[c]?)).getD (g.contentAt r c)
        else g.contentAt r c := by
  induction rows generalizing g row with
  | nil => exact ⟨g, rfl, rfl, rfl, fun r c => by simp⟩
  | cons fields rows ih =>
    rw [List.length_cons] at hrows
    obtain ⟨hfields, hcolumns⟩ := List.forall_mem_cons.1 hcolumns
    obtain ⟨g₁, hrow, hrows₁, hcolumns₁, hcontent₁⟩ :=
      @foldlM_row fields row 0 g (by omega) (by omega)
    obtain ⟨g₂, hrest, hrows₂, hcolumns₂, hcontent₂⟩ :=
      @ih (row + 1) g₁ (by omega) (hcolumns₁ ▸ hcolumns)
    refine ⟨g₂, ?_, hrows₂.trans hrows₁, hcolumns₂.trans hcolumns₁, fun r c => ?_⟩
    · rw [List.zipIdx_cons, List.foldlM_cons, hrow]
      exact hrest
    · rw [hcontent₂, hcontent₁]
      rcases Nat.lt_trichotomy r row with hr | rfl | hr
      · rw [if_neg (by omega), if_neg (by omega), if_neg (by omega)]
      · rw [if_neg (by omega), Nat.sub_self]
        simp
      · have hindex : r - row = r - (row + 1) + 1 := by omega
        rw [hindex, List.getElem?_cons_succ, if_neg (show ¬ (r = row ∧ 0 ≤ c) by omega)]
        simp only [hr.le, Nat.succ_le_of_lt hr]

theorem foldl_max_le_iff {lengths : List Nat} {a b : Nat} :
    lengths.foldl max a ≤ b ↔ a ≤ b ∧ ∀ length ∈ lengths, length ≤ b := by
  induction lengths generalizing a with
  | nil => simp
  | cons length lengths ih => rw [List.foldl_cons, ih, Nat.max_le, List.forall_mem_cons, and_assoc]

theorem length_le_foldl_max (h : fields ∈ rows) :
    fields.length ≤ (rows.map List.length).foldl max 0 :=
  (foldl_max_le_iff.1 (Nat.le_refl _)).2 _ (List.mem_map_of_mem h)

/-- The widest row of a table is as wide as all are. -/
theorem foldl_max_length {columns : Nat} (hrows : 0 < rows.length)
    (hwidth : ∀ fields ∈ rows, fields.length = columns) :
    (rows.map List.length).foldl max 0 = columns := by
  obtain ⟨fields, rows, rfl⟩ := List.exists_cons_of_length_pos hrows
  apply Nat.le_antisymm
  · exact foldl_max_le_iff.2 ⟨Nat.zero_le _,
      List.forall_mem_map.2 fun fields hmem => (hwidth fields hmem).le⟩
  · rw [← hwidth fields List.mem_cons_self]
    exact length_le_foldl_max List.mem_cons_self

/-- The grid made from rows holds each text where it stands, and is empty elsewhere. -/
theorem gridOfRows_eq_ok (path : String) (hrows : rows.length ≤ rowLimit)
    (hcolumns : ∀ fields ∈ rows, fields.length ≤ columnLimit) :
    ∃ grid, gridOfRows path rows = .ok grid ∧ grid.rows = max 1 rows.length ∧
      grid.columns = max 1 ((rows.map List.length).foldl max 0) ∧
      ∀ i j, grid.contentAt i j = (rows[i]?.bind (·[j]?)).getD "" := by
  have hwidth : max 1 ((rows.map List.length).foldl max 0) ≤ columnLimit := by
    refine Nat.max_le.2 ⟨by decide, foldl_max_le_iff.2 ⟨Nat.zero_le _, ?_⟩⟩
    exact List.forall_mem_map.2 hcolumns
  have hfit : ∀ fields ∈ rows, fields.length ≤ max 1 ((rows.map List.length).foldl max 0) :=
    fun fields hmem => (length_le_foldl_max hmem).trans (Nat.le_max_right _ _)
  obtain ⟨g, hsize, hrows', hcolumns', hempty⟩ := @Grid.ofSize_eq_ok (max 1 rows.length)
    (max 1 ((rows.map List.length).foldl max 0))
    ⟨Nat.le_max_left _ _, Nat.max_le.2 ⟨by decide, hrows⟩⟩ ⟨Nat.le_max_left _ _, hwidth⟩
  obtain ⟨grid, hfold, hgrows, hgcolumns, hcontent⟩ := @foldlM_rows rows 0 g
    (by omega) (by rwa [hcolumns'])
  refine ⟨grid, ?_, hgrows.trans hrows', hgcolumns.trans hcolumns', fun i j => ?_⟩
  · unfold gridOfRows
    dsimp only
    rw [if_neg (Nat.not_lt.2 hwidth), hsize]
    exact hfold
  · rw [hcontent, if_pos (Nat.zero_le _), hempty, Nat.sub_zero]

end

/-! ## Texts of records -/

theorem fieldTexts_utf8 (number : Nat) (fields : List String) :
    Csv.fieldTexts number (fields.map fun text => utf8 text.toList) = .ok fields := by
  induction fields generalizing number with
  | nil => rfl
  | cons text fields ih =>
    rw [List.map_cons, Csv.fieldTexts, fieldText_utf8, String.ofList_toList]
    dsimp only
    rw [ih]
    rfl

theorem rowTexts_utf8 {record : Csv.Record} {fields : List String} (input : List UInt8)
    (number : Nat) (h : record.fields = fields.map fun text => utf8 text.toList) :
    rowTexts input none number record = .ok fields := by
  have htexts : record.texts input number none = .ok fields := by
    unfold Csv.Record.texts
    rw [h, fieldTexts_utf8]
    rfl
  rw [rowTexts, htexts]
  rfl

theorem mapM_rowTexts {records : List Csv.Record} {rows : List (List String)} (input : List UInt8)
    (number : Nat) (h : records.map Csv.Record.fields =
      rows.map (·.map fun text => utf8 text.toList)) :
    (records.zipIdx number).mapM (fun p => rowTexts input none p.2 p.1) = .ok rows := by
  induction records generalizing number rows with
  | nil =>
    rw [List.map_nil, eq_comm, List.map_eq_nil_iff] at h
    rw [h]
    rfl
  | cons record records ih =>
    cases rows with
    | nil => cases h
    | cons fields rows =>
      obtain ⟨hrecord, hrecords⟩ := List.cons.inj h
      rw [List.zipIdx_cons, List.mapM_cons, rowTexts_utf8 input number hrecord,
        ih (number + 1) hrecords]
      rfl

/-! ## The table read back -/

/-- A table of texts that is written is read back as a grid of its size with these texts. -/
theorem readGrid_write {path : String} {rows : List (List String)} {columns : Nat}
    (hrows : 0 < rows.length ∧ rows.length < 4294967296)
    (hcolumns : 1 ≤ columns ∧ columns ≤ 26)
    (hwidth : ∀ fields ∈ rows, fields.length = columns)
    (hmark : ∀ text, rows.head?.bind List.head? = some text →
      text.toList.head? ≠ some '\uFEFF') :
    ∃ grid, readGrid path (.ok (Csv.write rows).toUTF8.toList) = .ok grid ∧
      grid.rows = rows.length ∧ grid.columns = columns ∧
      ∀ i j, grid.contentAt i j = (rows[i]?.bind (·[j]?)).getD "" := by
  have hfields : ∀ fields ∈ rows, fields ≠ [] := by
    rintro fields hmem rfl
    have hzero := hwidth [] hmem
    rw [List.length_nil] at hzero
    omega
  have htexts := mapM_rowTexts (Csv.write rows).toUTF8.toList 0 (Csv.read_write hfields hmark)
  obtain ⟨grid, hgrid, hgrows, hgcolumns, hcontent⟩ := gridOfRows_eq_ok path
    (Nat.le_of_lt_succ hrows.2) (fun fields hmem => (hwidth fields hmem).le.trans hcolumns.2)
  refine ⟨grid, ?_, ?_, ?_, hcontent⟩
  · unfold readGrid
    rw [← hgrid]
    exact congrArg (· >>= gridOfRows path) htexts
  · rw [hgrows, Nat.max_eq_right hrows.1]
  · rw [hgcolumns, foldl_max_length hrows.1 hwidth, Nat.max_eq_right hcolumns.1]

/-- Empty texts, quotes and line ends are read back as they are. -/
theorem readGrid_write_quoted :
    ∃ grid, readGrid "in.csv"
        (.ok (Csv.write [["", "say \"hi\""], ["a,b\r\n", " "], ["", ""]]).toUTF8.toList) =
          .ok grid ∧
      grid.rows = 3 ∧ grid.columns = 2 ∧
      ∀ i j, grid.contentAt i j =
        ([["", "say \"hi\""], ["a,b\r\n", " "], ["", ""]][i]?.bind (·[j]?)).getD "" :=
  readGrid_write (by decide) (by decide) (by decide) (by simp)

end CommandLine

end Spreadsheet
