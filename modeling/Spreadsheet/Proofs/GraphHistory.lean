import Mathlib.Data.List.Induction
import Spreadsheet.Proofs.Dependencies
/-!
# What a dependency graph remembers of its changes

A graph comes about by changes one after the other, `DependencyGraph.after`. However
they are mixed, its two directions stay inverse and no cell keeps an empty set. What a
cell reads is what was given to it since its precedents were last replaced or forgotten:
`DependencyGraph.after_history`.
-/

namespace Spreadsheet

namespace CellRelation
variable {r : CellRelation} {c d : Cell} {cells : Std.TreeSet Cell}

/-- Every cell that is kept is related to some cell. -/
def Proper (r : CellRelation) : Prop :=
  ∀ (c : Cell) (cells : Std.TreeSet Cell), r[c]? = some cells → cells.isEmpty = false

theorem proper_empty : Proper ∅ := by
  intro c cells h
  cases Std.TreeMap.getElem?_emptyc.symm.trans h

theorem Proper.insert (h : Proper r) (hcells : cells.isEmpty = false) :
    Proper (r.insert c cells) := by
  intro a found hfound
  rw [Std.TreeMap.getElem?_insert] at hfound
  split at hfound
  · cases hfound
    exact hcells
  · exact h a found hfound

theorem Proper.erase (h : Proper r) : Proper (r.erase c) := by
  intro a found hfound
  rw [Std.TreeMap.getElem?_erase] at hfound
  split at hfound
  · cases hfound
  · exact h a found hfound

theorem Proper.relate (h : Proper r) : Proper (CellRelation.relate r c d) :=
  h.insert Std.TreeSet.isEmpty_insert

theorem Proper.unrelate (h : Proper r) : Proper (CellRelation.unrelate r c d) := by
  unfold CellRelation.unrelate
  dsimp only
  split
  · exact h.erase
  · rename_i hrest
    exact h.insert (Bool.not_eq_true _ ▸ hrest)

end CellRelation

namespace DependencyGraph

/-- A change of a dependency graph. -/
inductive Change where
  | add (precedent dependent : Cell)
  | setPrecedents (c : Cell) (precedents : List Cell)
  | clearPrecedents (c : Cell)
  | clear

namespace Change

/-- The graph after the change. -/
def apply : Change → DependencyGraph → DependencyGraph
  | add precedent dependent, g => g.add precedent dependent
  | setPrecedents c precedents, g => g.setPrecedents c precedents
  | clearPrecedents c, g => g.clearPrecedents c
  | clear, _ => empty

/-- The cell whose precedents the change is about. -/
def cell? : Change → Option Cell
  | add _ dependent => some dependent
  | setPrecedents c _ => some c
  | clearPrecedents c => some c
  | clear => none

/-- The change makes `p` a precedent of `x`. -/
def Gives (p x : Cell) : Change → Prop
  | add precedent dependent => precedent = p ∧ dependent = x
  | setPrecedents c precedents => c = x ∧ p ∈ precedents
  | clearPrecedents _ => False
  | clear => False

/-- The change ends what `x` had read until then. -/
def Resets (x : Cell) : Change → Prop
  | add _ _ => False
  | setPrecedents c _ => c = x
  | clearPrecedents c => c = x
  | clear => True

end Change

/-- The graph after changes one after the other, none of which was there before. -/
def after (changes : List Change) : DependencyGraph :=
  changes.foldl (fun g change => change.apply g) empty

/-- Neither direction keeps an empty set. -/
def Proper (g : DependencyGraph) : Prop := g.dependentsOf.Proper ∧ g.precedentsOf.Proper

variable {g : DependencyGraph} {c d p x : Cell} {ps : List Cell}

/-! ## One change -/

theorem Inverse.apply (h : g.Inverse) (change : Change) : (change.apply g).Inverse := by
  cases change with
  | add => exact h.add
  | setPrecedents => exact h.setPrecedents
  | clearPrecedents => exact h.clearPrecedents
  | clear => exact inverse_empty

theorem proper_empty : empty.Proper := ⟨CellRelation.proper_empty, CellRelation.proper_empty⟩

theorem Proper.add (h : g.Proper) : (g.add p c).Proper := ⟨h.1.relate, h.2.relate⟩

theorem Proper.clearPrecedents (h : g.Proper) : (g.clearPrecedents c).Proper := by
  refine ⟨?_, h.2.erase⟩
  unfold DependencyGraph.clearPrecedents
  dsimp only
  generalize g.precedents c = ps
  induction ps using List.reverseRecOn with
  | nil => exact h.1
  | append_singleton ps p ih =>
    rw [List.foldl_append]
    exact ih.unrelate

theorem Proper.setPrecedents (h : g.Proper) : (g.setPrecedents c ps).Proper := by
  unfold DependencyGraph.setPrecedents
  induction ps using List.reverseRecOn with
  | nil => exact h.clearPrecedents
  | append_singleton ps p ih =>
    rw [List.foldl_append]
    exact ih.add

theorem Proper.apply (h : g.Proper) (change : Change) : (change.apply g).Proper := by
  cases change with
  | add => exact h.add
  | setPrecedents => exact h.setPrecedents
  | clearPrecedents => exact h.clearPrecedents
  | clear => exact proper_empty

/-- What a cell reads after a change was given by the change, or was there before and is not
ended by it. -/
theorem mem_precedents_apply (change : Change) : p ∈ (change.apply g).precedents x ↔
    change.Gives p x ∨ ¬ change.Resets x ∧ p ∈ g.precedents x := by
  cases change with
  | add precedent dependent =>
    simp only [Change.apply, Change.Gives, Change.Resets, mem_precedents_add]
    grind
  | setPrecedents c ps =>
    simp only [Change.apply, Change.Gives, Change.Resets, mem_precedents_setPrecedents]
    grind
  | clearPrecedents c =>
    simp only [Change.apply, Change.Gives, Change.Resets, mem_precedents_clearPrecedents]
    grind
  | clear =>
    simp only [Change.apply, Change.Gives, Change.Resets, not_mem_precedents_empty]
    grind

theorem precedents_add_of_ne (h : x ≠ c) : (g.add p c).precedents x = g.precedents x := by
  unfold precedents add CellRelation.relate
  rw [CellRelation.related_insert, if_neg (Ne.symm h)]

theorem precedents_clearPrecedents_of_ne (h : x ≠ c) :
    (g.clearPrecedents c).precedents x = g.precedents x := by
  unfold precedents clearPrecedents
  rw [CellRelation.related_erase, if_neg (Ne.symm h)]

theorem precedents_setPrecedents_of_ne (h : x ≠ c) :
    (g.setPrecedents c ps).precedents x = g.precedents x := by
  unfold setPrecedents
  induction ps using List.reverseRecOn with
  | nil => exact precedents_clearPrecedents_of_ne h
  | append_singleton ps p ih =>
    rw [List.foldl_append]
    exact (precedents_add_of_ne h).trans ih

/-- A change of what one cell reads leaves the others as they are. -/
theorem precedents_apply_of_ne {change : Change} (hcell : change.cell? = some c) (h : x ≠ c) :
    (change.apply g).precedents x = g.precedents x := by
  cases change <;> cases hcell
  · exact precedents_add_of_ne h
  · exact precedents_setPrecedents_of_ne h
  · exact precedents_clearPrecedents_of_ne h

/-! ## A history of changes -/

theorem after_snoc (changes : List Change) (change : Change) :
    after (changes ++ [change]) = change.apply (after changes) := by
  rw [after, List.foldl_append]
  rfl

/-- What holds of the empty graph and is kept by every change holds after any of them. -/
theorem after_of_apply {P : DependencyGraph → Prop} (hempty : P empty)
    (happly : ∀ g, P g → ∀ change : Change, P (change.apply g)) (changes : List Change) :
    P (after changes) := by
  induction changes using List.reverseRecOn with
  | nil => exact hempty
  | append_singleton changes change ih =>
    rw [after_snoc]
    exact happly _ ih change

theorem inverse_after (changes : List Change) : (after changes).Inverse :=
  after_of_apply inverse_empty (fun _ h => h.apply) changes

theorem proper_after (changes : List Change) : (after changes).Proper :=
  after_of_apply proper_empty (fun _ h => h.apply) changes

/-- Some change in the history makes `p` a precedent of `x`, and none that comes later ends what
`x` reads. -/
def LastGiven (p x : Cell) (changes : List Change) : Prop :=
  ∃ before change later, changes = before ++ change :: later ∧ change.Gives p x ∧
    ∀ next ∈ later, ¬ next.Resets x

theorem lastGiven_snoc (changes : List Change) (change : Change) :
    LastGiven p x (changes ++ [change]) ↔
      change.Gives p x ∨ ¬ change.Resets x ∧ LastGiven p x changes := by
  constructor
  · rintro ⟨before, giving, later, heq, hgives, hlater⟩
    -- The last change is the giving one itself, or one of those that come after it.
    rcases List.eq_nil_or_concat' later with rfl | ⟨later, last, rfl⟩
    · obtain ⟨-, hchange⟩ := List.append_inj' heq rfl
      cases hchange
      exact .inl hgives
    · rw [← List.cons_append, ← List.append_assoc] at heq
      obtain ⟨rfl, hlast⟩ := List.append_inj' heq rfl
      cases hlast
      exact .inr ⟨hlater _ (by simp), before, giving, later, rfl, hgives,
        fun next hnext => hlater next (by simp [hnext])⟩
  · rintro (hgives | ⟨hresets, before, giving, later, rfl, hgives, hlater⟩)
    · exact ⟨changes, change, [], rfl, hgives, nofun⟩
    · refine ⟨before, giving, later ++ [change], by simp, hgives, ?_⟩
      intro next hnext
      rcases List.mem_append.1 hnext with hnext | hnext
      · exact hlater next hnext
      · cases List.mem_singleton.1 hnext
        exact hresets

theorem mem_precedents_after (changes : List Change) :
    p ∈ (after changes).precedents x ↔ LastGiven p x changes := by
  induction changes using List.reverseRecOn with
  | nil =>
    refine iff_of_false not_mem_precedents_empty ?_
    rintro ⟨before, change, later, heq, -⟩
    simp at heq
  | append_singleton changes change ih =>
    rw [after_snoc, mem_precedents_apply, lastGiven_snoc, ih]

/-- After any history of changes, the two directions of a graph are inverse and keep no empty
set, a cell reads what was given to it last and what was added since, and a further change of what
one cell reads leaves the others as they are. -/
theorem after_history (changes : List Change) :
    (after changes).Inverse ∧ (after changes).Proper ∧
      (∀ p x, p ∈ (after changes).precedents x ↔ LastGiven p x changes) ∧
      ∀ change c x, Change.cell? change = some c → x ≠ c →
        (after (changes ++ [change])).precedents x = (after changes).precedents x := by
  refine ⟨inverse_after changes, proper_after changes, fun p x => mem_precedents_after changes, ?_⟩
  intro change c x hcell hne
  rw [after_snoc]
  exact precedents_apply_of_ne hcell hne

end DependencyGraph

end Spreadsheet
