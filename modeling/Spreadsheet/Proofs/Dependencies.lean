import Mathlib.Data.List.Nodup
import Mathlib.Logic.Relation
import Spreadsheet.DependencyGraph
/-!
# What a change spreads to

The two directions of a dependency graph stay inverse to each other, and what a
cell reads is what was last recorded for it, `mem_precedents_setPrecedents`. A
change then spreads to all cells that read a cell to which it spreads,
`mem_invalidationSet_of_dependent`, and to no others, `mem_invalidationSet_iff`.
-/

namespace Spreadsheet

open Relation

namespace CellRelation
variable (r : CellRelation) (a c d x : Cell)

theorem related_insert (cells : Std.TreeSet Cell) :
    related (r.insert c cells) a = if c = a then cells else related r a := by
  unfold related
  rw [Std.TreeMap.getD_insert]
  simp only [Std.LawfulEqCmp.compare_eq_iff_eq]

theorem related_erase : related (r.erase c) a = if c = a then ∅ else related r a := by
  unfold related
  rw [Std.TreeMap.getD_erase]
  simp only [Std.LawfulEqCmp.compare_eq_iff_eq]

theorem mem_related_relate :
    x ∈ related (relate r c d) a ↔ x ∈ related r a ∨ (a = c ∧ x = d) := by
  unfold relate
  rw [related_insert]
  split
  · rename_i h
    subst h
    rw [Std.TreeSet.mem_insert, Std.LawfulEqCmp.compare_eq_iff_eq]
    grind
  · grind

theorem mem_related_unrelate :
    x ∈ related (unrelate r c d) a ↔ x ∈ related r a ∧ ¬ (a = c ∧ x = d) := by
  have herase : x ∈ (related r c).erase d ↔ d ≠ x ∧ x ∈ related r c := by
    rw [Std.TreeSet.mem_erase]
    simp only [ne_eq, Std.LawfulEqCmp.compare_eq_iff_eq]
  unfold unrelate
  dsimp only
  split
  · rename_i hempty
    have hnone := Std.TreeSet.isEmpty_iff_forall_not_mem.1 hempty x
    rw [related_erase]
    split
    · have : x ∉ (∅ : Std.TreeSet Cell) := Std.TreeSet.not_mem_emptyc
      grind
    · grind
  · rw [related_insert]
    split <;> grind

end CellRelation

namespace DependencyGraph
variable {g : DependencyGraph} {c d p x : Cell} {ps : List Cell}

theorem mem_dependents : d ∈ g.dependents p ↔ d ∈ g.dependentsOf.related p := by
  unfold dependents
  exact Std.TreeSet.mem_toList

theorem mem_precedents : p ∈ g.precedents d ↔ p ∈ g.precedentsOf.related d := by
  unfold precedents
  exact Std.TreeSet.mem_toList

/-- The dependents of a cell are those that have it as a precedent. -/
def Inverse (g : DependencyGraph) : Prop :=
  ∀ p d, d ∈ g.dependents p ↔ p ∈ g.precedents d

/-! ## Recording -/

theorem not_mem_precedents_empty : x ∉ empty.precedents c := by
  rw [mem_precedents]
  exact Std.TreeSet.not_mem_emptyc

theorem inverse_empty : empty.Inverse := by
  intro p d
  rw [mem_dependents, mem_precedents]
  exact iff_of_false Std.TreeSet.not_mem_emptyc Std.TreeSet.not_mem_emptyc

theorem mem_precedents_add : x ∈ (g.add p c).precedents d ↔ x ∈ g.precedents d ∨ (d = c ∧ x = p) := by
  rw [mem_precedents, mem_precedents]
  exact CellRelation.mem_related_relate _ _ _ _ _

theorem Inverse.add (h : g.Inverse) : (g.add p c).Inverse := by
  intro q d
  have hqd := h q d
  rw [mem_precedents_add, ← hqd, mem_dependents, mem_dependents]
  exact (CellRelation.mem_related_relate _ _ _ _ _).trans (or_congr_right and_comm)

theorem mem_precedents_clearPrecedents :
    x ∈ (g.clearPrecedents c).precedents d ↔ d ≠ c ∧ x ∈ g.precedents d := by
  rw [mem_precedents, mem_precedents]
  unfold clearPrecedents
  rw [CellRelation.related_erase]
  have : x ∉ (∅ : Std.TreeSet Cell) := Std.TreeSet.not_mem_emptyc
  grind

theorem mem_related_foldl_unrelate (r : CellRelation) :
    d ∈ CellRelation.related (ps.foldl (fun r p => CellRelation.unrelate r p c) r) p ↔
      d ∈ CellRelation.related r p ∧ ¬ (p ∈ ps ∧ d = c) := by
  induction ps generalizing r with
  | nil => simp
  | cons q ps ih =>
    rw [List.foldl_cons, ih, CellRelation.mem_related_unrelate]
    grind

theorem Inverse.clearPrecedents (h : g.Inverse) : (g.clearPrecedents c).Inverse := by
  intro p d
  have hpd := h p d
  rw [mem_precedents_clearPrecedents, mem_dependents]
  unfold DependencyGraph.clearPrecedents
  rw [mem_related_foldl_unrelate, ← mem_dependents]
  grind

theorem Inverse.foldl_add (h : g.Inverse) : (ps.foldl (fun g p => g.add p c) g).Inverse := by
  induction ps generalizing g with
  | nil => exact h
  | cons p ps ih => exact ih h.add

theorem Inverse.setPrecedents (h : g.Inverse) : (g.setPrecedents c ps).Inverse :=
  h.clearPrecedents.foldl_add

theorem mem_precedents_foldl_add :
    x ∈ (ps.foldl (fun g p => g.add p c) g).precedents d ↔ x ∈ g.precedents d ∨ (d = c ∧ x ∈ ps) := by
  induction ps generalizing g with
  | nil => simp
  | cons p ps ih =>
    rw [List.foldl_cons, ih, mem_precedents_add]
    grind

/-- What a cell reads is what was recorded last, and other cells keep what they read. -/
theorem mem_precedents_setPrecedents :
    x ∈ (g.setPrecedents c ps).precedents d ↔ if d = c then x ∈ ps else x ∈ g.precedents d := by
  unfold setPrecedents
  rw [mem_precedents_foldl_add, mem_precedents_clearPrecedents]
  grind

/-! ## Spreading -/

theorem mem_readers {cells : List Cell} :
    d ∈ g.readers c cells ↔ d ∈ cells ∧ d ∈ g.dependents c := by
  unfold readers
  rw [List.mem_filter, mem_dependents, Std.TreeSet.mem_iff_contains]

theorem mem_others {cells : List Cell} :
    d ∈ g.others c cells ↔ d ∈ cells ∧ d ∉ g.dependents c := by
  unfold others
  rw [List.mem_filter, mem_dependents, Std.TreeSet.mem_iff_contains, Bool.not_eq_true,
    Bool.not_eq_true']

theorem mem_spread_of_mem_queue {unseen queue : List Cell} (h : x ∈ queue) :
    x ∈ g.spread unseen queue := by
  fun_induction spread g unseen queue with
  | case1 => exact h
  | case2 unseen c queue ih =>
    rcases List.mem_cons.1 h with rfl | h
    · exact List.mem_cons_self
    · exact List.mem_cons_of_mem _ (ih (List.mem_append_left _ h))

/-- A change spreads on to the readers of a cell that it has not reached yet. -/
theorem mem_spread_of_dependent {unseen queue : List Cell} (hx : x ∈ g.spread unseen queue)
    (hd : d ∈ g.dependents x) (hunseen : d ∈ unseen) : d ∈ g.spread unseen queue := by
  fun_induction spread g unseen queue with
  | case1 => cases hx
  | case2 unseen c queue ih =>
    -- A reader of the cell at hand is queued now; any other cell is still unseen afterwards.
    by_cases hc : d ∈ g.dependents c
    · have hqueue : d ∈ queue ++ g.readers c unseen :=
        List.mem_append_right _ (mem_readers.2 ⟨hunseen, hc⟩)
      exact List.mem_cons_of_mem _ (mem_spread_of_mem_queue hqueue)
    · rcases List.mem_cons.1 hx with rfl | hx
      · exact absurd hd hc
      · exact List.mem_cons_of_mem _ (ih hx (mem_others.2 ⟨hunseen, hc⟩))

theorem mem_invalidationSet_self : c ∈ g.invalidationSet c :=
  mem_spread_of_mem_queue List.mem_cons_self

theorem ne_of_not_mem_invalidationSet (h : x ∉ g.invalidationSet c) : x ≠ c := by
  rintro rfl
  exact h mem_invalidationSet_self

theorem mem_keys_of_mem_precedents (h : p ∈ g.precedents d) : d ∈ g.precedentsOf.keys := by
  rw [mem_precedents] at h
  rw [Std.TreeMap.mem_keys]
  by_cases hd : d ∈ g.precedentsOf
  · exact hd
  · unfold CellRelation.related at h
    rw [Std.TreeMap.getD_eq_fallback hd] at h
    exact absurd h Std.TreeSet.not_mem_emptyc

/-- A change of a cell spreads to all cells that read one to which it spreads. -/
theorem mem_invalidationSet_of_dependent (h : g.Inverse) (hx : x ∈ g.invalidationSet c)
    (hd : d ∈ g.dependents x) : d ∈ g.invalidationSet c := by
  by_cases hc : d = c
  · rw [hc]
    exact mem_invalidationSet_self
  · refine mem_spread_of_dependent hx hd (List.mem_filter.2 ⟨?_, by simpa using hc⟩)
    exact mem_keys_of_mem_precedents ((h x d).1 hd)

theorem exists_mem_queue_of_mem_spread (h : g.Inverse) {unseen queue : List Cell}
    (hx : x ∈ g.spread unseen queue) :
    ∃ c ∈ queue, ReflTransGen (fun p d => p ∈ g.precedents d) c x := by
  fun_induction spread g unseen queue with
  | case1 => cases hx
  | case2 unseen c queue ih =>
    rcases List.mem_cons.1 hx with rfl | hx
    · exact ⟨x, List.mem_cons_self, .refl⟩
    · obtain ⟨d, hd, hdx⟩ := ih hx
      rcases List.mem_append.1 hd with hd | hd
      · exact ⟨d, List.mem_cons_of_mem c hd, hdx⟩
      · exact ⟨c, List.mem_cons_self, .head ((h c d).1 (mem_readers.1 hd).2) hdx⟩

/-- A change of a cell spreads along what cells read, and no further. -/
theorem mem_invalidationSet_iff (h : g.Inverse) :
    x ∈ g.invalidationSet c ↔ ReflTransGen (fun p d => p ∈ g.precedents d) c x := by
  constructor
  · intro hx
    obtain ⟨d, hd, hdx⟩ := exists_mem_queue_of_mem_spread h hx
    cases List.mem_singleton.1 hd
    exact hdx
  · intro hx
    induction hx with
    | refl => exact mem_invalidationSet_self
    | tail _ hd ih => exact mem_invalidationSet_of_dependent h ih ((h _ _).2 hd)

theorem mem_of_mem_spread {unseen queue : List Cell} (hx : x ∈ g.spread unseen queue) :
    x ∈ queue ∨ x ∈ unseen := by
  fun_induction spread g unseen queue with
  | case1 => cases hx
  | case2 unseen c queue ih =>
    rcases List.mem_cons.1 hx with rfl | hx
    · exact .inl List.mem_cons_self
    · rcases ih hx with hx | hx
      · rcases List.mem_append.1 hx with hx | hx
        · exact .inl (List.mem_cons_of_mem c hx)
        · exact .inr (mem_readers.1 hx).1
      · exact .inr (mem_others.1 hx).1

theorem nodup_spread {unseen queue : List Cell} (hunseen : unseen.Nodup) (hqueue : queue.Nodup)
    (hdisjoint : ∀ d ∈ queue, d ∉ unseen) : (g.spread unseen queue).Nodup := by
  fun_induction spread g unseen queue with
  | case1 => exact .nil
  | case2 unseen c queue ih =>
    obtain ⟨hc, hqueue⟩ := List.nodup_cons.1 hqueue
    have htail : ∀ d ∈ queue, d ∉ unseen := fun d hd => hdisjoint d (List.mem_cons_of_mem c hd)
    refine List.nodup_cons.2 ⟨?_, ih (hunseen.filter _) ?_ ?_⟩
    · -- The cell at hand is neither queued again nor unseen.
      intro hmem
      rcases mem_of_mem_spread hmem with h | h
      · rcases List.mem_append.1 h with h | h
        · exact hc h
        · exact hdisjoint c List.mem_cons_self (mem_readers.1 h).1
      · exact hdisjoint c List.mem_cons_self (mem_others.1 h).1
    · refine hqueue.append (hunseen.filter _) ?_
      intro d hd hreader
      exact htail d hd (mem_readers.1 hreader).1
    · intro d hd hother
      obtain ⟨hseen, hnot⟩ := mem_others.1 hother
      rcases List.mem_append.1 hd with hd | hd
      · exact htail d hd hseen
      · exact hnot (mem_readers.1 hd).2

/-- A change reaches each cell once. -/
theorem nodup_invalidationSet : (g.invalidationSet c).Nodup := by
  refine nodup_spread (Std.TreeMap.nodup_keys.filter _) (List.nodup_singleton c) ?_
  intro d hd hmem
  exact of_decide_eq_true (List.mem_filter.1 hmem).2 (List.mem_singleton.1 hd)

end DependencyGraph

end Spreadsheet
