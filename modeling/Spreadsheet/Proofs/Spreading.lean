import Mathlib.Data.List.Perm.Subperm
import Mathlib.Order.Lattice.Nat
import Spreadsheet.Proofs.GraphHistory
/-!
# In which order a change spreads

The cells that depend on a changed one are searched for with a queue: those found are
looked at one after the other, and what reads them and was not found before is queued.
Readers of one cell may be looked up in any order. However that is done, the search
ends, also where cells read each other in a circle, and it ends with all dependents, each
once and nearer ones first: `DependencyGraph.invalidationSet_nearestFirst`.
-/

namespace Spreadsheet

namespace DependencyGraph

/-- `x` is found from `c` over so many steps, each from a cell to one that reads it. -/
inductive Reaches (g : DependencyGraph) (c : Cell) : Nat → Cell → Prop
  | refl : Reaches g c 0 c
  | tail {n x d} : Reaches g c n x → d ∈ g.dependents x → Reaches g c (n + 1) d

/-- The least number of steps over which `x` is found from `c`, if it is. -/
noncomputable def distance (g : DependencyGraph) (c x : Cell) : Nat := sInf {n | g.Reaches c n x}

/-- The cells are all that depend on `c`, directly or not, each once, `c` itself first and nearer
ones before others. -/
structure NearestFirst (g : DependencyGraph) (c : Cell) (cells : List Cell) : Prop where
  head : cells.head? = some c
  nodup : cells.Nodup
  mem_iff : ∀ x, x ∈ cells ↔ ∃ n, g.Reaches c n x
  sorted : cells.Pairwise fun x y => g.distance c x ≤ g.distance c y

/-- A step of a search, from the cells that were looked at and those still queued. The first in the
queue is looked at, and the cells that read it are queued in some order, each once, except those
that were found before. -/
inductive Step (g : DependencyGraph) : List Cell × List Cell → List Cell × List Cell → Prop
  | look {seen queue fresh : List Cell} {c : Cell} (hnodup : fresh.Nodup)
    (hfresh : ∀ d, d ∈ fresh ↔ d ∈ g.dependents c ∧ d ∉ seen ++ c :: queue) :
    Step g (seen, c :: queue) (seen ++ [c], queue ++ fresh)

variable {g : DependencyGraph} {c d x y : Cell} {n : Nat} {cells seen queue fresh : List Cell}

/-! ## Distances -/

theorem distance_le (h : g.Reaches c n x) : g.distance c x ≤ n := Nat.sInf_le h

theorem reaches_distance (h : ∃ n, g.Reaches c n x) : g.Reaches c (g.distance c x) x :=
  Nat.sInf_mem h

theorem distance_le_of_dependent (h : ∃ n, g.Reaches c n x) (hd : d ∈ g.dependents x) :
    g.distance c d ≤ g.distance c x + 1 :=
  distance_le ((reaches_distance h).tail hd)

/-- A cell that is not where the search starts has a cell before it that is nearer. -/
theorem exists_nearer (h : ∃ n, g.Reaches c n x) (hne : x ≠ c) :
    ∃ y, (∃ n, g.Reaches c n y) ∧ x ∈ g.dependents y ∧ g.distance c y < g.distance c x := by
  have hx := reaches_distance h
  generalize g.distance c x = n at hx
  cases hx with
  | refl => exact absurd rfl hne
  | tail hy hd => exact ⟨_, ⟨_, hy⟩, hd, Nat.lt_succ_of_le (distance_le hy)⟩

/-! ## What a search keeps to -/

/-- What holds throughout a search from `c`: the cells found are in order of distance, each once,
with at most one step between those that are queued, and what reads a cell that was looked at has
been found. -/
structure Searching (g : DependencyGraph) (c : Cell) (seen queue : List Cell) : Prop where
  head : (seen ++ queue).head? = some c
  nodup : (seen ++ queue).Nodup
  reached : ∀ x ∈ seen ++ queue, ∃ n, g.Reaches c n x
  closed : ∀ x ∈ seen, ∀ d ∈ g.dependents x, d ∈ seen ++ queue
  sorted : (seen ++ queue).Pairwise fun x y => g.distance c x ≤ g.distance c y
  narrow : ∀ x ∈ queue, ∀ y ∈ seen ++ queue, g.distance c y ≤ g.distance c x + 1

theorem searching_start : g.Searching c [] [c] where
  head := rfl
  nodup := List.nodup_singleton c
  reached x hx := by
    cases List.mem_singleton.1 hx
    exact ⟨0, .refl⟩
  closed x hx := nomatch hx
  sorted := List.pairwise_singleton _ c
  narrow x hx y hy := by
    cases List.mem_singleton.1 hx
    cases List.mem_singleton.1 hy
    exact Nat.le_succ _

namespace Searching

theorem mem_start (h : g.Searching c seen queue) : c ∈ seen ++ queue :=
  List.mem_of_head? h.head

/-- What is nearer than the first in the queue was looked at. -/
theorem mem_seen_of_lt (h : g.Searching c seen (x :: queue)) (hy : ∃ n, g.Reaches c n y)
    (hlt : g.distance c y < g.distance c x) : y ∈ seen := by
  have hseen : ∀ y ∈ seen ++ x :: queue, g.distance c y < g.distance c x → y ∈ seen := by
    intro y hfound hlt
    rcases List.mem_append.1 hfound with hseen | hqueue
    · exact hseen
    · rcases List.mem_cons.1 hqueue with rfl | hqueue
      · exact absurd hlt (Nat.lt_irrefl _)
      · have hle := (List.pairwise_cons.1 (List.pairwise_append.1 h.sorted).2.1).1 y hqueue
        exact absurd hlt (Nat.not_lt.2 hle)
  -- By induction on the distance, as the cell before `y` is nearer still.
  induction hn : g.distance c y using Nat.strongRecOn generalizing y with
  | ind n ih =>
    by_cases hc : y = c
    · subst hc
      exact hseen y h.mem_start hlt
    · obtain ⟨p, hp, hd, hnear⟩ := exists_nearer hy hc
      have hmem := ih _ (hn ▸ hnear) hp (hnear.trans hlt) rfl
      exact hseen y (h.closed p hmem y hd) hlt

/-- What is found at the first in the queue is one step further from the start. -/
theorem distance_of_fresh (h : g.Searching c seen (x :: queue)) (hd : d ∈ g.dependents x)
    (hfresh : d ∉ seen ++ x :: queue) : g.distance c d = g.distance c x + 1 := by
  have hx : ∃ n, g.Reaches c n x := h.reached x (by simp)
  have hreached : ∃ n, g.Reaches c n d := hx.imp' (· + 1) fun _ hn => hn.tail hd
  refine Nat.le_antisymm (distance_le_of_dependent hx hd) (Nat.succ_le_of_lt ?_)
  by_contra hle
  have hc : d ≠ c := by
    rintro rfl
    exact hfresh h.mem_start
  -- Otherwise the cell before `d` was looked at, so that `d` was found before.
  obtain ⟨p, hp, hpd, hnear⟩ := exists_nearer hreached hc
  have hmem := h.mem_seen_of_lt hp (Nat.lt_of_lt_of_le hnear (Nat.not_lt.1 hle))
  exact hfresh (h.closed p hmem d hpd)

theorem step (h : g.Searching c seen (x :: queue)) (hnodup : fresh.Nodup)
    (hfresh : ∀ d, d ∈ fresh ↔ d ∈ g.dependents x ∧ d ∉ seen ++ x :: queue) :
    g.Searching c (seen ++ [x]) (queue ++ fresh) := by
  have hall : seen ++ [x] ++ (queue ++ fresh) = seen ++ x :: queue ++ fresh := by simp
  have hdistance : ∀ d ∈ fresh, g.distance c d = g.distance c x + 1 := by
    intro d hd
    obtain ⟨hreads, hnew⟩ := (hfresh d).1 hd
    exact h.distance_of_fresh hreads hnew
  have hfurthest : ∀ y ∈ seen ++ x :: queue, g.distance c y ≤ g.distance c x + 1 :=
    h.narrow x List.mem_cons_self
  refine ⟨?_, ?_, ?_, ?_, ?_, ?_⟩
  · rw [hall, List.head?_append, h.head]
    rfl
  · rw [hall]
    refine h.nodup.append hnodup ?_
    intro d hd hmem
    exact ((hfresh d).1 hmem).2 hd
  · rw [hall]
    intro d hd
    rcases List.mem_append.1 hd with hd | hd
    · exact h.reached d hd
    · exact (h.reached x (by simp)).imp' (· + 1) fun _ hn => hn.tail ((hfresh d).1 hd).1
  · rw [hall]
    intro y hy d hd
    rcases List.mem_append.1 hy with hy | hy
    · exact List.mem_append_left _ (h.closed y hy d hd)
    · cases List.mem_singleton.1 hy
      by_cases hfound : d ∈ seen ++ x :: queue
      · exact List.mem_append_left _ hfound
      · exact List.mem_append_right _ ((hfresh d).2 ⟨hd, hfound⟩)
  · rw [hall]
    refine List.pairwise_append.2 ⟨h.sorted, ?_, ?_⟩
    · refine List.pairwise_of_forall_mem_list ?_
      intro d hd e he
      rw [hdistance d hd, hdistance e he]
    · intro y hy d hd
      rw [hdistance d hd]
      exact hfurthest y hy
  · rw [hall]
    -- Nothing queued is nearer than `x`, and nothing found is more than one step further.
    have hnearest : ∀ y ∈ queue ++ fresh, g.distance c x ≤ g.distance c y := by
      intro y hy
      rcases List.mem_append.1 hy with hy | hy
      · exact (List.pairwise_cons.1 (List.pairwise_append.1 h.sorted).2.1).1 y hy
      · rw [hdistance y hy]
        exact Nat.le_succ _
    intro y hy z hz
    refine Nat.le_trans ?_ (Nat.succ_le_succ (hnearest y hy))
    rcases List.mem_append.1 hz with hz | hz
    · exact hfurthest z hz
    · exact Nat.le_of_eq (hdistance z hz)

/-- With nothing left in the queue, all that depends on the start was found. -/
theorem nearestFirst (h : g.Searching c cells []) : g.NearestFirst c cells := by
  have hnil := List.append_nil cells
  refine ⟨hnil ▸ h.head, hnil ▸ h.nodup, fun x => ⟨hnil ▸ h.reached x, ?_⟩, hnil ▸ h.sorted⟩
  rintro ⟨n, hn⟩
  induction hn with
  | refl => exact hnil ▸ h.mem_start
  | tail _ hd ih => exact hnil ▸ h.closed _ ih _ hd

end Searching

/-! ## The search as a whole -/

theorem searching_of_steps {start state : List Cell × List Cell}
    (h : Relation.ReflTransGen g.Step start state) (hstart : g.Searching c start.1 start.2) :
    g.Searching c state.1 state.2 := by
  induction h with
  | refl => exact hstart
  | tail _ hstep ih =>
    cases hstep with
    | look hnodup hfresh => exact ih.step hnodup hfresh

/-- All cells that a search from `c` may find. -/
def candidates (g : DependencyGraph) (c : Cell) : List Cell := c :: g.precedentsOf.keys

theorem Reaches.mem_candidates (hinverse : g.Inverse) (h : g.Reaches c n x) :
    x ∈ g.candidates c := by
  cases h with
  | refl => exact List.mem_cons_self
  | tail _ hd => exact List.mem_cons_of_mem c (mem_keys_of_mem_precedents ((hinverse _ _).1 hd))

theorem Searching.length_le (hinverse : g.Inverse) (h : g.Searching c seen queue) :
    (seen ++ queue).length ≤ (g.candidates c).length := by
  refine (h.nodup.subperm ?_).length_le
  intro x hx
  obtain ⟨n, hn⟩ := h.reached x hx
  exact hn.mem_candidates hinverse

/-- A search ends, as it looks at each cell once. -/
theorem Searching.acc (hinverse : g.Inverse) (h : g.Searching c seen queue) :
    Acc (fun next state => g.Step state next) (seen, queue) := by
  -- By induction on how many candidates were not looked at.
  induction hm : (g.candidates c).length - seen.length using Nat.strongRecOn
    generalizing seen queue with
  | ind m ih =>
    refine ⟨_, ?_⟩
    rintro _ (@⟨_, queue, fresh, x, hnodup, hfresh⟩)
    have hlength := h.length_le hinverse
    refine ih _ ?_ (h.step hnodup hfresh) rfl
    simp only [List.length_append, List.length_cons, List.length_nil] at hlength ⊢
    omega

/-- `spread` is a search in which readers are looked up in the order of `unseen`. -/
theorem steps_spread (hinverse : g.Inverse) {unseen : List Cell} (hnodup : unseen.Nodup)
    (hunseen : ∀ d ∈ g.precedentsOf.keys, d ∈ unseen ↔ d ∉ seen ++ queue)
    (hkeys : ∀ d ∈ unseen, d ∈ g.precedentsOf.keys) :
    Relation.ReflTransGen g.Step (seen, queue) (seen ++ g.spread unseen queue, []) := by
  fun_induction spread g unseen queue generalizing seen with
  | case1 =>
    rw [List.append_nil]
  | case2 unseen x queue ih =>
    have hfresh : ∀ d, d ∈ g.readers x unseen ↔ d ∈ g.dependents x ∧ d ∉ seen ++ x :: queue := by
      intro d
      rw [mem_readers]
      constructor
      · rintro ⟨hd, hreads⟩
        exact ⟨hreads, (hunseen d (hkeys d hd)).1 hd⟩
      · rintro ⟨hreads, hd⟩
        exact ⟨(hunseen d (mem_keys_of_mem_precedents ((hinverse x d).1 hreads))).2 hd, hreads⟩
    have hlook : g.Step (seen, x :: queue) (seen ++ [x], queue ++ g.readers x unseen) :=
      .look (hnodup.filter _) hfresh
    have hrest := @ih (seen ++ [x]) (hnodup.filter _) ?_ ?_
    · rw [List.append_assoc] at hrest
      exact .head hlook hrest
    · intro d hd
      have hd' := hunseen d hd
      rw [mem_others]
      simp only [List.mem_append, List.mem_cons, List.not_mem_nil, or_false, mem_readers] at hd' ⊢
      grind
    · intro d hd
      exact hkeys d (mem_others.1 hd).1

theorem steps_invalidationSet (hinverse : g.Inverse) :
    Relation.ReflTransGen g.Step ([], [c]) (g.invalidationSet c, []) := by
  refine steps_spread hinverse (Std.TreeMap.nodup_keys.filter _) ?_ ?_
  · intro d hd
    simp [hd]
  · intro d hd
    exact (List.mem_filter.1 hd).1

/-- A change spreads to all cells that depend on the changed one, each once and nearer ones first.
So does every search for them, in whatever order it looks up the readers of a cell: it ends, and it
ends with such a list. -/
theorem invalidationSet_nearestFirst (changes : List Change) (c : Cell) :
    (after changes).NearestFirst c ((after changes).invalidationSet c) ∧
      Acc (fun next state => (after changes).Step state next) ([], [c]) ∧
      Relation.ReflTransGen (after changes).Step ([], [c])
        ((after changes).invalidationSet c, []) ∧
      ∀ cells, Relation.ReflTransGen (after changes).Step ([], [c]) (cells, []) →
        (after changes).NearestFirst c cells := by
  have hinverse := inverse_after changes
  have hall : ∀ cells, Relation.ReflTransGen (after changes).Step ([], [c]) (cells, []) →
      (after changes).NearestFirst c cells :=
    fun cells h => (searching_of_steps h searching_start).nearestFirst
  have hsteps := steps_invalidationSet (c := c) hinverse
  exact ⟨hall _ hsteps, searching_start.acc hinverse, hsteps, hall⟩

end DependencyGraph

end Spreadsheet
