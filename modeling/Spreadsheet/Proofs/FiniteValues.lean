import Spreadsheet.Proofs.FiniteNumbers
import Spreadsheet.Proofs.Soundness
import Spreadsheet.Proofs.UpToDate
/-!
# Finite values

Evaluation comes to no number that is not finite, unless one is written in a
formula: `Context.isFinite_of_number`. A number can be written with so many
digits that it is read as an infinity, and that is a value then:
`Context.evaluate_overflow`.
-/

namespace Spreadsheet

theorem admits_isFinite : Admits fun x => x.isFinite :=
  ⟨fun _ h => h, fun _ h => Number.isFinite_neg h⟩

/-- All numbers written in the expression are finite, and the arguments of each of its calls can be
counted with 64 bits, like all that fits into a memory. Their count is itself a number that
evaluation comes to, and one without a bound would be rounded to an infinity. -/
def Expr.IsFinite (e : Expr) : Prop := (∀ x ∈ e.numbers, x.isFinite) ∧ ∀ w ∈ e.widths, w < 2 ^ 64

instance (e : Expr) : Decidable e.IsFinite :=
  inferInstanceAs (Decidable ((∀ x ∈ e.numbers, _) ∧ ∀ w ∈ e.widths, _))

theorem Expr.IsFinite.finely {e : Expr} (h : e.IsFinite) :
    Finely (fun x => x.isFinite) e.numbers e.widths :=
  ⟨h.1, fun w hw _ hn => Number.isFinite_ofNat (Nat.lt_of_le_of_lt hn (h.2 w hw))⟩

/-- All numbers written in the formulas of the grid are finite. -/
def Grid.WrittenFinite (g : Grid) (p : Pipeline) : Prop :=
  ∀ c, g.HoldsFormula c → ∀ e ∈ readings p (g.content c).toList, e.IsFinite

/-- What the cache remembers is sound. -/
def Cache.SoundValues (fine : Float → Prop) (cache : Cache) : Prop :=
  ∀ (c : Cell) (v : Value), cache.values[c]? = some v → v.Sound fine Set.univ

theorem Cache.soundValues_empty (fine : Float → Prop) : empty.SoundValues fine := by
  intro c v h
  have hnone : empty.values[c]? = none := Std.TreeMap.getElem?_emptyc
  rw [hnone] at h
  cases h

/-- A cache keeps to sound values. -/
theorem Cache.sound_memo (fine : Float → Prop) : memo.Sound fine Set.univ (SoundValues fine) where
  lookup_some {c s v s'} hs h := by
    simp only [memo, lookup] at h
    split at h
    · rename_i hw
      cases h
      exact ⟨hs, hs c _ hw⟩
    · cases h
  lookup_none {c s s'} hs h := by
    simp only [memo, lookup] at h
    split at h
    · cases h
    · cases h
      exact hs
  store {c v reads volatile s} hs hv := by
    intro d w hd
    cases volatile with
    | true =>
      simp only [memo, store, if_true, Std.TreeMap.getElem?_erase,
        Std.LawfulEqCmp.compare_eq_iff_eq] at hd
      split at hd
      · cases hd
      · exact hs d w hd
    | false =>
      have hd' : (s.store c v reads false).values[d]? = some w := hd
      rw [values_store_settled] at hd'
      split at hd'
      · cases hd'
        exact hv
      · exact hs d w hd'

namespace Context
variable {σ : Type} {ctx : Context σ} {I : σ → Prop}

/-- A number that evaluation comes to is finite, and is shown without letters, if no formula that
takes part has a number written in it that is not. Values may be remembered if the memory keeps
to finite numbers. -/
theorem isFinite_of_number (hmemo : ctx.activeMemo.Sound (fun x => x.isFinite) Set.univ I)
    (hgrid : ctx.grid.WrittenFinite ctx.options.pipeline) {s : σ} (hs : I s) {x : Float} :
    (∀ content, (Textual.isValid content.toList →
        ∀ e ∈ readings ctx.options.pipeline content.toList, e.IsFinite) →
      (ctx.evaluate content s).1 = .number x →
      x.isFinite ∧ ∀ a ∈ (Value.number x).display.toList, ¬ a.isAlpha) ∧
    ∀ c, (ctx.evaluateCell c s).1 = .number x →
      x.isFinite ∧ ∀ a ∈ (Value.number x).display.toList, ¬ a.isAlpha := by
  have hwritten : ∀ c, ctx.grid.HoldsFormula c →
      ∀ e ∈ readings ctx.options.pipeline (ctx.grid.content c).toList,
        Finely (fun x => x.isFinite) e.numbers e.widths :=
    fun c hc e he => (hgrid c hc e he).finely
  constructor
  · intro content hcontent hx
    have hsound := (evaluate_sound admits_isFinite hmemo hwritten content
      (fun hvalid e he => (hcontent hvalid e he).finely) hs).2
    rw [hx] at hsound
    exact ⟨hsound, Number.not_isAlpha_text hsound⟩
  · intro c hx
    have hsound := (evaluateCell_sound admits_isFinite hmemo hwritten c hs).2
    rw [hx] at hsound
    exact ⟨hsound, Number.not_isAlpha_text hsound⟩

/-- The numbers come out of texts, of a function and of the cache. -/
theorem isFinite_of_number_remembered :
    let ctx : Context Cache :=
      { grid := Grid.column ["=avg(A2;A3)/3", "=-A3", "4"], memo := Cache.memo }
    ctx.activeMemo.Sound (fun x => x.isFinite) Set.univ (Cache.SoundValues fun x => x.isFinite) ∧
      ctx.grid.WrittenFinite .grammar ∧ Cache.empty.SoundValues (fun x => x.isFinite) ∧
      ∃ x : Float, (ctx.evaluate "=A1+A2" Cache.empty).1 = .number x ∧ x.isFinite := by
  intro ctx
  have hmemo : ctx.activeMemo.Sound (fun x => x.isFinite) Set.univ
      (Cache.SoundValues fun x => x.isFinite) := Cache.sound_memo _
  have hgrid : ctx.grid.WrittenFinite .grammar := by
    have hkeys : ∀ c ∈ ctx.grid.contents.keys,
        ∀ e ∈ readings .grammar (ctx.grid.content c).toList, e.IsFinite := by decide +kernel
    exact fun c hc => hkeys c hc.mem_keys
  have hcontent : ∀ e ∈ readings .grammar "=A1+A2".toList, e.IsFinite := by decide +kernel
  have hvalue : (ctx.evaluate "=A1+A2" Cache.empty).1 = .number (-4.0) := by decide +kernel
  exact ⟨hmemo, hgrid, Cache.soundValues_empty _, _, hvalue,
    ((isFinite_of_number hmemo hgrid (Cache.soundValues_empty _)).1 "=A1+A2" (fun _ => hcontent)
      hvalue).1⟩

/-- A number with too many digits is an infinity. -/
theorem evaluate_overflow :
    let ctx : Context Unit := { grid := Grid.column [] }
    let content := String.ofList ('=' :: List.replicate 311 '9')
    ∃ x : Float, (ctx.evaluate content ()).1 = .number x ∧ x.isFinite = false := by
  intro ctx content
  have hvalid : Textual.isValid ('=' :: List.replicate 311 '9') := by decide +kernel
  refine ⟨1.0 / 0.0, ?_, by decide +kernel⟩
  unfold evaluate
  rw [String.toList_ofList, if_pos hvalid]
  decide +kernel

end Context

end Spreadsheet
