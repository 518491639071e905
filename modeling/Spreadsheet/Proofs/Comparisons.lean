import Mathlib
import Spreadsheet.Proofs.FiniteNumbers
import Spreadsheet.Proofs.Values
import Spreadsheet.Proofs.Written
/-!
# Comparisons

Of two finite numbers the first is less than the second, equal to it up to the
tolerance, or greater, and it is only one of these: `Comparison.order`. Each
comparison holds for some of the three outcomes, `Comparison.holds_eq`. So what
a criterion counts adds up, and a choice takes the branch of one outcome,
`Context.comparisons_part`.
-/

namespace Spreadsheet

namespace Number
open Float.Model

variable {u v : UnpackedFloat}

/-- Finite floats can be compared, and the other way round they compare the other way. -/
theorem exists_compare (hu : u.isFinite) (hv : v.isFinite) :
    ∃ o, u.compare v = some o ∧ v.compare u = some o.swap := by
  have hswap : ∀ (m n : Nat) (e f : Int), ((compare e f).then (compare m n)).swap =
      (compare f e).then (compare n m) := by
    intro m n e f
    rw [Ordering.swap_then, Int.compare_swap, Nat.compare_swap]
  rcases u with _ | _ | s | ⟨s, m, e, hm⟩
  · cases hu
  · cases hu
  · rcases v with _ | _ | t | ⟨_ | _, n, f, hn⟩
    · cases hv
    · cases hv
    · exact ⟨_, rfl, rfl⟩
    · exact ⟨_, rfl, rfl⟩
    · exact ⟨_, rfl, rfl⟩
  · rcases v with _ | _ | t | ⟨t, n, f, hn⟩
    · cases hv
    · cases hv
    · cases s <;> exact ⟨_, rfl, rfl⟩
    · cases s <;> cases t
      · exact ⟨_, rfl, congrArg (fun o => some (Ordering.swap o)) (hswap m n e f).symm⟩
      · exact ⟨_, rfl, rfl⟩
      · exact ⟨_, rfl, rfl⟩
      · exact ⟨_, rfl, congrArg some (hswap m n e f).symm⟩

/-- Finite floats of which neither is less than the other are the same or zeros. -/
theorem eq_of_compare (hu : u.isFinite) (hv : v.isFinite) (h : u.compare v = some .eq) :
    u = v ∨ ∃ s t, u = .zero s ∧ v = .zero t := by
  have hsame : ∀ {m n : Nat} {e f : Int}, (compare e f).then (compare m n) = .eq →
      m = n ∧ e = f := by
    intro m n e f heq
    obtain ⟨he, hm⟩ := Ordering.then_eq_eq.1 heq
    exact ⟨Nat.compare_eq_eq.1 hm, Int.compare_eq_eq.1 he⟩
  rcases u with _ | _ | s | ⟨s, m, e, hm⟩
  · cases hu
  · cases hu
  · rcases v with _ | _ | t | ⟨_ | _, n, f, hn⟩
    · cases hv
    · cases hv
    · exact .inr ⟨s, t, rfl, rfl⟩
    · cases h
    · cases h
  · rcases v with _ | _ | t | ⟨t, n, f, hn⟩
    · cases hv
    · cases hv
    · cases s <;> cases h
    · cases s <;> cases t
      · obtain ⟨rfl, rfl⟩ := hsame (Ordering.swap_eq_eq.1 (Option.some.inj h))
        exact .inl rfl
      · cases h
      · cases h
      · obtain ⟨rfl, rfl⟩ := hsame (Option.some.inj h)
        exact .inl rfl

/-- Finite floats of which neither is less than the other differ by nothing. -/
theorem sub_of_compare (spec : Format) (hu : u.isFinite) (hv : v.isFinite)
    (h : u.compare v = some .eq) : ∃ t, u.sub spec v = .zero t := by
  obtain rfl | ⟨s, t, rfl, rfl⟩ := eq_of_compare hu hv h
  · cases u with
    | infinity s => cases hu
    | notANumber => cases hu
    | zero s => cases s <;> exact ⟨_, rfl⟩
    | finite s m e hm =>
      refine ⟨.positive, ?_⟩
      simp only [UnpackedFloat.sub, Int.sub_self]
      rfl
  · cases s <;> cases t <;> exact ⟨_, rfl⟩

theorem lt_iff_compare {a b : Float} :
    a < b ↔ a.toModel.unpack.compare b.toModel.unpack = some .lt := by
  show decide (a.toModel < b.toModel) = true ↔ _
  rw [decide_eq_true_iff]
  exact beq_iff_eq

end Number

namespace Comparison

section
variable {a b : Float} (ha : a.isFinite) (hb : b.isFinite)
include ha hb

theorem close_of_compare (h : a.toModel.unpack.compare b.toModel.unpack = some .eq) :
    close a b := by
  obtain ⟨s, hs⟩ := Number.sub_of_compare Float.Model.Format.binary64 ha hb h
  have hsub : a - b = Float.ofModel (Float.Model.pack (.zero s)) :=
    congrArg (fun u => Float.ofModel (Float.Model.pack u)) hs
  unfold close
  rw [hsub]
  cases s <;> decide +kernel

/-- Of two finite numbers that are not equal up to the tolerance, just one is less. -/
theorem lt_iff_not_lt (h : close a b = false) : a < b ↔ ¬ b < a := by
  obtain ⟨o, hab, hba⟩ := Number.exists_compare ha hb
  rw [Number.lt_iff_compare, Number.lt_iff_compare, hab, hba]
  cases o with
  | lt => decide
  | gt => decide
  | eq =>
    rw [close_of_compare ha hb hab] at h
    cases h

end

/-- How two numbers compare, up to the tolerance. -/
def order (a b : Float) : Ordering :=
  if close a b then .eq else if a < b then .lt else .gt

/-- The outcomes for which the comparison holds. -/
def outcomes : Comparison → List Ordering
  | less => [.lt]
  | lessEqual => [.lt, .eq]
  | greater => [.gt]
  | greaterEqual => [.gt, .eq]
  | unequal => [.lt, .gt]
  | equal => [.eq]

/-- Whether a comparison of finite numbers holds is a matter of how they compare. -/
theorem holds_eq {a b : Float} (ha : a.isFinite) (hb : b.isFinite) (op : Comparison) :
    op.holds a b = decide (order a b ∈ op.outcomes) := by
  unfold order
  cases hclose : close a b with
  | true => cases op <;> simp [holds, outcomes, hclose]
  | false =>
    have hlt := lt_iff_not_lt ha hb hclose
    by_cases hba : b < a
    · have hab : ¬ a < b := fun h => hlt.1 h hba
      cases op <;> simp [holds, outcomes, hclose, hab, hba]
    · have hab : a < b := hlt.2 hba
      cases op <;> simp [holds, outcomes, hclose, hab, hba]

theorem countP_mem_cons {o : Ordering} {os : List Ordering} (h : o ∉ os) (l : List Ordering) :
    l.countP (· ∈ o :: os) = l.count o + l.countP (· ∈ os) := by
  induction l with
  | nil => rfl
  | cons p l ih =>
    rw [List.countP_cons, List.countP_cons, List.count_cons, ih]
    by_cases hp : p = o
    · subst hp
      simp [h]
      omega
    · simp [hp]
      omega

theorem countP_mem {os : List Ordering} (h : os.Nodup) (l : List Ordering) :
    l.countP (· ∈ os) = (os.map (l.count ·)).sum := by
  induction os with
  | nil => simp
  | cons o os ih =>
    obtain ⟨ho, hos⟩ := List.nodup_cons.1 h
    rw [countP_mem_cons ho, ih hos, List.map_cons, List.sum_cons]

/-- A comparison holds as often as its outcomes occur, taken together. -/
theorem countP_holds {t : Float} {xs : List Float} (ht : t.isFinite) (hxs : ∀ x ∈ xs, x.isFinite)
    (op : Comparison) :
    xs.countP (op.holds · t) = (op.outcomes.map ((xs.map (order · t)).count ·)).sum := by
  have hnodup : op.outcomes.Nodup := by cases op <;> decide
  rw [← countP_mem hnodup, List.countP_map]
  exact List.countP_congr fun x hx => by simp [holds_eq (hxs x hx) ht]

/-- All outcomes taken together occur as often as anything does. -/
theorem sum_count (l : List Ordering) :
    l.count .lt + l.count .eq + l.count .gt = l.length := by
  have hall : l.countP (· ∈ [Ordering.lt, .eq, .gt]) = l.length := by
    rw [List.countP_eq_length]
    intro o _
    cases o <;> rfl
  rw [← hall, countP_mem (by decide)]
  simp [Nat.add_assoc]

/-- Of the three comparisons for one outcome each, one holds. -/
theorem exists_holds {a b : Float} (ha : a.isFinite) (hb : b.isFinite) :
    ∃ chosen ∈ [less, equal, greater], ∀ op ∈ [less, equal, greater],
      op.holds a b = decide (op = chosen) := by
  simp only [holds_eq ha hb]
  cases order a b with
  | lt => exact ⟨less, by decide, by decide⟩
  | eq => exact ⟨equal, by decide, by decide⟩
  | gt => exact ⟨greater, by decide, by decide⟩

end Comparison

/-! ## Counts -/

namespace Evaluation

theorem number_eq {m : Type → Type} [Monad m] [Reporter m] {v : Value} {x : Float}
    (h : v.number? = some x) : (number v : ExceptT Failure m Float) = pure x := by
  cases v with
  | error f => cases h
  | number y => simp only [number, h]
  | text s => simp only [number, h]

theorem numberOf_id {v : Value} {x : Float} (h : v.number? = some x) :
    numberOf (m := Id) v = (pure x : ExceptT Failure Id Float) := number_eq h

theorem numbers_id {values : List Value} {xs : List Float}
    (h : List.Forall₂ (fun v x => v.number? = some x) values xs) :
    numbers (m := Id) (values.map .value) = (pure xs : ExceptT Failure Id (List Float)) := by
  induction h with
  | nil => rfl
  | @cons v x values xs hv _ ih =>
    unfold numbers at ih ⊢
    rw [List.map_cons, List.mapM_cons, ih, argument, numberOf_id hv]
    rfl

/-- What a criterion counts among numbers. -/
theorem countWhere_id {values : List Value} {xs : List Float} {v : Value} {t : Float}
    (hvalues : List.Forall₂ (fun v x => v.number? = some x) values xs) (hv : v.number? = some t)
    (op : Comparison) :
    countWhere (m := Id) (values.map .value ++ [.criterion op v]) =
      (.number (Float.ofNat (xs.countP (op.holds · t))) : Value) := by
  unfold countWhere
  rw [List.getLast?_concat, List.dropLast_concat]
  dsimp only
  rw [numbers_id hvalues, numberOf_id hv]
  rfl

end Evaluation

/-! ## Choices -/

theorem Run.bind_of_value {σ α β : Type} {x : Run σ α} {a : α} (hx : ∀ s, (x s).1 = a)
    (f : α → Run σ β) : x >>= f = x >>= fun _ => f a := by
  funext s
  show Run.bind x f s = Run.bind x (fun _ => f a) s
  simp only [Run.bind, hx]

namespace Evaluation
variable {σ : Type}

/-- The value of a branch of a choice, if there is one. -/
def branch {m : Type → Type} [Monad m] [Reporter m] : Option (Argument (m Value)) → m Value
  | some a => argument a
  | none => fail .noAlternative

theorem run_numberOf {x : Run σ Value} {v : Value} {a : Float} (hx : ∀ s, (x s).1 = v)
    (hv : v.number? = some a) : (numberOf x).run = x >>= fun _ => pure (.ok a) := by
  unfold numberOf
  rw [ExceptT.run_bind, ExceptT.run_monadLift, bind_map_left]
  show (x >>= fun v => (number v).run) = _
  rw [Run.bind_of_value hx, number_eq hv]
  rfl

/-- A choice between numbers evaluates both sides of its condition, and then one branch. -/
theorem choose_run {left right : Run σ Value} {v w : Value} {a b : Float}
    (hleft : ∀ s, (left s).1 = v) (hv : v.number? = some a)
    (hright : ∀ s, (right s).1 = w) (hw : w.number? = some b) (op : Comparison)
    (yes : Argument (Run σ Value)) (others : List (Argument (Run σ Value))) :
    choose (.condition op left right :: yes :: others) = (do
      let _ ← left
      let _ ← right
      branch (if op.holds a b then some yes else others.head?)) := by
  have hselect : op.select a b (yes :: others)[0]? (yes :: others)[1]? =
      if op.holds a b then some yes else others.head? := by
    rw [List.getElem?_cons_zero, List.getElem?_cons_succ, List.head?_eq_getElem?]
    rfl
  unfold choose settle
  dsimp only
  rw [ExceptT.run_bind, run_numberOf hleft hv]
  simp only [bind_assoc, pure_bind, ExceptT.run_bind, run_numberOf hright hw, hselect]
  cases (if op.holds a b then some yes else others.head?) with
  | some taken => simp [branch]
  | none =>
    simp only [ExceptT.run_bind, fail, branch, bind_assoc]
    rfl

end Evaluation

/-! ## Formulas -/

/-- The value is a finite number, or a text that denotes one. -/
def Value.IsFiniteNumber (v : Value) : Prop := ∃ x, v.number? = some x ∧ x.isFinite

theorem exists_numbers {values : List Value} (h : ∀ v ∈ values, v.IsFiniteNumber) :
    ∃ xs, List.Forall₂ (fun v x => v.number? = some x) values xs ∧
      ∀ x ∈ xs, (x : Float).isFinite := by
  induction values with
  | nil => exact ⟨[], .nil, List.forall_mem_nil _⟩
  | cons v values ih =>
    obtain ⟨⟨x, hv, hx⟩, hvalues⟩ := List.forall_mem_cons.1 h
    obtain ⟨xs, hall, hxs⟩ := ih hvalues
    exact ⟨x :: xs, .cons hv hall, List.forall_mem_cons.2 ⟨hx, hxs⟩⟩

namespace Context
variable {σ : Type} (ctx : Context σ) (n : Nat) (path : List Cell) (link : Link → Option String)

/-- The surroundings of the expressions in a formula that is reached over the cells of `path`,
where up to `n` more may be under evaluation and links have the values that `link` says. -/
def scope : Scope (Run σ) := ⟨(ctx.grid.host ctx.links (ctx.formulaCell n path)).reference, link⟩

/-- The same where all cells have their values already. -/
def settledScope : Scope Id :=
  ⟨(ctx.grid.host ctx.links
    (ctx.grid.valueWithin ctx.links ctx.options.pipeline n path) : Host Id).reference, link⟩

variable {ctx n path link}

theorem eval_scope (hoff : ctx.activeMemo = Memo.off) (e : Expr) (s : σ) :
    (e.eval (ctx.scope n path link) s).1 = e.eval (ctx.settledScope n path link) := by
  unfold scope settledScope
  rw [← Plan.run_eval, ← Plan.run_eval (m := Id)]
  exact Plan.run_value (fun d s => formulaCell_value hoff n path d s) _ s

/-- Among at least two numbers, a criterion counts those that compare with the threshold as it says.
-/
theorem eval_countWhere (hoff : ctx.activeMemo = Memo.off) {values : List Expr} {e : Expr}
    {xs : List Float} {t : Float} (hlength : 2 ≤ values.length)
    (hvalues : List.Forall₂ (fun v x => v.number? = some x)
      (values.map (Expr.eval (ctx.settledScope n path link))) xs)
    (he : (e.eval (ctx.settledScope n path link) : Value).number? = some t)
    {name : String} (hname : Function.ofName? name = some .countWhere) (op : Comparison) (s : σ) :
    ((Expr.call name (values.map .value ++ [.criterion op e])).eval (ctx.scope n path link) s).1 =
      .number (Float.ofNat (xs.countP (op.holds · t))) := by
  have harity : Function.countWhere.arity.accepts
      (values.map .value ++ [.criterion op e] : List (Argument Expr)).length := by
    simp [Function.arity, Arity.accepts]
    omega
  rw [eval_scope hoff, Expr.eval, Evaluation.call, hname, Argument.delay_eq_map]
  dsimp only
  rw [List.length_map, if_pos harity, Evaluation.apply, List.map_append, List.map_map]
  have hmap : values.map (Argument.map (Expr.eval (ctx.settledScope n path link)) ∘ .value) =
      (values.map (Expr.eval (ctx.settledScope n path link))).map .value := by
    rw [List.map_map]
    rfl
  rw [hmap]
  exact Evaluation.countWhere_id hvalues he op

/-- A choice between numbers evaluates both sides of its condition and then one branch: the first
one if the comparison holds, otherwise the other one. -/
theorem eval_choice (hoff : ctx.activeMemo = Memo.off) {left right : Expr} {a b : Float}
    (hleft : (left.eval (ctx.settledScope n path link) : Value).number? = some a)
    (hright : (right.eval (ctx.settledScope n path link) : Value).number? = some b)
    {name : String} (hname : Function.ofName? name = some .choice) (op : Comparison)
    (yes : Argument Expr) {others : List (Argument Expr)} (hothers : others.length ≤ 1) :
    (Expr.call name (.condition op left right :: yes :: others)).eval (ctx.scope n path link) = (do
      let _ ← left.eval (ctx.scope n path link)
      let _ ← right.eval (ctx.scope n path link)
      Evaluation.branch ((if op.holds a b then some yes else others.head?).map
        (Argument.map (Expr.eval (ctx.scope n path link))))) := by
  have harity : Function.choice.arity.accepts
      (.condition op left right :: yes :: others : List (Argument Expr)).length := by
    simp [Function.arity, Arity.accepts]
    omega
  rw [Expr.eval, Evaluation.call, hname, Argument.delay_eq_map]
  dsimp only
  rw [List.length_map, if_pos harity, Evaluation.apply, List.map_cons, List.map_cons, Argument.map,
    Evaluation.choose_run (eval_scope hoff left) hleft (eval_scope hoff right) hright,
    List.head?_map]
  split <;> rfl

/-- Without a memory, criteria part numbers by how they compare with the threshold, and so do the
conditions of choices: those that ask for less, for equal and for greater numbers exclude each
other and leave nothing out, and the other comparisons are made up of them. -/
theorem comparisons_part (ctx : Context σ) (hoff : ctx.activeMemo = Memo.off) (n : Nat)
    (path : List Cell) (link : Link → Option String) (s : σ) :
    (∀ (values : List Expr) (threshold : Expr), 2 ≤ values.length →
      (∀ e ∈ threshold :: values, (e.eval (ctx.scope n path link) s).1.IsFiniteNumber) →
      ∃ count : Comparison → Nat,
        (∀ name, Function.ofName? name = some .countWhere → ∀ op s',
          ((Expr.call name (values.map .value ++ [.criterion op threshold])).eval
            (ctx.scope n path link) s').1 = .number (Float.ofNat (count op))) ∧
        count .less + count .equal + count .greater = values.length ∧
        count .lessEqual = count .less + count .equal ∧
        count .greaterEqual = count .greater + count .equal ∧
        count .unequal + count .equal = values.length) ∧
    ∀ left right : Expr,
      (∀ e ∈ [left, right], (e.eval (ctx.scope n path link) s).1.IsFiniteNumber) →
      ∃ chosen ∈ [Comparison.less, .equal, .greater],
        ∀ op ∈ [Comparison.less, .equal, .greater], ∀ name yes others,
          Function.ofName? name = some .choice → others.length ≤ 1 →
          (Expr.call name (.condition op left right :: yes :: others)).eval
            (ctx.scope n path link) = (do
              let _ ← left.eval (ctx.scope n path link)
              let _ ← right.eval (ctx.scope n path link)
              Evaluation.branch ((if op = chosen then some yes else others.head?).map
                (Argument.map (Expr.eval (ctx.scope n path link))))) := by
  have hvalue : ∀ e : Expr, (e.eval (ctx.scope n path link) s).1.IsFiniteNumber →
      Value.IsFiniteNumber (e.eval (ctx.settledScope n path link)) := by
    intro e he
    rwa [eval_scope hoff] at he
  constructor
  · intro values threshold hlength hfinite
    obtain ⟨hthreshold, hvalues⟩ := List.forall_mem_cons.1 hfinite
    obtain ⟨t, ht, htfinite⟩ := hvalue _ hthreshold
    obtain ⟨xs, hall, hxs⟩ := exists_numbers
      (List.forall_mem_map.2 fun e he => hvalue e (hvalues e he))
    have hsum := Comparison.sum_count (xs.map (Comparison.order · t))
    rw [List.length_map, ← hall.length_eq, List.length_map] at hsum
    refine ⟨fun op => xs.countP (op.holds · t), fun name hname op s' =>
      eval_countWhere hoff hlength hall ht hname op s', ?_⟩
    simp only [Comparison.countP_holds htfinite hxs, Comparison.outcomes, List.map_cons,
      List.map_nil, List.sum_cons, List.sum_nil]
    omega
  · intro left right hfinite
    obtain ⟨a, ha, hafinite⟩ := hvalue left (hfinite left (by simp))
    obtain ⟨b, hb, hbfinite⟩ := hvalue right (hfinite right (by simp))
    obtain ⟨chosen, hchosen, hholds⟩ := Comparison.exists_holds hafinite hbfinite
    refine ⟨chosen, hchosen, fun op hop name yes others hname hothers => ?_⟩
    rw [eval_choice hoff ha hb hname op yes hothers, hholds op hop]
    simp only [decide_eq_true_eq]

/-- The first of the numbers is equal to the second one only up to the tolerance. -/
theorem comparisons_part_tolerated :
    let ctx : Context Unit := { grid := Grid.column ["=0.1+0.2", "0.3", "=A2*5"] }
    let scope := ctx.scope 2 [] fun _ => none
    let values := [Expr.cell Cell.a1, .cell Cell.a2, .cell Cell.a3]
    (∀ e ∈ .cell Cell.a2 :: values, (e.eval scope ()).1.IsFiniteNumber) ∧
      (∃ count : Comparison → Nat,
        (∀ op, ((Expr.call "countif" (values.map .value ++ [.criterion op (.cell Cell.a2)])).eval
          scope ()).1 = .number (Float.ofNat (count op))) ∧
        count .less + count .equal + count .greater = 3) ∧
      ∃ chosen ∈ [Comparison.less, .equal, .greater], ∀ op ∈ [Comparison.less, .equal, .greater],
        (Expr.call "if" [.condition op (.cell Cell.a1) (.cell Cell.a2), .value (.number 1.0),
          .value (.number 2.0)]).eval scope = (do
            let _ ← (Expr.cell Cell.a1).eval scope
            let _ ← (Expr.cell Cell.a2).eval scope
            Evaluation.branch ((if op = chosen then some (.value (.number 1.0))
              else some (.value (.number 2.0))).map (Argument.map (Expr.eval scope)))) := by
  intro ctx scope values
  have hvalue : ∀ {v : Value} {x : Float}, v = .number x → x.isFinite → v.IsFiniteNumber :=
    fun hv hx => ⟨_, by rw [hv]; rfl, hx⟩
  have h1 : ((Expr.cell Cell.a1).eval scope ()).1.IsFiniteNumber :=
    hvalue (x := 0.1 + 0.2) (by decide +kernel) (by decide +kernel)
  have h2 : ((Expr.cell Cell.a2).eval scope ()).1.IsFiniteNumber :=
    hvalue (x := 0.3) (by decide +kernel) (by decide +kernel)
  have h3 : ((Expr.cell Cell.a3).eval scope ()).1.IsFiniteNumber :=
    hvalue (x := 0.3 * 5.0) (by decide +kernel) (by decide +kernel)
  have hfinite : ∀ e ∈ .cell Cell.a2 :: values, (e.eval scope ()).1.IsFiniteNumber :=
    List.forall_mem_cons.2 ⟨h2, List.forall_mem_cons.2 ⟨h1, List.forall_mem_cons.2
      ⟨h2, List.forall_mem_singleton.2 h3⟩⟩⟩
  have hparts := comparisons_part ctx rfl 2 [] (fun _ => none) ()
  obtain ⟨count, hcount, hsum, -⟩ := hparts.1 values (.cell Cell.a2) (by decide) hfinite
  obtain ⟨chosen, hchosen, hchoice⟩ := hparts.2 (.cell Cell.a1) (.cell Cell.a2)
    (List.forall_mem_cons.2 ⟨h1, List.forall_mem_singleton.2 h2⟩)
  exact ⟨hfinite, ⟨count, fun op => hcount "countif" (by decide) op (), hsum⟩, chosen, hchosen,
    fun op hop => hchoice op hop "if" _ [_] (by decide) (by decide)⟩

end Context
end Spreadsheet
