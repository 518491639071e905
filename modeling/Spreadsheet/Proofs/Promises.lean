import Spreadsheet.Proofs.Levels
import Spreadsheet.Proofs.Watches
/-!
# What formulas promise

The parts of formulas are gone through here once, for all that is to be shown of
their plans. A `Promise` is made with a watch: it says which values evaluation
comes to in which states, and that the steps of a plan may be taken. An
expression keeps the promise if what is written in it does,
`Promise.keeps_eval`, and so does a formula, `Promise.keeps_evaluateFormula`.
-/

namespace Spreadsheet

/-! ## Failures -/

/-- The failure arises in a formula itself, not in a cell that it refers to. -/
def Failure.OfFormula : Failure → Prop
  | outsideGrid _ | emptyCell _ | invalidCell _ | circular _ | chainTooDeep _ | stated _ _ => False
  | _ => True

/-- The failure arises where a function or an operator is put to the values at hand. -/
def Failure.OfCalculation : Failure → Prop
  | misplacedComparison _ | noCondition | noAlternative | noCriterion | unknownFunction _
  | wrongArity _ | notANumber _ | outOfRange | divisionByZero => True
  | _ => False

theorem Failure.OfCalculation.ofFormula {f : Failure} (h : f.OfCalculation) : f.OfFormula := by
  cases f <;> simp_all [OfCalculation, OfFormula]

theorem Failure.OfCalculation.kind_ne {f : Failure} (h : f.OfCalculation) :
    f.kind ≠ .externalLookupFailure := by
  intro hkind
  cases f with
  | malformed error | lookupFailed l | stated kind message => exact h.elim
  | _ => cases hkind

/-! ## Functions -/

/-- The function has no value but a failure if an argument has none. -/
def Function.isStrict : Function → Bool
  | sum | minimum | maximum | countWhere => true
  | average | count | choice => false

/-- The function may have a value although an argument has none. -/
def Function.isTolerant : Function → Bool
  | average | count => true
  | sum | minimum | maximum | choice | countWhere => false

/-! ## Numbers -/

/-- Finite numbers are fine, and so are fine ones with their sign changed. -/
structure Admits (fine : Float → Prop) : Prop where
  finite : ∀ x, x.isFinite → fine x
  neg : ∀ x, fine x → fine (-x)

theorem admits_true : Admits fun _ => True := ⟨fun _ _ => trivial, fun _ _ => trivial⟩

theorem Admits.read? {fine : Float → Prop} (hfine : Admits fine) {s : String} {x : Float}
    (h : Number.read? s = some x) : fine x := by
  unfold Number.read? at h
  generalize Number.readSign (Unicode.trim s.toList) = sign at h
  obtain ⟨d, -, h⟩ := Option.bind_eq_some_iff.1 h
  dsimp only at h
  split at h
  · rename_i hfinite
    cases h
    split
    · exact hfine.neg _ (hfine.finite _ hfinite)
    · exact hfine.finite _ hfinite
  · cases h

/-- The numbers written are fine, and so is any count of the arguments of a call. -/
def Finely (fine : Float → Prop) (numbers : List Float) (widths : List Nat) : Prop :=
  (∀ x ∈ numbers, fine x) ∧ ∀ w ∈ widths, ∀ n ≤ w, fine (Float.ofNat n)

theorem finely_true (numbers : List Float) (widths : List Nat) :
    Finely (fun _ => True) numbers widths :=
  ⟨fun _ _ => trivial, fun _ _ _ _ => trivial⟩

/-! ## Promises -/

/-- What is said of values, with a watch over the plans that come to them. -/
structure Outlook (S : Type) extends Watch S where
  /-- Evaluation may go on. -/
  ready : S → Prop
  /-- Evaluation may come to the failure. -/
  failed : Failure → S → Prop
  /-- Evaluation may come to the number. -/
  fine : Float → Prop
  /-- Evaluation may come to a value by way of the cell. -/
  seen : Cell → Prop

/-- Evaluation may come to the value by way of the cells. -/
def Outlook.Good {S : Type} (o : Outlook S) (cells : List Cell) : Value → S → Prop
  | .number x, s => o.ready s ∧ o.fine x ∧ ∀ c ∈ cells, o.seen c
  | .text _, s => o.ready s ∧ ∀ c ∈ cells, o.seen c
  | .error f, s => o.failed f s

/-- An outlook that holds of all calculations: they may report their failures, and cells may be
asked for. -/
structure Promise (S : Type) extends Outlook S where
  admits : Admits fine
  fails {f s} : f.OfCalculation → ready s → report f (failed f) s
  asks {c s} : ready s → ask c (toOutlook.Good [c]) s

namespace Promise

section
variable {S : Type} {q : Promise S} {cells cells' : List Cell} {s : S} {v : Value}

/-- The failure may be reported, and may then be what evaluation comes to. -/
def MayFail (q : Promise S) (f : Failure) : Prop := ∀ s, q.ready s → q.report f (q.failed f) s

/-- The plan comes to a good value. -/
abbrev Comes (q : Promise S) (cells : List Cell) (p : Plan Value) (s : S) : Prop :=
  p.Ends q.toWatch (q.Good cells) s

/-- The plan comes to a result with `post`, unless it stops at a failure before. -/
abbrev ComesExcept {α : Type} (q : Promise S) (post : α → S → Prop)
    (x : ExceptT Failure Plan α) (s : S) : Prop :=
  Plan.EndsExcept q.toWatch q.failed post x s

/-- The plan of a value keeps the promise, with the given cells on the way. -/
def Keeps (q : Promise S) (cells : List Cell) (p : Plan Value) : Prop :=
  ∀ s, q.ready s → q.Comes cells p s

/-- Evaluation may come to the number by way of the cells, and go on. -/
def Counted (q : Promise S) (cells : List Cell) (x : Float) (s : S) : Prop :=
  q.ready s ∧ q.fine x ∧ ∀ c ∈ cells, q.seen c

theorem mayFail {f : Failure} (h : f.OfCalculation) : q.MayFail f := fun _ hs => q.fails h hs

theorem ready_of_good (hv : q.Good cells v s) (hvalue : v.isError = false) : q.ready s := by
  cases v with
  | error f => cases hvalue
  | number x => exact hv.1
  | text x => exact hv.1

theorem seen_of_good (hv : q.Good cells v s) (hvalue : v.isError = false) :
    ∀ c ∈ cells, q.seen c := by
  cases v with
  | error f => cases hvalue
  | number x => exact hv.2.2
  | text x => exact hv.2

/-- A value that was good is so later, unless it is a failure. -/
theorem good_later {s' : S} (hv : q.Good cells v s) (hs : q.ready s')
    (hfailed : ∀ f, v = .error f → q.failed f s') : q.Good cells v s' := by
  cases v with
  | error f => exact hfailed f rfl
  | number x => exact ⟨hs, hv.2⟩
  | text x => exact ⟨hs, hv.2⟩

theorem good_of_seen (hv : q.Good cells v s) (hseen : ∀ c ∈ cells', q.seen c) :
    q.Good cells' v s := by
  cases v with
  | error f => exact hv
  | number x => exact ⟨hv.1, hv.2.1, hseen⟩
  | text x => exact ⟨hv.1, hseen⟩

theorem good_ofLiteral (hs : q.ready s) (hseen : ∀ c ∈ cells, q.seen c) (content : String) :
    q.Good cells (Value.ofLiteral content) s := by
  unfold Value.ofLiteral
  split
  · exact ⟨hs, q.admits.read? ‹_›, hseen⟩
  · exact ⟨hs, hseen⟩

/-! ## Values -/

theorem keeps_fail {f : Failure} (hf : q.MayFail f) : q.Keeps cells (Evaluation.fail f) := hf

theorem comesExcept_fail {f : Failure} (hf : q.MayFail f) (hs : q.ready s) :
    q.ComesExcept (q.Good cells) (Evaluation.fail f) s := hf s hs

theorem comes_settle {x : ExceptT Failure Plan Value} (hx : q.ComesExcept (q.Good cells) x s) :
    q.Comes cells (Evaluation.settle x) s :=
  Plan.ends_settle hx fun _ _ h => h

theorem comesExcept_number (hv : q.Good cells v s) :
    q.ComesExcept (q.Counted cells) (Evaluation.number v) s := by
  cases v with
  | error f => exact hv
  | number x => exact hv
  | text x =>
    simp only [Evaluation.number]
    cases h : (Value.text x).number? with
    | some y => exact ⟨hv.1, q.admits.read? h, hv.2⟩
    | none => exact q.fails (f := .notANumber _) trivial hv.1

theorem keeps_finite (hseen : ∀ c ∈ cells, q.seen c) (x : Float) :
    q.Keeps cells (Evaluation.finite x) := by
  intro s hs
  unfold Evaluation.finite
  split
  · exact ⟨hs, q.admits.finite x ‹_›, hseen⟩
  · exact keeps_fail (mayFail (f := .outOfRange) trivial) s hs

theorem comesExcept_finite (hs : q.ready s) (hseen : ∀ c ∈ cells, q.seen c) (x : Float) :
    q.ComesExcept (q.Good cells) (Evaluation.finite x) s := by
  unfold Evaluation.finite
  split
  · exact ⟨hs, q.admits.finite x ‹_›, hseen⟩
  · exact comesExcept_fail (mayFail (f := .outOfRange) trivial) hs

theorem comes_negate (hv : q.Good cells v s) : q.Comes cells (Evaluation.negate v) s :=
  comes_settle ((comesExcept_number hv).bind fun x _ hx =>
    ⟨hx.1, q.admits.neg x hx.2.1, hx.2.2⟩)

/-- The left operand was evaluated before the right one. If it is a failure, evaluation may still
come to it. -/
theorem comes_arithmetic (op : Operator) {a b : Value} {s₀ : S} (ha : q.Good cells a s₀)
    (hfailed : ∀ f, a = .error f → q.failed f s) (hb : q.Good cells' b s) :
    q.Comes (cells ++ cells') (Evaluation.arithmetic op a b) s := by
  unfold Evaluation.arithmetic
  split
  · exact hfailed _ rfl
  · exact hb
  · rename_i hleft hright
    have hready : q.ready s := ready_of_good hb (by cases b <;> simp_all [Value.isError])
    refine comes_settle ((comesExcept_number (good_later ha hready hfailed)).bind fun x s hx => ?_)
    have hb' : q.Good cells' b s := good_later hb hx.1 fun f hf => (hright f hf).elim
    refine (comesExcept_number hb').bind fun y s hy => ?_
    split
    · exact comesExcept_fail (mayFail (f := .divisionByZero) trivial) hy.1
    · exact comesExcept_finite hy.1 (List.forall_mem_append.2 ⟨hx.2.2, hy.2.2⟩) _

/-! ## Calls -/

/-- A call of the function keeps the promise. If the function goes on after the failure of an
argument, so must evaluation, and if it does without arguments, then nothing may be said of the
cells in them. -/
def Takes (q : Promise S) (f : Function) : Prop :=
  (f.isTolerant → ∀ f s, q.failed f s → q.ready s) ∧ (f.isStrict = false → ∀ c, q.seen c)

theorem takes_of_forall (hready : ∀ s, q.ready s) (hseen : ∀ c, q.seen c) (f : Function) :
    q.Takes f := ⟨fun _ _ s _ => hready s, fun _ => hseen⟩

theorem comesExcept_numberOf {p : Plan Value} (hp : q.Keeps cells p) (hs : q.ready s) :
    q.ComesExcept (q.Counted cells) (Evaluation.numberOf p) s :=
  (Plan.endsExcept_lift (hp s hs)).bind fun _ _ => comesExcept_number

section
variable {ι : Type} {plan : ι → Plan Value} {near : ι → List Cell} {a : Argument ι}
  {as : List (Argument ι)}

theorem keeps_argument (ha : ∀ i ∈ a.operands, q.Keeps (near i) (plan i)) :
    q.Keeps (a.operands.flatMap near) (Evaluation.argument (a.map plan)) := by
  cases a with
  | value i =>
    rw [Argument.operands, List.flatMap_singleton]
    exact ha i List.mem_cons_self
  | condition op left right => exact keeps_fail (mayFail (f := .misplacedComparison op) trivial)
  | criterion op operand => exact keeps_fail (mayFail (f := .misplacedComparison op) trivial)

variable (has : ∀ a ∈ as, ∀ i ∈ a.operands, q.Keeps (near i) (plan i))
include has

theorem comesExcept_numbers (hs : q.ready s) : q.ComesExcept
    (fun xs s => xs.length = as.length ∧ q.ready s ∧
      ∀ c ∈ as.flatMap fun a => a.operands.flatMap near, q.seen c)
    (Evaluation.numbers (as.map (Argument.map plan))) s := by
  unfold Evaluation.numbers
  induction as generalizing s with
  | nil => exact ⟨rfl, hs, fun _ h => nomatch h⟩
  | cons a as ih =>
    obtain ⟨ha, has⟩ := List.forall_mem_cons.1 has
    rw [List.map_cons, List.mapM_cons]
    refine (comesExcept_numberOf (keeps_argument ha) hs).bind fun x s hx => ?_
    refine (ih has hx.1).bind fun xs s hxs => ?_
    obtain ⟨hlength, hready, hseen⟩ := hxs
    exact ⟨congrArg (· + 1) hlength, hready, List.forall_mem_append.2 ⟨hx.2.2, hseen⟩⟩

theorem ends_values (hfailed : ∀ f s, q.failed f s → q.ready s) (hs : q.ready s) :
    ((as.map (Argument.map plan)).mapM Evaluation.argument).Ends q.toWatch
      (fun vs s => vs.length = as.length ∧ q.ready s) s := by
  induction as generalizing s with
  | nil => exact ⟨rfl, hs⟩
  | cons a as ih =>
    obtain ⟨ha, has⟩ := List.forall_mem_cons.1 has
    rw [List.map_cons, List.mapM_cons]
    refine (keeps_argument ha s hs).bind fun v s hv => ?_
    have hready : q.ready s := by
      cases v with
      | error f => exact hfailed f s hv
      | number x => exact hv.1
      | text x => exact hv.1
    exact (ih has hready).bind fun vs s hvs => ⟨congrArg (· + 1) hvs.1, hvs.2⟩

theorem keeps_choose (hseen : ∀ c, q.seen c) :
    q.Keeps cells (Evaluation.choose (as.map (Argument.map plan))) := by
  intro s hs
  have hfail : q.Comes cells (Evaluation.fail .noCondition) s :=
    keeps_fail (mayFail (f := .noCondition) trivial) s hs
  rcases as with _ | ⟨_ | ⟨op, left, right⟩ | _, branches⟩
  · exact hfail
  · exact hfail
  · obtain ⟨hcondition, hbranches⟩ := List.forall_mem_cons.1 has
    have hleft := hcondition left List.mem_cons_self
    have hright := hcondition right (List.mem_cons_of_mem _ List.mem_cons_self)
    refine comes_settle ((comesExcept_numberOf hleft hs).bind fun x s hx => ?_)
    refine (comesExcept_numberOf hright hx.1).bind fun y s hy => ?_
    split
    · rename_i branch h
      obtain ⟨a, ha, rfl⟩ := List.mem_map.1 (Comparison.mem_of_select h)
      refine Plan.endsExcept_lift ((keeps_argument (hbranches a ha) s hy.1).mono fun v s hv => ?_)
      exact good_of_seen hv fun c _ => hseen c
    · exact comesExcept_fail (mayFail (f := .noAlternative) trivial) hy.1
  · exact hfail

variable (hcount : ∀ n ≤ as.length, q.fine (Float.ofNat n))
include hcount

theorem keeps_countWhere : q.Keeps (as.flatMap fun a => a.operands.flatMap near)
    (Evaluation.countWhere (as.map (Argument.map plan))) := by
  intro s hs
  unfold Evaluation.countWhere
  split
  · rename_i op operand hlast
    rw [List.getLast?_map, Option.map_eq_some_iff] at hlast
    obtain ⟨a, hlast, ha⟩ := hlast
    obtain ⟨front, rfl⟩ := List.getLast?_eq_some_iff.1 hlast
    obtain ⟨hfront, hlast⟩ := List.forall_mem_append.1 has
    cases a with
    | value i => cases ha
    | condition op left right => cases ha
    | criterion op i =>
      cases ha
      have hoperand := hlast _ List.mem_cons_self i List.mem_cons_self
      rw [List.map_append, List.map_singleton, List.dropLast_concat]
      refine comes_settle ((comesExcept_numberOf hoperand hs).bind fun x s hx => ?_)
      refine (comesExcept_numbers hfront hx.1).bind fun xs s hxs => ?_
      obtain ⟨hlength, hready, hseen⟩ := hxs
      refine ⟨hready, hcount _ (Nat.le_trans List.countP_le_length ?_), ?_⟩
      · rw [hlength, List.length_append]
        exact Nat.le_add_right _ _
      · rw [List.flatMap_append]
        refine List.forall_mem_append.2 ⟨hseen, ?_⟩
        simpa [Argument.operands] using hx.2.2
  · exact keeps_fail (mayFail (f := .noCriterion) trivial) s hs

theorem keeps_apply {f : Function} (hf : q.Takes f) :
    q.Keeps (as.flatMap fun a => a.operands.flatMap near)
      (Evaluation.apply f (as.map (Argument.map plan))) := by
  intro s hs
  have hfold : ∀ g : List Float → Float, q.Comes (as.flatMap fun a => a.operands.flatMap near)
      (Evaluation.settle do
        Evaluation.finite (g (← Evaluation.numbers (as.map (Argument.map plan))))) s :=
    fun g => comes_settle ((comesExcept_numbers has hs).bind fun xs s hxs =>
      comesExcept_finite hxs.2.1 hxs.2.2 _)
  cases f with
  | sum => exact hfold _
  | average =>
    refine (ends_values has (hf.1 rfl) hs).bind fun values s hvalues => ?_
    exact keeps_finite (fun c _ => hf.2 rfl c) _ s hvalues.2
  | count =>
    refine (ends_values has (hf.1 rfl) hs).bind fun values s hvalues => ?_
    exact ⟨hvalues.2, hcount _ (hvalues.1 ▸ List.countP_le_length), fun c _ => hf.2 rfl c⟩
  | minimum => exact hfold _
  | maximum => exact hfold _
  | choice => exact keeps_choose has (hf.2 rfl) s hs
  | countWhere => exact keeps_countWhere has hcount s hs

theorem keeps_call {name : String} (hname : ∀ f, Function.ofName? name = some f → q.Takes f) :
    q.Keeps (as.flatMap fun a => a.operands.flatMap near)
      (Evaluation.call name (as.map (Argument.map plan))) := by
  unfold Evaluation.call
  split
  · exact keeps_fail (mayFail (f := .unknownFunction name) trivial)
  · rename_i f hf
    split
    · exact keeps_apply has hcount (hname f hf)
    · exact keeps_fail (mayFail (f := .wrongArity f) trivial)

end

/-! ## Expressions -/

/-- What is written in an expression keeps the promise: its numbers, how many arguments its calls
have, the functions that it calls, and the links in it that have no content. -/
structure Covers (q : Promise S) (link : Link → Option String) (numbers : List Float)
    (widths : List Nat) (links : List Link) (calls : List String) : Prop where
  finely : Finely q.fine numbers widths
  lost : ∀ l ∈ links, link l = none ∨ link l = some errorMark → q.MayFail (.lookupFailed l)
  takes : ∀ name ∈ calls, ∀ f, Function.ofName? name = some f → q.Takes f

section
variable {link : Link → Option String} {xs ys : List Float} {ws us : List Nat}
  {ls ms : List Link} {ns os : List String}

theorem Covers.left (h : q.Covers link (xs ++ ys) (ws ++ us) (ls ++ ms) (ns ++ os)) :
    q.Covers link xs ws ls ns where
  finely := ⟨fun x hx => h.finely.1 x (List.mem_append_left _ hx),
    fun w hw => h.finely.2 w (List.mem_append_left _ hw)⟩
  lost l hl := h.lost l (List.mem_append_left _ hl)
  takes name hname := h.takes name (List.mem_append_left _ hname)

theorem Covers.right (h : q.Covers link (xs ++ ys) (ws ++ us) (ls ++ ms) (ns ++ os)) :
    q.Covers link ys us ms os where
  finely := ⟨fun x hx => h.finely.1 x (List.mem_append_right _ hx),
    fun w hw => h.finely.2 w (List.mem_append_right _ hw)⟩
  lost l hl := h.lost l (List.mem_append_right _ hl)
  takes name hname := h.takes name (List.mem_append_right _ hname)

theorem keeps_follow {l : Link} {content : Option String} (hseen : ∀ c ∈ cells, q.seen c)
    (h : content = none ∨ content = some errorMark → q.MayFail (.lookupFailed l)) :
    q.Keeps cells (Evaluation.follow l content) := by
  unfold Evaluation.follow
  split
  · exact keeps_fail (h (.inl rfl))
  · split
    · rename_i hmark
      exact keeps_fail (h (.inr (congrArg some hmark)))
    · exact fun s hs => good_ofLiteral hs hseen _

mutual

/-- An expression keeps a promise that what is written in it keeps. -/
theorem keeps_eval : ∀ e : Expr, q.Covers link e.numbers e.widths e.links e.calls →
    q.Keeps e.cells (e.eval ⟨Plan.host.reference, link⟩)
  | .number x, h => by
    rw [Expr.eval]
    exact fun s hs => ⟨hs, h.finely.1 x List.mem_cons_self, fun _ h => nomatch h⟩
  | .text x, _ => by
    rw [Expr.eval]
    exact fun s hs => ⟨hs, fun _ h => nomatch h⟩
  | .cell c, _ => by
    rw [Expr.eval]
    exact fun s hs => q.asks hs
  | .link l, h => by
    rw [Expr.eval]
    exact keeps_follow (fun _ h => nomatch h) (h.lost l List.mem_cons_self)
  | .negate operand, h => by
    rw [Expr.eval]
    exact fun s hs => (keeps_eval operand h s hs).bind fun v s hv => comes_negate hv
  | .binary op left right, h => by
    intro s hs
    rw [Expr.eval]
    refine (keeps_eval left h.left s hs).bind fun a s ha => ?_
    cases a with
    | error f => exact ha
    | number x =>
      exact (keeps_eval right h.right s ha.1).bind fun b s hb =>
        comes_arithmetic op ha (fun _ h => nomatch h) hb
    | text x =>
      exact (keeps_eval right h.right s ha.1).bind fun b s hb =>
        comes_arithmetic op ha (fun _ h => nomatch h) hb
  | .call name as, h => by
    rw [Expr.eval, Expr.cells, Argument.cells_eq_flatMap, Argument.delay_eq_map]
    have hrest : q.Covers link (Argument.numbers as) (Argument.widths as) (Argument.links as)
        (Argument.calls as) :=
      ⟨⟨h.finely.1, fun w hw => h.finely.2 w (List.mem_cons_of_mem _ hw)⟩, h.lost,
        fun name hname => h.takes name (List.mem_cons_of_mem _ hname)⟩
    exact keeps_call (keeps_operands as hrest) (h.finely.2 _ List.mem_cons_self)
      (h.takes name List.mem_cons_self)

theorem keeps_operands : ∀ as : List (Argument Expr),
    q.Covers link (Argument.numbers as) (Argument.widths as) (Argument.links as)
      (Argument.calls as) →
    ∀ a ∈ as, ∀ e ∈ a.operands, q.Keeps e.cells (e.eval ⟨Plan.host.reference, link⟩)
  | [], _ => fun _ h => nomatch h
  | .value operand :: rest, h => List.forall_mem_cons.2
      ⟨List.forall_mem_singleton.2 (keeps_eval operand h.left), keeps_operands rest h.right⟩
  | .condition _ left right :: rest, h => List.forall_mem_cons.2
      ⟨List.forall_mem_cons.2 ⟨keeps_eval left h.left.left,
        List.forall_mem_singleton.2 (keeps_eval right h.left.right)⟩, keeps_operands rest h.right⟩
  | .criterion _ operand :: rest, h => List.forall_mem_cons.2
      ⟨List.forall_mem_singleton.2 (keeps_eval operand h.left), keeps_operands rest h.right⟩

end

end

/-! ## Formulas -/

/-- The numbers and calls in the expression keep the promise. -/
def Suits (q : Promise S) (e : Expr) : Prop :=
  Finely q.fine e.numbers e.widths ∧
    ∀ name ∈ e.calls, ∀ f, Function.ofName? name = some f → q.Takes f

theorem suits_of_forall {e : Expr} (he : Finely q.fine e.numbers e.widths)
    (hready : ∀ s, q.ready s) (hseen : ∀ c, q.seen c) : q.Suits e :=
  ⟨he, fun _ _ f _ => takes_of_forall hready hseen f⟩

/-- Formulas may fail by themselves, and they may ask for links. -/
structure OfFormulas (q : Promise S) : Prop where
  fails f : f.OfFormula → q.MayFail f
  resolves batch s : q.ready s → q.resolve batch q.ready s

/-- Evaluation may always go on, and it may come to a failure later, too. -/
structure Lasting (q : Promise S) : Prop extends q.OfFormulas where
  ready s : q.ready s
  steady f : q.toWatch.Steady (q.failed f)

theorem Suits.covers {e : Expr} (he : q.Suits e) (hq : q.OfFormulas)
    (link : Link → Option String) : q.Covers link e.numbers e.widths e.links e.calls :=
  ⟨he.1, fun l _ _ => hq.fails (.lookupFailed l) trivial, he.2⟩

theorem keeps_evaluateParsed (hq : q.OfFormulas) {parsed : Except ParseError Expr}
    (h : ∀ e ∈ parsed.toOption, q.Suits e) :
    q.Keeps (writtenCells parsed) (Plan.host.evaluateParsed parsed) := by
  cases parsed with
  | error e => exact keeps_fail (hq.fails (.malformed e) trivial)
  | ok e =>
    have he : q.Suits e := h e rfl
    intro s hs
    show q.Comes e.cells (Plan.host.evaluateExpr e) s
    unfold Host.evaluateExpr
    split
    · exact keeps_eval e (he.covers hq _) s hs
    · exact q.resolve_mono (fun s hs link => keeps_eval e (he.covers hq link) s hs)
        (hq.resolves _ s hs)

/-- A formula that is read as a whole keeps a promise that what is written in it keeps. -/
theorem keeps_grammar (hq : q.OfFormulas) {formula : List Char}
    (h : ∀ e ∈ readings .grammar formula, q.Suits e) :
    q.Keeps (written .grammar formula) (Plan.host.evaluateFormula .grammar formula) :=
  keeps_evaluateParsed hq fun e he => h e (Option.mem_toList.2 he)

/-- What failed before a plan has still failed behind it. -/
theorem ends_behind (hq : q.Lasting) (hv : q.Good [] v s) {p : Plan Value} (hp : q.Keeps [] p) :
    p.Ends q.toWatch (fun b s => q.Good [] b s ∧ ∀ f, v = .error f → q.failed f s) s := by
  have hends := hp s (hq.ready s)
  cases v with
  | error f =>
    refine (hends.and_steady (hq.steady f) hv).mono fun b s hb => ⟨hb.1, ?_⟩
    intro g hg
    cases hg
    exact hb.2
  | number x => exact hends.mono fun b s hb => ⟨hb, fun _ h => nomatch h⟩
  | text x => exact hends.mono fun b s hb => ⟨hb, fun _ h => nomatch h⟩

theorem keeps_joinOperands (hq : q.Lasting) {term : List Char → Plan Value} {text : List Char}
    (hterm : ∀ token ∈ Textual.terms text, q.Keeps [] (term token)) :
    q.Keeps [] (Textual.joinOperands Evaluation.arithmetic term text) := by
  intro s hs
  obtain ⟨hfirst, hrest⟩ := List.forall_mem_cons.1 hterm
  refine (hfirst s hs).bind fun start s hstart => ?_
  generalize (Textual.operands text).2 = rest at hrest ⊢
  induction rest generalizing start s with
  | nil => exact hstart
  | cons next rest ih =>
    obtain ⟨hnext, hrest⟩ := List.forall_mem_cons.1 hrest
    rw [List.foldlM_cons]
    refine Plan.Ends.bind ?_ fun v s hv => ih v s hv hrest
    exact (ends_behind hq hstart hnext).bind fun b s hb => comes_arithmetic _ hstart hb.2 hb.1

/-- There are levels enough for all groups, so none is refused without a report. -/
theorem keeps_reduceWithin (hq : q.Lasting) {operand : List Char → Plan Value} {levels : Nat}
    {text : List Char}
    (hoperand : ∀ token ∈ Textual.leavesWithin levels text, q.Keeps [] (operand token))
    (hlevels : Textual.nestingDepth text ≤ levels) :
    q.Keeps [] (Textual.reduceWithin operand Evaluation.arithmetic levels text) := by
  induction levels generalizing text with
  | zero =>
    refine keeps_joinOperands hq fun token htoken => ?_
    split
    · rename_i hgroup
      have hinner := Textual.nestingDepth_of_group? hgroup
      have htext := Textual.nestingDepth_of_mem_terms htoken
      omega
    · rename_i hgroup
      exact hoperand token (List.mem_filter.2 ⟨htoken, by rw [hgroup]; rfl⟩)
  | succ levels ih =>
    refine keeps_joinOperands hq fun token htoken => ?_
    have hleaves := fun leaf hleaf => hoperand leaf (List.mem_flatMap.2 ⟨token, htoken, hleaf⟩)
    split
    · rename_i inner hgroup
      have hinner := Textual.nestingDepth_of_group? hgroup
      have htext := Textual.nestingDepth_of_mem_terms htoken
      rw [hgroup] at hleaves
      exact ih hleaves (by omega)
    · rename_i hgroup
      rw [hgroup] at hleaves
      exact hleaves token List.mem_cons_self

theorem Keeps.of_nil {p : Plan Value} (h : q.Keeps cells p) : q.Keeps [] p :=
  fun s hs => (h s hs).mono fun _ _ hv => good_of_seen hv (List.forall_mem_nil _)

/-- A formula keeps a promise that the expressions keep that it is read as. -/
theorem keeps_evaluateFormula (hq : q.Lasting) {pipeline : Pipeline} {formula : List Char}
    (h : ∀ e ∈ readings pipeline formula, q.Suits e) :
    q.Keeps [] (Plan.host.evaluateFormula pipeline formula) := by
  cases pipeline with
  | grammar => exact (keeps_grammar hq.toOfFormulas h).of_nil
  | textual =>
    show q.Keeps [] (Plan.host.reduceBody (formula.drop 1))
    unfold Host.reduceBody
    split
    · exact keeps_fail (hq.fails (.malformed .nestedTooDeeply) trivial)
    · rename_i hdepth
      refine keeps_reduceWithin hq (fun token htoken => ?_)
        (Textual.nestingDepth_normalize_le_groupLimit (Nat.le_of_not_lt hdepth))
      simp only [Host.evaluateOperand]
      split
      · exact keeps_fail (hq.fails .missingOperand trivial)
      · exact (keeps_evaluateParsed hq.toOfFormulas fun e he =>
          h e (List.mem_filterMap.2 ⟨token, htoken, he⟩)).of_nil

end

end Promise

end Spreadsheet
