import PigChain.Proofs.Graph
import PigChain.Proofs.Lowering

/-!
# How many statements a script has

Every source, filter, projection, grouping, ordering and limit of a graph is one statement of its script, and so are those
of the stages inside scalars. Columns that a stage only notes are no statement, and neither are scalars inside them.
-/

namespace PigChain

/-! ### Counts -/

mutual

/-- How many statements the scalars in an expression take. -/
def Expr.statementCount : Expr → Nat
  | .constant .. => 0
  | .column .. => 0
  | .unary _ x _ => x.statementCount
  | .binary _ x y _ => x.statementCount + y.statementCount
  | .conditional c x y _ => c.statementCount + (x.statementCount + y.statementCount)
  | .isNull x => x.statementCount
  | .call object _ args _ => Expr.statementCountList args + Expr.statementCountOption object
  | .scalar s _ => s.statementCount
  | _ => 0

def Expr.statementCountOption : Option Expr → Nat
  | none => 0
  | some x => x.statementCount

def Expr.statementCountList : List Expr → Nat
  | [] => 0
  | x :: xs => x.statementCount + Expr.statementCountList xs

def Column.statementCountList : List Column → Nat
  | [] => 0
  | ⟨_, x⟩ :: cs => x.statementCount + Column.statementCountList cs

def Ordering.statementCountList : List Ordering → Nat
  | [] => 0
  | ⟨x, _⟩ :: os => x.statementCount + Ordering.statementCountList os

def Grouping.statementCount : Grouping → Nat
  | .all => 0
  | .keys ks => Expr.statementCountList ks

def Grouping.statementCountOption : Option Grouping → Nat
  | none => 0
  | some g => g.statementCount

/-- How many statements a stage takes, with the stages that it reads. -/
def Stage.statementCount : Stage → Nat
  | ⟨source, filter, columns, projected, grouping, orderBy, limit, _, _⟩ =>
    source.statementCount + (Expr.statementCountOption filter + filter.toList.length +
      ((if projected then Column.statementCountList columns + 1 else 0) +
        (Grouping.statementCountOption grouping + grouping.toList.length +
          ((if orderBy.isEmpty then 0 else Ordering.statementCountList orderBy + 1) + limit.toList.length))))

def Source.statementCount : Source → Nat
  | .base _ => 1
  | .stage inner => inner.statementCount

end

/-! ### Runs that add a fixed number of statements -/

/-- Whenever the run succeeds, it has added `n` statements. -/
def Lower.Emits {α : Type} (x : Lower α) (n : Nat) : Prop :=
  ∀ ss a ss', x.run ss = .ok (a, ss') → ss'.length = ss.length + n

namespace Lower.Emits

variable {α β : Type}

theorem pure (a : α) : Emits (Pure.pure a) 0 := by
  intro ss b ss' hrun
  cases hrun
  rfl

theorem throw (err : Error) (n : Nat) : Emits (MonadExcept.throw err : Lower α) n := by
  intro ss a ss' hrun
  cases hrun

theorem lift (result : Except Error α) : Emits (liftM result : Lower α) 0 := by
  intro ss a ss' hrun
  cases result with
  | error err => cases hrun
  | ok b =>
    cases hrun
    rfl

theorem emit (st : Statement) : Emits (Lower.emit st) 1 := by
  intro ss n ss' hrun
  cases hrun
  exact List.length_append

theorem bind {x : Lower α} {f : α → Lower β} {m n : Nat} (hx : Emits x m) (hf : ∀ a, Emits (f a) n) :
    Emits (x >>= f) (m + n) := by
  intro ss b ss₂ hrun
  rw [StateT.run_bind] at hrun
  obtain ⟨⟨a, ss₁⟩, ha, hb⟩ := except_do_eq_ok.mp hrun
  have hfirst := hx ss a ss₁ ha
  have hsecond := hf a ss₁ b ss₂ hb
  omega

/-- A result that is only put into another form. -/
theorem map {x : Lower α} {f : α → β} {n : Nat} (hx : Emits x n) : Emits (x >>= fun a => Pure.pure (f a)) n :=
  hx.bind fun a => pure (f a)

end Lower.Emits

/-! ### Expressions -/

open Lower (Emits)

/-- The term of an expression adds the statements of its scalars. -/
def Expr.Counted (e : Expr) : Prop := ∀ bag, Emits (e.lower bag) e.statementCount

variable {s : Stage} {e : Expr} {bag : Option Nat}

theorem emits_list {xs : List Expr} (h : ∀ x ∈ xs, x.Counted) :
    Emits (Expr.lowerList bag xs) (Expr.statementCountList xs) := by
  induction xs with
  | nil =>
    rw [Expr.lowerList, Expr.statementCountList]
    exact .pure []
  | cons x xs ih =>
    rw [Expr.lowerList, Expr.statementCountList]
    apply (h x List.mem_cons_self bag).bind
    intro t
    exact (ih fun y hy => h y (List.mem_cons_of_mem x hy)).map

theorem emits_items {columns : List Column} (h : ∀ c ∈ columns, c.expr.Counted) :
    Emits (Column.lowerList bag columns) (Column.statementCountList columns) := by
  induction columns with
  | nil =>
    rw [Column.lowerList, Column.statementCountList]
    exact .pure []
  | cons c columns ih =>
    obtain ⟨name, x⟩ := c
    rw [Column.lowerList, Column.statementCountList]
    apply (h ⟨name, x⟩ List.mem_cons_self bag).bind
    intro t
    exact (ih fun d hd => h d (List.mem_cons_of_mem _ hd)).map

theorem emits_keys {orderBy : List Ordering} (h : ∀ o ∈ orderBy, o.expr.Counted) :
    Emits (Ordering.lowerList bag orderBy) (Ordering.statementCountList orderBy) := by
  induction orderBy with
  | nil =>
    rw [Ordering.lowerList, Ordering.statementCountList]
    exact .pure []
  | cons o orderBy ih =>
    obtain ⟨x, d⟩ := o
    rw [Ordering.lowerList, Ordering.statementCountList]
    apply (h ⟨x, d⟩ List.mem_cons_self bag).bind
    intro t
    exact (ih fun p hp => h p (List.mem_cons_of_mem _ hp)).map

/-- One case a kind of node; a scalar is the only one that adds statements of its own. -/
theorem counted_of_children (h : ∀ c ∈ e.children, c.Counted)
    (hstage : ∀ s type, e = .scalar s type → Emits s.lower s.statementCount) : e.Counted := by
  intro bag
  cases e with
  | constant v t =>
    rw [Expr.lower, Expr.statementCount]
    exact .lift _
  | column name scope t =>
    rw [Expr.lower, Expr.statementCount]
    exact .lift _
  | unary op x t =>
    have hx := h x List.mem_cons_self bag
    rw [Expr.statementCount]
    cases op with
    | not =>
      rw [Expr.lower]
      exact hx.map
    | negate =>
      rw [Expr.lower]
      exact hx.map
    | convert =>
      rw [Expr.lower]
      cases t.cast? with
      | none => exact .throw _ _
      | some type => exact hx.map
  | binary op x y t =>
    rw [Expr.lower, Expr.statementCount]
    apply (h x (by simp [Expr.children]) bag).bind
    intro u
    exact (h y (by simp [Expr.children]) bag).map
  | conditional c x y t =>
    rw [Expr.lower, Expr.statementCount]
    apply (h c (by simp [Expr.children]) bag).bind
    intro u
    apply (h x (by simp [Expr.children]) bag).bind
    intro v
    exact (h y (by simp [Expr.children]) bag).map
  | isNull x =>
    rw [Expr.lower, Expr.statementCount]
    exact (h x List.mem_cons_self bag).map
  | call object method args t =>
    rw [Expr.lower, Expr.statementCount]
    apply (emits_list fun x hx => h x (List.mem_append_right _ hx)).bind
    intro us
    cases object with
    | none =>
      rw [Expr.statementCountOption]
      exact .lift _
    | some x =>
      rw [Expr.statementCountOption]
      exact (h x (by simp [Expr.children]) bag).bind fun u => .lift _
  | scalar s t =>
    rw [Expr.lower, Expr.statementCount]
    exact (hstage s t rfl).map
  | _ =>
    simp only [Expr.lower]
    exact .throw _ _

/-! ### Stages -/

theorem emits_filter {filter : Option Expr} (r : Relation) (h : ∀ x ∈ filter, x.Counted) :
    Emits (Stage.lowerFilter r filter) (Expr.statementCountOption filter + filter.toList.length) := by
  cases filter with
  | none =>
    rw [Stage.lowerFilter, Expr.statementCountOption]
    exact .pure r
  | some x =>
    rw [Stage.lowerFilter, Expr.statementCountOption]
    exact (h x rfl r.bag).bind fun t => (Emits.emit _).map

theorem emits_columns {columns : List Column} (r : Relation) (projected : Bool) (h : ∀ c ∈ columns, c.expr.Counted) :
    Emits (Stage.lowerColumns r projected columns)
      (if projected then Column.statementCountList columns + 1 else 0) := by
  cases projected with
  | false => exact .pure r
  | true => exact (emits_items h).bind fun items => (Emits.emit _).map

theorem emits_grouping {grouping : Option Grouping} (r : Relation) (h : ∀ x ∈ Grouping.exprs grouping, x.Counted) :
    Emits (Stage.lowerGrouping r grouping) (Grouping.statementCountOption grouping + grouping.toList.length) := by
  cases grouping with
  | none =>
    rw [Stage.lowerGrouping, Grouping.statementCountOption]
    exact .pure r
  | some g =>
    cases g with
    | all =>
      rw [Stage.lowerGrouping, Grouping.statementCountOption, Grouping.statementCount]
      exact (Emits.emit _).map
    | keys ks =>
      rw [Stage.lowerGrouping, Grouping.statementCountOption, Grouping.statementCount]
      exact (emits_list h).bind fun ts => (Emits.emit _).map

/-- An ordering is written if it has a key, and it has a term for each key. -/
theorem emits_order {orderBy : List Ordering} (r : Relation) (h : ∀ o ∈ orderBy, o.expr.Counted) :
    Emits (Stage.lowerOrder r orderBy) (if orderBy.isEmpty then 0 else Ordering.statementCountList orderBy + 1) := by
  cases orderBy with
  | nil =>
    rw [Stage.lowerOrder, Ordering.lowerList, pure_bind]
    exact .pure r
  | cons o orderBy =>
    obtain ⟨x, d⟩ := o
    rw [Stage.lowerOrder, Ordering.lowerList, Ordering.statementCountList, List.isEmpty_cons,
      if_neg Bool.false_ne_true, Nat.add_assoc]
    simp only [bind_assoc, pure_bind]
    apply (h ⟨x, d⟩ List.mem_cons_self r.bag).bind
    intro t
    apply (emits_keys fun o ho => h o (List.mem_cons_of_mem _ ho)).bind
    intro keys
    exact (Emits.emit _).map

theorem emits_limit (r : Relation) (limit : Option UInt64) : Emits (Stage.lowerLimit r limit) limit.toList.length := by
  cases limit with
  | none => exact .pure r
  | some count => exact (Emits.emit _).map

mutual

theorem emits_stage : ∀ (s : Stage), (∀ x ∈ s.exprs, x.Counted) → Emits s.lower s.statementCount
  | ⟨source, filter, columns, projected, grouping, orderBy, limit, element, projector⟩, h => by
    rw [Stage.lower_eq, Stage.statementCount]
    apply (emits_source source fun x hx => h x (Stage.mem_exprs.mpr (.inl hx))).bind
    intro r
    apply (emits_filter r fun x hx => h x (Stage.mem_exprs.mpr (.inr (.inl hx)))).bind
    intro r
    apply (emits_columns r projected fun c hc =>
      h c.expr (Stage.mem_exprs.mpr (.inr (.inr (.inl (List.mem_map_of_mem hc)))))).bind
    intro r
    apply (emits_grouping r fun x hx => h x (Stage.mem_exprs.mpr (.inr (.inr (.inr (.inl hx)))))).bind
    intro r
    apply (emits_order r fun o ho =>
      h o.expr (Stage.mem_exprs.mpr (.inr (.inr (.inr (.inr (List.mem_map_of_mem ho))))))).bind
    intro r
    exact emits_limit r limit

theorem emits_source : ∀ (source : Source), (∀ x ∈ source.exprs, x.Counted) →
    Emits source.lower source.statementCount
  | .base name, _ => by
    rw [Source.lower, Source.statementCount]
    exact (Emits.emit _).map
  | .stage inner, h => by
    rw [Source.exprs] at h
    rw [Source.lower, Source.statementCount]
    exact emits_stage inner h

end

theorem counted (e : Expr) : e.Counted := by
  induction e using Expr.childInduction with
  | h e ih =>
    apply counted_of_children ih
    rintro s type rfl
    exact emits_stage s ih

/-- A script has the statements that its graph takes. -/
theorem length_of_script {script : Script} (h : s.script = .ok script) :
    script.statements.length = s.statementCount := by
  unfold Stage.script at h
  cases hrun : s.lower.run [] with
  | error err =>
    rw [hrun] at h
    cases h
  | ok a =>
    obtain ⟨r, statements⟩ := a
    rw [hrun] at h
    cases h
    have hlength := emits_stage s (fun x _ => counted x) [] r statements hrun
    rw [hlength, List.length_nil, Nat.zero_add]

end PigChain
