import PigChain.Proofs.Emission

/-!
# Where the terms of a script come from

Lowering writes a node as one term over the terms of its children, and only a scalar adds statements meanwhile, those of
its own stage. So every term in a script is how some expression of the graph is written, and what is true of the
expressions of a graph can be carried over to the text of its script term by term.
-/

namespace PigChain

/-- `e.WrittenAs u`: the term for `e`, with any numbers for the relations that it reads. -/
inductive Expr.WrittenAs : Expr → Term → Prop where
  | constant {value : Value} {type : DataType} {u : Term} (h : value.term = .ok u) :
    Expr.WrittenAs (.constant value type) u
  | column {bag : Option Nat} {name : String} {scope : Scope} {type : DataType} {u : Term}
    (h : columnTerm bag name scope = .ok u) : Expr.WrittenAs (.column name scope type) u
  | not {x : Expr} {type : DataType} {u : Term} (hx : Expr.WrittenAs x u) :
    Expr.WrittenAs (.unary .not x type) u.negation
  | negate {x : Expr} {type : DataType} {u : Term} (hx : Expr.WrittenAs x u) :
    Expr.WrittenAs (.unary .negate x type) (.negate u)
  | convert {x : Expr} {type : DataType} {cast : Cast} {u : Term} (h : type.cast? = some cast)
    (hx : Expr.WrittenAs x u) : Expr.WrittenAs (.unary .convert x type) (.cast cast u)
  | binary {op : BinaryOp} {x y : Expr} {type : DataType} {u v : Term} (hx : Expr.WrittenAs x u)
    (hy : Expr.WrittenAs y v) : Expr.WrittenAs (.binary op x y type) (binaryTerm op type u v)
  | conditional {x y z : Expr} {type : DataType} {u v w : Term} (hx : Expr.WrittenAs x u) (hy : Expr.WrittenAs y v)
    (hz : Expr.WrittenAs z w) : Expr.WrittenAs (.conditional x y z type) (.choose u v w)
  | isNull {x : Expr} {u : Term} (hx : Expr.WrittenAs x u) : Expr.WrittenAs (.isNull x) (.isNull u)
  | function {method : String} {x : Expr} {type : DataType} {u w : Term} (hx : Expr.WrittenAs x u)
    (h : callTerm method none [u] = .ok w) : Expr.WrittenAs (.call none method [x] type) w
  | method {method : String} {x : Expr} {type : DataType} {u w : Term} (hx : Expr.WrittenAs x u)
    (h : callTerm method (some u) [] = .ok w) : Expr.WrittenAs (.call (some x) method [] type) w
  | methodWith {method : String} {x y : Expr} {type : DataType} {u v w : Term} (hx : Expr.WrittenAs x u)
    (hy : Expr.WrittenAs y v) (h : callTerm method (some u) [v] = .ok w) :
    Expr.WrittenAs (.call (some x) method [y] type) w
  | scalar {s : Stage} {type : DataType} {relation : Nat} :
    Expr.WrittenAs (.scalar s type) (.single relation s.scalarColumn)

variable {s t : Stage} {e x y z : Expr} {u v w : Term}

/-! ### Runs that add statements -/

/-- All terms of statements are in `P`. -/
def Statement.TermsIn (P : Term → Prop) (ss : List Statement) : Prop := ∀ st ∈ ss, ∀ u ∈ st.terms, P u

/-- A run keeps the terms of statements in `P`, and its result is in `Q`. -/
def Writes {α : Type} (P : Term → Prop) (x : Lower α) (Q : α → Prop) : Prop :=
  ∀ ss a ss', x.run ss = .ok (a, ss') → Statement.TermsIn P ss → Statement.TermsIn P ss' ∧ Q a

namespace Writes

variable {α β : Type} {P : Term → Prop} {Q : α → Prop} {R : β → Prop}

theorem pure {a : α} (h : Q a) : Writes P (Pure.pure a) Q := by
  intro ss b ss' hrun hss
  cases hrun
  exact ⟨hss, h⟩

theorem throw (err : Error) : Writes P (MonadExcept.throw err : Lower α) Q := by
  intro ss a ss' hrun
  cases hrun

theorem lift {result : Except Error α} (h : ∀ a, result = .ok a → Q a) : Writes P (liftM result : Lower α) Q := by
  intro ss a ss' hrun hss
  cases result with
  | error err => cases hrun
  | ok b =>
    cases hrun
    exact ⟨hss, h _ rfl⟩

theorem bind {x : Lower α} {f : α → Lower β} (hx : Writes P x Q) (hf : ∀ a, Q a → Writes P (f a) R) :
    Writes P (x >>= f) R := by
  intro ss b ss₂ hrun hss
  rw [StateT.run_bind] at hrun
  obtain ⟨⟨a, ss₁⟩, ha, hb⟩ := except_do_eq_ok.mp hrun
  obtain ⟨hss₁, hQ⟩ := hx ss a ss₁ ha hss
  exact hf a hQ ss₁ b ss₂ hb hss₁

theorem emit {st : Statement} (h : ∀ u ∈ st.terms, P u) : Writes P (Lower.emit st) fun _ => True := by
  intro ss n ss' hrun hss
  cases hrun
  refine ⟨fun st' hst' => ?_, trivial⟩
  rcases List.mem_append.mp hst' with hst' | hst'
  · exact hss st' hst'
  · exact List.mem_singleton.mp hst' ▸ h

end Writes

/-! ### Expressions -/

section

variable {P : Term → Prop}

/-- An expression is lowered, over rows with a bag or without, to a term that it is written as. -/
def Expr.Writes (P : Term → Prop) (e : Expr) : Prop := ∀ bag, PigChain.Writes P (e.lower bag) e.WrittenAs

theorem writes_list {bag : Option Nat} {xs : List Expr} (h : ∀ x ∈ xs, x.Writes P) :
    Writes P (Expr.lowerList bag xs) (List.Forall₂ Expr.WrittenAs xs) := by
  induction xs with
  | nil =>
    rw [Expr.lowerList]
    exact .pure .nil
  | cons x xs ih =>
    rw [Expr.lowerList]
    refine (h x List.mem_cons_self bag).bind fun u hu => ?_
    refine (ih fun y hy => h y (List.mem_cons_of_mem x hy)).bind fun us hus => ?_
    exact .pure (.cons hu hus)

theorem writtenAs_call {object : Option Expr} {method : String} {args : List Expr} {type : DataType}
    {object' : Option Term} {us : List Term} (hobject : Option.Rel Expr.WrittenAs object object')
    (hargs : List.Forall₂ Expr.WrittenAs args us) (h : callTerm method object' us = .ok w) :
    (Expr.call object method args type).WrittenAs w := by
  cases hobject with
  | none =>
    cases hargs with
    | nil => cases h
    | cons hx hrest =>
      cases hrest with
      | nil => exact .function hx h
      | cons => cases h
  | some hx =>
    cases hargs with
    | nil => exact .method hx h
    | cons hy hrest =>
      cases hrest with
      | nil => exact .methodWith hx hy h
      | cons => cases h

/-- One case a kind of node; `hstage` is the case of a scalar, the only node that adds statements of its own. -/
theorem writes_of_children (h : ∀ c ∈ e.children, c.Writes P)
    (hstage : ∀ t type, e = .scalar t type → Writes P t.lower fun _ => True) : e.Writes P := by
  intro bag
  cases e with
  | constant value type =>
    rw [Expr.lower]
    exact .lift fun u hu => .constant hu
  | column name scope type =>
    rw [Expr.lower]
    exact .lift fun u hu => .column hu
  | unary op x type =>
    have hx := h x List.mem_cons_self bag
    cases op with
    | not =>
      rw [Expr.lower]
      exact hx.bind fun u hu => .pure (.not hu)
    | negate =>
      rw [Expr.lower]
      exact hx.bind fun u hu => .pure (.negate hu)
    | convert =>
      rw [Expr.lower]
      cases hcast : type.cast? with
      | none => exact .throw _
      | some cast => exact hx.bind fun u hu => .pure (.convert hcast hu)
  | binary op x y type =>
    rw [Expr.lower]
    refine (h x (by simp [Expr.children]) bag).bind fun u hu => ?_
    exact (h y (by simp [Expr.children]) bag).bind fun v hv => .pure (.binary hu hv)
  | conditional x y z type =>
    rw [Expr.lower]
    refine (h x (by simp [Expr.children]) bag).bind fun u hu => ?_
    refine (h y (by simp [Expr.children]) bag).bind fun v hv => ?_
    exact (h z (by simp [Expr.children]) bag).bind fun w hw => .pure (.conditional hu hv hw)
  | isNull x =>
    rw [Expr.lower]
    exact (h x List.mem_cons_self bag).bind fun u hu => .pure (.isNull hu)
  | call object method args type =>
    rw [Expr.lower]
    refine (writes_list fun x hx => h x (List.mem_append_right _ hx)).bind fun us hus => ?_
    cases object with
    | none => exact .lift fun w hw => writtenAs_call .none hus hw
    | some x =>
      refine (h x (by simp [Expr.children]) bag).bind fun u hu => ?_
      exact .lift fun w hw => writtenAs_call (.some hu) hus hw
  | scalar t type =>
    rw [Expr.lower]
    exact (hstage t type rfl).bind fun r _ => .pure .scalar
  | _ =>
    simp only [Expr.lower]
    exact .throw _

/-! ### Stages -/

/-- An expression whose terms may stand in statements. -/
structure Expr.Allowed (P : Term → Prop) (e : Expr) : Prop where
  writes : e.Writes P
  terms : ∀ u, e.WrittenAs u → P u

theorem writes_clause {st : Statement} {bag : Option Nat} (h : ∀ u ∈ st.terms, P u) :
    Writes P (do pure ⟨← Lower.emit st, bag⟩ : Lower Relation) fun _ => True :=
  (Writes.emit h).bind fun _ _ => .pure trivial

theorem terms_of_allowed {xs : List Expr} {us : List Term} (h : ∀ x ∈ xs, x.Allowed P)
    (hus : List.Forall₂ Expr.WrittenAs xs us) : ∀ u ∈ us, P u := by
  intro u hu
  obtain ⟨x, hx, hwritten⟩ := exists_of_forall₂_right hus hu
  exact (h x hx).terms u hwritten

theorem writes_filter (h : ∀ x ∈ s.filter, x.Allowed P) (r : Relation) :
    Writes P (Stage.lowerFilter r s.filter) fun _ => True := by
  cases hf : s.filter with
  | none =>
    rw [Stage.lowerFilter]
    exact .pure trivial
  | some x =>
    have hx := h x hf
    rw [Stage.lowerFilter]
    refine (hx.writes r.bag).bind fun u hu => writes_clause ?_
    intro v hv
    exact List.mem_singleton.mp hv ▸ hx.terms u hu

theorem writes_items {bag : Option Nat} {columns : List Column} (h : ∀ c ∈ columns, c.expr.Allowed P) :
    Writes P (Column.lowerList bag columns) fun items => ∀ u ∈ items.map Item.term, P u := by
  induction columns with
  | nil =>
    rw [Column.lowerList]
    exact .pure (List.forall_mem_nil _)
  | cons c columns ih =>
    have hc := h c List.mem_cons_self
    obtain ⟨name, x⟩ := c
    rw [Column.lowerList]
    refine (hc.writes bag).bind fun u hu => ?_
    refine (ih fun d hd => h d (List.mem_cons_of_mem _ hd)).bind fun items hitems => .pure ?_
    exact List.forall_mem_cons.mpr ⟨hc.terms u hu, hitems⟩

theorem writes_keys {bag : Option Nat} {orderBy : List Ordering} (h : ∀ o ∈ orderBy, o.expr.Allowed P) :
    Writes P (Ordering.lowerList bag orderBy) fun keys => ∀ u ∈ keys.map Prod.fst, P u := by
  induction orderBy with
  | nil =>
    rw [Ordering.lowerList]
    exact .pure (List.forall_mem_nil _)
  | cons o orderBy ih =>
    have ho := h o List.mem_cons_self
    obtain ⟨x, d⟩ := o
    rw [Ordering.lowerList]
    refine (ho.writes bag).bind fun u hu => ?_
    refine (ih fun p hp => h p (List.mem_cons_of_mem _ hp)).bind fun keys hkeys => .pure ?_
    exact List.forall_mem_cons.mpr ⟨ho.terms u hu, hkeys⟩

theorem writes_grouping (h : ∀ x ∈ Grouping.exprs s.grouping, x.Allowed P) (r : Relation) :
    Writes P (Stage.lowerGrouping r s.grouping) fun _ => True := by
  cases hg : s.grouping with
  | none =>
    rw [Stage.lowerGrouping]
    exact .pure trivial
  | some g =>
    rw [hg] at h
    cases g with
    | all =>
      rw [Stage.lowerGrouping]
      exact writes_clause (List.forall_mem_nil _)
    | keys keys =>
      rw [Stage.lowerGrouping]
      exact (writes_list fun x hx => (h x hx).writes).bind fun us hus => writes_clause (terms_of_allowed h hus)

theorem writes_clauses (h : ∀ x ∈ s.exprs, x.Allowed P) (hsource : Writes P s.source.lower fun _ => True) :
    Writes P s.lower fun _ => True := by
  have hfilter : ∀ x ∈ s.filter, x.Allowed P := fun x hx => h x (Stage.mem_exprs.mpr (.inr (.inl hx)))
  have hcolumns : ∀ c ∈ s.columns, c.expr.Allowed P := fun c hc =>
    h c.expr (Stage.mem_exprs.mpr (.inr (.inr (.inl (List.mem_map_of_mem hc)))))
  have hgrouping : ∀ x ∈ Grouping.exprs s.grouping, x.Allowed P := fun x hx =>
    h x (Stage.mem_exprs.mpr (.inr (.inr (.inr (.inl hx)))))
  have horder : ∀ o ∈ s.orderBy, o.expr.Allowed P := fun o ho =>
    h o.expr (Stage.mem_exprs.mpr (.inr (.inr (.inr (.inr (List.mem_map_of_mem ho))))))
  rw [Stage.lower_eq]
  refine hsource.bind fun r₁ _ => (writes_filter hfilter r₁).bind fun r₂ _ => ?_
  have hgenerate : Writes P (Stage.lowerColumns r₂ s.projected s.columns) fun _ => True := by
    unfold Stage.lowerColumns
    split
    · exact (writes_items hcolumns).bind fun items hitems => writes_clause hitems
    · exact .pure trivial
  refine hgenerate.bind fun r₃ _ => (writes_grouping hgrouping r₃).bind fun r₄ _ => ?_
  have hsort : Writes P (Stage.lowerOrder r₄ s.orderBy) fun _ => True := by
    unfold Stage.lowerOrder
    refine (writes_keys horder).bind fun keys hkeys => ?_
    split
    · exact .pure trivial
    · exact writes_clause hkeys
  refine hsort.bind fun r₅ _ => ?_
  cases s.limit with
  | none => exact .pure trivial
  | some count => exact writes_clause (List.forall_mem_nil _)

mutual

theorem writes_stage : ∀ (s : Stage), (∀ x ∈ s.exprs, x.Allowed P) → Writes P s.lower fun _ => True
  | ⟨source, _, _, _, _, _, _, _, _⟩, h =>
    writes_clauses h (writes_source source fun x hx => h x (Stage.mem_exprs.mpr (.inl hx)))

theorem writes_source : ∀ (source : Source), (∀ x ∈ source.exprs, x.Allowed P) → Writes P source.lower fun _ => True
  | .base name, _ => by
    rw [Source.lower]
    exact writes_clause (List.forall_mem_nil _)
  | .stage inner, h => by
    rw [Source.lower]
    exact writes_stage inner fun x hx => h x (by rw [Source.exprs]; exact hx)

end

end

/-! ### Scripts -/

/-- `u` is how an expression of the graph is written. -/
def Stage.Writes (s : Stage) (u : Term) : Prop := ∃ x, s.Contains x ∧ x.WrittenAs u

/-- The expressions of a graph are lowered to terms of the graph, also inside their scalars. -/
theorem allowed_of_contains (h : s.Contains e) : e.Allowed s.Writes := by
  refine ⟨?_, fun u hu => ⟨e, h, hu⟩⟩
  induction e using Expr.childInduction with
  | h e ih =>
    have hchild : ∀ c ∈ e.children, s.Contains c := by
      intro c hc
      obtain ⟨x, hx, hocc⟩ := h
      exact ⟨x, hx, (Expr.Occurs.child hc .self).trans hocc⟩
    refine writes_of_children (fun c hc => ih c hc (hchild c hc)) ?_
    rintro t type rfl
    refine writes_stage t fun x hx => ⟨ih x hx (hchild x hx), fun u hu => ⟨x, hchild x hx, hu⟩⟩

theorem terms_of_script {script : Script} (h : s.script = .ok script) : Statement.TermsIn s.Writes script.statements := by
  unfold Stage.script at h
  split at h
  · next r statements hrun =>
    cases h
    have hexprs : ∀ x ∈ s.exprs, x.Allowed s.Writes := fun x hx => allowed_of_contains ⟨x, hx, .self⟩
    exact (writes_stage s hexprs [] r statements hrun (List.forall_mem_nil _)).1
  · cases h

end PigChain
