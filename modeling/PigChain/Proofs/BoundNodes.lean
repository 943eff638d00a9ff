import PigChain.Proofs.FilterRows
import PigChain.Proofs.Graph
import PigChain.Proofs.GroupedRows

/-!
# The nodes of a bound chain

The expressions in the graph of a bound chain come from the lambdas of the chain. Their nodes are plain ones, or they hold
the stage that a chain inside a lambda was bound to; the passes that run over them afterwards put other expressions below
a node and leave it otherwise as it is. So a property that plain nodes have, that does not depend on the children of a
node, and that holds of the stages of bound chains where they become nodes, holds of every node of the graph.
-/

namespace PigChain

variable {N : Expr → Prop} {S : Stage → Prop} {nested : Expr → BindM Stage} {s s' : Stage} {row : String} {e e' : Expr}

/-! ### Clauses -/

/-- Every node in the expressions of a stage is in `N`, clause by clause. -/
structure Stage.Consists (N : Expr → Prop) (s : Stage) : Prop where
  source : ∀ x ∈ s.source.exprs, x.Throughout N
  filter : ∀ x ∈ s.filter, x.Throughout N
  columns : ∀ c ∈ s.columns, c.expr.Throughout N
  grouping : ∀ x ∈ Grouping.exprs s.grouping, x.Throughout N
  orderBy : ∀ o ∈ s.orderBy, o.expr.Throughout N

theorem Stage.Consists.exprs (hs : s.Consists N) : ∀ x ∈ s.exprs, x.Throughout N := by
  intro x hx
  rcases Stage.mem_exprs.mp hx with hx | hx | hx | hx | hx
  · exact hs.source x hx
  · exact hs.filter x hx
  · obtain ⟨c, hc, rfl⟩ := List.mem_map.mp hx
    exact hs.columns c hc
  · exact hs.grouping x hx
  · obtain ⟨o, ho, rfl⟩ := List.mem_map.mp hx
    exact hs.orderBy o ho

theorem Stage.Consists.contains (hs : s.Consists N) {x : Expr} (hx : s.Contains x) : N x := by
  obtain ⟨c, hc, hocc⟩ := hx
  exact hs.exprs c hc x hocc

/-! ### Passes over expressions -/

/-- What plain nodes are in, and what a node with a stage is in whatever its children are. -/
structure NodeInvariant (N : Expr → Prop) : Prop where
  plain : ∀ {e : Expr}, e.holdsStage = false → N e
  keeps : NodeProperty N

namespace NodeInvariant

theorem of_children (hN : NodeInvariant N) (h : e.holdsStage = false) (hc : ∀ c ∈ e.children, c.Throughout N) :
    e.Throughout N :=
  Expr.throughout_iff.mpr ⟨hN.plain h, hc⟩

theorem column (hN : NodeInvariant N) (name : String) (scope : Scope) (type : DataType) :
    (Expr.column name scope type).Throughout N :=
  hN.of_children rfl fun c hc => by cases hc

theorem nullTest (hN : NodeInvariant N) (h : e.Throughout N) : ((nullTest? e).getD e).Throughout N := by
  cases ht : nullTest? e with
  | none => exact h
  | some x =>
    obtain ⟨op, l, r, type, y, rfl, hy, hx⟩ := nullTest_eq_some ht
    -- The test stands over one of the two operands.
    have hnull : (Expr.isNull y).Throughout N := by
      refine hN.of_children rfl fun c hc => ?_
      rw [List.mem_singleton.mp hc]
      exact h.child (nullCompared_mem_children hy)
    rcases hx with rfl | rfl
    · exact hnull
    · refine hN.of_children rfl fun c hc => ?_
      rw [List.mem_singleton.mp hc]
      exact hnull

theorem nullComparisons (hN : NodeInvariant N) (he : e.Throughout N) (h : nullComparisons.run e = .ok e') :
    e'.Throughout N := by
  induction e using Expr.childInduction generalizing e' with
  | h e ih =>
    rw [nullComparisons_run_eq] at h
    obtain ⟨walked, hwalked, rfl⟩ := except_map_eq_ok.mp h
    obtain ⟨cs, hcs, rfl⟩ := rewalk_eq_withChildren (fun _ _ => rfl) hwalked
    refine hN.nullTest (.withChildren hN.keeps (he e .self) hcs.length_eq.symm fun c' hc' => ?_)
    obtain ⟨c, hc, hrun⟩ := exists_of_forall₂_right hcs hc'
    exact ih c hc (he.child hc) hrun

theorem composed (hN : NodeInvariant N) {columns : List Column} (he : e.Throughout N)
    (hc : ∀ c ∈ columns, c.expr.Throughout N) (h : e.composed columns = .ok e') : e'.Throughout N := by
  induction e using Expr.childInduction generalizing e' with
  | h e ih =>
    by_cases hk : e.kind = .column
    · cases e with
      | column name scope type =>
        cases scope with
        | row =>
          obtain ⟨c, hfind, rfl⟩ := composed_field_eq_ok h
          exact hc c (List.mem_of_find?_eq_some hfind)
        | group =>
          cases h
          exact he
      | _ => cases hk
    · rw [composed_eq_rewalk hk] at h
      obtain ⟨cs, hcs, rfl⟩ := rewalk_eq_withChildren (fun _ _ => rfl) h
      refine .withChildren hN.keeps (he e .self) hcs.length_eq.symm fun c' hc' => ?_
      obtain ⟨c, hmem, hrun⟩ := exists_of_forall₂_right hcs hc'
      exact ih c hmem (he.child hmem) hrun

end NodeInvariant

/-! ### Bound bodies -/

/-- An expression without stages. -/
abbrev Expr.Stageless (e : Expr) : Prop := e.Throughout fun y => y.holdsStage = false

/-- The stage of a chain without stages inside a body is in `N` as a relation, and as a value if it is one field wide. -/
def Nests (N : Expr → Prop) (nested : Expr → BindM Stage) : Prop :=
  ∀ q t, q.Stageless → (nested q).outcome = .ok t →
    t.Consists N ∧ ∀ type, N (.subquery t type) ∧ (t.width = 1 → N (.scalar t type))

theorem nestedChain_throughout (hnested : Nests N nested) {type : DataType} (hs : e.Stageless)
    (h : (nestedChain nested e type).outcome = .ok e') : e'.Throughout N := by
  unfold nestedChain at h
  rw [Traced.outcome_bind_eq_ok] at h
  obtain ⟨t, ht, h⟩ := h
  obtain ⟨hconsists, hnode⟩ := hnested e t hs ht
  split at h
  · cases h
    exact Expr.throughout_iff.mpr ⟨(hnode type).1, hconsists.exprs⟩
  · rw [Traced.outcome_silent, Expr.scalarOf] at h
    split at h
    · next hwidth =>
      cases h
      exact Expr.throughout_iff.mpr ⟨(hnode type).2 hwidth, hconsists.exprs⟩
    · cases h

theorem rowBinder_throughout (hN : NodeInvariant N) (hnested : Nests N nested) (he : e.Stageless)
    (h : Yields ((rowBinder nested s row).run e) e') : e'.Throughout N := by
  induction e using Expr.childInduction generalizing e' with
  | h e ih =>
    have hwalk : ∀ x, Yields ((rowBinder nested s row).rewalk e) x → x.Throughout N := by
      intro x hx
      obtain ⟨cs, hcs, rfl, -⟩ := yields_rewalk (Expr.kind_ne_scalar (he e .self)) hx
      refine .withChildren hN.keeps (hN.plain (he e .self)) hcs.length_eq.symm fun c' hc' => ?_
      obtain ⟨c, hc, hrun⟩ := exists_of_forall₂_right hcs hc'
      exact ih c hc (he.child hc) hrun
    cases rowStep_of_run h with
    | row h =>
      obtain ⟨name, type, rfl⟩ := rowColumn_isColumn h
      exact hN.column name .row type
    | field _ h =>
      obtain ⟨name, type, rfl⟩ := fieldColumn_isColumn h
      exact hN.column name .row type
    | aggregate _ h =>
      obtain ⟨function, key, element, name, type, -, -, rfl⟩ := groupAggregate_eq_ok h
      refine hN.of_children rfl fun c hc => ?_
      rw [List.mem_singleton.mp hc]
      exact hN.column name .group type
    | chain _ h => exact nestedChain_throughout hnested he h
    | walk _ h => exact hwalk e' h
    | dotted _ hx hdot =>
      unfold recordField? at hdot
      split at hdot
      · cases hdot
        exact hN.column _ .row _
      · cases hdot

/-! ### Noted columns -/

/-- A computation of the row binder keeps `I` true of the columns that are noted. -/
def KeepsNoted {α : Type} (I : List Column → Prop) (x : RowM α) : Prop :=
  ∀ before a after, I before → (x.run before).outcome = .ok (a, after) → I after

namespace KeepsNoted

variable {α β : Type} {I : List Column → Prop}

theorem pure (a : α) : KeepsNoted I (Pure.pure a : RowM α) := by
  intro before b after hbefore h
  cases h
  exact hbefore

theorem lift (x : BindM α) : KeepsNoted I (liftM x : RowM α) := by
  intro before a after hbefore h
  have hrun : ((liftM x : RowM α).run before) = x >>= fun a => Pure.pure (a, before) := rfl
  rw [hrun, Traced.outcome_bind_eq_ok] at h
  obtain ⟨b, -, h⟩ := h
  cases h
  exact hbefore

theorem bind {x : RowM α} {f : α → RowM β} (hx : KeepsNoted I x) (hf : ∀ a, Yields x a → KeepsNoted I (f a)) :
    KeepsNoted I (x >>= f) := by
  intro before b after hbefore h
  rw [StateT.run_bind, Traced.outcome_bind_eq_ok] at h
  obtain ⟨⟨a, between⟩, ha, h⟩ := h
  exact hf a ⟨before, between, ha⟩ between b after (hx before a between hbefore ha) h

theorem map {x : RowM α} (f : α → β) (hx : KeepsNoted I x) : KeepsNoted I (f <$> x) := by
  rw [map_eq_pure_bind]
  exact hx.bind fun a _ => .pure (f a)

theorem mapM {f : α → RowM β} {xs : List α} (h : ∀ x ∈ xs, KeepsNoted I (f x)) : KeepsNoted I (xs.mapM f) := by
  induction xs with
  | nil =>
    rw [List.mapM_nil]
    exact .pure []
  | cons x xs ih =>
    rw [List.mapM_cons]
    refine (h x List.mem_cons_self).bind fun y _ => ?_
    exact (ih fun z hz => h z (List.mem_cons_of_mem x hz)).bind fun ys _ => .pure (y :: ys)

/-- The walk of a node notes what the visits of its children note. -/
theorem walk {r : Editor RowM} (hr : r.WalksStages) (hk : e.kind ≠ .scalar)
    (h : ∀ c ∈ e.children, KeepsNoted I (r.run c)) : KeepsNoted I (r.walk e) := by
  have hre : KeepsNoted I (r.rewalk e) := by
    rw [Editor.rewalk_eq_mapM hr hk]
    exact (KeepsNoted.mapM h).map _
  intro before a after hbefore hrun
  refine hre before (a.getD e) after hbefore ?_
  rw [Editor.rewalk, StateT.run_bind, Traced.outcome_bind_eq_ok]
  exact ⟨(a, after), hrun, rfl⟩

end KeepsNoted

/-- A column that was noted for a field of the rows that a stage passes through. -/
def Stage.Noting (s : Stage) (c : Column) : Prop :=
  ∃ declared x, fieldColumn s c.name declared = .ok x ∧ c.expr = .field c.name x.type

theorem keepsNoted_noteField {name : String} {declared : DataType} {x : Expr}
    (hx : fieldColumn s name declared = .ok x) :
    KeepsNoted (fun noted => ∀ c ∈ noted, s.Noting c) (noteField s name x.type) := by
  intro before a after hbefore h
  simp only [noteField, StateT.run_bind, StateT.run_get, pure_bind] at h
  cases hfound : (s.column? name <|> Column.find? before name) with
  | some c =>
    rw [hfound] at h
    by_cases htype : c.expr.type = x.type
    · simp only [htype, if_true] at h
      cases h
      exact hbefore
    · simp only [htype, if_false] at h
      cases h
  | none =>
    rw [hfound] at h
    cases h
    intro c hc
    rcases List.mem_append.mp hc with hc | hc
    · exact hbefore c hc
    · rw [List.mem_singleton.mp hc]
      exact ⟨declared, x, hx, rfl⟩

theorem keepsNoted_rowBinder (he : e.Stageless) :
    KeepsNoted (fun noted => ∀ c ∈ noted, s.Noting c) ((rowBinder nested s row).run e) := by
  induction e using Expr.childInduction with
  | h e ih =>
    have hwalk : KeepsNoted (fun noted => ∀ c ∈ noted, s.Noting c) ((rowBinder nested s row).walk e) :=
      .walk (fun _ _ => rfl) (Expr.kind_ne_scalar (he e .self)) fun c hc => ih c hc (he.child hc)
    have hresolve : ∀ name type, KeepsNoted (fun noted => ∀ c ∈ noted, s.Noting c) (resolveField s name type) := by
      intro name type
      refine KeepsNoted.bind (.lift _) fun x hx => ?_
      split
      · exact (keepsNoted_noteField (yields_lift hx)).bind fun _ _ => .pure x
      · exact .pure x
    refine KeepsNoted.bind ?_ fun x _ => .pure _
    rw [Editor.visit_eq]
    unfold rowBinder
    dsimp only
    split
    · split
      · exact (KeepsNoted.lift _).map _
      · exact .pure none
    · split
      · exact (hresolve _ _).map _
      · exact hwalk.bind fun x _ => .pure _
    · split
      · exact (KeepsNoted.lift _).map _
      · split
        · exact (KeepsNoted.lift _).map _
        · exact hwalk
    · exact hwalk

/-- The fields that a body without stages refers to. -/
theorem bindBody_noted {bound : BoundBody} (he : e.Stageless) (h : (bindBody nested s row e).outcome = .ok bound) :
    ∀ c ∈ bound.noted, s.Noting c := by
  obtain ⟨body, x, hinlined, hrow, -⟩ := bindBody_eq_ok h
  have hbody : body.Stageless :=
    (inherited_throughout fun y cs _ hy => (y.holdsStage_withChildren cs).trans hy).inlined hinlined he
  exact keepsNoted_rowBinder hbody [] x bound.noted (List.forall_mem_nil _) hrow

theorem bindBody_throughout {bound : BoundBody} (hN : NodeInvariant N) (hnested : Nests N nested) (he : e.Stageless)
    (h : (bindBody nested s row e).outcome = .ok bound) : bound.expr.Throughout N := by
  obtain ⟨body, x, hinlined, hrow, hnull⟩ := bindBody_eq_ok h
  have hbody : body.Stageless :=
    (inherited_throughout fun y cs _ hy => (y.holdsStage_withChildren cs).trans hy).inlined hinlined he
  exact hN.nullComparisons (rowBinder_throughout hN hnested hbody ⟨[], bound.noted, hrow⟩) hnull

theorem occurs_of_selected {x : Expr} (hx : x ∈ e.selected) : Expr.Occurs x e := by
  cases e with
  | recordInit type args names bindings =>
    rw [Expr.selected, List.mem_filterMap] at hx
    obtain ⟨b, hb, hx⟩ := hx
    refine .child (List.mem_append_right _ (mem_exprsList hb ?_)) .self
    cases b with
    | assign name y =>
      cases hx
      rw [Binding.exprs]
      exact List.mem_singleton_self x
    | nested => cases hx
    | list => cases hx
  | construct type args names => exact .child hx .self
  | _ =>
    rw [List.mem_singleton.mp hx]
    exact .self

theorem bindProjection_throughout {columns : List Column} (hN : NodeInvariant N) (hnested : Nests N nested)
    (he : e.Stageless) (h : (bindProjection nested s row e).outcome = .ok columns) :
    ∀ c ∈ columns, c.expr.Throughout N := by
  intro c hc
  obtain ⟨x, hx, bound, hbound, hexpr⟩ := exists_of_forall₂_right (bindProjection_eq_ok h).2 hc
  have hstageless : x.Stageless := fun y hy => he y (hy.trans (occurs_of_selected hx))
  rw [hexpr]
  exact bindBody_throughout hN hnested hstageless hbound

/-! ### Stages -/

namespace Stage.Consists

theorem base (name : String) (element : DataType) : (Stage.base name element).Consists N where
  source x hx := by
    rw [show (Stage.base name element).source = .base name from rfl, Source.exprs] at hx
    cases hx
  filter x hx := by cases hx
  columns c hc := by cases hc
  grouping x hx := by cases hx
  orderBy o ho := by cases ho

theorem wrapped (hN : NodeInvariant N) (hs : s.Consists N) : s.wrapped.Consists N where
  source := by
    rw [s.wrapped_source, Source.exprs]
    exact hs.exprs
  filter := by simp
  columns c hc := by
    cases hpass : s.projected && s.grouping.isNone with
    | false =>
      rw [Stage.wrapped_of_passing hpass] at hc
      cases hc
    | true =>
      rw [Bool.and_eq_true, Option.isNone_iff_eq_none] at hpass
      rw [Stage.wrapped_of_projected hpass.1 hpass.2] at hc
      obtain ⟨d, -, rfl⟩ := List.mem_map.mp hc
      exact hN.column d.name .row d.expr.type
  grouping := by simp [Grouping.exprs]
  orderBy := by simp

theorem openIf (hN : NodeInvariant N) (hs : s.Consists N) (closed : Bool) : (s.openIf closed).Consists N := by
  cases closed with
  | true => exact hs.wrapped hN
  | false => exact hs

theorem addFilter (hN : NodeInvariant N) (hs : s.Consists N) (he : e.Throughout N) : (s.addFilter e).Consists N := by
  refine ⟨hs.source, ?_, hs.columns, hs.grouping, hs.orderBy⟩
  intro x hx
  cases hf : s.filter with
  | none =>
    simp only [Stage.addFilter, hf, Option.mem_some_iff] at hx
    exact hx ▸ he
  | some p =>
    simp only [Stage.addFilter, hf, Option.mem_some_iff] at hx
    subst hx
    refine hN.of_children rfl fun c hc => ?_
    simp only [Expr.combine, Expr.children, List.mem_cons, List.not_mem_nil, or_false] at hc
    rcases hc with rfl | rfl
    · exact hs.filter c hf
    · exact he

theorem withFilter (hs : s.Consists N) (he : e.Throughout N) : ({ s with filter := some e } : Stage).Consists N := by
  refine ⟨hs.source, ?_, hs.columns, hs.grouping, hs.orderBy⟩
  intro x hx
  cases hx
  exact he

theorem withColumns (hs : s.Consists N) {columns : List Column} (hcolumns : ∀ c ∈ columns, c.expr.Throughout N)
    (element : DataType) (projector : Projector) :
    ({ s with columns := columns, projected := true, element := element, projector := projector } : Stage).Consists N :=
  ⟨hs.source, hs.filter, hcolumns, hs.grouping, hs.orderBy⟩

theorem take (hs : s.Consists N) (count : UInt64) : (s.take count).Consists N :=
  ⟨hs.source, hs.filter, hs.columns, hs.grouping, hs.orderBy⟩

theorem noteColumns (hN : NodeInvariant N) (hs : s.Consists N) {t : Stage} {noted : List Column}
    (hnoted : ∀ c ∈ noted, t.Noting c) : (s.noteColumns noted).Consists N := by
  obtain ⟨added, hadded, heq⟩ := s.noteColumns_eq noted
  rw [heq]
  refine ⟨hs.source, hs.filter, fun c hc => ?_, hs.grouping, hs.orderBy⟩
  rcases List.mem_append.mp hc with hc | hc
  · exact hs.columns c hc
  · obtain ⟨declared, x, -, hexpr⟩ := hnoted c (hadded c hc)
    rw [hexpr]
    exact hN.column c.name .row x.type

end Stage.Consists

/-! ### Combinators -/

theorem Expr.Stageless.body {p : Parameter} (h : (Expr.lambda [p] e).Stageless) : e.Stageless :=
  Expr.Throughout.child h List.mem_cons_self

theorem bindFilter_consists {predicate : Expr} (hN : NodeInvariant N) (hnested : Nests N nested) (hs : s.Consists N)
    (hp : predicate.Stageless) (h : (bindFilter nested s predicate).outcome = .ok s') : s'.Consists N := by
  obtain ⟨p, body, bound, rfl, hbound, hmerge⟩ := bindFilter_eq_ok h
  have hexpr := bindBody_throughout hN hnested hp.body hbound
  have hopen : s.toFilter.Consists N := hs.openIf hN _
  rcases mergeFilter_eq_ok hmerge with ⟨_, rfl⟩ | ⟨_, _, e, he, rfl⟩ | ⟨_, _, rfl⟩
  · exact (hopen.noteColumns hN (bindBody_noted hp.body hbound)).addFilter hN hexpr
  · exact hopen.addFilter hN (hN.composed hexpr hopen.columns he)
  · exact (hopen.wrapped hN).withFilter hexpr

theorem inputColumns_throughout {columns composed : List Column} (hN : NodeInvariant N) (hs : s.Consists N)
    (hc : ∀ c ∈ columns, c.expr.Throughout N) (h : s.inputColumns columns = .ok composed) :
    ∀ c ∈ composed, c.expr.Throughout N := by
  unfold Stage.inputColumns at h
  split at h
  · intro d hd
    obtain ⟨c, hmem, -, hcomposed⟩ := exists_of_forall₂_right (composeColumns_eq_ok h) hd
    exact hN.composed (hc c hmem) hs.columns hcomposed
  · cases h
    exact hc

theorem bindSelect_consists {selector : Expr} {declared : DataType} (hN : NodeInvariant N) (hnested : Nests N nested)
    (hs : s.Consists N) (hx : selector.Stageless) (h : (bindSelect nested s selector declared).outcome = .ok s') :
    s'.Consists N := by
  obtain ⟨p, body, rfl, hmade⟩ := bindSelect_eq_ok h
  rcases hmade with ⟨-, rfl⟩ | ⟨-, columns, element, projector, composed, s₁, hproj, -, hinput, hmerge, rfl⟩
  · exact hs
  · have hopen : s.toSelect.Consists N := hs.openIf hN _
    have hcolumns := bindProjection_throughout hN hnested hx.body hproj
    rcases mergeColumns_eq_ok hmerge with ⟨-, rfl⟩ | ⟨-, rfl⟩
    · exact hopen.withColumns (inputColumns_throughout hN hopen hcolumns hinput) element projector
    · exact (hopen.wrapped hN).withColumns hcolumns element projector

theorem bindOrder_consists {key : Expr} {direction : Direction} {after : Bool} (hN : NodeInvariant N)
    (hnested : Nests N nested) (hs : s.Consists N) (hx : key.Stageless)
    (h : (bindOrder nested s key direction after).outcome = .ok s') : s'.Consists N := by
  obtain ⟨p, body, bound, rfl, hbound, -, rfl⟩ := bindOrder_eq_ok h
  have hopen : s.toOrder.Consists N := hs.openIf hN _
  have hkept : (if s.toOrder.projected then s.toOrder else s.toOrder.noteColumns bound.noted).Consists N := by
    split
    · exact hopen
    · exact hopen.noteColumns hN (bindBody_noted hx.body hbound)
  refine ⟨hkept.source, hkept.filter, hkept.columns, hkept.grouping, ?_⟩
  intro o ho
  rcases List.mem_append.mp ho with ho | ho
  · cases after with
    | false => cases ho
    | true => exact hs.orderBy o ho
  · rw [List.mem_singleton.mp ho]
    exact bindBody_throughout hN hnested hx.body hbound

theorem bindGroup_consists {selector : Expr} {declared : DataType} (hN : NodeInvariant N) (hnested : Nests N nested)
    (hs : s.Consists N) (hx : selector.Stageless) (h : (bindGroup nested s selector declared).outcome = .ok s') :
    s'.Consists N := by
  obtain ⟨p, body, keys, rfl, hkeys, rfl⟩ := bindGroup_eq_ok h
  have hopen : s.toGroup.Consists N := hs.openIf hN _
  refine ⟨hopen.source, hopen.filter, hopen.columns, ?_, hopen.orderBy⟩
  intro x hmem
  obtain ⟨c, hc, rfl⟩ := List.mem_map.mp hmem
  exact bindProjection_throughout hN hnested hx.body hkeys c hc

theorem aggregatedField_isColumn {method : String} (h : aggregatedField s method = .ok e) :
    ∃ name type, e = .column name .group type := by
  unfold aggregatedField at h
  split at h
  · split at h
    · cases h
      exact ⟨_, _, rfl⟩
    · cases h
  · split at h
    · cases h
      exact ⟨_, _, rfl⟩
    · cases h

theorem aggregateStage_consists {function name : String} {type result : DataType} (hN : NodeInvariant N)
    (hs : s.Consists N) : (aggregateStage s function (.column name .group type) result).Consists N := by
  have hopen : s.toGroup.Consists N := hs.openIf hN _
  have hgroup : ({ s.toGroup with grouping := some .all } : Stage).Consists N :=
    ⟨hopen.source, hopen.filter, hopen.columns, List.forall_mem_nil _, hopen.orderBy⟩
  have hcall : (Expr.function function [.column name .group type] result).Throughout N := by
    refine hN.of_children rfl fun x hx => ?_
    rw [List.mem_singleton.mp hx]
    exact hN.column name .group type
  refine (hgroup.wrapped hN).withColumns (fun c hc => ?_) result _
  rw [List.mem_singleton.mp hc]
  exact hcall

theorem bindAggregate_consists {method function : String} {arg : Option Expr} {declared : DataType}
    (hN : NodeInvariant N) (hnested : Nests N nested) (hs : s.Consists N) (harg : ∀ x ∈ arg, x.Stageless)
    (h : (bindAggregate nested s method function arg declared).outcome = .ok s') : s'.Consists N := by
  obtain ⟨s₁, bag, hinput, rfl⟩ := bindAggregate_eq_ok h
  rcases aggregateInput_eq_ok hinput with ⟨-, rfl, hsel⟩ | ⟨-, hbag, hsel⟩
  · refine aggregateStage_consists hN ?_
    rcases hsel with ⟨-, rfl⟩ | ⟨x, rfl, hx⟩
    · exact hs
    · exact bindFilter_consists hN hnested hs (harg x rfl) hx
  · obtain ⟨name, type, rfl⟩ := aggregatedField_isColumn hbag
    refine aggregateStage_consists hN ?_
    rcases hsel with ⟨-, rfl⟩ | ⟨x, rfl, hx⟩
    · exact hs
    · exact bindSelect_consists hN hnested hs (harg x rfl) hx

theorem applies_consists {b b' : Bound} {method : String} {arg : Option Expr} {type : DataType} (hN : NodeInvariant N)
    (hnested : Nests N nested) (hs : b.stage.Consists N) (harg : ∀ x ∈ arg, x.Stageless)
    (h : Applies nested b type method arg b') : b'.stage.Consists N := by
  cases h with
  | filter h => exact bindFilter_consists hN hnested hs (harg _ rfl) h
  | select h => exact bindSelect_consists hN hnested hs (harg _ rfl) h
  | group declared _ h => exact bindGroup_consists hN hnested hs (harg _ rfl) h
  | take _ => exact hs.take _
  | first => exact hs.take 1
  | firstWhere h => exact (bindFilter_consists hN hnested hs (harg _ rfl) h).take 1
  | order _ h => exact bindOrder_consists hN hnested hs (harg _ rfl) h
  | aggregate _ h => exact bindAggregate_consists hN hnested hs harg h

/-! ### Chains -/

/-- What holds of a base and is kept by every combinator. -/
structure StageInvariant (nested : Expr → BindM Stage) (S : Stage → Prop) : Prop where
  base : ∀ name element, S (.base name element)
  step : ∀ {b b' : Bound} {type : DataType} {method : String} {arg : Option Expr}, S b.stage →
    (∀ x ∈ arg, x.Stageless) → Applies nested b type method arg b' → S b'.stage

theorem StageInvariant.bindWith {b : Bound} (hS : StageInvariant nested S) (he : e.Stageless)
    (h : (bindWith nested e).outcome = .ok b) : S b.stage := by
  induction e using Expr.childInduction generalizing b with
  | h e ih =>
    unfold PigChain.bindWith at h
    split at h
    · next name type =>
      split at h
      · cases h
        exact hS.base name _
      · cases h
    · exact absurd (he _ .self) (by simp [Expr.holdsStage])
    · next method inner args type =>
      rw [Traced.outcome_bind_eq_ok] at h
      obtain ⟨b₀, hb₀, h⟩ := h
      have hinner : inner ∈ (Expr.call none method (inner :: args) type).children := List.mem_cons_self
      refine hS.step (ih inner hinner (he.child hinner) hb₀) ?_ (applyCombinator_eq_ok h)
      intro x hx
      exact he.child (List.mem_cons_of_mem inner (List.mem_of_mem_head? hx))
    · cases h
    · cases h

theorem stageInvariant_consists (hN : NodeInvariant N) (hnested : Nests N nested) :
    StageInvariant nested (Stage.Consists N) where
  base := .base
  step hs harg h := applies_consists hN hnested hs harg h

/-- The nodes of the graph of a bound chain are in `N` if plain nodes are and the stages of bound chains are, as relations
and as values. The induction is on how deep chains are nested in lambdas: a nested chain is bound with one level less. -/
theorem bindNested_consists (hN : NodeInvariant N) (hS : ∀ nested, StageInvariant nested S)
    (hheld : ∀ t type, S t → N (.subquery t type) ∧ (t.width = 1 → N (.scalar t type))) (fuel : Nat) {chain : Expr}
    {b : Bound} (hc : chain.Stageless) (h : (bindNested fuel chain).outcome = .ok b) :
    S b.stage ∧ b.stage.Consists N := by
  induction fuel generalizing chain b with
  | zero => cases h
  | succ fuel ih =>
    rw [bindNested] at h
    refine ⟨(hS _).bindWith hc h, (stageInvariant_consists hN fun q t hq ht => ?_).bindWith hc h⟩
    rw [Traced.outcome_bind_eq_ok] at ht
    obtain ⟨inner, hinner, ht⟩ := ht
    cases ht
    obtain ⟨hstage, hconsists⟩ := ih hq hinner
    exact ⟨hconsists, fun type => hheld inner.stage type hstage⟩

end PigChain
