import PigChain.Proofs.Children
import PigChain.Proofs.Outcome

/-!
# The walk as a map over children

Filled in with what it left alone, the walk of a node visits the children one after another and puts the results in
their places. For the node of a scalar this asks that the stage is one field wide, since the walk checks the width of
a stage that was replaced.
-/

namespace PigChain

section

variable {m : Type → Type} [Monad m] [LawfulMonad m]

/-- Visiting two lists and making something of the two results. -/
theorem map_mapM_append {α β γ : Type} {f : α → m β} (xs ys : List α) (k : List β → List β → γ) :
    (fun cs => k (cs.take xs.length) (cs.drop xs.length)) <$> (xs ++ ys).mapM f = (do
      let as ← xs.mapM f
      let bs ← ys.mapM f
      pure (k as bs)) := by
  induction xs generalizing k with
  | nil => simp
  | cons x xs ih =>
    rw [List.cons_append, List.mapM_cons, List.mapM_cons]
    simp only [map_eq_pure_bind, bind_assoc, pure_bind]
    congr 1; funext b
    have hrest := ih fun as bs => k (b :: as) bs
    simp only [map_eq_pure_bind] at hrest
    exact hrest

end

namespace Editor

variable {m : Type → Type} [Monad m] [MonadExceptOf Error m] [LawfulMonad m] (r : Editor m)

theorem runList_eq_mapM (xs : List Expr) : r.runList xs = xs.mapM r.run := by
  induction xs with
  | nil => simp
  | cons x xs ih => rw [runList_cons, List.mapM_cons, ih]

theorem runOption_eq_mapM (o : Option Expr) : r.runOption o = refillOption o <$> o.toList.mapM r.run := by
  cases o with
  | none => simp [refillOption]
  | some x => simp [refillOption]

theorem runItems_eq_mapM (is : List ElementInit) :
    r.runItems is = refillItems is <$> (is.flatMap ElementInit.args).mapM r.run := by
  induction is with
  | nil => simp [runItems, visitItems, refillItems]
  | cons i is ih =>
    obtain ⟨n, as⟩ := i
    have hcons : r.runItems (⟨n, as⟩ :: is) = (do
        let as' ← r.runList as
        let is' ← r.runItems is
        pure (⟨n, as'⟩ :: is')) := by
      simp only [runItems, runList, visitItems, visitItem, bind_assoc, pure_bind, replaceCons_getD]
      congr 1; funext as'; congr 1; funext is'
      cases as' <;> rfl
    rw [hcons, ih, runList_eq_mapM, List.flatMap_cons]
    have happend := map_mapM_append (f := r.run) as (is.flatMap ElementInit.args)
      fun as' cs => (⟨n, as'⟩ : ElementInit) :: refillItems is cs
    simp only [map_eq_pure_bind, bind_assoc, pure_bind, refillItems] at happend ⊢
    exact happend.symm

def runBinding (b : Binding) : m Binding := do
  let b' ← r.visitBinding b
  pure (b'.getD b)

mutual

theorem runBinding_eq_mapM : ∀ b : Binding, r.runBinding b = b.refill <$> b.exprs.mapM r.run
  | .assign n x => by
    rw [Binding.exprs, List.mapM_cons, List.mapM_nil]
    simp only [runBinding, visitBinding, run, map_eq_pure_bind, bind_assoc, pure_bind]
    congr 1; funext x'
    rw [Binding.refill]
    cases x' <;> rfl
  | .nested n bs => by
    have hrun : r.runBinding (.nested n bs) = (do
        let bs' ← r.runBindings bs
        pure (.nested n bs')) := by
      simp only [runBinding, visitBinding, runBindings, bind_assoc, pure_bind]
      congr 1; funext bs'
      cases bs' <;> rfl
    rw [hrun, runBindings_eq_mapM bs, Binding.exprs]
    simp only [map_eq_pure_bind, bind_assoc, pure_bind, Binding.refill]
  | .list n is => by
    have hrun : r.runBinding (.list n is) = (do
        let is' ← r.runItems is
        pure (.list n is')) := by
      simp only [runBinding, visitBinding, runItems, bind_assoc, pure_bind]
      congr 1; funext is'
      cases is' <;> rfl
    rw [hrun, runItems_eq_mapM, Binding.exprs]
    simp only [map_eq_pure_bind, bind_assoc, pure_bind, Binding.refill]

theorem runBindings_eq_mapM : ∀ bs : List Binding,
    r.runBindings bs = Binding.refillList bs <$> (Binding.exprsList bs).mapM r.run
  | [] => by
    rw [Binding.exprsList, List.mapM_nil]
    simp [runBindings, visitBindings, Binding.refillList]
  | b :: bs => by
    have hcons : r.runBindings (b :: bs) = (do
        let b' ← r.runBinding b
        let bs' ← r.runBindings bs
        pure (b' :: bs')) := by
      simp only [runBindings, runBinding, visitBindings, bind_assoc, pure_bind, replaceCons_getD]
    rw [hcons, runBinding_eq_mapM b, runBindings_eq_mapM bs, Binding.exprsList]
    have happend := map_mapM_append (f := r.run) b.exprs (Binding.exprsList bs)
      fun xs cs => b.refill xs :: Binding.refillList bs cs
    simp only [map_eq_pure_bind, bind_assoc, pure_bind, Binding.refillList] at happend ⊢
    exact happend.symm

end

def runColumns (columns : List Column) : m (List Column) := do
  let columns' ← r.visitColumns columns
  pure (columns'.getD columns)

theorem runColumns_eq_mapM (columns : List Column) :
    r.runColumns columns = Column.refill columns <$> (columns.map Column.expr).mapM r.run := by
  induction columns with
  | nil => simp [runColumns, visitColumns, Column.refill]
  | cons c columns ih =>
    obtain ⟨n, x⟩ := c
    have hcons : r.runColumns (⟨n, x⟩ :: columns) = (do
        let x' ← r.run x
        let columns' ← r.runColumns columns
        pure (⟨n, x'⟩ :: columns')) := by
      simp only [runColumns, run, visitColumns, visitColumn, bind_assoc, pure_bind, replaceCons_getD]
      congr 1; funext x'; congr 1; funext columns'
      cases x' <;> rfl
    rw [hcons, ih, List.map_cons, List.mapM_cons]
    simp only [map_eq_pure_bind, bind_assoc, pure_bind, Column.refill, List.zipWith_cons_cons]

def runOrderings (orderBy : List Ordering) : m (List Ordering) := do
  let orderBy' ← r.visitOrderings orderBy
  pure (orderBy'.getD orderBy)

theorem runOrderings_eq_mapM (orderBy : List Ordering) :
    r.runOrderings orderBy = Ordering.refill orderBy <$> (orderBy.map Ordering.expr).mapM r.run := by
  induction orderBy with
  | nil => simp [runOrderings, visitOrderings, Ordering.refill]
  | cons o orderBy ih =>
    obtain ⟨x, d⟩ := o
    have hcons : r.runOrderings (⟨x, d⟩ :: orderBy) = (do
        let x' ← r.run x
        let orderBy' ← r.runOrderings orderBy
        pure (⟨x', d⟩ :: orderBy')) := by
      simp only [runOrderings, run, visitOrderings, visitOrdering, bind_assoc, pure_bind, replaceCons_getD]
      congr 1; funext x'; congr 1; funext orderBy'
      cases x' <;> rfl
    rw [hcons, ih, List.map_cons, List.mapM_cons]
    simp only [map_eq_pure_bind, bind_assoc, pure_bind, Ordering.refill, List.zipWith_cons_cons]

def runGrouping (g : Option Grouping) : m (Option Grouping) := do
  let g' ← r.visitGrouping g
  pure (g' <|> g)

theorem runGrouping_eq_mapM (g : Option Grouping) :
    r.runGrouping g = Grouping.refill g <$> (Grouping.exprs g).mapM r.run := by
  rcases g with _ | _ | keys
  · simp [runGrouping, visitGrouping, Grouping.refill, Grouping.exprs]
  · simp [runGrouping, visitGrouping, Grouping.refill, Grouping.exprs]
  · rw [Grouping.exprs, ← runList_eq_mapM]
    simp only [runGrouping, visitGrouping, runList, map_eq_pure_bind, bind_assoc, pure_bind, Grouping.refill]
    congr 1; funext keys'
    cases keys' <;> rfl

def runSource (s : Source) : m Source := do
  let s' ← r.visitSource s
  pure (s'.getD s)

theorem runSource_stage (s : Stage) :
    r.runSource (.stage s) = (do
      let s ← r.runStage s
      pure (.stage s)) := by
  simp only [runSource, visitSource, runStage, bind_assoc, pure_bind]
  congr 1; funext s'
  cases s' <;> rfl

theorem runStage_eq {r : Editor m} (hr : r.WalksStages) (source : Source) (filter : Option Expr) (columns : List Column)
    (projected : Bool) (grouping : Option Grouping) (orderBy : List Ordering) (limit : Option UInt64)
    (element : DataType) (projector : Projector) :
    r.runStage ⟨source, filter, columns, projected, grouping, orderBy, limit, element, projector⟩ = (do
      let source ← r.runSource source
      let filter ← r.runOption filter
      let columns ← r.runColumns columns
      let grouping ← r.runGrouping grouping
      let orderBy ← r.runOrderings orderBy
      pure ⟨source, filter, columns, projected, grouping, orderBy, limit, element, projector⟩) := by
  rw [runStage, visitStage, hr]
  simp only [runSource, runOption, runColumns, runGrouping, runOrderings, bind_assoc, pure_bind, Stage.replace_getD]

mutual

theorem runStage_eq_mapM {r : Editor m} (hr : r.WalksStages) :
    ∀ s : Stage, r.runStage s = s.refill <$> s.exprs.mapM r.run
  | ⟨source, filter, columns, projected, grouping, orderBy, limit, element, projector⟩ => by
    have hcolumns : (columns.map Column.expr).length = columns.length := List.length_map _
    rw [runStage_eq hr, runSource_eq_mapM hr source, runOption_eq_mapM, runColumns_eq_mapM, runGrouping_eq_mapM,
      runOrderings_eq_mapM, Stage.exprs]
    -- The five clauses take their expressions one after another from one list.
    have hclauses := map_mapM_append (f := r.run) source.exprs (filter.toList ++ (columns.map Column.expr ++
      (Grouping.exprs grouping ++ orderBy.map Ordering.expr))) fun as cs =>
        (⟨source.refill as, refillOption filter (cs.take filter.toList.length),
          Column.refill columns ((cs.drop filter.toList.length).take columns.length), projected,
          Grouping.refill grouping (((cs.drop filter.toList.length).drop columns.length).take
            (Grouping.exprs grouping).length),
          Ordering.refill orderBy (((cs.drop filter.toList.length).drop columns.length).drop
            (Grouping.exprs grouping).length), limit, element, projector⟩ : Stage)
    have hrefill : Stage.refill ⟨source, filter, columns, projected, grouping, orderBy, limit, element, projector⟩ =
        fun cs => (⟨source.refill (cs.take source.exprs.length),
          refillOption filter ((cs.drop source.exprs.length).take filter.toList.length),
          Column.refill columns (((cs.drop source.exprs.length).drop filter.toList.length).take columns.length),
          projected,
          Grouping.refill grouping ((((cs.drop source.exprs.length).drop filter.toList.length).drop
            columns.length).take (Grouping.exprs grouping).length),
          Ordering.refill orderBy ((((cs.drop source.exprs.length).drop filter.toList.length).drop
            columns.length).drop (Grouping.exprs grouping).length), limit, element, projector⟩ : Stage) := by
      funext cs
      rw [Stage.refill]
    rw [hrefill, hclauses]
    simp only [map_eq_pure_bind, bind_assoc, pure_bind]
    congr 1; funext as
    have hfilter := map_mapM_append (f := r.run) filter.toList (columns.map Column.expr ++
      (Grouping.exprs grouping ++ orderBy.map Ordering.expr)) fun fs cs =>
        (⟨source.refill as, refillOption filter fs, Column.refill columns (cs.take columns.length), projected,
          Grouping.refill grouping ((cs.drop columns.length).take (Grouping.exprs grouping).length),
          Ordering.refill orderBy ((cs.drop columns.length).drop (Grouping.exprs grouping).length), limit, element,
          projector⟩ : Stage)
    simp only [map_eq_pure_bind] at hfilter
    rw [hfilter]
    congr 1; funext fs
    have hcols := map_mapM_append (f := r.run) (columns.map Column.expr)
      (Grouping.exprs grouping ++ orderBy.map Ordering.expr) fun ks cs =>
        (⟨source.refill as, refillOption filter fs, Column.refill columns ks, projected,
          Grouping.refill grouping (cs.take (Grouping.exprs grouping).length),
          Ordering.refill orderBy (cs.drop (Grouping.exprs grouping).length), limit, element, projector⟩ : Stage)
    simp only [map_eq_pure_bind, hcolumns] at hcols
    rw [hcols]
    congr 1; funext ks
    have hgroup := map_mapM_append (f := r.run) (Grouping.exprs grouping) (orderBy.map Ordering.expr) fun gs os =>
        (⟨source.refill as, refillOption filter fs, Column.refill columns ks, projected,
          Grouping.refill grouping gs, Ordering.refill orderBy os, limit, element, projector⟩ : Stage)
    simp only [map_eq_pure_bind] at hgroup
    rw [hgroup]

theorem runSource_eq_mapM {r : Editor m} (hr : r.WalksStages) :
    ∀ s : Source, r.runSource s = s.refill <$> s.exprs.mapM r.run
  | .base n => by
    rw [Source.exprs, List.mapM_nil]
    simp [runSource, visitSource, Source.refill]
  | .stage s => by
    rw [runSource_stage, runStage_eq_mapM hr s, Source.exprs]
    simp only [map_eq_pure_bind, bind_assoc, pure_bind, Source.refill]

end

/-- The walk of a node visits its children in order and puts the results in their places. -/
theorem rewalk_eq_mapM_of_stageless (r : Editor m) {e : Expr} (hs : e.holdsStage = false) :
    r.rewalk e = e.withChildren <$> e.children.mapM r.run := by
  cases e with
  | constant v t => simp [Expr.children, Expr.withChildren]
  | parameter n t => simp [Expr.children, Expr.withChildren]
  | column n sc t => simp [Expr.children, Expr.withChildren]
  | member o n t =>
    rw [rewalk_member, runOption_eq_mapM]
    simp only [map_eq_pure_bind, bind_assoc, pure_bind, Expr.children, Expr.withChildren]
  | unary op x t => simp [Expr.children, Expr.withChildren]
  | binary op x y t => simp [Expr.children, Expr.withChildren]
  | conditional c x y t => simp [Expr.children, Expr.withChildren]
  | call o n as t =>
    rw [rewalk_call, runOption_eq_mapM, runList_eq_mapM]
    have happend := map_mapM_append (f := r.run) o.toList as fun os as' => Expr.call (refillOption o os) n as' t
    simp only [map_eq_pure_bind, bind_assoc, pure_bind] at happend ⊢
    exact happend.symm
  | construct t as ns =>
    rw [rewalk_construct, runList_eq_mapM]
    simp only [map_eq_pure_bind, Expr.children, Expr.withChildren]
  | arrayInit t xs =>
    rw [rewalk_arrayInit, runList_eq_mapM]
    simp only [map_eq_pure_bind, Expr.children, Expr.withChildren]
  | listInit t as ns is =>
    rw [rewalk_listInit, runList_eq_mapM, runItems_eq_mapM]
    have happend := map_mapM_append (f := r.run) as (is.flatMap ElementInit.args)
      fun as' cs => Expr.listInit t as' ns (refillItems is cs)
    simp only [map_eq_pure_bind, bind_assoc, pure_bind] at happend ⊢
    exact happend.symm
  | lambda ps b => simp [Expr.children, Expr.withChildren]
  | invocation f as t =>
    rw [rewalk_invocation, runList_eq_mapM, Expr.children, List.mapM_cons]
    simp only [map_eq_pure_bind, bind_assoc, pure_bind, Expr.withChildren, List.headD_cons, List.tail_cons]
  | recordInit t as ns bs =>
    rw [rewalk_recordInit, runList_eq_mapM, runBindings_eq_mapM]
    have happend := map_mapM_append (f := r.run) as (Binding.exprsList bs)
      fun as' cs => Expr.recordInit t as' ns (Binding.refillList bs cs)
    simp only [map_eq_pure_bind, bind_assoc, pure_bind] at happend ⊢
    exact happend.symm
  | isNull x => simp [Expr.children, Expr.withChildren]
  | subquery s t => cases hs
  | scalar s t => cases hs
  | select s => cases hs

theorem rewalk_eq_mapM {r : Editor m} (hr : r.WalksStages) {e : Expr} (hk : e.kind ≠ .scalar) :
    r.rewalk e = e.withChildren <$> e.children.mapM r.run := by
  cases e with
  | subquery s t =>
    rw [rewalk_subquery, runStage_eq_mapM hr]
    simp only [map_eq_pure_bind, bind_assoc, pure_bind, Expr.children, Expr.withChildren]
  | scalar s t => exact absurd rfl hk
  | select s =>
    rw [rewalk_select, runStage_eq_mapM hr]
    simp only [map_eq_pure_bind, bind_assoc, pure_bind, Expr.children, Expr.withChildren]
  | _ => exact rewalk_eq_mapM_of_stageless r rfl

end Editor

namespace Editor

/-! ### Visits that agree on the children -/

variable {m : Type → Type} [Monad m] [MonadExceptOf Error m] {r q : Editor m}

theorem visitOption_congr {o : Option Expr} (h : ∀ x ∈ o.toList, r.visit x = q.visit x) :
    r.visitOption o = q.visitOption o := by
  cases o with
  | none => rfl
  | some x => exact h x (List.mem_singleton_self x)

theorem visitList_congr {xs : List Expr} (h : ∀ x ∈ xs, r.visit x = q.visit x) : r.visitList xs = q.visitList xs := by
  induction xs with
  | nil => rfl
  | cons x xs ih =>
    rw [visitList, visitList, h x List.mem_cons_self, ih fun y hy => h y (List.mem_cons_of_mem x hy)]

theorem visitItems_congr {is : List ElementInit} (h : ∀ x ∈ is.flatMap ElementInit.args, r.visit x = q.visit x) :
    r.visitItems is = q.visitItems is := by
  induction is with
  | nil => rfl
  | cons i is ih =>
    obtain ⟨n, as⟩ := i
    rw [List.flatMap_cons] at h
    rw [visitItems, visitItems, visitItem, visitItem, visitList_congr fun x hx => h x (List.mem_append_left _ hx),
      ih fun x hx => h x (List.mem_append_right _ hx)]

mutual

theorem visitBinding_congr : ∀ {b : Binding}, (∀ x ∈ b.exprs, r.visit x = q.visit x) →
    r.visitBinding b = q.visitBinding b
  | .assign n x, h => by
    rw [visitBinding, visitBinding, h x (by simp [Binding.exprs])]
  | .nested n bs, h => by
    rw [Binding.exprs] at h
    rw [visitBinding, visitBinding, visitBindings_congr h]
  | .list n is, h => by
    rw [Binding.exprs] at h
    rw [visitBinding, visitBinding, visitItems_congr h]

theorem visitBindings_congr : ∀ {bs : List Binding}, (∀ x ∈ Binding.exprsList bs, r.visit x = q.visit x) →
    r.visitBindings bs = q.visitBindings bs
  | [], _ => by rw [visitBindings, visitBindings]
  | b :: bs, h => by
    rw [Binding.exprsList] at h
    rw [visitBindings, visitBindings, visitBinding_congr fun x hx => h x (List.mem_append_left _ hx),
      visitBindings_congr fun x hx => h x (List.mem_append_right _ hx)]

end

theorem visitColumns_congr {columns : List Column} (h : ∀ x ∈ columns.map Column.expr, r.visit x = q.visit x) :
    r.visitColumns columns = q.visitColumns columns := by
  induction columns with
  | nil => rfl
  | cons c columns ih =>
    obtain ⟨n, x⟩ := c
    rw [visitColumns, visitColumns, visitColumn, visitColumn, h x List.mem_cons_self,
      ih fun y hy => h y (List.mem_cons_of_mem x hy)]

theorem visitOrderings_congr {orderBy : List Ordering}
    (h : ∀ x ∈ orderBy.map Ordering.expr, r.visit x = q.visit x) :
    r.visitOrderings orderBy = q.visitOrderings orderBy := by
  induction orderBy with
  | nil => rfl
  | cons o orderBy ih =>
    obtain ⟨x, d⟩ := o
    rw [visitOrderings, visitOrderings, visitOrdering, visitOrdering, h x List.mem_cons_self,
      ih fun y hy => h y (List.mem_cons_of_mem x hy)]

theorem visitGrouping_congr {g : Option Grouping} (h : ∀ x ∈ Grouping.exprs g, r.visit x = q.visit x) :
    r.visitGrouping g = q.visitGrouping g := by
  rcases g with _ | _ | keys
  · rfl
  · rfl
  · rw [Grouping.exprs] at h
    rw [visitGrouping, visitGrouping, visitList_congr h]

mutual

theorem visitStage_congr (hr : r.WalksStages) (hq : q.WalksStages) :
    ∀ {s : Stage}, (∀ x ∈ s.exprs, r.visit x = q.visit x) → r.visitStage s = q.visitStage s
  | ⟨source, filter, columns, projected, grouping, orderBy, limit, element, projector⟩, h => by
    rw [Stage.exprs] at h
    simp only [List.mem_append] at h
    rw [visitStage, visitStage, hr, hq, visitSource_congr hr hq fun x hx => h x (.inl hx),
      visitOption_congr fun x hx => h x (.inr (.inl hx)),
      visitColumns_congr fun x hx => h x (.inr (.inr (.inl hx))),
      visitGrouping_congr fun x hx => h x (.inr (.inr (.inr (.inl hx)))),
      visitOrderings_congr fun x hx => h x (.inr (.inr (.inr (.inr hx))))]

theorem visitSource_congr (hr : r.WalksStages) (hq : q.WalksStages) :
    ∀ {s : Source}, (∀ x ∈ s.exprs, r.visit x = q.visit x) → r.visitSource s = q.visitSource s
  | .base n, _ => by rw [visitSource, visitSource]
  | .stage s, h => by
    rw [Source.exprs] at h
    rw [visitSource, visitSource, visitStage_congr hr hq h]

end

/-- The walk of a node looks at the visits of its children only. -/
theorem walk_congr (hr : r.WalksStages) (hq : q.WalksStages) {e : Expr}
    (h : ∀ x ∈ e.children, r.visit x = q.visit x) : r.walk e = q.walk e := by
  cases e with
  | constant v t => rfl
  | parameter n t => rfl
  | column n sc t => rfl
  | member o n t => rw [walk, walk, visitOption_congr h]
  | unary op x t => rw [walk, walk, h x List.mem_cons_self]
  | binary op x y t => rw [walk, walk, h x (by simp [Expr.children]), h y (by simp [Expr.children])]
  | conditional c x y t =>
    rw [walk, walk, h c (by simp [Expr.children]), h x (by simp [Expr.children]), h y (by simp [Expr.children])]
  | call o n as t =>
    rw [walk, walk, visitOption_congr fun x hx => h x (List.mem_append_left _ hx),
      visitList_congr fun x hx => h x (List.mem_append_right _ hx)]
  | construct t as ns =>
    rw [Expr.children] at h
    rw [walk, walk, visitList_congr h]
  | arrayInit t xs =>
    rw [Expr.children] at h
    rw [walk, walk, visitList_congr h]
  | listInit t as ns is =>
    rw [walk, walk, visitList_congr fun x hx => h x (List.mem_append_left _ hx),
      visitItems_congr fun x hx => h x (List.mem_append_right _ hx)]
  | lambda ps b => rw [walk, walk, h b List.mem_cons_self]
  | invocation f as t =>
    rw [walk, walk, h f List.mem_cons_self, visitList_congr fun x hx => h x (List.mem_cons_of_mem f hx)]
  | recordInit t as ns bs =>
    rw [walk, walk, visitList_congr fun x hx => h x (List.mem_append_left _ hx),
      visitBindings_congr fun x hx => h x (List.mem_append_right _ hx)]
  | isNull x => rw [walk, walk, h x List.mem_cons_self]
  | subquery s t => rw [walk, walk, visitStage_congr hr hq h]
  | scalar s t => rw [walk, walk, visitStage_congr hr hq h]
  | select s => rw [walk, walk, visitStage_congr hr hq h]

end Editor

/-! ### Visits that succeed or fail -/

section

variable {r : Editor (Except Error)} {e e' : Expr}

/-- A walk that succeeds has visited every child. -/
theorem rewalk_eq_ok (hr : r.WalksStages) (hk : e.kind ≠ .scalar) (h : r.rewalk e = .ok e') :
    ∃ cs, List.Forall₂ (fun c c' => r.run c = .ok c') e.children cs ∧ e' = e.withChildren cs ∧ e'.children = cs := by
  rw [Editor.rewalk_eq_mapM hr hk] at h
  obtain ⟨cs, hcs, rfl⟩ := except_map_eq_ok.mp h
  have hforall := mapM_eq_ok.mp hcs
  exact ⟨cs, hforall, rfl, Expr.children_withChildren hforall.length_eq.symm⟩

/-- A walk that fails has failed at a child. -/
theorem rewalk_eq_error {err : Error} (hr : r.WalksStages) (hk : e.kind ≠ .scalar) (h : r.rewalk e = .error err) :
    ∃ c ∈ e.children, r.run c = .error err := by
  rw [Editor.rewalk_eq_mapM hr hk] at h
  exact map_mapM_eq_error h

theorem runStage_eq_error {s : Stage} {err : Error} (hr : r.WalksStages) (h : r.runStage s = .error err) :
    ∃ c ∈ s.exprs, r.run c = .error err := by
  rw [Editor.runStage_eq_mapM hr] at h
  exact map_mapM_eq_error h

/-- A node whose children are left as they are is left as it is. -/
theorem rewalk_eq_self (hr : r.WalksStages) (hk : e.kind ≠ .scalar) (h : ∀ c ∈ e.children, r.run c = .ok c) :
    r.rewalk e = .ok e := by
  have hforall : List.Forall₂ (fun c c' => r.run c = .ok c') e.children e.children :=
    List.forall₂_same.mpr h
  rw [Editor.rewalk_eq_mapM hr hk, mapM_eq_ok.mpr hforall]
  exact congrArg Except.ok e.withChildren_children

theorem runStage_eq_self (hr : r.WalksStages) {s : Stage} (h : ∀ c ∈ s.exprs, r.run c = .ok c) :
    r.runStage s = .ok s := by
  have hforall : List.Forall₂ (fun c c' => r.run c = .ok c') s.exprs s.exprs := List.forall₂_same.mpr h
  rw [Editor.runStage_eq_mapM hr, mapM_eq_ok.mpr hforall]
  exact congrArg Except.ok s.refill_exprs

/-- A scalar is walked to a scalar over the edited stage. -/
theorem rewalk_scalar_eq_ok {s : Stage} {t : DataType} (h : r.rewalk (.scalar s t) = .ok e') :
    ∃ s', r.runStage s = .ok s' ∧ e' = .scalar s' t := by
  rw [Editor.rewalk, Editor.walk] at h
  simp only [except_do_eq_ok] at h
  obtain ⟨x, ⟨s', hs', hx⟩, h⟩ := h
  cases h
  cases s' with
  | none =>
    cases hx
    refine ⟨s, ?_, rfl⟩
    rw [Editor.runStage, hs']
    rfl
  | some s' =>
    unfold replaceScalar at hx
    dsimp only at hx
    split at hx
    · cases hx
      refine ⟨s', ?_, rfl⟩
      rw [Editor.runStage, hs']
      rfl
    · cases hx

/-- The walk of any node, also of a scalar, puts the edited children in. -/
theorem rewalk_eq_withChildren (hr : r.WalksStages) (h : r.rewalk e = .ok e') :
    ∃ cs, List.Forall₂ (fun c c' => r.run c = .ok c') e.children cs ∧ e' = e.withChildren cs := by
  by_cases hk : e.kind = .scalar
  · cases e with
    | scalar s t =>
      obtain ⟨s', hs', rfl⟩ := rewalk_scalar_eq_ok h
      rw [Editor.runStage_eq_mapM hr] at hs'
      obtain ⟨cs, hcs, rfl⟩ := except_map_eq_ok.mp hs'
      exact ⟨cs, mapM_eq_ok.mp hcs, rfl⟩
    | _ => cases hk
  · obtain ⟨cs, hcs, rfl, -⟩ := rewalk_eq_ok hr hk h
    exact ⟨cs, hcs, rfl⟩

/-- The walk of a scalar can also fail after its stage was edited, if the stage is not one field wide. -/
theorem rewalk_scalar_eq_error {s : Stage} {t : DataType} {err : Error} (hr : r.WalksStages)
    (h : r.rewalk (.scalar s t) = .error err) :
    r.runStage s = .error err ∨ s.width ≠ 1 ∧ err = .scalarWidth s.width := by
  rw [Editor.rewalk, Editor.walk] at h
  cases hs : r.visitStage s with
  | error err' =>
    rw [hs] at h
    cases h
    rw [Editor.runStage, hs]
    exact .inl rfl
  | ok s' =>
    have hwidth : (s'.getD s).width = s.width := by
      have hrun : r.runStage s = .ok (s'.getD s) := by
        rw [Editor.runStage, hs]
        rfl
      rw [Editor.runStage_eq_mapM hr] at hrun
      obtain ⟨cs, hcs, hrefill⟩ := except_map_eq_ok.mp hrun
      rw [← hrefill]
      exact s.width_refill (mapM_eq_ok.mp hcs).length_eq.symm
    rw [hs] at h
    cases s' with
    | none => cases h
    | some s' =>
      change (replaceScalar (some s') t >>= fun x => pure (x.getD (.scalar s t)) : Except Error Expr) = .error err at h
      rw [replaceScalar, show s'.width = s.width from hwidth] at h
      split at h
      · cases h
      · next hne =>
        cases h
        exact .inr ⟨hne, rfl⟩

/-- The walk of any node fails where the visit of a child fails, or at a scalar that is not one field wide. -/
theorem rewalk_fails {err : Error} (hr : r.WalksStages) (h : r.rewalk e = .error err) :
    (∃ c ∈ e.children, r.run c = .error err) ∨
      ∃ s t, e = .scalar s t ∧ s.width ≠ 1 ∧ err = .scalarWidth s.width := by
  by_cases hk : e.kind = .scalar
  · cases e with
    | scalar s t =>
      rcases rewalk_scalar_eq_error hr h with hs | ⟨hwidth, herr⟩
      · exact .inl (runStage_eq_error hr hs)
      · exact .inr ⟨s, t, rfl, hwidth, herr⟩
    | _ => cases hk
  · exact .inl (rewalk_eq_error hr hk h)

/-- A scalar that is one field wide is left as it is if its stage is. -/
theorem rewalk_scalar_eq_self {s : Stage} {t : DataType} (hw : s.width = 1) (h : r.runStage s = .ok s) :
    r.rewalk (.scalar s t) = .ok (.scalar s t) := by
  obtain ⟨s', hs', h⟩ := except_do_eq_ok.mp h
  rw [Editor.rewalk, Editor.walk, hs']
  cases s' with
  | none => rfl
  | some s' =>
    have hsame : s' = s := Except.ok.inj h
    subst hsame
    show (replaceScalar (some s') t >>= fun x => pure (x.getD (.scalar s' t)) : Except Error Expr) = _
    rw [replaceScalar, if_pos hw]
    rfl

end

end PigChain
