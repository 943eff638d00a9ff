import PigChain.Expr.Edit
import PigChain.Proofs.ColumnNames

/-!
# Replacing constants

The plain way to replace the constants of a tree makes every node of it anew. An editor whose only hook is at constants
makes a node anew only if something below it was replaced, and gives back the tree itself if nothing was. The two agree:
on the tree, on the state that the hook carries along, and on whether any constant was replaced.
-/

namespace PigChain

/-! ### The plain map -/

section

variable {m : Type → Type} [Monad m] (f : Value → DataType → m Expr)

mutual

/-- Makes every node anew, with `f` at the constants. -/
def Expr.mapConstants : Expr → m Expr
  | .constant v t => f v t
  | .parameter n t => pure (.parameter n t)
  | .member o n t => do
    let o ← Expr.mapConstantsOption o
    pure (.member o n t)
  | .unary op x t => do
    let x ← x.mapConstants
    pure (.unary op x t)
  | .binary op x y t => do
    let x ← x.mapConstants
    let y ← y.mapConstants
    pure (.binary op x y t)
  | .conditional c x y t => do
    let c ← c.mapConstants
    let x ← x.mapConstants
    let y ← y.mapConstants
    pure (.conditional c x y t)
  | .call o n as t => do
    let o ← Expr.mapConstantsOption o
    let as ← Expr.mapConstantsList as
    pure (.call o n as t)
  | .construct t as ns => do
    let as ← Expr.mapConstantsList as
    pure (.construct t as ns)
  | .arrayInit t xs => do
    let xs ← Expr.mapConstantsList xs
    pure (.arrayInit t xs)
  | .listInit t as ns is => do
    let as ← Expr.mapConstantsList as
    let is ← ElementInit.mapConstantsList is
    pure (.listInit t as ns is)
  | .lambda ps b => do
    let b ← b.mapConstants
    pure (.lambda ps b)
  | .invocation g as t => do
    let g ← g.mapConstants
    let as ← Expr.mapConstantsList as
    pure (.invocation g as t)
  | .recordInit t as ns bs => do
    let as ← Expr.mapConstantsList as
    let bs ← Binding.mapConstantsList bs
    pure (.recordInit t as ns bs)
  | .isNull x => do
    let x ← x.mapConstants
    pure (.isNull x)
  | .subquery s t => do
    let s ← s.mapConstants
    pure (.subquery s t)
  | .scalar s t => do
    let s ← s.mapConstants
    pure (.scalar s t)
  | .select s => do
    let s ← s.mapConstants
    pure (.select s)
  | .column n sc t => pure (.column n sc t)

def Expr.mapConstantsOption : Option Expr → m (Option Expr)
  | none => pure none
  | some x => do
    let x ← x.mapConstants
    pure (some x)

def Expr.mapConstantsList : List Expr → m (List Expr)
  | [] => pure []
  | x :: xs => do
    let x ← x.mapConstants
    let xs ← Expr.mapConstantsList xs
    pure (x :: xs)

def ElementInit.mapConstants : ElementInit → m ElementInit
  | ⟨n, as⟩ => do
    let as ← Expr.mapConstantsList as
    pure ⟨n, as⟩

def ElementInit.mapConstantsList : List ElementInit → m (List ElementInit)
  | [] => pure []
  | i :: is => do
    let i ← i.mapConstants
    let is ← ElementInit.mapConstantsList is
    pure (i :: is)

def Binding.mapConstants : Binding → m Binding
  | .assign n x => do
    let x ← x.mapConstants
    pure (.assign n x)
  | .nested n bs => do
    let bs ← Binding.mapConstantsList bs
    pure (.nested n bs)
  | .list n is => do
    let is ← ElementInit.mapConstantsList is
    pure (.list n is)

def Binding.mapConstantsList : List Binding → m (List Binding)
  | [] => pure []
  | b :: bs => do
    let b ← b.mapConstants
    let bs ← Binding.mapConstantsList bs
    pure (b :: bs)

def Stage.mapConstants : Stage → m Stage
  | ⟨source, filter, columns, projected, grouping, orderBy, limit, element, projector⟩ => do
    let source ← source.mapConstants
    let filter ← Expr.mapConstantsOption filter
    let columns ← Column.mapConstantsList columns
    let grouping ← Grouping.mapConstants grouping
    let orderBy ← Ordering.mapConstantsList orderBy
    pure ⟨source, filter, columns, projected, grouping, orderBy, limit, element, projector⟩

def Source.mapConstants : Source → m Source
  | .base n => pure (.base n)
  | .stage s => do
    let s ← s.mapConstants
    pure (.stage s)

def Column.mapConstants : Column → m Column
  | ⟨n, x⟩ => do
    let x ← x.mapConstants
    pure ⟨n, x⟩

def Column.mapConstantsList : List Column → m (List Column)
  | [] => pure []
  | c :: cs => do
    let c ← c.mapConstants
    let cs ← Column.mapConstantsList cs
    pure (c :: cs)

def Grouping.mapConstants : Option Grouping → m (Option Grouping)
  | none => pure none
  | some .all => pure (some .all)
  | some (.keys ks) => do
    let ks ← Expr.mapConstantsList ks
    pure (some (.keys ks))

def Ordering.mapConstants : Ordering → m Ordering
  | ⟨x, d⟩ => do
    let x ← x.mapConstants
    pure ⟨x, d⟩

def Ordering.mapConstantsList : List Ordering → m (List Ordering)
  | [] => pure []
  | o :: os => do
    let o ← o.mapConstants
    let os ← Ordering.mapConstantsList os
    pure (o :: os)

end

end

/-! ### The editor and the map side by side -/

variable {σ α β γ δ : Type}

/-- Replaces constants; `none` leaves a constant alone. The state may tell apart the places at which equal constants
stand. -/
def Editor.atConstants (replace : Value → DataType → StateM σ (Option Expr)) : Editor (Keeping σ) where
  expr e walk :=
    match e with
    | .constant v t => liftM (replace v t)
    | _ => walk

/-- A constant after `replace`, with a note if it was replaced. -/
def noting (replace : Value → DataType → StateM σ (Option Expr)) (v : Value) (t : DataType) :
    StateM (σ × Bool) Expr := do
  let (state, noted) ← get
  let (answer, state') := (replace v t).run state
  set (state', noted || answer.isSome)
  pure (answer.getD (.constant v t))

/-- A visit and the plain map of one part. The visit succeeds, the map gives the part with the answer filled in, both
leave the same state, and the map notes a replacement exactly if there is an answer. -/
def Agrees (visited : Keeping σ (Option α)) (fill : Option α → β) (mapped : StateM (σ × Bool) β) : Prop :=
  ∀ state, ∃ answer state', visited.run.run state = (.ok answer, state') ∧
    ∀ noted, mapped.run (state, noted) = (fill answer, state', noted || answer.isSome)

theorem state_run_bind {u : StateM σ α} {f : α → StateM σ β} {a : α} {before after : σ}
    (h : u.run before = (a, after)) : (u >>= f).run before = (f a).run after := by
  rw [StateT.run_bind, h]
  rfl

theorem agrees_pure (x : α) : Agrees (σ := σ) (pure none) (Option.getD · x) (pure x) := by
  intro state
  refine ⟨none, state, rfl, fun noted => ?_⟩
  rw [Option.isSome_none, Bool.or_false]
  rfl

theorem agrees_none (o : Option α) : Agrees (σ := σ) (pure none) (· <|> o) (pure o) := by
  intro state
  refine ⟨none, state, rfl, fun noted => ?_⟩
  rw [Option.isSome_none, Bool.or_false]
  rfl

theorem Agrees.map {visited : Keeping σ (Option α)} {x : α} {mapped : StateM (σ × Bool) α}
    (h : Agrees visited (Option.getD · x) mapped) (make : α → β) :
    Agrees (do
        let x' ← visited
        pure (x'.map make))
      (Option.getD · (make x))
      (do
        let x ← mapped
        pure (make x)) := by
  intro state
  obtain ⟨a, state', hvisited, hmapped⟩ := h state
  refine ⟨a.map make, state', ?_, fun noted => ?_⟩
  · rw [keeping_run_bind hvisited]
    rfl
  · rw [state_run_bind (hmapped noted), Option.isSome_map]
    cases a <;> rfl

/-- A part that is there is never taken away. -/
theorem Agrees.optional {visited : Keeping σ (Option α)} {x : α} {mapped : StateM (σ × Bool) α}
    (h : Agrees visited (Option.getD · x) mapped) :
    Agrees visited (· <|> some x) (do
      let x ← mapped
      pure (some x)) := by
  intro state
  obtain ⟨a, state', hvisited, hmapped⟩ := h state
  refine ⟨a, state', hvisited, fun noted => ?_⟩
  rw [state_run_bind (hmapped noted)]
  cases a <;> rfl

theorem Agrees.map2 {visited : Keeping σ (Option α)} {x : α} {mapped : StateM (σ × Bool) α}
    {visited' : Keeping σ (Option β)} {y : β} {mapped' : StateM (σ × Bool) β}
    (h : Agrees visited (Option.getD · x) mapped) (h' : Agrees visited' (Option.getD · y) mapped')
    (make : α → β → γ) :
    Agrees (do
        let x' ← visited
        let y' ← visited'
        pure (replace2 x x' y y' make))
      (Option.getD · (make x y))
      (do
        let x ← mapped
        let y ← mapped'
        pure (make x y)) := by
  intro state
  obtain ⟨a, state₁, hvisited, hmapped⟩ := h state
  obtain ⟨b, state₂, hvisited', hmapped'⟩ := h' state₁
  refine ⟨replace2 x a y b make, state₂, ?_, fun noted => ?_⟩
  · rw [keeping_run_bind hvisited, keeping_run_bind hvisited']
    rfl
  · have hsome : (replace2 x a y b make).isSome = (a.isSome || b.isSome) := by
      cases a <;> cases b <;> rfl
    rw [state_run_bind (hmapped noted), state_run_bind (hmapped' _), hsome, ← Bool.or_assoc]
    exact congrArg (·, state₂, noted || a.isSome || b.isSome) (replace2_getD x a y b make).symm

theorem Agrees.map3 {visited : Keeping σ (Option α)} {x : α} {mapped : StateM (σ × Bool) α}
    {visited' : Keeping σ (Option β)} {y : β} {mapped' : StateM (σ × Bool) β}
    {visited'' : Keeping σ (Option γ)} {z : γ} {mapped'' : StateM (σ × Bool) γ}
    (h : Agrees visited (Option.getD · x) mapped) (h' : Agrees visited' (Option.getD · y) mapped')
    (h'' : Agrees visited'' (Option.getD · z) mapped'') (make : α → β → γ → δ) :
    Agrees (do
        let x' ← visited
        let y' ← visited'
        let z' ← visited''
        pure (replace3 x x' y y' z z' make))
      (Option.getD · (make x y z))
      (do
        let x ← mapped
        let y ← mapped'
        let z ← mapped''
        pure (make x y z)) := by
  intro state
  obtain ⟨a, state₁, hvisited, hmapped⟩ := h state
  obtain ⟨b, state₂, hvisited', hmapped'⟩ := h' state₁
  obtain ⟨c, state₃, hvisited'', hmapped''⟩ := h'' state₂
  refine ⟨replace3 x a y b z c make, state₃, ?_, fun noted => ?_⟩
  · rw [keeping_run_bind hvisited, keeping_run_bind hvisited', keeping_run_bind hvisited'']
    rfl
  · have hsome : (replace3 x a y b z c make).isSome = (a.isSome || b.isSome || c.isSome) := by
      cases a <;> cases b <;> cases c <;> rfl
    rw [state_run_bind (hmapped noted), state_run_bind (hmapped' _), state_run_bind (hmapped'' _), hsome,
      ← Bool.or_assoc, ← Bool.or_assoc]
    exact congrArg (·, state₃, noted || a.isSome || b.isSome || c.isSome) (replace3_getD x a y b z c make).symm

theorem replaceCons_eq_replace2 (x : α) (x' : Option α) (xs : List α) (xs' : Option (List α)) :
    replaceCons x x' xs xs' = replace2 x x' xs xs' List.cons := by
  cases x' <;> cases xs' <;> rfl

/-- A list is visited and mapped item by item. -/
theorem Agrees.cons {visited : Keeping σ (Option α)} {x : α} {mapped : StateM (σ × Bool) α}
    {visited' : Keeping σ (Option (List α))} {xs : List α} {mapped' : StateM (σ × Bool) (List α)}
    (h : Agrees visited (Option.getD · x) mapped) (h' : Agrees visited' (Option.getD · xs) mapped') :
    Agrees (do
        let x' ← visited
        let xs' ← visited'
        pure (replaceCons x x' xs xs'))
      (Option.getD · (x :: xs))
      (do
        let x ← mapped
        let xs ← mapped'
        pure (x :: xs)) := by
  simp only [replaceCons_eq_replace2]
  exact h.map2 h' List.cons

/-- Every single value in a tree is read from rows of one field. -/
def Expr.NarrowScalars (e : Expr) : Prop := ∀ s t, Expr.Occurs (.scalar s t) e → s.width = 1

theorem Expr.narrowScalars_of_children {e : Expr} (h : ∀ s t, e = .scalar s t → s.width = 1)
    (hc : ∀ c ∈ e.children, c.NarrowScalars) : e.NarrowScalars := by
  rintro s t (_ | ⟨hmem, hs⟩)
  · exact h s t rfl
  · exact hc _ hmem s t hs

/-! ### Parts of a node -/

namespace Editor

variable (replace : Value → DataType → StateM σ (Option Expr))

/-- The visit of `x` agrees with the plain map of `x`. -/
def Maps (x : Expr) : Prop :=
  Agrees ((atConstants replace).visit x) (Option.getD · x) (x.mapConstants (noting replace))

variable {replace}

theorem maps_option {o : Option Expr} (h : ∀ x ∈ o.toList, Maps replace x) :
    Agrees ((atConstants replace).visitOption o) (· <|> o) (Expr.mapConstantsOption (noting replace) o) := by
  cases o with
  | none => exact agrees_none none
  | some x =>
    have hx : Maps replace x := h x (by simp)
    exact hx.optional

theorem maps_list {xs : List Expr} (h : ∀ x ∈ xs, Maps replace x) :
    Agrees ((atConstants replace).visitList xs) (Option.getD · xs) (Expr.mapConstantsList (noting replace) xs) := by
  induction xs with
  | nil => exact agrees_pure []
  | cons x xs ih => exact (h x List.mem_cons_self).cons (ih fun y hy => h y (List.mem_cons_of_mem x hy))

theorem maps_items {is : List ElementInit} (h : ∀ x ∈ is.flatMap ElementInit.args, Maps replace x) :
    Agrees ((atConstants replace).visitItems is) (Option.getD · is)
      (ElementInit.mapConstantsList (noting replace) is) := by
  induction is with
  | nil => exact agrees_pure []
  | cons i is ih =>
    obtain ⟨n, as⟩ := i
    rw [List.flatMap_cons] at h
    have has := maps_list fun x hx => h x (List.mem_append_left _ hx)
    have hitem := has.map (ElementInit.mk n)
    exact hitem.cons (ih fun x hx => h x (List.mem_append_right _ hx))

mutual

theorem maps_binding : ∀ {b : Binding}, (∀ x ∈ b.exprs, Maps replace x) →
    Agrees ((atConstants replace).visitBinding b) (Option.getD · b) (b.mapConstants (noting replace))
  | .assign n x, h => by
    have hx : Maps replace x := h x (by simp [Binding.exprs])
    exact hx.map (Binding.assign n)
  | .nested n bs, h => by
    rw [Binding.exprs] at h
    exact (maps_bindings h).map (Binding.nested n)
  | .list n is, h => by
    rw [Binding.exprs] at h
    exact (maps_items h).map (Binding.list n)

theorem maps_bindings : ∀ {bs : List Binding}, (∀ x ∈ Binding.exprsList bs, Maps replace x) →
    Agrees ((atConstants replace).visitBindings bs) (Option.getD · bs) (Binding.mapConstantsList (noting replace) bs)
  | [], _ => agrees_pure []
  | b :: bs, h => by
    rw [Binding.exprsList] at h
    exact (maps_binding fun x hx => h x (List.mem_append_left _ hx)).cons
      (maps_bindings fun x hx => h x (List.mem_append_right _ hx))

end

theorem maps_columns {columns : List Column} (h : ∀ x ∈ columns.map Column.expr, Maps replace x) :
    Agrees ((atConstants replace).visitColumns columns) (Option.getD · columns)
      (Column.mapConstantsList (noting replace) columns) := by
  induction columns with
  | nil => exact agrees_pure []
  | cons c columns ih =>
    obtain ⟨n, x⟩ := c
    have hx : Maps replace x := h x List.mem_cons_self
    exact (hx.map (Column.mk n)).cons (ih fun y hy => h y (List.mem_cons_of_mem x hy))

theorem maps_orderings {orderBy : List Ordering} (h : ∀ x ∈ orderBy.map Ordering.expr, Maps replace x) :
    Agrees ((atConstants replace).visitOrderings orderBy) (Option.getD · orderBy)
      (Ordering.mapConstantsList (noting replace) orderBy) := by
  induction orderBy with
  | nil => exact agrees_pure []
  | cons o orderBy ih =>
    obtain ⟨x, d⟩ := o
    have hx : Maps replace x := h x List.mem_cons_self
    exact (hx.map (Ordering.mk · d)).cons (ih fun y hy => h y (List.mem_cons_of_mem x hy))

theorem maps_grouping {g : Option Grouping} (h : ∀ x ∈ Grouping.exprs g, Maps replace x) :
    Agrees ((atConstants replace).visitGrouping g) (· <|> g) (Grouping.mapConstants (noting replace) g) := by
  rcases g with _ | _ | keys
  · exact agrees_none none
  · exact agrees_none (some Grouping.all)
  · exact ((maps_list h).map Grouping.keys).optional

theorem isSome_replace (s : Stage) (source : Option Source) (filter : Option Expr) (columns : Option (List Column))
    (grouping : Option Grouping) (orderBy : Option (List Ordering)) :
    (s.replace source filter columns grouping orderBy).isSome =
      (source.isSome || filter.isSome || columns.isSome || grouping.isSome || orderBy.isSome) := by
  cases source <;> cases filter <;> cases columns <;> cases grouping <;> cases orderBy <;> rfl

mutual

theorem maps_stage : ∀ {s : Stage}, (∀ x ∈ s.exprs, Maps replace x) →
    Agrees ((atConstants replace).visitStage s) (Option.getD · s) (s.mapConstants (noting replace))
  | ⟨source, filter, columns, projected, grouping, orderBy, limit, element, projector⟩, h => by
    rw [Stage.exprs] at h
    simp only [List.mem_append] at h
    have hsource := maps_source fun x (hx : x ∈ source.exprs) => h x (by simp [hx])
    have hfilter := maps_option fun x (hx : x ∈ filter.toList) => h x (by simp [hx])
    have hcolumns := maps_columns fun x (hx : x ∈ columns.map Column.expr) => h x (by simp only [hx, true_or, or_true])
    have hgrouping := maps_grouping fun x (hx : x ∈ Grouping.exprs grouping) => h x (by simp [hx])
    have horderBy := maps_orderings fun x (hx : x ∈ orderBy.map Ordering.expr) => h x (by simp only [hx, or_true])
    intro state
    obtain ⟨a, state₁, hvisited₁, hmapped₁⟩ := hsource state
    obtain ⟨b, state₂, hvisited₂, hmapped₂⟩ := hfilter state₁
    obtain ⟨c, state₃, hvisited₃, hmapped₃⟩ := hcolumns state₂
    obtain ⟨d, state₄, hvisited₄, hmapped₄⟩ := hgrouping state₃
    obtain ⟨e, state₅, hvisited₅, hmapped₅⟩ := horderBy state₄
    refine ⟨Stage.replace ⟨source, filter, columns, projected, grouping, orderBy, limit, element, projector⟩ a b c d e,
      state₅, ?_, fun noted => ?_⟩
    · rw [visitStage]
      show ((_ >>= _ : Keeping σ (Option Stage))).run.run state = _
      rw [keeping_run_bind hvisited₁, keeping_run_bind hvisited₂, keeping_run_bind hvisited₃,
        keeping_run_bind hvisited₄, keeping_run_bind hvisited₅]
      rfl
    · rw [Stage.mapConstants, state_run_bind (hmapped₁ noted), state_run_bind (hmapped₂ _),
        state_run_bind (hmapped₃ _), state_run_bind (hmapped₄ _), state_run_bind (hmapped₅ _), isSome_replace]
      simp only [← Bool.or_assoc, Stage.replace_getD]
      rfl

theorem maps_source : ∀ {s : Source}, (∀ x ∈ s.exprs, Maps replace x) →
    Agrees ((atConstants replace).visitSource s) (Option.getD · s) (s.mapConstants (noting replace))
  | .base n, _ => agrees_pure (Source.base n)
  | .stage s, h => by
    rw [Source.exprs] at h
    exact (maps_stage h).map Source.stage

end

/-! ### Nodes -/

theorem length_mapConstants (f : Value → DataType → StateM σ Expr) (columns : List Column) (before : σ) :
    ((Column.mapConstantsList f columns).run before).1.length = columns.length := by
  induction columns generalizing before with
  | nil => rfl
  | cons c columns ih => exact congrArg (· + 1) (ih ((c.mapConstants f).run before).2)

/-- The map keeps the number of columns and the row type. -/
theorem width_mapConstants (f : Value → DataType → StateM σ Expr) (s : Stage) (before : σ) :
    ((s.mapConstants f).run before).1.width = s.width := by
  obtain ⟨source, filter, columns, projected, grouping, orderBy, limit, element, projector⟩ := s
  show (if projected then ((Column.mapConstantsList f columns).run _).1.length else _) =
    (if projected then columns.length else _)
  rw [length_mapConstants]
  rfl

theorem maps_member {o : Option Expr} {n : String} {t : DataType} (h : ∀ x ∈ o.toList, Maps replace x) :
    Maps replace (.member o n t) := by
  intro state
  obtain ⟨a, state', hvisited, hmapped⟩ := maps_option h state
  refine ⟨a.map fun x => .member (some x) n t, state', ?_, fun noted => ?_⟩
  · rw [visit]
    show ((_ >>= _ : Keeping σ (Option Expr))).run.run state = _
    rw [keeping_run_bind hvisited]
    rfl
  · rw [Expr.mapConstants, state_run_bind (hmapped noted), Option.isSome_map]
    cases a <;> rfl

theorem maps_call {o : Option Expr} {n : String} {as : List Expr} {t : DataType}
    (ho : ∀ x ∈ o.toList, Maps replace x) (has : ∀ x ∈ as, Maps replace x) : Maps replace (.call o n as t) := by
  intro state
  obtain ⟨a, state₁, hvisited, hmapped⟩ := maps_option ho state
  obtain ⟨b, state₂, hvisited', hmapped'⟩ := maps_list has state₁
  refine ⟨replace2 o (a.map some) as b fun o as => .call o n as t, state₂, ?_, fun noted => ?_⟩
  · rw [visit]
    show ((_ >>= _ : Keeping σ (Option Expr))).run.run state = _
    rw [keeping_run_bind hvisited, keeping_run_bind hvisited']
    rfl
  · rw [Expr.mapConstants, state_run_bind (hmapped noted), state_run_bind (hmapped' _)]
    cases a <;> cases b <;> simp [replace2] <;> rfl

theorem maps_constant (v : Value) (t : DataType) : Maps replace (.constant v t) := by
  intro state
  exact ⟨((replace v t).run state).1, ((replace v t).run state).2, rfl, fun noted => rfl⟩

theorem maps_scalar {s : Stage} {t : DataType} (hw : s.width = 1) (h : ∀ x ∈ s.exprs, Maps replace x) :
    Maps replace (.scalar s t) := by
  intro state
  obtain ⟨a, state', hvisited, hmapped⟩ := maps_stage h state
  -- The visit refuses a scalar whose new stage is not one field wide; the map changes no width.
  have hwidth : (a.getD s).width = 1 := by
    have hkept := width_mapConstants (noting replace) s (state, false)
    rw [hmapped false] at hkept
    exact hkept.trans hw
  refine ⟨a.map (Expr.scalar · t), state', ?_, fun noted => ?_⟩
  · rw [visit]
    show ((_ >>= _ : Keeping σ (Option Expr))).run.run state = _
    rw [keeping_run_bind hvisited]
    cases a with
    | none => rfl
    | some s' =>
      rw [replaceScalar, if_pos (show s'.width = 1 from hwidth)]
      rfl
  · rw [Expr.mapConstants, state_run_bind (hmapped noted), Option.isSome_map]
    cases a <;> rfl

theorem maps_node {e : Expr} (hw : ∀ s t, e = .scalar s t → s.width = 1) (h : ∀ x ∈ e.children, Maps replace x) :
    Maps replace e := by
  cases e with
  | constant v t => exact maps_constant v t
  | parameter n t => exact agrees_pure (Expr.parameter n t)
  | column n sc t => exact agrees_pure (Expr.column n sc t)
  | member o n t => exact maps_member h
  | unary op x t =>
    have hx : Maps replace x := h x (by simp [Expr.children])
    exact hx.map fun x => Expr.unary op x t
  | binary op x y t =>
    have hx : Maps replace x := h x (by simp [Expr.children])
    have hy : Maps replace y := h y (by simp [Expr.children])
    exact hx.map2 hy fun x y => Expr.binary op x y t
  | conditional c x y t =>
    have hc : Maps replace c := h c (by simp [Expr.children])
    have hx : Maps replace x := h x (by simp [Expr.children])
    have hy : Maps replace y := h y (by simp [Expr.children])
    exact hc.map3 hx hy fun c x y => Expr.conditional c x y t
  | call o n as t =>
    rw [Expr.children] at h
    exact maps_call (fun x hx => h x (List.mem_append_left _ hx)) fun x hx => h x (List.mem_append_right _ hx)
  | construct t as ns => exact (maps_list h).map (Expr.construct t · ns)
  | arrayInit t xs => exact (maps_list h).map (Expr.arrayInit t)
  | listInit t as ns is =>
    rw [Expr.children] at h
    have has := maps_list fun x hx => h x (List.mem_append_left _ hx)
    have his := maps_items fun x hx => h x (List.mem_append_right _ hx)
    exact has.map2 his (Expr.listInit t · ns ·)
  | lambda ps b =>
    have hb : Maps replace b := h b (by simp [Expr.children])
    exact hb.map (Expr.lambda ps)
  | invocation g as t =>
    have hg : Maps replace g := h g (by simp [Expr.children])
    have has := maps_list fun x (hx : x ∈ as) => h x (by simp [Expr.children, hx])
    exact hg.map2 has (Expr.invocation · · t)
  | recordInit t as ns bs =>
    rw [Expr.children] at h
    have has := maps_list fun x hx => h x (List.mem_append_left _ hx)
    have hbs := maps_bindings fun x hx => h x (List.mem_append_right _ hx)
    exact has.map2 hbs (Expr.recordInit t · ns ·)
  | isNull x =>
    have hx : Maps replace x := h x (by simp [Expr.children])
    exact hx.map Expr.isNull
  | subquery s t => exact (maps_stage h).map (Expr.subquery · t)
  | scalar s t => exact maps_scalar (hw s t rfl) h
  | select s => exact (maps_stage h).map Expr.select

theorem maps_expr {e : Expr} (hw : e.NarrowScalars) : Maps replace e := by
  induction e using Expr.childInduction with
  | h e ih =>
    have hself : ∀ s t, e = .scalar s t → s.width = 1 := fun s t he => hw s t (he ▸ .self)
    have hbelow : ∀ x ∈ e.children, x.NarrowScalars := fun x hx s t hs => hw s t (.child hx hs)
    exact maps_node hself fun x hx => ih x hx (hbelow x hx)

/-- An editor with no hook of its own leaves every tree alone. -/
theorem visit_default {m : Type → Type} [Monad m] [MonadExceptOf Error m] [LawfulMonad m] (e : Expr) :
    ({} : Editor m).visit e = pure none := by
  induction e using Expr.childInduction with
  | h e ih =>
    rw [visit_eq]
    exact walk_eq_none (fun _ _ => rfl) ih

end Editor

/-- The visit of a tree with a hook at the constants succeeds, leaves the state that the plain map leaves and gives the
tree that the plain map makes. It answers that the tree was left alone exactly if no constant was replaced. With no hook
at all, every tree is left alone. -/
theorem visit_agrees_with_map (replace : Value → DataType → StateM σ (Option Expr)) {e : Expr}
    (hw : e.NarrowScalars) (state : σ) :
    (∃ answer state', ((Editor.atConstants replace).visit e).run.run state = (.ok answer, state') ∧
      (e.mapConstants (noting replace)).run (state, false) = (answer.getD e, state', answer.isSome)) ∧
    ∀ tree, ({} : Editor (Keeping σ)).visit tree = pure none := by
  refine ⟨?_, Editor.visit_default⟩
  obtain ⟨answer, state', hvisited, hmapped⟩ := Editor.maps_expr hw state
  exact ⟨answer, state', hvisited, hmapped false⟩

/-- Replaces the second constant that is met, whatever it is, and counts the constants. -/
def replaceSecond (_ : Value) (t : DataType) : StateM Nat (Option Expr) := do
  let count ← get
  set (count + 1)
  pure (if count = 1 then some (.parameter "x" t) else none)

/-- A comparison of a single value, whose rows are filtered by a constant, with the same constant. -/
def comparedTotal : Expr :=
  .binary .equal
    (.scalar { Stage.base "totals" .int64 with filter := some (.constant (.bool true) .bool) } .int64)
    (.constant (.bool true) .bool) .bool

theorem visit_agrees_with_map_comparedTotal :
    comparedTotal.NarrowScalars ∧
    ∃ answer state', ((Editor.atConstants replaceSecond).visit comparedTotal).run.run 0 = (.ok answer, state') ∧
      (comparedTotal.mapConstants (noting replaceSecond)).run (0, false) =
        (answer.getD comparedTotal, state', answer.isSome) ∧ answer.isSome = true ∧ state' = 2 := by
  have htrue : Expr.NarrowScalars (.constant (.bool true) .bool) :=
    Expr.narrowScalars_of_children (fun _ _ h => nomatch h) fun _ h => nomatch h
  have hw : comparedTotal.NarrowScalars := by
    refine Expr.narrowScalars_of_children (fun _ _ h => nomatch h) fun c hc => ?_
    rcases List.mem_cons.mp hc with rfl | hc
    · refine Expr.narrowScalars_of_children (fun s t h => ?_) fun c hc => ?_
      · cases h; rfl
      · obtain rfl : c = .constant (.bool true) .bool := List.mem_singleton.mp hc
        exact htrue
    · obtain rfl : c = .constant (.bool true) .bool := List.mem_singleton.mp hc
      exact htrue
  obtain ⟨⟨answer, state', hvisited, hmapped⟩, -⟩ := visit_agrees_with_map replaceSecond hw 0
  have hend : (2, true) = (state', answer.isSome) := congrArg Prod.snd hmapped
  exact ⟨hw, answer, state', hvisited, hmapped, (congrArg Prod.snd hend).symm, (congrArg Prod.fst hend).symm⟩

end PigChain
