import PigChain.Proofs.PlainMap

/-!
# Trees made of their children

The children of a node are smaller than the node, so a function of trees may be given by what it makes of a node and of
the results of its children. In a tree whose scalars are all one field wide no walk is refused for the width of a stage:
filled in with what it left alone, the walk of any node puts the results of the children in their places.
-/

namespace PigChain

/-! ### Sizes -/

section

variable {c e : Expr}

theorem sizeOf_lt_of_mem_toList {o : Option Expr} (h : c ∈ o.toList) : sizeOf c < sizeOf o := by
  cases o with
  | none => cases h
  | some x =>
    rw [List.mem_singleton.mp h, Option.some.sizeOf_spec]
    omega

theorem sizeOf_lt_of_mem_items {is : List ElementInit} (h : c ∈ is.flatMap ElementInit.args) :
    sizeOf c < sizeOf is := by
  obtain ⟨⟨n, as⟩, hi, hc⟩ := List.mem_flatMap.mp h
  have hitem := List.sizeOf_lt_of_mem hi
  have harg : sizeOf c < sizeOf as := List.sizeOf_lt_of_mem hc
  rw [ElementInit.mk.sizeOf_spec] at hitem
  omega

mutual

theorem sizeOf_lt_of_mem_binding : ∀ {b : Binding}, c ∈ b.exprs → sizeOf c < sizeOf b
  | .assign n x, h => by
    rw [Binding.exprs] at h
    rw [List.mem_singleton.mp h, Binding.assign.sizeOf_spec]
    omega
  | .nested n bs, h => by
    rw [Binding.exprs] at h
    have hbelow := sizeOf_lt_of_mem_bindings h
    rw [Binding.nested.sizeOf_spec]
    omega
  | .list n is, h => by
    rw [Binding.exprs] at h
    have hbelow := sizeOf_lt_of_mem_items h
    rw [Binding.list.sizeOf_spec]
    omega

theorem sizeOf_lt_of_mem_bindings : ∀ {bs : List Binding}, c ∈ Binding.exprsList bs → sizeOf c < sizeOf bs
  | [], h => by
    rw [Binding.exprsList] at h
    cases h
  | b :: bs, h => by
    rw [Binding.exprsList] at h
    rw [List.cons.sizeOf_spec]
    rcases List.mem_append.mp h with h | h
    · have hbelow := sizeOf_lt_of_mem_binding h
      omega
    · have hbelow := sizeOf_lt_of_mem_bindings h
      omega

end

theorem sizeOf_lt_of_mem_columns {columns : List Column} (h : c ∈ columns.map Column.expr) :
    sizeOf c < sizeOf columns := by
  obtain ⟨⟨n, x⟩, hmem, rfl⟩ := List.mem_map.mp h
  have hcolumn := List.sizeOf_lt_of_mem hmem
  rw [Column.mk.sizeOf_spec] at hcolumn
  dsimp only
  omega

theorem sizeOf_lt_of_mem_orderings {orderBy : List Ordering} (h : c ∈ orderBy.map Ordering.expr) :
    sizeOf c < sizeOf orderBy := by
  obtain ⟨⟨x, d⟩, hmem, rfl⟩ := List.mem_map.mp h
  have hordering := List.sizeOf_lt_of_mem hmem
  rw [Ordering.mk.sizeOf_spec] at hordering
  dsimp only
  omega

theorem sizeOf_lt_of_mem_grouping {g : Option Grouping} (h : c ∈ Grouping.exprs g) : sizeOf c < sizeOf g := by
  rcases g with _ | _ | keys
  · cases h
  · cases h
  · have hkey : sizeOf c < sizeOf keys := List.sizeOf_lt_of_mem h
    rw [Option.some.sizeOf_spec, Grouping.keys.sizeOf_spec]
    omega

mutual

theorem sizeOf_lt_of_mem_stage : ∀ {s : Stage}, c ∈ s.exprs → sizeOf c < sizeOf s
  | ⟨source, filter, columns, projected, grouping, orderBy, limit, element, projector⟩, h => by
    rw [Stage.exprs] at h
    simp only [List.mem_append] at h
    rw [Stage.mk.sizeOf_spec]
    rcases h with h | h | h | h | h
    · have hbelow := sizeOf_lt_of_mem_source h
      omega
    · have hbelow := sizeOf_lt_of_mem_toList h
      omega
    · have hbelow := sizeOf_lt_of_mem_columns h
      omega
    · have hbelow := sizeOf_lt_of_mem_grouping h
      omega
    · have hbelow := sizeOf_lt_of_mem_orderings h
      omega

theorem sizeOf_lt_of_mem_source : ∀ {s : Source}, c ∈ s.exprs → sizeOf c < sizeOf s
  | .base n, h => by
    rw [Source.exprs] at h
    cases h
  | .stage s, h => by
    rw [Source.exprs] at h
    have hbelow := sizeOf_lt_of_mem_stage h
    rw [Source.stage.sizeOf_spec]
    omega

end

theorem Expr.sizeOf_lt_of_mem_children (h : c ∈ e.children) : sizeOf c < sizeOf e := by
  cases e with
  | constant v t => cases h
  | parameter n t => cases h
  | column n sc t => cases h
  | member o n t =>
    have hbelow := sizeOf_lt_of_mem_toList h
    rw [Expr.member.sizeOf_spec]
    omega
  | unary op x t =>
    rw [List.mem_singleton.mp h, Expr.unary.sizeOf_spec]
    omega
  | binary op x y t =>
    simp only [Expr.children, List.mem_cons, List.not_mem_nil, or_false] at h
    rw [Expr.binary.sizeOf_spec]
    rcases h with rfl | rfl <;> omega
  | conditional b x y t =>
    simp only [Expr.children, List.mem_cons, List.not_mem_nil, or_false] at h
    rw [Expr.conditional.sizeOf_spec]
    rcases h with rfl | rfl | rfl <;> omega
  | call o n as t =>
    rw [Expr.call.sizeOf_spec]
    rcases List.mem_append.mp h with h | h
    · have hbelow := sizeOf_lt_of_mem_toList h
      omega
    · have hbelow := List.sizeOf_lt_of_mem h
      omega
  | construct t as ns =>
    have hbelow : sizeOf c < sizeOf as := List.sizeOf_lt_of_mem h
    rw [Expr.construct.sizeOf_spec]
    omega
  | arrayInit t xs =>
    have hbelow : sizeOf c < sizeOf xs := List.sizeOf_lt_of_mem h
    rw [Expr.arrayInit.sizeOf_spec]
    omega
  | listInit t as ns is =>
    rw [Expr.listInit.sizeOf_spec]
    rcases List.mem_append.mp h with h | h
    · have hbelow := List.sizeOf_lt_of_mem h
      omega
    · have hbelow := sizeOf_lt_of_mem_items h
      omega
  | lambda ps b =>
    rw [List.mem_singleton.mp h, Expr.lambda.sizeOf_spec]
    omega
  | invocation f as t =>
    rw [Expr.invocation.sizeOf_spec]
    rcases List.mem_cons.mp h with rfl | h
    · omega
    · have hbelow := List.sizeOf_lt_of_mem h
      omega
  | recordInit t as ns bs =>
    rw [Expr.recordInit.sizeOf_spec]
    rcases List.mem_append.mp h with h | h
    · have hbelow := List.sizeOf_lt_of_mem h
      omega
    · have hbelow := sizeOf_lt_of_mem_bindings h
      omega
  | isNull x =>
    rw [List.mem_singleton.mp h, Expr.isNull.sizeOf_spec]
    omega
  | subquery s t =>
    have hbelow := sizeOf_lt_of_mem_stage h
    rw [Expr.subquery.sizeOf_spec]
    omega
  | scalar s t =>
    have hbelow := sizeOf_lt_of_mem_stage h
    rw [Expr.scalar.sizeOf_spec]
    omega
  | select s =>
    have hbelow := sizeOf_lt_of_mem_stage h
    rw [Expr.select.sizeOf_spec]
    omega

theorem Expr.NarrowScalars.child (h : e.NarrowScalars) (hc : c ∈ e.children) : c.NarrowScalars :=
  fun s t hs => h s t (.child hc hs)

theorem Expr.NarrowScalars.width {s : Stage} {t : DataType} (h : (Expr.scalar s t).NarrowScalars) : s.width = 1 :=
  h s t .self

theorem Expr.narrowScalars_node (hk : ∀ s t, e ≠ .scalar s t) :
    e.NarrowScalars ↔ ∀ c ∈ e.children, c.NarrowScalars :=
  ⟨fun h _ hc => h.child hc, Expr.narrowScalars_of_children fun s t he => absurd he (hk s t)⟩

theorem Expr.narrowScalars_scalar {s : Stage} {t : DataType} :
    (Expr.scalar s t).NarrowScalars ↔ s.width = 1 ∧ ∀ c ∈ s.exprs, c.NarrowScalars := by
  refine ⟨fun h => ⟨h.width, fun _ hc => h.child hc⟩, fun h => Expr.narrowScalars_of_children (fun s' t' he => ?_) h.2⟩
  cases he
  exact h.1

end

/-! ### Results that a computation may have -/

section

variable {m : Type → Type} [Monad m] {α β : Type}

/-- All results of a computation are in `P`, as far as anything that follows it can tell. -/
def ResultsIn (u : m α) (P : α → Prop) : Prop :=
  ∀ ⦃β : Type⦄ (f g : α → m β), (∀ a, P a → f a = g a) → (u >>= f) = (u >>= g)

theorem resultsIn_trivial (u : m α) : ResultsIn u fun _ => True :=
  fun _ _ _ hfg => congrArg (u >>= ·) (funext fun a => hfg a trivial)

variable [LawfulMonad m]

theorem resultsIn_pure {P : α → Prop} {a : α} (h : P a) : ResultsIn (pure a : m α) P := by
  intro β f g hfg
  rw [pure_bind, pure_bind, hfg a h]

theorem ResultsIn.bind {P : α → Prop} {Q : β → Prop} {u : m α} {f : α → m β} (hu : ResultsIn u P)
    (hf : ∀ a, P a → ResultsIn (f a) Q) : ResultsIn (u >>= f) Q := by
  intro γ g k hgk
  rw [bind_assoc, bind_assoc]
  exact hu _ _ fun a ha => hf a ha g k hgk

end

/-! ### Walks over narrow scalars -/

namespace Editor

variable {m : Type → Type} [Monad m] [MonadExceptOf Error m] [LawfulMonad m] {r : Editor m}

theorem visitColumns_keeps_length (r : Editor m) (columns : List Column) :
    ResultsIn (r.visitColumns columns) fun columns' => (columns'.getD columns).length = columns.length := by
  induction columns with
  | nil =>
    rw [visitColumns]
    exact resultsIn_pure rfl
  | cons c columns ih =>
    rw [visitColumns]
    refine (resultsIn_trivial _).bind fun c' _ => ih.bind fun columns' hlength => resultsIn_pure ?_
    rw [replaceCons_getD, List.length_cons, hlength, List.length_cons]

/-- Clauses are replaced and not taken away, so a stage keeps its width. -/
theorem visitStage_keeps_width (hr : r.WalksStages) (s : Stage) :
    ResultsIn (r.visitStage s) fun s' => (s'.getD s).width = s.width := by
  obtain ⟨source, filter, columns, projected, grouping, orderBy, limit, element, projector⟩ := s
  rw [visitStage, hr]
  refine (resultsIn_trivial _).bind fun source' _ => (resultsIn_trivial _).bind fun filter' _ =>
    (visitColumns_keeps_length r columns).bind fun columns' hlength => (resultsIn_trivial _).bind fun grouping' _ =>
      (resultsIn_trivial _).bind fun orderBy' _ => resultsIn_pure ?_
  rw [Stage.replace_getD, Stage.width, Stage.width]
  dsimp only
  rw [hlength]

/-- A scalar that is one field wide is a scalar over whatever its stage is made. -/
theorem rewalk_scalar (hr : r.WalksStages) {s : Stage} (hw : s.width = 1) (t : DataType) :
    r.rewalk (.scalar s t) = (do
      let s ← r.runStage s
      pure (.scalar s t)) := by
  simp only [rewalk, walk, runStage, bind_assoc, pure_bind]
  refine visitStage_keeps_width hr s _ _ fun s' hwidth => ?_
  cases s' with
  | none => rw [replaceScalar, pure_bind]; rfl
  | some s' =>
    rw [replaceScalar, if_pos (show s'.width = 1 from hwidth.trans hw), pure_bind]
    rfl

/-- The walk of any node visits its children in order and puts the results in their places, if no scalar stands in the
way. -/
theorem rewalk_eq_mapM_of_narrow (hr : r.WalksStages) {e : Expr} (hw : e.NarrowScalars) :
    r.rewalk e = e.withChildren <$> e.children.mapM r.run := by
  by_cases hk : e.kind = .scalar
  · cases e with
    | scalar s t =>
      rw [rewalk_scalar hr hw.width, runStage_eq_mapM hr]
      simp only [map_eq_pure_bind, bind_assoc, pure_bind, Expr.children, Expr.withChildren]
    | _ => cases hk
  · exact rewalk_eq_mapM hr hk

end Editor

end PigChain
