import PigChain.Proofs.Graph
import PigChain.Proofs.TypeJson

/-!
# Expressions inside a JSON form

The JSON form of a node holds the forms of the expressions below it, and beside them only names, types and the values of
constants. So these expressions nest less deep than the node, and the form is exact if theirs are. Both facts go up from
the parts of a form to the whole: through the items of an array and the fields of an object.
-/

namespace PigChain

variable {xs ys : List Expr} {j v : Json} {k : String} {items : List Json} {fields : List (String × Json)}

/-! ### Forms and their expressions -/

/-- A form with the expressions `xs` in it: they nest no deeper than it, and it is exact if they are. -/
structure Encloses (xs : List Expr) (j : Json) : Prop where
  depth : ∀ x ∈ xs, x.toJson.depth ≤ j.depth
  exact : (∀ x ∈ xs, x.toJson.Exact) → j.Exact

structure EnclosesItems (xs : List Expr) (items : List Json) : Prop where
  depth : ∀ x ∈ xs, x.toJson.depth ≤ Json.depthItems items
  exact : (∀ x ∈ xs, x.toJson.Exact) → Json.ExactItems items

structure EnclosesFields (xs : List Expr) (fields : List (String × Json)) : Prop where
  depth : ∀ x ∈ xs, x.toJson.depth ≤ Json.depthFields fields
  exact : (∀ x ∈ xs, x.toJson.Exact) → Json.ExactFields fields

theorem Encloses.leaf (h : j.Exact) : Encloses [] j := ⟨List.forall_mem_nil _, fun _ => h⟩

theorem Encloses.expr (x : Expr) : Encloses [x] x.toJson := by
  constructor
  · intro y hy
    rw [List.mem_singleton.mp hy]
  · intro h
    exact h x (List.mem_singleton_self x)

theorem EnclosesItems.nil : EnclosesItems [] [] := ⟨List.forall_mem_nil _, fun _ => trivial⟩

theorem EnclosesItems.cons (hj : Encloses xs j) (h : EnclosesItems ys items) :
    EnclosesItems (xs ++ ys) (j :: items) := by
  constructor
  · intro x hx
    rw [Json.depthItems]
    rcases List.mem_append.mp hx with hx | hx
    · have hle := hj.depth x hx
      omega
    · have hle := h.depth x hx
      omega
  · intro hexact
    exact ⟨hj.exact fun x hx => hexact x (List.mem_append_left _ hx),
      h.exact fun x hx => hexact x (List.mem_append_right _ hx)⟩

theorem Encloses.array (h : EnclosesItems xs items) : Encloses xs (.array items) :=
  ⟨fun x hx => Nat.le_succ_of_le (h.depth x hx), h.exact⟩

theorem EnclosesFields.nil : EnclosesFields [] [] := ⟨List.forall_mem_nil _, fun _ => trivial⟩

theorem EnclosesFields.cons (hv : Encloses xs v) (h : EnclosesFields ys fields) :
    EnclosesFields (xs ++ ys) ((k, v) :: fields) := by
  constructor
  · intro x hx
    rw [Json.depthFields]
    rcases List.mem_append.mp hx with hx | hx
    · have hle := hv.depth x hx
      omega
    · have hle := h.depth x hx
      omega
  · intro hexact
    exact ⟨hv.exact fun x hx => hexact x (List.mem_append_left _ hx),
      h.exact fun x hx => hexact x (List.mem_append_right _ hx)⟩

theorem EnclosesFields.leaf (hv : v.Exact) (h : EnclosesFields xs fields) : EnclosesFields xs ((k, v) :: fields) :=
  EnclosesFields.cons (.leaf hv) h

/-- The last field with expressions in it. -/
theorem EnclosesFields.last (hv : Encloses xs v) (h : Json.ExactFields fields) :
    EnclosesFields xs ((k, v) :: fields) := by
  have hfields : EnclosesFields [] fields := ⟨List.forall_mem_nil _, fun _ => h⟩
  have hcons : EnclosesFields (xs ++ []) ((k, v) :: fields) := .cons hv hfields
  rwa [List.append_nil] at hcons

theorem Encloses.object (h : EnclosesFields xs fields) : Encloses xs (.object fields) :=
  ⟨fun x hx => Nat.le_succ_of_le (h.depth x hx), h.exact⟩

/-! ### Parts of a node -/

theorem encloses_list (xs : List Expr) : Encloses xs (.array (Expr.listToJson xs)) := by
  refine .array ?_
  induction xs with
  | nil => exact .nil
  | cons x xs ih => exact .cons (.expr x) ih

theorem encloses_option (o : Option Expr) : Encloses o.toList (Expr.optionToJson o) := by
  cases o with
  | none => exact .leaf trivial
  | some x => exact .expr x

theorem encloses_items (is : List ElementInit) :
    Encloses (is.flatMap ElementInit.args) (.array (Expr.itemsToJson is)) := by
  refine .array ?_
  induction is with
  | nil => exact .nil
  | cons i is ih =>
    obtain ⟨method, args⟩ := i
    exact .cons (.object (.leaf trivial (.last (encloses_list args) trivial))) ih

theorem encloses_construct (t : DataType) (args : List Expr) (names : List String) :
    EnclosesFields args (constructFields t (Expr.listToJson args) names) := by
  refine .leaf t.exact_toJson (.last (encloses_list args) ?_)
  split
  · trivial
  · refine ⟨Json.exactItems_iff.mpr ?_, trivial⟩
    rw [List.forall_mem_map]
    exact fun _ _ => trivial

mutual

theorem encloses_binding : ∀ b : Binding, Encloses b.exprs b.toJson
  | .assign _ x => by
    rw [Binding.exprs]
    exact .object (.leaf trivial (.leaf trivial (.last (.expr x) trivial)))
  | .nested _ bs => by
    rw [Binding.exprs]
    exact .object (.leaf trivial (.leaf trivial (.last (.array (encloses_bindings bs)) trivial)))
  | .list _ is => by
    rw [Binding.exprs]
    exact .object (.leaf trivial (.leaf trivial (.last (encloses_items is) trivial)))

theorem encloses_bindings : ∀ bs : List Binding, EnclosesItems (Binding.exprsList bs) (Expr.bindingsToJson bs)
  | [] => .nil
  | b :: bs => .cons (encloses_binding b) (encloses_bindings bs)

end

/-! ### Stages -/

theorem encloses_columns (cs : List Column) : Encloses (cs.map Column.expr) (.array (Expr.columnsToJson cs)) := by
  refine .array ?_
  induction cs with
  | nil => exact .nil
  | cons c cs ih =>
    obtain ⟨name, x⟩ := c
    have hcolumn : Encloses [x] (Column.toJson ⟨name, x⟩) := .object (.leaf trivial (.last (.expr x) trivial))
    exact .cons hcolumn ih

theorem encloses_grouping (g : Option Grouping) : Encloses (Grouping.exprs g) (Expr.groupingToJson g) := by
  match g with
  | none => exact .leaf trivial
  | some .all => exact .leaf trivial
  | some (.keys ks) => exact .object (.last (encloses_list ks) trivial)

theorem encloses_orderings (os : List Ordering) :
    Encloses (os.map Ordering.expr) (.array (Expr.orderingsToJson os)) := by
  refine .array ?_
  induction os with
  | nil => exact .nil
  | cons o os ih =>
    obtain ⟨x, d⟩ := o
    have hordering : Encloses [x] (.object [("expr", x.toJson), ("direction", .string d.name)]) :=
      .object (.last (.expr x) ⟨trivial, trivial⟩)
    exact .cons hordering ih

theorem exact_limit (limit : Option UInt64) : (limitToJson limit).Exact := by
  cases limit with
  | none => trivial
  | some n =>
    have hlt := n.toNat_lt
    refine ⟨?_, ?_⟩ <;> omega

mutual

theorem encloses_stage : ∀ s : Stage, EnclosesFields s.exprs s.parts
  | ⟨source, filter, columns, _, grouping, orderBy, limit, element, projector⟩ => by
    have hrest : Json.ExactFields
        [("limit", limitToJson limit), ("element", element.toJson), ("projector", projector.toJson)] :=
      ⟨exact_limit limit, element.exact_toJson, projector.exact_toJson, trivial⟩
    have horder : EnclosesFields (orderBy.map Ordering.expr) _ :=
      .last (k := "order_by") (encloses_orderings orderBy) hrest
    rw [Stage.exprs]
    exact .cons (encloses_source source) (.cons (encloses_option filter) (.cons (encloses_columns columns)
      (.leaf trivial (.cons (encloses_grouping grouping) horder))))

theorem encloses_source : ∀ source : Source, Encloses source.exprs source.toJson
  | .base _ => by
    rw [Source.exprs]
    exact .leaf ⟨trivial, trivial, trivial⟩
  | .stage inner => by
    rw [Source.exprs]
    exact .object (.leaf trivial (.last (.object (encloses_stage inner)) trivial))

end

/-! ### Nodes -/

theorem encloses_parts {e : Expr} (h : ∀ v t, e = .constant v t → v.Kept) : EnclosesFields e.children e.parts := by
  have htype : ∀ t : DataType, Json.ExactFields [("data_type", t.toJson)] := fun t => ⟨t.exact_toJson, trivial⟩
  cases e with
  | constant v t => exact .leaf (Value.exact_toJson (h v t rfl)) (.leaf t.exact_toJson .nil)
  | parameter n t => exact .leaf trivial (.leaf t.exact_toJson .nil)
  | member o n t => exact .last (encloses_option o) ⟨trivial, htype t⟩
  | unary op x t => exact .leaf trivial (.last (.expr x) (htype t))
  | binary op x y t => exact .leaf trivial (.cons (.expr x) (.last (.expr y) (htype t)))
  | conditional c x y t => exact .cons (.expr c) (.cons (.expr x) (.last (.expr y) (htype t)))
  | call o m as t => exact .cons (encloses_option o) (.leaf trivial (.last (encloses_list as) (htype t)))
  | construct t as ns => exact encloses_construct t as ns
  | arrayInit t xs => exact .leaf t.exact_toJson (.last (encloses_list xs) trivial)
  | listInit t as ns is => exact .cons (.object (encloses_construct t as ns)) (.last (encloses_items is) trivial)
  | lambda ps b =>
    have hparams : (Json.array (ps.map Parameter.toJson)).Exact := by
      refine Json.exactItems_iff.mpr ?_
      rw [List.forall_mem_map]
      exact fun p _ => ⟨trivial, p.type.exact_toJson, trivial⟩
    exact .leaf hparams (.last (.expr b) trivial)
  | invocation f as t => exact .cons (.expr f) (.last (encloses_list as) (htype t))
  | recordInit t as ns bs =>
    exact .cons (.object (encloses_construct t as ns)) (.last (.array (encloses_bindings bs)) trivial)
  | isNull x => exact .last (.expr x) trivial
  | subquery s t => exact .last (.object (encloses_stage s)) (htype t)
  | scalar s t => exact .last (.object (encloses_stage s)) (htype t)
  | select s => exact encloses_stage s
  | column n scope t => exact .leaf trivial (.leaf trivial (.leaf t.exact_toJson .nil))

theorem Expr.depth_toJson (e : Expr) : e.toJson.depth = Json.depthFields e.parts + 1 := by
  simp [Expr.toJson, Json.node, Json.depth, Json.depthFields]

/-- Every constant of a tree is kept by its form. -/
def Expr.Kept (e : Expr) : Prop := ∀ v t, Expr.Occurs (.constant v t) e → v.Kept

theorem Expr.Kept.child {c e : Expr} (h : e.Kept) (hc : c ∈ e.children) : c.Kept :=
  fun v t hv => h v t (.child hc hv)

theorem Expr.Kept.constant {e : Expr} (h : e.Kept) {v : Value} {t : DataType} (he : e = .constant v t) : v.Kept :=
  h v t (he ▸ .self)

theorem Expr.kept_of_children {e : Expr} (he : ∀ v t, e = .constant v t → v.Kept) (h : ∀ c ∈ e.children, c.Kept) :
    e.Kept := by
  intro v t hv
  cases hv with
  | self => exact he v t rfl
  | child hc hv => exact h _ hc v t hv

theorem Expr.exact_toJson {e : Expr} (h : e.Kept) : e.toJson.Exact := by
  induction e using Expr.childInduction with
  | h e ih =>
    have hparts : EnclosesFields e.children e.parts := encloses_parts fun _ _ he => h.constant he
    exact ⟨trivial, hparts.exact fun c hc => ih c hc (h.child hc)⟩

end PigChain
