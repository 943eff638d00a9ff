import PigChain.Proofs.Combinators
import PigChain.Proofs.RowTypes

/-!
# Flat chains

A flat chain reads a source of records of primitive fields, and its lambdas compute with fields of the row, the
key and aggregates of a group, literals, operators, choices, null tests and methods of texts. They hold no chain,
no column and no stage of their own. The types that it declares are primitive, records of primitive fields, or
unknown. The literals of a chain are drawn from a set `L`, which a statement about all literals takes to be everything.
-/

namespace PigChain

/-- Primitive types, records of primitive fields, and the unknown type. -/
def DataType.isFlat : DataType → Bool
  | .unknown => true
  | .record _ fields => fields.all fun f => f.type.isPrimitive
  | t => t.isPrimitive

theorem DataType.groupFree_of_isFlat {t : DataType} (h : t.isFlat = true) : t.groupFree = true := by
  cases t with
  | record name fields =>
    rw [groupFree_record]
    intro f hf
    exact groupFree_of_isPrimitive (List.all_eq_true.mp h f hf)
  | _ => first | rfl | cases h

/-- Every literal is allowed. -/
abbrev anyValue : Value → Prop := fun _ => True

/-- The body of a flat lambda whose parameter is named `row`. -/
inductive FlatBody (L : Value → Prop) : String → Expr → Prop where
  | constant {row : String} {v : Value} {t : DataType} (hv : L v) (ht : t.isFlat = true) :
    FlatBody L row (.constant v t)
  /-- The row by itself: the value of a row of bare values. -/
  | row {row : String} {t : DataType} : FlatBody L row (.parameter row t)
  /-- A field of the row, or the key of a group. -/
  | field {row name : String} {t type : DataType} :
    FlatBody L row (.member (some (.parameter row t)) name type)
  /-- An aggregate over a group. -/
  | aggregate {row method : String} {t type : DataType} {selectors : List (Parameter × Expr)}
    (hs : ∀ q ∈ selectors, FlatBody L q.1.name q.2) (ht : type.isFlat = true) :
    FlatBody L row (.call (some (.parameter row t)) method (selectors.map fun q => .lambda [q.1] q.2) type)
  | unary {row : String} {op : UnaryOp} {x : Expr} {t : DataType} (hx : FlatBody L row x)
    (ht : t.isFlat = true) : FlatBody L row (.unary op x t)
  | binary {row : String} {op : BinaryOp} {x y : Expr} {t : DataType} (hx : FlatBody L row x)
    (hy : FlatBody L row y) (ht : t.isFlat = true) : FlatBody L row (.binary op x y t)
  | conditional {row : String} {c x y : Expr} {t : DataType} (hc : FlatBody L row c) (hx : FlatBody L row x)
    (hy : FlatBody L row y) (ht : t.isFlat = true) : FlatBody L row (.conditional c x y t)
  | isNull {row : String} {x : Expr} (hx : FlatBody L row x) : FlatBody L row (.isNull x)
  /-- A method of a text. -/
  | method {row name : String} {x : Expr} {args : List Expr} {t : DataType} (hx : FlatBody L row x)
    (hargs : ∀ a ∈ args, FlatBody L row a) (ht : t.isFlat = true) :
    FlatBody L row (.call (some x) name args t)

/-- The body of a flat selector: one value, or a record of values. -/
def FlatSelector (L : Value → Prop) (row : String) (body : Expr) : Prop := ∀ x ∈ body.selected, FlatBody L row x

/-- A flat predicate or key. -/
def FlatLambda (L : Value → Prop) (e : Expr) : Prop := ∀ p body, e = .lambda [p] body → FlatBody L p.name body

/-- A flat selector of a projection. -/
def FlatProjection (L : Value → Prop) (e : Expr) : Prop :=
  ∀ p body, e = .lambda [p] body → FlatSelector L p.name body

/-- The combinators whose lambda makes columns. -/
def projects (method : String) : Bool :=
  method = "Select" || method = "GroupBy" ||
    ((aggregateFunction? method).isSome && method != "Count")

/-- A combinator with a flat lambda that declares a flat type. -/
structure FlatStep (L : Value → Prop) (method : String) (arg : Option Expr) (type : DataType) : Prop where
  lambda : projects method = false → ∀ e, arg = some e → FlatLambda L e
  projection : projects method = true → ∀ e, arg = some e → FlatProjection L e
  row : method = "Select" → (type.element?.getD .unknown).isFlat = true
  key : method = "GroupBy" → ∀ key element, type.element? = some (.grouping key element) → key.isFlat = true
  result : (aggregateFunction? method).isSome = true → type.isFlat = true

theorem FlatStep.select {L : Value → Prop} {e : Expr} {type : DataType} (h : FlatProjection L e)
    (ht : (type.element?.getD .unknown).isFlat = true) : FlatStep L "Select" (some e) type where
  lambda hm := absurd hm (by decide)
  projection _ _ he := Option.some.inj he ▸ h
  row _ := ht
  key hm := absurd hm (by decide)
  result hm := absurd hm (by decide)

/-- A combinator that neither makes columns nor aggregates. -/
theorem FlatStep.reads {L : Value → Prop} {method : String} {e : Expr} {type : DataType}
    (hm : projects method = false) (ha : aggregateFunction? method = none) (h : FlatLambda L e) :
    FlatStep L method (some e) type where
  lambda _ _ he := Option.some.inj he ▸ h
  projection hp := absurd (hm.symm.trans hp) Bool.false_ne_true
  row hs := by
    subst hs
    cases hm
  key hg := by
    subst hg
    cases hm
  result hs := by
    rw [ha] at hs
    cases hs

theorem FlatStep.orderBy {L : Value → Prop} {e : Expr} {type : DataType} (h : FlatLambda L e) :
    FlatStep L "OrderBy" (some e) type :=
  .reads rfl rfl h

/-- An aggregate of a selected column. -/
theorem FlatStep.aggregates {L : Value → Prop} {method : String} {e : Expr} {type : DataType}
    (hm : aggregateFunction? method ≠ none) (hc : method ≠ "Count") (h : FlatProjection L e) (ht : type.isFlat = true) :
    FlatStep L method (some e) type where
  lambda hp := by
    unfold projects at hp
    simp_all [Option.isSome_iff_ne_none]
  projection _ _ he := Option.some.inj he ▸ h
  row hs := by
    subst hs
    exact absurd rfl hm
  key hg := by
    subst hg
    exact absurd rfl hm
  result _ := ht

theorem FlatSelector.recordWith {L : Value → Prop} {row : String} {t : DataType} {members : List (String × Expr)}
    (h : ∀ m ∈ members, FlatBody L row m.2) : FlatSelector L row (.recordWith t members) := by
  intro x hx
  obtain ⟨binding, hb, hx⟩ := List.mem_filterMap.mp hx
  obtain ⟨m, hm, rfl⟩ := List.mem_map.mp hb
  cases hx
  exact h m hm

/-- A flat chain. -/
inductive FlatChain (L : Value → Prop) : Expr → Prop where
  | source {name record : String} {fields : List Field} (h : ∀ f ∈ fields, f.type.isPrimitive = true) :
    FlatChain L (.constant (.source name) (.query (.record record fields)))
  | step {chain : Expr} {method : String} {args : List Expr} {type : DataType} (hc : FlatChain L chain)
    (hs : FlatStep L method args.head? type) : FlatChain L (.call none method (chain :: args) type)

end PigChain
