import PigChain.Proofs.Inlining
import PigChain.Proofs.Scope
import PigChain.Proofs.Scoping

/-!
# The graph of a stage

A stage reads other stages, and its expressions hold stages of their own: those of scalars, of subqueries and of
relations, which again read stages and have expressions. All of them are the graph of the stage. What holds of every
stage of a graph can be checked clause by clause.
-/

namespace PigChain

variable {S : Stage → Prop} {s t u : Stage} {e x y : Expr}

/-! ### Stages at any depth -/

/-- The stage that a node holds. -/
def Expr.stage? : Expr → Option Stage
  | .subquery s _ => some s
  | .scalar s _ => some s
  | .select s => some s
  | _ => none

/-- The stage `t` is in the graph of a stage: it is the stage itself, or in the graph of a stage that it reads or that
one of its expressions holds. -/
inductive Stage.InGraph (t : Stage) : Stage → Prop where
  | self : Stage.InGraph t t
  | inner {s inner : Stage} (hs : s.source = .stage inner) (h : Stage.InGraph t inner) : Stage.InGraph t s
  | held {s u : Stage} {x : Expr} (hx : s.Contains x) (hu : x.stage? = some u) (h : Stage.InGraph t u) :
    Stage.InGraph t s

theorem Stage.Within.inGraph (h : t.Within s) : t.InGraph s := by
  induction h with
  | self => exact .self
  | inner hs _ ih => exact .inner hs ih

theorem Expr.Occurs.trans (hxy : Expr.Occurs x y) (hye : Expr.Occurs y e) : Expr.Occurs x e := by
  induction hye with
  | self => exact hxy
  | child hc _ ih => exact .child hc ih

theorem Expr.children_of_stage (h : e.stage? = some s) : e.children = s.exprs := by
  cases e with
  | subquery => cases h; rfl
  | scalar => cases h; rfl
  | select => cases h; rfl
  | _ => cases h

theorem Expr.holdsStage_eq_isSome (e : Expr) : e.holdsStage = e.stage?.isSome := by
  cases e <;> rfl

theorem Stage.mem_exprs : x ∈ s.exprs ↔ x ∈ s.source.exprs ∨ x ∈ s.filter ∨ x ∈ s.columns.map Column.expr ∨
    x ∈ Grouping.exprs s.grouping ∨ x ∈ s.orderBy.map Ordering.expr := by
  obtain ⟨source, filter, columns, projected, grouping, orderBy, limit, element, projector⟩ := s
  rw [Stage.exprs]
  simp only [List.mem_append, Option.mem_toList, Option.mem_def]

theorem mem_exprsList {b : Binding} {bindings : List Binding} (hb : b ∈ bindings) (hx : x ∈ b.exprs) :
    x ∈ Binding.exprsList bindings := by
  induction bindings with
  | nil => cases hb
  | cons d bindings ih =>
    rw [Binding.exprsList]
    rcases List.mem_cons.mp hb with rfl | hb
    · exact List.mem_append_left _ hx
    · exact List.mem_append_right _ (ih hb)

/-! ### What holds of every stage -/

/-- The stage that a node holds and those that it reads are in `S`. -/
def Expr.Holds (S : Stage → Prop) (e : Expr) : Prop := ∀ s, e.stage? = some s → ∀ t : Stage, t.Within s → S t

/-- Every stage that is held in an expression is in `S`. -/
def Expr.Wholly (S : Stage → Prop) (e : Expr) : Prop := e.Throughout (Expr.Holds S)

/-- A stage is in `S` with all stages of its graph, clause by clause. -/
structure Stage.Wholly (S : Stage → Prop) (s : Stage) : Prop where
  self : S s
  source : ∀ inner, s.source = .stage inner → ∀ t : Stage, t.InGraph inner → S t
  filter : ∀ x ∈ s.filter, x.Wholly S
  columns : ∀ c ∈ s.columns, c.expr.Wholly S
  grouping : ∀ x ∈ Grouping.exprs s.grouping, x.Wholly S
  orderBy : ∀ o ∈ s.orderBy, o.expr.Wholly S

theorem Expr.holds_of_plain (h : e.holdsStage = false) : e.Holds S := by
  intro s hs
  rw [Expr.holdsStage_eq_isSome, hs] at h
  cases h

theorem Expr.wholly_of_leaf (hc : e.children = []) (h : e.holdsStage = false) : e.Wholly S := by
  intro y hy
  rw [occurs_of_leaf hc hy]
  exact Expr.holds_of_plain h

/-- The stages of a graph, when those that are read and the expressions of all of them are looked at together. -/
theorem inGraph_of_exprs (hwithin : ∀ u : Stage, u.Within s → S u) (hexprs : ∀ x ∈ s.exprs, x.Wholly S)
    (ht : t.InGraph s) : S t := by
  induction ht with
  | self => exact hwithin t .self
  | @inner s inner hs _ ih =>
    refine ih (fun u hu => hwithin u (.inner hs hu)) fun x hx => hexprs x ?_
    refine Stage.mem_exprs.mpr (.inl ?_)
    rw [hs, Source.exprs]
    exact hx
  | @held s u x hx hu _ ih =>
    obtain ⟨c, hc, hxc⟩ := hx
    refine ih (hexprs c hc x hxc u hu) fun z hz y hy => ?_
    have hzx : Expr.Occurs z x := .child (by rw [Expr.children_of_stage hu]; exact hz) .self
    exact hexprs c hc y (hy.trans (hzx.trans hxc))

theorem Stage.wholly_iff : s.Wholly S ↔ ∀ t : Stage, t.InGraph s → S t := by
  constructor
  · intro h t ht
    cases ht with
    | self => exact h.self
    | inner hs ht => exact h.source _ hs t ht
    | @held _ u x hx hu ht =>
      obtain ⟨c, hc, hxc⟩ := hx
      -- An expression of a stage that is read belongs to the graph of that stage.
      have hown : c.Wholly S → S t := by
        intro hwhole
        refine inGraph_of_exprs (hwhole x hxc u hu) (fun z hz y hy => ?_) ht
        have hzx : Expr.Occurs z x := .child (by rw [Expr.children_of_stage hu]; exact hz) .self
        exact hwhole y (hy.trans (hzx.trans hxc))
      rcases Stage.mem_exprs.mp hc with hc | hc | hc | hc | hc
      · cases hsource : s.source with
        | base name =>
          rw [hsource, Source.exprs] at hc
          cases hc
        | stage inner =>
          rw [hsource, Source.exprs] at hc
          exact h.source inner hsource t (.held ⟨c, hc, hxc⟩ hu ht)
      · exact hown (h.filter c hc)
      · obtain ⟨col, hcol, rfl⟩ := List.mem_map.mp hc
        exact hown (h.columns col hcol)
      · exact hown (h.grouping c hc)
      · obtain ⟨o, ho, rfl⟩ := List.mem_map.mp hc
        exact hown (h.orderBy o ho)
  · intro h
    have hexprs : ∀ c ∈ s.exprs, c.Wholly S := fun c hc y hy u hu t ht => h t (.held ⟨c, hc, hy⟩ hu ht.inGraph)
    refine ⟨h s .self, fun inner hs t ht => h t (.inner hs ht), fun x hx => hexprs x ?_, fun c hc => hexprs c.expr ?_,
      fun x hx => hexprs x ?_, fun o ho => hexprs o.expr ?_⟩
    · exact Stage.mem_exprs.mpr (.inr (.inl hx))
    · exact Stage.mem_exprs.mpr (.inr (.inr (.inl (List.mem_map_of_mem hc))))
    · exact Stage.mem_exprs.mpr (.inr (.inr (.inr (.inl hx))))
    · exact Stage.mem_exprs.mpr (.inr (.inr (.inr (.inr (List.mem_map_of_mem ho)))))

end PigChain
