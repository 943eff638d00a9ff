import PigChain.Proofs.BoundNodes

/-!
# Distinct column names

The columns of a stage are found by name, the first one counts. Projections refuse a name that is given twice, fields are
noted once, a new stage declares the columns of the one it reads, and the passes over expressions rename nothing, also
in the stages inside them. So the names of the columns are distinct in every stage of a bound chain.
-/

namespace PigChain

variable {nested : Expr → BindM Stage} {s s' t : Stage} {e : Expr}

def Stage.Distinct (s : Stage) : Prop := (Column.names s.columns).Nodup

/-! ### Other children -/

theorem Column.names_refill (columns : List Column) (cs : List Expr) :
    (Column.names (Column.refill columns cs)).Sublist (Column.names columns) := by
  induction columns generalizing cs with
  | nil => exact List.Sublist.refl _
  | cons c columns ih =>
    cases cs with
    | nil => exact List.nil_sublist _
    | cons x cs => exact (ih cs).cons_cons c.name

mutual

/-- Every stage that is read after other expressions are put in has columns of a stage that was read before. -/
theorem Stage.within_refill : ∀ (s : Stage) {cs : List Expr} {t : Stage}, t.Within (s.refill cs) →
    ∃ u : Stage, u.Within s ∧ (Column.names t.columns).Sublist (Column.names u.columns)
  | ⟨source, filter, columns, projected, grouping, orderBy, limit, element, projector⟩, cs, t, h => by
    rw [Stage.refill] at h
    cases h with
    | self => exact ⟨_, .self, Column.names_refill columns _⟩
    | inner hs ht =>
      obtain ⟨inner, rfl, u, hu, hsub⟩ := Source.within_refill source hs ht
      exact ⟨u, .inner rfl hu, hsub⟩

theorem Source.within_refill : ∀ (s : Source) {cs : List Expr} {inner t : Stage}, s.refill cs = .stage inner →
    t.Within inner → ∃ inner₀, s = .stage inner₀ ∧
      ∃ u : Stage, u.Within inner₀ ∧ (Column.names t.columns).Sublist (Column.names u.columns)
  | .base name, cs, inner, t, h, ht => by
    rw [Source.refill] at h
    cases h
  | .stage inner₀, cs, inner, t, h, ht => by
    rw [Source.refill] at h
    cases h
    exact ⟨inner₀, rfl, Stage.within_refill inner₀ ht⟩

end

theorem Expr.Holds.withChildren (cs : List Expr) (h : e.Holds Stage.Distinct) :
    (e.withChildren cs).Holds Stage.Distinct := by
  have hrefill : ∀ s : Stage, (∀ t : Stage, t.Within s → t.Distinct) → ∀ t : Stage, t.Within (s.refill cs) →
      t.Distinct := by
    intro s hs t ht
    obtain ⟨u, hu, hsub⟩ := s.within_refill ht
    exact (hs u hu).sublist hsub
  intro s hs
  cases e with
  | subquery u type =>
    cases hs
    exact hrefill u (h u rfl)
  | scalar u type =>
    cases hs
    exact hrefill u (h u rfl)
  | select u =>
    cases hs
    exact hrefill u (h u rfl)
  | _ => cases hs

theorem nodeInvariant_distinct : NodeInvariant (Expr.Holds Stage.Distinct) where
  plain := Expr.holds_of_plain
  keeps _ cs _ h := h.withChildren cs

/-! ### Stages and the stages they read -/

/-- The columns of a stage and of every stage that it reads have distinct names. -/
def Stage.DistinctWithin (s : Stage) : Prop := ∀ t : Stage, t.Within s → t.Distinct

namespace Stage.DistinctWithin

theorem self (hs : s.DistinctWithin) : s.Distinct := hs s .self

theorem of_source (hs : s.DistinctWithin) (hsource : s'.source = s.source) (hself : s'.Distinct) :
    s'.DistinctWithin := by
  intro t ht
  cases ht with
  | self => exact hself
  | inner hinner ht => exact hs t (.inner (hsource ▸ hinner) ht)

theorem base (name : String) (element : DataType) : (Stage.base name element).DistinctWithin := by
  intro t ht
  cases ht with
  | self => exact List.nodup_nil
  | inner hinner _ => cases hinner

theorem wrapped (hs : s.DistinctWithin) : s.wrapped.DistinctWithin := by
  intro t ht
  cases ht with
  | self =>
    cases hpass : s.projected && s.grouping.isNone with
    | false =>
      rw [Stage.wrapped_of_passing hpass]
      exact List.nodup_nil
    | true =>
      rw [Bool.and_eq_true, Option.isNone_iff_eq_none] at hpass
      rw [Stage.wrapped_of_projected hpass.1 hpass.2]
      show (Column.names (s.columns.map Column.redeclared)).Nodup
      rw [names_redeclared]
      exact hs.self
  | inner hinner ht =>
    rw [s.wrapped_source] at hinner
    cases hinner
    exact hs t ht

theorem openIf (hs : s.DistinctWithin) (closed : Bool) : (s.openIf closed).DistinctWithin := by
  cases closed with
  | true => exact hs.wrapped
  | false => exact hs

/-- A column is noted only under a name that is not there yet. -/
theorem noteColumns (hs : s.DistinctWithin) (noted : List Column) : (s.noteColumns noted).DistinctWithin := by
  induction noted generalizing s with
  | nil => exact hs
  | cons c noted ih =>
    rw [Stage.noteColumns]
    split
    · next hnew =>
      have hfresh : c.name ∉ Column.names s.columns := by
        intro hmem
        obtain ⟨d, hd, hname⟩ := List.mem_map.mp hmem
        have hnone := List.find?_eq_none.mp (Option.isNone_iff_eq_none.mp hnew) d hd
        exact hnone (by simp [hname])
      exact ih (hs.of_source rfl (Column.nodup_append hs.self hfresh))
    · exact ih hs

end Stage.DistinctWithin

/-! ### Combinators -/

theorem bindFilter_distinct {predicate : Expr} (hs : s.DistinctWithin)
    (h : (bindFilter nested s predicate).outcome = .ok s') : s'.DistinctWithin := by
  obtain ⟨p, body, bound, rfl, -, hmerge⟩ := bindFilter_eq_ok h
  have hopen : s.toFilter.DistinctWithin := hs.openIf _
  rcases mergeFilter_eq_ok hmerge with ⟨_, rfl⟩ | ⟨_, _, e, he, rfl⟩ | ⟨_, _, rfl⟩
  · have hnoted := hopen.noteColumns bound.noted
    exact hnoted.of_source rfl hnoted.self
  · exact hopen.of_source rfl hopen.self
  · exact hopen.wrapped.of_source rfl hopen.wrapped.self

theorem bindSelect_distinct {selector : Expr} {declared : DataType} (hs : s.DistinctWithin)
    (h : (bindSelect nested s selector declared).outcome = .ok s') : s'.DistinctWithin := by
  obtain ⟨p, body, rfl, hmade⟩ := bindSelect_eq_ok h
  rcases hmade with ⟨-, rfl⟩ | ⟨-, columns, element, projector, composed, s₁, hproj, -, hinput, hmerge, rfl⟩
  · exact hs
  · have hopen : s.toSelect.DistinctWithin := hs.openIf _
    have hnodup := (bindProjection_eq_ok hproj).1
    rcases mergeColumns_eq_ok hmerge with ⟨-, rfl⟩ | ⟨-, rfl⟩
    · rw [← inputColumns_names hinput] at hnodup
      exact hopen.of_source rfl hnodup
    · exact hopen.wrapped.of_source rfl hnodup

theorem bindOrder_distinct {key : Expr} {direction : Direction} {after : Bool} (hs : s.DistinctWithin)
    (h : (bindOrder nested s key direction after).outcome = .ok s') : s'.DistinctWithin := by
  obtain ⟨p, body, bound, rfl, -, -, rfl⟩ := bindOrder_eq_ok h
  have hopen : s.toOrder.DistinctWithin := hs.openIf _
  have hkept : (if s.toOrder.projected then s.toOrder else s.toOrder.noteColumns bound.noted).DistinctWithin := by
    split
    · exact hopen
    · exact hopen.noteColumns bound.noted
  exact hkept.of_source rfl hkept.self

theorem bindGroup_distinct {selector : Expr} {declared : DataType} (hs : s.DistinctWithin)
    (h : (bindGroup nested s selector declared).outcome = .ok s') : s'.DistinctWithin := by
  obtain ⟨p, body, keys, rfl, -, rfl⟩ := bindGroup_eq_ok h
  have hopen : s.toGroup.DistinctWithin := hs.openIf _
  exact hopen.of_source rfl hopen.self

theorem aggregateStage_distinct (hs : s.DistinctWithin) (function : String) (bag : Expr) (result : DataType) :
    (aggregateStage s function bag result).DistinctWithin := by
  have hopen : s.toGroup.DistinctWithin := hs.openIf _
  have hgroup : ({ s.toGroup with grouping := some .all } : Stage).DistinctWithin := hopen.of_source rfl hopen.self
  exact hgroup.wrapped.of_source rfl (List.nodup_singleton "value")

theorem bindAggregate_distinct {method function : String} {arg : Option Expr} {declared : DataType}
    (hs : s.DistinctWithin) (h : (bindAggregate nested s method function arg declared).outcome = .ok s') :
    s'.DistinctWithin := by
  obtain ⟨s₁, bag, hinput, rfl⟩ := bindAggregate_eq_ok h
  refine aggregateStage_distinct ?_ _ _ _
  rcases aggregateInput_eq_ok hinput with ⟨-, -, hsel⟩ | ⟨-, -, hsel⟩
  · rcases hsel with ⟨-, rfl⟩ | ⟨x, rfl, hx⟩
    · exact hs
    · exact bindFilter_distinct hs hx
  · rcases hsel with ⟨-, rfl⟩ | ⟨x, rfl, hx⟩
    · exact hs
    · exact bindSelect_distinct hs hx

/-! ### Chains -/

theorem stageInvariant_distinct : StageInvariant nested Stage.DistinctWithin where
  base := .base
  step hs _ h := by
    cases h with
    | filter h => exact bindFilter_distinct hs h
    | select h => exact bindSelect_distinct hs h
    | group declared _ h => exact bindGroup_distinct hs h
    | take _ => exact hs.of_source rfl hs.self
    | first => exact hs.of_source rfl hs.self
    | firstWhere h =>
      have hfilter := bindFilter_distinct hs h
      exact hfilter.of_source rfl hfilter.self
    | order _ h => exact bindOrder_distinct hs h
    | aggregate _ h => exact bindAggregate_distinct hs h

theorem bindNested_distinct (fuel : Nat) {chain : Expr} {b : Bound} (hc : chain.Stageless)
    (h : (bindNested fuel chain).outcome = .ok b) : b.stage.Wholly Stage.Distinct := by
  have hheld : ∀ (t : Stage) (type : DataType), t.DistinctWithin →
      (Expr.subquery t type).Holds Stage.Distinct ∧ (t.width = 1 → (Expr.scalar t type).Holds Stage.Distinct) := by
    intro t type ht
    have hstage : ∀ u, some t = some u → ∀ v : Stage, v.Within u → v.Distinct := fun u hu => Option.some.inj hu ▸ ht
    exact ⟨hstage, fun _ => hstage⟩
  obtain ⟨hwithin, hconsists⟩ :=
    bindNested_consists nodeInvariant_distinct (fun _ => stageInvariant_distinct) hheld fuel hc h
  exact Stage.wholly_iff.mpr fun t => inGraph_of_exprs hwithin hconsists.exprs

/-- A chain without stages in it is bound to a stage of which the whole graph has distinct column names: the stage
itself, the stages it reads, and the stages of the scalars and subqueries in their expressions, at any depth. -/
theorem bound_columns_have_distinct_names {chain : Expr} {b : Bound}
    (hc : ∀ y, Expr.Occurs y chain → y.holdsStage = false) (h : chain.bound.outcome = .ok b) :
    ∀ t : Stage, t.InGraph b.stage → (Column.names t.columns).Nodup :=
  Stage.wholly_iff.mp (bindNested_distinct nestingLimit hc h)

/-- Everyone's name and age beside the number of all people, if there is more than one: the count is a stage inside a
column, and the filter on it is a new stage over that column. -/
def countedPeople : Expr :=
  .call none "Where"
    [.call none "Select"
      [.source "people" personType,
        .lambda [⟨"p", personType⟩] (.recordWith .unknown
          [("Name", person.get "Name"), ("Age", person.get "Age"),
            ("People", .call none "Count" [.source "people" personType] .int64)])]
      (.query .unknown),
      .lambda [⟨"r", .unknown⟩] (.binary .greaterThan (.member (some (.parameter "r" .unknown)) "People" .int64)
        (.constant (.int 1) .int64) .bool)]
    (.query .unknown)

theorem stageless_countedPeople : countedPeople.Stageless := by
  repeat' first
    | exact List.forall_mem_nil _
    | refine List.forall_mem_cons.mpr ⟨?_, ?_⟩
    | refine Expr.throughout_iff.mpr ⟨rfl, ?_⟩

theorem bound_columns_have_distinct_names_countedPeople :
    (∀ y, Expr.Occurs y countedPeople → y.holdsStage = false) ∧ ∃ b, countedPeople.bound.outcome = .ok b ∧
      ∀ t : Stage, t.InGraph b.stage → (Column.names t.columns).Nodup := by
  obtain ⟨b, hb⟩ := except_isOk (show countedPeople.bound.outcome.isOk = true by decide +kernel)
  exact ⟨stageless_countedPeople, b, hb, bound_columns_have_distinct_names stageless_countedPeople hb⟩

end PigChain
