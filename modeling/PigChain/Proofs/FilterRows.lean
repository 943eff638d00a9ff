import PigChain.Proofs.Wrapping

/-!
# Filtering the rows of a stage

The binder puts a predicate before the columns and the ordering of a stage, or starts a new stage for it. Both keep
exactly the output rows on which the predicate holds. Before the columns the predicate is read over input rows, with
each column replaced by its definition; before the ordering it drops rows that sorting would only have moved.
-/

namespace PigChain

variable {L : Value → Prop} {nested : Expr → BindM Stage} {s s' : Stage} {E : Engine} {db : Content}

theorem kept_addFilter (s : Stage) (predicate : Expr) :
    (s.addFilter predicate).kept E db = (s.kept E db).filter fun r => (predicate.eval E db r).isTrue := by
  have hfilter : (s.addFilter predicate).kept E db =
      Stage.filterRows E db (s.addFilter predicate).filter (s.source.rows E db) := rfl
  rw [hfilter, Stage.kept, Stage.addFilter]
  cases s.filter with
  | none => rw [Stage.filterRows, Stage.filterRows]
  | some existing =>
    have hand : ∀ r, ((Expr.combine .and existing predicate).eval E db r).isTrue =
        ((predicate.eval E db r).isTrue && (existing.eval E db r).isTrue) := by
      intro r
      rw [Expr.combine, Expr.eval, Engine.binary, Datum.isTrue_and, Bool.and_comm]
    rw [Stage.filterRows, Stage.filterRows, List.filter_filter]
    exact List.filter_congr fun r _ => hand r

/-- A predicate over the input of a stage keeps the output rows on which `keep` holds if it holds of an input row
whenever `keep` holds of its image. -/
theorem rows_addFilter {predicate : Expr} {keep : Row → Bool} (hg : s.grouping = none) (hl : s.limit = none)
    (h : ∀ r ∈ s.kept E db, (predicate.eval E db r).isTrue = keep (s.image E db r)) :
    (s.addFilter predicate).rows E db = (s.rows E db).filter keep := by
  have himage : (s.addFilter predicate).image E db = s.image E db := rfl
  calc (s.addFilter predicate).rows E db
      = sortRows E db s.orderBy (((s.kept E db).filter fun r => (predicate.eval E db r).isTrue).map
          (s.image E db)) := by
        rw [Stage.rows_eq_sort E db (show (s.addFilter predicate).grouping = none from hg)
          (show (s.addFilter predicate).limit = none from hl), kept_addFilter, himage]
        rfl
    _ = sortRows E db s.orderBy (((s.kept E db).map (s.image E db)).filter keep) := by
        rw [List.filter_map]
        congr 2
        exact List.filter_congr h
    _ = (s.rows E db).filter keep := by
        rw [sortRows_filter, Stage.rows_eq_sort E db hg hl]

theorem rows_noteColumns (hp : s.projected = false) (noted : List Column) :
    (s.noteColumns noted).rows E db = s.rows E db := by
  obtain ⟨added, -, heq⟩ := s.noteColumns_eq noted
  have himage : ({ s with columns := s.columns ++ added } : Stage).image E db = s.image E db := by
    funext r
    rw [Stage.image_of_not_projected hp, Stage.image_of_not_projected (s := { s with columns := _ }) hp]
  rw [heq, Stage.rows_eq, Stage.rows_eq, himage]
  rfl

/-- The three ways a bound predicate goes into a stage without limit and grouping. Where it goes before columns, it must
be read over input rows as over the rows that the columns make of them. -/
theorem rows_mergeFilter_of_eval {bound : BoundBody} (hn : s.projected = true → (Column.names s.columns).Nodup)
    (hg : s.grouping = none) (hl : s.limit = none)
    (heval : s.projected = true → ∀ e r, bound.expr.composed s.columns = .ok e →
      e.eval E db r = bound.expr.eval E db (Column.image E db s.columns r))
    (h : (s.mergeFilter bound).outcome = .ok s') :
    s'.rows E db = (s.rows E db).filter fun r => (bound.expr.eval E db r).isTrue := by
  rcases mergeFilter_eq_ok h with ⟨hp, rfl⟩ | ⟨hp, -, e, he, rfl⟩ | ⟨-, -, rfl⟩
  · obtain ⟨added, -, heq⟩ := s.noteColumns_eq bound.noted
    have hp' : (s.noteColumns bound.noted).projected = false := by rw [heq]; exact hp
    have hg' : (s.noteColumns bound.noted).grouping = none := by rw [heq]; exact hg
    have hl' : (s.noteColumns bound.noted).limit = none := by rw [heq]; exact hl
    rw [← rows_noteColumns hp bound.noted]
    refine rows_addFilter hg' hl' fun r _ => ?_
    rw [Stage.image_of_not_projected hp']
  · refine rows_addFilter hg hl fun r _ => ?_
    rw [heval hp e r he, Stage.image, if_pos hp]
  · have hadd : ({ s.wrapped with filter := some bound.expr } : Stage) = s.wrapped.addFilter bound.expr := by
      rw [Stage.addFilter, s.wrapped_filter]
    rw [hadd, ← rows_wrapped hn]
    refine rows_addFilter s.wrapped_grouping s.wrapped_limit fun r hr => ?_
    rw [kept_wrapped] at hr
    rw [image_wrapped hn hr]

theorem rows_mergeFilter {bound : BoundBody} (hs : s.Regular L) (hg : s.grouping = none) (hl : s.limit = none)
    (hplain : PlainExpr L s.element.isGrouping bound.expr) (h : (s.mergeFilter bound).outcome = .ok s') :
    s'.rows E db = (s.rows E db).filter fun r => (bound.expr.eval E db r).isTrue := by
  refine rows_mergeFilter_of_eval hs.nodup hg hl (fun hp e r he => ?_) h
  rw [Stage.isGrouping_eq_false hs hp hg] at hplain
  exact hplain.eval_composed he

theorem rows_bindFilter {predicate : Expr} (hs : s.Regular L) (hp : FlatLambda L predicate)
    (h : (bindFilter nested s predicate).outcome = .ok s') :
    ∃ p body bound, predicate = .lambda [p] body ∧ (bindBody nested s p.name body).outcome = .ok bound ∧
      ∀ E db, s'.rows E db = (s.rows E db).filter fun r => (bound.expr.eval E db r).isTrue := by
  obtain ⟨p, body, opened, rfl, hopened, hmerge⟩ := bindFilter_eq_ok h
  have hopen : s.toFilter.Regular L := hs.openIf _
  have hbody := hp p body rfl
  obtain ⟨bound, hbound, hexpr⟩ := exists_bound_of_map_eq (bindBody_openIf hs hbody) hopened
  refine ⟨p, body, bound, rfl, hbound, fun E db => ?_⟩
  rw [hexpr, ← rows_openIf hs (s.limit.isSome || s.grouping.isSome)]
  exact rows_mergeFilter hopen s.toFilter_grouping s.toFilter_limit (bindBody_plain hopen hbody hopened) hmerge

/-- A filter on a stage of a flat chain keeps exactly the rows, in their order, on which the predicate holds when it
is bound to the rows that the stage outputs. -/
theorem filter_keeps_matching_rows {chain predicate : Expr} {b : Bound} (hc : FlatChain anyValue chain)
    (hb : chain.bound.outcome = .ok b) (hp : FlatLambda anyValue predicate)
    (h : (bindFilter nested b.stage predicate).outcome = .ok s') :
    ∃ p body bound, predicate = .lambda [p] body ∧
      (bindBody nested b.stage p.name body).outcome = .ok bound ∧
      ∀ E db, s'.rows E db = (b.stage.rows E db).filter fun r => (bound.expr.eval E db r).isTrue :=
  rows_bindFilter (regular_bound hc hb) hp h

/-! ### A filter through a projection and an ordering -/

def personType : DataType := .record "Person" [⟨"Name", .string, false⟩, ⟨"Age", .int64, false⟩]

/-- The row of a lambda over people. -/
def person : Expr := .parameter "p" personType

/-- People in the order of their names, each with a new name for the age. -/
def renamedPeople : Expr :=
  .call none "Select"
    [.call none "OrderBy" [.source "people" personType, .lambda [⟨"p", personType⟩] (person.get "Name")]
      (.query personType),
      .lambda [⟨"p", personType⟩]
        (.recordWith .unknown [("Name", person.get "Name"), ("Years", person.get "Age")])]
    (.query .unknown)

theorem flatChain_renamedPeople : FlatChain anyValue renamedPeople := by
  refine .step (.step (.source (by decide)) (.orderBy ?_)) (.select ?_ rfl)
  · rintro _ _ ⟨⟩
    exact .field
  · rintro _ _ ⟨⟩
    refine .recordWith fun m hm => ?_
    simp only [List.mem_cons, List.not_mem_nil, or_false] at hm
    rcases hm with rfl | rfl
    · exact .field
    · exact .field

/-- The predicate reads the age under its new name and goes before the projection and the ordering. -/
def olderThanThirty : Expr :=
  .lambda [⟨"p", .unknown⟩]
    (.binary .greaterThan (.member (some (.parameter "p" .unknown)) "Years" .int64) (.constant (.int 30) .int64)
      .bool)

theorem filter_keeps_matching_rows_renamedPeople :
    ∃ b s', FlatChain anyValue renamedPeople ∧ renamedPeople.bound.outcome = .ok b ∧
      FlatLambda anyValue olderThanThirty ∧
      (bindFilter (fun _ => throw (.argument .endlessNesting)) b.stage olderThanThirty).outcome = .ok s' ∧
      ∃ p body bound, olderThanThirty = .lambda [p] body ∧
        (bindBody (fun _ => throw (.argument .endlessNesting)) b.stage p.name body).outcome = .ok bound ∧
        ∀ E db, s'.rows E db = (b.stage.rows E db).filter fun r => (bound.expr.eval E db r).isTrue := by
  have hflat : FlatLambda anyValue olderThanThirty := by
    rintro _ _ ⟨⟩
    exact .binary .field (.constant trivial rfl) rfl
  have hok : (renamedPeople.bound.outcome.bind fun b =>
      (bindFilter (fun _ => throw (.argument .endlessNesting)) b.stage olderThanThirty).outcome).isOk = true := by
    decide +kernel
  obtain ⟨s', hs'⟩ := except_isOk hok
  obtain ⟨b, hb, h⟩ := except_bind_eq_ok.mp hs'
  exact ⟨b, s', flatChain_renamedPeople, hb, hflat, h,
    filter_keeps_matching_rows flatChain_renamedPeople hb hflat h⟩

end PigChain
