import PigChain.Proofs.BareRows
import PigChain.Proofs.ProjectionRows
import PigChain.Proofs.OrderedRows
import PigChain.Proofs.GroupedRows
import PigChain.Proofs.Scoping

/-!
# Aggregates over the rows of a stage

An aggregate over a chain puts all rows into one group and computes a function of its bag. The rows are filtered first
if they are counted, and projected to the selected column otherwise; the column is named before the stage is wrapped for
grouping, and a wrapped stage declares it again under the same name. A function of the multiset of a column does not see
the order of the rows. So where no limit cuts them, a projection need only have the right rows in any order.
-/

namespace PigChain

variable {L : Value → Prop} {nested : Expr → BindM Stage} {s s' : Stage} {E : Engine} {db : Content}

/-- The count of a bag is its size, and no function of a bag depends on its order. -/
structure Engine.Aggregates (E : Engine) : Prop where
  count : ∀ xs, E.aggregate "COUNT" xs = .int xs.length
  perm : ∀ {function : String} {xs ys : List Datum}, xs.Perm ys → E.aggregate function xs = E.aggregate function ys

/-! ### One group of all rows -/

theorem Stage.toGroup_limit (s : Stage) : s.toGroup.limit = none := by
  unfold Stage.toGroup Stage.openIf
  split
  · exact s.wrapped_limit
  · next h =>
    simp only [Stage.closedToGrouping, Bool.or_eq_true, not_or, Bool.not_eq_true, Option.isSome_eq_false_iff,
      Option.isNone_iff_eq_none] at h
    exact h.1.2

theorem rows_aggregateStage (hn : s.projected = true → (Column.names s.columns).Nodup) (function name : String)
    (t result : DataType) :
    (aggregateStage s function (.bagField name t) result).rows E db =
      (groupAll (s.rows E db)).map fun g => ⟨[("value", E.aggregate function (g.bagColumn name))], []⟩ := by
  have hopen : s.toGroup.rows E db = s.rows E db := by
    unfold Stage.toGroup Stage.openIf
    split
    · exact rows_wrapped hn
    · rfl
  have hgrouped : ({ s.toGroup with grouping := some .all } : Stage).rows E db = groupAll (s.toGroup.rows E db) := by
    rw [Stage.rows_eq, Stage.rows_eq_sort E db s.toGroup_grouping s.toGroup_limit]
    show limitRows s.toGroup.limit (sortRows E db s.toGroup.orderBy (groupAll _)) = _
    rw [s.toGroup_limit, toGroup_orderBy, sortRows_nil, sortRows_nil]
    rfl
  refine (rows_withColumns ({ s.toGroup with grouping := some .all } : Stage).wrapped _ result
    (.value "value" result)).trans ?_
  rw [Stage.wrapped_limit, Stage.wrapped_orderBy, Stage.wrapped_grouping, Stage.groupRows, sortRows_nil, kept_wrapped,
    hgrouped, hopen]
  rfl

theorem rows_aggregateStage_of_ne_nil (hn : s.projected = true → (Column.names s.columns).Nodup)
    (function name : String) (t result : DataType) (hne : s.rows E db ≠ []) :
    (aggregateStage s function (.bagField name t) result).rows E db =
      [⟨[("value", E.aggregate function ((s.rows E db).map fun r =>
        if name = "" then .tuple (r.fields.map Prod.snd) else r.get name))], []⟩] := by
  rw [rows_aggregateStage hn, groupAll, if_neg (by simpa using hne)]
  rfl

theorem rows_aggregateStage_field (hn : s.projected = true → (Column.names s.columns).Nodup) (function : String)
    {name : String} (t result : DataType) (hname : name ≠ "") (hne : s.rows E db ≠ []) :
    (aggregateStage s function (.bagField name t) result).rows E db =
      [⟨[("value", E.aggregate function ((s.rows E db).map fun r => r.get name))], []⟩] := by
  rw [rows_aggregateStage_of_ne_nil hn function name t result hne]
  simp only [if_neg hname]

/-! ### The rows of a projection in any order -/

theorem perm_rows_of_unlimited (hg : s.grouping = none) (hl : s.limit = none) :
    (s.rows E db).Perm ((s.kept E db).map (s.image E db)) := by
  rw [Stage.rows_eq_sort E db hg hl]
  exact sortRows_perm _ _

/-- Without a limit it does not matter how rows are sorted before they are projected. -/
theorem perm_mergeColumns {columns composed : List Column} {element : DataType} {projector : Projector}
    (hg : s.grouping = none) (hl : s.limit = none)
    (himage : ∀ r, Column.image E db composed r = Column.image E db columns (s.image E db r))
    (h : (s.mergeColumns columns composed).outcome = .ok s') :
    (({ s' with projected := true, element := element, projector := projector } : Stage).rows E db).Perm
      ((s.rows E db).map (Column.image E db columns)) := by
  rcases mergeColumns_eq_ok h with ⟨-, rfl⟩ | ⟨-, rfl⟩
  · have hmap : (s.kept E db).map (Column.image E db composed) =
        ((s.kept E db).map (s.image E db)).map (Column.image E db columns) := by
      rw [List.map_map]
      exact List.map_congr_left fun r _ => himage r
    refine (List.Perm.of_eq (rows_withColumns s composed element projector)).trans ?_
    rw [hg, hl, Stage.groupRows, hmap]
    exact (sortRows_perm _ _).trans ((perm_rows_of_unlimited hg hl).symm.map _)
  · refine List.Perm.of_eq ((rows_withColumns s.wrapped columns element projector).trans ?_)
    rw [s.wrapped_limit, s.wrapped_orderBy, s.wrapped_grouping, Stage.groupRows, sortRows_nil, kept_wrapped]
    rfl

/-- The keys of bare values that survive a projection are fields that it passes on. -/
theorem rows_mergeColumns_bare {columns : List Column} {element : DataType} {projector : Projector} (hs : s.Bare)
    (hnodup : (Column.names columns).Nodup) (h : (s.mergeColumns columns columns).outcome = .ok s') :
    ({ s' with projected := true, element := element, projector := projector } : Stage).rows E db =
      (s.rows E db).map (Column.image E db columns) := by
  rcases mergeColumns_eq_ok h with ⟨hsurvive, rfl⟩ | ⟨-, rfl⟩
  · have hkey : ∀ o ∈ s.orderBy, ∀ r, o.expr.eval E db (Column.image E db columns r) = o.expr.eval E db r := by
      intro o ho r
      obtain ⟨name, sc, t, definition, c, hexpr, hdef, hc, rfl, hsame⟩ := orderingSurvives_eq_true hsurvive ho
      have hrow := hs.orderBy o ho
      rw [hs.projected, if_neg Bool.false_ne_true] at hdef
      cases hdef
      rw [hexpr] at hrow hsame ⊢
      cases sc with
      | group => cases hrow
      | row =>
        rw [Expr.eval, Expr.eval, Column.get_image r (Column.find?_of_nodup hnodup hc), Expr.eq_of_same_column hsame,
          Expr.eval]
    have himage : (s.kept E db).map (s.image E db) = s.kept E db :=
      (List.map_congr_left fun r _ => Stage.image_of_not_projected hs.projected r).trans (List.map_id _)
    refine (rows_withColumns s columns element projector).trans ?_
    rw [Stage.rows_eq, hs.grouping, himage, ← limitRows_map, Stage.groupRows, Stage.groupRows]
    congr 1
    exact sortRows_map fun a _ b _ => precedes_congr (fun o ho => hkey o ho a) (fun o ho => hkey o ho b)
  · refine (rows_withColumns s.wrapped columns element projector).trans ?_
    rw [s.wrapped_limit, s.wrapped_orderBy, s.wrapped_grouping, Stage.groupRows, sortRows_nil, kept_wrapped]
    rfl

/-- What a projection makes of a stage, with the order of its rows left open. -/
structure Projected (s' : Stage) (s : Stage) (columns : List Column) : Prop where
  projected : s'.projected = true
  grouping : s'.grouping = none
  nodup : (Column.names s'.columns).Nodup
  names : Column.names s'.columns = Column.names columns
  rows : ∀ E db, (s'.rows E db).Perm ((s.rows E db).map (Column.image E db columns))

theorem Stage.toSelect_limit {s : Stage} (h : s.toSelect.limit ≠ none) : s.limit ≠ none := by
  unfold Stage.toSelect Stage.openIf at h
  split at h
  · exact absurd s.wrapped_limit h
  · exact h

theorem perm_select_regular {row : String} {body : Expr} {columns composed : List Column} {element : DataType}
    {projector : Projector} (hs : s.Regular L) (hL : s.limit ≠ none → Separated L) (hsel : FlatSelector L row body)
    (hcols : (bindProjection nested s.toSelect row body).outcome = .ok columns)
    (hinput : s.toSelect.inputColumns columns = .ok composed)
    (hmerge : (s.toSelect.mergeColumns columns composed).outcome = .ok s') :
    (({ s' with projected := true, element := element, projector := projector } : Stage).rows E db).Perm
      ((s.rows E db).map (Column.image E db columns)) := by
  have hopen : s.toSelect.Regular L := hs.openIf _
  have hg := s.toSelect_grouping
  have hplain := bindProjection_plain hopen hsel hcols
  have hrows : s.toSelect.rows E db = s.rows E db := rows_openIf hs _
  rw [← hrows]
  by_cases hl : s.toSelect.limit = none
  · exact perm_mergeColumns hg hl (image_inputColumns hopen hg hplain hinput) hmerge
  · exact .of_eq (rows_mergeColumns (hL (Stage.toSelect_limit hl)) hopen hg (bindProjection_eq_ok hcols).1 hplain
      hinput hmerge)

theorem projected_bindSelect {x : Expr} {declared : DataType} (hs : s.Steady L) (hp : FlatProjection L x)
    (hL : s.limit ≠ none → Separated L) (h : (bindSelect nested s x declared).outcome = .ok s') :
    ∃ p body, x = .lambda [p] body ∧
      (((body.isParameter p.name && !s.isValue) = true ∧ s' = s) ∨
        ((body.isParameter p.name && !s.isValue) = false ∧
          ∃ columns, (bindProjection nested s p.name body).outcome = .ok columns ∧ Projected s' s columns)) := by
  obtain ⟨p, body, rfl, hid | ⟨hid, columns, element, projector, composed, s₁, hcols, -, hinput, hmerge, rfl⟩⟩ :=
    bindSelect_eq_ok h
  · exact ⟨p, body, rfl, .inl hid⟩
  refine ⟨p, body, rfl, .inr ⟨hid, columns, ?_⟩⟩
  have hnodup := (bindProjection_eq_ok hcols).1
  have hshape : s₁.grouping = none ∧ Column.names s₁.columns = Column.names columns := by
    rcases mergeColumns_eq_ok hmerge with ⟨-, rfl⟩ | ⟨-, rfl⟩
    · exact ⟨s.toSelect_grouping, inputColumns_names hinput⟩
    · exact ⟨Stage.wrapped_grouping _, rfl⟩
  have hnodup' : (Column.names s₁.columns).Nodup := by
    rw [hshape.2]
    exact hnodup
  rcases hs with hs | hs
  · rw [hs.toSelect_eq] at hcols hinput hmerge
    rw [Stage.inputColumns, if_neg (by rw [hs.projected]; exact Bool.false_ne_true)] at hinput
    cases hinput
    exact ⟨hcols, rfl, hshape.1, hnodup', hshape.2, fun E db => .of_eq (rows_mergeColumns_bare hs hnodup hmerge)⟩
  · have hsel := hp p body rfl
    exact ⟨bindProjection_openIf hs hsel hcols, rfl, hshape.1, hnodup', hshape.2,
      fun E db => perm_select_regular hs hL hsel hcols hinput hmerge⟩

/-! ### What is aggregated -/

/-- An aggregate that leaves the rows as they are: it has no selector, or one that is the row itself. -/
def Stage.KeepsRows (s : Stage) (arg : Option Expr) : Prop :=
  arg = none ∨ ∃ p body, arg = some (.lambda [p] body) ∧ (body.isParameter p.name && !s.isValue) = true

/-- The column whose values over the rows of a stage are aggregated: that of the selector, bound to the rows, or the only
one that the rows have. -/
inductive AggregatedColumn (nested : Expr → BindM Stage) (s : Stage) : Option Expr → Column → Prop where
  | selected {p : Parameter} {body : Expr} {c : Column} (hid : (body.isParameter p.name && !s.isValue) = false)
    (h : (bindProjection nested s p.name body).outcome = .ok [c]) :
    AggregatedColumn nested s (some (.lambda [p] body)) c
  | only {arg : Option Expr} {c : Column} (harg : s.KeepsRows arg) (hp : s.projected = true) (hg : s.grouping = none)
    (hc : s.columns = [c]) : AggregatedColumn nested s arg c.redeclared
  | value {arg : Option Expr} (harg : s.KeepsRows arg) (hs : s.isPrimitive = true) :
    AggregatedColumn nested s arg ⟨positional, .field positional s.element⟩

/-- The rows that are counted: all, or those on which the predicate, bound to the rows, holds. -/
inductive CountedRows (nested : Expr → BindM Stage) (s : Stage) :
    Option Expr → (Engine → Content → Row → Bool) → Prop where
  | all : CountedRows nested s none fun _ _ _ => true
  | matching {p : Parameter} {body : Expr} {bound : BoundBody}
    (h : (bindBody nested s p.name body).outcome = .ok bound) :
    CountedRows nested s (some (.lambda [p] body)) fun E db r => (bound.expr.eval E db r).isTrue

theorem aggregatedField_eq_ok {method : String} {bag : Expr} (h : aggregatedField s method = .ok bag) :
    (s.projected = true ∧ s.grouping = none ∧ ∃ c, s.columns = [c] ∧ bag = .bagField c.name c.expr.type) ∨
      (s.isPrimitive = true ∧ bag = .bagField positional s.element) := by
  unfold aggregatedField at h
  split at h
  · next hp =>
    rw [Bool.and_eq_true, Option.isNone_iff_eq_none] at hp
    split at h
    · next c hc => exact .inl ⟨hp.1, hp.2, c, hc, (Except.ok.inj h).symm⟩
    · cases h
  · split at h
    · next hs => exact .inr ⟨hs, (Except.ok.inj h).symm⟩
    · cases h

theorem Stage.Steady.nodup (hs : s.Steady L) (hp : s.projected = true) : (Column.names s.columns).Nodup := by
  rcases hs with hs | hs
  · exact absurd (hs.projected.symm.trans hp) Bool.false_ne_true
  · exact hs.nodup hp

theorem columns_of_names {columns : List Column} {c : Column} (h : Column.names [c] = Column.names columns) :
    ∃ d, columns = [d] ∧ d.name = c.name := by
  cases columns with
  | nil => cases h
  | cons d columns =>
    cases columns with
    | nil => exact ⟨d, rfl, (List.head_eq_of_cons_eq h).symm⟩
    | cons d' columns => simp [Column.names] at h

theorem Projected.aggregatedField {columns : List Column} {method : String} {bag : Expr} (h : Projected s' s columns)
    (hbag : aggregatedField s' method = .ok bag) : ∃ c t, columns = [c] ∧ bag = .bagField c.name t := by
  rcases aggregatedField_eq_ok hbag with ⟨-, -, c, hc, rfl⟩ | ⟨hprim, -⟩
  · obtain ⟨d, rfl, hd⟩ := columns_of_names (hc ▸ h.names)
    exact ⟨d, _, rfl, by rw [hd]⟩
  · rw [Stage.isPrimitive, h.projected] at hprim
    cases hprim

/-- The field of the only column of a projection holds, in some order, what the column evaluates to. -/
theorem Projected.perm_get {c : Column} (h : Projected s' s [c]) (E : Engine) (db : Content) :
    ((s'.rows E db).map fun r => r.get c.name).Perm ((s.rows E db).map (c.expr.eval E db)) := by
  have hget : ((s.rows E db).map (Column.image E db [c])).map (fun r => r.get c.name) =
      (s.rows E db).map (c.expr.eval E db) := by
    rw [List.map_map]
    refine List.map_congr_left fun r _ => Column.get_image r ?_
    simp [Column.find?]
  rw [← hget]
  exact (h.rows E db).map _

theorem Projected.rows_ne_nil {columns : List Column} (h : Projected s' s columns) (hne : s.rows E db ≠ []) :
    s'.rows E db ≠ [] := by
  intro hnil
  have hperm := h.rows E db
  rw [hnil] at hperm
  exact hne (List.map_eq_nil_iff.mp hperm.nil_eq.symm)

/-- The one row of an aggregate of a column over rows. -/
def Row.aggregate (E : Engine) (db : Content) (function : String) (c : Column) (rows : List Row) : Row :=
  ⟨[("value", E.aggregate function (rows.map (c.expr.eval E db)))], []⟩

theorem rows_aggregateStage_projected {c : Column} (h : Projected s' s [c]) (function : String) (t result : DataType)
    (hname : c.name ≠ "") (hE : E.Aggregates) (hne : s.rows E db ≠ []) :
    (aggregateStage s' function (.bagField c.name t) result).rows E db =
      [.aggregate E db function c (s.rows E db)] := by
  rw [rows_aggregateStage_field (fun _ => h.nodup) function t result hname (h.rows_ne_nil hne),
    hE.perm (h.perm_get E db)]
  rfl

theorem rows_bindAggregate {method function : String} {arg : Option Expr} {declared : DataType} (hs : s.Steady L)
    (hm : method ≠ "Count") (hp : ∀ x, arg = some x → FlatProjection L x) (hL : s.limit ≠ none → Separated L)
    (h : (bindAggregate nested s method function arg declared).outcome = .ok s') :
    ∃ c, AggregatedColumn nested s arg c ∧ (c.name ≠ "" → ∀ E db, E.Aggregates → s.rows E db ≠ [] →
      s'.rows E db = [.aggregate E db function c (s.rows E db)]) := by
  obtain ⟨s₁, bag, hinput, rfl⟩ := bindAggregate_eq_ok h
  rcases aggregateInput_eq_ok hinput with ⟨hcount, -⟩ | ⟨-, hbag, hsel⟩
  · exact absurd hcount hm
  -- Either the rows are those of the stage, or they were projected to the selected column.
  have hcases : (s.KeepsRows arg ∧ s₁ = s) ∨ ∃ p body columns, arg = some (.lambda [p] body) ∧
      (body.isParameter p.name && !s.isValue) = false ∧ (bindProjection nested s p.name body).outcome = .ok columns ∧
      Projected s₁ s columns := by
    rcases hsel with ⟨harg, rfl⟩ | ⟨x, rfl, hx⟩
    · exact .inl ⟨.inl harg, rfl⟩
    · obtain ⟨p, body, rfl, ⟨hid, rfl⟩ | ⟨hid, columns, hcols, hproj⟩⟩ := projected_bindSelect hs (hp x rfl) hL hx
      · exact .inl ⟨.inr ⟨p, body, rfl, hid⟩, rfl⟩
      · exact .inr ⟨p, body, columns, rfl, hid, hcols, hproj⟩
  rcases hcases with ⟨hkeeps, rfl⟩ | ⟨p, body, columns, rfl, hid, hcols, hproj⟩
  · rcases aggregatedField_eq_ok hbag with ⟨hprojected, hgrouping, c, hc, rfl⟩ | ⟨hprim, rfl⟩
    · exact ⟨_, .only hkeeps hprojected hgrouping hc, fun hname E db _ hne =>
        rows_aggregateStage_field hs.nodup _ _ _ hname hne⟩
    · exact ⟨_, .value hkeeps hprim, fun hname E db _ hne => rows_aggregateStage_field hs.nodup _ _ _ hname hne⟩
  · obtain ⟨c, t, rfl, rfl⟩ := hproj.aggregatedField hbag
    exact ⟨c, .selected hid hcols, fun hname E db hE hne =>
      rows_aggregateStage_projected hproj _ _ _ hname hE hne⟩

/-- The one row of a count. -/
def Row.count (rows : List Row) : Row := ⟨[("value", .int rows.length)], []⟩

theorem rows_countStage (hn : s.projected = true → (Column.names s.columns).Nodup) (t result : DataType)
    (hE : E.Aggregates) (hne : s.rows E db ≠ []) :
    (aggregateStage s "COUNT" (.bagField "" t) result).rows E db = [.count (s.rows E db)] := by
  rw [rows_aggregateStage_of_ne_nil hn "COUNT" "" t result hne, hE.count, List.length_map]
  rfl

theorem steady_filtered {x : Expr} (hs : s.Steady L) (hp : FlatLambda L x)
    (hb : s.isPrimitive = true → BareArgument L (some x)) (h : (bindFilter nested s x).outcome = .ok s') :
    s'.Steady L ∧ ∃ p body bound, x = .lambda [p] body ∧ (bindBody nested s p.name body).outcome = .ok bound ∧
      ∀ E db, s'.rows E db = (s.rows E db).filter fun r => (bound.expr.eval E db r).isTrue := by
  rcases hs with hs | hs
  · exact ⟨.inl (bare_bindFilter hs h), rows_bindFilter_bare hs hp (hb hs.primitive) h⟩
  · exact ⟨.inr (regular_bindFilter hs hp h), rows_bindFilter hs hp h⟩

theorem rows_bindCount {arg : Option Expr} {declared : DataType} (hs : s.Steady L)
    (hp : ∀ x, arg = some x → FlatLambda L x) (hb : s.isPrimitive = true → BareArgument L arg)
    (h : (bindAggregate nested s "Count" "COUNT" arg declared).outcome = .ok s') :
    ∃ keep, CountedRows nested s arg keep ∧ ∀ E db, E.Aggregates → (s.rows E db).filter (keep E db) ≠ [] →
      s'.rows E db = [.count ((s.rows E db).filter (keep E db))] := by
  obtain ⟨s₁, bag, hinput, rfl⟩ := bindAggregate_eq_ok h
  rcases aggregateInput_eq_ok hinput with ⟨-, rfl, hsel⟩ | ⟨hcount, -⟩
  · rcases hsel with ⟨rfl, rfl⟩ | ⟨x, rfl, hx⟩
    · refine ⟨_, .all, fun E db hE hne => ?_⟩
      rw [List.filter_true] at hne ⊢
      exact rows_countStage hs.nodup _ _ hE hne
    · obtain ⟨hs₁, p, body, bound, rfl, hbound, hrows⟩ := steady_filtered hs (hp x rfl) hb hx
      refine ⟨_, .matching hbound, fun E db hE hne => ?_⟩
      rw [← hrows] at hne ⊢
      exact rows_countStage hs₁.nodup _ _ hE hne
  · exact absurd rfl hcount

/-- An aggregate over a chain is one row, with the aggregate of the selected column over the rows of the chain, or the
number of those on which the predicate holds. If the chain has a limit, this needs that not both zeros are among the
literals, since then a projection may change which rows the limit keeps. -/
theorem aggregate_over_rows {chain : Expr} {b b' : Bound} {method function : String} {arg : Option Expr}
    {type : DataType} (hc : RowChain L chain) (hb : chain.bound.outcome = .ok b) (hstep : FlatStep L method arg type)
    (hbare : b.stage.isPrimitive = true → BareArgument L arg)
    (hzero : b.stage.limit ≠ none → (∀ x, L (.float x) → x.isCanonical = true) ∧
      ¬(L (.float (.zero false)) ∧ L (.float (.zero true))))
    (hm : aggregateFunction? method = some function)
    (h : (applyCombinator nested b method arg type).outcome = .ok b') :
    b'.cardinality = .single ∧
      if method = "Count" then
        ∃ keep, CountedRows nested b.stage arg keep ∧ ∀ E db, E.Aggregates →
          (b.stage.rows E db).filter (keep E db) ≠ [] →
          b'.stage.rows E db = [.count ((b.stage.rows E db).filter (keep E db))]
      else
        ∃ c, AggregatedColumn nested b.stage arg c ∧ (c.name ≠ "" → ∀ E db, E.Aggregates →
          b.stage.rows E db ≠ [] → b'.stage.rows E db = [.aggregate E db function c (b.stage.rows E db)]) := by
  have hs := steady_bound hc hb
  obtain ⟨s', hs', rfl⟩ := (applyCombinator_eq_ok h).aggregate_of hm
  refine ⟨rfl, ?_⟩
  split
  · next hcount =>
    subst hcount
    cases hm
    exact rows_bindCount hs (hstep.lambda rfl) hbare hs'
  · next hcount =>
    exact rows_bindAggregate hs hcount (hstep.projection (projects_of_aggregate hm hcount))
      (fun hl => separated_of_oneZero (hzero hl).1 (hzero hl).2) hs'

/-! ### The least of ordered zeros -/

/-- The only datum of a bag. -/
def soleDatum : List Datum → Datum
  | [x] => x
  | _ => .null

theorem soleDatum_perm {xs ys : List Datum} (h : xs.Perm ys) : soleDatum xs = soleDatum ys := by
  by_cases hone : ys.length = 1
  · obtain ⟨y, rfl⟩ := List.length_eq_one_iff.mp hone
    rw [h.eq_singleton]
  · have hnull : ∀ zs : List Datum, zs.length ≠ 1 → soleDatum zs = .null := by
      intro zs hz
      unfold soleDatum
      split
      · exact absurd rfl hz
      · rfl
    rw [hnull ys hone, hnull xs (by rw [h.length_eq]; exact hone)]

/-- The sums of zeros, with an aggregate for counts and for bags of one datum. -/
def soleZeros : Engine where
  negate := zeroSums.negate
  convert := zeroSums.convert
  operate := zeroSums.operate
  method := zeroSums.method
  aggregate function xs := if function = "COUNT" then .int xs.length else soleDatum xs
  le := zeroSums.le
  le_total := zeroSums.le_total
  le_trans := zeroSums.le_trans

theorem aggregates_soleZeros : soleZeros.Aggregates where
  count _ := rfl
  perm {function xs ys} h := by
    show (if function = "COUNT" then Datum.int xs.length else soleDatum xs) =
      if function = "COUNT" then Datum.int ys.length else soleDatum ys
    rw [h.length_eq, soleDatum_perm h]

/-- The first of some numbers in order. -/
def firstNumber : Expr :=
  .call none "Take"
    [.call none "OrderBy" [.source "numbers" .float64, .lambda [⟨"x", .float64⟩] (.parameter "x" .float64)]
      (.query .float64), .constant (.int 1) .int64]
    (.query .float64)

/-- The sum of a number and a zero. -/
def numberPlusZero : Expr :=
  .binary .add (.parameter "x" .float64) (.constant (.float (.zero false)) .float64) .float64

theorem bareBody_numberPlusZero (hL : L (.float (.zero false))) : BareBody L "x" numberPlusZero :=
  .binary .row (.constant hL rfl) rfl

theorem bareArgument_numberPlusZero (hL : L (.float (.zero false))) :
    BareArgument L (some (.lambda [⟨"x", .float64⟩] numberPlusZero)) := by
  rintro _ _ ⟨⟩ x hx
  rw [List.mem_singleton.mp hx]
  exact bareBody_numberPlusZero hL

theorem flatProjection_numberPlusZero (hL : L (.float (.zero false))) :
    FlatProjection L (.lambda [⟨"x", .float64⟩] numberPlusZero) := by
  rintro _ _ ⟨⟩ x hx
  rw [List.mem_singleton.mp hx]
  exact (bareBody_numberPlusZero hL).flat

theorem rowChain_firstNumber : RowChain L firstNumber := by
  refine .step (.step (.values rfl) (.orderBy ?_) fun _ _ _ => ?_) (.reads rfl rfl ?_) fun _ _ _ => ?_
  · rintro _ _ ⟨⟩
    exact .row
  · rintro _ _ ⟨⟩ x hx
    rw [List.mem_singleton.mp hx]
    exact .row
  · rintro _ _ ⟨⟩
  · rintro _ _ ⟨⟩

/-- One number of each zero. -/
def zeroNumbers : Content :=
  fun _ => [⟨[(positional, .float (.zero false))], []⟩, ⟨[(positional, .float (.zero true))], []⟩]

theorem aggregate_over_rows_firstNumber :
    ∃ (L : Value → Prop) (b b' : Bound) (c : Column), RowChain L firstNumber ∧ firstNumber.bound.outcome = .ok b ∧
      FlatStep L "Min" (some (.lambda [⟨"x", .float64⟩] numberPlusZero)) .float64 ∧
      BareArgument L (some (.lambda [⟨"x", .float64⟩] numberPlusZero)) ∧ b.stage.limit ≠ none ∧
      (∀ x, L (.float x) → x.isCanonical = true) ∧ ¬(L (.float (.zero false)) ∧ L (.float (.zero true))) ∧
      (applyCombinator unnested b "Min" (some (.lambda [⟨"x", .float64⟩] numberPlusZero)) .float64).outcome = .ok b' ∧
      b'.cardinality = .single ∧
      AggregatedColumn unnested b.stage (some (.lambda [⟨"x", .float64⟩] numberPlusZero)) c ∧
      b.stage.rows soleZeros zeroNumbers ≠ [] ∧
      b'.stage.rows soleZeros zeroNumbers =
        [.aggregate soleZeros zeroNumbers "MIN" c (b.stage.rows soleZeros zeroNumbers)] := by
  have hok : (firstNumber.bound.outcome.bind fun b =>
      (applyCombinator unnested b "Min" (some (.lambda [⟨"x", .float64⟩] numberPlusZero)) .float64).outcome.bind fun _ =>
      (bindProjection unnested b.stage "x" numberPlusZero).outcome.bind fun columns =>
      if Column.names columns = ["value"] ∧ b.stage.projected = false ∧ b.stage.limit = some 1 ∧
          (b.stage.rows soleZeros zeroNumbers).isEmpty = false
      then .ok () else .error (.argument .endlessNesting)).isOk = true := by
    decide +kernel
  obtain ⟨_, h⟩ := except_isOk hok
  obtain ⟨b, hb, h⟩ := except_bind_eq_ok.mp h
  obtain ⟨b', hb', h⟩ := except_bind_eq_ok.mp h
  obtain ⟨columns, hcolumns, h⟩ := except_bind_eq_ok.mp h
  split at h
  case isFalse => cases h
  next hfacts =>
  obtain ⟨hnames, hprojected, hlimit, hrows⟩ := hfacts
  let L : Value → Prop := fun v => v = .float (.zero false)
  have hL : ∀ x, L (.float x) → x.isCanonical = true := by
    rintro _ ⟨⟩
    decide
  have hzero : ¬(L (.float (.zero false)) ∧ L (.float (.zero true))) := by
    rintro ⟨-, ⟨⟩⟩
  have hc : RowChain L firstNumber := rowChain_firstNumber
  have hbare := bareArgument_numberPlusZero (L := L) rfl
  have hstep : FlatStep L "Min" (some (.lambda [⟨"x", .float64⟩] numberPlusZero)) .float64 :=
    .aggregates (by decide) (by decide) (flatProjection_numberPlusZero rfl) rfl
  obtain ⟨hsingle, hresult⟩ :=
    aggregate_over_rows hc hb hstep (fun _ => hbare) (fun _ => ⟨hL, hzero⟩) rfl hb'
  obtain ⟨c, hcol, hvalue⟩ := hresult
  have hne : b.stage.rows soleZeros zeroNumbers ≠ [] := by
    intro hnil
    rw [hnil] at hrows
    cases hrows
  have hname : c.name ≠ "" := by
    cases hcol with
    | selected hid hsel =>
      cases hcolumns.symm.trans hsel
      rw [List.head_eq_of_cons_eq hnames]
      decide
    | only harg hp => cases hprojected.symm.trans hp
    | value => exact (by decide : positional ≠ "")
  refine ⟨L, b, b', c, hc, hb, hstep, hbare, ?_, hL, hzero, hb', hsingle, hcol, hne,
    hvalue hname soleZeros zeroNumbers aggregates_soleZeros hne⟩
  rw [hlimit]
  exact Option.some_ne_none 1

/-- The least of a selected column over a chain is not that of its values over the rows of the chain. -/
def Misses (chain selector : Expr) (E : Engine) (db : Content) : Prop :=
  ∃ b b' c, chain.bound.outcome = .ok b ∧
    (applyCombinator unnested b "Min" (some selector) .float64).outcome = .ok b' ∧
    AggregatedColumn unnested b.stage (some selector) c ∧ b.stage.rows E db ≠ [] ∧
    b'.stage.rows E db ≠ [.aggregate E db "MIN" c (b.stage.rows E db)]

theorem misses_of_isOk {chain body : Expr} {p : Parameter}
    (hok : (chain.bound.outcome.bind fun b =>
      (applyCombinator unnested b "Min" (some (.lambda [p] body)) .float64).outcome.bind fun b' =>
      (bindProjection unnested b.stage p.name body).outcome.bind fun columns =>
      if body.isParameter p.name = false ∧ columns.length = 1 ∧ (b.stage.rows E db).isEmpty = false ∧
          (b'.stage.rows E db).map (fun r => r.get "value") ≠
            columns.map fun c => E.aggregate "MIN" ((b.stage.rows E db).map (c.expr.eval E db))
      then .ok () else .error (.argument .endlessNesting)).isOk = true) : Misses chain (.lambda [p] body) E db := by
  obtain ⟨_, h⟩ := except_isOk hok
  obtain ⟨b, hb, h⟩ := except_bind_eq_ok.mp h
  obtain ⟨b', hb', h⟩ := except_bind_eq_ok.mp h
  obtain ⟨columns, hcolumns, h⟩ := except_bind_eq_ok.mp h
  split at h
  case isFalse => cases h
  next hfacts =>
  obtain ⟨hid, hlength, hrows, hvalue⟩ := hfacts
  obtain ⟨c, rfl⟩ := List.length_eq_one_iff.mp hlength
  refine ⟨b, b', c, hb, hb', .selected (by rw [hid]; rfl) hcolumns, ?_, fun heq => hvalue ?_⟩
  · intro hnil
    rw [hnil] at hrows
    cases hrows
  · rw [heq]
    rfl

/-- The first of the samples in the order of their sums with zero. -/
def firstSample : Expr :=
  .call none "Take"
    [.call none "OrderBy"
      [.call none "Select"
        [.source "samples" (.record "Sample" [⟨"A", .float64, false⟩]),
          .lambda [⟨"r", .unknown⟩] (.recordWith .unknown [("A", sampleField "A"), ("value", plusZero false)])]
        (.query .unknown),
        .lambda [⟨"r", .unknown⟩] (sampleField "value")]
      (.query .unknown), .constant (.int 1) .int64]
    (.query .unknown)

theorem flatChain_firstSample : FlatChain anyValue firstSample := by
  refine .step (.step (.step (.source (by decide)) (.select ?_ rfl)) (.orderBy ?_)) (.reads rfl rfl ?_)
  · rintro _ _ ⟨⟩
    refine .recordWith fun m hm => ?_
    simp only [List.mem_cons, List.not_mem_nil, or_false] at hm
    rcases hm with rfl | rfl
    · exact .field
    · exact .binary .field (.constant trivial rfl) rfl
  · rintro _ _ ⟨⟩
    exact .field
  · rintro _ _ ⟨⟩

/-- Samples whose only field has no name. -/
def unnamedSamples : Expr := .source "samples" (.record "Sample" [⟨"", .float64, false⟩])

/-- The sum with the other zero takes the place of the key under its name, so the limit keeps the other sample. The
least of a column without a name is that of whole rows. -/
theorem aggregate_misses_rows :
    (RowChain anyValue firstSample ∧ RowChain anyValue unnamedSamples ∧
      (∀ body, body = plusZero true ∨ body = sampleField "" →
        FlatStep anyValue "Min" (some (.lambda [⟨"r", .unknown⟩] body)) .float64) ∧ soleZeros.Aggregates) ∧
    Misses firstSample (.lambda [⟨"r", .unknown⟩] (plusZero true)) soleZeros bothZeros ∧
    Misses unnamedSamples (.lambda [⟨"r", .unknown⟩] (sampleField "")) soleZeros
      (fun _ => [⟨[("", .float (.zero false))], []⟩]) := by
  refine ⟨⟨flatChain_firstSample.rowChain, .records (by decide), fun body hbody => ?_, aggregates_soleZeros⟩,
    misses_of_isOk (by decide +kernel), misses_of_isOk (by decide +kernel)⟩
  refine .aggregates (by decide) (by decide) ?_ rfl
  rintro _ _ ⟨⟩ x hx
  rcases hbody with rfl | rfl
  · rw [List.mem_singleton.mp hx]
    exact .binary .field (.constant trivial rfl) rfl
  · rw [List.mem_singleton.mp hx]
    exact .field

end PigChain
