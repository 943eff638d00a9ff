import PigChain.Proofs.ProjectionRows
import PigChain.Proofs.FilterRows

/-!
# How many rows a stage has

A chain that ends in a first row or in an aggregate is marked as single, and no later combinator looks at the mark. It
stays right because none of them can add rows: a clause that is merged drops rows before the limit, changes them one by
one or moves them, and a new stage has the rows of the one it reads. Nothing is asked of the lambdas.
-/

namespace PigChain

variable {nested : Expr → BindM Stage} {s s' : Stage} {E : Engine} {db : Content}

/-! ### Clauses -/

theorem length_limitRows_le (limit : Option UInt64) (rows : List Row) :
    (limitRows limit rows).length ≤ rows.length := by
  cases limit with
  | none => exact Nat.le_refl _
  | some count => exact List.length_take_le' _ _

theorem length_limitRows_some (count : UInt64) (rows : List Row) :
    (limitRows (some count) rows).length = min count.toNat rows.length :=
  List.length_take

theorem length_limitRows_mono (limit : Option UInt64) {rows rows' : List Row} (h : rows.length ≤ rows'.length) :
    (limitRows limit rows).length ≤ (limitRows limit rows').length := by
  cases limit with
  | none => exact h
  | some count =>
    rw [length_limitRows_some, length_limitRows_some]
    omega

theorem length_limitRows_congr (limit : Option UInt64) {rows rows' : List Row} (h : rows.length = rows'.length) :
    (limitRows limit rows).length = (limitRows limit rows').length := by
  have hle := length_limitRows_mono limit (Nat.le_of_eq h)
  have hge := length_limitRows_mono limit (Nat.le_of_eq h.symm)
  omega

theorem length_sortRows (orderBy : List Ordering) (rows : List Row) :
    (sortRows E db orderBy rows).length = rows.length :=
  List.length_insertionSort _ _

theorem length_eraseDups_le {α : Type} [BEq α] (l : List α) : l.eraseDups.length ≤ l.length := by
  induction hn : l.length using Nat.strongRecOn generalizing l with
  | ind n ih =>
    cases l with
    | nil => simp
    | cons a l =>
      have hfilter : (l.filter fun b => !b == a).length ≤ l.length := List.length_filter_le _ _
      rw [List.length_cons] at hn
      have hrest := ih (l.filter fun b => !b == a).length (by omega) (l.filter fun b => !b == a) rfl
      rw [List.eraseDups_cons, List.length_cons]
      omega

/-- There is at most one group for each row. -/
theorem length_groupBy_le (key : Row → Datum) (rows : List Row) : (groupBy key rows).length ≤ rows.length := by
  have hkeys : (rows.map key).eraseDups.length ≤ (rows.map key).length := length_eraseDups_le _
  rw [List.length_map] at hkeys
  rw [groupBy, List.length_map]
  exact hkeys

theorem length_groupAll_le_one (rows : List Row) : (groupAll rows).length ≤ 1 := by
  unfold groupAll
  split <;> simp

/-! ### Stages -/

theorem length_rows_of_ungrouped (hg : s.grouping = none) :
    (s.rows E db).length = (limitRows s.limit (s.kept E db)).length := by
  have hlength : (sortRows E db s.orderBy ((s.kept E db).map (s.image E db))).length = (s.kept E db).length := by
    rw [length_sortRows, List.length_map]
  rw [Stage.rows_eq, hg, Stage.groupRows]
  exact length_limitRows_congr _ hlength

theorem length_rows_wrapped (s : Stage) : (s.wrapped.rows E db).length = (s.rows E db).length := by
  rw [length_rows_of_ungrouped s.wrapped_grouping, s.wrapped_limit, kept_wrapped]
  rfl

theorem length_rows_openIf (s : Stage) (closed : Bool) : ((s.openIf closed).rows E db).length = (s.rows E db).length := by
  cases closed with
  | false => rfl
  | true => exact length_rows_wrapped s

theorem length_rows_addFilter_le (hg : s.grouping = none) (hl : s.limit = none) (predicate : Expr) :
    ((s.addFilter predicate).rows E db).length ≤ (s.rows E db).length := by
  have hkept : ((s.addFilter predicate).kept E db).length ≤ (s.kept E db).length := by
    rw [kept_addFilter]
    exact List.length_filter_le _ _
  have hlimit : (s.addFilter predicate).limit = none := hl
  rw [length_rows_of_ungrouped (show (s.addFilter predicate).grouping = none from hg), length_rows_of_ungrouped hg,
    hlimit, hl]
  exact hkept

theorem length_rows_take_le (s : Stage) (count : UInt64) :
    ((s.take count).rows E db).length ≤ (s.rows E db).length ∧ ((s.take count).rows E db).length ≤ count.toNat := by
  -- The limit of the new stage is at most `count` and at most the old one; all else is the same.
  have hrows : ∀ t : Stage, ∃ rows, t.rows E db = limitRows t.limit rows ∧
      ∀ c, (t.take c).rows E db = limitRows (t.take c).limit rows := by
    intro t
    refine ⟨_, Stage.rows_eq E db t, fun c => ?_⟩
    rw [Stage.rows_eq]
    rfl
  obtain ⟨rows, hs, htake⟩ := hrows s
  rw [hs, htake]
  cases hlimit : s.limit with
  | none =>
    have hnew : (s.take count).limit = some count := by simp [Stage.take, hlimit]
    rw [hnew, length_limitRows_some, limitRows]
    omega
  | some current =>
    have hnew : (s.take count).limit = some (min current count) := by simp [Stage.take, hlimit]
    have hmin : (min current count).toNat ≤ current.toNat ∧ (min current count).toNat ≤ count.toNat := by
      rw [UInt64.min_def]
      split
      · next h => exact ⟨Nat.le_refl _, UInt64.le_iff_toNat_le.mp h⟩
      · next h =>
        have hle : count.toNat < current.toNat := by
          rw [UInt64.le_iff_toNat_le] at h
          omega
        exact ⟨Nat.le_of_lt hle, Nat.le_refl _⟩
    rw [hnew, length_limitRows_some, length_limitRows_some]
    omega

/-! ### Combinators -/

theorem length_rows_bindFilter_le {predicate : Expr} (h : (bindFilter nested s predicate).outcome = .ok s') :
    (s'.rows E db).length ≤ (s.rows E db).length := by
  obtain ⟨p, body, bound, -, -, hmerge⟩ := bindFilter_eq_ok h
  have hg := s.toFilter_grouping
  have hl := s.toFilter_limit
  have hopen : (s.toFilter.rows E db).length = (s.rows E db).length := length_rows_openIf s _
  rw [← hopen]
  rcases mergeFilter_eq_ok hmerge with ⟨hp, rfl⟩ | ⟨-, -, e, -, rfl⟩ | ⟨-, -, rfl⟩
  · obtain ⟨added, -, heq⟩ := s.toFilter.noteColumns_eq bound.noted
    have hg' : (s.toFilter.noteColumns bound.noted).grouping = none := by rw [heq]; exact hg
    have hl' : (s.toFilter.noteColumns bound.noted).limit = none := by rw [heq]; exact hl
    rw [← rows_noteColumns hp bound.noted]
    exact length_rows_addFilter_le hg' hl' bound.expr
  · exact length_rows_addFilter_le hg hl e
  · have hadd : ({ s.toFilter.wrapped with filter := some bound.expr } : Stage) =
        s.toFilter.wrapped.addFilter bound.expr := by
      rw [Stage.addFilter, Stage.wrapped_filter]
    rw [hadd, ← length_rows_wrapped s.toFilter]
    exact length_rows_addFilter_le (Stage.wrapped_grouping _) (Stage.wrapped_limit _) bound.expr

theorem length_rows_withColumns (hg : s.grouping = none) (columns : List Column) (element : DataType)
    (projector : Projector) :
    (({ s with columns := columns, projected := true, element := element, projector := projector } : Stage).rows
      E db).length = (s.rows E db).length := by
  rw [length_rows_of_ungrouped hg]
  exact length_rows_of_ungrouped
    (s := { s with columns := columns, projected := true, element := element, projector := projector }) hg

theorem length_rows_bindSelect {selector : Expr} {declared : DataType}
    (h : (bindSelect nested s selector declared).outcome = .ok s') :
    (s'.rows E db).length = (s.rows E db).length := by
  obtain ⟨p, body, -, ⟨-, rfl⟩ | ⟨-, columns, element, projector, composed, s₁, -, -, -, hmerge, rfl⟩⟩ :=
    bindSelect_eq_ok h
  · rfl
  · have hopen : (s.toSelect.rows E db).length = (s.rows E db).length := length_rows_openIf s _
    rcases mergeColumns_eq_ok hmerge with ⟨-, rfl⟩ | ⟨-, rfl⟩
    · exact (length_rows_withColumns s.toSelect_grouping composed element projector).trans hopen
    · exact ((length_rows_withColumns (Stage.wrapped_grouping _) columns element projector).trans
        (length_rows_wrapped s.toSelect)).trans hopen

theorem length_rows_withOrderBy (s : Stage) (orderBy : List Ordering) :
    (({ s with orderBy := orderBy } : Stage).rows E db).length = (s.rows E db).length := by
  rw [Stage.rows_eq, Stage.rows_eq]
  refine length_limitRows_congr _ ?_
  rw [length_sortRows, length_sortRows]
  rfl

theorem length_rows_bindOrder {key : Expr} {direction : Direction} {after : Bool}
    (h : (bindOrder nested s key direction after).outcome = .ok s') :
    (s'.rows E db).length = (s.rows E db).length := by
  obtain ⟨p, body, bound, -, -, -, rfl⟩ := bindOrder_eq_ok h
  have hopen : (s.toOrder.rows E db).length = (s.rows E db).length := length_rows_openIf s _
  rw [length_rows_withOrderBy, ← hopen]
  split
  · rfl
  · next hp => rw [rows_noteColumns (Bool.eq_false_of_not_eq_true hp)]

theorem length_rows_bindGroup_le {selector : Expr} {declared : DataType}
    (h : (bindGroup nested s selector declared).outcome = .ok s') :
    (s'.rows E db).length ≤ (s.rows E db).length := by
  obtain ⟨p, body, keys, -, -, rfl⟩ := bindGroup_eq_ok h
  have hopen : (s.toGroup.rows E db).length = (s.rows E db).length := length_rows_openIf s _
  rw [← hopen, Stage.rows_eq, Stage.rows_eq, s.toGroup_grouping]
  refine length_limitRows_mono _ ?_
  rw [length_sortRows, length_sortRows]
  exact length_groupBy_le _ _

theorem length_rows_aggregateStage_le_one (s : Stage) (function : String) (bag : Expr) (result : DataType) :
    ((aggregateStage s function bag result).rows E db).length ≤ 1 := by
  have hinner : (({ s.toGroup with grouping := some .all } : Stage).rows E db).length ≤ 1 := by
    rw [Stage.rows_eq]
    refine Nat.le_trans (length_limitRows_le _ _) ?_
    rw [length_sortRows]
    exact length_groupAll_le_one _
  have houter : ((aggregateStage s function bag result).rows E db).length =
      (({ s.toGroup with grouping := some .all } : Stage).wrapped.rows E db).length :=
    length_rows_withColumns (Stage.wrapped_grouping _) _ result (.value "value" result)
  rw [houter, length_rows_wrapped]
  exact hinner

/-! ### Chains -/

/-- A chain that is marked as single has at most one row. -/
def Bound.MarksRows (b : Bound) : Prop :=
  b.cardinality = .single → ∀ E db, (b.stage.rows E db).length ≤ 1

theorem marksRows_applies {b b' : Bound} {method : String} {arg : Option Expr} {type : DataType} (hb : b.MarksRows)
    (h : Applies nested b type method arg b') : b'.MarksRows := by
  intro hsingle E db
  cases h with
  | filter h => exact Nat.le_trans (length_rows_bindFilter_le h) (hb hsingle E db)
  | select h => exact Nat.le_trans (Nat.le_of_eq (length_rows_bindSelect h)) (hb hsingle E db)
  | group declared hd h => exact Nat.le_trans (length_rows_bindGroup_le h) (hb hsingle E db)
  | take h => exact Nat.le_trans (length_rows_take_le b.stage _).1 (hb hsingle E db)
  | first => exact (length_rows_take_le b.stage 1).2
  | @firstWhere x s' h => exact (length_rows_take_le s' 1).2
  | order hm h => exact Nat.le_trans (Nat.le_of_eq (length_rows_bindOrder h)) (hb hsingle E db)
  | aggregate hm h =>
    obtain ⟨s₁, bag, -, rfl⟩ := bindAggregate_eq_ok h
    exact length_rows_aggregateStage_le_one s₁ _ bag _

theorem marksRows_bindWith {chain : Expr} {b : Bound} (h : (bindWith nested chain).outcome = .ok b) : b.MarksRows := by
  induction chain using Expr.childInduction generalizing b with
  | h chain ih =>
    unfold bindWith at h
    split at h
    · split at h
      · cases h
        intro hsingle
        cases hsingle
      · cases h
    · cases h
      intro hsingle
      cases hsingle
    · rw [Traced.outcome_bind_eq_ok] at h
      obtain ⟨b₀, hb₀, h⟩ := h
      exact marksRows_applies (ih _ List.mem_cons_self hb₀) (applyCombinator_eq_ok h)
    · cases h
    · cases h

/-- A chain that is bound as single yields at most one row, whatever follows the combinator that made it single and
whatever the sources hold. -/
theorem single_chains_yield_at_most_one_row {chain : Expr} {b : Bound} (h : chain.bound.outcome = .ok b)
    (hsingle : b.cardinality = .single) (E : Engine) (db : Content) : (b.stage.rows E db).length ≤ 1 := by
  rw [bound_eq_bindWith] at h
  exact marksRows_bindWith h hsingle E db

/-- The first person by name, if over thirty, as the only member of a group. -/
def groupedFirst : Expr :=
  .call none "GroupBy"
    [.call none "Where" [.call none "First" [renamedPeople] .unknown, olderThanThirty] (.query .unknown),
      .lambda [⟨"p", .unknown⟩] (.member (some (.parameter "p" .unknown)) "Years" .int64)]
    (.query .unknown)

theorem single_chains_yield_at_most_one_row_groupedFirst :
    ∃ b, groupedFirst.bound.outcome = .ok b ∧ b.cardinality = .single ∧
      ∀ E db, (b.stage.rows E db).length ≤ 1 := by
  have hbound : groupedFirst.bound.outcome.map Bound.cardinality = .ok .single := by decide +kernel
  obtain ⟨b, hb, hsingle⟩ := except_map_eq_ok.mp hbound
  exact ⟨b, hb, hsingle, single_chains_yield_at_most_one_row hb hsingle⟩

end PigChain
