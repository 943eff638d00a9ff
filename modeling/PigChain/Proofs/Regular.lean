import PigChain.Proofs.Combinators
import PigChain.Proofs.RowResult
import PigChain.Proofs.Substitution

/-!
# The stages of flat chains

Every stage that a flat chain is bound to is regular: its columns have different names and are plain, its
ordering keys are columns of its output, and groups occur in its row type only if it outputs groups. Each
combinator keeps stages regular, so by induction on the chain all of them are.
-/

namespace PigChain

variable {L : Value → Prop} {nested : Expr → BindM Stage} {s s' : Stage} {row : String} {e e' : Expr}

/-- What flat chains keep true of their stages. -/
structure Stage.Regular (L : Value → Prop) (s : Stage) : Prop where
  noted : s.Noted
  element : s.element.isRowType = true
  grouped : s.grouping.isSome = true → s.element.isGrouping = true
  ungrouped : s.projected = true → s.grouping = none → s.element.groupFree = true
  nodup : s.projected = true → (Column.names s.columns).Nodup
  columns : s.projected = true → ∀ c ∈ s.columns, PlainExpr L true c.expr
  orderBy : ∀ o ∈ s.orderBy, o.expr.isRowColumn = true

/-! ### What is read of a regular stage -/

theorem Stage.Regular.typed (hs : s.Regular L) : s.Typed :=
  ⟨hs.element, hs.ungrouped, fun hp c hc => (hs.columns hp c hc).type_groupFree⟩

theorem rowColumn_plain (hs : s.Regular L) (h : rowColumn s = .ok e) (g : Bool) : PlainExpr L g e := by
  have ht := rowColumn_groupFree hs.typed h
  obtain ⟨name, type, rfl⟩ := rowColumn_isColumn h
  exact .column ht

theorem fieldColumn_plain {name : String} {declared : DataType} (hs : s.Regular L)
    (h : fieldColumn s name declared = .ok e) (g : Bool) : PlainExpr L g e := by
  -- A row that passes through is a record, so every field of it is declared.
  have hrecord : s.passesRows = true → s.element.fields? = none → declared.groupFree = true := by
    intro hpass hfields
    obtain ⟨⟨record, fields, he⟩, -⟩ := hs.noted hpass
    rw [he] at hfields
    cases hfields
  have ht := fieldColumn_groupFree hs.typed hrecord h
  obtain ⟨name, type, rfl⟩ := fieldColumn_isColumn h
  exact .column ht

theorem groupAggregate_plain {method : String} {args : List Expr} {declared : DataType} (hs : s.Regular L)
    (hd : declared.groupFree = true) (h : groupAggregate s method args declared = .ok e) :
    PlainExpr L s.element.isGrouping e := by
  have ht := groupAggregate_groupFree hs.typed hd h
  obtain ⟨function, key, element, name, type, he, -, rfl⟩ := groupAggregate_eq_ok h
  rw [he]
  exact .aggregate rfl ht

theorem rowReader_run_plain (hs : s.Regular L) (h : FlatBody L row e) (he : (rowReader s row).run e = .ok e') :
    PlainExpr L s.element.isGrouping e' := by
  induction h generalizing e' with
  | constant hv ht =>
    rw [Editor.run_of_walk _ fun _ => rfl, Editor.rewalk_constant] at he
    cases he
    exact .constant hv (DataType.groupFree_of_isFlat ht)
  | @row row t =>
    rw [Editor.run_of_replace (x := rowColumn s) _ (by intro w; simp only [rowReader, if_true])] at he
    exact rowColumn_plain hs he _
  | @field row name t type =>
    rw [Editor.run_of_replace (x := fieldColumn s name type) _
      (by intro w; simp only [rowReader, isRow_self, if_true])] at he
    exact fieldColumn_plain hs he _
  | @aggregate row method t type selectors _ ht _ =>
    rw [Editor.run_of_replace (x := groupAggregate s method (selectors.map fun q => .lambda [q.1] q.2) type) _
      (by intro w; simp only [rowReader, isRow_self, if_true])] at he
    exact groupAggregate_plain hs (DataType.groupFree_of_isFlat ht) he
  | unary _ ht ih =>
    rw [Editor.run_of_walk _ fun _ => rfl, Editor.rewalk_unary, except_do_eq_ok] at he
    obtain ⟨x', hx, h⟩ := he
    cases h
    exact .unary (ih hx) (DataType.groupFree_of_isFlat ht)
  | binary _ _ ht ihx ihy =>
    rw [Editor.run_of_walk _ fun _ => rfl, Editor.rewalk_binary] at he
    simp only [except_do_eq_ok] at he
    obtain ⟨x', hx, y', hy, h⟩ := he
    cases h
    exact .binary (ihx hx) (ihy hy) (DataType.groupFree_of_isFlat ht)
  | conditional _ _ _ ht ihc ihx ihy =>
    rw [Editor.run_of_walk _ fun _ => rfl, Editor.rewalk_conditional] at he
    simp only [except_do_eq_ok] at he
    obtain ⟨c', hc, x', hx, y', hy, h⟩ := he
    cases h
    exact .conditional (ihc hc) (ihx hx) (ihy hy) (DataType.groupFree_of_isFlat ht)
  | isNull _ ih =>
    rw [Editor.run_of_walk _ fun _ => rfl, Editor.rewalk_isNull, except_do_eq_ok] at he
    obtain ⟨x', hx, h⟩ := he
    cases h
    exact .isNull (ih hx)
  | @method row name x args t _ _ ht ihx ihargs =>
    cases hrow : isRow row (some x) with
    | true =>
      rw [Editor.run_of_replace (x := groupAggregate s name args t) _
        (by intro w; simp only [rowReader, hrow, if_true])] at he
      exact groupAggregate_plain hs (DataType.groupFree_of_isFlat ht) he
    | false =>
      rw [Editor.run_of_walk _
        (by intro w; simp only [rowReader, hrow, Bool.false_eq_true, if_false])] at he
      obtain ⟨x', args', hx, hargs, rfl⟩ := runCall_eq_ok he
      exact .method (ihx hx) (forall_mem_of_forall₂ hargs fun a a' ha hrun => ihargs a ha hrun)
        (DataType.groupFree_of_isFlat ht)

theorem readBody_plain (hs : s.Regular L) (h : FlatBody L row e) (he : readBody s row e = .ok e') :
    PlainExpr L s.element.isGrouping e' := by
  unfold readBody at he
  simp only [except_do_eq_ok] at he
  obtain ⟨x, hx, y, hy, hl⟩ := he
  rw [literalTypes_run_eq hl]
  exact (rowReader_run_plain hs h hx).nullComparisons hy

theorem bindBody_plain {bound : BoundBody} (hs : s.Regular L) (h : FlatBody L row e)
    (hb : (bindBody nested s row e).outcome = .ok bound) : PlainExpr L s.element.isGrouping bound.expr :=
  readBody_plain hs h (bindBody_flat_eq_ok hs.noted h hb).1

theorem bindProjection_plain {columns : List Column} (hs : s.Regular L) (h : FlatSelector L row e)
    (hb : (bindProjection nested s row e).outcome = .ok columns) :
    ∀ c ∈ columns, PlainExpr L s.element.isGrouping c.expr := by
  intro c hc
  obtain ⟨x, hx, bound, hbound, hexpr⟩ := exists_of_forall₂_right (bindProjection_eq_ok hb).2 hc
  rw [hexpr]
  exact bindBody_plain hs (h x hx) hbound

/-! ### What keeps a stage regular -/

theorem Stage.noted_of_projected (h : s.projected = true) : s.Noted := by
  intro hpass
  unfold Stage.passesRows at hpass
  rw [h] at hpass
  cases hpass

theorem Stage.noted_of_isGrouping (h : s.element.isGrouping = true) : s.Noted := by
  intro hpass
  unfold Stage.passesRows at hpass
  rw [h, Bool.not_true, Bool.and_false] at hpass
  cases hpass

theorem names_redeclared (columns : List Column) :
    Column.names (columns.map Column.redeclared) = Column.names columns := by
  simp [Column.names, Column.redeclared]

namespace Stage.Regular

theorem wrapped (hs : s.Regular L) : s.wrapped.Regular L := by
  cases hc : s.projected && s.grouping.isNone with
  | true =>
    rw [Bool.and_eq_true, Option.isNone_iff_eq_none] at hc
    obtain ⟨hp, hg⟩ := hc
    rw [Stage.wrapped_of_projected hp hg]
    refine ⟨Stage.noted_of_projected rfl, hs.element, (fun hn => nomatch hn), fun _ _ => hs.ungrouped hp hg,
      fun _ => ?_, fun _ c hc => ?_, fun o ho => nomatch ho⟩
    · rw [names_redeclared]
      exact hs.nodup hp
    · obtain ⟨d, hd, rfl⟩ := List.mem_map.mp hc
      exact .column (hs.columns hp d hd).type_groupFree
  | false =>
    rw [Stage.wrapped_of_passing hc]
    refine ⟨?_, hs.element, (fun hn => nomatch hn), (fun hp => nomatch hp), (fun hp => nomatch hp),
      (fun hp => nomatch hp), fun o ho => nomatch ho⟩
    cases hp : s.projected with
    | true =>
      have hg : s.grouping.isSome = true := by
        rw [hp, Bool.true_and] at hc
        cases hg : s.grouping with
        | none => rw [hg] at hc; cases hc
        | some g => rfl
      exact Stage.noted_of_isGrouping (hs.grouped hg)
    | false =>
      intro hpass
      have hpass' : s.passesRows = true := by
        unfold Stage.passesRows at hpass ⊢
        rw [hp]
        exact hpass
      exact ⟨(hs.noted hpass').1, fun _ _ _ c hc => nomatch hc⟩

theorem openIf (hs : s.Regular L) (closed : Bool) : (s.openIf closed).Regular L := by
  cases closed with
  | false => exact hs
  | true => exact hs.wrapped

theorem take (hs : s.Regular L) (count : UInt64) : (s.take count).Regular L :=
  ⟨hs.noted, hs.element, hs.grouped, hs.ungrouped, hs.nodup, hs.columns, hs.orderBy⟩

theorem addFilter (hs : s.Regular L) (predicate : Expr) : (s.addFilter predicate).Regular L :=
  ⟨hs.noted, hs.element, hs.grouped, hs.ungrouped, hs.nodup, hs.columns, hs.orderBy⟩

theorem withFilter (hs : s.Regular L) (filter : Option Expr) : ({ s with filter := filter } : Stage).Regular L :=
  ⟨hs.noted, hs.element, hs.grouped, hs.ungrouped, hs.nodup, hs.columns, hs.orderBy⟩

theorem withOrderBy (hs : s.Regular L) {orderBy : List Ordering} (h : ∀ o ∈ orderBy, o.expr.isRowColumn = true) :
    ({ s with orderBy := orderBy } : Stage).Regular L :=
  ⟨hs.noted, hs.element, hs.grouped, hs.ungrouped, hs.nodup, hs.columns, h⟩

theorem noteColumns (hs : s.Regular L) (hp : s.projected = false) {noted : List Column}
    (hn : NotedFits s.element noted) : (s.noteColumns noted).Regular L := by
  obtain ⟨added, hadded, heq⟩ := s.noteColumns_eq noted
  rw [heq]
  refine ⟨?_, hs.element, hs.grouped, fun h => absurd (hp.symm.trans h) Bool.false_ne_true,
    fun h => absurd (hp.symm.trans h) Bool.false_ne_true, fun h => absurd (hp.symm.trans h) Bool.false_ne_true,
    hs.orderBy⟩
  intro hpass
  obtain ⟨hrecord, hfit⟩ := hs.noted hpass
  refine ⟨hrecord, fun record fields he c hc => ?_⟩
  rcases List.mem_append.mp hc with hc | hc
  · exact hfit record fields he c hc
  · exact hn record fields he c (hadded c hc)

/-- A stage without grouping stays regular when it is given plain columns. -/
theorem withColumns (hs : s.Regular L) (hg : s.grouping = none) {columns : List Column} {element : DataType}
    (projector : Projector) (hnodup : (Column.names columns).Nodup)
    (hplain : ∀ c ∈ columns, PlainExpr L true c.expr) (helem : element.groupFree = true) :
    ({ s with columns := columns, projected := true, element := element, projector := projector } : Stage).Regular L :=
  ⟨Stage.noted_of_projected rfl, DataType.isRowType_of_groupFree helem,
    fun h => absurd (show s.grouping.isSome = true from h) (by rw [hg]; exact Bool.false_ne_true),
    fun _ _ => helem, fun _ => hnodup, fun _ => hplain, hs.orderBy⟩

end Stage.Regular

/-! ### Combinators -/

theorem Stage.isGrouping_eq_false (hs : s.Regular L) (hp : s.projected = true) (hg : s.grouping = none) :
    s.element.isGrouping = false :=
  DataType.isGrouping_of_groupFree (hs.ungrouped hp hg)

theorem regular_bindFilter {predicate : Expr} (hs : s.Regular L) (hp : FlatLambda L predicate)
    (h : (bindFilter nested s predicate).outcome = .ok s') : s'.Regular L := by
  obtain ⟨p, body, bound, rfl, hbound, hmerge⟩ := bindFilter_eq_ok h
  have hopen : s.toFilter.Regular L := hs.openIf _
  rcases mergeFilter_eq_ok hmerge with ⟨hproj, rfl⟩ | ⟨_, _, e, _, rfl⟩ | ⟨_, _, rfl⟩
  · have hnoted := (bindBody_flat_eq_ok hopen.noted (hp p body rfl) hbound).2
    exact (hopen.noteColumns hproj hnoted).addFilter bound.expr
  · exact hopen.addFilter e
  · exact hopen.wrapped.withFilter _

theorem composeColumns_names {inner outer composed : List Column} (h : composeColumns inner outer = .ok composed) :
    Column.names composed = Column.names outer := by
  have hforall := composeColumns_eq_ok h
  clear h
  induction hforall with
  | nil => rfl
  | cons hcd _ ih => exact congrArg₂ List.cons hcd.1 ih

theorem composeColumns_plain {g : Bool} {inner outer composed : List Column}
    (hinner : ∀ c ∈ inner, PlainExpr L g c.expr) (houter : ∀ c ∈ outer, PlainExpr L false c.expr)
    (h : composeColumns inner outer = .ok composed) : ∀ c ∈ composed, PlainExpr L g c.expr := by
  intro d hd
  obtain ⟨c, hc, -, hcomposed⟩ := exists_of_forall₂_right (composeColumns_eq_ok h) hd
  exact (houter c hc).composed hinner hcomposed

/-- The columns that go into a regular stage are plain and have the names of those that were bound. -/
theorem inputColumns_eq_ok {columns composed : List Column} (hs : s.Regular L) (hg : s.grouping = none)
    (hplain : ∀ c ∈ columns, PlainExpr L s.element.isGrouping c.expr)
    (h : s.inputColumns columns = .ok composed) :
    Column.names composed = Column.names columns ∧ ∀ c ∈ composed, PlainExpr L true c.expr := by
  unfold Stage.inputColumns at h
  split at h
  · next hp =>
    rw [Stage.isGrouping_eq_false hs hp hg] at hplain
    exact ⟨composeColumns_names h, composeColumns_plain (hs.columns hp) hplain h⟩
  · cases h
    exact ⟨rfl, fun c hc => (hplain c hc).grouped⟩

theorem regular_bindSelect {selector : Expr} {declared : DataType} (hs : s.Regular L)
    (hp : FlatProjection L selector) (hd : declared.isFlat = true)
    (h : (bindSelect nested s selector declared).outcome = .ok s') : s'.Regular L := by
  obtain ⟨p, body, rfl, ⟨-, rfl⟩ | ⟨-, columns, element, projector, composed, s₁, hcols, hshape, hinput, hmerge, rfl⟩⟩ :=
    bindSelect_eq_ok h
  · exact hs
  · have hopen : s.toSelect.Regular L := hs.openIf _
    have hg := s.toSelect_grouping
    have hplain := bindProjection_plain hopen (hp p body rfl) hcols
    have hnodup := (bindProjection_eq_ok hcols).1
    have helem := projectionShape_groupFree (DataType.groupFree_of_isFlat hd)
      (fun c hc => (hplain c hc).type_groupFree) hshape
    obtain ⟨hnames, hcomposed⟩ := inputColumns_eq_ok hopen hg hplain hinput
    rcases mergeColumns_eq_ok hmerge with ⟨-, rfl⟩ | ⟨-, rfl⟩
    · exact hopen.withColumns hg projector (by rw [hnames]; exact hnodup) hcomposed helem
    · exact hopen.wrapped.withColumns s.toSelect.wrapped_grouping projector hnodup
        (fun c hc => (hplain c hc).grouped) helem

theorem regular_bindOrder {key : Expr} {direction : Direction} {after : Bool} (hs : s.Regular L)
    (hp : FlatLambda L key) (h : (bindOrder nested s key direction after).outcome = .ok s') : s'.Regular L := by
  obtain ⟨p, body, bound, rfl, hbound, hcolumn, rfl⟩ := bindOrder_eq_ok h
  have hopen : s.toOrder.Regular L := hs.openIf _
  have hkeys : ∀ o ∈ (if after then s.orderBy else []) ++ [⟨bound.expr, direction⟩],
      o.expr.isRowColumn = true := by
    intro o ho
    rcases List.mem_append.mp ho with ho | ho
    · split at ho
      · exact hs.orderBy o ho
      · cases ho
    · rw [List.mem_singleton.mp ho]
      exact hcolumn
  cases hproj : s.toOrder.projected with
  | true => exact hopen.withOrderBy hkeys
  | false =>
    have hnoted := (bindBody_flat_eq_ok hopen.noted (hp p body rfl) hbound).2
    exact (hopen.noteColumns hproj hnoted).withOrderBy hkeys

theorem regular_bindGroup {selector : Expr} {declared : DataType} (hs : s.Regular L)
    (hp : FlatProjection L selector) (hd : declared.groupFree = true)
    (h : (bindGroup nested s selector declared).outcome = .ok s') : s'.Regular L := by
  obtain ⟨p, body, keys, rfl, hkeys, rfl⟩ := bindGroup_eq_ok h
  have hopen : s.toGroup.Regular L := hs.openIf _
  have hplain := bindProjection_plain hopen (hp p body rfl) hkeys
  have hkey := keyType_groupFree hd fun k hk => (hplain k hk).type_groupFree
  refine ⟨Stage.noted_of_isGrouping rfl, ?_, fun _ => rfl, (fun _ hg => nomatch hg), hopen.nodup, hopen.columns,
    hopen.orderBy⟩
  show ((keyType declared keys).groupFree && s.toGroup.element.isRowType) = true
  rw [hkey, hopen.element]
  rfl

theorem regular_aggregateStage {function name : String} {t result : DataType} (h : result.groupFree = true) :
    (aggregateStage s function (.column name .group t) result).Regular L := by
  have hwrapped : (aggregateStage s function (.column name .group t) result).orderBy = [] :=
    Stage.wrapped_orderBy _
  have hgrouping : (aggregateStage s function (.column name .group t) result).grouping = none :=
    Stage.wrapped_grouping _
  refine ⟨Stage.noted_of_projected rfl, DataType.isRowType_of_groupFree h, ?_, fun _ _ => h, fun _ => ?_, ?_, ?_⟩
  · rw [hgrouping]
    intro hsome
    cases hsome
  · simp [aggregateStage, Column.names]
  · intro _ c hc
    rw [List.mem_singleton.mp hc]
    exact .aggregate rfl h
  · rw [hwrapped]
    intro o ho
    cases ho

theorem projects_of_aggregate {method function : String} (h : aggregateFunction? method = some function)
    (hc : method ≠ "Count") : projects method = true := by
  unfold projects
  rw [h]
  simp [hc]

theorem projects_of_ordering {method : String} {o : Direction × Bool} (h : orderings.lookup method = some o) :
    projects method = false := by
  have hmem : method ∈ orderings.map Prod.fst := by
    obtain ⟨l₁, l₂, heq, -⟩ := List.lookup_eq_some_iff.mp h
    rw [heq]
    simp
  have hall : ∀ m ∈ orderings.map Prod.fst, projects m = false := by decide
  exact hall method hmem

theorem regular_bindAggregate {method function : String} {arg : Option Expr} {declared : DataType}
    (hs : s.Regular L) (hm : aggregateFunction? method = some function) (hstep : FlatStep L method arg declared)
    (h : (bindAggregate nested s method function arg declared).outcome = .ok s') : s'.Regular L := by
  obtain ⟨s₁, bag, hinput, rfl⟩ := bindAggregate_eq_ok h
  have hd : declared.groupFree = true :=
    DataType.groupFree_of_isFlat (hstep.result (by rw [hm]; rfl))
  rcases aggregateInput_eq_ok hinput with ⟨hcount, rfl, _⟩ | ⟨hcount, hbag, hsel⟩
  · exact regular_aggregateStage (aggregateType_groupFree hd fun hne => absurd hcount hne)
  · have hs₁ : s₁.Regular L := by
      rcases hsel with ⟨_, rfl⟩ | ⟨x, rfl, hx⟩
      · exact hs
      · exact regular_bindSelect hs (hstep.projection (projects_of_aggregate hm hcount) x rfl) rfl hx
    obtain ⟨name, t, rfl, ht⟩ := aggregatedField_groupFree hs₁.typed hbag
    exact regular_aggregateStage (aggregateType_groupFree hd fun _ => ht)

/-! ### Chains -/

theorem regular_applies {b b' : Bound} {method : String} {arg : Option Expr} {type : DataType}
    (hs : b.stage.Regular L) (hstep : FlatStep L method arg type) (h : Applies nested b type method arg b') :
    b'.stage.Regular L := by
  cases h with
  | filter h => exact regular_bindFilter hs (hstep.lambda (by decide) _ rfl) h
  | select h => exact regular_bindSelect hs (hstep.projection (by decide) _ rfl) (hstep.row rfl) h
  | group declared hd h =>
    refine regular_bindGroup hs (hstep.projection (by decide) _ rfl) ?_ h
    rcases hd with rfl | ⟨element, hd⟩
    · rfl
    · exact DataType.groupFree_of_isFlat (hstep.key rfl declared element hd)
  | take h => exact hs.take _
  | first => exact hs.take 1
  | firstWhere h => exact (regular_bindFilter hs (hstep.lambda (by decide) _ rfl) h).take 1
  | order hm h => exact regular_bindOrder hs (hstep.lambda (projects_of_ordering hm) _ rfl) h
  | aggregate hm h => exact regular_bindAggregate hs hm hstep h

theorem regular_base {name record : String} {fields : List Field} (h : ∀ f ∈ fields, f.type.isPrimitive = true) :
    (Stage.base name (.record record fields)).Regular L := by
  refine ⟨?_, ?_, (fun hg => nomatch hg), (fun hp => nomatch hp), (fun hp => nomatch hp), (fun hp => nomatch hp),
    fun o ho => nomatch ho⟩
  · intro _
    exact ⟨⟨record, fields, rfl⟩, fun _ _ _ c hc => nomatch hc⟩
  · exact DataType.groupFree_record.mpr fun f hf => DataType.groupFree_of_isPrimitive (h f hf)

/-- Every stage that a flat chain is bound to is regular. -/
theorem regular_bindWith {chain : Expr} {b : Bound} (hc : FlatChain L chain)
    (h : (bindWith nested chain).outcome = .ok b) : b.stage.Regular L := by
  induction hc generalizing b with
  | source hf =>
    cases h
    exact regular_base hf
  | step _ hs ih =>
    obtain ⟨b₀, hb₀, happ⟩ := bindWith_call_eq_ok h
    exact regular_applies (ih hb₀) hs happ

theorem regular_bound {chain : Expr} {b : Bound} (hc : FlatChain L chain) (h : chain.bound.outcome = .ok b) :
    b.stage.Regular L := by
  rw [bound_eq_bindWith] at h
  exact regular_bindWith hc h

end PigChain
