import PigChain.Proofs.Combinators
import PigChain.Proofs.ValueTypes

/-!
# Projectors and the rows they read

A stage has its columns, its row type and its projector side by side, and every combinator has to keep the three in step.
The projector is made from the columns as they are bound, before the definitions of the stage below are put in; neither
the names of the columns nor their types change by that.
-/

namespace PigChain

variable {nested : Expr → BindM Stage} {s s' : Stage} {row : String} {columns : List Column}

/-! ### Arity -/

mutual

/-- How many fields a row of a stage has: a group is a key with a bag, and rows that pass through are those of the
source. -/
def Stage.arity : Stage → Nat
  | ⟨source, _, columns, projected, grouping, _, _, element, _⟩ =>
    if grouping.isSome then 2 else if projected then columns.length else source.arity element

/-- The fields of the rows of a source; a base has rows of the element type. -/
def Source.arity (element : DataType) : Source → Nat
  | .base _ =>
    match element with
    | .record _ fields => fields.length
    | _ => 1
  | .stage inner => inner.arity

end

theorem Stage.arity_eq (s : Stage) :
    s.arity = if s.grouping.isSome then 2 else if s.projected then s.columns.length else s.source.arity s.element := by
  cases s
  rw [Stage.arity]

/-- A column as it is output. -/
def Column.OutputAs (c : Column) (o : OutputColumn) : Prop :=
  o.name = c.name ∧ o.type.accepts c.expr.type = true

/-- The projector reads exactly the rows of the stage. -/
structure Stage.Fits (s : Stage) : Prop where
  width : s.projector.columns.length = s.arity
  columns : s.projected = true → s.grouping = none → List.Forall₂ Column.OutputAs s.columns s.projector.columns
  value : s.projector.shape = .value → s.projector.columns.length = 1

/-- What the chains below keep true of their stages. -/
structure Stage.Shaped (s : Stage) : Prop where
  fits : s.Fits
  typed : s.Typed
  names : s.projected = true → ∀ c ∈ s.columns, DotFree c.name

theorem DataType.accepts_self (t : DataType) : t.accepts t = true := by
  unfold DataType.accepts
  simp

/-! ### What keeps a stage shaped -/

namespace Stage.Shaped

/-- Filter, ordering and limit do not matter. -/
theorem congr (hs : s.Shaped) (hsource : s'.source = s.source) (hcolumns : s'.columns = s.columns)
    (hprojected : s'.projected = s.projected) (hgrouping : s'.grouping = s.grouping)
    (helement : s'.element = s.element) (hprojector : s'.projector = s.projector) : s'.Shaped := by
  have harity : s'.arity = s.arity := by
    rw [Stage.arity_eq, Stage.arity_eq, hsource, hcolumns, hprojected, hgrouping, helement]
  obtain ⟨⟨hwidth, hfit, hvalue⟩, ⟨hrow, hungrouped, htypes⟩, hnames⟩ := hs
  refine ⟨⟨?_, ?_, ?_⟩, ⟨?_, ?_, ?_⟩, ?_⟩
  · rw [hprojector, harity, hwidth]
  · rw [hprojected, hgrouping, hcolumns, hprojector]
    exact hfit
  · rw [hprojector]
    exact hvalue
  · rw [helement]
    exact hrow
  · rw [hprojected, hgrouping, helement]
    exact hungrouped
  · rw [hprojected, hcolumns]
    exact htypes
  · rw [hprojected, hcolumns]
    exact hnames

theorem noteColumns (hs : s.Shaped) (hp : s.projected = false) (noted : List Column) : (s.noteColumns noted).Shaped := by
  obtain ⟨added, -, heq⟩ := s.noteColumns_eq noted
  have hno : ∀ {P : Prop}, s.projected = true → P := fun h => absurd (hp.symm.trans h) Bool.false_ne_true
  rw [heq]
  refine ⟨⟨?_, fun h => hno h, hs.fits.value⟩, ⟨hs.typed.element, fun h => hno h, fun h => hno h⟩, fun h => hno h⟩
  have hwidth := hs.fits.width
  rw [Stage.arity_eq, hp] at hwidth
  rw [Stage.arity_eq, hp]
  exact hwidth

theorem wrapped (hs : s.Shaped) : s.wrapped.Shaped := by
  have hwidth := hs.fits.width
  cases hc : s.projected && s.grouping.isNone with
  | true =>
    rw [Bool.and_eq_true, Option.isNone_iff_eq_none] at hc
    obtain ⟨hp, hg⟩ := hc
    have hcolumns := hs.fits.columns hp hg
    rw [Stage.wrapped_of_projected hp hg]
    refine ⟨⟨?_, fun _ _ => ?_, hs.fits.value⟩, ⟨hs.typed.element, fun _ _ => hs.typed.ungrouped hp hg, fun _ => ?_⟩,
      fun _ => ?_⟩
    · rw [Stage.arity_eq]
      exact hcolumns.length_eq.symm.trans (List.length_map _).symm
    · exact List.forall₂_map_left_iff.mpr (hcolumns.imp fun c o h => h)
    · intro c hc
      obtain ⟨d, hd, rfl⟩ := List.mem_map.mp hc
      exact hs.typed.types hp d hd
    · intro c hc
      obtain ⟨d, hd, rfl⟩ := List.mem_map.mp hc
      exact hs.names hp d hd
  | false =>
    rw [Stage.wrapped_of_passing hc]
    exact ⟨⟨hwidth, (fun h => nomatch h), hs.fits.value⟩, ⟨hs.typed.element, (fun h => nomatch h), fun h => nomatch h⟩,
      fun h => nomatch h⟩

theorem openIf (hs : s.Shaped) (closed : Bool) : (s.openIf closed).Shaped := by
  cases closed with
  | false => exact hs
  | true => exact hs.wrapped

theorem addFilter (hs : s.Shaped) (predicate : Expr) : (s.addFilter predicate).Shaped := hs.congr rfl rfl rfl rfl rfl rfl

theorem take (hs : s.Shaped) (count : UInt64) : (s.take count).Shaped := hs.congr rfl rfl rfl rfl rfl rfl

/-- A stage of projected columns that fit its projector. -/
theorem withColumns {element : DataType} {projector : Projector} (hp : s'.projected = true) (hg : s'.grouping = none)
    (hcolumns : s'.columns = columns) (helement : s'.element = element) (hprojector : s'.projector = projector)
    (hfit : List.Forall₂ Column.OutputAs columns projector.columns)
    (hvalue : projector.shape = .value → projector.columns.length = 1) (hfree : element.groupFree = true)
    (htypes : ∀ c ∈ columns, c.expr.type.groupFree = true) (hnames : ∀ c ∈ columns, DotFree c.name) : s'.Shaped := by
  subst hcolumns helement hprojector
  refine ⟨⟨?_, fun _ _ => hfit, hvalue⟩, ⟨DataType.isRowType_of_groupFree hfree, fun _ _ => hfree, fun _ => htypes⟩,
    fun _ => hnames⟩
  rw [Stage.arity_eq, hg, hp]
  exact hfit.length_eq.symm

end Stage.Shaped

/-! ### Projections -/

theorem dotFree_lastPart (name : String) : DotFree (lastPart name) := by
  intro h
  rw [lastPart, String.toList_ofList, List.mem_reverse] at h
  exact absurd (List.all_eq_true.mp List.all_takeWhile _ h) (by decide)

theorem dotFree_value : DotFree "value" := by decide

/-- A selector whose values are plain and whose names have no dots. -/
structure PlainSelector (selector : Expr) : Prop where
  values : ∀ p body, selector = .lambda [p] body → ∀ x ∈ body.selected, PlainBody p.name x
  labels : ∀ p body, selector = .lambda [p] body → ∀ name ∈ body.labels, DotFree name

section

variable {p : Parameter} {body : Expr}

theorem bindProjection_valueTyped (hs : s.Shaped) (hg : s.grouping = none) (hx : PlainSelector (.lambda [p] body))
    (h : (bindProjection nested s p.name body).outcome = .ok columns) : ∀ c ∈ columns, ValueTyped s c.expr := by
  intro c hc
  obtain ⟨x, hsel, bound, hbound, heq⟩ := exists_of_forall₂_right (bindProjection_eq_ok h).2 hc
  rw [heq]
  exact bindBody_valueTyped hs.typed hg hs.names (hx.values p body rfl x hsel) hbound

theorem bindProjection_dotFree (hx : PlainSelector (.lambda [p] body))
    (h : (bindProjection nested s p.name body).outcome = .ok columns) : ∀ c ∈ columns, DotFree c.name := by
  intro c hc
  rcases bindProjection_names h c hc with hlabel | hvalue | ⟨name, hlast⟩
  · exact hx.labels p body rfl c.name hlabel
  · rw [hvalue]
    exact dotFree_value
  · rw [hlast]
    exact dotFree_lastPart name

end

theorem recordOutput_outputAs {fields : List Field} {output : List OutputColumn}
    (h : recordOutput fields columns = .ok output) : List.Forall₂ Column.OutputAs columns output := by
  rw [recordOutput_eq_mapM] at h
  refine (mapM_eq_ok.mp h).imp fun c o hc => ?_
  obtain ⟨type, htype, ho⟩ := except_do_eq_ok.mp hc
  cases ho
  refine ⟨rfl, ?_⟩
  unfold Column.outputType at htype
  split at htype
  · split at htype
    · next haccepts =>
      cases htype
      exact haccepts
    · cases htype
  · cases htype
    exact DataType.accepts_self _

/-- The projector of a projection has the columns of the projection. -/
theorem projectionShape_outputAs {declared element : DataType} {projector : Projector}
    (h : projectionShape columns declared = .ok (element, projector)) :
    List.Forall₂ Column.OutputAs columns projector.columns ∧
      (projector.shape = .value → projector.columns.length = 1) := by
  unfold projectionShape at h
  split at h
  · obtain ⟨output, houtput, h⟩ := except_do_eq_ok.mp h
    cases h
    exact ⟨recordOutput_outputAs houtput, fun hv => nomatch hv⟩
  · dsimp only at h
    split at h
    · cases h
      exact ⟨.cons ⟨rfl, DataType.accepts_self _⟩ .nil, fun _ => rfl⟩
    · split at h
      · next haccepts =>
        cases h
        exact ⟨.cons ⟨rfl, haccepts⟩ .nil, fun _ => rfl⟩
      · cases h
  · cases h
    refine ⟨List.forall₂_map_right_iff.mpr (List.forall₂_same.mpr fun c _ => ?_), fun hv => nomatch hv⟩
    exact ⟨rfl, DataType.accepts_self _⟩

/-- Another definition under the same name and of the same type. -/
def Column.Like (c c' : Column) : Prop := c'.name = c.name ∧ c'.expr.type = c.expr.type

theorem outputAs_like {composed : List Column} {output : List OutputColumn}
    (hlike : List.Forall₂ Column.Like columns composed) (h : List.Forall₂ Column.OutputAs columns output) :
    List.Forall₂ Column.OutputAs composed output := by
  induction hlike generalizing output with
  | nil => exact h
  | cons hc _ ih =>
    cases h with
    | cons ho h =>
      refine .cons ⟨ho.1.trans hc.1.symm, ?_⟩ (ih h)
      rw [hc.2]
      exact ho.2

/-- Columns over the input of a stage have the names and the types of the columns over its output. -/
theorem inputColumns_like {composed : List Column} (hc : ∀ c ∈ columns, ValueTyped s c.expr)
    (h : s.inputColumns columns = .ok composed) : List.Forall₂ Column.Like columns composed := by
  unfold Stage.inputColumns at h
  split at h
  · next hp =>
    have hcomposed := composeColumns_eq_ok h
    refine ((List.forall₂_and_left _ _).mpr ⟨hc, hcomposed⟩).imp fun c c' hboth => ?_
    obtain ⟨htyped, hname, hexpr⟩ := hboth
    exact ⟨hname, (htyped.typedBy hp).composed hexpr⟩
  · cases h
    exact List.forall₂_same.mpr fun c _ => ⟨rfl, rfl⟩

/-! ### Combinators -/

theorem bindFilter_shaped {predicate : Expr} (hs : s.Shaped) (h : (bindFilter nested s predicate).outcome = .ok s') :
    s'.Shaped := by
  obtain ⟨p, body, bound, -, -, hm⟩ := bindFilter_eq_ok h
  have hopen : s.toFilter.Shaped := hs.openIf _
  rcases mergeFilter_eq_ok hm with ⟨hp, rfl⟩ | ⟨-, -, e, -, rfl⟩ | ⟨-, -, rfl⟩
  · exact (hopen.noteColumns hp bound.noted).addFilter bound.expr
  · exact hopen.addFilter e
  · exact hopen.wrapped.congr rfl rfl rfl rfl rfl rfl

theorem bindSelect_shaped {selector : Expr} {declared : DataType} (hs : s.Shaped) (hx : PlainSelector selector)
    (hd : declared.groupFree = true) (h : (bindSelect nested s selector declared).outcome = .ok s') : s'.Shaped := by
  obtain ⟨p, body, rfl, hsame | hnew⟩ := bindSelect_eq_ok h
  · rw [hsame.2]
    exact hs
  · obtain ⟨-, columns, element, projector, composed, s₁, hcolumns, hshape, hinput, hmerge, rfl⟩ := hnew
    have hopen : s.toSelect.Shaped := hs.openIf _
    have hg := s.toSelect_grouping
    have hvalues := bindProjection_valueTyped hopen hg hx hcolumns
    have hlike := inputColumns_like hvalues hinput
    have htypes : ∀ c ∈ columns, c.expr.type.groupFree = true := fun c hc => (hvalues c hc).type
    have hfree := projectionShape_groupFree hd htypes hshape
    obtain ⟨hfit, hvalue⟩ := projectionShape_outputAs hshape
    have hnames := bindProjection_dotFree hx hcolumns
    rcases mergeColumns_eq_ok hmerge with ⟨-, rfl⟩ | ⟨-, rfl⟩
    · refine .withColumns rfl hg rfl rfl rfl (outputAs_like hlike hfit) hvalue hfree ?_ ?_
      · intro c' hc'
        obtain ⟨c, hc, -, htype⟩ := exists_of_forall₂_right hlike hc'
        rw [htype]
        exact htypes c hc
      · intro c' hc'
        obtain ⟨c, hc, hname, -⟩ := exists_of_forall₂_right hlike hc'
        rw [hname]
        exact hnames c hc
    · exact .withColumns rfl s.toSelect.wrapped_grouping rfl rfl rfl hfit hvalue hfree htypes hnames

theorem bindOrder_shaped {key : Expr} {direction : Direction} {after : Bool} (hs : s.Shaped)
    (h : (bindOrder nested s key direction after).outcome = .ok s') : s'.Shaped := by
  obtain ⟨p, body, bound, -, -, -, rfl⟩ := bindOrder_eq_ok h
  have hopen : s.toOrder.Shaped := hs.openIf _
  cases hp : s.toOrder.projected with
  | true => exact hopen.congr rfl rfl rfl rfl rfl rfl
  | false => exact (hopen.noteColumns hp bound.noted).congr rfl rfl rfl rfl rfl rfl

theorem bindGroup_shaped {selector : Expr} {declared : DataType} (hs : s.Shaped) (hx : PlainSelector selector)
    (hd : declared.groupFree = true) (h : (bindGroup nested s selector declared).outcome = .ok s') : s'.Shaped := by
  obtain ⟨p, body, keys, rfl, hkeys, rfl⟩ := bindGroup_eq_ok h
  have hopen : s.toGroup.Shaped := hs.openIf _
  have hvalues := bindProjection_valueTyped hopen s.toGroup_grouping hx hkeys
  have hkey := keyType_groupFree hd fun k hk => (hvalues k hk).type
  refine ⟨⟨?_, (fun _ hg => nomatch hg), fun hv => nomatch hv⟩, ⟨?_, (fun _ hg => nomatch hg), hopen.typed.types⟩,
    hopen.names⟩
  · rw [Stage.arity_eq]
    rfl
  · show ((keyType declared keys).groupFree && s.toGroup.element.isRowType) = true
    rw [hkey, hopen.typed.element]
    rfl

theorem bindAggregate_shaped {method function : String} {selector : Option Expr} {declared : DataType} (hs : s.Shaped)
    (hx : ∀ x, selector = some x → PlainSelector x) (hd : declared.groupFree = true)
    (h : (bindAggregate nested s method function selector declared).outcome = .ok s') : s'.Shaped := by
  obtain ⟨s₁, bag, hinput, rfl⟩ := bindAggregate_eq_ok h
  have hbag : method ≠ "Count" → bag.type.groupFree = true := by
    intro hm
    rcases aggregateInput_eq_ok hinput with ⟨hcount, -⟩ | ⟨-, hfield, hstage⟩
    · exact absurd hcount hm
    · have hs₁ : s₁.Shaped := by
        rcases hstage with ⟨-, rfl⟩ | ⟨x, hsel, hselect⟩
        · exact hs
        · exact bindSelect_shaped hs (hx x hsel) rfl hselect
      obtain ⟨name, t, rfl, ht⟩ := aggregatedField_groupFree hs₁.typed hfield
      exact ht
  have hresult := aggregateType_groupFree hd hbag
  refine .withColumns rfl (Stage.wrapped_grouping _) rfl rfl rfl (.cons ⟨rfl, DataType.accepts_self _⟩ .nil)
    (fun _ => rfl) hresult ?_ ?_
  · intro c hc
    rw [List.mem_singleton.mp hc]
    exact hresult
  · intro c hc
    rw [List.mem_singleton.mp hc]
    exact dotFree_value

/-! ### Chains -/

/-- A step whose lambda is plain and that declares no groups, except that the rows of a grouping are groups. -/
structure PlainStep (method : String) (arg : Option Expr) (type : DataType) : Prop where
  selector : ∀ x, arg = some x → PlainSelector x
  row : method = "Select" → (type.element?.getD .unknown).groupFree = true
  key : method = "GroupBy" → ∀ key element, type.element? = some (.grouping key element) → key.groupFree = true
  result : (aggregateFunction? method).isSome = true → type.groupFree = true

/-- A chain of plain steps over a source of primitive values or records. -/
inductive PlainChain : Expr → Prop where
  | source {name : String} {type element : DataType} (he : type.element? = some element)
    (hrow : element.isPrimitive = true ∨ ∃ record fields, element = .record record fields)
    (hfree : element.groupFree = true) : PlainChain (.constant (.source name) type)
  | step {method : String} {chain : Expr} {args : List Expr} {type : DataType} (hc : PlainChain chain)
    (hs : PlainStep method args.head? type) : PlainChain (.call none method (chain :: args) type)

theorem base_shaped {name : String} {element : DataType}
    (hrow : element.isPrimitive = true ∨ ∃ record fields, element = .record record fields)
    (hfree : element.groupFree = true) : (Stage.base name element).Shaped := by
  refine ⟨⟨?_, (fun hp => nomatch hp), ?_⟩,
    ⟨DataType.isRowType_of_groupFree hfree, (fun hp => nomatch hp), fun hp => nomatch hp⟩, fun hp => nomatch hp⟩
  · rcases hrow with hprim | ⟨record, fields, rfl⟩
    · cases element <;> first | rfl | cases hprim
    · exact List.length_map _
  · intro hvalue
    rcases hrow with hprim | ⟨record, fields, rfl⟩
    · cases element <;> first | rfl | cases hprim
    · cases hvalue

theorem applies_shaped {b b' : Bound} {method : String} {arg : Option Expr} {type : DataType} (hb : b.stage.Shaped)
    (hs : PlainStep method arg type) (h : Applies nested b type method arg b') : b'.stage.Shaped := by
  cases h with
  | filter h => exact bindFilter_shaped hb h
  | select h => exact bindSelect_shaped hb (hs.selector _ rfl) (hs.row rfl) h
  | group declared hd h =>
    refine bindGroup_shaped hb (hs.selector _ rfl) ?_ h
    rcases hd with rfl | ⟨element, he⟩
    · rfl
    · exact hs.key rfl declared element he
  | take _ => exact hb.take _
  | first => exact hb.take 1
  | firstWhere h => exact (bindFilter_shaped hb h).take 1
  | order _ h => exact bindOrder_shaped hb h
  | aggregate hm h => exact bindAggregate_shaped hb hs.selector (hs.result (by rw [hm]; rfl)) h

theorem bindWith_shaped {chain : Expr} {b : Bound} (hc : PlainChain chain)
    (h : (bindWith nested chain).outcome = .ok b) : b.stage.Shaped := by
  induction hc generalizing b with
  | source he hrow hfree =>
    rw [bindWith, he] at h
    cases h
    exact base_shaped hrow hfree
  | step _ hs ih =>
    obtain ⟨b₁, hb₁, happlies⟩ := bindWith_call_eq_ok h
    exact applies_shaped (ih hb₁) hs happlies

/-! ### Reading rows -/

theorem project_value {projector : Projector} {c : OutputColumn} (hshape : projector.shape = .value)
    (hcolumns : projector.columns = [c]) (raws : List Json) :
    projector.project raws = match raws with
      | [raw] => coerce c.name c.type raw
      | _ => .error (.typeMismatch "row" "1 fields" s!"{raws.length} fields") := by
  obtain ⟨columns, shape⟩ := projector
  cases hshape
  cases hcolumns
  have htext : toString (1 : Nat) ++ toString " fields" = "1 fields" := by decide +kernel
  match raws with
  | [raw] => rfl
  | [] =>
    rw [← htext]
    rfl
  | raw :: raw' :: rest =>
    have hlen : (raw :: raw' :: rest).length ≠ [c].length := by simp
    rw [← htext]
    exact if_pos hlen

/-- The projector of a bound chain reads exactly the rows of its stage: it has a column for each field, with the name and
the type of the column that is output there, and a row that is read as a bare value has one field. -/
theorem projector_fits_rows {chain : Expr} {b : Bound} (hc : PlainChain chain) (hb : chain.bound.outcome = .ok b) :
    b.stage.projector.columns.length = b.stage.arity ∧
      (b.stage.projected = true → b.stage.grouping = none →
        List.Forall₂ (fun c o => o.name = c.name ∧ o.type.accepts c.expr.type = true) b.stage.columns
          b.stage.projector.columns) ∧
      (b.stage.projector.shape = .value → ∃ c, b.stage.projector.columns = [c] ∧
        ∀ raws, b.stage.projector.project raws = match raws with
          | [raw] => coerce c.name c.type raw
          | _ => .error (.typeMismatch "row" "1 fields" s!"{raws.length} fields")) := by
  rw [bound_eq_bindWith] at hb
  have hshaped := bindWith_shaped hc hb
  refine ⟨hshaped.fits.width, hshaped.fits.columns, fun hvalue => ?_⟩
  obtain ⟨c, hcolumns⟩ := List.length_eq_one_iff.mp (hshaped.fits.value hvalue)
  exact ⟨c, hcolumns, project_value hvalue hcolumns⟩

/-! ### Sums of a computed column -/

def orderType : DataType := .record "Order" [⟨"Customer", .string, false⟩, ⟨"Amount", .int64, false⟩]

def rowField (row name : String) (type : DataType) : Expr := .member (some (.parameter row .unknown)) name type

/-- Orders by customer, each with twice its amount. -/
def doubledOrders : Expr :=
  .call none "Select"
    [.source "orders" orderType,
      .lambda [⟨"o", .unknown⟩] (.recordWith .unknown [("Name", rowField "o" "Customer" .string),
        ("Twice", .binary .multiply (rowField "o" "Amount" .int64) (.constant (.int 2) .int64) .int64)])]
    (.query .unknown)

/-- The row of a lambda over the orders of a customer. -/
def orderGroup : Expr := .parameter "g" (.grouping .string .unknown)

/-- The sum for each customer, read from a record of the group's key and the sum. -/
def doubledTotals : Expr :=
  .call none "Select"
    [.call none "Select"
      [.call none "GroupBy" [doubledOrders, .lambda [⟨"r", .unknown⟩] (rowField "r" "Name" .string)]
        (.query orderGroup.type),
        .lambda [⟨"g", orderGroup.type⟩] (.recordWith .unknown [("Name", orderGroup.get "Key"),
          ("Total", .call (some orderGroup) "Sum" [.lambda [⟨"r", .unknown⟩] (rowField "r" "Twice" .int64)] .int64)])]
      (.query .unknown),
      .lambda [⟨"t", .unknown⟩] (rowField "t" "Total" .int64)]
    (.query .int64)

theorem plainNodes_rowField {owner name : String} {type : DataType} (ht : type.groupFree = true) :
    ∀ y, Expr.Occurs y (rowField owner name type) → PlainNode row y := by
  refine plainNodes_of_children ⟨rfl, Kind.noConfusion, fun _ _ => ht⟩ fun c hc => ?_
  cases List.mem_singleton.mp hc
  refine plainNodes_of_children ⟨rfl, Kind.noConfusion, fun _ _ => rfl⟩ fun c hc => ?_
  cases hc

theorem plainNodes_orderGroup : ∀ y, Expr.Occurs y orderGroup → PlainNode "g" y := by
  refine plainNodes_of_children ⟨rfl, Kind.noConfusion, fun _ hrow => ?_⟩ fun c hc => ?_
  · cases hrow
  · cases hc

/-- A field as a selector. -/
theorem plainSelector_rowField {p : Parameter} {name : String} {type : DataType} (ht : type.groupFree = true) :
    PlainSelector (.lambda [p] (rowField p.name name type)) := by
  constructor
  · rintro _ _ ⟨⟩ x hx
    cases List.mem_singleton.mp hx
    exact plainBody_of_nodes (plainNodes_rowField ht)
  · rintro _ _ ⟨⟩ label hlabel
    cases hlabel

/-- A record as a selector. -/
theorem plainSelector_recordWith {p : Parameter} {type : DataType} {members : List (String × Expr)}
    (hvalues : ∀ m ∈ members, PlainBody p.name m.2) (hlabels : ∀ m ∈ members, DotFree m.1) :
    PlainSelector (.lambda [p] (.recordWith type members)) := by
  constructor
  · rintro _ _ ⟨⟩ x hx
    obtain ⟨b, hb, hassign⟩ := List.mem_filterMap.mp hx
    obtain ⟨m, hm, rfl⟩ := List.mem_map.mp hb
    cases hassign
    exact hvalues m hm
  · rintro _ _ ⟨⟩ label hlabel
    obtain ⟨b, hb, rfl⟩ := List.mem_map.mp hlabel
    obtain ⟨m, hm, rfl⟩ := List.mem_map.mp hb
    exact hlabels m hm

theorem plainChain_doubledOrders : PlainChain doubledOrders := by
  refine .step (.source rfl (.inr ⟨_, _, rfl⟩) rfl) ⟨?_, fun _ => rfl, (fun hm => absurd hm (by decide)), fun hm => absurd hm (by decide)⟩
  rintro _ ⟨⟩
  refine plainSelector_recordWith ?_ (by decide)
  intro m hm
  simp only [List.mem_cons, List.not_mem_nil, or_false] at hm
  rcases hm with rfl | rfl
  · exact plainBody_of_nodes (plainNodes_rowField rfl)
  · refine plainBody_of_nodes (plainNodes_of_children ⟨rfl, Kind.noConfusion, fun _ _ => rfl⟩ fun c hc => ?_)
    simp only [Expr.children, List.mem_cons, List.not_mem_nil, or_false] at hc
    rcases hc with rfl | rfl
    · exact plainNodes_rowField rfl
    · refine plainNodes_of_children ⟨rfl, Kind.noConfusion, fun _ _ => rfl⟩ fun c hc => ?_
      cases hc

/-- The values read from a group: its key, and a sum over its rows. -/
theorem plainSelector_orderGroup : PlainSelector (.lambda [⟨"g", orderGroup.type⟩] (.recordWith .unknown
    [("Name", orderGroup.get "Key"),
      ("Total", .call (some orderGroup) "Sum" [.lambda [⟨"r", .unknown⟩] (rowField "r" "Twice" .int64)] .int64)])) := by
  refine plainSelector_recordWith ?_ (by decide)
  intro m hm
  simp only [List.mem_cons, List.not_mem_nil, or_false] at hm
  rcases hm with rfl | rfl
  · refine plainBody_of_nodes (plainNodes_of_children ⟨rfl, Kind.noConfusion, fun _ _ => rfl⟩ fun c hc => ?_)
    cases List.mem_singleton.mp hc
    exact plainNodes_orderGroup
  · refine plainBody_of_nodes (plainNodes_of_children ⟨rfl, Kind.noConfusion, fun _ _ => rfl⟩ fun c hc => ?_)
    simp only [Expr.children, Option.toList, List.singleton_append, List.mem_cons, List.not_mem_nil, or_false] at hc
    rcases hc with rfl | rfl
    · exact plainNodes_orderGroup
    · refine plainNodes_of_children ⟨rfl, Kind.noConfusion, fun hl => absurd rfl hl⟩ fun c hc => ?_
      cases List.mem_singleton.mp hc
      exact plainNodes_rowField rfl

theorem plainChain_doubledTotals : PlainChain doubledTotals := by
  refine .step (.step (.step plainChain_doubledOrders ⟨?_, (fun hm => absurd hm (by decide)), ?_, fun hm => absurd hm (by decide)⟩)
    ⟨?_, fun _ => rfl, (fun hm => absurd hm (by decide)), fun hm => absurd hm (by decide)⟩)
    ⟨?_, fun _ => rfl, (fun hm => absurd hm (by decide)), fun hm => absurd hm (by decide)⟩
  · rintro _ ⟨⟩
    exact plainSelector_rowField rfl
  · rintro - key element ⟨⟩
    rfl
  · rintro _ ⟨⟩
    exact plainSelector_orderGroup
  · rintro _ ⟨⟩
    exact plainSelector_rowField rfl

theorem projector_fits_rows_doubledTotals :
    PlainChain doubledTotals ∧ ∃ b, doubledTotals.bound.outcome = .ok b ∧ b.stage.projected = true ∧
      b.stage.grouping = none ∧ b.stage.projector.shape = .value ∧
      b.stage.projector.columns.length = b.stage.arity ∧
      List.Forall₂ (fun c o => o.name = c.name ∧ o.type.accepts c.expr.type = true) b.stage.columns
        b.stage.projector.columns ∧
      ∃ c, b.stage.projector.columns = [c] ∧
        ∀ raws, b.stage.projector.project raws = match raws with
          | [raw] => coerce c.name c.type raw
          | _ => .error (.typeMismatch "row" "1 fields" s!"{raws.length} fields") := by
  have hbound : doubledTotals.bound.outcome.map (fun b =>
      (b.stage.projected, b.stage.grouping.isNone, b.stage.projector.shape)) = .ok (true, true, .value) := by rfl
  obtain ⟨b, hb, hstage⟩ := except_map_eq_ok.mp hbound
  simp only [Prod.mk.injEq, Option.isNone_iff_eq_none] at hstage
  obtain ⟨hp, hg, hvalue⟩ := hstage
  obtain ⟨hwidth, hcolumns, hproject⟩ := projector_fits_rows plainChain_doubledTotals hb
  exact ⟨plainChain_doubledTotals, b, hb, hp, hg, hvalue, hwidth, hcolumns hp hg, hproject hvalue⟩

end PigChain
