import PigChain.Proofs.FilterRows
import PigChain.Proofs.GroupedRows
import PigChain.Script.Lower

/-!
# The columns that aggregates of a group read

The rows of a group lie in its bag with the columns of the relation that was grouped. An aggregate of the group names
one of them, but the name is looked up in the row type of that relation and not among its columns. The two go together
as long as every projection gives its rows a type that lists no other fields than the columns it makes: filters,
orderings, limits and groupings, merged or wrapped, leave it so.
-/

namespace PigChain

variable {base : List String} {nested : Expr → BindM Stage} {s s' : Stage} {row : String}

/-! ### The columns of a bag -/

mutual

/-- The columns in the bag of the rows that a stage outputs, which are those of the relation that was grouped; `none` if
the rows have no bag. -/
def Stage.bagFields (base : List String) : Stage → Option (List String)
  | ⟨source, _, columns, projected, grouping, _, _, _, _⟩ =>
    if grouping.isSome then some (if projected then Column.names columns else source.fields base)
    else if projected then none else source.bagFields base

def Source.bagFields (base : List String) : Source → Option (List String)
  | .base _ => none
  | .stage inner => inner.bagFields base

end

namespace Stage

theorem bagFields_eq : s.bagFields base = if s.grouping.isSome then some (s.generated base)
    else if s.projected then none else s.source.bagFields base := by
  obtain ⟨_, _, _, _, _, _, _, _, _⟩ := s
  rw [bagFields]
  rfl

theorem bagFields_of_grouped (h : s.grouping.isSome = true) : s.bagFields base = some (s.generated base) := by
  rw [bagFields_eq, if_pos h]

theorem bagFields_of_projected (hg : s.grouping = none) (hp : s.projected = true) : s.bagFields base = none := by
  rw [bagFields_eq, hg, hp]
  rfl

theorem bagFields_wrapped : s.wrapped.bagFields base = s.bagFields base := by
  cases hc : s.projected && s.grouping.isNone with
  | true =>
    rw [Bool.and_eq_true, Option.isNone_iff_eq_none] at hc
    rw [wrapped_of_projected hc.1 hc.2, bagFields_of_projected rfl rfl, bagFields_of_projected hc.2 hc.1]
  | false =>
    rw [wrapped_of_passing hc]
    rfl

end Stage

/-! ### Row types and columns -/

/-- A type that has no other fields than `names`, if it is a record. -/
def DataType.FieldsIn (names : List String) (t : DataType) : Prop := ∀ f ∈ t.fields?.getD [], f.name ∈ names

instance {names : List String} {t : DataType} : Decidable (t.FieldsIn names) :=
  inferInstanceAs (Decidable (∀ f ∈ t.fields?.getD [], f.name ∈ names))

/-- The row type of a stage lists fields that its rows have, and the rows in its bags have. -/
structure Stage.TypesRows (base : List String) (s : Stage) : Prop where
  rows : s.element.FieldsIn (s.fields base)
  plain : s.bagFields base = none → s.element.isGrouping = false
  bag : ∀ names, s.bagFields base = some names →
    ∃ key element, s.element = .grouping key element ∧ element.FieldsIn names

/-- The row type of a projection lists columns of the projection only. -/
def Stage.TypesColumns (s : Stage) : Prop :=
  s.projected = true → s.grouping.isNone = true →
    s.element.isGrouping = false ∧ s.element.FieldsIn (Column.names s.columns)

instance : Decidable s.TypesColumns :=
  inferInstanceAs (Decidable (s.projected = true → s.grouping.isNone = true →
    s.element.isGrouping = false ∧ s.element.FieldsIn (Column.names s.columns)))

namespace Stage.TypesRows

theorem of_columns (h : s.TypesColumns) (hp : s.projected = true) (hg : s.grouping = none) : s.TypesRows base := by
  obtain ⟨hplain, hfields⟩ := h hp (by rw [hg]; rfl)
  refine ⟨?_, fun _ => hplain, fun names hbag => ?_⟩
  · rw [Stage.fields_of_ungrouped hg, Stage.generated_of_projected hp]
    exact hfields
  · rw [Stage.bagFields_of_projected hg hp] at hbag
    cases hbag

/-- Filters, orderings and limits change neither the fields of the rows nor those of their bags. -/
theorem congr (hs : s.TypesRows base) (hsource : s'.source = s.source) (hprojected : s'.projected = s.projected)
    (hcolumns : s.projected = true → s'.columns = s.columns) (hgrouping : s'.grouping = s.grouping)
    (helement : s'.element = s.element) : s'.TypesRows base := by
  have hgenerated : s'.generated base = s.generated base := by
    unfold Stage.generated
    rw [hprojected, hsource]
    split
    · next hp => rw [hcolumns hp]
    · rfl
  have hfields : s'.fields base = s.fields base := by
    rw [Stage.fields_eq, Stage.fields_eq, hgrouping, hgenerated]
  have hbag : s'.bagFields base = s.bagFields base := by
    rw [Stage.bagFields_eq, Stage.bagFields_eq, hgrouping, hprojected, hsource, hgenerated]
  constructor
  · rw [helement, hfields]
    exact hs.rows
  · rw [helement, hbag]
    exact hs.plain
  · rw [helement, hbag]
    exact hs.bag

theorem wrapped (hs : s.TypesRows base) : s.wrapped.TypesRows base := by
  constructor
  · rw [s.wrapped_element, Stage.fields_wrapped]
    exact hs.rows
  · rw [s.wrapped_element, Stage.bagFields_wrapped]
    exact hs.plain
  · rw [s.wrapped_element, Stage.bagFields_wrapped]
    exact hs.bag

theorem openIf (hs : s.TypesRows base) (closed : Bool) : (s.openIf closed).TypesRows base := by
  cases closed with
  | true => exact hs.wrapped
  | false => exact hs

theorem noteColumns (hs : s.TypesRows base) (hp : s.projected = false) (noted : List Column) :
    (s.noteColumns noted).TypesRows base := by
  obtain ⟨added, -, heq⟩ := s.noteColumns_eq noted
  rw [heq]
  refine hs.congr rfl rfl (fun hprojected => ?_) rfl rfl
  rw [hp] at hprojected
  cases hprojected

theorem bindFilter {predicate : Expr} (hs : s.TypesRows base)
    (h : (PigChain.bindFilter nested s predicate).outcome = .ok s') : s'.TypesRows base := by
  obtain ⟨p, body, bound, rfl, -, hmerge⟩ := bindFilter_eq_ok h
  have hopen : s.toFilter.TypesRows base := hs.openIf _
  rcases mergeFilter_eq_ok hmerge with ⟨hp, rfl⟩ | ⟨-, -, e, -, rfl⟩ | ⟨-, -, rfl⟩
  · exact (hopen.noteColumns hp bound.noted).congr rfl rfl (fun _ => rfl) rfl rfl
  · exact hopen.congr rfl rfl (fun _ => rfl) rfl rfl
  · exact hopen.wrapped.congr rfl rfl (fun _ => rfl) rfl rfl

theorem bindOrder {key : Expr} {direction : Direction} {after : Bool} (hs : s.TypesRows base)
    (h : (PigChain.bindOrder nested s key direction after).outcome = .ok s') : s'.TypesRows base := by
  obtain ⟨p, body, bound, rfl, -, -, rfl⟩ := bindOrder_eq_ok h
  have hopen : s.toOrder.TypesRows base := hs.openIf _
  cases hp : s.toOrder.projected with
  | true => exact hopen.congr rfl rfl (fun _ => rfl) rfl rfl
  | false => exact (hopen.noteColumns hp bound.noted).congr rfl rfl (fun _ => rfl) rfl rfl

/-- A selector that is the row leaves the stage alone; any other makes a projection. -/
theorem bindSelect {selector : Expr} {declared : DataType} (hs : s.TypesRows base) (htyped : s'.TypesColumns)
    (h : (PigChain.bindSelect nested s selector declared).outcome = .ok s') : s'.TypesRows base := by
  obtain ⟨p, body, rfl, ⟨-, rfl⟩ | ⟨-, columns, element, projector, composed, s₁, -, -, -, hmerge, rfl⟩⟩ :=
    bindSelect_eq_ok h
  · exact hs
  · refine of_columns htyped rfl ?_
    rcases mergeColumns_eq_ok hmerge with ⟨-, rfl⟩ | ⟨-, rfl⟩
    · exact s.toSelect_grouping
    · exact s.toSelect.wrapped_grouping

/-- What is grouped becomes the bag, so the type of its rows lists columns of the bag. -/
theorem bindGroup {selector : Expr} {declared : DataType} (hs : s.TypesRows base)
    (h : (PigChain.bindGroup nested s selector declared).outcome = .ok s') : s'.TypesRows base := by
  obtain ⟨p, body, keys, rfl, -, rfl⟩ := bindGroup_eq_ok h
  have hopen : s.toGroup.TypesRows base := hs.openIf _
  refine ⟨fun f hf => absurd hf List.not_mem_nil, fun hnone => ?_, fun names hnames => ⟨_, _, rfl, ?_⟩⟩
  · rw [Stage.bagFields_of_grouped rfl] at hnone
    cases hnone
  · rw [Stage.bagFields_of_grouped rfl] at hnames
    cases hnames
    have hrows := hopen.rows
    rw [Stage.fields_of_ungrouped s.toGroup_grouping] at hrows
    exact hrows

end Stage.TypesRows

/-! ### Chains that type their projections -/

/-- A chain over a source of plain rows in which every projection, and every aggregate over a whole relation, gives its
rows a type that lists columns of the projection only. -/
inductive TypesProjections (nested : Expr → BindM Stage) : Expr → Prop where
  | source {name : String} {type : DataType}
    (h : ∀ element, type.element? = some element → element.isGrouping = false) :
    TypesProjections nested (.constant (.source name) type)
  | step {chain : Expr} {method : String} {args : List Expr} {type : DataType} (hc : TypesProjections nested chain)
    (hs : projects method = true → ∀ b,
      (bindWith nested (.call none method (chain :: args) type)).outcome = .ok b → b.stage.TypesColumns) :
    TypesProjections nested (.call none method (chain :: args) type)

/-- Whether a projection lists only its columns can be decided by binding it. -/
theorem TypesProjections.of_all {chain : Expr} {method : String} {args : List Expr} {type : DataType}
    (hc : TypesProjections nested chain)
    (h : ((bindWith nested (.call none method (chain :: args) type)).outcome.toOption.all fun b =>
      decide b.stage.TypesColumns) = true) :
    TypesProjections nested (.call none method (chain :: args) type) := by
  refine .step hc fun _ b hb => ?_
  rw [hb] at h
  exact of_decide_eq_true h

theorem typesRows_applies {b b' : Bound} {method : String} {arg : Option Expr} {type : DataType}
    (hs : b.stage.TypesRows base) (htyped : projects method = true → b'.stage.TypesColumns)
    (h : Applies nested b type method arg b') : b'.stage.TypesRows base := by
  cases h with
  | filter h => exact hs.bindFilter h
  | select h => exact hs.bindSelect (htyped (by decide)) h
  | group declared _ h => exact hs.bindGroup h
  | take _ => exact hs.congr rfl rfl (fun _ => rfl) rfl rfl
  | first => exact hs.congr rfl rfl (fun _ => rfl) rfl rfl
  | firstWhere h => exact (hs.bindFilter h).congr rfl rfl (fun _ => rfl) rfl rfl
  | order _ h => exact hs.bindOrder h
  | @aggregate method function arg s' hm h =>
    obtain ⟨s₁, bag, -, rfl⟩ := bindAggregate_eq_ok h
    refine .of_columns ?_ rfl (Stage.wrapped_grouping _)
    by_cases hcount : method = "Count"
    · -- A count has no fields.
      subst hcount
      exact fun _ _ => ⟨rfl, fun f hf => absurd hf List.not_mem_nil⟩
    · exact htyped (projects_of_aggregate hm hcount)

theorem typesRows_base {name : String} {element : DataType} (h : element.isGrouping = false) :
    (Stage.base name element).TypesRows element.fieldNames := by
  refine ⟨fun f hf => ?_, fun _ => h, fun names hnames => by cases hnames⟩
  have hf' : f ∈ element.fields?.getD [] := hf
  cases element with
  | record record fields => exact List.mem_map_of_mem hf'
  | _ => cases hf'

theorem typesRows_bindWith {chain : Expr} {b : Bound} (hc : TypesProjections nested chain)
    (h : (bindWith nested chain).outcome = .ok b) : b.stage.TypesRows chain.sourceFields := by
  induction hc generalizing b with
  | @source name type hplain =>
    rw [bindWith] at h
    cases ht : type.element? with
    | none =>
      rw [ht] at h
      cases h
    | some element =>
      rw [ht] at h
      cases h
      rw [Expr.sourceFields, ht]
      exact typesRows_base (hplain element ht)
  | step _ hs ih =>
    obtain ⟨b₀, hb₀, happ⟩ := bindWith_call_eq_ok h
    rw [Expr.sourceFields]
    exact typesRows_applies (ih hb₀) (fun hm => hs hm b h) happ

/-! ### Aggregates of a group -/

theorem Expr.eq_of_isParameter {e : Expr} {name : String} (h : e.isParameter name = true) :
    ∃ t, e = .parameter name t := by
  unfold Expr.isParameter at h
  split at h
  · next n t =>
    obtain rfl : n = name := by simpa using h
    exact ⟨t, rfl⟩
  · cases h

/-- An aggregate of the row, by a selector. -/
def Expr.IsAggregate (row : String) (e selector : Expr) : Prop :=
  ∃ object method args type, e = .call object method (selector :: args) type ∧ isRow row object = true ∧
    (aggregateFunction? method).isSome = true

/-- A selector that is a field of its row. -/
def Expr.SelectsField (name : String) (selector : Expr) : Prop :=
  ∃ p t type, selector = .lambda [p] (.member (some (.parameter p.name t)) name type)

/-- What the row binder makes of an expression over the rows of a stage, or of a new stage over it. -/
def Stage.Binds (nested : Expr → BindM Stage) (s : Stage) (row : String) (e : Expr) (result : Except Error Expr) :
    Prop :=
  ∀ closed noted, (((rowBinder nested (s.openIf closed) row).run e).run noted).outcome = result.map fun x => (x, noted)

theorem binds_aggregate {object : Option Expr} {method : String} {args : List Expr} {type : DataType}
    (hrow : isRow row object = true) :
    s.Binds nested row (.call object method args type) (groupAggregate s method args type) := by
  intro closed noted
  have helement : (s.openIf closed).element = s.element := (s.openIf_rows closed).1
  have hsame : groupAggregate (s.openIf closed) method args type = groupAggregate s method args type := by
    unfold groupAggregate
    rw [helement]
  rw [Editor.run_of_replace (x := (groupAggregate (s.openIf closed) method args type |> Traced.silent |> liftM)) _
    fun w => by simp only [rowBinder, hrow, if_true], hsame]
  cases groupAggregate s method args type <;> rfl

theorem groupAggregate_of_yields {object : Option Expr} {method : String} {args : List Expr} {type : DataType}
    {closed : Bool} {e : Expr} (hrow : isRow row object = true)
    (h : Yields ((rowBinder nested (s.openIf closed) row).run (.call object method args type)) e) :
    groupAggregate s method args type = .ok e := by
  obtain ⟨n, n', hrun⟩ := h
  have hbinds := @binds_aggregate nested s row object method args type hrow closed n
  rw [hrun] at hbinds
  cases hgroup : groupAggregate s method args type with
  | error err =>
    rw [hgroup] at hbinds
    cases hbinds
  | ok x =>
    rw [hgroup] at hbinds
    cases hbinds
    rfl

theorem selectedBagField_selects {element : DataType} {selector e : Expr}
    (h : selectedBagField element selector = .ok e) :
    ∃ f ∈ element.fields?.getD [], selector.SelectsField f.name ∧ e = .bagField f.name f.type := by
  unfold selectedBagField at h
  obtain ⟨⟨p, body⟩, hlambda, h⟩ := except_do_eq_ok.mp h
  rw [lambdaParts_eq_ok.mp hlambda]
  dsimp only at h
  split at h
  · next owner name type =>
    split at h
    · next howner =>
      split at h
      · next f hf =>
        obtain ⟨fields, hfields, hfind⟩ := Option.bind_eq_some_iff.mp hf
        cases h
        obtain ⟨t, rfl⟩ := Expr.eq_of_isParameter howner
        obtain rfl : f.name = name := by simpa using List.find?_some hfind
        refine ⟨f, ?_, ⟨p, t, type, rfl⟩, rfl⟩
        rw [hfields]
        exact List.mem_of_find?_eq_some hfind
      · cases h
    · cases h
  · cases h

/-- A selector of a field that the row type does not list. -/
theorem selectedBagField_of_missing {element : DataType} {selector : Expr} {name : String}
    (hselects : selector.SelectsField name) (hmissing : ∀ f ∈ element.fields?.getD [], f.name ≠ name) :
    selectedBagField element selector = .error (.argument (.unknownColumn name)) := by
  obtain ⟨p, t, type, rfl⟩ := hselects
  have hfind : (element.fields?.bind fun fields => Field.find? fields name) = none := by
    cases hfields : element.fields? with
    | none => rfl
    | some fields =>
      rw [hfields] at hmissing
      exact List.find?_eq_none.mpr fun f hf => by simpa using hmissing f hf
  have hparameter : (Expr.parameter p.name t).isParameter p.name = true := beq_self_eq_true p.name
  simp [selectedBagField, lambdaParts, hparameter, hfind, bind, Except.bind]

theorem groupAggregate_selector {key element declared : DataType} {method function : String} {selector : Expr}
    {args : List Expr} (he : s.element = .grouping key element) (hm : aggregateFunction? method = some function) :
    groupAggregate s method (selector :: args) declared = (selectedBagField element selector).map fun bag =>
      .function function [bag] (aggregateType method declared bag.type) := by
  rw [groupAggregate, hm, he]
  dsimp only
  cases selectedBagField element selector <;> rfl

/-- An aggregate by a selector is a function of the column that the selector is. -/
theorem groupAggregate_selects {declared : DataType} {method function : String} {selector e : Expr} {args : List Expr}
    (hm : aggregateFunction? method = some function) (h : groupAggregate s method (selector :: args) declared = .ok e) :
    ∃ key element f, s.element = .grouping key element ∧ f ∈ element.fields?.getD [] ∧ selector.SelectsField f.name ∧
      e = .function function [.bagField f.name f.type] (aggregateType method declared f.type) := by
  obtain ⟨-, key, element, -, -, helement, -⟩ := groupAggregate_eq_ok h
  rw [groupAggregate_selector helement hm] at h
  obtain ⟨bag, hbag, rfl⟩ := except_map_eq_ok.mp h
  obtain ⟨f, hf, hselects, rfl⟩ := selectedBagField_selects hbag
  exact ⟨key, element, f, helement, hf, hselects, rfl⟩

namespace Stage.TypesRows

/-- An aggregate that is bound is one of a group, and the column that it reads is in the bag. -/
theorem reads_bag {selector e x : Expr} {closed : Bool} (hs : s.TypesRows base) (he : e.IsAggregate row selector)
    (h : Yields ((rowBinder nested (s.openIf closed) row).run e) x) :
    ∃ names name function t type, s.bagFields base = some names ∧ name ∈ names ∧ selector.SelectsField name ∧
      s.Binds nested row e (.ok (.function function [.bagField name t] type)) := by
  obtain ⟨object, method, args, declared, rfl, hrow, hmethod⟩ := he
  have hbinds := @binds_aggregate nested s row object method (selector :: args) declared hrow
  have hgroup := groupAggregate_of_yields hrow h
  rw [hgroup] at hbinds
  obtain ⟨function, hfunction⟩ := Option.isSome_iff_exists.mp hmethod
  obtain ⟨key, element, f, helement, hf, hselects, rfl⟩ := groupAggregate_selects hfunction hgroup
  cases hnames : s.bagFields base with
  | none =>
    have hplain := hs.plain hnames
    rw [helement] at hplain
    cases hplain
  | some names =>
    obtain ⟨key', element', helement', hfields⟩ := hs.bag names hnames
    cases helement.symm.trans helement'
    exact ⟨names, f.name, function, f.type, _, rfl, hfields f hf, hselects, hbinds⟩

/-- No row type lists a field that is not in the bag, so an aggregate of one is refused. -/
theorem rejects_missing {selector e : Expr} {names : List String} {name : String} (hs : s.TypesRows base)
    (he : e.IsAggregate row selector) (hselects : selector.SelectsField name) (hbag : s.bagFields base = some names)
    (hname : name ∉ names) : s.Binds nested row e (.error (.argument (.unknownColumn name))) := by
  obtain ⟨object, method, args, declared, rfl, hrow, hmethod⟩ := he
  obtain ⟨function, hfunction⟩ := Option.isSome_iff_exists.mp hmethod
  obtain ⟨key, element, helement, hfields⟩ := hs.bag names hbag
  have hmissing : ∀ f ∈ element.fields?.getD [], f.name ≠ name := by
    rintro f hf rfl
    exact hname (hfields f hf)
  have hbinds := @binds_aggregate nested s row object method (selector :: args) declared hrow
  rw [groupAggregate_selector helement hfunction, selectedBagField_of_missing hselects hmissing] at hbinds
  exact hbinds

end Stage.TypesRows

/-! ### Steps of a chain -/

/-- The expressions that a combinator binds one by one: the values of a selector, or the body as a whole. -/
def boundParts (method : String) (body : Expr) : List Expr := if projects method then body.selected else [body]

theorem bindProjection_binds {body x : Expr} {columns : List Column} (hx : x ∈ body.selected)
    (h : (bindProjection nested s row body).outcome = .ok columns) :
    ∃ bound, (bindBody nested s row x).outcome = .ok bound := by
  obtain ⟨c, -, bound, hbound, -⟩ := exists_of_forall₂_left (bindProjection_eq_ok h).2 hx
  exact ⟨bound, hbound⟩

/-- An expression that is the row itself, or has been bound against the stage or a new stage over it. -/
def Stage.HasBound (nested : Expr → BindM Stage) (s : Stage) (row : String) (x : Expr) : Prop :=
  x.isParameter row = true ∨ ∃ closed bound, (bindBody nested (s.openIf closed) row x).outcome = .ok bound

theorem hasBound_filter {p : Parameter} {body x : Expr} (h : (bindFilter nested s (.lambda [p] body)).outcome = .ok s')
    (hx : x ∈ [body]) : s.HasBound nested p.name x := by
  obtain ⟨q, body', bound, heq, hbound, -⟩ := bindFilter_eq_ok h
  cases heq
  rw [List.mem_singleton.mp hx]
  exact .inr ⟨_, bound, hbound⟩

/-- A selector that is the row is not bound. -/
theorem hasBound_select {p : Parameter} {body x : Expr} {declared : DataType}
    (h : (bindSelect nested s (.lambda [p] body) declared).outcome = .ok s') (hx : x ∈ body.selected) :
    s.HasBound nested p.name x := by
  obtain ⟨q, body', heq, ⟨hrow, -⟩ | ⟨-, columns, _, _, _, _, hcolumns, -⟩⟩ := bindSelect_eq_ok h
  · cases heq
    rw [Bool.and_eq_true] at hrow
    obtain ⟨t, rfl⟩ := Expr.eq_of_isParameter hrow.1
    rw [List.mem_singleton.mp hx]
    exact .inl hrow.1
  · cases heq
    obtain ⟨bound, hbound⟩ := bindProjection_binds hx hcolumns
    exact .inr ⟨_, bound, hbound⟩

theorem hasBound_group {p : Parameter} {body x : Expr} {declared : DataType}
    (h : (bindGroup nested s (.lambda [p] body) declared).outcome = .ok s') (hx : x ∈ body.selected) :
    s.HasBound nested p.name x := by
  obtain ⟨q, body', keys, heq, hkeys, -⟩ := bindGroup_eq_ok h
  cases heq
  obtain ⟨bound, hbound⟩ := bindProjection_binds hx hkeys
  exact .inr ⟨_, bound, hbound⟩

theorem hasBound_order {p : Parameter} {body x : Expr} {direction : Direction} {after : Bool}
    (h : (bindOrder nested s (.lambda [p] body) direction after).outcome = .ok s') (hx : x ∈ [body]) :
    s.HasBound nested p.name x := by
  obtain ⟨q, body', bound, heq, hbound, -⟩ := bindOrder_eq_ok h
  cases heq
  rw [List.mem_singleton.mp hx]
  exact .inr ⟨_, bound, hbound⟩

/-- Every part of the lambda of a combinator has been bound. -/
theorem applies_binds {b b' : Bound} {method : String} {p : Parameter} {body x : Expr} {type : DataType}
    (h : Applies nested b type method (some (.lambda [p] body)) b') (hx : x ∈ boundParts method body) :
    b.stage.HasBound nested p.name x := by
  cases h with
  | filter h => exact hasBound_filter h hx
  | select h => exact hasBound_select h hx
  | group declared _ h => exact hasBound_group h hx
  | take h => cases h
  | firstWhere h => exact hasBound_filter h hx
  | order hm h =>
    rw [boundParts, projects_of_ordering hm] at hx
    exact hasBound_order h hx
  | aggregate hm h =>
    obtain ⟨s₁, bag, hinput, -⟩ := bindAggregate_eq_ok h
    rcases aggregateInput_eq_ok hinput with ⟨rfl, -, ⟨⟨⟩, -⟩ | ⟨x, hx', h⟩⟩ | ⟨hcount, -, ⟨⟨⟩, -⟩ | ⟨x, hx', h⟩⟩
    · cases hx'
      exact hasBound_filter h hx
    · cases hx'
      refine hasBound_select h ?_
      rwa [boundParts, if_pos (projects_of_aggregate hm hcount)] at hx

/-- `step` is one of the steps of a chain. -/
inductive Expr.StepOf (step : Expr) : Expr → Prop where
  | last : Expr.StepOf step step
  | earlier {chain : Expr} {method : String} {args : List Expr} {type : DataType} (h : Expr.StepOf step chain) :
    Expr.StepOf step (.call none method (chain :: args) type)

/-- A chain that is bound has had each of its steps bound, over the same source. -/
theorem Expr.StepOf.bindWith {step chain : Expr} {b : Bound} (hstep : step.StepOf chain)
    (hc : TypesProjections nested chain) (h : (PigChain.bindWith nested chain).outcome = .ok b) :
    TypesProjections nested step ∧ step.sourceFields = chain.sourceFields ∧
      ∃ b', (PigChain.bindWith nested step).outcome = .ok b' := by
  induction hstep generalizing b with
  | last => exact ⟨hc, rfl, b, h⟩
  | earlier _ ih =>
    obtain ⟨b₀, hb₀, -⟩ := bindWith_call_eq_ok h
    cases hc with
    | step hc _ => exact ih hc hb₀

/-- An aggregate that stands in a lambda of a step reads a column that is in the bag. -/
theorem aggregate_reads_bag {body x x' e selector : Expr} {method : String} {p : Parameter} {type : DataType}
    {b b' : Bound} (hs : b.stage.TypesRows base) (happ : Applies nested b type method (some (.lambda [p] body)) b')
    (hx : x ∈ boundParts method body) (hx' : x.inlined = .ok x') (he : e.IsAggregate p.name selector)
    (hreach : Expr.Reaches p.name e x') :
    ∃ names name function t type, b.stage.bagFields base = some names ∧ name ∈ names ∧ selector.SelectsField name ∧
      b.stage.Binds nested p.name e (.ok (.function function [.bagField name t] type)) := by
  rcases applies_binds happ hx with hparameter | ⟨closed, bound, hbound⟩
  · -- The row alone holds no aggregate.
    obtain ⟨t, rfl⟩ := Expr.eq_of_isParameter hparameter
    rw [inlined_flat (FlatBody.row (L := anyValue))] at hx'
    cases hx'
    obtain ⟨object, m, args, u, rfl, -⟩ := he
    cases hreach with
    | child _ hmem _ => cases hmem
  · obtain ⟨body', y, hinlined, hrow, -⟩ := bindBody_eq_ok hbound
    cases hx'.symm.trans hinlined
    obtain ⟨z, hz⟩ := yields_of_reaches hreach ⟨[], bound.noted, hrow⟩
    exact hs.reads_bag he hz

/-- The stage of a chain inside a lambda, with chains nested in it at most `fuel` deep. -/
def stageWithin (fuel : Nat) (chain : Expr) : BindM Stage := do
  pure (← bindNested fuel chain).stage

/-- Every aggregate of a group by a selector, wherever it stands in the lambdas of a chain that is bound, reads a column
of the relation that was grouped; and an aggregate of a field that this relation does not have is refused. The chain
may itself stand in a lambda. -/
theorem group_aggregates_read_grouped_columns {fuel : Nat} {chain : Expr} {b : Bound}
    (hc : TypesProjections (stageWithin fuel) chain) (h : (bindNested (fuel + 1) chain).outcome = .ok b) :
    (∀ inner method p body args type,
      Expr.StepOf (.call none method (inner :: .lambda [p] body :: args) type) chain →
      ∃ b₀, (bindNested (fuel + 1) inner).outcome = .ok b₀ ∧ ∀ x ∈ boundParts method body, ∀ x', x.inlined = .ok x' →
        ∀ e selector, e.IsAggregate p.name selector → Expr.Reaches p.name e x' →
          ∃ names name function t type, b₀.stage.bagFields chain.sourceFields = some names ∧ name ∈ names ∧
            selector.SelectsField name ∧
            b₀.stage.Binds (stageWithin fuel) p.name e (.ok (.function function [.bagField name t] type))) ∧
    ∀ row e selector name names, e.IsAggregate row selector → selector.SelectsField name →
      b.stage.bagFields chain.sourceFields = some names → name ∉ names →
      b.stage.Binds (stageWithin fuel) row e (.error (.argument (.unknownColumn name))) := by
  have hbound : (bindWith (stageWithin fuel) chain).outcome = .ok b := h
  refine ⟨fun inner method p body args type hstep => ?_, fun row e selector name names he hselects hbag hname => ?_⟩
  · obtain ⟨hc', hsource, b', hb'⟩ := hstep.bindWith hc hbound
    obtain ⟨b₀, hb₀, happ⟩ := bindWith_call_eq_ok hb'
    cases hc' with
    | step hinner _ =>
      have hfields : inner.sourceFields = chain.sourceFields := hsource
      have hs := typesRows_bindWith hinner hb₀
      rw [hfields] at hs
      exact ⟨b₀, hb₀, fun x hx x' hx' e selector he hreach => aggregate_reads_bag hs happ hx hx' he hreach⟩
  · exact (typesRows_bindWith hc hbound).rejects_missing he hselects hbag hname

/-! ### Years by name -/

/-- The sum of a field over a group. -/
def groupSum (name : String) : Expr :=
  .call (some (.parameter "g" .unknown)) "Sum"
    [.lambda [⟨"x", .unknown⟩] (.member (some (.parameter "x" .unknown)) name .int64)] .int64

theorem isAggregate_groupSum (name : String) : ∃ selector, (groupSum name).IsAggregate "g" selector ∧
    selector.SelectsField name :=
  ⟨_, ⟨_, _, _, _, rfl, rfl, rfl⟩, _, _, _, rfl⟩

/-- The rows of a chain by name. -/
def byName (chain : Expr) : Expr :=
  .call none "GroupBy" [chain, .lambda [⟨"p", personType⟩] (person.get "Name")] (.query .unknown)

/-- The sum of a field of the rows of a chain, by name. -/
def summedByName (chain : Expr) (name : String) : Expr :=
  .call none "Select"
    [byName chain, .lambda [⟨"g", .unknown⟩] (.recordOf .unknown
      [("Name", .member (some (.parameter "g" .unknown)) "Key" .string), ("Total", groupSum name)])]
    (.query .unknown)

theorem typesProjections_byName : TypesProjections (stageWithin (nestingLimit - 1)) (byName renamedPeople) := by
  have hsource : TypesProjections (stageWithin (nestingLimit - 1)) (.source "people" personType) := by
    refine .source ?_
    rintro _ ⟨⟩
    rfl
  exact (TypesProjections.of_all (.step hsource fun hm => by cases hm) (by decide +kernel)).of_all (by decide +kernel)

theorem group_aggregates_read_grouped_columns_renamedPeople :
    ∃ b b₀, TypesProjections (stageWithin (nestingLimit - 1)) (summedByName renamedPeople "Years") ∧
      (summedByName renamedPeople "Years").bound.outcome = .ok b ∧ (byName renamedPeople).bound.outcome = .ok b₀ ∧
      b₀.stage.bagFields ["Name", "Age"] = some ["Name", "Years"] ∧
      (∃ function t type, b₀.stage.Binds (stageWithin (nestingLimit - 1)) "g" (groupSum "Years")
        (.ok (.function function [.bagField "Years" t] type))) ∧
      b₀.stage.Binds (stageWithin (nestingLimit - 1)) "g" (groupSum "Age")
        (.error (.argument (.unknownColumn "Age"))) := by
  obtain ⟨b, hb⟩ := except_isOk (show (summedByName renamedPeople "Years").bound.outcome.isOk = true by decide +kernel)
  have htyped : TypesProjections (stageWithin (nestingLimit - 1)) (summedByName renamedPeople "Years") :=
    typesProjections_byName.of_all (by decide +kernel)
  obtain ⟨hread, -⟩ := group_aggregates_read_grouped_columns htyped hb
  obtain ⟨b₀, hb₀, hparts⟩ := hread _ _ _ _ _ _ .last
  have hbag : b₀.stage.bagFields ["Name", "Age"] = some ["Name", "Years"] := by
    have hall : ((byName renamedPeople).bound.outcome.toOption.all fun b₀ =>
        decide (b₀.stage.bagFields ["Name", "Age"] = some ["Name", "Years"])) = true := by decide +kernel
    rw [show (byName renamedPeople).bound.outcome = .ok b₀ from hb₀] at hall
    exact of_decide_eq_true hall
  have hself : (groupSum "Years").inlined = .ok (groupSum "Years") := by rfl
  obtain ⟨selector, haggregate, hselects⟩ := isAggregate_groupSum "Years"
  obtain ⟨names, name, function, t, type, -, -, hname, hbinds⟩ :=
    hparts (groupSum "Years") (List.mem_cons_of_mem _ List.mem_cons_self) _ hself _ _ haggregate .self
  obtain ⟨_, _, _, rfl⟩ := hselects
  obtain ⟨_, _, _, hlambda⟩ := hname
  cases hlambda
  obtain ⟨selector, hmissing, hselects⟩ := isAggregate_groupSum "Age"
  obtain ⟨-, hrefused⟩ := group_aggregates_read_grouped_columns typesProjections_byName hb₀
  exact ⟨b, b₀, htyped, hb, hb₀, hbag, ⟨function, t, type, hbinds⟩,
    hrefused "g" _ selector "Age" _ hmissing hselects hbag (by decide)⟩

/-- People by name, as rows that are declared to be people. -/
def declaredPeople : Expr :=
  .call none "Select"
    [.source "people" personType,
      .lambda [⟨"p", personType⟩] (.recordWith personType [("Name", person.get "Name")])]
    (.query personType)

/-- The rows have a name only, but the sum of their ages is bound all the same, because the declared rows have one. -/
theorem group_aggregate_reads_no_column :
    ∃ b b₀, (summedByName declaredPeople "Age").bound.outcome = .ok b ∧
      (byName declaredPeople).bound.outcome = .ok b₀ ∧ b₀.stage.bagFields ["Name", "Age"] = some ["Name"] ∧
      b.stage.columns = [⟨"Name", .field "group" .string⟩, ⟨"Total", .function "SUM" [.bagField "Age" .int64] .int64⟩] ∧
      b.stage.script.isOk = true :=
  ⟨_, _, rfl, rfl, rfl, rfl, rfl⟩

end PigChain
