import PigChain.Proofs.BoundNodes
import PigChain.Proofs.Emission
import PigChain.Proofs.Fields
import PigChain.Proofs.Shape

/-!
# The stages of scalars

A chain inside a lambda that yields no relation becomes a scalar if its stage is one field wide. The width is that of the
columns of a projected stage, and else that of the row type; it does not ask whether the stage is grouped. The field
is read by the name of the first column, which for a stage that passes rows through is the first field that one of
its clauses refers to. How far this goes with the rows that the stage leaves is said here for every scalar in the graph of
a bound chain.
-/

namespace PigChain

variable {nested : Expr → BindM Stage} {element : DataType} {s s' t : Stage} {e : Expr}

/-! ### Stages that pass rows through -/

/-- A stage that passes the rows of a source of type `element` through, by itself or over another such stage. -/
inductive Stage.Passes (element : DataType) : Stage → Prop where
  | base {s : Stage} {name : String} (hp : s.projected = false) (hg : s.grouping = none) (hs : s.source = .base name)
    (he : s.element = element) : Stage.Passes element s
  | inner {s inner : Stage} (hp : s.projected = false) (hg : s.grouping = none) (hs : s.source = .stage inner)
    (he : s.element = element) (h : Stage.Passes element inner) : Stage.Passes element s

namespace Stage.Passes

theorem congr (h : s.Passes element) (hsource : s'.source = s.source) (hprojected : s'.projected = s.projected)
    (hgrouping : s'.grouping = s.grouping) (helement : s'.element = s.element) : s'.Passes element := by
  cases h with
  | base hp hg hs he => exact .base (hprojected.trans hp) (hgrouping.trans hg) (hsource.trans hs) (helement.trans he)
  | inner hp hg hs he h =>
    exact .inner (hprojected.trans hp) (hgrouping.trans hg) (hsource.trans hs) (helement.trans he) h

/-- The rows have the fields of the source. -/
theorem arity_eq (h : s.Passes element) : s.arity = element.fieldNames.length := by
  induction h with
  | base hp hg hs he =>
    rw [Stage.arity_eq, hp, hg, hs, he]
    cases element with
    | record name fields => simp [Source.arity, DataType.fieldNames]
    | _ => simp [Source.arity, DataType.fieldNames]
  | inner hp hg hs he _ ih =>
    rw [Stage.arity_eq, hp, hg, hs, Source.arity]
    exact ih

theorem fields_eq (h : s.Passes element) (base : List String) : s.fields base = base := by
  induction h with
  | base hp hg hs he =>
    rw [Stage.fields_of_ungrouped hg, Stage.generated, hp, hs, Source.fields]
    rfl
  | inner hp hg hs he _ ih =>
    rw [Stage.fields_of_ungrouped hg, Stage.generated, hp, hs, Source.fields]
    exact ih

end Stage.Passes

theorem Stage.source_refill (s : Stage) (cs : List Expr) :
    (s.refill cs).source = s.source.refill (cs.take s.source.exprs.length) := by
  obtain ⟨_, _, _, _, _, _, _, _, _⟩ := s
  rw [Stage.refill]

theorem Stage.isSome_grouping_refill (s : Stage) (cs : List Expr) :
    (s.refill cs).grouping.isSome = s.grouping.isSome := by
  obtain ⟨_, _, _, _, grouping, _, _, _, _⟩ := s
  rw [Stage.refill]
  rcases grouping with _ | _ | _ <;> rfl

theorem Stage.grouping_refill_eq_none (h : s.grouping = none) (cs : List Expr) : (s.refill cs).grouping = none := by
  have hsome := s.isSome_grouping_refill cs
  rw [h] at hsome
  exact Option.not_isSome_iff_eq_none.mp (by rw [hsome]; exact Bool.false_ne_true)

theorem Stage.Passes.refill (h : s.Passes element) (cs : List Expr) : (s.refill cs).Passes element := by
  induction h generalizing cs with
  | @base s name hp hg hs he =>
    have hsource : (s.refill cs).source = .base name := by rw [s.source_refill, hs, Source.refill]
    exact .base ((s.projected_refill cs).trans hp) (Stage.grouping_refill_eq_none hg cs) hsource
      ((s.element_refill cs).trans he)
  | @inner s inner hp hg hs he _ ih =>
    have hsource : (s.refill cs).source = .stage (inner.refill (cs.take s.source.exprs.length)) := by
      rw [s.source_refill, hs, Source.refill]
    exact .inner ((s.projected_refill cs).trans hp) (Stage.grouping_refill_eq_none hg cs) hsource
      ((s.element_refill cs).trans he) (ih _)

/-! ### Stages of chains -/

/-- The columns of a stage that passes records through are fields of the records. -/
def Stage.NotesFields (s : Stage) : Prop :=
  s.projected = false → ∀ record fields, s.element = .record record fields →
    ∀ c ∈ s.columns, c.name ∈ fields.map Field.name

/-- What chains keep true of their stages: the rows of a grouped stage are groups, and a stage that is neither projected nor
grouped passes rows through if these are no groups. -/
structure Stage.Rooted (s : Stage) : Prop where
  grouped : s.grouping.isSome = true → s.element.isGrouping = true
  passes : s.projected = false → s.grouping = none → s.element.isGrouping = false → s.Passes s.element
  notes : s.NotesFields

namespace Stage.Rooted

theorem base (name : String) (element : DataType) : (Stage.base name element).Rooted where
  grouped h := by cases h
  passes _ _ _ := .base rfl rfl rfl rfl
  notes _ _ _ _ c hc := by cases hc

theorem congr (hs : s.Rooted) (hsource : s'.source = s.source) (hprojected : s'.projected = s.projected)
    (hgrouping : s'.grouping = s.grouping) (helement : s'.element = s.element) (hnotes : s'.NotesFields) :
    s'.Rooted where
  grouped h := helement ▸ hs.grouped (hgrouping ▸ h)
  passes hp hg he := by
    have hpasses := hs.passes (hprojected ▸ hp) (hgrouping ▸ hg) (helement ▸ he)
    rw [helement]
    exact hpasses.congr hsource hprojected hgrouping helement
  notes := hnotes

theorem of_projected (hp : s.projected = true) (hg : s.grouping = none) : s.Rooted where
  grouped h := by rw [hg] at h; cases h
  passes h := by rw [hp] at h; cases h
  notes h := by rw [hp] at h; cases h

theorem wrapped (hs : s.Rooted) : s.wrapped.Rooted := by
  cases hpass : s.projected && s.grouping.isNone with
  | true =>
    rw [Bool.and_eq_true, Option.isNone_iff_eq_none] at hpass
    refine .of_projected ?_ s.wrapped_grouping
    rw [Stage.wrapped_of_projected hpass.1 hpass.2]
  | false =>
    rw [Stage.wrapped_of_passing hpass]
    refine ⟨fun h => by (cases h), fun _ _ he => ?_, fun _ _ _ _ c hc => by (cases hc)⟩
    -- a grouped stage has groups for rows, so a stage over it does not get here
    have hg : s.grouping = none := by
      rw [← Option.not_isSome_iff_eq_none]
      intro hsome
      rw [show (Stage.after s).element = s.element from rfl, hs.grouped hsome] at he
      cases he
    have hp : s.projected = false := by
      rw [hg] at hpass
      simpa using hpass
    exact .inner rfl rfl rfl rfl (hs.passes hp hg he)

theorem openIf (hs : s.Rooted) (closed : Bool) : (s.openIf closed).Rooted := by
  cases closed with
  | true => exact hs.wrapped
  | false => exact hs

theorem take (hs : s.Rooted) (count : UInt64) : (s.take count).Rooted := hs.congr rfl rfl rfl rfl hs.notes

theorem addFilter (hs : s.Rooted) (predicate : Expr) : (s.addFilter predicate).Rooted :=
  hs.congr rfl rfl rfl rfl hs.notes

theorem noteColumns (hs : s.Rooted) {noted : List Column} (h : ∀ c ∈ noted, s.Noting c) :
    (s.noteColumns noted).Rooted := by
  obtain ⟨added, hadded, heq⟩ := s.noteColumns_eq noted
  rw [heq]
  refine hs.congr rfl rfl rfl rfl fun hp record fields he c hc => ?_
  rcases List.mem_append.mp hc with hc | hc
  · exact hs.notes hp record fields he c hc
  · obtain ⟨declared, x, hx, -⟩ := h c (hadded c hc)
    obtain ⟨f, hf, -⟩ := fieldColumn_eq_ok_of_record (s := s) hp he hx
    have hname : f.name = c.name := by simpa using List.find?_some hf
    exact hname ▸ List.mem_map_of_mem (List.mem_of_find?_eq_some hf)

end Stage.Rooted

theorem bindFilter_rooted {predicate : Expr} (hs : s.Rooted) (hp : predicate.Stageless)
    (h : (bindFilter nested s predicate).outcome = .ok s') : s'.Rooted := by
  obtain ⟨p, body, bound, rfl, hbound, hmerge⟩ := bindFilter_eq_ok h
  have hopen : s.toFilter.Rooted := hs.openIf _
  rcases mergeFilter_eq_ok hmerge with ⟨-, rfl⟩ | ⟨-, -, e, -, rfl⟩ | ⟨-, -, rfl⟩
  · exact (hopen.noteColumns (bindBody_noted hp.body hbound)).addFilter _
  · exact hopen.addFilter e
  · exact hopen.wrapped.congr rfl rfl rfl rfl hopen.wrapped.notes

theorem bindSelect_rooted {selector : Expr} {declared : DataType} (hs : s.Rooted)
    (h : (bindSelect nested s selector declared).outcome = .ok s') : s'.Rooted := by
  obtain ⟨p, body, rfl, hmade⟩ := bindSelect_eq_ok h
  rcases hmade with ⟨-, rfl⟩ | ⟨-, columns, element, projector, composed, s₁, -, -, -, hmerge, rfl⟩
  · exact hs
  · refine .of_projected rfl ?_
    rcases mergeColumns_eq_ok hmerge with ⟨-, rfl⟩ | ⟨-, rfl⟩
    · exact s.toSelect_grouping
    · exact s.toSelect.wrapped_grouping

theorem bindOrder_rooted {key : Expr} {direction : Direction} {after : Bool} (hs : s.Rooted) (hx : key.Stageless)
    (h : (bindOrder nested s key direction after).outcome = .ok s') : s'.Rooted := by
  obtain ⟨p, body, bound, rfl, hbound, -, rfl⟩ := bindOrder_eq_ok h
  have hopen : s.toOrder.Rooted := hs.openIf _
  have hkept : (if s.toOrder.projected then s.toOrder else s.toOrder.noteColumns bound.noted).Rooted := by
    split
    · exact hopen
    · exact hopen.noteColumns (bindBody_noted hx.body hbound)
  exact hkept.congr rfl rfl rfl rfl hkept.notes

theorem bindGroup_rooted {selector : Expr} {declared : DataType}
    (h : (bindGroup nested s selector declared).outcome = .ok s') : s'.Rooted := by
  obtain ⟨p, body, keys, rfl, -, rfl⟩ := bindGroup_eq_ok h
  exact ⟨fun _ => rfl, fun _ hg => by (cases hg), fun _ _ _ he => by (cases he)⟩

theorem bindAggregate_rooted {method function : String} {arg : Option Expr} {declared : DataType}
    (h : (bindAggregate nested s method function arg declared).outcome = .ok s') : s'.Rooted := by
  obtain ⟨s₁, bag, -, rfl⟩ := bindAggregate_eq_ok h
  exact .of_projected rfl (Stage.wrapped_grouping _)

theorem stageInvariant_rooted : StageInvariant nested Stage.Rooted where
  base := .base
  step hs harg h := by
    cases h with
    | filter h => exact bindFilter_rooted hs (harg _ rfl) h
    | select h => exact bindSelect_rooted hs h
    | group declared _ h => exact bindGroup_rooted h
    | take _ => exact hs.take _
    | first => exact hs.take 1
    | firstWhere h => exact (bindFilter_rooted hs (harg _ rfl) h).take 1
    | order _ h => exact bindOrder_rooted hs (harg _ rfl) h
    | aggregate _ h => exact bindAggregate_rooted h

/-! ### Stages of scalars -/

theorem Stage.isGrouping_of_width (hp : s.projected = false) (hw : s.width = 1) : s.element.isGrouping = false := by
  rw [Stage.width, hp] at hw
  cases he : s.element with
  | grouping key element =>
    rw [he] at hw
    cases hw
  | _ => rfl

theorem Stage.width_of_passing (hp : s.projected = false) (hg : s.element.isGrouping = false) :
    s.width = s.element.fieldNames.length := by
  rw [Stage.width, hp]
  cases he : s.element with
  | record name fields => exact (List.length_map _).symm
  | grouping key element =>
    rw [he] at hg
    cases hg
  | _ => rfl

/-- A stage that was found one field wide: it may be grouped only over a column of its own. -/
structure Stage.Single (s : Stage) : Prop where
  width : s.width = 1
  grouped : s.grouping.isSome = true → s.projected = true
  passes : s.projected = false → s.Passes s.element
  notes : s.NotesFields

theorem Stage.Rooted.single (hs : s.Rooted) (hw : s.width = 1) : s.Single := by
  have hgrouped : s.grouping.isSome = true → s.projected = true := by
    intro hg
    cases hp : s.projected with
    | true => rfl
    | false =>
      have hrows := hs.grouped hg
      rw [Stage.isGrouping_of_width hp hw] at hrows
      cases hrows
  refine ⟨hw, hgrouped, fun hp => hs.passes hp ?_ (Stage.isGrouping_of_width hp hw), hs.notes⟩
  rw [← Option.not_isSome_iff_eq_none]
  intro hg
  rw [hgrouped hg] at hp
  cases hp

namespace Stage.Single

theorem refill (hs : s.Single) {cs : List Expr} (hl : cs.length = s.exprs.length) : (s.refill cs).Single := by
  refine ⟨(s.width_refill hl).trans hs.width, fun hg => ?_, fun hp => ?_, fun hp record fields he c hc => ?_⟩
  · rw [s.isSome_grouping_refill] at hg
    exact (s.projected_refill cs).trans (hs.grouped hg)
  · rw [s.projected_refill] at hp
    rw [s.element_refill]
    exact (hs.passes hp).refill cs
  · have hname : c.name ∈ Column.names s.columns := s.names_refill hl ▸ List.mem_map_of_mem hc
    obtain ⟨d, hd, heq⟩ := List.mem_map.mp hname
    rw [s.projected_refill] at hp
    rw [s.element_refill] at he
    exact heq ▸ hs.notes hp record fields he d hd

theorem arity_eq_one (hs : s.Single) (hg : s.grouping = none) : s.arity = 1 := by
  have hw := hs.width
  cases hp : s.projected with
  | true =>
    rw [Stage.width, if_pos hp] at hw
    rw [Stage.arity_eq, hg, hp]
    exact hw
  | false =>
    rw [(hs.passes hp).arity_eq, ← Stage.width_of_passing hp (Stage.isGrouping_of_width hp hw)]
    exact hw

theorem columns_eq_singleton (hs : s.Single) (hp : s.projected = true) : ∃ c, s.columns = [c] := by
  have hw := hs.width
  rw [Stage.width, if_pos hp] at hw
  exact List.length_eq_one_iff.mp hw

end Stage.Single

/-- The stage of a scalar was found one field wide. -/
def Expr.HasSingle (e : Expr) : Prop := ∀ t type, e = .scalar t type → t.Single

theorem nodeInvariant_hasSingle : NodeInvariant Expr.HasSingle where
  plain h := by
    rintro t type rfl
    cases h
  keeps e cs hl h := by
    intro t type heq
    cases e with
    | scalar u utype =>
      cases heq
      exact (h u type rfl).refill hl
    | _ => cases heq

theorem bound_scalar_single {chain : Expr} {b : Bound} {type : DataType} (hc : chain.Stageless)
    (h : chain.bound.outcome = .ok b) (ht : b.stage.Contains (.scalar t type)) : t.Single := by
  have hheld : ∀ (t : Stage) (type : DataType), t.Rooted →
      (Expr.subquery t type).HasSingle ∧ (t.width = 1 → (Expr.scalar t type).HasSingle) := by
    intro t type ht
    constructor
    · intro u utype heq
      cases heq
    · intro hw u utype heq
      cases heq
      exact ht.single hw
  have hconsists :=
    (bindNested_consists nodeInvariant_hasSingle (fun _ => stageInvariant_rooted) hheld nestingLimit hc h).2
  exact hconsists.contains ht t type rfl

/-! ### Limits on an age -/

/-- Everyone who is older than a value that another chain yields. -/
def olderThan (value : Expr) : Expr :=
  .call none "Where"
    [.source "people" personType,
      .function1 "p" personType (.binary .greaterThan (person.get "Age") value .bool)]
    (.query personType)

def limitType : DataType := .record "Limit" [⟨"Only", .int64, false⟩]

/-- The first limit above zero, as a row of one field. -/
def positiveLimit : Expr :=
  .call none "First"
    [.source "limits" limitType,
      .function1 "l" limitType
        (.binary .greaterThan (.get (.parameter "l" limitType) "Only") (.constant (.int 0) .int64) .bool)]
    limitType

/-- The first limit, whatever it is. -/
def firstLimit : Expr := .call none "First" [.source "limits" limitType] limitType

/-- The first group of people of one age. -/
def firstAge : Expr :=
  .call none "First"
    [.call none "GroupBy"
      [.call none "Select" [.source "people" personType, .function1 "p" personType (person.get "Age")] (.query .int64),
        .function1 "a" .int64 (.parameter "a" .int64)]
      (.query (.grouping .int64 .int64))]
    (.grouping .int64 .int64)

/-- None of the three chains has a stage in it. -/
theorem stageless_olderThan : (olderThan positiveLimit).Stageless ∧ (olderThan firstLimit).Stageless ∧
    (olderThan firstAge).Stageless := by
  refine ⟨?_, ?_, ?_⟩
  all_goals repeat' first
    | exact List.forall_mem_nil _
    | refine List.forall_mem_cons.mpr ⟨?_, ?_⟩
    | refine Expr.throughout_iff.mpr ⟨rfl, ?_⟩

theorem contains_second_operand {b : Bound} {op : BinaryOp} {x y : Expr} {type : DataType}
    (h : b.stage.filter = some (.binary op x y type)) : b.stage.Contains y := by
  refine ⟨_, Stage.mem_exprs.mpr (.inr (.inl h)), .child ?_ .self⟩
  simp [Expr.children]

/-! ### Fields that scalars leave -/

/-- Every scalar in the graph of a bound chain stands for a stage that was found one field wide. The stage leaves one field
exactly if it is not grouped; a grouped one groups a column of its own, and leaves the key and the bag. -/
theorem scalar_leaves_one_field_iff_ungrouped {chain : Expr} {b : Bound} {type : DataType}
    (hc : ∀ y, Expr.Occurs y chain → y.holdsStage = false) (h : chain.bound.outcome = .ok b)
    (ht : b.stage.Contains (.scalar t type)) :
    t.width = 1 ∧ (t.arity = 1 ↔ t.grouping = none) ∧
      (t.grouping.isSome = true → t.projected = true ∧ t.columns.length = 1 ∧ t.arity = 2) := by
  have hs := bound_scalar_single hc h ht
  have hgrouped : t.grouping.isSome = true → t.arity = 2 := by
    intro hg
    rw [Stage.arity_eq, if_pos hg]
  refine ⟨hs.width, ⟨fun harity => ?_, hs.arity_eq_one⟩, fun hg => ⟨hs.grouped hg, ?_, hgrouped hg⟩⟩
  · rw [← Option.not_isSome_iff_eq_none]
    intro hg
    rw [hgrouped hg] at harity
    cases harity
  · obtain ⟨c, hcolumns⟩ := hs.columns_eq_singleton (hs.grouped hg)
    rw [hcolumns]
    rfl

theorem scalar_leaves_one_field_iff_ungrouped_positiveLimit :
    (∀ y, Expr.Occurs y (olderThan positiveLimit) → y.holdsStage = false) ∧
      ∃ b t, (olderThan positiveLimit).bound.outcome = .ok b ∧ b.stage.Contains (.scalar t limitType) ∧
        t.grouping = none ∧ t.arity = 1 := by
  obtain ⟨b, t, hb, hfilter, hgrouping⟩ : ∃ b t, (olderThan positiveLimit).bound.outcome = .ok b ∧
      b.stage.filter = some (.binary .greaterThan (.field "Age" .int64) (.scalar t limitType) .bool) ∧
      t.grouping = none := ⟨_, _, rfl, rfl, rfl⟩
  have ht := contains_second_operand hfilter
  have hone := (scalar_leaves_one_field_iff_ungrouped stageless_olderThan.1 hb ht).2.1
  exact ⟨stageless_olderThan.1, b, t, hb, ht, hgrouping, hone.mpr hgrouping⟩

/-- The width of a grouped stage is that of its column, although it leaves a key and a bag: the scalar is bound, and
leaves two fields. -/
theorem scalar_leaves_two_fields :
    (∀ y, Expr.Occurs y (olderThan firstAge) → y.holdsStage = false) ∧
      ∃ b t type, (olderThan firstAge).bound.outcome = .ok b ∧ b.stage.Contains (.scalar t type) ∧
        t.width = 1 ∧ t.arity = 2 := by
  obtain ⟨b, t, hb, hfilter, hwidth, harity⟩ : ∃ b t, (olderThan firstAge).bound.outcome = .ok b ∧
      b.stage.filter = some (.binary .greaterThan (.field "Age" .int64) (.scalar t (.grouping .int64 .int64)) .bool) ∧
      t.width = 1 ∧ t.arity = 2 := ⟨_, _, rfl, rfl, rfl, rfl⟩
  exact ⟨stageless_olderThan.2.2, b, t, _, hb, contains_second_operand hfilter, hwidth, harity⟩

/-! ### Columns that scalars read -/

/-- The names of the fields that a stage leaves. Rows that pass through have the fields of their type. -/
def Stage.outputs (s : Stage) : List String := s.fields s.element.fieldNames

namespace Stage.Single

theorem outputs_of_projected (hs : s.Single) (hp : s.projected = true) (hg : s.grouping = none) :
    s.outputs = [s.scalarColumn] := by
  obtain ⟨c, hc⟩ := hs.columns_eq_singleton hp
  rw [Stage.outputs, Stage.fields_of_ungrouped hg, Stage.generated_of_projected hp, Stage.scalarColumn, hc]
  rfl

theorem outputs_of_passing (hs : s.Single) (hp : s.projected = false) : s.outputs = s.element.fieldNames :=
  (hs.passes hp).fields_eq _

/-- The record has one field, and what is noted is a field of the record. -/
theorem outputs_of_noted (hs : s.Single) (hp : s.projected = false) (hc : s.columns ≠ []) {record : String}
    {fields : List Field} (he : s.element = .record record fields) : s.outputs = [s.scalarColumn] := by
  have hlength : (fields.map Field.name).length = 1 := by
    have hw := hs.width
    rw [Stage.width_of_passing hp (Stage.isGrouping_of_width hp hw), he] at hw
    exact hw
  obtain ⟨name, hname⟩ := List.length_eq_one_iff.mp hlength
  obtain ⟨c, cs, hcolumns⟩ := List.exists_cons_of_ne_nil hc
  have hnoted := hs.notes hp record fields he c (hcolumns ▸ List.mem_cons_self)
  rw [hname, List.mem_singleton] at hnoted
  rw [hs.outputs_of_passing hp, he, DataType.fieldNames, hname, Stage.scalarColumn, hcolumns, ← hnoted]

end Stage.Single

theorem scalar_lower_eq_ok {type : DataType} {bag : Option Nat} {ss ss' : List Statement} {u : Term}
    (h : ((Expr.scalar t type).lower bag).run ss = .ok (u, ss')) :
    ∃ r, t.Leaves ss' r ∧ u = .single r t.scalarColumn := by
  rw [Expr.lower, StateT.run_bind] at h
  obtain ⟨⟨r, ss₁⟩, hr, h⟩ := except_do_eq_ok.mp h
  cases h
  have hlowers : ∀ x ∈ t.exprs, x.Lowers fun _ => True := fun x _ =>
    lowers_of_namesIn trivial fun y _ => ⟨fun _ _ _ _ => trivial, fun _ _ _ _ _ _ => trivial⟩
  obtain ⟨-, -, hstands⟩ := ensures_stage t hlowers (fun _ _ _ _ => trivial) ss r ss₁ hr
  exact ⟨r.number, hstands.laidOut.reaches, rfl⟩

theorem script_reads_scalar {script : Script} (h : s.script = .ok script) (ht : t.WrittenIn s) :
    ∃ r, t.Leaves script.statements r ∧
      ∃ st ∈ script.statements, (⟨some r, t.scalarColumn⟩ : Reference) ∈ st.references := by
  have hnames : ∀ x ∈ s.exprs, x.NamesIn fun _ => True := fun _ _ _ _ =>
    ⟨fun _ _ _ _ => trivial, fun _ _ _ _ _ _ => trivial⟩
  exact (script_fits trivial hnames (fun _ _ _ _ => trivial) h).2.reads ht

/-- An ungrouped scalar in the graph of a chain that is translated is written as a column of the relation that its stage
leaves, and the script reads it there wherever it stands in a clause. The column is the field of that relation if the
stage is projected, or passes records through and refers to their field. A stage that refers to no field of the rows it
passes through is read by the name `value`, whatever their field is. -/
theorem scalar_column_is_output {chain : Expr} {b : Bound} {script : Script} {type : DataType}
    (hc : ∀ y, Expr.Occurs y chain → y.holdsStage = false) (h : chain.bound.outcome = .ok b)
    (hscript : b.stage.script = .ok script) (ht : b.stage.Contains (.scalar t type)) (hg : t.grouping = none) :
    (∀ bag ss u ss', ((Expr.scalar t type).lower bag).run ss = .ok (u, ss') →
      ∃ r, t.Leaves ss' r ∧ u.render = Alias.name r ++ "." ++ t.scalarColumn) ∧
    (t.WrittenIn b.stage → ∃ r, t.Leaves script.statements r ∧
      ∃ st ∈ script.statements, (⟨some r, t.scalarColumn⟩ : Reference) ∈ st.references) ∧
    (t.projected = true → t.outputs = [t.scalarColumn]) ∧
    (t.projected = false → t.Passes t.element ∧ t.outputs = t.element.fieldNames ∧
      (t.columns ≠ [] → ∀ record fields, t.element = .record record fields → t.outputs = [t.scalarColumn]) ∧
      (t.columns = [] → t.scalarColumn = "value")) := by
  have hs := bound_scalar_single hc h ht
  refine ⟨fun bag ss u ss' hrun => ?_, script_reads_scalar hscript, fun hp => hs.outputs_of_projected hp hg,
    fun hp => ?_⟩
  · obtain ⟨r, hleaves, rfl⟩ := scalar_lower_eq_ok hrun
    exact ⟨r, hleaves, rfl⟩
  · refine ⟨hs.passes hp, hs.outputs_of_passing hp, fun hnoted record fields => hs.outputs_of_noted hp hnoted, ?_⟩
    intro hnone
    rw [Stage.scalarColumn, hnone]

theorem scalar_column_is_output_positiveLimit :
    (∀ y, Expr.Occurs y (olderThan positiveLimit) → y.holdsStage = false) ∧
      ∃ b t script, (olderThan positiveLimit).bound.outcome = .ok b ∧ b.stage.script = .ok script ∧
        b.stage.Contains (.scalar t limitType) ∧ t.grouping = none ∧ t.outputs = [t.scalarColumn] ∧
        ∃ r, t.Leaves script.statements r ∧
          ∃ st ∈ script.statements, (⟨some r, "Only"⟩ : Reference) ∈ st.references := by
  obtain ⟨b, t, script, hb, hscript, hfilter, hgrouping, hprojected, hcolumns, helement⟩ :
      ∃ b t script, (olderThan positiveLimit).bound.outcome = .ok b ∧ b.stage.script = .ok script ∧
        b.stage.filter = some (.binary .greaterThan (.field "Age" .int64) (.scalar t limitType) .bool) ∧
        t.grouping = none ∧ t.projected = false ∧ t.columns = [⟨"Only", .field "Only" .int64⟩] ∧
        t.element = limitType := ⟨_, _, _, rfl, rfl, rfl, rfl, rfl, rfl, rfl⟩
  have ht := contains_second_operand hfilter
  obtain ⟨-, hread, -, hpassing⟩ := scalar_column_is_output stageless_olderThan.1 hb hscript ht hgrouping
  have hnoted : t.columns ≠ [] := by
    rw [hcolumns]
    exact List.cons_ne_nil _ _
  have hwritten : t.WrittenIn b.stage := by
    have hstep := List.mem_map_of_mem (f := fun x => (⟨.filter, [x]⟩ : Step)) (Option.mem_toList.mpr hfilter)
    have hhas : Expr.Has (.scalar t limitType)
        (.binary .greaterThan (.field "Age" .int64) (.scalar t limitType) .bool) :=
      .child rfl (by simp [Expr.children]) .self
    exact .clause (List.mem_append_left _ hstep) (List.mem_singleton_self _) hhas
  have hcolumn : t.scalarColumn = "Only" := by rw [Stage.scalarColumn, hcolumns]
  refine ⟨stageless_olderThan.1, b, t, script, hb, hscript, ht, hgrouping,
    (hpassing hprojected).2.2.1 hnoted _ _ helement, ?_⟩
  rw [← hcolumn]
  exact hread hwritten

/-- No field of the rows is referred to, so the scalar is read by a name that none of them has. -/
theorem scalar_column_is_no_output :
    (∀ y, Expr.Occurs y (olderThan firstLimit) → y.holdsStage = false) ∧
      ∃ b t type, (olderThan firstLimit).bound.outcome = .ok b ∧ b.stage.script.isOk = true ∧
        b.stage.Contains (.scalar t type) ∧ t.grouping = none ∧ t.outputs = ["Only"] ∧ t.scalarColumn = "value" := by
  obtain ⟨b, t, hb, hscript, hfilter, hgrouping, houtputs, hcolumn⟩ :
      ∃ b t, (olderThan firstLimit).bound.outcome = .ok b ∧ b.stage.script.isOk = true ∧
        b.stage.filter = some (.binary .greaterThan (.field "Age" .int64) (.scalar t limitType) .bool) ∧
        t.grouping = none ∧ t.outputs = ["Only"] ∧ t.scalarColumn = "value" :=
    ⟨_, _, rfl, rfl, rfl, rfl, rfl, rfl⟩
  exact ⟨stageless_olderThan.2.1, b, t, _, hb, hscript, contains_second_operand hfilter, hgrouping, houtputs, hcolumn⟩

end PigChain
