import PigChain.Proofs.Regular

/-!
# The fields of a relation

A stage makes relations one after another: of its input the filter keeps rows, the columns make new ones, the grouping
gathers them. The fields of each are known by name, given those of the source. A row of a grouped relation has its key,
under the name `group`, and a bag; the bag stays in scope as long as rows pass through, until columns are made.
-/

namespace PigChain

mutual

/-- The fields of the rows that a stage outputs, over a source with the fields `base`. -/
def Stage.fields (base : List String) : Stage → List String
  | ⟨source, _, columns, projected, grouping, _, _, _, _⟩ =>
    if grouping.isSome then ["group"] else if projected then Column.names columns else source.fields base

def Source.fields (base : List String) : Source → List String
  | .base _ => base
  | .stage inner => inner.fields base

end

mutual

/-- Whether the rows that a stage outputs have a bag. -/
def Stage.hasBag : Stage → Bool
  | ⟨source, _, _, projected, grouping, _, _, _, _⟩ => grouping.isSome || (!projected && source.hasBag)

def Source.hasBag : Source → Bool
  | .base _ => false
  | .stage inner => inner.hasBag

end

/-- The fields of the rows of a type. Rows that are no records have one field, which goes by its position. -/
def DataType.fieldNames : DataType → List String
  | .record _ fields => fields.map Field.name
  | _ => [positional]

/-- The fields of the source that a chain reads. -/
def Expr.sourceFields : Expr → List String
  | .constant _ type => (type.element?.map DataType.fieldNames).getD []
  | .call none _ (chain :: _) _ => chain.sourceFields
  | _ => []

/-- The stage of a chain inside a lambda of an outermost chain. -/
def nestedStage (chain : Expr) : BindM Stage := do
  pure (← bindNested (nestingLimit - 1) chain).stage

namespace Stage

variable {base : List String} {s : Stage}

/-- The fields after the columns of a stage and before its grouping. -/
def generated (base : List String) (s : Stage) : List String :=
  if s.projected then Column.names s.columns else s.source.fields base

/-- Whether there is a bag after the columns of a stage and before its grouping. -/
def passesBag (s : Stage) : Bool := !s.projected && s.source.hasBag

theorem fields_eq : s.fields base = if s.grouping.isSome then ["group"] else s.generated base := by
  obtain ⟨_, _, _, _, _, _, _, _, _⟩ := s
  rw [fields]
  rfl

theorem hasBag_eq : s.hasBag = (s.grouping.isSome || s.passesBag) := by
  obtain ⟨_, _, _, _, _, _, _, _, _⟩ := s
  rw [hasBag]
  rfl

theorem fields_of_grouped (h : s.grouping.isSome = true) : s.fields base = ["group"] := by
  rw [fields_eq, if_pos h]

theorem fields_of_ungrouped (h : s.grouping = none) : s.fields base = s.generated base := by
  rw [fields_eq, h]
  rfl

theorem hasBag_of_grouped (h : s.grouping.isSome = true) : s.hasBag = true := by
  rw [hasBag_eq, h, Bool.true_or]

theorem hasBag_of_ungrouped (h : s.grouping = none) : s.hasBag = s.passesBag := by
  rw [hasBag_eq, h]
  rfl

theorem generated_of_projected (h : s.projected = true) : s.generated base = Column.names s.columns := if_pos h

theorem generated_of_passing (h : s.projected = false) : s.generated base = s.source.fields base := by
  rw [generated, h]
  rfl

/-- A new stage over a stage outputs the same fields. -/
theorem generated_wrapped : s.wrapped.generated base = s.fields base := by
  cases hc : s.projected && s.grouping.isNone with
  | true =>
    rw [Bool.and_eq_true, Option.isNone_iff_eq_none] at hc
    rw [wrapped_of_projected hc.1 hc.2, fields_of_ungrouped hc.2, generated_of_projected hc.1]
    exact names_redeclared s.columns
  | false =>
    rw [wrapped_of_passing hc]
    rfl

theorem fields_wrapped : s.wrapped.fields base = s.fields base := by
  rw [fields_of_ungrouped s.wrapped_grouping, generated_wrapped]

theorem hasBag_wrapped : s.wrapped.hasBag = s.hasBag := by
  rw [hasBag_of_ungrouped s.wrapped_grouping]
  cases hc : s.projected && s.grouping.isNone with
  | true =>
    rw [Bool.and_eq_true, Option.isNone_iff_eq_none] at hc
    rw [wrapped_of_projected hc.1 hc.2, hasBag_of_ungrouped hc.2, passesBag, passesBag, hc.1]
    rfl
  | false =>
    rw [wrapped_of_passing hc]
    rfl

theorem fields_openIf (closed : Bool) : (s.openIf closed).fields base = s.fields base := by
  cases closed with
  | true => exact fields_wrapped
  | false => rfl

theorem hasBag_openIf (closed : Bool) : (s.openIf closed).hasBag = s.hasBag := by
  cases closed with
  | true => exact hasBag_wrapped
  | false => rfl

end Stage

end PigChain
