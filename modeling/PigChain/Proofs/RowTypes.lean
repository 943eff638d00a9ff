import PigChain.Proofs.Outcome

/-!
# What is read of a row, and its type

A reference to the row is a column of the stage's output: the field of a value, a key, a declared column or a field of
the row type. Its type comes from the row type or from the definition of the column. If no group occurs in these, none
occurs in the types of what is read.
-/

namespace PigChain

/-! ### Types without groups -/

mutual

/-- Types whose values are no groups and have no groups in their fields. -/
def DataType.groupFree : DataType → Bool
  | .grouping _ _ => false
  | .record _ fields => DataType.groupFreeFields fields
  | _ => true

def DataType.groupFreeFields : List Field → Bool
  | [] => true
  | ⟨_, t, _⟩ :: fields => t.groupFree && DataType.groupFreeFields fields

end

theorem DataType.groupFree_record {name : String} {fields : List Field} :
    (DataType.record name fields).groupFree = true ↔ ∀ f ∈ fields, f.type.groupFree = true := by
  rw [groupFree]
  induction fields with
  | nil => simp [groupFreeFields]
  | cons f fields ih =>
    obtain ⟨n, t, nullable⟩ := f
    simp [groupFreeFields, ih]

theorem DataType.groupFree_of_isPrimitive {t : DataType} (h : t.isPrimitive = true) : t.groupFree = true := by
  cases t <;> first | rfl | cases h

theorem DataType.isGrouping_of_groupFree {t : DataType} (h : t.groupFree = true) : t.isGrouping = false := by
  cases t with
  | grouping key element => cases h
  | _ => rfl

/-- The type of a row: without groups, or a group of such rows under a key without groups. -/
def DataType.isRowType : DataType → Bool
  | .grouping key element => key.groupFree && element.isRowType
  | t => t.groupFree

theorem DataType.isRowType_of_groupFree {t : DataType} (h : t.groupFree = true) : t.isRowType = true := by
  cases t with
  | grouping key element => cases h
  | _ => exact h

theorem DataType.groupFree_field {t : DataType} {fields : List Field} {name : String} {f : Field}
    (h : t.isRowType = true) (hf : t.fields? = some fields) (hn : Field.find? fields name = some f) :
    f.type.groupFree = true := by
  cases t with
  | record record fs =>
    cases hf
    exact DataType.groupFree_record.mp h f (List.mem_of_find?_eq_some hn)
  | _ => cases hf

/-! ### Columns of the row -/

variable {s : Stage} {e : Expr}

theorem rowColumn_eq_ok (h : rowColumn s = .ok e) :
    (s.isValue = true ∧ ∃ c rest, s.columns = c :: rest ∧ e = .column c.name .row c.expr.type) ∨
      (s.isPrimitive = true ∧ e = .column positional .row s.element) := by
  unfold rowColumn at h
  split at h
  · next hv =>
    split at h
    · next c rest hcols =>
      cases h
      exact .inl ⟨hv, c, rest, hcols, rfl⟩
    · cases h
  · split at h
    · next hp =>
      cases h
      exact .inr ⟨hp, rfl⟩
    · cases h

theorem fieldColumn_eq_ok {name : String} {declared : DataType} (h : fieldColumn s name declared = .ok e) :
    (∃ key element, s.element = .grouping key element ∧ e = .column "group" .row key) ∨
      (s.projected = true ∧ ∃ c, s.column? name = some c ∧ e = .column name .row c.expr.type) ∨
      (s.projected = false ∧ ∃ fields f, s.element.fields? = some fields ∧ Field.find? fields name = some f ∧
        e = .column name .row f.type) ∨
      (s.projected = false ∧ s.element.isGrouping = false ∧ s.element.fields? = none ∧
        e = .column name .row declared) := by
  unfold fieldColumn at h
  split at h
  · next key element he =>
    split at h
    · cases h
      exact .inl ⟨key, element, he, rfl⟩
    · cases h
  · next hnot =>
    have hgroup : s.element.isGrouping = false := by
      cases he : s.element with
      | grouping key element => exact absurd he (hnot key element)
      | _ => rfl
    cases hp : s.projected with
    | true =>
      rw [if_pos hp] at h
      split at h
      · next c hc =>
        cases h
        exact .inr (.inl ⟨rfl, c, hc, rfl⟩)
      · cases h
    | false =>
      rw [if_neg (by rw [hp]; exact Bool.false_ne_true)] at h
      refine .inr (.inr ?_)
      cases he : s.element with
      | record record fields =>
        rw [he] at h
        dsimp only at h
        split at h
        · next f hf =>
          split at h
          · cases h
            exact .inl ⟨rfl, fields, f, rfl, hf, rfl⟩
          · cases h
        · cases h
      | grouping key element => exact absurd he (hnot key element)
      | _ =>
        rw [he] at h
        cases h
        exact .inr ⟨rfl, rfl, rfl, rfl⟩

theorem selectedBagField_eq_ok {element : DataType} {selector : Expr} (h : selectedBagField element selector = .ok e) :
    ∃ fields name f, element.fields? = some fields ∧ Field.find? fields name = some f ∧
      e = .column name .group f.type := by
  unfold selectedBagField at h
  obtain ⟨⟨p, body⟩, -, h⟩ := except_do_eq_ok.mp h
  dsimp only at h
  split at h
  · next owner name type =>
    split at h
    · split at h
      · next f hf =>
        obtain ⟨fields, hfields, hfind⟩ := Option.bind_eq_some_iff.mp hf
        cases h
        exact ⟨fields, name, f, hfields, hfind, rfl⟩
      · cases h
    · cases h
  · cases h

/-- An aggregate over a group: a count of its rows, or a function of a field of them. -/
theorem groupAggregate_eq_ok {method : String} {args : List Expr} {declared : DataType}
    (h : groupAggregate s method args declared = .ok e) :
    ∃ function key element name type, s.element = .grouping key element ∧
      (method = "Count" ∨ ∃ fields f, element.fields? = some fields ∧ Field.find? fields name = some f ∧
        type = f.type) ∧
      e = .call none function [.column name .group type] (aggregateType method declared type) := by
  unfold groupAggregate at h
  split at h
  · cases h
  · next function key element _ he =>
    cases args with
    | cons selector rest =>
      obtain ⟨bag, hbag, h⟩ := except_do_eq_ok.mp h
      cases h
      obtain ⟨fields, name, f, hfields, hfind, rfl⟩ := selectedBagField_eq_ok hbag
      exact ⟨function, key, element, name, f.type, he, .inr ⟨fields, f, hfields, hfind, rfl⟩, rfl⟩
    | nil =>
      dsimp only at h
      split at h
      · next hcount =>
        cases h
        exact ⟨function, key, element, "", .unknown, he, .inl hcount, rfl⟩
      · cases h
  · cases h

/-! ### Their types -/

/-- Groups occur in the types of a stage only if it outputs groups. -/
structure Stage.Typed (s : Stage) : Prop where
  element : s.element.isRowType = true
  ungrouped : s.projected = true → s.grouping = none → s.element.groupFree = true
  types : s.projected = true → ∀ c ∈ s.columns, c.expr.type.groupFree = true

theorem isValue_projected (h : s.isValue = true) : s.projected = true := by
  cases hp : s.projected with
  | true => rfl
  | false => rw [Stage.isValue, hp] at h; cases h

theorem isPrimitive_element (h : s.isPrimitive = true) : s.projected = false ∧ s.element.groupFree = true := by
  unfold Stage.isPrimitive at h
  simp only [Bool.and_eq_true, Bool.not_eq_true'] at h
  exact ⟨h.1.1, DataType.groupFree_of_isPrimitive h.2⟩

theorem rowColumn_groupFree (hs : s.Typed) (h : rowColumn s = .ok e) : e.type.groupFree = true := by
  rcases rowColumn_eq_ok h with ⟨hv, c, rest, hcols, rfl⟩ | ⟨hp, rfl⟩
  · exact hs.types (isValue_projected hv) c (by rw [hcols]; exact List.mem_cons_self)
  · exact (isPrimitive_element hp).2

/-- Only the type of a field that is not declared anywhere is that of the reference. -/
theorem fieldColumn_groupFree {name : String} {declared : DataType} (hs : s.Typed)
    (hd : s.passesRows = true → s.element.fields? = none → declared.groupFree = true)
    (h : fieldColumn s name declared = .ok e) : e.type.groupFree = true := by
  have helem := hs.element
  rcases fieldColumn_eq_ok h with ⟨key, element, he, rfl⟩ | ⟨hp, c, hc, rfl⟩ | ⟨-, fields, f, hfields, hf, rfl⟩ |
    ⟨hp, hg, hfields, rfl⟩
  · rw [he, DataType.isRowType, Bool.and_eq_true] at helem
    exact helem.1
  · exact hs.types hp c (List.mem_of_find?_eq_some hc)
  · exact DataType.groupFree_field helem hfields hf
  · exact hd (by rw [Stage.passesRows, hp, hg]; rfl) hfields

theorem aggregateType_groupFree {method : String} {declared column : DataType}
    (hd : declared.groupFree = true) (hc : method ≠ "Count" → column.groupFree = true) :
    (aggregateType method declared column).groupFree = true := by
  unfold aggregateType
  split
  · rfl
  · next hcount =>
    split
    · rfl
    · split
      · exact hc hcount
      · exact hd

theorem groupAggregate_groupFree {method : String} {args : List Expr} {declared : DataType} (hs : s.Typed)
    (hd : declared.groupFree = true) (h : groupAggregate s method args declared = .ok e) :
    e.type.groupFree = true := by
  obtain ⟨function, key, element, name, type, he, htype, rfl⟩ := groupAggregate_eq_ok h
  have helem := hs.element
  rw [he, DataType.isRowType, Bool.and_eq_true] at helem
  refine aggregateType_groupFree hd fun hcount => ?_
  rcases htype with hm | ⟨fields, f, hfields, hfind, rfl⟩
  · exact absurd hm hcount
  · exact DataType.groupFree_field helem.2 hfields hfind

theorem aggregatedField_groupFree {method : String} (hs : s.Typed) (h : aggregatedField s method = .ok e) :
    ∃ name t, e = .column name .group t ∧ t.groupFree = true := by
  unfold aggregatedField at h
  split at h
  · next hp =>
    rw [Bool.and_eq_true] at hp
    split at h
    · next c hcols =>
      cases h
      exact ⟨c.name, c.expr.type, rfl, hs.types hp.1 c (by rw [hcols]; exact List.mem_singleton_self c)⟩
    · cases h
  · split at h
    · next hprim =>
      cases h
      exact ⟨positional, s.element, rfl, (isPrimitive_element hprim).2⟩
    · cases h

theorem projectionShape_groupFree {columns : List Column} {declared element : DataType} {projector : Projector}
    (hd : declared.groupFree = true) (hc : ∀ c ∈ columns, c.expr.type.groupFree = true)
    (h : projectionShape columns declared = .ok (element, projector)) : element.groupFree = true := by
  unfold projectionShape at h
  split at h
  · obtain ⟨output, -, h⟩ := except_do_eq_ok.mp h
    cases h
    exact hd
  · next c _ =>
    dsimp only at h
    split at h
    · cases h
      exact hc c List.mem_cons_self
    · split at h
      · cases h
        exact hd
      · cases h
  · cases h
    rw [DataType.groupFree_record]
    intro f hf
    obtain ⟨c, hmem, rfl⟩ := List.mem_map.mp hf
    exact hc c hmem

theorem keyType_groupFree {declared : DataType} {keys : List Column} (hd : declared.groupFree = true)
    (hk : ∀ k ∈ keys, k.expr.type.groupFree = true) : (keyType declared keys).groupFree = true := by
  unfold keyType
  split
  · exact hd
  · split
    · exact hk _ List.mem_cons_self
    · rw [DataType.groupFree_record]
      intro f hf
      obtain ⟨k, hmem, rfl⟩ := List.mem_map.mp hf
      exact hk k hmem

end PigChain
