import PigChain.Proofs.Outcome

/-!
# What a combinator does to a stage

Each clause of the binder either merges into the stage it is given or starts a new one. The lemmas here say
once, for every clause that succeeds, which lambda it bound, against which stage, and what stage came out.
-/

namespace PigChain

/-! ### The stage a clause is bound against -/

/-- A column of the output read again under its own name. -/
def Column.redeclared (c : Column) : Column := ⟨c.name, .field c.name c.expr.type⟩

namespace Stage

theorem wrapped_of_projected {s : Stage} (hp : s.projected = true) (hg : s.grouping = none) :
    s.wrapped = { Stage.after s with projected := true, columns := s.columns.map Column.redeclared } := by
  unfold wrapped
  rw [hp, hg]
  rfl

theorem wrapped_of_passing {s : Stage} (h : (s.projected && s.grouping.isNone) = false) : s.wrapped = .after s := by
  unfold wrapped
  rw [h]
  rfl

@[simp] theorem wrapped_source (s : Stage) : s.wrapped.source = .stage s := by
  unfold wrapped
  split <;> rfl

@[simp] theorem wrapped_filter (s : Stage) : s.wrapped.filter = none := by
  unfold wrapped
  split <;> rfl

@[simp] theorem wrapped_grouping (s : Stage) : s.wrapped.grouping = none := by
  unfold wrapped
  split <;> rfl

@[simp] theorem wrapped_orderBy (s : Stage) : s.wrapped.orderBy = [] := by
  unfold wrapped
  split <;> rfl

@[simp] theorem wrapped_limit (s : Stage) : s.wrapped.limit = none := by
  unfold wrapped
  split <;> rfl

@[simp] theorem wrapped_element (s : Stage) : s.wrapped.element = s.element := by
  unfold wrapped
  split <;> rfl

/-- The stage itself, or a new stage over it. -/
def openIf (s : Stage) (closed : Bool) : Stage := if closed then s.wrapped else s

theorem outcome_wrappedIf (s : Stage) (closed : Bool) (reason : String) :
    (s.wrappedIf closed reason).outcome = .ok (s.openIf closed) := by
  cases closed <;> rfl

/-- The rows of a limited or grouped stage are final: a filter needs a new stage over it. -/
def toFilter (s : Stage) : Stage := s.openIf (s.limit.isSome || s.grouping.isSome)

def toSelect (s : Stage) : Stage := s.openIf s.grouping.isSome

def toOrder (s : Stage) : Stage := s.openIf s.limit.isSome

def toGroup (s : Stage) : Stage := s.openIf s.closedToGrouping

theorem toFilter_limit (s : Stage) : s.toFilter.limit = none := by
  unfold toFilter openIf
  split
  · exact s.wrapped_limit
  · next h => simp_all

theorem toFilter_grouping (s : Stage) : s.toFilter.grouping = none := by
  unfold toFilter openIf
  split
  · exact s.wrapped_grouping
  · next h => simp_all

theorem toSelect_grouping (s : Stage) : s.toSelect.grouping = none := by
  unfold toSelect openIf
  split
  · exact s.wrapped_grouping
  · next h => simpa using h

theorem toGroup_grouping (s : Stage) : s.toGroup.grouping = none := by
  unfold toGroup openIf
  split
  · exact s.wrapped_grouping
  · next h => simp_all [closedToGrouping]

/-- Noting columns adds some of them at the end and changes nothing else. -/
theorem noteColumns_eq (s : Stage) (noted : List Column) :
    ∃ added, (∀ c ∈ added, c ∈ noted) ∧ s.noteColumns noted = { s with columns := s.columns ++ added } := by
  induction noted generalizing s with
  | nil =>
    obtain ⟨_, _, _, _, _, _, _, _, _⟩ := s
    exact ⟨[], fun _ h => h, by rw [noteColumns, List.append_nil]⟩
  | cons c noted ih =>
    rw [noteColumns]
    split
    · obtain ⟨added, hadded, heq⟩ := ih { s with columns := s.columns ++ [c] }
      refine ⟨c :: added, ?_, by rw [heq]; simp⟩
      intro d hd
      rcases List.mem_cons.mp hd with rfl | hd
      · exact List.mem_cons_self
      · exact List.mem_cons_of_mem c (hadded d hd)
    · obtain ⟨added, hadded, heq⟩ := ih s
      exact ⟨added, fun d hd => List.mem_cons_of_mem c (hadded d hd), heq⟩

end Stage

variable {nested : Expr → BindM Stage} {s s' : Stage}

/-! ### Filter -/

theorem mergeFilter_eq_ok {bound : BoundBody} (h : (s.mergeFilter bound).outcome = .ok s') :
    (s.projected = false ∧ s' = (s.noteColumns bound.noted).addFilter bound.expr) ∨
      (s.projected = true ∧ bound.expr.rowColumns.all s.isPlain = true ∧
        ∃ e, bound.expr.composed s.columns = .ok e ∧ s' = s.addFilter e) ∨
      (s.projected = true ∧ bound.expr.rowColumns.all s.isPlain = false ∧
        s' = { s.wrapped with filter := some bound.expr }) := by
  unfold Stage.mergeFilter at h
  cases hp : s.projected with
  | false =>
    rw [if_pos (by simp [hp])] at h
    simp only [Traced.outcome_bind_eq_ok, outcome_noteBinding, Traced.outcome_pure] at h
    obtain ⟨_, -, h⟩ := h
    exact .inl ⟨rfl, (Except.ok.inj h).symm⟩
  | true =>
    cases hm : bound.expr.rowColumns.all s.isPlain with
    | true =>
      rw [if_neg (by simp [hp]), if_pos hm] at h
      simp only [Traced.outcome_bind_eq_ok, outcome_noteBinding, Traced.outcome_silent, Traced.outcome_pure] at h
      obtain ⟨_, -, e, he, h⟩ := h
      exact .inr (.inl ⟨rfl, rfl, e, he, (Except.ok.inj h).symm⟩)
    | false =>
      rw [if_neg (by simp [hp]), if_neg (by simp [hm])] at h
      simp only [Traced.outcome_bind_eq_ok, outcome_noteBinding, Traced.outcome_pure] at h
      obtain ⟨_, -, h⟩ := h
      exact .inr (.inr ⟨rfl, rfl, (Except.ok.inj h).symm⟩)

/-- Only putting in the definitions of a projected stage can fail. -/
theorem mergeFilter_eq_error {bound : BoundBody} {err : Error} (h : (s.mergeFilter bound).outcome = .error err) :
    bound.expr.rowColumns.all s.isPlain = true ∧ bound.expr.composed s.columns = .error err := by
  unfold Stage.mergeFilter at h
  split at h
  · cases h
  · split at h
    · next hm =>
      rcases Traced.outcome_bind_eq_error.mp h with ⟨⟨⟩⟩ | ⟨_, -, h⟩
      rcases Traced.outcome_bind_eq_error.mp h with h | ⟨_, -, ⟨⟩⟩
      exact ⟨hm, h⟩
    · cases h

theorem bindFilter_eq_ok {predicate : Expr} (h : (bindFilter nested s predicate).outcome = .ok s') :
    ∃ p body bound, predicate = .lambda [p] body ∧
      (bindBody nested s.toFilter p.name body).outcome = .ok bound ∧
      (s.toFilter.mergeFilter bound).outcome = .ok s' := by
  unfold bindFilter at h
  simp only [Traced.outcome_bind_eq_ok, Stage.outcome_wrappedIf, Traced.outcome_silent, Except.ok.injEq] at h
  obtain ⟨s₁, rfl, ⟨p, body⟩, hp, bound, hb, hm⟩ := h
  exact ⟨p, body, bound, lambdaParts_eq_ok.mp hp, hb, hm⟩

theorem bindFilter_eq_error {p : Parameter} {body : Expr} {err : Error}
    (h : (bindFilter nested s (.lambda [p] body)).outcome = .error err) :
    (bindBody nested s.toFilter p.name body).outcome = .error err ∨
      ∃ bound, (s.toFilter.mergeFilter bound).outcome = .error err := by
  unfold bindFilter at h
  rcases Traced.outcome_bind_eq_error.mp h with h | ⟨s₁, hs₁, h⟩
  · rw [Stage.outcome_wrappedIf] at h
    cases h
  · rw [Stage.outcome_wrappedIf] at hs₁
    cases hs₁
    rcases Traced.outcome_bind_eq_error.mp h with ⟨⟨⟩⟩ | ⟨parts, hparts, h⟩
    cases hparts
    rcases Traced.outcome_bind_eq_error.mp h with h | ⟨bound, -, h⟩
    · exact .inl h
    · exact .inr ⟨bound, h⟩

/-! ### Projection -/

/-- The values that the body of a selector computes. -/
def Expr.selected : Expr → List Expr
  | .recordInit _ _ _ bindings => bindings.filterMap fun
    | .assign _ x => some x
    | _ => none
  | .construct _ args _ => args
  | body => [body]

theorem namedParts_eq_none {body : Expr} (h : namedParts? body = .ok none) : body.selected = [body] := by
  unfold namedParts? at h
  split at h
  · obtain ⟨_, _, h⟩ := except_map_eq_ok.mp h
    cases h
  · next type args names =>
    dsimp only at h
    generalize (if names.isEmpty = true then (type.fields?.getD []).map Field.name else names) = used at h
    split at h <;> cases h
  · next hrecord hconstruct =>
    unfold Expr.selected
    split
    · exact absurd rfl (hrecord _ _ _ _)
    · exact absurd rfl (hconstruct _ _ _)
    · rfl

theorem namedParts_eq_some {body : Expr} {parts : List (String × Expr)} (h : namedParts? body = .ok (some parts)) :
    body.selected = parts.map Prod.snd := by
  unfold namedParts? at h
  split at h
  · next type args names bindings =>
    obtain ⟨found, hfound, h⟩ := except_map_eq_ok.mp h
    cases h
    have hassign := mapM_eq_ok.mp hfound
    clear hfound h
    show List.filterMap _ bindings = _
    induction hassign with
    | nil => rfl
    | @cons b q bindings found hb _ ih =>
      cases b with
      | assign name x =>
        cases hb
        exact congrArg (x :: ·) ih
      | nested name bs => cases hb
      | list name items => cases hb
  · next type args names =>
    dsimp only at h
    generalize (if names.isEmpty = true then (type.fields?.getD []).map Field.name else names) = used at h
    split at h
    · cases h
    · next hlen =>
      cases h
      rw [List.map_snd_zip (by omega)]
      rfl
  · cases h

/-- How a column comes from a value of a selector. -/
def BindsColumn (nested : Expr → BindM Stage) (s : Stage) (row : String) (x : Expr) (c : Column) : Prop :=
  ∃ bound, (bindBody nested s row x).outcome = .ok bound ∧ c.expr = bound.expr

theorem Column.nodup_append {columns : List Column} {c : Column} (h : (Column.names columns).Nodup)
    (hfresh : c.name ∉ Column.names columns) : (Column.names (columns ++ [c])).Nodup := by
  have hnames : Column.names (columns ++ [c]) = Column.names columns ++ [c.name] := by
    simp [Column.names]
  rw [hnames, List.nodup_append]
  refine ⟨h, by simp, ?_⟩
  intro a ha b hb hab
  rw [List.mem_singleton.mp hb] at hab
  exact hfresh (hab ▸ ha)

theorem bindColumns_eq_ok {row : String} {parts : List (String × Expr)} {done columns : List Column}
    (hdone : (Column.names done).Nodup) (h : (bindColumns nested s row parts done).outcome = .ok columns) :
    (Column.names columns).Nodup ∧ ∃ added, columns = done ++ added ∧ Column.names added = parts.map Prod.fst ∧
      List.Forall₂ (BindsColumn nested s row) (parts.map Prod.snd) added := by
  induction parts generalizing done with
  | nil =>
    cases h
    exact ⟨hdone, [], (List.append_nil _).symm, rfl, .nil⟩
  | cons q parts ih =>
    obtain ⟨name, x⟩ := q
    rw [bindColumns] at h
    cases hname : done.any fun c => c.name == name with
    | true =>
      rw [if_pos hname] at h
      cases h
    | false =>
      rw [if_neg (by rw [hname]; exact Bool.false_ne_true), Traced.outcome_bind_eq_ok] at h
      obtain ⟨bound, hbound, h⟩ := h
      have hfresh : name ∉ Column.names done := by
        intro hmem
        obtain ⟨c, hc, hcn⟩ := List.mem_map.mp hmem
        have := List.any_eq_false.mp hname c hc
        exact this (by rw [hcn]; exact beq_self_eq_true name)
      have hnew : (Column.names (done ++ [⟨name, bound.expr⟩])).Nodup := Column.nodup_append hdone hfresh
      obtain ⟨hnodup, added, hadded, hnames, hcols⟩ := ih hnew h
      refine ⟨hnodup, ⟨name, bound.expr⟩ :: added, ?_, congrArg (name :: ·) hnames, .cons ⟨bound, hbound, rfl⟩ hcols⟩
      rw [hadded, List.append_assoc]
      rfl

/-- The columns of a projection have different names, and they are the bound values of the body, in order. -/
theorem bindProjection_eq_ok {row : String} {body : Expr} {columns : List Column}
    (h : (bindProjection nested s row body).outcome = .ok columns) :
    (Column.names columns).Nodup ∧ List.Forall₂ (BindsColumn nested s row) body.selected columns := by
  unfold bindProjection at h
  rw [Traced.outcome_bind_eq_ok] at h
  obtain ⟨parts, hparts, h⟩ := h
  rw [Traced.outcome_silent] at hparts
  cases parts with
  | none =>
    simp only [Traced.outcome_bind_eq_ok] at h
    obtain ⟨bound, hbound, h⟩ := h
    cases h
    rw [namedParts_eq_none hparts]
    exact ⟨by simp [Column.names], .cons ⟨bound, hbound, rfl⟩ .nil⟩
  | some parts =>
    obtain ⟨hnodup, added, hadded, -, hcols⟩ := bindColumns_eq_ok (by simp [Column.names]) h
    rw [List.nil_append] at hadded
    rw [namedParts_eq_some hparts, hadded]
    exact ⟨hadded ▸ hnodup, hcols⟩

/-- The names that the body of a selector gives to its values. -/
def Expr.labels : Expr → List String
  | .recordInit _ _ _ bindings => bindings.map Binding.name
  | .construct type _ names => if names.isEmpty then (type.fields?.getD []).map Field.name else names
  | _ => []

theorem namedParts_labels {body : Expr} {parts : List (String × Expr)} (h : namedParts? body = .ok (some parts)) :
    ∀ name ∈ parts.map Prod.fst, name ∈ body.labels := by
  unfold namedParts? at h
  split at h
  · next type args names bindings =>
    obtain ⟨found, hfound, h⟩ := except_map_eq_ok.mp h
    cases h
    intro name hname
    obtain ⟨q, hq, rfl⟩ := List.mem_map.mp hname
    obtain ⟨b, hb, hassign⟩ := exists_of_forall₂_right (mapM_eq_ok.mp hfound) hq
    cases b with
    | assign label x =>
      cases hassign
      exact List.mem_map_of_mem hb
    | nested label bs => cases hassign
    | list label items => cases hassign
  · next type args names =>
    dsimp only at h
    show ∀ name ∈ _, name ∈ if names.isEmpty then (type.fields?.getD []).map Field.name else names
    generalize (if names.isEmpty = true then (type.fields?.getD []).map Field.name else names) = used at h ⊢
    split at h
    · cases h
    · next hlen =>
      cases h
      rw [List.map_fst_zip (by omega)]
      exact fun name h => h
  · cases h

/-- A column of a projection has the name its value is given, the last part of a name, or a fixed one. -/
theorem bindProjection_names {row : String} {body : Expr} {columns : List Column}
    (h : (bindProjection nested s row body).outcome = .ok columns) :
    ∀ c ∈ columns, c.name ∈ body.labels ∨ c.name = "value" ∨ ∃ name, c.name = lastPart name := by
  unfold bindProjection at h
  rw [Traced.outcome_bind_eq_ok] at h
  obtain ⟨parts, hparts, h⟩ := h
  rw [Traced.outcome_silent] at hparts
  intro c hc
  cases parts with
  | none =>
    simp only [Traced.outcome_bind_eq_ok] at h
    obtain ⟨bound, hbound, h⟩ := h
    cases h
    rw [List.mem_singleton.mp hc]
    right
    dsimp only
    split
    · exact .inr ⟨_, rfl⟩
    · exact .inl rfl
  | some parts =>
    obtain ⟨-, added, hadded, hnames, -⟩ := bindColumns_eq_ok (by simp [Column.names]) h
    rw [List.nil_append] at hadded
    refine .inl (namedParts_labels hparts c.name ?_)
    rw [← hnames, ← hadded]
    exact List.mem_map_of_mem hc

theorem bindProjection_names_of_parts {row : String} {body : Expr} {parts : List (String × Expr)}
    {columns : List Column} (hparts : namedParts? body = .ok (some parts))
    (h : (bindProjection nested s row body).outcome = .ok columns) : Column.names columns = parts.map Prod.fst := by
  unfold bindProjection at h
  rw [Traced.outcome_bind_eq_ok, Traced.outcome_silent] at h
  obtain ⟨found, hfound, h⟩ := h
  obtain rfl : some parts = found := Except.ok.inj (hparts.symm.trans hfound)
  obtain ⟨-, added, rfl, hnames, -⟩ := bindColumns_eq_ok (by simp [Column.names]) h
  exact hnames

theorem mergeColumns_eq_ok {columns composed : List Column}
    (h : (s.mergeColumns columns composed).outcome = .ok s') :
    (s.orderingSurvives composed = true ∧ s' = { s with columns := composed }) ∨
      (s.orderingSurvives composed = false ∧ s' = { s.wrapped with columns := columns }) := by
  unfold Stage.mergeColumns at h
  cases ho : s.orderingSurvives composed with
  | true =>
    rw [if_pos ho] at h
    simp only [Traced.outcome_bind_eq_ok, outcome_noteBinding, Traced.outcome_pure] at h
    obtain ⟨_, -, h⟩ := h
    exact .inl ⟨rfl, (Except.ok.inj h).symm⟩
  | false =>
    rw [if_neg (by simp [ho])] at h
    simp only [Traced.outcome_bind_eq_ok, outcome_noteBinding, Traced.outcome_pure] at h
    obtain ⟨_, -, h⟩ := h
    exact .inr ⟨rfl, (Except.ok.inj h).symm⟩

theorem bindSelect_eq_ok {selector : Expr} {declared : DataType}
    (h : (bindSelect nested s selector declared).outcome = .ok s') :
    ∃ p body, selector = .lambda [p] body ∧
      (((body.isParameter p.name && !s.isValue) = true ∧ s' = s) ∨
        ((body.isParameter p.name && !s.isValue) = false ∧ ∃ columns element projector composed s₁,
          (bindProjection nested s.toSelect p.name body).outcome = .ok columns ∧
          projectionShape columns declared = .ok (element, projector) ∧
          s.toSelect.inputColumns columns = .ok composed ∧
          (s.toSelect.mergeColumns columns composed).outcome = .ok s₁ ∧
          s' = { s₁ with projected := true, element := element, projector := projector })) := by
  unfold bindSelect at h
  rw [Traced.outcome_bind_eq_ok] at h
  obtain ⟨⟨p, body⟩, hp, h⟩ := h
  refine ⟨p, body, lambdaParts_eq_ok.mp hp, ?_⟩
  dsimp only at h
  cases hi : body.isParameter p.name && !s.isValue with
  | true =>
    rw [if_pos hi] at h
    exact .inl ⟨rfl, (Except.ok.inj h).symm⟩
  | false =>
    rw [if_neg (by rw [hi]; exact Bool.false_ne_true)] at h
    simp only [Traced.outcome_bind_eq_ok, Stage.outcome_wrappedIf, Traced.outcome_silent, Except.ok.injEq] at h
    obtain ⟨_, rfl, columns, hc, ⟨element, projector⟩, hs, h⟩ := h
    obtain ⟨composed, hk, s₁, hm, h⟩ := h
    cases h
    exact .inr ⟨rfl, columns, element, projector, composed, s₁, hc, hs, hk, hm, rfl⟩

/-- The type in which a column is output in a record. -/
def Column.outputType (fields : List Field) (c : Column) : Except Error DataType :=
  match Field.find? fields c.name with
  | some f => if f.type.accepts c.expr.type then .ok f.type else .error (.mismatch c.name f.type c.expr.type)
  | none => .ok c.expr.type

theorem recordOutput_eq_mapM (fields : List Field) (columns : List Column) :
    recordOutput fields columns = columns.mapM fun c => (do
      let type ← c.outputType fields
      pure ⟨c.name, type⟩) := by
  induction columns with
  | nil => rfl
  | cons c columns ih =>
    rw [recordOutput, List.mapM_cons, ← ih, Column.outputType]
    cases hf : Field.find? fields c.name with
    | none => rfl
    | some f => cases hok : f.type.accepts c.expr.type <;> simp [hok] <;> rfl

theorem recordOutput_eq_error {fields : List Field} {columns : List Column} {err : Error}
    (h : recordOutput fields columns = .error err) : ∃ name expected found, err = .mismatch name expected found := by
  rw [recordOutput_eq_mapM] at h
  obtain ⟨c, -, h⟩ := mapM_eq_error h
  rcases except_do_eq_error.mp h with h | ⟨type, -, ⟨⟩⟩
  unfold Column.outputType at h
  split at h
  · split at h
    · cases h
    · cases h
      exact ⟨_, _, _, rfl⟩
  · cases h

theorem projectionShape_eq_error {columns : List Column} {declared : DataType} {err : Error}
    (h : projectionShape columns declared = .error err) : ∃ name expected found, err = .mismatch name expected found := by
  unfold projectionShape at h
  split at h
  · rcases except_do_eq_error.mp h with h | ⟨output, -, ⟨⟩⟩
    exact recordOutput_eq_error h
  · dsimp only at h
    split at h
    · cases h
    · split at h
      · cases h
      · cases h
        exact ⟨_, _, _, rfl⟩
  · cases h

theorem outcome_mergeColumns_ne_error {columns composed : List Column} {err : Error} :
    (s.mergeColumns columns composed).outcome ≠ .error err := by
  unfold Stage.mergeColumns
  intro h
  split at h <;> cases h

theorem bindSelect_eq_error {p : Parameter} {body : Expr} {declared : DataType} {err : Error}
    (h : (bindSelect nested s (.lambda [p] body) declared).outcome = .error err) :
    (bindProjection nested s.toSelect p.name body).outcome = .error err ∨
      ∃ columns, (bindProjection nested s.toSelect p.name body).outcome = .ok columns ∧
        (projectionShape columns declared = .error err ∨ s.toSelect.inputColumns columns = .error err) := by
  unfold bindSelect at h
  rcases Traced.outcome_bind_eq_error.mp h with ⟨⟨⟩⟩ | ⟨parts, hparts, h⟩
  cases hparts
  dsimp only at h
  split at h
  · cases h
  · rcases Traced.outcome_bind_eq_error.mp h with h | ⟨s₁, hs₁, h⟩
    · rw [Stage.outcome_wrappedIf] at h
      cases h
    · rw [Stage.outcome_wrappedIf] at hs₁
      cases hs₁
      rcases Traced.outcome_bind_eq_error.mp h with h | ⟨columns, hcolumns, h⟩
      · exact .inl h
      · refine .inr ⟨columns, hcolumns, ?_⟩
        rcases Traced.outcome_bind_eq_error.mp h with h | ⟨shape, -, h⟩
        · exact .inl h
        · rcases Traced.outcome_bind_eq_error.mp h with h | ⟨composed, -, h⟩
          · exact .inr h
          · rcases Traced.outcome_bind_eq_error.mp h with h | ⟨s₂, -, ⟨⟩⟩
            exact absurd h outcome_mergeColumns_ne_error

/-! ### Ordering and grouping -/

theorem bindOrder_eq_ok {key : Expr} {direction : Direction} {after : Bool}
    (h : (bindOrder nested s key direction after).outcome = .ok s') :
    ∃ p body bound, key = .lambda [p] body ∧
      (bindBody nested s.toOrder p.name body).outcome = .ok bound ∧ bound.expr.isRowColumn = true ∧
      s' = { (if s.toOrder.projected then s.toOrder else s.toOrder.noteColumns bound.noted) with
        orderBy := (if after then s.orderBy else []) ++ [⟨bound.expr, direction⟩] } := by
  unfold bindOrder at h
  cases ha : after && s.orderBy.isEmpty with
  | true =>
    rw [if_pos ha] at h
    cases h
  | false =>
    rw [if_neg (by rw [ha]; exact Bool.false_ne_true)] at h
    simp only [Traced.outcome_bind_eq_ok, Stage.outcome_wrappedIf, Traced.outcome_silent, Except.ok.injEq] at h
    obtain ⟨_, rfl, ⟨p, body⟩, hp, bound, hb, h⟩ := h
    refine ⟨p, body, bound, lambdaParts_eq_ok.mp hp, hb, ?_⟩
    cases hr : bound.expr.isRowColumn with
    | true =>
      rw [if_pos hr] at h
      exact ⟨rfl, (Except.ok.inj h).symm⟩
    | false =>
      rw [if_neg (by rw [hr]; exact Bool.false_ne_true)] at h
      cases h

/-- The element type of a grouped stage. -/
def groupedElement (s : Stage) (declared : DataType) (keys : List Column) : DataType :=
  .grouping (keyType declared keys) s.element

theorem bindGroup_eq_ok {selector : Expr} {declared : DataType}
    (h : (bindGroup nested s selector declared).outcome = .ok s') :
    ∃ p body keys, selector = .lambda [p] body ∧
      (bindProjection nested s.toGroup p.name body).outcome = .ok keys ∧
      s' = { s.toGroup with
        grouping := some (.keys (keys.map Column.expr))
        projector := .ofElement (groupedElement s.toGroup declared keys)
        element := groupedElement s.toGroup declared keys } := by
  unfold bindGroup at h
  simp only [Traced.outcome_bind_eq_ok, Stage.outcome_wrappedIf, Traced.outcome_silent, Except.ok.injEq] at h
  obtain ⟨_, rfl, ⟨p, body⟩, hp, keys, hk, h⟩ := h
  exact ⟨p, body, keys, lambdaParts_eq_ok.mp hp, hk, (Except.ok.inj h).symm⟩

/-! ### Aggregates -/

/-- The one row of an aggregate over all rows of a stage. -/
def aggregateStage (s : Stage) (function : String) (bag : Expr) (result : DataType) : Stage :=
  { ({ s.toGroup with grouping := some .all } : Stage).wrapped with
    projected := true
    columns := [⟨"value", .function function [bag] result⟩]
    projector := .value "value" result
    element := result }

theorem aggregateInput_eq_ok {method : String} {selector : Option Expr} {bag : Expr}
    (h : (aggregateInput nested s method selector).outcome = .ok (s', bag)) :
    (method = "Count" ∧ bag = .bagField "" .unknown ∧
        ((selector = none ∧ s' = s) ∨
          ∃ predicate, selector = some predicate ∧ (bindFilter nested s predicate).outcome = .ok s')) ∨
      (method ≠ "Count" ∧ aggregatedField s' method = .ok bag ∧
        ((selector = none ∧ s' = s) ∨
          ∃ x, selector = some x ∧ (bindSelect nested s x .unknown).outcome = .ok s')) := by
  unfold aggregateInput at h
  by_cases hm : method = "Count"
  · rw [if_pos hm] at h
    refine .inl ⟨hm, ?_⟩
    cases selector with
    | none =>
      cases h
      exact ⟨rfl, .inl ⟨rfl, rfl⟩⟩
    | some predicate =>
      simp only [Traced.outcome_bind_eq_ok] at h
      obtain ⟨s₁, hs, h⟩ := h
      cases h
      exact ⟨rfl, .inr ⟨predicate, rfl, hs⟩⟩
  · rw [if_neg hm] at h
    refine .inr ⟨hm, ?_⟩
    cases selector with
    | none =>
      simp only [Traced.outcome_bind_eq_ok] at h
      obtain ⟨s₁, hs, _, hb, h⟩ := h
      cases hs
      cases h
      exact ⟨hb, .inl ⟨rfl, rfl⟩⟩
    | some x =>
      simp only [Traced.outcome_bind_eq_ok] at h
      obtain ⟨s₁, hs, _, hb, h⟩ := h
      cases h
      exact ⟨hb, .inr ⟨x, rfl, hs⟩⟩

theorem bindAggregate_eq_ok {method function : String} {selector : Option Expr} {declared : DataType}
    (h : (bindAggregate nested s method function selector declared).outcome = .ok s') :
    ∃ s₁ bag, (aggregateInput nested s method selector).outcome = .ok (s₁, bag) ∧
      s' = aggregateStage s₁ function bag (aggregateType method declared bag.type) := by
  unfold bindAggregate at h
  simp only [Traced.outcome_bind_eq_ok] at h
  obtain ⟨⟨s₁, bag⟩, hs, s₂, hw, h⟩ := h
  rw [Stage.outcome_wrappedIf] at hw
  cases hw
  exact ⟨s₁, bag, hs, (Except.ok.inj h).symm⟩

/-! ### Chains -/

/-- What a combinator that succeeds can be: its name, its argument, and the chain that it makes of `b`. -/
inductive Applies (nested : Expr → BindM Stage) (b : Bound) (type : DataType) :
    String → Option Expr → Bound → Prop where
  | filter {x : Expr} {s' : Stage} (h : (bindFilter nested b.stage x).outcome = .ok s') :
    Applies nested b type "Where" (some x) { b with stage := s' }
  | select {x : Expr} {s' : Stage}
    (h : (bindSelect nested b.stage x (type.element?.getD .unknown)).outcome = .ok s') :
    Applies nested b type "Select" (some x) { b with stage := s' }
  | group {x : Expr} {s' : Stage} (declared : DataType)
    (hd : declared = .unknown ∨ ∃ element, type.element? = some (.grouping declared element))
    (h : (bindGroup nested b.stage x declared).outcome = .ok s') :
    Applies nested b type "GroupBy" (some x) { b with stage := s' }
  | take {x : Expr} {count : UInt64} (h : takeCount x = .ok count) :
    Applies nested b type "Take" (some x) { b with stage := b.stage.take count }
  | first : Applies nested b type "First" none ⟨b.stage.take 1, .single⟩
  | firstWhere {x : Expr} {s' : Stage} (h : (bindFilter nested b.stage x).outcome = .ok s') :
    Applies nested b type "First" (some x) ⟨s'.take 1, .single⟩
  | order {method : String} {direction : Direction} {after : Bool} {x : Expr} {s' : Stage}
    (hm : orderings.lookup method = some (direction, after))
    (h : (bindOrder nested b.stage x direction after).outcome = .ok s') :
    Applies nested b type method (some x) { b with stage := s' }
  | aggregate {method function : String} {arg : Option Expr} {s' : Stage}
    (hm : aggregateFunction? method = some function)
    (h : (bindAggregate nested b.stage method function arg type).outcome = .ok s') :
    Applies nested b type method arg ⟨s', .single⟩

/-- What the combinators that are neither orderings nor aggregates did, by name. -/
theorem Applies.clause {b b' : Bound} {method : String} {arg : Option Expr} {type : DataType}
    (h : Applies nested b type method arg b') :
    (method = "Where" → ∃ x, arg = some x ∧ (bindFilter nested b.stage x).outcome = .ok b'.stage) ∧
    (method = "Select" → ∃ x, arg = some x ∧
      (bindSelect nested b.stage x (type.element?.getD .unknown)).outcome = .ok b'.stage) ∧
    (method = "GroupBy" → ∃ x declared, arg = some x ∧ (bindGroup nested b.stage x declared).outcome = .ok b'.stage) ∧
    (method = "Take" → ∃ x count, arg = some x ∧ takeCount x = .ok count ∧ b'.stage = b.stage.take count) := by
  cases h with
  | filter h =>
    exact ⟨fun _ => ⟨_, rfl, h⟩, (absurd · (by decide)), (absurd · (by decide)), (absurd · (by decide))⟩
  | select h =>
    exact ⟨(absurd · (by decide)), fun _ => ⟨_, rfl, h⟩, (absurd · (by decide)), (absurd · (by decide))⟩
  | group declared _ h =>
    exact ⟨(absurd · (by decide)), (absurd · (by decide)), fun _ => ⟨_, declared, rfl, h⟩, (absurd · (by decide))⟩
  | take h =>
    exact ⟨(absurd · (by decide)), (absurd · (by decide)), (absurd · (by decide)), fun _ => ⟨_, _, rfl, h, rfl⟩⟩
  | first => refine ⟨?_, ?_, ?_, ?_⟩ <;> exact (absurd · (by decide))
  | firstWhere _ => refine ⟨?_, ?_, ?_, ?_⟩ <;> exact (absurd · (by decide))
  | order hm _ => refine ⟨?_, ?_, ?_, ?_⟩ <;> (rintro rfl; cases hm)
  | aggregate hm _ => refine ⟨?_, ?_, ?_, ?_⟩ <;> (rintro rfl; cases hm)

/-- No aggregate has the name of an ordering. -/
theorem aggregateFunction?_of_ordering {method : String} {o : Direction × Bool}
    (h : orderings.lookup method = some o) : aggregateFunction? method = none := by
  have hmem : method ∈ orderings.map Prod.fst := by
    obtain ⟨l₁, l₂, heq, -⟩ := List.lookup_eq_some_iff.mp h
    rw [heq]
    simp
  have hall : ∀ m ∈ orderings.map Prod.fst, aggregateFunction? m = none := by decide
  exact hall method hmem

theorem Applies.order_of {b b' : Bound} {method : String} {arg : Option Expr} {type : DataType} {direction : Direction}
    {after : Bool} (hm : orderings.lookup method = some (direction, after)) (h : Applies nested b type method arg b') :
    ∃ x, arg = some x ∧ (bindOrder nested b.stage x direction after).outcome = .ok b'.stage := by
  cases h with
  | filter _ => cases hm
  | select _ => cases hm
  | group _ _ _ => cases hm
  | take _ => cases hm
  | first => cases hm
  | firstWhere _ => cases hm
  | order hm' h =>
    rw [hm] at hm'
    cases hm'
    exact ⟨_, rfl, h⟩
  | aggregate ha _ => cases (aggregateFunction?_of_ordering hm).symm.trans ha

theorem Applies.aggregate_of {b b' : Bound} {method function : String} {arg : Option Expr} {type : DataType}
    (hm : aggregateFunction? method = some function) (h : Applies nested b type method arg b') :
    ∃ s', (bindAggregate nested b.stage method function arg type).outcome = .ok s' ∧ b' = ⟨s', .single⟩ := by
  cases h with
  | filter _ => cases hm
  | select _ => cases hm
  | group _ _ _ => cases hm
  | take _ => cases hm
  | first => cases hm
  | firstWhere _ => cases hm
  | order ho _ => cases (aggregateFunction?_of_ordering ho).symm.trans hm
  | aggregate hm' h =>
    cases hm.symm.trans hm'
    exact ⟨_, h, rfl⟩

theorem required_eq_ok {method : String} {arg : Option Expr} {x : Expr} (h : required method arg = .ok x) :
    arg = some x := by
  cases arg with
  | none => cases h
  | some a => rw [Except.ok.inj h]

theorem applyCombinator_eq_ok {b b' : Bound} {method : String} {arg : Option Expr} {type : DataType}
    (h : (applyCombinator nested b method arg type).outcome = .ok b') : Applies nested b type method arg b' := by
  unfold applyCombinator at h
  split at h
  · simp only [Traced.outcome_bind_eq_ok, Traced.outcome_silent] at h
    obtain ⟨x, hx, s', hs, h⟩ := h
    rw [required_eq_ok hx, ← Except.ok.inj h]
    exact .filter hs
  · simp only [Traced.outcome_bind_eq_ok, Traced.outcome_silent] at h
    obtain ⟨x, hx, s', hs, h⟩ := h
    rw [required_eq_ok hx, ← Except.ok.inj h]
    exact .select hs
  · simp only [Traced.outcome_bind_eq_ok, Traced.outcome_silent] at h
    obtain ⟨x, hx, s', hs, h⟩ := h
    rw [required_eq_ok hx, ← Except.ok.inj h]
    refine .group _ ?_ hs
    split
    · next key element he => exact .inr ⟨element, he⟩
    · exact .inl rfl
  · simp only [Traced.outcome_bind_eq_ok, Traced.outcome_silent, except_do_eq_ok] at h
    obtain ⟨count, ⟨x, hx, hc⟩, h⟩ := h
    rw [required_eq_ok hx, ← Except.ok.inj h]
    exact .take hc
  · cases arg with
    | none =>
      rw [← Except.ok.inj h]
      exact .first
    | some x =>
      simp only [Traced.outcome_bind_eq_ok] at h
      obtain ⟨s', hs, h⟩ := h
      rw [← Except.ok.inj h]
      exact .firstWhere hs
  · split at h
    · next direction after ho =>
      simp only [Traced.outcome_bind_eq_ok, Traced.outcome_silent] at h
      obtain ⟨x, hx, s', hs, h⟩ := h
      rw [required_eq_ok hx, ← Except.ok.inj h]
      exact .order ho hs
    · next function _ ha =>
      simp only [Traced.outcome_bind_eq_ok] at h
      obtain ⟨s', hs, h⟩ := h
      rw [← Except.ok.inj h]
      exact .aggregate ha hs
    · cases h

theorem bindWith_call_eq_ok {method : String} {chain : Expr} {args : List Expr} {type : DataType} {b' : Bound}
    (h : (bindWith nested (.call none method (chain :: args) type)).outcome = .ok b') :
    ∃ b, (bindWith nested chain).outcome = .ok b ∧ Applies nested b type method args.head? b' := by
  rw [bindWith, Traced.outcome_bind_eq_ok] at h
  obtain ⟨b, hb, h⟩ := h
  exact ⟨b, hb, applyCombinator_eq_ok h⟩

theorem bound_eq_bindWith (chain : Expr) :
    chain.bound = bindWith (fun e => do pure (← bindNested (nestingLimit - 1) e).stage) chain := by
  unfold Expr.bound
  have hlimit : nestingLimit = nestingLimit - 1 + 1 := rfl
  rw [hlimit, bindNested]
  rfl

end PigChain
