import PigChain.Proofs.FilterRows

/-!
# Rows of bare values

A source of primitive values is passed through as it is until its rows are projected or grouped. Its rows have one
field, which is read by position, so a lambda over them refers to the row itself and to no field of it. Such a body is
bound as it would be over a stage that projects that one field, and that stage is regular, so what is known of the
bodies bound to regular stages carries over.
-/

namespace PigChain

variable {L : Value → Prop} {nested : Expr → BindM Stage} {s s' : Stage} {row : String} {e : Expr} {E : Engine}
  {db : Content}

/-- The body of a flat lambda over bare values: it reads the row, but no field of it. -/
inductive BareBody (L : Value → Prop) (row : String) : Expr → Prop where
  | constant {v : Value} {t : DataType} (hv : L v) (ht : t.isFlat = true) : BareBody L row (.constant v t)
  | row {t : DataType} : BareBody L row (.parameter row t)
  | unary {op : UnaryOp} {x : Expr} {t : DataType} (hx : BareBody L row x) (ht : t.isFlat = true) :
    BareBody L row (.unary op x t)
  | binary {op : BinaryOp} {x y : Expr} {t : DataType} (hx : BareBody L row x) (hy : BareBody L row y)
    (ht : t.isFlat = true) : BareBody L row (.binary op x y t)
  | conditional {c x y : Expr} {t : DataType} (hc : BareBody L row c) (hx : BareBody L row x) (hy : BareBody L row y)
    (ht : t.isFlat = true) : BareBody L row (.conditional c x y t)
  | isNull {x : Expr} (hx : BareBody L row x) : BareBody L row (.isNull x)
  | method {name : String} {x : Expr} {args : List Expr} {t : DataType} (hx : BareBody L row x)
    (hargs : ∀ a ∈ args, BareBody L row a) (ht : t.isFlat = true) : BareBody L row (.call (some x) name args t)

theorem BareBody.flat (h : BareBody L row e) : FlatBody L row e := by
  induction h with
  | constant hv ht => exact .constant hv ht
  | row => exact .row
  | unary _ ht ih => exact .unary ih ht
  | binary _ _ ht ihx ihy => exact .binary ihx ihy ht
  | conditional _ _ _ ht ihc ihx ihy => exact .conditional ihc ihx ihy ht
  | isNull _ ih => exact .isNull ih
  | method _ _ ht ihx ihargs => exact .method ihx ihargs ht

theorem FlatBody.selected (h : FlatBody L row e) : e.selected = [e] := by
  cases h <;> rfl

/-- A lambda over bare values, if there is one. -/
def BareArgument (L : Value → Prop) (arg : Option Expr) : Prop :=
  ∀ p body, arg = some (.lambda [p] body) → ∀ x ∈ body.selected, BareBody L p.name x

theorem BareArgument.body {x body : Expr} {p : Parameter} (hb : BareArgument L (some x)) (hf : FlatLambda L x)
    (hx : x = .lambda [p] body) : BareBody L p.name body := by
  have hflat := hf p body hx
  apply hb p body (by rw [hx])
  rw [hflat.selected]
  exact List.mem_singleton_self body

/-! ### Bare stages -/

/-- A stage that passes bare values through, in the order of columns of its rows. -/
structure Stage.Bare (s : Stage) : Prop where
  primitive : s.isPrimitive = true
  orderBy : ∀ o ∈ s.orderBy, o.expr.isRowColumn = true

namespace Stage.Bare

theorem projected (hs : s.Bare) : s.projected = false := by
  have h := hs.primitive
  unfold Stage.isPrimitive at h
  simp only [Bool.and_eq_true, Bool.not_eq_true'] at h
  exact h.1.1

theorem grouping (hs : s.Bare) : s.grouping = none := by
  have h := hs.primitive
  unfold Stage.isPrimitive at h
  simp only [Bool.and_eq_true, Option.isNone_iff_eq_none] at h
  exact h.1.2

theorem element (hs : s.Bare) : s.element.isPrimitive = true := by
  have h := hs.primitive
  unfold Stage.isPrimitive at h
  simp only [Bool.and_eq_true] at h
  exact h.2

theorem element_isGrouping (hs : s.Bare) : s.element.isGrouping = false :=
  DataType.isGrouping_of_groupFree (DataType.groupFree_of_isPrimitive hs.element)

/-- What a stage of bare values has in its columns, its filter and its limit does not matter. -/
theorem update (hs : s.Bare) (hp : s'.projected = s.projected) (hg : s'.grouping = s.grouping)
    (he : s'.element = s.element) (ho : ∀ o ∈ s'.orderBy, o.expr.isRowColumn = true) : s'.Bare := by
  refine ⟨?_, ho⟩
  unfold Stage.isPrimitive
  rw [hp, hg, he]
  exact hs.primitive

theorem wrapped_eq (hs : s.Bare) : s.wrapped = .after s :=
  Stage.wrapped_of_passing (by rw [hs.projected]; rfl)

theorem openIf (hs : s.Bare) (closed : Bool) : (s.openIf closed).Bare := by
  cases closed with
  | false => exact hs
  | true =>
    rw [Stage.openIf, if_pos rfl, hs.wrapped_eq]
    exact hs.update hs.projected.symm hs.grouping.symm rfl (List.forall_mem_nil _)

theorem rows_openIf (hs : s.Bare) (closed : Bool) : (s.openIf closed).rows E db = s.rows E db := by
  cases closed with
  | false => rfl
  | true => exact rows_wrapped fun hp => absurd (hs.projected.symm.trans hp) Bool.false_ne_true

theorem toSelect_eq (hs : s.Bare) : s.toSelect = s := by
  rw [Stage.toSelect, hs.grouping]
  rfl

theorem noteColumns (hs : s.Bare) (noted : List Column) : (s.noteColumns noted).Bare := by
  obtain ⟨added, -, heq⟩ := s.noteColumns_eq noted
  rw [heq]
  exact hs.update rfl rfl rfl hs.orderBy

end Stage.Bare

/-! ### Bodies over bare values -/

/-- The stage with the only field of its rows for a column. -/
def Stage.asValue (s : Stage) : Stage :=
  { s with projected := true, columns := [⟨positional, .field positional s.element⟩] }

theorem regular_asValue (hs : s.Bare) : s.asValue.Regular L := by
  have hfree := DataType.groupFree_of_isPrimitive hs.element
  refine ⟨Stage.noted_of_projected rfl, DataType.isRowType_of_groupFree hfree, ?_, fun _ _ => hfree, fun _ => ?_,
    fun _ => ?_, hs.orderBy⟩
  · intro hg
    have hnone : s.asValue.grouping = none := hs.grouping
    rw [hnone] at hg
    cases hg
  · simp [Stage.asValue, Column.names]
  · exact List.forall_mem_singleton.mpr (.column hfree)

theorem rowColumn_bare (hs : s.Bare) : rowColumn s = .ok (.field positional s.element) := by
  have hvalue : s.isValue = false := by
    rw [Stage.isValue, hs.projected]
    rfl
  rw [rowColumn, hvalue, hs.primitive]
  rfl

theorem rowColumn_asValue (hs : s.Bare) : rowColumn s.asValue = .ok (.field positional s.element) := by
  have hvalue : s.asValue.isValue = true := by
    have hfields : s.element.fields?.isNone = true := by
      have he := hs.element
      cases helem : s.element with
      | record name fields => rw [helem] at he; cases he
      | _ => rfl
    unfold Stage.isValue Stage.asValue
    rw [hs.grouping, hfields]
    rfl
  rw [rowColumn, hvalue]
  rfl

/-- Over bare values the row binder reads what the row reader reads of the one column. -/
theorem mirrors_visit_bare {I : List Column → Prop} (hs : s.Bare) (h : BareBody L row e) :
    Mirrors I ((rowBinder nested s row).visit e) ((rowReader s.asValue row).visit e) := by
  induction h with
  | constant => exact Mirrors.pure none
  | row =>
    rw [Editor.visit_eq, Editor.visit_eq]
    simp only [rowBinder, rowReader, if_true, rowColumn_bare hs, rowColumn_asValue hs]
    exact Mirrors.map some (Mirrors.lift _)
  | unary _ _ ih =>
    rw [Editor.visit_eq, Editor.visit_eq]
    exact Mirrors.bind ih fun _ _ => Mirrors.pure _
  | binary _ _ _ ihx ihy =>
    rw [Editor.visit_eq, Editor.visit_eq]
    exact Mirrors.bind ihx fun _ _ => Mirrors.bind ihy fun _ _ => Mirrors.pure _
  | conditional _ _ _ _ ihc ihx ihy =>
    rw [Editor.visit_eq, Editor.visit_eq]
    exact Mirrors.bind ihc fun _ _ => Mirrors.bind ihx fun _ _ => Mirrors.bind ihy fun _ _ => Mirrors.pure _
  | isNull _ ih =>
    rw [Editor.visit_eq, Editor.visit_eq]
    exact Mirrors.bind ih fun _ _ => Mirrors.pure _
  | @method name x args t _ _ _ ihx ihargs =>
    rw [Editor.visit_eq, Editor.visit_eq]
    simp only [rowBinder, rowReader]
    cases hrow : isRow row (some x) with
    | true =>
      -- A bare value is no group, so this fails alike on both sides.
      simp only [if_true]
      exact Mirrors.map some (Mirrors.lift _)
    | false =>
      simp only [Bool.false_eq_true, if_false, extendsChain]
      exact Mirrors.bind ihx fun _ _ => Mirrors.bind (mirrors_visitList ihargs) fun _ _ => Mirrors.pure _

theorem bindBody_bare (hs : s.Bare) (h : BareBody L row e) :
    (bindBody nested s row e).outcome.map BoundBody.expr = readBody s.asValue row e := by
  have hmirrors : Mirrors (fun _ => True) ((rowBinder nested s row).visit e) ((rowReader s.asValue row).visit e) :=
    mirrors_visit_bare hs h
  obtain ⟨noted, -, hout⟩ := bindBody_of_mirrors trivial (inlined_flat h.flat) hmirrors
  rw [hout]
  cases readBody s.asValue row e <;> rfl

theorem bindBody_bare_plain {bound : BoundBody} (hs : s.Bare) (h : BareBody L row e)
    (hb : (bindBody nested s row e).outcome = .ok bound) : PlainExpr L false bound.expr := by
  have hread : (bindBody nested s row e).outcome.map BoundBody.expr = readBody s.asValue row e := bindBody_bare hs h
  rw [hb] at hread
  have hplain := readBody_plain (regular_asValue hs) h.flat hread.symm
  rw [show s.asValue.element.isGrouping = false from hs.element_isGrouping] at hplain
  exact hplain

theorem bindBody_bare_openIf (hs : s.Bare) {closed : Bool} (h : BareBody L row e) :
    (bindBody nested (s.openIf closed) row e).outcome.map BoundBody.expr =
      (bindBody nested s row e).outcome.map BoundBody.expr := by
  rw [bindBody_bare (hs.openIf closed) h, bindBody_bare hs h]
  cases closed with
  | false => rfl
  | true =>
    have hopen := hs.openIf true
    rw [Stage.openIf, if_pos rfl, hs.wrapped_eq] at hopen ⊢
    have hrow : rowColumn (Stage.after s).asValue = rowColumn s.asValue :=
      (rowColumn_asValue hopen).trans (rowColumn_asValue hs).symm
    unfold readBody
    rw [rowReader_congr hrow rfl rfl row]

theorem bindProjection_bare_plain {columns : List Column} (hs : s.Bare) (h : ∀ x ∈ e.selected, BareBody L row x)
    (hb : (bindProjection nested s row e).outcome = .ok columns) : ∀ c ∈ columns, PlainExpr L false c.expr := by
  intro c hc
  obtain ⟨x, hx, bound, hbound, hexpr⟩ := exists_of_forall₂_right (bindProjection_eq_ok hb).2 hc
  rw [hexpr]
  exact bindBody_bare_plain hs (h x hx) hbound

/-! ### Combinators -/

theorem mergeFilter_bare {bound : BoundBody} (hs : s.Bare) (h : (s.mergeFilter bound).outcome = .ok s') :
    s' = (s.noteColumns bound.noted).addFilter bound.expr := by
  rcases mergeFilter_eq_ok h with ⟨-, rfl⟩ | ⟨hp, -⟩ | ⟨hp, -⟩
  · rfl
  · exact absurd (hs.projected.symm.trans hp) Bool.false_ne_true
  · exact absurd (hs.projected.symm.trans hp) Bool.false_ne_true

theorem bare_bindFilter {predicate : Expr} (hs : s.Bare) (h : (bindFilter nested s predicate).outcome = .ok s') :
    s'.Bare := by
  obtain ⟨p, body, bound, -, -, hmerge⟩ := bindFilter_eq_ok h
  have hopen : s.toFilter.Bare := hs.openIf _
  have hnoted := hopen.noteColumns bound.noted
  rw [mergeFilter_bare hopen hmerge]
  exact hnoted.update rfl rfl rfl hnoted.orderBy

/-- Predicates over bare values keep the rows on which they hold. -/
theorem rows_bindFilter_bare {x : Expr} (hs : s.Bare) (hf : FlatLambda L x) (hb : BareArgument L (some x))
    (h : (bindFilter nested s x).outcome = .ok s') :
    ∃ p body bound, x = .lambda [p] body ∧ (bindBody nested s p.name body).outcome = .ok bound ∧
      ∀ E db, s'.rows E db = (s.rows E db).filter fun r => (bound.expr.eval E db r).isTrue := by
  obtain ⟨p, body, opened, rfl, hopened, hmerge⟩ := bindFilter_eq_ok h
  have hopen : s.toFilter.Bare := hs.openIf _
  obtain ⟨bound, hbound, hexpr⟩ := exists_bound_of_map_eq (bindBody_bare_openIf hs (hb.body hf rfl)) hopened
  refine ⟨p, body, bound, rfl, hbound, fun E db => ?_⟩
  obtain ⟨added, -, heq⟩ := s.toFilter.noteColumns_eq opened.noted
  have hp : (s.toFilter.noteColumns opened.noted).projected = false := (hopen.noteColumns _).projected
  have hg : (s.toFilter.noteColumns opened.noted).grouping = none := (hopen.noteColumns _).grouping
  have hl : (s.toFilter.noteColumns opened.noted).limit = none := by
    rw [heq]
    exact s.toFilter_limit
  have hrows : s.toFilter.rows E db = s.rows E db := hs.rows_openIf _
  rw [mergeFilter_bare hopen hmerge, hexpr, ← hrows, ← rows_noteColumns hopen.projected opened.noted]
  refine rows_addFilter hg hl fun r _ => ?_
  rw [Stage.image_of_not_projected hp]

theorem bare_bindOrder {key : Expr} {direction : Direction} {after : Bool} (hs : s.Bare)
    (h : (bindOrder nested s key direction after).outcome = .ok s') : s'.Bare := by
  obtain ⟨p, body, bound, -, -, hcolumn, rfl⟩ := bindOrder_eq_ok h
  have hopen : s.toOrder.Bare := hs.openIf _
  have hnoted : (if s.toOrder.projected then s.toOrder else s.toOrder.noteColumns bound.noted).Bare := by
    rw [if_neg (by rw [hopen.projected]; exact Bool.false_ne_true)]
    exact hopen.noteColumns _
  refine hnoted.update rfl rfl rfl fun o ho => ?_
  rcases List.mem_append.mp ho with ho | ho
  · split at ho
    · exact hs.orderBy o ho
    · cases ho
  · rw [List.mem_singleton.mp ho]
    exact hcolumn

/-- Once its rows are projected, a stage of bare values is regular. -/
theorem regular_bindSelect_bare {x : Expr} {declared : DataType} (hs : s.Bare) (hb : BareArgument L (some x))
    (hd : declared.isFlat = true) (h : (bindSelect nested s x declared).outcome = .ok s') :
    s' = s ∨ s'.Regular L := by
  obtain ⟨p, body, rfl, ⟨-, rfl⟩ | ⟨-, columns, element, projector, composed, s₁, hcols, hshape, hinput, hmerge, rfl⟩⟩ :=
    bindSelect_eq_ok h
  · exact .inl rfl
  rw [hs.toSelect_eq] at hcols hinput hmerge
  have hplain := bindProjection_bare_plain hs (hb p body rfl) hcols
  have hnodup := (bindProjection_eq_ok hcols).1
  have helem := projectionShape_groupFree (DataType.groupFree_of_isFlat hd)
    (fun c hc => (hplain c hc).type_groupFree) hshape
  have hinput' : columns = composed := by
    rw [Stage.inputColumns, if_neg (by rw [hs.projected]; exact Bool.false_ne_true)] at hinput
    exact Except.ok.inj hinput
  subst hinput'
  have hregular : ∀ t : Stage, t.Bare →
      ({ t with columns := columns, projected := true, element := element, projector := projector } : Stage).Regular L :=
    fun t ht => (regular_asValue ht).withColumns ht.grouping projector hnodup (fun c hc => (hplain c hc).grouped) helem
  rcases mergeColumns_eq_ok hmerge with ⟨-, rfl⟩ | ⟨-, rfl⟩
  · exact .inr (hregular s hs)
  · exact .inr (hregular s.wrapped (hs.openIf true))

theorem regular_bindGroup_bare {x : Expr} {declared : DataType} (hs : s.Bare) (hb : BareArgument L (some x))
    (hd : declared.groupFree = true) (h : (bindGroup nested s x declared).outcome = .ok s') : s'.Regular L := by
  obtain ⟨p, body, keys, rfl, hkeys, rfl⟩ := bindGroup_eq_ok h
  have hopen : s.toGroup.Bare := hs.openIf _
  have hplain := bindProjection_bare_plain hopen (hb p body rfl) hkeys
  have hkey := keyType_groupFree hd fun k hk => (hplain k hk).type_groupFree
  have hunprojected : s.toGroup.projected = true → False :=
    fun hp => absurd (hopen.projected.symm.trans hp) Bool.false_ne_true
  refine ⟨Stage.noted_of_isGrouping rfl, ?_, fun _ => rfl, fun hp => (hunprojected hp).elim,
    fun hp => (hunprojected hp).elim, fun hp => (hunprojected hp).elim, hopen.orderBy⟩
  show ((keyType declared keys).groupFree && s.toGroup.element.isRowType) = true
  rw [hkey, DataType.isRowType_of_groupFree (DataType.groupFree_of_isPrimitive hopen.element)]
  rfl

theorem regular_bindAggregate_bare {method function : String} {arg : Option Expr} {declared : DataType}
    (hs : s.Bare) (hm : aggregateFunction? method = some function) (hstep : FlatStep L method arg declared)
    (hb : BareArgument L arg) (h : (bindAggregate nested s method function arg declared).outcome = .ok s') :
    s'.Regular L := by
  obtain ⟨s₁, bag, hinput, rfl⟩ := bindAggregate_eq_ok h
  have hd : declared.groupFree = true := DataType.groupFree_of_isFlat (hstep.result (by rw [hm]; rfl))
  rcases aggregateInput_eq_ok hinput with ⟨hcount, rfl, -⟩ | ⟨hcount, hbag, hsel⟩
  · exact regular_aggregateStage (aggregateType_groupFree hd fun hne => absurd hcount hne)
  · have hs₁ : s₁ = s ∨ s₁.Regular L := by
      rcases hsel with ⟨-, rfl⟩ | ⟨x, rfl, hx⟩
      · exact .inl rfl
      · exact regular_bindSelect_bare hs hb rfl hx
    rcases hs₁ with rfl | hs₁
    · have hfield : aggregatedField s₁ method = .ok (.bagField positional s₁.element) := by
        rw [aggregatedField, hs.projected, hs.primitive]
        rfl
      cases hfield.symm.trans hbag
      exact regular_aggregateStage (aggregateType_groupFree hd fun _ => DataType.groupFree_of_isPrimitive hs.element)
    · obtain ⟨name, t, rfl, ht⟩ := aggregatedField_groupFree hs₁.typed hbag
      exact regular_aggregateStage (aggregateType_groupFree hd fun _ => ht)

/-! ### Chains -/

/-- A stage of bare values, or a regular one. -/
def Stage.Steady (L : Value → Prop) (s : Stage) : Prop := s.Bare ∨ s.Regular L

theorem steady_applies {b b' : Bound} {method : String} {arg : Option Expr} {type : DataType} (hs : b.stage.Steady L)
    (hstep : FlatStep L method arg type) (hb : b.stage.isPrimitive = true → BareArgument L arg)
    (h : Applies nested b type method arg b') : b'.stage.Steady L := by
  rcases hs with hs | hs
  · have hb := hb hs.primitive
    cases h with
    | filter h => exact .inl (bare_bindFilter hs h)
    | select h =>
      rcases regular_bindSelect_bare hs hb (hstep.row rfl) h with hsame | hregular
      · exact .inl (hsame ▸ hs)
      · exact .inr hregular
    | group declared hd h =>
      refine .inr (regular_bindGroup_bare hs hb ?_ h)
      rcases hd with rfl | ⟨element, hd⟩
      · rfl
      · exact DataType.groupFree_of_isFlat (hstep.key rfl declared element hd)
    | take h => exact .inl (hs.update rfl rfl rfl hs.orderBy)
    | first => exact .inl (hs.update rfl rfl rfl hs.orderBy)
    | firstWhere h =>
      have hfiltered := bare_bindFilter hs h
      exact .inl (hfiltered.update rfl rfl rfl hfiltered.orderBy)
    | order hm h => exact .inl (bare_bindOrder hs h)
    | aggregate hm h => exact .inr (regular_bindAggregate_bare hs hm hstep hb h)
  · exact .inr (regular_applies hs hstep h)

/-- A chain of flat combinators over a source of records of primitive fields or of primitive values. As long as the rows
are bare values, the lambdas over them read no field. -/
inductive RowChain (L : Value → Prop) : Expr → Prop where
  | records {name record : String} {fields : List Field} (h : ∀ f ∈ fields, f.type.isPrimitive = true) :
    RowChain L (.constant (.source name) (.query (.record record fields)))
  | values {name : String} {type : DataType} (h : type.isPrimitive = true) :
    RowChain L (.constant (.source name) (.query type))
  | step {chain : Expr} {method : String} {args : List Expr} {type : DataType} (hc : RowChain L chain)
    (hs : FlatStep L method args.head? type)
    (hb : ∀ b, chain.bound.outcome = .ok b → b.stage.isPrimitive = true → BareArgument L args.head?) :
    RowChain L (.call none method (chain :: args) type)

theorem steady_bound {chain : Expr} {b : Bound} (hc : RowChain L chain) (h : chain.bound.outcome = .ok b) :
    b.stage.Steady L := by
  induction hc generalizing b with
  | records hf =>
    rw [bound_eq_bindWith] at h
    cases h
    exact .inr (regular_base hf)
  | values ht =>
    rw [bound_eq_bindWith] at h
    cases h
    exact .inl ⟨ht, List.forall_mem_nil _⟩
  | step _ hs hb ih =>
    rw [bound_eq_bindWith] at h
    obtain ⟨b₀, hb₀, happ⟩ := bindWith_call_eq_ok h
    rw [← bound_eq_bindWith] at hb₀
    exact steady_applies (ih hb₀) hs (hb b₀ hb₀) happ

/-- The rows of a flat chain are never bare values. -/
theorem FlatChain.rowChain {chain : Expr} (h : FlatChain L chain) : RowChain L chain := by
  induction h with
  | source hf => exact .records hf
  | @step chain method args type hc hs ih =>
    refine .step ih hs fun b hb hprim => ?_
    have hpass : b.stage.passesRows = true := by
      have hbare : b.stage.Bare := ⟨hprim, (regular_bound hc hb).orderBy⟩
      rw [Stage.passesRows, hbare.projected, hbare.element_isGrouping]
      rfl
    obtain ⟨⟨record, fields, he⟩, -⟩ := (regular_bound hc hb).noted hpass
    unfold Stage.isPrimitive at hprim
    rw [he, Bool.and_eq_true] at hprim
    cases hprim.2

end PigChain
