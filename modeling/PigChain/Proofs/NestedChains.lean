import PigChain.Proofs.Scope

/-!
# Chains nested in filters and projections

A predicate or selector over a projected stage may hold chains as values. Where the bound body goes into the stage, the
definitions of the stage are put in for the columns of the body, those of its chains among them. So a chain keeps its
scope if none of its columns is renamed, redefined or dropped by the stage, and not otherwise.
-/

namespace PigChain

variable {nested : Expr → BindM Stage} {s s' : Stage} {p q : Parameter} {predicate selector : Expr}
  {declared : DataType}

/-- A stage that stands in the definition of a column. -/
def Stage.Owns (s : Stage) (y : Expr) : Prop := ∃ c ∈ s.columns, Expr.Has y c.expr

theorem toFilter_projected (hp : s.projected = true) (hg : s.grouping = none) : s.toFilter.projected = true := by
  unfold Stage.toFilter Stage.openIf
  split
  · rw [Stage.wrapped_of_projected hp hg]
  · exact hp

theorem toSelect_eq_self (hg : s.grouping = none) : s.toSelect = s := by
  rw [Stage.toSelect, Stage.openIf, hg]
  rfl

/-! ### Filters -/

theorem bindFilter_keepsScope (hp : s.projected = true) (hg : s.grouping = none)
    (hx : NestsValues p.name predicate) (h : (bindFilter nested s (.lambda [p] predicate)).outcome = .ok s') :
    ∃ f, (s' = s.toFilter.addFilter f ∧
        KeepsScope nested p.name s.toFilter.Owns (Undisturbed s.toFilter.columns) predicate f) ∨
      (s' = { s.toFilter.wrapped with filter := some f } ∧
        KeepsScope nested p.name (fun _ => False) Settled predicate f) := by
  obtain ⟨p', body, bound, heq, hbound, hmerge⟩ := bindFilter_eq_ok h
  cases heq
  have hscope := bindBody_keepsScope hx hbound
  rcases mergeFilter_eq_ok hmerge with ⟨hpass, -⟩ | ⟨-, -, f, hf, rfl⟩ | ⟨-, -, rfl⟩
  · rw [toFilter_projected hp hg] at hpass
    cases hpass
  · exact ⟨f, .inl ⟨rfl, hscope.composed hf⟩⟩
  · exact ⟨bound.expr, .inr ⟨rfl, hscope⟩⟩

/-- A predicate goes into a stage only if the stage declares every column that stands in it, at any depth. -/
theorem mergeFilter_ne_unknownColumn {bound : BoundBody} {name : String} :
    (s.mergeFilter bound).outcome ≠ .error (.argument (.unknownColumn name)) := by
  intro h
  obtain ⟨hplain, hcomposed⟩ := mergeFilter_eq_error h
  obtain ⟨type, hoccurs, hfind⟩ := occurs_of_composed_eq_error hcomposed
  have hname := List.all_eq_true.mp hplain name (mem_rowColumns hoccurs)
  rw [Stage.isPlain, show s.column? name = none from hfind] at hname
  cases hname

theorem bindFilter_unknownColumn {name : String}
    (h : (bindFilter nested s (.lambda [p] predicate)).outcome = .error (.argument (.unknownColumn name))) :
    (bindBody nested s.toFilter p.name predicate).outcome = .error (.argument (.unknownColumn name)) := by
  rcases bindFilter_eq_error h with h | ⟨bound, h⟩
  · exact h
  · exact absurd h mergeFilter_ne_unknownColumn

/-! ### Projections -/

/-- Every value of a selector keeps its scope in the column that computes it. -/
def ColumnsKeepScope (nested : Expr → BindM Stage) (row : String) (own : Expr → Prop) (fits : Stage → Prop)
    (selector : Expr) (columns : List Column) : Prop :=
  List.Forall₂ (fun x c => KeepsScope nested row own fits x c.expr) selector.selected columns

theorem bindProjection_keepsScope {columns : List Column} {row : String}
    (hx : ∀ x ∈ selector.selected, NestsValues row x)
    (h : (bindProjection nested s row selector).outcome = .ok columns) :
    ColumnsKeepScope nested row (fun _ => False) Settled selector columns := by
  have hcolumns := (bindProjection_eq_ok h).2
  refine List.forall₂_of_length_eq_of_get hcolumns.length_eq fun i hi hi' => ?_
  obtain ⟨bound, hbound, hexpr⟩ := hcolumns.get hi hi'
  rw [hexpr]
  exact bindBody_keepsScope (hx _ (List.get_mem _ _)) hbound

theorem bindSelect_keepsScope (hp : s.projected = true) (hg : s.grouping = none)
    (hx : ∀ x ∈ selector.selected, NestsValues q.name x)
    (h : (bindSelect nested s (.lambda [q] selector) declared).outcome = .ok s') :
    s' = s ∨ (s'.source = s.source ∧
        ColumnsKeepScope nested q.name s.Owns (Undisturbed s.columns) selector s'.columns) ∨
      (s'.source = .stage s ∧ ColumnsKeepScope nested q.name (fun _ => False) Settled selector s'.columns) := by
  obtain ⟨q', body, heq, ⟨-, rfl⟩ | ⟨-, columns, element, projector, composed, s₁, hcolumns, -, hinput, hmerge, rfl⟩⟩ :=
    bindSelect_eq_ok h
  · exact .inl rfl
  · cases heq
    rw [toSelect_eq_self hg] at hcolumns hinput hmerge
    have hscope := bindProjection_keepsScope hx hcolumns
    rw [Stage.inputColumns, if_pos hp] at hinput
    rcases mergeColumns_eq_ok hmerge with ⟨-, rfl⟩ | ⟨-, rfl⟩
    · refine .inr (.inl ⟨rfl, ?_⟩)
      have hcomposed := composeColumns_eq_ok hinput
      refine List.forall₂_of_length_eq_of_get (hscope.length_eq.trans hcomposed.length_eq) fun i hi hi' => ?_
      have hi₁ : i < columns.length := hscope.length_eq ▸ hi
      exact (hscope.get hi hi₁).composed (hcomposed.get hi₁ hi').2
    · exact .inr (.inr ⟨s.wrapped_source, hscope⟩)

/-- No chain of a body is disturbed by `columns`. -/
def ChainsUndisturbed (nested : Expr → BindM Stage) (columns : List Column) (row : String) (x : Expr) : Prop :=
  ∀ x', x.inlined = .ok x' → ∀ c, Expr.Reaches row c x' → c.isChain row = true →
    ∀ t, (nested c).outcome = .ok t → Undisturbed columns t

theorem bindSelect_unknownColumn {name : String} (hp : s.projected = true) (hg : s.grouping = none)
    (hx : ∀ x ∈ selector.selected, NestsValues q.name x)
    (hfits : ∀ x ∈ selector.selected, ChainsUndisturbed nested s.columns q.name x)
    (h : (bindSelect nested s (.lambda [q] selector) declared).outcome = .error (.argument (.unknownColumn name))) :
    (bindProjection nested s q.name selector).outcome = .error (.argument (.unknownColumn name)) ∨
      ∃ columns, (bindProjection nested s q.name selector).outcome = .ok columns ∧
        ∃ c ∈ columns, ∃ type, Expr.Has (.column name .row type) c.expr := by
  have herror := bindSelect_eq_error h
  rw [toSelect_eq_self hg] at herror
  rcases herror with h | ⟨columns, hcolumns, h | h⟩
  · exact .inl h
  · obtain ⟨_, _, _, ⟨⟩⟩ := projectionShape_eq_error h
  · refine .inr ⟨columns, hcolumns, ?_⟩
    rw [Stage.inputColumns, if_pos hp] at h
    obtain ⟨c, hc, h⟩ := composeColumns_eq_error h
    obtain ⟨x, hsel, x', hinlined, hcarries⟩ := exists_of_forall₂_right (bindProjection_keepsScope hx hcolumns) hc
    refine ⟨c, hc, has_of_composed_eq_error (fun y hy hhas => ?_) h⟩
    rcases hcarries.only y hy hhas with ⟨⟨⟩⟩ | ⟨chain, t, t', hreach, hchain, ht, himage, rfl⟩
    have hundisturbed := hfits x hsel x' hinlined chain hreach hchain t ht
    rw [himage hundisturbed.toSettled]
    exact ⟨t, chain.type, rfl, hundisturbed⟩

/-- Over a projected stage, the chains of a predicate and of a selector are the stages that they are bound to, if these
are not disturbed by the columns of the stage; where the operation starts a new stage, the columns do not matter. No
predicate fails for want of a column inside a chain, and a selector only if a chain of it is disturbed. -/
theorem nested_chains_keep_scope (hp : s.projected = true) (hg : s.grouping = none)
    (hpredicate : NestsValues p.name predicate) (hselector : ∀ x ∈ selector.selected, NestsValues q.name x) :
    (∀ s', (bindFilter nested s (.lambda [p] predicate)).outcome = .ok s' →
      ∃ f, (s' = s.toFilter.addFilter f ∧
          KeepsScope nested p.name s.toFilter.Owns (Undisturbed s.toFilter.columns) predicate f) ∨
        (s' = { s.toFilter.wrapped with filter := some f } ∧
          KeepsScope nested p.name (fun _ => False) Settled predicate f)) ∧
    (∀ name, (bindFilter nested s (.lambda [p] predicate)).outcome = .error (.argument (.unknownColumn name)) →
      (bindBody nested s.toFilter p.name predicate).outcome = .error (.argument (.unknownColumn name))) ∧
    (∀ s', (bindSelect nested s (.lambda [q] selector) declared).outcome = .ok s' →
      s' = s ∨ (s'.source = s.source ∧
          ColumnsKeepScope nested q.name s.Owns (Undisturbed s.columns) selector s'.columns) ∨
        (s'.source = .stage s ∧ ColumnsKeepScope nested q.name (fun _ => False) Settled selector s'.columns)) ∧
    (∀ name, (∀ x ∈ selector.selected, ChainsUndisturbed nested s.columns q.name x) →
      (bindSelect nested s (.lambda [q] selector) declared).outcome = .error (.argument (.unknownColumn name)) →
      (bindProjection nested s q.name selector).outcome = .error (.argument (.unknownColumn name)) ∨
        ∃ columns, (bindProjection nested s q.name selector).outcome = .ok columns ∧
          ∃ c ∈ columns, ∃ type, Expr.Has (.column name .row type) c.expr) :=
  ⟨fun _ h => bindFilter_keepsScope hp hg hpredicate h, fun _ h => bindFilter_unknownColumn h,
    fun _ h => bindSelect_keepsScope hp hg hselector h, fun _ hfits h => bindSelect_unknownColumn hp hg hselector hfits h⟩

/-! ### Contacts and a count of them -/

def contactType : DataType := .record "Contact" [⟨"Name", .string, false⟩, ⟨"Email", .string, false⟩]

def contactField (row name : String) : Expr := .member (some (.parameter row .unknown)) name .string

/-- Contacts with the given fields under other names. -/
def renamedContacts (fields : List (String × String)) : Expr :=
  .call none "Select"
    [.source "contacts" contactType,
      .lambda [⟨"r", .unknown⟩] (.recordWith .unknown (fields.map fun f => (f.1, contactField "r" f.2)))]
    (.query .unknown)

/-- The stage of `renamedContacts`. -/
def contactStage (fields : List (String × String)) : Stage :=
  { Stage.base "contacts" contactType with
    projected := true
    columns := fields.map fun f => ⟨f.1, .field f.2 .string⟩
    element := .record "Projection" (fields.map fun f => ⟨f.1, .string, false⟩)
    projector := .record (fields.map fun f => ⟨f.1, .string⟩) }

/-- How many contacts are called Ann. -/
def countAnns : Expr :=
  .call none "Count"
    [.source "contacts" contactType,
      .lambda [⟨"x", .unknown⟩] (.binary .equal (contactField "x" "Name") (.constant (.string "Ann") .string) .bool)]
    .int64

/-- The count of the contacts of which a field is `Ann`. -/
def annCount (field : String) : Stage :=
  aggregateStage
    { Stage.base "contacts" contactType with
      filter := some (.binary .equal (.field field .string) (.constant (.string "Ann") .string) .bool)
      columns := [⟨"Name", .field field .string⟩] }
    "COUNT" (.bagField "" .unknown) .int64

/-- Chains nested in the lambdas of a chain, which have none themselves. -/
def nestedOnce (e : Expr) : BindM Stage := do pure (← bindNested 1 e).stage

/-- Whether there is a contact called Ann. -/
def anyAnns (count : Expr) : Expr := .binary .greaterThan count (.constant (.int 0) .int64) .bool

/-- The address of a contact beside the count. -/
def annShare : Expr := .recordWith .unknown [("Mail", contactField "r" "Mail"), ("Anns", countAnns)]

/-- Whether the name of a contact without one is Ann. -/
def comparedNull : Expr :=
  .call none "First"
    [.call none "Select"
      [.call none "Select"
        [.source "contacts" contactType, .lambda [⟨"x", .unknown⟩] (.constant .null .string)] (.query .string),
        .lambda [⟨"y", .unknown⟩]
          (.binary .equal (.parameter "y" .string) (.constant (.string "Ann") .string) .bool)]
      (.query .bool)]
    .bool

/-- One row with a value. -/
def nullStage (value : Expr) : Stage :=
  { Stage.base "contacts" contactType with
    projected := true
    columns := [⟨"value", value⟩]
    limit := some 1
    element := .bool
    projector := .value "value" .bool }

theorem nestsValues_countAnns : NestsValues "r" countAnns := by
  intro x' hx
  have hself : countAnns.inlined = .ok countAnns := by rfl
  rw [hself] at hx
  cases hx
  intro y hy
  rw [Expr.reaches_eq_self rfl hy]
  exact ⟨rfl, fun _ => rfl⟩

theorem nestsValues_anyAnns : NestsValues "r" (anyAnns countAnns) := by
  intro x' hx
  have hself : (anyAnns countAnns).inlined = .ok (anyAnns countAnns) := by rfl
  rw [hself] at hx
  cases hx
  intro y hy
  cases hy with
  | self => exact ⟨rfl, fun hchain => absurd hchain Bool.false_ne_true⟩
  | child _ hc hy =>
    simp only [anyAnns, Expr.children, List.mem_cons, List.not_mem_nil, or_false] at hc
    rcases hc with rfl | rfl
    · rw [Expr.reaches_eq_self rfl hy]
      exact ⟨rfl, fun _ => rfl⟩
    · cases hy with
      | self => exact ⟨rfl, fun hchain => absurd hchain Bool.false_ne_true⟩
      | child _ hc _ => cases hc

theorem contains_annCount {field : String} {x : Expr} (h : (annCount field).Contains x) :
    x ∈ [.binary .equal (.field field .string) (.constant (.string "Ann") .string) .bool, .field field .string,
      .constant (.string "Ann") .string, .function "COUNT" [.bagField "" .unknown] .int64, .bagField "" .unknown] := by
  have hexprs : (annCount field).exprs = [.binary .equal (.field field .string) (.constant (.string "Ann") .string) .bool,
      .field field .string, .function "COUNT" [.bagField "" .unknown] .int64] := rfl
  obtain ⟨c, hc, h⟩ := h
  rw [hexprs] at hc
  simp only [List.mem_cons, List.not_mem_nil, or_false] at hc ⊢
  rcases hc with rfl | rfl | rfl
  · cases h with
    | self => exact .inl rfl
    | child hc h =>
      simp only [Expr.children, List.mem_cons, List.not_mem_nil, or_false] at hc
      rcases hc with rfl | rfl
      · cases h with
        | self => simp
        | child hc _ => cases hc
      · cases h with
        | self => simp
        | child hc _ => cases hc
  · cases h with
    | self => simp
    | child hc _ => cases hc
  · cases h with
    | self => simp
    | child hc h =>
      simp only [Expr.function, Expr.children, Option.toList, List.nil_append, List.mem_cons, List.not_mem_nil, or_false] at hc
      subst hc
      cases h with
      | self => simp
      | child hc _ => cases hc

theorem annCount_ne : annCount "Email" ≠ annCount "Name" := by
  intro h
  have hcolumns := congrArg (fun s => s.exprs.flatMap Expr.rowColumns) h
  revert hcolumns
  decide

/-- The count reads names, so it fits columns that pass the name on. -/
theorem undisturbed_annCount {columns : List Column} {c : Column} (hc : Column.find? columns "Name" = some c)
    (hexpr : c.expr = .field "Name" .string) : Undisturbed columns (annCount "Name") where
  width inner type h := by
    have := contains_annCount h
    simp [Expr.function, Expr.bagField, Expr.field] at this
  nulls x h := by
    have := contains_annCount h
    simp only [List.mem_cons, List.not_mem_nil, or_false] at this
    rcases this with rfl | rfl | rfl | rfl | rfl <;> rfl
  columns name type h := by
    have := contains_annCount h
    simp [Expr.function, Expr.bagField, Expr.field] at this
    obtain ⟨rfl, rfl⟩ := this
    exact ⟨c, hc, hexpr⟩

/-- Contacts by name and address. -/
def namedContacts : Stage := contactStage [("Name", "Name"), ("Mail", "Email")]

theorem nested_chains_keep_scope_countAnns :
    ∃ s f s₁, namedContacts.projected = true ∧ namedContacts.grouping = none ∧
      NestsValues "r" (anyAnns countAnns) ∧ (∀ x ∈ annShare.selected, NestsValues "r" x) ∧
      (bindFilter nestedOnce namedContacts (.lambda [⟨"r", .unknown⟩] (anyAnns countAnns))).outcome = .ok s ∧
      s.filter = some f ∧ Expr.Has (.scalar (annCount "Name") .int64) f ∧
      (bindSelect nestedOnce namedContacts (.lambda [⟨"r", .unknown⟩] annShare) .unknown).outcome = .ok s₁ ∧
      ∃ c ∈ s₁.columns, Expr.Has (.scalar (annCount "Name") .int64) c.expr := by
  have hmail : NestsValues "r" (contactField "r" "Mail") := by
    intro x' hx
    cases hx
    intro y hy
    rw [Expr.reaches_eq_self rfl hy]
    exact ⟨rfl, fun hchain => absurd hchain Bool.false_ne_true⟩
  have hshare : ∀ x ∈ annShare.selected, NestsValues "r" x := by
    intro x hx
    simp only [annShare, Expr.recordWith, Expr.selected, List.map_cons, List.map_nil, List.filterMap_cons,
      List.filterMap_nil, List.mem_cons, List.not_mem_nil, or_false] at hx
    rcases hx with rfl | rfl
    · exact hmail
    · exact nestsValues_countAnns
  have hfits : Undisturbed namedContacts.columns (annCount "Name") :=
    undisturbed_annCount (c := ⟨"Name", .field "Name" .string⟩) rfl rfl
  have hcount : (nestedOnce countAnns).outcome = .ok (annCount "Name") := by rfl
  have hreach : Expr.Reaches "r" countAnns (anyAnns countAnns) := .child rfl List.mem_cons_self .self
  obtain ⟨hfilter, -, hselect, -⟩ := @nested_chains_keep_scope nestedOnce namedContacts ⟨"r", .unknown⟩ ⟨"r", .unknown⟩
    (anyAnns countAnns) annShare .unknown rfl rfl nestsValues_anyAnns hshare
  obtain ⟨s, hs⟩ := except_isOk (show (bindFilter nestedOnce namedContacts
    (.lambda [⟨"r", .unknown⟩] (anyAnns countAnns))).outcome.isOk = true by rfl)
  obtain ⟨f, hf⟩ := hfilter s hs
  have hkept : s.filter = some f ∧ Expr.Has (.scalar (annCount "Name") .int64) f := by
    rcases hf with ⟨rfl, hscope⟩ | ⟨rfl, hscope⟩
    · exact ⟨rfl, hscope.has rfl hreach rfl hcount hfits⟩
    · exact ⟨rfl, hscope.has rfl hreach rfl hcount hfits.toSettled⟩
  obtain ⟨s₁, hs₁⟩ := except_isOk (show (bindSelect nestedOnce namedContacts
    (.lambda [⟨"r", .unknown⟩] annShare) .unknown).outcome.isOk = true by rfl)
  have hmem : countAnns ∈ annShare.selected := List.mem_cons_of_mem _ List.mem_cons_self
  have hcolumn : ∃ c ∈ s₁.columns, Expr.Has (.scalar (annCount "Name") .int64) c.expr := by
    rcases hselect s₁ hs₁ with rfl | ⟨-, hscope⟩ | ⟨-, hscope⟩
    · have hnames := congrArg (fun r => r.toOption.map fun t => Column.names t.columns) hs₁
      exact absurd hnames (by decide +kernel)
    · obtain ⟨c, hc, hscope⟩ := exists_of_forall₂_left hscope hmem
      exact ⟨c, hc, hscope.has rfl .self rfl hcount hfits⟩
    · obtain ⟨c, hc, hscope⟩ := exists_of_forall₂_left hscope hmem
      exact ⟨c, hc, hscope.has rfl .self rfl hcount hfits.toSettled⟩
  exact ⟨s, f, s₁, rfl, rfl, nestsValues_anyAnns, hshare, hs, hkept.1, hkept.2, hs₁, hcolumn⟩

/-- A stage with other names in place of its own: the count is then of other contacts, or there is no column to read. A
comparison with null that binding the chain has left is made a null test. -/
theorem nested_chains_lose_scope :
    (renamedContacts [("Name", "Email"), ("Mail", "Email")]).bound.outcome =
        .ok ⟨contactStage [("Name", "Email"), ("Mail", "Email")], .many⟩ ∧
      (nestedOnce countAnns).outcome = .ok (annCount "Name") ∧
      (bindFilter nestedOnce (contactStage [("Name", "Email"), ("Mail", "Email")])
        (.lambda [⟨"r", .unknown⟩] (anyAnns countAnns))).outcome =
          .ok ((contactStage [("Name", "Email"), ("Mail", "Email")]).addFilter
            (anyAnns (.scalar (annCount "Email") .int64))) ∧
      annCount "Email" ≠ annCount "Name" ∧
      (renamedContacts [("Copy", "Email"), ("Mail", "Email")]).bound.outcome =
        .ok ⟨contactStage [("Copy", "Email"), ("Mail", "Email")], .many⟩ ∧
      (bindProjection nestedOnce (contactStage [("Copy", "Email"), ("Mail", "Email")]) "r" annShare).outcome.isOk = true ∧
      (bindSelect nestedOnce (contactStage [("Copy", "Email"), ("Mail", "Email")])
        (.lambda [⟨"r", .unknown⟩] annShare) .unknown).outcome = .error (.argument (.unknownColumn "Name")) ∧
      (nestedOnce comparedNull).outcome = .ok (nullStage (.binary .equal (.constant .null .string)
        (.constant (.string "Ann") .string) .bool)) ∧
      (bindFilter nestedOnce namedContacts (.lambda [⟨"r", .unknown⟩] comparedNull)).outcome =
          .ok (namedContacts.addFilter (.scalar (nullStage (.isNull (.constant (.string "Ann") .string))) .bool)) :=
  ⟨by rfl, by rfl, by rfl, annCount_ne, by rfl, by rfl, by rfl, by rfl, by rfl⟩

end PigChain
