import PigChain.Proofs.Fields
import PigChain.Proofs.ProjectionRows
import PigChain.Proofs.RowResult

/-!
# Well scoped stages

A clause of a stage may name a field of the relation it is run on, and a bag only where that relation has one. The binder
resolves references against what a stage outputs and then places the clause before or after the columns, the grouping
and the ordering; each combinator keeps the names in scope wherever it places them.
-/

namespace PigChain

variable {L : Value → Prop} {base : List String} {nested : Expr → BindM Stage} {s s' : Stage} {row : String}
  {e e' : Expr}

/-! ### Expressions in scope -/

/-- An expression over rows with the fields `fields`, which have a bag or not: every column of the row is one of the
fields, and columns of the bag stand only where there is one. -/
structure Expr.InScope (fields : List String) (bag : Bool) (e : Expr) : Prop where
  row : ∀ name type, Expr.Occurs (.column name .row type) e → name ∈ fields
  group : ∀ name type, Expr.Occurs (.column name .group type) e → bag = true

/-- A plain expression in scope. -/
structure Expr.PlainIn (L : Value → Prop) (fields : List String) (bag : Bool) (e : Expr) : Prop where
  plain : PlainExpr L bag e
  row : ∀ name type, Expr.Occurs (.column name .row type) e → name ∈ fields

theorem PlainExpr.bag {g : Bool} (h : PlainExpr L g e) {name : String} {type : DataType}
    (ho : Expr.Occurs (.column name .group type) e) : g = true := by
  induction h with
  | constant => cases occurs_of_leaf rfl ho
  | column => cases occurs_of_leaf rfl ho
  | aggregate hg _ => exact hg
  | unary _ _ ih =>
    cases ho with
    | child hc ho => exact ih (List.mem_singleton.mp hc ▸ ho)
  | binary _ _ _ ihx ihy =>
    cases ho with
    | child hc ho =>
      simp only [Expr.children, List.mem_cons, List.not_mem_nil, or_false] at hc
      rcases hc with rfl | rfl
      · exact ihx ho
      · exact ihy ho
  | conditional _ _ _ _ ihc ihx ihy =>
    cases ho with
    | child hc ho =>
      simp only [Expr.children, List.mem_cons, List.not_mem_nil, or_false] at hc
      rcases hc with rfl | rfl | rfl
      · exact ihc ho
      · exact ihx ho
      · exact ihy ho
  | isNull _ ih =>
    cases ho with
    | child hc ho => exact ih (List.mem_singleton.mp hc ▸ ho)
  | method _ _ _ ihx ihargs =>
    cases ho with
    | child hc ho =>
      rcases List.mem_cons.mp hc with rfl | hc
      · exact ihx ho
      · exact ihargs _ hc ho

theorem Expr.PlainIn.inScope {fields : List String} {bag : Bool} (h : e.PlainIn L fields bag) : e.InScope fields bag :=
  ⟨h.row, fun _ _ => h.plain.bag⟩

theorem PlainExpr.weaken {g g' : Bool} (h : PlainExpr L g e) (hg : g = true → g' = true) : PlainExpr L g' e := by
  cases g with
  | true =>
    rw [hg rfl]
    exact h
  | false =>
    cases g' with
    | true => exact h.grouped
    | false => exact h

/-! ### Stages in scope -/

/-- The clauses of a stage name fields of the relation they are run on. The filter and the columns are run on the input,
the grouping on what the columns make, the ordering on what the grouping leaves. -/
structure Stage.WellScoped (base : List String) (s : Stage) : Prop where
  filter : ∀ x ∈ s.filter, x.InScope (s.source.fields base) s.source.hasBag
  columns : s.projected = true → ∀ c ∈ s.columns, c.expr.InScope (s.source.fields base) s.source.hasBag
  grouping : ∀ x ∈ Grouping.exprs s.grouping, x.InScope (s.generated base) s.passesBag
  orderBy : ∀ o ∈ s.orderBy, o.expr.InScope (s.fields base) s.hasBag

/-- A well scoped stage of plain clauses. -/
structure Stage.Scoped (L : Value → Prop) (base : List String) (s : Stage) : Prop where
  filter : ∀ x ∈ s.filter, x.PlainIn L (s.source.fields base) s.source.hasBag
  columns : s.projected = true → ∀ c ∈ s.columns, c.expr.PlainIn L (s.source.fields base) s.source.hasBag
  grouping : ∀ x ∈ Grouping.exprs s.grouping, x.PlainIn L (s.generated base) s.passesBag
  orderBy : ∀ o ∈ s.orderBy, o.expr.PlainIn L (s.fields base) s.hasBag

theorem Stage.Scoped.wellScoped (h : s.Scoped L base) : s.WellScoped base where
  filter x hx := (h.filter x hx).inScope
  columns hp c hc := (h.columns hp c hc).inScope
  grouping x hx := (h.grouping x hx).inScope
  orderBy o ho := (h.orderBy o ho).inScope

/-- The stage `t` is one of those that a stage reads, or the stage itself. -/
inductive Stage.Within (t : Stage) : Stage → Prop where
  | self : Stage.Within t t
  | inner {s inner : Stage} (hs : s.source = .stage inner) (h : Stage.Within t inner) : Stage.Within t s

/-- What flat chains keep true of their stages, besides being regular. -/
structure Stage.Placed (L : Value → Prop) (base : List String) (s : Stage) : Prop extends s.Regular L where
  clauses : ∀ t : Stage, t.Within s → t.Scoped L base
  group : s.element.isGrouping = true → "group" ∈ s.fields base ∧ s.hasBag = true
  passed : s.projected = false → ∀ record fields, s.element = .record record fields →
    ∀ f ∈ fields, f.name ∈ s.source.fields base

theorem scoped_of_source (h : s.Scoped L base)
    (hsource : ∀ inner, s.source = .stage inner → ∀ t : Stage, t.Within inner → t.Scoped L base) :
    ∀ t : Stage, t.Within s → t.Scoped L base := by
  intro t ht
  cases ht with
  | self => exact h
  | inner hs ht => exact hsource _ hs t ht

theorem Stage.Placed.source (h : s.Placed L base) :
    ∀ inner, s.source = .stage inner → ∀ t : Stage, t.Within inner → t.Scoped L base :=
  fun _ hs t ht => h.clauses t (.inner hs ht)

theorem Stage.Placed.ungrouped_of_not_grouping (h : s.Placed L base) (he : s.element.isGrouping = false) :
    s.grouping = none := by
  cases hg : s.grouping with
  | none => rfl
  | some g =>
    have hgroup := h.grouped (by rw [hg]; rfl)
    rw [he] at hgroup
    cases hgroup

/-! ### What is read of a stage -/

theorem fieldColumn_field {name : String} {declared : DataType} (hs : s.Placed L base)
    (h : fieldColumn s name declared = .ok e) : ∃ n t, e = .column n .row t ∧ n ∈ s.fields base := by
  cases hg : s.element.isGrouping with
  | true =>
    cases he : s.element with
    | grouping key element =>
      unfold fieldColumn at h
      rw [he] at h
      dsimp only at h
      split at h
      · cases h
        exact ⟨"group", key, rfl, (hs.group hg).1⟩
      · cases h
    | _ => rw [he] at hg; cases hg
  | false =>
    rw [Stage.fields_of_ungrouped (hs.ungrouped_of_not_grouping hg)]
    rcases fieldColumn_eq_ok h with ⟨key, element, he, -⟩ | ⟨hp, c, hc, rfl⟩ | ⟨hp, fields, f, hfields, hf, rfl⟩ |
      ⟨hp, -, hfields, -⟩
    · rw [he] at hg
      cases hg
    · obtain ⟨hmem, rfl⟩ := Column.find?_eq_some hc
      rw [Stage.generated_of_projected hp]
      exact ⟨_, _, rfl, List.mem_map_of_mem hmem⟩
    · rw [Stage.generated_of_passing hp]
      cases he : s.element with
      | record record fs =>
        rw [he] at hfields
        cases hfields
        have hname : f.name = name := by simpa using List.find?_some hf
        exact ⟨_, _, rfl, hname ▸ hs.passed hp record fields he f (List.mem_of_find?_eq_some hf)⟩
      | _ => rw [he] at hfields; cases hfields
    · have hpass : s.passesRows = true := by rw [Stage.passesRows, hp, hg]; rfl
      obtain ⟨⟨record, fields, he⟩, -⟩ := hs.noted hpass
      rw [he] at hfields
      cases hfields

theorem rowColumn_field (hs : s.Placed L base) (h : rowColumn s = .ok e) :
    ∃ n t, e = .column n .row t ∧ n ∈ s.fields base := by
  rcases rowColumn_eq_ok h with ⟨hv, c, rest, hcols, rfl⟩ | ⟨hp, rfl⟩
  · have hg : s.grouping = none := by
      unfold Stage.isValue at hv
      simp only [Bool.and_eq_true] at hv
      exact Option.isNone_iff_eq_none.mp hv.1.1.2
    rw [Stage.fields_of_ungrouped hg, Stage.generated_of_projected (isValue_projected hv), hcols]
    exact ⟨_, _, rfl, List.mem_cons_self⟩
  · -- Rows that pass through are records, not bare values.
    have hparts := hp
    unfold Stage.isPrimitive at hparts
    simp only [Bool.and_eq_true, Bool.not_eq_true'] at hparts
    have hpass : s.passesRows = true := by
      rw [Stage.passesRows, hparts.1.1, DataType.isGrouping_of_groupFree (isPrimitive_element hp).2]
      rfl
    obtain ⟨⟨record, fields, he⟩, -⟩ := hs.noted hpass
    rw [he] at hparts
    cases hparts.2

/-- A node of a flat body that is walked is no field and no column, and its children are flat. -/
theorem FlatBody.walked (h : FlatBody L row e) (hw : e.isWalked row = true) :
    e.kind ≠ .column ∧ e.kind ≠ .scalar ∧ e.kind ≠ .member ∧ ∀ c ∈ e.children, FlatBody L row c := by
  cases h with
  | constant => exact ⟨Kind.noConfusion, Kind.noConfusion, Kind.noConfusion, fun c hc => by cases hc⟩
  | row => simp [Expr.isWalked] at hw
  | field => simp [Expr.isWalked, isRow_self] at hw
  | aggregate => simp [Expr.isWalked, isRow_self] at hw
  | unary hx _ =>
    exact ⟨Kind.noConfusion, Kind.noConfusion, Kind.noConfusion, by simpa [Expr.children] using hx⟩
  | binary hx hy _ =>
    exact ⟨Kind.noConfusion, Kind.noConfusion, Kind.noConfusion, by simpa [Expr.children] using ⟨hx, hy⟩⟩
  | conditional hc hx hy _ =>
    exact ⟨Kind.noConfusion, Kind.noConfusion, Kind.noConfusion, by simpa [Expr.children] using ⟨hc, hx, hy⟩⟩
  | isNull hx =>
    exact ⟨Kind.noConfusion, Kind.noConfusion, Kind.noConfusion, by simpa [Expr.children] using hx⟩
  | method hx hargs _ =>
    exact ⟨Kind.noConfusion, Kind.noConfusion, Kind.noConfusion, by simpa [Expr.children] using ⟨hx, hargs⟩⟩

theorem FlatBody.isChain_eq_false (h : FlatBody L row e) : e.isChain row = false := by
  cases h with
  | aggregate => simp [Expr.isChain, isRow_self]
  | method => simp [Expr.isChain, extendsChain]
  | _ => rfl

theorem recordField?_kind {x : Expr} (h : recordField? x = some e) : x.kind = .member := by
  unfold recordField? at h
  split at h
  · rfl
  · cases h

theorem rowBinder_run_fields (hs : s.Placed L base) (h : FlatBody L row e)
    (hy : Yields ((rowBinder nested s row).run e) e') {name : String} {type : DataType}
    (ho : Expr.Occurs (.column name .row type) e') : name ∈ s.fields base := by
  have hread : ∀ {x : Expr}, (∃ n t, x = .column n .row t ∧ n ∈ s.fields base) →
      Expr.Occurs (.column name .row type) x → name ∈ s.fields base := by
    rintro x ⟨n, t, rfl, hn⟩ ho
    cases occurs_of_leaf rfl ho
    exact hn
  induction e using Expr.childInduction generalizing e' with
  | h e ih =>
    cases rowStep_of_run hy with
    | row hr => exact hread (rowColumn_field hs hr) ho
    | field _ hf => exact hread (fieldColumn_field hs hf) ho
    | aggregate _ ha =>
      -- Of the columns of an aggregate none is a column of the row.
      obtain ⟨function, key, element, n, t', -, -, rfl⟩ := groupAggregate_eq_ok ha
      cases ho with
      | child hc ho =>
        rw [List.mem_singleton.mp hc] at ho
        cases occurs_of_leaf rfl ho
    | chain hc _ => rw [h.isChain_eq_false] at hc; cases hc
    | walk hw hx =>
      obtain ⟨hcolumn, hscalar, -, hflat⟩ := h.walked hw
      obtain ⟨cs, hcs, rfl, -⟩ := yields_rewalk hscalar hx
      obtain ⟨c', hc', ho⟩ := occurs_withChildren (fun hk => hcolumn hk.symm) hcs.length_eq.symm ho
      obtain ⟨c, hc, hrun⟩ := exists_of_forall₂_right hcs hc'
      exact ih c hc (hflat c hc) hrun ho
    | dotted hw hx hd =>
      obtain ⟨-, hscalar, hmember, -⟩ := h.walked hw
      obtain ⟨cs, -, rfl, -⟩ := yields_rewalk hscalar hx
      rw [← e.kind_withChildren cs] at hmember
      exact absurd (recordField?_kind hd) hmember

theorem bindBody_plainIn {bound : BoundBody} (hs : s.Placed L base) (h : FlatBody L row e)
    (hb : (bindBody nested s row e).outcome = .ok bound) : bound.expr.PlainIn L (s.fields base) s.hasBag := by
  refine ⟨(bindBody_plain hs.toRegular h hb).weaken fun hg => (hs.group hg).2, fun name type ho => ?_⟩
  obtain ⟨x, y, hx, hy, hnull⟩ := bindBody_eq_ok hb
  rw [inlined_flat h] at hx
  cases hx
  exact rowBinder_run_fields hs h ⟨[], bound.noted, hy⟩ (occurs_of_nullComparisons hnull ho)

theorem bindProjection_plainIn {columns : List Column} (hs : s.Placed L base) (h : FlatSelector L row e)
    (hb : (bindProjection nested s row e).outcome = .ok columns) :
    ∀ c ∈ columns, c.expr.PlainIn L (s.fields base) s.hasBag := by
  intro c hc
  obtain ⟨x, hx, bound, hbound, hexpr⟩ := exists_of_forall₂_right (bindProjection_eq_ok hb).2 hc
  rw [hexpr]
  exact bindBody_plainIn hs (h x hx) hbound

/-! ### What keeps a stage in scope -/

namespace Stage.Placed

theorem wrapped (hs : s.Placed L base) : s.wrapped.Placed L base := by
  have hcolumns : s.wrapped.projected = true → ∀ c ∈ s.wrapped.columns,
      c.expr.PlainIn L (s.wrapped.source.fields base) s.wrapped.source.hasBag := by
    intro hp c hc
    have hboth : (s.projected && s.grouping.isNone) = true := by
      cases hb : s.projected && s.grouping.isNone with
      | true => rfl
      | false => rw [Stage.wrapped_of_passing hb] at hp; cases hp
    rw [Bool.and_eq_true, Option.isNone_iff_eq_none] at hboth
    rw [Stage.wrapped_of_projected hboth.1 hboth.2] at hc
    obtain ⟨d, hd, rfl⟩ := List.mem_map.mp hc
    rw [s.wrapped_source]
    refine ⟨.column (hs.columns hboth.1 d hd).type_groupFree, fun name type ho => ?_⟩
    cases occurs_of_leaf rfl ho
    show d.name ∈ s.fields base
    rw [Stage.fields_of_ungrouped hboth.2, Stage.generated_of_projected hboth.1]
    exact List.mem_map_of_mem hd
  have hscoped : s.wrapped.Scoped L base := by
    refine ⟨fun x hx => ?_, hcolumns, fun x hx => ?_, fun o ho => ?_⟩
    · rw [s.wrapped_filter] at hx
      cases hx
    · rw [s.wrapped_grouping] at hx
      cases hx
    · rw [s.wrapped_orderBy] at ho
      cases ho
  refine ⟨hs.toRegular.wrapped, scoped_of_source hscoped fun inner hi => ?_, fun hg => ?_, fun hp record fields he => ?_⟩
  · rw [s.wrapped_source] at hi
    cases hi
    exact hs.clauses
  · rw [Stage.fields_wrapped, Stage.hasBag_wrapped]
    exact hs.group (s.wrapped_element ▸ hg)
  · -- The inner rows are records that pass through as well.
    rw [s.wrapped_element] at he
    have hgrouping : s.grouping = none := hs.ungrouped_of_not_grouping (by rw [he]; rfl)
    have hpassing : s.projected = false := by
      cases hproj : s.projected with
      | false => rfl
      | true => rw [Stage.wrapped_of_projected hproj hgrouping] at hp; cases hp
    rw [s.wrapped_source]
    show ∀ f ∈ fields, f.name ∈ s.fields base
    rw [Stage.fields_of_ungrouped hgrouping, Stage.generated_of_passing hpassing]
    exact hs.passed hpassing record fields he

theorem openIf (hs : s.Placed L base) (closed : Bool) : (s.openIf closed).Placed L base := by
  cases closed with
  | true => exact hs.wrapped
  | false => exact hs

theorem self (hs : s.Placed L base) : s.Scoped L base := hs.clauses s .self

/-- A change of the filter or the ordering, or of columns that are only noted, leaves the output as it is. -/
theorem update (hs : s.Placed L base) (hr : s'.Regular L) (hsource : s'.source = s.source)
    (helem : s'.element = s.element) (hprojected : s'.projected = s.projected) (hgrouping : s'.grouping = s.grouping)
    (hcolumns : s.projected = true → s'.columns = s.columns)
    (hfilter : ∀ x ∈ s'.filter, x.PlainIn L (s.source.fields base) s.source.hasBag)
    (horder : ∀ o ∈ s'.orderBy, o.expr.PlainIn L (s.fields base) s.hasBag) : s'.Placed L base := by
  have hself := hs.self
  have hgenerated : s'.generated base = s.generated base := by
    cases hp : s.projected with
    | true =>
      rw [Stage.generated_of_projected hp, Stage.generated_of_projected (hprojected.trans hp), hcolumns hp]
    | false =>
      rw [Stage.generated_of_passing hp, Stage.generated_of_passing (hprojected.trans hp), hsource]
  have hbag : s'.passesBag = s.passesBag := by rw [Stage.passesBag, Stage.passesBag, hprojected, hsource]
  have hfields : s'.fields base = s.fields base := by rw [Stage.fields_eq, Stage.fields_eq, hgenerated, hgrouping]
  have hhasBag : s'.hasBag = s.hasBag := by rw [Stage.hasBag_eq, Stage.hasBag_eq, hbag, hgrouping]
  have hscoped : s'.Scoped L base := by
    refine ⟨?_, fun hp => ?_, ?_, ?_⟩
    · rw [hsource]
      exact hfilter
    · rw [hprojected] at hp
      rw [hsource, hcolumns hp]
      exact hself.columns hp
    · rw [hgrouping, hgenerated, hbag]
      exact hself.grouping
    · rw [hfields, hhasBag]
      exact horder
  refine ⟨hr, scoped_of_source hscoped ?_, ?_, ?_⟩
  · rw [hsource]
    exact hs.source
  · rw [helem, hfields, hhasBag]
    exact hs.group
  · rw [hprojected, helem, hsource]
    exact hs.passed

theorem take (hs : s.Placed L base) (count : UInt64) : (s.take count).Placed L base :=
  hs.update (hs.toRegular.take count) rfl rfl rfl rfl (fun _ => rfl) hs.self.filter hs.self.orderBy

theorem noteColumns (hs : s.Placed L base) (hp : s.projected = false) {noted : List Column}
    (hn : NotedFits s.element noted) : (s.noteColumns noted).Placed L base := by
  have hregular := hs.toRegular.noteColumns hp hn
  obtain ⟨added, -, heq⟩ := s.noteColumns_eq noted
  rw [heq] at hregular ⊢
  exact hs.update hregular rfl rfl rfl rfl (fun h => absurd (hp.symm.trans h) Bool.false_ne_true) hs.self.filter
    hs.self.orderBy

theorem addFilter (hs : s.Placed L base) {predicate : Expr}
    (h : predicate.PlainIn L (s.source.fields base) s.source.hasBag) : (s.addFilter predicate).Placed L base := by
  refine hs.update (hs.toRegular.addFilter predicate) rfl rfl rfl rfl (fun _ => rfl) (fun x hx => ?_) hs.self.orderBy
  cases hf : s.filter with
  | none =>
    rw [Stage.addFilter, hf] at hx
    cases hx
    exact h
  | some existing =>
    have hexisting := hs.self.filter existing hf
    rw [Stage.addFilter, hf] at hx
    cases hx
    refine ⟨.binary hexisting.plain h.plain rfl, fun name type ho => ?_⟩
    cases ho with
    | child hc ho =>
      simp only [Expr.combine, Expr.children, List.mem_cons, List.not_mem_nil, or_false] at hc
      rcases hc with rfl | rfl
      · exact hexisting.row name type ho
      · exact h.row name type ho

end Stage.Placed

/-! ### Combinators -/

/-- Before the columns, a column of the output is its definition over the input. -/
theorem composed_plainIn {columns : List Column} {fields : List String} {bag : Bool}
    (hcolumns : ∀ c ∈ columns, c.expr.PlainIn L fields bag) (h : PlainExpr L false e)
    (he : e.composed columns = .ok e') : e'.PlainIn L fields bag := by
  refine ⟨h.composed (fun c hc => (hcolumns c hc).plain) he, fun name type ho => ?_⟩
  obtain ⟨read, t, c, -, hfind, hdef⟩ := occurs_of_composed he ho
  exact (hcolumns c (Column.find?_eq_some hfind).1).row name type hdef

theorem placed_bindFilter {predicate : Expr} (hs : s.Placed L base) (hp : FlatLambda L predicate)
    (h : (bindFilter nested s predicate).outcome = .ok s') : s'.Placed L base := by
  obtain ⟨p, body, bound, rfl, hbound, hmerge⟩ := bindFilter_eq_ok h
  have hopen : s.toFilter.Placed L base := hs.openIf _
  have hg := s.toFilter_grouping
  have hbody := bindBody_plainIn hopen (hp p body rfl) hbound
  rcases mergeFilter_eq_ok hmerge with ⟨hproj, rfl⟩ | ⟨hproj, -, e, hcomposed, rfl⟩ | ⟨-, -, rfl⟩
  · -- The rows pass through, so what they output is what they are.
    have hnoted := (bindBody_flat_eq_ok hopen.noted (hp p body rfl) hbound).2
    rw [Stage.fields_of_ungrouped hg, Stage.hasBag_of_ungrouped hg, Stage.generated_of_passing hproj,
      Stage.passesBag, hproj] at hbody
    have hplaced := hopen.noteColumns hproj hnoted
    obtain ⟨added, -, heq⟩ := s.toFilter.noteColumns_eq bound.noted
    rw [heq] at hplaced ⊢
    exact hplaced.addFilter hbody
  · have hplain : PlainExpr L false bound.expr := by
      have := bindBody_plain hopen.toRegular (hp p body rfl) hbound
      rwa [Stage.isGrouping_eq_false hopen.toRegular hproj hg] at this
    exact hopen.addFilter (composed_plainIn (hopen.self.columns hproj) hplain hcomposed)
  · have hwrapped := hopen.wrapped
    refine hwrapped.update (hwrapped.toRegular.withFilter _) rfl rfl rfl rfl (fun _ => rfl) (fun x hx => ?_)
      hwrapped.self.orderBy
    cases hx
    rw [Stage.wrapped_source]
    exact hbody

theorem inputColumns_plainIn {columns composed : List Column} (hs : s.Placed L base) (hg : s.grouping = none)
    (hcolumns : ∀ c ∈ columns, c.expr.PlainIn L (s.fields base) s.hasBag)
    (hplain : ∀ c ∈ columns, PlainExpr L s.element.isGrouping c.expr)
    (h : s.inputColumns columns = .ok composed) :
    ∀ c ∈ composed, c.expr.PlainIn L (s.source.fields base) s.source.hasBag := by
  unfold Stage.inputColumns at h
  split at h
  · next hp =>
    rw [Stage.isGrouping_eq_false hs.toRegular hp hg] at hplain
    intro d hd
    obtain ⟨c, hc, -, hcomposed⟩ := exists_of_forall₂_right (composeColumns_eq_ok h) hd
    exact composed_plainIn (hs.self.columns hp) (hplain c hc) hcomposed
  · next hp =>
    cases h
    have hpassing : s.projected = false := by simpa using hp
    rw [Stage.fields_of_ungrouped hg, Stage.hasBag_of_ungrouped hg, Stage.generated_of_passing hpassing,
      Stage.passesBag, hpassing] at hcolumns
    exact hcolumns

/-- The columns of a projection are those of a stage over the same input, or of a new stage. -/
theorem placed_withColumns {columns : List Column} {element : DataType} (projector : Projector) (hs : s.Placed L base)
    (hg : s.grouping = none) (hnodup : (Column.names columns).Nodup) (helem : element.groupFree = true)
    (hcolumns : ∀ c ∈ columns, c.expr.PlainIn L (s.source.fields base) s.source.hasBag)
    (horder : ∀ o ∈ s.orderBy, ∃ name t, o.expr = .column name .row t ∧ name ∈ Column.names columns) :
    ({ s with columns := columns, projected := true, element := element, projector := projector } : Stage).Placed
      L base := by
  have hregular := hs.toRegular.withColumns hg projector hnodup (fun c hc => (hcolumns c hc).plain.grouped) helem
  refine ⟨hregular, scoped_of_source ⟨hs.self.filter, fun _ => hcolumns, fun x hx => ?_, fun o ho => ?_⟩ hs.source,
    fun hgroup => ?_, fun hp => nomatch hp⟩
  · rw [show Grouping.exprs _ = [] from congrArg Grouping.exprs hg] at hx
    cases hx
  · obtain ⟨name, t, hexpr, hname⟩ := horder o ho
    have hkey := (hs.self.orderBy o ho).plain
    rw [hexpr] at hkey ⊢
    refine ⟨.column hkey.type_groupFree, fun n type hocc => ?_⟩
    cases occurs_of_leaf rfl hocc
    rw [hg, Stage.fields_eq]
    exact hname
  · rw [DataType.isGrouping_of_groupFree helem] at hgroup
    cases hgroup

theorem placed_bindSelect {selector : Expr} {declared : DataType} (hs : s.Placed L base)
    (hp : FlatProjection L selector) (hd : declared.isFlat = true)
    (h : (bindSelect nested s selector declared).outcome = .ok s') : s'.Placed L base := by
  obtain ⟨p, body, rfl, ⟨-, rfl⟩ | ⟨-, columns, element, projector, composed, s₁, hcols, hshape, hinput, hmerge, rfl⟩⟩ :=
    bindSelect_eq_ok h
  · exact hs
  · have hopen : s.toSelect.Placed L base := hs.openIf _
    have hg := s.toSelect_grouping
    have hplain := bindProjection_plain hopen.toRegular (hp p body rfl) hcols
    have hcolumns := bindProjection_plainIn hopen (hp p body rfl) hcols
    have hnodup := (bindProjection_eq_ok hcols).1
    have helem := projectionShape_groupFree (DataType.groupFree_of_isFlat hd)
      (fun c hc => (hplain c hc).type_groupFree) hshape
    have hcomposed := inputColumns_plainIn hopen hg hcolumns hplain hinput
    obtain ⟨hnames, -⟩ := inputColumns_eq_ok hopen.toRegular hg hplain hinput
    rcases mergeColumns_eq_ok hmerge with ⟨hsurvive, rfl⟩ | ⟨-, rfl⟩
    · have hnodup' : (Column.names composed).Nodup := by rw [hnames]; exact hnodup
      refine placed_withColumns (s := s.toSelect) projector hopen hg hnodup' helem hcomposed fun o ho => ?_
      obtain ⟨name, sc, t, _, c, hexpr, -, hc, rfl, -⟩ := orderingSurvives_eq_true hsurvive ho
      have hrow := hopen.orderBy o ho
      rw [hexpr] at hrow
      cases sc with
      | row => exact ⟨_, t, hexpr, List.mem_map_of_mem hc⟩
      | group => cases hrow
    · have hgroup := s.toSelect.wrapped_grouping
      refine placed_withColumns (s := s.toSelect.wrapped) projector hopen.wrapped hgroup hnodup helem ?_ fun o ho => ?_
      · rw [Stage.wrapped_source]
        exact hcolumns
      · rw [Stage.wrapped_orderBy] at ho
        cases ho

theorem placed_bindOrder {key : Expr} {direction : Direction} {after : Bool} (hs : s.Placed L base)
    (hp : FlatLambda L key) (h : (bindOrder nested s key direction after).outcome = .ok s') : s'.Placed L base := by
  have hregular := regular_bindOrder hs.toRegular hp h
  obtain ⟨p, body, bound, rfl, hbound, -, rfl⟩ := bindOrder_eq_ok h
  have hopen : s.toOrder.Placed L base := hs.openIf _
  -- The keys that are kept are fields of the stage, and a new stage over it has the same fields.
  have hkeys : ∀ o ∈ (if after then s.orderBy else []) ++ [⟨bound.expr, direction⟩],
      o.expr.PlainIn L (s.toOrder.fields base) s.toOrder.hasBag := by
    intro o ho
    rcases List.mem_append.mp ho with ho | ho
    · have hkept : o ∈ s.orderBy := by
        split at ho
        · exact ho
        · cases ho
      rw [Stage.toOrder, Stage.fields_openIf, Stage.hasBag_openIf]
      exact hs.self.orderBy o hkept
    · rw [List.mem_singleton.mp ho]
      exact bindBody_plainIn hopen (hp p body rfl) hbound
  cases hproj : s.toOrder.projected with
  | true =>
    rw [hproj] at hregular
    exact hopen.update hregular rfl rfl rfl rfl (fun _ => rfl) hopen.self.filter hkeys
  | false =>
    rw [hproj] at hregular
    obtain ⟨added, -, heq⟩ := s.toOrder.noteColumns_eq bound.noted
    rw [if_neg Bool.false_ne_true, heq] at hregular ⊢
    exact hopen.update hregular rfl rfl rfl rfl (fun h => absurd (hproj.symm.trans h) Bool.false_ne_true)
      hopen.self.filter hkeys

theorem toGroup_orderBy (s : Stage) : s.toGroup.orderBy = [] := by
  unfold Stage.toGroup Stage.openIf
  split
  · exact s.wrapped_orderBy
  · next h =>
    simp only [Stage.closedToGrouping, Bool.not_eq_true, Bool.or_eq_false_iff, Bool.not_eq_false',
      List.isEmpty_iff] at h
    exact h.2

/-- A grouping is run on what the columns make and leaves the key and the bag. -/
theorem placed_withGrouping {grouping : Grouping} {element : DataType} {projector : Projector} (hs : s.Placed L base)
    (ho : s.orderBy = []) (hkeys : ∀ x ∈ Grouping.exprs (some grouping), x.PlainIn L (s.generated base) s.passesBag)
    (hr : ({ s with grouping := some grouping, element := element, projector := projector } : Stage).Regular L) :
    ({ s with grouping := some grouping, element := element, projector := projector } : Stage).Placed L base := by
  refine ⟨hr, scoped_of_source ⟨hs.self.filter, hs.self.columns, hkeys, fun o hmem => ?_⟩ hs.source, fun _ => ?_,
    fun _ record fields he => ?_⟩
  · rw [show _ = [] from ho] at hmem
    cases hmem
  · rw [Stage.fields_of_grouped rfl, Stage.hasBag_of_grouped rfl]
    exact ⟨List.mem_singleton_self _, rfl⟩
  · have hgroup := hr.grouped rfl
    rw [he] at hgroup
    cases hgroup

theorem placed_bindGroup {selector : Expr} {declared : DataType} (hs : s.Placed L base)
    (hp : FlatProjection L selector) (hd : declared.groupFree = true)
    (h : (bindGroup nested s selector declared).outcome = .ok s') : s'.Placed L base := by
  have hregular := regular_bindGroup hs.toRegular hp hd h
  obtain ⟨p, body, keys, rfl, hkeys, rfl⟩ := bindGroup_eq_ok h
  have hopen : s.toGroup.Placed L base := hs.openIf _
  have hg := s.toGroup_grouping
  refine placed_withGrouping hopen (toGroup_orderBy s) (fun x hx => ?_) hregular
  obtain ⟨k, hk, rfl⟩ := List.mem_map.mp (show x ∈ keys.map Column.expr from hx)
  have hkey := bindProjection_plainIn hopen (hp p body rfl) hkeys k hk
  rwa [Stage.fields_of_ungrouped hg, Stage.hasBag_of_ungrouped hg] at hkey

/-- An aggregate reads the bag of the one group of all rows. -/
theorem placed_aggregateStage {function name : String} {t result : DataType} (hs : s.Placed L base)
    (h : result.groupFree = true) : (aggregateStage s function (.column name .group t) result).Placed L base := by
  have hopen : s.toGroup.Placed L base := hs.openIf _
  let inner : Stage := { s.toGroup with grouping := some .all }
  have hinner : inner.Scoped L base := by
    refine ⟨hopen.self.filter, hopen.self.columns, (fun x hx => nomatch hx), fun o ho => ?_⟩
    rw [show inner.orderBy = [] from toGroup_orderBy s] at ho
    cases ho
  have hsource : (aggregateStage s function (.column name .group t) result).source = .stage inner :=
    Stage.wrapped_source _
  refine ⟨regular_aggregateStage h, scoped_of_source ⟨fun x hx => ?_, fun _ c hc => ?_, fun x hx => ?_, fun o ho => ?_⟩
    fun i hi => ?_, fun hg => ?_, fun hp => nomatch hp⟩
  · rw [show (aggregateStage s function (.column name .group t) result).filter = none from Stage.wrapped_filter _] at hx
    cases hx
  · rw [List.mem_singleton.mp hc, hsource]
    refine ⟨.aggregate (Stage.hasBag_of_grouped (s := inner) rfl) h, fun n type ho => ?_⟩
    cases ho with
    | child hmem ho =>
      rw [List.mem_singleton.mp hmem] at ho
      cases occurs_of_leaf rfl ho
  · rw [show (aggregateStage s function (.column name .group t) result).grouping = none from
      Stage.wrapped_grouping _] at hx
    cases hx
  · rw [show (aggregateStage s function (.column name .group t) result).orderBy = [] from Stage.wrapped_orderBy _] at ho
    cases ho
  · rw [hsource] at hi
    cases hi
    exact scoped_of_source hinner hopen.source
  · rw [show (aggregateStage s function (.column name .group t) result).element = result from rfl,
      DataType.isGrouping_of_groupFree h] at hg
    cases hg

theorem placed_bindAggregate {method function : String} {arg : Option Expr} {declared : DataType}
    (hs : s.Placed L base) (hm : aggregateFunction? method = some function) (hstep : FlatStep L method arg declared)
    (h : (bindAggregate nested s method function arg declared).outcome = .ok s') : s'.Placed L base := by
  obtain ⟨s₁, bag, hinput, rfl⟩ := bindAggregate_eq_ok h
  have hd : declared.groupFree = true :=
    DataType.groupFree_of_isFlat (hstep.result (by rw [hm]; rfl))
  rcases aggregateInput_eq_ok hinput with ⟨rfl, rfl, hsel⟩ | ⟨hcount, hbag, hsel⟩
  · have hs₁ : s₁.Placed L base := by
      rcases hsel with ⟨_, rfl⟩ | ⟨x, rfl, hx⟩
      · exact hs
      · exact placed_bindFilter hs (hstep.lambda (by decide) x rfl) hx
    exact placed_aggregateStage hs₁ (aggregateType_groupFree hd fun hne => absurd rfl hne)
  · have hs₁ : s₁.Placed L base := by
      rcases hsel with ⟨_, rfl⟩ | ⟨x, rfl, hx⟩
      · exact hs
      · exact placed_bindSelect hs (hstep.projection (projects_of_aggregate hm hcount) x rfl) rfl hx
    obtain ⟨name, t, rfl, ht⟩ := aggregatedField_groupFree hs₁.typed hbag
    exact placed_aggregateStage hs₁ (aggregateType_groupFree hd fun _ => ht)

/-! ### Chains -/

theorem placed_applies {b b' : Bound} {method : String} {arg : Option Expr} {type : DataType}
    (hs : b.stage.Placed L base) (hstep : FlatStep L method arg type) (h : Applies nested b type method arg b') :
    b'.stage.Placed L base := by
  cases h with
  | filter h => exact placed_bindFilter hs (hstep.lambda (by decide) _ rfl) h
  | select h => exact placed_bindSelect hs (hstep.projection (by decide) _ rfl) (hstep.row rfl) h
  | group declared hd h =>
    refine placed_bindGroup hs (hstep.projection (by decide) _ rfl) ?_ h
    rcases hd with rfl | ⟨element, hd⟩
    · rfl
    · exact DataType.groupFree_of_isFlat (hstep.key rfl declared element hd)
  | take h => exact hs.take _
  | first => exact hs.take 1
  | firstWhere h => exact (placed_bindFilter hs (hstep.lambda (by decide) _ rfl) h).take 1
  | order hm h => exact placed_bindOrder hs (hstep.lambda (projects_of_ordering hm) _ rfl) h
  | aggregate hm h => exact placed_bindAggregate hs hm hstep h

theorem placed_base {name record : String} {fields : List Field} (h : ∀ f ∈ fields, f.type.isPrimitive = true) :
    (Stage.base name (.record record fields)).Placed L (fields.map Field.name) := by
  refine ⟨regular_base h, fun t ht => ?_, (fun hg => nomatch hg), fun _ record' fields' he f hf => ?_⟩
  · cases ht with
    | self =>
      exact ⟨(fun x hx => nomatch hx), (fun hp => nomatch hp), (fun x hx => nomatch hx), fun o ho => nomatch ho⟩
    | inner hs _ => cases hs
  · cases he
    exact List.mem_map_of_mem hf

theorem placed_bindWith {chain : Expr} {b : Bound} (hc : FlatChain L chain)
    (h : (bindWith nested chain).outcome = .ok b) : b.stage.Placed L chain.sourceFields := by
  induction hc generalizing b with
  | source hf =>
    cases h
    exact placed_base hf
  | step _ hs ih =>
    obtain ⟨b₀, hb₀, happ⟩ := bindWith_call_eq_ok h
    rw [Expr.sourceFields]
    exact placed_applies (ih hb₀) hs happ

end PigChain
