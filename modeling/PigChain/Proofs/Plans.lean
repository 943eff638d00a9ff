import PigChain.Proofs.Lowering
import PigChain.Proofs.Scope

/-!
# Plans

Filters, orderings and projections that only choose fields of one source are independent of each other: however they
are interleaved, they end up in one stage. Its filter is the conjunction of the predicates, its columns are those of the
last projection, its keys those since the last ordering that is not added to others. The rows of a projection must not
be groups, since a member of a group is not looked up among the columns.
-/

namespace PigChain

variable {nested : Expr → BindM Stage} {s s' : Stage} {source row : String} {fields : List Field} {e e' read : Expr}

/-! ### Bodies that read fields of a source -/

/-- A field of a source as a column of its rows. -/
def sourceField (fields : List Field) (name : String) : Expr :=
  .field name (((Field.find? fields name).map Field.type).getD .unknown)

/-- What a body is over the rows of a source: every field of the row is a column, every other node stays with its
children read. The body holds no chain, no stage and no column, and the row stands in it only where a field is read, the
fields of fields not among them. -/
inductive ReadsFields (fields : List Field) (row : String) : Expr → Expr → Prop where
  | field {object : Option Expr} {name : String} {type : DataType} (h : isRow row object = true) :
    ReadsFields fields row (.member object name type) (sourceField fields name)
  | node {e : Expr} {cs : List Expr} (hwalk : e.isWalked row = true) (hstage : e.holdsStage = false)
    (hcolumn : e.kind ≠ .column) (hc : List.Forall₂ (ReadsFields fields row) e.children cs)
    (hdotted : recordField? (e.withChildren cs) = none) : ReadsFields fields row e (e.withChildren cs)

theorem ReadsFields.stageless (h : ReadsFields fields row e read) {y : Expr} (hy : y.holdsStage = true) :
    ¬Expr.Has y read := by
  induction e using Expr.childInduction generalizing read with
  | h e ih =>
    intro hhas
    cases h with
    | field =>
      rw [Expr.has_of_leaf rfl hhas] at hy
      cases hy
    | @node _ cs _ hstage _ hc _ =>
      have hx : (e.withChildren cs).holdsStage = false := by rw [Expr.holdsStage_withChildren, hstage]
      obtain ⟨c', hc', hhas⟩ := (Expr.has_stage_iff hx hy).mp hhas
      rw [Expr.children_withChildren hc.length_eq.symm] at hc'
      obtain ⟨c, hmem, hread⟩ := exists_of_forall₂_right hc hc'
      exact ih c hmem hread hhas

/-- Outside of stages, what occurs in an expression stands in it. -/
theorem has_of_occurs {x : Expr} (h : ∀ y, y.holdsStage = true → ¬Expr.Has y e) (ho : Expr.Occurs x e) :
    Expr.Has x e := by
  induction ho with
  | self => exact .self
  | @child e c hc _ ih =>
    have he : e.holdsStage = false := Bool.eq_false_iff.mpr fun he => h e he .self
    exact .child he hc (ih fun y hy hhas => h y hy (.child he hc hhas))

/-! ### The plan of a chain -/

/-- An ordering step: the field, the direction, and whether the key comes after those before it. -/
structure Sorting where
  field : String
  direction : Direction
  after : Bool

/-- What a chain asks for: the predicates and the orderings in sequence, the fields of the last projection, and the
least limit. -/
structure Plan where
  predicates : List Expr := []
  sortings : List Sorting := []
  names : Option (List String) := none
  limit : Option UInt64 := none

namespace Plan

/-- A predicate beside those that are there. -/
def conjoin (existing : Option Expr) (predicate : Expr) : Option Expr :=
  some (match existing with
    | some x => .combine .and x predicate
    | none => predicate)

def filter (plan : Plan) : Option Expr := plan.predicates.foldl conjoin none

/-- The keys since the last ordering that is not added to others. -/
def keys (plan : Plan) : List (String × Direction) :=
  plan.sortings.foldl (fun keys o => (if o.after then keys else []) ++ [(o.field, o.direction)]) []

end Plan

/-- The chains over one source whose steps are filters, orderings and projections by fields of the source and, after
these, limits; with their plans. Every projection keeps the keys that are in force and satisfies `rows`, which is asked
of the row type it declares and of its fields. -/
inductive Interleaves (rows : DataType → List String → Prop) (source : String) (fields : List Field) :
    Expr → Plan → Prop where
  | source {record : String} :
    Interleaves rows source fields (.constant (.source source) (.query (.record record fields))) {}
  | filter {chain body body' read predicate : Expr} {plan : Plan} {p : Parameter} {rest : List Expr} {type : DataType}
    (hc : Interleaves rows source fields chain plan) (hl : plan.limit = none) (hi : body.inlined = .ok body')
    (hread : ReadsFields fields p.name body' read) (hnull : nullComparisons.run read = .ok predicate) :
    Interleaves rows source fields (.call none "Where" (chain :: .lambda [p] body :: rest) type)
      { plan with predicates := plan.predicates ++ [predicate] }
  | order {chain body : Expr} {plan : Plan} {p : Parameter} {rest : List Expr} {type t t' : DataType}
    {method name : String} {direction : Direction} {after : Bool} (hc : Interleaves rows source fields chain plan)
    (hl : plan.limit = none) (hm : orderings.lookup method = some (direction, after))
    (hkey : body.inlined = .ok (.member (some (.parameter p.name t)) name t')) :
    Interleaves rows source fields (.call none method (chain :: .lambda [p] body :: rest) type)
      { plan with sortings := plan.sortings ++ [⟨name, direction, after⟩] }
  | select {chain body : Expr} {plan : Plan} {p : Parameter} {rest : List Expr} {type : DataType}
    {parts : List (String × Expr)} (hc : Interleaves rows source fields chain plan) (hl : plan.limit = none)
    (hparts : namedParts? body = .ok (some parts))
    (hfields : ∀ q ∈ parts, ∃ t t', q.2.inlined = .ok (.member (some (.parameter p.name t)) q.1 t'))
    (hkeys : ∀ k ∈ plan.keys, k.1 ∈ parts.map Prod.fst)
    (hrows : rows (type.element?.getD .unknown) (parts.map Prod.fst)) :
    Interleaves rows source fields (.call none "Select" (chain :: .lambda [p] body :: rest) type)
      { plan with names := some (parts.map Prod.fst) }
  | take {chain x : Expr} {plan : Plan} {rest : List Expr} {type : DataType} {count : UInt64}
    (hc : Interleaves rows source fields chain plan) (hcount : takeCount x = .ok count) :
    Interleaves rows source fields (.call none "Take" (chain :: x :: rest) type)
      { plan with limit := some (match plan.limit with
          | some current => min current count
          | none => count) }

/-- The rows of a projection are no groups: it declares no group, nor is it one field that is a group, with no declared
type. -/
def PlainRows (fields : List Field) (declared : DataType) (names : List String) : Prop :=
  match declared, names with
  | .unknown, [name] => (sourceField fields name).type.isGrouping = false
  | declared, [_] => declared.isGrouping = false
  | _, _ => True

/-! ### The stage of a plan -/

/-- The column that passes a field of the source on. -/
def Column.passing (fields : List Field) (name : String) : Column := ⟨name, sourceField fields name⟩

/-- The one stage that a plan is bound to. -/
structure Stage.Follows (source : String) (fields : List Field) (plan : Plan) (s : Stage) : Prop where
  source : s.source = .base source
  filter : s.filter = plan.filter
  quiet : ∀ p ∈ plan.predicates, (p.lower none).Quiet
  projected : s.projected = plan.names.isSome
  columns : ∀ names, plan.names = some names → s.columns = names.map (Column.passing fields)
  grouping : s.grouping = none
  orderBy : s.orderBy = plan.keys.map fun k => ⟨sourceField fields k.1, k.2⟩
  keys : ∀ names, plan.names = some names → ∀ k ∈ plan.keys, k.1 ∈ names
  limit : s.limit = plan.limit
  element : s.element.isGrouping = false
  record : s.projected = false → s.element.fields? = some fields

variable {plan : Plan}

theorem Column.find?_passing {names : List String} {name : String} {c : Column}
    (h : Column.find? (names.map (Column.passing fields)) name = some c) : c = Column.passing fields name := by
  obtain ⟨hmem, rfl⟩ := Column.find?_eq_some h
  obtain ⟨n, -, rfl⟩ := List.mem_map.mp hmem
  rfl

theorem Column.mem_of_find?_passing {names : List String} {name : String} {c : Column}
    (h : Column.find? (names.map (Column.passing fields)) name = some c) : name ∈ names := by
  obtain ⟨hmem, rfl⟩ := Column.find?_eq_some h
  obtain ⟨n, hn, rfl⟩ := List.mem_map.mp hmem
  exact hn

theorem Column.find?_passing_of_mem {names : List String} {name : String} (h : name ∈ names) :
    Column.find? (names.map (Column.passing fields)) name = some (Column.passing fields name) := by
  cases hc : Column.find? (names.map (Column.passing fields)) name with
  | some c => rw [Column.find?_passing hc]
  | none =>
    have hnot := List.find?_eq_none.mp hc _ (List.mem_map_of_mem h)
    exact absurd (beq_self_eq_true name) hnot

namespace Stage.Follows

theorem column? (hs : s.Follows source fields plan) (hp : s.projected = true) {name : String} {c : Column}
    (h : s.column? name = some c) : c.expr = sourceField fields name := by
  obtain ⟨names, hnames⟩ := Option.isSome_iff_exists.mp (hs.projected ▸ hp)
  rw [Stage.column?, hs.columns names hnames] at h
  rw [Column.find?_passing h]
  rfl

/-- A field is read from the row type before the projection and from the columns after it, and is the same column. -/
theorem fieldColumn (hs : s.Follows source fields plan) {name : String} {declared : DataType}
    (h : fieldColumn s name declared = .ok e) :
    e = sourceField fields name ∧ (s.projected = true → ∃ c, s.column? name = some c ∧ c.expr = e) := by
  rcases fieldColumn_eq_ok h with ⟨key, element, he, -⟩ | ⟨hp, c, hc, rfl⟩ | ⟨hp, fs, f, hfs, hf, rfl⟩ | ⟨hp, -, hfs, -⟩
  · have helem := hs.element
    rw [he] at helem
    cases helem
  · have hexpr := hs.column? hp hc
    have heq : Expr.column name .row c.expr.type = sourceField fields name := by
      rw [hexpr]
      rfl
    exact ⟨heq, fun _ => ⟨c, hc, hexpr.trans heq.symm⟩⟩
  · rw [hs.record hp] at hfs
    cases hfs
    refine ⟨?_, fun hp' => absurd hp' (by rw [hp]; exact Bool.false_ne_true)⟩
    rw [sourceField, hf]
    rfl
  · rw [hs.record hp] at hfs
    cases hfs

end Stage.Follows

/-! ### Binding over the stage of a plan -/

theorem forall₂_eq_of_unique {α β : Type} {R S : α → β → Prop} {xs : List α} {ys zs : List β}
    (hR : List.Forall₂ R xs ys) (hS : List.Forall₂ S xs zs) (h : ∀ x ∈ xs, ∀ y z, R x y → S x z → y = z) :
    ys = zs := by
  induction hR generalizing zs with
  | nil =>
    cases hS
    rfl
  | @cons x y xs ys hxy _ ih =>
    cases hS with
    | cons hxz hS =>
      rw [h x List.mem_cons_self _ _ hxy hxz, ih hS fun x' hx' => h x' (List.mem_cons_of_mem x hx')]

/-- An expression without stages whose columns a projected stage declares as they are. -/
structure Expr.Direct (s : Stage) (e : Expr) : Prop where
  stageless : ∀ y, y.holdsStage = true → ¬Expr.Has y e
  columns : s.projected = true → ∀ name type, Expr.Occurs (.column name .row type) e →
    ∃ c, s.column? name = some c ∧ c.expr = .column name .row type

theorem Expr.Direct.no_scalar (h : e.Direct s) (t : Stage) (type : DataType) : ¬Expr.Occurs (.scalar t type) e :=
  fun ho => h.stageless _ rfl (has_of_occurs h.stageless ho)

theorem Expr.Direct.composed (h : e.Direct s) (hp : s.projected = true) : e.composed s.columns = .ok e :=
  composed_eq_self (fun t type ho => absurd ho (h.no_scalar t type)) (h.columns hp)

theorem Expr.Direct.isPlain (h : e.Direct s) (hp : s.projected = true) : e.rowColumns.all s.isPlain = true := by
  rw [List.all_eq_true]
  intro name hname
  obtain ⟨type, ho⟩ := mem_rowColumns_iff.mp hname
  obtain ⟨c, hc, hexpr⟩ := h.columns hp name type ho
  rw [Stage.isPlain, hc]
  show c.expr.isRowColumn = true
  rw [hexpr]
  rfl

theorem RowStep.walked (h : RowStep nested s row e e') (hwalk : e.isWalked row = true) :
    ∃ x, Yields ((rowBinder nested s row).rewalk e) x ∧ (e' = x ∨ recordField? x = some e') := by
  cases h with
  | row => simp [Expr.isWalked] at hwalk
  | field hrow _ => simp [Expr.isWalked, hrow] at hwalk
  | aggregate hrow _ => simp [Expr.isWalked, hrow] at hwalk
  | chain he => rw [Expr.isChain_eq_false hwalk] at he; cases he
  | walk _ hw => exact ⟨e', hw, .inl rfl⟩
  | dotted _ hw hd => exact ⟨_, hw, .inr hd⟩

theorem ReadsFields.run (hs : s.Follows source fields plan) (h : ReadsFields fields row e read)
    (hy : Yields ((rowBinder nested s row).run e) e') :
    e' = read ∧ (s.projected = true → ∀ name type, Expr.Occurs (.column name .row type) read →
      ∃ c, s.column? name = some c ∧ c.expr = .column name .row type) := by
  induction e using Expr.childInduction generalizing read e' with
  | h e ih =>
    have hstep := rowStep_of_run hy
    cases h with
    | @field object name type hrow =>
      have hnot : (Expr.member object name type).isWalked row = false := by rw [Expr.isWalked, hrow]; rfl
      cases hstep with
      | field _ hf =>
        obtain ⟨rfl, hcolumn⟩ := hs.fieldColumn hf
        refine ⟨rfl, fun hp n t ho => ?_⟩
        cases occurs_of_leaf rfl ho
        exact hcolumn hp
      | chain he => cases he
      | walk he => rw [hnot] at he; cases he
      | dotted he => rw [hnot] at he; cases he
    | @node _ cs hwalk hstage hcolumn hc hdotted =>
      -- The children come out as they are read, so the node does, unless it is a field of a field.
      obtain ⟨x, hx, hresult⟩ := hstep.walked hwalk
      obtain ⟨cs', hcs', rfl, -⟩ := yields_rewalk (Expr.kind_ne_scalar hstage) hx
      obtain rfl : cs' = cs := forall₂_eq_of_unique hcs' hc fun c hmem _ _ hrun hr => (ih c hmem hr hrun).1
      rw [hdotted] at hresult
      refine ⟨hresult.resolve_right (by intro h; cases h), fun hp n t ho => ?_⟩
      obtain ⟨c', hc', ho⟩ := occurs_withChildren (fun hk => hcolumn hk.symm) hc.length_eq.symm ho
      obtain ⟨c, hmem, hread⟩ := exists_of_forall₂_right hc hc'
      obtain ⟨c'', -, hrun⟩ := exists_of_forall₂_left hcs' hmem
      exact (ih c hmem hread hrun).2 hp n t ho

/-- A bound body is the reading of the body, its comparisons with null made null tests. -/
theorem bindBody_reads {body body' : Expr} {bound : BoundBody} (hs : s.Follows source fields plan)
    (hi : body.inlined = .ok body') (hread : ReadsFields fields row body' read)
    (h : (bindBody nested s row body).outcome = .ok bound) :
    nullComparisons.run read = .ok bound.expr ∧ bound.expr.Direct s := by
  obtain ⟨x, y, hx, hy, hnull⟩ := bindBody_eq_ok h
  obtain rfl : body' = x := Except.ok.inj (hi.symm.trans hx)
  obtain ⟨rfl, hcolumns⟩ := hread.run hs ⟨[], bound.noted, hy⟩
  refine ⟨hnull, fun z hz hhas => ?_, fun hp n t ho => hcolumns hp n t (occurs_of_nullComparisons hnull ho)⟩
  have hpassed := passedOn_nullComparisons (fun w hw hhas => absurd hhas (hread.stageless hw)) hnull
  rcases hpassed.only z hz hhas with h | ⟨t, t', type, ht, -⟩
  · exact h
  · exact hread.stageless rfl ht

theorem bindBody_field {body : Expr} {bound : BoundBody} {name : String} {t t' : DataType}
    (hs : s.Follows source fields plan) (hi : body.inlined = .ok (.member (some (.parameter row t)) name t'))
    (h : (bindBody nested s row body).outcome = .ok bound) :
    bound.expr = sourceField fields name ∧ bound.expr.Direct s := by
  obtain ⟨hnull, hdirect⟩ := bindBody_reads hs hi (.field (isRow_self row t)) h
  exact ⟨(Except.ok.inj hnull).symm, hdirect⟩

/-! ### Steps -/

namespace Plan

theorem filter_append (plan : Plan) (predicate : Expr) :
    filter { plan with predicates := plan.predicates ++ [predicate] } = conjoin plan.filter predicate := by
  rw [filter, List.foldl_append]
  rfl

theorem keys_append (plan : Plan) (o : Sorting) :
    keys { plan with sortings := plan.sortings ++ [o] } =
      (if o.after then plan.keys else []) ++ [(o.field, o.direction)] := by
  rw [keys, List.foldl_append]
  rfl

end Plan

namespace Stage.Follows

theorem base (source record : String) (fields : List Field) :
    (Stage.base source (.record record fields)).Follows source fields {} where
  source := rfl
  filter := rfl
  quiet _ hp := nomatch hp
  projected := rfl
  columns _ h := nomatch h
  grouping := rfl
  orderBy := rfl
  keys _ h := nomatch h
  limit := rfl
  element := rfl
  record _ := rfl

theorem toFilter_eq (hs : s.Follows source fields plan) (hl : plan.limit = none) : s.toFilter = s := by
  rw [Stage.toFilter, hs.limit, hl, hs.grouping]
  rfl

theorem toSelect_eq (hs : s.Follows source fields plan) : s.toSelect = s := by
  rw [Stage.toSelect, hs.grouping]
  rfl

theorem toOrder_eq (hs : s.Follows source fields plan) (hl : plan.limit = none) : s.toOrder = s := by
  rw [Stage.toOrder, hs.limit, hl]
  rfl

/-- Columns that are only noted are no part of the plan. -/
theorem noteColumns (hs : s.Follows source fields plan) (hp : s.projected = false) (noted : List Column) :
    (s.noteColumns noted).Follows source fields plan := by
  obtain ⟨added, -, heq⟩ := s.noteColumns_eq noted
  rw [heq]
  refine { hs with columns := fun names hnames => ?_ }
  have hsome := hs.projected
  rw [hp, hnames] at hsome
  cases hsome

theorem addFilter (hs : s.Follows source fields plan) {predicate : Expr} (hq : (predicate.lower none).Quiet) :
    (s.addFilter predicate).Follows source fields { plan with predicates := plan.predicates ++ [predicate] } := by
  refine { hs with filter := ?_, quiet := fun p hp => ?_ }
  · rw [Plan.filter_append, ← hs.filter]
    rfl
  · rcases List.mem_append.mp hp with hp | hp
    · exact hs.quiet p hp
    · rw [List.mem_singleton.mp hp]
      exact hq

theorem bindFilter (hs : s.Follows source fields plan) (hl : plan.limit = none) {p : Parameter}
    {body body' predicate : Expr} (hi : body.inlined = .ok body') (hread : ReadsFields fields p.name body' read)
    (hnull : nullComparisons.run read = .ok predicate)
    (h : (bindFilter nested s (.lambda [p] body)).outcome = .ok s') :
    s'.Follows source fields { plan with predicates := plan.predicates ++ [predicate] } := by
  obtain ⟨q, body₁, bound, hlambda, hbound, hmerge⟩ := bindFilter_eq_ok h
  cases hlambda
  rw [hs.toFilter_eq hl] at hbound hmerge
  obtain ⟨hnull', hdirect⟩ := bindBody_reads hs hi hread hbound
  obtain rfl : predicate = bound.expr := Except.ok.inj (hnull.symm.trans hnull')
  have hq : (bound.expr.lower none).Quiet := lower_quiet hdirect.no_scalar
  rcases mergeFilter_eq_ok hmerge with ⟨hp, rfl⟩ | ⟨hp, -, x, hx, rfl⟩ | ⟨hp, hplain, -⟩
  · exact (hs.noteColumns hp bound.noted).addFilter hq
  · rw [hdirect.composed hp] at hx
    cases hx
    exact hs.addFilter hq
  · rw [hdirect.isPlain hp] at hplain
    cases hplain

theorem bindOrder (hs : s.Follows source fields plan) (hl : plan.limit = none) {p : Parameter} {body : Expr}
    {name : String} {t t' : DataType} {direction : Direction} {after : Bool}
    (hi : body.inlined = .ok (.member (some (.parameter p.name t)) name t'))
    (h : (bindOrder nested s (.lambda [p] body) direction after).outcome = .ok s') :
    s'.Follows source fields { plan with sortings := plan.sortings ++ [⟨name, direction, after⟩] } := by
  obtain ⟨q, body₁, bound, hlambda, hbound, -, rfl⟩ := bindOrder_eq_ok h
  cases hlambda
  rw [hs.toOrder_eq hl] at hbound ⊢
  obtain ⟨hexpr, hdirect⟩ := bindBody_field hs hi hbound
  have hkept : (if s.projected then s else s.noteColumns bound.noted).Follows source fields plan := by
    cases hp : s.projected with
    | true => exact hs
    | false => exact hs.noteColumns hp bound.noted
  refine { hkept with orderBy := ?_, keys := fun names hnames k hk => ?_ }
  · rw [Plan.keys_append, hs.orderBy, hexpr, List.map_append]
    cases after <;> rfl
  · rw [Plan.keys_append] at hk
    rcases List.mem_append.mp hk with hk | hk
    · cases after with
      | true => exact hs.keys names hnames k hk
      | false => cases hk
    · rw [List.mem_singleton.mp hk]
      have hp : s.projected = true := by rw [hs.projected, show plan.names = some names from hnames]; rfl
      obtain ⟨c, hc, -⟩ := hdirect.columns hp name _ (by rw [hexpr]; exact .self)
      rw [Stage.column?, hs.columns names hnames] at hc
      exact Column.mem_of_find?_passing hc

theorem take (hs : s.Follows source fields plan) (count : UInt64) :
    (s.take count).Follows source fields { plan with limit := some (match plan.limit with
      | some current => min current count
      | none => count) } := by
  refine { hs with limit := ?_ }
  rw [← hs.limit]
  rfl

theorem orderingSurvives (hs : s.Follows source fields plan) {names : List String}
    (h : ∀ k ∈ plan.keys, k.1 ∈ names) : s.orderingSurvives (names.map (Column.passing fields)) = true := by
  rw [Stage.orderingSurvives, hs.orderBy, List.all_eq_true]
  intro o ho
  obtain ⟨k, hk, rfl⟩ := List.mem_map.mp ho
  -- A key is the field of the source that it names, whether the stage has columns already or not.
  have hdefinition : (if s.projected then (s.column? k.1).map Column.expr else some (sourceField fields k.1)) =
      some (sourceField fields k.1) := by
    cases hp : s.projected with
    | false => rfl
    | true =>
      obtain ⟨before, hbefore⟩ := Option.isSome_iff_exists.mp (hs.projected ▸ hp)
      rw [if_pos rfl, Stage.column?, hs.columns before hbefore,
        Column.find?_passing_of_mem (hs.keys before hbefore k hk)]
      rfl
  have hkept : ((names.map (Column.passing fields)).any fun c =>
      c.name == k.1 && c.expr.same (sourceField fields k.1)) = true := by
    refine List.any_eq_true.mpr ⟨_, List.mem_map_of_mem (h k hk), ?_⟩
    simp [Column.passing, sourceField, Expr.field, Expr.same]
  simp only [sourceField, Expr.field] at hdefinition hkept ⊢
  rw [hdefinition]
  exact hkept

end Stage.Follows

/-- The columns of a projection by fields. -/
theorem columns_passing {parts : List (String × Expr)} {columns : List Column} (hs : s.Follows source fields plan)
    (hfields : ∀ q ∈ parts, ∃ t t', q.2.inlined = .ok (.member (some (.parameter row t)) q.1 t'))
    (hnames : Column.names columns = parts.map Prod.fst)
    (hcolumns : List.Forall₂ (BindsColumn nested s row) (parts.map Prod.snd) columns) :
    columns = (parts.map Prod.fst).map (Column.passing fields) ∧ ∀ c ∈ columns, c.expr.Direct s := by
  induction parts generalizing columns with
  | nil =>
    cases hcolumns
    exact ⟨rfl, fun c hc => nomatch hc⟩
  | cons q parts ih =>
    cases hcolumns with
    | @cons _ c _ columns hbind hcolumns =>
      obtain ⟨bound, hbound, hexpr⟩ := hbind
      obtain ⟨t, t', hi⟩ := hfields q List.mem_cons_self
      obtain ⟨hfield, hdirect⟩ := bindBody_field hs hi hbound
      obtain ⟨hname, hnames⟩ := List.cons.inj hnames
      obtain ⟨heq, hall⟩ := ih (fun q hq => hfields q (List.mem_cons_of_mem _ hq)) hnames hcolumns
      have hc : c = Column.passing fields q.1 := by
        obtain ⟨name, x⟩ := c
        rw [show name = q.1 from hname, show x = sourceField fields q.1 from hexpr.trans hfield]
        rfl
      refine ⟨by rw [hc, heq]; rfl, fun d hd => ?_⟩
      rcases List.mem_cons.mp hd with rfl | hd
      · rw [hexpr]
        exact hdirect
      · exact hall d hd

theorem inputColumns_direct {columns : List Column} (h : ∀ c ∈ columns, c.expr.Direct s) :
    s.inputColumns columns = .ok columns := by
  unfold Stage.inputColumns
  split
  · next hp =>
    rw [composeColumns_eq_mapM, mapM_eq_ok, List.forall₂_same]
    intro c hc
    rw [(h c hc).composed hp]
    obtain ⟨name, x⟩ := c
    rfl
  · rfl

theorem projectionShape_plain {declared element : DataType} {projector : Projector} {names : List String}
    (hrows : PlainRows fields declared names)
    (h : projectionShape (names.map (Column.passing fields)) declared = .ok (element, projector)) :
    element.isGrouping = false := by
  unfold projectionShape at h
  split at h
  · obtain ⟨output, -, h⟩ := except_do_eq_ok.mp h
    cases h
    rfl
  · next c _ hc =>
    obtain ⟨name, rfl, rfl⟩ := List.map_eq_singleton_iff.mp hc
    dsimp only at h
    split at h
    · next hd =>
      rw [hd] at hrows
      cases h
      exact hrows
    · next hd =>
      split at h
      · cases h
        cases element with
        | unknown => exact absurd rfl hd
        | _ => exact hrows
      · cases h
  · cases h
    rfl

namespace Stage.Follows

theorem bindSelect (hs : s.Follows source fields plan) {p : Parameter} {body : Expr} {parts : List (String × Expr)}
    {declared : DataType} (hparts : namedParts? body = .ok (some parts))
    (hfields : ∀ q ∈ parts, ∃ t t', q.2.inlined = .ok (.member (some (.parameter p.name t)) q.1 t'))
    (hkeys : ∀ k ∈ plan.keys, k.1 ∈ parts.map Prod.fst) (hrows : PlainRows fields declared (parts.map Prod.fst))
    (h : (bindSelect nested s (.lambda [p] body) declared).outcome = .ok s') :
    s'.Follows source fields { plan with names := some (parts.map Prod.fst) } := by
  obtain ⟨q, body₁, hlambda, ⟨hid, -⟩ |
    ⟨-, columns, element, projector, composed, s₁, hbind, hshape, hinput, hmerge, rfl⟩⟩ := bindSelect_eq_ok h
  · -- The row itself is no record of fields.
    cases hlambda
    cases body with
    | parameter => cases hparts
    | _ => cases hid
  · cases hlambda
    rw [hs.toSelect_eq] at hbind hinput hmerge
    have hcolumns := (bindProjection_eq_ok hbind).2
    rw [namedParts_eq_some hparts] at hcolumns
    obtain ⟨heq, hdirect⟩ := columns_passing hs hfields (bindProjection_names_of_parts hparts hbind) hcolumns
    rw [inputColumns_direct hdirect] at hinput
    cases hinput
    subst heq
    rcases mergeColumns_eq_ok hmerge with ⟨-, rfl⟩ | ⟨hsurvive, -⟩
    · refine { hs with
        projected := rfl, columns := ?_, keys := ?_, element := projectionShape_plain hrows hshape, record := ?_ }
      · rintro names ⟨⟩
        rfl
      · rintro names ⟨⟩
        exact hkeys
      · exact fun hp => nomatch hp
    · rw [hs.orderingSurvives hkeys] at hsurvive
      cases hsurvive

end Stage.Follows

/-- Every step keeps to the plan, so the whole chain is one stage. -/
theorem Interleaves.follows {chain : Expr} {b : Bound} (h : Interleaves (PlainRows fields) source fields chain plan)
    (hb : (bindWith nested chain).outcome = .ok b) : b.stage.Follows source fields plan := by
  induction h generalizing b with
  | @source record =>
    cases hb
    exact .base source record fields
  | filter _ hl hi hread hnull ih =>
    obtain ⟨b₀, hb₀, happ⟩ := bindWith_call_eq_ok hb
    obtain ⟨x, hx, h⟩ := happ.clause.1 rfl
    cases hx
    exact (ih hb₀).bindFilter hl hi hread hnull h
  | order _ hl hm hkey ih =>
    obtain ⟨b₀, hb₀, happ⟩ := bindWith_call_eq_ok hb
    obtain ⟨x, hx, h⟩ := happ.order_of hm
    cases hx
    exact (ih hb₀).bindOrder hl hkey h
  | select _ _ hparts hfields hkeys hrows ih =>
    obtain ⟨b₀, hb₀, happ⟩ := bindWith_call_eq_ok hb
    obtain ⟨x, hx, h⟩ := happ.clause.2.1 rfl
    cases hx
    exact (ih hb₀).bindSelect hparts hfields hkeys hrows h
  | take _ hcount ih =>
    obtain ⟨b₀, hb₀, happ⟩ := bindWith_call_eq_ok hb
    obtain ⟨x, count', hx, hcount', hstage⟩ := happ.clause.2.2.2 rfl
    cases hx
    cases hcount.symm.trans hcount'
    rw [hstage]
    exact (ih hb₀).take _

end PigChain
