import PigChain.Proofs.FilterRows
import PigChain.Proofs.GroupedRows
import PigChain.Script.Lower

/-!
# The members of a group's key

Rows that are grouped by several keys have a tuple for `group`, whose parts go by the names of the key columns; rows that
are grouped by one key have that key for `group`. A selector may give its keys other names, but only their columns are
kept: a member of the key is read as the part of `group` that has the name of the member. So it is the value that the
selector gave to the member if there are several keys, and the member is called like the column that it is.
-/

namespace PigChain

variable {nested : Expr → BindM Stage} {keys : List Expr} {s s' : Stage} {row : String}

/-! ### Parts of a key -/

/-- The name of the column that an expression is. -/
def Expr.columnName? : Expr → Option String
  | .column name .row _ => some name
  | _ => none

/-- The parts of a tuple. -/
def Datum.parts : Datum → List Datum
  | .pair first rest => first :: rest.parts
  | _ => []

theorem Datum.parts_tuple (ds : List Datum) : (Datum.tuple ds).parts = ds := by
  induction ds with
  | nil => rfl
  | cons d ds ih => exact congrArg (d :: ·) ih

/-- The part of that name in the `group` of rows that are grouped by `keys`. -/
def groupPart? (keys : List Expr) (group : Datum) (name : String) : Option Datum :=
  match keys with
  | [_] => none
  | keys => ((keys.map Expr.columnName?).zip group.parts).lookup (some name)

section

variable (E : Engine) (db : Content)

theorem lookup_evalList (keys : List Expr) (r : Row) (name : String) :
    ((keys.map Expr.columnName?).zip (Expr.evalList E db keys r)).lookup (some name) =
      (keys.find? fun k => k.columnName? == some name).map fun k => k.eval E db r := by
  induction keys with
  | nil => rfl
  | cons k keys ih =>
    rw [Expr.evalList, List.map_cons, List.zip_cons_cons, List.lookup_cons, List.find?_cons]
    rw [show (some name == k.columnName?) = (k.columnName? == some name) from BEq.comm]
    cases k.columnName? == some name with
    | true => rfl
    | false => exact ih

theorem groupPart_of_several (hl : keys.length ≠ 1) (r : Row) (name : String) :
    groupPart? keys (keyDatum (Expr.evalList E db keys r)) name =
      (keys.find? fun k => k.columnName? == some name).map fun k => k.eval E db r := by
  match keys with
  | [] => rfl
  | [_] => exact absurd rfl hl
  | x :: y :: keys =>
    rw [← lookup_evalList E db (x :: y :: keys) r name]
    show List.lookup _ (List.zip _ (Datum.tuple (Expr.evalList E db (x :: y :: keys) r)).parts) = _
    rw [Datum.parts_tuple]

/-- One key has no parts; of several, the first that is a column of the name counts. -/
theorem isSome_groupPart (r : Row) (name : String) :
    (groupPart? keys (keyDatum (Expr.evalList E db keys r)) name).isSome = true ↔
      2 ≤ keys.length ∧ ∃ k ∈ keys, k.columnName? = some name := by
  by_cases hl : keys.length = 1
  · obtain ⟨k, rfl⟩ := List.length_eq_one_iff.mp hl
    simp [groupPart?]
  · rw [groupPart_of_several E db hl, Option.isSome_map, List.find?_isSome]
    simp only [beq_iff_eq]
    refine ⟨fun h => ⟨?_, h⟩, And.right⟩
    obtain ⟨k, hk, -⟩ := h
    have hpos := List.length_pos_of_mem hk
    omega

/-- Keys that are columns of one name have the same value, so the part of that name is the value of each. -/
theorem groupPart_eq_some {k : Expr} {name : String} (hl : 2 ≤ keys.length) (hk : k ∈ keys)
    (hname : k.columnName? = some name) (r : Row) :
    groupPart? keys (keyDatum (Expr.evalList E db keys r)) name = some (k.eval E db r) := by
  have hvalue : ∀ {x : Expr}, x.columnName? = some name → x.eval E db r = r.get name := by
    intro x hx
    unfold Expr.columnName? at hx
    split at hx
    · cases hx
      rw [Expr.eval]
    · cases hx
  rw [groupPart_of_several E db (by omega)]
  cases hfind : keys.find? fun x => x.columnName? == some name with
  | none => exact absurd (beq_iff_eq.mpr hname) (List.find?_eq_none.mp hfind k hk)
  | some x =>
    have hx : x.columnName? = some name := by simpa using List.find?_some hfind
    rw [Option.map_some, hvalue hname, hvalue hx]

/-! ### Grouped rows -/

theorem mem_groupBy {key : Row → Datum} {rows : List Row} {g : Row} (h : g ∈ groupBy key rows) :
    g.bag ≠ [] ∧ ∀ r ∈ g.bag, g.get "group" = key r := by
  obtain ⟨k, hk, rfl⟩ := List.mem_map.mp h
  obtain ⟨r, hr, rfl⟩ := List.mem_map.mp (List.mem_eraseDups.mp hk)
  refine ⟨List.ne_nil_of_mem (List.mem_filter.mpr ⟨hr, decide_eq_true rfl⟩), fun r' hr' => ?_⟩
  exact (of_decide_eq_true (List.mem_filter.mp hr').2).symm

theorem mem_groupRows_of_mem_rows {g : Row} (h : g ∈ s.rows E db) :
    g ∈ Stage.groupRows E db s.grouping ((s.kept E db).map (s.image E db)) := by
  rw [Stage.rows_eq] at h
  exact (List.mem_insertionSort _).mp (mem_limitRows h)

theorem mem_source_of_mem_kept {r : Row} (h : r ∈ s.kept E db) : r ∈ s.source.rows E db := by
  unfold Stage.kept at h
  cases hf : s.filter with
  | none =>
    rw [hf] at h
    exact h
  | some p =>
    rw [hf] at h
    exact (List.mem_filter.mp h).1

/-- A stage whose rows are groups by `keys`: it makes them, or it passes on the rows of such a stage. -/
inductive Stage.GroupedBy (keys : List Expr) : Stage → Prop where
  | own {s : Stage} (hg : s.grouping = some (.keys keys)) : Stage.GroupedBy keys s
  | inner {s inner : Stage} (hp : s.projected = false) (hg : s.grouping = none) (hs : s.source = .stage inner)
    (h : Stage.GroupedBy keys inner) : Stage.GroupedBy keys s

theorem Stage.GroupedBy.group_eq (h : s.GroupedBy keys) {g : Row} (hg : g ∈ s.rows E db) :
    g.bag ≠ [] ∧ ∀ r ∈ g.bag, g.get "group" = keyDatum (Expr.evalList E db keys r) := by
  induction h with
  | own hkeys =>
    have hmem := mem_groupRows_of_mem_rows E db hg
    rw [hkeys] at hmem
    exact mem_groupBy hmem
  | inner hp hnone hs _ ih =>
    have hmem := mem_groupRows_of_mem_rows E db hg
    rw [hnone] at hmem
    obtain ⟨g', hg', himage⟩ := List.mem_map.mp hmem
    rw [Stage.image_of_not_projected hp] at himage
    have hsource := mem_source_of_mem_kept E db (himage ▸ hg')
    rw [hs] at hsource
    exact ih hsource

end

/-! ### Chains over groups -/

/-- A stage whose rows are groups by `keys`, and typed as groups with a key of type `key`. -/
structure Stage.Groups (keys : List Expr) (key : DataType) (s : Stage) : Prop where
  grouped : s.GroupedBy keys
  element : ∃ element, s.element = .grouping key element

namespace Stage.Groups

variable {key : DataType}

theorem congr (hs : s.Groups keys key) (hsource : s'.source = s.source) (hprojected : s'.projected = s.projected)
    (hgrouping : s'.grouping = s.grouping) (helement : s'.element = s.element) : s'.Groups keys key := by
  refine ⟨?_, helement ▸ hs.element⟩
  cases hs.grouped with
  | own hg => exact .own (hgrouping.trans hg)
  | inner hp hg hs h => exact .inner (hprojected.trans hp) (hgrouping.trans hg) (hsource.trans hs) h

theorem passing (hs : s.Groups keys key) : (s.projected && s.grouping.isNone) = false := by
  cases hs.grouped with
  | own hg => rw [hg, Option.isNone_some, Bool.and_false]
  | inner hp _ _ _ => rw [hp, Bool.false_and]

theorem openIf (hs : s.Groups keys key) (closed : Bool) : (s.openIf closed).Groups keys key := by
  cases closed with
  | false => exact hs
  | true =>
    show s.wrapped.Groups keys key
    rw [Stage.wrapped_of_passing hs.passing]
    exact ⟨.inner rfl rfl rfl hs.grouped, hs.element⟩

theorem noteColumns (hs : s.Groups keys key) (noted : List Column) : (s.noteColumns noted).Groups keys key := by
  obtain ⟨added, -, heq⟩ := s.noteColumns_eq noted
  rw [heq]
  exact hs.congr rfl rfl rfl rfl

/-- A filter goes into a stage that passes groups on. -/
theorem bindFilter {predicate : Expr} (hs : s.Groups keys key)
    (h : (PigChain.bindFilter nested s predicate).outcome = .ok s') : s'.Groups keys key := by
  obtain ⟨p, body, bound, rfl, -, hmerge⟩ := bindFilter_eq_ok h
  have hopen : s.toFilter.Groups keys key := hs.openIf _
  have hp : s.toFilter.projected = false := by
    have hpassing := hopen.passing
    rw [s.toFilter_grouping] at hpassing
    simpa using hpassing
  rcases mergeFilter_eq_ok hmerge with ⟨-, rfl⟩ | ⟨hprojected, -⟩ | ⟨hprojected, -⟩
  · exact (hopen.noteColumns bound.noted).congr rfl rfl rfl rfl
  · rw [hp] at hprojected
    cases hprojected
  · rw [hp] at hprojected
    cases hprojected

theorem bindOrder {x : Expr} {direction : Direction} {after : Bool} (hs : s.Groups keys key)
    (h : (PigChain.bindOrder nested s x direction after).outcome = .ok s') : s'.Groups keys key := by
  obtain ⟨p, body, bound, rfl, -, -, rfl⟩ := bindOrder_eq_ok h
  have hopen : s.toOrder.Groups keys key := hs.openIf _
  have hkept : (if s.toOrder.projected then s.toOrder else s.toOrder.noteColumns bound.noted).Groups keys key := by
    split
    · exact hopen
    · exact hopen.noteColumns bound.noted
  exact hkept.congr rfl rfl rfl rfl

end Stage.Groups

/-- The combinators that keep rows as they are. -/
def rowMethods : List String :=
  ["Where", "Take", "First", "OrderBy", "OrderByDescending", "ThenBy", "ThenByDescending"]

/-- A chain over `chain` whose rows are rows of `chain`. -/
inductive Expr.RowsOf (chain : Expr) : Expr → Prop where
  | self : Expr.RowsOf chain chain
  | keep {later : Expr} {method : String} {args : List Expr} {type : DataType} (h : Expr.RowsOf chain later)
    (hm : method ∈ rowMethods) : Expr.RowsOf chain (.call none method (later :: args) type)
  | same {later body : Expr} {p : Parameter} {args : List Expr} {type : DataType} (h : Expr.RowsOf chain later)
    (hbody : body.isParameter p.name = true) :
    Expr.RowsOf chain (.call none "Select" (later :: .lambda [p] body :: args) type)

theorem applies_groups {b b' : Bound} {method : String} {arg : Option Expr} {type key : DataType}
    (hs : b.stage.Groups keys key) (hm : method ∈ rowMethods) (h : Applies nested b type method arg b') :
    b'.stage.Groups keys key := by
  cases h with
  | filter h => exact hs.bindFilter h
  | select h => exact absurd hm (by decide)
  | group declared _ h => exact absurd hm (by decide)
  | take _ => exact hs.congr rfl rfl rfl rfl
  | first => exact hs.congr rfl rfl rfl rfl
  | firstWhere h => exact (hs.bindFilter h).congr rfl rfl rfl rfl
  | order _ h => exact hs.bindOrder h
  | aggregate hf h =>
    have hnone : ∀ m ∈ rowMethods, aggregateFunction? m = none := by decide
    rw [hnone _ hm] at hf
    cases hf

theorem bindWith_rowsOf {chain later : Expr} {b : Bound} (hl : chain.RowsOf later)
    (h : (bindWith nested later).outcome = .ok b) :
    ∃ b₀, (bindWith nested chain).outcome = .ok b₀ ∧
      ∀ keys key, b₀.stage.Groups keys key → b.stage.Groups keys key := by
  induction hl generalizing b with
  | self => exact ⟨b, h, fun _ _ hs => hs⟩
  | keep _ hm ih =>
    obtain ⟨b₁, hb₁, happ⟩ := bindWith_call_eq_ok h
    obtain ⟨b₀, hb₀, hkeep⟩ := ih hb₁
    exact ⟨b₀, hb₀, fun keys key hs => applies_groups (hkeep keys key hs) hm happ⟩
  | @same later body p args type _ hbody ih =>
    obtain ⟨b₁, hb₁, happ⟩ := bindWith_call_eq_ok h
    obtain ⟨b₀, hb₀, hkeep⟩ := ih hb₁
    refine ⟨b₀, hb₀, fun keys key hs => ?_⟩
    have hgroups := hkeep keys key hs
    obtain ⟨x, hx, hselect⟩ := happ.clause.2.1 rfl
    cases hx
    obtain ⟨q, body', hlambda, hmade⟩ := bindSelect_eq_ok hselect
    cases hlambda
    have hvalue : b₁.stage.isValue = false := by
      rw [Stage.isValue, hgroups.passing]
      rfl
    rcases hmade with ⟨-, heq⟩ | ⟨hrow, -⟩
    · rw [heq]
      exact hgroups
    · rw [hbody, hvalue] at hrow
      cases hrow

/-! ### Keys and their members -/

theorem bindBody_rowField {name : String} {t type : DataType} {bound : BoundBody}
    (h : (bindBody nested s row (.member (some (.parameter row t)) name type)).outcome = .ok bound) :
    fieldColumn s name type = .ok bound.expr := by
  obtain ⟨body, e, hinlined, hrow, hnull⟩ := bindBody_eq_ok h
  rw [inlined_flat (FlatBody.field (L := anyValue))] at hinlined
  cases hinlined
  have hfield : fieldColumn s name type = .ok e := by
    cases rowStep_of_run ⟨[], bound.noted, hrow⟩ with
    | field _ h => exact h
    | walk he _ => simp [Expr.isWalked, isRow_self] at he
    | dotted he _ _ => simp [Expr.isWalked, isRow_self] at he
    | chain he _ => cases he
  obtain ⟨n, u, rfl⟩ := fieldColumn_isColumn hfield
  have hexpr : Expr.column n .row u = bound.expr := Except.ok.inj hnull
  exact hexpr ▸ hfield

/-- The member `name` of the key of a row. -/
def Expr.keyMember (row name : String) (rowType keyType type : DataType) : Expr :=
  .member (some (.member (some (.parameter row rowType)) "Key" keyType)) name type

theorem yields_keyMember {name : String} {rowType keyType type key element : DataType} {e : Expr}
    (he : s.element = .grouping key element)
    (h : Yields ((rowBinder nested s row).run (.keyMember row name rowType keyType type)) e) :
    e = (recordField? (.member (some (.field "group" key)) name type)).getD
      (.member (some (.field "group" key)) name type) := by
  obtain ⟨x, hx, rfl⟩ := yields_run_member rfl h
  obtain ⟨cs, hcs, rfl, -⟩ := yields_rewalk Kind.noConfusion hx
  obtain ⟨c, cs', hc, hnil, rfl⟩ := List.forall₂_cons_left_iff.mp hcs
  cases hnil
  have hkey : c = .field "group" key := by
    cases rowStep_of_run hc with
    | field _ h =>
      rw [fieldColumn, he] at h
      cases h
      rfl
    | walk he _ => simp [Expr.isWalked, isRow_self] at he
    | dotted he _ _ => simp [Expr.isWalked, isRow_self] at he
    | chain he _ => cases he
  rw [hkey]
  rfl

/-- The column for a member of a key: it goes by the name of the member, and it is the field of the row that the member
is given. -/
def KeyColumn (s : Stage) (row : String) (q : String × Expr) (c : Column) : Prop :=
  c.name = q.1 ∧ ∃ t f u, q.2 = .member (some (.parameter row t)) f u ∧ fieldColumn s f u = .ok c.expr

theorem bindProjection_keyColumns {body : Expr} {parts : List (String × Expr)} {columns : List Column}
    (hparts : namedParts? body = .ok (some parts))
    (hplain : ∀ q ∈ parts, ∃ t f u, q.2 = .member (some (.parameter row t)) f u)
    (h : (bindProjection nested s row body).outcome = .ok columns) : List.Forall₂ (KeyColumn s row) parts columns := by
  have hnames := bindProjection_names_of_parts hparts h
  have hbinds := (bindProjection_eq_ok h).2
  rw [namedParts_eq_some hparts, List.forall₂_map_left_iff] at hbinds
  clear hparts h
  induction hbinds with
  | nil => exact .nil
  | @cons q c parts columns hq _ ih =>
    obtain ⟨hname, hrest⟩ := List.cons.inj hnames
    obtain ⟨bound, hbound, hexpr⟩ := hq
    obtain ⟨t, f, u, hfield⟩ := hplain q List.mem_cons_self
    rw [hfield] at hbound
    refine .cons ⟨hname, t, f, u, hfield, ?_⟩ (ih (fun q' hq' => hplain q' (List.mem_cons_of_mem q hq')) hrest)
    rw [hexpr]
    exact bindBody_rowField hbound

/-- Rows are grouped by the fields that a selector gives to the members of a key, and a member of the key of a group, in
whatever clause comes later, is read as the part of `group` of that name. There is such a part exactly if there are
several keys and one of them is a column of that name, and it has the value of that column: the one that the selector
gave to the member if the member goes by the name of its column. -/
theorem key_member_reads_part_by_column_name {inner body later : Expr} {p : Parameter} {args : List Expr}
    {type : DataType} {parts : List (String × Expr)} {b : Bound} (hparts : namedParts? body = .ok (some parts))
    (hplain : ∀ q ∈ parts, ∃ t f u, q.2 = .member (some (.parameter p.name t)) f u)
    (hlater : Expr.RowsOf (.call none "GroupBy" (inner :: .lambda [p] body :: args) type) later)
    (h : later.bound.outcome = .ok b) :
    ∃ b₀ columns key, inner.bound.outcome = .ok b₀ ∧
      List.Forall₂ (KeyColumn b₀.stage.toGroup p.name) parts columns ∧
      b.stage.Groups (columns.map Column.expr) key ∧
      (∀ closed row name rowType keyType type e,
        Yields ((rowBinder nestedStage (b.stage.openIf closed) row).run (.keyMember row name rowType keyType type)) e →
          (∃ u, e = .field ("group." ++ name) u) ∨ key.fields? = none ∧ e.kind = .member) ∧
      ∀ E db, ∀ g ∈ b.stage.rows E db,
        (∀ name, (groupPart? (columns.map Column.expr) (g.get "group") name).isSome = true ↔
          2 ≤ columns.length ∧ ∃ c ∈ columns, c.expr.columnName? = some name) ∧
        ∀ c ∈ columns, ∀ name, 2 ≤ columns.length → c.expr.columnName? = some name → ∀ r ∈ g.bag,
          groupPart? (columns.map Column.expr) (g.get "group") name = some (c.expr.eval E db r) := by
  rw [bound_eq_bindWith] at h
  obtain ⟨b₁, hb₁, hkeep⟩ := bindWith_rowsOf hlater h
  obtain ⟨b₀, hb₀, happ⟩ := bindWith_call_eq_ok hb₁
  obtain ⟨selector, declared, hselector, hgroup⟩ := happ.clause.2.2.1 rfl
  cases hselector
  obtain ⟨q, body', columns, hlambda, hcolumns, hstage⟩ := bindGroup_eq_ok hgroup
  cases hlambda
  have hgroups : b.stage.Groups (columns.map Column.expr) (keyType declared columns) :=
    hkeep _ _ (hstage ▸ ⟨.own rfl, _, rfl⟩)
  refine ⟨b₀, columns, keyType declared columns, bound_eq_bindWith inner ▸ hb₀,
    bindProjection_keyColumns hparts hplain hcolumns, hgroups, ?_, fun E db g hg => ⟨fun name => ?_, ?_⟩⟩
  · intro closed row name rowType keyType' type e he
    obtain ⟨element, helement⟩ := (hgroups.openIf closed).element
    rw [yields_keyMember helement he]
    cases keyType declared columns with
    | record record fields => exact .inl ⟨_, rfl⟩
    | _ => exact .inr ⟨rfl, rfl⟩
  · obtain ⟨hbag, hkey⟩ := hgroups.grouped.group_eq E db hg
    obtain ⟨r, rest, hcons⟩ := List.exists_cons_of_ne_nil hbag
    rw [hkey r (hcons ▸ List.mem_cons_self), isSome_groupPart, List.length_map]
    simp only [List.mem_map, exists_exists_and_eq_and]
  · intro c hc name hl hname r hr
    rw [(hgroups.grouped.group_eq E db hg).2 r hr]
    exact groupPart_eq_some E db (by rwa [List.length_map]) (List.mem_map_of_mem hc) hname r

/-- People grouped by fields, each of which is given to a member of the key. -/
def peopleBy (members : List (String × String)) : Expr :=
  .call none "GroupBy"
    [.source "people" personType,
      .lambda [⟨"p", personType⟩] (.recordOf .unknown (members.map fun q => (q.1, person.get q.2)))]
    (.query .unknown)

/-- The groups of people of one name and age above thirty. -/
def olderGroups : Expr :=
  .call none "Where"
    [peopleBy [("Name", "Name"), ("Age", "Age")],
      .lambda [⟨"g", .unknown⟩]
        (.binary .greaterThan (.keyMember "g" "Age" .unknown .unknown .int64) (.constant (.int 30) .int64) .bool)]
    (.query .unknown)

theorem key_member_reads_part_by_column_name_olderGroups :
    Expr.RowsOf (peopleBy [("Name", "Name"), ("Age", "Age")]) olderGroups ∧
      ∃ b, olderGroups.bound.outcome = .ok b ∧ ∀ E db, ∀ g ∈ b.stage.rows E db, ∀ r ∈ g.bag,
        groupPart? [.field "Name" .string, .field "Age" .int64] (g.get "group") "Age" = some (r.get "Age") := by
  have hrows : Expr.RowsOf (peopleBy [("Name", "Name"), ("Age", "Age")]) olderGroups := .keep .self (by decide)
  obtain ⟨b, hb⟩ : ∃ b, olderGroups.bound.outcome = .ok b := ⟨_, rfl⟩
  have hparts : namedParts? (.recordOf .unknown [("Name", person.get "Name"), ("Age", person.get "Age")]) =
      .ok (some [("Name", person.get "Name"), ("Age", person.get "Age")]) := rfl
  have hplain : ∀ q ∈ [("Name", person.get "Name"), ("Age", person.get "Age")],
      ∃ t f u, q.2 = .member (some (.parameter "p" t)) f u := by
    simp [person, Expr.get]
  obtain ⟨b₀, columns, key, hb₀, hcolumns, -, -, hread⟩ :=
    key_member_reads_part_by_column_name hparts hplain hrows hb
  -- The keys are the two fields themselves.
  cases hb₀
  obtain ⟨c, cs, ⟨-, t, f, u, hc, hname⟩, hcs, rfl⟩ := List.forall₂_cons_left_iff.mp hcolumns
  obtain ⟨d, ds, ⟨-, t', f', u', hd, hage⟩, hds, rfl⟩ := List.forall₂_cons_left_iff.mp hcs
  cases hds
  cases hc
  cases hd
  have hc : c.expr = .field "Name" .string := (Except.ok.inj hname).symm
  have hd : d.expr = .field "Age" .int64 := (Except.ok.inj hage).symm
  refine ⟨hrows, b, hb, fun E db g hg r hr => ?_⟩
  have hpart := (hread E db g hg).2 d (by simp) "Age" (by simp) (by rw [hd]; rfl) r hr
  rw [List.map_cons, List.map_singleton, hc, hd] at hpart
  exact hpart

/-- The names of people, read from a key whose members go by other names than the fields. -/
def renamedKeys : Expr :=
  .call none "Select"
    [peopleBy [("Who", "Name"), ("Old", "Age")],
      .lambda [⟨"g", .unknown⟩] (.recordOf .unknown [("Name", .keyMember "g" "Who" .unknown .unknown .string)])]
    (.query .unknown)

/-- The member is read under its own name, and `group` has no part of that name. -/
theorem renamed_key_member_is_no_part :
    ∃ b groups, renamedKeys.bound.outcome = .ok b ∧ b.stage.script.isOk = true ∧
      b.stage.columns = [⟨"Name", .field "group.Who" .string⟩] ∧ b.stage.source = .stage groups ∧
      groups.GroupedBy [.field "Name" .string, .field "Age" .int64] ∧ ∀ E db, ∀ g ∈ groups.rows E db,
        groupPart? [.field "Name" .string, .field "Age" .int64] (g.get "group") "Who" = none := by
  obtain ⟨b, groups, hb, hscript, hcolumns, hsource, hgrouping⟩ : ∃ b groups, renamedKeys.bound.outcome = .ok b ∧
      b.stage.script.isOk = true ∧ b.stage.columns = [⟨"Name", .field "group.Who" .string⟩] ∧
      b.stage.source = .stage groups ∧
      groups.grouping = some (.keys [.field "Name" .string, .field "Age" .int64]) :=
    ⟨_, _, rfl, rfl, rfl, rfl, rfl⟩
  have hgrouped : groups.GroupedBy [.field "Name" .string, .field "Age" .int64] := .own hgrouping
  refine ⟨b, groups, hb, hscript, hcolumns, hsource, hgrouped, fun E db g hg => ?_⟩
  obtain ⟨hbag, hkey⟩ := hgrouped.group_eq E db hg
  obtain ⟨r, rest, hcons⟩ := List.exists_cons_of_ne_nil hbag
  rw [hkey r (hcons ▸ List.mem_cons_self), ← Option.not_isSome_iff_eq_none, isSome_groupPart]
  simp [Expr.columnName?, Expr.field]

end PigChain
