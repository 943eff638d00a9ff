import PigChain.Compile
import PigChain.Proofs.Plans

/-!
# Interleaved steps

The script of a chain that has a plan depends on the plan and on nothing else: the sequence of its filters, the sequence
of its orderings, its last projection and its least limit. It loads the source and then has at most one statement of
each kind, in the order in which the clauses of a stage run.
-/

namespace PigChain

variable {s : Stage} {source : String} {fields : List Field} {plan : Plan}

/-! ### The statements of a plan -/

namespace Plan

def filterClause (plan : Plan) : Except Error (List (Nat → Statement)) :=
  match plan.filter with
  | none => .ok []
  | some x => (x.term none).map fun p => [fun r => .filter r p]

def columnsClause (plan : Plan) : List (Nat → Statement) :=
  match plan.names with
  | none => []
  | some names => [fun r => .generate r (names.map fun name => ⟨.field name, none⟩)]

def orderClause (plan : Plan) : List (Nat → Statement) :=
  if plan.keys.isEmpty then [] else [fun r => .order r (plan.keys.map fun k => (.field k.1, k.2))]

def limitClause (plan : Plan) : List (Nat → Statement) :=
  match plan.limit with
  | none => []
  | some count => [fun r => .limit r count]

/-- The statements after the source is loaded: at most one of a kind, the kinds in this order. -/
def clauses (plan : Plan) : Except Error (List (Nat → Statement)) :=
  plan.filterClause.map fun filter => filter ++ (plan.columnsClause ++ (plan.orderClause ++ plan.limitClause))

end Plan

/-! ### The script of a plan -/

theorem lowerList_passing (fields : List Field) (names : List String) :
    Column.lowerList none (names.map (Column.passing fields)) = pure (names.map fun name => ⟨.field name, none⟩) := by
  induction names with
  | nil => rfl
  | cons name names ih =>
    have halias : Column.alias? name (sourceField fields name) = none := if_pos rfl
    rw [List.map_cons, Column.passing, Column.lowerList, ih, halias, sourceField, Expr.field, Expr.lower]
    rfl

theorem lowerList_keys (fields : List Field) (keys : List (String × Direction)) :
    Ordering.lowerList none (keys.map fun k => ⟨sourceField fields k.1, k.2⟩) =
      pure (keys.map fun k => (.field k.1, k.2)) := by
  induction keys with
  | nil => rfl
  | cons k keys ih =>
    rw [List.map_cons, Ordering.lowerList, ih, sourceField, Expr.field, Expr.lower]
    rfl

theorem combine_quiet {x y : Expr} (hx : (x.lower none).Quiet) (hy : (y.lower none).Quiet) :
    ((Expr.combine .and x y).lower none).Quiet := by
  rw [Expr.combine, Expr.lower]
  exact hx.bind fun _ => hy.bind fun _ => .pure _

theorem term_combine {x y : Expr} (hx : (x.lower none).Quiet) (hy : (y.lower none).Quiet) :
    (Expr.combine .and x y).term none = (do return binaryTerm .and .bool (← x.term none) (← y.term none)) := by
  rw [Expr.term, Expr.combine, Expr.lower, lower_eq_term hx, lower_eq_term hy]
  cases x.term none with
  | error err => rfl
  | ok p => cases y.term none <;> rfl

namespace Plan

/-- A conjunction adds no statement, and has a term if every predicate has one. -/
theorem foldl_conjoin {predicates : List Expr} (h : ∀ p ∈ predicates, (p.lower none).Quiet) (existing : Option Expr)
    (hx : ∀ x ∈ existing, (x.lower none).Quiet) :
    (∀ x ∈ predicates.foldl conjoin existing, (x.lower none).Quiet) ∧
      (predicates.foldl conjoin existing).all (fun x => (x.term none).isOk) =
        (existing.all (fun x => (x.term none).isOk) && predicates.all fun p => (p.term none).isOk) := by
  -- The conjunction grows with every predicate, so it is general in the induction.
  induction predicates generalizing existing with
  | nil => exact ⟨hx, (Bool.and_true _).symm⟩
  | cons p predicates ih =>
    have hp : (p.lower none).Quiet := h p List.mem_cons_self
    have hrest : ∀ q ∈ predicates, (q.lower none).Quiet := fun q hq => h q (List.mem_cons_of_mem p hq)
    cases existing with
    | none =>
      obtain ⟨hquiet, hterm⟩ := ih hrest (some p) (by rintro x ⟨⟩; exact hp)
      exact ⟨hquiet, by rw [List.foldl_cons, List.all_cons]; exact hterm⟩
    | some x =>
      have hboth := combine_quiet (hx x rfl) hp
      obtain ⟨hquiet, hterm⟩ := ih hrest (some (.combine .and x p)) (by rintro y ⟨⟩; exact hboth)
      refine ⟨hquiet, ?_⟩
      rw [List.foldl_cons, List.all_cons, ← Bool.and_assoc]
      refine hterm.trans (congrArg (· && _) ?_)
      show ((Expr.combine .and x p).term none).isOk = ((x.term none).isOk && (p.term none).isOk)
      rw [term_combine (hx x rfl) hp]
      cases x.term none with
      | error err => rfl
      | ok t => cases p.term none <;> rfl

theorem filter_quiet (h : ∀ p ∈ plan.predicates, (p.lower none).Quiet) : ∀ x ∈ plan.filter, (x.lower none).Quiet :=
  (foldl_conjoin h none fun _ hx => nomatch hx).1

theorem clauses_isOk (h : ∀ p ∈ plan.predicates, (p.lower none).Quiet) :
    plan.clauses.isOk = plan.predicates.all fun p => (p.term none).isOk := by
  have hfilter : plan.clauses.isOk = plan.filter.all fun x => (x.term none).isOk := by
    rw [clauses, filterClause]
    cases plan.filter with
    | none => rfl
    | some x =>
      show (((x.term none).map _).map _).isOk = (x.term none).isOk
      cases x.term none <;> rfl
  rw [hfilter]
  exact (foldl_conjoin h none fun _ hx => nomatch hx).2

end Plan

namespace Stage.Follows

theorem adds_filterClause (hs : s.Follows source fields plan) :
    Adds source (Stage.lowerFilter · s.filter) plan.filterClause := by
  rw [Plan.filterClause, ← hs.filter]
  cases hf : s.filter with
  | none =>
    simp only [Stage.lowerFilter]
    exact adds_nothing
  | some x => exact adds_filter (Plan.filter_quiet hs.quiet x (hs.filter ▸ hf))

theorem adds_columnsClause (hs : s.Follows source fields plan) :
    Adds source (Stage.lowerColumns · s.projected s.columns) (.ok plan.columnsClause) := by
  rw [Plan.columnsClause, hs.projected]
  cases hn : plan.names with
  | none => exact adds_nothing
  | some names =>
    rw [hs.columns names hn]
    intro clauses
    simp only [Stage.lowerColumns, Option.isSome_some, if_true, lowerList_passing, pure_bind]
    exact adds_clause (fun r => .generate r (names.map fun name => ⟨.field name, none⟩)) clauses

theorem adds_orderClause (hs : s.Follows source fields plan) :
    Adds source (Stage.lowerOrder · s.orderBy) (.ok plan.orderClause) := by
  rw [Plan.orderClause, hs.orderBy]
  intro clauses
  simp only [Stage.lowerOrder, lowerList_keys, pure_bind, List.isEmpty_map]
  cases plan.keys.isEmpty with
  | true => exact adds_nothing clauses
  | false => exact adds_clause (fun r => .order r (plan.keys.map fun k => (.field k.1, k.2))) clauses

theorem adds_limitClause (hs : s.Follows source fields plan) :
    Adds source (Stage.lowerLimit · s.limit) (.ok plan.limitClause) := by
  rw [Plan.limitClause, hs.limit]
  cases plan.limit with
  | none => exact adds_nothing
  | some count => exact adds_limit count

theorem script_eq (hs : s.Follows source fields plan) : s.script = plan.clauses.map (Script.pipeline source) := by
  have hrest : Adds source (fun r => do
      let r ← Stage.lowerFilter r s.filter
      let r ← Stage.lowerColumns r s.projected s.columns
      let r ← Stage.lowerOrder r s.orderBy
      Stage.lowerLimit r s.limit) _ :=
    hs.adds_filterClause.bind (hs.adds_columnsClause.bind (hs.adds_orderClause.bind hs.adds_limitClause))
  have hlower : s.lower.run [] = plan.clauses.map fun clauses => (Script.pipeline source clauses).reached := by
    rw [Stage.lower_eq, hs.source, hs.grouping]
    simp only [Stage.lowerGrouping, Source.lower, pure_bind]
    refine (hrest []).trans ?_
    rw [Plan.clauses]
    cases plan.filterClause <;> rfl
  rw [Stage.script, hlower]
  cases plan.clauses <;> rfl

end Stage.Follows

theorem compile_text {chain : Expr} {b : Bound} (hb : chain.bound.outcome = .ok b) (options : RenderOptions) :
    (chain.compile options).outcome.map Compiled.text = b.stage.script.map fun script => script.render options := by
  unfold Expr.compile
  simp only [Traced.outcome_bind, hb, Except.bind, Traced.outcome_silent]
  cases b.stage.script <;> rfl

/-- Chains of the same plan are bound to one stage over their source and have the same text, with at most one
statement of each kind; or none of them has a text, if a predicate has no term. -/
theorem interleaved_steps_render_alike {chain chain' : Expr} {b b' : Bound}
    (h : Interleaves (PlainRows fields) source fields chain plan)
    (h' : Interleaves (PlainRows fields) source fields chain' plan) (hb : chain.bound.outcome = .ok b)
    (hb' : chain'.bound.outcome = .ok b') :
    b.stage.source = .base source ∧ b.stage.script = plan.clauses.map (Script.pipeline source) ∧
      plan.clauses.isOk = plan.predicates.all (fun p => (p.term none).isOk) ∧
      ∀ options, (chain.compile options).outcome.map Compiled.text =
        (chain'.compile options).outcome.map Compiled.text := by
  have hs : b.stage.Follows source fields plan := h.follows (bound_eq_bindWith chain ▸ hb)
  have hs' : b'.stage.Follows source fields plan := h'.follows (bound_eq_bindWith chain' ▸ hb')
  refine ⟨hs.source, hs.script_eq, Plan.clauses_isOk hs.quiet, fun options => ?_⟩
  rw [compile_text hb, compile_text hb', hs.script_eq, hs'.script_eq]

/-! ### Named adults, by name and age -/

/-- A step whose lambda has a row named `r`. -/
def overRow (method : String) (body chain : Expr) : Expr :=
  .call none method [chain, .lambda [⟨"r", .unknown⟩] body] (.query .unknown)

def ofRow (name : String) (type : DataType) : Expr := .member (some (.parameter "r" .unknown)) name type

/-- A projection by fields. -/
def choosing (members : List (String × DataType)) : Expr :=
  .recordWith .unknown (members.map fun m => (m.1, ofRow m.1 m.2))

def takeFirst (count : Int64) (chain : Expr) : Expr :=
  .call none "Take" [chain, .constant (.int count) .int64] (.query .unknown)

namespace Interleaves

variable {rows : DataType → List String → Prop} {chain : Expr}

theorem orderBy (hc : Interleaves rows source fields chain plan) (hl : plan.limit = none) (method name : String)
    (t : DataType) {direction : Direction} {after : Bool} (hm : orderings.lookup method = some (direction, after)) :
    Interleaves rows source fields (overRow method (ofRow name t) chain)
      { plan with sortings := plan.sortings ++ [⟨name, direction, after⟩] } :=
  .order hc hl hm rfl

theorem choose (hc : Interleaves rows source fields chain plan) (hl : plan.limit = none)
    (members : List (String × DataType)) (hkeys : ∀ k ∈ plan.keys, k.1 ∈ members.map Prod.fst)
    (hrows : rows .unknown (members.map Prod.fst)) :
    Interleaves rows source fields (overRow "Select" (choosing members) chain)
      { plan with names := some (members.map Prod.fst) } := by
  have hparts : namedParts? (choosing members) = .ok (some (members.map fun m => (m.1, ofRow m.1 m.2))) := by
    unfold choosing Expr.recordWith
    rw [namedParts?]
    refine congrArg (some <$> ·) (mapM_eq_ok.mpr ?_)
    rw [List.forall₂_map_left_iff, List.forall₂_same]
    exact fun m _ => rfl
  have hnames : (members.map fun m => (m.1, ofRow m.1 m.2)).map Prod.fst = members.map Prod.fst := by simp
  rw [← hnames] at hkeys hrows ⊢
  refine .select hc hl hparts (fun q hq => ?_) hkeys hrows
  obtain ⟨m, -, rfl⟩ := List.mem_map.mp hq
  exact ⟨_, _, rfl⟩

theorem takeFirst (hc : Interleaves rows source fields chain plan) (n : Int64) {count : UInt64}
    (hcount : takeCount (.constant (.int n) .int64) = .ok count) :
    Interleaves rows source fields (takeFirst n chain) { plan with limit := some (match plan.limit with
      | some current => min current count
      | none => count) } :=
  .take hc hcount

end Interleaves

theorem readsFields_compared {op : BinaryOp} {name : String} {t type type' : DataType} {v : Value} :
    ReadsFields fields "r" (.binary op (ofRow name t) (.constant v type) type')
      (.binary op (sourceField fields name) (.constant v type) type') := by
  have hvalue : ReadsFields fields "r" (.constant v type) ((Expr.constant v type).withChildren []) :=
    .node rfl rfl Kind.noConfusion .nil rfl
  have hparts : List.Forall₂ (ReadsFields fields "r") [ofRow name t, .constant v type]
      [sourceField fields name, .constant v type] := .cons (.field rfl) (.cons hvalue .nil)
  exact ReadsFields.node (e := .binary op (ofRow name t) (.constant v type) type') rfl rfl Kind.noConfusion hparts rfl

def personFields : List Field := [⟨"Name", .string, false⟩, ⟨"Age", .int64, false⟩, ⟨"Email", .string, false⟩]

def everyone : Expr := .source "people" (.record "Person" personFields)

def adult : Expr := .binary .greaterThan (ofRow "Age" .int64) (.constant (.int 30) .int64) .bool

def named : Expr := .binary .notEqual (ofRow "Name" .string) (.constant .null .string) .bool

/-- The filters stand around the projection, and a key is added after it. -/
def filteredAround : Expr :=
  takeFirst 10 (overRow "ThenByDescending" (ofRow "Age" .int64) (overRow "Where" named
    (overRow "Select" (choosing [("Name", .string), ("Age", .int64)])
      (overRow "OrderBy" (ofRow "Name" .string) (overRow "Where" adult everyone)))))

/-- A wider projection comes first, the last one after the orderings and the filters. -/
def projectedTwice : Expr :=
  takeFirst 10 (takeFirst 20 (overRow "Select" (choosing [("Name", .string), ("Age", .int64)])
    (overRow "Where" named (overRow "Where" adult
      (overRow "ThenByDescending" (ofRow "Age" .int64) (overRow "OrderBy" (ofRow "Name" .string)
        (overRow "Select" (choosing [("Age", .int64), ("Email", .string), ("Name", .string)]) everyone)))))))

def namedAdults : Plan where
  predicates := [.binary .greaterThan (.field "Age" .int64) (.constant (.int 30) .int64) .bool,
    .isNotNull (.field "Name" .string)]
  sortings := [⟨"Name", .ascending, false⟩, ⟨"Age", .descending, true⟩]
  names := some ["Name", "Age"]
  limit := some 10

theorem interleaves_everyone : Interleaves (PlainRows personFields) "people" personFields everyone {} := .source

theorem interleaves_filteredAround :
    Interleaves (PlainRows personFields) "people" personFields filteredAround namedAdults := by
  have hadult : Interleaves (PlainRows personFields) "people" personFields (overRow "Where" adult everyone) _ :=
    .filter interleaves_everyone rfl rfl readsFields_compared rfl
  have hchosen := (hadult.orderBy rfl "OrderBy" "Name" .string rfl).choose rfl [("Name", .string), ("Age", .int64)]
    (by simp [Plan.keys]) trivial
  have hnamed : Interleaves (PlainRows personFields) "people" personFields (overRow "Where" named _) _ :=
    .filter hchosen rfl rfl readsFields_compared rfl
  exact (hnamed.orderBy rfl "ThenByDescending" "Age" .int64 rfl).takeFirst 10 rfl

theorem interleaves_projectedTwice :
    Interleaves (PlainRows personFields) "people" personFields projectedTwice namedAdults := by
  have hwide := interleaves_everyone.choose rfl [("Age", .int64), ("Email", .string), ("Name", .string)]
    (fun _ hk => nomatch hk) trivial
  have hsorted := (hwide.orderBy rfl "OrderBy" "Name" .string rfl).orderBy rfl "ThenByDescending" "Age" .int64 rfl
  have hadult : Interleaves (PlainRows personFields) "people" personFields (overRow "Where" adult _) _ :=
    .filter hsorted rfl rfl readsFields_compared rfl
  have hnamed : Interleaves (PlainRows personFields) "people" personFields (overRow "Where" named _) _ :=
    .filter hadult rfl rfl readsFields_compared rfl
  have hchosen := hnamed.choose rfl [("Name", .string), ("Age", .int64)] (by simp [Plan.keys]) trivial
  exact (hchosen.takeFirst 20 rfl).takeFirst 10 rfl

theorem interleaved_steps_render_alike_namedAdults :
    ∃ b, filteredAround.bound.outcome = .ok b ∧ b.stage.source = .base "people" ∧
      b.stage.script = namedAdults.clauses.map (Script.pipeline "people") ∧ namedAdults.clauses.isOk = true ∧
      ∀ options, (filteredAround.compile options).outcome.map Compiled.text =
        (projectedTwice.compile options).outcome.map Compiled.text := by
  obtain ⟨b, hb⟩ := except_isOk (show filteredAround.bound.outcome.isOk = true by decide +kernel)
  obtain ⟨b', hb'⟩ := except_isOk (show projectedTwice.bound.outcome.isOk = true by decide +kernel)
  obtain ⟨hsource, hscript, hterms, htext⟩ :=
    interleaved_steps_render_alike interleaves_filteredAround interleaves_projectedTwice hb hb'
  exact ⟨b, hb, hsource, hscript, hterms.trans (by decide +kernel), htext⟩

/-! ### Fields that are groups -/

def keyFields : List Field := [⟨"Key", .grouping .string .int64, false⟩]

def keyed : Expr := .source "s" (.record "S" keyFields)

/-- The rows of the projection are groups, whose key is not the column `Key`. -/
def keyChosenFirst : Expr :=
  overRow "Where" (.isNull (ofRow "Key" (.grouping .string .int64)))
    (overRow "Select" (choosing [("Key", .grouping .string .int64)]) keyed)

def keyChosenLast : Expr :=
  overRow "Select" (choosing [("Key", .grouping .string .int64)])
    (overRow "Where" (.isNull (ofRow "Key" (.grouping .string .int64))) keyed)

theorem readsFields_isNull {name : String} {t : DataType} :
    ReadsFields fields "r" (.isNull (ofRow name t)) (.isNull (sourceField fields name)) := by
  have hparts : List.Forall₂ (ReadsFields fields "r") [ofRow name t] [sourceField fields name] :=
    .cons (.field rfl) .nil
  exact ReadsFields.node (e := .isNull (ofRow name t)) rfl rfl Kind.noConfusion hparts rfl

/-- A filter after a projection whose rows are groups reads another column than the filter before it, and needs a
stage of its own. -/
theorem group_rows_render_apart :
    (∃ plan, Interleaves (fun _ _ => True) "s" keyFields keyChosenFirst plan ∧
      Interleaves (fun _ _ => True) "s" keyFields keyChosenLast plan) ∧
    (keyChosenFirst.compile {}).outcome.toOption.map Compiled.text =
      some "A = LOAD 's'; B = FOREACH A GENERATE Key; C = FILTER B BY group IS NULL; D = FOREACH C GENERATE Key; DUMP D;" ∧
    (keyChosenLast.compile {}).outcome.toOption.map Compiled.text =
      some "A = LOAD 's'; B = FILTER A BY Key IS NULL; C = FOREACH B GENERATE Key; DUMP C;" := by
  have hsource : Interleaves (fun _ _ => True) "s" keyFields keyed {} := .source
  have hchosen := hsource.choose rfl [("Key", .grouping .string .int64)] (fun _ hk => nomatch hk) trivial
  have hmissing : Interleaves (fun _ _ => True) "s" keyFields
      (overRow "Where" (.isNull (ofRow "Key" (.grouping .string .int64))) keyed) _ :=
    .filter hsource rfl rfl readsFields_isNull rfl
  refine ⟨⟨_, .filter hchosen rfl rfl readsFields_isNull rfl, ?_⟩, by decide +kernel, by decide +kernel⟩
  exact hmissing.choose rfl [("Key", .grouping .string .int64)] (fun _ hk => nomatch hk) trivial

end PigChain
