import PigChain.Proofs.PlainMap
import PigChain.Proofs.Preorder

/-!
# The widths of single values

A single value is read from rows of one field. An editor may put any stage in the place of another, once it has edited
what is in it, and only the node of a single value looks at the width of the stage put there. The plain map makes every
node of a tree anew, whatever the widths, and notes the stage that each single value gets. The editor fails exactly if
one of the noted stages is not one field wide, and then with the width of the first such stage. Otherwise it gives the
tree of the plain map, where every single value, at any depth, is read from rows of one field.
-/

namespace PigChain

/-! ### The plain map -/

section

variable {m : Type → Type} [Monad m] (edit : Stage → m Stage) (note : Stage → m PUnit)

mutual

/-- Makes every node anew, edits every stage after what is in it, and notes the stage of each single value. -/
def Expr.mapStages : Expr → m Expr
  | .subquery s t => do
    let s ← s.mapStages
    pure (.subquery s t)
  | .scalar s t => do
    let s ← s.mapStages
    note s
    pure (.scalar s t)
  | .select s => do
    let s ← s.mapStages
    pure (.select s)
  | e => e.withChildren <$> e.children.attach.mapM fun c => c.1.mapStages
termination_by e => sizeOf e
decreasing_by
  · rw [Expr.subquery.sizeOf_spec]; omega
  · rw [Expr.scalar.sizeOf_spec]; omega
  · rw [Expr.select.sizeOf_spec]; omega
  · exact Expr.sizeOf_lt_of_mem_children c.2

def Stage.mapStages (s : Stage) : m Stage := do
  let source ← s.source.mapStages
  let filter ← refillOption s.filter <$> s.filter.toList.attach.mapM fun c => c.1.mapStages
  let columns ← Column.refill s.columns <$> (s.columns.map Column.expr).attach.mapM fun c => c.1.mapStages
  let grouping ← Grouping.refill s.grouping <$> (Grouping.exprs s.grouping).attach.mapM fun c => c.1.mapStages
  let orderBy ← Ordering.refill s.orderBy <$> (s.orderBy.map Ordering.expr).attach.mapM fun c => c.1.mapStages
  edit { s with source, filter, columns, grouping, orderBy }
termination_by sizeOf s
decreasing_by
  · cases s
    rw [Stage.mk.sizeOf_spec]
    dsimp only
    omega
  · exact sizeOf_lt_of_mem_clauses (List.mem_append_left _ c.2)
  · exact sizeOf_lt_of_mem_clauses (List.mem_append_right _ (List.mem_append_left _ c.2))
  · exact sizeOf_lt_of_mem_clauses (List.mem_append_right _ (List.mem_append_right _ (List.mem_append_left _ c.2)))
  · exact sizeOf_lt_of_mem_clauses (List.mem_append_right _ (List.mem_append_right _ (List.mem_append_right _ c.2)))

def Source.mapStages : Source → m Source
  | .base n => pure (.base n)
  | .stage s => do
    let s ← s.mapStages
    pure (.stage s)
termination_by s => sizeOf s
decreasing_by
  rw [Source.stage.sizeOf_spec]; omega

end

variable [LawfulMonad m]

theorem mapM_attach {α β : Type} (f : α → m β) (xs : List α) : (xs.attach.mapM fun x => f x.1) = xs.mapM f := by
  rw [List.mapM_subtype fun _ _ => rfl, List.unattach_attach]

theorem Expr.mapStages_of_stageless {e : Expr} (hs : e.holdsStage = false) :
    e.mapStages edit note = e.withChildren <$> e.children.mapM (Expr.mapStages edit note) := by
  rw [← mapM_attach]
  cases e with
  | subquery s t => cases hs
  | scalar s t => cases hs
  | select s => cases hs
  | _ => simp only [Expr.mapStages]

theorem Stage.mapStages_eq (s : Stage) : s.mapStages edit note = (do
    let source ← s.source.mapStages edit note
    let filter ← refillOption s.filter <$> s.filter.toList.mapM (Expr.mapStages edit note)
    let columns ← Column.refill s.columns <$> (s.columns.map Column.expr).mapM (Expr.mapStages edit note)
    let grouping ← Grouping.refill s.grouping <$> (Grouping.exprs s.grouping).mapM (Expr.mapStages edit note)
    let orderBy ← Ordering.refill s.orderBy <$> (s.orderBy.map Ordering.expr).mapM (Expr.mapStages edit note)
    edit { s with source, filter, columns, grouping, orderBy }) := by
  rw [Stage.mapStages]
  simp only [mapM_attach]

end

/-! ### An editor and the map side by side -/

variable {σ α β γ : Type}

/-- Edits every stage after what is in it. The state may tell apart the places at which equal stages stand. -/
def Editor.atStages (f : Stage → StateM σ (Option Stage)) : Editor (Keeping σ) := Editor.editStages fun s => liftM (f s)

/-- A stage after `f`, with the notes left alone. -/
def editNoting (f : Stage → StateM σ (Option Stage)) (s : Stage) : StateM (σ × List Stage) Stage := do
  let (state, noted) ← get
  let (answer, state') := (f s).run state
  set (state', noted)
  pure (answer.getD s)

def noteStage (s : Stage) : StateM (σ × List Stage) PUnit := modify fun kept => (kept.1, kept.2 ++ [s])

/-- A visit and the plain map of one part. The map adds to the notes. If every stage that it notes is one field wide, the
visit succeeds with what the map gives and `Q` holds of it. Otherwise the visit fails with the width of the first stage
that is not. -/
def ChecksNotes (visited : Keeping σ α) (mapped : StateM (σ × List Stage) α) (Q : α → Prop) : Prop :=
  ∀ state, ∃ a after notes, (∀ noted, mapped.run (state, noted) = (a, after, noted ++ notes)) ∧
    ((notes.find? (·.width != 1) = none ∧ visited.run.run state = (.ok a, after) ∧ Q a) ∨
      ∃ s stop, notes.find? (·.width != 1) = some s ∧ visited.run.run state = (.error (.scalarWidth s.width), stop))

theorem checksNotes_pure {Q : α → Prop} {a : α} (h : Q a) : ChecksNotes (σ := σ) (pure a) (pure a) Q := by
  intro state
  refine ⟨a, state, [], fun noted => ?_, .inl ⟨rfl, rfl, h⟩⟩
  rw [List.append_nil]
  rfl

theorem ChecksNotes.imp {u : Keeping σ α} {v : StateM (σ × List Stage) α} {P Q : α → Prop} (h : ChecksNotes u v P)
    (hPQ : ∀ a, P a → Q a) : ChecksNotes u v Q := by
  intro state
  obtain ⟨a, after, notes, hv, hu⟩ := h state
  exact ⟨a, after, notes, hv, hu.imp_left (And.imp_right (And.imp_right (hPQ a)))⟩

/-- What follows may count on the result so far only where no note is against it. -/
theorem ChecksNotes.bind {u : Keeping σ α} {v : StateM (σ × List Stage) α} {P : α → Prop} {g : α → Keeping σ β}
    {k : α → StateM (σ × List Stage) β} {Q : β → Prop} (h : ChecksNotes u v P)
    (hk : ∀ a, ChecksNotes (g a) (k a) fun b => P a → Q b) : ChecksNotes (u >>= g) (v >>= k) Q := by
  intro state
  obtain ⟨a, after, notes, hv, hu⟩ := h state
  obtain ⟨b, after', notes', hkb, hgb⟩ := hk a after
  refine ⟨b, after', notes ++ notes', fun noted => ?_, ?_⟩
  · rw [state_run_bind (hv noted), hkb, List.append_assoc]
  · rw [List.find?_append]
    rcases hu with ⟨hnotes, hrun, ha⟩ | ⟨s, stop, hnotes, hrun⟩
    · rw [hnotes, Option.none_or, keeping_run_bind hrun]
      exact hgb.imp_left (And.imp_right (And.imp_right fun hb => hb ha))
    · exact .inr ⟨s, stop, by rw [hnotes, Option.some_or], keeping_run_bind_error hrun⟩

theorem ChecksNotes.map {u : Keeping σ α} {v : StateM (σ × List Stage) α} {P : α → Prop} {Q : β → Prop} (make : α → β)
    (h : ChecksNotes u v P) (hmake : ∀ a, P a → Q (make a)) : ChecksNotes (make <$> u) (make <$> v) Q := by
  rw [map_eq_pure_bind, map_eq_pure_bind]
  exact h.bind fun a => checksNotes_pure (hmake a)

theorem checksNotes_mapM {g : α → Keeping σ β} {k : α → StateM (σ × List Stage) β} {Q : β → Prop} {xs : List α}
    (h : ∀ x ∈ xs, ChecksNotes (g x) (k x) Q) :
    ChecksNotes (xs.mapM g) (xs.mapM k) fun ys => ys.length = xs.length ∧ ∀ y ∈ ys, Q y := by
  induction xs with
  | nil => exact checksNotes_pure ⟨rfl, List.forall_mem_nil _⟩
  | cons x xs ih =>
    rw [List.mapM_cons, List.mapM_cons]
    refine (h x List.mem_cons_self).bind fun y => ?_
    refine (ih fun x' hx' => h x' (List.mem_cons_of_mem x hx')).bind fun ys => ?_
    refine checksNotes_pure fun hys hy => ⟨congrArg (· + 1) hys.1, fun y' hy' => ?_⟩
    rcases List.mem_cons.mp hy' with rfl | hy'
    · exact hy
    · exact hys.2 y' hy'

/-! ### Parts -/

/-- Every single value in the clauses of a stage, and of the stages it reads, is read from rows of one field. -/
def Stage.NarrowScalars (s : Stage) : Prop := ∀ x ∈ s.exprs, x.NarrowScalars

theorem Stage.narrowScalars_iff {s : Stage} :
    s.NarrowScalars ↔ (∀ x ∈ s.source.exprs, x.NarrowScalars) ∧ ∀ x ∈ s.clauses, x.NarrowScalars := by
  rw [Stage.NarrowScalars, s.exprs_eq, List.forall_mem_append]

namespace Editor

variable (f : Stage → StateM σ (Option Stage))

/-- The visit of a part follows the plain map of it. -/
def ChecksMap : Part → Prop
  | .expr e => e.NarrowScalars →
    ChecksNotes ((atStages f).run e) (e.mapStages (editNoting f) noteStage) Expr.NarrowScalars
  | .stage s => s.NarrowScalars →
    ChecksNotes ((atStages f).runStage s) (s.mapStages (editNoting f) noteStage) Stage.NarrowScalars

variable {f}

/-- Expressions are visited one after another and put in their places. -/
theorem checksNotes_refill {xs : List Expr} {fill : List Expr → γ} {exprs : γ → List Expr}
    (hfill : ∀ cs, cs.length = xs.length → exprs (fill cs) = cs) (hxs : ∀ x ∈ xs, x.NarrowScalars)
    (h : ∀ x ∈ xs, ChecksMap f (.expr x)) :
    ChecksNotes (fill <$> xs.mapM (atStages f).run) (fill <$> xs.mapM (Expr.mapStages (editNoting f) noteStage))
      fun c => ∀ x ∈ exprs c, x.NarrowScalars := by
  refine (checksNotes_mapM fun x hx => h x hx (hxs x hx)).map fill fun cs hcs => ?_
  rw [hfill cs hcs.1]
  exact hcs.2

/-- A scalar that was one field wide is a scalar over what its stage is made, or the walk fails at it. -/
theorem rewalk_scalar_checked {s : Stage} (hw : s.width = 1) (r : Editor (Keeping σ)) (t : DataType) :
    r.rewalk (.scalar s t) = (do
      let s ← r.runStage s
      if s.width = 1 then pure (.scalar s t) else throw (.scalarWidth s.width)) := by
  simp only [rewalk, walk, runStage, bind_assoc, pure_bind]
  congr 1; funext s'
  cases s' with
  | none => rw [Option.getD_none, if_pos hw]; rfl
  | some s' =>
    rw [replaceScalar, Option.getD_some]
    split <;> rfl

theorem checksNotes_scalar (s : Stage) (t : DataType) :
    ChecksNotes (σ := σ) (if s.width = 1 then pure (Expr.scalar s t) else throw (.scalarWidth s.width))
      (do
        noteStage s
        pure (Expr.scalar s t))
      fun e => s.NarrowScalars → e.NarrowScalars := by
  intro state
  refine ⟨.scalar s t, state, [s], fun noted => rfl, ?_⟩
  by_cases hw : s.width = 1
  · rw [if_pos hw]
    exact .inl ⟨by simp [hw], rfl, fun hs => Expr.narrowScalars_scalar.mpr ⟨hw, hs⟩⟩
  · rw [if_neg hw]
    exact .inr ⟨s, state, by simp [hw], rfl⟩

theorem checksMap_expr {e : Expr} (h : ∀ q ∈ (Part.expr e).parts, ChecksMap f q) : ChecksMap f (.expr e) := by
  intro he
  rw [run_of_walk (atStages f) fun _ => rfl]
  cases hs : e.holdsStage with
  | false =>
    rw [Part.parts_expr hs] at h
    rw [rewalk_eq_mapM_of_stageless _ hs, Expr.mapStages_of_stageless _ _ hs]
    have hchildren := checksNotes_mapM fun x hx => h (.expr x) (List.mem_map_of_mem hx) (he.child hx)
    refine hchildren.map e.withChildren fun cs hcs => Expr.narrowScalars_of_children (fun s t hscalar => ?_) ?_
    · have hkind := e.kind_withChildren cs
      rw [hscalar] at hkind
      exact absurd hkind.symm (Expr.kind_ne_scalar hs)
    · rw [Expr.children_withChildren hcs.1]
      exact hcs.2
  | true =>
    cases e with
    | subquery s t =>
      rw [rewalk_subquery, Expr.mapStages]
      refine ChecksNotes.bind (h _ (List.mem_singleton_self _) fun x hx => he.child hx) fun s' => checksNotes_pure ?_
      exact fun hs' => (Expr.narrowScalars_node (by rintro _ _ ⟨⟩)).mpr hs'
    | scalar s t =>
      rw [rewalk_scalar_checked he.width, Expr.mapStages]
      exact ChecksNotes.bind (h _ (List.mem_singleton_self _) fun x hx => he.child hx) fun s' => checksNotes_scalar s' t
    | select s =>
      rw [rewalk_select, Expr.mapStages]
      refine ChecksNotes.bind (h _ (List.mem_singleton_self _) fun x hx => he.child hx) fun s' => checksNotes_pure ?_
      exact fun hs' => (Expr.narrowScalars_node (by rintro _ _ ⟨⟩)).mpr hs'
    | _ => cases hs

/-- The walk of a stage with the parts it left alone filled in. -/
def rewalkStage {m : Type → Type} [Monad m] [MonadExceptOf Error m] (r : Editor m) (s : Stage) : m Stage := do
  let s' ← r.walkStage s
  pure (s'.getD s)

theorem rewalkStage_eq (r : Editor (Keeping σ)) (s : Stage) : r.rewalkStage s = (do
    let source ← r.runSource s.source
    let filter ← r.runOption s.filter
    let columns ← r.runColumns s.columns
    let grouping ← r.runGrouping s.grouping
    let orderBy ← r.runOrderings s.orderBy
    pure { s with source, filter, columns, grouping, orderBy }) := by
  simp only [rewalkStage, walkStage, runSource, runOption, runColumns, runGrouping, runOrderings, bind_assoc, pure_bind,
    Stage.replace_getD]

theorem runStage_atStages (s : Stage) : (atStages f).runStage s = (do
    let s ← (atStages f).rewalkStage s
    let answer ← liftM (f s)
    pure (answer.getD s)) := by
  rw [runStage, visitStage_eq, rewalkStage]
  simp only [atStages, editStages, bind_assoc, pure_bind]
  congr 1; funext s'; congr 1; funext answer
  cases answer <;> rfl

theorem checksNotes_source {s : Source} (hs : ∀ x ∈ s.exprs, x.NarrowScalars) (h : ∀ q ∈ s.parts, ChecksMap f q) :
    ChecksNotes ((atStages f).runSource s) (s.mapStages (editNoting f) noteStage)
      fun s => ∀ x ∈ s.exprs, x.NarrowScalars := by
  cases s with
  | base n =>
    rw [Source.mapStages]
    exact checksNotes_pure hs
  | stage inner =>
    rw [Source.exprs] at hs
    rw [runSource_stage, Source.mapStages]
    refine ChecksNotes.bind (h _ (List.mem_singleton_self _) hs) fun s' => checksNotes_pure fun hs' => ?_
    rw [Source.exprs]
    exact hs'

section

variable (hf : ∀ s state s', ((f s).run state).1 = some s' → s.NarrowScalars → s'.NarrowScalars)
include hf

theorem checksNotes_edit (s : Stage) :
    ChecksNotes (do
        let answer ← liftM (f s)
        pure (answer.getD s))
      (editNoting f s) fun s' => s.NarrowScalars → s'.NarrowScalars := by
  intro state
  refine ⟨((f s).run state).1.getD s, ((f s).run state).2, [], fun noted => ?_, .inl ⟨rfl, rfl, fun hs => ?_⟩⟩
  · rw [List.append_nil]
    rfl
  · cases hanswer : ((f s).run state).1 with
    | none => exact hs
    | some s' => exact hf s state s' hanswer hs

theorem checksMap_stage {s : Stage} (h : ∀ q ∈ (Part.stage s).parts, ChecksMap f q) : ChecksMap f (.stage s) := by
  intro hs
  obtain ⟨hsource, hclauses⟩ := Stage.narrowScalars_iff.mp hs
  have hclause : ∀ c ∈ s.clauses, ChecksMap f (.expr c) :=
    fun c hc => h _ (List.mem_append_right _ (List.mem_map_of_mem hc))
  simp only [Stage.clauses, List.forall_mem_append] at hclauses hclause
  rw [runStage_atStages, rewalkStage_eq, Stage.mapStages_eq, runOption_eq_mapM, runColumns_eq_mapM, runGrouping_eq_mapM,
    runOrderings_eq_mapM]
  simp only [bind_assoc, pure_bind]
  have hcolumns : (s.columns.map Column.expr).length = s.columns.length := List.length_map _
  have horder : (s.orderBy.map Ordering.expr).length = s.orderBy.length := List.length_map _
  refine (checksNotes_source hsource fun q hq => h q (List.mem_append_left _ hq)).bind fun source => ?_
  refine (checksNotes_refill (fun _ => refillOption_exprs) hclauses.1 hclause.1).bind fun filter => ?_
  refine (checksNotes_refill (fun _ hcs => Column.exprs_refill (hcs.trans hcolumns)) hclauses.2.1 hclause.2.1).bind
    fun columns => ?_
  refine (checksNotes_refill (fun _ => Grouping.exprs_refill) hclauses.2.2.1 hclause.2.2.1).bind fun grouping => ?_
  refine (checksNotes_refill (fun _ hcs => Ordering.exprs_refill (hcs.trans horder)) hclauses.2.2.2 hclause.2.2.2).bind
    fun orderBy => ?_
  refine (checksNotes_edit hf _).imp fun s' hs' horderBy hgrouping hcolumns hfilter hsource => hs' ?_
  rw [Stage.narrowScalars_iff]
  simp only [Stage.clauses, List.forall_mem_append]
  exact ⟨hsource, hfilter, hcolumns, hgrouping, horderBy⟩

theorem checksMap (p : Part) : ChecksMap f p := by
  induction p using Part.induction with
  | h p ih =>
    cases p with
    | expr e => exact checksMap_expr ih
    | stage s => exact checksMap_stage hf ih

end

end Editor

/-- A tree in which every single value is read from rows of one field, and an editor that puts stages in the place of
stages, each with no single value in it that is read from rows of another width. Let `scalars` be the stages that the
single values get where nothing is checked. The editor fails exactly if one of them is not one field wide. It fails with
the width of the first such stage. If it succeeds, it gives the tree in which nothing was checked, and every single value
of it is read from rows of one field. -/
theorem scalars_stay_narrow (f : Stage → StateM σ (Option Stage))
    (hf : ∀ s state s', ((f s).run state).1 = some s' → s.NarrowScalars → s'.NarrowScalars) {e : Expr}
    (he : e.NarrowScalars) (state : σ) :
    ∃ tree after scalars, (e.mapStages (editNoting f) noteStage).run (state, []) = (tree, after, scalars) ∧
      ((∃ err stop, ((Editor.atStages f).run e).run.run state = (.error err, stop)) ↔ ∃ s ∈ scalars, s.width ≠ 1) ∧
      (∀ err stop, ((Editor.atStages f).run e).run.run state = (.error err, stop) →
        ∃ s, scalars.find? (·.width != 1) = some s ∧ err = .scalarWidth s.width) ∧
      ∀ result stop, ((Editor.atStages f).run e).run.run state = (.ok result, stop) →
        result = tree ∧ stop = after ∧ result.NarrowScalars := by
  obtain ⟨tree, after, scalars, hmapped, hrun⟩ := Editor.checksMap hf (.expr e) he state
  refine ⟨tree, after, scalars, hmapped [], ?_⟩
  rcases hrun with ⟨hnarrow, hrun, htree⟩ | ⟨s, stop, hwide, hrun⟩
  · rw [hrun]
    refine ⟨⟨?_, ?_⟩, ?_, ?_⟩
    · rintro ⟨err, stop, ⟨⟩⟩
    · rintro ⟨s, hs, hw⟩
      exact absurd hw (by simpa using List.find?_eq_none.mp hnarrow s hs)
    · rintro err stop ⟨⟩
    · rintro result stop ⟨⟩
      exact ⟨rfl, rfl, htree⟩
  · rw [hrun]
    refine ⟨⟨fun _ => ⟨s, List.mem_of_find?_eq_some hwide, ?_⟩, fun _ => ⟨_, stop, rfl⟩⟩, ?_, ?_⟩
    · simpa using List.find?_some hwide
    · rintro err stop ⟨⟩
      exact ⟨s, hwide, rfl⟩
    · rintro result stop ⟨⟩

/-- Repeats the columns of the first stage that is edited, and counts the stages. -/
def repeatFirst (s : Stage) : StateM Nat (Option Stage) := do
  let count ← get
  set (count + 1)
  pure (if count = 0 then some { s with columns := s.columns ++ s.columns } else none)

/-- The least of some totals, for every order. -/
def leastTotals : Expr :=
  .scalar { Stage.base "orders" .unknown with
    projected := true
    columns := [⟨"Least", .scalar { Stage.base "totals" .unknown with
      projected := true
      columns := [⟨"Total", .field "Total" .int64⟩] } .int64⟩] } .int64

/-- The stage of the inner value is edited first. -/
theorem scalars_stay_narrow_leastTotals :
    (∀ s state s', ((repeatFirst s).run state).1 = some s' → s.NarrowScalars → s'.NarrowScalars) ∧
    leastTotals.NarrowScalars ∧
    ∃ tree after scalars, (leastTotals.mapStages (editNoting repeatFirst) noteStage).run (0, []) =
        (tree, after, scalars) ∧
      (∃ s ∈ scalars, s.width ≠ 1) ∧
      ∃ s, scalars.find? (·.width != 1) = some s ∧ s.width = 2 := by
  have hf : ∀ s state s', ((repeatFirst s).run state).1 = some s' → s.NarrowScalars → s'.NarrowScalars := by
    intro s count s' hanswer hs
    change (if count = 0 then some { s with columns := s.columns ++ s.columns } else none) = some s' at hanswer
    split at hanswer
    · cases hanswer
      rw [Stage.narrowScalars_iff] at hs ⊢
      simp only [Stage.clauses, List.map_append, List.forall_mem_append] at hs ⊢
      exact ⟨hs.1, hs.2.1, ⟨hs.2.2.1, hs.2.2.1⟩, hs.2.2.2⟩
    · cases hanswer
  have htotal : (Expr.field "Total" .int64).NarrowScalars := by
    apply Expr.narrowScalars_of_children
    · rintro s t ⟨⟩
    · exact List.forall_mem_nil _
  have he : leastTotals.NarrowScalars := by
    simp [leastTotals, Expr.narrowScalars_scalar, Stage.width, Stage.exprs, Source.exprs, Stage.base, Grouping.exprs,
      htotal]
  obtain ⟨tree, after, scalars, hmapped, hfails, hwidth, -⟩ := scalars_stay_narrow repeatFirst hf he 0
  have hrun : ((Editor.atStages repeatFirst).run leastTotals).run.run 0 = (.error (.scalarWidth 2), 1) := rfl
  obtain ⟨s, hs, hs2⟩ := hwidth _ _ hrun
  exact ⟨hf, he, tree, after, scalars, hmapped, hfails.mp ⟨_, _, hrun⟩, s, hs, (Error.scalarWidth.inj hs2).symm⟩

end PigChain
