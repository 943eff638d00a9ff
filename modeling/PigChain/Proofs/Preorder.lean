import PigChain.Expr.Edit
import PigChain.Proofs.QuietWalk
import PigChain.Proofs.Rebuilding

/-!
# The order of a walk

A walk enters an expression or a stage before anything below it, and goes through what is below it from left to right.
So the parts of a tree have one order, and an editor that does something on entry and then walks on does it once at
every part, in this order. If it records the parts that it enters and fails at some of them, the record is the listing of
the tree up to the first part at which it fails.
-/

namespace PigChain

/-! ### Parts of a tree -/

/-- What a walk enters. -/
inductive Part where
  | expr (e : Expr)
  | stage (s : Stage)

def Source.parts : Source → List Part
  | .base _ => []
  | .stage inner => [.stage inner]

/-- The expressions in the clauses of a stage, without those of the stage it reads. -/
def Stage.clauses (s : Stage) : List Expr :=
  s.filter.toList ++ (s.columns.map Column.expr ++ (Grouping.exprs s.grouping ++ s.orderBy.map Ordering.expr))

/-- The parts directly below a part, from left to right. -/
def Part.parts : Part → List Part
  | .expr (.subquery s _) => [.stage s]
  | .expr (.scalar s _) => [.stage s]
  | .expr (.select s) => [.stage s]
  | .expr e => e.children.map .expr
  | .stage s => s.source.parts ++ s.clauses.map .expr

theorem Part.parts_expr {e : Expr} (h : e.holdsStage = false) : (Part.expr e).parts = e.children.map .expr := by
  cases e with
  | subquery s t => cases h
  | scalar s t => cases h
  | select s => cases h
  | _ => rfl

theorem Stage.exprs_eq (s : Stage) : s.exprs = s.source.exprs ++ s.clauses := by
  obtain ⟨_, _, _, _, _, _, _, _, _⟩ := s
  rw [Stage.exprs]
  rfl

theorem sizeOf_lt_of_mem_clauses {c : Expr} {s : Stage} (h : c ∈ s.clauses) : sizeOf c < sizeOf s :=
  sizeOf_lt_of_mem_stage (s.exprs_eq ▸ List.mem_append_right _ h)

theorem Part.sizeOf_lt_of_mem_parts {p q : Part} (h : q ∈ p.parts) : sizeOf q < sizeOf p := by
  cases p with
  | expr e =>
    cases hs : e.holdsStage with
    | false =>
      rw [Part.parts_expr hs] at h
      obtain ⟨c, hc, rfl⟩ := List.mem_map.mp h
      have hbelow := Expr.sizeOf_lt_of_mem_children hc
      rw [Part.expr.sizeOf_spec, Part.expr.sizeOf_spec]
      omega
    | true =>
      cases e with
      | subquery s t =>
        rw [List.mem_singleton.mp h, Part.stage.sizeOf_spec, Part.expr.sizeOf_spec, Expr.subquery.sizeOf_spec]
        omega
      | scalar s t =>
        rw [List.mem_singleton.mp h, Part.stage.sizeOf_spec, Part.expr.sizeOf_spec, Expr.scalar.sizeOf_spec]
        omega
      | select s =>
        rw [List.mem_singleton.mp h, Part.stage.sizeOf_spec, Part.expr.sizeOf_spec, Expr.select.sizeOf_spec]
        omega
      | _ => cases hs
  | stage s =>
    rcases List.mem_append.mp h with h | h
    · obtain ⟨source, _, _, _, _, _, _, _, _⟩ := s
      cases source with
      | base n => cases h
      | stage inner =>
        rw [List.mem_singleton.mp h, Part.stage.sizeOf_spec, Part.stage.sizeOf_spec, Stage.mk.sizeOf_spec,
          Source.stage.sizeOf_spec]
        omega
    · obtain ⟨c, hc, rfl⟩ := List.mem_map.mp h
      have hbelow := sizeOf_lt_of_mem_clauses hc
      rw [Part.expr.sizeOf_spec, Part.stage.sizeOf_spec]
      omega

/-- A part and everything below it, a part before what is below it. -/
def Part.preorder (p : Part) : List Part := p :: p.parts.attach.flatMap fun q => q.1.preorder
termination_by sizeOf p
decreasing_by exact Part.sizeOf_lt_of_mem_parts q.2

theorem Part.preorder_eq (p : Part) : p.preorder = p :: p.parts.flatMap Part.preorder := by
  rw [Part.preorder, List.flatMap_subtype fun _ _ => rfl, List.unattach_attach]

/-- What holds of a part whenever it holds of the parts directly below it holds of every part. -/
theorem Part.induction {P : Part → Prop} (h : ∀ p : Part, (∀ q ∈ p.parts, P q) → P p) (p : Part) : P p := by
  induction hn : sizeOf p using Nat.strongRecOn generalizing p with
  | ind n ih => exact h p fun q hq => ih (sizeOf q) (hn ▸ Part.sizeOf_lt_of_mem_parts hq) q rfl

/-- The parts of an expression in the order of a walk. -/
def Expr.preorder (e : Expr) : List Part := (Part.expr e).preorder

/-! ### Expressions of a tree -/

def Part.expr? : Part → Option Expr
  | .expr e => some e
  | .stage _ => none

/-- The expressions of a tree in the order of a walk. -/
def Expr.nodes (e : Expr) : List Expr := e.preorder.filterMap Part.expr?

theorem Part.filterMap_preorder (p : Part) :
    p.preorder.filterMap Part.expr? = p.expr?.toList ++ p.parts.flatMap fun q => q.preorder.filterMap Part.expr? := by
  rw [Part.preorder_eq, List.filterMap_cons, List.filterMap_flatMap]
  cases p <;> rfl

theorem filterMap_preorder_stage (s : Stage) :
    (Part.stage s).preorder.filterMap Part.expr? = s.exprs.flatMap Expr.nodes := by
  have hstage : ∀ p : Part, ∀ s, p = .stage s → p.preorder.filterMap Part.expr? = s.exprs.flatMap Expr.nodes := by
    intro p
    induction p using Part.induction with
    | h p ih =>
      rintro s rfl
      have hsource : (s.source.parts.flatMap fun q => q.preorder.filterMap Part.expr?) =
          s.source.exprs.flatMap Expr.nodes := by
        cases hs : s.source with
        | base n =>
          rw [Source.exprs]
          rfl
        | stage inner =>
          have hmem : Part.stage inner ∈ (Part.stage s).parts := by
            rw [Part.parts, hs]
            exact List.mem_append_left _ (List.mem_singleton_self _)
          rw [Source.exprs, ← ih _ hmem inner rfl, Source.parts, List.flatMap_singleton]
      rw [Part.filterMap_preorder, Part.parts, List.flatMap_append, hsource, List.flatMap_map, s.exprs_eq,
        List.flatMap_append]
      rfl
  exact hstage _ s rfl

/-- A node comes before the nodes of its children, child by child. -/
theorem Expr.nodes_eq (e : Expr) : e.nodes = e :: e.children.flatMap Expr.nodes := by
  rw [Expr.nodes, Expr.preorder, Part.filterMap_preorder]
  cases hs : e.holdsStage with
  | false =>
    rw [Part.parts_expr hs, List.flatMap_map]
    rfl
  | true =>
    cases e with
    | subquery s t => rw [Part.parts, List.flatMap_singleton, filterMap_preorder_stage]; rfl
    | scalar s t => rw [Part.parts, List.flatMap_singleton, filterMap_preorder_stage]; rfl
    | select s => rw [Part.parts, List.flatMap_singleton, filterMap_preorder_stage]; rfl
    | _ => cases hs

theorem Expr.mem_nodes {x e : Expr} : x ∈ e.nodes ↔ Expr.Occurs x e := by
  induction e using Expr.childInduction with
  | h e ih =>
    rw [Expr.nodes_eq, List.mem_cons, List.mem_flatMap]
    constructor
    · rintro (rfl | ⟨c, hc, hx⟩)
      · exact .self
      · exact .child hc ((ih c hc).mp hx)
    · intro h
      cases h with
      | self => exact .inl rfl
      | child hc h => exact .inr ⟨_, hc, (ih _ hc).mpr h⟩

/-! ### Doing something on entry -/

theorem forM_flatMap {m : Type → Type} [Monad m] [LawfulMonad m] {α β : Type} (xs : List α) (g : α → List β)
    (f : β → m PUnit) : (xs.flatMap g).forM f = xs.forM fun x => (g x).forM f := by
  induction xs with
  | nil => rfl
  | cons x xs ih =>
    rw [List.flatMap_cons, List.forM_eq_forM, List.forM_append]
    exact congrArg (forM (g x) f >>= ·) (funext fun _ => ih)

namespace Editor

variable {m : Type → Type} [Monad m] [MonadExceptOf Error m]

/-- Does something at every expression and stage, and then walks on. -/
def entering (enter : Part → m PUnit) : Editor m where
  expr e walk := do
    enter (.expr e)
    walk
  stage s walk := do
    enter (.stage s)
    walk

/-- What the hook of a stage is given to run. -/
def walkStage (r : Editor m) (s : Stage) : m (Option Stage) := do
  let source' ← r.visitSource s.source
  let filter' ← r.visitOption s.filter
  let columns' ← r.visitColumns s.columns
  let grouping' ← r.visitGrouping s.grouping
  let orderBy' ← r.visitOrderings s.orderBy
  pure (s.replace source' filter' columns' grouping' orderBy')

theorem visitStage_eq (r : Editor m) (s : Stage) : r.visitStage s = r.stage s (r.walkStage s) := by
  obtain ⟨_, _, _, _, _, _, _, _, _⟩ := s
  rw [visitStage]
  rfl

/-- The visit of a part does no more than `f`. -/
def LeavesPart (r : Editor m) (f : Part → m PUnit) : Part → Prop
  | .expr e => r.visit e = (f (.expr e) >>= fun _ => pure none)
  | .stage s => r.visitStage s = (f (.stage s) >>= fun _ => pure none)

variable [LawfulMonad m] {r : Editor m} {f : Part → m PUnit}

theorem walk_leavesParts {e : Expr} (h : ∀ q ∈ (Part.expr e).parts, r.LeavesPart f q) :
    r.walk e = ((Part.expr e).parts.forM f >>= fun _ => pure none) := by
  cases hs : e.holdsStage with
  | false =>
    rw [Part.parts_expr hs] at h ⊢
    rw [walk_leaves_of_stageless hs fun c hc => h _ (List.mem_map_of_mem hc)]
    simp
  | true =>
    cases e with
    | subquery s t =>
      rw [walk, show r.visitStage s = _ from h _ (List.mem_singleton_self _)]
      simp [Part.parts]
    | scalar s t =>
      rw [walk, show r.visitStage s = _ from h _ (List.mem_singleton_self _)]
      simp [Part.parts, replaceScalar]
    | select s =>
      rw [walk, show r.visitStage s = _ from h _ (List.mem_singleton_self _)]
      simp [Part.parts]
    | _ => cases hs

theorem walkStage_leavesParts {s : Stage} (h : ∀ q ∈ (Part.stage s).parts, r.LeavesPart f q) :
    r.walkStage s = ((Part.stage s).parts.forM f >>= fun _ => pure none) := by
  have hclause : ∀ c ∈ s.clauses, r.Leaves (fun c => f (.expr c)) c :=
    fun c hc => h _ (List.mem_append_right _ (List.mem_map_of_mem hc))
  simp only [Stage.clauses, List.mem_append] at hclause
  have hsource : r.visitSource s.source = (s.source.parts.forM f >>= fun _ => pure none) := by
    cases hs : s.source with
    | base n => simp [visitSource, Source.parts]
    | stage inner =>
      have hinner : r.LeavesPart f (.stage inner) := by
        refine h _ (List.mem_append_left _ ?_)
        rw [hs]
        exact List.mem_singleton_self _
      rw [visitSource, show r.visitStage inner = _ from hinner]
      simp [Source.parts]
  rw [walkStage, hsource, visitOption_leaves fun c hc => hclause c (.inl hc),
    visitColumns_leaves fun c hc => hclause c (.inr (.inl hc)),
    visitGrouping_leaves fun c hc => hclause c (.inr (.inr (.inl hc))),
    visitOrderings_leaves fun c hc => hclause c (.inr (.inr (.inr hc)))]
  simp [Part.parts, Stage.clauses, Stage.replace, List.forM_append]

theorem leavesPart_entering (enter : Part → m PUnit) (p : Part) :
    (entering enter).LeavesPart (fun q => q.preorder.forM enter) p := by
  induction p using Part.induction with
  | h p ih =>
    have hlisting : p.preorder.forM enter = (enter p >>= fun _ => p.parts.forM fun q => q.preorder.forM enter) := by
      rw [Part.preorder_eq, ← forM_flatMap]
      rfl
    cases p with
    | expr e =>
      rw [LeavesPart, hlisting, bind_assoc, ← walk_leavesParts ih]
      exact visit_eq _ e
    | stage s =>
      rw [LeavesPart, hlisting, bind_assoc, ← walkStage_leavesParts ih]
      exact visitStage_eq _ s

/-- An editor that does something on entry does it once at every part of a tree, in the order of the listing, and
replaces nothing. -/
theorem visit_entering (enter : Part → m PUnit) (e : Expr) :
    (entering enter).visit e = (e.preorder.forM enter >>= fun _ => pure none) :=
  leavesPart_entering enter (.expr e)

end Editor

/-! ### Records -/

section

variable {α : Type} (note : Part → α) (refuse : List α → Part → Option Error)

/-- Records a part, and fails if `refuse` has something against it after what was recorded before. -/
def recordPart (p : Part) : Keeping (List α) PUnit := do
  let seen ← get
  set (seen ++ [note p])
  (refuse seen p).elim (pure ⟨⟩) throw

/-- Nothing is refused among `parts`, entered one after another when `seen` has been recorded. -/
def Admits (seen : List α) (parts : List Part) : Prop :=
  ∀ before p after, parts = before ++ p :: after → refuse (seen ++ before.map note) p = none

variable {note refuse} {seen : List α} {p : Part} {parts : List Part}

theorem recordPart_run (note : Part → α) (refuse : List α → Part → Option Error) (p : Part) (seen : List α) :
    (recordPart note refuse p).run.run seen = ((refuse seen p).elim (.ok ⟨⟩) .error, seen ++ [note p]) := by
  show ((refuse seen p).elim (pure ⟨⟩) throw : Keeping (List α) PUnit).run.run (seen ++ [note p]) = _
  cases refuse seen p <;> rfl

theorem admits_nil : Admits note refuse seen [] := by
  intro before p after h
  cases before <;> cases h

theorem admits_cons :
    Admits note refuse seen (p :: parts) ↔ refuse seen p = none ∧ Admits note refuse (seen ++ [note p]) parts := by
  constructor
  · refine fun h => ⟨?_, fun before q after hparts => ?_⟩
    · have hp := h [] p parts rfl
      rwa [List.map_nil, List.append_nil] at hp
    · have hq := h (p :: before) q after (by rw [hparts, List.cons_append])
      rwa [List.map_cons, List.append_cons] at hq
  · rintro ⟨hp, hparts⟩ before q after h
    cases before with
    | nil =>
      obtain ⟨rfl, -⟩ := List.cons.inj h
      rwa [List.map_nil, List.append_nil]
    | cons first before =>
      obtain ⟨rfl, hrest⟩ := List.cons.inj h
      rw [List.map_cons, List.append_cons]
      exact hparts before q after hrest

/-- What is admitted is recorded to its end. -/
theorem record_of_admits (h : Admits note refuse seen parts) :
    (parts.forM (recordPart note refuse)).run.run seen = (.ok ⟨⟩, seen ++ parts.map note) := by
  induction parts generalizing seen with
  | nil =>
    rw [List.map_nil, List.append_nil]
    rfl
  | cons p parts ih =>
    obtain ⟨hp, hparts⟩ := admits_cons.mp h
    have hrecord : (recordPart note refuse p).run.run seen = (.ok ⟨⟩, seen ++ [note p]) := by
      rw [recordPart_run, hp]
      rfl
    show (recordPart note refuse p >>= fun _ => parts.forM (recordPart note refuse)).run.run seen = _
    rw [keeping_run_bind hrecord, ih hparts, List.map_cons, List.append_assoc]
    rfl

/-- The record ends with the first part that is refused. -/
theorem record_of_refused {before after : List Part} {err : Error} (h : Admits note refuse seen before)
    (hp : refuse (seen ++ before.map note) p = some err) :
    ((before ++ p :: after).forM (recordPart note refuse)).run.run seen =
      (.error err, seen ++ (before ++ [p]).map note) := by
  rw [List.forM_eq_forM, List.forM_append]
  have hbefore := record_of_admits h
  rw [List.forM_eq_forM] at hbefore
  rw [keeping_run_bind hbefore]
  show (recordPart note refuse p >>= fun _ => after.forM (recordPart note refuse)).run.run (seen ++ before.map note) = _
  rw [ExceptT.run_bind, StateT.run_bind, recordPart_run, hp, List.map_append, ← List.append_assoc]
  rfl

end

/-- A walk that records what it enters. Its record is the listing of the tree if nothing is refused, and ends with the
first part that is refused otherwise. The expressions listed are those that stand in the tree. -/
theorem record_follows_preorder {α : Type} (note : Part → α) (refuse : List α → Part → Option Error) (e : Expr) :
    (Admits note refuse [] e.preorder →
      ((Editor.entering (recordPart note refuse)).visit e).run.run [] = (.ok none, e.preorder.map note)) ∧
    (∀ before p after err, e.preorder = before ++ p :: after → Admits note refuse [] before →
      refuse (before.map note) p = some err →
        ((Editor.entering (recordPart note refuse)).visit e).run.run [] = (.error err, (before ++ [p]).map note)) ∧
    ∀ x, .expr x ∈ e.preorder ↔ Expr.Occurs x e := by
  rw [Editor.visit_entering]
  refine ⟨fun h => ?_, fun before p after err hsplit h hp => ?_, fun x => ?_⟩
  · rw [keeping_run_bind (record_of_admits h)]
    rfl
  · rw [ExceptT.run_bind, StateT.run_bind, hsplit, record_of_refused h hp]
    rfl
  · rw [← Expr.mem_nodes, Expr.nodes, List.mem_filterMap]
    constructor
    · exact fun h => ⟨_, h, rfl⟩
    · rintro ⟨q, hq, hx⟩
      cases q with
      | expr y =>
        cases hx
        exact hq
      | stage s => cases hx

/-- What a part is recorded as by its kind. -/
def Part.visited : Part → Editor.Visited
  | .expr e => .expr e.kind
  | .stage _ => .stage

/-- The refusal of expressions of some kinds. -/
def refuseKinds (refused : Kind → Bool) (_ : List Editor.Visited) : Part → Option Error
  | .expr e => if refused e.kind then some (.unsupportedNode e.kind) else none
  | .stage _ => none

theorem recording_eq_entering (refused : Kind → Bool) :
    Editor.recording refused = Editor.entering (recordPart Part.visited (refuseKinds refused)) := by
  have hexpr : (Editor.recording refused).expr =
      (Editor.entering (recordPart Part.visited (refuseKinds refused))).expr := by
    funext e walk
    simp only [Editor.recording, Editor.entering, recordPart, refuseKinds, Part.visited]
    cases refused e.kind <;> rfl
  exact congrArg (Editor.mk · fun s walk => do
    modify (· ++ [Editor.Visited.stage])
    walk) hexpr

/-- Orders that are filtered by `x` and put in order. -/
def ordersAbove : Stage :=
  { Stage.after (Stage.base "orders" .int64) with
    filter := some (.parameter "x" .bool), orderBy := [⟨.field "Total" .int64, .ascending⟩] }

/-- A record with a value over two stages, and with a member set in a record inside it. -/
def orderSummary : Expr :=
  .recordInit .unknown [.scalar ordersAbove .int64] [] [.nested "Inner" [.assign "Least" (.parameter "y" .int64)]]

/-- The stages are entered in their places, and a refused column ends the record. -/
theorem record_follows_preorder_orderSummary :
    ((Editor.recording fun _ => false).visit orderSummary).run.run [] =
      (.ok none, [.expr .recordInit, .expr .scalar, .stage, .stage, .expr .parameter, .expr .column, .expr .parameter]) ∧
    ((Editor.recording (· == .column)).visit orderSummary).run.run [] =
      (.error (.unsupportedNode .column),
        [.expr .recordInit, .expr .scalar, .stage, .stage, .expr .parameter, .expr .column]) := by
  have hlisting : orderSummary.preorder =
      [.expr orderSummary, .expr (.scalar ordersAbove .int64), .stage ordersAbove, .stage (Stage.base "orders" .int64),
        .expr (.parameter "x" .bool)] ++ .expr (.field "Total" .int64) :: [.expr (.parameter "y" .int64)] := by
    simp [orderSummary, ordersAbove, Expr.preorder, Part.preorder_eq, Part.parts, Expr.children, Stage.clauses,
      Stage.after, Stage.base, Source.parts, Expr.field, Grouping.exprs, Binding.exprs, Binding.exprsList]
  rw [recording_eq_entering, recording_eq_entering]
  refine ⟨?_, ?_⟩
  · rw [(record_follows_preorder _ _ orderSummary).1 fun _ p _ _ => by cases p <;> rfl, hlisting]
    rfl
  · refine (record_follows_preorder _ _ orderSummary).2.1 _ _ _ _ hlisting ?_ rfl
    simp only [admits_cons, admits_nil]
    decide

end PigChain
