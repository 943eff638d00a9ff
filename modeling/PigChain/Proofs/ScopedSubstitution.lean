import PigChain.Proofs.Capture
import PigChain.Proofs.Rebuilding

/-!
# Substitution as a function of the bindings

A pass keeps the bindings in force in one place and changes them on the way: a lambda takes out what its parameters
hide, and puts it back when its body has been visited. Given the bindings as an argument there is nothing to put back,
since the body of a lambda is simply read under fewer of them. The two make the same tree, and the pass ends under the
bindings it began with, also where the visit fails half way.
-/

namespace PigChain

/-! ### Bindings as an argument -/

/-- The bindings without those of some names. -/
def Bindings.without (b : Bindings) (names : List String) : Bindings := fun n => if n ∈ names then none else b n

/-- Every reference to a bound name replaced. Inside a lambda its parameters are not bound. -/
def Expr.instantiated (b : Bindings) : Expr → Expr
  | .parameter n t => (b n).getD (.parameter n t)
  | .lambda ps body => .lambda ps (body.instantiated (b.without (ps.map Parameter.name)))
  | e => e.withChildren (e.children.attach.map fun c => c.1.instantiated b)
termination_by e => sizeOf e
decreasing_by
  · rw [Expr.lambda.sizeOf_spec]
    omega
  · exact Expr.sizeOf_lt_of_mem_children c.2

variable {σ α β : Type} {e : Expr}

/-- A node that neither refers to a name nor binds one is made of its children. -/
theorem Expr.instantiated_node (hp : e.kind ≠ .parameter) (hl : e.kind ≠ .lambda) (b : Bindings) :
    e.instantiated b = e.withChildren (e.children.map (Expr.instantiated b)) := by
  rw [Expr.instantiated.eq_3 b e (fun n t h => hp (h ▸ rfl)) (fun ps body h => hl (h ▸ rfl)), List.attach_map_val]

/-! ### Computations that end in the state they began in -/

/-- The state is the same before and after, whether the computation succeeds or fails. -/
def Restores (u : Keeping σ α) : Prop := ∀ state, (u.run.run state).2 = state

theorem restores_pure (a : α) : Restores (pure a : Keeping σ α) := fun _ => rfl

theorem Restores.bind {u : Keeping σ α} {f : α → Keeping σ β} (hu : Restores u) (hf : ∀ a, Restores (f a)) :
    Restores (u >>= f) := by
  intro state
  have hstate := hu state
  rw [ExceptT.run_bind, StateT.run_bind]
  cases hrun : u.run.run state with
  | mk result after =>
    rw [hrun] at hstate
    cases result with
    | error err => exact hstate
    | ok a => exact (hf a after).trans hstate

/-- What is made of a result does not show in the state. -/
theorem Restores.of_bind_pure {u : Keeping σ α} {f : α → β} (h : Restores (u >>= fun a => pure (f a))) : Restores u := by
  intro state
  have hstate := h state
  rw [ExceptT.run_bind, StateT.run_bind] at hstate
  cases hrun : u.run.run state with
  | mk result after =>
    rw [hrun] at hstate
    cases result with
    | error err => exact hstate
    | ok a => exact hstate

theorem restores_mapM {f : α → Keeping σ β} {xs : List α} (h : ∀ x ∈ xs, Restores (f x)) : Restores (xs.mapM f) := by
  induction xs with
  | nil =>
    rw [List.mapM_nil]
    exact restores_pure []
  | cons x xs ih =>
    rw [List.mapM_cons]
    refine (h x List.mem_cons_self).bind fun y => ?_
    exact (ih fun z hz => h z (List.mem_cons_of_mem x hz)).bind fun ys => restores_pure (y :: ys)

theorem restores_replaceScalar (s : Option Stage) (t : DataType) :
    Restores (replaceScalar s t : Keeping σ (Option Expr)) := by
  intro state
  cases s with
  | none => rfl
  | some s =>
    rw [replaceScalar]
    split <;> rfl

/-- A walk restores the state if the visits of the children do. The rebuilding of a scalar may fail, but it does not
touch the state. -/
theorem restores_walk {r : Editor (Keeping σ)} (hr : r.WalksStages) (h : ∀ c ∈ e.children, Restores (r.visit c)) :
    Restores (r.walk e) := by
  have hchildren : Restores (e.children.mapM r.run) :=
    restores_mapM fun c hc => (h c hc).bind fun _ => restores_pure _
  by_cases hk : e.kind = .scalar
  · cases e with
    | scalar s t =>
      have hstage : Restores (r.runStage s) := by
        rw [Editor.runStage_eq_mapM hr, map_eq_pure_bind]
        exact hchildren.bind fun _ => restores_pure _
      rw [Editor.walk]
      exact hstage.of_bind_pure.bind fun s' => restores_replaceScalar s' t
    | _ => cases hk
  · have hrewalk : Restores (r.rewalk e) := by
      rw [Editor.rewalk_eq_mapM hr hk, map_eq_pure_bind]
      exact hchildren.bind fun _ => restores_pure _
    exact hrewalk.of_bind_pure

/-- What a lambda takes out it puts back. -/
theorem Restores.shadowing {walk : Keeping Bindings α} (h : Restores walk) (ps : List Parameter) :
    Restores (shadowing ps walk) := by
  intro b
  rw [shadowing_run, h]
  exact b.extend_shadow ps

theorem restores_substituteParameters (e : Expr) : Restores (substituteParameters.visit e) := by
  induction e using Expr.childInduction with
  | h e ih =>
    have hwalk : Restores (substituteParameters.walk e) := restores_walk (fun _ _ => rfl) ih
    rw [Editor.visit_eq]
    cases e with
    | parameter name type => exact fun _ => rfl
    | lambda ps body => exact hwalk.shadowing ps
    | _ => exact hwalk

/-! ### The pass and the function -/

theorem keeping_run_mapM {f : α → Keeping σ β} {g : α → β} {state : σ} {xs : List α}
    (h : ∀ x ∈ xs, (f x).run.run state = (.ok (g x), state)) :
    (xs.mapM f).run.run state = (.ok (xs.map g), state) := by
  induction xs with
  | nil => rfl
  | cons x xs ih =>
    rw [List.mapM_cons, keeping_run_bind (h x List.mem_cons_self),
      keeping_run_bind (ih fun y hy => h y (List.mem_cons_of_mem x hy))]
    rfl

theorem Bindings.shadow_eq_without (b : Bindings) (ps : List Parameter) :
    (b.shadow ps).2 = b.without (ps.map Parameter.name) := funext (b.shadow_left ps)

/-- The invariant of the induction is that a visit ends under the bindings it began with: so each child of a node is
visited under the same ones. -/
theorem run_substituteParameters (hw : e.NarrowScalars) (b : Bindings) :
    (substituteParameters.run e).run.run b = (.ok (e.instantiated b), b) := by
  induction e using Expr.childInduction generalizing b with
  | h e ih =>
    have hwalk : ∀ left : Bindings, (substituteParameters.rewalk e).run.run left =
        (.ok (e.withChildren (e.children.map (Expr.instantiated left))), left) := by
      intro left
      rw [Editor.rewalk_eq_mapM_of_narrow (fun _ _ => rfl) hw, map_eq_pure_bind,
        keeping_run_bind (keeping_run_mapM fun c hc => ih c hc (hw.child hc) left)]
      rfl
    cases e with
    | parameter name type =>
      rw [Expr.instantiated]
      rfl
    | lambda ps body =>
      -- The lambda is walked under the bindings that it leaves, which are those its body is read under.
      obtain ⟨answer, left, hanswer, hresult⟩ := keeping_bind_eq_ok (hwalk (b.shadow ps).2)
      have hleft : left = (b.shadow ps).2 := congrArg Prod.snd hresult
      have hvisit : (substituteParameters.visit (.lambda ps body)).run.run b = (.ok answer, b) := by
        rw [Editor.visit_eq]
        show (shadowing ps (substituteParameters.walk (.lambda ps body))).run.run b = (.ok answer, b)
        rw [shadowing_run, hanswer, hleft]
        exact congrArg (Except.ok answer, ·) (b.extend_shadow ps)
      have hnode : answer.getD (.lambda ps body) = _ := Except.ok.inj (congrArg Prod.fst hresult)
      rw [b.shadow_eq_without] at hnode
      rw [Editor.run, keeping_run_bind hvisit, Expr.instantiated]
      exact congrArg (fun x => (Except.ok x, b)) hnode
    | _ => rw [Editor.run_of_walk _ fun _ => rfl, hwalk, Expr.instantiated_node Kind.noConfusion Kind.noConfusion]

/-- On a tree whose scalars are all one field wide the pass succeeds and makes the tree that is read off with the bindings
as an argument. On any tree, whether the visit succeeds or fails, the bindings in force after it are those before it. -/
theorem substitution_is_scoped (b : Bindings) (e : Expr) :
    (e.NarrowScalars → ∃ answer, (e.substitute b).1 = .ok answer ∧ answer.getD e = e.instantiated b) ∧
      (e.substitute b).2 = b := by
  refine ⟨fun hw => ?_, restores_substituteParameters e b⟩
  obtain ⟨answer, after, hvisit, hrun⟩ := keeping_bind_eq_ok (run_substituteParameters hw b)
  exact ⟨answer, congrArg Prod.fst hvisit, Except.ok.inj (congrArg Prod.fst hrun)⟩

/-- The bindings of `x` to 10 and of `y` to 7. -/
def tenAndSeven : Bindings := .ofList [("x", .lit (.int 10)), ("y", .lit (.int 7))]

/-- A call with a single value, read from the rows that pass `filter`, and a lambda that takes `x` twice. -/
def repeatedParameter (filter first second : Expr) : Expr :=
  .call none "Apply"
    [.scalar { Stage.base "totals" .int64 with filter := some filter } .int64,
      .lambda [⟨"x", .int64⟩, ⟨"x", .int64⟩] (.binary .add first second .int64)] .int64

/-- A lambda over a value of rows of two fields, which is refused when its filter is replaced. -/
def wideValue : Expr :=
  let person : DataType := .record "Person" [⟨"Name", .string, false⟩, ⟨"Age", .int64, false⟩]
  .lambda [⟨"x", .int64⟩] (.scalar { Stage.base "people" person with filter := some (.parameter "y" .bool) } .int64)

/-- Outside the lambda `x` is replaced, inside it only `y` is; a visit that fails inside a lambda gives `x` back. -/
theorem substitution_is_scoped_repeatedParameter :
    let tree := repeatedParameter (.parameter "x" .bool) (.parameter "x" .int64) (.parameter "y" .int64)
    tree.NarrowScalars ∧
      tree.instantiated tenAndSeven =
        repeatedParameter (.lit (.int 10)) (.parameter "x" .int64) (.lit (.int 7)) ∧
      (tree.substitute tenAndSeven).2 = tenAndSeven ∧
      (wideValue.substitute tenAndSeven).1 = .error (.scalarWidth 2) ∧
      (wideValue.substitute tenAndSeven).2 = tenAndSeven := by
  intro tree
  have hw : tree.NarrowScalars := by
    simp [tree, repeatedParameter, Expr.narrowScalars_node, Expr.narrowScalars_scalar, Expr.children,
      Stage.exprs, Source.exprs, Stage.base, Grouping.exprs, Stage.width]
  obtain ⟨hsubstitute, hrestored⟩ := substitution_is_scoped tenAndSeven tree
  obtain ⟨answer, hanswer, htree⟩ := hsubstitute hw
  cases hanswer
  exact ⟨hw, htree.symm, hrestored, rfl, (substitution_is_scoped tenAndSeven wideValue).2⟩

end PigChain
