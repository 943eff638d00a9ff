import PigChain.Pass.Parameters
import PigChain.Proofs.ColumnNames

/-!
# Nodes of an inlined expression

Inlining makes no nodes: every node of the result is one that was there, over other children. So what holds of a node
whatever its children are holds of the result if it held before. It is stated for any property that goes by nodes, and
used for the nodes that the value of an expression can come from, since the others are not looked at when a type is
found, and for all nodes of an expression.
-/

namespace PigChain

variable {N P : Expr → Prop} {e e' x y : Expr}

/-! ### Properties that go by nodes -/

/-- A property that a node keeps over children that keep it, and that an invoked lambda hands on to its body and to
its arguments. -/
structure Inherited (P : Expr → Prop) : Prop where
  withChildren : ∀ {e : Expr} {cs : List Expr}, P e → List.Forall₂ (fun c c' => P c → P c') e.children cs →
    P (e.withChildren cs)
  invoked : ∀ {ps : List Parameter} {body : Expr} {args : List Expr} {type : DataType},
    P (.invocation (.lambda ps body) args type) → P body ∧ ∀ a ∈ args, P a

/-! ### Where a value comes from -/

/-- A node whose value is that of a child, or a part of it. -/
def Expr.passesOn : Expr → Bool
  | .member .. => true
  | .lambda .. => true
  | .invocation .. => true
  | _ => false

theorem Expr.passesOn_withChildren (e : Expr) (cs : List Expr) : (e.withChildren cs).passesOn = e.passesOn := by
  cases e <;> rfl

/-- The value of an expression may come from `y`. -/
inductive Expr.Feeds (y : Expr) : Expr → Prop where
  | self : Expr.Feeds y y
  | child {e c : Expr} (he : e.passesOn = true) (hc : c ∈ e.children) (h : Expr.Feeds y c) : Expr.Feeds y e

/-- All that the value of an expression may come from is in `N`. -/
def Expr.FedBy (N : Expr → Prop) (e : Expr) : Prop := ∀ y, Expr.Feeds y e → N y

theorem Expr.FedBy.child {c : Expr} (h : e.FedBy N) (he : e.passesOn = true) (hc : c ∈ e.children) : c.FedBy N :=
  fun y hy => h y (.child he hc hy)

theorem Expr.FedBy.of_children (he : N e) (h : e.passesOn = true → ∀ c ∈ e.children, c.FedBy N) : e.FedBy N := by
  intro y hy
  cases hy with
  | self => exact he
  | child hp hc hy => exact h hp _ hc y hy

/-- A node is fed as before if its new children are. -/
theorem Expr.FedBy.withChildren (hN : ∀ e cs, N e → N (e.withChildren cs)) (he : e.FedBy N) {cs : List Expr}
    (hcs : List.Forall₂ (fun c c' => c.FedBy N → c'.FedBy N) e.children cs) : (e.withChildren cs).FedBy N := by
  refine .of_children (hN e cs (he e .self)) fun hp c' hc' => ?_
  rw [Expr.passesOn_withChildren] at hp
  rw [Expr.children_withChildren hcs.length_eq.symm] at hc'
  obtain ⟨c, hc, hfed⟩ := exists_of_forall₂_right hcs hc'
  exact hfed (he.child hp hc)

theorem inherited_fedBy (hN : ∀ e cs, N e → N (e.withChildren cs)) : Inherited (Expr.FedBy N) where
  withChildren he hcs := he.withChildren hN hcs
  invoked he := ⟨(he.child rfl List.mem_cons_self).child rfl List.mem_cons_self,
    fun _ ha => he.child rfl (List.mem_cons_of_mem _ ha)⟩

/-! ### All nodes -/

/-- Every node of an expression is in `N`. -/
def Expr.Throughout (N : Expr → Prop) (e : Expr) : Prop := ∀ y, Expr.Occurs y e → N y

theorem Expr.throughout_iff : e.Throughout N ↔ N e ∧ ∀ c ∈ e.children, c.Throughout N := by
  constructor
  · intro h
    exact ⟨h e .self, fun c hc y hy => h y (.child hc hy)⟩
  · rintro ⟨he, hchildren⟩ y hy
    cases hy with
    | self => exact he
    | child hc hy => exact hchildren _ hc y hy

theorem Expr.Throughout.child {c : Expr} (h : e.Throughout N) (hc : c ∈ e.children) : c.Throughout N :=
  (Expr.throughout_iff.mp h).2 c hc

/-- A property of nodes that does not depend on what the children are. -/
def NodeProperty (N : Expr → Prop) : Prop :=
  ∀ (e : Expr) (cs : List Expr), cs.length = e.children.length → N e → N (e.withChildren cs)

theorem Expr.Throughout.withChildren (hN : NodeProperty N) (he : N e) {cs : List Expr}
    (hl : cs.length = e.children.length) (hcs : ∀ c ∈ cs, c.Throughout N) : (e.withChildren cs).Throughout N := by
  rw [Expr.throughout_iff, Expr.children_withChildren hl]
  exact ⟨hN e cs hl he, hcs⟩

theorem inherited_throughout (hN : NodeProperty N) : Inherited (Expr.Throughout N) where
  withChildren {e cs} he hcs := by
    refine .withChildren hN (he e .self) hcs.length_eq.symm fun c' hc' => ?_
    obtain ⟨c, hc, hkept⟩ := exists_of_forall₂_right hcs hc'
    exact hkept (he.child hc)
  invoked he := ⟨(he.child List.mem_cons_self).child List.mem_cons_self, fun _ ha => he.child (List.mem_cons_of_mem _ ha)⟩

/-! ### Computations with a state -/

section

variable {σ α β : Type}

/-- What is true of the states in `S` and of the results of a computation that starts in one of them. -/
def Keeps (S : σ → Prop) (u : Keeping σ α) (P : α → Prop) : Prop :=
  ∀ before a after, S before → u.run.run before = (.ok a, after) → S after ∧ P a

theorem Keeps.mapM {S : σ → Prop} {f : α → Keeping σ β} {R : α → β → Prop} {xs : List α}
    (h : ∀ x ∈ xs, Keeps S (f x) (R x)) : Keeps S (xs.mapM f) (List.Forall₂ R xs) := by
  induction xs with
  | nil =>
    intro before ys after hbefore hrun
    cases hrun
    exact ⟨hbefore, .nil⟩
  | cons x xs ih =>
    intro before ys after hbefore hrun
    rw [List.mapM_cons] at hrun
    obtain ⟨y, between, hy, hrun⟩ := keeping_bind_eq_ok hrun
    obtain ⟨hbetween, hR⟩ := h x List.mem_cons_self before y between hbefore hy
    obtain ⟨rest, last, hrest, hrun⟩ := keeping_bind_eq_ok hrun
    obtain ⟨hlast, hRs⟩ := ih (fun z hz => h z (List.mem_cons_of_mem x hz)) between rest last hbetween hrest
    cases hrun
    exact ⟨hlast, .cons hR hRs⟩

/-- The walk of any node, also of a scalar, puts the edited children in. -/
theorem keeping_rewalk_eq_ok {r : Editor (Keeping σ)} (hr : r.WalksStages) {before after : σ}
    (h : (r.rewalk e).run.run before = (.ok e', after)) :
    ∃ cs, (e.children.mapM r.run).run.run before = (.ok cs, after) ∧ e' = e.withChildren cs := by
  by_cases hk : e.kind = .scalar
  · cases e with
    | scalar s t =>
      rw [Editor.rewalk, Editor.walk] at h
      obtain ⟨x, between, hx, h⟩ := keeping_bind_eq_ok h
      obtain ⟨s', last, hs', hx⟩ := keeping_bind_eq_ok hx
      have hstage : (r.runStage s).run.run before = (.ok (s'.getD s), last) := by
        rw [Editor.runStage, keeping_run_bind hs']
        rfl
      rw [Editor.runStage_eq_mapM hr, map_eq_pure_bind] at hstage
      obtain ⟨cs, final, hcs, hstage⟩ := keeping_bind_eq_ok hstage
      have hrefill : s.refill cs = s'.getD s := Except.ok.inj (congrArg Prod.fst hstage)
      have hfinal : final = last := congrArg Prod.snd hstage
      subst hfinal
      have hscalar : x.getD (.scalar s t) = .scalar (s'.getD s) t ∧ between = final := by
        cases s' with
        | none =>
          cases hx
          exact ⟨rfl, rfl⟩
        | some s' =>
          unfold replaceScalar at hx
          dsimp only at hx
          split at hx
          · cases hx
            exact ⟨rfl, rfl⟩
          · cases hx
      cases h
      rw [hscalar.1, hscalar.2, ← hrefill]
      exact ⟨cs, hcs, rfl⟩
    | _ => cases hk
  · rw [Editor.rewalk_eq_mapM hr hk, map_eq_pure_bind] at h
    obtain ⟨cs, between, hcs, h⟩ := keeping_bind_eq_ok h
    cases h
    exact ⟨cs, hcs, rfl⟩

end

/-! ### Substitution -/

/-- The expressions that are bound to names are in `P`. -/
def Bindings.All (P : Expr → Prop) (b : Bindings) : Prop := ∀ name x, b name = some x → P x

namespace Bindings.All

variable {b : Bindings}

theorem insert (hb : b.All P) (name : String) (hx : P x) : (b.insert name x).All P := by
  intro n z hz
  unfold Bindings.insert at hz
  split at hz
  · cases hz
    exact hx
  · exact hb n z hz

theorem erase (hb : b.All P) (name : String) : (b.erase name).All P := by
  intro n z hz
  unfold Bindings.erase at hz
  split at hz
  · cases hz
  · exact hb n z hz

theorem extend (hb : b.All P) {pairs : List (String × Expr)} (h : ∀ q ∈ pairs, P q.2) :
    (b.extend pairs).All P := by
  induction pairs generalizing b with
  | nil => exact hb
  | cons q pairs ih =>
    exact ih (hb.insert q.1 (h q List.mem_cons_self)) fun r hr => h r (List.mem_cons_of_mem q hr)

theorem shadow (hb : b.All P) (ps : List Parameter) :
    (∀ q ∈ (b.shadow ps).1, P q.2) ∧ (b.shadow ps).2.All P := by
  induction ps generalizing b with
  | nil => exact ⟨(fun q hq => nomatch hq), hb⟩
  | cons p ps ih =>
    rw [Bindings.shadow]
    cases hp : b p.name with
    | none => exact ih hb
    | some z =>
      obtain ⟨htaken, hleft⟩ := ih (hb.erase p.name)
      refine ⟨fun q hq => ?_, hleft⟩
      rcases List.mem_cons.mp hq with rfl | hq
      · exact hb p.name z hp
      · exact htaken q hq

theorem ofList {pairs : List (String × Expr)} (h : ∀ q ∈ pairs, P q.2) : (Bindings.ofList pairs).All P := by
  have hempty : Bindings.empty.All P := by
    intro name x hx
    cases hx
  exact hempty.extend h

end Bindings.All

/-- A lambda is walked under the bindings that are left, and the others are put back. -/
theorem shadowing_run {α : Type} (ps : List Parameter) (walk : Keeping Bindings α) (before : Bindings) :
    (shadowing ps walk).run.run before = ((walk.run.run (before.shadow ps).2).1,
      (walk.run.run (before.shadow ps).2).2.extend (before.shadow ps).1) := rfl

theorem shadowing_eq_ok {α : Type} {ps : List Parameter} {walk : Keeping Bindings α} {before after : Bindings} {a : α}
    (h : (shadowing ps walk).run.run before = (.ok a, after)) :
    ∃ inner, walk.run.run (before.shadow ps).2 = (.ok a, inner) ∧ after = inner.extend (before.shadow ps).1 := by
  rw [shadowing_run, Prod.mk.injEq] at h
  exact ⟨_, Prod.ext h.1 rfl, h.2.symm⟩

/-- What a substitution makes of an expression stands in a relation to it that holds between a parameter and what is put
in for it, and of every node if it holds of the children. -/
theorem keeps_substituteParameters {R : Expr → Expr → Prop} (hput : ∀ name type x, P x → R (.parameter name type) x)
    (hnode : ∀ (e : Expr) (cs : List Expr), List.Forall₂ R e.children cs → R e (e.withChildren cs)) (e : Expr) :
    Keeps (Bindings.All P) (substituteParameters.run e) (R e) := by
  induction e using Expr.childInduction with
  | h e ih =>
    have hwalk : Keeps (Bindings.All P) (substituteParameters.rewalk e) (R e) := by
      intro before e' after hbefore hrun
      obtain ⟨cs, hcs, rfl⟩ := keeping_rewalk_eq_ok (fun _ _ => rfl) hrun
      obtain ⟨hafter, hkeep⟩ := Keeps.mapM ih before cs after hbefore hcs
      exact ⟨hafter, hnode e cs hkeep⟩
    cases e with
    | parameter name type =>
      intro before e' after hbefore hrun
      cases hrun
      refine ⟨hbefore, ?_⟩
      cases hname : before name with
      | none => exact hnode (.parameter name type) [] .nil
      | some x => exact hput name type x (hbefore name x hname)
    | lambda ps body =>
      intro before e' after hbefore hrun
      obtain ⟨htaken, hleft⟩ := hbefore.shadow ps
      rw [Editor.run, Editor.visit_eq] at hrun
      obtain ⟨x, between, hx, hrun⟩ := keeping_bind_eq_ok hrun
      obtain ⟨inner, hinner, rfl⟩ := shadowing_eq_ok hx
      have hre : (substituteParameters.rewalk (.lambda ps body)).run.run (before.shadow ps).2 =
          (.ok (x.getD (.lambda ps body)), inner) := by
        rw [Editor.rewalk, keeping_run_bind hinner]
        rfl
      obtain ⟨hkept, hkeep⟩ := hwalk _ _ _ hleft hre
      cases hrun
      exact ⟨hkept.extend htaken, hkeep⟩
    | _ =>
      rw [Editor.run_of_walk _ fun _ => rfl]
      exact hwalk

/-- The run that a substitution is the result of. -/
theorem substitute_eq_ok {b : Bindings} {x : Option Expr} (h : (e.substitute b).1 = .ok x) :
    ∃ after, (substituteParameters.run e).run.run b = (.ok (x.getD e), after) := by
  cases hv : (substituteParameters.visit e).run.run b with
  | mk result after =>
    rw [Expr.substitute, hv] at h
    cases h
    refine ⟨after, ?_⟩
    rw [Editor.run, keeping_run_bind hv]
    rfl

/-- What comes out of a substitution is made of the nodes that went in and of what was bound. -/
theorem Inherited.substitute (hP : Inherited P) {b : Bindings} (hb : b.All P) {x : Option Expr}
    (h : (e.substitute b).1 = .ok x) (he : P e) : P (x.getD e) := by
  obtain ⟨after, hrun⟩ := substitute_eq_ok h
  have hkeeps := keeps_substituteParameters (R := fun y y' => P y → P y') (fun _ _ _ hx _ => hx)
    (fun _ _ hcs hy => hP.withChildren hy hcs) e
  exact (hkeeps b _ after hb hrun).2 he

/-! ### Inlining -/

/-- A node whose children are inlined, with an invoked lambda replaced. -/
def inlineNode (again : Expr → Except Error Expr) : Expr → Except Error Expr
  | .invocation (.lambda ps body) args _ =>
    if ps.length ≠ args.length then throw (.argument (.lambdaArity ps.length args.length))
    else do
      let body' ← (body.substitute (.ofList ((ps.map Parameter.name).zip args))).1
      again (body'.getD body)
  | e => pure e

theorem inlineWith_run_eq (again : Expr → Except Error Expr) (e : Expr) :
    (inlineWith again).run e = (inlineWith again).rewalk e >>= inlineNode again := by
  rw [Editor.run, Editor.rewalk, Editor.visit_eq]
  generalize (inlineWith again).walk e = walked
  cases walked with
  | error err => rfl
  | ok w =>
    show ((inlineWith again).expr e (.ok w) >>= fun e' => pure (e'.getD e)) = inlineNode again (w.getD e)
    simp only [inlineWith]
    show ((match w.getD e with
      | .invocation (.lambda ps body) args _ => _
      | _ => _) >>= _) = _
    unfold inlineNode
    split
    · split
      · rfl
      · simp only [bind_assoc, pure_bind, Option.getD_some, bind_pure]
    · rfl

/-- A node that is no invocation is left as it is if its children are. -/
theorem inlineWith_run_eq_self {again : Expr → Except Error Expr} (hi : e.kind ≠ .invocation) (hk : e.kind ≠ .scalar)
    (h : ∀ c ∈ e.children, (inlineWith again).run c = .ok c) : (inlineWith again).run e = .ok e := by
  rw [inlineWith_run_eq, rewalk_eq_self (fun _ _ => rfl) hk h]
  cases e with
  | invocation f args t => exact absurd rfl hi
  | _ => rfl

theorem Inherited.inlineNode (hP : Inherited P) {again : Expr → Except Error Expr}
    (hagain : ∀ x x', again x = .ok x' → P x → P x') (h : inlineNode again e = .ok e') (he : P e) : P e' := by
  unfold PigChain.inlineNode at h
  split at h
  · next ps body args type =>
    split at h
    · cases h
    · obtain ⟨body', hbody', h⟩ := except_do_eq_ok.mp h
      obtain ⟨hbody, hargs⟩ := hP.invoked he
      have hbound : (Bindings.ofList ((ps.map Parameter.name).zip args)).All P :=
        .ofList fun q hq => hargs q.2 (List.of_mem_zip hq).2
      exact hagain _ _ h (hP.substitute hbound hbody' hbody)
  · cases h
    exact he

theorem Inherited.inlineWith (hP : Inherited P) {again : Expr → Except Error Expr}
    (hagain : ∀ x x', again x = .ok x' → P x → P x') (h : (inlineWith again).run e = .ok e') (he : P e) : P e' := by
  induction e using Expr.childInduction generalizing e' with
  | h e ih =>
    rw [inlineWith_run_eq, except_do_eq_ok] at h
    obtain ⟨x, hx, h⟩ := h
    obtain ⟨cs, hcs, rfl⟩ := rewalk_eq_withChildren (fun _ _ => rfl) hx
    have hkept := ((List.forall₂_and_left _ _).mpr ⟨ih, hcs⟩).imp fun c c' hc => hc.1 hc.2
    exact hP.inlineNode hagain h (hP.withChildren he hkept)

/-- What goes by nodes is kept by inlining. -/
theorem Inherited.inlined (hP : Inherited P) (h : e.inlined = .ok e') (he : P e) : P e' := by
  have hfuel : ∀ fuel x x', (inlineInvocations fuel).run x = .ok x' → P x → P x' := by
    intro fuel
    induction fuel with
    | zero => exact fun x x' => hP.inlineWith fun _ _ hnever => nomatch hnever
    | succ fuel ih => exact fun x x' => hP.inlineWith ih
  exact hfuel inlineLimit e e' h he

/-- What feeds an inlined expression is like what fed it before. -/
theorem inlined_fedBy (hN : ∀ e cs, N e → N (e.withChildren cs)) (h : e.inlined = .ok e') (he : e.FedBy N) :
    e'.FedBy N := (inherited_fedBy hN).inlined h he

end PigChain
