import PigChain.Proofs.Inlining

/-!
# Inlining first-order invocations

Inlining visits the body of an invoked lambda again once the arguments are put in, since an argument may come to stand
in target position. An expression that takes no arguments of its own makes no redex there. So if every argument of every
invocation is first-order, the body with the arguments put in has no redex left: the second visit leaves it alone, and
inlining ends with an expression that no visit changes.
-/

namespace PigChain

variable {e e' : Expr}

/-! ### Computations that fail -/

section

variable {σ α β : Type}

/-- A computation with a state fails from some state. -/
def Fails (u : Keeping σ α) (err : Error) : Prop := ∃ before after, u.run.run before = (.error err, after)

theorem Fails.bind {u : Keeping σ α} {f : α → Keeping σ β} {err : Error} (h : Fails (u >>= f) err) :
    Fails u err ∨ ∃ a before between, u.run.run before = (.ok a, between) ∧ Fails (f a) err := by
  obtain ⟨before, after, h⟩ := h
  rw [ExceptT.run_bind, StateT.run_bind] at h
  cases hu : u.run.run before with
  | mk result between =>
    rw [hu] at h
    cases result with
    | error err' =>
      cases h
      exact .inl ⟨before, _, hu⟩
    | ok a => exact .inr ⟨a, before, between, hu, between, after, h⟩

theorem Fails.bind_left {u : Keeping σ α} {err : Error} (h : Fails u err) (f : α → Keeping σ β) : Fails (u >>= f) err := by
  obtain ⟨before, after, h⟩ := h
  refine ⟨before, after, ?_⟩
  rw [ExceptT.run_bind, StateT.run_bind, h]
  rfl

theorem not_fails_pure {a : α} {err : Error} : ¬Fails (pure a : Keeping σ α) err := by
  rintro ⟨before, after, h⟩
  cases h

theorem Fails.mapM {f : α → Keeping σ β} {xs : List α} {err : Error} (h : Fails (xs.mapM f) err) :
    ∃ x ∈ xs, Fails (f x) err := by
  induction xs with
  | nil => exact absurd h not_fails_pure
  | cons x xs ih =>
    rw [List.mapM_cons] at h
    rcases h.bind with hx | ⟨y, -, -, -, h⟩
    · exact ⟨x, List.mem_cons_self, hx⟩
    · rcases h.bind with hxs | ⟨ys, -, -, -, h⟩
      · obtain ⟨z, hz, hfails⟩ := ih hxs
        exact ⟨z, List.mem_cons_of_mem x hz, hfails⟩
      · exact absurd h not_fails_pure

theorem Fails.map_mapM {γ : Type} {f : α → Keeping σ β} {k : List β → γ} {xs : List α} {err : Error}
    (h : Fails (k <$> xs.mapM f) err) : ∃ x ∈ xs, Fails (f x) err := by
  rw [map_eq_pure_bind] at h
  rcases h.bind with hxs | ⟨ys, -, -, -, h⟩
  · exact hxs.mapM
  · exact absurd h not_fails_pure

/-- As for a walk without a state. -/
theorem keeping_rewalk_fails {r : Editor (Keeping σ)} {e : Expr} {err : Error} (hr : r.WalksStages)
    (h : Fails (r.rewalk e) err) : (∃ c ∈ e.children, Fails (r.run c) err) ∨
      ∃ s t, e = .scalar s t ∧ s.width ≠ 1 ∧ err = .scalarWidth s.width := by
  by_cases hk : e.kind = .scalar
  · cases e with
    | scalar s t =>
      rw [Editor.rewalk, Editor.walk] at h
      rcases h.bind with h | ⟨x, -, -, -, h⟩
      · rcases h.bind with hv | ⟨s', before, between, hv, h⟩
        · have hstage : Fails (r.runStage s) err := hv.bind_left _
          rw [Editor.runStage_eq_mapM hr] at hstage
          exact .inl hstage.map_mapM
        · have hwidth : (s'.getD s).width = s.width := by
            have hstage : (r.runStage s).run.run before = (.ok (s'.getD s), between) := by
              rw [Editor.runStage, keeping_run_bind hv]
              rfl
            rw [Editor.runStage_eq_mapM hr, map_eq_pure_bind] at hstage
            obtain ⟨cs, last, hcs, hstage⟩ := keeping_bind_eq_ok hstage
            have hrefill : s.refill cs = s'.getD s := Except.ok.inj (congrArg Prod.fst hstage)
            have hlength := (Keeps.mapM (S := fun _ => True) (R := fun _ _ => True)
              (fun x _ _ _ _ _ _ => ⟨trivial, trivial⟩) before cs last trivial hcs).2.length_eq
            rw [← hrefill]
            exact s.width_refill hlength.symm
          cases s' with
          | none => exact absurd h not_fails_pure
          | some s' =>
            rw [Option.getD_some] at hwidth
            unfold replaceScalar at h
            dsimp only at h
            split at h
            · exact absurd h not_fails_pure
            · next hne =>
              obtain ⟨before, after, h⟩ := h
              cases h
              exact .inr ⟨s, t, rfl, hwidth ▸ hne, by rw [hwidth]⟩
      · exact absurd h not_fails_pure
    | _ => cases hk
  · rw [Editor.rewalk_eq_mapM hr hk] at h
    exact .inl h.map_mapM

end

theorem Fails.shadowing {α : Type} {ps : List Parameter} {walk : Keeping Bindings α} {err : Error}
    (h : Fails (shadowing ps walk) err) : Fails walk err := by
  obtain ⟨before, after, h⟩ := h
  rw [shadowing_run, Prod.mk.injEq] at h
  exact ⟨_, _, Prod.ext h.1 rfl⟩

/-- A scalar over a stage that is not one field wide, and the error that names the width. -/
def Expr.IllFormedScalar (e : Expr) (err : Error) : Prop :=
  ∃ s type, Expr.Occurs (.scalar s type) e ∧ s.width ≠ 1 ∧ err = .scalarWidth s.width

theorem Expr.IllFormedScalar.child {c : Expr} {err : Error} (hc : c ∈ e.children) (h : c.IllFormedScalar err) :
    e.IllFormedScalar err := by
  obtain ⟨s, type, hs, hreason⟩ := h
  exact ⟨s, type, .child hc hs, hreason⟩

/-- A run of the substitution fails at a scalar only. -/
theorem illFormedScalar_of_fails {err : Error} (h : Fails (substituteParameters.run e) err) : e.IllFormedScalar err := by
  induction e using Expr.childInduction with
  | h e ih =>
    have hwalk : Fails (substituteParameters.rewalk e) err → e.IllFormedScalar err := by
      intro h
      rcases keeping_rewalk_fails (fun _ _ => rfl) h with ⟨c, hc, h⟩ | ⟨s, t, rfl, hw, herr⟩
      · exact (ih c hc h).child hc
      · exact ⟨s, t, .self, hw, herr⟩
    cases e with
    | parameter name type =>
      obtain ⟨before, after, h⟩ := h
      cases h
    | lambda ps body =>
      rw [Editor.run, Editor.visit_eq] at h
      rcases h.bind with h | ⟨x, -, -, -, h⟩
      · exact hwalk ((Fails.shadowing h).bind_left _)
      · exact absurd h not_fails_pure
    | _ =>
      rw [Editor.run_of_walk _ fun _ => rfl] at h
      exact hwalk h

theorem substitute_eq_error {b : Bindings} {err : Error} (h : (e.substitute b).1 = .error err) :
    e.IllFormedScalar err := by
  have hvisit : Fails (substituteParameters.visit e) err := ⟨b, (e.substitute b).2, Prod.ext h rfl⟩
  exact illFormedScalar_of_fails (hvisit.bind_left _)

/-! ### Redexes and the lambdas that an expression stands for -/

/-- An invocation whose target is a lambda. -/
def Expr.isRedex : Expr → Bool
  | .invocation (.lambda _ _) _ _ => true
  | _ => false

/-- There is no invoked lambda in an expression. -/
def Expr.Normal (e : Expr) : Prop := e.Throughout fun y => y.isRedex = false

/-- The numbers of parameters that an expression takes, one invocation after another: those of the lambdas around a
body, without the first for each invocation around them. -/
def Expr.arities : Expr → List Nat
  | .lambda ps body => ps.length :: body.arities
  | .invocation target _ _ => target.arities.tail
  | _ => []

/-- An expression that is no lambda and that no invocation makes one of: the target of an invocation is a lambda with such
a body, or neither a lambda nor an invocation. -/
def Expr.isFirstOrder : Expr → Bool
  | .lambda _ _ => false
  | .invocation (.lambda _ body) _ _ => body.isFirstOrder
  | .invocation (.invocation _ _ _) _ _ => false
  | _ => true

/-- A node that is no invocation, or one of first-order arguments. -/
def Expr.takesFirstOrder : Expr → Bool
  | .invocation _ args _ => args.all Expr.isFirstOrder
  | _ => true

/-- Every argument of every invocation is first-order. -/
def Expr.FirstOrderArguments (e : Expr) : Prop := e.Throughout fun y => y.takesFirstOrder = true

theorem Expr.FirstOrderArguments.child {c : Expr} (h : e.FirstOrderArguments) (hc : c ∈ e.children) :
    c.FirstOrderArguments := Expr.Throughout.child h hc

theorem Expr.arities_of_isFirstOrder (h : e.isFirstOrder = true) : e.arities = [] := by
  fun_induction Expr.isFirstOrder e with
  | case1 => cases h
  | case2 ps body args type ih => exact ih h
  | case3 => cases h
  | case4 e hlambda hredex hcurried =>
    cases e with
    | lambda ps body => exact absurd rfl (hlambda ps body)
    | invocation target args type =>
      cases target with
      | lambda ps body => exact absurd rfl (hredex ps body args type)
      | invocation f as t => exact absurd rfl (hcurried f as t args type)
      | _ => rfl
    | _ => rfl

theorem Expr.Normal.of_children (h : e.isRedex = false) (hc : ∀ c ∈ e.children, c.Normal) : e.Normal :=
  Expr.throughout_iff.mpr ⟨h, hc⟩

theorem Expr.Normal.child {c : Expr} (h : e.Normal) (hc : c ∈ e.children) : c.Normal := Expr.Throughout.child h hc

theorem Expr.Normal.target_ne_lambda {target : Expr} {args : List Expr} {type : DataType}
    (h : (Expr.invocation target args type).Normal) : target.kind ≠ .lambda := by
  cases target with
  | lambda ps body => exact absurd (h _ .self) Bool.noConfusion
  | _ => exact Kind.noConfusion

/-- An expression without redexes takes arguments only if it is a lambda. -/
theorem Expr.Normal.arities_eq_nil (h : e.Normal) (hk : e.kind ≠ .lambda) : e.arities = [] := by
  induction e using Expr.childInduction with
  | h e ih =>
    cases e with
    | lambda ps body => exact absurd rfl hk
    | invocation target args type =>
      rw [Expr.arities, ih target List.mem_cons_self (h.child List.mem_cons_self) h.target_ne_lambda]
      rfl
    | _ => rfl

theorem Expr.isRedex_invocation {target : Expr} (h : target.arities = []) (args : List Expr) (type : DataType) :
    (Expr.invocation target args type).isRedex = false := by
  cases target with
  | lambda ps body => cases h
  | _ => rfl

theorem Expr.isRedex_eq_false (h : ∀ ps body args type, e = .invocation (.lambda ps body) args type → False) :
    e.isRedex = false := by
  unfold Expr.isRedex
  split
  · exact absurd rfl (h _ _ _ _)
  · rfl

theorem Expr.arities_withChildren {cs : List Expr}
    (h : List.Forall₂ (fun c c' : Expr => c'.arities = c.arities) e.children cs) :
    (e.withChildren cs).arities = e.arities := by
  cases e with
  | lambda ps body =>
    cases h with
    | cons hbody hnil => exact congrArg (List.cons ps.length) hbody
  | invocation target args type =>
    cases h with
    | cons htarget hargs => exact congrArg List.tail htarget
  | _ => rfl

/-! ### Substitution makes no redex -/

/-- Expressions without redexes that take no arguments leave an expression without redexes so, and its arities alike. -/
theorem Expr.Normal.substitute {b : Bindings} (h : e.Normal) (hb : b.All fun x => x.Normal ∧ x.arities = [])
    {x : Option Expr} (hx : (e.substitute b).1 = .ok x) : (x.getD e).Normal ∧ (x.getD e).arities = e.arities := by
  obtain ⟨after, hrun⟩ := substitute_eq_ok hx
  refine (keeps_substituteParameters (R := fun y y' => y.Normal → y'.Normal ∧ y'.arities = y.arities)
    ?put ?node e b _ after hb hrun).2 h
  case put => exact fun name type y hy _ => hy
  case node =>
    intro y cs hcs hy
    have hboth : List.Forall₂ (fun c c' : Expr => c'.Normal ∧ c'.arities = c.arities) y.children cs :=
      ((List.forall₂_and_left _ _).mpr ⟨fun c hc => hy.child hc, hcs⟩).imp fun c c' hc => hc.2 hc.1
    refine ⟨.of_children ?_ fun c' hc' => ?_, arities_withChildren (hboth.imp fun _ _ hc => hc.2)⟩
    · cases y with
      | invocation target args type =>
        cases hboth with
        | cons htarget hargs =>
          have hnil := (hy.child List.mem_cons_self).arities_eq_nil hy.target_ne_lambda
          exact isRedex_invocation (htarget.2.trans hnil) _ _
      | _ => rfl
    · rw [Expr.children_withChildren hboth.length_eq.symm] at hc'
      obtain ⟨c, -, hnormal, -⟩ := exists_of_forall₂_right hboth hc'
      exact hnormal

/-! ### Inlining that visits no result again -/

/-- An expression without redexes is left alone, whatever is done with results. -/
theorem Expr.Normal.visit_eq_none (h : e.Normal) (again : Expr → Except Error Expr) :
    (inlineWith again).visit e = .ok none := by
  induction e using Expr.childInduction with
  | h e ih =>
    have hchildren : ∀ c ∈ e.children, (inlineWith again).Leaves (fun _ => .ok ⟨⟩) c := fun c hc => ih c hc (h.child hc)
    have hwalk : (inlineWith again).walk e = .ok none := by
      rw [Editor.walk_leaves (fun _ _ => rfl) hchildren]
      generalize e.children = cs
      induction cs with
      | nil => rfl
      | cons c cs ihcs => exact ihcs
    have hself : e.isRedex = false := h e .self
    rw [Editor.visit_eq, hwalk]
    show (match e with
      | .invocation (.lambda ps body) args _ => _
      | _ => _) = _
    split
    · cases hself
    · rfl

theorem Expr.Normal.run_eq_self (h : e.Normal) (again : Expr → Except Error Expr) : (inlineWith again).run e = .ok e := by
  rw [Editor.run, h.visit_eq_none]
  rfl

/-- The children of a node beside what inlining made of them. -/
abbrev Expr.ChildrenInlined (e : Expr) (cs : List Expr) : Prop :=
  List.Forall₂ (fun c c' : Expr => c'.Normal ∧ c'.arities = c.arities) e.children cs

/-- A node that is a redex once its children are inlined is the invocation of an expression that stands for a lambda. -/
theorem Expr.ChildrenInlined.redex {cs args : List Expr} {ps : List Parameter} {body : Expr} {type : DataType}
    (h : e.FirstOrderArguments) (hcs : e.ChildrenInlined cs)
    (he : e.withChildren cs = .invocation (.lambda ps body) args type) :
    ∃ target args₀, e = .invocation target args₀ type ∧ target.arities = ps.length :: body.arities ∧
      args₀.length = args.length ∧ body.Normal ∧
      (Bindings.ofList ((ps.map Parameter.name).zip args)).All fun x => x.Normal ∧ x.arities = [] := by
  cases e with
  | invocation target args₀ type₀ =>
    cases hcs with
    | cons htarget hargs =>
      cases he
      refine ⟨target, args₀, rfl, htarget.2.symm, hargs.length_eq, htarget.1.child List.mem_cons_self, ?_⟩
      refine Bindings.All.ofList fun q hq => ?_
      obtain ⟨a, ha, hnormal, harities⟩ := exists_of_forall₂_right hargs (List.of_mem_zip hq).2
      exact ⟨hnormal, harities.trans (arities_of_isFirstOrder (List.all_eq_true.mp (h _ .self) a ha))⟩
  | _ => cases he

/-- With first-order arguments the results have no redexes, and take the arguments that were taken before. -/
theorem inlineOnce_normal (h : e.FirstOrderArguments) (hrun : (inlineWith .ok).run e = .ok e') :
    e'.Normal ∧ e'.arities = e.arities := by
  induction e using Expr.childInduction generalizing e' with
  | h e ih =>
    rw [inlineWith_run_eq, except_do_eq_ok] at hrun
    obtain ⟨x, hx, hnode⟩ := hrun
    obtain ⟨cs, hcs, rfl⟩ := rewalk_eq_withChildren (fun _ _ => rfl) hx
    have hinlined : e.ChildrenInlined cs :=
      ((List.forall₂_and_left _ _).mpr ⟨fun c hc => hc, hcs⟩).imp fun c c' hc => ih c hc.1 (h.child hc.1) hc.2
    have harities : (e.withChildren cs).arities = e.arities :=
      Expr.arities_withChildren (hinlined.imp fun _ _ hc => hc.2)
    have hchildren : ∀ c ∈ (e.withChildren cs).children, c.Normal := by
      rw [Expr.children_withChildren hinlined.length_eq.symm]
      intro c' hc'
      obtain ⟨c, -, hnormal, -⟩ := exists_of_forall₂_right hinlined hc'
      exact hnormal
    rw [← harities]
    unfold inlineNode at hnode
    split at hnode
    · next ps body args type heq =>
      obtain ⟨-, -, -, -, -, hbody, hbound⟩ := hinlined.redex h heq
      split at hnode
      · cases hnode
      · obtain ⟨x, hx, hnode⟩ := except_do_eq_ok.mp hnode
        cases hnode
        rw [heq]
        exact hbody.substitute hbound hx
    · next hne =>
      cases hnode
      exact ⟨.of_children (Expr.isRedex_eq_false hne) hchildren, rfl⟩

theorem childrenInlined_of_rewalk {x : Expr} (h : e.FirstOrderArguments) (hx : (inlineWith .ok).rewalk e = .ok x) :
    ∃ cs, List.Forall₂ (fun c c' => (inlineWith .ok).run c = .ok c') e.children cs ∧ x = e.withChildren cs ∧
      e.ChildrenInlined cs := by
  obtain ⟨cs, hcs, hnode⟩ := rewalk_eq_withChildren (fun _ _ => rfl) hx
  have hinlined := ((List.forall₂_and_left _ _).mpr ⟨fun c hc => hc, hcs⟩).imp fun c c' hc =>
    inlineOnce_normal (h.child hc.1) hc.2
  exact ⟨cs, hcs, hnode, hinlined⟩

/-- Results without redexes need no second visit, so that it does not matter what the second visit does with others. -/
theorem inlineWith_visit_eq (h : e.FirstOrderArguments) {again : Expr → Except Error Expr}
    (hagain : ∀ x : Expr, x.Normal → again x = .ok x) : (inlineWith again).visit e = (inlineWith .ok).visit e := by
  induction e using Expr.childInduction with
  | h e ih =>
    have hwalk : (inlineWith again).walk e = (inlineWith .ok).walk e :=
      Editor.walk_congr (fun _ _ => rfl) (fun _ _ => rfl) fun c hc => ih c hc (h.child hc)
    rw [Editor.visit_eq, Editor.visit_eq, hwalk]
    cases hw : (inlineWith .ok).walk e with
    | error err => rfl
    | ok w =>
      have hrewalk : (inlineWith .ok).rewalk e = .ok (w.getD e) := by
        rw [Editor.rewalk, hw]
        rfl
      obtain ⟨cs, -, hnode, hinlined⟩ := childrenInlined_of_rewalk h hrewalk
      show (match w.getD e with
        | .invocation (.lambda ps body) args _ => _
        | _ => _) = (match w.getD e with
        | .invocation (.lambda ps body) args _ => _
        | _ => _)
      rw [hnode]
      split
      · next ps body args type heq =>
        obtain ⟨-, -, -, -, -, hbody, hbound⟩ := hinlined.redex h heq
        split
        · rfl
        · cases hx : (body.substitute (.ofList ((ps.map Parameter.name).zip args))).1 with
          | error err => rfl
          | ok x =>
            have hsame := hagain _ (hbody.substitute hbound hx).1
            show (again (x.getD body) >>= fun result => pure (some result)) = _
            rw [hsame]
            rfl
      · rfl

theorem inlineInvocations_visit_eq (h : e.FirstOrderArguments) (fuel : Nat) :
    (inlineInvocations (fuel + 1)).visit e = (inlineWith .ok).visit e := by
  refine inlineWith_visit_eq h fun x hx => ?_
  cases fuel with
  | zero => exact hx.run_eq_self _
  | succ fuel => exact hx.run_eq_self _

theorem inlined_eq_inlineOnce (h : e.FirstOrderArguments) : e.inlined = (inlineWith .ok).run e := by
  rw [Expr.inlined, Editor.run, Editor.run]
  exact congrArg (· >>= fun e' => pure (e'.getD e)) (inlineInvocations_visit_eq h 99999)

/-! ### Failures -/

/-- An invocation whose target stands for a lambda of another number of parameters than it is given arguments. -/
def Expr.Mismatched (e : Expr) (err : Error) : Prop :=
  ∃ target args type count others, Expr.Occurs (.invocation target args type) e ∧
    target.arities = count :: others ∧ count ≠ args.length ∧ err = .argument (.lambdaArity count args.length)

theorem Expr.Mismatched.child {c : Expr} {err : Error} (hc : c ∈ e.children) (h : c.Mismatched err) :
    e.Mismatched err := by
  obtain ⟨target, args, type, count, others, hocc, hreason⟩ := h
  exact ⟨target, args, type, count, others, .child hc hocc, hreason⟩

/-- Inlining makes no scalar, and changes the width of none. -/
theorem scalar_of_inlined {s : Stage} {t : DataType} (h : (inlineWith .ok).run e = .ok e')
    (hs : Expr.Occurs (.scalar s t) e') : ∃ s' t', Expr.Occurs (.scalar s' t') e ∧ s'.width = s.width := by
  by_contra hnone
  have hkept : e'.Throughout fun y => ∀ s' t', y = .scalar s' t' → s'.width ≠ s.width := by
    refine (inherited_throughout fun y cs hl hy => ?_).inlineWith (fun x x' hx hP => Except.ok.inj hx ▸ hP) h ?_
    · cases y with
      | scalar u t =>
        rintro s' t' ⟨⟩
        rw [u.width_refill hl]
        exact hy u t rfl
      | _ => exact fun s' t' he => nomatch he
    · rintro y hy s' t' rfl hwidth
      exact hnone ⟨s', t', hy, hwidth⟩
  exact hkept _ hs s t rfl rfl

theorem inlineOnce_fails {err : Error} (h : e.FirstOrderArguments) (hrun : (inlineWith .ok).run e = .error err) :
    e.Mismatched err ∨ e.IllFormedScalar err := by
  induction e using Expr.childInduction with
  | h e ih =>
    rw [inlineWith_run_eq, except_do_eq_error] at hrun
    rcases hrun with hwalk | ⟨x, hx, hnode⟩
    · rcases rewalk_fails (fun _ _ => rfl) hwalk with ⟨c, hc, hrun⟩ | ⟨s, t, rfl, hwidth, rfl⟩
      · exact (ih c hc (h.child hc) hrun).imp (.child hc) (.child hc)
      · exact .inr ⟨s, t, .self, hwidth, rfl⟩
    · obtain ⟨cs, hcs, rfl, hinlined⟩ := childrenInlined_of_rewalk h hx
      unfold inlineNode at hnode
      split at hnode
      · next ps body args type heq =>
        obtain ⟨target, args₀, rfl, harities, hlength, -, -⟩ := hinlined.redex h heq
        split at hnode
        · next hne =>
          cases hnode
          exact .inl ⟨target, args₀, type, ps.length, body.arities, .self, harities, hlength ▸ hne, by rw [hlength]⟩
        · rcases except_do_eq_error.mp hnode with hbody | ⟨x, -, ⟨⟩⟩
          obtain ⟨s, t, hocc, hwidth, rfl⟩ := substitute_eq_error hbody
          cases hcs with
          | cons htarget hargs =>
            cases heq
            obtain ⟨s', t', hocc', hsame⟩ := scalar_of_inlined htarget (.child List.mem_cons_self hocc)
            exact .inr ⟨s', t', .child List.mem_cons_self hocc', hsame ▸ hwidth, by rw [hsame]⟩
      · cases hnode

/-- Inlining invocations whose arguments are first-order visits no result twice: what it does with results that it visits
again, however often that is allowed, changes nothing. A result has no redex and is left alone by another visit. It fails
only at an invocation with another number of arguments than parameters, or at a scalar that is not one field wide. -/
theorem inlined_of_firstOrder_arguments (h : e.FirstOrderArguments) :
    (∀ fuel, (inlineInvocations (fuel + 1)).visit e = e.inlined?) ∧
    (∀ e', e.inlined = .ok e' → e'.Normal ∧ e'.inlined? = .ok none) ∧
    (∀ err, e.inlined = .error err → e.Mismatched err ∨ e.IllFormedScalar err) := by
  refine ⟨fun fuel => ?_, fun e' he => ?_, fun err he => ?_⟩
  · exact (inlineInvocations_visit_eq h fuel).trans (inlineInvocations_visit_eq h 99999).symm
  · rw [inlined_eq_inlineOnce h] at he
    have hnormal := (inlineOnce_normal h he).1
    exact ⟨hnormal, hnormal.visit_eq_none _⟩
  · rw [inlined_eq_inlineOnce h] at he
    exact inlineOnce_fails h he

/-- The sum of a number and a count, by a function that takes the number and gives a function of the count. -/
def curriedSum : Expr :=
  .invoke (.invoke (.function1 "x" .int64 (.function1 "y" .int64
      (.combine .add (.parameter "x" .int64) (.parameter "y" .int64)))) [.lit (.int 1)])
    [.call none "Count" [.source "orders" (.record "Order" [⟨"Total", .int64, false⟩])] .int64]

theorem firstOrderArguments_curriedSum : curriedSum.FirstOrderArguments := by
  repeat' first
    | exact List.forall_mem_nil _
    | refine List.forall_mem_cons.mpr ⟨?_, ?_⟩
    | refine Expr.throughout_iff.mpr ⟨rfl, ?_⟩

theorem inlined_of_firstOrder_arguments_curriedSum :
    curriedSum.FirstOrderArguments ∧ ∃ e', curriedSum.inlined = .ok e' ∧ e'.Normal ∧ e'.inlined? = .ok none := by
  obtain ⟨e', he'⟩ : ∃ e', curriedSum.inlined = .ok e' := ⟨_, rfl⟩
  have hnormal := (inlined_of_firstOrder_arguments firstOrderArguments_curriedSum).2.1 e' he'
  exact ⟨firstOrderArguments_curriedSum, e', he', hnormal⟩

end PigChain
