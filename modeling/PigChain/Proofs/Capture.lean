import PigChain.Proofs.Inlining

/-!
# Scopes under substitution

A reference to a parameter stands below the lambdas on the way down to it, and is free if none of them binds its name.
Substitution puts an expression in the place of every free reference to a bound name and renames no binder, so the
lambdas around that place come to stand around the references of the inserted expression as well. What is free
afterwards is said exactly, and it is what a substitution that respects scopes would leave free whenever no lambda
around an insertion binds a name that is free in what is inserted.
-/

namespace PigChain

variable {b : Bindings} {e : Expr} {x y : String}

/-! ### References and the lambdas around them -/

/-- The names that a node binds below it. -/
def Expr.binders : Expr → List String
  | .lambda ps _ => ps.map Parameter.name
  | _ => []

theorem Expr.binders_withChildren (e : Expr) (cs : List Expr) : (e.withChildren cs).binders = e.binders := by
  cases e <;> rfl

/-- There is a reference to `x` in an expression, below lambdas that bind `around`, the outermost first. -/
inductive Expr.Refers (x : String) : List String → Expr → Prop where
  | self {type : DataType} : Expr.Refers x [] (.parameter x type)
  | child {e c : Expr} {around : List String} (hc : c ∈ e.children) (h : Expr.Refers x around c) :
    Expr.Refers x (e.binders ++ around) e

/-- A reference to `x` that no lambda around it binds. -/
def Expr.Free (x : String) (e : Expr) : Prop := ∃ around, Expr.Refers x around e ∧ x ∉ around

theorem Expr.refers_parameter {name : String} {type : DataType} {around : List String} :
    Expr.Refers x around (.parameter name type) ↔ x = name ∧ around = [] := by
  constructor
  · intro h
    cases h with
    | self => exact ⟨rfl, rfl⟩
    | child hc => cases hc
  · rintro ⟨rfl, rfl⟩
    exact .self

theorem Expr.refers_iff (hk : ∀ name type, e ≠ .parameter name type) {around : List String} :
    Expr.Refers x around e ↔ ∃ c ∈ e.children, ∃ inner, Expr.Refers x inner c ∧ around = e.binders ++ inner := by
  constructor
  · intro h
    cases h with
    | self => exact absurd rfl (hk _ _)
    | child hc h => exact ⟨_, hc, _, h, rfl⟩
  · rintro ⟨c, hc, inner, h, rfl⟩
    exact .child hc h

/-! ### The bindings inside a lambda -/

namespace Bindings

theorem shadow_left (b : Bindings) (ps : List Parameter) (name : String) :
    (b.shadow ps).2 name = if name ∈ ps.map Parameter.name then none else b name := by
  induction ps generalizing b with
  | nil => rfl
  | cons p ps ih =>
    rw [shadow]
    cases hp : b p.name with
    | none =>
      by_cases hname : name = p.name
      · subst hname
        simp [ih, hp]
      · simp [ih, hname]
    | some z =>
      by_cases hname : name = p.name
      · subst hname
        simp [ih, erase]
      · simp [ih, hname, erase]

theorem extend_shadow_taken (b c : Bindings) (ps : List Parameter) (name : String) :
    c.extend (b.shadow ps).1 name = if name ∈ ps.map Parameter.name ∧ (b name).isSome then b name else c name := by
  induction ps generalizing b c with
  | nil => simp [shadow, extend]
  | cons p ps ih =>
    rw [shadow]
    cases hp : b p.name with
    | none =>
      by_cases hname : name = p.name
      · subst hname
        simp [ih, hp]
      · simp [ih, hname]
    | some z =>
      by_cases hname : name = p.name
      · subst hname
        simp [extend, ih, erase, insert, hp]
      · simp [extend, ih, hname, erase, insert]

theorem extend_shadow (b : Bindings) (ps : List Parameter) : (b.shadow ps).2.extend (b.shadow ps).1 = b := by
  funext name
  rw [extend_shadow_taken, shadow_left]
  split
  · rfl
  · next h =>
    split
    · next hname =>
      cases hb : b name with
      | none => rfl
      | some z => exact absurd ⟨hname, by rw [hb]; rfl⟩ h
    · rfl

end Bindings

/-! ### References after a substitution -/

/-- `e'` refers to what `e` refers to, except that the free references to a bound name gave way to the references of the
expression bound to it, below the same lambdas. -/
def Substituted (b : Bindings) (e e' : Expr) : Prop :=
  ∀ y around, Expr.Refers y around e' ↔
    Expr.Refers y around e ∧ (y ∈ around ∨ b y = none) ∨
      ∃ x a outer inner, Expr.Refers x outer e ∧ x ∉ outer ∧ b x = some a ∧ Expr.Refers y inner a ∧
        around = outer ++ inner

theorem substituted_parameter (b : Bindings) (name : String) (type : DataType) :
    Substituted b (.parameter name type) ((b name).getD (.parameter name type)) := by
  intro y around
  cases hname : b name with
  | none =>
    rw [Option.getD_none, Expr.refers_parameter]
    constructor
    · rintro ⟨rfl, rfl⟩
      exact .inl ⟨⟨rfl, rfl⟩, .inr hname⟩
    · rintro (⟨h, -⟩ | ⟨x, a, outer, inner, hx, -, ha, -⟩)
      · exact h
      · rw [(Expr.refers_parameter.mp hx).1, hname] at ha
        cases ha
  | some z =>
    rw [Option.getD_some]
    constructor
    · intro h
      exact .inr ⟨name, z, [], around, .self, List.not_mem_nil, hname, h, rfl⟩
    · rintro (⟨h, hfree⟩ | ⟨x, a, outer, inner, hx, -, ha, h, rfl⟩)
      · obtain ⟨rfl, rfl⟩ := Expr.refers_parameter.mp h
        rcases hfree with hmem | hnone
        · cases hmem
        · rw [hname] at hnone
          cases hnone
      · obtain ⟨rfl, rfl⟩ := Expr.refers_parameter.mp hx
        rw [hname] at ha
        cases ha
        exact h

/-- A node over children in which the bindings that its binders leave were put in. -/
theorem substituted_withChildren {left : Bindings}
    (hleft : ∀ name, left name = if name ∈ e.binders then none else b name) (hk : ∀ name type, e ≠ .parameter name type)
    {cs : List Expr} (hcs : List.Forall₂ (Substituted left) e.children cs) : Substituted b e (e.withChildren cs) := by
  have hk' : ∀ name type, e.withChildren cs ≠ .parameter name type := by
    cases e with
    | parameter name type => exact absurd rfl (hk name type)
    | _ => exact fun name type h => by cases h
  intro y around
  rw [Expr.refers_iff hk', Expr.children_withChildren hcs.length_eq.symm, Expr.binders_withChildren]
  constructor
  · rintro ⟨c', hc', under, h, rfl⟩
    obtain ⟨c, hc, hsub⟩ := exists_of_forall₂_right hcs hc'
    rcases (hsub y under).mp h with ⟨hy, hbound⟩ | ⟨x, a, outer, inner, hx, hfree, ha, hy, rfl⟩
    · refine .inl ⟨.child hc hy, ?_⟩
      by_cases hmem : y ∈ e.binders
      · exact .inl (List.mem_append_left under hmem)
      · rw [hleft, if_neg hmem] at hbound
        exact hbound.imp_left (List.mem_append_right e.binders)
    · -- the name that was replaced is no binder of the node, since those are not bound to anything below it
      rw [hleft] at ha
      by_cases hmem : x ∈ e.binders
      · rw [if_pos hmem] at ha
        cases ha
      · rw [if_neg hmem] at ha
        refine .inr ⟨x, a, e.binders ++ outer, inner, .child hc hx, ?_, ha, hy, (List.append_assoc ..).symm⟩
        exact fun h => (List.mem_append.mp h).elim hmem hfree
  · rintro (⟨hy, hbound⟩ | ⟨x, a, outer, inner, hx, hfree, ha, hy, rfl⟩)
    · obtain ⟨c, hc, under, hunder, rfl⟩ := (Expr.refers_iff hk).mp hy
      obtain ⟨c', hc', hsub⟩ := exists_of_forall₂_left hcs hc
      refine ⟨c', hc', under, (hsub y under).mpr (.inl ⟨hunder, ?_⟩), rfl⟩
      rw [hleft]
      by_cases hmem : y ∈ e.binders
      · exact .inr (if_pos hmem)
      · rw [if_neg hmem]
        exact hbound.imp_left fun h => (List.mem_append.mp h).resolve_left hmem
    · obtain ⟨c, hc, under, hunder, rfl⟩ := (Expr.refers_iff hk).mp hx
      obtain ⟨c', hc', hsub⟩ := exists_of_forall₂_left hcs hc
      have hmem : x ∉ e.binders := fun h => hfree (List.mem_append_left under h)
      have ha' : left x = some a := by rw [hleft, if_neg hmem, ha]
      have hfree' : x ∉ under := fun h => hfree (List.mem_append_right e.binders h)
      exact ⟨c', hc', under ++ inner, (hsub y _).mpr (.inr ⟨x, a, under, inner, hunder, hfree', ha', hy, rfl⟩),
        List.append_assoc ..⟩

/-- A run of the substitution ends under the bindings it began with. -/
theorem keeps_substituted (e : Expr) (b : Bindings) :
    Keeps (fun now => now = b) (substituteParameters.run e) (Substituted b e) := by
  induction e using Expr.childInduction generalizing b with
  | h e ih =>
    have hwalk : ∀ left : Bindings, ∀ cs after,
        (e.children.mapM substituteParameters.run).run.run left = (.ok cs, after) →
        after = left ∧ List.Forall₂ (Substituted left) e.children cs :=
      fun left cs after hrun => Keeps.mapM (fun c hc => ih c hc left) left cs after rfl hrun
    intro before e' after hbefore hrun
    subst hbefore
    cases e with
    | parameter name type =>
      cases hrun
      exact ⟨rfl, substituted_parameter before name type⟩
    | lambda ps body =>
      rw [Editor.run, Editor.visit_eq] at hrun
      obtain ⟨z, between, hz, hrun⟩ := keeping_bind_eq_ok hrun
      obtain ⟨inner, hinner, rfl⟩ := shadowing_eq_ok hz
      have hre : (substituteParameters.rewalk (.lambda ps body)).run.run (before.shadow ps).2 =
          (.ok (z.getD (.lambda ps body)), inner) := by
        rw [Editor.rewalk, keeping_run_bind hinner]
        rfl
      obtain ⟨cs, hcs, hresult⟩ := keeping_rewalk_eq_ok (fun _ _ => rfl) hre
      obtain ⟨rfl, hsub⟩ := hwalk _ _ _ hcs
      cases hrun
      rw [hresult]
      exact ⟨before.extend_shadow ps, substituted_withChildren (before.shadow_left ps) (fun _ _ h => by cases h) hsub⟩
    | _ =>
      rw [Editor.run_of_walk _ fun _ => rfl] at hrun
      obtain ⟨cs, hcs, rfl⟩ := keeping_rewalk_eq_ok (fun _ _ => rfl) hrun
      obtain ⟨rfl, hsub⟩ := hwalk _ _ _ hcs
      exact ⟨rfl, substituted_withChildren (fun _ => (if_neg List.not_mem_nil).symm) (fun _ _ h => by cases h) hsub⟩

theorem substituted_of_substitute {result : Option Expr} (h : (e.substitute b).1 = .ok result) :
    Substituted b e (result.getD e) := by
  obtain ⟨after, hrun⟩ := substitute_eq_ok h
  exact (keeps_substituted e b b _ after rfl hrun).2

/-! ### Free parameters -/

/-- What is free after a substitution: a parameter that was free and not bound, or one that is free in an inserted
expression and escapes the lambdas around the place of insertion. -/
theorem Substituted.free_iff {e' : Expr} (h : Substituted b e e') :
    Expr.Free y e' ↔ Expr.Free y e ∧ b y = none ∨
      ∃ x a outer, Expr.Refers x outer e ∧ x ∉ outer ∧ b x = some a ∧ Expr.Free y a ∧ y ∉ outer := by
  constructor
  · rintro ⟨around, href, hfree⟩
    rcases (h y around).mp href with ⟨hy, hbound⟩ | ⟨x, a, outer, inner, hx, hxfree, ha, hy, rfl⟩
    · exact .inl ⟨⟨around, hy, hfree⟩, hbound.resolve_left hfree⟩
    · exact .inr ⟨x, a, outer, hx, hxfree, ha, ⟨inner, hy, fun h => hfree (List.mem_append_right outer h)⟩,
        fun h => hfree (List.mem_append_left inner h)⟩
  · rintro (⟨⟨around, hy, hfree⟩, hnone⟩ | ⟨x, a, outer, hx, hxfree, ha, ⟨inner, hy, hfree⟩, houter⟩)
    · exact ⟨around, (h y around).mpr (.inl ⟨hy, .inr hnone⟩), hfree⟩
    · exact ⟨outer ++ inner, (h y _).mpr (.inr ⟨x, a, outer, inner, hx, hxfree, ha, hy, rfl⟩),
        fun h => (List.mem_append.mp h).elim houter hfree⟩

/-- No lambda around a free reference to a bound name binds a parameter that is free in what is bound to that name. -/
def Bindings.Apart (b : Bindings) (e : Expr) : Prop :=
  ∀ x a outer y, Expr.Refers x outer e → x ∉ outer → b x = some a → Expr.Free y a → y ∉ outer

/-- Substitution keeps the references that are bound where they stand, and puts the references of an inserted
expression below the lambdas around its place. Where none of these lambdas binds a free parameter of what is inserted,
what is free in the result is what was free and not replaced, with what is free in the expressions that were put in. -/
theorem substitute_keeps_scopes {result : Option Expr} (h : (e.substitute b).1 = .ok result) :
    (∀ y around, Expr.Refers y around (result.getD e) ↔
      Expr.Refers y around e ∧ (y ∈ around ∨ b y = none) ∨
        ∃ x a outer inner, Expr.Refers x outer e ∧ x ∉ outer ∧ b x = some a ∧ Expr.Refers y inner a ∧
          around = outer ++ inner) ∧
    (b.Apart e → ∀ y, Expr.Free y (result.getD e) ↔
      Expr.Free y e ∧ b y = none ∨ ∃ x a, Expr.Free x e ∧ b x = some a ∧ Expr.Free y a) := by
  have hsub := substituted_of_substitute h
  refine ⟨hsub, fun hapart y => ?_⟩
  rw [hsub.free_iff]
  refine or_congr_right ⟨?_, ?_⟩
  · rintro ⟨x, a, outer, hx, hfree, ha, hy, -⟩
    exact ⟨x, a, ⟨outer, hx, hfree⟩, ha, hy⟩
  · rintro ⟨x, a, ⟨outer, hx, hfree⟩, ha, hy⟩
    exact ⟨x, a, outer, hx, hfree, ha, hy, hapart x a outer y hx hfree ha hy⟩

/-- How many orders cost more than `x`, with `row` for the order. -/
def costlierOrders (row : String) : Expr :=
  let order : DataType := .record "Order" [⟨"Total", .int64, false⟩]
  .call none "Count"
    [.source "orders" order,
      .function1 row order (.binary .greaterThan (.get (.parameter row order) "Total") (.parameter "x" .int64) .bool)]
    .int64

/-- The age of the row `r` of an enclosing chain. -/
def ageOfRow : Expr := .get (.parameter "r" (.record "Person" [⟨"Age", .int64, false⟩])) "Age"

theorem refers_costlierOrders {row : String} {around : List String} :
    Expr.Refers y around (costlierOrders row) ↔ (y = row ∨ y = "x") ∧ around = [row] := by
  simp [costlierOrders, Expr.source, Expr.function1, Expr.get, Expr.refers_iff, Expr.children, Expr.binders,
    Expr.refers_parameter, ← or_and_right, and_assoc]

theorem refers_ageOfRow {around : List String} : Expr.Refers y around ageOfRow ↔ y = "r" ∧ around = [] := by
  simp [ageOfRow, Expr.get, Expr.refers_iff, Expr.children, Expr.binders, Expr.refers_parameter]

/-- The bindings of an invocation that puts the age of the row in for `x`. -/
def ageForX : Bindings := .ofList [("x", ageOfRow)]

theorem ageForX_eq_some {name : String} {a : Expr} : ageForX name = some a ↔ name = "x" ∧ ageOfRow = a := by
  simp [ageForX, Bindings.ofList, Bindings.extend, Bindings.insert, Bindings.empty]

/-- Inside orders named `s` the row `r` of the enclosing chain is still meant. -/
theorem substitute_keeps_scopes_costlierOrders :
    ∃ result, ((costlierOrders "s").substitute ageForX).1 = .ok result ∧ ageForX.Apart (costlierOrders "s") ∧
      ∀ y, Expr.Free y (result.getD (costlierOrders "s")) ↔
        Expr.Free y (costlierOrders "s") ∧ ageForX y = none ∨
          ∃ x a, Expr.Free x (costlierOrders "s") ∧ ageForX x = some a ∧ Expr.Free y a := by
  have hapart : ageForX.Apart (costlierOrders "s") := by
    intro x a outer y hx _ ha hy hmem
    obtain ⟨-, rfl⟩ := ageForX_eq_some.mp ha
    obtain ⟨around, hy, -⟩ := hy
    rw [(refers_costlierOrders.mp hx).2, (refers_ageOfRow.mp hy).1] at hmem
    exact absurd hmem (by decide)
  obtain ⟨result, hresult⟩ : ∃ result, ((costlierOrders "s").substitute ageForX).1 = .ok result := ⟨_, rfl⟩
  exact ⟨result, hresult, hapart, (substitute_keeps_scopes hresult).2 hapart⟩

/-- Inside orders that are named `r` too, the row of the enclosing chain is no longer free: its age has become that of
the order. -/
theorem substitute_captures_row :
    ∃ result, ((costlierOrders "r").substitute ageForX).1 = .ok (some result) ∧
      (Expr.invoke (.function1 "x" .int64 (costlierOrders "r")) [ageOfRow]).inlined = .ok result ∧
      Expr.Free "x" (costlierOrders "r") ∧ ageForX "x" = some ageOfRow ∧ Expr.Free "r" ageOfRow ∧
      ¬ Expr.Free "r" result := by
  obtain ⟨result, hresult⟩ : ∃ result, ((costlierOrders "r").substitute ageForX).1 = .ok (some result) := ⟨_, rfl⟩
  have hfree : ¬ Expr.Free "r" result := by
    rw [← Option.getD_some (a := result) (b := costlierOrders "r"), (substituted_of_substitute hresult).free_iff]
    rintro (⟨⟨around, hr, hmem⟩, -⟩ | ⟨x, a, outer, hx, -, -, -, hmem⟩)
    · exact hmem ((refers_costlierOrders.mp hr).2 ▸ List.mem_singleton_self "r")
    · exact hmem ((refers_costlierOrders.mp hx).2 ▸ List.mem_singleton_self "r")
  refine ⟨result, hresult, ?_, ?_, rfl, ?_, hfree⟩
  · cases hresult
    rfl
  · exact ⟨["r"], refers_costlierOrders.mpr ⟨.inr rfl, rfl⟩, by decide⟩
  · exact ⟨[], refers_ageOfRow.mpr ⟨rfl, rfl⟩, by decide⟩

end PigChain
