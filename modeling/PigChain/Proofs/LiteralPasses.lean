import PigChain.Pass.Literals
import PigChain.Proofs.Outcome
import PigChain.Proofs.QuietWalk

/-!
# The passes over literals

Checking literals replaces nothing: an expression that passes the check comes out as it went in. Null comparisons
are replaced after the operands, so the result of a node is that of its walk, made a null test if it compares
with null.
-/

namespace PigChain

/-! ### Literals -/

theorem literalTypes_visit_eq_none {e : Expr} {a : Option Expr} (h : literalTypes.visit e = .ok a) : a = none := by
  induction e using Expr.childInduction generalizing a with
  | h e ih =>
    have hwalk : ∀ w, literalTypes.walk e = .ok w → w = none := by
      intro w hw
      have hleaves : ∀ x ∈ e.children, literalTypes.Leaves (fun x => literalTypes.visit x >>= fun _ => pure ⟨⟩) x := by
        intro x hx
        rw [Editor.Leaves]
        cases hv : literalTypes.visit x with
        | error err => rfl
        | ok b => rw [ih x hx hv]; rfl
      rw [Editor.walk_leaves (fun _ _ => rfl) hleaves] at hw
      obtain ⟨_, _, hw⟩ := except_do_eq_ok.mp hw
      exact (Except.ok.inj hw).symm
    rw [Editor.visit_eq] at h
    cases e with
    | binary op l r t =>
      change (if op.isLogical = true then literalTypes.walk (.binary op l r t) else do
        checkLiteral l r
        checkLiteral r l
        literalTypes.walk (.binary op l r t)) = .ok a at h
      split at h
      · exact hwalk a h
      · obtain ⟨_, _, h⟩ := except_do_eq_ok.mp h
        obtain ⟨_, _, h⟩ := except_do_eq_ok.mp h
        exact hwalk a h
    | _ => exact hwalk a h

/-- An expression that passes the check of its literals is unchanged. -/
theorem literalTypes_run_eq {e e' : Expr} (h : literalTypes.run e = .ok e') : e' = e := by
  obtain ⟨a, ha, h⟩ := except_do_eq_ok.mp h
  rw [literalTypes_visit_eq_none ha] at h
  exact (Except.ok.inj h).symm

/-! ### Null comparisons -/

theorem nullCompared_mem {l r x : Expr} (h : nullCompared? l r = some x) : x = l ∨ x = r := by
  unfold nullCompared? at h
  split at h
  · exact .inl (Option.some.inj h).symm
  · exact .inr (Option.some.inj h).symm
  · cases h

theorem nullCompared_mem_children {op : BinaryOp} {l r x : Expr} {t : DataType} (h : nullCompared? l r = some x) :
    x ∈ (Expr.binary op l r t).children := by
  rcases nullCompared_mem h with rfl | rfl
  · exact List.mem_cons_self
  · exact List.mem_cons_of_mem l List.mem_cons_self

/-- A null test stands for a comparison, over the operand that is compared with null. -/
theorem nullTest_eq_some {e x : Expr} (h : nullTest? e = some x) :
    ∃ op l r t y, e = .binary op l r t ∧ nullCompared? l r = some y ∧ (x = .isNull y ∨ x = .isNotNull y) := by
  unfold nullTest? at h
  split at h
  · next l r t =>
    obtain ⟨y, hy, rfl⟩ := Option.map_eq_some_iff.mp h
    exact ⟨.equal, l, r, t, y, rfl, hy, .inl rfl⟩
  · next l r t =>
    obtain ⟨y, hy, rfl⟩ := Option.map_eq_some_iff.mp h
    exact ⟨.notEqual, l, r, t, y, rfl, hy, .inr rfl⟩
  · cases h

/-- A node whose children are edited, as a null test if it is a comparison with null. -/
theorem nullComparisons_run_eq (e : Expr) :
    nullComparisons.run e = (nullComparisons.rewalk e).map fun x => (nullTest? x).getD x := by
  rw [Editor.run, Editor.rewalk, Editor.visit_eq]
  show (nullComparisons.walk e >>= fun e' => (pure (nullTest? (e'.getD e) <|> e') : Except Error (Option Expr)))
      >>= (fun e' => pure (e'.getD e)) = _
  cases nullComparisons.walk e with
  | error err => rfl
  | ok e' =>
    show Except.ok ((nullTest? (e'.getD e) <|> e').getD e) = Except.ok ((nullTest? (e'.getD e)).getD (e'.getD e))
    cases nullTest? (e'.getD e) <;> rfl

/-! ### Bound bodies -/

/-- A body is bound in three steps: it is inlined, its row is bound, and its null comparisons are made null tests. -/
theorem bindBody_eq_ok {nested : Expr → BindM Stage} {s : Stage} {row : String} {body : Expr} {bound : BoundBody}
    (h : (bindBody nested s row body).outcome = .ok bound) :
    ∃ body' e, body.inlined = .ok body' ∧ (((rowBinder nested s row).run body').run []).outcome = .ok (e, bound.noted) ∧
      nullComparisons.run e = .ok bound.expr := by
  unfold bindBody at h
  simp only [Traced.outcome_bind_eq_ok, Traced.outcome_silent] at h
  obtain ⟨body', hbody, ⟨e, noted⟩, hrow, e', hnull, e'', hliteral, h⟩ := h
  cases h
  rw [literalTypes_run_eq hliteral]
  exact ⟨body', e, hbody, hrow, hnull⟩

end PigChain
