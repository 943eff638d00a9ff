import PigChain.Bind.Chain
import Mathlib.Data.List.Forall2

/-!
# Results of computations

A computation that succeeds has succeeded in each of its parts, and one that fails has failed in one of them. The
lemmas take a `bind` apart, for plain results, for traced ones and for those with a state, so that no later proof unfolds
a computation of the binder twice.
-/

namespace PigChain

theorem except_bind_eq_ok {ε α β : Type} {x : Except ε α} {f : α → Except ε β} {b : β} :
    x.bind f = .ok b ↔ ∃ a, x = .ok a ∧ f a = .ok b := by
  cases x <;> simp [Except.bind]

theorem except_do_eq_ok {ε α β : Type} {x : Except ε α} {f : α → Except ε β} {b : β} :
    (x >>= f) = .ok b ↔ ∃ a, x = .ok a ∧ f a = .ok b :=
  except_bind_eq_ok

theorem except_map_eq_ok {ε α β : Type} {x : Except ε α} {f : α → β} {b : β} :
    x.map f = .ok b ↔ ∃ a, x = .ok a ∧ f a = b := by
  cases x <;> simp [Except.map]

theorem except_isOk {ε α : Type} {x : Except ε α} (h : x.isOk = true) : ∃ a, x = .ok a := by
  cases x with
  | ok a => exact ⟨a, rfl⟩
  | error e => cases h

theorem except_do_eq_error {ε α β : Type} {x : Except ε α} {f : α → Except ε β} {err : ε} :
    (x >>= f) = .error err ↔ x = .error err ∨ ∃ a, x = .ok a ∧ f a = .error err := by
  cases x <;> simp [Bind.bind, Except.bind]

/-! ### Computations over lists -/

section

variable {ε α β : Type} {f : α → Except ε β} {xs : List α} {ys : List β}

theorem mapM_eq_ok : xs.mapM f = .ok ys ↔ List.Forall₂ (fun x y => f x = .ok y) xs ys := by
  induction xs generalizing ys with
  | nil =>
    rw [List.mapM_nil, List.forall₂_nil_left_iff]
    exact ⟨fun h => (Except.ok.inj h).symm, fun h => by rw [h]; rfl⟩
  | cons x xs ih =>
    rw [List.mapM_cons, List.forall₂_cons_left_iff]
    simp only [except_do_eq_ok]
    constructor
    · rintro ⟨y, hy, zs, hzs, h⟩
      exact ⟨y, zs, hy, ih.mp hzs, (Except.ok.inj h).symm⟩
    · rintro ⟨y, zs, hy, hzs, rfl⟩
      exact ⟨y, hy, zs, ih.mpr hzs, rfl⟩

theorem mapM_eq_error {err : ε} (h : xs.mapM f = .error err) : ∃ x ∈ xs, f x = .error err := by
  induction xs with
  | nil => cases h
  | cons x xs ih =>
    rw [List.mapM_cons] at h
    rcases except_do_eq_error.mp h with hx | ⟨y, -, h⟩
    · exact ⟨x, List.mem_cons_self, hx⟩
    · rcases except_do_eq_error.mp h with hxs | ⟨ys, -, ⟨⟩⟩
      obtain ⟨x', hmem, hx'⟩ := ih hxs
      exact ⟨x', List.mem_cons_of_mem x hmem, hx'⟩

theorem map_mapM_eq_error {γ : Type} {k : List β → γ} {err : ε} (h : k <$> xs.mapM f = .error err) :
    ∃ x ∈ xs, f x = .error err := by
  rw [map_eq_pure_bind] at h
  rcases except_do_eq_error.mp h with hxs | ⟨ys, -, ⟨⟩⟩
  exact mapM_eq_error hxs

variable {R : α → β → Prop}

theorem exists_of_forall₂_left {x : α} (h : List.Forall₂ R xs ys) (hx : x ∈ xs) : ∃ y ∈ ys, R x y := by
  induction h with
  | nil => cases hx
  | cons hxy _ ih =>
    rcases List.mem_cons.mp hx with rfl | hx
    · exact ⟨_, List.mem_cons_self, hxy⟩
    · obtain ⟨y, hy, hR⟩ := ih hx
      exact ⟨y, List.mem_cons_of_mem _ hy, hR⟩

theorem exists_of_forall₂_right {y : β} (h : List.Forall₂ R xs ys) (hy : y ∈ ys) : ∃ x ∈ xs, R x y :=
  exists_of_forall₂_left h.flip hy

end

namespace Traced

variable {ε α β : Type}

theorem outcome_bind_eq_ok {x : Traced ε α} {f : α → Traced ε β} {b : β} :
    (x >>= f).outcome = .ok b ↔ ∃ a, x.outcome = .ok a ∧ (f a).outcome = .ok b := by
  rw [outcome_bind]
  exact except_bind_eq_ok

theorem outcome_bind_eq_error {x : Traced ε α} {f : α → Traced ε β} {err : ε} :
    (x >>= f).outcome = .error err ↔ x.outcome = .error err ∨ ∃ a, x.outcome = .ok a ∧ (f a).outcome = .error err := by
  rw [outcome_bind]
  exact except_do_eq_error

@[simp] theorem outcome_map (f : α → β) (x : Traced ε α) : (f <$> x).outcome = x.outcome.map f := by
  show (x >>= fun a => pure (f a)).outcome = x.outcome.map f
  rw [outcome_bind]
  cases x.outcome <;> rfl

instance : LawfulMonad (Traced ε) := by
  refine LawfulMonad.mk' (Traced ε) ?_ (fun _ _ => rfl) ?_
  · intro α x
    obtain ⟨events, outcome⟩ := x
    cases outcome <;> simp [Functor.map]
  · intro α β γ x f g
    obtain ⟨events, outcome⟩ := x
    cases outcome with
    | error e => rfl
    | ok a => cases h : (f a).outcome <;> simp [Bind.bind, h]

end Traced

section

variable {ε σ α β : Type} {u : ExceptT ε (StateM σ) α} {f : α → ExceptT ε (StateM σ) β} {before after : σ}

theorem keeping_run_bind {a : α} (h : u.run.run before = (.ok a, after)) :
    (u >>= f).run.run before = (f a).run.run after := by
  rw [ExceptT.run_bind, StateT.run_bind, h]
  rfl

theorem keeping_run_bind_error {err : ε} (h : u.run.run before = (.error err, after)) :
    (u >>= f).run.run before = (.error err, after) := by
  rw [ExceptT.run_bind, StateT.run_bind, h]
  rfl

theorem keeping_bind_eq_ok {b : β} (h : (u >>= f).run.run before = (.ok b, after)) :
    ∃ a between, u.run.run before = (.ok a, between) ∧ (f a).run.run between = (.ok b, after) := by
  rw [ExceptT.run_bind, StateT.run_bind] at h
  cases hu : u.run.run before with
  | mk result between =>
    rw [hu] at h
    cases result with
    | error err => cases h
    | ok a => exact ⟨a, between, rfl, h⟩

end

@[simp] theorem outcome_noteBinding (message : String) (fields : List (String × EventValue)) :
    (noteBinding message fields).outcome = .ok () := rfl

/-- A lambda that the binder takes has exactly one parameter. -/
theorem lambdaParts_eq_ok {e : Expr} {p : Parameter} {body : Expr} :
    lambdaParts e = .ok (p, body) ↔ e = .lambda [p] body := by
  constructor
  · intro h
    unfold lambdaParts at h
    split at h
    · simp only [Except.ok.injEq, Prod.mk.injEq] at h
      rw [h.1, h.2]
    · cases h
    · cases h
  · intro h
    rw [h]
    rfl

end PigChain
