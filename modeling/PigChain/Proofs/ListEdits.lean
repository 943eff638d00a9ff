import PigChain.Proofs.Outcome

/-!
# Editing lists

A list is edited in one pass, and its copy is begun only at the first item that is replaced. After each item the draft
is the one that the answers so far call for. So the edit is the plain map that collects the answers, with the answers
filled in at the end: the function is called once for each item in order, up to the first error.
-/

namespace PigChain

universe u v w

/-! ### Drafts and answers -/

section

variable {α : Type u} {items : List α} {answers : List (Option α)}

/-- The answer for a list, from the answers for its items. -/
def replacedBy : List α → List (Option α) → Option (List α)
  | x :: items, answer :: answers => replaceCons x answer items (replacedBy items answers)
  | _, _ => none

theorem replacedBy_eq_none_iff (h : answers.length = items.length) :
    replacedBy items answers = none ↔ ∀ answer ∈ answers, answer = none := by
  induction items generalizing answers with
  | nil =>
    rw [List.length_eq_zero_iff.mp h]
    simp [replacedBy]
  | cons x items ih =>
    cases answers with
    | nil => cases h
    | cons answer answers =>
      rw [List.forall_mem_cons, ← ih (Nat.succ.inj h), replacedBy]
      cases answer <;> cases replacedBy items answers <;> simp [replaceCons]

theorem getD_replacedBy (h : answers.length = items.length) :
    (replacedBy items answers).getD items = List.zipWith (fun x answer => answer.getD x) items answers := by
  induction items generalizing answers with
  | nil =>
    rw [List.length_eq_zero_iff.mp h]
    rfl
  | cons x items ih =>
    cases answers with
    | nil => cases h
    | cons answer answers =>
      rw [List.zipWith_cons_cons, ← ih (Nat.succ.inj h), replacedBy]
      cases answer <;> cases replacedBy items answers <;> rfl

theorem replacedBy_concat (h : answers.length = items.length) (x : α) (answer : Option α) :
    replacedBy (items ++ [x]) (answers ++ [answer]) =
      replace2 items (replacedBy items answers) x answer fun items x => items ++ [x] := by
  induction items generalizing answers with
  | nil =>
    rw [List.length_eq_zero_iff.mp h]
    cases answer <;> rfl
  | cons y items ih =>
    cases answers with
    | nil => cases h
    | cons first answers =>
      rw [List.cons_append, List.cons_append, replacedBy, ih (Nat.succ.inj h), replacedBy]
      cases first <;> cases replacedBy items answers <;> cases answer <;> rfl

/-- The draft that the answers for the items passed call for. -/
def Draft.of (items : List α) (answers : List (Option α)) : Draft α where
  passed := items.toArray
  copy := (replacedBy items answers).map List.toArray

/-- A copy begun here takes over the items passed; one begun before goes on with the item or its replacement. -/
theorem Draft.pass_of (h : answers.length = items.length) (x : α) (answer : Option α) :
    (Draft.of items answers).pass x answer = Draft.of (items ++ [x]) (answers ++ [answer]) := by
  rw [Draft.of, Draft.of, replacedBy_concat h]
  cases replacedBy items answers <;> cases answer <;> simp [Draft.pass, replace2]

variable {m : Type u → Type v} [Monad m] [LawfulMonad m]

theorem foldlM_pass (f : α → m (Option α)) (items : List α) (answers : List (Option α)) (rest : List α)
    (h : answers.length = items.length) :
    rest.foldlM (fun d x => do
        let x' ← f x
        pure (d.pass x x')) (Draft.of items answers) =
      (fun more => Draft.of (items ++ rest) (answers ++ more)) <$> rest.mapM f := by
  induction rest generalizing items answers with
  | nil => simp
  | cons x rest ih =>
    have hnext : ∀ answer : Option α, (answers ++ [answer]).length = (items ++ [x]).length := by
      intro answer
      simp only [List.length_append, List.length_singleton, h]
    simp only [List.foldlM_cons, bind_assoc, pure_bind, Draft.pass_of h, ih _ _ (hnext _), List.mapM_cons,
      map_eq_pure_bind, List.append_assoc, List.singleton_append]

/-- An edit collects the answers for all items, in their order, and fills them in. -/
theorem editList_eq (f : α → m (Option α)) (items : List α) :
    editList f items = replacedBy items <$> items.mapM f := by
  have hstart : ({} : Draft α) = Draft.of [] [] := rfl
  rw [editList, hstart, foldlM_pass f [] [] items rfl]
  simp [Draft.of, Function.comp_def]

theorem editList_nil (f : α → m (Option α)) : editList f [] = pure none := by
  rw [editList_eq, List.mapM_nil, map_pure]
  rfl

theorem editList_cons (f : α → m (Option α)) (x : α) (items : List α) :
    editList f (x :: items) = (do
      let x' ← f x
      let items' ← editList f items
      pure (replaceCons x x' items items')) := by
  simp only [editList_eq, List.mapM_cons, map_eq_pure_bind, bind_assoc, pure_bind, replacedBy]

/-- A visit that goes through a list item by item edits it. -/
theorem eq_editList {f : α → m (Option α)} {visit : List α → m (Option (List α))} (hnil : visit [] = pure none)
    (hcons : ∀ x items, visit (x :: items) = do
      let x' ← f x
      let items' ← visit items
      pure (replaceCons x x' items items')) (items : List α) : visit items = editList f items := by
  induction items with
  | nil => rw [hnil, editList_nil]
  | cons x items ih => rw [hcons, ih, editList_cons]

/-- A list is left alone if each of its items is visited only for the effects on its parts. -/
theorem editList_leaves {β : Type w} {f : β → m PUnit} {visit : α → m (Option α)} (parts : α → List β)
    (h : ∀ x ∈ items, visit x = ((parts x).forM f >>= fun _ => pure none)) :
    editList visit items = ((items.flatMap parts).forM f >>= fun _ => pure none) := by
  induction items with
  | nil => simp [editList_nil]
  | cons x items ih =>
    rw [editList_cons, h x List.mem_cons_self, ih fun y hy => h y (List.mem_cons_of_mem x hy), List.flatMap_cons]
    simp [replaceCons, List.forM_append]

end

/-! ### Lists in a tree -/

namespace Editor

variable {m : Type → Type} [Monad m] [LawfulMonad m] [MonadExceptOf Error m] (r : Editor m)

theorem visitList_eq (xs : List Expr) : r.visitList xs = editList r.visit xs :=
  eq_editList (by rw [visitList]) (fun x xs => by rw [visitList]) xs

theorem visitItems_eq (is : List ElementInit) : r.visitItems is = editList r.visitItem is :=
  eq_editList (by rw [visitItems]) (fun i is => by rw [visitItems]) is

theorem visitBindings_eq (bs : List Binding) : r.visitBindings bs = editList r.visitBinding bs :=
  eq_editList (by rw [visitBindings]) (fun b bs => by rw [visitBindings]) bs

theorem visitColumns_eq (cs : List Column) : r.visitColumns cs = editList r.visitColumn cs :=
  eq_editList (by rw [visitColumns]) (fun c cs => by rw [visitColumns]) cs

theorem visitOrderings_eq (os : List Ordering) : r.visitOrderings os = editList r.visitOrdering os :=
  eq_editList (by rw [visitOrderings]) (fun o os => by rw [visitOrderings]) os

end Editor

/-! ### Calls with a state -/

section

variable {α β ε σ : Type}

/-- All calls of a plain map succeed, or there is a first that fails, and the map stops there. -/
theorem mapM_run_cases (f : α → ExceptT ε (StateM σ) β) (items : List α) (start : σ) :
    (∃ answers final, (items.mapM f).run.run start = (.ok answers, final) ∧ answers.length = items.length) ∨
      ∃ before x after answers between err final, items = before ++ x :: after ∧
        (before.mapM f).run.run start = (.ok answers, between) ∧ (f x).run.run between = (.error err, final) := by
  induction items generalizing start with
  | nil => exact .inl ⟨[], start, rfl, rfl⟩
  | cons x items ih =>
    rcases hx : (f x).run.run start with ⟨err | answer, next⟩
    · exact .inr ⟨[], x, items, [], start, err, next, rfl, rfl, hx⟩
    · rcases ih next with ⟨answers, final, hitems, hlength⟩ |
        ⟨before, y, after, answers, between, err, final, rfl, hbefore, hy⟩
      · refine .inl ⟨answer :: answers, final, ?_, congrArg (· + 1) hlength⟩
        rw [List.mapM_cons, keeping_run_bind hx, keeping_run_bind hitems]
        rfl
      · refine .inr ⟨x :: before, y, after, answer :: answers, between, err, final, rfl, ?_, hy⟩
        rw [List.mapM_cons, keeping_run_bind hx, keeping_run_bind hbefore]
        rfl

theorem mapM_run_error {f : α → ExceptT ε (StateM σ) β} {before after : List α} {x : α} {answers : List β} {err : ε}
    {start between final : σ} (hbefore : (before.mapM f).run.run start = (.ok answers, between))
    (hx : (f x).run.run between = (.error err, final)) :
    ((before ++ x :: after).mapM f).run.run start = (.error err, final) := by
  rw [List.mapM_append, keeping_run_bind hbefore, List.mapM_cons]
  exact keeping_run_bind_error (keeping_run_bind_error hx)

/-- `f` with a record of the items that it is called for. -/
def recordCalls (f : α → ExceptT ε (StateM σ) β) (x : α) : ExceptT ε (StateM (σ × List α)) β :=
  ExceptT.mk fun s => (((f x).run.run s.1).1, ((f x).run.run s.1).2, s.2 ++ [x])

theorem recordCalls_run (f : α → ExceptT ε (StateM σ) β) (x : α) (start : σ) (calls : List α) :
    (recordCalls f x).run.run (start, calls) =
      (((f x).run.run start).1, ((f x).run.run start).2, calls ++ [x]) := rfl

theorem mapM_recordCalls_run {f : α → ExceptT ε (StateM σ) β} {items : List α} {answers : List β} {start final : σ}
    (h : (items.mapM f).run.run start = (.ok answers, final)) (calls : List α) :
    (items.mapM (recordCalls f)).run.run (start, calls) = (.ok answers, final, calls ++ items) := by
  induction items generalizing start answers calls with
  | nil =>
    cases h
    rw [List.append_nil]
    rfl
  | cons x items ih =>
    rw [List.mapM_cons] at h
    obtain ⟨answer, next, hx, h⟩ := keeping_bind_eq_ok h
    obtain ⟨rest, last, hitems, h⟩ := keeping_bind_eq_ok h
    cases h
    have hcall : (recordCalls f x).run.run (start, calls) = (.ok answer, next, calls ++ [x]) := by
      rw [recordCalls_run, hx]
    rw [List.mapM_cons, keeping_run_bind hcall, keeping_run_bind (ih hitems _), List.append_assoc]
    rfl

theorem editList_run {f : α → ExceptT ε (StateM σ) (Option α)} {items : List α}
    {result : Except ε (List (Option α))} {start final : σ} (h : (items.mapM f).run.run start = (result, final)) :
    (editList f items).run.run start = (result.map (replacedBy items), final) := by
  rw [editList_eq, map_eq_pure_bind]
  cases result with
  | ok answers => exact keeping_run_bind h
  | error err => exact keeping_run_bind_error h

end

/-- Editing a list is a map with a state. Either every call succeeds: then there is one call for each item, in order,
and the edit leaves the state that running over the list leaves. It answers `none` exactly if every call did, and with the
list itself taken for `none` it has each item or its replacement in the same place. Or some call is the first to fail:
then the edit stops with its error and its state, and no item after it is called for. -/
theorem list_edits_follow_calls {α ε σ : Type} (f : α → ExceptT ε (StateM σ) (Option α)) (items : List α) (start : σ) :
    (∃ answers final edited, (items.mapM f).run.run start = (.ok answers, final) ∧
        (editList f items).run.run start = (.ok edited, final) ∧
        (editList (recordCalls f) items).run.run (start, []) = (.ok edited, final, items) ∧
        (edited = none ↔ ∀ answer ∈ answers, answer = none) ∧
        answers.length = items.length ∧ (edited.getD items).length = items.length ∧
        edited.getD items = List.zipWith (fun x answer => answer.getD x) items answers) ∨
      ∃ before x after answers between err final, items = before ++ x :: after ∧
        (before.mapM f).run.run start = (.ok answers, between) ∧ (f x).run.run between = (.error err, final) ∧
        (editList f items).run.run start = (.error err, final) ∧
        (editList (recordCalls f) items).run.run (start, []) = (.error err, final, before ++ [x]) := by
  rcases mapM_run_cases f items start with
    ⟨answers, final, hitems, hlength⟩ | ⟨before, x, after, answers, between, err, final, rfl, hbefore, hx⟩
  · have hfilled := getD_replacedBy hlength
    refine .inl ⟨answers, final, replacedBy items answers, hitems, editList_run hitems,
      editList_run (mapM_recordCalls_run hitems []), replacedBy_eq_none_iff hlength, hlength, ?_, hfilled⟩
    rw [hfilled, List.length_zipWith, hlength, Nat.min_self]
  · have hcall : (recordCalls f x).run.run (between, before) = (.error err, final, before ++ [x]) := by
      rw [recordCalls_run, hx]
    exact .inr ⟨before, x, after, answers, between, err, final, rfl, hbefore, hx,
      editList_run (mapM_run_error hbefore hx),
      editList_run (mapM_run_error (mapM_recordCalls_run hbefore []) hcall)⟩

end PigChain
