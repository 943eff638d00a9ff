import PigChain.Proofs.Flat
import PigChain.Proofs.Inlining

/-!
# Binding flat bodies

The row binder carries the fields it has noted as a state. On a flat body that state decides nothing: the bound
expression is that of `rowReader`, an editor without state, which looks at the type, the columns and the shape
of the stage alone. Two stages that agree in these bind every flat body alike.
-/

namespace PigChain

variable {L : Value → Prop} {nested : Expr → BindM Stage} {s : Stage} {row : String} {e : Expr}

/-! ### Inlining -/

/-- A flat body has nothing to inline. -/
theorem inlineWith_run_flat (again : Expr → Except Error Expr) (h : FlatBody L row e) :
    (inlineWith again).run e = .ok e := by
  have hrow : ∀ (n : String) (t : DataType), (inlineWith again).run (.parameter n t) = .ok (.parameter n t) := by
    intro n t
    refine inlineWith_run_eq_self Kind.noConfusion Kind.noConfusion fun c hc => ?_
    cases hc
  induction h with
  | constant =>
    refine inlineWith_run_eq_self Kind.noConfusion Kind.noConfusion fun c hc => ?_
    cases hc
  | row => exact hrow _ _
  | field =>
    refine inlineWith_run_eq_self Kind.noConfusion Kind.noConfusion fun c hc => ?_
    rw [List.mem_singleton.mp hc]
    exact hrow _ _
  | @aggregate row method t type selectors hs ht ih =>
    refine inlineWith_run_eq_self Kind.noConfusion Kind.noConfusion fun c hc => ?_
    rcases List.mem_cons.mp hc with rfl | hc
    · exact hrow _ _
    · obtain ⟨q, hq, rfl⟩ := List.mem_map.mp hc
      refine inlineWith_run_eq_self Kind.noConfusion Kind.noConfusion fun c hc => ?_
      rw [List.mem_singleton.mp hc]
      exact ih q hq
  | unary hx ht ih =>
    refine inlineWith_run_eq_self Kind.noConfusion Kind.noConfusion fun c hc => ?_
    rw [List.mem_singleton.mp hc]
    exact ih
  | binary hx hy ht ihx ihy =>
    refine inlineWith_run_eq_self Kind.noConfusion Kind.noConfusion fun c hc => ?_
    simp only [Expr.children, List.mem_cons, List.not_mem_nil, or_false] at hc
    rcases hc with rfl | rfl
    · exact ihx
    · exact ihy
  | conditional hc hx hy ht ihc ihx ihy =>
    refine inlineWith_run_eq_self Kind.noConfusion Kind.noConfusion fun c hc => ?_
    simp only [Expr.children, List.mem_cons, List.not_mem_nil, or_false] at hc
    rcases hc with rfl | rfl | rfl
    · exact ihc
    · exact ihx
    · exact ihy
  | isNull hx ih =>
    refine inlineWith_run_eq_self Kind.noConfusion Kind.noConfusion fun c hc => ?_
    rw [List.mem_singleton.mp hc]
    exact ih
  | method hx hargs ht ihx ihargs =>
    refine inlineWith_run_eq_self Kind.noConfusion Kind.noConfusion fun c hc => ?_
    rcases List.mem_cons.mp hc with rfl | hc
    · exact ihx
    · exact ihargs c hc

theorem inlined_flat (h : FlatBody L row e) : e.inlined = .ok e := by
  rw [Expr.inlined]
  cases inlineLimit with
  | zero => exact inlineWith_run_flat _ h
  | succ fuel => exact inlineWith_run_flat _ h

/-! ### A computation with notes beside one without -/

/-- Whatever was noted before, a computation ends as one without notes does, and keeps `I` true of the notes. -/
def Mirrors {σ α : Type} (I : σ → Prop) (x : StateT σ BindM α) (y : Except Error α) : Prop :=
  ∀ n, I n → ∃ n', I n' ∧ (x.run n).outcome = y.map fun a => (a, n')

namespace Mirrors

variable {σ α β : Type} {I : σ → Prop}

theorem pure (a : α) : Mirrors I (Pure.pure a : StateT σ BindM α) (.ok a) :=
  fun n hn => ⟨n, hn, rfl⟩

theorem lift (x : Except Error α) : Mirrors I (liftM (Traced.silent x : BindM α) : StateT σ BindM α) x := by
  intro n hn
  refine ⟨n, hn, ?_⟩
  cases x <;> rfl

theorem bind {x : StateT σ BindM α} {y : Except Error α} {f : α → StateT σ BindM β} {g : α → Except Error β}
    (hx : Mirrors I x y) (hf : ∀ a, y = .ok a → Mirrors I (f a) (g a)) : Mirrors I (x >>= f) (y >>= g) := by
  intro n hn
  obtain ⟨n₁, hn₁, hrun⟩ := hx n hn
  have hbind : ((x >>= f).run n).outcome = (x.run n).outcome.bind fun p => ((f p.1).run p.2).outcome := by
    rw [StateT.run_bind, Traced.outcome_bind]
  cases y with
  | error err => exact ⟨n₁, hn₁, by rw [hbind, hrun]; rfl⟩
  | ok a =>
    obtain ⟨n₂, hn₂, hrun₂⟩ := hf a rfl n₁ hn₁
    exact ⟨n₂, hn₂, by rw [hbind, hrun]; exact hrun₂⟩

theorem map {x : StateT σ BindM α} {y : Except Error α} (f : α → β) (hx : Mirrors I x y) :
    Mirrors I (f <$> x) (f <$> y) := by
  intro n hn
  obtain ⟨n', hn', hrun⟩ := hx n hn
  refine ⟨n', hn', ?_⟩
  rw [StateT.run_map, Traced.outcome_map, hrun]
  cases y <;> rfl

end Mirrors

/-! ### Notes -/

/-- Columns noted for fields of a record have the types of the fields. -/
def NotedFits (element : DataType) (columns : List Column) : Prop :=
  ∀ record fields, element = .record record fields → ∀ c ∈ columns,
    (Field.find? fields c.name).map Field.type = some c.expr.type

/-- What flat chains keep true of the stages that pass rows through: the rows are records, and the columns noted
so far are fields of them. -/
def Stage.Noted (s : Stage) : Prop :=
  s.passesRows = true → (∃ record fields, s.element = .record record fields) ∧ NotedFits s.element s.columns

theorem Column.find?_eq_some {columns : List Column} {name : String} {c : Column}
    (h : Column.find? columns name = some c) : c ∈ columns ∧ c.name = name :=
  ⟨List.mem_of_find?_eq_some h, by simpa using List.find?_some h⟩

theorem mirrors_noteField {record name : String} {fields : List Field} {f : Field}
    (hcols : NotedFits s.element s.columns) (he : s.element = .record record fields)
    (hf : Field.find? fields name = some f) :
    Mirrors (NotedFits s.element) (noteField s name f.type) (.ok ()) := by
  intro n hn
  simp only [noteField, StateT.run_bind, StateT.run_get, pure_bind]
  cases hc : (s.column? name <|> Column.find? n name) with
  | none =>
    refine ⟨n ++ [⟨name, .field name f.type⟩], ?_, rfl⟩
    intro record' fields' he' c hmem
    rw [he] at he'
    cases he'
    rcases List.mem_append.mp hmem with hmem | hmem
    · exact hn record fields he c hmem
    · rw [List.mem_singleton] at hmem
      rw [hmem]
      show (Field.find? fields name).map Field.type = some f.type
      rw [hf]
      rfl
  | some c =>
    -- The column was noted for a field of this name, so it has the type of the field.
    have htype : c.expr.type = f.type := by
      have hfit : (Field.find? fields c.name).map Field.type = some c.expr.type ∧ c.name = name := by
        cases hs : s.column? name with
        | some c' =>
          rw [hs] at hc
          cases hc
          obtain ⟨hmem, hname⟩ := Column.find?_eq_some hs
          exact ⟨hcols record fields he c hmem, hname⟩
        | none =>
          rw [hs] at hc
          obtain ⟨hmem, hname⟩ := Column.find?_eq_some hc
          exact ⟨hn record fields he c hmem, hname⟩
      rw [hfit.2, hf] at hfit
      exact (Option.some.inj hfit.1).symm
    refine ⟨n, hn, ?_⟩
    simp only [htype]
    rfl

theorem fieldColumn_eq_ok_of_record {record name : String} {fields : List Field} {declared : DataType}
    (hp : s.projected = false) (he : s.element = .record record fields)
    (h : fieldColumn s name declared = .ok e) :
    ∃ f, Field.find? fields name = some f ∧ e = .field name f.type := by
  rcases fieldColumn_eq_ok h with ⟨key, element, hgroup, -⟩ | ⟨hprojected, -⟩ | ⟨-, fields', f, hfields, hf, rfl⟩ |
    ⟨-, -, hfields, -⟩
  · rw [he] at hgroup
    cases hgroup
  · rw [hp] at hprojected
    cases hprojected
  · rw [he] at hfields
    cases hfields
    exact ⟨f, hf, rfl⟩
  · rw [he] at hfields
    cases hfields

theorem mirrors_resolveField (hs : s.Noted) (name : String) (declared : DataType) :
    Mirrors (NotedFits s.element) (resolveField s name declared) (fieldColumn s name declared) := by
  have hbind := Mirrors.bind (I := NotedFits s.element)
    (f := fun e => do
      if s.passesRows then noteField s name e.type
      pure e)
    (g := .ok) (Mirrors.lift (fieldColumn s name declared)) ?_
  · have hpure : (fieldColumn s name declared >>= Except.ok) = fieldColumn s name declared := by
      cases fieldColumn s name declared <;> rfl
    rw [hpure] at hbind
    exact hbind
  · intro e he
    cases hpass : s.passesRows with
    | false => exact Mirrors.pure e
    | true =>
      obtain ⟨⟨record, fields, helem⟩, hfit⟩ := hs hpass
      have hp : s.projected = false := by
        unfold Stage.passesRows at hpass
        cases hproj : s.projected with
        | false => rfl
        | true => rw [hproj] at hpass; cases hpass
      obtain ⟨f, hf, rfl⟩ := fieldColumn_eq_ok_of_record hp helem he
      exact Mirrors.bind (mirrors_noteField hfit helem hf) fun _ _ => Mirrors.pure _

/-! ### Reading a row -/

/-- Binds references to the row of a stage without noting fields; chains inside the body are left alone. -/
def rowReader (s : Stage) (row : String) : Editor (Except Error) where
  expr e walk :=
    match e with
    | .parameter name _ => if name = row then some <$> rowColumn s else pure none
    | .member object name type => if isRow row object then some <$> fieldColumn s name type else walk
    | .call object method args type =>
      if isRow row object then some <$> groupAggregate s method args type else walk
    | _ => walk

/-- Stages that resolve the row, its fields and its aggregates alike are read alike. -/
theorem rowReader_congr {s s' : Stage} (hrow : rowColumn s = rowColumn s')
    (hfield : fieldColumn s = fieldColumn s') (helem : s.element = s'.element) (row : String) :
    rowReader s row = rowReader s' row := by
  have hagg : ∀ method args type, groupAggregate s method args type = groupAggregate s' method args type := by
    intro method args type
    unfold groupAggregate
    rw [helem]
  unfold rowReader
  simp only [hrow, hfield, hagg]

theorem isRow_self (row : String) (t : DataType) : isRow row (some (.parameter row t)) = true := by
  simp [isRow, Expr.isParameter]

theorem mirrors_visitList {I : List Column → Prop} {r : Editor RowM} {r' : Editor (Except Error)}
    {xs : List Expr} (h : ∀ x ∈ xs, Mirrors I (r.visit x) (r'.visit x)) :
    Mirrors I (r.visitList xs) (r'.visitList xs) := by
  induction xs with
  | nil => exact Mirrors.pure none
  | cons x xs ih =>
    rw [Editor.visitList, Editor.visitList]
    refine Mirrors.bind (h x List.mem_cons_self) fun x' _ => ?_
    refine Mirrors.bind (ih fun y hy => h y (List.mem_cons_of_mem x hy)) fun xs' _ => ?_
    exact Mirrors.pure _

/-- On a flat body the row binder is the row reader. -/
theorem mirrors_visit_flat (hs : s.Noted) (h : FlatBody L row e) :
    Mirrors (NotedFits s.element) ((rowBinder nested s row).visit e) ((rowReader s row).visit e) := by
  induction h with
  | constant => exact Mirrors.pure none
  | @row row t =>
    rw [Editor.visit_eq, Editor.visit_eq]
    simp only [rowBinder, rowReader, if_true]
    exact Mirrors.map some (Mirrors.lift _)
  | @field row name t type =>
    rw [Editor.visit_eq, Editor.visit_eq]
    simp only [rowBinder, rowReader, isRow_self, if_true]
    exact Mirrors.map some (mirrors_resolveField hs name type)
  | @aggregate row method t type selectors _ _ _ =>
    rw [Editor.visit_eq, Editor.visit_eq]
    simp only [rowBinder, rowReader, isRow_self, if_true]
    exact Mirrors.map some (Mirrors.lift _)
  | unary _ _ ih =>
    rw [Editor.visit_eq, Editor.visit_eq]
    exact Mirrors.bind ih fun _ _ => Mirrors.pure _
  | binary _ _ _ ihx ihy =>
    rw [Editor.visit_eq, Editor.visit_eq]
    exact Mirrors.bind ihx fun _ _ => Mirrors.bind ihy fun _ _ => Mirrors.pure _
  | conditional _ _ _ _ ihc ihx ihy =>
    rw [Editor.visit_eq, Editor.visit_eq]
    exact Mirrors.bind ihc fun _ _ => Mirrors.bind ihx fun _ _ => Mirrors.bind ihy fun _ _ => Mirrors.pure _
  | isNull _ ih =>
    rw [Editor.visit_eq, Editor.visit_eq]
    exact Mirrors.bind ih fun _ _ => Mirrors.pure _
  | @method row name x args t _ _ _ ihx ihargs =>
    rw [Editor.visit_eq, Editor.visit_eq]
    simp only [rowBinder, rowReader]
    cases hrow : isRow row (some x) with
    | true =>
      simp only [if_true]
      exact Mirrors.map some (Mirrors.lift _)
    | false =>
      simp only [Bool.false_eq_true, if_false, extendsChain]
      exact Mirrors.bind ihx fun _ _ => Mirrors.bind (mirrors_visitList ihargs) fun _ _ => Mirrors.pure _

/-! ### Bound bodies -/

/-- A flat body bound to the rows of a stage. -/
def readBody (s : Stage) (row : String) (body : Expr) : Except Error Expr := do
  let e ← (rowReader s row).run body
  let e ← nullComparisons.run e
  literalTypes.run e

/-- A body with nothing to inline is bound as it is read, by whatever stage reads as the binder does. -/
theorem bindBody_of_mirrors {I : List Column → Prop} {reader : Stage} (hempty : I []) (hinline : e.inlined = .ok e)
    (hvisit : Mirrors I ((rowBinder nested s row).visit e) ((rowReader reader row).visit e)) :
    ∃ noted, I noted ∧ (bindBody nested s row e).outcome = (readBody reader row e).map fun x => ⟨x, noted⟩ := by
  have hrun : Mirrors I ((rowBinder nested s row).run e) ((rowReader reader row).run e) :=
    Mirrors.bind hvisit fun _ _ => Mirrors.pure _
  obtain ⟨noted, hnoted, hout⟩ := hrun [] hempty
  refine ⟨noted, hnoted, ?_⟩
  unfold bindBody readBody
  simp only [Traced.outcome_bind, Traced.outcome_silent, hinline]
  show (((rowBinder nested s row).run e).run []).outcome.bind _ = _
  rw [hout]
  cases (rowReader reader row).run e with
  | error err => rfl
  | ok x =>
    show (nullComparisons.run x).bind _ = Except.map _ ((nullComparisons.run x).bind _)
    cases nullComparisons.run x with
    | error err => rfl
    | ok y =>
      show (literalTypes.run y).bind _ = Except.map _ (literalTypes.run y)
      cases literalTypes.run y <;> rfl

theorem bindBody_flat (hs : s.Noted) (h : FlatBody L row e) :
    ∃ noted, NotedFits s.element noted ∧
      (bindBody nested s row e).outcome = (readBody s row e).map fun x => ⟨x, noted⟩ :=
  bindBody_of_mirrors (fun _ _ _ _ hc => absurd hc List.not_mem_nil) (inlined_flat h) (mirrors_visit_flat hs h)

theorem bindBody_flat_eq_ok {bound : BoundBody} (hs : s.Noted) (h : FlatBody L row e)
    (hb : (bindBody nested s row e).outcome = .ok bound) :
    readBody s row e = .ok bound.expr ∧ NotedFits s.element bound.noted := by
  obtain ⟨noted, hnoted, hout⟩ := @bindBody_flat L nested s row e hs h
  rw [hb] at hout
  obtain ⟨x, hx, heq⟩ := except_map_eq_ok.mp hout.symm
  rw [← heq]
  exact ⟨hx, hnoted⟩

end PigChain
