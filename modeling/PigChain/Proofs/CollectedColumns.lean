import Mathlib.Data.List.Induction
import Mathlib.Data.List.Nodup
import PigChain.Proofs.Preorder
import PigChain.Proofs.RowBinding

/-!
# Collected and substituted columns

Two passes read the row columns of an expression. One notes their names, the other puts in the declarations of those
names, and both meet them in the order of the tree. So the names that one notes tell what the other does: it fails at
the first of them that is not declared, and otherwise leaves the row columns that stand in the declarations.
-/

namespace PigChain

variable {e e' : Expr} {columns : List Column}

/-! ### Columns in the order of the tree -/

/-- The columns that stand in an expression, in the order of a walk. -/
def Expr.columnsRead (e : Expr) : List Expr := e.nodes.filter fun x => x.kind = .column

/-- The name of a column of the row. -/
def Expr.rowName? : Expr → Option String
  | .column name .row _ => some name
  | _ => none

/-- The names of the row columns in the order of a walk, as often as they stand there. -/
def Expr.rowReads (e : Expr) : List String := e.columnsRead.filterMap Expr.rowName?

theorem columnsRead_column (name : String) (scope : Scope) (type : DataType) :
    (Expr.column name scope type).columnsRead = [.column name scope type] := by
  rw [Expr.columnsRead, Expr.nodes_eq]
  rfl

theorem columnsRead_node (hk : e.kind ≠ .column) : e.columnsRead = e.children.flatMap Expr.columnsRead := by
  rw [Expr.columnsRead, Expr.nodes_eq, List.filter_cons_of_neg (by simpa using hk), List.filter_flatMap]
  rfl

theorem mem_columnsRead {name : String} {scope : Scope} {type : DataType} :
    .column name scope type ∈ e.columnsRead ↔ Expr.Occurs (.column name scope type) e := by
  rw [Expr.columnsRead, List.mem_filter, Expr.mem_nodes]
  exact and_iff_left (decide_eq_true rfl)

theorem rowReads_column (name : String) (scope : Scope) (type : DataType) :
    (Expr.column name scope type).rowReads = (Expr.rowName? (.column name scope type)).toList := by
  rw [Expr.rowReads, columnsRead_column]
  cases scope <;> rfl

theorem rowReads_node (hk : e.kind ≠ .column) : e.rowReads = e.children.flatMap Expr.rowReads := by
  rw [Expr.rowReads, columnsRead_node hk, List.filterMap_flatMap]
  rfl

/-! ### First occurrences -/

section

variable {α : Type} [DecidableEq α]

theorem eraseDups_concat (seen : List α) (a : α) :
    (seen ++ [a]).eraseDups = if a ∈ seen then seen.eraseDups else seen.eraseDups ++ [a] := by
  rw [List.eraseDups_append]
  by_cases ha : a ∈ seen <;> simp [List.removeAll, List.eraseDups_cons, ha]

theorem nodup_eraseDups (xs : List α) : xs.eraseDups.Nodup := by
  induction xs using List.reverseRecOn with
  | nil => exact List.nodup_nil
  | append_singleton xs a ih =>
    rw [eraseDups_concat]
    split
    · exact ih
    · next ha =>
      rw [← List.concat_eq_append]
      exact List.Nodup.concat (fun h => ha (List.mem_eraseDups.mp h)) ih

/-- What is found first among first occurrences is what is found first. -/
theorem find?_eraseDups (p : α → Bool) (xs : List α) : xs.eraseDups.find? p = xs.find? p := by
  induction xs using List.reverseRecOn with
  | nil => rfl
  | append_singleton xs a ih =>
    rw [eraseDups_concat, List.find?_append]
    split
    · next ha =>
      rw [ih]
      cases hfind : xs.find? p with
      | some b => rfl
      | none => rw [Option.none_or, List.find?_cons_of_neg (List.find?_eq_none.mp hfind a ha), List.find?_nil]
    · rw [List.find?_append, ih]

end

/-! ### Collection -/

theorem forM_noteName_run (names seen : List String) :
    (names.forM noteName).run.run seen.eraseDups = (.ok ⟨⟩, (seen ++ names).eraseDups) := by
  induction names generalizing seen with
  | nil =>
    rw [List.append_nil]
    rfl
  | cons name names ih =>
    have hnote : (noteName name).run.run seen.eraseDups = (.ok ⟨⟩, (seen ++ [name]).eraseDups) := by
      rw [noteName_run, eraseDups_concat]
      simp only [List.mem_eraseDups]
    rw [List.append_cons, ← ih (seen ++ [name])]
    exact keeping_run_bind hnote

theorem visit_collectColumns (e : Expr) :
    collectColumns.visit e = (e.rowReads.forM noteName >>= fun _ => pure none) := by
  induction e using Expr.childInduction with
  | h e ih =>
    by_cases hk : e.kind = .column
    · cases e with
      | column name scope type =>
        cases scope with
        | row =>
          rw [collectColumns_visit_field, rowReads_column]
          simp [Expr.rowName?]
        | group =>
          rw [collectColumns_visit_node fun _ _ => by simp, rowReads_column]
          rfl
      | _ => cases hk
    · have hrow : ∀ name type, e ≠ .column name .row type := fun name type he => hk (he ▸ rfl)
      rw [collectColumns_visit_node hrow, rowReads_node hk, forM_flatMap]
      exact Editor.walk_leaves (fun _ _ => rfl) ih

theorem collectColumns_run (e : Expr) :
    (collectColumns.visit e).run.run [] = (.ok none, e.rowReads.eraseDups) := by
  have hnotes : (e.rowReads.forM noteName).run.run [] = (.ok ⟨⟩, e.rowReads.eraseDups) :=
    forM_noteName_run e.rowReads []
  rw [visit_collectColumns, keeping_run_bind hnotes]
  rfl

theorem rowColumns_eq (e : Expr) : e.rowColumns = e.rowReads.eraseDups := by
  rw [Expr.rowColumns, collectColumns_run]

/-! ### Whether substitution succeeds -/

/-- Fails unless a name is declared. -/
def requireColumn (columns : List Column) (name : String) : Except Error PUnit :=
  if name ∈ Column.names columns then .ok ⟨⟩ else .error (.argument (.unknownColumn name))

theorem Column.find?_eq_none_iff {name : String} : Column.find? columns name = none ↔ name ∉ Column.names columns := by
  simp [Column.find?, Column.names]

theorem forM_requireColumn (names : List String) :
    names.forM (requireColumn columns) =
      (names.find? fun n => n ∉ Column.names columns).elim (.ok ⟨⟩) fun n => .error (.argument (.unknownColumn n)) := by
  induction names with
  | nil => rfl
  | cons name names ih =>
    show (requireColumn columns name >>= fun _ => names.forM (requireColumn columns)) = _
    rw [ih, requireColumn]
    by_cases hname : name ∈ Column.names columns
    · rw [if_pos hname, List.find?_cons_of_neg (by simpa using hname)]
      rfl
    · rw [if_neg hname, List.find?_cons_of_pos (by simpa using hname)]
      rfl

theorem mapM_discard {m : Type → Type} [Monad m] [LawfulMonad m] {α β : Type} {f : α → m β} {g : α → m PUnit}
    {xs : List α} (h : ∀ x ∈ xs, (f x >>= fun _ => pure ⟨⟩) = g x) : (xs.mapM f >>= fun _ => pure ⟨⟩) = xs.forM g := by
  induction xs with
  | nil => simp
  | cons x xs ih =>
    rw [List.forM_eq_forM, List.forM_cons, ← List.forM_eq_forM, ← h x List.mem_cons_self,
      ← ih fun y hy => h y (List.mem_cons_of_mem x hy), List.mapM_cons]
    simp only [bind_assoc, pure_bind]

/-- Substitution asks for one name after another, in the order of the tree. -/
theorem composed_discard (hw : e.NarrowScalars) :
    (e.composed columns >>= fun _ => (pure ⟨⟩ : Except Error PUnit)) = e.rowReads.forM (requireColumn columns) := by
  induction e using Expr.childInduction with
  | h e ih =>
    by_cases hk : e.kind = .column
    · cases e with
      | column name scope type =>
        rw [rowReads_column]
        cases scope with
        | row =>
          show _ = (requireColumn columns name >>= fun _ => (pure ⟨⟩ : Except Error PUnit))
          rw [composed_field, requireColumn]
          cases hfind : Column.find? columns name with
          | none =>
            rw [if_neg (Column.find?_eq_none_iff.mp hfind)]
            rfl
          | some c =>
            obtain ⟨hc, rfl⟩ := Column.find?_eq_some hfind
            have hdeclared : c.name ∈ Column.names columns := List.mem_map_of_mem hc
            rw [if_pos hdeclared]
            rfl
        | group => rfl
      | _ => cases hk
    · -- A scalar one field wide is made anew without a failure of its own, so a node fails only where a child does.
      have hchildren : (e.children.mapM (substituteColumns columns).run >>= fun _ => (pure ⟨⟩ : Except Error PUnit)) =
          e.children.forM fun c => c.rowReads.forM (requireColumn columns) :=
        mapM_discard fun c hc => ih c hc (hw.child hc)
      rw [composed_eq_rewalk hk, Editor.rewalk_eq_mapM_of_narrow (fun _ _ => rfl) hw, rowReads_node hk, forM_flatMap,
        ← hchildren, bind_map_left]

theorem substituteColumns_discard (columns : List Column) (hw : e.NarrowScalars) :
    ((substituteColumns columns).visit e >>= fun _ => (pure ⟨⟩ : Except Error PUnit)) =
      (e.rowColumns.find? fun n => n ∉ Column.names columns).elim (.ok ⟨⟩)
        fun n => .error (.argument (.unknownColumn n)) := by
  rw [rowColumns_eq, find?_eraseDups, ← forM_requireColumn, ← composed_discard hw, Expr.composed, Editor.run,
    bind_assoc]
  rfl

theorem substituteColumns_succeeds_iff (hw : e.NarrowScalars) :
    (∃ answer, (substituteColumns columns).visit e = .ok answer) ↔
      ∀ name ∈ e.rowColumns, name ∈ Column.names columns := by
  have hdiscard := substituteColumns_discard columns hw
  constructor
  · rintro ⟨answer, hanswer⟩
    cases hfind : e.rowColumns.find? fun n => n ∉ Column.names columns with
    | none => simpa using hfind
    | some name =>
      rw [hanswer, hfind] at hdiscard
      cases hdiscard
  · intro h
    have hfind : (e.rowColumns.find? fun n => n ∉ Column.names columns) = none := by simpa using h
    rw [hfind] at hdiscard
    obtain ⟨answer, hanswer, -⟩ := except_do_eq_ok.mp hdiscard
    exact ⟨answer, hanswer⟩

theorem substituteColumns_fails_at {before after : List String} {name : String} (hw : e.NarrowScalars)
    (hcolumns : e.rowColumns = before ++ name :: after) (hbefore : ∀ n ∈ before, n ∈ Column.names columns)
    (hname : name ∉ Column.names columns) :
    (substituteColumns columns).visit e = .error (.argument (.unknownColumn name)) := by
  have hfind : (e.rowColumns.find? fun n => n ∉ Column.names columns) = some name :=
    List.find?_eq_some_iff_append.mpr ⟨by simpa using hname, before, after, hcolumns, by simpa using hbefore⟩
  have hdiscard := substituteColumns_discard columns hw
  rw [hfind] at hdiscard
  rcases except_do_eq_error.mp hdiscard with herror | ⟨answer, -, hpure⟩
  · exact herror
  · cases hpure

/-! ### The columns of the result -/

/-- What is read in the place of a column. -/
def Column.putIn (columns : List Column) : Expr → List Expr
  | .column name .row _ => (Column.find? columns name).elim [] fun c => c.expr.columnsRead
  | x => [x]

theorem flatMap_eq_of_forall₂ {α β γ : Type} {f : α → List γ} {g : β → List γ} {xs : List α} {ys : List β}
    (h : List.Forall₂ (fun x y => g y = f x) xs ys) : ys.flatMap g = xs.flatMap f := by
  induction h with
  | nil => rfl
  | cons hhead _ ih => rw [List.flatMap_cons, List.flatMap_cons, hhead, ih]

theorem columnsRead_composed (h : e.composed columns = .ok e') :
    e'.columnsRead = e.columnsRead.flatMap (Column.putIn columns) := by
  induction e using Expr.childInduction generalizing e' with
  | h e ih =>
    by_cases hk : e.kind = .column
    · cases e with
      | column name scope type =>
        rw [columnsRead_column, List.flatMap_singleton]
        cases scope with
        | row =>
          obtain ⟨c, hc, rfl⟩ := composed_field_eq_ok h
          rw [Column.putIn, hc]
          rfl
        | group =>
          cases h
          exact columnsRead_column name .group type
      | _ => cases hk
    · rw [composed_eq_rewalk hk] at h
      obtain ⟨cs, hcs, rfl⟩ := rewalk_eq_withChildren (fun _ _ => rfl) h
      have hread := ((List.forall₂_and_left _ _).mpr ⟨fun c hc => @ih c hc, hcs⟩).imp fun c c' h => h.1 h.2
      rw [columnsRead_node (e.kind_withChildren cs ▸ hk), Expr.children_withChildren hcs.length_eq.symm,
        columnsRead_node hk, List.flatMap_assoc]
      exact flatMap_eq_of_forall₂ hread

theorem Column.find?_eq_some_iff {name : String} {c : Column} (hd : (Column.names columns).Nodup) :
    Column.find? columns name = some c ↔ c ∈ columns ∧ c.name = name := by
  refine ⟨Column.find?_eq_some, ?_⟩
  rintro ⟨hc, rfl⟩
  cases hfind : Column.find? columns c.name with
  | none => exact absurd (List.mem_map_of_mem hc) (Column.find?_eq_none_iff.mp hfind)
  | some d =>
    obtain ⟨hd', hname⟩ := Column.find?_eq_some hfind
    rw [List.inj_on_of_nodup_map hd hd' hc hname]

theorem column_of_mem_columnsRead {x : Expr} (h : x ∈ e.columnsRead) :
    ∃ name scope type, x = .column name scope type := by
  have hk : x.kind = .column := of_decide_eq_true (List.mem_filter.mp h).2
  cases x with
  | column name scope type => exact ⟨name, scope, type, rfl⟩
  | _ => cases hk

theorem occurs_composed_iff {name : String} {scope : Scope} {type : DataType} (hd : (Column.names columns).Nodup)
    (h : e.composed columns = .ok e') :
    Expr.Occurs (.column name scope type) e' ↔ scope = .group ∧ Expr.Occurs (.column name scope type) e ∨
      ∃ c ∈ columns, c.name ∈ e.rowColumns ∧ Expr.Occurs (.column name scope type) c.expr := by
  rw [← mem_columnsRead, columnsRead_composed h, List.mem_flatMap]
  constructor
  · rintro ⟨read, hread, hx⟩
    obtain ⟨n, sc, t, rfl⟩ := column_of_mem_columnsRead hread
    cases sc with
    | row =>
      rw [Column.putIn] at hx
      cases hfind : Column.find? columns n with
      | none =>
        rw [hfind] at hx
        cases hx
      | some c =>
        rw [hfind] at hx
        obtain ⟨hc, rfl⟩ := Column.find?_eq_some hfind
        exact .inr ⟨c, hc, mem_rowColumns (mem_columnsRead.mp hread), mem_columnsRead.mp hx⟩
    | group =>
      cases List.mem_singleton.mp hx
      exact .inl ⟨rfl, mem_columnsRead.mp hread⟩
  · rintro (⟨rfl, ho⟩ | ⟨c, hc, hname, ho⟩)
    · exact ⟨_, mem_columnsRead.mpr ho, List.mem_singleton_self _⟩
    · obtain ⟨t, hread⟩ := mem_rowColumns_iff.mp hname
      refine ⟨_, mem_columnsRead.mpr hread, ?_⟩
      rw [Column.putIn, (Column.find?_eq_some_iff hd).mpr ⟨hc, rfl⟩]
      exact mem_columnsRead.mpr ho

/-- Collection notes every row column of a tree once, in the order of the tree. Substitution succeeds exactly if all of
these names are declared, and else fails at the first one that is not. After it the row columns are those of the
declarations of these names, and the columns of bags stand where they stood. -/
theorem collection_predicts_substitution (hw : e.NarrowScalars) (hd : (Column.names columns).Nodup) :
    ((collectColumns.visit e).run.run [] = (.ok none, e.rowColumns) ∧ e.rowColumns = e.rowReads.eraseDups ∧
      e.rowColumns.Nodup ∧ ∀ name, name ∈ e.rowColumns ↔ ∃ type, Expr.Occurs (.column name .row type) e) ∧
    ((∃ answer, (substituteColumns columns).visit e = .ok answer) ↔
      ∀ name ∈ e.rowColumns, name ∈ Column.names columns) ∧
    (∀ before name after, e.rowColumns = before ++ name :: after → (∀ n ∈ before, n ∈ Column.names columns) →
      name ∉ Column.names columns →
        (substituteColumns columns).visit e = .error (.argument (.unknownColumn name))) ∧
    ∀ answer, (substituteColumns columns).visit e = .ok answer →
      (answer.getD e).columnsRead = e.columnsRead.flatMap (Column.putIn columns) ∧
      (∀ name type, Expr.Occurs (.column name .row type) (answer.getD e) ↔
        ∃ c ∈ columns, c.name ∈ e.rowColumns ∧ Expr.Occurs (.column name .row type) c.expr) ∧
      ∀ name type, Expr.Occurs (.column name .group type) (answer.getD e) ↔
        Expr.Occurs (.column name .group type) e ∨
          ∃ c ∈ columns, c.name ∈ e.rowColumns ∧ Expr.Occurs (.column name .group type) c.expr := by
  refine ⟨⟨?_, rowColumns_eq e, ?_, fun name => mem_rowColumns_iff⟩, substituteColumns_succeeds_iff hw,
    fun before name after => substituteColumns_fails_at hw, fun answer hanswer => ?_⟩
  · rw [rowColumns_eq, collectColumns_run]
  · rw [rowColumns_eq]
    exact nodup_eraseDups e.rowReads
  · have hcomposed : e.composed columns = .ok (answer.getD e) := except_do_eq_ok.mpr ⟨answer, hanswer, rfl⟩
    refine ⟨columnsRead_composed hcomposed, fun name type => ?_, fun name type => ?_⟩
    · rw [occurs_composed_iff hd hcomposed]
      exact or_iff_right fun h => Scope.noConfusion h.1
    · rw [occurs_composed_iff hd hcomposed, and_iff_right rfl]

/-- Whether a total is above a floor and, with the amounts of the bag, above the limit for this floor and total. -/
def aboveLimit (total floor : Expr) : Expr :=
  .combine .and (.combine .greaterThan total floor)
    (.combine .lessThan
      (.scalar { Stage.base "limits" .int64 with filter := some (.combine .equal floor total) } .int64)
      (.combine .add total (.bagField "Amount" .int64)))

/-- Each of the two columns is read more than once, and inside a scalar in the other order. -/
theorem collection_predicts_substitution_aboveLimit :
    let tree := aboveLimit (.field "Total" .int64) (.field "Floor" .int64)
    let total : Column := ⟨"Total", .field "Amount" .int64⟩
    let columns := [⟨"Floor", .lit (.int 3)⟩, total]
    let result := aboveLimit (.field "Amount" .int64) (.lit (.int 3))
    tree.NarrowScalars ∧ (Column.names columns).Nodup ∧ (Column.names [total]).Nodup ∧
      tree.rowColumns = ["Total", "Floor"] ∧ (substituteColumns columns).visit tree = .ok (some result) ∧
      (∀ name type, Expr.Occurs (.column name .row type) result ↔
        ∃ c ∈ columns, c.name ∈ ["Total", "Floor"] ∧ Expr.Occurs (.column name .row type) c.expr) ∧
      (substituteColumns [total]).visit tree = .error (.argument (.unknownColumn "Floor")) := by
  intro tree total columns result
  have hw : tree.NarrowScalars := by
    simp [tree, aboveLimit, Expr.combine, Expr.field, Expr.bagField, Expr.narrowScalars_node,
      Expr.narrowScalars_scalar, Expr.children, Stage.exprs, Source.exprs, Stage.base, Grouping.exprs, Stage.width]
  have hd : (Column.names columns).Nodup := by decide
  have hd' : (Column.names [total]).Nodup := by decide
  have hread : tree.rowColumns = ["Total", "Floor"] := rfl
  have hvisit : (substituteColumns columns).visit tree = .ok (some result) := rfl
  refine ⟨hw, hd, hd', hread, hvisit, ?_, ?_⟩
  · rw [← hread]
    exact ((collection_predicts_substitution hw hd).2.2.2 _ hvisit).2.1
  · exact (collection_predicts_substitution hw hd').2.2.1 ["Total"] "Floor" [] hread (by decide) (by decide)

end PigChain
