import PigChain.Proofs.Regular
import PigChain.Proofs.Sorting

/-!
# A stage over a stage

A stage that is wrapped is the source of a new stage with no clauses of its own. The new stage has the same rows,
and a flat body is bound to them by the same expression, so a clause may be bound against either.
-/

namespace PigChain

variable {L : Value → Prop} {nested : Expr → BindM Stage} {s : Stage} {E : Engine} {db : Content}

/-! ### Declaring columns again -/

theorem Column.find?_of_nodup {columns : List Column} (hn : (Column.names columns).Nodup) {c : Column}
    (hc : c ∈ columns) : Column.find? columns c.name = some c := by
  induction columns with
  | nil => cases hc
  | cons d columns ih =>
    rw [Column.names, List.map_cons, List.nodup_cons] at hn
    rw [Column.find?, List.find?_cons]
    rcases List.mem_cons.mp hc with rfl | hc
    · rw [beq_self_eq_true]
    · have hne : (d.name == c.name) = false := by
        rw [beq_eq_false_iff_ne]
        intro heq
        exact hn.1 (heq ▸ List.mem_map_of_mem hc)
      rw [hne]
      exact ih hn.2 hc

theorem Column.find?_redeclared (columns : List Column) (name : String) :
    Column.find? (columns.map Column.redeclared) name = (Column.find? columns name).map Column.redeclared := by
  unfold Column.find?
  rw [List.find?_map]
  rfl

theorem image_redeclared {columns : List Column} (hn : (Column.names columns).Nodup) (r : Row) :
    Column.image E db (columns.map Column.redeclared) (Column.image E db columns r) =
      Column.image E db columns r := by
  have hget : ∀ c ∈ columns, (Column.image E db columns r).get c.name = c.expr.eval E db r :=
    fun c hc => Column.get_image r (Column.find?_of_nodup hn hc)
  -- The row is fixed while the columns that are still to be read get fewer.
  have hfields : ∀ cs : List Column, (∀ c ∈ cs, (Column.image E db columns r).get c.name = c.expr.eval E db r) →
      Column.evalList E db (cs.map Column.redeclared) (Column.image E db columns r) =
        Column.evalList E db cs r := by
    intro cs hcs
    induction cs with
    | nil => rw [List.map_nil, Column.evalList, Column.evalList]
    | cons c cs ih =>
      obtain ⟨name, x⟩ := c
      have hx := hcs ⟨name, x⟩ List.mem_cons_self
      rw [List.map_cons, Column.redeclared, Column.evalList, Column.evalList,
        ih fun d hd => hcs d (List.mem_cons_of_mem _ hd), Expr.field, Expr.eval, hx]
  rw [Column.image, hfields columns hget]
  rfl

/-! ### Rows -/

theorem Stage.image_of_not_projected (h : s.projected = false) (r : Row) : s.image E db r = r := by
  rw [Stage.image, if_neg (by rw [h]; exact Bool.false_ne_true)]

theorem mem_limitRows {limit : Option UInt64} {rows : List Row} {r : Row} (h : r ∈ limitRows limit rows) :
    r ∈ rows := by
  cases limit with
  | none => exact h
  | some count => exact List.mem_of_mem_take h

theorem exists_image_of_mem_rows (hp : s.projected = true) (hg : s.grouping = none) {r : Row}
    (h : r ∈ s.rows E db) : ∃ r₀, r = Column.image E db s.columns r₀ := by
  rw [Stage.rows_eq, hg] at h
  have hsorted := mem_limitRows h
  rw [sortRows, List.mem_insertionSort] at hsorted
  obtain ⟨r₀, -, heq⟩ := List.mem_map.mp hsorted
  refine ⟨r₀, ?_⟩
  rw [← heq, Stage.image, if_pos hp]

/-- A wrapped stage changes none of the rows it reads. -/
theorem image_wrapped (hn : s.projected = true → (Column.names s.columns).Nodup) {r : Row}
    (h : r ∈ s.rows E db) : s.wrapped.image E db r = r := by
  cases hc : s.projected && s.grouping.isNone with
  | false =>
    rw [Stage.wrapped_of_passing hc]
    rfl
  | true =>
    rw [Bool.and_eq_true, Option.isNone_iff_eq_none] at hc
    obtain ⟨hp, hg⟩ := hc
    obtain ⟨r₀, rfl⟩ := exists_image_of_mem_rows hp hg h
    rw [Stage.wrapped_of_projected hp hg]
    exact image_redeclared (hn hp) r₀

theorem kept_wrapped (s : Stage) : s.wrapped.kept E db = s.rows E db := by
  rw [Stage.kept, s.wrapped_filter, s.wrapped_source, Stage.filterRows, Source.rows]

theorem rows_wrapped (hn : s.projected = true → (Column.names s.columns).Nodup) :
    s.wrapped.rows E db = s.rows E db := by
  rw [Stage.rows_eq_sort E db s.wrapped_grouping s.wrapped_limit, s.wrapped_orderBy, sortRows_nil, kept_wrapped]
  exact (List.map_congr_left fun r hr => image_wrapped hn hr).trans (List.map_id _)

theorem rows_openIf (hs : s.Regular L) (closed : Bool) : (s.openIf closed).rows E db = s.rows E db := by
  cases closed with
  | false => rfl
  | true => exact rows_wrapped hs.nodup

/-! ### Bodies -/

theorem rowColumn_wrapped (hs : s.Regular L) : rowColumn s.wrapped = rowColumn s := by
  cases hc : s.projected && s.grouping.isNone with
  | true =>
    rw [Bool.and_eq_true, Option.isNone_iff_eq_none] at hc
    obtain ⟨hp, hg⟩ := hc
    rw [Stage.wrapped_of_projected hp hg]
    unfold rowColumn Stage.isValue Stage.isPrimitive
    cases hcols : s.columns with
    | nil => simp [hp, hg, Stage.after]
    | cons c cs => simp [hp, hg, Stage.after, Column.redeclared, Expr.field, Expr.type]
  | false =>
    rw [Stage.wrapped_of_passing hc]
    have hvalue : s.isValue = false := by
      unfold Stage.isValue
      rw [hc]
      rfl
    have hprim : (Stage.after s).isPrimitive = s.isPrimitive := by
      show s.element.isPrimitive = (!s.projected && s.grouping.isNone && s.element.isPrimitive)
      cases hg : s.grouping with
      | none =>
        rw [hg, Option.isNone_none, Bool.and_true] at hc
        rw [hc]
        rfl
      | some g =>
        -- A group is no primitive value.
        have hgroup := hs.grouped (by rw [hg]; rfl)
        cases helem : s.element with
        | grouping key element => simp [DataType.isPrimitive]
        | _ => rw [helem] at hgroup; cases hgroup
    unfold rowColumn
    rw [hvalue, hprim]
    rfl

theorem fieldColumn_wrapped (hs : s.Regular L) : fieldColumn s.wrapped = fieldColumn s := by
  funext name declared
  cases hc : s.projected && s.grouping.isNone with
  | true =>
    rw [Bool.and_eq_true, Option.isNone_iff_eq_none] at hc
    obtain ⟨hp, hg⟩ := hc
    rw [Stage.wrapped_of_projected hp hg]
    unfold fieldColumn Stage.column?
    simp only [Stage.after, hp, if_true, Column.find?_redeclared]
    cases Column.find? s.columns name <;> rfl
  | false =>
    rw [Stage.wrapped_of_passing hc]
    cases hp : s.projected with
    | false =>
      unfold fieldColumn
      simp only [Stage.after, hp, Bool.false_eq_true, if_false]
    | true =>
      -- What is left is a projected stage with groups, whose columns are out of sight.
      have hgroup : s.element.isGrouping = true := by
        rw [hp, Bool.true_and] at hc
        apply hs.grouped
        cases hg : s.grouping with
        | none => rw [hg] at hc; cases hc
        | some g => rfl
      unfold fieldColumn
      cases helem : s.element with
      | grouping key element => simp only [Stage.after, helem]
      | _ => rw [helem] at hgroup; cases hgroup

theorem readBody_openIf (hs : s.Regular L) (closed : Bool) (row : String) (body : Expr) :
    readBody (s.openIf closed) row body = readBody s row body := by
  cases closed with
  | false => rfl
  | true =>
    unfold readBody
    rw [Stage.openIf, if_pos rfl,
      rowReader_congr (rowColumn_wrapped hs) (fieldColumn_wrapped hs) s.wrapped_element row]

/-- A flat body is bound against a stage as it is against the stage that is opened over it. -/
theorem bindBody_openIf (hs : s.Regular L) {closed : Bool} {row : String} {body : Expr}
    (h : FlatBody L row body) :
    (bindBody nested (s.openIf closed) row body).outcome.map BoundBody.expr =
      (bindBody nested s row body).outcome.map BoundBody.expr := by
  obtain ⟨noted, -, hout⟩ := @bindBody_flat L nested (s.openIf closed) row body (hs.openIf closed).noted h
  obtain ⟨noted', -, hout'⟩ := @bindBody_flat L nested s row body hs.noted h
  rw [hout, hout', readBody_openIf hs]
  cases readBody s row body <;> rfl

theorem exists_bound_of_map_eq {bound : BoundBody} {x y : Except Error BoundBody}
    (h : x.map BoundBody.expr = y.map BoundBody.expr) (hx : x = .ok bound) :
    ∃ bound', y = .ok bound' ∧ bound'.expr = bound.expr := by
  rw [hx] at h
  exact except_map_eq_ok.mp h.symm

/-- Columns depend on the stage through the bound bodies alone. -/
theorem bindColumns_congr {s s' : Stage} {row : String} {parts : List (String × Expr)}
    (h : ∀ q ∈ parts, (bindBody nested s row q.2).outcome.map BoundBody.expr =
      (bindBody nested s' row q.2).outcome.map BoundBody.expr) (done : List Column) :
    (bindColumns nested s row parts done).outcome = (bindColumns nested s' row parts done).outcome := by
  induction parts generalizing done with
  | nil => rfl
  | cons q parts ih =>
    obtain ⟨name, x⟩ := q
    rw [bindColumns, bindColumns]
    by_cases hname : (done.any fun c => c.name == name) = true
    · rw [if_pos hname, if_pos hname]
      rfl
    · rw [if_neg hname, if_neg hname, Traced.outcome_bind, Traced.outcome_bind]
      have hx : (bindBody nested s row x).outcome.map BoundBody.expr =
          (bindBody nested s' row x).outcome.map BoundBody.expr := h (name, x) List.mem_cons_self
      have hrest := ih fun q hq => h q (List.mem_cons_of_mem _ hq)
      cases ho : (bindBody nested s row x).outcome with
      | error err =>
        rw [ho] at hx
        cases ho' : (bindBody nested s' row x).outcome with
        | error err' =>
          rw [ho'] at hx
          cases hx
          -- Both sides are this error; the continuations, which differ, are not compared.
          have hfail : ∀ rest : BoundBody → Except Error (List Column), (Except.error err).bind rest = .error err :=
            fun _ => rfl
          rw [hfail, hfail]
        | ok bound' => rw [ho'] at hx; cases hx
      | ok bound =>
        obtain ⟨bound', ho', hexpr⟩ := exists_bound_of_map_eq hx ho
        rw [ho']
        show (bindColumns nested s row parts (done ++ [⟨name, bound.expr⟩])).outcome =
          (bindColumns nested s' row parts (done ++ [⟨name, bound'.expr⟩])).outcome
        rw [hexpr]
        exact hrest _

theorem bindProjection_openIf (hs : s.Regular L) {closed : Bool} {row : String} {body : Expr}
    (h : FlatSelector L row body) {columns : List Column}
    (hc : (bindProjection nested (s.openIf closed) row body).outcome = .ok columns) :
    (bindProjection nested s row body).outcome = .ok columns := by
  unfold bindProjection at hc ⊢
  rw [Traced.outcome_bind_eq_ok] at hc ⊢
  obtain ⟨parts, hparts, hc⟩ := hc
  rw [Traced.outcome_silent] at hparts
  refine ⟨parts, hparts, ?_⟩
  cases parts with
  | some parts =>
    have hcongr : (bindColumns nested (s.openIf closed) row parts []).outcome =
        (bindColumns nested s row parts []).outcome := by
      refine bindColumns_congr (fun q hq => bindBody_openIf hs (h q.2 ?_)) []
      rw [namedParts_eq_some hparts]
      exact List.mem_map_of_mem hq
    exact hcongr.symm.trans hc
  | none =>
    have hbody : FlatBody L row body := h body (by rw [namedParts_eq_none hparts]; exact List.mem_singleton_self body)
    simp only [Traced.outcome_bind_eq_ok] at hc ⊢
    obtain ⟨bound, hbound, hc⟩ := hc
    obtain ⟨bound', hbound', hexpr⟩ := exists_bound_of_map_eq (bindBody_openIf hs hbody) hbound
    exact ⟨bound', hbound', by rw [hexpr]; exact hc⟩

end PigChain
