import PigChain.Proofs.AggregatedRows
import PigChain.Proofs.DistinctColumns
import PigChain.Proofs.GroupColumns
import PigChain.Proofs.KeyMembers

/-!
# Counting the rows of a group

A count with a predicate is bound in two ways. Over a chain the rows are filtered first and what is left is counted.
Over a group the predicate, which must be a field, becomes the column that is counted: the rows that have the field are
counted, and not those on which it is true. The two agree on a group exactly if the field is true wherever it is there.
-/

namespace PigChain

variable {nested : Expr → BindM Stage} {s s' : Stage} {E : Engine} {db : Content} {row name : String}

/-! ### Counts -/

/-- A count is the number of the data that are there. -/
def Engine.CountsPresent (E : Engine) : Prop :=
  ∀ xs, E.aggregate "COUNT" xs = .int (xs.countP fun x => decide (x ≠ .null))

/-- What a count of a column of a bag finds in a row: the empty name stands for the whole row. -/
def Row.found (name : String) (r : Row) : Datum :=
  if name = "" then .tuple (r.fields.map Prod.snd) else r.get name

/-- The field is there. -/
def Row.has (name : String) (r : Row) : Bool := decide (r.found name ≠ .null)

/-- The field is true. -/
def Row.holds (name : String) (r : Row) : Bool := (r.get name).isTrue

theorem Row.has_empty_iff {r : Row} : r.has "" = true ↔ r.fields ≠ [] := by
  cases hf : r.fields with
  | nil => simp [Row.has, Row.found, hf, Datum.tuple]
  | cons f fields => simp [Row.has, Row.found, hf, Datum.tuple]

/-- A field that is true is there; a whole row is there if it has any field. -/
theorem Row.has_of_holds {r : Row} (h : r.holds name = true) : r.has name = true := by
  have htrue : r.get name = .bool true := of_decide_eq_true h
  by_cases hname : name = ""
  · subst hname
    refine Row.has_empty_iff.mpr fun hnil => ?_
    rw [Row.get, hnil] at htrue
    cases htrue
  · rw [Row.has, Row.found, if_neg hname, htrue]
    rfl

theorem Engine.CountsPresent.column (hE : E.CountsPresent) (g : Row) (name : String) :
    E.aggregate "COUNT" (g.bagColumn name) = .int (g.bag.countP (Row.has name)) := by
  have hcolumn : g.bagColumn name = g.bag.map (Row.found name) := rfl
  rw [hE, hcolumn, List.countP_map]
  rfl

theorem Engine.CountsPresent.rows (hE : E.CountsPresent) (g : Row) (h : ∀ r ∈ g.bag, r.fields ≠ []) :
    E.aggregate "COUNT" (g.bagColumn "") = .int g.bag.length := by
  rw [hE.column, List.countP_eq_length.mpr fun r hr => Row.has_empty_iff.mpr (h r hr)]

/-- Of two conditions, one stronger than the other, as many members satisfy both exactly if they are the same. -/
theorem countP_eq_countP_iff {α : Type} {p q : α → Bool} {xs : List α} (h : ∀ x ∈ xs, q x = true → p x = true) :
    xs.countP p = xs.countP q ↔ ∀ x ∈ xs, p x = true → q x = true := by
  induction xs with
  | nil => simp
  | cons x xs ih =>
    have hrest : ∀ y ∈ xs, q y = true → p y = true := fun y hy => h y (List.mem_cons_of_mem x hy)
    have hle : xs.countP q ≤ xs.countP p := List.countP_mono_left hrest
    have hx := h x List.mem_cons_self
    rw [List.countP_cons, List.countP_cons, List.forall_mem_cons, ← ih hrest]
    cases hp : p x with
    | true =>
      cases hq : q x with
      | true => simp
      | false =>
        simp only [if_true, Bool.false_eq_true, if_false, forall_const, false_and, iff_false]
        omega
    | false =>
      have hq : q x = false := by
        cases hq : q x with
        | true => rw [hx hq] at hp; cases hp
        | false => rfl
      simp [hq]

/-! ### Counts of a chain -/

/-- A predicate that is a field keeps the rows on which the field is true. -/
theorem rows_bindFilter_field {predicate : Expr} (hs : s.DistinctWithin) (hplain : s.element.isGrouping = false)
    (hselects : predicate.SelectsField name) (h : (bindFilter nested s predicate).outcome = .ok s') :
    s'.rows E db = (s.rows E db).filter (Row.holds name) := by
  obtain ⟨p, t, type, rfl⟩ := hselects
  obtain ⟨q, body, bound, heq, hbound, hmerge⟩ := bindFilter_eq_ok h
  cases heq
  have hopen : s.toFilter.DistinctWithin := hs.openIf _
  have helement : s.toFilter.element = s.element := (s.openIf_rows _).1
  obtain ⟨u, hexpr⟩ : ∃ u, bound.expr = .column name .row u := by
    rcases fieldColumn_eq_ok (bindBody_rowField hbound) with ⟨key, element, hgroup, -⟩ | ⟨-, c, -, hc⟩ |
      ⟨-, _, f, -, -, hf⟩ | ⟨-, -, -, hf⟩
    · rw [← helement, hgroup] at hplain
      cases hplain
    · exact ⟨_, hc⟩
    · exact ⟨_, hf⟩
    · exact ⟨_, hf⟩
  have hrows : s.toFilter.rows E db = s.rows E db := by
    unfold Stage.toFilter Stage.openIf
    split
    · exact rows_wrapped fun _ => hs.self
    · rfl
  rw [← hrows, rows_mergeFilter_of_eval (fun _ => hopen.self) s.toFilter_grouping s.toFilter_limit ?_ hmerge]
  · refine List.filter_congr fun r _ => ?_
    rw [hexpr, Expr.eval]
    rfl
  · intro _ e r he
    rw [hexpr] at he ⊢
    obtain ⟨c, hc, rfl⟩ := composed_field_eq_ok he
    rw [Expr.eval, Column.get_image r hc]

theorem bag_of_mem_groupAll {rows : List Row} {all : Row} (h : all ∈ groupAll rows) : all.bag = rows := by
  unfold groupAll at h
  split at h
  · cases h
  · rw [List.mem_singleton.mp h]

/-- A count over a chain is one row with the number of rows on which the field is true, or no row if there are none. -/
theorem rows_count_field {predicate : Expr} {declared : DataType} (hs : s.DistinctWithin)
    (hplain : s.element.isGrouping = false) (hselects : predicate.SelectsField name) (hE : E.CountsPresent)
    (hfields : ∀ r ∈ s.rows E db, r.fields ≠ [])
    (h : (bindAggregate nested s "Count" "COUNT" (some predicate) declared).outcome = .ok s') :
    s'.rows E db = (groupAll ((s.rows E db).filter (Row.holds name))).map fun all => .count all.bag := by
  obtain ⟨s₁, bag, hinput, rfl⟩ := bindAggregate_eq_ok h
  rcases aggregateInput_eq_ok hinput with ⟨-, rfl, ⟨⟨⟩, -⟩ | ⟨x, hx, hfilter⟩⟩ | ⟨hcount, -⟩
  · cases hx
    have hrows : s₁.rows E db = (s.rows E db).filter (Row.holds name) :=
      rows_bindFilter_field hs hplain hselects hfilter
    rw [rows_aggregateStage fun _ => (bindFilter_distinct hs hfilter).self, hrows]
    refine List.map_congr_left fun all hall => ?_
    rw [hE.rows all fun r hr => ?_]
    · rfl
    · rw [bag_of_mem_groupAll hall] at hr
      exact hfields r (List.mem_filter.mp hr).1
  · exact absurd rfl hcount

/-! ### Counts of a group -/

/-- A count of a group by a predicate is the number of rows that have the field that the predicate is. It is the number
of rows on which the predicate is true exactly if the field is true in every row that has it. That number is what the
count by the same predicate over a chain of those rows comes to, if there are such rows, and else there is no count. -/
theorem group_count_counts_present {object : Option Expr} {predicate e : Expr} {args : List Expr} {declared : DataType}
    (hrow : isRow row object = true)
    (h : Yields ((rowBinder nested s row).run (.call object "Count" (predicate :: args) declared)) e) :
    ∃ name, predicate.SelectsField name ∧ ∀ E db g, E.CountsPresent →
      e.eval E db g = .int (g.bag.countP (Row.has name)) ∧
      (e.eval E db g = .int (g.bag.countP (Row.holds name)) ↔
        ∀ r ∈ g.bag, r.has name = true → r.holds name = true) ∧
      ∀ chain type b b', chain.Stageless → chain.bound.outcome = .ok b → b.stage.element.isGrouping = false →
        (Expr.call none "Count" [chain, predicate] type).bound.outcome = .ok b' →
        b.stage.rows E db = g.bag → (∀ r ∈ g.bag, r.fields ≠ []) →
        b'.stage.rows E db = (groupAll (g.bag.filter (Row.holds name))).map fun all => .count all.bag := by
  have hgroup : groupAggregate s "Count" (predicate :: args) declared = .ok e :=
    groupAggregate_of_yields hrow (show Yields ((rowBinder nested (s.openIf false) row).run _) e from h)
  obtain ⟨-, -, f, -, -, hselects, rfl⟩ := groupAggregate_selects rfl hgroup
  refine ⟨f.name, hselects, fun E db g hE => ?_⟩
  have heval : (Expr.function "COUNT" [.bagField f.name f.type] (aggregateType "Count" declared f.type)).eval E db g =
      .int (g.bag.countP (Row.has f.name)) := by
    rw [Expr.function, Expr.bagField, Expr.eval]
    exact hE.column g f.name
  refine ⟨heval, ?_, fun chain type b b' hc hb hplain hb' hrows hfields => ?_⟩
  · rw [heval, Datum.int.injEq, Int.natCast_inj]
    exact countP_eq_countP_iff fun r _ => Row.has_of_holds
  · rw [bound_eq_bindWith] at hb hb'
    obtain ⟨b₀, hb₀, happ⟩ := bindWith_call_eq_ok hb'
    obtain rfl : b₀ = b := Except.ok.inj (hb₀.symm.trans hb)
    obtain ⟨s', hs', rfl⟩ := happ.aggregate_of rfl
    have hdistinct : b₀.stage.DistinctWithin := stageInvariant_distinct.bindWith hc hb
    rw [← hrows] at hfields ⊢
    exact rows_count_field hdistinct hplain hselects hE hfields hs'

/-! ### Paid invoices -/

def invoiceType : DataType := .record "Invoice" [⟨"Customer", .string, false⟩, ⟨"Paid", .bool, true⟩]

def invoices : Expr := .source "invoices" invoiceType

def invoicesByCustomer : Expr :=
  .call none "GroupBy"
    [invoices, .lambda [⟨"r", invoiceType⟩] (.member (some (.parameter "r" invoiceType)) "Customer" .string)]
    (.query .unknown)

def isPaid : Expr := .lambda [⟨"x", invoiceType⟩] (.member (some (.parameter "x" invoiceType)) "Paid" .bool)

/-- The number of paid invoices of a group. -/
def paidOfGroup : Expr := .call (some (.parameter "g" .unknown)) "Count" [isPaid] .int64

/-- The number of paid invoices. -/
def paidOfAll : Expr := .call none "Count" [invoices, isPaid] .int64

/-- The invoices of one customer. -/
def annGroup (paid : List Datum) : Row :=
  ⟨[("group", .text "Ann")], paid.map fun x => ⟨[("Customer", .text "Ann"), ("Paid", x)], []⟩⟩

/-- Data in their order of creation, with counts of what is there. -/
def presentCounts : Engine where
  negate x := x
  convert _ x := x
  operate _ _ x _ := x
  method _ x _ := x
  aggregate _ xs := .int (xs.countP fun x => decide (x ≠ .null))
  le _ _ := true
  le_total _ _ := rfl
  le_trans _ _ _ _ _ := rfl

theorem countsPresent_presentCounts : presentCounts.CountsPresent := fun _ => rfl

theorem stageless_invoices : invoices.Stageless := by
  intro y hy
  cases hy with
  | self => rfl
  | child hmem _ => cases hmem

theorem selectsField_isPaid {name : String} (h : isPaid.SelectsField name) : name = "Paid" := by
  obtain ⟨p, t, type, hlambda⟩ := h
  unfold isPaid at hlambda
  cases hlambda
  rfl

theorem group_count_counts_present_annGroup :
    ∃ b e b', invoicesByCustomer.bound.outcome = .ok b ∧ paidOfAll.bound.outcome = .ok b' ∧
      Yields ((rowBinder nestedStage b.stage "g").run paidOfGroup) e ∧ presentCounts.CountsPresent ∧
      e.eval presentCounts (fun _ => (annGroup [.bool true, .null]).bag) (annGroup [.bool true, .null]) =
        .int ((annGroup [.bool true, .null]).bag.countP (Row.holds "Paid")) ∧
      b'.stage.rows presentCounts (fun _ => (annGroup [.bool true, .null]).bag) =
        [.count ((annGroup [.bool true, .null]).bag.filter (Row.holds "Paid"))] := by
  obtain ⟨b, hb, e, hyields⟩ : ∃ b, invoicesByCustomer.bound.outcome = .ok b ∧
      ∃ e, Yields ((rowBinder nestedStage b.stage "g").run paidOfGroup) e := ⟨_, rfl, _, [], [], rfl⟩
  obtain ⟨b₀, hb₀, hplain, hrows⟩ : ∃ b₀, invoices.bound.outcome = .ok b₀ ∧ b₀.stage.element.isGrouping = false ∧
      b₀.stage.rows presentCounts (fun _ => (annGroup [.bool true, .null]).bag) =
        (annGroup [.bool true, .null]).bag := ⟨_, rfl, rfl, by rfl⟩
  obtain ⟨b', hb'⟩ : ∃ b', paidOfAll.bound.outcome = .ok b' := ⟨_, rfl⟩
  obtain ⟨name, hname, hcount⟩ := group_count_counts_present rfl hyields
  cases selectsField_isPaid hname
  obtain ⟨-, hagree, hchain⟩ := hcount presentCounts (fun _ => (annGroup [.bool true, .null]).bag)
    (annGroup [.bool true, .null]) countsPresent_presentCounts
  exact ⟨b, e, b', hb, hb', hyields, countsPresent_presentCounts, hagree.mpr (by decide),
    hchain invoices .int64 b₀ b' stageless_invoices hb₀ hplain hb' hrows (by decide)⟩

/-- Of two invoices, one of them paid, the group counts both. -/
theorem group_count_counts_false :
    ∃ b b', invoicesByCustomer.bound.outcome = .ok b ∧ paidOfAll.bound.outcome = .ok b' ∧
      Yields ((rowBinder nestedStage b.stage "g").run paidOfGroup) (.function "COUNT" [.bagField "Paid" .bool] .int64) ∧
      (Expr.function "COUNT" [.bagField "Paid" .bool] .int64).eval presentCounts
        (fun _ => (annGroup [.bool true, .bool false]).bag) (annGroup [.bool true, .bool false]) = .int 2 ∧
      (annGroup [.bool true, .bool false]).bag.countP (Row.holds "Paid") = 1 ∧
      (b'.stage.rows presentCounts fun _ => (annGroup [.bool true, .bool false]).bag).map Row.fields =
        [[("value", .int 1)]] :=
  ⟨_, _, rfl, rfl, ⟨[], [], rfl⟩, rfl, rfl, by rfl⟩

end PigChain
