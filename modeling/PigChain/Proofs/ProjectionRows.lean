import PigChain.Proofs.LiteralNumbers
import PigChain.Proofs.Wrapping

/-!
# Projecting the rows of a stage

The binder puts new columns before the ordering and the limit of a stage, or starts a new stage for them. Before the
ordering they must keep its keys: a key survives if the new columns have one of its name and the same definition. Two
definitions count as the same if they differ only in how numbers are written, so equal rows need that the literals of
the chain are told apart by that comparison. They are not if both zeros occur.
-/

namespace PigChain

variable {L : Value → Prop} {nested : Expr → BindM Stage} {s s' : Stage} {E : Engine} {db : Content}

/-! ### Sameness of plain expressions -/

theorem Expr.eq_of_same_column {e : Expr} {name : String} {sc : Scope} {t : DataType}
    (h : e.same (.column name sc t) = true) : e = .column name sc t := by
  cases e with
  | column name' sc' t' =>
    simp only [Expr.same, Bool.and_eq_true, beq_iff_eq] at h
    rw [h.1.1, h.1.2, h.2]
  | _ => simp [Expr.same] at h

theorem sameList_eq {xs ys : List Expr} (hs : Expr.sameList xs ys = true)
    (h : ∀ x ∈ xs, ∀ y ∈ ys, x.same y = true → x = y) : xs = ys := by
  induction xs generalizing ys with
  | nil =>
    cases ys with
    | nil => rfl
    | cons y ys => simp [Expr.sameList] at hs
  | cons x xs ih =>
    cases ys with
    | nil => simp [Expr.sameList] at hs
    | cons y ys =>
      rw [Expr.sameList, Bool.and_eq_true] at hs
      rw [h x List.mem_cons_self y List.mem_cons_self hs.1,
        ih hs.2 fun a ha b hb => h a (List.mem_cons_of_mem x ha) b (List.mem_cons_of_mem y hb)]

theorem PlainExpr.eq_of_same {g g' : Bool} {e e' : Expr} (hL : Separated L) (h : PlainExpr L g e)
    (h' : PlainExpr L g' e') (hs : e.same e' = true) : e = e' := by
  induction h generalizing e' with
  | constant hv _ =>
    cases h' with
    | constant hv' _ =>
      simp only [Expr.same, Bool.and_eq_true, beq_iff_eq] at hs
      rw [hL _ _ hv hv' hs.1, hs.2]
    | _ => simp [Expr.same] at hs
  | column _ =>
    cases h' with
    | column _ => exact Expr.eq_of_same_column hs
    | _ => simp [Expr.same] at hs
  | aggregate _ _ =>
    cases h' with
    | aggregate _ _ =>
      simp only [Expr.same, Bool.and_eq_true, beq_iff_eq] at hs
      obtain ⟨⟨⟨-, hf⟩, hcol⟩, ht⟩ := hs
      have hcols := sameList_eq hcol fun x _ y hy hxy => by
        rw [List.mem_singleton.mp hy] at hxy ⊢
        exact Expr.eq_of_same_column hxy
      rw [hf, hcols, ht]
    | _ => simp [Expr.same, Expr.sameOption] at hs
  | unary _ _ ih =>
    cases h' with
    | unary hx' _ =>
      simp only [Expr.same, Bool.and_eq_true, beq_iff_eq] at hs
      rw [hs.1.1, ih hx' hs.1.2, hs.2]
    | _ => simp [Expr.same] at hs
  | binary _ _ _ ihx ihy =>
    cases h' with
    | binary hx' hy' _ =>
      simp only [Expr.same, Bool.and_eq_true, beq_iff_eq] at hs
      rw [hs.1.1.1, ihx hx' hs.1.1.2, ihy hy' hs.1.2, hs.2]
    | _ => simp [Expr.same] at hs
  | conditional _ _ _ _ ihc ihx ihy =>
    cases h' with
    | conditional hc' hx' hy' _ =>
      simp only [Expr.same, Bool.and_eq_true, beq_iff_eq] at hs
      rw [ihc hc' hs.1.1.1, ihx hx' hs.1.1.2, ihy hy' hs.1.2, hs.2]
    | _ => simp [Expr.same] at hs
  | isNull _ ih =>
    cases h' with
    | isNull hx' =>
      rw [Expr.same] at hs
      rw [ih hx' hs]
    | _ => simp [Expr.same] at hs
  | method _ _ _ ihx ihargs =>
    cases h' with
    | method hx' hargs' _ =>
      simp only [Expr.same, Expr.sameOption, Bool.and_eq_true, beq_iff_eq] at hs
      obtain ⟨⟨⟨hx, hn⟩, hargs⟩, ht⟩ := hs
      have hlist := sameList_eq hargs fun x hx y hy hxy => ihargs x hx (hargs' y hy) hxy
      rw [ihx hx' hx, hn, hlist, ht]
    | _ => simp [Expr.same, Expr.sameOption] at hs

/-! ### Keys that survive -/

theorem precedes_congr {orderBy : List Ordering} {a a' b b' : Row}
    (ha : ∀ o ∈ orderBy, o.expr.eval E db a = o.expr.eval E db a')
    (hb : ∀ o ∈ orderBy, o.expr.eval E db b = o.expr.eval E db b') :
    Ordering.precedes E db orderBy a b = Ordering.precedes E db orderBy a' b' := by
  induction orderBy with
  | nil => rw [Ordering.precedes, Ordering.precedes]
  | cons o orderBy ih =>
    obtain ⟨x, d⟩ := o
    have hxa : x.eval E db a = x.eval E db a' := ha ⟨x, d⟩ List.mem_cons_self
    have hxb : x.eval E db b = x.eval E db b' := hb ⟨x, d⟩ List.mem_cons_self
    rw [Ordering.precedes, Ordering.precedes, hxa, hxb, ih (fun o ho => ha o (List.mem_cons_of_mem _ ho))
      (fun o ho => hb o (List.mem_cons_of_mem _ ho))]

/-- The definition of a surviving key: what computes it now is what the new columns compute under its name. -/
theorem orderingSurvives_eq_true {composed : List Column} (h : s.orderingSurvives composed = true) {o : Ordering}
    (ho : o ∈ s.orderBy) :
    ∃ name sc t definition c, o.expr = .column name sc t ∧
      (if s.projected then (s.column? name).map Column.expr else some o.expr) = some definition ∧
      c ∈ composed ∧ c.name = name ∧ c.expr.same definition = true := by
  have hkey := List.all_eq_true.mp h o ho
  split at hkey
  · next name sc t hexpr =>
    split at hkey
    · next definition hdef =>
      obtain ⟨c, hc, hcn⟩ := List.any_eq_true.mp hkey
      rw [Bool.and_eq_true, beq_iff_eq] at hcn
      exact ⟨name, sc, t, definition, c, hexpr, hdef, hc, hcn.1, hcn.2⟩
    · cases hkey
  · cases hkey

/-- A surviving key has the same datum in the row that the stage makes and in the one that the new columns make. -/
theorem eval_survivingKey {composed : List Column} (hL : Separated L) (hs : s.Regular L)
    (hnodup : (Column.names composed).Nodup) (hplain : ∀ c ∈ composed, PlainExpr L true c.expr)
    (h : s.orderingSurvives composed = true) {o : Ordering} (ho : o ∈ s.orderBy) (r : Row) :
    o.expr.eval E db (Column.image E db composed r) = o.expr.eval E db (s.image E db r) := by
  obtain ⟨name, sc, t, definition, c, hexpr, hdef, hc, rfl, hsame⟩ := orderingSurvives_eq_true h ho
  have hrow := hs.orderBy o ho
  rw [hexpr] at hrow ⊢
  cases sc with
  | group => cases hrow
  | row =>
    rw [Expr.eval, Expr.eval, Column.get_image r (Column.find?_of_nodup hnodup hc)]
    cases hp : s.projected with
    | true =>
      rw [hp, if_pos rfl] at hdef
      obtain ⟨d, hd, rfl⟩ := Option.map_eq_some_iff.mp hdef
      rw [(hplain c hc).eq_of_same hL (hs.columns hp d (Column.find?_eq_some hd).1) hsame, Stage.image, if_pos hp,
        Column.get_image r hd]
    | false =>
      rw [hp, if_neg Bool.false_ne_true, hexpr] at hdef
      cases hdef
      rw [Expr.eq_of_same_column hsame, Expr.eval, Stage.image_of_not_projected hp]

/-! ### The rows of a projection -/

theorem limitRows_map (limit : Option UInt64) (f : Row → Row) (rows : List Row) :
    limitRows limit (rows.map f) = (limitRows limit rows).map f := by
  cases limit with
  | none => rfl
  | some count => exact List.map_take.symm

theorem image_inputColumns {columns composed : List Column} (hs : s.Regular L) (hg : s.grouping = none)
    (hplain : ∀ c ∈ columns, PlainExpr L s.element.isGrouping c.expr) (h : s.inputColumns columns = .ok composed)
    (r : Row) : Column.image E db composed r = Column.image E db columns (s.image E db r) := by
  unfold Stage.inputColumns at h
  split at h
  · next hp =>
    rw [Stage.isGrouping_eq_false hs hp hg] at hplain
    rw [image_composeColumns hplain h, Stage.image, if_pos hp]
  · next hp =>
    cases h
    rw [Stage.image_of_not_projected (Bool.eq_false_of_not_eq_true hp)]

theorem rows_withColumns (s : Stage) (columns : List Column) (element : DataType) (projector : Projector) :
    ({ s with columns := columns, projected := true, element := element, projector := projector } : Stage).rows E db =
      limitRows s.limit (sortRows E db s.orderBy
        (Stage.groupRows E db s.grouping ((s.kept E db).map (Column.image E db columns)))) := by
  rw [Stage.rows_eq]
  rfl

theorem rows_mergeColumns {columns composed : List Column} {element : DataType} {projector : Projector}
    (hL : Separated L) (hs : s.Regular L) (hg : s.grouping = none) (hnodup : (Column.names columns).Nodup)
    (hplain : ∀ c ∈ columns, PlainExpr L s.element.isGrouping c.expr) (hinput : s.inputColumns columns = .ok composed)
    (h : (s.mergeColumns columns composed).outcome = .ok s') :
    ({ s' with projected := true, element := element, projector := projector } : Stage).rows E db =
      (s.rows E db).map (Column.image E db columns) := by
  rcases mergeColumns_eq_ok h with ⟨hsurvive, rfl⟩ | ⟨-, rfl⟩
  · obtain ⟨hnames, hcomposed⟩ := inputColumns_eq_ok hs hg hplain hinput
    have himage : ∀ r, Column.image E db composed r = Column.image E db columns (s.image E db r) :=
      image_inputColumns hs hg hplain hinput
    have hkey : ∀ o ∈ s.orderBy, ∀ r, o.expr.eval E db (Column.image E db columns (s.image E db r)) =
        o.expr.eval E db (s.image E db r) := by
      intro o ho r
      rw [← himage r]
      exact eval_survivingKey hL hs (by rw [hnames]; exact hnodup) hcomposed hsurvive ho r
    have hrows : ((s.kept E db).map (Column.image E db composed)) =
        ((s.kept E db).map (s.image E db)).map (Column.image E db columns) := by
      rw [List.map_map]
      exact List.map_congr_left fun r _ => himage r
    refine (rows_withColumns s composed element projector).trans ?_
    rw [Stage.rows_eq, hg, ← limitRows_map, Stage.groupRows, Stage.groupRows, hrows]
    congr 1
    refine sortRows_map fun a ha b hb => ?_
    obtain ⟨a₀, -, rfl⟩ := List.mem_map.mp ha
    obtain ⟨b₀, -, rfl⟩ := List.mem_map.mp hb
    exact precedes_congr (fun o ho => hkey o ho a₀) (fun o ho => hkey o ho b₀)
  · refine (rows_withColumns s.wrapped columns element projector).trans ?_
    rw [s.wrapped_limit, s.wrapped_orderBy, s.wrapped_grouping, Stage.groupRows, sortRows_nil, kept_wrapped]
    rfl

theorem rows_bindSelect {selector : Expr} {declared : DataType} (hL : Separated L) (hs : s.Regular L)
    (hp : FlatProjection L selector) (h : (bindSelect nested s selector declared).outcome = .ok s') :
    ∃ p body, selector = .lambda [p] body ∧
      if body.isParameter p.name && !s.isValue then s' = s
      else ∃ columns, (bindProjection nested s p.name body).outcome = .ok columns ∧
        ∀ E db, s'.rows E db = (s.rows E db).map (Column.image E db columns) := by
  obtain ⟨p, body, rfl, ⟨hid, rfl⟩ | ⟨hid, columns, element, projector, composed, s₁, hcols, -, hinput, hmerge, rfl⟩⟩ :=
    bindSelect_eq_ok h
  · refine ⟨p, body, rfl, ?_⟩
    rw [if_pos hid]
  · refine ⟨p, body, rfl, ?_⟩
    rw [if_neg (by rw [hid]; exact Bool.false_ne_true)]
    have hopen : s.toSelect.Regular L := hs.openIf _
    have hsel := hp p body rfl
    refine ⟨columns, bindProjection_openIf hs hsel hcols, fun E db => ?_⟩
    rw [← rows_openIf hs s.grouping.isSome]
    exact rows_mergeColumns hL hopen s.toSelect_grouping (bindProjection_eq_ok hcols).1
      (bindProjection_plain hopen hsel hcols) hinput hmerge

/-- A projection of a stage of a flat chain replaces each row, in its place, by the columns of the selector bound to
the rows that the stage outputs, if not both zeros are among the literals of the chain and the selector. -/
theorem select_maps_rows {chain selector : Expr} {declared : DataType} {b : Bound}
    (hL : ∀ x, L (.float x) → x.isCanonical = true) (hzero : ¬(L (.float (.zero false)) ∧ L (.float (.zero true))))
    (hc : FlatChain L chain) (hb : chain.bound.outcome = .ok b) (hp : FlatProjection L selector)
    (h : (bindSelect nested b.stage selector declared).outcome = .ok s') :
    ∃ p body, selector = .lambda [p] body ∧
      if body.isParameter p.name && !b.stage.isValue then s' = b.stage
      else ∃ columns, (bindProjection nested b.stage p.name body).outcome = .ok columns ∧
        ∀ E db, s'.rows E db = (b.stage.rows E db).map (Column.image E db columns) :=
  rows_bindSelect (separated_of_oneZero hL hzero) (regular_bound hc hb) hp h

/-! ### Samples ordered by a sum with zero -/

/-- A field of the row of a lambda over samples. -/
def sampleField (name : String) : Expr := .member (some (.parameter "r" .unknown)) name .float64

/-- The value of a sample plus one of the zeros. -/
def plusZero (negative : Bool) : Expr :=
  .binary .add (sampleField "A") (.constant (.float (.zero negative)) .float64) .float64

/-- Samples with a key, in the order of the key. -/
def keyedSamples : Expr :=
  .call none "OrderBy"
    [.call none "Select"
      [.source "samples" (.record "Sample" [⟨"A", .float64, false⟩]),
        .lambda [⟨"r", .unknown⟩] (.recordWith .unknown [("A", sampleField "A"), ("K", plusZero false)])]
      (.query .unknown),
      .lambda [⟨"r", .unknown⟩] (sampleField "K")]
    (.query .unknown)

/-- A projection that computes the key again, from one of the zeros. -/
def rekeyed (negative : Bool) : Expr :=
  .lambda [⟨"r", .unknown⟩] (.recordWith .unknown [("A", sampleField "A"), ("K", plusZero negative)])

theorem flatProjection_rekeyed {negative : Bool} (hL : L (.float (.zero negative))) :
    FlatProjection L (rekeyed negative) := by
  rintro _ _ ⟨⟩
  refine .recordWith fun m hm => ?_
  simp only [List.mem_cons, List.not_mem_nil, or_false] at hm
  rcases hm with rfl | rfl
  · exact .field
  · exact .binary .field (.constant hL rfl) rfl

theorem flatChain_keyedSamples (hL : L (.float (.zero false))) : FlatChain L keyedSamples := by
  refine .step (.step (.source (by decide)) (.select (flatProjection_rekeyed hL) rfl)) (.orderBy ?_)
  rintro _ _ ⟨⟩
  exact .field

/-- No chain is bound inside a lambda. -/
def unnested : Expr → BindM Stage := fun _ => throw (.argument .endlessNesting)

theorem select_maps_rows_keyedSamples :
    ∃ (L : Value → Prop) (b : Bound) (s' : Stage), (∀ x, L (.float x) → x.isCanonical = true) ∧
      ¬(L (.float (.zero false)) ∧ L (.float (.zero true))) ∧ FlatChain L keyedSamples ∧
      keyedSamples.bound.outcome = .ok b ∧ FlatProjection L (rekeyed false) ∧
      (bindSelect unnested b.stage (rekeyed false) .unknown).outcome = .ok s' ∧
      ∃ p body, rekeyed false = .lambda [p] body ∧
        if body.isParameter p.name && !b.stage.isValue then s' = b.stage
        else ∃ columns, (bindProjection unnested b.stage p.name body).outcome = .ok columns ∧
          ∀ E db, s'.rows E db = (b.stage.rows E db).map (Column.image E db columns) := by
  have hok : (keyedSamples.bound.outcome.bind fun b =>
      (bindSelect unnested b.stage (rekeyed false) .unknown).outcome).isOk = true := by
    decide +kernel
  obtain ⟨s', hs'⟩ := except_isOk hok
  obtain ⟨b, hb, h⟩ := except_bind_eq_ok.mp hs'
  let L : Value → Prop := fun v => v = .float (.zero false)
  have hL : ∀ x, L (.float x) → x.isCanonical = true := by
    rintro _ ⟨⟩
    decide
  have hzero : ¬(L (.float (.zero false)) ∧ L (.float (.zero true))) := by
    rintro ⟨-, ⟨⟩⟩
  have hc : FlatChain L keyedSamples := flatChain_keyedSamples rfl
  have hp : FlatProjection L (rekeyed false) := flatProjection_rekeyed rfl
  exact ⟨L, b, s', hL, hzero, hc, hb, hp, h, select_maps_rows hL hzero hc hb hp h⟩

/-- Sums of zeros, which are negative if both parts are. The negative zero comes before the other. -/
def zeroSums : Engine where
  negate x := x
  convert _ x := x
  operate _ _ x y :=
    match x, y with
    | .float a, .float b => .float (.zero (a.isNegative && b.isNegative))
    | _, _ => .null
  method _ x _ := x
  aggregate _ _ := .null
  le x y := x = .float (.zero true) || y ≠ .float (.zero true)
  le_total x y := by
    by_cases hx : x = .float (.zero true) <;> simp [hx]
  le_trans x y z hxy hyz := by
    by_cases hx : x = .float (.zero true)
    · simp [hx]
    · by_cases hy : y = .float (.zero true) <;> simp_all

/-- One sample of each zero. -/
def bothZeros : Content := fun _ => [⟨[("A", .float (.zero false))], []⟩, ⟨[("A", .float (.zero true))], []⟩]

/-- The key computed from the other zero counts as the same key, but it does not order the samples alike. -/
theorem select_reorders_rows_of_both_zeros :
    ∃ (b : Bound) (s' : Stage) (columns : List Column), FlatChain anyValue keyedSamples ∧
      keyedSamples.bound.outcome = .ok b ∧ FlatProjection anyValue (rekeyed true) ∧
      (bindSelect unnested b.stage (rekeyed true) .unknown).outcome = .ok s' ∧
      (bindProjection unnested b.stage "r"
        (.recordWith .unknown [("A", sampleField "A"), ("K", plusZero true)])).outcome = .ok columns ∧
      s'.rows zeroSums bothZeros ≠
        (b.stage.rows zeroSums bothZeros).map (Column.image zeroSums bothZeros columns) := by
  have hok : (keyedSamples.bound.outcome.bind fun b =>
      (bindSelect unnested b.stage (rekeyed true) .unknown).outcome.bind fun s' =>
      (bindProjection unnested b.stage "r"
        (.recordWith .unknown [("A", sampleField "A"), ("K", plusZero true)])).outcome.bind fun columns =>
      if (s'.rows zeroSums bothZeros).map (fun r => r.get "A") =
          ((b.stage.rows zeroSums bothZeros).map (Column.image zeroSums bothZeros columns)).map fun r => r.get "A"
      then .error (.argument .endlessNesting) else .ok ()).isOk = true := by
    decide +kernel
  obtain ⟨_, h⟩ := except_isOk hok
  obtain ⟨b, hb, h⟩ := except_bind_eq_ok.mp h
  obtain ⟨s', hs', h⟩ := except_bind_eq_ok.mp h
  obtain ⟨columns, hcolumns, h⟩ := except_bind_eq_ok.mp h
  refine ⟨b, s', columns, flatChain_keyedSamples trivial, hb, flatProjection_rekeyed trivial, hs', hcolumns, ?_⟩
  intro heq
  rw [if_pos (by rw [heq])] at h
  cases h

end PigChain
