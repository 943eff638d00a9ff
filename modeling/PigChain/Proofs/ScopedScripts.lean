import PigChain.Proofs.FilterRows
import PigChain.Proofs.Lowering
import PigChain.Proofs.Scoping

/-!
# Scripts of well scoped stages

A script reads a bag only where the relation before it has one: lowering keeps track of the bag clause by clause, and the
clauses of a well scoped stage agree with it.
-/

namespace PigChain

variable {L : Value → Prop} {base : List String} {s : Stage} {e : Expr}

/-! ### Lowering and bags -/

/-- A computation that reads no bag that is not there, and whose result satisfies `P`. -/
def Lowers {α : Type} (x : Lower α) (P : α → Prop) : Prop :=
  ∀ statements, match x.run statements with
    | .ok (a, _) => P a
    | .error err => ∀ name, err ≠ .argument (.bagOutsideGroup name)

namespace Lowers

variable {α β : Type} {P : α → Prop} {Q : β → Prop}

theorem pure {a : α} (h : P a) : Lowers (Pure.pure a) P := fun _ => h

theorem bind {x : Lower α} {f : α → Lower β} (hx : Lowers x P) (hf : ∀ a, P a → Lowers (f a) Q) :
    Lowers (x >>= f) Q := by
  intro statements
  have hrun := hx statements
  rw [StateT.run_bind]
  cases h : x.run statements with
  | error err =>
    rw [h] at hrun
    exact hrun
  | ok a =>
    rw [h] at hrun
    exact hf a.1 hrun a.2

theorem imp {x : Lower α} {P' : α → Prop} (hx : Lowers x P) (h : ∀ a, P a → P' a) : Lowers x P' := by
  intro statements
  have hrun := hx statements
  split
  · next a _ heq =>
    rw [heq] at hrun
    exact h a hrun
  · next err heq =>
    rw [heq] at hrun
    exact hrun

theorem lift {x : Except Error α} (h : ∀ name, x ≠ .error (.argument (.bagOutsideGroup name))) :
    Lowers (liftM x : Lower α) fun _ => True := by
  intro statements
  cases x with
  | error err => exact fun name he => h name (congrArg Except.error he)
  | ok a => trivial

theorem emit (s : Statement) : Lowers (Lower.emit s) fun _ => True := fun _ => trivial

end Lowers

theorem callTerm_ne {method : String} {object : Option Term} {args : List Term} (name : String) :
    callTerm method object args ≠ .error (.argument (.bagOutsideGroup name)) := by
  unfold callTerm
  split
  · split <;> exact fun h => nomatch h
  · split <;> exact fun h => nomatch h
  · split <;> exact fun h => nomatch h
  · exact fun h => nomatch h

theorem lowers_list {bag : Option Nat} {xs : List Expr} (h : ∀ x ∈ xs, Lowers (x.lower bag) fun _ => True) :
    Lowers (Expr.lowerList bag xs) fun _ => True := by
  induction xs with
  | nil =>
    rw [Expr.lowerList]
    exact .pure trivial
  | cons x xs ih =>
    rw [Expr.lowerList]
    refine (h x List.mem_cons_self).bind fun _ _ => ?_
    exact (ih fun y hy => h y (List.mem_cons_of_mem x hy)).bind fun _ _ => .pure trivial

/-- A plain expression is lowered where there is a bag, if it reads one. -/
theorem lowers_plain {g : Bool} {bag : Option Nat} (h : PlainExpr L g e) (hbag : g = true → bag.isSome = true) :
    Lowers (e.lower bag) fun _ => True := by
  induction h with
  | @constant v t =>
    rw [Expr.lower]
    refine .lift fun name he => ?_
    cases v <;> cases he
  | column =>
    rw [Expr.lower]
    exact .lift fun name he => by cases he
  | @aggregate function name t type hg =>
    obtain ⟨relation, rfl⟩ := Option.isSome_iff_exists.mp (hbag hg)
    rw [Expr.lower]
    refine Lowers.bind (P := fun _ => True) (lowers_list fun x hx => ?_) fun args _ => .lift callTerm_ne
    rw [List.mem_singleton.mp hx, Expr.lower]
    exact .lift fun name he => by cases he
  | @unary op x t _ _ ih =>
    cases op with
    | not =>
      rw [Expr.lower]
      exact ih.bind fun _ _ => .pure trivial
    | negate =>
      rw [Expr.lower]
      exact ih.bind fun _ _ => .pure trivial
    | convert =>
      rw [Expr.lower]
      cases t.cast? with
      | none => exact fun _ name he => by cases he
      | some c => exact ih.bind fun _ _ => .pure trivial
  | binary _ _ _ ihx ihy =>
    rw [Expr.lower]
    exact ihx.bind fun _ _ => ihy.bind fun _ _ => .pure trivial
  | conditional _ _ _ _ ihc ihx ihy =>
    rw [Expr.lower]
    exact ihc.bind fun _ _ => ihx.bind fun _ _ => ihy.bind fun _ _ => .pure trivial
  | isNull _ ih =>
    rw [Expr.lower]
    exact ih.bind fun _ _ => .pure trivial
  | method _ _ _ ihx ihargs =>
    rw [Expr.lower]
    exact (lowers_list ihargs).bind fun _ _ => ihx.bind fun _ _ => .lift callTerm_ne

theorem lowers_columns {bag : Option Nat} {columns : List Column}
    (h : ∀ c ∈ columns, Lowers (c.expr.lower bag) fun _ => True) :
    Lowers (Column.lowerList bag columns) fun _ => True := by
  induction columns with
  | nil =>
    rw [Column.lowerList]
    exact .pure trivial
  | cons c columns ih =>
    obtain ⟨name, x⟩ := c
    rw [Column.lowerList]
    have hx : Lowers (x.lower bag) fun _ => True := h _ List.mem_cons_self
    exact hx.bind fun _ _ => (ih fun d hd => h d (List.mem_cons_of_mem _ hd)).bind fun _ _ => .pure trivial

theorem lowers_orderings {bag : Option Nat} {orderBy : List Ordering}
    (h : ∀ o ∈ orderBy, Lowers (o.expr.lower bag) fun _ => True) :
    Lowers (Ordering.lowerList bag orderBy) fun _ => True := by
  induction orderBy with
  | nil =>
    rw [Ordering.lowerList]
    exact .pure trivial
  | cons o orderBy ih =>
    obtain ⟨x, d⟩ := o
    rw [Ordering.lowerList]
    have hx : Lowers (x.lower bag) fun _ => True := h _ List.mem_cons_self
    exact hx.bind fun _ _ => (ih fun d hd => h d (List.mem_cons_of_mem _ hd)).bind fun _ _ => .pure trivial

theorem lowers_filter {r : Relation} {filter : Option Expr} (h : ∀ x ∈ filter, Lowers (x.lower r.bag) fun _ => True) :
    Lowers (Stage.lowerFilter r filter) fun r' => r'.bag = r.bag := by
  cases filter with
  | none =>
    rw [Stage.lowerFilter]
    exact .pure rfl
  | some x =>
    rw [Stage.lowerFilter]
    exact (h x rfl).bind fun _ _ => (Lowers.emit _).bind fun _ _ => .pure rfl

theorem lowers_grouping {r : Relation} {grouping : Option Grouping}
    (h : ∀ x ∈ Grouping.exprs grouping, Lowers (x.lower r.bag) fun _ => True) :
    Lowers (Stage.lowerGrouping r grouping) fun r' => r'.bag.isSome = (grouping.isSome || r.bag.isSome) := by
  rcases grouping with _ | _ | keys
  · rw [Stage.lowerGrouping]
    exact .pure rfl
  · rw [Stage.lowerGrouping]
    exact (Lowers.emit _).bind fun _ _ => .pure rfl
  · rw [Stage.lowerGrouping]
    exact (lowers_list h).bind fun _ _ => (Lowers.emit _).bind fun _ _ => .pure rfl

theorem lowers_made {r : Relation} {projected : Bool} {columns : List Column}
    (h : projected = true → ∀ c ∈ columns, Lowers (c.expr.lower r.bag) fun _ => True) :
    Lowers (Stage.lowerColumns r projected columns) fun r' => r'.bag.isSome = (!projected && r.bag.isSome) := by
  cases projected with
  | true =>
    refine (lowers_columns (h rfl)).bind fun _ _ => ?_
    exact (Lowers.emit _).bind fun _ _ => .pure rfl
  | false => exact .pure rfl

theorem lowers_order {r : Relation} {orderBy : List Ordering}
    (h : ∀ o ∈ orderBy, Lowers (o.expr.lower r.bag) fun _ => True) :
    Lowers (Stage.lowerOrder r orderBy) fun r' => r'.bag = r.bag := by
  refine (lowers_orderings h).bind fun keys _ => ?_
  cases keys.isEmpty with
  | true => exact .pure rfl
  | false => exact (Lowers.emit _).bind fun _ _ => .pure rfl

theorem lowers_limit (r : Relation) (limit : Option UInt64) :
    Lowers (Stage.lowerLimit r limit) fun r' => r'.bag = r.bag := by
  cases limit with
  | none => exact .pure rfl
  | some count => exact (Lowers.emit _).bind fun _ _ => .pure rfl

/-- The clauses of one stage, over an input that is lowered to a relation with a bag exactly if its rows have one. -/
theorem lowers_clauses (h : s.Scoped L base) (hsource : Lowers s.source.lower fun r => r.bag.isSome = s.source.hasBag) :
    Lowers s.lower fun r => r.bag.isSome = s.hasBag := by
  rw [Stage.lower_eq]
  refine hsource.bind fun r hr => ?_
  have hfilter : ∀ x ∈ s.filter, Lowers (x.lower r.bag) fun _ => True := fun x hx =>
    lowers_plain (h.filter x hx).plain fun hb => hr.trans hb
  refine (lowers_filter hfilter).bind fun r₁ hr₁ => ?_
  rw [← hr₁] at hr
  have hcolumns : s.projected = true → ∀ c ∈ s.columns, Lowers (c.expr.lower r₁.bag) fun _ => True := fun hp c hc =>
    lowers_plain (h.columns hp c hc).plain fun hb => hr.trans hb
  refine (lowers_made hcolumns).bind fun r₂ hr₂ => ?_
  rw [hr] at hr₂
  have hkeys : ∀ x ∈ Grouping.exprs s.grouping, Lowers (x.lower r₂.bag) fun _ => True := fun x hx =>
    lowers_plain (h.grouping x hx).plain fun hb => hr₂.trans hb
  refine (lowers_grouping hkeys).bind fun r₃ hr₃ => ?_
  have hbag : r₃.bag.isSome = s.hasBag := by rw [hr₃, hr₂, Stage.hasBag_eq, Stage.passesBag]
  have horder : ∀ o ∈ s.orderBy, Lowers (o.expr.lower r₃.bag) fun _ => True := fun o ho =>
    lowers_plain (h.orderBy o ho).plain fun hb => hbag.trans hb
  refine (lowers_order horder).bind fun r₄ hr₄ => ?_
  exact (lowers_limit r₄ s.limit).imp fun r₅ hr₅ => by rw [hr₅, hr₄, hbag]

mutual

/-- The relation that a stage leaves has a bag exactly if its rows do. -/
theorem lowers_stage : ∀ {s : Stage}, (∀ t : Stage, t.Within s → t.Scoped L base) →
    Lowers s.lower fun r => r.bag.isSome = s.hasBag
  | ⟨_, _, _, _, _, _, _, _, _⟩, h => lowers_clauses (h _ .self) (lowers_source fun _ hi t ht => h t (.inner hi ht))

theorem lowers_source : ∀ {s : Source}, (∀ inner, s = .stage inner → ∀ t : Stage, t.Within inner → t.Scoped L base) →
    Lowers s.lower fun r => r.bag.isSome = s.hasBag
  | .base name, _ => by
    rw [Source.lower]
    exact (Lowers.emit _).bind fun _ _ => .pure rfl
  | .stage inner, h => by
    rw [Source.lower]
    exact lowers_stage (h inner rfl)

end

theorem script_ne_of_scoped (h : ∀ t : Stage, t.Within s → t.Scoped L base) (name : String) :
    s.script ≠ .error (.argument (.bagOutsideGroup name)) := by
  have hlower := lowers_stage h []
  unfold Stage.script
  cases hrun : s.lower.run [] with
  | ok a => exact fun he => nomatch he
  | error err =>
    rw [hrun] at hlower
    exact fun he => hlower name (Except.error.inj he)

/-- In every stage that a flat chain is bound to, the columns of each clause are fields of the relation that the clause
is run on, and columns of a bag stand only where there is one. So the script never lacks a bag. -/
theorem bound_stages_are_scoped {chain : Expr} {b : Bound} (hc : FlatChain anyValue chain)
    (h : chain.bound.outcome = .ok b) :
    (∀ s : Stage, s.Within b.stage → s.WellScoped chain.sourceFields) ∧
      ∀ name, b.stage.script ≠ .error (.argument (.bagOutsideGroup name)) := by
  rw [bound_eq_bindWith] at h
  have hplaced := placed_bindWith hc h
  exact ⟨fun s hs => (hplaced.clauses s hs).wellScoped, script_ne_of_scoped hplaced.clauses⟩

/-! ### Crowded ages -/

/-- The ages of more than one person with the number of people, the greatest number last: a filter, columns and an
ordering over a grouped stage. -/
def crowdedAges : Expr :=
  .call none "OrderBy"
    [.call none "Select"
      [.call none "Where"
        [.call none "GroupBy" [.source "people" personType, .lambda [⟨"p", personType⟩] (person.get "Age")]
          (.query (.grouping .int64 personType)),
          .lambda [⟨"g", .unknown⟩] (.binary .greaterThan
            (.call (some (.parameter "g" .unknown)) "Count" [] .int64) (.constant (.int 1) .int64) .bool)]
        (.query (.grouping .int64 personType)),
        .lambda [⟨"g", .unknown⟩] (.recordWith .unknown
          [("Age", .member (some (.parameter "g" .unknown)) "Key" .int64),
            ("People", .call (some (.parameter "g" .unknown)) "Count" [] .int64)])]
      (.query .unknown),
      .lambda [⟨"r", .unknown⟩] (.member (some (.parameter "r" .unknown)) "People" .int64)]
    (.query .unknown)

theorem flatChain_crowdedAges : FlatChain anyValue crowdedAges := by
  have hcount : FlatBody anyValue "g" (.call (some (.parameter "g" .unknown)) "Count" [] .int64) :=
    .method .row (fun _ h => by cases h) rfl
  refine .step (.step (.step (.step (.source (by decide)) ?_) ?_) (.select ?_ rfl)) (.orderBy ?_)
  · refine ⟨fun hm => absurd hm (by decide), fun _ x hx => ?_, fun hm => absurd hm (by decide),
      fun _ key element ht => ?_, fun hm => absurd hm (by decide)⟩
    · cases hx
      rintro _ _ ⟨⟩ x hx
      rw [List.mem_singleton.mp hx]
      exact .field
    · cases ht
      rfl
  · refine ⟨fun _ x hx => ?_, fun hm => absurd hm (by decide), fun hm => absurd hm (by decide),
      fun hm => absurd hm (by decide), fun hm => absurd hm (by decide)⟩
    cases hx
    rintro _ _ ⟨⟩
    exact .binary hcount (.constant trivial rfl) rfl
  · rintro _ _ ⟨⟩
    refine .recordWith fun m hm => ?_
    simp only [List.mem_cons, List.not_mem_nil, or_false] at hm
    rcases hm with rfl | rfl
    · exact .field
    · exact hcount
  · rintro _ _ ⟨⟩
    exact .field

theorem bound_stages_are_scoped_crowdedAges :
    FlatChain anyValue crowdedAges ∧ ∃ b, crowdedAges.bound.outcome = .ok b ∧
      (∀ s : Stage, s.Within b.stage → s.WellScoped ["Name", "Age"]) ∧
      ∀ name, b.stage.script ≠ .error (.argument (.bagOutsideGroup name)) := by
  obtain ⟨b, hb⟩ := except_isOk (show crowdedAges.bound.outcome.isOk = true by decide +kernel)
  exact ⟨flatChain_crowdedAges, b, hb, bound_stages_are_scoped flatChain_crowdedAges hb⟩

end PigChain
