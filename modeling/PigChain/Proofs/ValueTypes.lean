import PigChain.Proofs.ColumnNames
import PigChain.Proofs.Inlining
import PigChain.Proofs.LiteralPasses
import PigChain.Proofs.RowResult

/-!
# The types of bound bodies

The type of a projection is found before the definitions of the stage that it goes into are put in for its columns. This
is sound, since a column has the type of its definition and every other node keeps the type that it declares. It would not
be for a column that was not made from a reference to the row, nor for a field of a record column, which has a dotted
name: a stage whose column has that name would define it anew.
-/

namespace PigChain

variable {nested : Expr → BindM Stage} {s : Stage} {row : String} {e e' x : Expr} {columns : List Column}

/-! ### Types and definitions -/

/-- The expression has the type of what it becomes when definitions are put in for its columns. -/
def Expr.TypedBy (columns : List Column) : Expr → Prop
  | .column name .row type => ∀ c, Column.find? columns name = some c → c.expr.type = type
  | .lambda _ body => body.TypedBy columns
  | .select _ => False
  | _ => True

theorem Expr.type_withChildren (hl : e.kind ≠ .lambda) (hs : e.kind ≠ .select) (cs : List Expr) :
    (e.withChildren cs).type = e.type := by
  cases e with
  | lambda ps body => exact absurd rfl hl
  | select t => exact absurd rfl hs
  | _ => rfl

theorem Expr.TypedBy.composed (h : e.TypedBy columns) (he : e.composed columns = .ok e') : e'.type = e.type := by
  induction e using Expr.childInduction generalizing e' with
  | h e ih =>
    cases e with
    | column name scope type =>
      cases scope with
      | row =>
        obtain ⟨c, hc, rfl⟩ := composed_field_eq_ok he
        exact h c hc
      | group =>
        cases he
        rfl
    | lambda ps body =>
      rw [composed_eq_rewalk Kind.noConfusion, Editor.rewalk_lambda, except_do_eq_ok] at he
      obtain ⟨body', hbody, he⟩ := he
      cases he
      show body'.type = body.type
      exact ih body List.mem_cons_self h hbody
    | scalar t type =>
      rw [composed_eq_rewalk Kind.noConfusion] at he
      obtain ⟨t', -, rfl⟩ := rewalk_scalar_eq_ok he
      rfl
    | select t => exact h.elim
    | _ =>
      rw [composed_eq_rewalk Kind.noConfusion] at he
      obtain ⟨cs, -, rfl, -⟩ := rewalk_eq_ok (fun _ _ => rfl) Kind.noConfusion he
      exact Expr.type_withChildren Kind.noConfusion Kind.noConfusion cs

/-! ### Plain bodies -/

/-- A node that is no column and holds no stage. Only the row itself may be a group. -/
structure PlainNode (row : String) (y : Expr) : Prop where
  stage : y.holdsStage = false
  column : y.kind ≠ .column
  type : y.kind ≠ .lambda → y.isParameter row = false → y.type.groupFree = true

theorem PlainNode.withChildren (h : PlainNode row e) (cs : List Expr) : PlainNode row (e.withChildren cs) := by
  obtain ⟨hstage, hcolumn, htype⟩ := h
  cases e with
  | select t => cases hstage
  | lambda ps body => exact ⟨hstage, hcolumn, fun hl => absurd rfl hl⟩
  | _ => exact ⟨hstage, hcolumn, htype⟩

/-- A body in which no column and no stage stands, and whose value is made of no group but the row, once the lambdas that
it invokes are put in. -/
structure PlainBody (row : String) (x : Expr) : Prop where
  nodes : ∀ y, Expr.Occurs y x → y.holdsStage = false ∧ y.kind ≠ .column
  types : ∀ x', x.inlined = .ok x' →
    x'.FedBy fun y => y.kind ≠ .lambda → y.isParameter row = false → y.type.groupFree = true

theorem Expr.Feeds.occurs {y : Expr} (h : Expr.Feeds y x) : Expr.Occurs y x := by
  induction h with
  | self => exact .self
  | child _ hc _ ih => exact .child hc ih

theorem PlainBody.fedBy {x' : Expr} (h : PlainBody row x) (hx : x.inlined = .ok x') : x'.FedBy (PlainNode row) := by
  have hnodes : x'.FedBy fun y => y.holdsStage = false ∧ y.kind ≠ .column := by
    refine inlined_fedBy (fun e cs he => ?_) hx fun y hy => h.nodes y hy.occurs
    rw [Expr.holdsStage_withChildren, Expr.kind_withChildren]
    exact he
  exact fun y hy => ⟨(hnodes y hy).1, (hnodes y hy).2, h.types x' hx y hy⟩

/-- It is enough that every node is plain. -/
theorem plainBody_of_nodes (h : ∀ y, Expr.Occurs y x → PlainNode row y) : PlainBody row x := by
  refine ⟨fun y hy => ⟨(h y hy).stage, (h y hy).column⟩, fun x' hx y hy => ?_⟩
  have hfed : x'.FedBy (PlainNode row) :=
    inlined_fedBy (fun e cs he => he.withChildren cs) hx fun z hz => h z hz.occurs
  exact (hfed y hy).type

def DotFree (name : String) : Prop := '.' ∉ name.toList

instance (name : String) : Decidable (DotFree name) := inferInstanceAs (Decidable ('.' ∉ name.toList))

theorem not_dotFree (owner name : String) : ¬DotFree (owner ++ "." ++ name) := by
  intro h
  apply h
  simp

theorem plainNodes_of_children (he : PlainNode row e) (h : ∀ c ∈ e.children, ∀ y, Expr.Occurs y c → PlainNode row y) :
    ∀ y, Expr.Occurs y e → PlainNode row y := by
  intro y hy
  cases hy with
  | self => exact he
  | child hc hy => exact h _ hc y hy

/-- What is known of a value that is bound to the rows of a stage. -/
structure ValueTyped (s : Stage) (e : Expr) : Prop where
  type : e.type.groupFree = true
  typedBy : s.projected = true → e.TypedBy s.columns

theorem valueTyped_withChildren {cs : List Expr} (hs : e.holdsStage = false) (hk : e.kind ≠ .column)
    (htype : e.kind ≠ .lambda → e.type.groupFree = true) (hlen : cs.length = e.children.length)
    (hcs : e.passesOn = true → ∀ c ∈ cs, ValueTyped s c) : ValueTyped s (e.withChildren cs) := by
  cases e with
  | lambda ps body =>
    obtain ⟨body', rfl⟩ := List.length_eq_one_iff.mp hlen
    have hbody := hcs rfl body' List.mem_cons_self
    exact ⟨hbody.type, hbody.typedBy⟩
  | column name scope type => exact absurd rfl hk
  | scalar t type => cases hs
  | subquery t type => cases hs
  | select t => cases hs
  | _ => exact ⟨htype Kind.noConfusion, fun _ => trivial⟩

theorem rowColumn_valueTyped (hs : s.Typed) (h : rowColumn s = .ok e) : ValueTyped s e := by
  refine ⟨rowColumn_groupFree hs h, fun hp => ?_⟩
  rcases rowColumn_eq_ok h with ⟨-, c, rest, hcols, rfl⟩ | ⟨hprim, -⟩
  · intro d hd
    rw [hcols, Column.find?, List.find?_cons, beq_self_eq_true] at hd
    cases hd
    rfl
  · rw [(isPrimitive_element hprim).1] at hp
    cases hp

theorem fieldColumn_valueTyped {name : String} {declared : DataType} (hs : s.Typed) (hg : s.grouping = none)
    (hd : declared.groupFree = true) (h : fieldColumn s name declared = .ok e) : ValueTyped s e := by
  refine ⟨fieldColumn_groupFree hs (fun _ _ => hd) h, fun hp => ?_⟩
  have hgroup := DataType.isGrouping_of_groupFree (hs.ungrouped hp hg)
  rcases fieldColumn_eq_ok h with ⟨key, element, he, -⟩ | ⟨-, c, hc, rfl⟩ | ⟨hn, -⟩ | ⟨hn, -⟩
  · rw [he] at hgroup
    cases hgroup
  · intro d hd
    rw [show Column.find? s.columns name = some c from hc] at hd
    cases hd
    rfl
  · rw [hp] at hn
    cases hn
  · rw [hp] at hn
    cases hn

theorem nestedChain_valueTyped {chain : Expr} {type : DataType} (ht : type.groupFree = true)
    (h : (nestedChain nested chain type).outcome = .ok e) : ValueTyped s e := by
  rw [nestedChain, Traced.outcome_bind_eq_ok] at h
  obtain ⟨t, -, h⟩ := h
  split at h
  · cases h
    exact ⟨ht, fun _ => trivial⟩
  · rw [Traced.outcome_silent, Expr.scalarOf] at h
    split at h
    · cases h
      exact ⟨ht, fun _ => trivial⟩
    · cases h

/-- A field of a record column has a name that no column has. -/
theorem recordField_valueTyped (hnames : s.projected = true → ∀ c ∈ s.columns, DotFree c.name)
    {object : Expr} {name : String} {type : DataType} (ht : type.groupFree = true) (hobject : ValueTyped s object)
    (h : recordField? (.member (some object) name type) = some e) : ValueTyped s e := by
  unfold recordField? at h
  split at h
  · next owner record fields member declared heq =>
    cases heq
    cases h
    constructor
    · show (((Field.find? fields name).map Field.type).getD type).groupFree = true
      cases hf : Field.find? fields name with
      | none => exact ht
      | some f => exact DataType.groupFree_record.mp hobject.type f (List.mem_of_find?_eq_some hf)
    · intro hp c hc
      have hname : c.name = owner ++ "." ++ name := by simpa using List.find?_some hc
      have hfree := hnames hp c (List.mem_of_find?_eq_some hc)
      rw [hname] at hfree
      exact absurd hfree (not_dotFree owner name)
  · cases h

/-- Every plain body is bound to a value whose type the definitions of the stage do not change. One case a way to bind a
node; the type of a lambda is that of its body and the type of a member that of a field of its object, so there the
induction hypothesis is used. -/
theorem rowBinder_valueTyped (hs : s.Typed) (hg : s.grouping = none)
    (hnames : s.projected = true → ∀ c ∈ s.columns, DotFree c.name)
    (hx : x.FedBy (PlainNode row)) (h : Yields ((rowBinder nested s row).run x) e) : ValueTyped s e := by
  induction x using Expr.childInduction generalizing e with
  | h x ih =>
    have hplain := hx x .self
    have hwalked : ∀ {z}, Yields ((rowBinder nested s row).rewalk x) z →
        ∃ cs, z = x.withChildren cs ∧ cs.length = x.children.length ∧ (x.passesOn = true → ∀ c ∈ cs, ValueTyped s c) := by
      intro z hz
      obtain ⟨cs, hcs, rfl, -⟩ := yields_rewalk (Expr.kind_ne_scalar hplain.stage) hz
      refine ⟨cs, rfl, hcs.length_eq.symm, fun hp c' hc' => ?_⟩
      obtain ⟨c, hc, hrun⟩ := exists_of_forall₂_right hcs hc'
      exact ih c hc (hx.child hp hc) hrun
    cases rowStep_of_run h with
    | row hcol => exact rowColumn_valueTyped hs hcol
    | field hrow hcol => exact fieldColumn_valueTyped hs hg (hplain.type Kind.noConfusion rfl) hcol
    | aggregate hrow hcall =>
      have ht := groupAggregate_groupFree hs (hplain.type Kind.noConfusion rfl) hcall
      obtain ⟨function, _, _, name, type, -, -, rfl⟩ := groupAggregate_eq_ok hcall
      exact ⟨ht, fun _ => trivial⟩
    | chain hchain hstage =>
      refine nestedChain_valueTyped (hplain.type ?_ ?_) hstage
      · cases x <;> first | exact Kind.noConfusion | cases hchain
      · cases x <;> first | rfl | cases hchain
    | walk hw hz =>
      obtain ⟨cs, rfl, hlen, hcs⟩ := hwalked hz
      refine valueTyped_withChildren hplain.stage hplain.column (fun hl => hplain.type hl ?_) hlen hcs
      cases x with
      | parameter name type => simpa [Expr.isWalked, Expr.isParameter] using hw
      | _ => rfl
    | dotted _ hz hdotted =>
      obtain ⟨cs, rfl, hlen, hcs⟩ := hwalked hz
      cases x with
      | member object name type =>
        have ht := hplain.type Kind.noConfusion rfl
        cases object with
        | none => cases hdotted
        | some object =>
          obtain ⟨object', rfl⟩ := List.length_eq_one_iff.mp hlen
          exact recordField_valueTyped hnames ht (hcs rfl object' List.mem_cons_self) hdotted
      | _ => cases hdotted

/-! ### Null tests -/

theorem nullTest_valueTyped (h : nullTest? e = some e') : ValueTyped s e' := by
  obtain ⟨_, _, _, _, operand, -, -, rfl | rfl⟩ := nullTest_eq_some h
  · exact ⟨rfl, fun _ => trivial⟩
  · exact ⟨rfl, fun _ => trivial⟩

theorem ValueTyped.nullComparisons (h : ValueTyped s e) (he : nullComparisons.run e = .ok e') : ValueTyped s e' := by
  induction e using Expr.childInduction generalizing e' with
  | h e ih =>
    rw [nullComparisons_run_eq] at he
    obtain ⟨z, hz, rfl⟩ := except_map_eq_ok.mp he
    have hwalk : ValueTyped s z := by
      cases e with
      | column name scope type =>
        cases hz
        exact h
      | lambda ps body =>
        rw [Editor.rewalk_lambda, except_do_eq_ok] at hz
        obtain ⟨body', hbody, hz⟩ := hz
        cases hz
        have hih := ih body List.mem_cons_self ⟨h.type, h.typedBy⟩ hbody
        exact ⟨hih.type, hih.typedBy⟩
      | scalar t type =>
        obtain ⟨t', -, rfl⟩ := rewalk_scalar_eq_ok hz
        exact ⟨h.type, fun _ => trivial⟩
      | select t =>
        obtain ⟨cs, -, rfl, -⟩ := rewalk_eq_ok (fun _ _ => rfl) Kind.noConfusion hz
        exact ⟨rfl, fun hp => (h.typedBy hp).elim⟩
      | _ =>
        obtain ⟨cs, -, rfl, -⟩ := rewalk_eq_ok (fun _ _ => rfl) Kind.noConfusion hz
        exact ⟨h.type, fun _ => trivial⟩
    cases hn : nullTest? z with
    | none => exact hwalk
    | some test => exact nullTest_valueTyped hn

theorem bindBody_valueTyped {bound : BoundBody} (hs : s.Typed) (hg : s.grouping = none)
    (hnames : s.projected = true → ∀ c ∈ s.columns, DotFree c.name) (hx : PlainBody row x)
    (h : (bindBody nested s row x).outcome = .ok bound) : ValueTyped s bound.expr := by
  obtain ⟨x', e, hinlined, hrow, hnull⟩ := bindBody_eq_ok h
  exact (rowBinder_valueTyped hs hg hnames (hx.fedBy hinlined) ⟨[], bound.noted, hrow⟩).nullComparisons hnull

end PigChain
