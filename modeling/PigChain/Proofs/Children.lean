import PigChain.Proofs.Walk

/-!
# A node and its children

A node is a shape with expressions in it: those directly below it, in the order in which a walk visits them, with the
expressions of a stage below the node that holds the stage. A walk edits the children one after another and puts the
results in their places. What holds of a node whenever it holds of its children holds of every expression.
-/

namespace PigChain

/-! ### The children of a node -/

mutual

def Binding.exprs : Binding → List Expr
  | .assign _ x => [x]
  | .nested _ bs => Binding.exprsList bs
  | .list _ is => is.flatMap ElementInit.args

def Binding.exprsList : List Binding → List Expr
  | [] => []
  | b :: bs => b.exprs ++ Binding.exprsList bs

end

def Grouping.exprs : Option Grouping → List Expr
  | some (.keys ks) => ks
  | _ => []

mutual

/-- The expressions of a stage and of the stages it reads. -/
def Stage.exprs : Stage → List Expr
  | ⟨source, filter, columns, _, grouping, orderBy, _, _, _⟩ =>
    source.exprs ++ (filter.toList ++ (columns.map Column.expr ++
      (Grouping.exprs grouping ++ orderBy.map Ordering.expr)))

def Source.exprs : Source → List Expr
  | .base _ => []
  | .stage inner => inner.exprs

end

/-- The expressions directly below a node. -/
def Expr.children : Expr → List Expr
  | .constant .. => []
  | .parameter .. => []
  | .member object _ _ => object.toList
  | .unary _ x _ => [x]
  | .binary _ x y _ => [x, y]
  | .conditional c x y _ => [c, x, y]
  | .call object _ args _ => object.toList ++ args
  | .construct _ args _ => args
  | .arrayInit _ items => items
  | .listInit _ args _ items => args ++ items.flatMap ElementInit.args
  | .lambda _ body => [body]
  | .invocation target args _ => target :: args
  | .recordInit _ args _ bindings => args ++ Binding.exprsList bindings
  | .isNull x => [x]
  | .subquery s _ => s.exprs
  | .scalar s _ => s.exprs
  | .select s => s.exprs
  | .column .. => []

/-! ### Induction on children -/

section

variable {P : Expr → Prop}

mutual

theorem Expr.childInduction (h : ∀ e, (∀ c ∈ e.children, P c) → P e) : ∀ e, P e
  | .constant v t => h _ fun _ hc => nomatch hc
  | .parameter n t => h _ fun _ hc => nomatch hc
  | .member o n t => h _ (childInductionOption h o)
  | .unary op x t => h _ fun c hc => List.mem_singleton.mp hc ▸ Expr.childInduction h x
  | .binary op x y t => h _ fun c hc => by
    rcases List.mem_cons.mp hc with hc | hc
    · exact hc ▸ Expr.childInduction h x
    · exact List.mem_singleton.mp hc ▸ Expr.childInduction h y
  | .conditional c x y t => h _ fun d hd => by
    rcases List.mem_cons.mp hd with hd | hd
    · exact hd ▸ Expr.childInduction h c
    · rcases List.mem_cons.mp hd with hd | hd
      · exact hd ▸ Expr.childInduction h x
      · exact List.mem_singleton.mp hd ▸ Expr.childInduction h y
  | .call o n as t => h _ fun c hc => (List.mem_append.mp hc).elim (childInductionOption h o c) (childInductionList h as c)
  | .construct t as ns => h _ (childInductionList h as)
  | .arrayInit t xs => h _ (childInductionList h xs)
  | .listInit t as ns is => h _ fun c hc =>
    (List.mem_append.mp hc).elim (childInductionList h as c) (childInductionItems h is c)
  | .lambda ps b => h _ fun c hc => List.mem_singleton.mp hc ▸ Expr.childInduction h b
  | .invocation f as t => h _ fun c hc => by
    rcases List.mem_cons.mp hc with hc | hc
    · exact hc ▸ Expr.childInduction h f
    · exact childInductionList h as c hc
  | .recordInit t as ns bs => h _ fun c hc =>
    (List.mem_append.mp hc).elim (childInductionList h as c) (childInductionBindings h bs c)
  | .isNull x => h _ fun c hc => List.mem_singleton.mp hc ▸ Expr.childInduction h x
  | .subquery s t => h _ (childInductionStage h s)
  | .scalar s t => h _ (childInductionStage h s)
  | .select s => h _ (childInductionStage h s)
  | .column n sc t => h _ fun _ hc => nomatch hc

theorem childInductionOption (h : ∀ e, (∀ c ∈ e.children, P c) → P e) :
    ∀ (o : Option Expr), ∀ c ∈ o.toList, P c
  | none, _, hc => nomatch hc
  | some x, _, hc => List.mem_singleton.mp hc ▸ Expr.childInduction h x

theorem childInductionList (h : ∀ e, (∀ c ∈ e.children, P c) → P e) :
    ∀ (xs : List Expr), ∀ c ∈ xs, P c
  | [], _, hc => nomatch hc
  | x :: xs, c, hc => by
    rcases List.mem_cons.mp hc with hc | hc
    · exact hc ▸ Expr.childInduction h x
    · exact childInductionList h xs c hc

theorem childInductionItems (h : ∀ e, (∀ c ∈ e.children, P c) → P e) :
    ∀ (is : List ElementInit), ∀ c ∈ is.flatMap ElementInit.args, P c
  | [], _, hc => nomatch hc
  | ⟨_, as⟩ :: is, c, hc => by
    rw [List.flatMap_cons] at hc
    exact (List.mem_append.mp hc).elim (childInductionList h as c) (childInductionItems h is c)

theorem childInductionBinding (h : ∀ e, (∀ c ∈ e.children, P c) → P e) :
    ∀ (b : Binding), ∀ c ∈ b.exprs, P c
  | .assign _ x, _, hc => List.mem_singleton.mp (by rw [Binding.exprs] at hc; exact hc) ▸ Expr.childInduction h x
  | .nested _ bs, c, hc => childInductionBindings h bs c (by rw [Binding.exprs] at hc; exact hc)
  | .list _ is, c, hc => childInductionItems h is c (by rw [Binding.exprs] at hc; exact hc)

theorem childInductionBindings (h : ∀ e, (∀ c ∈ e.children, P c) → P e) :
    ∀ (bs : List Binding), ∀ c ∈ Binding.exprsList bs, P c
  | [], _, hc => by rw [Binding.exprsList] at hc; cases hc
  | b :: bs, c, hc => by
    rw [Binding.exprsList] at hc
    exact (List.mem_append.mp hc).elim (childInductionBinding h b c) (childInductionBindings h bs c)

theorem childInductionStage (h : ∀ e, (∀ c ∈ e.children, P c) → P e) :
    ∀ (s : Stage), ∀ c ∈ s.exprs, P c
  | ⟨source, filter, columns, _, grouping, orderBy, _, _, _⟩, c, hc => by
    rw [Stage.exprs] at hc
    simp only [List.mem_append] at hc
    rcases hc with hc | hc | hc | hc | hc
    · exact childInductionSource h source c hc
    · exact childInductionOption h filter c hc
    · exact childInductionColumns h columns c hc
    · exact childInductionGrouping h grouping c hc
    · exact childInductionOrderings h orderBy c hc

theorem childInductionSource (h : ∀ e, (∀ c ∈ e.children, P c) → P e) :
    ∀ (s : Source), ∀ c ∈ s.exprs, P c
  | .base _, _, hc => by rw [Source.exprs] at hc; cases hc
  | .stage s, c, hc => childInductionStage h s c (by rw [Source.exprs] at hc; exact hc)

theorem childInductionColumns (h : ∀ e, (∀ c ∈ e.children, P c) → P e) :
    ∀ (cs : List Column), ∀ c ∈ cs.map Column.expr, P c
  | [], _, hc => nomatch hc
  | ⟨_, x⟩ :: cs, c, hc => by
    rcases List.mem_cons.mp hc with hc | hc
    · exact hc ▸ Expr.childInduction h x
    · exact childInductionColumns h cs c hc

theorem childInductionGrouping (h : ∀ e, (∀ c ∈ e.children, P c) → P e) :
    ∀ (g : Option Grouping), ∀ c ∈ Grouping.exprs g, P c
  | none, _, hc => by cases hc
  | some .all, _, hc => by cases hc
  | some (.keys ks), c, hc => childInductionList h ks c hc

theorem childInductionOrderings (h : ∀ e, (∀ c ∈ e.children, P c) → P e) :
    ∀ (os : List Ordering), ∀ c ∈ os.map Ordering.expr, P c
  | [], _, hc => nomatch hc
  | ⟨x, _⟩ :: os, c, hc => by
    rcases List.mem_cons.mp hc with hc | hc
    · exact hc ▸ Expr.childInduction h x
    · exact childInductionOrderings h os c hc

end

end

/-! ### Putting other children in -/

def refillOption : Option Expr → List Expr → Option Expr
  | none, _ => none
  | some x, cs => some (cs.headD x)

def refillItems : List ElementInit → List Expr → List ElementInit
  | [], _ => []
  | ⟨n, as⟩ :: is, cs => ⟨n, cs.take as.length⟩ :: refillItems is (cs.drop as.length)

mutual

def Binding.refill : Binding → List Expr → Binding
  | .assign n x, cs => .assign n (cs.headD x)
  | .nested n bs, cs => .nested n (Binding.refillList bs cs)
  | .list n is, cs => .list n (refillItems is cs)

def Binding.refillList : List Binding → List Expr → List Binding
  | [], _ => []
  | b :: bs, cs => b.refill (cs.take b.exprs.length) :: Binding.refillList bs (cs.drop b.exprs.length)

end

def Column.refill (columns : List Column) (cs : List Expr) : List Column :=
  columns.zipWith (fun c x => ⟨c.name, x⟩) cs

def Ordering.refill (orderBy : List Ordering) (cs : List Expr) : List Ordering :=
  orderBy.zipWith (fun o x => ⟨x, o.direction⟩) cs

def Grouping.refill : Option Grouping → List Expr → Option Grouping
  | some (.keys _), cs => some (.keys cs)
  | g, _ => g

mutual

def Stage.refill : Stage → List Expr → Stage
  | ⟨source, filter, columns, projected, grouping, orderBy, limit, element, projector⟩, cs =>
    let fs := cs.drop source.exprs.length
    let ks := fs.drop filter.toList.length
    let gs := ks.drop columns.length
    ⟨source.refill (cs.take source.exprs.length), refillOption filter (fs.take filter.toList.length),
      Column.refill columns (ks.take columns.length), projected,
      Grouping.refill grouping (gs.take (Grouping.exprs grouping).length),
      Ordering.refill orderBy (gs.drop (Grouping.exprs grouping).length), limit, element, projector⟩

def Source.refill : Source → List Expr → Source
  | .base name, _ => .base name
  | .stage inner, cs => .stage (inner.refill cs)

end

/-- The node with other children, as many as it has. -/
def Expr.withChildren : Expr → List Expr → Expr
  | .member object n t, cs => .member (refillOption object cs) n t
  | .unary op x t, cs => .unary op (cs.headD x) t
  | .binary op x y t, cs => .binary op (cs.headD x) (cs.tail.headD y) t
  | .conditional c x y t, cs => .conditional (cs.headD c) (cs.tail.headD x) (cs.tail.tail.headD y) t
  | .call object n _ t, cs =>
    .call (refillOption object (cs.take object.toList.length)) n (cs.drop object.toList.length) t
  | .construct t _ ns, cs => .construct t cs ns
  | .arrayInit t _, cs => .arrayInit t cs
  | .listInit t args ns items, cs =>
    .listInit t (cs.take args.length) ns (refillItems items (cs.drop args.length))
  | .lambda ps body, cs => .lambda ps (cs.headD body)
  | .invocation target _ t, cs => .invocation (cs.headD target) cs.tail t
  | .recordInit t args ns bindings, cs =>
    .recordInit t (cs.take args.length) ns (Binding.refillList bindings (cs.drop args.length))
  | .isNull x, cs => .isNull (cs.headD x)
  | .subquery s t, cs => .subquery (s.refill cs) t
  | .scalar s t, cs => .scalar (s.refill cs) t
  | .select s, cs => .select (s.refill cs)
  | e, _ => e

/-! ### Putting in what was there -/

theorem refillOption_toList (o : Option Expr) : refillOption o o.toList = o := by
  cases o <;> rfl

theorem refillItems_args (is : List ElementInit) : refillItems is (is.flatMap ElementInit.args) = is := by
  induction is with
  | nil => rfl
  | cons i is ih =>
    obtain ⟨n, as⟩ := i
    rw [List.flatMap_cons, refillItems, List.take_left, List.drop_left, ih]

mutual

theorem Binding.refill_exprs : ∀ b : Binding, b.refill b.exprs = b
  | .assign n x => by rw [Binding.refill, Binding.exprs, List.headD_cons]
  | .nested n bs => by rw [Binding.refill, Binding.exprs, Binding.refillList_exprs bs]
  | .list n is => by rw [Binding.refill, Binding.exprs, refillItems_args]

theorem Binding.refillList_exprs : ∀ bs : List Binding, Binding.refillList bs (Binding.exprsList bs) = bs
  | [] => by rw [Binding.refillList]
  | b :: bs => by
    rw [Binding.refillList, Binding.exprsList, List.take_left, List.drop_left, Binding.refill_exprs b,
      Binding.refillList_exprs bs]

end

theorem Column.refill_exprs (columns : List Column) : Column.refill columns (columns.map Column.expr) = columns := by
  induction columns with
  | nil => rfl
  | cons c columns ih =>
    obtain ⟨n, x⟩ := c
    exact congrArg (List.cons _) ih

theorem Ordering.refill_exprs (orderBy : List Ordering) :
    Ordering.refill orderBy (orderBy.map Ordering.expr) = orderBy := by
  induction orderBy with
  | nil => rfl
  | cons o orderBy ih =>
    obtain ⟨x, d⟩ := o
    exact congrArg (List.cons _) ih

theorem Grouping.refill_exprs (g : Option Grouping) : Grouping.refill g (Grouping.exprs g) = g := by
  rcases g with _ | _ | _ <;> rfl

mutual

theorem Stage.refill_exprs : ∀ s : Stage, s.refill s.exprs = s
  | ⟨source, filter, columns, projected, grouping, orderBy, limit, element, projector⟩ => by
    have hcolumns : (columns.map Column.expr).length = columns.length := List.length_map _
    rw [Stage.refill, Stage.exprs]
    simp only [List.take_left, List.drop_left, Source.refill_exprs source, refillOption_toList]
    rw [← hcolumns, List.take_left, List.drop_left, List.take_left, List.drop_left, Column.refill_exprs,
      Grouping.refill_exprs, Ordering.refill_exprs]

theorem Source.refill_exprs : ∀ s : Source, s.refill s.exprs = s
  | .base n => by rw [Source.refill]
  | .stage s => by rw [Source.refill, Source.exprs, Stage.refill_exprs s]

end

theorem Expr.withChildren_children (e : Expr) : e.withChildren e.children = e := by
  cases e with
  | member o n t => rw [children, withChildren, refillOption_toList]
  | call o n as t => rw [children, withChildren, List.take_left, List.drop_left, refillOption_toList]
  | listInit t as ns is => rw [children, withChildren, List.take_left, List.drop_left, refillItems_args]
  | recordInit t as ns bs => rw [children, withChildren, List.take_left, List.drop_left, Binding.refillList_exprs]
  | subquery s t => rw [children, withChildren, Stage.refill_exprs]
  | scalar s t => rw [children, withChildren, Stage.refill_exprs]
  | select s => rw [children, withChildren, Stage.refill_exprs]
  | _ => rfl

/-! ### What was put in -/

theorem eq_singleton_of_length {x : Expr} {cs : List Expr} (h : cs.length = 1) : [cs.headD x] = cs := by
  match cs, h with
  | [_], _ => rfl

theorem refillOption_exprs {o : Option Expr} {cs : List Expr} (h : cs.length = o.toList.length) :
    (refillOption o cs).toList = cs := by
  cases o with
  | none => exact (List.length_eq_zero_iff.mp h).symm
  | some x => exact eq_singleton_of_length h

/-- A list that is as long as two others, cut between them. -/
theorem length_cut {xs ys cs : List Expr} (h : cs.length = (xs ++ ys).length) :
    (cs.take xs.length).length = xs.length ∧ (cs.drop xs.length).length = ys.length := by
  rw [List.length_append] at h
  rw [List.length_take, List.length_drop]
  omega

theorem refillItems_exprs {is : List ElementInit} {cs : List Expr}
    (h : cs.length = (is.flatMap ElementInit.args).length) :
    (refillItems is cs).flatMap ElementInit.args = cs := by
  induction is generalizing cs with
  | nil => exact (List.length_eq_zero_iff.mp h).symm
  | cons i is ih =>
    obtain ⟨n, as⟩ := i
    rw [List.flatMap_cons] at h
    obtain ⟨-, hdrop⟩ := length_cut h
    rw [refillItems, List.flatMap_cons, ih hdrop]
    exact List.take_append_drop as.length cs

mutual

theorem Binding.exprs_refill : ∀ (b : Binding) {cs : List Expr}, cs.length = b.exprs.length →
    (b.refill cs).exprs = cs
  | .assign n x, cs, h => by
    rw [Binding.exprs] at h
    rw [Binding.refill, Binding.exprs, eq_singleton_of_length h]
  | .nested n bs, cs, h => by
    rw [Binding.exprs] at h
    rw [Binding.refill, Binding.exprs, Binding.exprsList_refill bs h]
  | .list n is, cs, h => by
    rw [Binding.exprs] at h
    rw [Binding.refill, Binding.exprs, refillItems_exprs h]

theorem Binding.exprsList_refill : ∀ (bs : List Binding) {cs : List Expr},
    cs.length = (Binding.exprsList bs).length → Binding.exprsList (Binding.refillList bs cs) = cs
  | [], cs, h => by
    rw [Binding.exprsList] at h
    rw [Binding.refillList, Binding.exprsList, List.length_eq_zero_iff.mp h]
  | b :: bs, cs, h => by
    rw [Binding.exprsList] at h
    obtain ⟨htake, hdrop⟩ := length_cut h
    rw [Binding.refillList, Binding.exprsList, Binding.exprs_refill b htake, Binding.exprsList_refill bs hdrop,
      List.take_append_drop]

end

theorem Column.exprs_refill {columns : List Column} {cs : List Expr} (h : cs.length = columns.length) :
    (Column.refill columns cs).map Column.expr = cs := by
  induction columns generalizing cs with
  | nil => exact (List.length_eq_zero_iff.mp h).symm
  | cons c columns ih =>
    cases cs with
    | nil => cases h
    | cons x cs => exact congrArg (List.cons x) (ih (Nat.succ.inj h))

theorem Ordering.exprs_refill {orderBy : List Ordering} {cs : List Expr} (h : cs.length = orderBy.length) :
    (Ordering.refill orderBy cs).map Ordering.expr = cs := by
  induction orderBy generalizing cs with
  | nil => exact (List.length_eq_zero_iff.mp h).symm
  | cons o orderBy ih =>
    cases cs with
    | nil => cases h
    | cons x cs => exact congrArg (List.cons x) (ih (Nat.succ.inj h))

theorem Grouping.exprs_refill {g : Option Grouping} {cs : List Expr} (h : cs.length = (Grouping.exprs g).length) :
    Grouping.exprs (Grouping.refill g cs) = cs := by
  rcases g with _ | _ | _
  · exact (List.length_eq_zero_iff.mp h).symm
  · exact (List.length_eq_zero_iff.mp h).symm
  · rfl

mutual

theorem Stage.exprs_refill : ∀ (s : Stage) {cs : List Expr}, cs.length = s.exprs.length → (s.refill cs).exprs = cs
  | ⟨source, filter, columns, projected, grouping, orderBy, limit, element, projector⟩, cs, h => by
    rw [Stage.exprs] at h
    obtain ⟨hsource, h⟩ := length_cut h
    obtain ⟨hfilter, h⟩ := length_cut h
    obtain ⟨hcolumns, h⟩ := length_cut h
    obtain ⟨hgrouping, horder⟩ := length_cut h
    rw [List.length_map] at hcolumns hgrouping horder
    rw [List.length_map] at horder
    rw [Stage.refill, Stage.exprs]
    rw [Source.exprs_refill source hsource, refillOption_exprs hfilter, Column.exprs_refill hcolumns,
      Grouping.exprs_refill hgrouping, Ordering.exprs_refill horder]
    simp only [List.take_append_drop]

theorem Source.exprs_refill : ∀ (s : Source) {cs : List Expr}, cs.length = s.exprs.length →
    (s.refill cs).exprs = cs
  | .base n, cs, h => by
    rw [Source.exprs] at h
    rw [Source.refill, Source.exprs, List.length_eq_zero_iff.mp h]
  | .stage s, cs, h => by
    rw [Source.exprs] at h
    rw [Source.refill, Source.exprs, Stage.exprs_refill s h]

end

theorem Expr.children_withChildren {e : Expr} {cs : List Expr} (h : cs.length = e.children.length) :
    (e.withChildren cs).children = cs := by
  cases e with
  | constant v t => exact (List.length_eq_zero_iff.mp h).symm
  | parameter n t => exact (List.length_eq_zero_iff.mp h).symm
  | column n sc t => exact (List.length_eq_zero_iff.mp h).symm
  | member o n t => exact refillOption_exprs h
  | unary op x t => exact eq_singleton_of_length h
  | binary op x y t =>
    match cs, h with
    | [_, _], _ => rfl
  | conditional c x y t =>
    match cs, h with
    | [_, _, _], _ => rfl
  | call o n as t =>
    obtain ⟨htake, -⟩ := length_cut h
    rw [withChildren, children, refillOption_exprs htake, List.take_append_drop]
  | construct t as ns => rfl
  | arrayInit t xs => rfl
  | listInit t as ns is =>
    obtain ⟨-, hdrop⟩ := length_cut h
    rw [withChildren, children, refillItems_exprs hdrop, List.take_append_drop]
  | lambda ps b => exact eq_singleton_of_length h
  | invocation f as t =>
    match cs, h with
    | _ :: _, _ => rfl
  | recordInit t as ns bs =>
    obtain ⟨-, hdrop⟩ := length_cut h
    rw [withChildren, children, Binding.exprsList_refill bs hdrop, List.take_append_drop]
  | isNull x => exact eq_singleton_of_length h
  | subquery s t => exact s.exprs_refill h
  | scalar s t => exact s.exprs_refill h
  | select s => exact s.exprs_refill h

/-! ### What refilling keeps of a stage -/

theorem Column.names_refill_of_length {columns : List Column} {cs : List Expr} (h : cs.length = columns.length) :
    Column.names (Column.refill columns cs) = Column.names columns := by
  induction columns generalizing cs with
  | nil => rfl
  | cons c columns ih =>
    cases cs with
    | nil => cases h
    | cons x cs => exact congrArg (List.cons c.name) (ih (Nat.succ.inj h))

theorem Stage.names_refill (s : Stage) {cs : List Expr} (h : cs.length = s.exprs.length) :
    Column.names (s.refill cs).columns = Column.names s.columns := by
  obtain ⟨source, filter, columns, projected, grouping, orderBy, limit, element, projector⟩ := s
  rw [Stage.exprs] at h
  obtain ⟨-, h⟩ := length_cut h
  obtain ⟨-, h⟩ := length_cut h
  obtain ⟨hcolumns, -⟩ := length_cut h
  rw [List.length_map] at hcolumns
  rw [Stage.refill]
  exact Column.names_refill_of_length hcolumns

theorem Stage.projected_refill (s : Stage) (cs : List Expr) : (s.refill cs).projected = s.projected := by
  obtain ⟨_, _, _, _, _, _, _, _, _⟩ := s
  rw [Stage.refill]

theorem Stage.element_refill (s : Stage) (cs : List Expr) : (s.refill cs).element = s.element := by
  obtain ⟨_, _, _, _, _, _, _, _, _⟩ := s
  rw [Stage.refill]

theorem Stage.width_refill (s : Stage) {cs : List Expr} (h : cs.length = s.exprs.length) :
    (s.refill cs).width = s.width := by
  have hlength : (s.refill cs).columns.length = s.columns.length := by
    have hnames := congrArg List.length (s.names_refill h)
    rwa [Column.names, Column.names, List.length_map, List.length_map] at hnames
  rw [Stage.width, Stage.width, s.projected_refill, s.element_refill, hlength]

/-! ### Nodes with stages -/

/-- A node that holds a stage. -/
def Expr.holdsStage : Expr → Bool
  | .subquery .. => true
  | .scalar .. => true
  | .select .. => true
  | _ => false

theorem Expr.kind_withChildren (e : Expr) (cs : List Expr) : (e.withChildren cs).kind = e.kind := by
  cases e <;> rfl

theorem Expr.holdsStage_withChildren (e : Expr) (cs : List Expr) : (e.withChildren cs).holdsStage = e.holdsStage := by
  cases e <;> rfl

theorem Expr.kind_ne_scalar {e : Expr} (h : e.holdsStage = false) : e.kind ≠ .scalar := by
  cases e with
  | scalar s t => cases h
  | _ => exact Kind.noConfusion

end PigChain
