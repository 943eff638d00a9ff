import PigChain.Proofs.EnclosedJson

/-!
# Trees read back

The JSON text of a tree reads back as that tree. The reader of a node reads the expressions below it with less fuel, and
what it does with them is the same for every reader that reads them back; so each kind of node, binding and stage is one
step that asks this of its own expressions only. The fuel is twice the nesting depth, since a stage takes a unit of it
beside the node that holds the stage.
-/

namespace PigChain

variable {expr : Json → Option Expr} {stage : Json → Option Stage}

/-- A reader that reads the expressions of a list back. -/
def Reads (expr : Json → Option Expr) (xs : List Expr) : Prop := ∀ x ∈ xs, expr x.toJson = some x

/-! ### Lists in a tree -/

def ElementInit.toJson (i : ElementInit) : Json :=
  .object [("method", .string i.method), ("args", .array (Expr.listToJson i.args))]

def Ordering.toJson (o : Ordering) : Json :=
  .object [("expr", o.expr.toJson), ("direction", .string o.direction.name)]

theorem Expr.listToJson_eq (xs : List Expr) : Expr.listToJson xs = xs.map Expr.toJson := by
  induction xs with
  | nil => rfl
  | cons x xs ih => rw [Expr.listToJson, ih, List.map_cons, Expr.toJson]

theorem Expr.itemsToJson_eq (is : List ElementInit) : Expr.itemsToJson is = is.map ElementInit.toJson := by
  induction is with
  | nil => rfl
  | cons i is ih =>
    obtain ⟨m, as⟩ := i
    rw [Expr.itemsToJson, ih, List.map_cons, ElementInit.toJson]

theorem Expr.bindingsToJson_eq (bs : List Binding) : Expr.bindingsToJson bs = bs.map Binding.toJson := by
  induction bs with
  | nil => rfl
  | cons b bs ih => rw [Expr.bindingsToJson, ih, List.map_cons]

theorem Expr.columnsToJson_eq (cs : List Column) : Expr.columnsToJson cs = cs.map Column.toJson := by
  induction cs with
  | nil => rfl
  | cons c cs ih => rw [Expr.columnsToJson, ih, List.map_cons]

theorem Expr.orderingsToJson_eq (os : List Ordering) : Expr.orderingsToJson os = os.map Ordering.toJson := by
  induction os with
  | nil => rfl
  | cons o os ih =>
    obtain ⟨x, d⟩ := o
    rw [Expr.orderingsToJson, ih, List.map_cons, Ordering.toJson, Expr.toJson]

/-! ### Names -/

theorem Kind.ofName?_name (k : Kind) : ofName? Kind.all Kind.name k.name = some k := by
  cases k <;> rfl

theorem UnaryOp.nameOf?_name (op : UnaryOp) : nameOf? true UnaryOp.all UnaryOp.name (.string op.name) = some op := by
  cases op <;> rfl

theorem BinaryOp.nameOf?_name (op : BinaryOp) :
    nameOf? true BinaryOp.all BinaryOp.name (.string op.name) = some op := by
  cases op <;> rfl

theorem Scope.nameOf?_name (scope : Scope) : nameOf? true Scope.all Scope.name (.string scope.name) = some scope := by
  cases scope <;> rfl

theorem Direction.nameOf?_name (lenient : Bool) (d : Direction) :
    nameOf? lenient Direction.all Direction.name (.string d.name) = some d := by
  cases d <;> rfl

/-! ### Parts of a node -/

theorem reads_list {xs : List Expr} (h : Reads expr xs) : Json.list? expr (.array (Expr.listToJson xs)) = some xs := by
  rw [Expr.listToJson_eq]
  exact Json.list?_map h

theorem reads_option {o : Option Expr} (h : Reads expr o.toList) :
    Json.optional? expr (some (Expr.optionToJson o)) = some o := by
  cases o with
  | none => rfl
  | some x =>
    have hread : Json.optional? expr (some (Expr.optionToJson (some x))) = (expr x.toJson).map some := rfl
    rw [hread, h x (List.mem_singleton_self x)]
    rfl

theorem ElementInit.read_toJson {i : ElementInit} (h : Reads expr i.args) :
    ElementInit.read expr i.toJson = some i := by
  obtain ⟨method, args⟩ := i
  have hread : ElementInit.read expr (ElementInit.toJson ⟨method, args⟩) =
      (Json.list? expr (.array (Expr.listToJson args))).bind fun args => some ⟨method, args⟩ := rfl
  rw [hread, reads_list h]
  rfl

theorem reads_items {is : List ElementInit} (h : Reads expr (is.flatMap ElementInit.args)) :
    Json.list? (ElementInit.read expr) (.array (Expr.itemsToJson is)) = some is := by
  rw [Expr.itemsToJson_eq]
  refine Json.list?_map fun i hi => ElementInit.read_toJson fun x hx => h x ?_
  exact List.mem_flatMap.mpr ⟨i, hi, hx⟩

/-- The names of a construction are left out if there are none, and read as none if they are left out. -/
theorem readConstruct_fields {args : List Expr} (h : Reads expr args) (t : DataType) (names : List String) :
    readConstruct expr (.object (constructFields t (Expr.listToJson args) names)) = some (t, args, names) := by
  have hargs := reads_list h
  have hnames : Json.list? Json.text? (.array (names.map Json.string)) = some names := Json.list?_map fun _ _ => rfl
  cases names with
  | nil =>
    have hread : readConstruct expr (.object (constructFields t (Expr.listToJson args) [])) =
        (DataType.ofJson? true t.toJson).bind fun t =>
          (Json.list? expr (.array (Expr.listToJson args))).bind fun args => some (t, args, []) := rfl
    rw [hread, DataType.ofJson?_toJson, hargs]
    rfl
  | cons name names =>
    have hread : readConstruct expr (.object (constructFields t (Expr.listToJson args) (name :: names))) =
        (Json.list? Json.text? (.array ((name :: names).map Json.string))).bind fun names =>
          (DataType.ofJson? true t.toJson).bind fun t =>
            (Json.list? expr (.array (Expr.listToJson args))).bind fun args => some (t, args, names) := rfl
    rw [hread, hnames, DataType.ofJson?_toJson, hargs]
    rfl

mutual

theorem Binding.read_toJson : ∀ (b : Binding) {fuel : Nat}, b.toJson.depth < fuel → Reads expr b.exprs →
    Binding.read expr fuel b.toJson = some b
  | .assign name x, fuel + 1, _, h => by
    have hread : Binding.read expr (fuel + 1) (Binding.assign name x).toJson =
        (expr x.toJson).bind fun x => some (.assign name x) := rfl
    rw [hread, h x (by rw [Binding.exprs]; exact List.mem_singleton_self x)]
    rfl
  | .nested name bs, fuel + 1, hd, h => by
    have hread : Binding.read expr (fuel + 1) (Binding.nested name bs).toJson =
        ((Expr.bindingsToJson bs).mapM (Binding.read expr fuel)).bind fun bs => some (.nested name bs) := rfl
    have hdepth : Json.depthItems (Expr.bindingsToJson bs) < fuel := by
      simp only [Binding.toJson, Json.depth, Json.depthFields] at hd
      omega
    rw [Binding.exprs] at h
    rw [hread, Binding.read_bindingsToJson bs hdepth h]
    rfl
  | .list name is, fuel + 1, _, h => by
    have hread : Binding.read expr (fuel + 1) (Binding.list name is).toJson =
        (Json.list? (ElementInit.read expr) (.array (Expr.itemsToJson is))).bind fun is => some (.list name is) := rfl
    rw [Binding.exprs] at h
    rw [hread, reads_items h]
    rfl

theorem Binding.read_bindingsToJson : ∀ (bs : List Binding) {fuel : Nat},
    Json.depthItems (Expr.bindingsToJson bs) < fuel → Reads expr (Binding.exprsList bs) →
      (Expr.bindingsToJson bs).mapM (Binding.read expr fuel) = some bs
  | [], _, _, _ => rfl
  | b :: bs, fuel, hd, h => by
    have hdepth : b.toJson.depth < fuel ∧ Json.depthItems (Expr.bindingsToJson bs) < fuel := by
      simp only [Expr.bindingsToJson, Json.depthItems] at hd
      omega
    rw [Binding.exprsList] at h
    have hb := Binding.read_toJson b hdepth.1 fun x hx => h x (List.mem_append_left _ hx)
    have hbs := Binding.read_bindingsToJson bs hdepth.2 fun x hx => h x (List.mem_append_right _ hx)
    rw [Expr.bindingsToJson, List.mapM_cons, hb, hbs]
    rfl

end

/-! ### Stages -/

theorem Column.read_toJson {c : Column} (h : expr c.expr.toJson = some c.expr) :
    Column.read expr c.toJson = some c := by
  obtain ⟨name, x⟩ := c
  have hread : Column.read expr (Column.toJson ⟨name, x⟩) = (expr x.toJson).bind fun x => some ⟨name, x⟩ := rfl
  rw [hread, h]
  rfl

theorem Ordering.read_toJson (lenient : Bool) {o : Ordering} (h : expr o.expr.toJson = some o.expr) :
    Ordering.read expr lenient o.toJson = some o := by
  obtain ⟨x, d⟩ := o
  have hread : Ordering.read expr lenient (Ordering.toJson ⟨x, d⟩) = (expr x.toJson).bind fun x =>
      (nameOf? lenient Direction.all Direction.name (.string d.name)).bind fun d => some ⟨x, d⟩ := rfl
  rw [hread, h, Direction.nameOf?_name]
  rfl

theorem reads_grouping (lenient : Bool) {g : Option Grouping} (h : Reads expr (Grouping.exprs g)) :
    Json.optional? (Grouping.read expr lenient) (some (Expr.groupingToJson g)) = some g := by
  cases g with
  | none => rfl
  | some g =>
    cases g with
    | all => rfl
    | keys ks =>
      have hread : Json.optional? (Grouping.read expr lenient) (some (Expr.groupingToJson (some (.keys ks)))) =
          ((Json.list? expr (.array (Expr.listToJson ks))).map Grouping.keys).map some := rfl
      have hks : Json.list? expr (.array (Expr.listToJson ks)) = some ks := reads_list h
      rw [hread, hks]
      rfl

theorem reads_limit (limit : Option UInt64) : Json.optional? Json.uint64? (some (limitToJson limit)) = some limit := by
  cases limit with
  | none => rfl
  | some n =>
    have hread : Json.optional? Json.uint64? (some (limitToJson (some n))) =
        (Json.uint64? (.int n.toNat)).map some := rfl
    have hrange : (0 : Int) ≤ n.toNat ∧ (n.toNat : Int) < UInt64.size := by
      have hlt := n.toNat_lt
      exact ⟨by omega, by simpa using hlt⟩
    rw [hread, Json.uint64?, if_pos hrange, Int.toNat_natCast, UInt64.ofNat_toNat]
    rfl

/-- The clauses of a stage are read one by one. -/
theorem Stage.readParts_parts {s : Stage} (lenient : Bool)
    (hsource : Source.read stage lenient s.source.toJson = some s.source) (hfilter : Reads expr s.filter.toList)
    (hcolumns : Reads expr (s.columns.map Column.expr)) (hgrouping : Reads expr (Grouping.exprs s.grouping))
    (horder : Reads expr (s.orderBy.map Ordering.expr)) :
    Stage.readParts expr stage lenient (.object s.parts) = some s := by
  obtain ⟨source, filter, columns, projected, grouping, orderBy, limit, element, projector⟩ := s
  have hread : Stage.readParts expr stage lenient
      (.object (Stage.parts ⟨source, filter, columns, projected, grouping, orderBy, limit, element, projector⟩)) =
      (Source.read stage lenient source.toJson).bind fun source =>
        (Json.optional? expr (some (Expr.optionToJson filter))).bind fun filter =>
        (Json.list? (Column.read expr) (.array (Expr.columnsToJson columns))).bind fun columns =>
        (Json.optional? (Grouping.read expr lenient) (some (Expr.groupingToJson grouping))).bind fun grouping =>
        (Json.list? (Ordering.read expr lenient) (.array (Expr.orderingsToJson orderBy))).bind fun orderBy =>
        (Json.optional? Json.uint64? (some (limitToJson limit))).bind fun limit =>
        (DataType.ofJson? lenient element.toJson).bind fun element =>
        (Projector.ofJson? lenient projector.toJson).bind fun projector =>
          some ⟨source, filter, columns, projected, grouping, orderBy, limit, element, projector⟩ := rfl
  have hcs : Json.list? (Column.read expr) (.array (Expr.columnsToJson columns)) = some columns := by
    rw [Expr.columnsToJson_eq]
    exact Json.list?_map fun c hc => Column.read_toJson (hcolumns c.expr (List.mem_map_of_mem hc))
  have hos : Json.list? (Ordering.read expr lenient) (.array (Expr.orderingsToJson orderBy)) = some orderBy := by
    rw [Expr.orderingsToJson_eq]
    exact Json.list?_map fun o ho => Ordering.read_toJson lenient (horder o.expr (List.mem_map_of_mem ho))
  rw [hread, hsource, reads_option hfilter, hcs, reads_grouping lenient hgrouping, hos, reads_limit,
    DataType.ofJson?_toJson, Projector.ofJson?_toJson]
  rfl

/-! ### Nodes -/

/-- One case a kind of node. The keys are all there and once each, so a reader comes to the readers of the parts one after
another, which is what each `hread` says. -/
theorem Expr.readParts_parts {e : Expr} (h : Reads expr e.children) (hvalue : ∀ v t, e = .constant v t → v.Kept)
    (hstage : ∀ s, e.stage? = some s → stage (.object s.parts) = some s) :
    Expr.readParts expr stage e.kind (.object e.parts) = some e := by
  cases e with
  | constant v t =>
    have hread : Expr.readParts expr stage .constant (.object (Expr.constant v t).parts) =
        (Value.ofJson? true v.toJson).bind fun v => (DataType.ofJson? true t.toJson).bind fun t =>
          some (.constant v t) := rfl
    rw [Expr.kind, hread, Value.ofJson?_toJson true (hvalue v t rfl), DataType.ofJson?_toJson]
    rfl
  | parameter n t =>
    have hread : Expr.readParts expr stage .parameter (.object (Expr.parameter n t).parts) =
        (DataType.ofJson? true t.toJson).bind fun t => some (.parameter n t) := rfl
    rw [Expr.kind, hread, DataType.ofJson?_toJson]
    rfl
  | member o n t =>
    have hread : Expr.readParts expr stage .member (.object (Expr.member o n t).parts) =
        (Json.optional? expr (some (Expr.optionToJson o))).bind fun o =>
          (DataType.ofJson? true t.toJson).bind fun t => some (.member o n t) := rfl
    rw [Expr.kind, hread, reads_option h, DataType.ofJson?_toJson]
    rfl
  | unary op x t =>
    have hread : Expr.readParts expr stage .unary (.object (Expr.unary op x t).parts) =
        (nameOf? true UnaryOp.all UnaryOp.name (.string op.name)).bind fun op => (expr x.toJson).bind fun x =>
          (DataType.ofJson? true t.toJson).bind fun t => some (.unary op x t) := rfl
    rw [Expr.kind, hread, UnaryOp.nameOf?_name, h x List.mem_cons_self, DataType.ofJson?_toJson]
    rfl
  | binary op x y t =>
    have hread : Expr.readParts expr stage .binary (.object (Expr.binary op x y t).parts) =
        (nameOf? true BinaryOp.all BinaryOp.name (.string op.name)).bind fun op => (expr x.toJson).bind fun x =>
          (expr y.toJson).bind fun y => (DataType.ofJson? true t.toJson).bind fun t => some (.binary op x y t) := rfl
    have hy : expr y.toJson = some y := h y (List.mem_cons_of_mem x List.mem_cons_self)
    rw [Expr.kind, hread, BinaryOp.nameOf?_name, h x List.mem_cons_self, hy, DataType.ofJson?_toJson]
    rfl
  | conditional c x y t =>
    have hread : Expr.readParts expr stage .conditional (.object (Expr.conditional c x y t).parts) =
        (expr c.toJson).bind fun c => (expr x.toJson).bind fun x => (expr y.toJson).bind fun y =>
          (DataType.ofJson? true t.toJson).bind fun t => some (.conditional c x y t) := rfl
    have hx : expr x.toJson = some x := h x (List.mem_cons_of_mem c List.mem_cons_self)
    have hy : expr y.toJson = some y := h y (List.mem_cons_of_mem c (List.mem_cons_of_mem x List.mem_cons_self))
    rw [Expr.kind, hread, h c List.mem_cons_self, hx, hy, DataType.ofJson?_toJson]
    rfl
  | call o m as t =>
    have hread : Expr.readParts expr stage .call (.object (Expr.call o m as t).parts) =
        (Json.optional? expr (some (Expr.optionToJson o))).bind fun o =>
          (Json.list? expr (.array (Expr.listToJson as))).bind fun as =>
            (DataType.ofJson? true t.toJson).bind fun t => some (.call o m as t) := rfl
    have ho : Reads expr o.toList := fun x hx => h x (List.mem_append_left _ hx)
    have has : Reads expr as := fun x hx => h x (List.mem_append_right _ hx)
    rw [Expr.kind, hread, reads_option ho, reads_list has, DataType.ofJson?_toJson]
    rfl
  | construct t as ns =>
    have hread : Expr.readParts expr stage .construct (.object (Expr.construct t as ns).parts) =
        (readConstruct expr (.object (constructFields t (Expr.listToJson as) ns))).bind fun c =>
          some (.construct c.1 c.2.1 c.2.2) := rfl
    have has : Reads expr as := h
    rw [Expr.kind, hread, readConstruct_fields has]
    rfl
  | arrayInit t xs =>
    have hread : Expr.readParts expr stage .arrayInit (.object (Expr.arrayInit t xs).parts) =
        (DataType.ofJson? true t.toJson).bind fun t =>
          (Json.list? expr (.array (Expr.listToJson xs))).bind fun xs => some (.arrayInit t xs) := rfl
    have hxs : Reads expr xs := h
    rw [Expr.kind, hread, DataType.ofJson?_toJson, reads_list hxs]
    rfl
  | listInit t as ns is =>
    have hread : Expr.readParts expr stage .listInit (.object (Expr.listInit t as ns is).parts) =
        (readConstruct expr (.object (constructFields t (Expr.listToJson as) ns))).bind fun c =>
          (Json.list? (ElementInit.read expr) (.array (Expr.itemsToJson is))).bind fun is =>
            some (.listInit c.1 c.2.1 c.2.2 is) := rfl
    have has : Reads expr as := fun x hx => h x (List.mem_append_left _ hx)
    have his : Reads expr (is.flatMap ElementInit.args) := fun x hx => h x (List.mem_append_right _ hx)
    rw [Expr.kind, hread, readConstruct_fields has, reads_items his]
    rfl
  | lambda ps b =>
    have hread : Expr.readParts expr stage .lambda (.object (Expr.lambda ps b).parts) =
        (Json.list? (Parameter.ofJson? true) (.array (ps.map Parameter.toJson))).bind fun ps =>
          (expr b.toJson).bind fun b => some (.lambda ps b) := rfl
    rw [Expr.kind, hread, Json.list?_map fun p _ => p.ofJson?_toJson true, h b List.mem_cons_self]
    rfl
  | invocation f as t =>
    have hread : Expr.readParts expr stage .invocation (.object (Expr.invocation f as t).parts) =
        (expr f.toJson).bind fun f => (Json.list? expr (.array (Expr.listToJson as))).bind fun as =>
          (DataType.ofJson? true t.toJson).bind fun t => some (.invocation f as t) := rfl
    have has : Reads expr as := fun x hx => h x (List.mem_cons_of_mem f hx)
    rw [Expr.kind, hread, h f List.mem_cons_self, reads_list has, DataType.ofJson?_toJson]
    rfl
  | recordInit t as ns bs =>
    have hread : Expr.readParts expr stage .recordInit (.object (Expr.recordInit t as ns bs).parts) =
        (readConstruct expr (.object (constructFields t (Expr.listToJson as) ns))).bind fun c =>
          (Json.list? (fun b => Binding.read expr (b.depth + 1) b) (.array (Expr.bindingsToJson bs))).bind fun bs =>
            some (.recordInit c.1 c.2.1 c.2.2 bs) := rfl
    have has : Reads expr as := fun x hx => h x (List.mem_append_left _ hx)
    have hbs : ∀ b ∈ bs, Binding.read expr (b.toJson.depth + 1) b.toJson = some b := by
      intro b hb
      refine Binding.read_toJson b (Nat.lt_succ_self _) fun x hx => h x (List.mem_append_right _ ?_)
      exact mem_exprsList hb hx
    rw [Expr.kind, hread, readConstruct_fields has, Expr.bindingsToJson_eq, Option.bind_some,
      Json.list?_map hbs]
    rfl
  | isNull x =>
    have hread : Expr.readParts expr stage .isNull (.object (Expr.isNull x).parts) =
        (expr x.toJson).bind fun x => some (.isNull x) := rfl
    rw [Expr.kind, hread, h x List.mem_cons_self]
    rfl
  | subquery s t =>
    have hread : Expr.readParts expr stage .subquery (.object (Expr.subquery s t).parts) =
        (stage (.object s.parts)).bind fun s => (DataType.ofJson? true t.toJson).bind fun t =>
          some (.subquery s t) := rfl
    rw [Expr.kind, hread, hstage s rfl, DataType.ofJson?_toJson]
    rfl
  | scalar s t =>
    have hread : Expr.readParts expr stage .scalar (.object (Expr.scalar s t).parts) =
        (stage (.object s.parts)).bind fun s => (DataType.ofJson? true t.toJson).bind fun t =>
          some (.scalar s t) := rfl
    rw [Expr.kind, hread, hstage s rfl, DataType.ofJson?_toJson]
    rfl
  | select s =>
    have hread : Expr.readParts expr stage .select (.object (Expr.select s).parts) =
        (stage (.object s.parts)).map .select := rfl
    rw [Expr.kind, hread, hstage s rfl]
    rfl
  | column n scope t =>
    have hread : Expr.readParts expr stage .column (.object (Expr.column n scope t).parts) =
        (nameOf? true Scope.all Scope.name (.string scope.name)).bind fun scope =>
          (DataType.ofJson? true t.toJson).bind fun t => some (.column n scope t) := rfl
    rw [Expr.kind, hread, Scope.nameOf?_name, DataType.ofJson?_toJson]
    rfl

/-- No part of a node has the key of the kind, so the kind is told apart from them. -/
theorem Expr.untag?_toJson (e : Expr) : e.toJson.untag? "kind" = some (.string e.kind.name, .object e.parts) := by
  cases e with
  | construct t as ns => cases ns <;> rfl
  | select s =>
    obtain ⟨source, filter, columns, projected, grouping, orderBy, limit, element, projector⟩ := s
    rfl
  | _ => rfl

theorem Expr.read_succ (fuel : Nat) (lenient : Bool) (e : Expr) : Expr.read (fuel + 1) lenient e.toJson =
    Expr.readParts (Expr.read fuel true) (Stage.read fuel true) e.kind (.object e.parts) := by
  have htag : Json.tagName? lenient (Kind.all.map Kind.name) (.string e.kind.name) = some e.kind.name := rfl
  rw [Expr.read, Expr.untag?_toJson, Option.bind_eq_bind, Option.bind_some]
  dsimp only
  rw [htag, Option.bind_eq_bind, Option.bind_some, Kind.ofName?_name]
  rfl

/-! ### Trees -/

/-- A tree is read back with enough fuel. -/
def Expr.ReadsBack (x : Expr) : Prop :=
  ∀ fuel lenient, 2 * x.toJson.depth + 2 ≤ fuel → Expr.read fuel lenient x.toJson = some x

mutual

theorem Stage.readsBack : ∀ (s : Stage) {fuel : Nat} (lenient : Bool), 2 * Json.depthFields s.parts + 3 ≤ fuel →
    (∀ x ∈ s.exprs, x.ReadsBack) → Stage.read fuel lenient (.object s.parts) = some s
  | ⟨source, filter, columns, projected, grouping, orderBy, limit, element, projector⟩, fuel + 1, lenient, hfuel,
    h => by
    have hencloses := encloses_stage ⟨source, filter, columns, projected, grouping, orderBy, limit, element, projector⟩
    have hreads : Reads (Expr.read fuel lenient)
        (Stage.exprs ⟨source, filter, columns, projected, grouping, orderBy, limit, element, projector⟩) := by
      intro x hx
      have hdepth := hencloses.depth x hx
      exact h x hx fuel lenient (by omega)
    -- The object of a source stands between a stage and the stage that it reads, and takes no fuel itself.
    have hsource : 2 * source.toJson.depth ≤ fuel := by
      simp only [Stage.parts, Json.depthFields] at hfuel
      omega
    rw [Stage.exprs] at hreads h
    obtain ⟨-, hreads⟩ := List.forall_mem_append.mp hreads
    obtain ⟨hfilter, hreads⟩ := List.forall_mem_append.mp hreads
    obtain ⟨hcolumns, hreads⟩ := List.forall_mem_append.mp hreads
    obtain ⟨hgrouping, horder⟩ := List.forall_mem_append.mp hreads
    rw [Stage.read]
    exact Stage.readParts_parts lenient
      (Source.readsBack source lenient hsource (List.forall_mem_append.mp h).1) hfilter hcolumns hgrouping horder

theorem Source.readsBack : ∀ (source : Source) {fuel : Nat} (lenient : Bool), 2 * source.toJson.depth ≤ fuel →
    (∀ x ∈ source.exprs, x.ReadsBack) → Source.read (Stage.read fuel true) lenient source.toJson = some source
  | .base name, fuel, lenient, _, _ => rfl
  | .stage inner, fuel, lenient, hfuel, h => by
    have hread : Source.read (Stage.read fuel true) lenient (Source.stage inner).toJson =
        (Stage.read fuel true (.object inner.parts)).map .stage := rfl
    have hinner : 2 * Json.depthFields inner.parts + 3 ≤ fuel := by
      simp only [Source.toJson, Json.depth, Json.depthFields] at hfuel
      omega
    rw [Source.exprs] at h
    rw [hread, Stage.readsBack inner true hinner h]
    rfl

end

theorem depth_of_stage {e : Expr} {s : Stage} (h : e.stage? = some s) :
    Json.depthFields s.parts ≤ Json.depthFields e.parts := by
  cases e with
  | subquery u t =>
    cases h
    simp only [Expr.parts, Json.depthFields, Json.depth]
    omega
  | scalar u t =>
    cases h
    simp only [Expr.parts, Json.depthFields, Json.depth]
    omega
  | select u =>
    cases h
    exact Nat.le_refl _
  | _ => cases h

theorem Expr.readsBack {e : Expr} (h : e.Kept) : e.ReadsBack := by
  induction e using Expr.childInduction with
  | h e ih =>
    intro fuel lenient hfuel
    have hvalue : ∀ v t, e = .constant v t → v.Kept := fun _ _ he => h.constant he
    have hchildren : ∀ c ∈ e.children, c.ReadsBack := fun c hc => ih c hc (h.child hc)
    obtain ⟨fuel, rfl⟩ : ∃ n, fuel = n + 1 := ⟨fuel - 1, by omega⟩
    rw [Expr.read_succ]
    rw [Expr.depth_toJson] at hfuel
    refine Expr.readParts_parts (fun c hc => ?_) hvalue fun s hs => ?_
    · have hdepth := (encloses_parts hvalue).depth c hc
      exact hchildren c hc fuel true (by omega)
    · have hdepth := depth_of_stage hs
      rw [Expr.children_of_stage hs] at hchildren
      exact s.readsBack true (by omega) hchildren

/-- The JSON text of a tree reads back as that tree: any kinds of nodes, nested in any way, with any names, texts and
limits, as long as no constant is a floating-point number, its date-times read back from their own texts, and the JSON
value nests no deeper than a text may. -/
theorem trees_read_back {e : Expr} (hfloat : ∀ x t, ¬Expr.Occurs (.constant (.float x) t) e)
    (hdate : ∀ d t, Expr.Occurs (.constant (.dateTime d) t) e → DateTime.ofText? d.text = some d)
    (hdepth : e.toJson.depth ≤ Json.maxDepth) : Expr.parse? e.jsonText = some e := by
  have hkept : e.Kept := by
    intro v t hv
    cases v with
    | float x => exact hfloat x t hv
    | dateTime d => exact hdate d t hv
    | _ => trivial
  rw [Expr.parse?, Expr.jsonText, Json.parse?_write (Expr.exact_toJson hkept) hdepth, Option.bind_some, Expr.ofJson?]
  exact Expr.readsBack hkept _ false (Nat.le_refl _)

/-- A tree with a stage inside a binding, names that need escapes, a date-time and integers at their bounds. -/
def boundOrder : Expr :=
  .lambda [⟨"r\n\x01", .grouping .string (.record "Größe\"" [⟨"a", .array .int64, true⟩])⟩]
    (.recordInit (.query .unknown) [.constant (.int (-9223372036854775808)) .int64] ["k"]
      [.nested "m" [.assign "n" (.constant (.dateTime ⟨15097, 57720, 250000000⟩) .dateTime)],
        .list "l" [⟨"Add", [.scalar
          { Stage.base "s\\" .unknown with
            columns := [⟨"c", .column "c" .row .string⟩]
            grouping := some (.keys [.isNull (.parameter "p" .unknown)])
            limit := some 18446744073709551615 } .unknown]⟩]])

theorem kept_boundOrder : boundOrder.Kept := by
  have hnode : ∀ {e : Expr}, e.kind ≠ .constant → (∀ c ∈ e.children, c.Kept) → e.Kept := by
    intro e he h
    refine Expr.kept_of_children (fun v t hconstant => ?_) h
    rw [hconstant] at he
    exact absurd rfl he
  have hconstant : ∀ {v : Value} {t : DataType}, v.Kept → (Expr.constant v t).Kept := by
    intro v t hv
    refine Expr.kept_of_children (fun w u hw => ?_) (List.forall_mem_nil _)
    cases hw
    exact hv
  have hdate : Value.Kept (.dateTime ⟨15097, 57720, 250000000⟩) := by
    rw [Value.Kept]
    decide +kernel
  have hleaf : ∀ {e : Expr}, e.kind ≠ .constant → e.children = [] → e.Kept := by
    intro e he hc
    refine hnode he ?_
    rw [hc]
    exact List.forall_mem_nil _
  have hkey : (Expr.isNull (.parameter "p" .unknown)).Kept :=
    hnode (by decide) (List.forall_mem_singleton.mpr (hleaf (by decide) rfl))
  refine hnode (by decide) (List.forall_mem_singleton.mpr (hnode (by decide) ?_))
  refine List.forall_mem_cons.mpr ⟨hconstant trivial, List.forall_mem_cons.mpr ⟨hconstant hdate, ?_⟩⟩
  refine List.forall_mem_singleton.mpr (hnode (by decide) ?_)
  exact List.forall_mem_cons.mpr ⟨hleaf (by decide) rfl, List.forall_mem_singleton.mpr hkey⟩

theorem trees_read_back_boundOrder :
    (∀ x t, ¬Expr.Occurs (.constant (.float x) t) boundOrder) ∧
      (∀ d t, Expr.Occurs (.constant (.dateTime d) t) boundOrder → DateTime.ofText? d.text = some d) ∧
      boundOrder.toJson.depth ≤ Json.maxDepth ∧ Expr.parse? boundOrder.jsonText = some boundOrder := by
  have hfloat : ∀ x t, ¬Expr.Occurs (.constant (.float x) t) boundOrder := fun x t h => kept_boundOrder _ t h
  have hdate : ∀ d t, Expr.Occurs (.constant (.dateTime d) t) boundOrder → DateTime.ofText? d.text = some d :=
    fun d t h => kept_boundOrder _ t h
  have hdepth : boundOrder.toJson.depth ≤ Json.maxDepth := by decide +kernel
  exact ⟨hfloat, hdate, hdepth, trees_read_back hfloat hdate hdepth⟩

end PigChain
