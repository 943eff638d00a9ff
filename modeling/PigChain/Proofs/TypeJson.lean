import PigChain.Expr.OfJson
import PigChain.Proofs.JsonText

/-!
# Types, values and projectors read back

Each part of a tree that holds no expression reads back from its JSON value, leniently or not. A type is read with fuel
for its nesting, so what is read back is asked to nest less deep than the fuel.
-/

namespace PigChain

/-! ### Lists -/

theorem Json.list?_map {α : Type} {read : Json → Option α} {f : α → Json} {xs : List α}
    (h : ∀ x ∈ xs, read (f x) = some x) : Json.list? read (.array (xs.map f)) = some xs := by
  rw [Json.list?]
  induction xs with
  | nil => rfl
  | cons x xs ih =>
    have hrest := ih fun y hy => h y (List.mem_cons_of_mem x hy)
    rw [List.map_cons, List.mapM_cons, h x List.mem_cons_self, hrest]
    rfl

/-! ### Types -/

mutual

theorem DataType.exact_toJson : ∀ t : DataType, t.toJson.Exact
  | .bool => trivial
  | .int64 => trivial
  | .float64 => trivial
  | .string => trivial
  | .dateTime => trivial
  | .record _ fields => ⟨⟨trivial, DataType.exact_fieldsToJson fields, trivial⟩, trivial⟩
  | .array t => ⟨t.exact_toJson, trivial⟩
  | .query t => ⟨t.exact_toJson, trivial⟩
  | .grouping k t => ⟨⟨k.exact_toJson, t.exact_toJson, trivial⟩, trivial⟩
  | .unknown => trivial

theorem Field.exact_toJson : ∀ f : Field, f.toJson.Exact
  | ⟨_, type, _⟩ => ⟨trivial, type.exact_toJson, trivial, trivial⟩

theorem DataType.exact_fieldsToJson : ∀ fields : List Field, Json.ExactItems (DataType.fieldsToJson fields)
  | [] => trivial
  | f :: fields => ⟨f.exact_toJson, DataType.exact_fieldsToJson fields⟩

end

mutual

theorem DataType.read_toJson (lenient : Bool) : ∀ (t : DataType) {fuel : Nat}, t.toJson.depth < fuel →
    DataType.read lenient fuel t.toJson = some t
  | .bool, fuel + 1, _ => rfl
  | .int64, fuel + 1, _ => rfl
  | .float64, fuel + 1, _ => rfl
  | .string, fuel + 1, _ => rfl
  | .dateTime, fuel + 1, _ => rfl
  | .record name fields, fuel + 1, h => by
    have hread : DataType.read lenient (fuel + 1) (DataType.record name fields).toJson =
        ((DataType.fieldsToJson fields).mapM (Field.read (DataType.read lenient fuel))).bind fun fields =>
          some (.record name fields) := rfl
    have hdepth : Json.depthItems (DataType.fieldsToJson fields) ≤ fuel := by
      simp only [DataType.toJson, Json.tagged, Json.depth, Json.depthFields] at h
      omega
    rw [hread, DataType.read_fieldsToJson lenient fields hdepth]
    rfl
  | .array t, fuel + 1, h => by
    have hread : DataType.read lenient (fuel + 1) (DataType.array t).toJson =
        (DataType.read lenient fuel t.toJson).map .array := rfl
    have hdepth : t.toJson.depth < fuel := by
      simp only [DataType.toJson, Json.tagged, Json.depth, Json.depthFields] at h
      omega
    rw [hread, DataType.read_toJson lenient t hdepth]
    rfl
  | .query t, fuel + 1, h => by
    have hread : DataType.read lenient (fuel + 1) (DataType.query t).toJson =
        (DataType.read lenient fuel t.toJson).map .query := rfl
    have hdepth : t.toJson.depth < fuel := by
      simp only [DataType.toJson, Json.tagged, Json.depth, Json.depthFields] at h
      omega
    rw [hread, DataType.read_toJson lenient t hdepth]
    rfl
  | .grouping k t, fuel + 1, h => by
    have hread : DataType.read lenient (fuel + 1) (DataType.grouping k t).toJson =
        (DataType.read lenient fuel k.toJson).bind fun k => (DataType.read lenient fuel t.toJson).bind fun t =>
          some (.grouping k t) := rfl
    have hdepth : k.toJson.depth < fuel ∧ t.toJson.depth < fuel := by
      simp only [DataType.toJson, Json.tagged, Json.depth, Json.depthFields] at h
      omega
    rw [hread, DataType.read_toJson lenient k hdepth.1, DataType.read_toJson lenient t hdepth.2]
    rfl
  | .unknown, fuel + 1, _ => rfl

theorem Field.read_toJson (lenient : Bool) : ∀ (f : Field) {fuel : Nat}, f.toJson.depth ≤ fuel →
    Field.read (DataType.read lenient fuel) f.toJson = some f
  | ⟨name, type, nullable⟩, fuel, h => by
    have hread : Field.read (DataType.read lenient fuel) (Field.toJson ⟨name, type, nullable⟩) =
        (DataType.read lenient fuel type.toJson).bind fun type => some ⟨name, type, nullable⟩ := rfl
    have hdepth : type.toJson.depth < fuel := by
      simp only [Field.toJson, Json.depth, Json.depthFields] at h
      omega
    rw [hread, DataType.read_toJson lenient type hdepth]
    rfl

theorem DataType.read_fieldsToJson (lenient : Bool) : ∀ (fields : List Field) {fuel : Nat},
    Json.depthItems (DataType.fieldsToJson fields) ≤ fuel →
      (DataType.fieldsToJson fields).mapM (Field.read (DataType.read lenient fuel)) = some fields
  | [], _, _ => rfl
  | f :: fields, fuel, h => by
    have hdepth : f.toJson.depth ≤ fuel ∧ Json.depthItems (DataType.fieldsToJson fields) ≤ fuel := by
      simp only [DataType.fieldsToJson, Json.depthItems] at h
      omega
    rw [DataType.fieldsToJson, List.mapM_cons, Field.read_toJson lenient f hdepth.1,
      DataType.read_fieldsToJson lenient fields hdepth.2]
    rfl

end

@[simp] theorem DataType.ofJson?_toJson (lenient : Bool) (t : DataType) : DataType.ofJson? lenient t.toJson = some t :=
  t.read_toJson lenient (Nat.lt_succ_self _)

/-! ### Values -/

/-- A value that its JSON form keeps: no floating-point number, and a date-time only if it reads back from its text. -/
def Value.Kept : Value → Prop
  | .float _ => False
  | .dateTime d => DateTime.ofText? d.text = some d
  | _ => True

theorem Value.exact_toJson {v : Value} (h : v.Kept) : v.toJson.Exact := by
  cases v with
  | int n =>
    have hlow := n.le_toInt
    have hhigh := n.toInt_lt
    refine ⟨⟨?_, ?_⟩, trivial⟩ <;> omega
  | float x => exact h.elim
  | null => trivial
  | _ => exact ⟨trivial, trivial⟩

theorem Value.ofJson?_toJson (lenient : Bool) {v : Value} (h : v.Kept) : Value.ofJson? lenient v.toJson = some v := by
  cases v with
  | int n =>
    have hread : Value.ofJson? lenient (Value.int n).toJson = (Json.int64? (.int n.toInt)).map .int := rfl
    have hrange : inInt64 n.toInt = true := by
      have hlow := n.le_toInt
      have hhigh := n.toInt_lt
      rw [inInt64, Bool.and_eq_true, decide_eq_true_eq, decide_eq_true_eq]
      omega
    rw [hread, Json.int64?, if_pos hrange, Int64.ofInt_toInt]
    rfl
  | float x => exact h.elim
  | dateTime d =>
    rw [Value.Kept] at h
    unfold Value.ofJson?
    -- The reader of dates stays closed.
    generalize DateTime.ofText? = read at h ⊢
    have hread : (Json.text? (.string d.text)).bind read = some d := h
    exact congrArg (Option.map Value.dateTime) hread
  | _ => rfl

/-! ### Projectors -/

theorem OutputColumn.ofJson?_toJson (lenient : Bool) (c : OutputColumn) :
    OutputColumn.ofJson? lenient c.toJson = some c := by
  have hread : OutputColumn.ofJson? lenient c.toJson =
      (DataType.ofJson? lenient c.type.toJson).bind fun type => some ⟨c.name, type⟩ := rfl
  rw [hread, DataType.ofJson?_toJson]
  rfl

theorem Parameter.ofJson?_toJson (lenient : Bool) (p : Parameter) : Parameter.ofJson? lenient p.toJson = some p := by
  have hread : Parameter.ofJson? lenient p.toJson =
      (DataType.ofJson? lenient p.type.toJson).bind fun type => some ⟨p.name, type⟩ := rfl
  rw [hread, DataType.ofJson?_toJson]
  rfl

theorem Projector.ofJson?_toJson (lenient : Bool) (p : Projector) : Projector.ofJson? lenient p.toJson = some p := by
  have hread : Projector.ofJson? lenient p.toJson =
      (Json.list? (OutputColumn.ofJson? lenient) (.array (p.columns.map OutputColumn.toJson))).bind fun columns =>
        (nameOf? lenient Shape.all Shape.name (.string p.shape.name)).bind fun shape => some ⟨columns, shape⟩ := rfl
  have hshape : nameOf? lenient Shape.all Shape.name (.string p.shape.name) = some p.shape := by
    cases p.shape <;> rfl
  rw [hread, Json.list?_map fun c _ => c.ofJson?_toJson lenient, hshape]
  rfl

theorem OutputColumn.exact_toJson (c : OutputColumn) : c.toJson.Exact := ⟨trivial, c.type.exact_toJson, trivial⟩

theorem Projector.exact_toJson (p : Projector) : p.toJson.Exact := by
  refine ⟨Json.exactItems_iff.mpr ?_, trivial, trivial⟩
  rw [List.forall_mem_map]
  exact fun c _ => c.exact_toJson

end PigChain
