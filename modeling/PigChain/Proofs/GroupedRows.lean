import PigChain.Proofs.Coercion
import PigChain.Proofs.Fields

/-!
# Decoding the rows of a group

The bag of a group is a list of tuples that follow the columns of the relation that was grouped, and the projector reads
each of them as a record of the row type. The two go together as long as every projection that declares a record makes
the columns of that record, in its order: then each value comes under the name of its column. Nothing in a chain forces
this, and a projection that declares the fields in another order has them exchanged.
-/

namespace PigChain

/-! ### Objects and tuples -/

/-- The items of a tuple as values of the fields, one for each field in order. -/
inductive ReadsAs : List Field → List Json → List Json → Prop where
  | nil : ReadsAs [] [] []
  | cons {f : Field} {raw value : Json} {fields : List Field} {tuple values : List Json}
    (h : coerce f.name f.type raw = .ok value) (hs : ReadsAs fields tuple values) :
    ReadsAs (f :: fields) (raw :: tuple) (value :: values)

/-- An object has the value of each column under the name of the column. Of columns with the same name it has the
last. -/
def Named (names : List String) (values : List Json) (object : Json) : Prop :=
  ∀ i name value, names[i]? = some name → values[i]? = some value → name ∉ names.drop (i + 1) →
    object.get? name = some value

theorem ReadsAs.length {fields : List Field} {tuple values : List Json} (h : ReadsAs fields tuple values) :
    tuple.length = fields.length := by
  induction h with
  | nil => rfl
  | cons _ _ ih => rw [List.length_cons, List.length_cons, ih]

/-- A field that comes later is put over one of the same name, and leaves the others alone. -/
theorem coerceTuple_of_readsAs {fields : List Field} {tuple values : List Json} (h : ReadsAs fields tuple values)
    (done : List (String × Json)) :
    ∃ result, coerceTuple fields tuple done = .ok result ∧ Named (fields.map Field.name) values (.object result) ∧
      ∀ name, name ∉ fields.map Field.name → Json.field? name result = Json.field? name done := by
  induction h generalizing done with
  | nil =>
    refine ⟨done, by rw [coerceTuple], ?_, fun _ _ => rfl⟩
    intro i name value hname
    simp at hname
  | @cons f raw value fields tuple values hcoerce hs ih =>
    obtain ⟨result, hresult, hnamed, hother⟩ := ih (Json.insertField f.name value done)
    refine ⟨result, ?_, ?_, ?_⟩
    · obtain ⟨name, type, nullable⟩ := f
      rw [coerceTuple, hcoerce]
      exact hresult
    · intro i name v hname hv hlast
      cases i with
      | zero =>
        obtain rfl : f.name = name := by simpa using hname
        obtain rfl : value = v := by simpa using hv
        have hrest : f.name ∉ fields.map Field.name := by simpa using hlast
        show Json.field? f.name result = some value
        rw [hother f.name hrest, Json.field?_insertField_self]
      | succ i => exact hnamed i name v hname hv hlast
    · intro name hname
      rw [List.map_cons, List.mem_cons, not_or] at hname
      rw [hother name hname.2, Json.field?_insertField_of_ne hname.1]

theorem coerce_of_readsAs {fields : List Field} {tuple values : List Json} (h : ReadsAs fields tuple values)
    (target record : String) :
    ∃ object, coerce target (.record record fields) (.array tuple) = .ok object ∧
      Named (fields.map Field.name) values object := by
  obtain ⟨result, hresult, hnamed, -⟩ := coerceTuple_of_readsAs h []
  refine ⟨.object result, ?_, hnamed⟩
  rw [coerce, if_pos h.length, hresult]
  rfl

/-- The rows of a group, with the key and with every tuple of the bag read as a record. -/
theorem project_group {key : DataType} {record : String} {fields : List Field} {raw rawKey : Json}
    {tuples values : List (List Json)} (hkey : coerce "Key" key raw = .ok rawKey)
    (h : List.Forall₂ (ReadsAs fields) tuples values) :
    ∃ objects, (Projector.ofElement (.grouping key (.record record fields))).project
        [raw, .array (tuples.map .array)] = .ok (.object [("Elements", .array objects), ("Key", rawKey)]) ∧
      List.Forall₂ (Named (fields.map Field.name)) values objects := by
  have hitems : ∃ objects, (tuples.map Json.array).mapM (coerce "Elements" (.record record fields)) = .ok objects ∧
      List.Forall₂ (Named (fields.map Field.name)) values objects := by
    induction h with
    | nil => exact ⟨[], rfl, .nil⟩
    | cons hread _ ih =>
      obtain ⟨objects, hobjects, hnamed⟩ := ih
      obtain ⟨object, hobject, hname⟩ := coerce_of_readsAs hread "Elements" record
      refine ⟨object :: objects, ?_, .cons hname hnamed⟩
      rw [List.map_cons, List.mapM_cons, hobject, hobjects]
      rfl
  obtain ⟨objects, hobjects, hnamed⟩ := hitems
  refine ⟨objects, ?_, hnamed⟩
  have helements : coerce "Elements" (.array (.record record fields)) (.array (tuples.map .array)) =
      .ok (.array objects) := by
    rw [coerce, hobjects]
    rfl
  show ((Projector.projectFields [⟨"Key", key⟩, ⟨"Elements", .array (.record record fields)⟩]
    [raw, .array (tuples.map .array)] []).map Json.object) = _
  rw [Projector.projectFields, hkey]
  show ((Projector.projectFields [⟨"Elements", .array (.record record fields)⟩] [.array (tuples.map .array)]
    [("Key", rawKey)]).map Json.object) = _
  have hplaced : Json.insertField "Elements" (.array objects) [("Key", rawKey)] =
      [("Elements", .array objects), ("Key", rawKey)] := by
    rw [Json.insertField, if_pos (by decide)]
  rw [Projector.projectFields, helements]
  show Except.ok (Json.object (Json.insertField "Elements" (.array objects) [("Key", rawKey)])) = _
  rw [hplaced]

/-! ### The row type of a stage -/

variable {base : List String} {nested : Expr → BindM Stage} {s s' : Stage}

theorem Stage.wrapped_projector (s : Stage) : s.wrapped.projector = s.projector := by
  unfold Stage.wrapped
  split <;> rfl

/-- A new stage over a stage has rows of the same type, read alike. -/
theorem Stage.openIf_rows (s : Stage) (closed : Bool) :
    (s.openIf closed).element = s.element ∧ (s.openIf closed).projector = s.projector := by
  cases closed with
  | true => exact ⟨s.wrapped_element, s.wrapped_projector⟩
  | false => exact ⟨rfl, rfl⟩

/-- The row type lists the fields that the stage outputs, if its rows are read as records. -/
structure Stage.ListsFields (base : List String) (s : Stage) : Prop where
  grouped : s.grouping.isSome = true → s.element.isGrouping = true
  record : s.projector.shape = .record → ∀ record fields, s.element = .record record fields →
    fields.map Field.name = s.generated base

namespace Stage.ListsFields

theorem grouping_eq_none {record : String} {fields : List Field} (h : s.ListsFields base)
    (he : s.element = .record record fields) : s.grouping = none := by
  cases hg : s.grouping with
  | none => rfl
  | some g =>
    have hgroup := h.grouped (by rw [hg]; rfl)
    rw [he] at hgroup
    cases hgroup

theorem wrapped (h : s.ListsFields base) : s.wrapped.ListsFields base := by
  refine ⟨fun hg => ?_, fun hshape record fields he => ?_⟩
  · rw [s.wrapped_grouping] at hg
    cases hg
  · rw [s.wrapped_projector] at hshape
    rw [s.wrapped_element] at he
    rw [Stage.generated_wrapped, Stage.fields_of_ungrouped (h.grouping_eq_none he)]
    exact h.record hshape record fields he

theorem openIf (h : s.ListsFields base) (closed : Bool) : (s.openIf closed).ListsFields base := by
  cases closed with
  | true => exact h.wrapped
  | false => exact h

/-- Only the columns of a projected stage decide which fields it outputs. -/
theorem noteColumns (h : s.ListsFields base) (hp : s.projected = false) (noted : List Column) :
    (s.noteColumns noted).ListsFields base := by
  obtain ⟨added, -, heq⟩ := s.noteColumns_eq noted
  rw [heq]
  refine ⟨h.grouped, fun hshape record fields he => ?_⟩
  have hlisted := h.record hshape record fields he
  rw [Stage.generated_of_passing hp] at hlisted
  rw [Stage.generated_of_passing (s := { s with columns := s.columns ++ added }) hp]
  exact hlisted

end Stage.ListsFields

theorem inputColumns_names {columns composed : List Column} (h : s.inputColumns columns = .ok composed) :
    Column.names composed = Column.names columns := by
  unfold Stage.inputColumns at h
  split at h
  · exact composeColumns_names h
  · cases h
    rfl

/-- A projection is read as values, as records that it declares, or as records of its columns. -/
theorem projectionShape_record {columns : List Column} {declared element : DataType} {projector : Projector}
    {record : String} {fields : List Field} (h : projectionShape columns declared = .ok (element, projector))
    (hshape : projector.shape = .record) (he : element = .record record fields) :
    declared = .record record fields ∨ fields.map Field.name = Column.names columns := by
  unfold projectionShape at h
  split at h
  · obtain ⟨output, -, h⟩ := except_do_eq_ok.mp h
    cases h
    exact .inl he
  · dsimp only at h
    split at h
    · cases h
      cases hshape
    · split at h
      · cases h
        cases hshape
      · cases h
  · cases h
    cases he
    refine .inr ?_
    simp [Column.names, Function.comp_def]

/-! ### Chains -/

/-- The columns that a projection of the rows of a stage makes. A selector that is the row itself makes none. -/
def MakesColumns (nested : Expr → BindM Stage) (s : Stage) (selector : Option Expr) (columns : List Column) : Prop :=
  ∃ p body, selector = some (.lambda [p] body) ∧ (body.isParameter p.name && !s.isValue) = false ∧
    (bindProjection nested s.toSelect p.name body).outcome = .ok columns

/-- A chain over a source in which every projection that declares a record makes the columns of the record, in its
order. -/
inductive DeclaresColumns (nested : Expr → BindM Stage) : Expr → Prop where
  | source {name : String} {type : DataType} : DeclaresColumns nested (.constant (.source name) type)
  | step {chain : Expr} {method : String} {args : List Expr} {type : DataType} (hc : DeclaresColumns nested chain)
    (hs : method = "Select" → ∀ b columns record fields, (bindWith nested chain).outcome = .ok b →
      MakesColumns nested b.stage args.head? columns → type.element? = some (.record record fields) →
      Column.names columns = fields.map Field.name) :
    DeclaresColumns nested (.call none method (chain :: args) type)

theorem listsFields_bindFilter {predicate : Expr} (hs : s.ListsFields base)
    (h : (bindFilter nested s predicate).outcome = .ok s') : s'.ListsFields base := by
  obtain ⟨p, body, bound, rfl, -, hmerge⟩ := bindFilter_eq_ok h
  have hopen : s.toFilter.ListsFields base := hs.openIf _
  rcases mergeFilter_eq_ok hmerge with ⟨hp, rfl⟩ | ⟨_, _, e, _, rfl⟩ | ⟨_, _, rfl⟩
  · have hnoted := hopen.noteColumns hp bound.noted
    exact ⟨hnoted.grouped, hnoted.record⟩
  · exact ⟨hopen.grouped, hopen.record⟩
  · exact ⟨hopen.wrapped.grouped, hopen.wrapped.record⟩

theorem listsFields_bindSelect {selector : Expr} {declared : DataType} (hs : s.ListsFields base)
    (hd : ∀ columns record fields, MakesColumns nested s (some selector) columns → declared = .record record fields →
      Column.names columns = fields.map Field.name)
    (h : (bindSelect nested s selector declared).outcome = .ok s') : s'.ListsFields base := by
  obtain ⟨p, body, rfl, ⟨-, rfl⟩ | ⟨hbody, columns, element, projector, composed, s₁, hcols, hshape, hinput, hmerge, rfl⟩⟩ :=
    bindSelect_eq_ok h
  · exact hs
  · have hnames : Column.names s₁.columns = Column.names columns ∧ s₁.grouping = none := by
      rcases mergeColumns_eq_ok hmerge with ⟨-, rfl⟩ | ⟨-, rfl⟩
      · exact ⟨inputColumns_names hinput, s.toSelect_grouping⟩
      · exact ⟨rfl, s.toSelect.wrapped_grouping⟩
    refine ⟨fun hg => ?_, fun hrecord record fields he => ?_⟩
    · rw [show _ = none from hnames.2] at hg
      cases hg
    · rw [Stage.generated_of_projected rfl]
      show fields.map Field.name = Column.names s₁.columns
      rw [hnames.1]
      rcases projectionShape_record hshape hrecord he with hdeclared | hsame
      · exact (hd columns record fields ⟨p, body, rfl, hbody, hcols⟩ hdeclared).symm
      · exact hsame

theorem listsFields_bindOrder {key : Expr} {direction : Direction} {after : Bool} (hs : s.ListsFields base)
    (h : (bindOrder nested s key direction after).outcome = .ok s') : s'.ListsFields base := by
  obtain ⟨p, body, bound, rfl, -, -, rfl⟩ := bindOrder_eq_ok h
  have hopen : s.toOrder.ListsFields base := hs.openIf _
  cases hp : s.toOrder.projected with
  | true => exact ⟨hopen.grouped, hopen.record⟩
  | false =>
    have hnoted := hopen.noteColumns hp bound.noted
    exact ⟨hnoted.grouped, hnoted.record⟩

/-- Groups and aggregates are not read as records of a row type. -/
theorem listsFields_applies {b b' : Bound} {method : String} {arg : Option Expr} {type : DataType}
    (hs : b.stage.ListsFields base)
    (hd : method = "Select" → ∀ columns record fields, MakesColumns nested b.stage arg columns →
      type.element? = some (.record record fields) → Column.names columns = fields.map Field.name)
    (h : Applies nested b type method arg b') : b'.stage.ListsFields base := by
  cases h with
  | filter h => exact listsFields_bindFilter hs h
  | select h =>
    refine listsFields_bindSelect hs (fun columns record fields hmakes hdeclared => ?_) h
    refine hd rfl columns record fields hmakes ?_
    cases ht : type.element? with
    | none => rw [ht] at hdeclared; cases hdeclared
    | some t => rw [ht] at hdeclared; exact congrArg some hdeclared
  | group declared _ h =>
    obtain ⟨p, body, keys, rfl, -, rfl⟩ := bindGroup_eq_ok h
    exact ⟨fun _ => rfl, fun _ _ _ he => nomatch he⟩
  | take h => exact ⟨hs.grouped, hs.record⟩
  | first => exact ⟨hs.grouped, hs.record⟩
  | firstWhere h =>
    have hfiltered := listsFields_bindFilter hs h
    exact ⟨hfiltered.grouped, hfiltered.record⟩
  | order _ h => exact listsFields_bindOrder hs h
  | aggregate _ h =>
    obtain ⟨s₁, bag, -, rfl⟩ := bindAggregate_eq_ok h
    refine ⟨fun hg => ?_, fun hshape => nomatch hshape⟩
    rw [show (aggregateStage s₁ _ bag _).grouping = none from Stage.wrapped_grouping _] at hg
    cases hg

theorem listsFields_base (name : String) (element : DataType) :
    (Stage.base name element).ListsFields element.fieldNames := by
  refine ⟨(fun hg => nomatch hg), fun _ record fields he => ?_⟩
  have he' : element = .record record fields := he
  subst he'
  rfl

theorem listsFields_bindWith {chain : Expr} {b : Bound} (hc : DeclaresColumns nested chain)
    (h : (bindWith nested chain).outcome = .ok b) : b.stage.ListsFields chain.sourceFields := by
  induction hc generalizing b with
  | @source name type =>
    rw [bindWith] at h
    cases ht : type.element? with
    | none =>
      rw [ht] at h
      cases h
    | some element =>
      rw [ht] at h
      cases h
      rw [Expr.sourceFields, ht]
      exact listsFields_base name element
  | @step chain method args type _ hs ih =>
    obtain ⟨b₀, hb₀, happ⟩ := bindWith_call_eq_ok h
    have hlists := ih hb₀
    rw [Expr.sourceFields]
    exact listsFields_applies hlists (fun hm columns record fields => hs hm b₀ columns record fields hb₀) happ

/-- The record that the bag of a group is read as lists the columns of the grouped relation, so that every tuple of
those columns is decoded column by column. -/
theorem grouped_rows_decode_by_column {chain : Expr} {args : List Expr} {type : DataType} {b b' : Bound}
    {record : String} {fields : List Field} (hc : DeclaresColumns nestedStage chain)
    (hb : chain.bound.outcome = .ok b) (he : b.stage.element = .record record fields)
    (hr : b.stage.projector.shape = .record)
    (hg : (Expr.call none "GroupBy" (chain :: args) type).bound.outcome = .ok b') :
    ∃ key, b'.stage.projector = .record [⟨"Key", key⟩, ⟨"Elements", .array (.record record fields)⟩] ∧
      fields.map Field.name = b'.stage.generated chain.sourceFields ∧
      ∀ raw rawKey tuples values, coerce "Key" key raw = .ok rawKey → List.Forall₂ (ReadsAs fields) tuples values →
        ∃ objects, b'.stage.projector.project [raw, .array (tuples.map .array)] =
            .ok (.object [("Elements", .array objects), ("Key", rawKey)]) ∧
          List.Forall₂ (Named (b'.stage.generated chain.sourceFields)) values objects := by
  rw [bound_eq_bindWith] at hb hg
  obtain ⟨b₀, hb₀, happ⟩ := bindWith_call_eq_ok hg
  obtain rfl : b₀ = b := Except.ok.inj (hb₀.symm.trans hb)
  have hlists : b₀.stage.ListsFields chain.sourceFields := listsFields_bindWith hc hb₀
  obtain ⟨selector, declared, -, h⟩ := happ.clause.2.2.1 rfl
  obtain ⟨p, body, keys, -, -, hstage⟩ := bindGroup_eq_ok h
  have hopen : b₀.stage.toGroup.ListsFields chain.sourceFields := hlists.openIf _
  obtain ⟨helem, hproj⟩ : b₀.stage.toGroup.element = _ ∧ b₀.stage.toGroup.projector = _ := b₀.stage.openIf_rows _
  rw [he] at helem
  have hprojector : b'.stage.projector = .ofElement (.grouping (keyType declared keys) (.record record fields)) := by
    rw [hstage, ← helem]
    rfl
  -- The grouping comes after the columns, so the bag has the columns of the stage that was grouped.
  have hnames : fields.map Field.name = b'.stage.generated chain.sourceFields := by
    rw [hstage]
    exact hopen.record (hproj ▸ hr) record fields helem
  refine ⟨keyType declared keys, hprojector, hnames, fun raw rawKey tuples values hkey hread => ?_⟩
  rw [hprojector, ← hnames]
  exact project_group hkey hread

/-! ### Cards by name -/

def cardType (names : List String) : DataType := .record "Card" (names.map fun name => ⟨name, .string, false⟩)

def cardField (name : String) : Expr := .member (some (.parameter "r" .unknown)) name .string

/-- Cards with an address and a name, declared with the fields `declared`. -/
def cards (declared : List String) : Expr :=
  .call none "Select"
    [.source "contacts" (.record "Contact" [⟨"Name", .string, false⟩, ⟨"Email", .string, false⟩]),
      .lambda [⟨"r", .unknown⟩] (.recordWith .unknown [("Email", cardField "Email"), ("Name", cardField "Name")])]
    (.query (cardType declared))

def cardsByName (declared : List String) : Expr :=
  .call none "GroupBy" [cards declared, .lambda [⟨"r", .unknown⟩] (cardField "Name")]
    (.query (.grouping .string (cardType declared)))

/-- The group of one name, with the one card in its bag: the address, then the name. -/
def annRow : List Json := [.string "Ann", .array [.array [.string "ann@x", .string "Ann"]]]

theorem declaresColumns_cards : DeclaresColumns nestedStage (cards ["Email", "Name"]) := by
  refine .step .source fun _ b columns record fields _ hmakes htype => ?_
  cases htype
  obtain ⟨p, body, hselector, -, hcolumns⟩ := hmakes
  cases hselector
  exact bindProjection_names_of_parts rfl hcolumns

theorem grouped_rows_decode_by_column_cards :
    ∃ b b' object, DeclaresColumns nestedStage (cards ["Email", "Name"]) ∧
      (cards ["Email", "Name"]).bound.outcome = .ok b ∧ b.stage.element = cardType ["Email", "Name"] ∧
      b.stage.projector.shape = .record ∧ (cardsByName ["Email", "Name"]).bound.outcome = .ok b' ∧
      b'.stage.generated ["Name", "Email"] = ["Email", "Name"] ∧
      b'.stage.projector.project annRow = .ok (.object [("Elements", .array [object]), ("Key", .string "Ann")]) ∧
      object.get? "Email" = some (.string "ann@x") ∧ object.get? "Name" = some (.string "Ann") := by
  obtain ⟨b, hb⟩ : ∃ b, (cards ["Email", "Name"]).bound.outcome = .ok b := ⟨_, rfl⟩
  obtain ⟨b', hb'⟩ : ∃ b', (cardsByName ["Email", "Name"]).bound.outcome = .ok b' := ⟨_, rfl⟩
  have hrows : b.stage.element = cardType ["Email", "Name"] ∧ b.stage.projector.shape = .record := by
    cases hb
    exact ⟨rfl, rfl⟩
  have hkey : b'.stage.projector.columns.head? = some ⟨"Key", .string⟩ := by
    cases hb'
    rfl
  obtain ⟨key, hprojector, hnames, hdecode⟩ :=
    grouped_rows_decode_by_column declaresColumns_cards hb hrows.1 hrows.2 hb'
  obtain rfl : key = .string := by
    rw [hprojector] at hkey
    cases hkey
    rfl
  have hread : List.Forall₂ (ReadsAs [⟨"Email", .string, false⟩, ⟨"Name", .string, false⟩])
      [[.string "ann@x", .string "Ann"]] [[.string "ann@x", .string "Ann"]] :=
    .cons (.cons rfl (.cons rfl .nil)) .nil
  obtain ⟨objects, hproject, hnamed⟩ := hdecode (.string "Ann") (.string "Ann") _ _ rfl hread
  have hgenerated : b'.stage.generated ["Name", "Email"] = ["Email", "Name"] := hnames.symm
  cases hnamed with
  | cons hobject hrest =>
    cases hrest
    rw [show b'.stage.generated (cards ["Email", "Name"]).sourceFields = _ from hgenerated] at hobject
    exact ⟨b, b', _, declaresColumns_cards, hb, hrows.1, hrows.2, hb', hgenerated, hproject,
      hobject 0 "Email" _ rfl rfl (by decide), hobject 1 "Name" _ rfl rfl (by decide)⟩

def addressType : DataType := .record "Address" [⟨"Street", .string, false⟩, ⟨"City", .string, false⟩]

def addressField : Expr := .member (some (.parameter "r" .unknown)) "Address" addressType

/-- The addresses of orders, as rows of one field. -/
def addresses : Expr :=
  .call none "Select"
    [.source "orders" (.record "Order" [⟨"Id", .string, false⟩, ⟨"Address", addressType, false⟩]),
      .lambda [⟨"r", .unknown⟩] addressField]
    (.query .unknown)

def ordersByAddress : Expr :=
  .call none "GroupBy" [addresses, .lambda [⟨"r", .unknown⟩] addressField]
    (.query (.grouping addressType addressType))

/-- With the fields declared in the other order the address comes under the name and the name under the address. A row of
one field that holds a record is read as that record, so a group of such rows cannot be read at all. -/
theorem grouped_rows_lose_columns :
    (∃ b b', (cards ["Name", "Email"]).bound.outcome = .ok b ∧ b.stage.element = cardType ["Name", "Email"] ∧
      b.stage.projector.shape = .record ∧ (cardsByName ["Name", "Email"]).bound.outcome = .ok b' ∧
      b'.stage.generated ["Name", "Email"] = ["Email", "Name"] ∧
      b'.stage.projector.project annRow = .ok (.object [("Elements", .array [.object [("Email", .string "Ann"),
        ("Name", .string "ann@x")]]), ("Key", .string "Ann")])) ∧
    ∃ b b', addresses.bound.outcome = .ok b ∧ b.stage.element = addressType ∧
      ordersByAddress.bound.outcome = .ok b' ∧ b'.stage.generated ["Id", "Address"] = ["Address"] ∧
      b'.stage.projector.project [.array [.string "Main", .string "Bonn"],
        .array [.array [.array [.string "Main", .string "Bonn"]]]] =
          .error (.typeMismatch "Elements" "Address" "array") :=
  ⟨⟨_, _, rfl, rfl, rfl, rfl, rfl, rfl⟩, _, _, rfl, rfl, rfl, rfl, rfl⟩

end PigChain
