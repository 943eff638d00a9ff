import PigChain.Projector
import PigChain.Proofs.DateTimeText
import PigChain.Proofs.Outcome

/-!
# Values of a declared type

Main statement: a raw value that is coerced to a type becomes a value of that type, and coerced again it stays as it is.
Raw values come in several encodings, so each of them has to end in the one form that is read as itself: numbers and
booleans out of their texts, date-times out of texts and milliseconds, records out of tuples and objects. A record by
name is coerced as the tuple of what it has under the names of the fields, which leaves one loop to reason about.
-/

namespace PigChain

/-! ### Objects -/

namespace Json

theorem insertField_perm {key : String} {value : Json} {fields : List (String × Json)} (h : ∀ p ∈ fields, p.1 ≠ key) :
    (insertField key value fields).Perm ((key, value) :: fields) := by
  induction fields with
  | nil => exact .refl _
  | cons q rest ih =>
    obtain ⟨k, v⟩ := q
    have hk : k ≠ key := h (k, v) List.mem_cons_self
    rw [insertField]
    split
    · exact .refl _
    · rw [if_neg hk.symm]
      exact ((ih fun p hp => h p (List.mem_cons_of_mem _ hp)).cons _).trans (.swap _ _ _)

theorem field?_insertField_self (key : String) (value : Json) (fields : List (String × Json)) :
    field? key (insertField key value fields) = some value := by
  induction fields with
  | nil => simp [insertField, field?]
  | cons q rest ih =>
    obtain ⟨k, v⟩ := q
    rw [insertField]
    split
    · simp [field?]
    · split
      · simp [field?]
      · next hk => rw [field?, if_neg fun h => hk h.symm, ih]

theorem field?_insertField_of_ne {key key' : String} (h : key' ≠ key) (value : Json)
    (fields : List (String × Json)) :
    field? key' (insertField key value fields) = field? key' fields := by
  induction fields with
  | nil => simp [insertField, field?, h.symm]
  | cons q rest ih =>
    obtain ⟨k, v⟩ := q
    rw [insertField]
    split
    · rw [field?, if_neg h.symm]
    · split
      · next hk => rw [field?, field?, if_neg h.symm, if_neg (hk ▸ h.symm)]
      · rw [field?, field?, ih]

end Json

/-! ### Types by their parts -/

namespace DataType

theorem sizeOf_fieldType_lt (f : Field) : sizeOf f.type < sizeOf f := by
  obtain ⟨name, t, nullable⟩ := f
  simp only [Field.mk.sizeOf_spec]
  omega

/-- What holds of a record if it holds of the types of its fields, of an array if it holds of its elements, and of every
other type, holds of all types. -/
theorem by_parts {P : DataType → Prop} (hrecord : ∀ name fields, (∀ f ∈ fields, P f.type) → P (.record name fields))
    (harray : ∀ t, P t → P (.array t))
    (hother : ∀ t, (∀ name fields, t ≠ .record name fields) → (∀ u, t ≠ .array u) → P t) : ∀ t, P t
  | .record name fields => hrecord name fields fun f hf => by_parts hrecord harray hother f.type
  | .array t => harray t (by_parts hrecord harray hother t)
  | .bool => hother _ (by simp) (by simp)
  | .int64 => hother _ (by simp) (by simp)
  | .float64 => hother _ (by simp) (by simp)
  | .string => hother _ (by simp) (by simp)
  | .dateTime => hother _ (by simp) (by simp)
  | .query _ => hother _ (by simp) (by simp)
  | .grouping _ _ => hother _ (by simp) (by simp)
  | .unknown => hother _ (by simp) (by simp)
termination_by t => sizeOf t
decreasing_by
  · have hlist := List.sizeOf_lt_of_mem hf
    have hfield := sizeOf_fieldType_lt f
    simp only [record.sizeOf_spec]
    omega
  · simp only [array.sizeOf_spec]
    omega

mutual

/-- Whether the fields of every record in a type, at any depth, have distinct names. -/
def distinctFields : DataType → Bool
  | .record _ fields => decide (fields.map Field.name).Nodup && distinctFieldTypes fields
  | .array t => t.distinctFields
  | .query t => t.distinctFields
  | .grouping key t => key.distinctFields && t.distinctFields
  | _ => true

def distinctFieldTypes : List Field → Bool
  | [] => true
  | ⟨_, t, _⟩ :: fields => t.distinctFields && distinctFieldTypes fields

end

theorem distinctFieldTypes_iff {fields : List Field} :
    distinctFieldTypes fields = true ↔ ∀ f ∈ fields, f.type.distinctFields = true := by
  induction fields with
  | nil => simp [distinctFieldTypes]
  | cons f fields ih =>
    obtain ⟨name, t, nullable⟩ := f
    rw [distinctFieldTypes, Bool.and_eq_true, ih, List.forall_mem_cons]

theorem distinctFields_record {name : String} {fields : List Field} :
    (record name fields).distinctFields = true ↔
      (fields.map Field.name).Nodup ∧ ∀ f ∈ fields, f.type.distinctFields = true := by
  rw [distinctFields, Bool.and_eq_true, decide_eq_true_eq, distinctFieldTypes_iff]

end DataType

/-! ### Outcomes -/

/-- How a raw value becomes a value of a type. -/
inductive Coerced (target : String) : DataType → Json → Json → Prop where
  | null (t : DataType) : Coerced target t .null .null
  | unknown (raw : Json) : Coerced target .unknown raw raw
  | tuple {name : String} {fields : List Field} {items : List Json} {result : List (String × Json)}
    (hlen : items.length = fields.length) (h : coerceTuple fields items [] = .ok result) :
    Coerced target (.record name fields) (.array items) (.object result)
  | named {name : String} {fields : List Field} {given result : List (String × Json)}
    (h : coerceNamed fields given [] = .ok result) :
    Coerced target (.record name fields) (.object given) (.object result)
  | items {t : DataType} {items values : List Json} (h : items.mapM (coerce target t) = .ok values) :
    Coerced target (.array t) (.array items) (.array values)
  | primitive {t : DataType} {raw value : Json} (h : coercePrimitive? t raw = some value) : Coerced target t raw value

variable {target : String} {t : DataType} {raw v : Json} {fields : List Field} {items : List Json}
  {given done result : List (String × Json)}

theorem coerce_null (target : String) (t : DataType) : coerce target t .null = .ok .null := by rw [coerce]

theorem coerce_unknown (target : String) (raw : Json) : coerce target .unknown raw = .ok raw := by
  cases raw <;> rfl

theorem coerced_of_coerce (h : coerce target t raw = .ok v) : Coerced target t raw v := by
  unfold coerce at h
  split at h
  · cases h
    exact .null t
  · cases h
    exact .unknown raw
  · split at h
    · next hlen =>
      obtain ⟨result, hresult, rfl⟩ := except_map_eq_ok.mp h
      exact .tuple hlen hresult
    · cases h
  · obtain ⟨result, hresult, rfl⟩ := except_map_eq_ok.mp h
    exact .named hresult
  · obtain ⟨values, hvalues, rfl⟩ := except_map_eq_ok.mp h
    exact .items hvalues
  · split at h
    · next value hvalue =>
      cases h
      exact .primitive hvalue
    · cases h

theorem coerce_of_primitive (h : coercePrimitive? t raw = some v) (target : String) : coerce target t raw = .ok v := by
  rw [coerce.eq_6, h]
  · rintro rfl
    cases raw <;> cases h
  · rintro rfl
    cases t <;> cases h
  · rintro name fields items rfl rfl
    cases h
  · rintro name fields given rfl rfl
    cases h
  · rintro t items rfl rfl
    cases h

/-- A record by name is the tuple of what it has under the names of the fields. -/
theorem coerceNamed_eq (fields : List Field) (given done : List (String × Json)) : coerceNamed fields given done =
    coerceTuple fields (fields.map fun f => (Json.field? f.name given).getD .null) done := by
  induction fields generalizing done with
  | nil => rw [coerceNamed, coerceTuple]
  | cons f fields ih =>
    obtain ⟨name, t, nullable⟩ := f
    rw [coerceNamed, List.map_cons, coerceTuple]
    simp only [ih]

/-- The items of a tuple are coerced to their fields and put under the names of these; under other names stays what was
there before. -/
theorem coerceTuple_fields (hnames : (fields.map Field.name).Nodup) (hlen : items.length = fields.length)
    (h : coerceTuple fields items done = .ok result) :
    List.Forall₂ (fun f raw => ∃ v, coerce f.name f.type raw = .ok v ∧ Json.field? f.name result = some v) fields
      items ∧
      ∀ name, name ∉ fields.map Field.name → Json.field? name result = Json.field? name done := by
  induction fields generalizing items done with
  | nil =>
    rw [coerceTuple] at h
    cases h
    rw [List.length_eq_zero_iff.mp hlen]
    exact ⟨.nil, fun _ _ => rfl⟩
  | cons f fields ih =>
    obtain ⟨name, t, nullable⟩ := f
    cases items with
    | nil => cases hlen
    | cons j items =>
      rw [coerceTuple] at h
      obtain ⟨v, hv, h⟩ := except_do_eq_ok.mp h
      rw [List.map_cons, List.nodup_cons] at hnames
      obtain ⟨hread, hothers⟩ := ih hnames.2 (Nat.succ.inj hlen) h
      refine ⟨.cons ⟨v, hv, ?_⟩ hread, fun other hother => ?_⟩
      · rw [hothers name hnames.1, Json.field?_insertField_self]
      · rw [List.map_cons, List.mem_cons, not_or] at hother
        rw [hothers other hother.2, Json.field?_insertField_of_ne hother.1]

theorem coerceTuple_names (hnames : (fields.map Field.name).Nodup)
    (hnew : ∀ p ∈ done, p.1 ∉ fields.map Field.name) (hlen : items.length = fields.length)
    (h : coerceTuple fields items done = .ok result) :
    (result.map Prod.fst).Perm (done.map Prod.fst ++ fields.map Field.name) := by
  induction fields generalizing items done with
  | nil =>
    rw [coerceTuple] at h
    cases h
    rw [List.map_nil, List.append_nil]
  | cons f fields ih =>
    obtain ⟨name, t, nullable⟩ := f
    cases items with
    | nil => cases hlen
    | cons j items =>
      rw [coerceTuple] at h
      obtain ⟨v, -, h⟩ := except_do_eq_ok.mp h
      rw [List.map_cons, List.nodup_cons] at hnames
      have hfresh : ∀ p ∈ done, p.1 ≠ name := fun p hp heq => hnew p hp (heq ▸ List.mem_cons_self)
      have hperm : (Json.insertField name v done).Perm ((name, v) :: done) := Json.insertField_perm hfresh
      have hnew' : ∀ p ∈ Json.insertField name v done, p.1 ∉ fields.map Field.name := by
        intro p hp
        rcases List.mem_cons.mp (hperm.mem_iff.mp hp) with rfl | hp
        · exact hnames.1
        · exact fun hmem => hnew p hp (List.mem_cons_of_mem _ hmem)
      have hkeys := ih hnames.2 hnew' (Nat.succ.inj hlen) h
      exact hkeys.trans (((hperm.map Prod.fst).append_right _).trans List.perm_middle.symm)

/-- A tuple of which each item is coerced as another is coerced as the tuple of the others. -/
theorem coerceTuple_map {g : Field → Json}
    (h : List.Forall₂ (fun f raw => coerce f.name f.type (g f) = coerce f.name f.type raw) fields items) :
    coerceTuple fields (fields.map g) done = coerceTuple fields items done := by
  induction h generalizing done with
  | nil => rfl
  | @cons f raw fields items hraw _ ih =>
    obtain ⟨name, t, nullable⟩ := f
    rw [List.map_cons, coerceTuple, coerceTuple, hraw]
    simp only [ih]

/-! ### Values of a type -/

/-- A value conforms to a type. Null is a value of every type. -/
inductive Conforms : DataType → Json → Prop where
  | null (t : DataType) : Conforms t .null
  | unknown (v : Json) : Conforms .unknown v
  | bool (b : Bool) : Conforms .bool (.bool b)
  | int64 {n : Int} (h : inInt64 n = true) : Conforms .int64 (.int n)
  | whole (n : Int) : Conforms .float64 (.int n)
  | float64 {x : Double} (h : x.isFinite = true) : Conforms .float64 (.float x)
  | string (s : String) : Conforms .string (.string s)
  | dateTime (s : String) : Conforms .dateTime (.string s)
  /-- An object with exactly the fields of the record. -/
  | record {name : String} {fields : List Field} {given : List (String × Json)}
    (names : (given.map Prod.fst).Perm (fields.map Field.name))
    (values : ∀ f ∈ fields, ∀ v, Json.field? f.name given = some v → Conforms f.type v) :
    Conforms (.record name fields) (.object given)
  | array {t : DataType} {items : List Json} (h : ∀ v ∈ items, Conforms t v) : Conforms (.array t) (.array items)

/-- What is coerced to a type conforms to it, and is coerced to itself. -/
def Settles (t : DataType) : Prop :=
  ∀ target raw v, coerce target t raw = .ok v → Conforms t v ∧ ∀ target', coerce target' t v = .ok v

theorem conforms_ofDouble (x : Double) : Conforms .float64 (.ofDouble x) ∧
    ∀ target, coerce target .float64 (.ofDouble x) = .ok (.ofDouble x) := by
  unfold Json.ofDouble
  split
  · next hx =>
    refine ⟨.float64 hx, coerce_of_primitive ?_⟩
    rw [coercePrimitive?, Json.ofDouble, if_pos hx]
  · exact ⟨.null _, fun target => coerce_null target _⟩

theorem conforms_int64 {n : Int} (h : inInt64 n = true) : Conforms .int64 (.int n) ∧
    ∀ target, coerce target .int64 (.int n) = .ok (.int n) :=
  ⟨.int64 h, coerce_of_primitive (if_pos h)⟩

theorem conforms_dateTime {d : DateTime} (h : d.IsValid) : Conforms .dateTime (.string d.text) ∧
    ∀ target, coerce target .dateTime (.string d.text) = .ok (.string d.text) := by
  refine ⟨.dateTime _, coerce_of_primitive ?_⟩
  rw [coercePrimitive?, DateTime.ofData?_text h, Option.map_some]

theorem inInt64_of_text {cs : List Char} {n : Int} (h : int64OfText? cs = some n) : inInt64 n = true := by
  simp only [int64OfText?] at h
  split at h
  · cases h
  · exact (Option.filter_eq_some_iff.mp h).2

theorem settles_primitive (h : coercePrimitive? t raw = some v) :
    Conforms t v ∧ ∀ target, coerce target t v = .ok v := by
  have hint {x : Option Int} (hx : (x.filter inInt64).map Json.int = some v) :
      Conforms .int64 v ∧ ∀ target, coerce target .int64 v = .ok v := by
    obtain ⟨n, hn, rfl⟩ := Option.map_eq_some_iff.mp hx
    exact conforms_int64 (Option.filter_eq_some_iff.mp hn).2
  unfold coercePrimitive? at h
  split at h
  · cases h
    exact ⟨.bool _, coerce_of_primitive rfl⟩
  · obtain ⟨b, -, rfl⟩ := Option.map_eq_some_iff.mp h
    exact ⟨.bool b, coerce_of_primitive rfl⟩
  · split at h
    · next hn =>
      cases h
      exact conforms_int64 hn
    · exact hint h
  · exact hint h
  · obtain ⟨n, hn, rfl⟩ := Option.map_eq_some_iff.mp h
    exact conforms_int64 (inInt64_of_text hn)
  · cases h
    exact conforms_ofDouble _
  · cases h
    exact conforms_ofDouble _
  · obtain ⟨x, -, rfl⟩ := Option.map_eq_some_iff.mp h
    exact conforms_ofDouble x
  · cases h
    exact ⟨.string _, coerce_of_primitive rfl⟩
  · obtain ⟨d, hd, rfl⟩ := Option.map_eq_some_iff.mp h
    exact conforms_dateTime (DateTime.isValid_ofData? hd)
  · obtain ⟨n, -, h⟩ := Option.bind_eq_some_iff.mp h
    obtain ⟨d, hd, rfl⟩ := Option.map_eq_some_iff.mp h
    exact conforms_dateTime (DateTime.isValid_ofEpochMillis? hd)
  · cases h

theorem settles_record {name : String} (hnames : (fields.map Field.name).Nodup)
    (hfields : ∀ f ∈ fields, Settles f.type) : Settles (.record name fields) := by
  have htuple {items : List Json} {result : List (String × Json)} (hlen : items.length = fields.length)
      (h : coerceTuple fields items [] = .ok result) : Conforms (.record name fields) (.object result) ∧
        ∀ target, coerce target (.record name fields) (.object result) = .ok (.object result) := by
    obtain ⟨hread, -⟩ := coerceTuple_fields hnames hlen h
    refine ⟨.record (coerceTuple_names hnames (List.forall_mem_nil _) hlen h) fun f hf v hv => ?_, fun target => ?_⟩
    · obtain ⟨raw, -, w, hw, hfield⟩ := exists_of_forall₂_left hread hf
      obtain rfl : w = v := Option.some.inj (hfield.symm.trans hv)
      exact (hfields f hf f.name raw w hw).1
    · have hsame : List.Forall₂ (fun f raw => coerce f.name f.type ((Json.field? f.name result).getD .null) =
          coerce f.name f.type raw) fields items := by
        refine ((List.forall₂_and_left _ _).mpr ⟨hfields, hread⟩).imp fun f raw hf => ?_
        obtain ⟨hsettles, v, hv, hfield⟩ := hf
        rw [hfield, Option.getD_some, hv, (hsettles f.name raw v hv).2]
      rw [coerce, coerceNamed_eq, coerceTuple_map hsame, h]
      rfl
  intro target raw v h
  cases coerced_of_coerce h with
  | null => exact ⟨.null _, fun target => coerce_null target _⟩
  | tuple hlen hresult => exact htuple hlen hresult
  | named hresult =>
    rw [coerceNamed_eq] at hresult
    exact htuple (List.length_map ..) hresult
  | primitive hvalue => exact settles_primitive hvalue

theorem settles_array (ht : Settles t) : Settles (.array t) := by
  intro target raw v h
  cases coerced_of_coerce h with
  | null => exact ⟨.null _, fun target => coerce_null target _⟩
  | @items _ items values hvalues =>
    have hitems : ∀ v ∈ values, Conforms t v ∧ ∀ target', coerce target' t v = .ok v := by
      intro v hv
      obtain ⟨raw, -, hraw⟩ := exists_of_forall₂_right (mapM_eq_ok.mp hvalues) hv
      exact ht target raw v hraw
    refine ⟨.array fun v hv => (hitems v hv).1, fun target' => ?_⟩
    rw [coerce, mapM_eq_ok.mpr (List.forall₂_same.mpr fun v hv => (hitems v hv).2 target')]
    rfl
  | primitive hvalue => exact settles_primitive hvalue

theorem settles_other (hrecord : ∀ name fields, t ≠ .record name fields) (harray : ∀ u, t ≠ .array u) : Settles t := by
  intro target raw v h
  cases coerced_of_coerce h with
  | null => exact ⟨.null _, fun target => coerce_null target _⟩
  | unknown => exact ⟨.unknown _, fun target => coerce_unknown target _⟩
  | tuple => exact absurd rfl (hrecord _ _)
  | named => exact absurd rfl (hrecord _ _)
  | items => exact absurd rfl (harray _)
  | primitive hvalue => exact settles_primitive hvalue

/-- A value that was coerced to a type conforms to it, and coerced again it stays as it is. -/
theorem coercion_is_sound_and_idempotent {target : String} {t : DataType} {raw v : Json}
    (ht : t.distinctFields = true) (h : coerce target t raw = .ok v) :
    Conforms t v ∧ ∀ target', coerce target' t v = .ok v := by
  have hsettles : Settles t := by
    clear h
    induction t using DataType.by_parts with
    | hrecord name fields ih =>
      obtain ⟨hnames, hfields⟩ := DataType.distinctFields_record.mp ht
      exact settles_record hnames fun f hf => ih f hf (hfields f hf)
    | harray t ih => exact settles_array (ih ht)
    | hother t hrecord harray => exact settles_other hrecord harray
  exact hsettles target raw v h

/-- Two encodings of a visit: a tuple with an integer as a whole number, and an object that leaves out a field. -/
theorem coercion_is_sound_and_idempotent_visits :
    let visit : DataType :=
      .record "Visit" [⟨"At", .dateTime, false⟩, ⟨"Count", .int64, false⟩, ⟨"Share", .float64, true⟩]
    let raw : Json := .array [.array [.string "2016-12-31T23:59:60+05:30", .float (.finite false 1 3), .string " 0.5 "],
      .object [("Share", .null), ("At", .int 1500), ("Extra", .bool true)]]
    let visits : Json := .array [
      .object [("At", .string "2016-12-31T18:29:60"), ("Count", .int 8),
        ("Share", .float (.finite false 4503599627370496 (-53)))],
      .object [("At", .string "1970-01-01T00:00:01.500"), ("Count", .null), ("Share", .null)]]
    (DataType.array visit).distinctFields = true ∧ coerce "Visits" (.array visit) raw = .ok visits ∧
      Conforms (.array visit) visits ∧ ∀ target', coerce target' (.array visit) visits = .ok visits := by
  intro visit raw visits
  have hvisits : coerce "Visits" (.array visit) raw = .ok visits := rfl
  exact ⟨by decide, hvisits, coercion_is_sound_and_idempotent (by decide) hvisits⟩

end PigChain
