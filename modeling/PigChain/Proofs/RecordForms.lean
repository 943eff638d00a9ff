import PigChain.Proofs.Coercion

/-!
# Records as tuples and by name

Main statement: two raw values that differ only in the form of their records, at any depth, are coerced alike, to the
same value or to the same mismatch. A record comes as the tuple of its values, or as an object that maps the name of
each field to its value, in any order and beside other keys.
-/

namespace PigChain

/-- An object that maps the name of each field to its value; the name of a field that is null may be missing. -/
def MapsFields (fields : List Field) (values : List Json) (given : List (String × Json)) : Prop :=
  (given.map Prod.fst).Nodup ∧
    List.Forall₂ (fun f v => (f.name, v) ∈ given ∨ v = .null ∧ f.name ∉ given.map Prod.fst) fields values

/-- A raw record with the values of its fields in order. -/
inductive RecordForm (fields : List Field) : Json → List Json → Prop where
  | tuple {values : List Json} (h : values.length = fields.length) : RecordForm fields (.array values) values
  | object {values : List Json} {given : List (String × Json)} (h : MapsFields fields values given) :
    RecordForm fields (.object given) values

mutual

/-- Raw values that are the same but for the form of the records in them. -/
def Alike : DataType → Json → Json → Prop
  | .record _ fields, a, b =>
    a = b ∨ ∃ as bs, RecordForm fields a as ∧ RecordForm fields b bs ∧ AlikeValues fields as bs
  | .array t, a, b => a = b ∨ ∃ as bs, a = .array as ∧ b = .array bs ∧ List.Forall₂ (Alike t) as bs
  | _, a, b => a = b

/-- The values of the fields are alike one by one. -/
def AlikeValues : List Field → List Json → List Json → Prop
  | [], [], [] => True
  | ⟨_, t, _⟩ :: fields, a :: as, b :: bs => Alike t a b ∧ AlikeValues fields as bs
  | _, _, _ => False

end

variable {fields : List Field} {values : List Json} {given : List (String × Json)} {key : String}

/-! ### Objects -/

theorem Json.field?_eq_none (h : key ∉ given.map Prod.fst) : Json.field? key given = none := by
  induction given with
  | nil => rfl
  | cons q rest ih =>
    obtain ⟨k, v⟩ := q
    rw [List.map_cons, List.mem_cons, not_or] at h
    rw [Json.field?, if_neg (Ne.symm h.1), ih h.2]

theorem Json.field?_of_mem {value : Json} (hkeys : (given.map Prod.fst).Nodup) (h : (key, value) ∈ given) :
    Json.field? key given = some value := by
  induction given with
  | nil => cases h
  | cons q rest ih =>
    obtain ⟨k, v⟩ := q
    rw [List.map_cons, List.nodup_cons] at hkeys
    rw [Json.field?]
    rcases List.mem_cons.mp h with heq | hrest
    · cases heq
      rw [if_pos rfl]
    · have hne : k ≠ key := by
        rintro rfl
        exact hkeys.1 (List.mem_map.mpr ⟨_, hrest, rfl⟩)
      rw [if_neg hne, ih hkeys.2 hrest]

theorem MapsFields.getD (h : MapsFields fields values given) :
    List.Forall₂ (fun f v => (Json.field? f.name given).getD .null = v) fields values := by
  refine h.2.imp fun f v hv => ?_
  rcases hv with hmem | ⟨rfl, hmissing⟩
  · rw [Json.field?_of_mem h.1 hmem, Option.getD_some]
  · rw [Json.field?_eq_none hmissing, Option.getD_none]

/-! ### Coercion -/

/-- A record is coerced by its values, whatever its form. -/
theorem RecordForm.coerce_eq {a : Json} (h : RecordForm fields a values) (target name : String) :
    coerce target (.record name fields) a = (coerceTuple fields values []).map .object := by
  cases h with
  | tuple hlen => rw [coerce, if_pos hlen]
  | object hgiven =>
    rw [coerce, coerceNamed_eq, coerceTuple_map]
    refine hgiven.getD.imp fun f v hv => ?_
    rw [hv]

theorem coerceTuple_alike {as bs : List Json} {done : List (String × Json)}
    (hfields : ∀ f ∈ fields, ∀ target a b, Alike f.type a b → coerce target f.type a = coerce target f.type b)
    (h : AlikeValues fields as bs) : coerceTuple fields as done = coerceTuple fields bs done := by
  induction fields generalizing as bs done with
  | nil => rw [coerceTuple, coerceTuple]
  | cons f fields ih =>
    obtain ⟨name, t, nullable⟩ := f
    cases as with
    | nil => exact h.elim
    | cons a as =>
      cases bs with
      | nil => exact h.elim
      | cons b bs =>
        obtain ⟨hab, hrest⟩ := h
        have hsame := hfields ⟨name, t, nullable⟩ List.mem_cons_self name a b hab
        have htail := fun done => @ih as bs done (fun f hf => hfields f (List.mem_cons_of_mem _ hf)) hrest
        rw [coerceTuple, coerceTuple, hsame]
        simp only [htail]

theorem mapM_congr_of_forall₂ {ε α β : Type} {f : α → Except ε β} {R : α → α → Prop} {as bs : List α}
    (hf : ∀ a b, R a b → f a = f b) (h : List.Forall₂ R as bs) : as.mapM f = bs.mapM f := by
  induction h with
  | nil => rfl
  | cons hab _ ih => rw [List.mapM_cons, List.mapM_cons, hf _ _ hab, ih]

/-- Raw values that differ only in the form of their records are coerced to the same value, or fail with the same
mismatch. -/
theorem record_forms_coerce_alike {t : DataType} {a b : Json} (h : Alike t a b) (target : String) :
    coerce target t a = coerce target t b := by
  induction t using DataType.by_parts generalizing target a b with
  | hrecord name fields ih =>
    rw [Alike] at h
    rcases h with rfl | ⟨as, bs, has, hbs, hvalues⟩
    · rfl
    · rw [has.coerce_eq, hbs.coerce_eq, coerceTuple_alike (fun f hf target a b hab => ih f hf hab target) hvalues]
  | harray t ih =>
    rw [Alike] at h
    rcases h with rfl | ⟨as, bs, rfl, rfl, hitems⟩
    · rfl
    · have hsame : ∀ a b, Alike t a b → coerce target t a = coerce target t b := fun a b hab => ih hab target
      rw [coerce, coerce, mapM_congr_of_forall₂ hsame hitems]
  | hother t hrecord harray =>
    have heq : a = b := by
      unfold Alike at h
      split at h
      · exact absurd rfl (hrecord _ _)
      · exact absurd rfl (harray _)
      · exact h
    rw [heq]

/-- An order in an array: as nested tuples, and as objects with the keys in another order, a key more and one less. Both
fail at the amount. -/
theorem record_forms_coerce_alike_orders :
    let price : DataType := .record "Price" [⟨"Amount", .float64, false⟩, ⟨"Unit", .string, true⟩]
    let orders : DataType := .array (.record "Order" [⟨"Id", .int64, false⟩, ⟨"Price", price, false⟩])
    let tuples : Json := .array [.array [.string "7", .array [.string "much", .null]]]
    let objects : Json := .array [.object [("Price", .object [("Amount", .string "much"), ("Rate", .bool true)]),
      ("Id", .string "7")]]
    Alike orders tuples objects ∧ coerce "Orders" orders tuples = coerce "Orders" orders objects ∧
      coerce "Orders" orders objects = .error (.typeMismatch "Amount" "float64" "string") := by
  intro price orders tuples objects
  have hprice : MapsFields [⟨"Amount", .float64, false⟩, ⟨"Unit", .string, true⟩] [.string "much", .null]
      [("Amount", .string "much"), ("Rate", .bool true)] :=
    ⟨by simp, .cons (.inl (by simp)) (.cons (.inr (by simp)) .nil)⟩
  have horder (v : Json) : MapsFields [⟨"Id", .int64, false⟩, ⟨"Price", price, false⟩] [.string "7", v]
      [("Price", v), ("Id", .string "7")] :=
    ⟨by simp, .cons (.inl (by simp)) (.cons (.inl (by simp)) .nil)⟩
  have halike : Alike orders tuples objects :=
    .inr ⟨_, _, rfl, rfl, .cons (.inr ⟨_, _, .tuple rfl, .object (horder _), rfl,
      .inr ⟨_, _, .tuple rfl, .object hprice, rfl, rfl, trivial⟩, trivial⟩) .nil⟩
  exact ⟨halike, record_forms_coerce_alike halike "Orders", rfl⟩

end PigChain
