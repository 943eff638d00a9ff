import PigChain.Proofs.Coercion

/-!
# Null in rows

Main statement: a raw value becomes null exactly if it is null, or if it is given to a column of floating-point numbers
and reads as a number that is not finite: a word for an infinity or for no number, or digits past the range. JSON has no
such numbers, so what was read is lost. Every other value that does not fit its type is reported as a mismatch. In a row
with distinct names each column follows this rule, since a row is coerced as the tuple of a record.
-/

namespace PigChain

/-! ### Finite numbers -/

theorem Double.exponentFor_le {n : Nat} (h : n < 18446744073709551616) : exponentFor n 1 ≤ 11 := by
  have hlen : bitLength n ≤ 64 := by
    unfold bitLength
    split
    · omega
    · next hn => exact (Nat.log2_lt hn).mpr h
  have hone : bitLength 1 = 1 := by decide
  simp only [exponentFor, hone, minExponent]
  split <;> omega

theorem Double.isFinite_ofInt {n : Int} (h : n.natAbs < 18446744073709551616) : (ofInt n).isFinite = true := by
  have hexp := exponentFor_le h
  unfold ofInt ofRatio
  split
  · rfl
  · simp only
    split
    · rw [if_neg]
      · rfl
      · simp only [maxExponent]
        omega
    · rw [if_neg]
      · rfl
      · simp only [maxExponent]
        omega

/-- The number that a raw value gives to a column of floating-point numbers. -/
def Json.rawDouble? : Json → Option Double
  | .int n => some (.ofInt n)
  | .float x => some x
  | .string s => Double.ofText? (Text.trim s)
  | _ => none

/-- The raw value is a number, but not a finite one: it overflows, or it is a word for an infinity or for no number. -/
def Json.ReadsNonFinite (raw : Json) : Prop := ∃ x, raw.rawDouble? = some x ∧ x.isFinite = false

/-- A number as JSON has it: an integer of 64 bits, with a sign or without, or a finite double. -/
def Json.isNumber : Json → Bool
  | .int n => -9223372036854775808 ≤ n && n ≤ 18446744073709551615
  | .float x => x.isFinite
  | _ => false

/-- A raw value that becomes null. -/
def BecomesNull (t : DataType) (raw : Json) : Prop := raw = .null ∨ t = .float64 ∧ raw.ReadsNonFinite

theorem Json.not_readsNonFinite {raw : Json} (h : raw.isNumber = true) : ¬raw.ReadsNonFinite := by
  rintro ⟨x, hx, hinfinite⟩
  cases raw with
  | int n =>
    cases hx
    simp only [isNumber, Bool.and_eq_true, decide_eq_true_eq] at h
    rw [Double.isFinite_ofInt (by omega)] at hinfinite
    cases hinfinite
  | float y =>
    cases hx
    rw [show x.isFinite = true from h] at hinfinite
    cases hinfinite
  | _ => cases h

theorem coercePrimitive?_float64 (raw : Json) : coercePrimitive? .float64 raw = raw.rawDouble?.map .ofDouble := by
  cases raw <;> rfl

theorem Json.ofDouble_eq_null {x : Double} : Json.ofDouble x = .null ↔ x.isFinite = false := by
  unfold Json.ofDouble
  cases x.isFinite <;> simp

/-- Of the other types each text and number that is read has a value. -/
theorem coercePrimitive?_ne_null {t : DataType} {raw : Json} (ht : t ≠ .float64) :
    coercePrimitive? t raw ≠ some .null := by
  have hmap {α : Type} {o : Option α} {f : α → Json} (hf : ∀ a, f a ≠ .null) : o.map f ≠ some .null := by
    intro h
    obtain ⟨a, -, ha⟩ := Option.map_eq_some_iff.mp h
    exact hf a ha
  intro h
  unfold coercePrimitive? at h
  split at h
  · cases h
  · exact hmap (by simp) h
  · split at h
    · cases h
    · exact hmap (by simp) h
  · exact hmap (by simp) h
  · exact hmap (by simp) h
  · exact ht rfl
  · exact ht rfl
  · exact ht rfl
  · cases h
  · exact hmap (by simp) h
  · obtain ⟨n, -, h⟩ := Option.bind_eq_some_iff.mp h
    exact hmap (by simp) h
  · cases h

theorem coercePrimitive?_eq_null {t : DataType} {raw : Json} :
    coercePrimitive? t raw = some .null ↔ t = .float64 ∧ raw.ReadsNonFinite := by
  by_cases ht : t = .float64
  · subst ht
    rw [coercePrimitive?_float64, Option.map_eq_some_iff]
    simp only [Json.ofDouble_eq_null, true_and, Json.ReadsNonFinite]
  · exact ⟨fun h => absurd h (coercePrimitive?_ne_null ht), fun h => absurd h.1 ht⟩

theorem coerce_eq_null {target : String} {t : DataType} {raw : Json} :
    coerce target t raw = .ok .null ↔ BecomesNull t raw := by
  constructor
  · intro h
    cases coerced_of_coerce h with
    | null => exact .inl rfl
    | unknown => exact .inl rfl
    | primitive hnull => exact .inr (coercePrimitive?_eq_null.mp hnull)
  · rintro (rfl | h)
    · exact coerce_null target t
    · exact coerce_of_primitive (coercePrimitive?_eq_null.mpr h) target

/-! ### Faults -/

/-- The fault is a mismatch of types. -/
def Error.IsMismatch (e : Error) : Prop := ∃ target expected found, e = .typeMismatch target expected found

theorem coerceTuple_eq_error {fields : List Field} {items : List Json} {done : List (String × Json)} {e : Error}
    (hfields : ∀ f ∈ fields, ∀ target raw, coerce target f.type raw = .error e → e.IsMismatch)
    (h : coerceTuple fields items done = .error e) : e.IsMismatch := by
  induction fields generalizing items done with
  | nil =>
    rw [coerceTuple] at h
    cases h
  | cons f fields ih =>
    obtain ⟨name, t, nullable⟩ := f
    cases items with
    | nil =>
      rw [coerceTuple] at h
      cases h
    | cons j items =>
      rw [coerceTuple] at h
      rcases except_do_eq_error.mp h with hj | ⟨v, -, hrest⟩
      · exact hfields _ List.mem_cons_self name j hj
      · exact ih (fun f hf => hfields f (List.mem_cons_of_mem _ hf)) hrest

theorem except_map_eq_error {ε α β : Type} {x : Except ε α} {f : α → β} {e : ε} :
    x.map f = .error e ↔ x = .error e := by
  cases x <;> simp [Except.map]

theorem coerce_eq_error {target : String} {t : DataType} {raw : Json} {e : Error} (h : coerce target t raw = .error e) :
    e.IsMismatch := by
  induction t using DataType.by_parts generalizing target raw with
  | hrecord name fields ih =>
    have hfields : ∀ f ∈ fields, ∀ target raw, coerce target f.type raw = .error e → e.IsMismatch :=
      fun f hf target raw => ih f hf
    cases raw with
    | null =>
      rw [coerce_null] at h
      cases h
    | array items =>
      rw [coerce] at h
      split at h
      · exact coerceTuple_eq_error hfields (except_map_eq_error.mp h)
      · cases h
        exact ⟨_, _, _, rfl⟩
    | object given =>
      rw [coerce, coerceNamed_eq] at h
      exact coerceTuple_eq_error hfields (except_map_eq_error.mp h)
    | _ =>
      cases h
      exact ⟨_, _, _, rfl⟩
  | harray t ih =>
    cases raw with
    | null =>
      rw [coerce_null] at h
      cases h
    | array items =>
      rw [coerce] at h
      obtain ⟨raw, -, hraw⟩ := mapM_eq_error (except_map_eq_error.mp h)
      exact ih hraw
    | _ =>
      cases h
      exact ⟨_, _, _, rfl⟩
  | hother t hrecord harray =>
    unfold coerce at h
    split at h
    · cases h
    · cases h
    · exact absurd rfl (hrecord _ _)
    · exact absurd rfl (hrecord _ _)
    · exact absurd rfl (harray _)
    · split at h
      · cases h
      · cases h
        exact ⟨_, _, _, rfl⟩

/-! ### Rows -/

/-- A row of named fields is coerced as a tuple of a record with the columns for its fields. -/
theorem Projector.projectFields_eq (columns : List OutputColumn) (row : List Json) (done : List (String × Json)) :
    projectFields columns row done = coerceTuple (columns.map fun c => ⟨c.name, c.type, false⟩) row done := by
  induction columns generalizing row done with
  | nil => rw [projectFields.eq_def, List.map_nil, coerceTuple]
  | cons c columns ih =>
    cases row with
    | nil => rw [projectFields.eq_def, List.map_cons, coerceTuple]
    | cons raw row =>
      rw [projectFields, List.map_cons, coerceTuple]
      simp only [ih]

theorem Projector.project_record {columns : List OutputColumn} {row : List Json} {v : Json}
    (hnames : (columns.map OutputColumn.name).Nodup) (h : (record columns).project row = .ok v) :
    List.Forall₂ (fun c raw => ∃ value, coerce c.name c.type raw = .ok value ∧ v.get? c.name = some value)
      columns row := by
  unfold project at h
  split at h
  · cases h
  · next hlen =>
    obtain ⟨result, hresult, rfl⟩ := except_map_eq_ok.mp h
    rw [projectFields_eq] at hresult
    have hlen' : row.length = (columns.map fun c => (⟨c.name, c.type, false⟩ : Field)).length := by
      rw [List.length_map]
      exact Decidable.of_not_not hlen
    have hnames' : ((columns.map fun c => (⟨c.name, c.type, false⟩ : Field)).map Field.name).Nodup := by
      rwa [List.map_map]
    exact List.forall₂_map_left_iff.mp (coerceTuple_fields hnames' hlen' hresult).1

theorem Projector.project_value (name : String) (t : DataType) (raw : Json) :
    (value name t).project [raw] = coerce name t raw := rfl

/-- Null comes from null and from numbers that are not finite, and from nothing else; what is not read is a mismatch.
The numbers that JSON has are finite, so only texts are lost. The columns of a projected row are null by the same rule. -/
theorem only_null_and_nonfinite_become_null (target : String) (t : DataType) (raw : Json) :
    (coerce target t raw = .ok .null ↔ BecomesNull t raw) ∧
      (∀ e, coerce target t raw = .error e → e.IsMismatch) ∧
      (raw.isNumber = true → ¬raw.ReadsNonFinite) ∧
      ((Projector.value target t).project [raw] = .ok .null ↔ BecomesNull t raw) ∧
      ∀ columns row v, (columns.map OutputColumn.name).Nodup → (Projector.record columns).project row = .ok v →
        List.Forall₂ (fun c raw => v.get? c.name = some .null ↔ BecomesNull c.type raw) columns row := by
  refine ⟨coerce_eq_null, fun e => coerce_eq_error, Json.not_readsNonFinite, ?_, ?_⟩
  · rw [Projector.project_value]
    exact coerce_eq_null
  · intro columns row v hnames h
    refine (Projector.project_record hnames h).imp fun c raw hc => ?_
    obtain ⟨value, hvalue, hget⟩ := hc
    have hnull : coerce c.name c.type raw = .ok .null ↔ BecomesNull c.type raw := coerce_eq_null
    rw [hget, ← hnull, hvalue, Option.some.injEq, Except.ok.injEq]

/-- A row in which one number overflows and another is there. -/
theorem only_null_and_nonfinite_become_null_samples :
    let columns : List OutputColumn := [⟨"Share", .float64⟩, ⟨"Total", .float64⟩, ⟨"Count", .int64⟩]
    let row : List Json := [.string "1e999", .int 3, .null]
    let v : Json := .object
      [("Count", .null), ("Share", .null), ("Total", .float (.finite false 6755399441055744 (-51)))]
    (columns.map OutputColumn.name).Nodup ∧ (Projector.record columns).project row = .ok v ∧
      List.Forall₂ (fun c raw => v.get? c.name = some .null ↔ BecomesNull c.type raw) columns row := by
  intro columns row v
  have hrow : (Projector.record columns).project row = .ok v := rfl
  have hnames : (columns.map OutputColumn.name).Nodup := by decide
  obtain ⟨-, -, -, -, hcolumns⟩ := only_null_and_nonfinite_become_null "Share" .float64 (.string "1e999")
  exact ⟨hnames, hrow, hcolumns columns row v hnames hrow⟩

/-- Texts of numbers that are not finite become null without a mismatch. -/
theorem nonfinite_text_becomes_null :
    coerce "Share" .float64 (.string "NaN") = .ok .null ∧ coerce "Share" .float64 (.string "1e999") = .ok .null ∧
      (Projector.value "Share" .float64).project [.string " -inf "] = .ok .null :=
  ⟨rfl, rfl, rfl⟩

end PigChain
