import PigChain.Script.Basic
import Mathlib.Data.List.Basic

/-!
# Scanning a script

A reader of a script goes through its text character by character. A quote begins a literal, in which a backslash takes
the next character with it, and the next quote ends it. A semicolon outside literals ends a statement. A text that a
scan leaves as it came in, outside, and in which it meets no such semicolon, is closed: it can stand anywhere in a
statement. Closed texts, each with a semicolon after it, are what a scan finds between the semicolons.
-/

namespace PigChain

/-- Where a scan stands: outside literals, inside one, or inside one after a backslash. -/
inductive Scan where
  | outside | inside | escaped
  deriving DecidableEq, Repr

namespace Scan

def next : Scan → Char → Scan
  | .outside, c => if c = '\'' then .inside else .outside
  | .inside, c => if c = '\\' then .escaped else if c = '\'' then .outside else .inside
  | .escaped, _ => .inside

/-- Where a scan stands after a text. -/
def after (m : Scan) (cs : List Char) : Scan := cs.foldl next m

/-- Where a scan stands after a text in which no semicolon is outside literals. -/
def through : Scan → List Char → Option Scan
  | m, [] => some m
  | m, c :: cs => if m = .outside ∧ c = ';' then none else (m.next c).through cs

theorem through_append (m : Scan) (as bs : List Char) :
    m.through (as ++ bs) = (m.through as).bind fun m' => m'.through bs := by
  induction as generalizing m with
  | nil => rfl
  | cons c as ih =>
    rw [List.cons_append, through, through]
    split
    · rfl
    · exact ih (m.next c)

theorem after_append (m : Scan) (as bs : List Char) : m.after (as ++ bs) = (m.after as).after bs :=
  List.foldl_append

theorem after_of_through {m m' : Scan} {cs : List Char} (h : m.through cs = some m') : m.after cs = m' := by
  induction cs generalizing m with
  | nil => exact Option.some.inj h
  | cons c cs ih =>
    rw [through] at h
    split at h
    · cases h
    · exact ih h

end Scan

/-- A semicolon stands at the position `i` of a text, outside literals. -/
def Stops (m : Scan) (cs : List Char) (i : Nat) : Prop := cs[i]? = some ';' ∧ m.after (cs.take i) = .outside

/-- The pieces of a text between the semicolons outside literals. -/
def pieces : Scan → List Char → List (List Char)
  | _, [] => [[]]
  | m, c :: cs =>
    if m = .outside ∧ c = ';' then [] :: pieces .outside cs else (pieces (m.next c) cs).modifyHead (c :: ·)

theorem pieces_append {m m' : Scan} {as : List Char} (h : m.through as = some m') (bs : List Char) :
    pieces m (as ++ bs) = (pieces m' bs).modifyHead (as ++ ·) := by
  induction as generalizing m with
  | nil =>
    cases h
    rw [List.nil_append]
    cases pieces m' bs <;> rfl
  | cons c as ih =>
    rw [Scan.through] at h
    split at h
    · cases h
    · next hc =>
      rw [List.cons_append, pieces, if_neg hc, ih h, List.modifyHead_modifyHead]
      rfl

theorem not_stops_of_through {m m' : Scan} {cs : List Char} (h : m.through cs = some m') (i : Nat) : ¬Stops m cs i := by
  rintro ⟨hi, hm⟩
  induction cs generalizing m i with
  | nil => cases hi
  | cons c cs ih =>
    rw [Scan.through] at h
    split at h
    · cases h
    · next hc =>
      cases i with
      | zero =>
        rw [List.getElem?_cons_zero, Option.some.injEq] at hi
        exact hc ⟨hm, hi⟩
      | succ i => exact ih h i hi hm

theorem stops_append_left {m : Scan} {as bs : List Char} {i : Nat} (hi : i < as.length) :
    Stops m (as ++ bs) i ↔ Stops m as i := by
  unfold Stops
  rw [List.getElem?_append_left hi, List.take_append_of_le_length (by omega)]

theorem stops_append_right {m : Scan} {as bs : List Char} {i : Nat} (hi : as.length ≤ i) :
    Stops m (as ++ bs) i ↔ Stops (m.after as) bs (i - as.length) := by
  unfold Stops
  rw [List.getElem?_append_right hi, List.take_append, List.take_of_length_le hi, Scan.after_append]

/-! ### Closed texts -/

/-- A scan from outside comes out again outside, and meets no semicolon outside literals. -/
def Closed (text : String) : Prop := Scan.outside.through text.toList = some .outside

instance (text : String) : Decidable (Closed text) :=
  inferInstanceAs (Decidable (Scan.outside.through text.toList = some .outside))

/-- A text with neither a quote nor a semicolon in it. -/
def Plain (text : String) : Prop := '\'' ∉ text.toList ∧ ';' ∉ text.toList

instance (text : String) : Decidable (Plain text) :=
  inferInstanceAs (Decidable (_ ∧ _))

theorem Closed.append {a b : String} (ha : Closed a) (hb : Closed b) : Closed (a ++ b) := by
  unfold Closed at ha hb ⊢
  rw [String.toList_append, Scan.through_append, ha]
  exact hb

theorem Plain.append {a b : String} (ha : Plain a) (hb : Plain b) : Plain (a ++ b) := by
  unfold Plain
  rw [String.toList_append, List.mem_append, List.mem_append, not_or, not_or]
  exact ⟨⟨ha.1, hb.1⟩, ha.2, hb.2⟩

theorem Plain.closed {text : String} (h : Plain text) : Closed text := by
  unfold Plain at h
  unfold Closed
  generalize text.toList = cs at h ⊢
  induction cs with
  | nil => rfl
  | cons c cs ih =>
    simp only [List.mem_cons, not_or] at h
    obtain ⟨⟨hquote, hquotes⟩, hsemi, hsemis⟩ := h
    rw [Scan.through, if_neg (fun hc => hsemi hc.2.symm), Scan.next, if_neg (fun hc => hquote hc.symm)]
    exact ih ⟨hquotes, hsemis⟩

/-- Inside a literal, the quoted text of anything ends where it began. -/
theorem through_quoteChars (cs : List Char) : Scan.inside.through (quoteChars cs) = some .inside := by
  fun_induction quoteChars cs with
  | case1 => rfl
  | case2 cs ih => exact ih
  | case3 cs ih => exact ih
  | case4 cs ih => exact ih
  | case5 c cs hslash hquote _ ih =>
    have hnext : Scan.inside.next c = .inside := by
      rw [Scan.next, if_neg hslash, if_neg hquote]
    rw [Scan.through, if_neg (by simp), hnext]
    exact ih

theorem closed_quote (text : String) : Closed (quote text) := by
  have hopen : Scan.outside.through "'".toList = some .inside := by decide
  have hclose : Scan.inside.through "'".toList = some .outside := by decide
  have hbody := through_quoteChars text.toList
  rw [← String.toList_ofList (l := quoteChars text.toList)] at hbody
  unfold Closed quote
  rw [String.toList_append, String.toList_append, Scan.through_append, Scan.through_append, hopen, Option.bind_some,
    hbody, Option.bind_some, hclose]

theorem closed_intercalate {separator : String} {texts : List String} (hs : Closed separator)
    (h : ∀ t ∈ texts, Closed t) : Closed (separator.intercalate texts) := by
  induction texts with
  | nil => rfl
  | cons t texts ih =>
    have ht : Closed t := h t List.mem_cons_self
    cases texts with
    | nil =>
      rw [String.intercalate_singleton]
      exact ht
    | cons u texts =>
      rw [String.intercalate_cons_cons]
      exact (ht.append hs).append (ih fun v hv => h v (List.mem_cons_of_mem t hv))

/-! ### Closed texts with a semicolon after each -/

/-- Texts one after another, each ended by a semicolon. -/
def ended (texts : List String) : List Char := texts.flatMap fun t => t.toList ++ [';']

theorem ended_cons (t : String) (texts : List String) : ended (t :: texts) = t.toList ++ ';' :: ended texts := by
  simp [ended]

theorem after_ended {texts : List String} (h : ∀ t ∈ texts, Closed t) :
    Scan.outside.after (ended texts) = .outside := by
  induction texts with
  | nil => rfl
  | cons t texts ih =>
    have ht : Scan.outside.after t.toList = .outside := Scan.after_of_through (h t List.mem_cons_self)
    rw [ended_cons, Scan.after_append, ht]
    exact ih fun u hu => h u (List.mem_cons_of_mem t hu)

theorem pieces_ended {texts : List String} (h : ∀ t ∈ texts, Closed t) :
    pieces .outside (ended texts) = texts.map String.toList ++ [[]] := by
  induction texts with
  | nil => rfl
  | cons t texts ih =>
    have hrest := ih fun u hu => h u (List.mem_cons_of_mem t hu)
    rw [ended_cons, pieces_append (h t List.mem_cons_self), pieces, if_pos ⟨rfl, rfl⟩, hrest]
    simp

/-- The semicolons that a scan meets outside literals are those that end the texts. -/
theorem stops_ended {texts : List String} (h : ∀ t ∈ texts, Closed t) (i : Nat) :
    Stops .outside (ended texts) i ↔ ∃ k < texts.length, i + 1 = (ended (texts.take (k + 1))).length := by
  induction texts generalizing i with
  | nil => simp [Stops, ended]
  | cons t texts ih =>
    have ht : Closed t := h t List.mem_cons_self
    have hafter : Scan.outside.after t.toList = .outside := Scan.after_of_through ht
    have hrest := ih fun u hu => h u (List.mem_cons_of_mem t hu)
    have hlength : ∀ k, (ended ((t :: texts).take (k + 1))).length =
        t.toList.length + 1 + (ended (texts.take k)).length := by
      intro k
      rw [List.take_succ_cons, ended_cons, List.length_append, List.length_cons]
      omega
    rw [ended_cons]
    rcases Nat.lt_trichotomy i t.toList.length with hi | hi | hi
    · -- Inside the first text, which has none.
      rw [stops_append_left hi]
      constructor
      · intro hstop
        exact absurd hstop (not_stops_of_through ht i)
      · rintro ⟨k, -, hk⟩
        rw [hlength] at hk
        omega
    · subst hi
      rw [stops_append_right (Nat.le_refl _), hafter, Nat.sub_self]
      constructor
      · intro _
        refine ⟨0, by simp, ?_⟩
        rw [hlength]
        simp [ended]
      · intro _
        exact ⟨rfl, rfl⟩
    · -- Past the first text, the rest is scanned from outside again.
      have hsplit : t.toList ++ ';' :: ended texts = (t.toList ++ [';']) ++ ended texts := by simp
      have houter : Scan.outside.after (t.toList ++ [';']) = .outside := by
        rw [Scan.after_append, hafter]
        rfl
      have hlen : (t.toList ++ [';']).length = t.toList.length + 1 := by simp
      rw [hsplit, stops_append_right (by omega), houter, hlen, hrest]
      constructor
      · rintro ⟨k, hk, heq⟩
        refine ⟨k + 1, by simp; omega, ?_⟩
        rw [hlength]
        omega
      · rintro ⟨k, hk, heq⟩
        rw [hlength] at heq
        cases k with
        | zero =>
          simp [ended] at heq
          omega
        | succ k =>
          refine ⟨k, by simp at hk; omega, ?_⟩
          omega

end PigChain
