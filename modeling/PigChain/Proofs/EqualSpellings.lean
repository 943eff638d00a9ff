import PigChain.Proofs.CanonicalUrl

/-!
# Spellings of one address

Main statement: the canonical spelling of an address is read as that address, and two addresses have one canonical
spelling exactly if their hosts differ in case only, their ports are the same, and their query pairs, with the names in
lower case, differ in order only, where pairs of one name keep theirs. Sorting by name is stable, so it keeps the pairs
of each name in order; and a list in the order of its names is determined by the pairs of each name.
-/

namespace PigChain

namespace Form

/-- The pairs of a name, in order. -/
def named (key : String) (pairs : List Pair) : List Pair := pairs.filter fun p => p.1 == key

/-- The same pairs in another order, in which pairs of one name have kept theirs. -/
def Reordered (ps qs : List Pair) : Prop := ∀ key, named key ps = named key qs

theorem named_cons (key : String) (p : Pair) (ps : List Pair) :
    named key (p :: ps) = if p.1 = key then p :: named key ps else named key ps := by
  simp only [named, List.filter_cons, beq_iff_eq]

theorem mem_named {key : String} {p : Pair} {ps : List Pair} : p ∈ named key ps ↔ p ∈ ps ∧ p.1 = key := by
  simp [named]

/-- The first name of a list in order comes before every name of a reordering. -/
theorem Reordered.head_le {p q : Pair} {ps qs : List Pair} (h : Reordered (p :: ps) (q :: qs))
    (hs : (q :: qs).Pairwise fun a b => a.1 ≤ b.1) : q.1 ≤ p.1 := by
  have hmem : p ∈ named p.1 (q :: qs) := by
    rw [← h p.1]
    exact mem_named.mpr ⟨List.mem_cons_self, rfl⟩
  rcases List.mem_cons.mp (mem_named.mp hmem).1 with rfl | hp
  · exact String.le_refl _
  · exact (List.pairwise_cons.mp hs).1 p hp

theorem Reordered.tail {p : Pair} {ps qs : List Pair} (h : Reordered (p :: ps) (p :: qs)) : Reordered ps qs := by
  intro key
  have hkey := h key
  rw [named_cons, named_cons] at hkey
  split at hkey
  · exact List.tail_eq_of_cons_eq hkey
  · exact hkey

theorem Reordered.eq_of_pairwise {ps qs : List Pair} (h : Reordered ps qs) (hps : ps.Pairwise fun a b => a.1 ≤ b.1)
    (hqs : qs.Pairwise fun a b => a.1 ≤ b.1) : ps = qs := by
  induction ps generalizing qs with
  | nil =>
    cases qs with
    | nil => rfl
    | cons q qs =>
      have hq := h q.1
      rw [named_cons, if_pos rfl] at hq
      cases hq
  | cons p ps ih =>
    cases qs with
    | nil =>
      have hp := h p.1
      rw [named_cons, if_pos rfl] at hp
      cases hp
    | cons q qs =>
      have hsym : Reordered (q :: qs) (p :: ps) := fun key => (h key).symm
      have hkey : p.1 = q.1 := String.le_antisymm (hsym.head_le hps) (h.head_le hqs)
      -- Both heads are the first pair of their common name.
      have hhead := h p.1
      rw [named_cons, named_cons, if_pos rfl, if_pos hkey.symm] at hhead
      obtain rfl := List.head_eq_of_cons_eq hhead
      rw [ih h.tail (List.pairwise_cons.mp hps).2 (List.pairwise_cons.mp hqs).2]

end Form

namespace MartUrl

/-- Sorting keeps the pairs of one name in order. -/
theorem named_normalise (key : String) (pairs : List Form.Pair) :
    Form.named key (normalise pairs) = Form.named key (lowered pairs) := by
  have hequal : (Form.named key (lowered pairs)).Pairwise fun a b => inOrder a b = true := by
    refine List.pairwise_of_forall_mem_list fun a ha b hb => ?_
    rw [inOrder, (Form.mem_named.mp ha).2, (Form.mem_named.mp hb).2]
    exact decide_eq_true (String.le_refl key)
  have hsub : (Form.named key (lowered pairs)).Sublist (normalise pairs) :=
    List.sublist_mergeSort inOrder_trans inOrder_total hequal List.filter_sublist
  have hsub' : (Form.named key (lowered pairs)).Sublist (Form.named key (normalise pairs)) := by
    have hfilter := hsub.filter fun p => p.1 == key
    simpa only [Form.named, List.filter_filter, Bool.and_self] using hfilter
  exact (hsub'.eq_of_length ((List.mergeSort_perm (lowered pairs) inOrder).filter _).length_eq.symm).symm

theorem normalise_eq_iff {ps qs : List Form.Pair} :
    normalise ps = normalise qs ↔ Form.Reordered (lowered ps) (lowered qs) := by
  constructor
  · intro h key
    rw [← named_normalise, ← named_normalise, h]
  · intro h
    have hsorted := fun pairs => (pairwise_normalise pairs).imp of_decide_eq_true
    refine Form.Reordered.eq_of_pairwise (fun key => ?_) (hsorted ps) (hsorted qs)
    rw [named_normalise, named_normalise, h key]

/-- An address is determined by its canonical spelling, which reads as nothing else. -/
theorem canonical_eq_iff {first second : String} {u v : MartUrl} (hu : parse first = .ok u)
    (hv : parse second = .ok v) :
    u.canonical = v.canonical ↔ u = v := by
  refine ⟨fun h => ?_, congrArg canonical⟩
  have hread := parse_canonical hu
  rw [h, parse_canonical hv] at hread
  exact (Except.ok.inj hread).symm

end MartUrl

/-- The canonical spelling of an address is read as the same address, with its host, port, mart and canonical spelling.
Addresses have one canonical spelling exactly if what is read of them differs in nothing but the case of the host, the
case of names and the order of pairs of different names. -/
theorem canonical_spelling_is_fixed_and_unordered {first second : String} {u v : MartUrl}
    (hu : MartUrl.parse first = .ok u) (hv : MartUrl.parse second = .ok v) :
    MartUrl.parse u.canonical = .ok u ∧
      ∃ a b, Url.parse (Text.trim first) = .ok a ∧ Url.parse (Text.trim second) = .ok b ∧
        (u.canonical = v.canonical ↔
          a.host.map MartUrl.lower = b.host.map MartUrl.lower ∧
          a.port.getD MartUrl.defaultPort = b.port.getD MartUrl.defaultPort ∧
          Form.Reordered (MartUrl.lowered a.pairs) (MartUrl.lowered b.pairs)) := by
  refine ⟨MartUrl.parse_canonical hu, ?_⟩
  rw [MartUrl.canonical_eq_iff hu hv]
  obtain ⟨a, host, ha, -, hhost, rfl⟩ := MartUrl.parse_eq_ok.mp hu
  obtain ⟨b, host', hb, -, hhost', rfl⟩ := MartUrl.parse_eq_ok.mp hv
  refine ⟨a, b, ha, hb, ?_⟩
  rw [MartUrl.mk.injEq, MartUrl.normalise_eq_iff, hhost, hhost', Option.map_some, Option.map_some, Option.some.injEq]

theorem canonical_spelling_is_fixed_and_unordered_server :
    ∃ u v, MartUrl.parse "http://SERVER/?B=2&a=1&A=3" = .ok u ∧
      MartUrl.parse "edgespring://server:8000?A=1&b=2&a=3" = .ok v ∧ MartUrl.parse u.canonical = .ok u ∧
      u.canonical = v.canonical := by
  have ha : Url.parse (Text.trim "http://SERVER/?B=2&a=1&A=3") =
      .ok ⟨"http", some "server", none, some "B=2&a=1&A=3"⟩ := by
    decide +kernel
  have hb : Url.parse (Text.trim "edgespring://server:8000?A=1&b=2&a=3") =
      .ok ⟨"edgespring", some "server", some 8000, some "A=1&b=2&a=3"⟩ := by
    decide +kernel
  have hu := MartUrl.parse_eq_ok.mpr ⟨_, "server", ha, by decide, rfl, rfl⟩
  have hv := MartUrl.parse_eq_ok.mpr ⟨_, "server", hb, by decide, rfl, rfl⟩
  obtain ⟨hfixed, a, b, ha', hb', hiff⟩ := canonical_spelling_is_fixed_and_unordered hu hv
  cases ha.symm.trans ha'
  cases hb.symm.trans hb'
  refine ⟨_, _, hu, hv, hfixed, hiff.mpr ⟨rfl, rfl, fun key => ?_⟩⟩
  have hpairs : MartUrl.lowered (Form.read "B=2&a=1&A=3") = [("b", "2"), ("a", "1"), ("a", "3")] ∧
      MartUrl.lowered (Form.read "A=1&b=2&a=3") = [("a", "1"), ("b", "2"), ("a", "3")] := by
    decide +kernel
  show Form.named key (MartUrl.lowered (Form.read _)) = Form.named key (MartUrl.lowered (Form.read _))
  rw [hpairs.1, hpairs.2]
  by_cases hkey : "b" = key
  · subst hkey
    rfl
  · simp only [Form.named_cons, hkey, if_false]

end PigChain
