import PigChain.Proofs.NamedMarts

/-!
# Addresses of updates

A request to replace a record goes to the address of its mart with one more pair behind the query. An address that names
a mart has a query, so what is put behind an ampersand is read as one more pair. The name of that pair is not the one
that marts are named by, so the mart that is addressed stays the same, wherever the pair comes to stand among the others.
-/

namespace PigChain

theorem Form.write_concat {pairs : List Form.Pair} (h : pairs ≠ []) (p : Form.Pair) :
    Form.write (pairs ++ [p]) = Form.write pairs ++ "&" ++ Form.encodePair p := by
  have hparts : pairs.map Form.encodePair ≠ [] := by simpa using h
  have hlast : [p].map Form.encodePair ≠ [] := List.cons_ne_nil _ _
  rw [Form.write, List.map_append, String.intercalate_append_of_ne_nil hparts hlast, Form.write]
  simp

namespace MartUrl

variable {u : MartUrl}

/-- The address with one more pair behind the others. -/
def withPair (u : MartUrl) (p : Form.Pair) : MartUrl := { u with pairs := u.pairs ++ [p] }

theorem pairs_ne_nil_of_mart {name : String} (h : u.mart = some name) : u.pairs ≠ [] := by
  intro hnil
  rw [mart, hnil] at h
  cases h

theorem splitQuery_queryText (h : u.pairs ≠ []) : Url.splitQuery u.queryText = some (Form.write u.pairs) := by
  have hhash : '#' ∉ (Form.write u.pairs).toList := by
    intro hmem
    exact (Form.write_chars hmem).2.2 rfl
  have hempty : u.pairs.isEmpty = false := by simpa using h
  rw [queryText, hempty, if_neg Bool.false_ne_true, Url.splitQuery_question hhash]

/-- The spelling of an address with a query, part by part. -/
theorem canonical_of_pairs (h : u.pairs ≠ []) :
    u.canonical = "edgespring://" ++ u.host ++ ":" ++ toString u.port ++ ("?" ++ Form.write u.pairs) := by
  have hempty : u.pairs.isEmpty = false := by simpa using h
  delta canonical
  rw [hempty, if_neg Bool.false_ne_true]

theorem canonical_withPair (h : u.pairs ≠ []) (p : Form.Pair) :
    (u.withPair p).canonical = u.canonical ++ "&" ++ Form.encodePair p := by
  have hmore : (u.withPair p).pairs ≠ [] := by simp [withPair]
  rw [canonical_of_pairs hmore, canonical_of_pairs h, withPair, Form.write_concat h]
  simp only [String.append_assoc]

/-- A pair of another name does not change which mart is named, though it may come to stand before it. -/
theorem mart_withPair (h : normalise u.pairs = u.pairs) {p : Form.Pair} (hp : lower p.1 ≠ martKey) :
    mart ⟨u.host, u.port, normalise (u.withPair p).pairs⟩ = u.mart := by
  have hnamed : Form.named martKey (lowered (u.pairs ++ [p])) = Form.named martKey (lowered u.pairs) := by
    simp [Form.named, lowered, hp]
  rw [mart_normalise rfl, withPair, hnamed, ← mart_normalise h.symm]

end MartUrl

namespace EdgeMart

variable {u : MartUrl} {m : EdgeMart}

theorem ofUrl_eq_ok (h : ofUrl u = .ok m) : m.url = u ∧ u.mart = some m.name := by
  unfold ofUrl at h
  split at h
  · cases h
  · next name hname =>
    obtain ⟨endpoint, -, rfl⟩ := except_map_eq_ok.mp h
    exact ⟨rfl, hname⟩

/-- The pair that asks for an update. -/
def updatePair : Form.Pair := ("action", "update")

theorem canonical_updatePair (h : u.pairs ≠ []) :
    u.canonical ++ "&action=update" = (u.withPair updatePair).canonical := by
  have hpair : Form.encodePair updatePair = "action=update" := by decide
  have hmark : "&action=update" = "&" ++ "action=update" := rfl
  rw [MartUrl.canonical_withPair h, hpair, hmark, String.append_assoc]

theorem updateUri_eq (hc : m.url.IsCanonical) (h : m.url.pairs ≠ []) :
    m.updateUri = .ok (m.url.withPair updatePair).canonical := by
  have hmore : (m.url.withPair updatePair).pairs ≠ [] := by simp [MartUrl.withPair]
  have hparse := @MartUrl.url_canonical (m.url.withPair updatePair) hc.isHost hc.host_ne_nil hc.port_le
  rw [MartUrl.splitQuery_queryText hmore] at hparse
  -- The equation of `updateUri` is costly to state, its body is not.
  delta updateUri
  rw [canonical_updatePair h, hparse, MartUrl.canonical_of_pairs hmore]
  show Except.ok ("edgespring" ++ "://" ++ (m.url.host ++ (":" ++ toString m.url.port)) ++ _) = _
  simp only [String.append_assoc]
  rfl

end EdgeMart

/-- The address of an update is the canonical spelling of its mart with a pair behind it. It is read with the pairs of
the mart's address and then that pair, and addresses the same mart on the same server. -/
theorem update_uri_addresses_mart {α : Type} {text : String} {u : MartUrl} {request : Update α}
    (hu : MartUrl.parse text = .ok u) (hmart : EdgeMart.ofUrl u = .ok request.mart) :
    ∃ uri, request.uri = .ok uri ∧ uri = u.canonical ++ "&action=update" ∧
      (∃ place target, Url.parse u.canonical = .ok place ∧ Url.parse uri = .ok target ∧
        target.pairs = place.pairs ++ [("action", "update")]) ∧
      ∃ v, MartUrl.parse uri = .ok v ∧ v.host = u.host ∧ v.port = u.port ∧ v.mart = u.mart := by
  obtain ⟨hurl, hname⟩ := EdgeMart.ofUrl_eq_ok hmart
  have hc := MartUrl.isCanonical_of_parse hu
  have hpairs := MartUrl.pairs_ne_nil_of_mart hname
  have huri : request.uri = .ok (u.withPair EdgeMart.updatePair).canonical := by
    rw [Update.uri, EdgeMart.updateUri_eq (hurl ▸ hc) (hurl ▸ hpairs), hurl]
  have hplace := MartUrl.url_canonical hc.isHost hc.host_ne_nil hc.port_le
  have htarget := @MartUrl.url_canonical (u.withPair EdgeMart.updatePair) hc.isHost hc.host_ne_nil hc.port_le
  have hread := @MartUrl.parse_spelling (u.withPair EdgeMart.updatePair) hc.isHost hc.host_ne_nil hc.lower_host hc.port_le
  refine ⟨_, huri, (EdgeMart.canonical_updatePair hpairs).symm, ⟨_, _, hplace, htarget, ?_⟩, ⟨_, hread, rfl, rfl, ?_⟩⟩
  · rw [Url.pairs, Url.pairs, MartUrl.pairs_queryText, MartUrl.pairs_queryText]
    rfl
  · exact MartUrl.mart_withPair hc.normalise_pairs (by decide)

/-- Of the pairs that could name the mart the first has no value, and the new pair comes before both. -/
theorem update_uri_addresses_mart_repeated :
    ∃ u m, MartUrl.parse "https://Edge.local:9100/?EdgeMart=&edgemart=people" = .ok u ∧ EdgeMart.ofUrl u = .ok m ∧
      ∃ uri, (Update.mk m ("Ann", 31)).uri = .ok uri ∧
        uri = "edgespring://edge.local:9100?edgemart=&edgemart=people&action=update" ∧
        ∃ v, MartUrl.parse uri = .ok v ∧ v.host = "edge.local" ∧ v.port = 9100 ∧ v.mart = some "people" := by
  have hsorted : MartUrl.normalise [("EdgeMart", ""), ("edgemart", "people")] =
      [("edgemart", ""), ("edgemart", "people")] := by
    rw [MartUrl.normalise_eq]
    exact List.mergeSort_of_pairwise (by decide)
  have hparse : MartUrl.parse "https://Edge.local:9100/?EdgeMart=&edgemart=people" =
      .ok ⟨"edge.local", 9100, [("edgemart", ""), ("edgemart", "people")]⟩ := by
    have hurl : Url.parse (Text.trim "https://Edge.local:9100/?EdgeMart=&edgemart=people") =
        .ok ⟨"https", some "edge.local", some 9100, some "EdgeMart=&edgemart=people"⟩ := by decide +kernel
    have hpairs : Url.pairs ⟨"https", some "edge.local", some 9100, some "EdgeMart=&edgemart=people"⟩ =
        [("EdgeMart", ""), ("edgemart", "people")] := by decide +kernel
    refine MartUrl.parse_eq_ok.mpr ⟨_, "edge.local", hurl, by decide, rfl, ?_⟩
    rw [hpairs, hsorted]
    decide
  have hmart : EdgeMart.ofUrl ⟨"edge.local", 9100, [("edgemart", ""), ("edgemart", "people")]⟩ =
      .ok ⟨⟨"edge.local", 9100, [("edgemart", ""), ("edgemart", "people")]⟩, "people",
        "http://edge.local:9100/remote"⟩ := by
    decide +kernel
  obtain ⟨uri, huri, htext, -, v, hread, hhost, hport, hname⟩ :=
    @update_uri_addresses_mart (String × Nat) _ _ ⟨_, ("Ann", 31)⟩ hparse hmart
  refine ⟨_, _, hparse, hmart, uri, huri, ?_, v, hread, hhost, hport, ?_⟩
  · rw [htext]
    decide +kernel
  · rw [hname]
    decide +kernel

end PigChain
