import Gatehouse.Proofs.HeaderValues
import Gatehouse.Proofs.Passage

/-!
# Sources of tokens

A header value names no token exactly if it consists of spaces and tabs, with at most the bearer
word among them (`tokenInHeader_eq_none_iff`).  Any other value decides by itself: it names a
token, or the request is refused on its account.  The query is looked at only where no value
decides, and so no source has a say in what another one decided
(`Gate.authenticate_one_source`).
-/

namespace Gatehouse

open Http Text

/-! ## Queries -/

section Queries

open Text.Percent

/-- The last field of a name in a query, spelled `name=value` between two `&` or an end. -/
inductive LastField (query : List UInt8) (name : String) (value : List UInt8) : Prop
  | intro {earlier later : List (List UInt8)} {spelled : List UInt8} :
      query.splitOn 0x26 = earlier ++ (spelled ++ 0x3D :: value) :: later →
      0x3D ∉ spelled → fieldText spelled = name →
      (∀ piece ∈ later, piece ≠ [] → fieldText (piece.takeWhile (· != 0x3D)) ≠ name) →
      LastField query name value

lemma field_spelled {spelled value : List UInt8} (h : 0x3D ∉ spelled) :
    field (spelled ++ 0x3D :: value) = (fieldText spelled, fieldText value) := by
  have hspelled : ∀ b ∈ spelled, (b != 0x3D) = true := fun b hb =>
    bne_iff_ne.2 (ne_of_mem_of_not_mem hb h)
  rw [field, List.takeWhile_append_of_pos hspelled, List.dropWhile_append_of_pos hspelled]
  simp

lemma lookup_formFields {query value : List UInt8} {name : String}
    (h : LastField query name value) :
    (formFields query).reverse.lookup name = some (fieldText value) := by
  obtain @⟨earlier, later, spelled, hsplit, hspelled, hname, hlater⟩ := h
  have hpiece : ∀ pieces : List (List UInt8),
      ((spelled ++ 0x3D :: value) :: pieces).filter (fun piece => !piece.isEmpty) =
        (spelled ++ 0x3D :: value) :: pieces.filter (fun piece => !piece.isEmpty) :=
    fun pieces => List.filter_cons_of_pos (by simp)
  have hnone : ((later.filter (fun piece => !piece.isEmpty)).map field).reverse.lookup name =
      none := by
    rw [List.lookup_eq_none_iff]
    intro other hother
    obtain ⟨piece, hmem, rfl⟩ := List.mem_map.1 (List.mem_reverse.1 hother)
    obtain ⟨hpieceLater, hempty⟩ := List.mem_filter.1 hmem
    have hne : piece ≠ [] := by
      rintro rfl
      cases hempty
    rw [bne_iff_ne]
    exact (hlater piece hpieceLater hne).symm
  rw [formFields, hsplit, List.filter_append, hpiece, List.map_append, List.map_cons,
    List.reverse_append, List.reverse_cons, List.append_assoc, List.lookup_append, hnone,
    field_spelled hspelled, hname]
  simp

/-- The token in a query. -/
lemma queryToken?_of_field {query name : String} {value : List UInt8}
    (h : LastField (Utf8.encode query) name value) (hsolid : Solid (fieldText value).toList) :
    queryToken? query name = some (fieldText value) := by
  have htrim := trim_eq_self hsolid
  obtain ⟨c, rest, hcons⟩ := List.exists_cons_of_ne_nil hsolid.ne_nil
  have hvalue : String.ofList (c :: rest) = fieldText value := by
    rw [← hcons, String.ofList_toList]
  rw [hcons] at htrim
  simp only [queryToken?, lookup_formFields h, hcons, htrim, hvalue]

end Queries

/-! ## Which source decides -/

section Requests

variable {config : GateConfig} {request request' : Request}

/-- A value that is not blank decides, whether it names a token or not. -/
lemma requestToken_of_header {v : List UInt8} (hon : config.sources.header = true)
    (hfirst : Header.first? request.headers "authorization" = some v) (hv : ¬BlankValue v) :
    requestToken config request =
      match tokenInHeader v with
      | .error e => .error e
      | .ok token? => token?.elim (.error .missingToken) .ok := by
  have hheader : headerToken request.headers = tokenInHeader v := by
    rw [headerToken, hfirst]
  rcases htoken : tokenInHeader v with e | _ | token
  · exact requestToken_eq_iff.2 (.refused hon (hheader.trans htoken))
  · exact absurd (tokenInHeader_eq_none_iff.1 htoken) hv
  · exact requestToken_eq_iff.2 (.inHeader hon (hheader.trans htoken))

/-- Only the first authorization field and the query are looked at, and each only where its
source is on. -/
lemma requestToken_congr
    (hheader : config.sources.header = true →
      Header.first? request.headers "authorization" =
        Header.first? request'.headers "authorization")
    (hquery : config.sources.query = true → request.uri.query = request'.uri.query) :
    requestToken config request = requestToken config request' := by
  have hfield : config.sources.header = true →
      headerToken request.headers = headerToken request'.headers := fun hon => by
    rw [headerToken, headerToken, hheader hon]
  rw [requestToken_eq_iff]
  -- By what is found for the other request; each of the four ways asks only for what both share.
  generalize hfound : requestToken config request' = found
  cases requestToken_eq_iff.1 hfound with
  | refused hon h => exact .refused hon ((hfield hon).trans h)
  | inHeader hon h => exact .inHeader hon ((hfield hon).trans h)
  | inQuery hnone hon h =>
    refine .inQuery (fun h => (hfield h).trans (hnone h)) hon ?_
    rwa [hquery hon]
  | nowhere hnone hno =>
    refine .nowhere (fun h => (hfield h).trans (hnone h)) fun hon => ?_
    rw [hquery hon, hno hon]

/-- What stands behind a field of the name is never the first of it. -/
lemma first?_behind {before after after' : List Header} {field : Header} {name : String}
    (h : field.name = name) : Header.first? (before ++ field :: after) name =
      Header.first? (before ++ field :: after') name := by
  have hfield : ∀ fields : List Header,
      (field :: fields).find? (fun f => f.name == name) = some field :=
    fun fields => List.find?_cons_of_pos (beq_iff_eq.2 h)
  rw [Header.first?, Header.first?, List.find?_append, List.find?_append, hfield, hfield]

end Requests

namespace Gate

variable {gate : Gate} {now : Int} {request request' : Request}

lemma authenticate_congr (hmethod : request.method = request'.method)
    (hpath : request.uri.path = request'.uri.path)
    (htoken : requestToken gate.config request = requestToken gate.config request') :
    gate.authenticate now request = gate.authenticate now request' := by
  have hcaller : gate.caller now request = gate.caller now request' := by
    rw [caller, caller, htoken]
  rw [authenticate, authenticate, hmethod, hpath, hcaller]

/-- Sources of tokens do not interfere.  Of two requests with the same method and path, a source
that is off is not looked at; an authorization field that is not blank decides alone, even where
it is refused; and of several such fields only the first counts.  What the gate does is then the
same throughout, so it comes to the same whatever the stores hold. -/
theorem authenticate_one_source (gate : Gate) (now : Int) (request request' : Request)
    (hmethod : request.method = request'.method)
    (hpath : request.uri.path = request'.uri.path) :
    (gate.config.sources.query = false → request.headers = request'.headers →
      gate.authenticate now request = gate.authenticate now request') ∧
    (gate.config.sources.header = false → request.uri.query = request'.uri.query →
      gate.authenticate now request = gate.authenticate now request') ∧
    (∀ v, gate.config.sources.header = true →
      Header.first? request.headers "authorization" = some v →
      Header.first? request'.headers "authorization" = some v → ¬BlankValue v →
      gate.authenticate now request = gate.authenticate now request') ∧
    (∀ before field after after', field.name = "authorization" →
      request.headers = before ++ field :: after →
      request'.headers = before ++ field :: after' → request.uri.query = request'.uri.query →
      gate.authenticate now request = gate.authenticate now request') := by
  refine ⟨?headerAlone, ?queryAlone, ?headerDecides, ?firstOnly⟩
  case headerAlone =>
    intro hoff hheaders
    refine authenticate_congr hmethod hpath (requestToken_congr ?_ ?_)
    · exact fun _ => congrArg (Header.first? · "authorization") hheaders
    · exact fun hon => absurd (hoff.symm.trans hon) Bool.false_ne_true
  case queryAlone =>
    intro hoff hquery
    refine authenticate_congr hmethod hpath (requestToken_congr ?_ fun _ => hquery)
    exact fun hon => absurd (hoff.symm.trans hon) Bool.false_ne_true
  case headerDecides =>
    intro v hon hfirst hfirst' hv
    apply authenticate_congr hmethod hpath
    rw [requestToken_of_header hon hfirst hv, requestToken_of_header hon hfirst' hv]
  case firstOnly =>
    intro before field after after' hname hheaders hheaders' hquery
    refine authenticate_congr hmethod hpath (requestToken_congr ?_ fun _ => hquery)
    intro _
    rw [hheaders, hheaders']
    exact first?_behind hname

/-- A value that is no text at all keeps a token in the query from being looked at. -/
theorem authenticate_one_source_no_text :
    let gate : Gate := ⟨.ofSources .both, ⟨.both, "secret", rfl⟩, rfl⟩
    let bare : Request := ⟨.get, ⟨"/me", ""⟩, [⟨"authorization", [0xFF]⟩], []⟩
    let other : Request := ⟨.get, ⟨"/me", "token=a.b.c"⟩, [⟨"authorization", [0xFF]⟩], []⟩
    bare.method = other.method ∧ bare.uri.path = other.uri.path ∧
      gate.config.sources.header = true ∧
      Header.first? bare.headers "authorization" = some [0xFF] ∧
      Header.first? other.headers "authorization" = some [0xFF] ∧ ¬BlankValue [0xFF] ∧
      gate.authenticate 0 bare = gate.authenticate 0 other := by
  intro gate bare other
  have hsolid : ¬BlankValue [0xFF] := by
    intro h
    have hplain := h.plain 0xFF List.mem_cons_self
    exact absurd hplain (by decide)
  have hsources := authenticate_one_source gate 0 bare other rfl rfl
  exact ⟨rfl, rfl, rfl, rfl, rfl, hsolid, hsources.2.2.1 [0xFF] rfl rfl rfl hsolid⟩

end Gate

end Gatehouse
