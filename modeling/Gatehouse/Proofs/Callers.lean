import Gatehouse.Proofs.TokenSources
import Gatehouse.Proofs.Tokens

/-!
# Callers who present a token

Wherever an issued token is presented, in a header with or without the bearer word or in a query,
exactly the token that was issued is found, because none of its characters means anything there
(`requestToken_of_presents`).  Whoever presents it is therefore known to the gate as the user it was
issued for, for twelve hours, and is refused before and after (`Gate.caller_of_issued`).
-/

namespace Gatehouse

open Http Text

/-! ## Presenting a token -/

/-- A request presents a token: in its first authorization field, alone or behind the bearer word
and a blank, with blanks around it; or in the last field of the query that has the name for
tokens, as it is or spelled with escapes, where no authorization field comes before it. -/
inductive Http.Request.Presents (request : Request) (config : GateConfig) (token : String) : Prop
  | bare {w w' : List UInt8} : config.sources.header = true →
      Header.first? request.headers "authorization" = some (w ++ Utf8.encode token ++ w') →
      Spacing w → Spacing w' → Presents request config token
  | behindBearer {w w' w'' : List UInt8} : config.sources.header = true →
      Header.first? request.headers "authorization" =
        some (w ++ bearerWord ++ (w' ++ Utf8.encode token ++ w'')) →
      Spacing w → Spacing w' → w' ≠ [] → Spacing w'' → Presents request config token
  | inQuery {value : List UInt8} : config.sources.query = true →
      (config.sources.header = true →
        ∀ v, Header.first? request.headers "authorization" = some v → BlankValue v) →
      LastField (Utf8.encode request.uri.query) config.queryParam value →
      (value = Utf8.encode token ∨ Percent.fieldText value = token) → Presents request config token

/-- What is known of the characters of an issued token: none of them is a blank or means anything
in a query, and there is a dot among them. -/
structure TokenChars (token : String) : Prop where
  bounds : ∀ c ∈ token.toList, 45 ≤ c.toNat ∧ c.toNat ≤ 122
  dot : '.' ∈ token.toList

lemma tokenChars_issue (secret : String) (user : Uuid) (m : Session.Moment) :
    TokenChars (Token.issue secret user m) where
  bounds := by
    rw [Token.issue, String.toList_ofList]
    exact fun c hc => Token.bounds_of_mem_sign hc
  dot := by
    rw [Token.issue, String.toList_ofList]
    exact Token.dot_mem_sign _ _

namespace TokenChars

variable {token : String}

lemma ascii (h : TokenChars token) : ∀ c ∈ token.toList, c.toNat < 128 :=
  fun c hc => Nat.lt_of_le_of_lt (h.bounds c hc).2 (by decide)

lemma encode_eq (h : TokenChars token) :
    Utf8.encode token = token.toList.map fun c => UInt8.ofNat c.toNat := by
  rw [Utf8.encode_eq_encodeChars, Utf8.encodeChars_ascii h.ascii]

lemma valueChars_encode (h : TokenChars token) :
    valueChars (Utf8.encode token) = token.toList := by
  rw [h.encode_eq, valueChars, List.map_map]
  calc token.toList.map _ = token.toList.map id :=
        List.map_congr_left fun c hc => Utf8.ofNat_toNat_ascii (h.ascii c hc)
    _ = token.toList := List.map_id _

lemma byte_bounds (h : TokenChars token) {b : UInt8} (hb : b ∈ Utf8.encode token) :
    45 ≤ b.toNat ∧ b.toNat ≤ 122 := by
  rw [h.encode_eq] at hb
  obtain ⟨c, hc, rfl⟩ := List.mem_map.1 hb
  rw [UInt8.toNat_ofNat', Nat.mod_eq_of_lt (Nat.lt_trans (h.ascii c hc) (by decide))]
  exact h.bounds c hc

lemma byte_solid (h : TokenChars token) {b : UInt8} (hb : b ∈ Utf8.encode token) :
    ¬(b = 0x20 ∨ b = 0x09) := by
  have hbounds := h.byte_bounds hb
  rintro (rfl | rfl)
  · exact absurd hbounds.1 (by decide)
  · exact absurd hbounds.1 (by decide)

lemma bare (h : TokenChars token) : Bare (Utf8.encode token) where
  plain := by
    intro b hb
    have hbounds := h.byte_bounds hb
    have hlo : 0x20 ≤ b := UInt8.le_iff_toNat_le.2 (Nat.le_trans (by decide) hbounds.1)
    have hhi : b ≤ 0x7E := UInt8.le_iff_toNat_le.2 (Nat.le_trans hbounds.2 (by decide))
    simp only [isPlainByte, hlo, hhi, decide_true, Bool.and_self, Bool.or_true]
  ne_nil := by
    rw [h.encode_eq, Ne, List.map_eq_nil_iff]
    exact List.ne_nil_of_mem h.dot
  head := fun b hb => h.byte_solid (List.mem_of_mem_head? hb)
  last := fun b hb => h.byte_solid (List.mem_of_mem_getLast? hb)

/-- A token is no bearer word, and begins with none that a blank follows. -/
lemma not_ledByBearer (h : TokenChars token) : ¬LedByBearer (Utf8.encode token) := by
  intro hled
  generalize hbytes : Utf8.encode token = t at hled
  cases hled with
  | alone =>
    -- The word alone has no dot in it; followed by a blank it would put a blank into the token.
    have hchars : token.toList = bearer := by
      rw [← h.valueChars_encode, hbytes, valueChars_bearerWord]
    have hdot := h.dot
    rw [hchars] at hdot
    exact absurd hdot (by decide)
  | @followed b rest hb =>
    have hmem : b ∈ Utf8.encode token := by
      rw [hbytes]
      exact List.mem_append_right _ List.mem_cons_self
    exact h.byte_solid hmem hb

lemma fieldText_encode (h : TokenChars token) :
    Percent.fieldText (Utf8.encode token) = token := by
  refine Percent.fieldText_encode fun c hc => ⟨h.ascii c hc, ?_, ?_⟩
  · rintro rfl
    exact absurd (h.bounds _ hc).1 (by decide)
  · rintro rfl
    exact absurd (h.bounds _ hc).1 (by decide)

lemma solid (h : TokenChars token) : Solid token.toList := by
  rw [← h.valueChars_encode]
  exact h.bare.solid

end TokenChars

/-- Where a token is presented, it is found as it was issued. -/
theorem requestToken_of_presents {request : Request} {config : GateConfig} {token : String}
    (h : request.Presents config token) (hchars : TokenChars token) :
    requestToken config request = .ok token := by
  have hnamed : ∀ {v}, Header.first? request.headers "authorization" = some v →
      NamesToken v (Utf8.encode token) → headerToken request.headers = .ok (some token) := by
    intro v hfirst hnames
    have hfound : String.ofList (valueChars (Utf8.encode token)) = token := by
      rw [hchars.valueChars_encode, String.ofList_toList]
    rw [headerToken, hfirst]
    exact hnames.tokenInHeader_eq.trans (by rw [hfound])
  rw [requestToken_eq_iff]
  cases h with
  | bare hon hfirst hw hw' =>
    exact .inHeader hon (hnamed hfirst (.bare hw hchars.bare hchars.not_ledByBearer hw'))
  | behindBearer hon hfirst hw hw' hne hw'' =>
    exact .inHeader hon (hnamed hfirst (.bearer hw hw' hne hchars.bare hw''))
  | @inQuery value hon hblank hfield hvalue =>
    -- The query counts because the field, where it is looked at, is missing or blank.
    have hheader (hheaderOn : config.sources.header = true) :
        headerToken request.headers = .ok none := by
      rw [headerToken]
      cases hfirst : Header.first? request.headers "authorization" with
      | none => rfl
      | some v => exact tokenInHeader_eq_none_iff.2 (hblank hheaderOn v hfirst)
    have htext : Percent.fieldText value = token := by
      rcases hvalue with rfl | hvalue
      · exact hchars.fieldText_encode
      · exact hvalue
    refine .inQuery hheader hon ?_
    rw [queryToken?_of_field hfield (by rw [htext]; exact hchars.solid), htext]

/-! ## The caller -/

lemma Gate.caller_of_token {gate : Gate} {request : Request} {token : String} (now : Int)
    (h : requestToken gate.config request = .ok token) :
    gate.caller now request = (gate.tokens.validate now token).bind Claims.user := by
  simp only [caller, h]
  cases gate.tokens.validate now token with
  | error e => rfl
  | ok claims => rfl

/-- The caller who presents an issued token is known for twelve hours. -/
lemma Gate.caller_of_issued {gate : Gate} {request : Request} {user : Uuid} {m : Session.Moment}
    (now : Int) (h : request.Presents gate.config (gate.tokens.issue user m)) :
    if 0 ≤ m.second ∧ m.second ≤ now ∧ now ≤ m.second + 43200 then
      gate.caller now request = .ok user
    else ∃ e : AuthError, gate.caller now request = .error e ∧ e.response.status = 401 := by
  have htoken := requestToken_of_presents h (tokenChars_issue _ user m)
  have hvalidate := Token.validate_issue user m gate.tokens.secret now
  have hcaller := caller_of_token now htoken
  rw [TokenService.validate, TokenService.issue, hvalidate] at hcaller
  -- A token issued before 1970 is not accepted at any time, which is why its moment is asked about
  -- first.
  by_cases hearly : m.second < 0
  · rw [if_neg (by omega)]
    rw [if_pos hearly, Except.bind] at hcaller
    exact ⟨.invalidToken, hcaller, rfl⟩
  · rw [if_neg hearly] at hcaller
    by_cases hholds : m.second ≤ now ∧ now ≤ m.second + 43200
    · rw [if_pos ⟨by omega, hholds⟩]
      rw [if_pos hholds, Except.bind, Claims.start_user] at hcaller
      exact hcaller
    · rw [if_neg fun hall => hholds hall.2]
      rw [if_neg hholds, Except.bind] at hcaller
      exact ⟨.expiredToken, hcaller, rfl⟩

end Gatehouse
