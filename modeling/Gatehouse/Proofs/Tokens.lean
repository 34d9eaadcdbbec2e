import Gatehouse.Proofs.Forms
import Gatehouse.Session.Source
import Mathlib.Data.List.TakeWhile

/-!
# What tokens are opened

A text is opened exactly if it is three parts joined by dots, of which the first two are Base64
for a header and for claims and the third is the text that signing the first two produces
(`Token.open?_eq_some_iff`).  No part can hold a dot, so the parts of a text that is opened are
determined by it, and a token with another third part is never opened.

When a text is opened does not depend on the time.  What is opened is accepted on the interval
that its claims name and expired at any other time, unless it is addressed to somebody; then it
is never accepted.
-/

namespace Gatehouse

open Document Shape

namespace Token

/-! ## Cutting at the last dot -/

section SplitLast

variable {cs front back : List Char}

lemma splitLast?_append (h : '.' ∉ back) :
    splitLast? (front ++ '.' :: back) = some (front, back) := by
  have hback : ∀ c ∈ back.reverse, (c != '.') = true := fun c hc =>
    bne_iff_ne.2 (ne_of_mem_of_not_mem (List.mem_reverse.1 hc) h)
  have hlast : (front ++ '.' :: back).reverse.takeWhile (· != '.') = back.reverse := by
    rw [List.reverse_append, List.reverse_cons, List.append_assoc,
      List.takeWhile_append_of_pos hback]
    simp
  have hlength : back.reverse.length ≠ (front ++ '.' :: back).length := by
    simp only [List.length_reverse, List.length_append, List.length_cons]
    omega
  have hfront : (front ++ '.' :: back).reverse.drop (back.reverse.length + 1) = front.reverse := by
    rw [List.reverse_append, List.reverse_cons, List.append_assoc, ← List.append_assoc,
      List.drop_left' (by simp)]
  simp only [splitLast?, hlast]
  rw [if_neg hlength, hfront, List.reverse_reverse, List.reverse_reverse]

lemma splitLast?_eq_none (h : '.' ∉ cs) : splitLast? cs = none := by
  have hall : ∀ c ∈ cs.reverse, (c != '.') = true := fun c hc =>
    bne_iff_ne.2 (ne_of_mem_of_not_mem (List.mem_reverse.1 hc) h)
  have hlast : cs.reverse.takeWhile (· != '.') = cs.reverse := List.takeWhile_eq_self_iff.2 hall
  simp only [splitLast?, hlast, List.length_reverse, if_true]

theorem splitLast?_eq_some_iff :
    splitLast? cs = some (front, back) ↔ cs = front ++ '.' :: back ∧ '.' ∉ back := by
  constructor
  · intro h
    by_cases hdot : '.' ∈ cs
    · obtain ⟨as, bs, hcs, has⟩ := List.eq_append_cons_of_mem (List.mem_reverse.2 hdot)
      have hsplit : cs = bs.reverse ++ '.' :: as.reverse := by
        rw [← List.reverse_reverse cs, hcs]
        simp
      have hlast : '.' ∉ as.reverse := fun hmem => has (List.mem_reverse.1 hmem)
      rw [hsplit, splitLast?_append hlast] at h
      obtain ⟨rfl, rfl⟩ := Prod.mk.inj (Option.some.inj h)
      exact ⟨hsplit, hlast⟩
    · rw [splitLast?_eq_none hdot] at h
      cases h
  · rintro ⟨rfl, hback⟩
    exact splitLast?_append hback

end SplitLast

/-! ## Parts hold no dots -/

lemma dot_not_mem_encode (bytes : List UInt8) : '.' ∉ Base64Url.encode bytes := by
  intro h
  have hvalue := Base64Url.value?_isSome_of_mem_encode h
  exact absurd hvalue (by decide)

lemma dot_not_mem_of_decode? {cs : List Char} {bytes : List UInt8}
    (h : Base64Url.decode? cs = some bytes) : '.' ∉ cs := by
  intro hdot
  have hvalue := Base64Url.value?_isSome_of_decode? h hdot
  exact absurd hvalue (by decide)

lemma dot_not_mem_signature (secret : String) (signed : List Char) :
    '.' ∉ signature secret signed :=
  dot_not_mem_encode _

/-- The characters of a token lie between the hyphen and the small z. -/
lemma bounds_of_mem_sign {secret : String} {claims : Claims} {c : Char}
    (h : c ∈ sign secret claims) : 45 ≤ c.toNat ∧ c.toNat ≤ 122 := by
  have hpart : ∀ bytes, c ∈ Base64Url.encode bytes → 45 ≤ c.toNat ∧ c.toNat ≤ 122 :=
    fun bytes hc => Base64Url.bounds_of_value? (Base64Url.value?_isSome_of_mem_encode hc)
  have hdot : 45 ≤ '.'.toNat ∧ '.'.toNat ≤ 122 := by decide
  simp only [sign, signedPart, List.mem_append, List.mem_cons] at h
  rcases h with (hc | rfl | hc) | rfl | hc
  · exact hpart _ hc
  · exact hdot
  · exact hpart _ hc
  · exact hdot
  · exact hpart _ hc

lemma dot_mem_sign (secret : String) (claims : Claims) : '.' ∈ sign secret claims :=
  List.mem_append_right _ List.mem_cons_self

/-! ## Opening -/

/-- A token of three parts, the last of which is the signature of the others. -/
def signedText (secret : String) (head body : List Char) : List Char :=
  head ++ '.' :: body ++ '.' :: signature secret (head ++ '.' :: body)

/-- How a text of three parts is opened. -/
lemma open?_parts {secret : String} {head body given : List Char} (hbody : '.' ∉ body)
    (hgiven : '.' ∉ given) : open? secret (head ++ '.' :: body ++ '.' :: given) =
      (Base64Url.decode? head).bind fun headBytes =>
        if isHeader headBytes ∧ given = signature secret (head ++ '.' :: body) then
          (Base64Url.decode? body).bind claimsOf?
        else none := by
  simp only [open?, splitLast?_append hgiven, splitLast?_append hbody, Option.bind_eq_bind,
    Option.bind_some]

lemma exists_parts_of_open? {secret : String} {token : List Char} {opened : Opened}
    (h : open? secret token = some opened) :
    ∃ head body given, token = head ++ '.' :: body ++ '.' :: given ∧ '.' ∉ body ∧ '.' ∉ given := by
  obtain ⟨⟨signed, given⟩, houter, hrest⟩ := Option.bind_eq_some_iff.1 h
  obtain ⟨⟨head, body⟩, hinner, -⟩ := Option.bind_eq_some_iff.1 hrest
  obtain ⟨htoken, hgiven⟩ := splitLast?_eq_some_iff.1 houter
  obtain ⟨hsigned, hbody⟩ := splitLast?_eq_some_iff.1 hinner
  exact ⟨head, body, given, hsigned ▸ htoken, hbody, hgiven⟩

/-- The texts that are opened, and what they say. -/
theorem open?_eq_some_iff {secret : String} {token : List Char} {opened : Opened} :
    open? secret token = some opened ↔
      ∃ head body headBytes bodyBytes, token = signedText secret head body ∧
        Base64Url.decode? head = some headBytes ∧ isHeader headBytes = true ∧
        Base64Url.decode? body = some bodyBytes ∧ claimsOf? bodyBytes = some opened := by
  constructor
  · intro h
    obtain ⟨head, body, given, rfl, hbody, hgiven⟩ := exists_parts_of_open? h
    rw [open?_parts hbody hgiven] at h
    obtain ⟨headBytes, hhead, hsigned⟩ := Option.bind_eq_some_iff.1 h
    obtain ⟨⟨hheader, rfl⟩, hopened⟩ := Option.ite_none_right_eq_some.1 hsigned
    obtain ⟨bodyBytes, hbodyBytes, hclaims⟩ := Option.bind_eq_some_iff.1 hopened
    exact ⟨head, body, headBytes, bodyBytes, rfl, hhead, hheader, hbodyBytes, hclaims⟩
  · rintro ⟨head, body, headBytes, bodyBytes, rfl, hhead, hheader, hbody, hclaims⟩
    rw [signedText, open?_parts (dot_not_mem_of_decode? hbody) (dot_not_mem_signature _ _), hhead,
      Option.bind_some, if_pos ⟨hheader, rfl⟩, hbody, Option.bind_some, hclaims]

lemma isHeader_header : isHeader header.bytes = true := by
  rw [isHeader, readWhole?_bytes]
  decide

/-- Claims that were written are found again, if neither end of the session is before 1970. -/
lemma claimsOf?_write (claims : Claims) : claimsOf? (Claims.form.write claims).bytes =
    if 0 ≤ claims.expiresAt.toInt ∧ 0 ≤ claims.notBefore.toInt then some ⟨claims, false⟩
    else none := by
  have hclaims := Claims.form_lawful.ofDocument? claims
  simp only [claimsOf?, readWhole?_bytes, hclaims, Option.bind_eq_bind, Option.bind_some]
  simp [Claims.form, ofJson, ofMembers, valuesOf, passes]

/-- A token for claims is opened as these claims. -/
theorem open?_sign (secret : String) (claims : Claims) : open? secret (sign secret claims) =
    if 0 ≤ claims.expiresAt.toInt ∧ 0 ≤ claims.notBefore.toInt then some ⟨claims, false⟩
    else none := by
  have hparts : sign secret claims = signedText secret (Base64Url.encode header.bytes)
      (Base64Url.encode (Claims.form.write claims).bytes) := rfl
  rw [hparts, signedText, open?_parts (dot_not_mem_encode _) (dot_not_mem_signature _ _),
    Base64Url.decode?_encode, Option.bind_some, if_pos ⟨isHeader_header, rfl⟩,
    Base64Url.decode?_encode, Option.bind_some, claimsOf?_write]

/-! ## What is opened is genuine -/

/-- A header names a way of signing: in its member `alg`, or, when it is the array of its
members' values, as the second of them. -/
inductive NamesAlgorithm (name : String) : Document → Prop
  | member {members : List (Option String × Document)} {closed : Bool} {d : Document} :
      (some "alg", d) ∈ members → Gives name d → NamesAlgorithm name (.object members closed)
  | item {typ d : Document} {ds : List Document} {closed : Bool} :
      Gives name d → NamesAlgorithm name (.array (typ :: d :: ds) closed)

lemma gives_algorithm {d : Document} {j : Json} (h : choice [algorithm] d = .ok j) :
    Gives algorithm d := by
  obtain ⟨name, hname, hgives⟩ := choice_eq_ok_iff.1 ⟨j, h⟩
  exact List.mem_singleton.1 hname ▸ hgives

lemma namesAlgorithm_object {members : List (Option String × Document)} {closed : Bool} {j : Json}
    (h : record headerFields (.object members closed) = .ok j) (name : String) :
    NamesAlgorithm name (.object members closed) ↔ name = algorithm := by
  have hfits : ∀ d, (some "alg", d) ∈ members → Gives algorithm d := by
    intro d hd
    obtain ⟨j', hj'⟩ := fits_of_record_object h hd rfl
    exact gives_algorithm hj'
  constructor
  · rintro (⟨hmem, hgives⟩ | _)
    exact hgives.eq (hfits _ hmem)
  · rintro rfl
    obtain ⟨d, hd⟩ := mem_of_record_object (f := .required "alg" (choice [algorithm])) h
      (List.mem_cons_of_mem _ List.mem_cons_self) rfl
    exact .member hd (hfits d hd)

lemma namesAlgorithm_array {ds : List Document} {closed : Bool} {j : Json}
    (hlength : ds.length = headerFields.length)
    (h : record headerFields (.array ds closed) = .ok j) (name : String) :
    NamesAlgorithm name (.array ds closed) ↔ name = algorithm := by
  -- A header that is an array has a place for each field, and the second is that of the algorithm.
  match ds, hlength with
  | typ :: d :: ds, _ =>
    obtain ⟨j', hj'⟩ := fits_of_record_array h (.required "alg" (choice [algorithm]), d)
      (List.mem_cons_of_mem _ List.mem_cons_self)
    have halg : Gives algorithm d := gives_algorithm hj'
    constructor
    · rintro (_ | hgives)
      exact hgives.eq halg
    · rintro rfl
      exact .item halg

/-- A header names HS256, and nothing else. -/
theorem namesAlgorithm_iff {bytes : List UInt8} (h : isHeader bytes = true) (name : String) :
    NamesAlgorithm name (readWhole? bytes) ↔ name = algorithm := by
  unfold isHeader at h
  revert h
  cases readWhole? bytes with
  | object members closed =>
    intro h
    cases hj : record headerFields (.object members closed) with
    | ok j => exact namesAlgorithm_object hj name
    | error fault =>
      simp only [headerShape, hj] at h
      cases h
  | array ds closed =>
    intro h
    by_cases hlength : ds.length = headerFields.length
    · cases hj : record headerFields (.array ds closed) with
      | ok j => exact namesAlgorithm_array hlength hj name
      | error fault =>
        simp only [headerShape, hj, if_pos hlength] at h
        cases h
    · simp only [headerShape, if_neg hlength] at h
      cases h
  | _ => exact fun h => by cases h

lemma claimsOf?_eq_some {bytes : List UInt8} {opened : Opened}
    (h : claimsOf? bytes = some opened) : Claims.form.parse? bytes = some opened.claims ∧
      0 ≤ opened.claims.notBefore.toInt ∧ 0 ≤ opened.claims.expiresAt.toInt := by
  obtain ⟨claims, hclaims, hrest⟩ := Option.bind_eq_some_iff.1 h
  cases hdocument : readWhole? bytes with
  | object members closed =>
    rw [hdocument] at hrest
    obtain ⟨⟨-, -, -, -, -, hexp, hnbf⟩, hopened⟩ := Option.ite_none_right_eq_some.1 hrest
    obtain rfl := Option.some.inj hopened
    exact ⟨hclaims, hnbf, hexp⟩
  | _ =>
    rw [hdocument] at hrest
    cases hrest

/-- A text that was signed with a secret: its first part is a header, which names HS256 and no
other way of signing, its second part is the claims, and its third is exactly the signature of the
two. -/
inductive Genuine (secret : String) (claims : Claims) : List Char → Prop
  | intro {head body : List Char} {headBytes bodyBytes : List UInt8} :
      Base64Url.decode? head = some headBytes → isHeader headBytes = true →
      (∀ name, NamesAlgorithm name (readWhole? headBytes) ↔ name = algorithm) →
      Base64Url.decode? body = some bodyBytes → Claims.form.parse? bodyBytes = some claims →
      Genuine secret claims (signedText secret head body)

theorem genuine_of_open? {secret : String} {token : List Char} {opened : Opened}
    (h : open? secret token = some opened) : Genuine secret opened.claims token := by
  obtain ⟨head, body, headBytes, bodyBytes, rfl, hhead, hheader, hbody, hopened⟩ :=
    open?_eq_some_iff.1 h
  exact .intro hhead hheader (namesAlgorithm_iff hheader) hbody (claimsOf?_eq_some hopened).1

/-- The parts of an opened text are what stands between any two of its dots. -/
lemma parts_of_open? {secret : String} {head body given : List Char} {opened : Opened}
    (h : open? secret (head ++ '.' :: body ++ '.' :: given) = some opened) :
    given = signature secret (head ++ '.' :: body) ∧
      ∃ headBytes, Base64Url.decode? head = some headBytes ∧ isHeader headBytes = true := by
  obtain ⟨head', body', headBytes, bodyBytes, htoken, hhead, hheader, hbody, -⟩ :=
    open?_eq_some_iff.1 h
  have hnone : ∀ {cs : List Char}, '.' ∉ cs → cs.count '.' = 0 := List.count_eq_zero_of_not_mem
  -- the text holds two dots in all, so those between the parts are the only ones
  have hcount := congrArg (List.count '.') htoken
  simp only [signedText, List.count_append, List.count_cons_self,
    hnone (dot_not_mem_of_decode? hhead), hnone (dot_not_mem_of_decode? hbody),
    hnone (dot_not_mem_signature _ _)] at hcount
  have hgiven : '.' ∉ given := List.count_eq_zero.1 (by omega)
  have hbodyDot : '.' ∉ body := List.count_eq_zero.1 (by omega)
  rw [open?_parts hbodyDot hgiven] at h
  obtain ⟨headBytes, hheadBytes, hsigned⟩ := Option.bind_eq_some_iff.1 h
  obtain ⟨⟨hisHeader, hsignature⟩, -⟩ := Option.ite_none_right_eq_some.1 hsigned
  exact ⟨hsignature, headBytes, hheadBytes, hisHeader⟩

/-! ## Validating -/

section Validate

variable {secret : String} {token : String} {opened : Opened} {now : Int}

lemma validate_of_unopened (h : open? secret token.toList = none) :
    validate secret now token = .error .invalidToken := by
  rw [validate, h]

lemma validate_of_addressed (h : open? secret token.toList = some opened)
    (haudience : opened.hasAudience = true) (claims : Claims) :
    validate secret now token ≠ .ok claims := by
  rw [validate, h]
  simp only [haudience, if_true]
  split <;> exact nofun

lemma validate_of_open? (h : open? secret token.toList = some opened)
    (haudience : opened.hasAudience = false) : validate secret now token =
      if opened.claims.notBefore.toInt ≤ now ∧ now ≤ opened.claims.expiresAt.toInt then
        .ok opened.claims
      else .error .expiredToken := by
  rw [validate, h]
  simp only [holdsAt, haudience, Bool.and_eq_true, decide_eq_true_eq, Bool.false_eq_true, if_false]

lemma exists_open?_of_validate (h : validate secret now token ≠ .error .invalidToken) :
    ∃ opened, open? secret token.toList = some opened := by
  cases hopen : open? secret token.toList with
  | none => exact absurd (validate_of_unopened hopen) h
  | some opened => exact ⟨opened, rfl⟩

lemma claims_of_validate {claims : Claims} (hopen : open? secret token.toList = some opened)
    (h : validate secret now token = .ok claims) : claims = opened.claims := by
  cases haudience : opened.hasAudience with
  | true => exact absurd h (validate_of_addressed hopen haudience claims)
  | false =>
    rw [validate_of_open? hopen haudience] at h
    split at h
    · exact (Except.ok.inj h).symm
    · cases h

end Validate

end Token

namespace TokenService

open Token

variable (service : TokenService) (token : String)

/-- Which texts are accepted, and when.  A text that is ever accepted is so exactly from one end
of its session to the other, both included, and expired at any other second.  A text that is
ever accepted or expired is genuine, and what is accepted are its claims.  So one with any other
third part, or with a header that names another way of signing, is invalid at every second. -/
theorem validate_genuine_on_interval :
    ((∀ now claims, service.validate now token ≠ .ok claims) ∨
      ∃ claims : Claims, 0 ≤ claims.notBefore.toInt ∧
        claims.notBefore.toInt ≤ claims.expiresAt.toInt ∧
        ∀ now, service.validate now token =
          if claims.notBefore.toInt ≤ now ∧ now ≤ claims.expiresAt.toInt then .ok claims
          else .error .expiredToken) ∧
    (∀ now, service.validate now token ≠ .error .invalidToken →
      ∃ claims, Genuine service.secret claims token.toList ∧
        ∀ later accepted, service.validate later token = .ok accepted → accepted = claims) ∧
    (∀ head body given, token.toList = head ++ '.' :: body ++ '.' :: given →
      given ≠ signature service.secret (head ++ '.' :: body) →
      ∀ now, service.validate now token = .error .invalidToken) ∧
    (∀ head body given headBytes name, token.toList = head ++ '.' :: body ++ '.' :: given →
      Base64Url.decode? head = some headBytes → NamesAlgorithm name (readWhole? headBytes) →
      name ≠ algorithm → ∀ now, service.validate now token = .error .invalidToken) := by
  refine ⟨?interval, ?genuine, ?signature, ?header⟩
  case interval =>
    cases hopen : open? service.secret token.toList with
    | none =>
      refine .inl fun now claims h => ?_
      rw [validate, validate_of_unopened hopen] at h
      cases h
    | some opened =>
      cases haudience : opened.hasAudience with
      | true => exact .inl fun now claims => validate_of_addressed hopen haudience claims
      | false =>
        obtain ⟨-, -, -, bodyBytes, -, -, -, -, hopened⟩ := open?_eq_some_iff.1 hopen
        have hnbf := (claimsOf?_eq_some hopened).2.1
        by_cases hends : opened.claims.notBefore.toInt ≤ opened.claims.expiresAt.toInt
        · exact .inr ⟨opened.claims, hnbf, hends, fun now => validate_of_open? hopen haudience⟩
        · refine .inl fun now claims h => ?_
          rw [validate, validate_of_open? hopen haudience, if_neg (by omega)] at h
          cases h
  case genuine =>
    intro now h
    obtain ⟨opened, hopen⟩ := exists_open?_of_validate h
    exact ⟨opened.claims, genuine_of_open? hopen, fun _ _ => claims_of_validate hopen⟩
  case signature =>
    intro head body given htoken hgiven now
    by_contra h
    obtain ⟨opened, hopen⟩ := exists_open?_of_validate h
    rw [htoken] at hopen
    exact hgiven (parts_of_open? hopen).1
  case header =>
    intro head body given headBytes name htoken hhead hname hother now
    by_contra h
    obtain ⟨opened, hopen⟩ := exists_open?_of_validate h
    rw [htoken] at hopen
    obtain ⟨-, headBytes', hhead', hheader⟩ := parts_of_open? hopen
    obtain rfl : headBytes = headBytes' := Option.some.inj (hhead.symm.trans hhead')
    exact hother ((namesAlgorithm_iff hheader name).1 hname)

/-- A token that says of itself that it is not signed is not accepted. -/
theorem validate_genuine_on_interval_unsigned :
    let service : TokenService := ⟨.headerOnly, "secret", rfl⟩
    let headBytes := (Json.object [("alg", .text "none")]).bytes
    let head := Base64Url.encode headBytes
    let token := String.ofList (head ++ '.' :: ['e', '3', '0'] ++ '.' :: [])
    Base64Url.decode? head = some headBytes ∧ NamesAlgorithm "none" (readWhole? headBytes) ∧
      "none" ≠ algorithm ∧ service.validate 0 token = .error .invalidToken := by
  intro service headBytes head token
  have hhead : Base64Url.decode? head = some headBytes := Base64Url.decode?_encode _
  have hname : NamesAlgorithm "none" (readWhole? headBytes) := by
    rw [readWhole?_bytes]
    exact .member List.mem_cons_self .text
  have hother : "none" ≠ algorithm := by decide
  have hheader := (validate_genuine_on_interval service token).2.2.2
  exact ⟨hhead, hname, hother,
    hheader head ['e', '3', '0'] [] headBytes "none" String.toList_ofList hhead hname hother 0⟩

end TokenService

/-! ## Issued tokens -/

section Start

variable (user : Uuid) (m : Session.Moment)

lemma toInt_ofInt_of_second {n : Int} (hlo : Time.firstSecond ≤ n) (hhi : n ≤ Time.lastSecond) :
    (Int64.ofInt n).toInt = n := by
  unfold Time.firstSecond at hlo
  unfold Time.lastSecond at hhi
  exact Int64.toInt_ofInt_of_le (by omega) (by omega)

lemma Claims.start_issuedAt : (Claims.start user m).issuedAt.toInt = m.second :=
  toInt_ofInt_of_second m.instant.second_mem.1 m.instant.second_mem.2

lemma Claims.start_notBefore : (Claims.start user m).notBefore.toInt = m.second :=
  Claims.start_issuedAt user m

lemma Claims.start_expiresAt : (Claims.start user m).expiresAt.toInt = m.second + 43200 := by
  have hlo := m.instant.second_mem.1
  refine toInt_ofInt_of_second ?_ m.room
  rw [Session.Moment.second, Session.lifetime]
  omega

lemma Claims.start_user : (Claims.start user m).user = .ok user := by
  rw [Claims.user, Claims.start, Uuid.ofText?_text]

/-- An issued token is opened, unless it was issued before 1970. -/
lemma Token.open?_issue (secret : String) : open? secret (issue secret user m).toList =
    if 0 ≤ m.second then some ⟨Claims.start user m, false⟩ else none := by
  have hends : (0 ≤ m.second + 43200 ∧ 0 ≤ m.second) ↔ 0 ≤ m.second := by omega
  rw [issue, String.toList_ofList, open?_sign, Claims.start_expiresAt, Claims.start_notBefore,
    if_congr hends rfl rfl]

/-- When an issued token is accepted. -/
lemma Token.validate_issue (secret : String) (now : Int) :
    validate secret now (issue secret user m) =
      if m.second < 0 then .error .invalidToken
      else if m.second ≤ now ∧ now ≤ m.second + 43200 then .ok (Claims.start user m)
      else .error .expiredToken := by
  have hopen := open?_issue user m secret
  by_cases hsecond : m.second < 0
  · rw [if_neg (by omega)] at hopen
    rw [if_pos hsecond]
    exact validate_of_unopened hopen
  · rw [if_pos (by omega)] at hopen
    rw [if_neg hsecond, validate_of_open? hopen rfl, Claims.start_notBefore,
      Claims.start_expiresAt]

end Start

namespace TokenService

/-- What an issued token says, and when it is accepted again: from the second it was issued in to
the second twelve hours later, both included.  One issued before 1970 is never opened. -/
theorem validate_issued (service : TokenService) (user : Uuid) (m : Session.Moment) (now : Int) :
    let claims := Claims.start user m
    (claims.subject = user.text ∧ claims.issuedAt.toInt = m.second ∧
        claims.notBefore.toInt = m.second ∧ claims.expiresAt.toInt = m.second + 43200 ∧
        claims.user = .ok user) ∧
      service.validate now (service.issue user m) =
        if m.second < 0 then .error .invalidToken
        else if m.second ≤ now ∧ now ≤ m.second + 43200 then .ok claims
        else .error .expiredToken := by
  intro claims
  refine ⟨⟨rfl, Claims.start_issuedAt user m, Claims.start_notBefore user m,
    Claims.start_expiresAt user m, Claims.start_user user m⟩, ?_⟩
  exact Token.validate_issue user m service.secret now

end TokenService

end Gatehouse
