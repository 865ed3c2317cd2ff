import Trecs.Sip.Parameters
import Trecs.Trunk.Registration

/-!
# Digest Agreement

The trunk client against the registrar of this server: the challenge that
`BuildDigestChallenge` writes, the client's reading of it, the credentials that
the client writes, and their way through `VerifyDigestRequest`.

The client reads the challenge with `ParseDigest`, which wants a user name, a uri
and a response. A challenge has none of them, so it is rejected, and the client
never answers. A nonce with quotes in it could smuggle them in, but then it is
not the nonce that was read. Everything behind this step fits together: from a
challenge that was understood the client writes credentials that the registrar
accepts, as long as `%q` leaves the values as they are.

## Main definitions

* `Challenged`, `Accepted`: What the registrar makes of an Authorization header.
* `DigestAgrees`: The whole exchange.

## Theorems

* `parseDigest_challenge`, `nonce_ne_of_quote`: The client and the challenge.
* `accepted_of_read`: The credentials and the registrar.
* `registerOnce_of_challenged`: An attempt to register.
* `not_digestAgrees`: The exchange never succeeds.
-/

namespace Trecs

open List

namespace Trunks

open Proto Sip

/-- The algorithms a server can ask for. -/
def supported : List Bytes := [ascii "MD5", ascii "SHA-256", ascii "SHA-512-256"]

theorem solid_of_supported : ∀ a ∈ supported, Solid a := by decide +kernel

/-- The names of the parameters, and the values that are the same in every
    header. -/
def fixedWords : List Bytes :=
  [ascii "realm", ascii "nonce", ascii "algorithm", ascii "qop", ascii "stale", ascii "TRUE",
    ascii "username", ascii "uri", ascii "response", ascii "cnonce", ascii "nc",
    ascii "00000001", ascii "auth"]

theorem solid_of_fixed : ∀ w ∈ fixedWords, Solid w := by decide +kernel

/-! ### The challenge -/

/-- The parameters of a challenge. -/
def challengeParams (realm nonce algorithm : Bytes) (stale : Bool) : List Param :=
  [.quoted (ascii "realm") realm, .quoted (ascii "nonce") nonce,
    .plain (ascii "algorithm") algorithm, .quoted (ascii "qop") (ascii "auth")] ++
    if stale then [.plain (ascii "stale") (ascii "TRUE")] else []

theorem buildDigestChallenge_eq (realm nonce algorithm : Bytes) (stale : Bool) :
    buildDigestChallenge realm nonce algorithm stale =
      ascii "Digest " ++ paramsText (challengeParams realm nonce algorithm stale) := by
  have hrealm : ascii "Digest realm=\"" = ascii "Digest " ++ (ascii "realm" ++ [61, 34]) := by
    decide
  have hnonce : ascii "\", nonce=\"" = [34, 44, SP] ++ (ascii "nonce" ++ [61, 34]) := by decide
  have halg : ascii "\", algorithm=" = [34, 44, SP] ++ (ascii "algorithm" ++ [61]) := by decide
  have hqop : ascii ", qop=\"auth\"" =
      [44, SP] ++ (ascii "qop" ++ [61, 34]) ++ (ascii "auth" ++ [34]) := by decide
  have hstale : ascii ", stale=TRUE" = [44, SP] ++ (ascii "stale" ++ [61] ++ ascii "TRUE") := by
    decide
  rw [buildDigestChallenge, hrealm, hnonce, halg, hqop]
  cases stale with
  | false =>
    simp [challengeParams, paramsText, Param.text, Param.key, Param.valueText]
  | true =>
    simp [hstale, challengeParams, paramsText, Param.text, Param.key, Param.valueText]

theorem ok_challengeParams (realm nonce algorithm : Bytes) (stale : Bool) (hrealm : 34 ∉ realm)
    (hnonce : 34 ∉ nonce) (halg : algorithm ∈ supported) :
    ∀ p ∈ challengeParams realm nonce algorithm stale, p.Ok := by
  refine forall_mem_append.mpr ⟨?_, ?_⟩
  · simp only [forall_mem_cons]
    exact ⟨⟨solid_of_fixed _ (by decide), hrealm⟩, ⟨solid_of_fixed _ (by decide), hnonce⟩,
      ⟨solid_of_fixed _ (by decide), solid_of_supported _ halg⟩,
      ⟨solid_of_fixed _ (by decide), by decide⟩, fun _ h => by cases h⟩
  · cases stale with
    | false => exact fun _ h => by cases h
    | true =>
      exact forall_mem_singleton.mpr
        ⟨solid_of_fixed _ (by decide), solid_of_fixed _ (by decide)⟩

/-- What follows the nonce in a challenge, behind the quote that ends it. -/
def challengeTail (algorithm : Bytes) (stale : Bool) : Bytes :=
  ascii ", algorithm=" ++ algorithm ++ ascii ", qop=\"auth\"" ++
    if stale then ascii ", stale=TRUE" else []

/-- No value behind the nonce has a quote in it. -/
theorem value_of_challengeTail : ∀ algorithm ∈ supported, ∀ stale,
    ∀ rest ∈ (challengeTail algorithm stale).tails, 61 :: rest <:+ challengeTail algorithm stale →
      (digestValue (trimSpace rest)).all (fun p => 34 ∉ p.1) = true := by
  decide +kernel

theorem noTrailing_challengeTail (s algorithm : Bytes) (stale : Bool) :
    NoTrailing (s ++ challengeTail algorithm stale) := by
  cases stale with
  | false =>
    have hback := noTrailing_concat 34
      (s ++ (ascii ", algorithm=" ++ algorithm ++ ascii ", qop=\"auth")) (by decide)
    rw [challengeTail, show ascii ", qop=\"auth\"" = ascii ", qop=\"auth" ++ [34] by decide]
    simpa only [Bool.false_eq_true, if_false, append_nil, append_assoc] using hback
  | true =>
    have hback := noTrailing_concat 69
      (s ++ (ascii ", algorithm=" ++ algorithm ++ ascii ", qop=\"auth\"" ++ ascii ", stale=TRU"))
      (by decide)
    rw [challengeTail, show ascii ", stale=TRUE" = ascii ", stale=TRU" ++ [69] by decide]
    simpa only [if_true, append_assoc] using hback

/-- Behind a quote in the nonce, a value with a quote in it is shorter than the
    nonce: it is not quoted, so it ends at the first comma behind the nonce. -/
theorem value_behind_quote (b algorithm : Bytes) (stale : Bool) (halg : algorithm ∈ supported)
    (raw key rest value next : Bytes) (hraw : raw <:+ b ++ 34 :: challengeTail algorithm stale)
    (hcut : cut 61 (trimSpace raw) = some (key, rest))
    (hval : digestValue (trimSpace rest) = some (value, next)) :
    (34 ∉ value ∨ value.length ≤ b.length) ∧
      next <:+ b ++ 34 :: challengeTail algorithm stale := by
  have hend : NoTrailing (b ++ 34 :: challengeTail algorithm stale) := by
    have hback := noTrailing_challengeTail (b ++ [34]) algorithm stale
    rwa [append_assoc] at hback
  have hsplit := ((cut_eq_some_iff 61 _ key rest).mp hcut).1
  have heq : 61 :: rest <:+ b ++ 34 :: challengeTail algorithm stale :=
    (show 61 :: rest <:+ trimSpace raw from ⟨key, hsplit.symm⟩).trans
      ((trimSpace_suffix raw (hend.of_suffix hraw)).trans hraw)
  have hrest := (suffix_cons 61 rest).trans heq
  have hin := trimSpace_suffix rest (hend.of_suffix hrest)
  rcases digestValue_inv _ _ _ hval with ⟨hnext, hvalue⟩
  refine ⟨?_, hnext.trans (hin.trans hrest)⟩
  rcases hvalue with hplain | ⟨w, hw, hcomma, hfront⟩
  · exact .inl hplain
  rcases suffix_or_suffix_of_suffix heq (suffix_append b _) with hbehind | hbefore
  · -- The equals sign stands behind the nonce.
    rcases suffix_cons_iff.mp hbehind with hc | hbehind
    · exact absurd (cons.inj hc).1 (by decide)
    · have hall := value_of_challengeTail algorithm halg stale rest
        ((mem_tails _ _).mpr ((suffix_cons 61 rest).trans hbehind)) hbehind
      rw [hval] at hall
      exact .inl (of_decide_eq_true hall)
  · -- It stands in the nonce, and the value ends at the comma at the latest.
    rcases suffix_cons_iff.mp hbefore with hc | ⟨x, hx⟩
    · exact absurd (cons.inj hc).1 (by decide)
    · right
      rcases trimRunes_stop spaceRunes 34 (by decide) rest.length x (challengeTail algorithm stale)
        with ⟨x', hx'⟩
      have htrim : trimSpace rest = x' ++ 34 :: challengeTail algorithm stale := by
        rw [trimSpace_eq_trimRight, trimRight_of_noTrailing]
        · rw [← hx', hx]
        · exact (hend.of_suffix hrest).of_suffix (trimRunes_suffix _ _ _)
      have hshort : w <+: x' ++ [34] := by
        rw [htrim] at hfront
        refine prefix_of_prefix_append 44 w (x' ++ [34]) (challengeTail algorithm stale).tail
          hcomma ?_
        rw [append_assoc]
        exact hfront
      have hlenw := hshort.length_le
      have hlenv := (trimSpace_isInfix w).length_le
      have hlenx := hin.length_le
      have hlenb := heq.length_le
      rw [htrim, ← hx] at hlenx
      rw [← hx] at hlenb
      simp only [length_append, length_cons, length_nil] at hlenw hlenx hlenb
      rw [hw]
      omega

section Agreement

variable [UnicodeLower] [UnicodeUpper]

/-- A challenge has no user name, so `ParseDigest` rejects it. -/
theorem parseDigest_challenge (realm nonce algorithm : Bytes) (stale : Bool) (hrealm : 34 ∉ realm)
    (hnonce : 34 ∉ nonce) (halg : algorithm ∈ supported) :
    parseDigest (buildDigestChallenge realm nonce algorithm stale) =
      .error (ascii "sip auth: missing required field") := by
  have hne : challengeParams realm nonce algorithm stale ≠ [] := cons_ne_nil _ _
  rw [buildDigestChallenge_eq, parseDigest_put _ hne
    (ok_challengeParams realm nonce algorithm stale hrealm hnonce halg)]
  cases stale with
  | false => rfl
  | true => rfl

/-- The first two parameters of a challenge with a quote in its nonce. The value
    ends at the quote, and what follows is dropped up to a comma. -/
theorem parseParams_of_quote (realm a b algorithm : Bytes) (stale : Bool) (hrealm : 34 ∉ realm)
    (ha : 34 ∉ a) (c : DigestCredentials)
    (h : parseDigest (buildDigestChallenge realm (a ++ 34 :: b) algorithm stale) = .ok c) :
    ∃ n next, next <:+ b ++ 34 :: challengeTail algorithm stale ∧
      parseParams n next { DigestCredentials.initial with realm := realm, nonce := a } =
        .ok c := by
  have hp : (Param.quoted (ascii "realm") realm).Ok :=
    ⟨solid_of_fixed _ (by decide), hrealm⟩
  generalize hrest : 34 :: (a ++ 34 :: (b ++ 34 :: challengeTail algorithm stale)) = rest
  generalize htext : ascii "realm" ++ 61 :: ((Param.quoted (ascii "realm") realm).valueText ++
    44 :: SP :: (ascii "nonce" ++ 61 :: rest)) = text
  have hback : ∀ s, NoTrailing (s ++ rest) := by
    intro s
    have hend := noTrailing_challengeTail (s ++ 34 :: (a ++ 34 :: (b ++ [34]))) algorithm stale
    rw [← hrest]
    simpa only [append_assoc, cons_append, nil_append] using hend
  have hshape : buildDigestChallenge realm (a ++ 34 :: b) algorithm stale =
      ascii "Digest " ++ text := by
    rw [buildDigestChallenge, ← htext, ← hrest, challengeTail,
      show ascii "Digest realm=\"" = ascii "Digest " ++ (ascii "realm" ++ [61, 34]) by decide,
      show ascii "\", nonce=\"" = [34, 44, SP] ++ (ascii "nonce" ++ [61, 34]) by decide,
      show ascii "\", algorithm=" = 34 :: ascii ", algorithm=" by decide]
    simp [Param.valueText]
  have hl : NoLeading text := htext ▸ hp.key.noLeading _
  have ht : ∀ s, NoTrailing (s ++ (ascii "nonce" ++ 61 :: rest)) := by
    intro s
    have hend := hback (s ++ (ascii "nonce" ++ [61]))
    simpa only [append_assoc, cons_append, nil_append] using hend
  have htrail : NoTrailing text := by
    have hend := ht (ascii "realm" ++ 61 :: ((Param.quoted (ascii "realm") realm).valueText ++
      [44, SP]))
    rw [← htext]
    simpa only [append_assoc, cons_append, nil_append] using hend
  have hne : text ≠ [] := htext ▸ append_ne_nil_of_right_ne_nil _ (cons_ne_nil _ _)
  have hparse := parseParams_of_parseDigest text hl htrail hne c (hshape ▸ h)
  -- The realm.
  have hvalue : trimSpace ((Param.quoted (ascii "realm") realm).valueText ++
      44 :: SP :: (ascii "nonce" ++ 61 :: rest)) =
      (Param.quoted (ascii "realm") realm).valueText ++
        44 :: SP :: (ascii "nonce" ++ 61 :: rest) := by
    refine trimSpace_eq_self _ (hp.noLeading_valueText _) ?_
    have hend := ht ((Param.quoted (ascii "realm") realm).valueText ++ [44, SP])
    simpa only [append_assoc, cons_append, nil_append] using hend
  have hlen : text.length = text.length - 2 + 1 + 1 := by
    rw [← htext]
    simp only [length_append, length_cons]
    omega
  rw [hlen, parseParams_step _ text _ _ _ _ _ ((trimSpace_eq_self _ hl htrail).trans htext.symm)
    hp.key hvalue (hp.digestValue_comma _)] at hparse
  -- The nonce, up to its first quote.
  rcases hcomma : cut 44 (b ++ 34 :: challengeTail algorithm stale) with _ | ⟨x, next⟩
  · have hmem : 44 ∈ challengeTail algorithm stale := mem_cons_self
    exact absurd (mem_append_right b (mem_cons_of_mem 34 hmem))
      ((cut_eq_none_iff 44 _).mp hcomma)
  have hnonce : trimSpace (SP :: (ascii "nonce" ++ 61 :: rest)) = ascii "nonce" ++ 61 :: rest :=
    trimSpace_cons_space _ (noLeading_cons 110 _ (by decide)) (ht [SP])
  have hquoted : trimSpace rest = rest :=
    trimSpace_eq_self rest (hrest ▸ noLeading_cons 34 _ (by decide)) (hback [])
  have hstep := parseParams_step (text.length - 2) _ (ascii "nonce") rest a next
    { DigestCredentials.initial with realm := realm } hnonce
    (solid_of_fixed _ (by decide)) hquoted
    (hrest ▸ digestValue_quoted a _ x next ha hcomma)
  refine ⟨text.length - 2, next, ?_, hstep.symm.trans hparse⟩
  rw [((cut_eq_some_iff 44 _ x next).mp hcomma).1]
  exact (suffix_cons 44 next).trans (suffix_append x _)

/-- A quote in the nonce ends it early, and nothing behind it makes up for it. -/
theorem nonce_ne_of_quote (realm nonce algorithm : Bytes) (stale : Bool) (hrealm : 34 ∉ realm)
    (hnonce : 34 ∈ nonce) (halg : algorithm ∈ supported) (c : DigestCredentials)
    (h : parseDigest (buildDigestChallenge realm nonce algorithm stale) = .ok c) :
    c.nonce ≠ nonce := by
  rcases hcut : cut 34 nonce with _ | ⟨a, b⟩
  · exact absurd hnonce ((cut_eq_none_iff 34 nonce).mp hcut)
  rcases (cut_eq_some_iff 34 nonce a b).mp hcut with ⟨hsplit, ha⟩
  rw [hsplit] at h
  rcases parseParams_of_quote realm a b algorithm stale hrealm ha c h with ⟨n, next, hnext, hrun⟩
  have hlast := parseParams_nonce (fun v => 34 ∉ v ∨ v.length ≤ b.length)
    (fun raw => raw <:+ b ++ 34 :: challengeTail algorithm stale)
    (value_behind_quote b algorithm stale halg) n next _ c hnext (Or.inl ha) hrun
  intro heq
  rw [heq] at hlast
  rcases hlast with hplain | hshort
  · exact hplain hnonce
  · rw [hsplit, length_append, length_cons] at hshort
    omega

/-! ### The credentials -/

variable [UnicodePrint] [HashFunctions] [Connections]

/-- A request that carries the value `value` in its Authorization header, at a
    registrar that has issued the nonce and knows the user. -/
structure Challenged (username password realm uri nonce algorithm value : Bytes) (now : Int)
    (passwd : PasswordStore) (st : AuthState) (req : SIPMessage) : Prop where
  realm_eq : passwd.realm = realm
  algorithm_eq : passwd.algorithm = algorithm
  key : passwd.ha1 username = some (computeHA1 username realm password algorithm)
  issued : ∃ expires, st.nonces.entries.lookup nonce = some ⟨expires, 0⟩ ∧ now ≤ expires
  header : SIPHeaders.getFirst req.headers (ascii "Authorization") = value
  uri_eq : req.requestURI = uri

/-- The Authorization header for what was read of a challenge is parsed, and
    every registrar that has issued the challenge accepts the credentials. -/
def Accepted (username password realm uri nonce algorithm : Bytes) (asked : DigestCredentials) :
    Prop :=
  ∃ creds, parseDigest (authorizationValue username password uri asked) = .ok creds ∧
    ∀ now rnd passwd maxAttempts req tx st,
      Challenged username password realm uri nonce algorithm
        (authorizationValue username password uri asked) now passwd st req →
      (verifyDigestRequest now rnd registerScheme passwd maxAttempts req tx st).creds = some creds

/-- A value that `%q` writes as it is. -/
structure Quotable (s : Bytes) : Prop where
  ne_nil : s ≠ []
  quote : 34 ∉ s
  verbatim : Verbatim s

/-- The parameters of the credentials. -/
def credentialParams (username realm nonce uri response algorithm : Bytes) : List Param :=
  [.quoted (ascii "username") username, .quoted (ascii "realm") realm,
    .quoted (ascii "nonce") nonce, .quoted (ascii "uri") uri,
    .quoted (ascii "response") response, .plain (ascii "algorithm") algorithm,
    .quoted (ascii "cnonce") (ascii "deadbeef"), .plain (ascii "nc") (ascii "00000001"),
    .plain (ascii "qop") (ascii "auth")]

/-- The credentials as they are read. -/
def credentials (username realm nonce uri response algorithm : Bytes) : DigestCredentials :=
  ⟨username, realm, nonce, uri, response, algorithm, ascii "deadbeef", ascii "auth", 1, []⟩

omit [UnicodeLower] [UnicodeUpper] [HashFunctions] [Connections] in
theorem quotable_of_plain {s : Bytes} (hne : s ≠ []) (hs : ∀ b ∈ s, IsPlain b) : Quotable s :=
  ⟨hne, fun hm => (hs 34 hm).2.2.1 rfl, verbatim_of_plain s hs⟩

omit [HashFunctions] [Connections] in
/-- The credentials are read as they were written. -/
theorem parseDigest_credentials (username realm nonce uri response algorithm : Bytes)
    (husername : Quotable username) (hrealm : Quotable realm) (hnonce : Quotable nonce)
    (huri : Quotable uri) (hresponse : Quotable response) (halg : algorithm ∈ supported) :
    parseDigest (ascii "Digest " ++
      paramsText (credentialParams username realm nonce uri response algorithm)) =
        .ok (credentials username realm nonce uri response algorithm) := by
  have hok : ∀ p ∈ credentialParams username realm nonce uri response algorithm, p.Ok := by
    simp only [credentialParams, forall_mem_cons]
    refine ⟨⟨?_, husername.quote⟩, ⟨?_, hrealm.quote⟩, ⟨?_, hnonce.quote⟩, ⟨?_, huri.quote⟩,
      ⟨?_, hresponse.quote⟩, ⟨?_, solid_of_supported _ halg⟩, ⟨?_, by decide⟩, ⟨?_, ?_⟩, ⟨?_, ?_⟩,
      fun _ h => by cases h⟩
    all_goals exact solid_of_fixed _ (by decide)
  have hupper : toUpper algorithm = algorithm := by
    simp only [supported, mem_cons, not_mem_nil, or_false] at halg
    rcases halg with h | h | h <;> rw [h] <;> rfl
  have hassign : DigestCredentials.initial.assignAll
      (credentialParams username realm nonce uri response algorithm) =
        .ok (credentials username realm nonce uri response (toUpper algorithm)) := rfl
  have hne : credentialParams username realm nonce uri response algorithm ≠ [] :=
    cons_ne_nil _ _
  have hfields : ¬ (username = [] ∨ realm = [] ∨ nonce = [] ∨ uri = [] ∨ response = []) := by
    simp only [husername.ne_nil, hrealm.ne_nil, hnonce.ne_nil, huri.ne_nil, hresponse.ne_nil,
      or_self, not_false_eq_true]
  rw [parseDigest_put _ hne hok, hassign, hupper]
  exact if_neg hfields

/-- The response the client computes. -/
def clientResponse (username password realm uri nonce algorithm : Bytes) : Bytes :=
  computeDigestResponse (computeHA1 username realm password algorithm) nonce (ascii "00000001")
    (ascii "deadbeef") (ascii "auth") (ascii "REGISTER") uri algorithm

omit [UnicodeLower] [UnicodeUpper] [Connections] in
theorem authorizationValue_eq (username password uri : Bytes) (asked : DigestCredentials)
    (husername : Verbatim username) (hrealm : Verbatim asked.realm) (hnonce : Verbatim asked.nonce)
    (huri : Verbatim uri) (hresponse : Verbatim
      (clientResponse username password asked.realm uri asked.nonce asked.algorithm)) :
    authorizationValue username password uri asked = ascii "Digest " ++
      paramsText (credentialParams username asked.realm asked.nonce uri
        (clientResponse username password asked.realm uri asked.nonce asked.algorithm)
        asked.algorithm) := by
  unfold authorizationValue
  simp only
  rw [← clientResponse, husername, hrealm, hnonce, huri, hresponse]
  simp only [credentialParams, paramsText, Param.text, Param.key, Param.valueText, append_assoc]
  rfl

omit [UnicodeLower] [UnicodeUpper] [UnicodePrint] [Connections] in
/-- The server computes the same response. -/
theorem verifyDigest_credentials (username password realm uri nonce algorithm : Bytes) :
    verifyDigest (credentials username realm nonce uri
        (clientResponse username password realm uri nonce algorithm) algorithm)
      (computeHA1 username realm password algorithm) (ascii "REGISTER") = true := by
  have hnc : formatHex (1 : UInt64).toNat = ascii "00000001" := by
    have hdigits : Nat.digits 16 1 = [1] := Nat.digits_of_lt 16 1 one_ne_zero (by decide)
    rw [formatHex, hexDigits, show (1 : UInt64).toNat = 1 from rfl, hdigits]
    decide
  refine decide_eq_true ?_
  show computeDigestResponse _ nonce (formatHex (1 : UInt64).toNat) (ascii "deadbeef")
    (ascii "auth") (ascii "REGISTER") uri algorithm = _
  rw [hnc]
  rfl

/-- Had the client read the challenge, its answer would be accepted, as long as
    `%q` changes none of the values. -/
theorem accepted_of_read (hsum : ∀ a data, HashFunctions.sum a data ≠ [])
    (username password uri : Bytes) (asked : DigestCredentials) (husername : Quotable username)
    (hrealm : Quotable asked.realm) (hnonce : Quotable asked.nonce) (huri : Quotable uri)
    (halg : asked.algorithm ∈ supported) :
    Accepted username password asked.realm uri asked.nonce asked.algorithm asked := by
  have hresponse : Quotable
      (clientResponse username password asked.realm uri asked.nonce asked.algorithm) :=
    quotable_of_plain (fun hnil => hsum _ _ (hexEncode_injective _ [] hnil))
      (fun b hb => (isHex_hexEncode _ b hb).plain)
  have hvalue := authorizationValue_eq username password uri asked husername.verbatim
    hrealm.verbatim hnonce.verbatim huri.verbatim hresponse.verbatim
  have hparse := parseDigest_credentials username asked.realm asked.nonce uri _ asked.algorithm
    husername hrealm hnonce huri hresponse halg
  rw [← hvalue] at hparse
  refine ⟨_, hparse, ?_⟩
  intro now rnd passwd maxAttempts req tx st h
  refine creds_of_presented now rnd registerScheme passwd maxAttempts req tx st _ _ ?_ ?_ h.key
    (verifyDigest_credentials username password asked.realm uri asked.nonce asked.algorithm)
  · have hheader : SIPHeaders.getFirst req.headers registerScheme.authHeaderKey = _ := h.header
    unfold presented
    rw [hheader, hparse]
    exact if_pos ⟨h.uri_eq.symm, h.realm_eq.symm⟩
  · rcases h.issued with ⟨expires, hlook, hle⟩
    exact (NonceManager.accepts_iff now _ _).mpr
      ⟨_, hlook, hle, show (0 : UInt64) < 1 by decide⟩

/-! ### An attempt -/

omit [UnicodePrint] in
/-- A request without credentials is challenged. -/
theorem response_of_no_credentials (now : Int) (rnd : Bytes) (passwd : PasswordStore)
    (maxAttempts : Int) (req : SIPMessage) (tx : Source) (st : AuthState) (resp : SIPMessage)
    (hnone : SIPHeaders.getFirst req.headers (ascii "Authorization") = [])
    (h : (verifyDigestRequest now rnd registerScheme passwd maxAttempts req tx st).response =
      some resp) :
    resp.statusCode = 401 ∧ SIPHeaders.getFirst resp.headers (ascii "WWW-Authenticate") =
      buildDigestChallenge passwd.realm (hexEncode rnd) passwd.algorithm false := by
  have hheader : SIPHeaders.getFirst req.headers registerScheme.authHeaderKey = [] := hnone
  unfold verifyDigestRequest at h
  simp only at h
  rw [if_pos hheader] at h
  rw [← Option.some.inj h]
  refine ⟨newResponse_statusCode req 401 (ascii "Unauthorized"), ?_⟩
  exact SIPHeaders.getFirst_add_of_none _ _ _
    (lookup_newResponse_of_not_mem req _ _ _ (by decide +kernel))

/-- An attempt to register at a registrar that challenges the first request ends
    with an error. No credentials are sent. -/
theorem registerOnce_of_challenged (env : AttemptEnv) (t : RegistrationTrunk)
    (passwd : PasswordStore) (hrealm : 34 ∉ passwd.realm) (halg : passwd.algorithm ∈ supported)
    (hpeer : ∀ req, ∃ resp now rnd maxAttempts msg tx st,
      SIPHeaders.getFirst msg.headers (ascii "Authorization") = [] ∧
      (verifyDigestRequest now rnd registerScheme passwd maxAttempts msg tx st).response =
        some resp ∧ sendSIP env t [req] = .ok resp) :
    ∃ req, registerOnce env t =
      ⟨[req], .error (ascii "parse www-auth: sip auth: missing required field")⟩ := by
  generalize hreq : registerBody t (t.localIPWithDefault env.serverIP) (generateBranch env.rnd)
    (ascii "trunk-reg-" ++ t.name ++ [45] ++ formatInt env.unixNano.toInt) (ascii "1") [] = req
  refine ⟨req, ?_⟩
  rcases hpeer req with ⟨resp, now, rnd, maxAttempts, msg, tx, st, hnone, hresp, hsend⟩
  rcases response_of_no_credentials now rnd passwd maxAttempts msg tx st resp hnone hresp with
    ⟨hstatus, hheader⟩
  have hhex : 34 ∉ hexEncode rnd := fun hm => (isHex_hexEncode rnd 34 hm).plain.2.2.1 rfl
  have hparse := parseDigest_challenge passwd.realm (hexEncode rnd) passwd.algorithm false hrealm
    hhex halg
  have hne : buildDigestChallenge passwd.realm (hexEncode rnd) passwd.algorithm false ≠ [] :=
    cons_ne_nil _ _
  unfold registerOnce
  simp only [hreq, hsend, hstatus, hheader, authenticatedRegister, hparse]
  rw [if_neg (by decide), if_pos trivial, if_neg hne]
  rfl

/-! ### Agreement -/

/-- The client reads a challenge as it was written, and what it answers is
    accepted. -/
def DigestAgrees (username password realm uri nonce algorithm : Bytes) (stale : Bool) : Prop :=
  ∃ asked, parseDigest (buildDigestChallenge realm nonce algorithm stale) = .ok asked ∧
    asked.realm = realm ∧ asked.nonce = nonce ∧ asked.algorithm = algorithm ∧
    Accepted username password realm uri nonce algorithm asked

/-- The client and the registrar agree on no challenge at all. -/
theorem not_digestAgrees (username password realm uri nonce algorithm : Bytes) (stale : Bool)
    (hrealm : 34 ∉ realm) (halg : algorithm ∈ supported) :
    ¬ DigestAgrees username password realm uri nonce algorithm stale := by
  rintro ⟨asked, hparse, _, hnonce, _⟩
  by_cases hquote : 34 ∈ nonce
  · exact nonce_ne_of_quote realm nonce algorithm stale hrealm hquote halg asked hparse hnonce
  · rw [parseDigest_challenge realm nonce algorithm stale hrealm hquote halg] at hparse
    cases hparse

end Agreement

open Samples

theorem accepted_of_read_md5 :
    Accepted (ascii "trec") (ascii "secret") (ascii "example.org") (ascii "sip:trec@example.org")
      (hexEncode [1, 2]) (ascii "MD5")
      ⟨[], ascii "example.org", hexEncode [1, 2], [], [], ascii "MD5", [], [], 0, []⟩ :=
  have hplain : ∀ s ∈ [ascii "trec", ascii "example.org", hexEncode [1, 2],
      ascii "sip:trec@example.org"], Quotable s := fun s hs =>
    quotable_of_plain (by revert s; decide +kernel) (by revert s; decide +kernel)
  accepted_of_read (fun a _ => by cases a <;> exact cons_ne_nil _ _) _ _ _ _ (hplain _ (by decide))
    (hplain _ (by decide)) (hplain _ (by decide)) (hplain _ (by decide)) (by decide)

theorem not_digestAgrees_md5 :
    ¬ DigestAgrees (ascii "trec") (ascii "secret") (ascii "example.org")
      (ascii "sip:trec@example.org") (hexEncode [1, 2]) (ascii "MD5") false :=
  not_digestAgrees _ _ _ _ _ _ _ (by decide) (by decide)

/-- `ParseDigest` finds no user name in a challenge, and `authenticatedRegister`
    returns its error. -/
theorem digestAgrees_fails :
    parseDigest (buildDigestChallenge (ascii "example.org") (hexEncode [171]) (ascii "SHA-256")
        false) = .error (ascii "sip auth: missing required field") ∧
      ¬ DigestAgrees (ascii "trec") (ascii "secret") (ascii "example.org")
        (ascii "sip:trec@example.org") (hexEncode [171]) (ascii "SHA-256") false := by
  have hparse : parseDigest (buildDigestChallenge (ascii "example.org") (hexEncode [171])
      (ascii "SHA-256") false) = .error (ascii "sip auth: missing required field") := by
    decide +kernel
  refine ⟨hparse, ?_⟩
  rintro ⟨asked, hasked, _⟩
  rw [hparse] at hasked
  cases hasked

end Trunks

end Trecs
