import Trecs.B2bua.Invite
import Trecs.Sip.Target
import Trecs.Trunk.Route

/-!
# Where a Trunk Call Goes

`handleTrunkInvite` writes the dialled number into a URI in front of the host and
port of the trunk, and `TargetFromContact` takes the URI apart again. The number
comes from the caller, and nothing checks it.

A semicolon in the number makes the rest of the URI parameters, with the host of
the trunk in them. What is in front of the semicolon is then taken for the host,
and a transport may be named behind it. An at sign in the number makes what is
behind it part of the host. And since the URI does not name the transport of the
trunk, a call to a trunk with TCP goes out over UDP.

So a call goes where the trunk is if the number has neither character and the
trunk is not one with TCP. Otherwise it goes there only if the number itself
spells out the host, the port and the transport of the trunk.

## Main definitions

* `trunkURI`, `trunkDestination`: Where the INVITE is sent.
* `ownDestination`: Where the trunk is.
* `Unsteered`: The number does not lead elsewhere.

## Theorems

* `target_of_trunkInvite`: `handleTrunkInvite` turns to `trunkDestination`.
* `trunkDestination_iff`: Whether a call goes where the trunk is.
-/

namespace Trecs

open List Option

namespace B2bua

open Proto Sip Media Trunks

/-- The Request-URI of the INVITE to a trunk. -/
def trunkURI (host : Bytes) (port : Int64) (dest : Bytes) : Bytes :=
  ascii "sip:" ++ dest ++ ascii "@" ++ joinHostPort host (formatInt port.toInt)

section Destination

variable [UnicodeLower] [UnicodeUpper]

/-- Where the INVITE is sent: what `TargetFromContact` makes of the URI, and the
    transport that is chosen for it. A connection is no use to the UDP transport,
    which then sends nothing. -/
def trunkDestination (host : Bytes) (port : Int64) (transport dest : Bytes) :
    Option Destination :=
  let d := contactDestination (trunkURI host port dest)
  if d.network = .tcp ∧ transport ≠ ascii "tcp" then none else some d

/-- Where the trunk is. -/
def ownDestination (host : Bytes) (port : Int64) (transport : Bytes) : Destination :=
  ⟨if toLower transport = ascii "tcp" then .tcp else .udp, host, port⟩

/-- The target and the transport of the INVITE are those of the destination. -/
theorem target_of_trunkInvite [SdpCodec] (h : Handler) (env : InviteEnv) (net : Dialer)
    (henv : env.targetFromContact = targetFromContact net) (req : SIPMessage) (trk : Trunk)
    (dest : Bytes) (toAddr : SIPAddress) (st : Started)
    (hst : trunkInvite h env req trk dest toAddr = .ok st) :
    match trunkDestination trk.host trk.port trk.transport dest with
    | some d => d.reach net = some st.cc.target ∧ st.cc.transportImpl = d.network
    | none => st.cc.target.addr = none ∧ st.cc.transportImpl = .udp := by
  unfold trunkInvite at hst
  rcases bind_eq_ok hst with ⟨ports, _, hst⟩
  rcases bind_eq_ok hst with ⟨offer, _, hst⟩
  rcases bind_eq_ok hst with ⟨pt, _, hst⟩
  rcases bind_eq_ok hst with ⟨fromAddr, _, hst⟩
  rcases bind_eq_ok hst with ⟨⟨target, tr⟩, htarget, hst⟩
  have hreach := orRefuse_eq_ok htarget
  rw [henv, targetFromContact, map_eq_some_iff] at hreach
  rcases hreach with ⟨target', hreach, hpair⟩
  rw [← trunkURI, Prod.mk.injEq] at hpair
  rw [← trunkURI] at hreach
  rcases guard_eq_ok hst with ⟨_, hst⟩
  rw [← Except.ok.inj hst]
  simp only [callCtx, trunkDestination, hpair.2]
  cases htr : tr with
  | udp => simp only [reduceCtorEq, false_and, if_false, hreach, hpair.1, and_self, hpair.2, htr]
  | tcp =>
    by_cases htcp : trk.transport = ascii "tcp"
    · simp only [htcp, ne_eq, not_true_eq_false, and_false, if_false, and_self,
        if_true, hreach, hpair.1, hpair.2, htr]
    · simp only [htcp, ne_eq, not_false_eq_true, and_self, if_true, and_false, if_false,
        and_true]
      -- The target is the connection that was dialled.
      rw [Destination.reach, hpair.2, htr] at hreach
      simp only [map_eq_some_iff] at hreach
      rcases hreach with ⟨conn, _, hconn⟩
      rw [← hpair.1, ← hconn]

/-- A host that can stand in a URI: without brackets of its own, and without the
    characters that end it. -/
def PlainHost (host : Bytes) : Prop := 59 ∉ host ∧ 64 ∉ host ∧ 91 ∉ host ∧ 93 ∉ host

instance (host : Bytes) : Decidable (PlainHost host) :=
  inferInstanceAs (Decidable (_ ∧ _ ∧ _ ∧ _))

/-- The number and the trunk between them lead to the trunk. -/
def Unsteered (host : Bytes) (port : Int64) (transport dest : Bytes) : Prop :=
  match cut 59 dest with
  | none => 64 ∉ dest ∧ toLower transport ≠ ascii "tcp"
  | some (front, rest) =>
    hostPortOf front = (host, port) ∧
      (transportOf (rest ++ ascii "@" ++ joinHostPort host (formatInt port.toInt)) = ascii "TCP" ↔
        toLower transport = ascii "tcp") ∧
      (toLower transport = ascii "tcp" → transport = ascii "tcp")

end Destination

/-! ### Host and port -/

/-- The two forms of a host in front of a port. -/
theorem joinHostPort_cases (host port : Bytes) :
    ∃ front, joinHostPort host port = front ++ 58 :: port ∧
      (58 ∉ host ∧ front = host ∨ front = 91 :: (host ++ [93])) := by
  unfold joinHostPort
  by_cases hcolon : 58 ∈ host
  · rw [if_pos hcolon]
    refine ⟨91 :: (host ++ [93]), ?_, Or.inr rfl⟩
    simp only [append_assoc, cons_append, nil_append]
    rfl
  · rw [if_neg hcolon]
    exact ⟨host, by rw [append_assoc]; rfl, Or.inl ⟨hcolon, rfl⟩⟩

variable (host : Bytes) (port : Int64) (dest : Bytes)

/-- The number that `formatInt` writes has none of the characters around it. -/
theorem not_mem_port :
    58 ∉ formatInt port.toInt ∧ 59 ∉ formatInt port.toInt ∧ 91 ∉ formatInt port.toInt ∧
      93 ∉ formatInt port.toInt :=
  ⟨not_mem_formatInt_of_gt _ _ (by decide), not_mem_formatInt_of_gt _ _ (by decide),
    not_mem_formatInt_of_gt _ _ (by decide), not_mem_formatInt_of_gt _ _ (by decide)⟩

theorem splitHostPort_joinHostPort (hhost : PlainHost host) :
    splitHostPort (joinHostPort host (formatInt port.toInt)) =
      some (host, formatInt port.toInt) := by
  rcases hhost with ⟨_, _, hopen, hclose⟩
  rcases not_mem_port port with ⟨h58, _, h91, h93⟩
  rcases joinHostPort_cases host (formatInt port.toInt) with ⟨front, hjoin, ⟨hcolon, rfl⟩ | rfl⟩
  · rw [hjoin, splitHostPort_plain _ _ hcolon hopen hclose h58 h91 h93]
  · rw [hjoin, cons_append, append_assoc, singleton_append,
      splitHostPort_bracketed _ _ hopen hclose h58 h91 h93]

theorem semicolon_not_mem_joinHostPort (hhost : PlainHost host) :
    59 ∉ joinHostPort host (formatInt port.toInt) := by
  rcases joinHostPort_cases host (formatInt port.toInt) with ⟨front, hjoin, ⟨_, rfl⟩ | rfl⟩
  · rw [hjoin, mem_append, mem_cons, not_or, not_or]
    exact ⟨hhost.1, by decide, (not_mem_port port).2.1⟩
  · rw [hjoin]
    simp only [mem_append, mem_cons, not_mem_nil, or_false, not_or]
    exact ⟨⟨by decide, hhost.1, by decide⟩, by decide, (not_mem_port port).2.1⟩

/-- Without an at sign in the number the host and port are those of the trunk. -/
theorem hostPortOf_plain (hhost : PlainHost host) (hat : 64 ∉ dest) :
    hostPortOf (dest ++ ascii "@" ++ joinHostPort host (formatInt port.toInt)) =
      (host, port) := by
  have hcut : cut 64 (dest ++ ascii "@" ++ joinHostPort host (formatInt port.toInt)) =
      some (dest, joinHostPort host (formatInt port.toInt)) := by
    rw [append_assoc]
    exact cut_append 64 dest _ hat
  unfold hostPortOf
  simp only [hcut, splitHostPort_joinHostPort host port hhost, atoi_formatInt]

/-- With an at sign in the number there is one in the host. -/
theorem hostPortOf_at (hat : 64 ∈ dest) :
    64 ∈ (hostPortOf (dest ++ ascii "@" ++ joinHostPort host (formatInt port.toInt))).1 := by
  rcases hcut : cut 64 dest with _ | ⟨u, v⟩
  · exact absurd hat ((cut_eq_none_iff 64 dest).mp hcut)
  rcases (cut_eq_some_iff 64 dest u v).mp hcut with ⟨hdest, hu⟩
  rcases joinHostPort_cases host (formatInt port.toInt) with ⟨front, hjoin, _⟩
  -- Behind the first at sign, the last colon is still the one in front of the port.
  let host' := v ++ 64 :: front
  have hrest : dest ++ ascii "@" ++ joinHostPort host (formatInt port.toInt) =
      u ++ 64 :: (host' ++ 58 :: formatInt port.toInt) := by
    rw [hdest, hjoin]
    simp only [host', append_assoc, cons_append]
    rfl
  have hmem : 64 ∈ host' := mem_append_right v mem_cons_self
  unfold hostPortOf
  rw [hrest]
  simp only [cut_append 64 u _ hu]
  rcases hsplit : splitHostPort (host' ++ 58 :: formatInt port.toInt) with _ | ⟨h, p⟩
  · exact mem_append_left _ hmem
  · have hh : 64 ∈ h := by
      rcases splitHostPort_eq_some _ h p hsplit with ⟨hp, _, hplain | hbracket⟩
      · have hlast := cutLast_append 58 host' _ (not_mem_port port).1
        rw [hplain, cutLast_append 58 h p hp, some.injEq, Prod.mk.injEq] at hlast
        rw [hlast.1]
        exact hmem
      · have hlast := cutLast_append 58 host' _ (not_mem_port port).1
        have hform : 91 :: (h ++ 93 :: 58 :: p) = (91 :: (h ++ [93])) ++ 58 :: p := by
          simp
        rw [hbracket, hform, cutLast_append 58 _ p hp, some.injEq, Prod.mk.injEq] at hlast
        rw [← hlast.1] at hmem
        simp only [mem_cons, mem_append, not_mem_nil, or_false] at hmem
        rcases hmem with hc | hmem | hc
        · exact absurd hc (by decide)
        · exact hmem
        · exact absurd hc (by decide)
    simp only
    rcases atoi p with e | n
    · exact hh
    · exact hh

section Destination

variable [UnicodeLower] [UnicodeUpper]

/-! ### The URI taken apart -/

omit [UnicodeUpper] in
theorem drop_scheme (x : Bytes) :
    (if ascii "sip:" <+: toLower (ascii "sip:" ++ x) then (ascii "sip:" ++ x).drop 4
      else ascii "sip:" ++ x) = x := by
  rw [if_pos (isPrefix_toLower (ascii "sip:") x (by decide +kernel))]
  rfl

/-- A number without a semicolon leaves the URI whole. -/
theorem extractSIPURI_trunkURI (host : Bytes) (port : Int64) (dest : Bytes)
    (hhost : PlainHost host) (hsemi : 59 ∉ dest) :
    extractSIPURI (trunkURI host port dest) =
      ((hostPortOf (dest ++ ascii "@" ++ joinHostPort host (formatInt port.toInt))).1,
        (hostPortOf (dest ++ ascii "@" ++ joinHostPort host (formatInt port.toInt))).2,
        ascii "UDP") := by
  have hcut : cut 59 (dest ++ ascii "@" ++ joinHostPort host (formatInt port.toInt)) = none := by
    rw [cut_eq_none_iff, mem_append, mem_append, not_or, not_or]
    exact ⟨⟨hsemi, by decide⟩, semicolon_not_mem_joinHostPort host port hhost⟩
  have huri : trunkURI host port dest =
      ascii "sip:" ++ (dest ++ ascii "@" ++ joinHostPort host (formatInt port.toInt)) := by
    simp [trunkURI]
  rw [huri, extractSIPURI]
  simp only [drop_scheme, hcut]
  rfl

/-- A semicolon in the number makes the trunk part of the parameters. -/
theorem extractSIPURI_trunkURI_semicolon (host : Bytes) (port : Int64) (front rest : Bytes)
    (hsemi : 59 ∉ front) :
    extractSIPURI (trunkURI host port (front ++ 59 :: rest)) =
      ((hostPortOf front).1, (hostPortOf front).2,
        transportOf (rest ++ ascii "@" ++ joinHostPort host (formatInt port.toInt))) := by
  have huri : trunkURI host port (front ++ 59 :: rest) =
      ascii "sip:" ++ (front ++ 59 ::
        (rest ++ ascii "@" ++ joinHostPort host (formatInt port.toInt))) := by
    simp [trunkURI]
  rw [huri, extractSIPURI]
  simp [drop_scheme, cut_append 59 front _ hsemi]

/-! ### Where the call goes -/

/-- A call goes where the trunk is if host and port are right and TCP is asked
    for exactly if the trunk wants it. -/
theorem trunkDestination_eq_own_iff (host : Bytes) (port : Int64) (transport dest : Bytes)
    (h : Bytes) (p : Int64) (tr : Bytes)
    (hextract : extractSIPURI (trunkURI host port dest) = (h, p, tr)) :
    trunkDestination host port transport dest = some (ownDestination host port transport) ↔
      (h, p) = (host, port) ∧ (tr = ascii "TCP" ↔ toLower transport = ascii "tcp") ∧
        (toLower transport = ascii "tcp" → transport = ascii "tcp") := by
  have hdest : contactDestination (trunkURI host port dest) =
      ⟨if tr = ascii "TCP" then .tcp else .udp, h, p⟩ := by
    rw [contactDestination, hextract]
  simp only [trunkDestination, hdest, ownDestination, Prod.mk.injEq]
  by_cases htr : tr = ascii "TCP"
  · simp only [htr, if_true, true_and, true_iff]
    by_cases htransport : transport = ascii "tcp"
    · have hlower : toLower transport = ascii "tcp" := by
        rw [htransport]
        rfl
      rw [if_neg (not_not.mpr htransport), hlower, if_pos rfl, some.injEq,
        Destination.mk.injEq]
      exact ⟨fun hd => ⟨hd.2, rfl, fun _ => htransport⟩, fun hd => ⟨rfl, hd.1⟩⟩
    · simp only [ne_eq, htransport, not_false_eq_true, if_true, reduceCtorEq, false_iff]
      rintro ⟨_, hlower, hcase⟩
      exact hcase hlower
  · simp only [htr, if_false, reduceCtorEq, false_and, some.injEq, Destination.mk.injEq,
      false_iff]
    by_cases hlower : toLower transport = ascii "tcp"
    · simp [hlower]
    · simp [hlower]

/-- A call goes where the trunk is exactly if the number does not lead elsewhere,
    whatever number and trunk the route comes to. -/
theorem trunkDestination_iff [RegexpLib] (m : ConfiguredManager) (user : Bytes) (t : TrunkEntry)
    (dest : Bytes) (_hroute : m.matchRoute user = some (t, dest)) (hhost : PlainHost t.host) :
    trunkDestination t.host t.port t.transport dest =
        some (ownDestination t.host t.port t.transport) ↔
      Unsteered t.host t.port t.transport dest := by
  unfold Unsteered
  rcases hcut : cut 59 dest with _ | ⟨front, rest⟩
  · have hsemi := (cut_eq_none_iff 59 dest).mp hcut
    rw [trunkDestination_eq_own_iff _ _ _ _ _ _ _
      (extractSIPURI_trunkURI t.host t.port dest hhost hsemi)]
    have hudp : ¬ ascii "UDP" = ascii "TCP" := by decide
    simp only [hudp, false_iff]
    constructor
    · rintro ⟨hhp, hlower, _⟩
      refine ⟨fun hat => ?_, hlower⟩
      -- The at sign would be in the host of the trunk.
      have hmem := hostPortOf_at t.host t.port dest hat
      rw [(Prod.mk.inj hhp).1] at hmem
      exact hhost.2.1 hmem
    · rintro ⟨hat, hlower⟩
      refine ⟨?_, hlower, fun hc => absurd hc hlower⟩
      rw [hostPortOf_plain t.host t.port dest hhost hat]
  · rcases (cut_eq_some_iff 59 dest front rest).mp hcut with ⟨hdest, hsemi⟩
    rw [hdest, trunkDestination_eq_own_iff _ _ _ _ _ _ _
      (extractSIPURI_trunkURI_semicolon t.host t.port front rest hsemi)]

end Destination

open Samples

/-- One trunk, and one route to it for numbers with a five, which gives them an
    area code for their first digit. -/
def sampleRoutes : ConfiguredManager where
  trunks := AList.insert (ascii "s") (trunkTrusting (ascii "s") .static []) ∅
  routes := [⟨ascii "r", ascii "5", ascii "s", 1, ascii "030", some (ascii "5")⟩]

theorem trunkDestination_iff_sampleRoutes :
    ∃ t dest, sampleRoutes.matchRoute (ascii "95551") = some (t, dest) ∧
      dest = ascii "0305551" ∧ PlainHost t.host ∧
      trunkDestination t.host t.port t.transport dest =
        some (ownDestination t.host t.port t.transport) := by
  have hroute : sampleRoutes.matchRoute (ascii "95551") =
      some (trunkTrusting (ascii "s") .static [], ascii "0305551") := rfl
  have hhost : PlainHost (trunkTrusting (ascii "s") .static []).host := by decide
  refine ⟨_, _, hroute, rfl, hhost, (trunkDestination_iff _ _ _ _ hroute hhost).mpr ?_⟩
  have hcut : cut 59 (ascii "0305551") = none := by decide
  rw [Unsteered, hcut]
  exact ⟨by decide, by decide⟩

/-- The user part of a To URI can hold a host and a port of the caller's choice. -/
theorem trunkDestination_steered :
    ∃ t dest, sampleRoutes.matchRoute (extractUser (ascii "sip:9evil.example:5070;5@trecs")) =
        some (t, dest) ∧ PlainHost t.host ∧
      trunkDestination t.host t.port t.transport dest =
        some ⟨.udp, ascii "030evil.example", 5070⟩ ∧
      ¬ trunkDestination t.host t.port t.transport dest =
        some (ownDestination t.host t.port t.transport) := by
  have hroute : sampleRoutes.matchRoute (extractUser (ascii "sip:9evil.example:5070;5@trecs")) =
      some (trunkTrusting (ascii "s") .static [], ascii "030evil.example:5070;5") := rfl
  exact ⟨_, _, hroute, by decide, by decide +kernel, by decide +kernel⟩

end B2bua

end Trecs
