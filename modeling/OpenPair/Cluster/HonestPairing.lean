import OpenPair.Cluster.Drive
import OpenPair.Cluster.Handshake

/-! An invite answered over a faithful relay: both ends are registered exactly
when the two PINs agree. -/

set_option autoImplicit false

namespace OpenPair

variable {c : Crates}

/-! ## The handshake of two identities -/

theorem Suite.p256_agrees (lawful : c.Lawful) (a b : Draws c) :
    ∃ z, (Suite.p256.generate a).computeZ (Suite.p256.generate b).publicJwk = some z ∧
      (Suite.p256.generate b).computeZ (Suite.p256.generate a).publicJwk = some z := by
  obtain ⟨z, first, second⟩ := lawful.agreement a.p256 b.p256
  have coordinates (d e : Draws c) :
      (Suite.p256.generate d).computeZ (Suite.p256.generate e).publicJwk =
        c.p256Agree d.p256
          (0x04 :: (c.p256Public e.p256).1.bytes ++ (c.p256Public e.p256).2.bytes) := by
    simp [Suite.generate, Suite.secretKey, KeyPair.computeZ, SecretKey.computeZ,
      SecretKey.publicJwk, lawful.b64]
  exact ⟨z, (coordinates a b).trans first, (coordinates b a).trans second⟩

theorem Handshake.exists_of_valid (lawful : c.Lawful) {inviter joiner : PeerIdentity}
    (inviterValid : inviter.info.Valid c inviter.certDer)
    (joinerValid : joiner.info.Valid c joiner.certDer) (naming serverDraws peerDraws : Draws c) :
    ∃ x : Handshake c, x.inviter = inviter ∧ x.joiner = joiner ∧ x.naming = naming ∧
      x.serverDraws = serverDraws ∧ x.peerDraws = peerDraws := by
  obtain ⟨z, first, second⟩ := Suite.p256_agrees lawful serverDraws peerDraws
  let exchange : Exchange c :=
    { serverInfo := inviter.info.toJson c
      serverText := lawful.text_info inviter.info
      peerInfo := joiner.info.toJson c
      peerText := lawful.text_info joiner.info
      naming := naming
      serverDraws := serverDraws
      peerDraws := peerDraws
      z := z
      serverAgrees := first
      peerAgrees := second }
  exact ⟨⟨exchange, inviter, joiner, rfl, rfl, inviterValid, joinerValid⟩, rfl, rfl, rfl, rfl, rfl⟩

/-! ## The drives -/

namespace Handshake

variable (x : Handshake c)

def waiting : Sessions c := ⟨inviting x.serverWaiting, x.joining x.peerWaiting⟩

/-- Both sides once the inviter has set one PIN and the joiner has fed another. -/
def armed (p q : String) : Sessions c :=
  ⟨inviting (x.serverArmed (noobFromPin p).bytes), x.joining (x.peerArmed (noobFromPin q).bytes)⟩

-- The message with which the joiner takes up the Completion Exchange.
def resumption (q : String) : Wire := (x.peerArmed (noobFromPin q).bytes).discoveryResponse

def registered (p : String) : Sessions c :=
  ⟨x.joined (x.serverRegistered (noobFromPin p).bytes (x.resumption p)),
    x.joining (x.peerRegistered (noobFromPin p).bytes)⟩

def refused (p q : String) : Sessions c :=
  ⟨inviting (x.serverResumed (noobFromPin p).bytes (x.resumption q)),
    x.joining (x.peerArmed (noobFromPin q).bytes)⟩

def success : Step := { done := true, success := true }

def mismatch : Step :=
  .fromOutcome (peerError ErrorCode.unrecognizedOobMsgId (some "unrecognized NoobId"))

variable (lawful : c.Lawful)
include lawful

omit x in
theorem ne_nil_of_decode {bytes : Bytes} {w : Wire} (decoded : c.decodeWire bytes = some w) :
    bytes ≠ [] := by
  rintro rfl
  rw [lawful.wire_empty] at decoded
  cases decoded

theorem driveInitial_waits {supply : Supply c} (inviteId : String) (fuel : Nat)
    (naming : supply.inviter 0 = x.naming) (serverDraws : supply.inviter 1 = x.serverDraws)
    (peerDraws : supply.joiner 2 = x.peerDraws) :
    driveInitial supply inviteId (3 + fuel) 0 ⟨x.freshInviter, x.freshJoiner⟩
      x.freshInviter.start = some (.ok x.waiting) := by
  have discovers := x.joiner_discovers lawful (supply.joiner 0)
  have negotiates := x.joiner_negotiates lawful (supply.joiner 1)
  have offers := x.inviter_offers lawful
  have keys := x.inviter_keys lawful
  have waits := x.joiner_waits lawful
  rw [← naming] at offers
  rw [← serverDraws] at keys
  rw [← peerDraws] at waits
  have start : x.freshInviter.start = c.encodeWire discoveryRequest := rfl
  rw [x.freshInviter_eq, x.freshJoiner_eq] at *
  rw [start, show 3 + fuel = fuel + 2 + 1 by omega,
    driveInitial_continues lawful discovers offers rfl rfl rfl,
    driveInitial_continues lawful negotiates keys rfl rfl rfl,
    driveInitial_ends lawful waits (x.inviter_waits lawful (supply.inviter 2)) rfl rfl, waiting]

theorem createInvite_arms {supply : Supply c} (inviteId p q : String) (fuel : Nat)
    (naming : supply.inviter 0 = x.naming) (serverDraws : supply.inviter 1 = x.serverDraws)
    (peerDraws : supply.joiner 2 = x.peerDraws) :
    createInvite supply inviteId p (3 + fuel) ⟨x.freshInviter, x.freshJoiner⟩ =
      some (.ok ⟨(x.armed p q).inviter, x.joining x.peerWaiting⟩) := by
  have drives := x.driveInitial_waits lawful inviteId fuel naming serverDraws peerDraws
  have invite : x.waiting.inviter.invite p = .ok (x.armed p q).inviter := by
    have waits : x.waiting.inviter.state = .waiting := rfl
    have arms : x.waiting.inviter.setPin p = _ := x.inviter_arms p
    simp only [InviterSession.invite, waits, ne_eq, not_true_eq_false, if_false, arms]
    rfl
  simp only [createInvite, drives, invite]
  rfl

omit lawful in
theorem beginCompletion_arms {q : String} (address : x.inviter.info.addr.isEmpty = false) :
    (x.joining x.peerWaiting).beginCompletion q =
      (x.joining (x.peerArmed (noobFromPin q).bytes), .ok x.inviter.info.addr) := by
  have known : (x.joining x.peerWaiting).inviterAddr = some x.inviter.info.addr := rfl
  simp only [JoinerSession.beginCompletion, known, Option.filter_some, address, Bool.not_false,
    if_true, x.joiner_arms]
  rfl

theorem submitPin_answers {supply : Supply c} (inviteId p q : String) (fuel : Nat)
    (valid : isValidPin q = true) (address : x.inviter.info.addr.isEmpty = false)
    {inviter : InviterSession c} {reply : Step}
    (answered : (inviting (x.serverResumed (noobFromPin p).bytes (x.resumption q))).onCompletion
      (supply.inviter 2) (c.encodeWire (x.peerArmed (noobFromPin q).bytes).noobIdResponse) =
        (inviter, some (.ok reply))) :
    submitPin supply inviteId q (fuel + 2) ⟨(x.armed p q).inviter, x.joining x.peerWaiting⟩ =
      driveCompletion supply inviteId fuel 3 ⟨inviter, (x.armed p q).joiner⟩
        (.withMsg c inviteId Phase.completion (reply.send.getD [])) := by
  have long (pin : String) : (noobFromPin pin).bytes ≠ [] :=
    Exchange.ne_nil_of_length (noobFromPin pin).length_eq
  have decoded := x.decode_resumed lawful (noobFromPin q).bytes
  have resumes := x.joiner_resumes lawful (supply.joiner 1) (noobFromPin q).bytes
  have asks := x.inviter_resumes lawful (supply.inviter 1) decoded rfl rfl rfl (long p)
  have answers := x.joiner_answers lawful (supply.joiner 2) (noobFromPin p).bytes
    (x.resumption q) (long q)
  have kickoff : (x.armed p q).inviter.start = c.encodeWire discoveryRequest := rfl
  rw [submitPin, valid, x.beginCompletion_arms address]
  simp only [Bool.true_eq_false, if_false, postCompletion_kickoff, kickoff]
  rw [driveCompletion_continues lawful resumes rfl rfl (ne_nil_of_decode lawful decoded) asks]
  exact driveCompletion_continues lawful answers rfl rfl
    (ne_nil_of_decode lawful (x.decode_noobId lawful _)) answered

theorem submitPin_registers {supply : Supply c} (inviteId p : String) (fuel : Nat)
    (valid : isValidPin p = true) (address : x.inviter.info.addr.isEmpty = false) :
    submitPin supply inviteId p (4 + fuel) ⟨(x.armed p p).inviter, x.joining x.peerWaiting⟩ =
      some (.ok (x.registered p, success)) := by
  have long : (noobFromPin p).bytes ≠ [] :=
    Exchange.ne_nil_of_length (noobFromPin p).length_eq
  have matched := x.inviter_matches lawful (supply.inviter 2) (noobFromPin p).bytes
    (x.resumption p)
  have verifies := x.joiner_verifies lawful (supply.joiner 3) (x.resumption p) long
  have registers := x.inviter_registers lawful (supply.inviter 3) (noobFromPin p).bytes
    (x.resumption p)
  have ends := x.joiner_registers lawful (supply.joiner 4) (noobFromPin p).bytes
  rw [show 4 + fuel = fuel + 2 + 2 by omega,
    x.submitPin_answers lawful inviteId p p _ valid address matched]
  rw [Option.getD_some, driveCompletion_continues lawful verifies rfl rfl
    (ne_nil_of_decode lawful (x.decode_macp lawful _)) registers]
  exact driveCompletion_ends lawful ends rfl

theorem submitPin_refuses {supply : Supply c} (inviteId : String) {p q : String} (fuel : Nat)
    (valid : isValidPin q = true) (address : x.inviter.info.addr.isEmpty = false)
    (differ : computeNoobId c (c.jsonStr (c.b64Encode (noobFromPin q).bytes)) ≠
      computeNoobId c (c.jsonStr (c.b64Encode (noobFromPin p).bytes))) :
    submitPin supply inviteId q (4 + fuel) ⟨(x.armed p q).inviter, x.joining x.peerWaiting⟩ =
      some (.ok (x.refused p q, mismatch)) := by
  have mismatched := x.inviter_mismatches lawful (supply.inviter 2) (x.resumption q) differ
  rw [show 4 + fuel = fuel + 2 + 2 by omega,
    x.submitPin_answers lawful inviteId p q _ valid address mismatched]
  exact driveCompletion_ends lawful
    (x.joiner_refused lawful (supply.joiner 3) (noobFromPin q).bytes) rfl

end Handshake

/-! ## How a pairing ends -/

/-- Both sides are registered, under one key, and each holds the other's
identity with its certificate. -/
structure Succeeds (inviter joiner : PeerIdentity) (s : Sessions c) (last : Step) : Prop where
  inviterState : s.inviter.state = .registered
  joinerState : s.joiner.state = .registered
  associated : ∃ a b, s.inviter.association = some a ∧ s.joiner.association = some b ∧ a.kz = b.kz
  joiner : s.inviter.joiner = some joiner
  inviter : s.joiner.inviter = some inviter
  last : last.done = true ∧ last.success = true

/-- Neither side is registered, and the joiner knows that the PIN was wrong. -/
structure Fails (s : Sessions c) (last : Step) : Prop where
  inviterState : s.inviter.state ≠ .registered
  joinerState : s.joiner.state ≠ .registered
  inviter : s.inviter.association = none
  joiner : s.joiner.association = none
  last : last.done = true ∧ last.authFailed = true

theorem Handshake.succeeds (x : Handshake c) (p : String) :
    Succeeds x.inviter x.joiner (x.registered p) success where
  inviterState := rfl
  joinerState := rfl
  associated := ⟨_, _, rfl, rfl, rfl⟩
  joiner := rfl
  inviter := rfl
  last := ⟨rfl, rfl⟩

theorem Handshake.fails (x : Handshake c) (p q : String) : Fails (x.refused p q) mismatch where
  inviterState := nofun
  joinerState := nofun
  inviter := rfl
  joiner := rfl
  last := ⟨rfl, by decide⟩

/-- The hash that names an out-of-band value tells the values of two PINs apart. -/
def NoobIdsDiffer (c : Crates) (p q : String) : Prop :=
  let text (pin : String) := c.jsonStr (c.b64Encode (noobFromPin pin).bytes)
  computeNoobId c (text q) = computeNoobId c (text p) → text q = text p

/-- Every honest pairing ends, with an association on both sides if the PINs
agree and on neither if they do not. -/
theorem honest_pairing (lawful : c.Lawful) {inviter joiner : PeerIdentity}
    (inviterValid : inviter.info.Valid c inviter.certDer)
    (joinerValid : joiner.info.Valid c joiner.certDer)
    (address : inviter.info.addr.isEmpty = false) (initial completion : Supply c)
    (inviteId : String) {p q : String} (pValid : isValidPin p = true)
    (qValid : isValidPin q = true) (hash : NoobIdsDiffer c p q) (fuel : Nat) :
    ∃ s last, pair initial completion inviteId p q (4 + fuel) inviter.info joiner.info =
        some (.ok (s, last)) ∧
      (p = q → Succeeds inviter joiner s last) ∧ (p ≠ q → Fails s last) := by
  obtain ⟨x, rfl, rfl, naming, serverDraws, peerDraws⟩ := Handshake.exists_of_valid lawful
    inviterValid joinerValid (initial.inviter 0) (initial.inviter 1) (initial.joiner 2)
  have invites : createInvite initial inviteId p (4 + fuel)
      ⟨.new c x.inviter.info, .new c x.joiner.info⟩ =
        some (.ok ⟨(x.armed p q).inviter, x.joining x.peerWaiting⟩) := by
    rw [show 4 + fuel = 3 + (fuel + 1) by omega]
    exact x.createInvite_arms lawful inviteId p q _ naming.symm serverDraws.symm peerDraws.symm
  have paired : pair initial completion inviteId p q (4 + fuel) x.inviter.info x.joiner.info =
      submitPin completion inviteId q (4 + fuel)
        ⟨(x.armed p q).inviter, x.joining x.peerWaiting⟩ := by
    rw [pair, invites]
  rw [paired]
  by_cases same : p = q
  · subst same
    exact ⟨_, _, x.submitPin_registers lawful inviteId p fuel qValid address,
      fun _ => x.succeeds p, fun wrong => absurd rfl wrong⟩
  · refine ⟨_, _, x.submitPin_refuses lawful inviteId fuel qValid address ?_,
      fun wrong => absurd wrong same, fun _ => x.fails p q⟩
    -- Equal names would give equal values, and so equal PINs.
    intro equal
    have texts := hash equal
    have encoded := (lawful.str _).symm.trans ((congrArg c.readStr texts).trans (lawful.str _))
    have bytes := (lawful.b64 _).symm.trans
      ((congrArg c.b64Decode (Option.some.inj encoded)).trans (lawful.b64 _))
    exact same (noobFromPin_injective pValid qValid (Option.some.inj bytes).symm)

namespace Reference

def supply : Supply crates := ⟨fun _ => draws .server, fun _ => draws .peer⟩

theorem noobIds_differ : NoobIdsDiffer crates "123456" "654321" := by
  intro same
  revert same
  decide +kernel

end Reference

/-- Two nodes with equal PINs pair, with different PINs they do not. -/
theorem honest_pairing_reference :
    (∃ s last, pair Reference.supply Reference.supply "invite" "123456" "123456" 4
        Reference.inviterInfo Reference.joinerInfo = some (.ok (s, last)) ∧
      Succeeds Reference.inviter Reference.joiner s last) ∧
    (∃ s last, pair Reference.supply Reference.supply "invite" "123456" "654321" 4
        Reference.inviterInfo Reference.joinerInfo = some (.ok (s, last)) ∧ Fails s last) := by
  have inviterValid := Reference.handshake.inviterValid
  have joinerValid := Reference.handshake.joinerValid
  have address : Reference.inviter.info.addr.isEmpty = false := by decide
  have pValid : isValidPin "123456" = true := by decide
  have qValid : isValidPin "654321" = true := by decide
  constructor
  · obtain ⟨s, last, ends, succeeds, -⟩ := honest_pairing Reference.lawful inviterValid joinerValid
      address Reference.supply Reference.supply "invite" pValid pValid (fun _ => rfl) 0
    exact ⟨s, last, ends, succeeds rfl⟩
  · obtain ⟨s, last, ends, -, fails⟩ := honest_pairing Reference.lawful inviterValid joinerValid
      address Reference.supply Reference.supply "invite" pValid qValid Reference.noobIds_differ 0
    exact ⟨s, last, ends, fails (by decide)⟩

end OpenPair
