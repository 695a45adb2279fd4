import OpenPair.Library.Interleaving
import OpenPair.Pairing.MacInput
import OpenPair.Pairing.Messages
import OpenPair.Pairing.PeerAuthentication
import OpenPair.Pairing.ServerAuthentication

/-! Agreement of the two machines on the association, under an active attacker.

The MACp covers the transcript, while the association is built from working
fields. What the MAC determines is read off the array it was computed over; the
working fields agree where they still are what the transcript says.
-/

set_option autoImplicit false

namespace OpenPair

open Transition

variable {c : Crates}

/-! ## The array determines its elements -/

variable (c) in
def Embeds (t : String) : Prop := t = "" ∨ c.Text t

variable (c) in
structure MacInputs.Embedded (m : MacInputs) : Prop where
  vers : Embeds c m.vers
  verp : Embeds c m.verp
  peerId : Embeds c m.peerId
  cryptosuites : Embeds c m.cryptosuites
  dirs : Embeds c m.dirs
  serverInfo : Embeds c m.serverInfo
  cryptosuitep : Embeds c m.cryptosuitep
  dirp : Embeds c m.dirp
  nai : Embeds c m.nai
  peerInfo : Embeds c m.peerInfo
  pks : Embeds c m.pks
  ns : Embeds c m.ns
  pkp : Embeds c m.pkp
  np : Embeds c m.np
  noob : Embeds c m.noob

theorem MacInputs.Embedded.empty : MacInputs.Embedded c {} := by
  constructor <;> exact .inl rfl

theorem MacInputs.Embedded.texts {m : MacInputs} (embedded : m.Embedded c) :
    ∀ t ∈ m.texts, Embeds c t := by
  obtain ⟨vers, verp, peerId, cryptosuites, dirs, serverInfo, cryptosuitep, dirp, nai, peerInfo,
    pks, ns, pkp, np, noob⟩ := embedded
  simp only [MacInputs.texts, List.forall_mem_cons]
  exact ⟨vers, verp, peerId, cryptosuites, dirs, serverInfo, cryptosuitep, dirp, nai, peerInfo,
    pks, ns, pkp, np, noob, fun _ wrong => (List.not_mem_nil wrong).elim⟩

theorem closed_el {t : String} (lawful : c.Lawful) (embeds : Embeds c t) :
    Json.Closed (el t).toList := by
  rcases embeds with rfl | text
  · decide
  · rw [el_of_ne (text.ne_empty lawful)]
    exact text.closed lawful

theorem closed_noobParts {m : MacInputs} (lawful : c.Lawful) (embedded : m.Embedded c) :
    ∀ part ∈ noobParts (toString (1 : Int64)) m, Json.Closed part.toList := by
  have lead : Json.Closed (toString (1 : Int64)).toList := by decide
  exact noobParts_closed lead fun t found => closed_el lawful (embedded.texts t found)

theorem Crates.Text.embeds {t : String} (text : c.Text t) : Embeds c t := .inr text

theorem embeds_get (lawful : c.Lawful) {bytes : Bytes} {wm : Wire} {r : Option String}
    (decoded : c.decodeWire bytes = some wm) (found : r ∈ wm.raws) : Embeds c (get r) := by
  cases r with
  | none => exact .inl rfl
  | some t => exact .inr (lawful.member decoded found)

theorem text_ensureObj (lawful : c.Lawful) {t : String} (embeds : Embeds c t) :
    c.Text (ensureObj t) := by
  rcases embeds with rfl | text
  · exact lawful.text_obj
  · have some := text.ne_empty lawful
    simpa [ensureObj, some] using text

theorem parse_get {α : Type} {read : String → Option α} {r : Option String} {a : α}
    (parsed : r.bind read = some a) : r = some (get r) ∧ read (get r) = some a := by
  cases r with
  | none => cases parsed
  | some t => exact ⟨rfl, parsed⟩

/-! ## What a Server's transcript says about its working fields -/

namespace Server

structure Consistent (s : Server c) : Prop where
  serverInfo : c.Text s.serverInfo
  embedded : s.m.inp.Embedded c
  offered : s.m.inp.vers = "" ∨
    (s.m.inp.peerId = jstr c s.m.peerId ∧ s.m.inp.serverInfo = s.serverInfo)
  chosen : s.m.inp.cryptosuitep = "" ∨
    (c.readInt s.m.inp.cryptosuitep = some s.csp ∧ s.m.inp.peerInfo ≠ "" ∧ s.m.inp.nai ≠ "")

theorem Consistent.initial {s : Server c} (initial : s.Initial) (text : c.Text s.serverInfo) :
    s.Consistent := by
  rcases initial with rfl | ⟨info, rfl⟩ <;> exact ⟨text, .empty, .inl rfl, .inl rfl⟩

theorem Negotiates.read_csp {s : Server c} {wm : Wire} {csp dirp : Int64} {suite : Suite}
    (negotiates : s.Negotiates wm csp dirp) (known : Suite.fromId (asU8 csp) = some suite) :
    c.readInt (get wm.cryptosuitep) = some csp := by
  have chosen := negotiates.csp_eq
  cases parsed : parseInt c wm.cryptosuitep with
  | none =>
    rw [parsed] at chosen
    subst chosen
    cases (show Suite.fromId (asU8 (-1)) = none by decide).symm.trans known
  | some id =>
    rw [parsed] at chosen
    exact (parse_get (parsed.trans (congrArg some chosen))).2

theorem Effect.consistent {s t : Server c} {draws : Draws c} {bytes : Bytes} {wm : Wire}
    {out : Option Outcome} (lawful : c.Lawful) (decoded : c.decodeWire bytes = some wm)
    (consistent : s.Consistent) (effect : s.Effect draws wm t out) : t.Consistent := by
  obtain ⟨serverInfo, embedded, offered, chosen⟩ := consistent
  cases effect with
  | offered =>
    refine ⟨serverInfo, { embedded with
      vers := (lawful.text_ints _).embeds
      peerId := (lawful.text_str _).embeds
      cryptosuites := (lawful.text_ints _).embeds
      dirs := (lawful.text_int _).embeds
      serverInfo := serverInfo.embeds }, .inr ⟨rfl, rfl⟩, chosen⟩
  | @negotiated csp dirp suite out notice type negotiates known quiet =>
    have read := negotiates.read_csp known
    have peerInfo : c.Text (ensureObj (get wm.peerInfo)) :=
      text_ensureObj lawful (embeds_get lawful decoded (by simp [Wire.raws]))
    exact ⟨serverInfo, { embedded with
      verp := embeds_get lawful decoded (by simp [Wire.raws])
      cryptosuitep := embeds_get lawful decoded (by simp [Wire.raws])
      dirp := embeds_get lawful decoded (by simp [Wire.raws])
      peerInfo := peerInfo.embeds
      nai := (lawful.text_str _).embeds
      pks := (lawful.text_jwk _).embeds
      ns := (lawful.text_str _).embeds }, offered,
      .inr ⟨read, peerInfo.ne_empty lawful, (lawful.text_str _).ne_empty lawful⟩⟩
  | exchanged =>
    exact ⟨serverInfo, { embedded with
      pkp := embeds_get lawful decoded (by simp [Wire.raws])
      np := embeds_get lawful decoded (by simp [Wire.raws]) }, offered, chosen⟩
  | _ => exact ⟨serverInfo, embedded, offered, chosen⟩

theorem Consistent.step {s : Server c} (lawful : c.Lawful) (consistent : s.Consistent)
    (input : Input c) : (s.step input).1.Consistent := by
  rcases s.step_cases input with ⟨same, -⟩ | ⟨noob, -, -, -, -, after⟩ |
    ⟨draws, bytes, wm, out, rfl, decoded, -, effect⟩
  · rw [same]
    exact consistent
  · rw [after]
    exact ⟨consistent.serverInfo,
      { consistent.embedded with noob := (lawful.text_str _).embeds }, consistent.offered,
      consistent.chosen⟩
  · exact effect.consistent lawful decoded consistent

theorem Consistent.run {s : Server c} (lawful : c.Lawful) (consistent : s.Consistent)
    (inputs : List (Input c)) : (run Server.step s inputs).Consistent :=
  run_invariant (P := Consistent) Server.step
    (fun _ input kept => Consistent.step lawful kept input) consistent inputs

/-- Cached keys were derived by a step of the run. -/
def KeysDerived (history : List (Step c)) (s : Server c) : Prop :=
  ∀ keym, s.m.keym = some keym → ∃ d ∈ history, Derives d keym

theorem KeysDerived.step (history : List (Step c)) (s : Server c) (input : Input c)
    (derived : KeysDerived history s) :
    KeysDerived (history ++ [entry Server.step s input]) (s.step input).1 := by
  intro keym cached
  have earlier : s.m.keym = some keym →
      ∃ d ∈ history ++ [entry Server.step s input], Derives d keym := by
    intro held
    obtain ⟨d, member, derives⟩ := derived keym held
    exact ⟨d, List.mem_append_left _ member, derives⟩
  rcases s.step_cases input with ⟨same, -⟩ | ⟨noob, -, -, -, -, after⟩ |
    ⟨draws, bytes, wm, out, rfl, decoded, -, effect⟩
  · rw [same] at cached
    exact earlier cached
  · rw [after] at cached
    exact earlier cached
  · rcases effect.keym with same | ⟨fresh, -⟩
    · exact earlier (same ▸ cached)
    · exact ⟨_, List.mem_append_right _ (List.mem_singleton_self _),
        Option.some.inj (fresh.symm.trans cached), cached⟩

end Server

/-! ## What a Peer's transcript says about its working fields -/

namespace Peer

structure Consistent (p : Peer c) : Prop where
  peerInfo : c.Text p.peerInfo
  embedded : p.m.inp.Embedded c
  negotiated : p.dirp = 0 ∨
    (p.m.inp.vers ≠ "" ∧ (c.readInts p.m.inp.vers).isSome = true ∧ p.m.inp.peerId ≠ "" ∧
      p.m.inp.serverInfo ≠ "" ∧ p.m.inp.cryptosuitep = toString p.csp ∧ p.m.inp.nai = jstr c p.m.nai ∧
      p.m.inp.peerInfo = p.peerInfo)
  noob : p.m.noob ≠ [] → p.dirp ≠ 0

theorem Consistent.initial {p : Peer c} (initial : p.Initial) (text : c.Text p.peerInfo) :
    p.Consistent := by
  rcases initial with rfl | ⟨info, rfl⟩ <;>
    exact ⟨text, .empty, .inl rfl, fun wrong => absurd rfl wrong⟩

theorem Negotiates.read_vers {p : Peer c} {wm : Wire} {peerId : String} {verp csp dirp : Int64}
    (negotiates : p.Negotiates wm peerId verp csp dirp) :
    wm.vers = some (get wm.vers) ∧ (c.readInts (get wm.vers)).isSome = true := by
  have best := negotiates.verp
  cases parsed : parseInts c wm.vers with
  | none =>
    rw [parsed] at best
    cases best
  | some versions =>
    obtain ⟨present, read⟩ := parse_get parsed
    exact ⟨present, by rw [read]; rfl⟩

theorem chooseDir_ne {dirs prefer dirp : Int64} (chosen : chooseDir dirs prefer = some dirp) :
    dirp ≠ 0 := by
  rintro rfl
  unfold chooseDir at chosen
  split at chosen
  · cases chosen
  split at chosen
  · cases chosen
  split at chosen
  · split at chosen
    · next preferred =>
      rw [Option.some.inj chosen] at preferred
      exact absurd preferred (by decide)
    · cases chosen
  · cases chosen

theorem Effect.consistent {p q : Peer c} {draws : Draws c} {bytes : Bytes} {wm : Wire}
    {out : Option Outcome} (lawful : c.Lawful) (decoded : c.decodeWire bytes = some wm)
    (consistent : p.Consistent) (effect : p.Effect draws wm q out) : q.Consistent := by
  obtain ⟨peerInfo, embedded, negotiated, noob⟩ := consistent
  cases effect with
  | @negotiated peerId verp csp dirp out result notice type negotiates quiet =>
    obtain ⟨present, read⟩ := negotiates.read_vers
    have vers : c.Text (get wm.vers) := lawful.member decoded (by simp [Wire.raws, ← present])
    have named : c.Text (get wm.peerId) :=
      lawful.member decoded (by simp [Wire.raws, ← (parse_get negotiates.peerId).1])
    have serverInfo : c.Text (ensureObj (get wm.serverInfo)) :=
      text_ensureObj lawful (embeds_get lawful decoded (by simp [Wire.raws]))
    refine ⟨peerInfo, { embedded with
      vers := vers.embeds
      peerId := named.embeds
      cryptosuites := embeds_get lawful decoded (by simp [Wire.raws])
      dirs := embeds_get lawful decoded (by simp [Wire.raws])
      serverInfo := serverInfo.embeds
      verp := (lawful.text_int _).embeds
      cryptosuitep := (lawful.text_int _).embeds
      dirp := (lawful.text_int _).embeds
      peerInfo := peerInfo.embeds
      nai := (lawful.text_str _).embeds }, .inr ?_, fun _ => chooseDir_ne negotiates.dirp⟩
    exact ⟨vers.ne_empty lawful, read, named.ne_empty lawful, serverInfo.ne_empty lawful, rfl, rfl,
      rfl⟩
  | stalled | exchanged =>
    exact ⟨peerInfo, { embedded with
      pks := embeds_get lawful decoded (by simp [Wire.raws])
      ns := embeds_get lawful decoded (by simp [Wire.raws])
      pkp := (lawful.text_jwk _).embeds
      np := (lawful.text_str _).embeds }, negotiated, noob⟩
  | _ => exact ⟨peerInfo, embedded, negotiated, noob⟩

theorem Consistent.step {p : Peer c} (lawful : c.Lawful) (consistent : p.Consistent)
    (input : Input c) : (p.step input).1.Consistent := by
  rcases p.step_cases input with ⟨same, -⟩ | ⟨noob, -, -, -, direction, after⟩ |
    ⟨draws, bytes, wm, out, rfl, decoded, -, effect⟩
  · rw [same]
    exact consistent
  · rw [after]
    refine ⟨consistent.peerInfo,
      { consistent.embedded with noob := (lawful.text_str _).embeds }, consistent.negotiated,
      fun _ zero => ?_⟩
    rw [show p.dirp = 0 from zero] at direction
    exact absurd direction (by decide)
  · exact effect.consistent lawful decoded consistent

theorem Consistent.run {p : Peer c} (lawful : c.Lawful) (consistent : p.Consistent)
    (inputs : List (Input c)) : (run Peer.step p inputs).Consistent :=
  run_invariant (P := Consistent) Peer.step
    (fun _ input kept => Consistent.step lawful kept input) consistent inputs

end Peer

/-! ## Agreement -/

def Peer.macp (v : Peer.Step c) : ByteArr 32 :=
  computeMac c v.before.m.keys.kmp.bytes 1 v.before.m.inp

/-- The Server accepted a Type 6 that carries the MACp of this step of the Peer. -/
def AcceptsMacpOf (t : Server.Step c) (v : Peer.Step c) : Prop :=
  ∃ wm keym, Server.Receives t wm ∧ wm.type = some 6 ∧ t.before.Verifies wm keym ∧
    parseB64 c wm.macp = some (Peer.macp v).bytes

/-- The key and the array of each MACp that the two machines computed. -/
inductive MacpInput (servers : List (Server.Step c)) (peers : List (Peer.Step c)) :
    Bytes → Bytes → Prop where
  | server {t keym} : t ∈ servers → Server.AcceptsMacp t keym →
      MacpInput servers peers keym.kmp.bytes (noobArray (toString (1 : Int64)) t.before.m.inp)
  | peer {v} : v ∈ peers → Peer.AcceptsMacs v →
      MacpInput servers peers v.before.m.keys.kmp.bytes
        (noobArray (toString (1 : Int64)) v.before.m.inp)

-- `z || FixedInfo` of the values a method holds.
def Method.kdfInput (m : Method c) : Bytes := m.z ++ eapnoobFixedInfo m.np m.ns m.noob

/-- The hash input of each Kmp that the two machines derived. -/
inductive KmpInput (servers : List (Server.Step c)) (peers : List (Peer.Step c)) : Bytes → Prop where
  | server {d keym} : d ∈ servers → Server.Derives d keym →
      KmpInput servers peers (beBytes32 9 ++ d.before.m.kdfInput)
  | peer {v} : v ∈ peers → Peer.AcceptsMacs v →
      KmpInput servers peers (beBytes32 9 ++ v.before.m.kdfInput)

/-- HMAC and SHA-256 do not collide on what the run computes. -/
structure CollisionFree (servers : List (Server.Step c)) (peers : List (Peer.Step c)) : Prop where
  hmac {key data key' data' : Bytes} : MacpInput servers peers key data →
    MacpInput servers peers key' data' → c.hmacSha256 key data = c.hmacSha256 key' data' →
    key = key' ∧ data = data'
  sha {x y : Bytes} : KmpInput servers peers x → KmpInput servers peers y →
    c.sha256 x = c.sha256 y → x = y

/-- At the result, the Peer's working fields still are what its MAC confirmed. -/
structure StillVerified (v r : Peer.Step c) : Prop where
  peerId : c.readStr v.before.m.inp.peerId = some r.before.m.peerId
  nai : r.before.m.nai = v.before.m.nai
  csp : r.before.csp = v.before.csp
  kz : r.before.m.keym.map DerivedKeys.kz = some v.before.m.keys.kz
  serverInfo : r.before.m.inp.serverInfo = v.before.m.inp.serverInfo

theorem kmp_eq (m : Method c) : m.keys.kmp = c.sha256 (beBytes32 9 ++ m.kdfInput) := by
  rw [Method.keys, (deriveCompletion_kmp_kz _ _ _ _).1, kdfBlock, Method.kdfInput,
    List.append_assoc]

theorem kz_eq (m : Method c) : m.keys.kz = c.sha256 (beBytes32 10 ++ m.kdfInput) := by
  rw [Method.keys, (deriveCompletion_kmp_kz _ _ _ _).2, kdfBlock, Method.kdfInput,
    List.append_assoc]

/-- Without collisions, one MACp value means one Kz and one array. -/
theorem macp_determines {servers : List (Server.Step c)} {peers : List (Peer.Step c)}
    (collisionFree : CollisionFree servers peers) {t d : Server.Step c} {v : Peer.Step c}
    {keym : DerivedKeys} (server : t ∈ servers) (origin : d ∈ servers) (peer : v ∈ peers)
    (derives : Server.Derives d keym) (accepts : Server.AcceptsMacp t keym)
    (verified : Peer.AcceptsMacs v)
    (same : computeMac c keym.kmp.bytes 1 t.before.m.inp = Peer.macp v) :
    keym.kz = v.before.m.keys.kz ∧
      noobArray (toString (1 : Int64)) t.before.m.inp =
        noobArray (toString (1 : Int64)) v.before.m.inp := by
  obtain ⟨key, array⟩ := collisionFree.hmac (.server server accepts) (.peer peer verified) same
  refine ⟨?_, array⟩
  have kmp : keym.kmp = v.before.m.keys.kmp := ByteArr.ext key
  rw [← derives.1, kmp_eq, kmp_eq] at kmp
  have hashed := collisionFree.sha (.server origin derives) (.peer peer verified) kmp
  have input := List.append_cancel_left hashed
  rw [← derives.1, kz_eq, kz_eq, input]

/-- What equal arrays say about the working fields of both sides. -/
structure TranscriptsAgree (s : Server c) (p : Peer c) : Prop where
  peerId : jstr c s.m.peerId = p.m.inp.peerId
  nai : s.m.inp.nai = jstr c p.m.nai
  csp : s.csp = p.csp
  peerInfo : s.peerInfo = p.peerInfo
  serverInfo : s.serverInfo = p.serverInfo

theorem transcripts_agree {s : Server c} {p : Peer c} (lawful : c.Lawful)
    (server : s.Consistent) (peer : p.Consistent) (noob : p.m.noob ≠ [])
    (same : noobArray (toString (1 : Int64)) s.m.inp = noobArray (toString (1 : Int64)) p.m.inp) :
    TranscriptsAgree s p := by
  have lists := noobParts_injective (closed_noobParts lawful server.embedded)
    (closed_noobParts lawful peer.embedded) same
  simp only [noobParts, List.cons.injEq, true_and, and_true] at lists
  obtain ⟨vers, -, peerId, -, -, serverInfo, suite, -, nai, peerInfo, -⟩ := lists
  obtain ⟨someVers, ints, somePeerId, someInfo, csp, peerNai, configured⟩ :=
    peer.negotiated.resolve_left (peer.noob noob)
  have int_ne (i : Int64) : toString i ≠ "" := (lawful.text_int i).ne_empty lawful
  -- The Peer's members are present, so the Server's are: an absent one reads as two quotes.
  have offered := server.offered.resolve_left fun absent => by
    rw [absent, el_empty, el_of_ne someVers] at vers
    rw [← vers, lawful.ints_quotes] at ints
    cases ints
  have someSuite : s.m.inp.cryptosuitep ≠ "" := fun absent => by
    rw [absent, el_empty, csp, el_of_ne (int_ne _)] at suite
    have none := lawful.int p.csp
    rw [← suite, lawful.int_quotes] at none
    cases none
  obtain ⟨read, somePeerInfo, someNai⟩ := server.chosen.resolve_left someSuite
  rw [offered.1, el_of_ne (lawful.jstr_ne _), el_of_ne somePeerId] at peerId
  rw [el_of_ne someNai, peerNai, el_of_ne (lawful.jstr_ne _)] at nai
  rw [el_of_ne someSuite, csp, el_of_ne (int_ne _)] at suite
  rw [el_of_ne somePeerInfo, configured, el_of_ne (peer.peerInfo.ne_empty lawful)] at peerInfo
  rw [offered.2, el_of_ne (server.serverInfo.ne_empty lawful), el_of_ne someInfo] at serverInfo
  rw [suite, lawful.int] at read
  exact ⟨peerId, nai, (Option.some.inj read).symm, peerInfo, serverInfo⟩

/-- The runs of both machines with everything between them in an attacker's hands. -/
abbrev channel (s : Server c) (p : Peer c) (inputs : List (Server.Input c ⊕ Peer.Input c)) :=
  trace (Interleaving.step Server.step Peer.step) (s, p) inputs

/-- The bytes that the Peer receives at `v` are those that the Server sent at `u`. -/
def Carries (u : Server.Step c) (v : Peer.Step c) : Prop :=
  ∃ o bytes draws, u.output = .received (some o) ∧ o.send = some bytes ∧
    v.input = .receive draws bytes

/-- One association on both sides, and each holds the other's configured text. -/
def Agree (s : Server c) (p : Peer c) (t : Server.Step c) (r : Peer.Step c) : Prop :=
  ∃ a b, t.after.assoc = some a ∧ r.after.assoc = some b ∧ a.peerId = b.peerId ∧ a.nai = b.nai ∧
    a.cryptosuitep = b.cryptosuitep ∧ a.kz = b.kz ∧ t.after.peerInfo = p.peerInfo ∧
    r.after.serverInfo = s.serverInfo

/-- A run in which each side accepts the other's MAC: `v` verifies a MACs, `t`
accepts the MACp that `v` answers with, and `r` takes a success result. -/
structure Accepted (s : Server c) (p : Peer c) (inputs : List (Server.Input c ⊕ Peer.Input c))
    (t : Server.Step c) (v r : Peer.Step c) : Prop where
  collisionFree : CollisionFree (Interleaving.lefts (channel s p inputs))
    (Interleaving.rights (channel s p inputs))
  accepting : t ∈ Interleaving.lefts (channel s p inputs)
  verifying : v ∈ Interleaving.rights (channel s p inputs)
  reporting : r ∈ Interleaving.rights (channel s p inputs)
  verified : Peer.AcceptsMacs v
  accepted : AcceptsMacpOf t v
  reports : Peer.ReportsSuccess r

/-- When both sides accept, the Server with its NAI as negotiated and the Peer
with its fields as verified, they agree. -/
theorem associations_agree (lawful : c.Lawful) {s : Server c} {p : Peer c} (server : s.Initial)
    (peer : p.Initial) (serverInfo : c.Text s.serverInfo) (peerInfo : c.Text p.peerInfo)
    (inputs : List (Server.Input c ⊕ Peer.Input c)) {t : Server.Step c} {v r : Peer.Step c}
    (accepted : Accepted s p inputs t v r) (nai : t.before.m.inp.nai = jstr c t.before.m.nai)
    (still : StillVerified v r) : Agree s p t r := by
  obtain ⟨collisionFree, accepting, verifying, reporting, verified, accepted, reports⟩ := accepted
  rw [channel, Interleaving.lefts_trace, Interleaving.rights_trace] at collisionFree
  rw [channel, Interleaving.lefts_trace] at accepting
  rw [channel, Interleaving.rights_trace] at verifying reporting
  -- The Server's step, and the step that derived the keys it used.
  obtain ⟨first, input, rest, before, rfl⟩ := mem_trace Server.step accepting
  obtain ⟨wm, keym, received, type, verifies, carried⟩ := accepted
  obtain ⟨draws, bytes, input_eq, decoded, notice⟩ := id received
  rw [entry_input] at input_eq
  subst input_eq
  rw [entry_before] at verifies nai
  obtain ⟨d, member, derives⟩ := run_history (P := Server.KeysDerived) Server.KeysDerived.step
    (by rcases server with rfl | ⟨info, rfl⟩ <;> exact fun _ wrong => nomatch wrong) first keym
    verifies.cached
  have origin : d ∈ trace Server.step s (inputs.filterMap Sum.getLeft?) := by
    rw [before, trace_append]
    exact List.mem_append_left _ member
  have registered : ((run Server.step s first).receive draws bytes).1 =
      (run Server.step s first).registered keym :=
    congrArg Prod.fst (Server.receive_verifies decoded notice type verifies)
  -- The Peer's two steps.
  obtain ⟨first', input', rest', -, rfl⟩ := mem_trace Peer.step verifying
  obtain ⟨first'', input'', rest'', -, rfl⟩ := mem_trace Peer.step reporting
  have reported := Peer.reportsSuccess_registered reports
  have noob : (run Peer.step p first').m.noob ≠ [] := by
    obtain ⟨_, _, _, _, _, holds⟩ := verified
    exact holds.noob
  -- One MACp value, so one Kz and one array.
  have same : computeMac c keym.kmp.bytes 1 (run Server.step s first).m.inp =
      Peer.macp (entry Peer.step (run Peer.step p first') input') := by
    apply ByteArr.ext
    rw [← verifies.macp, carried]
    rfl
  obtain ⟨kz, array⟩ := macp_determines collisionFree accepting origin verifying derives
    ⟨wm, received, type, verifies⟩ verified same
  have agree := transcripts_agree lawful
    ((Server.Consistent.initial server serverInfo).run lawful first)
    ((Peer.Consistent.initial peer peerInfo).run lawful first') noob array
  refine ⟨(run Server.step s first).finish keym, (run Peer.step p first'').finish, ?_, ?_, ?_, ?_,
    ?_, ?_, ?_, ?_⟩
  · exact congrArg Server.assoc registered
  · exact congrArg Peer.assoc reported
  · have read := still.peerId
    rw [entry_before, ← agree.peerId, jstr, lawful.str] at read
    exact Option.some.inj read
  · exact (lawful.jstr_injective (nai.symm.trans agree.nai)).trans still.nai.symm
  · exact congrArg asU8 (agree.csp.trans still.csp.symm)
  · exact kz.trans (Peer.registered_kz still.kz).2.symm
  · rw [entry_after]
    calc (Server.step (run Server.step s first) (.receive draws bytes)).1.peerInfo
        = ((run Server.step s first).registered keym).peerInfo := congrArg Server.peerInfo registered
      _ = (run Peer.step p first').peerInfo := agree.peerInfo
      _ = p.peerInfo := Peer.peerInfo_run p first'
  · rw [entry_after]
    calc (Peer.step (run Peer.step p first'') input'').1.serverInfo
        = (run Peer.step p first'').registered.serverInfo := congrArg Peer.serverInfo reported
      _ = (run Peer.step p first').serverInfo := still.serverInfo
      _ = (run Server.step s first).serverInfo := agree.serverInfo.symm
      _ = s.serverInfo := Server.serverInfo_run s first

/-! ## An exchange with an open discovery -/

namespace Exchange

variable (x : Exchange c)

/-- Both runs in the order of the protocol, with `discovery` as the answer to
the discovery request of the Completion Exchange. -/
def inputs (noob discovery : Bytes) (w : Wire) : List (Server.Input c ⊕ Peer.Input c) :=
  [.inr (.receive x.peerDraws (c.encodeWire discoveryRequest)),
    .inl (.receive x.naming (c.encodeWire x.peerFresh.discoveryResponse)),
    .inr (.receive x.peerDraws (c.encodeWire x.serverOffering.negotiationRequest)),
    .inl (.receive x.serverDraws (c.encodeWire x.negotiationResponse)),
    .inr (.receive x.peerDraws (c.encodeWire x.serverKeyed.keyExchangeRequest)),
    .inl (.receive x.serverDraws (c.encodeWire x.peerKeyed.keyExchangeResponse)),
    .inl (.oobOutputWith noob),
    .inr (.oobInputNoob noob),
    .inr (.receive x.peerDraws (c.encodeWire discoveryRequest)),
    .inl (.receive x.serverDraws discovery),
    .inr (.receive x.peerDraws (c.encodeWire (x.serverResumed noob w).noobIdRequest)),
    .inl (.receive x.serverDraws (c.encodeWire (x.peerArmed noob).noobIdResponse)),
    .inr (.receive x.peerDraws (c.encodeWire (x.serverResumed noob w).completionRequest)),
    .inl (.receive x.serverDraws (c.encodeWire (x.peerArmed noob).completionResponse)),
    .inr x.peerResult]

theorem lefts_channel (noob discovery : Bytes) (w : Wire) :
    Interleaving.lefts (channel x.serverFresh x.peerFresh (x.inputs noob discovery w)) =
      trace Server.step x.serverFresh (x.serverInputs noob discovery) :=
  Interleaving.lefts_trace _ _ _ _

theorem rights_channel (noob discovery : Bytes) (w : Wire) :
    Interleaving.rights (channel x.serverFresh x.peerFresh (x.inputs noob discovery w)) =
      trace Peer.step x.peerFresh (x.peerInputs noob w ++ [x.peerResult]) :=
  Interleaving.rights_trace _ _ _ _

def computing (noob : Bytes) (w : Wire) : Server.Step c :=
  entry Server.step (x.serverResumed noob w)
    (.receive x.serverDraws (c.encodeWire (x.peerArmed noob).noobIdResponse))

def accepting (noob : Bytes) (w : Wire) : Server.Step c :=
  entry Server.step (x.serverResumed noob w).derived
    (.receive x.serverDraws (c.encodeWire (x.peerArmed noob).completionResponse))

def verifying (noob : Bytes) (w : Wire) : Peer.Step c :=
  entry Peer.step (x.peerArmed noob)
    (.receive x.peerDraws (c.encodeWire (x.serverResumed noob w).completionRequest))

def reporting (noob : Bytes) : Peer.Step c :=
  entry Peer.step (x.peerArmed noob).derived x.peerResult

section

variable {x} {noob discovery : Bytes} {w : Wire} (lawful : c.Lawful) (long : noob.length = 16)
  (decoded : c.decodeWire discovery = some w) (notice : w.errorCode = none)
  (type : w.type = some 1) (peerState : w.peerState = some 2)

include lawful long in
theorem peerSteps_eq : trace Peer.step x.peerFresh (x.peerInputs noob w ++ [x.peerResult]) =
    List.zipWith (entry Peer.step) (x.peerStates noob) (x.peerInputs noob w) ++
      [x.reporting noob] := by
  rw [trace_append, x.peer_run lawful w long, x.peer_trace lawful w long]
  rfl

include lawful long in
theorem verified_before {v : Peer.Step c}
    (member : v ∈ trace Peer.step x.peerFresh (x.peerInputs noob w ++ [x.peerResult]))
    (verified : Peer.AcceptsMacs v) : v.before = x.peerArmed noob := by
  obtain ⟨wm, received, result, -, type, -⟩ := verified
  rw [peerSteps_eq lawful long, List.mem_append, List.mem_singleton] at member
  rcases member with before | rfl
  · exact (x.peer_receives lawful before received).2 type
  · rw [received.unique (lawful.wire _ (by simp [Wire.raws]))] at result
    cases result

include lawful long decoded notice type peerState in
theorem collisionFree :
    CollisionFree (trace Server.step x.serverFresh (x.serverInputs noob discovery))
      (trace Peer.step x.peerFresh (x.peerInputs noob w ++ [x.peerResult])) := by
  have steps := x.server_trace lawful long decoded notice type peerState
  have macp {key data : Bytes}
      (input : MacpInput (trace Server.step x.serverFresh (x.serverInputs noob discovery))
        (trace Peer.step x.peerFresh (x.peerInputs noob w ++ [x.peerResult])) key data) :
      key = (x.peerArmed noob).m.keys.kmp.bytes ∧
        data = noobArray (toString (1 : Int64)) (x.peerArmed noob).m.inp := by
    cases input with
    | server member accepts =>
      obtain ⟨wm, received, six, verifies⟩ := accepts
      rw [steps] at member
      have before := (x.server_receives lawful decoded type member received).2 six
      rw [before] at verifies ⊢
      rw [← x.armed_inp lawful noob, ← Option.some.inj verifies.cached]
      exact ⟨rfl, rfl⟩
    | peer member verified =>
      rw [verified_before lawful long member verified]
      exact ⟨rfl, rfl⟩
  have kmp {b : Bytes}
      (input : KmpInput (trace Server.step x.serverFresh (x.serverInputs noob discovery))
        (trace Peer.step x.peerFresh (x.peerInputs noob w ++ [x.peerResult])) b) :
      b = beBytes32 9 ++ (x.peerArmed noob).m.kdfInput := by
    cases input with
    | server member derives =>
      rw [steps] at member
      rcases x.server_keyed lawful long decoded notice type peerState member
        (by rw [derives.2]; nofun) with before | before <;> rw [before] <;> rfl
    | peer member verified => rw [verified_before lawful long member verified]
  constructor
  · intro key data key' data' first second _
    exact ⟨(macp first).1.trans (macp second).1.symm, (macp first).2.trans (macp second).2.symm⟩
  · intro first second left right _
    exact (kmp left).trans (kmp right).symm

include lawful long decoded notice type peerState in
theorem accepting_mem :
    x.accepting noob w ∈ trace Server.step x.serverFresh (x.serverInputs noob discovery) := by
  rw [x.server_trace lawful long decoded notice type peerState]
  simp [serverStates, serverInputs, accepting]

include lawful long in
theorem verifying_mem :
    x.verifying noob w ∈ trace Peer.step x.peerFresh (x.peerInputs noob w ++ [x.peerResult]) := by
  rw [peerSteps_eq lawful long]
  simp [peerStates, peerInputs, verifying]

include lawful long in
theorem reporting_mem :
    x.reporting noob ∈ trace Peer.step x.peerFresh (x.peerInputs noob w ++ [x.peerResult]) := by
  rw [peerSteps_eq lawful long]
  simp

include lawful long in
theorem acceptsMacs : Peer.AcceptsMacs (x.verifying noob w) :=
  ⟨_, ⟨_, _, rfl, (x.serverResumed noob w).decode_completionRequest lawful⟩, rfl, rfl, rfl,
    x.macs_verify lawful w (ne_nil_of_length long)⟩

include lawful in
theorem carries : Carries (x.computing noob w) (x.verifying noob w) :=
  ⟨sendWire c (x.serverResumed noob w).completionRequest, _, _,
    congrArg (fun result : Server c × _ => Server.Output.received result.2)
      (x.server_matches lawful x.serverDraws noob w), rfl, rfl⟩

include lawful in
theorem acceptsMacp : AcceptsMacpOf (x.accepting noob w) (x.verifying noob w) :=
  ⟨_, _, ⟨_, _, rfl, x.decode_macp lawful noob, rfl⟩, rfl, x.macp_verifies lawful noob w,
    lawful.parseB64_jstr _⟩

include lawful in
theorem reports : Peer.ReportsSuccess (x.reporting noob) :=
  ⟨{ done := true, success := true },
    congrArg (fun result : Peer c × _ => Peer.Output.received result.2) (x.peer_registers lawful x.peerDraws noob), rfl⟩

include lawful long decoded notice type peerState in
theorem accepted : Accepted x.serverFresh x.peerFresh (x.inputs noob discovery w)
    (x.accepting noob w) (x.verifying noob w) (x.reporting noob) := by
  constructor
  · rw [x.lefts_channel, x.rights_channel]
    exact collisionFree lawful long decoded notice type peerState
  · rw [x.lefts_channel]
    exact accepting_mem lawful long decoded notice type peerState
  · rw [x.rights_channel]
    exact verifying_mem lawful long
  · rw [x.rights_channel]
    exact reporting_mem lawful long
  · exact acceptsMacs lawful long
  · exact acceptsMacp lawful
  · exact reports lawful

theorem initial : x.serverFresh.Initial ∧ x.peerFresh.Initial := ⟨.inr ⟨_, rfl⟩, .inr ⟨_, rfl⟩⟩

theorem texts : c.Text x.serverFresh.serverInfo ∧ c.Text x.peerFresh.peerInfo :=
  ⟨x.serverText, x.peerText⟩

theorem stillVerified (lawful : c.Lawful) :
    StillVerified (x.verifying noob w) (x.reporting noob) :=
  ⟨lawful.str _, rfl, rfl, rfl, rfl⟩

include lawful in
/-- An unaltered discovery carries the negotiated NAI. -/
theorem nai_eq : (x.accepting noob (x.peerArmed noob).discoveryResponse).before.m.inp.nai =
    jstr c (x.accepting noob (x.peerArmed noob).discoveryResponse).before.m.nai := by
  have read : parseStr c (x.peerArmed noob).discoveryResponse.nai = some defaultNai :=
    lawful.parseStr_jstr _
  have heard : (x.serverResumed noob (x.peerArmed noob).discoveryResponse).m.nai = defaultNai := by
    simp only [serverResumed, Server.heard, read, Option.getD_some]
    decide
  have negotiated : x.serverWaiting.m.inp.nai = jstr c defaultNai :=
    congrArg (jstr c) (x.serverWaiting_nai lawful)
  exact negotiated.trans (congrArg (jstr c) heard.symm)

include lawful in
theorem accepting_assoc : (x.accepting noob w).after.assoc =
    some ((x.serverResumed noob w).finish (x.serverArmed noob).m.keys) :=
  congrArg (fun result => result.1.assoc) (x.server_registers lawful x.serverDraws noob w)

include lawful in
theorem reporting_assoc : (x.reporting noob).after.assoc = some (x.peerArmed noob).derived.finish :=
  congrArg (fun result => result.1.assoc) (x.peer_registers lawful x.peerDraws noob)

end

end Exchange

/-- The exchange of the reference parties. -/
theorem associations_agree_exchange :
    Agree Reference.exchange.serverFresh Reference.exchange.peerFresh
      (Reference.exchange.accepting Reference.noob Reference.discovery)
      (Reference.exchange.reporting Reference.noob) :=
  associations_agree Reference.lawful Exchange.initial.1 Exchange.initial.2 Exchange.texts.1
    Exchange.texts.2 _
    (Exchange.accepted Reference.lawful Reference.length_noob
      (Reference.exchange.decode_resumed Reference.lawful _) rfl rfl rfl)
    (Exchange.nai_eq Reference.lawful) (Exchange.stillVerified Reference.lawful)

/-! ### An altered discovery -/

namespace Exchange

variable (x : Exchange c)

def altered (noob : Bytes) (nai : String) : Wire :=
  { (x.peerArmed noob).discoveryResponse with nai := some (jstr c nai) }

variable (lawful : c.Lawful)
include lawful

theorem decode_altered (noob : Bytes) (nai : String) :
    c.decodeWire (c.encodeWire (x.altered noob nai)) = some (x.altered noob nai) := by
  refine lawful.wire _ ?_
  simp only [altered, Peer.discoveryResponse, Wire.raws]
  split <;> simp [lawful.text_jstr]

/-- The Server takes the altered NAI into its association. -/
theorem altered_disagrees {noob : Bytes} {nai : String} (given : nai.isEmpty = false)
    (other : nai ≠ defaultNai) :
    ¬ Agree x.serverFresh x.peerFresh (x.accepting noob (x.altered noob nai))
      (x.reporting noob) := by
  rintro ⟨a, b, left, right, -, same, -⟩
  have read : parseStr c (x.altered noob nai).nai = some nai := lawful.parseStr_jstr _
  have heard : (x.serverResumed noob (x.altered noob nai)).m.nai = nai := by
    simp only [serverResumed, Server.heard, read, Option.getD_some, given, Bool.false_eq_true,
      if_false]
  rw [accepting_assoc lawful] at left
  rw [reporting_assoc lawful] at right
  rw [← Option.some.inj left, ← Option.some.inj right] at same
  exact other (heard.symm.trans same)

end Exchange

/-- An altered NAI in the discovery of the Completion Exchange ends up in one association only. -/
theorem altered_nai_disagrees :
    Accepted Reference.exchange.serverFresh Reference.exchange.peerFresh
      (Reference.exchange.inputs Reference.noob
        (Reference.crates.encodeWire (Reference.exchange.altered Reference.noob "guest@eap-noob.arpa"))
        (Reference.exchange.altered Reference.noob "guest@eap-noob.arpa"))
      (Reference.exchange.accepting Reference.noob
        (Reference.exchange.altered Reference.noob "guest@eap-noob.arpa"))
      (Reference.exchange.verifying Reference.noob
        (Reference.exchange.altered Reference.noob "guest@eap-noob.arpa"))
      (Reference.exchange.reporting Reference.noob) ∧
    Carries (Reference.exchange.computing Reference.noob
        (Reference.exchange.altered Reference.noob "guest@eap-noob.arpa"))
      (Reference.exchange.verifying Reference.noob
        (Reference.exchange.altered Reference.noob "guest@eap-noob.arpa")) ∧
    ¬ Agree Reference.exchange.serverFresh Reference.exchange.peerFresh
      (Reference.exchange.accepting Reference.noob
        (Reference.exchange.altered Reference.noob "guest@eap-noob.arpa"))
      (Reference.exchange.reporting Reference.noob) :=
  ⟨Exchange.accepted Reference.lawful Reference.length_noob
      (Reference.exchange.decode_altered Reference.lawful _ _) rfl rfl rfl,
    Exchange.carries Reference.lawful, Reference.exchange.altered_disagrees Reference.lawful (by decide) (by decide)⟩

end OpenPair
