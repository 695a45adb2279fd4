import OpenPair.Pairing.Exchange

/-! Whether the transcript holds the texts that crossed the wire.

Each element of the MAC input is written with the message that carries it: a
received field is copied, the Server's NAI excepted, which is read when it is
heard and written anew once the negotiation is accepted.
-/

set_option autoImplicit false

namespace OpenPair

open Transition

variable {c : Crates}

variable (c) in
/-- The message that an outcome sends, as the other side reads it. -/
def OnWire (out : Option Outcome) (w : Wire) : Prop :=
  ∃ o bytes, out = some o ∧ o.send = some bytes ∧ c.decodeWire bytes = some w

/-- A field that is present is copied as it stands. -/
def Copies (field : Option String) (element : String) : Prop := ∀ t, field = some t → element = t

theorem Copies.get (field : Option String) : Copies field (OpenPair.get field) := by
  rintro t rfl
  rfl

theorem OnWire.eq {sent w : Wire} (decoded : c.decodeWire (c.encodeWire sent) = some sent)
    (wire : OnWire c (some (sendWire c sent)) w) : w = sent := by
  obtain ⟨o, bytes, same, sends, read⟩ := wire
  cases same
  cases sends
  exact Option.some.inj (read.symm.trans decoded)

theorem Copies.ensureObj (lawful : c.Lawful) {bytes : Bytes} {wm : Wire} {field : Option String}
    (decoded : c.decodeWire bytes = some wm) (member : ∀ t, field = some t → some t ∈ wm.raws) :
    Copies field (OpenPair.ensureObj (OpenPair.get field)) := by
  rintro t rfl
  have text := lawful.member decoded (member t rfl)
  simp [OpenPair.ensureObj, OpenPair.get, text.ne_empty lawful]

namespace MacInputs

def offerPart (m : MacInputs) : MacInputs :=
  { vers := m.vers, peerId := m.peerId, cryptosuites := m.cryptosuites, dirs := m.dirs
    serverInfo := m.serverInfo }

def choicePart (m : MacInputs) : MacInputs :=
  { verp := m.verp, cryptosuitep := m.cryptosuitep, dirp := m.dirp, peerInfo := m.peerInfo
    nai := m.nai }

def serverKeyPart (m : MacInputs) : MacInputs := { pks := m.pks, ns := m.ns }

def peerKeyPart (m : MacInputs) : MacInputs := { pkp := m.pkp, np := m.np }

end MacInputs

/-! ## The elements of one message -/

namespace Wire

def HasOffer (w : Wire) (inp : MacInputs) : Prop :=
  w.vers = some inp.vers ∧ w.peerId = some inp.peerId ∧ w.cryptosuites = some inp.cryptosuites ∧
    w.dirs = some inp.dirs ∧ w.serverInfo = some inp.serverInfo

/-- The elements of an offer are copied from the message. -/
def CopiesOffer (w : Wire) (inp : MacInputs) : Prop :=
  Copies w.vers inp.vers ∧ Copies w.peerId inp.peerId ∧ Copies w.cryptosuites inp.cryptosuites ∧
    Copies w.dirs inp.dirs ∧ Copies w.serverInfo inp.serverInfo

/-- The message has the elements of a choice, the NAI excepted. -/
def HasChoice (w : Wire) (inp : MacInputs) : Prop :=
  w.verp = some inp.verp ∧ w.cryptosuitep = some inp.cryptosuitep ∧ w.dirp = some inp.dirp ∧
    w.peerInfo = some inp.peerInfo

/-- The elements of a choice, the NAI excepted, are copied from the message. -/
def CopiesChoice (w : Wire) (inp : MacInputs) : Prop :=
  Copies w.verp inp.verp ∧ Copies w.cryptosuitep inp.cryptosuitep ∧ Copies w.dirp inp.dirp ∧
    Copies w.peerInfo inp.peerInfo

def HasServerKey (w : Wire) (inp : MacInputs) : Prop :=
  w.pks = some inp.pks ∧ w.ns = some inp.ns

def CopiesServerKey (w : Wire) (inp : MacInputs) : Prop :=
  Copies w.pks inp.pks ∧ Copies w.ns inp.ns

def HasPeerKey (w : Wire) (inp : MacInputs) : Prop :=
  w.pkp = some inp.pkp ∧ w.np = some inp.np

def CopiesPeerKey (w : Wire) (inp : MacInputs) : Prop :=
  Copies w.pkp inp.pkp ∧ Copies w.np inp.np

end Wire

/-! ## The Server -/

namespace Server

/-- The step sends this message, as the other side reads it. -/
def Emits (e : Step c) (w : Wire) : Prop := ∃ out, e.output = .received out ∧ OnWire c out w

/-- The step hears a NAI of this text, which reads as this string. -/
def HearsNai (e : Step c) (t nai : String) : Prop :=
  ∃ wm, Receives e wm ∧ wm.type = some 1 ∧ wm.nai = some t ∧ parseStr c wm.nai = some nai

def Hears (e : Step c) : Prop := ∃ t nai, HearsNai e t nai

def MakesOffer (e : Step c) : Prop :=
  ∃ wm, Receives e wm ∧ wm.type = some 1 ∧ (e.before.heard wm).RestartsNegotiation

def AcceptsChoice (e : Step c) : Prop :=
  ∃ wm, Receives e wm ∧ wm.type = some 2 ∧ ∃ csp dirp suite,
    e.before.Negotiates wm csp dirp ∧ Suite.fromId (asU8 csp) = some suite

/-- Every element but the NAI is the text of its field in the last message that carried it. -/
structure Copied (history : List (Step c)) (inp : MacInputs) : Prop where
  offer : ∀ earlier d w, LastAt MakesOffer history earlier d → Emits d w → w.HasOffer inp
  choice : ∀ earlier d wm, LastAt AcceptsChoice history earlier d → Receives d wm →
    wm.CopiesChoice inp
  key : ∀ earlier d w, LastAt AcceptsChoice history earlier d → Emits d w → w.HasServerKey inp
  peerKey : ∀ earlier d wm, LastAt CompletesKeyExchange history earlier d → Receives d wm →
    wm.CopiesPeerKey inp

/-- Every element is the text of its field in the last message that carried it; the NAI
is that of the last one heard before the choice was accepted. -/
structure Verbatim (history : List (Step c)) (inp : MacInputs) : Prop extends
    Copied history inp where
  nai : ∀ earlier d before n t nai, LastAt AcceptsChoice history earlier d →
    LastAt Hears earlier before n → HearsNai n t nai → inp.nai = t

/-- The last NAI heard before the choice was accepted is spelled as the serialiser
spells it, and is not empty. -/
def NaiCanonical (history : List (Step c)) : Prop :=
  ∀ earlier d before n t nai, LastAt AcceptsChoice history earlier d →
    LastAt Hears earlier before n → HearsNai n t nai → t = jstr c nai ∧ nai ≠ ""

/-! ### One step -/

theorem Effect.offerPart {s t : Server c} {draws : Draws c} {wm : Wire} {out : Option Outcome}
    (effect : s.Effect draws wm t out) (other : ¬ (wm.errorCode = none ∧ wm.type = some 1 ∧
      (s.heard wm).RestartsNegotiation)) : t.m.inp.offerPart = s.m.inp.offerPart := by
  -- Only a new offer writes these elements.
  cases effect with
  | offered notice type restarts => exact (other ⟨notice, type, restarts⟩).elim
  | _ => rfl

theorem Effect.choicePart {s t : Server c} {draws : Draws c} {wm : Wire} {out : Option Outcome}
    (effect : s.Effect draws wm t out) (other : ¬ (wm.errorCode = none ∧ wm.type = some 2 ∧
      ∃ csp dirp suite, s.Negotiates wm csp dirp ∧ Suite.fromId (asU8 csp) = some suite)) :
    t.m.inp.choicePart = s.m.inp.choicePart ∧ t.m.inp.serverKeyPart = s.m.inp.serverKeyPart := by
  -- The choice and the Server's own key are written together.
  cases effect with
  | negotiated notice type negotiates known =>
    exact (other ⟨notice, type, _, _, _, negotiates, known⟩).elim
  | _ => exact ⟨rfl, rfl⟩

theorem Effect.peerKeyPart {s t : Server c} {draws : Draws c} {wm : Wire} {out : Option Outcome}
    (effect : s.Effect draws wm t out) (other : ¬ (wm.errorCode = none ∧ wm.type = some 3 ∧
      ∃ keypair z np, s.Exchanges wm keypair z np)) :
    t.m.inp.peerKeyPart = s.m.inp.peerKeyPart := by
  cases effect with
  | exchanged notice type exchanges => exact (other ⟨notice, type, _, _, _, exchanges⟩).elim
  | _ => rfl

theorem step_part {Part : Type} (part : Server c → Part) {s : Server c} {input : Input c}
    (noob : ∀ noob, part { s with m := s.m.setNoob noob } = part s)
    (effect : ∀ draws bytes wm t out, input = .receive draws bytes → c.decodeWire bytes = some wm →
      s.Effect draws wm t out → part t = part s) : part (s.step input).1 = part s := by
  -- Of the calls that are no message, only a new out-of-band value changes the Server.
  rcases s.step_cases input with ⟨same, -⟩ | ⟨noob', -, -, -, -, after⟩ |
    ⟨draws, bytes, wm, out, called, decoded, -, effect'⟩
  · rw [same]
  · rw [after]
    exact noob noob'
  · exact effect draws bytes wm _ out called decoded effect'

variable {s : Server c} {input : Input c}

theorem step_offerPart (other : ¬ MakesOffer (entry step s input)) :
    (s.step input).1.m.inp.offerPart = s.m.inp.offerPart := by
  apply step_part (fun t => t.m.inp.offerPart) (fun _ => rfl)
  rintro draws bytes wm t out rfl decoded effect
  apply effect.offerPart
  rintro ⟨notice, type, restarts⟩
  exact other ⟨wm, ⟨draws, bytes, rfl, decoded, notice⟩, type, restarts⟩

theorem step_choicePart (other : ¬ AcceptsChoice (entry step s input)) :
    (s.step input).1.m.inp.choicePart = s.m.inp.choicePart ∧
      (s.step input).1.m.inp.serverKeyPart = s.m.inp.serverKeyPart := by
  apply Prod.mk.inj
  apply step_part (fun t => (t.m.inp.choicePart, t.m.inp.serverKeyPart)) (fun _ => rfl)
  rintro draws bytes wm t out rfl decoded effect
  apply Prod.ext_iff.mpr
  apply effect.choicePart
  rintro ⟨notice, type, accepts⟩
  exact other ⟨wm, ⟨draws, bytes, rfl, decoded, notice⟩, type, accepts⟩

theorem step_peerKeyPart (other : ¬ CompletesKeyExchange (entry step s input)) :
    (s.step input).1.m.inp.peerKeyPart = s.m.inp.peerKeyPart := by
  apply step_part (fun t => t.m.inp.peerKeyPart) (fun _ => rfl)
  rintro draws bytes wm t out rfl decoded effect
  apply effect.peerKeyPart
  rintro ⟨notice, type, keypair, z, np, exchanges⟩
  exact other ⟨wm, keypair, z, np, ⟨draws, bytes, rfl, decoded, notice⟩, type, exchanges⟩

theorem Emits.eq (lawful : c.Lawful) {t : Server c} {draws : Draws c} {bytes : Bytes}
    {sent w : Wire} (emits : Emits (entry step s (.receive draws bytes)) w)
    (answer : s.receive draws bytes = (t, some (sendWire c sent)))
    (texts : ∀ text, some text ∈ sent.raws → c.Text text) : w = sent := by
  obtain ⟨out, same, wire⟩ := emits
  obtain rfl : (s.receive draws bytes).2 = out := Output.received.inj same
  rw [answer] at wire
  exact wire.eq (lawful.wire _ texts)

theorem MakesOffer.emits (lawful : c.Lawful) (text : c.Text s.serverInfo)
    (offers : MakesOffer (entry step s input)) {w : Wire} (emits : Emits (entry step s input) w) :
    w.HasOffer (s.step input).1.m.inp := by
  obtain ⟨wm, ⟨draws, bytes, called, decoded, notice⟩, type, restarts⟩ := offers
  obtain rfl : input = .receive draws bytes := called
  have restarts : (s.heard wm).RestartsNegotiation := restarts
  have answer : s.receive draws bytes = _ :=
    receive_restarts lawful decoded notice type restarts text
  have texts : ∀ t, some t ∈ ((s.heard wm).offered draws).negotiationRequest.raws → c.Text t := by
    have info : c.Text (s.heard wm).serverInfo := text
    simp only [negotiationRequest, offered, Wire.raws]
    simp [lawful.text_ints, lawful.text_int, lawful.text_jstr, info]
  rw [emits.eq lawful answer texts, step, answer]
  exact ⟨rfl, rfl, rfl, rfl, rfl⟩

theorem AcceptsChoice.step (lawful : c.Lawful) (accepts : AcceptsChoice (entry step s input)) :
    (∀ wm, Receives (entry Server.step s input) wm → wm.CopiesChoice (s.step input).1.m.inp) ∧
      (∀ w, Emits (entry Server.step s input) w → w.HasServerKey (s.step input).1.m.inp) ∧
      (s.step input).1.m.inp.nai = jstr c s.m.nai := by
  obtain ⟨wm, ⟨draws, bytes, called, decoded, notice⟩, type, csp, dirp, suite, negotiates, known⟩ :=
    accepts
  obtain rfl : input = .receive draws bytes := called
  have negotiates : s.Negotiates wm csp dirp := negotiates
  have answer : s.receive draws bytes = _ :=
    receive_negotiates lawful decoded notice type negotiates known
  have after : (s.step (.receive draws bytes)).1 = (s.negotiated wm csp dirp).keyed suite draws :=
    congrArg Prod.fst answer
  -- The handler reads the choice and sends its own key in one step.
  refine ⟨fun wm' received => ?_, fun w emits => ?_, ?_⟩
  · obtain rfl := received.unique decoded
    rw [after]
    exact ⟨.get _, .get _, .get _, .ensureObj lawful decoded fun t same => by simp [Wire.raws, same]⟩
  · have texts : ∀ t, some t ∈ ((s.negotiated wm csp dirp).keyed suite draws).keyExchangeRequest.raws →
        c.Text t := by
      simp only [keyExchangeRequest, keyed, Wire.raws]
      simp [lawful.text_jwk, lawful.text_jstr]
    rw [emits.eq lawful answer texts, after]
    exact ⟨rfl, rfl⟩
  · rw [after]
    rfl

theorem CompletesKeyExchange.step (completes : CompletesKeyExchange (entry step s input))
    {wm : Wire} (received : Receives (entry Server.step s input) wm) :
    wm.CopiesPeerKey (s.step input).1.m.inp := by
  obtain ⟨wm', keypair, z, np, ⟨draws, bytes, called, decoded, notice⟩, type, exchanges⟩ := completes
  obtain rfl : input = .receive draws bytes := called
  obtain rfl := received.unique decoded
  have exchanges : s.Exchanges wm keypair z np := exchanges
  rw [Server.step, receive_exchanges decoded notice type exchanges]
  exact ⟨.get _, .get _⟩

/-! ### The NAI -/

def keptNai (nai : String) : String := if nai.isEmpty then defaultNai else nai

theorem keptNai_ne (nai : String) : keptNai nai ≠ "" := by
  unfold keptNai
  split
  · decide
  · next some => simpa using some

theorem onDiscovery_nai (s : Server c) (draws : Draws c) (wm : Wire) :
    (s.onDiscovery draws wm).1.m.nai = keptNai ((parseStr c wm.nai).getD s.m.nai) := by
  unfold onDiscovery
  dsimp only
  split
  · unfold startCompletion
    split
    · rfl
    · split
      · rfl
      · rfl
  · split
    · rfl
    · split
      · rfl
      · rfl

theorem HearsNai.step {t nai : String} (hears : HearsNai (entry step s input) t nai) :
    (s.step input).1.m.nai = keptNai nai := by
  obtain ⟨wm, ⟨draws, bytes, called, decoded, notice⟩, type, -, read⟩ := hears
  obtain rfl : input = .receive draws bytes := called
  have dispatched : s.receive draws bytes = s.onDiscovery draws wm := by
    rw [receive_eq decoded]
    simp [dispatch, notice, type]
  rw [Server.step, dispatched, onDiscovery_nai, read, Option.getD_some]

theorem Effect.nai {s t : Server c} {draws : Draws c} {wm : Wire} {out : Option Outcome}
    (effect : s.Effect draws wm t out) (unheard : ¬ (wm.errorCode = none ∧ wm.type = some 1 ∧
      ∃ nai, parseStr c wm.nai = some nai)) (held : s.m.nai ≠ "") : t.m.nai = s.m.nai := by
  have kept (notice : wm.errorCode = none) (type : wm.type = some 1) :
      (s.heard wm).m.nai = s.m.nai := by
    have unread : parseStr c wm.nai = none := by
      by_contra read
      exact unheard ⟨notice, type, Option.ne_none_iff_exists'.mp read⟩
    simp [Server.heard, unread, held]
  -- A Discovery response without a NAI leaves the one held, which is not empty.
  cases effect with
  | heard notice type => exact kept notice type
  | offered notice type => exact kept notice type
  | resumed notice type => exact kept notice type
  | _ => rfl

theorem step_nai (other : ¬ Hears (entry step s input)) (held : s.m.nai ≠ "") :
    (s.step input).1.m.nai = s.m.nai := by
  apply step_part (fun t => t.m.nai) (fun _ => rfl)
  rintro draws bytes wm t out rfl decoded effect
  apply effect.nai _ held
  rintro ⟨notice, type, nai, read⟩
  obtain ⟨text, carried, -⟩ := Option.bind_eq_some_iff.mp read
  exact other ⟨text, nai, wm, ⟨draws, bytes, rfl, decoded, notice⟩, type, carried, read⟩

/-! ### The whole run -/

/-- What the history says about the elements and about the NAI held. -/
structure Tracked (history : List (Step c)) (s : Server c) : Prop where
  text : c.Text s.serverInfo
  copied : Copied history s.m.inp
  heard : ∀ before n t nai, LastAt Hears history before n → HearsNai n t nai →
    s.m.nai = keptNai nai
  chosen : ∀ earlier d, LastAt AcceptsChoice history earlier d → s.m.inp.nai = jstr c d.before.m.nai ∧
    ∀ before n t nai, LastAt Hears earlier before n → HearsNai n t nai →
      d.before.m.nai = keptNai nai

theorem Tracked.initial {s : Server c} (text : c.Text s.serverInfo) : Tracked [] s := by
  have empty {kind : Step c → Prop} {earlier : List (Step c)} {d : Step c} :
      ¬ LastAt kind [] earlier d := fun last => (List.not_mem_nil last.mem).elim
  exact ⟨text, ⟨fun _ _ _ last => (empty last).elim, fun _ _ _ last => (empty last).elim,
    fun _ _ _ last => (empty last).elim, fun _ _ _ last => (empty last).elim⟩,
    fun _ _ _ _ last => (empty last).elim, fun _ _ last => (empty last).elim⟩

theorem Copied.step (lawful : c.Lawful) (history : List (Step c)) (s : Server c) (input : Input c)
    (text : c.Text s.serverInfo) (copied : Copied history s.m.inp) :
    Copied (history ++ [entry Server.step s input]) (s.step input).1.m.inp := by
  -- Each element is written by the step that establishes it, and a step that does not leaves the
  -- part of the transcript it is in as it stands.
  refine ⟨?_, ?_, ?_, ?_⟩
  · intro earlier d w last emits
    rcases last.concat_cases with ⟨offers, rfl, -⟩ | ⟨other, last⟩
    · exact offers.emits lawful text emits
    · change w.HasOffer (s.step input).1.m.inp.offerPart
      rw [step_offerPart other]
      exact copied.offer earlier d w last emits
  · intro earlier d wm last received
    rcases last.concat_cases with ⟨accepts, rfl, -⟩ | ⟨other, last⟩
    · exact (accepts.step lawful).1 wm received
    · change wm.CopiesChoice (s.step input).1.m.inp.choicePart
      rw [(step_choicePart other).1]
      exact copied.choice earlier d wm last received
  · intro earlier d w last emits
    rcases last.concat_cases with ⟨accepts, rfl, -⟩ | ⟨other, last⟩
    · exact (accepts.step lawful).2.1 w emits
    · change w.HasServerKey (s.step input).1.m.inp.serverKeyPart
      rw [(step_choicePart other).2]
      exact copied.key earlier d w last emits
  · intro earlier d wm last received
    rcases last.concat_cases with ⟨completes, rfl, -⟩ | ⟨other, last⟩
    · exact completes.step received
    · change wm.CopiesPeerKey (s.step input).1.m.inp.peerKeyPart
      rw [step_peerKeyPart other]
      exact copied.peerKey earlier d wm last received

theorem Tracked.step (lawful : c.Lawful) (history : List (Step c)) (s : Server c) (input : Input c)
    (tracked : Tracked history s) :
    Tracked (history ++ [entry Server.step s input]) (s.step input).1 := by
  refine ⟨?_, tracked.copied.step lawful history s input tracked.text, ?_, ?_⟩
  · rw [serverInfo_step]
    exact tracked.text
  · intro before n t nai last hears
    rcases last.concat_cases with ⟨-, rfl, -⟩ | ⟨other, last⟩
    · exact hears.step
    · have held := tracked.heard before n t nai last hears
      rw [step_nai other (by rw [held]; exact keptNai_ne nai), held]
  · intro earlier d last
    rcases last.concat_cases with ⟨accepts, rfl, rfl⟩ | ⟨other, last⟩
    · -- The choice writes the NAI held, which is the last one heard.
      exact ⟨(accepts.step lawful).2.2, tracked.heard⟩
    · change (s.step input).1.m.inp.choicePart.nai = _ ∧ _
      rw [(step_choicePart other).1]
      exact tracked.chosen earlier d last

/-- The elements are verbatim exactly where the NAI is spelled as the serialiser spells it. -/
theorem Tracked.verbatim_iff (lawful : c.Lawful) {history : List (Step c)} {s : Server c}
    (tracked : Tracked history s) : Verbatim history s.m.inp ↔ NaiCanonical history := by
  constructor
  · intro verbatim earlier d before n t nai last heard hears
    obtain ⟨element, held⟩ := tracked.chosen earlier d last
    have copied := verbatim.nai earlier d before n t nai last heard hears
    -- The element is the held NAI written anew, so the text heard is that spelling.
    rw [element, held before n t nai heard hears] at copied
    obtain ⟨wm, -, -, carried, read⟩ := hears
    rw [carried, ← copied, lawful.parseStr_jstr] at read
    have some : nai ≠ "" := Option.some.inj read ▸ keptNai_ne nai
    rw [← copied, Option.some.inj read]
    exact ⟨rfl, some⟩
  · intro canonical
    refine ⟨tracked.copied, ?_⟩
    intro earlier d before n t nai last heard hears
    obtain ⟨spelled, some⟩ := canonical earlier d before n t nai last heard hears
    obtain ⟨element, held⟩ := tracked.chosen earlier d last
    rw [element, held before n t nai heard hears, spelled, keptNai, if_neg (by simpa using some)]

end Server

/-! ## The Peer -/

namespace Peer

/-- The step sends this message, as the other side reads it. -/
def Emits (e : Step c) (w : Wire) : Prop := ∃ out, e.output = .received out ∧ OnWire c out w

/-- The step answers a Discovery request, with the NAI held. -/
def Discovers (e : Step c) : Prop :=
  ∃ wm, Receives e wm ∧ wm.eap = none ∧ wm.errorCode = none ∧ wm.type = some 1

def AcceptsOffer (e : Step c) : Prop :=
  ∃ wm, Receives e wm ∧ wm.eap = none ∧ wm.errorCode = none ∧ wm.type = some 2 ∧
    ∃ peerId verp csp dirp, e.before.Negotiates wm peerId verp csp dirp

/-- The step accepts an offer that assigns this NAI. -/
def RenamesTo (e : Step c) (nai : String) : Prop :=
  AcceptsOffer e ∧ ∃ wm, Receives e wm ∧ parseStr c wm.newNai = some nai

def Renames (e : Step c) : Prop := ∃ nai, RenamesTo e nai

/-- The step sends the NAI held or replaces it. -/
def NamesNai (e : Step c) : Prop := Discovers e ∨ Renames e

def AcceptsKey (e : Step c) : Prop :=
  ∃ draws bytes wm, e.input = .receive draws bytes ∧ c.decodeWire bytes = some wm ∧
    wm.eap = none ∧ wm.errorCode = none ∧ wm.type = some 3 ∧
    ∃ suite z ns, e.before.Exchanges draws wm suite z ns

/-- Every element but the NAI is the text of its field in the last message that carried it. -/
structure Copied (history : List (Step c)) (inp : MacInputs) : Prop where
  offer : ∀ earlier d wm, LastAt AcceptsOffer history earlier d → Receives d wm →
    wm.CopiesOffer inp
  choice : ∀ earlier d w, LastAt AcceptsOffer history earlier d → Emits d w → w.HasChoice inp
  key : ∀ earlier d wm, LastAt AcceptsKey history earlier d → Receives d wm →
    wm.CopiesServerKey inp
  peerKey : ∀ earlier d w, LastAt AcceptsKey history earlier d → Emits d w → w.HasPeerKey inp

/-- Every element is the text of its field in the last message that carried it; the NAI
is that of the last one sent before the offer was accepted. -/
structure Verbatim (history : List (Step c)) (inp : MacInputs) : Prop extends
    Copied history inp where
  nai : ∀ earlier d before n w, LastAt AcceptsOffer history earlier d →
    LastAt Discovers earlier before n → Emits n w → w.nai = some inp.nai

/-- A NAI that an offer has assigned since the last one was sent, up to the accepted
offer, is the one sent. -/
def NaiKept (history : List (Step c)) : Prop :=
  ∀ earlier d before n w upto r nai, LastAt AcceptsOffer history earlier d →
    LastAt Discovers earlier before n → Emits n w → LastAt NamesNai (earlier ++ [d]) upto r →
    RenamesTo r nai → w.nai = some (jstr c nai)

/-! ### One step -/

theorem Effect.offerPart {p q : Peer c} {draws : Draws c} {wm : Wire} {out : Option Outcome}
    (effect : p.Effect draws wm q out) (other : ¬ (wm.eap = none ∧ wm.errorCode = none ∧
      wm.type = some 2 ∧ ∃ peerId verp csp dirp, p.Negotiates wm peerId verp csp dirp)) :
    q.m.inp.offerPart = p.m.inp.offerPart ∧ q.m.inp.choicePart = p.m.inp.choicePart := by
  cases effect with
  | negotiated result notice type negotiates =>
    exact (other ⟨result, notice, type, _, _, _, _, negotiates⟩).elim
  | _ => exact ⟨rfl, rfl⟩

theorem Effect.keyPart {p q : Peer c} {draws : Draws c} {wm : Wire} {out : Option Outcome}
    (effect : p.Effect draws wm q out) (other : ¬ (wm.eap = none ∧ wm.errorCode = none ∧
      wm.type = some 3 ∧ ∃ suite z ns, p.Exchanges draws wm suite z ns)) :
    q.m.inp.serverKeyPart = p.m.inp.serverKeyPart ∧ q.m.inp.peerKeyPart = p.m.inp.peerKeyPart := by
  cases effect with
  | stalled result notice type exchanges =>
    exact (other ⟨result, notice, type, _, _, _, exchanges⟩).elim
  | exchanged result notice type exchanges =>
    exact (other ⟨result, notice, type, _, _, _, exchanges⟩).elim
  | _ => exact ⟨rfl, rfl⟩

theorem Effect.nai {p q : Peer c} {draws : Draws c} {wm : Wire} {out : Option Outcome}
    (effect : p.Effect draws wm q out) (other : ¬ (wm.eap = none ∧ wm.errorCode = none ∧
      wm.type = some 2 ∧ (∃ peerId verp csp dirp, p.Negotiates wm peerId verp csp dirp) ∧
      (parseStr c wm.newNai).isSome = true)) : q.m.nai = p.m.nai := by
  cases effect with
  | negotiated result notice type negotiates =>
    have unread : parseStr c wm.newNai = none := by
      by_contra read
      exact other ⟨result, notice, type, ⟨_, _, _, _, negotiates⟩,
        Option.isSome_iff_ne_none.mpr read⟩
    simp [Peer.negotiated, unread]
  | _ => rfl

theorem step_part {Part : Type} (part : Peer c → Part) {p : Peer c} {input : Input c}
    (noob : ∀ noob, part { p with m := p.m.setNoob noob, state := .oobReceived } = part p)
    (effect : ∀ draws bytes wm q out, input = .receive draws bytes → c.decodeWire bytes = some wm →
      p.Effect draws wm q out → part q = part p) : part (p.step input).1 = part p := by
  rcases p.step_cases input with ⟨same, -⟩ | ⟨noob', -, -, -, -, after⟩ |
    ⟨draws, bytes, wm, out, called, decoded, -, effect'⟩
  · rw [same]
  · rw [after]
    exact noob noob'
  · exact effect draws bytes wm _ out called decoded effect'

variable {p : Peer c} {input : Input c}

theorem step_offerPart (other : ¬ AcceptsOffer (entry step p input)) :
    (p.step input).1.m.inp.offerPart = p.m.inp.offerPart ∧
      (p.step input).1.m.inp.choicePart = p.m.inp.choicePart := by
  apply Prod.mk.inj
  apply step_part (fun q => (q.m.inp.offerPart, q.m.inp.choicePart)) (fun _ => rfl)
  rintro draws bytes wm q out rfl decoded effect
  apply Prod.ext_iff.mpr
  apply effect.offerPart
  rintro ⟨result, notice, type, accepts⟩
  exact other ⟨wm, ⟨draws, bytes, rfl, decoded⟩, result, notice, type, accepts⟩

theorem step_keyPart (other : ¬ AcceptsKey (entry step p input)) :
    (p.step input).1.m.inp.serverKeyPart = p.m.inp.serverKeyPart ∧
      (p.step input).1.m.inp.peerKeyPart = p.m.inp.peerKeyPart := by
  apply Prod.mk.inj
  apply step_part (fun q => (q.m.inp.serverKeyPart, q.m.inp.peerKeyPart)) (fun _ => rfl)
  rintro draws bytes wm q out rfl decoded effect
  apply Prod.ext_iff.mpr
  apply effect.keyPart
  rintro ⟨result, notice, type, accepts⟩
  exact other ⟨draws, bytes, wm, rfl, decoded, result, notice, type, accepts⟩

theorem step_nai (other : ¬ Renames (entry step p input)) : (p.step input).1.m.nai = p.m.nai := by
  apply step_part (fun q => q.m.nai) (fun _ => rfl)
  rintro draws bytes wm q out rfl decoded effect
  apply effect.nai
  rintro ⟨result, notice, type, accepts, assigned⟩
  have received : Receives (entry step p (.receive draws bytes)) wm := ⟨draws, bytes, rfl, decoded⟩
  obtain ⟨nai, read⟩ := Option.isSome_iff_exists.mp assigned
  exact other ⟨nai, ⟨wm, received, result, notice, type, accepts⟩, wm, received, read⟩

theorem Emits.eq (lawful : c.Lawful) {q : Peer c} {draws : Draws c} {bytes : Bytes}
    {sent w : Wire} (emits : Emits (entry step p (.receive draws bytes)) w)
    (answer : p.receive draws bytes = (q, some (sendWire c sent)))
    (texts : ∀ text, some text ∈ sent.raws → c.Text text) : w = sent := by
  obtain ⟨out, same, wire⟩ := emits
  obtain rfl : (p.receive draws bytes).2 = out := Output.received.inj same
  rw [answer] at wire
  exact wire.eq (lawful.wire _ texts)

theorem Discovers.emits (lawful : c.Lawful) (discovers : Discovers (entry step p input)) {w : Wire}
    (emits : Emits (entry step p input) w) : w.nai = some (jstr c p.m.nai) := by
  obtain ⟨wm, ⟨draws, bytes, called, decoded⟩, result, notice, type⟩ := discovers
  obtain rfl : input = .receive draws bytes := called
  have answer : p.receive draws bytes = _ := receive_discovery lawful decoded result notice type
  have texts : ∀ t, some t ∈ p.discoveryResponse.raws → c.Text t := by
    simp only [discoveryResponse, Wire.raws]
    split <;> simp [lawful.text_jstr]
  rw [emits.eq lawful answer texts]
  rfl

theorem AcceptsOffer.step (lawful : c.Lawful) (text : c.Text p.peerInfo)
    (accepts : AcceptsOffer (entry step p input)) :
    (∀ wm, Receives (entry Peer.step p input) wm → wm.CopiesOffer (p.step input).1.m.inp) ∧
      (∀ w, Emits (entry Peer.step p input) w → w.HasChoice (p.step input).1.m.inp) ∧
      (p.step input).1.m.inp.nai = jstr c (p.step input).1.m.nai := by
  obtain ⟨wm, ⟨draws, bytes, called, decoded⟩, result, notice, type, peerId, verp, csp, dirp,
    negotiates⟩ := accepts
  obtain rfl : input = .receive draws bytes := called
  have negotiates : p.Negotiates wm peerId verp csp dirp := negotiates
  have answer : p.receive draws bytes = _ :=
    receive_negotiates lawful decoded result notice type negotiates text
  have after : (p.step (.receive draws bytes)).1 = p.negotiated wm peerId verp csp dirp :=
    congrArg Prod.fst answer
  refine ⟨fun wm' received => ?_, fun w emits => ?_, ?_⟩
  · obtain rfl := received.unique decoded
    rw [after]
    exact ⟨.get _, .get _, .get _, .get _,
      .ensureObj lawful decoded fun t same => by simp [Wire.raws, same]⟩
  · have texts : ∀ t, some t ∈ (p.negotiationResponse peerId verp csp dirp).raws → c.Text t := by
      simp only [negotiationResponse, Wire.raws]
      simp [lawful.text_int, lawful.text_jstr, text]
    rw [emits.eq lawful answer texts, after]
    exact ⟨rfl, rfl, rfl, rfl⟩
  · rw [after]
    rfl

theorem AcceptsKey.step (lawful : c.Lawful) (accepts : AcceptsKey (entry step p input)) :
    (∀ wm, Receives (entry Peer.step p input) wm → wm.CopiesServerKey (p.step input).1.m.inp) ∧
      ∀ w, Emits (entry Peer.step p input) w → w.HasPeerKey (p.step input).1.m.inp := by
  obtain ⟨draws, bytes, wm, called, decoded, result, notice, type, suite, z, ns, exchanges⟩ := accepts
  obtain rfl : input = .receive draws bytes := called
  have exchanges : p.Exchanges draws wm suite z ns := exchanges
  have answer : p.receive draws bytes = _ :=
    receive_exchanges lawful decoded result notice type exchanges
  have after := congrArg (fun r => r.1.m.inp) answer
  refine ⟨fun wm' received => ?_, fun w emits => ?_⟩
  · obtain rfl := received.unique decoded
    change wm'.CopiesServerKey (p.receive draws bytes).1.m.inp
    rw [after]
    exact ⟨.get _, .get _⟩
  · have texts : ∀ t, some t ∈ (p.exchanged wm suite draws z ns).keyExchangeResponse.raws →
        c.Text t := by
      simp only [keyExchangeResponse, exchanged, Wire.raws]
      simp [lawful.text_jwk, lawful.text_jstr]
    change w.HasPeerKey (p.receive draws bytes).1.m.inp
    rw [emits.eq lawful answer texts, after]
    exact ⟨rfl, rfl⟩

/-! ### The whole run -/

/-- The string behind the NAI element: the one sent last, or assigned since. -/
structure Chosen (sending naming : List (Step c)) (nai : String) : Prop where
  sent : ∀ before n w, LastAt Discovers sending before n → Emits n w →
    w.nai = some (jstr c nai) ∨ ∃ upto r, LastAt NamesNai naming upto r ∧ RenamesTo r nai
  renamed : ∀ upto r name, LastAt NamesNai naming upto r → RenamesTo r name → name = nai

/-- What the history says about the elements and about the NAI held. -/
structure Tracked (history : List (Step c)) (p : Peer c) : Prop where
  text : c.Text p.peerInfo
  copied : Copied history p.m.inp
  held : Chosen history history p.m.nai
  chosen : ∀ earlier d, LastAt AcceptsOffer history earlier d →
    ∃ nai, p.m.inp.nai = jstr c nai ∧ Chosen earlier (earlier ++ [d]) nai

theorem Tracked.initial {p : Peer c} (text : c.Text p.peerInfo) : Tracked [] p := by
  have empty {kind : Step c → Prop} {earlier : List (Step c)} {d : Step c} :
      ¬ LastAt kind [] earlier d := fun last => (List.not_mem_nil last.mem).elim
  exact ⟨text, ⟨fun _ _ _ last => (empty last).elim, fun _ _ _ last => (empty last).elim,
    fun _ _ _ last => (empty last).elim, fun _ _ _ last => (empty last).elim⟩,
    ⟨fun _ _ _ last => (empty last).elim, fun _ _ _ last => (empty last).elim⟩,
    fun _ _ last => (empty last).elim⟩

theorem Discovers.not_acceptsOffer (discovers : Discovers (entry step p input)) :
    ¬ AcceptsOffer (entry step p input) := by
  rintro ⟨wm, received, -, -, type, -⟩
  obtain ⟨wm', ⟨draws, bytes, called, decoded⟩, -, -, type'⟩ := discovers
  obtain rfl : input = .receive draws bytes := called
  rw [received.unique decoded, type'] at type
  cases type

theorem RenamesTo.step (lawful : c.Lawful) (text : c.Text p.peerInfo) {nai : String}
    (renames : RenamesTo (entry Peer.step p input) nai) : (p.step input).1.m.nai = nai := by
  obtain ⟨⟨wm, ⟨draws, bytes, called, decoded⟩, result, notice, type, peerId, verp, csp, dirp,
    negotiates⟩, wm', received, read⟩ := renames
  obtain rfl : input = .receive draws bytes := called
  obtain rfl := received.unique decoded
  have negotiates : p.Negotiates wm' peerId verp csp dirp := negotiates
  rw [Peer.step, receive_negotiates lawful decoded result notice type negotiates text]
  exact congrArg (·.getD p.m.nai) read

/-- The NAI held is the one sent last, unless the Server has assigned another since. -/
theorem Chosen.step (lawful : c.Lawful) (text : c.Text p.peerInfo) {history : List (Step c)}
    (held : Chosen history history p.m.nai) :
    Chosen (history ++ [entry Peer.step p input]) (history ++ [entry Peer.step p input])
      (p.step input).1.m.nai := by
  constructor
  · intro before n w last emits
    rcases last.concat_cases with ⟨discovers, rfl, -⟩ | ⟨silent, last⟩
    · rw [step_nai fun ⟨_, accepts, _⟩ => discovers.not_acceptsOffer accepts]
      exact .inl (discovers.emits lawful emits)
    by_cases renames : Renames (entry Peer.step p input)
    · obtain ⟨nai, renames⟩ := renames
      rw [renames.step lawful text]
      exact .inr ⟨history, _, .concat_self _ (.inr ⟨nai, renames⟩), renames⟩
    · rw [step_nai renames]
      refine (held.sent before n w last emits).imp_right fun ⟨upto, r, named, assigned⟩ => ?_
      exact ⟨upto, r, named.concat_other fun names => names.elim silent renames, assigned⟩
  · intro upto r name last assigned
    rcases last.concat_cases with ⟨-, rfl, -⟩ | ⟨other, last⟩
    · exact (assigned.step lawful text).symm
    · rw [step_nai fun renames => other (.inr renames)]
      exact held.renamed upto r name last assigned

theorem Copied.step (lawful : c.Lawful) (history : List (Step c)) (p : Peer c) (input : Input c)
    (text : c.Text p.peerInfo) (copied : Copied history p.m.inp) :
    Copied (history ++ [entry Peer.step p input]) (p.step input).1.m.inp := by
  refine ⟨?_, ?_, ?_, ?_⟩
  · intro earlier d wm last received
    rcases last.concat_cases with ⟨accepts, rfl, -⟩ | ⟨other, last⟩
    · exact (accepts.step lawful text).1 wm received
    · change wm.CopiesOffer (p.step input).1.m.inp.offerPart
      rw [(step_offerPart other).1]
      exact copied.offer earlier d wm last received
  · intro earlier d w last emits
    rcases last.concat_cases with ⟨accepts, rfl, -⟩ | ⟨other, last⟩
    · exact (accepts.step lawful text).2.1 w emits
    · change w.HasChoice (p.step input).1.m.inp.choicePart
      rw [(step_offerPart other).2]
      exact copied.choice earlier d w last emits
  · intro earlier d wm last received
    rcases last.concat_cases with ⟨accepts, rfl, -⟩ | ⟨other, last⟩
    · exact (accepts.step lawful).1 wm received
    · change wm.CopiesServerKey (p.step input).1.m.inp.serverKeyPart
      rw [(step_keyPart other).1]
      exact copied.key earlier d wm last received
  · intro earlier d w last emits
    rcases last.concat_cases with ⟨accepts, rfl, -⟩ | ⟨other, last⟩
    · exact (accepts.step lawful).2 w emits
    · change w.HasPeerKey (p.step input).1.m.inp.peerKeyPart
      rw [(step_keyPart other).2]
      exact copied.peerKey earlier d w last emits

theorem Tracked.step (lawful : c.Lawful) (history : List (Step c)) (p : Peer c) (input : Input c)
    (tracked : Tracked history p) :
    Tracked (history ++ [entry Peer.step p input]) (p.step input).1 := by
  have held : Chosen (history ++ [entry Peer.step p input]) (history ++ [entry Peer.step p input])
      (p.step input).1.m.nai := tracked.held.step lawful tracked.text
  refine ⟨?_, tracked.copied.step lawful history p input tracked.text, held, ?_⟩
  · rw [peerInfo_step]
    exact tracked.text
  · intro earlier d last
    rcases last.concat_cases with ⟨accepts, rfl, rfl⟩ | ⟨other, last⟩
    · -- The offer writes the NAI held after it.
      refine ⟨_, (accepts.step lawful tracked.text).2.2, fun before n w sent => ?_, held.renamed⟩
      exact held.sent before n w (sent.concat_other fun discovers =>
        discovers.not_acceptsOffer accepts)
    · change ∃ nai, (p.step input).1.m.inp.choicePart.nai = _ ∧ _
      rw [(step_offerPart other).2]
      exact tracked.chosen earlier d last

/-- The elements are verbatim exactly where a NAI that was assigned is the one sent. -/
theorem Tracked.verbatim_iff {history : List (Step c)} (tracked : Tracked history p) :
    Verbatim history p.m.inp ↔ NaiKept history := by
  constructor
  · intro verbatim earlier d before n w upto r name last sent emits named assigned
    obtain ⟨nai, element, chosen⟩ := tracked.chosen earlier d last
    rw [verbatim.nai earlier d before n w last sent emits, element,
      chosen.renamed upto r name named assigned]
  · intro kept
    refine ⟨tracked.copied, fun earlier d before n w last sent emits => ?_⟩
    obtain ⟨nai, element, chosen⟩ := tracked.chosen earlier d last
    rw [element]
    rcases chosen.sent before n w sent emits with same | ⟨upto, r, named, assigned⟩
    · exact same
    · exact kept earlier d before n w upto r nai last sent emits named assigned

end Peer

/-! ## Every run -/

/-- In every state of every run, the elements of a Server are verbatim exactly where the
NAI was spelled as the serialiser spells it, and those of a Peer exactly where no offer
assigned it another NAI than the one it sent. -/
theorem transcript_verbatim_iff (lawful : c.Lawful) :
    (∀ s : Server c, s.Initial → c.Text s.serverInfo → ∀ inputs,
      Server.Verbatim (trace Server.step s inputs) (run Server.step s inputs).m.inp ↔
        Server.NaiCanonical (trace Server.step s inputs)) ∧
    (∀ p : Peer c, p.Initial → c.Text p.peerInfo → ∀ inputs,
      Peer.Verbatim (trace Peer.step p inputs) (run Peer.step p inputs).m.inp ↔
        Peer.NaiKept (trace Peer.step p inputs)) := by
  constructor
  · intro s initial text inputs
    exact (run_history (Server.Tracked.step lawful) (Server.Tracked.initial text) inputs).verbatim_iff
      lawful
  · intro p initial text inputs
    exact (run_history (Peer.Tracked.step lawful) (Peer.Tracked.initial text) inputs).verbatim_iff

/-! ## A NAI in another spelling -/

namespace Exchange

variable (x : Exchange c)

def discoveryWith (t : String) : Wire := { x.peerFresh.discoveryResponse with nai := some t }

def choosing (t : String) : List (Server.Input c) :=
  [.receive x.naming (c.encodeWire (x.discoveryWith t)),
    .receive x.serverDraws (c.encodeWire x.negotiationResponse)]

def hearing (t : String) : Server.Step c :=
  entry Server.step x.serverFresh (.receive x.naming (c.encodeWire (x.discoveryWith t)))

def deciding : Server.Step c :=
  entry Server.step x.serverOffering (.receive x.serverDraws (c.encodeWire x.negotiationResponse))

variable {x} (lawful : c.Lawful) {t : String} (text : c.Text t)
  (read : parseStr c (some t) = some defaultNai)
include lawful text read

omit read in
theorem decode_discoveryWith :
    c.decodeWire (c.encodeWire (x.discoveryWith t)) = some (x.discoveryWith t) := by
  refine lawful.wire _ ?_
  simpa [discoveryWith, Peer.discoveryResponse, Wire.raws, peerFresh, Peer.withPeerInfo, Peer.new]
    using text

/-- The spelling is lost when the NAI is read. -/
theorem server_offers_with : x.serverFresh.receive x.naming (c.encodeWire (x.discoveryWith t)) =
    (x.serverOffering, some (sendWire c x.serverOffering.negotiationRequest)) := by
  have heard : x.serverFresh.heard (x.discoveryWith t) =
      x.serverFresh.heard x.peerFresh.discoveryResponse := by
    have plain : parseStr c x.peerFresh.discoveryResponse.nai = some defaultNai :=
      lawful.parseStr_jstr _
    have other : parseStr c (x.discoveryWith t).nai = some defaultNai := read
    have peerState : (x.discoveryWith t).peerState = x.peerFresh.discoveryResponse.peerState := rfl
    simp only [Server.heard, plain, other, peerState]
  have answer : x.serverFresh.receive x.naming (c.encodeWire (x.discoveryWith t)) = _ :=
    Server.receive_restarts lawful (decode_discoveryWith lawful text) rfl rfl
      (heard ▸ x.fresh_restarts) x.serverText
  rw [answer, heard]
  rfl

theorem choosing_trace :
    trace Server.step x.serverFresh (x.choosing t) = [x.hearing t] ++ [x.deciding] := by
  simp only [choosing, trace, Server.step, server_offers_with lawful text read]
  rfl

theorem choosing_run : run Server.step x.serverFresh (x.choosing t) = x.serverKeyed := by
  simp only [choosing, run, Server.step, server_offers_with lawful text read, x.server_keys lawful]

omit text read in
theorem accepts_deciding : Server.AcceptsChoice x.deciding :=
  ⟨_, ⟨_, _, rfl, x.decode_negotiation lawful, rfl⟩, rfl, 2, 2, .p256,
    x.negotiates_answer lawful rfl rfl rfl rfl, by decide⟩

theorem hears_hearing : Server.HearsNai (x.hearing t) t defaultNai :=
  ⟨_, ⟨_, _, rfl, decode_discoveryWith lawful text, rfl⟩, rfl, rfl, read⟩

theorem choosing_nai :
    (run Server.step x.serverFresh (x.choosing t)).m.inp.nai = jstr c defaultNai := by
  rw [choosing_run lawful text read]
  exact congrArg (jstr c) (x.serverWaiting_nai lawful)

theorem choosing_not_verbatim (other : t ≠ jstr c defaultNai) :
    ¬ Server.Verbatim (trace Server.step x.serverFresh (x.choosing t))
      (run Server.step x.serverFresh (x.choosing t)).m.inp := by
  intro verbatim
  have hears := hears_hearing (x := x) lawful text read
  have copied := verbatim.nai [x.hearing t] x.deciding [] (x.hearing t) t defaultNai
    (by
      rw [choosing_trace lawful text read]
      exact .concat_self _ (accepts_deciding lawful)) (.concat_self [] ⟨_, _, hears⟩) hears
  exact other (copied.symm.trans (choosing_nai lawful text read))

theorem choosing_canonical (same : t = jstr c defaultNai) :
    Server.NaiCanonical (trace Server.step x.serverFresh (x.choosing t)) := by
  rw [choosing_trace lawful text read]
  intro earlier d before n u nai last heard hears
  have member : n = x.hearing t ∨ n = x.deciding := by
    simpa using last.mem_of_mem heard.mem
  obtain ⟨wm, received, type, carried, reads⟩ := hears
  rcases member with rfl | rfl
  · obtain rfl := received.unique (decode_discoveryWith lawful text)
    obtain rfl : t = u := Option.some.inj carried
    obtain rfl : defaultNai = nai := Option.some.inj (read.symm.trans reads)
    exact ⟨same, by decide⟩
  · rw [received.unique (x.decode_negotiation lawful)] at type
    cases type

omit text read

variable (x) in
def answering : List (Peer.Input c) :=
  [.receive x.naming (c.encodeWire discoveryRequest),
    .receive x.naming (c.encodeWire x.serverOffering.negotiationRequest)]

theorem answering_kept : Peer.NaiKept (trace Peer.step x.peerFresh x.answering) := by
  intro earlier d before n w upto r nai last sent emits named assigned
  obtain ⟨-, wm, ⟨draws, bytes, called, decoded⟩, read⟩ := assigned
  have member : r ∈ trace Peer.step x.peerFresh x.answering := by
    rcases List.mem_append.mp named.mem with old | new
    · exact last.mem_of_mem old
    · rw [List.mem_singleton.mp new]
      exact last.mem
  obtain ⟨first, input, rest, split, rfl⟩ := mem_trace Peer.step member
  obtain rfl : input = .receive draws bytes := called
  have given : Peer.Input.receive draws bytes ∈ x.answering := by
    rw [split]
    simp
  have silent : wm.newNai = none := by
    simp only [answering, List.mem_cons, Peer.Input.receive.injEq, List.not_mem_nil, or_false] at given
    rcases given with ⟨-, rfl⟩ | ⟨-, rfl⟩
    · rw [← Option.some.inj ((decode_discoveryRequest lawful).symm.trans decoded)]
      rfl
    · rw [← Option.some.inj ((x.decode_offer lawful).symm.trans decoded)]
      rfl
  rw [silent] at read
  cases read

end Exchange

theorem transcript_verbatim_reference :
    Server.Verbatim
        (trace Server.step Reference.exchange.serverFresh
          (Reference.exchange.choosing (jstr Reference.crates defaultNai)))
        (run Server.step Reference.exchange.serverFresh
          (Reference.exchange.choosing (jstr Reference.crates defaultNai))).m.inp ∧
      Peer.Verbatim
        (trace Peer.step Reference.exchange.peerFresh Reference.exchange.answering)
        (run Peer.step Reference.exchange.peerFresh Reference.exchange.answering).m.inp := by
  have server : Reference.exchange.serverFresh.Initial := .inr ⟨_, rfl⟩
  have peer : Reference.exchange.peerFresh.Initial := .inr ⟨_, rfl⟩
  constructor
  · apply ((transcript_verbatim_iff Reference.lawful).1 _ server Reference.exchange.serverText _).mpr
    exact Exchange.choosing_canonical Reference.lawful (Reference.lawful.text_jstr _)
      (Reference.lawful.parseStr_jstr _) rfl
  · apply ((transcript_verbatim_iff Reference.lawful).2 _ peer Reference.exchange.peerText _).mpr
    exact Exchange.answering_kept Reference.lawful

namespace Reference

-- The standard NAI with its `@` spelled as an escape.
def escapedNai : String := "\"noob\\u0040eap-noob.arpa\""

theorem text_escaped : crates.Text escapedNai := by
  constructor
  · decide
  · decide

theorem read_escaped : parseStr crates (some escapedNai) = some defaultNai := by decide

end Reference

/-- A NAI with an escape is accepted, and written anew without it. -/
theorem escaped_nai_reserialised :
    Server.HearsNai (Reference.exchange.hearing Reference.escapedNai) Reference.escapedNai
        defaultNai ∧
      Server.AcceptsChoice Reference.exchange.deciding ∧
      (run Server.step Reference.exchange.serverFresh
        (Reference.exchange.choosing Reference.escapedNai)).m.inp.nai = jstr Reference.crates defaultNai ∧
      ¬ Server.Verbatim
        (trace Server.step Reference.exchange.serverFresh
          (Reference.exchange.choosing Reference.escapedNai))
        (run Server.step Reference.exchange.serverFresh
          (Reference.exchange.choosing Reference.escapedNai)).m.inp :=
  ⟨Exchange.hears_hearing Reference.lawful Reference.text_escaped Reference.read_escaped,
    Exchange.accepts_deciding Reference.lawful,
    Exchange.choosing_nai Reference.lawful Reference.text_escaped Reference.read_escaped,
    Exchange.choosing_not_verbatim Reference.lawful Reference.text_escaped Reference.read_escaped
      (by decide)⟩

end OpenPair
