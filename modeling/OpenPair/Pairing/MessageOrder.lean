import OpenPair.Pairing.Exchange

/-! Whether messages are accepted in the order of the protocol only.

A machine dispatches on the type of a message alone, so the order of what it
accepts is the order in which messages that pass a handler's checks arrive.
-/

set_option autoImplicit false

namespace OpenPair

open Transition

variable {c : Crates}

def exchangeTypes : List Int64 := [1, 2, 3, 5, 6]

def Follows (j k : Int64) : Prop := (j, k) ∈ [((1 : Int64), (2 : Int64)), (2, 3), (1, 4), (1, 5), (5, 6)]

def Silent (o : Option Outcome) : Prop := ∃ out, o = some out ∧ out.error = none

@[simp] theorem silent_none : ¬ Silent none := fun ⟨_, wrong, _⟩ => nomatch wrong

@[simp] theorem silent_some (out : Outcome) : Silent (some out) ↔ out.error = none := by
  simp [Silent]

@[simp] theorem failCode_error (code : Int64) (info : String) :
    (failCode c code info).error = some info := rfl

@[simp] theorem fail_error (info : String) : (fail c info).error = some info := rfl

@[simp] theorem sendWire_error (w : Wire) : (sendWire c w).error = none := rfl

theorem silent_sendWire (built : Option Wire) :
    Silent (built.map (sendWire c)) ↔ built.isSome = true := by
  cases built <;> simp

namespace Server

/-! ## What the Server accepts -/

/-- A Type 1 that is answered: it resumes with an out-of-band value, waits, or
starts a negotiation with a ServerInfo that is JSON. -/
def AcceptsDiscovery (s : Server c) (wm : Wire) : Prop :=
  ((s.heard wm).ResumesCompletion ∧ s.m.noob ≠ []) ∨
    (¬ (s.heard wm).ResumesCompletion ∧ s.state.code = 1 ∧ (s.heard wm).peerState = 1) ∨
    ((s.heard wm).RestartsNegotiation ∧ (raw c s.serverInfo).isSome = true)

/-- A message of the exchange that passes its handler's checks. -/
def Accepts (s : Server c) (wm : Wire) : Prop :=
  wm.errorCode = none ∧
    ((wm.type = some 1 ∧ s.AcceptsDiscovery wm) ∨
      (wm.type = some 2 ∧ ∃ csp dirp suite, s.Negotiates wm csp dirp ∧
        Suite.fromId (asU8 csp) = some suite) ∨
      (wm.type = some 3 ∧ ∃ keypair z np, s.Exchanges wm keypair z np) ∨
      (wm.type = some 5 ∧ s.checkPeerId wm = .ok () ∧ s.MatchesNoobId wm) ∨
      (wm.type = some 6 ∧ ∃ keym, s.Verifies wm keym))

section

variable {s : Server c} {draws : Draws c} {bytes : Bytes} {wm : Wire} (lawful : c.Lawful)
include lawful

theorem startCompletion_silent : Silent s.startCompletion.2 ↔ s.m.noob ≠ [] := by
  unfold startCompletion
  split
  · next empty => simpa using List.isEmpty_iff.mp empty
  · next some =>
    have some : s.m.noob ≠ [] := by simpa using some
    refine iff_of_true ?_ some
    split
    · simp [lawful.raw_jstr]
    · simp [buildCompletion, lawful.raw_jstr]

theorem buildNegotiation_silent :
    Silent (s.buildNegotiation draws).2 ↔ (raw c s.serverInfo).isSome = true := by
  simp only [buildNegotiation, offered, silent_sendWire, lawful.raw_ints, lawful.raw_jstr,
    lawful.raw_int]
  cases raw c s.serverInfo <;> simp

theorem onDiscovery_silent : Silent (s.onDiscovery draws wm).2 ↔ s.AcceptsDiscovery wm := by
  have noob : (s.heard wm).m.noob = s.m.noob := rfl
  have info : (s.heard wm).serverInfo = s.serverInfo := rfl
  have state : (s.heard wm).state = s.state := rfl
  unfold onDiscovery AcceptsDiscovery RestartsNegotiation
  dsimp only
  split
  · next resumes =>
    rw [startCompletion_silent lawful, noob]
    simp [resumes]
  · next completes =>
    rw [state]
    split
    · next waits =>
      simp [buildWaiting, lawful.raw_jstr, completes, waits]
    · next waits =>
      split
      · next restarts =>
        rw [buildNegotiation_silent lawful, info]
        simp [completes, waits, restarts]
      · next other => simp [completes, waits, other]

omit lawful in
theorem onNegotiation_silent (silent : Silent (s.onNegotiation draws wm).2) :
    ∃ csp dirp suite, s.Negotiates wm csp dirp ∧ Suite.fromId (asU8 csp) = some suite := by
  unfold onNegotiation at silent
  split at silent
  · simp at silent
  · next same =>
    dsimp only at silent
    split at silent
    · simp at silent
    · next version =>
      split at silent
      · simp at silent
      · next suite =>
        obtain ⟨offers, known⟩ := not_or.mp suite
        obtain ⟨suite, known⟩ := Option.ne_none_iff_exists'.mp known
        split at silent
        · simp at silent
        · next direction =>
          obtain ⟨shared, range⟩ := not_or.mp direction
          exact ⟨_, _, suite, ⟨same, by simpa using version, rfl, by simpa using offers, rfl,
            shared, not_not.mp range⟩, known⟩

omit lawful in
theorem onKeyExchange_silent (silent : Silent (s.onKeyExchange wm).2) :
    ∃ keypair z np, s.Exchanges wm keypair z np := by
  unfold onKeyExchange at silent
  split at silent
  · simp at silent
  · next same =>
    split at silent
    · simp at silent
    · next jwk key =>
      split at silent
      · simp at silent
      · next keypair held =>
        split at silent
        · simp at silent
        · next z agreed =>
          split at silent
          · simp at silent
          · next text read =>
            split at silent
            · simp at silent
            · next np decoded =>
              exact ⟨keypair, z, np, same, held, by rw [key, Option.bind_some, agreed],
                by rw [parseB64, read, Option.bind_some, decoded]⟩

omit lawful in
theorem onNoobId_silent (silent : Silent (s.onNoobId wm).2) :
    s.checkPeerId wm = .ok () ∧ s.MatchesNoobId wm := by
  unfold onNoobId at silent
  split at silent
  · simp at silent
  · next same =>
    split at silent
    · next matched => exact ⟨same, matched⟩
    · simp at silent

omit lawful in
theorem onCompletion_silent (silent : Silent (s.onCompletion wm).2) :
    ∃ keym, s.Verifies wm keym := by
  unfold onCompletion at silent
  split at silent
  · simp at silent
  · next same =>
    dsimp only at silent
    split at silent
    · simp at silent
    · next keym cached =>
      split at silent
      · simp at silent
      · next equal => exact ⟨keym, same, cached, by simpa using equal⟩

theorem answered_iff (decoded : c.decodeWire bytes = some wm) {k : Int64}
    (type : wm.type = some k) (ordered : k ∈ exchangeTypes) :
    Silent (s.receive draws bytes).2 ↔ s.Accepts wm := by
  constructor
  · intro silent
    rw [receive_eq decoded, dispatch] at silent
    split at silent
    · simp [peerError] at silent
    · next notice =>
      refine ⟨notice, ?_⟩
      rw [type] at silent ⊢
      simp only [exchangeTypes, List.mem_cons, List.not_mem_nil, or_false] at ordered
      -- Each handler gives no error exactly where its checks pass.
      rcases ordered with rfl | rfl | rfl | rfl | rfl
      · exact .inl ⟨rfl, (onDiscovery_silent lawful).mp silent⟩
      · exact .inr (.inl ⟨rfl, onNegotiation_silent silent⟩)
      · exact .inr (.inr (.inl ⟨rfl, onKeyExchange_silent silent⟩))
      · exact .inr (.inr (.inr (.inl ⟨rfl, onNoobId_silent silent⟩)))
      · exact .inr (.inr (.inr (.inr ⟨rfl, onCompletion_silent silent⟩)))
  · rintro ⟨notice, ⟨one, accepts⟩ | ⟨two, csp, dirp, suite, negotiates, known⟩ |
      ⟨three, keypair, z, np, exchanges⟩ | ⟨five, same, matched⟩ | ⟨six, keym, verifies⟩⟩
    · have dispatched : s.receive draws bytes = s.onDiscovery draws wm := by
        rw [receive_eq decoded]
        simp [dispatch, notice, one]
      rw [dispatched]
      exact (onDiscovery_silent lawful).mpr accepts
    · rw [receive_negotiates lawful decoded notice two negotiates known]
      simp
    · rw [receive_exchanges decoded notice three exchanges]
      simp
    · rw [receive_matches lawful decoded notice five same matched]
      simp
    · rw [receive_verifies decoded notice six verifies]
      simp

end

/-! ## The order of a Server's run -/

def spoken : Output → Option Bytes
  | .sent message => some message
  | .oob _ => none
  | .received out => out.bind Outcome.send

def Speaks (e : Step c) : Prop := (spoken e.output).isSome = true

/-- The step sends its request of a Type; an error notification is no request. -/
def Sends (e : Step c) (k : Int64) : Prop :=
  (∀ out, e.output = .received out → Silent out) ∧
    ∃ message, spoken e.output = some message ∧ c.decodeType message = some (some k)

/-- The step receives a message of a Type and gives an outcome without error. -/
def Answers (e : Step c) (k : Int64) : Prop :=
  ∃ draws bytes wm out, e.input = .receive draws bytes ∧ c.decodeWire bytes = some wm ∧
    wm.type = some k ∧ e.output = .received out ∧ Silent out

/-- The last message the Server sent is its request of this Type. -/
def LastRequest (history : List (Step c)) (k : Int64) : Prop :=
  ∃ d, LastOf Speaks history d ∧ Sends d k

def InOrder (history : List (Step c)) (e : Step c) : Prop :=
  ∀ k, k ∈ exchangeTypes → Answers e k → LastRequest history k

/-- A message that passes its handler's checks arrives when the Server has just
sent the request of its Type. -/
def ArrivesInOrder (history : List (Step c)) (e : Step c) : Prop :=
  ∀ draws bytes wm k, e.input = .receive draws bytes → c.decodeWire bytes = some wm →
    wm.type = some k → k ∈ exchangeTypes → e.before.Accepts wm → LastRequest history k

/-- An accepted message opens a conversation or is the next one after the last
accepted message. -/
def OnPath (history : List (Step c)) (e : Step c) : Prop :=
  ∀ k, k ∈ exchangeTypes → Answers e k → k = 1 ∨
    ∃ d j, LastOf (fun d => ∃ i, Answers d i) history d ∧ Answers d j ∧ Follows j k

theorem inOrder_iff (lawful : c.Lawful) (history : List (Step c)) (s : Server c) (input : Input c) :
    InOrder history (entry step s input) ↔ ArrivesInOrder history (entry step s input) := by
  constructor
  · rintro ordered draws bytes wm k called decoded type listed accepts
    cases called
    exact ordered k listed ⟨draws, bytes, wm, _, rfl, decoded, type, rfl,
      (answered_iff lawful decoded type listed).mpr accepts⟩
  · rintro arrives k listed ⟨draws, bytes, wm, out, called, decoded, type, received, silent⟩
    cases called
    cases received
    exact arrives draws bytes wm k rfl decoded type listed
      ((answered_iff lawful decoded type listed).mp silent)

theorem everyStep_inOrder_iff (lawful : c.Lawful) (s : Server c) (inputs : List (Input c)) :
    EveryStep InOrder (trace step s inputs) ↔ EveryStep ArrivesInOrder (trace step s inputs) := by
  constructor
  · intro every before middle after split
    obtain ⟨first, input, rest, -, -, rfl, -⟩ := trace_split step split
    exact (inOrder_iff lawful _ _ input).mp (every _ _ _ split)
  · intro every before middle after split
    obtain ⟨first, input, rest, -, -, rfl, -⟩ := trace_split step split
    exact (inOrder_iff lawful _ _ input).mpr (every _ _ _ split)

/-- The message that answers a message, and the Type it goes on with. -/
def Continues (wm : Wire) (out : Option Outcome) : Prop :=
  ∃ w, out.bind Outcome.send = some (c.encodeWire w) ∧ (∀ t, some t ∈ w.raws → c.Text t) ∧
    ∀ k, w.type = some k → k ∈ exchangeTypes → ∃ j, wm.type = some j ∧ Follows j k

theorem continues_result {wm : Wire} {out : Option Outcome} {kind : String}
    (sent : out.bind Outcome.send = some (resultBytes c kind)) : Continues (c := c) wm out := by
  refine ⟨{ eap := some kind }, sent, ?_, ?_⟩
  · intro t member
    simp [Wire.raws] at member
  · intro k type
    cases type

theorem discovery_continues (lawful : c.Lawful) {s : Server c} {draws : Draws c} {bytes : Bytes}
    {wm : Wire} (text : c.Text s.serverInfo) (reached : s.state ≠ .oobReceived)
    (decoded : c.decodeWire bytes = some wm) (notice : wm.errorCode = none)
    (type : wm.type = some 1) (accepts : s.AcceptsDiscovery wm) :
    Continues (c := c) wm (s.receive draws bytes).2 := by
  rcases accepts with ⟨resumes, noob⟩ | ⟨completes, waits, peerState⟩ | ⟨restarts, -⟩
  · -- A state that was not sent counts as none, so that this one was sent.
    have heard : wm.peerState = some 2 := by
      have code : s.state.code ≠ 2 := by
        cases same : s.state <;> simp_all [State.code]
      rcases resumes with ⟨wrong, -⟩ | ⟨two, -⟩
      · exact absurd wrong code
      · cases present : wm.peerState with
        | none => simp [Server.heard, present] at two
        | some n => simpa [Server.heard, present] using two
    rw [receive_resumes lawful decoded notice type resumes noob heard]
    refine ⟨(s.heard wm).noobIdRequest, rfl, ?_, ?_⟩
    · simp [noobIdRequest, Wire.raws, lawful.text_jstr]
    · rintro k sent -
      cases sent
      exact ⟨1, type, by simp [Follows]⟩
  · have state : (s.heard wm).state.code = 1 := waits
    refine ⟨{ type := some 4, peerId := some (jstr c s.m.peerId) }, ?_, ?_, ?_⟩
    · rw [receive_eq decoded]
      simp only [dispatch, notice, type, ↓reduceIte, onDiscovery, completes, state, peerState,
        and_self, buildWaiting, lawful.raw_jstr]
      rfl
    · simp [Wire.raws, lawful.text_jstr]
    · rintro k sent listed
      cases sent
      simp [exchangeTypes] at listed
  · rw [receive_restarts lawful decoded notice type restarts text]
    refine ⟨((s.heard wm).offered draws).negotiationRequest, rfl, ?_, ?_⟩
    · simp only [negotiationRequest, offered, heard, Wire.raws]
      simp [lawful.text_ints, lawful.text_int, lawful.text_jstr, text]
    · rintro k sent -
      cases sent
      exact ⟨1, type, by simp [Follows]⟩

theorem answer_continues (lawful : c.Lawful) {s : Server c} {draws : Draws c} {bytes : Bytes}
    {wm : Wire} (text : c.Text s.serverInfo) (reached : s.state ≠ .oobReceived)
    (decoded : c.decodeWire bytes = some wm) (silent : Silent (s.receive draws bytes).2) :
    Continues (c := c) wm (s.receive draws bytes).2 := by
  by_cases listed : ∃ k, wm.type = some k ∧ k ∈ exchangeTypes
  · obtain ⟨k, type, listed⟩ := listed
    obtain ⟨notice, ⟨one, accepts⟩ | ⟨two, csp, dirp, suite, negotiates, known⟩ |
      ⟨three, keypair, z, np, exchanges⟩ | ⟨five, same, matched⟩ | ⟨six, keym, verifies⟩⟩ :=
      (answered_iff lawful decoded type listed).mp silent
    · exact discovery_continues lawful text reached decoded notice one accepts
    · rw [receive_negotiates lawful decoded notice two negotiates known]
      refine ⟨((s.negotiated wm csp dirp).keyed suite draws).keyExchangeRequest, rfl, ?_, ?_⟩
      · simp [keyExchangeRequest, keyed, Wire.raws, lawful.text_jstr, lawful.text_jwk]
      · rintro k sent -
        cases sent
        exact ⟨2, two, by simp [Follows]⟩
    · rw [receive_exchanges decoded notice three exchanges]
      exact continues_result rfl
    · rw [receive_matches lawful decoded notice five same matched]
      refine ⟨s.completionRequest, rfl, ?_, ?_⟩
      · simp [completionRequest, Wire.raws, lawful.text_jstr]
      · rintro k sent -
        cases sent
        exact ⟨5, five, by simp [Follows]⟩
    · rw [receive_verifies decoded notice six verifies]
      exact continues_result rfl
  · -- Of the other messages only Type 4 gives no error, and it ends the conversation.
    have other {k : Int64} (member : k ∈ exchangeTypes) : wm.type ≠ some k :=
      fun type => listed ⟨k, type, member⟩
    rw [receive_eq decoded] at silent ⊢
    unfold dispatch at silent ⊢
    cases notice : wm.errorCode with
    | some code => simp [notice, peerError] at silent
    | none =>
      simp only [notice, other (k := 1) (by decide), other (k := 2) (by decide),
        other (k := 3) (by decide), other (k := 5) (by decide), other (k := 6) (by decide),
        ↓reduceIte] at silent ⊢
      split at silent
      · next four =>
        rw [if_pos four]
        exact continues_result rfl
      · simp at silent

theorem Answers.continues (lawful : c.Lawful) {s : Server c} {input : Input c} {j : Int64}
    (text : c.Text s.serverInfo) (reached : s.state ≠ .oobReceived)
    (answers : Answers (entry step s input) j) : ∃ draws bytes wm, input = .receive draws bytes ∧
      wm.type = some j ∧ Continues (c := c) wm (s.receive draws bytes).2 := by
  obtain ⟨draws, bytes, wm, out, called, decoded, type, received, silent⟩ := answers
  cases called
  cases received
  exact ⟨draws, bytes, wm, rfl, type, answer_continues lawful text reached decoded silent⟩

theorem Answers.speaks (lawful : c.Lawful) {s : Server c} {input : Input c} {j : Int64}
    (text : c.Text s.serverInfo) (reached : s.state ≠ .oobReceived)
    (answers : Answers (entry step s input) j) : Speaks (entry step s input) := by
  obtain ⟨draws, bytes, wm, rfl, -, w, sent, -⟩ := answers.continues lawful text reached
  simp [Speaks, spoken, step, sent]

theorem Sends.answers (lawful : c.Lawful) {s : Server c} {input : Input c} {k : Int64}
    (text : c.Text s.serverInfo) (reached : s.state ≠ .oobReceived) (listed : k ∈ exchangeTypes)
    (sends : Sends (entry step s input) k) :
    k = 1 ∨ ∃ j, Answers (entry step s input) j ∧ Follows j k := by
  obtain ⟨silent, message, said, type⟩ := sends
  cases input with
  | start =>
    cases said
    have one : c.decodeType s.start = some (some 1) :=
      lawful.type _ (by simp [Wire.raws])
    rw [one] at type
    cases type
    exact .inl rfl
  | oobOutputWith noob => cases said
  | receive draws bytes =>
    have silent : Silent (s.receive draws bytes).2 := silent _ rfl
    cases decoded : c.decodeWire bytes with
    | none =>
      rw [receive, decoded] at silent
      simp at silent
    | some wm =>
      obtain ⟨w, sent, texts, next⟩ := answer_continues lawful text reached decoded silent
      obtain rfl : c.encodeWire w = message := Option.some.inj (sent.symm.trans said)
      rw [lawful.type w texts] at type
      obtain ⟨j, received, follows⟩ := next k (Option.some.inj type) listed
      exact .inr ⟨j, ⟨draws, bytes, wm, _, rfl, decoded, received, rfl, silent⟩, follows⟩

theorem Effect.not_oobReceived {s t : Server c} {draws : Draws c} {wm : Wire}
    {out : Option Outcome} (effect : s.Effect draws wm t out) (reached : s.state ≠ .oobReceived) :
    t.state ≠ .oobReceived := by
  cases effect with
  | exchanged => exact fun wrong => State.noConfusion wrong
  | registered => exact fun wrong => State.noConfusion wrong
  | _ => exact reached

/-- A Server is never in the state OobReceived: `oob_output_with` leaves it Waiting. -/
theorem not_oobReceived {s : Server c} (initial : s.Initial) (inputs : List (Input c)) :
    (run step s inputs).state ≠ .oobReceived := by
  refine run_invariant step (P := fun t : Server c => t.state ≠ .oobReceived) ?_ ?_ inputs
  · intro t input reached
    rcases t.step_cases input with ⟨same, -⟩ | ⟨noob, -, -, -, -, after⟩ |
      ⟨draws, bytes, wm, out, -, -, -, effect⟩
    · rw [same]
      exact reached
    · rw [after]
      exact reached
    · exact effect.not_oobReceived reached
  · rcases initial with rfl | ⟨info, rfl⟩ <;> exact fun wrong => State.noConfusion wrong

/-- In order, the accepted messages of a run follow the sequence. -/
theorem onPath_of_inOrder (lawful : c.Lawful) {s : Server c} (initial : s.Initial)
    (text : c.Text s.serverInfo) {inputs : List (Input c)}
    (ordered : EveryStep InOrder (trace step s inputs)) :
    EveryStep OnPath (trace step s inputs) := by
  intro before middle after split k listed answers
  obtain ⟨d, last, sends⟩ := ordered before middle after split k listed answers
  obtain ⟨earlier, later, rfl, speaks, quiet⟩ := last
  have taken {e : Step c} (member : e ∈ earlier ++ d :: later) : ∃ t input,
      e = entry step t input ∧ c.Text t.serverInfo ∧ t.state ≠ .oobReceived := by
    obtain ⟨first, input, rest, -, rfl⟩ := mem_trace step
      (split ▸ List.mem_append_left _ member : e ∈ trace step s inputs)
    exact ⟨_, input, rfl, (serverInfo_run s first).symm ▸ text, not_oobReceived initial first⟩
  obtain ⟨t, input, rfl, held, reached⟩ := taken (e := d) (by simp)
  rcases sends.answers lawful held reached listed with one | ⟨j, answered, follows⟩
  · exact .inl one
  · refine .inr ⟨_, j, ⟨earlier, later, rfl, ⟨j, answered⟩, ?_⟩, answered, follows⟩
    rintro e member ⟨i, answered⟩
    obtain ⟨u, other, rfl, held, reached⟩ := taken (e := e) (by simp [member])
    exact quiet _ member (answered.speaks lawful held reached)

end Server

/-! ## The order of a Peer's run -/

namespace Peer

def Hears (e : Step c) (wm : Wire) (k : Int64) : Prop :=
  Receives e wm ∧ wm.eap = none ∧ wm.errorCode = none ∧ wm.type = some k

def Answers (e : Step c) (k : Int64) : Prop :=
  ∃ wm out, Hears e wm k ∧ e.output = .received out ∧ Silent out

def InOrder (history : List (Step c)) (e : Step c) : Prop :=
  (Answers e 3 → ∃ d ∈ history, ∃ wm, Hears d wm 2) ∧
    (Answers e 6 → e.before.state = .oobReceived)

/-- A Type 6 whose MACs verifies arrives in the state OobReceived. -/
def ArrivesInOrder (_history : List (Step c)) (e : Step c) : Prop :=
  ∀ wm, Hears e wm 6 → e.before.Verifies wm → e.before.state = .oobReceived

theorem completion_silent (lawful : c.Lawful) {p : Peer c} {draws : Draws c} {bytes : Bytes}
    {wm : Wire} (decoded : c.decodeWire bytes = some wm) (result : wm.eap = none)
    (notice : wm.errorCode = none) (type : wm.type = some 6) :
    Silent (p.receive draws bytes).2 ↔ p.Verifies wm := by
  constructor
  · intro silent
    have called : p.receive draws bytes = p.onCompletion wm := by
      rw [receive_eq decoded]
      simp [dispatch, result, notice, type]
    rw [called] at silent
    unfold onCompletion at silent
    split at silent
    · simp at silent
    · next noob =>
      split at silent
      · simp at silent
      · next matched =>
        dsimp only at silent
        split at silent
        · simp at silent
        · next same => exact ⟨by simpa using noob, not_not.mp matched, by simpa using same⟩
  · intro verifies
    rw [receive_verifies lawful decoded result notice type verifies]
    simp

/-- A key exchange without a suite panics. -/
theorem suite_of_silent {p : Peer c} {draws : Draws c} {bytes : Bytes} {wm : Wire}
    (decoded : c.decodeWire bytes = some wm) (result : wm.eap = none)
    (notice : wm.errorCode = none) (type : wm.type = some 3)
    (silent : Silent (p.receive draws bytes).2) : p.m.suite ≠ none := by
  intro none
  have called : p.receive draws bytes = p.onKeyExchange draws wm := by
    rw [receive_eq decoded]
    simp [dispatch, result, notice, type]
  rw [called] at silent
  unfold onKeyExchange at silent
  split at silent
  · simp at silent
  · split at silent
    · simp at silent
    · rw [none] at silent
      simp at silent

theorem Effect.suite {p q : Peer c} {draws : Draws c} {wm : Wire} {out : Option Outcome}
    (effect : p.Effect draws wm q out) : q.m.suite = p.m.suite ∨
      (wm.eap = none ∧ wm.errorCode = none ∧ wm.type = some 2) := by
  cases effect with
  | negotiated result notice type => exact .inr ⟨result, notice, type⟩
  | _ => exact .inl rfl

theorem suite_heard {p : Peer c} (initial : p.Initial) (inputs : List (Input c)) :
    (run step p inputs).m.suite ≠ none → ∃ d ∈ trace step p inputs, ∃ wm, Hears d wm 2 := by
  refine run_history
    (P := fun history (q : Peer c) => q.m.suite ≠ none → ∃ d ∈ history, ∃ wm, Hears d wm 2) ?_ ?_
    inputs
  · intro history q input earlier chosen
    have kept (same : (q.step input).1.m.suite = q.m.suite) :
        ∃ d ∈ history ++ [entry step q input], ∃ wm, Hears d wm 2 := by
      obtain ⟨d, member, heard⟩ := earlier (same ▸ chosen)
      exact ⟨d, List.mem_append_left _ member, heard⟩
    rcases q.step_cases input with ⟨same, -⟩ | ⟨noob, -, -, -, -, after⟩ |
      ⟨draws, bytes, wm, out, called, decoded, -, effect⟩
    · exact kept (by rw [same])
    · exact kept (by rw [after]; rfl)
    · rcases effect.suite with same | ⟨result, notice, type⟩
      · exact kept same
      · exact ⟨entry step q input, by simp, wm, ⟨draws, bytes, called, decoded⟩, result, notice, type⟩
  · intro chosen
    rcases initial with rfl | ⟨info, rfl⟩ <;> exact absurd rfl chosen

theorem inOrder_iff (lawful : c.Lawful) {p : Peer c} (initial : p.Initial)
    (inputs : List (Input c)) : EveryStep InOrder (trace step p inputs) ↔
      EveryStep ArrivesInOrder (trace step p inputs) := by
  constructor
  · rintro every before middle after split wm ⟨⟨draws, bytes, called, decoded⟩, result, notice, type⟩
      verifies
    obtain ⟨first, input, rest, -, rfl, rfl, -⟩ := trace_split step split
    cases called
    exact (every _ _ _ split).2 ⟨wm, _, ⟨⟨draws, bytes, rfl, decoded⟩, result, notice, type⟩, rfl,
      (completion_silent lawful decoded result notice type).mpr verifies⟩
  · intro every before middle after split
    obtain ⟨first, input, rest, -, rfl, rfl, -⟩ := trace_split step split
    constructor
    · rintro ⟨wm, out, ⟨⟨draws, bytes, called, decoded⟩, result, notice, type⟩, received, silent⟩
      cases called
      cases received
      exact suite_heard initial first (suite_of_silent decoded result notice type silent)
    · rintro ⟨wm, out, ⟨⟨draws, bytes, called, decoded⟩, result, notice, type⟩, received, silent⟩
      cases called
      cases received
      exact every _ _ _ split wm ⟨⟨draws, bytes, rfl, decoded⟩, result, notice, type⟩
        ((completion_silent lawful decoded result notice type).mp silent)

end Peer

/-! ## The result -/

/-- In every run from a new machine, messages are accepted in the order of the
protocol exactly when those that pass the checks arrive in it; the messages a
Server then accepts follow the sequence. -/
theorem message_order_iff (lawful : c.Lawful) :
    (∀ (s : Server c) (inputs : List (Server.Input c)), s.Initial →
      (EveryStep Server.InOrder (trace Server.step s inputs) ↔
        EveryStep Server.ArrivesInOrder (trace Server.step s inputs)) ∧
      (c.Text s.serverInfo → EveryStep Server.ArrivesInOrder (trace Server.step s inputs) →
        EveryStep Server.OnPath (trace Server.step s inputs))) ∧
    (∀ (p : Peer c) (inputs : List (Peer.Input c)), p.Initial →
      (EveryStep Peer.InOrder (trace Peer.step p inputs) ↔
        EveryStep Peer.ArrivesInOrder (trace Peer.step p inputs))) := by
  refine ⟨fun s inputs initial => ?_, fun p inputs initial => Peer.inOrder_iff lawful initial inputs⟩
  have same := Server.everyStep_inOrder_iff lawful s inputs
  exact ⟨same, fun text arrives => Server.onPath_of_inOrder lawful initial text (same.mpr arrives)⟩

namespace Exchange

variable (x : Exchange c) (lawful : c.Lawful)

def negotiation : List (Server.Input c) :=
  [.start, .receive x.naming (c.encodeWire x.peerFresh.discoveryResponse),
    .receive x.serverDraws (c.encodeWire x.negotiationResponse)]

include lawful

theorem negotiation_trace : trace Server.step x.serverFresh x.negotiation =
    [] ++ [entry Server.step x.serverFresh .start] ++
      [entry Server.step x.serverFresh
        (.receive x.naming (c.encodeWire x.peerFresh.discoveryResponse))] ++
      [entry Server.step x.serverOffering
        (.receive x.serverDraws (c.encodeWire x.negotiationResponse))] := by
  simp only [negotiation, trace, Server.step, x.server_offers lawful]
  rfl

theorem negotiation_run : run Server.step x.serverFresh x.negotiation = x.serverKeyed := by
  simp only [negotiation, run, Server.step, x.server_offers lawful, x.server_keys lawful]

theorem sends_start (s : Server c) : Server.Sends (entry Server.step s .start) 1 := by
  have type : c.decodeType s.start = some (some 1) := lawful.type _ (by simp [Wire.raws])
  refine ⟨?_, s.start, rfl, type⟩
  intro out wrong
  cases wrong

theorem sends_offer : Server.Sends (entry Server.step x.serverFresh
    (.receive x.naming (c.encodeWire x.peerFresh.discoveryResponse))) 2 := by
  have output : (Server.step x.serverFresh (.receive x.naming
      (c.encodeWire x.peerFresh.discoveryResponse))).2 =
      .received (some (sendWire c x.serverOffering.negotiationRequest)) := by
    rw [Server.step, x.server_offers lawful]
  rw [Server.Sends, entry_output, output]
  refine ⟨?_, _, rfl, lawful.type _ (x.offer_texts lawful)⟩
  intro out same
  cases same
  simp

theorem negotiation_arrives :
    EveryStep Server.ArrivesInOrder (trace Server.step x.serverFresh x.negotiation) := by
  rw [x.negotiation_trace lawful]
  refine EveryStep.concat.mpr ⟨EveryStep.concat.mpr ⟨EveryStep.concat.mpr ⟨EveryStep.nil, ?_⟩, ?_⟩, ?_⟩
  · intro draws bytes wm k called
    cases called
  · intro draws bytes wm k called decoded type listed accepts
    cases called
    rw [x.decode_fresh lawful] at decoded
    cases decoded
    cases type
    exact ⟨_, LastOf.concat_self [] rfl, sends_start lawful _⟩
  · intro draws bytes wm k called decoded type listed accepts
    cases called
    rw [x.decode_negotiation lawful] at decoded
    cases decoded
    cases type
    have sends := x.sends_offer lawful
    obtain ⟨-, message, said, -⟩ := sends
    exact ⟨_, LastOf.concat_self _ (by rw [Server.Speaks, said]; rfl), x.sends_offer lawful⟩

theorem repeats_out_of_order : ¬ EveryStep Server.InOrder (trace Server.step x.serverFresh
    (x.negotiation ++ [.receive x.serverDraws (c.encodeWire x.negotiationResponse)])) := by
  intro ordered
  rw [trace_append, x.negotiation_run lawful] at ordered
  have repeated : x.serverKeyed.receive x.serverDraws (c.encodeWire x.negotiationResponse) = _ :=
    Server.receive_negotiates lawful (x.decode_negotiation lawful) rfl rfl
    (x.negotiates_answer lawful (s := x.serverKeyed) rfl rfl rfl rfl)
    (show Suite.fromId (asU8 2) = some .p256 by decide)
  have answers : Server.Answers (entry Server.step x.serverKeyed
      (.receive x.serverDraws (c.encodeWire x.negotiationResponse))) 2 := by
    refine ⟨_, _, _, _, rfl, x.decode_negotiation lawful, rfl, rfl, ?_⟩
    rw [repeated]
    simp
  obtain ⟨d, last, sends⟩ := (EveryStep.concat.mp ordered).2 2 (by decide) answers
  rw [x.negotiation_trace lawful] at last
  -- The last message before it is the Type 3 request.
  have keys : (Server.step x.serverOffering
      (.receive x.serverDraws (c.encodeWire x.negotiationResponse))).2 =
      .received (some (sendWire c x.serverKeyed.keyExchangeRequest)) := by
    rw [Server.step, x.server_keys lawful]
  obtain rfl := last.eq_last (by rw [Server.Speaks, entry_output, keys]; rfl)
  obtain ⟨-, message, said, type⟩ := sends
  rw [entry_output, keys] at said
  cases said
  rw [lawful.type _ (x.serverKey_texts lawful)] at type
  cases type

end Exchange

/-- A Server's negotiation and a Peer's exchange in order. -/
theorem message_order_reference :
    EveryStep Server.InOrder (trace Server.step Reference.exchange.serverFresh
      Reference.exchange.negotiation) ∧
    EveryStep Server.OnPath (trace Server.step Reference.exchange.serverFresh
      Reference.exchange.negotiation) ∧
    EveryStep Peer.InOrder (trace Peer.step Reference.exchange.peerFresh
      (Reference.exchange.peerInputs Reference.noob Reference.discovery)) := by
  have arrives := Reference.exchange.negotiation_arrives Reference.lawful
  have server := (message_order_iff Reference.lawful).1 Reference.exchange.serverFresh
    Reference.exchange.negotiation (.inr ⟨_, rfl⟩)
  have peer := (message_order_iff Reference.lawful).2 Reference.exchange.peerFresh
    (Reference.exchange.peerInputs Reference.noob Reference.discovery) (.inr ⟨_, rfl⟩)
  refine ⟨server.1.mpr arrives, server.2 Reference.exchange.serverText arrives, peer.mpr ?_⟩
  rw [Reference.exchange.peer_trace Reference.lawful _ Reference.length_noob]
  refine EveryStep.of_forall fun e member wm heard verifies => ?_
  have armed := (Reference.exchange.peer_receives Reference.lawful member heard.1).2 heard.2.2.2
  rw [armed]
  rfl

/-- A Type 2 that is sent a second time is accepted after the Type 3 request. -/
theorem repeated_negotiation_accepted :
    ¬ EveryStep Server.InOrder (trace Server.step Reference.exchange.serverFresh
      (Reference.exchange.negotiation ++ [.receive Reference.exchange.serverDraws
        (Reference.crates.encodeWire Reference.exchange.negotiationResponse)])) :=
  Reference.exchange.repeats_out_of_order Reference.lawful

end OpenPair
