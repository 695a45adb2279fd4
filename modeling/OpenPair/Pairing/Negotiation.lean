import OpenPair.Pairing.Exchange

/-! What a Peer chooses of an offer, and that the Server which made the offer
accepts it.

The Peer looks for the largest version, the first suite and a direction, each in
its own loop; the Server checks each choice against its own lists.
-/

set_option autoImplicit false

namespace OpenPair

open Transition

variable {c : Crates}

/-! ## The three choices -/

/-- The largest number that both lists hold. -/
structure LargestCommon (first second : List Int64) (v : Int64) : Prop where
  left : v ∈ first
  right : v ∈ second
  largest : ∀ w ∈ first, w ∈ second → w ≤ v

/-- The first number of a list that the other holds as well. -/
def FirstCommon (first second : List Int64) (v : Int64) : Prop :=
  ∃ before after, first = before ++ v :: after ∧ v ∈ second ∧ ∀ w ∈ before, w ∉ second

/-- A direction, as a set of bits, in a set of directions. -/
def Within (dirp dirs : Int64) : Prop := dirp ≠ 0 ∧ dirp &&& dirs = dirp

instance (dirp dirs : Int64) : Decidable (Within dirp dirs) := inferInstanceAs (Decidable (_ ∧ _))

theorem Within.range {dirp dirs : Int64} (within : Within dirp dirs)
    (known : dirs = 1 ∨ dirs = 2 ∨ dirs = 3) : 1 ≤ dirp ∧ dirp ≤ 3 := by
  obtain ⟨some, inside⟩ := within
  -- A direction is under the mask of the offer, which is at most 3.
  have low : dirp.toBitVec.toNat ≤ 3 := by
    have bits := congrArg (fun d : Int64 => d.toBitVec.toNat) inside
    rw [Int64.toBitVec_and, BitVec.toNat_and] at bits
    rw [← bits]
    apply Nat.le_trans Nat.and_le_right
    rcases known with rfl | rfl | rfl <;> decide
  have cases : dirp.toBitVec.toNat = 0 ∨ dirp.toBitVec.toNat = 1 ∨ dirp.toBitVec.toNat = 2 ∨
      dirp.toBitVec.toNat = 3 := by omega
  have eq (d : Int64) (same : dirp.toBitVec.toNat = d.toBitVec.toNat) : dirp = d :=
    Int64.toBitVec_inj.mp (BitVec.eq_of_toNat_eq same)
  rcases cases with zero | one | two | three
  · exact (some (eq 0 zero)).elim
  · rw [eq 1 one]
    decide
  · rw [eq 2 two]
    decide
  · rw [eq 3 three]
    decide

-- One turn of the loop of `best_version`.
def better (peer : List Int64) (best : Option Int64) (v : Int64) : Option Int64 :=
  if peer.contains v && (best.map fun b => decide (b ≤ v)).getD true then some v else best

/-- A number is taken where it is common and no less than the one before, which is
kept otherwise. -/
theorem better_cases (peer : List Int64) (best : Option Int64) (v : Int64) :
    (better peer best v = some v ∧ v ∈ peer ∧ ∀ b, best = some b → b ≤ v) ∨
      (better peer best v = best ∧ (v ∈ peer → ∃ b, best = some b ∧ v ≤ b)) := by
  by_cases common : v ∈ peer
  · cases best with
    | none => exact .inl ⟨by simp [better, common], common, fun _ wrong => by cases wrong⟩
    | some b =>
      by_cases below : b ≤ v
      · left
        refine ⟨by simp [better, common, below], common, fun other same => ?_⟩
        exact (Option.some.inj same) ▸ below
      · right
        refine ⟨by simp [better, below], fun _ => ⟨b, rfl, ?_⟩⟩
        exact Int64.le_of_lt (Int64.not_le.mp below)
  · exact .inr ⟨by simp [better, common], fun wrong => (common wrong).elim⟩

theorem foldl_better_some {peer server : List Int64} {best : Option Int64} {v : Int64}
    (found : server.foldl (better peer) best = some v) :
    (best = some v ∨ v ∈ server ∧ v ∈ peer) ∧ (∀ b, best = some b → b ≤ v) ∧
      ∀ w ∈ server, w ∈ peer → w ≤ v := by
  -- By induction on the list, for every best so far: the head may replace it before the rest is
  -- read, and what the rest returns is then no less than the head.
  induction server generalizing best with
  | nil =>
    refine ⟨.inl found, fun b same => ?_, fun w member => (List.not_mem_nil member).elim⟩
    rw [show best = some v from found] at same
    exact (Option.some.inj same) ▸ Int64.le_refl v
  | cons u server ih =>
    obtain ⟨source, above, largest⟩ := ih found
    rcases better_cases peer best u with ⟨taken, common, least⟩ | ⟨kept, under⟩
    · rw [taken] at source above
      have here : u ≤ v := above u rfl
      refine ⟨.inr ?_, fun b same => Int64.le_trans (least b same) here, fun w member shared => ?_⟩
      · rcases source with same | ⟨later, shared⟩
        · exact (Option.some.inj same) ▸ ⟨.head server, common⟩
        · exact ⟨.tail u later, shared⟩
      · rcases List.mem_cons.mp member with rfl | later
        · exact here
        · exact largest w later shared
    · rw [kept] at source above
      refine ⟨source.imp_right fun both => ⟨.tail u both.1, both.2⟩, above, fun w member shared => ?_⟩
      rcases List.mem_cons.mp member with rfl | later
      · obtain ⟨b, same, below⟩ := under shared
        exact Int64.le_trans below (above b same)
      · exact largest w later shared

theorem foldl_better_none {peer server : List Int64} {best : Option Int64}
    (missing : server.foldl (better peer) best = none) :
    best = none ∧ ∀ w ∈ server, w ∉ peer := by
  induction server generalizing best with
  | nil => exact ⟨missing, fun w member => (List.not_mem_nil member).elim⟩
  | cons u server ih =>
    obtain ⟨empty, later⟩ := ih missing
    -- A number that was taken is never given up for none.
    rcases better_cases peer best u with ⟨taken, -, -⟩ | ⟨kept, under⟩
    · rw [taken] at empty
      cases empty
    · rw [kept] at empty
      refine ⟨empty, fun w member shared => ?_⟩
      rcases List.mem_cons.mp member with rfl | after
      · obtain ⟨b, same, -⟩ := under shared
        rw [empty] at same
        cases same
      · exact later w after shared

theorem bestVersion_eq_none_iff {server peer : List Int64} :
    bestVersion server peer = none ↔ ∀ v ∈ server, v ∉ peer := by
  constructor
  · intro missing
    exact (foldl_better_none missing).2
  · intro apart
    cases found : bestVersion server peer with
    | none => rfl
    | some v =>
      rcases (foldl_better_some found).1 with wrong | ⟨left, right⟩
      · cases wrong
      · exact (apart v left right).elim

theorem bestVersion_eq_some_iff {server peer : List Int64} {v : Int64} :
    bestVersion server peer = some v ↔ LargestCommon server peer v := by
  have sound {u : Int64} (found : bestVersion server peer = some u) :
      LargestCommon server peer u := by
    obtain ⟨source, -, largest⟩ := foldl_better_some found
    rcases source with wrong | ⟨left, right⟩
    · cases wrong
    · exact ⟨left, right, largest⟩
  constructor
  · exact sound
  · intro common
    cases found : bestVersion server peer with
    | none => exact (bestVersion_eq_none_iff.mp found v common.left common.right).elim
    | some u =>
      have other := sound found
      -- There is at most one largest common number.
      have same : u = v := Int64.le_antisymm (common.largest u other.left other.right)
        (other.largest v common.left common.right)
      rw [same]

theorem suite_of_standard {id : Int64} (member : id ∈ (Peer.new c).cryptosuites) :
    (Suite.fromId (asU8 id)).isSome = true := by
  rcases List.mem_cons.mp member with rfl | second
  · rfl
  · rw [List.mem_singleton.mp second]
    rfl

theorem firstSupported_eq (suites : List Int64) :
    firstSupported suites (Peer.new c).cryptosuites =
      suites.find? fun id => (Peer.new c).cryptosuites.contains id := by
  -- The second test of the source passes wherever the first does.
  have known (id : Int64) : ((Peer.new c).cryptosuites.contains id &&
      (Suite.fromId (asU8 id)).isSome) = (Peer.new c).cryptosuites.contains id := by
    rw [Bool.and_eq_left_iff_imp, List.contains_iff_mem]
    exact suite_of_standard
  simp only [firstSupported, known]

theorem firstSupported_eq_some_iff {suites : List Int64} {id : Int64} :
    firstSupported suites (Peer.new c).cryptosuites = some id ↔
      FirstCommon suites (Peer.new c).cryptosuites id := by
  rw [firstSupported_eq, List.find?_eq_some_iff_append, FirstCommon]
  simp only [List.contains_iff_mem, Bool.not_eq_true', ← Bool.not_eq_true]
  constructor
  · rintro ⟨shared, before, after, split, none⟩
    exact ⟨before, after, split, shared, none⟩
  · rintro ⟨before, after, split, shared, none⟩
    exact ⟨shared, before, after, split, none⟩

theorem firstSupported_eq_none_iff {suites : List Int64} :
    firstSupported suites (Peer.new c).cryptosuites = none ↔
      ∀ id ∈ suites, id ∉ (Peer.new c).cryptosuites := by
  rw [firstSupported_eq, List.find?_eq_none]
  simp only [List.contains_iff_mem]

theorem chooseDir_eq_some_iff {dirs dirp : Int64} :
    chooseDir dirs (Peer.new c).preferDir = some dirp ↔
      (dirs = 1 ∧ dirp = 1) ∨ (dirs = 2 ∧ dirp = 2) ∨ (dirs = 3 ∧ dirp = 2) := by
  unfold chooseDir
  -- `prefer_dir` is 2 unless it is set, and nothing in the source sets it.
  have prefers : (if (Peer.new c).preferDir = 1 ∨ (Peer.new c).preferDir = 2 then
      (Peer.new c).preferDir else 2) = 2 := rfl
  rw [prefers]
  by_cases one : dirs = 1
  · subst one
    simp [eq_comm]
  by_cases two : dirs = 2
  · subst two
    simp [eq_comm]
  by_cases three : dirs = 3
  · subst three
    simp [eq_comm]
  · simp [one, two, three]

/-! ## The offer -/

variable (c) in
/-- A Type 2 message with a PeerId, lists of versions and of suites, and directions. -/
structure Offer (wm : Wire) where
  peerId : String
  vers : List Int64
  suites : List Int64
  dirs : Int
  result : wm.eap = none
  notice : wm.errorCode = none
  type : wm.type = some 2
  readPeerId : parseStr c wm.peerId = some peerId
  readVers : parseInts c wm.vers = some vers
  readSuites : parseInts c wm.cryptosuites = some suites
  /-- An integer that does not fit is not read. -/
  readDirs : parseInt c wm.dirs = Reference.toInt64 dirs

/-- A version, a suite and a direction. -/
structure Choice where
  verp : Int64
  csp : Int64
  dirp : Int64

namespace Offer

variable {wm : Wire} (offer : Offer c wm)

/-- No common version, no common suite or no direction. -/
def Hopeless : Prop :=
  (∀ v ∈ offer.vers, v ∉ (Peer.new c).versions) ∨
    (∀ id ∈ offer.suites, id ∉ (Peer.new c).cryptosuites) ∨
      ¬ (offer.dirs = 1 ∨ offer.dirs = 2 ∨ offer.dirs = 3)

structure Best (choice : Choice) : Prop where
  verp : LargestCommon offer.vers (Peer.new c).versions choice.verp
  csp : FirstCommon offer.suites (Peer.new c).cryptosuites choice.csp
  dirp : Within choice.dirp (Int64.ofInt offer.dirs)

theorem dirs_eq {d : Int64} (known : d = 1 ∨ d = 2 ∨ d = 3) :
    (parseInt c wm.dirs).getD (-1) = d ↔ offer.dirs = d.toInt := by
  rw [offer.readDirs, Reference.toInt64]
  split
  · next fits =>
    rw [Option.getD_some, ← Int64.toInt_inj, fits]
  · next wide =>
    constructor
    · -- A number that does not fit is taken for -1, which is no direction.
      rintro rfl
      rcases known with wrong | wrong | wrong <;> cases wrong
    · intro same
      rw [same, Int64.ofInt_toInt] at wide
      exact (wide rfl).elim

theorem chooseDir_eq_some_iff {dirp : Int64} :
    chooseDir ((parseInt c wm.dirs).getD (-1)) (Peer.new c).preferDir = some dirp ↔
      (offer.dirs = 1 ∧ dirp = 1) ∨ (offer.dirs = 2 ∧ dirp = 2) ∨ (offer.dirs = 3 ∧ dirp = 2) := by
  rw [OpenPair.chooseDir_eq_some_iff, offer.dirs_eq (.inl rfl), offer.dirs_eq (.inr (.inl rfl)),
    offer.dirs_eq (.inr (.inr rfl))]
  rfl

end Offer

namespace Peer

/-- `Peer::new()`, with or without a PeerInfo that is JSON. -/
def Built (p : Peer c) : Prop := p = new c ∨ ∃ info, c.Text info ∧ p = (new c).withPeerInfo info

structure Standard (p : Peer c) : Prop where
  versions : p.versions = (new c).versions
  cryptosuites : p.cryptosuites = (new c).cryptosuites
  preferDir : p.preferDir = (new c).preferDir
  peerInfo : c.Text p.peerInfo

theorem Built.standard (lawful : c.Lawful) {p : Peer c} (built : p.Built) : p.Standard := by
  rcases built with rfl | ⟨info, text, rfl⟩
  · exact ⟨rfl, rfl, rfl, lawful.text_obj⟩
  · exact ⟨rfl, rfl, rfl, text⟩

theorem Effect.standard {p q : Peer c} {draws : Draws c} {wm : Wire} {out : Option Outcome}
    (effect : p.Effect draws wm q out) (standard : p.Standard) : q.Standard := by
  obtain ⟨versions, cryptosuites, preferDir, peerInfo⟩ := standard
  cases effect <;> exact ⟨versions, cryptosuites, preferDir, peerInfo⟩

theorem Standard.step {p : Peer c} (standard : p.Standard) (input : Input c) :
    (p.step input).1.Standard := by
  rcases p.step_cases input with ⟨same, -⟩ | ⟨noob, -, -, -, -, after⟩ |
    ⟨draws, bytes, wm, out, -, -, -, effect⟩
  · rw [same]
    exact standard
  · obtain ⟨versions, cryptosuites, preferDir, peerInfo⟩ := standard
    rw [after]
    exact ⟨versions, cryptosuites, preferDir, peerInfo⟩
  · exact effect.standard standard

theorem Built.standard_run (lawful : c.Lawful) {p : Peer c} (built : p.Built)
    (inputs : List (Input c)) : (run Peer.step p inputs).Standard :=
  run_invariant Peer.step (fun _ input standard => standard.step input)
    (built.standard lawful) inputs

variable {p : Peer c} {wm : Wire} {draws : Draws c} {bytes : Bytes}

/-- A standard Peer makes the best choice of an offer that leaves one. -/
theorem Standard.negotiates (standard : p.Standard) {offer : Offer c wm}
    (hopeful : ¬ offer.Hopeless) : ∃ choice, offer.Best choice ∧
      p.Negotiates wm offer.peerId choice.verp choice.csp choice.dirp := by
  obtain ⟨versions, others⟩ := not_or.mp hopeful
  obtain ⟨suites, direction⟩ := not_or.mp others
  rw [← bestVersion_eq_none_iff] at versions
  rw [← firstSupported_eq_none_iff] at suites
  obtain ⟨verp, chosen⟩ := Option.ne_none_iff_exists'.mp versions
  obtain ⟨csp, found⟩ := Option.ne_none_iff_exists'.mp suites
  have directed : ∃ dirp, Within dirp (Int64.ofInt offer.dirs) ∧
      chooseDir ((parseInt c wm.dirs).getD (-1)) (Peer.new c).preferDir = some dirp := by
    simp only [offer.chooseDir_eq_some_iff]
    rcases not_not.mp direction with one | two | three
    · exact ⟨1, by rw [one]; decide, .inl ⟨one, rfl⟩⟩
    · exact ⟨2, by rw [two]; decide, .inr (.inl ⟨two, rfl⟩)⟩
    · exact ⟨2, by rw [three]; decide, .inr (.inr ⟨three, rfl⟩)⟩
  obtain ⟨dirp, within, directed⟩ := directed
  refine ⟨⟨verp, csp, dirp⟩, ⟨bestVersion_eq_some_iff.mp chosen, firstSupported_eq_some_iff.mp found,
    within⟩, offer.readPeerId, ?_, ?_, ?_⟩
  · rw [offer.readVers, standard.versions]
    exact chosen
  · rw [offer.readSuites, standard.cryptosuites]
    exact found
  · rw [standard.preferDir]
    exact directed

/-- A standard Peer fails on an offer that leaves no choice. -/
theorem Standard.refuses (standard : p.Standard) (decoded : c.decodeWire bytes = some wm)
    {offer : Offer c wm} (hopeless : offer.Hopeless) :
    ∃ info, (p.receive draws bytes).2 = some (fail c info) := by
  have answer : p.receive draws bytes = p.onNegotiation wm := by
    rw [receive_eq decoded]
    simp [dispatch, offer.result, offer.notice, offer.type]
  rw [answer, onNegotiation, offer.readPeerId, offer.readVers, offer.readSuites,
    standard.versions, standard.cryptosuites, standard.preferDir]
  dsimp only [Option.getD_some]
  -- The version, the suite and the direction are chosen in this order.
  split
  · exact ⟨_, rfl⟩
  · next verp chosen =>
    split
    · exact ⟨_, rfl⟩
    · next csp found =>
      split
      · exact ⟨_, rfl⟩
      · next dirp directed =>
        rcases hopeless with versions | suites | direction
        · rw [bestVersion_eq_none_iff.mpr versions] at chosen
          cases chosen
        · rw [firstSupported_eq_none_iff.mpr suites] at found
          cases found
        · rcases offer.chooseDir_eq_some_iff.mp directed with ⟨one, -⟩ | ⟨two, -⟩ | ⟨three, -⟩
          · exact (direction (.inl one)).elim
          · exact (direction (.inr (.inl two))).elim
          · exact (direction (.inr (.inr three))).elim

theorem decode_negotiationResponse (lawful : c.Lawful) (text : c.Text p.peerInfo)
    (peerId : String) (verp csp dirp : Int64) :
    c.decodeWire (c.encodeWire (p.negotiationResponse peerId verp csp dirp)) =
      some (p.negotiationResponse peerId verp csp dirp) := by
  refine lawful.wire _ ?_
  simp only [negotiationResponse, Wire.raws]
  simp [lawful.text_int, lawful.text_jstr, text]

end Peer

/-! ## The answer -/

/-- The numbers that a machine keeps, the suite that it uses and the texts that it
authenticates are those of a choice. -/
structure Settled (m : Method c) (csp dirp : Int64) (choice : Choice) : Prop where
  csp : csp = choice.csp
  dirp : dirp = choice.dirp
  suite : ∃ suite, m.suite = some suite ∧ Suite.fromId (asU8 choice.csp) = some suite
  verpText : m.inp.verp = toString choice.verp
  cspText : m.inp.cryptosuitep = toString choice.csp
  dirpText : m.inp.dirp = toString choice.dirp

variable (c) in
/-- A message of Type 2 that names a choice. -/
def Answers (bytes : Bytes) (peerId : String) (choice : Choice) : Prop :=
  ∃ w, c.decodeWire bytes = some w ∧ w.type = some 2 ∧ parseStr c w.peerId = some peerId ∧
    parseInt c w.verp = some choice.verp ∧ parseInt c w.cryptosuitep = some choice.csp ∧
    parseInt c w.dirp = some choice.dirp

namespace Server

/-- A Server whose lists and directions are those of an offer. -/
structure Offers (s : Server c) {wm : Wire} (offer : Offer c wm) : Prop where
  versions : s.versions = offer.vers
  cryptosuites : s.cryptosuites = offer.suites
  dirs : s.dirs.toInt = offer.dirs

/-- The negotiation passes: the Server goes on to the key exchange with this choice. -/
def AcceptsAnswer (s : Server c) (draws : Draws c) (bytes : Bytes) (choice : Choice) : Prop :=
  ∃ t, s.receive draws bytes = (t, some (sendWire c t.keyExchangeRequest)) ∧
    Settled t.m t.csp t.dirp choice

theorem checkPeerId_eq {s : Server c} {wm : Wire} {peerId : String}
    (read : parseStr c wm.peerId = some peerId) : s.checkPeerId wm =
      if s.m.peerId = "" ∨ s.m.peerId = peerId then .ok () else .error "PeerId mismatch" := by
  unfold checkPeerId
  rw [read]
  by_cases unnamed : s.m.peerId = ""
  · simp [unnamed]
  · by_cases same : s.m.peerId = peerId
    · simp [same]
    · simp [unnamed, same, Ne.symm same]

variable {s : Server c} {wm : Wire} {offer : Offer c wm} {choice : Choice}

theorem Offers.negotiates (lawful : c.Lawful) (offers : s.Offers offer) (best : offer.Best choice)
    (hopeful : ¬ offer.Hopeless) {w : Wire} (named : s.checkPeerId w = .ok ())
    (verp : w.verp = some (toString choice.verp)) (csp : w.cryptosuitep = some (toString choice.csp))
    (dirp : w.dirp = some (toString choice.dirp)) :
    s.Negotiates w choice.csp choice.dirp := by
  have readVerp : (parseInt c w.verp).getD (-1) = choice.verp := by
    rw [verp, lawful.parseInt_toString, Option.getD_some]
  have readCsp : (parseInt c w.cryptosuitep).getD (-1) = choice.csp := by
    rw [csp, lawful.parseInt_toString, Option.getD_some]
  have readDirp : (parseInt c w.dirp).getD (-1) = choice.dirp := by
    rw [dirp, lawful.parseInt_toString, Option.getD_some]
  have range : 1 ≤ choice.dirp ∧ choice.dirp ≤ 3 := by
    apply best.dirp.range
    rcases not_not.mp (not_or.mp (not_or.mp hopeful).2).2 with one | two | three
    · exact .inl (congrArg Int64.ofInt one)
    · exact .inr (.inl (congrArg Int64.ofInt two))
    · exact .inr (.inr (congrArg Int64.ofInt three))
  have shared : choice.dirp &&& s.dirs ≠ 0 := by
    have dirs : s.dirs = Int64.ofInt offer.dirs := by rw [← offers.dirs, Int64.ofInt_toInt]
    rw [dirs, best.dirp.2]
    exact best.dirp.1
  -- The suite is on the list of the offer, where the Peer found it.
  obtain ⟨before, after, split, -, -⟩ := best.csp
  refine ⟨named, ?_, readCsp, ?_, readDirp, shared, range⟩
  · rw [readVerp, offers.versions, List.contains_iff_mem]
    exact best.verp.left
  · rw [offers.cryptosuites, List.contains_iff_mem, split]
    simp

theorem Offers.answered (lawful : c.Lawful) (offers : s.Offers offer) (best : offer.Best choice)
    (hopeful : ¬ offer.Hopeless) {p : Peer c} (text : c.Text p.peerInfo) (draws : Draws c) :
    let reply := c.encodeWire
      (p.negotiationResponse offer.peerId choice.verp choice.csp choice.dirp)
    ((s.m.peerId = "" ∨ s.m.peerId = offer.peerId) → s.AcceptsAnswer draws reply choice) ∧
      (¬ (s.m.peerId = "" ∨ s.m.peerId = offer.peerId) →
        s.receive draws reply = (s, some (fail c "PeerId mismatch"))) := by
  dsimp only
  have decoded := p.decode_negotiationResponse lawful text offer.peerId choice.verp choice.csp
    choice.dirp
  have named : s.checkPeerId (p.negotiationResponse offer.peerId choice.verp choice.csp choice.dirp) =
      if s.m.peerId = "" ∨ s.m.peerId = offer.peerId then .ok () else .error "PeerId mismatch" :=
    checkPeerId_eq (lawful.parseStr_jstr offer.peerId)
  constructor
  · intro known
    rw [if_pos known] at named
    have negotiates := offers.negotiates lawful best hopeful named rfl rfl rfl
    obtain ⟨before, after, -, member, -⟩ := best.csp
    obtain ⟨suite, implemented⟩ := Option.isSome_iff_exists.mp (suite_of_standard member)
    refine ⟨_, receive_negotiates lawful decoded rfl rfl negotiates implemented, ?_⟩
    exact ⟨rfl, rfl, ⟨suite, implemented, implemented⟩, rfl, rfl, rfl⟩
  · intro other
    rw [if_neg other] at named
    have dispatched : s.dispatch draws (p.negotiationResponse offer.peerId choice.verp choice.csp
        choice.dirp) = s.onNegotiation draws _ := rfl
    -- The PeerId is checked before anything else of the answer is read.
    rw [receive_eq decoded, dispatched, onNegotiation, named]

end Server

/-! ## The negotiation -/

/-- A Peer built by `Peer::new`, in whatever state, answers an offer with the best
choice and fails exactly where there is none; a Server of these lists accepts
the answer exactly where it knows the Peer by no other PeerId. -/
theorem negotiation_best (lawful : c.Lawful) :
    (∀ server peer v, bestVersion server peer = some v ↔ LargestCommon server peer v) ∧
    (∀ server peer, bestVersion server peer = none ↔ ∀ v ∈ server, v ∉ peer) ∧
    ∀ start : Peer c, start.Built → ∀ inputs draws bytes wm, c.decodeWire bytes = some wm →
      ∀ offer : Offer c wm,
        let p := run Peer.step start inputs
        let out := (p.receive draws bytes).2
        let q := (p.receive draws bytes).1
        ((∃ info, out = some (fail c info)) ↔ offer.Hopeless) ∧
        (¬ offer.Hopeless → ∃ choice reply, offer.Best choice ∧ out = some { send := some reply } ∧
          Answers c reply offer.peerId choice ∧ Settled q.m q.csp q.dirp choice ∧
          ∀ s : Server c, s.Offers offer → ∀ draws,
            ((s.m.peerId = "" ∨ s.m.peerId = offer.peerId) → s.AcceptsAnswer draws reply choice) ∧
            (¬ (s.m.peerId = "" ∨ s.m.peerId = offer.peerId) →
              s.receive draws reply = (s, some (fail c "PeerId mismatch")))) := by
  refine ⟨fun _ _ _ => bestVersion_eq_some_iff, fun _ _ => bestVersion_eq_none_iff, ?_⟩
  intro start built inputs draws bytes wm decoded offer p out q
  have standard : p.Standard := built.standard_run lawful inputs
  have answers (hopeful : ¬ offer.Hopeless) : ∃ choice, offer.Best choice ∧
      p.receive draws bytes =
        (p.negotiated wm offer.peerId choice.verp choice.csp choice.dirp,
          some (sendWire c (p.negotiationResponse offer.peerId choice.verp choice.csp choice.dirp))) := by
    obtain ⟨choice, best, negotiates⟩ := standard.negotiates hopeful
    exact ⟨choice, best, Peer.receive_negotiates lawful decoded offer.result offer.notice offer.type
      negotiates standard.peerInfo⟩
  constructor
  · constructor
    · rintro ⟨info, failed⟩
      by_contra hopeful
      obtain ⟨choice, -, answer⟩ := answers hopeful
      rw [show out = (p.receive draws bytes).2 from rfl, answer] at failed
      -- A failure ends the conversation, an answer does not.
      have done := congrArg Outcome.done (Option.some.inj failed)
      cases done
    · exact standard.refuses decoded
  · intro hopeful
    obtain ⟨choice, best, answer⟩ := answers hopeful
    obtain ⟨before, after, -, member, -⟩ := best.csp
    obtain ⟨suite, implemented⟩ := Option.isSome_iff_exists.mp (suite_of_standard member)
    refine ⟨choice, _, best, congrArg Prod.snd answer, ?_, ?_, ?_⟩
    · exact ⟨_, p.decode_negotiationResponse lawful standard.peerInfo _ _ _ _, rfl,
        lawful.parseStr_jstr _, lawful.parseInt_toString _, lawful.parseInt_toString _,
        lawful.parseInt_toString _⟩
    · rw [show q = (p.receive draws bytes).1 from rfl, answer]
      exact ⟨rfl, rfl, ⟨suite, implemented, implemented⟩, rfl, rfl, rfl⟩
    · intro s offers draws
      exact offers.answered lawful best hopeful standard.peerInfo draws

namespace Reference

def offer : Offer crates exchange.serverOffering.negotiationRequest where
  peerId := newPeerId crates exchange.naming
  vers := [1]
  suites := [2, 1]
  dirs := 2
  result := rfl
  notice := rfl
  type := rfl
  readPeerId := lawful.parseStr_jstr _
  readVers := lawful.parseInts_jsonInts _
  readSuites := lawful.parseInts_jsonInts _
  readDirs := lawful.parseInt_toString 2

theorem offer_hopeful : ¬ offer.Hopeless := by
  rintro (versions | suites | direction)
  · exact versions 1 (.head _) (.head _)
  · exact suites 2 (.head _) (.tail _ (.head _))
  · exact direction (.inr (.inl rfl))

theorem server_offers : exchange.serverOffering.Offers offer := ⟨rfl, rfl, rfl⟩

/-- A second Server of the same lists, which has named its Peer otherwise. -/
def otherServer : Server crates :=
  run Server.step exchange.serverFresh
    [.receive (draws .peer) (crates.encodeWire exchange.peerFresh.discoveryResponse)]

theorem otherServer_eq : otherServer =
    (exchange.serverFresh.heard exchange.peerFresh.discoveryResponse).offered (draws .peer) := by
  have offers : exchange.serverFresh.receive (draws .peer)
      (crates.encodeWire exchange.peerFresh.discoveryResponse) = _ :=
    ({ exchange with naming := draws .peer } : Exchange crates).server_offers lawful
  exact congrArg Prod.fst offers

end Reference

theorem negotiation_best_reference :
    ∃ choice reply, Reference.offer.Best choice ∧
      (Reference.exchange.peerFresh.receive (Reference.draws .peer) (Reference.crates.encodeWire
        Reference.exchange.serverOffering.negotiationRequest)).2 = some { send := some reply } ∧
      Reference.exchange.serverOffering.AcceptsAnswer (Reference.draws .server) reply choice := by
  obtain ⟨-, -, negotiates⟩ := negotiation_best Reference.lawful
  obtain ⟨-, answers⟩ := negotiates Reference.exchange.peerFresh
    (.inr ⟨_, Reference.exchange.peerText, rfl⟩) [] (Reference.draws .peer) _ _
    (Reference.exchange.decode_offer Reference.lawful) Reference.offer
  obtain ⟨choice, reply, best, answer, -, -, accepts⟩ := answers Reference.offer_hopeful
  exact ⟨choice, reply, best, answer,
    (accepts _ Reference.server_offers (Reference.draws .server)).1 (.inr rfl)⟩

/-- A Server of the same lists refuses the answer to another's offer. -/
theorem answer_refused_elsewhere :
    ∃ reply, (Reference.exchange.peerFresh.receive (Reference.draws .peer)
        (Reference.crates.encodeWire Reference.exchange.serverOffering.negotiationRequest)).2 =
          some { send := some reply } ∧
      Reference.otherServer.Offers Reference.offer ∧
      Reference.otherServer.receive (Reference.draws .server) reply =
        (Reference.otherServer, some (fail Reference.crates "PeerId mismatch")) := by
  have best : Reference.offer.Best ⟨1, 2, 2⟩ := by
    refine ⟨bestVersion_eq_some_iff.mp (by decide), firstSupported_eq_some_iff.mp (by decide), ?_⟩
    decide
  have offers : Reference.otherServer.Offers Reference.offer := by
    rw [Reference.otherServer_eq]
    exact ⟨rfl, rfl, rfl⟩
  have other : ¬ (Reference.otherServer.m.peerId = "" ∨
      Reference.otherServer.m.peerId = Reference.offer.peerId) := by
    rw [Reference.otherServer_eq]
    decide
  have refused := (offers.answered (p := Reference.exchange.peerFresh) Reference.lawful best
    Reference.offer_hopeful Reference.exchange.peerText (Reference.draws .server)).2 other
  exact ⟨_, congrArg Prod.snd (Reference.exchange.peer_negotiates Reference.lawful _), offers, refused⟩

end OpenPair
