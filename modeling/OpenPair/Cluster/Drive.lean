import OpenPair.Cluster.Requests

/-! The loops of `create_invite` and `submit_pin` (`node.rs`), with the other
side's session answering over a relay that delivers every envelope.

A loop is given fuel; it has no result where the fuel runs out or a call panics.
-/

set_option autoImplicit false

namespace OpenPair

variable {c : Crates}

variable (c) in
structure Sessions where
  inviter : InviterSession c
  joiner : JoinerSession c

/-- Why a drive ends early: an answer that is no success, or an error of its own. -/
inductive DriveError where
  | answer (reply : Reply)
  | message (text : String)
  deriving DecidableEq, Repr

variable (c) in
/-- What the two sides draw in each round. -/
structure Supply where
  inviter : Nat → Draws c
  joiner : Nat → Draws c

/-! ## The inviter drives -/

/-- `post_pairing` to the joiner: its session after the request, and what is returned. -/
def postInitial (joiner : JoinerSession c) (draws : Draws c) (env : PairingEnvelope) :
    JoinerSession c × Option (Except DriveError PairingEnvelope) :=
  let answered := joiner.initialRequest draws env.inviteId (env.blob c)
  (answered.1, answered.2.map fun answer =>
    (initialReply env.inviteId answer).posted.mapError .answer)

def driveInitial (supply : Supply c) (inviteId : String) :
    Nat → Nat → Sessions c → Bytes → Option (Except DriveError (Sessions c))
  | 0, _, _, _ => none
  | fuel + 1, round, s, msg =>
    let posted := postInitial s.joiner (supply.joiner round)
      (.withMsg c inviteId Phase.initial msg)
    match posted.2 with
    | none => none
    | some (.error e) => some (.error e)
    | some (.ok resp) =>
      let stepped := s.inviter.initialResponse (supply.inviter round) resp
      match stepped.2 with
      | none => none
      | some (.error e) => some (.error (.message e))
      | some (.ok none) => some (.ok ⟨stepped.1, posted.1⟩)
      | some (.ok (some msg)) =>
        driveInitial supply inviteId fuel (round + 1) ⟨stepped.1, posted.1⟩ msg

def createInvite (supply : Supply c) (inviteId pin : String) (fuel : Nat) (s : Sessions c) :
    Option (Except DriveError (Sessions c)) :=
  match driveInitial supply inviteId fuel 0 s s.inviter.start with
  | none => none
  | some (.error e) => some (.error e)
  | some (.ok s) =>
    match s.inviter.invite pin with
    | .error e => some (.error (.message e))
    | .ok inviter => some (.ok { s with inviter := inviter })

/-! ## The joiner drives -/

/-- `post_pairing` to the inviter: its session after the request, and what is returned. -/
def postCompletion (inviter : InviterSession c) (draws : Draws c) (env : PairingEnvelope) :
    InviterSession c × Option (Except DriveError PairingEnvelope) :=
  let answered := inviter.completionRequest draws env.inviteId (env.blob c)
  (answered.1, answered.2.map fun answer => answer.1.posted.mapError .answer)

def driveCompletion (supply : Supply c) (inviteId : String) :
    Nat → Nat → Sessions c → PairingEnvelope → Option (Except DriveError (Sessions c × Step))
  | 0, _, _, _ => none
  | fuel + 1, round, s, resp =>
    let stepped := s.joiner.completionResponse (supply.joiner round) resp
    match stepped.2 with
    | none => none
    | some (.error e) => some (.error (.message e))
    | some (.ok (.done step)) => some (.ok (⟨s.inviter, stepped.1⟩, step))
    | some (.ok (.send msg)) =>
      let posted := postCompletion s.inviter (supply.inviter round)
        (.withMsg c inviteId Phase.completion msg)
      match posted.2 with
      | none => none
      | some (.error e) => some (.error e)
      | some (.ok resp) =>
        driveCompletion supply inviteId fuel (round + 1) ⟨posted.1, stepped.1⟩ resp

def submitPin (supply : Supply c) (inviteId pin : String) (fuel : Nat) (s : Sessions c) :
    Option (Except DriveError (Sessions c × Step)) :=
  if isValidPin pin = false then some (.error (.message "pin must be six digits"))
  else
    let begun := s.joiner.beginCompletion pin
    match begun.2 with
    | .error e => some (.error (.message e))
    | .ok _ =>
      let posted := postCompletion s.inviter (supply.inviter 0)
        (.signal inviteId Phase.completion "")
      match posted.2 with
      | none => none
      | some (.error e) => some (.error e)
      | some (.ok resp) =>
        driveCompletion supply inviteId fuel 1 ⟨posted.1, begun.1⟩ resp

/-! ## One round -/

section

variable {supply : Supply c} {inviteId : String} {fuel round : Nat} {s : Sessions c}
  {inviter : InviterSession c} {joiner : JoinerSession c} (lawful : c.Lawful)
include lawful

theorem postInitial_eq {draws : Draws c} {session : JoinerSession c} {msg bytes : Bytes}
    (answered : session.onInitial draws msg = (joiner, some (.ok bytes))) :
    postInitial session draws (.withMsg c inviteId Phase.initial msg) =
      (joiner, some (.ok (.withMsg c inviteId Phase.initial bytes))) := by
  simp only [postInitial, JoinerSession.initialRequest, PairingEnvelope.blob_withMsg lawful,
    answered, Option.map_some, Except.map]
  rfl

theorem initialResponse_eq {draws : Draws c} {session : InviterSession c} {bytes : Bytes}
    {step : Step} (heard : session.onInitial draws bytes = (inviter, some step))
    (silent : step.error = none) :
    session.initialResponse draws (.withMsg c inviteId Phase.initial bytes) =
      (inviter, some (if step.done then .ok none
        else
          match step.send with
          | none => .error "inviter stalled in Initial"
          | some msg => .ok (some msg))) := by
  simp only [InviterSession.initialResponse, PairingEnvelope.blob_withMsg lawful, heard, silent,
    Option.map_some]
  rfl

theorem driveInitial_continues {msg bytes next : Bytes} {step : Step}
    (answered : s.joiner.onInitial (supply.joiner round) msg = (joiner, some (.ok bytes)))
    (heard : s.inviter.onInitial (supply.inviter round) bytes = (inviter, some step))
    (silent : step.error = none) (more : step.done = false) (send : step.send = some next) :
    driveInitial supply inviteId (fuel + 1) round s msg =
      driveInitial supply inviteId fuel (round + 1) ⟨inviter, joiner⟩ next := by
  simp only [driveInitial, postInitial_eq lawful answered, initialResponse_eq lawful heard silent,
    more, send, Bool.false_eq_true, if_false]

theorem driveInitial_ends {msg bytes : Bytes} {step : Step}
    (answered : s.joiner.onInitial (supply.joiner round) msg = (joiner, some (.ok bytes)))
    (heard : s.inviter.onInitial (supply.inviter round) bytes = (inviter, some step))
    (silent : step.error = none) (done : step.done = true) :
    driveInitial supply inviteId (fuel + 1) round s msg = some (.ok ⟨inviter, joiner⟩) := by
  simp only [driveInitial, postInitial_eq lawful answered, initialResponse_eq lawful heard silent,
    done, if_true]

theorem postCompletion_eq {draws : Draws c} {msg : Bytes} {session : InviterSession c} {step : Step}
    (some : msg ≠ []) (answered : session.onCompletion draws msg = (inviter, .some (.ok step))) :
    postCompletion session draws (.withMsg c inviteId Phase.completion msg) =
      (inviter, .some (.ok (.withMsg c inviteId Phase.completion (step.send.getD [])))) := by
  have held : msg.isEmpty = false := by simpa using some
  simp only [postCompletion, InviterSession.completionRequest,
    PairingEnvelope.blob_withMsg lawful, held, answered, Option.map_some, Bool.false_eq_true,
    if_false]
  rfl

omit lawful in
theorem postCompletion_kickoff {draws : Draws c} {session : InviterSession c} :
    postCompletion session draws (.signal inviteId Phase.completion "") =
      (session, some (.ok (.withMsg c inviteId Phase.completion session.start))) := rfl

theorem driveCompletion_continues {msg send : Bytes} {step reply : Step}
    (stepped : s.joiner.onCompletion (supply.joiner round) msg = (joiner, some step))
    (more : step.done = false) (sends : step.send = some send) (held : send ≠ [])
    (answered : s.inviter.onCompletion (supply.inviter round) send =
      (inviter, some (.ok reply))) :
    driveCompletion supply inviteId (fuel + 1) round s
        (.withMsg c inviteId Phase.completion msg) =
      driveCompletion supply inviteId fuel (round + 1) ⟨inviter, joiner⟩
        (.withMsg c inviteId Phase.completion (reply.send.getD [])) := by
  simp only [driveCompletion, JoinerSession.completionResponse,
    PairingEnvelope.blob_withMsg lawful, stepped, more, sends, Option.map_some,
    postCompletion_eq lawful held answered, Bool.false_eq_true, if_false]

theorem driveCompletion_ends {msg : Bytes} {step : Step}
    (stepped : s.joiner.onCompletion (supply.joiner round) msg = (joiner, some step))
    (done : step.done = true) :
    driveCompletion supply inviteId (fuel + 1) round s
        (.withMsg c inviteId Phase.completion msg) =
      some (.ok (⟨s.inviter, joiner⟩, step)) := by
  simp only [driveCompletion, JoinerSession.completionResponse,
    PairingEnvelope.blob_withMsg lawful, stepped, done, Option.map_some, if_true]

end

/-! ## Both, one after the other -/

def pair (initial completion : Supply c) (inviteId p q : String) (fuel : Nat)
    (inviterInfo joinerInfo : PairingInfo) : Option (Except DriveError (Sessions c × Step)) :=
  match createInvite initial inviteId p fuel ⟨.new c inviterInfo, .new c joinerInfo⟩ with
  | none => none
  | some (.error e) => some (.error e)
  | some (.ok s) => submitPin completion inviteId q fuel s

end OpenPair
