import OpenPair.Library.FileTree
import OpenPair.Trust.Identity

/-! A node's identity with its keys: minted, taken from two PEM texts, kept in
two files of a directory (`identity.rs`, `membership.rs`).

Nothing is assumed about the crates here; `KeyCrates.Lawful` says what they
document.
-/

set_option autoImplicit false

namespace OpenPair

open FileTree

/-! ## The crates -/

inductive SanType where
  | dnsName (name : String)
  | uri (uri : String)
  deriving DecidableEq

inductive KeyUsagePurpose where
  | digitalSignature
  deriving DecidableEq

inductive ExtendedKeyUsagePurpose where
  | serverAuth
  | clientAuth
  deriving DecidableEq

inductive IsCa where
  | explicitNoCa
  deriving DecidableEq

-- `rcgen::CertificateParams`, with times in seconds.
structure CertificateParams where
  subjectAltNames : List SanType
  commonName : String
  keyUsages : List KeyUsagePurpose
  extendedKeyUsages : List ExtendedKeyUsagePurpose
  isCa : IsCa
  serialNumber : ByteArr 16
  notBefore : Int
  notAfter : Int
  deriving DecidableEq

def SanType.uri? : SanType → Option String
  | .dnsName _ => none
  | .uri name => some name

def CertificateParams.uris (params : CertificateParams) : List String :=
  params.subjectAltNames.filterMap SanType.uri?

structure KeyCrates where
  /-- `ed25519_dalek::SigningKey` by its seed: its public key, PKCS#8 forms, and the
  bytes that `VerifyingKey::from_bytes` takes. -/
  verifyingKey : ByteArr 32 → ByteArr 32
  toPkcs8Der : ByteArr 32 → Except String Bytes
  fromPkcs8Pem : String → Except String (ByteArr 32)
  isPoint : ByteArr 32 → Bool
  /-- `rcgen::KeyPair`. -/
  KeyPair : Type
  keyPairFromDer : Bytes → Except String KeyPair
  keyPairFromPem : String → Except String KeyPair
  publicKeyRaw : KeyPair → Bytes
  serializeDer : KeyPair → Bytes
  serializePem : KeyPair → String
  /-- `rcgen::Ia5String::try_from`. -/
  ia5String : String → Except String String
  /-- `CertificateParams::self_signed`, the certificate as DER and as PEM. -/
  selfSigned : CertificateParams → KeyPair → Except String (Bytes × String)
  /-- `x509_parser`: the bits of the subject public key. -/
  subjectPublicKey : Bytes → Option Bytes

structure KeyCrates.Lawful (c : Crates) (k : KeyCrates) : Prop where
  ia5 {s t : String} (checked : k.ia5String s = .ok t) : t = s
  point (seed : ByteArr 32) : k.isPoint (k.verifyingKey seed) = true
  /-- The key pair read back from PKCS#8 has the public key of the seed. -/
  pkcs8 {seed : ByteArr 32} {der : Bytes} {pair : k.KeyPair} (written : k.toPkcs8Der seed = .ok der)
    (read : k.keyPairFromDer der = .ok pair) : k.publicKeyRaw pair = (k.verifyingKey seed).bytes
  /-- A certificate carries the names and the public key it was signed for. -/
  names {params : CertificateParams} {pair : k.KeyPair} {der : Bytes} {pem : String}
    (signed : k.selfSigned params pair = .ok (der, pem)) : c.sanUris der = some params.uris
  key {params : CertificateParams} {pair : k.KeyPair} {der : Bytes} {pem : String}
    (signed : k.selfSigned params pair = .ok (der, pem)) :
    k.subjectPublicKey der = some (k.publicKeyRaw pair)

variable (c : Crates) (k : KeyCrates)

/-! ## Identities -/

structure KeyedIdentity extends Identity where
  keyPkcs8Der : Bytes
  keyPem : String
  signingSeed : ByteArr 32

def KeyedIdentity.verifyingKey (identity : KeyedIdentity) : ByteArr 32 :=
  k.verifyingKey identity.signingSeed

/-- What minting reads from outside: random bytes, the clock and the host's name. -/
structure MintDraws where
  uuid : String
  seed : ByteArr 32
  serial : ByteArr 16
  now : Int
  hostname : String

def validity : Int := 730 * 24 * 60 * 60

def mintParams (draws : MintDraws) (host uri nodeUuid : String) : CertificateParams :=
  { subjectAltNames := [.dnsName host, .uri uri]
    commonName := nodeUuid
    keyUsages := [.digitalSignature]
    extendedKeyUsages := [.serverAuth, .clientAuth]
    isCa := .explicitNoCa
    serialNumber := draws.serial
    notBefore := draws.now
    notAfter := draws.now + validity }

def generateWithUuid (draws : MintDraws) (nodeUuid : String) : Except String KeyedIdentity := do
  let pkcs8 ← k.toPkcs8Der draws.seed
  let pair ← k.keyPairFromDer pkcs8
  let host ← k.ia5String draws.hostname
  let uri ← k.ia5String (nodeUrn nodeUuid)
  let cert ← k.selfSigned (mintParams draws host uri nodeUuid) pair
  return { nodeUuid := nodeUuid
           certDer := cert.1
           certPem := cert.2
           keyPkcs8Der := k.serializeDer pair
           keyPem := k.serializePem pair
           signingSeed := draws.seed }

def generate (draws : MintDraws) : Except String KeyedIdentity :=
  generateWithUuid k draws draws.uuid

def fromPem (certPem keyPem : String) : Except String KeyedIdentity :=
  match k.keyPairFromPem keyPem with
  | .error e => .error e
  | .ok pair =>
    match pemCertToDer certPem with
    | none => .error "no CERTIFICATE block"
    | some certDer =>
      match nodeUuidFromCert c certDer with
      | none => .error "cert missing urn:nvpair:node SAN"
      | some nodeUuid =>
        match k.fromPkcs8Pem keyPem with
        | .error e => .error e
        | .ok seed =>
          .ok { nodeUuid := nodeUuid
                certDer := certDer
                certPem := certPem
                keyPkcs8Der := k.serializeDer pair
                keyPem := keyPem
                signingSeed := seed }

def verifyingKeyFromCert (der : Bytes) : Option (ByteArr 32) :=
  match k.subjectPublicKey der with
  | none => none
  | some spk =>
    if long : spk.length = 32 then
      if k.isPoint ⟨spk, long⟩ then some ⟨spk, long⟩ else none
    else none

/-! ## In files -/

/-- Why a call fails: a message, of the code's own or of a crate, or an error of
the system. -/
inductive TrustError where
  | message (text : String)
  | io
  deriving DecidableEq

def decodeUtf8 (bytes : Bytes) : Option String := String.fromUTF8? ⟨bytes.toArray⟩

theorem decodeUtf8_utf8 (s : String) : decodeUtf8 (utf8 s) = some s := by
  have bytes : (⟨(utf8 s).toArray⟩ : ByteArray) = s.toUTF8 := by simp [utf8]
  rw [decodeUtf8, bytes, String.fromUTF8?,
    dif_pos (show s.toUTF8.IsValidUTF8 from s.isValidUTF8)]
  rfl

-- `fs::read_to_string`.
def readToString (tree : Files Bytes) (cwd : Place) (p : Path) : Option String :=
  match tree.lookup cwd p with
  | some (.file bytes) => decodeUtf8 bytes
  | _ => none

-- `Path::exists`.
def pathExists (tree : Files Bytes) (cwd : Place) (p : Path) : Bool := (tree.lookup cwd p).isSome

/-- Two texts written one after the other; the second only if the first is. -/
def writeBoth (tree : Files Bytes) (cwd : Place) (p : Path) (first : String) (q : Path)
    (second : String) : Files Bytes × Bool :=
  let written := tree.write cwd p (utf8 first)
  if written.2 then written.1.write cwd q (utf8 second) else written

def nodeKeyPem : Name := "node-key.pem".toList

def nodeCertPem : Name := "node-cert.pem".toList

-- `Identity::save`.
def KeyedIdentity.save (identity : KeyedIdentity) (tree : Files Bytes) (cwd : Place) (dir : Path) :
    Files Bytes × Bool :=
  let made := tree.createDirs cwd dir
  if made.2 then
    writeBoth made.1 cwd (dir.child nodeKeyPem) identity.keyPem (dir.child nodeCertPem)
      identity.certPem
  else made

-- `from_pem` of two files.
def fromFiles (tree : Files Bytes) (cwd : Place) (certPath keyPath : Path) :
    Except TrustError KeyedIdentity :=
  match readToString tree cwd certPath, readToString tree cwd keyPath with
  | some certPem, some keyPem => (fromPem c k certPem keyPem).mapError .message
  | _, _ => .error .io

def loadOrGenerate (draws : MintDraws) (tree : Files Bytes) (cwd : Place) (dir : Path) :
    Files Bytes × Except TrustError KeyedIdentity :=
  if pathExists tree cwd (dir.child nodeKeyPem) && pathExists tree cwd (dir.child nodeCertPem) then
    (tree, fromFiles c k tree cwd (dir.child nodeCertPem) (dir.child nodeKeyPem))
  else
    match generate k draws with
    | .error e => (tree, .error (.message e))
    | .ok identity =>
      let saved := identity.save tree cwd dir
      (saved.1, if saved.2 then .ok identity else .error .io)

/-! ## The certificate and the key -/

section

variable {c k}

theorem Except.bind_eq_ok {ε α β : Type} {x : Except ε α} {f : α → Except ε β} {b : β}
    (bound : (x >>= f) = .ok b) : ∃ a, x = .ok a ∧ f a = .ok b := by
  cases x with
  | error e => cases bound
  | ok a => exact ⟨a, rfl, bound⟩

variable (c k) in
/-- The UUID is the certificate's and so is the public key. -/
structure KeyedIdentity.Belongs (identity : KeyedIdentity) : Prop where
  nodeUuid : nodeUuidFromCert c identity.certDer = some identity.nodeUuid
  key : verifyingKeyFromCert k identity.certDer = some (identity.verifyingKey k)

variable (k) in
/-- The two texts are a certificate and the key whose public half it carries. -/
def KeyFits (certPem keyPem : String) : Prop :=
  ∃ der seed, pemCertToDer certPem = some der ∧ k.fromPkcs8Pem keyPem = .ok seed ∧
    verifyingKeyFromCert k der = some (k.verifyingKey seed)

theorem generateWithUuid_ok {draws : MintDraws} {uuid host uri pem : String} {pkcs8 der : Bytes}
    {pair : k.KeyPair} (written : k.toPkcs8Der draws.seed = .ok pkcs8)
    (read : k.keyPairFromDer pkcs8 = .ok pair) (named : k.ia5String draws.hostname = .ok host)
    (urn : k.ia5String (nodeUrn uuid) = .ok uri)
    (signed : k.selfSigned (mintParams draws host uri uuid) pair = .ok (der, pem)) :
    generateWithUuid k draws uuid = .ok { nodeUuid := uuid
                                          certDer := der
                                          certPem := pem
                                          keyPkcs8Der := k.serializeDer pair
                                          keyPem := k.serializePem pair
                                          signingSeed := draws.seed } := by
  rw [generateWithUuid, written]
  simp only [bind, Except.bind, read, named, urn, signed]
  rfl

theorem generateWithUuid_belongs (lawful : k.Lawful c) {draws : MintDraws} {uuid : String}
    {identity : KeyedIdentity} (minted : generateWithUuid k draws uuid = .ok identity) :
    identity.Belongs c k := by
  obtain ⟨pkcs8, written, minted⟩ := Except.bind_eq_ok minted
  obtain ⟨pair, read, minted⟩ := Except.bind_eq_ok minted
  obtain ⟨host, -, minted⟩ := Except.bind_eq_ok minted
  obtain ⟨uri, checked, minted⟩ := Except.bind_eq_ok minted
  obtain ⟨⟨der, pem⟩, signed, minted⟩ := Except.bind_eq_ok minted
  cases minted
  constructor
  · obtain rfl := lawful.ia5 checked
    have uris : c.sanUris der = some [nodeUrn uuid] := lawful.names signed
    exact nodeUuidFromCert_urn uris
  · have long : (k.publicKeyRaw pair).length = 32 := by
      rw [lawful.pkcs8 written read, (k.verifyingKey draws.seed).length_eq]
    have same : (⟨k.publicKeyRaw pair, long⟩ : ByteArr 32) = k.verifyingKey draws.seed :=
      ByteArr.ext (lawful.pkcs8 written read)
    rw [verifyingKeyFromCert, lawful.key signed]
    simp only [dif_pos long, same, lawful.point, if_true]
    rfl

theorem fromPem_of {certPem keyPem uuid : String} {der : Bytes} {pair : k.KeyPair}
    {seed : ByteArr 32} (read : k.keyPairFromPem keyPem = .ok pair)
    (decoded : pemCertToDer certPem = some der) (named : nodeUuidFromCert c der = some uuid)
    (parsed : k.fromPkcs8Pem keyPem = .ok seed) :
    fromPem c k certPem keyPem = .ok { nodeUuid := uuid
                                       certDer := der
                                       certPem := certPem
                                       keyPkcs8Der := k.serializeDer pair
                                       keyPem := keyPem
                                       signingSeed := seed } := by
  simp only [fromPem, read, decoded, named, parsed]

theorem fromPem_ok {certPem keyPem : String} {identity : KeyedIdentity}
    (read : fromPem c k certPem keyPem = .ok identity) :
    pemCertToDer certPem = some identity.certDer ∧
      nodeUuidFromCert c identity.certDer = some identity.nodeUuid ∧
      k.fromPkcs8Pem keyPem = .ok identity.signingSeed := by
  unfold fromPem at read
  split at read
  · cases read
  split at read
  · cases read
  next der decoded =>
  split at read
  · cases read
  next uuid named =>
  split at read
  · cases read
  next seed parsed =>
  cases read
  exact ⟨decoded, named, parsed⟩

theorem fromPem_belongs_iff {certPem keyPem : String} {identity : KeyedIdentity}
    (read : fromPem c k certPem keyPem = .ok identity) :
    identity.Belongs c k ↔ KeyFits k certPem keyPem := by
  obtain ⟨decoded, named, parsed⟩ := fromPem_ok read
  constructor
  · intro belongs
    exact ⟨identity.certDer, identity.signingSeed, decoded, parsed, belongs.key⟩
  · rintro ⟨der, seed, decoded', parsed', fits⟩
    obtain rfl := Option.some.inj (decoded.symm.trans decoded')
    obtain rfl := Except.ok.inj (parsed.symm.trans parsed')
    exact ⟨named, fits⟩

/-- What the two files hold, where they can be read, is a certificate and its key. -/
def FilesFit (k : KeyCrates) (tree : Files Bytes) (cwd : Place) (certPath keyPath : Path) : Prop :=
  ∀ certPem keyPem, readToString tree cwd certPath = some certPem →
    readToString tree cwd keyPath = some keyPem → KeyFits k certPem keyPem

theorem pathExists_of_read {tree : Files Bytes} {cwd : Place} {p : Path} {text : String}
    (read : readToString tree cwd p = some text) : pathExists tree cwd p = true := by
  unfold readToString at read
  unfold pathExists
  cases held : tree.lookup cwd p with
  | none => simp [held] at read
  | some entry => rfl

theorem fromFiles_ok {tree : Files Bytes} {cwd : Place} {certPath keyPath : Path}
    {identity : KeyedIdentity} (loaded : fromFiles c k tree cwd certPath keyPath = .ok identity) :
    ∃ certPem keyPem, readToString tree cwd certPath = some certPem ∧
      readToString tree cwd keyPath = some keyPem ∧ fromPem c k certPem keyPem = .ok identity := by
  unfold fromFiles at loaded
  split at loaded
  · next certPem keyPem cert key =>
    cases parsed : fromPem c k certPem keyPem with
    | error e => simp [parsed, Except.mapError] at loaded
    | ok read =>
      simp only [parsed, Except.mapError, Except.ok.injEq] at loaded
      subst loaded
      exact ⟨certPem, keyPem, cert, key, parsed⟩
  · cases loaded

theorem fromFiles_belongs_iff {tree : Files Bytes} {cwd : Place} {certPath keyPath : Path}
    {identity : KeyedIdentity} (loaded : fromFiles c k tree cwd certPath keyPath = .ok identity) :
    identity.Belongs c k ↔ FilesFit k tree cwd certPath keyPath := by
  obtain ⟨certPem, keyPem, cert, key, read⟩ := fromFiles_ok loaded
  rw [fromPem_belongs_iff read]
  constructor
  · intro fits certPem' keyPem' cert' key'
    obtain rfl := Option.some.inj (cert.symm.trans cert')
    obtain rfl := Option.some.inj (key.symm.trans key')
    exact fits
  · intro fits
    exact fits certPem keyPem cert key

theorem filesFit_of_absent {tree : Files Bytes} {cwd : Place} {certPath keyPath : Path}
    (absent : ¬ (pathExists tree cwd certPath = true ∧ pathExists tree cwd keyPath = true)) :
    FilesFit k tree cwd certPath keyPath := by
  intro certPem keyPem cert key
  exact absurd ⟨pathExists_of_read cert, pathExists_of_read key⟩ absent

theorem loadOrGenerate_belongs_iff (lawful : k.Lawful c) {draws : MintDraws} {tree : Files Bytes}
    {cwd : Place} {dir : Path} {identity : KeyedIdentity}
    (loaded : (loadOrGenerate c k draws tree cwd dir).2 = .ok identity) :
    identity.Belongs c k ↔
      FilesFit k tree cwd (dir.child nodeCertPem) (dir.child nodeKeyPem) := by
  unfold loadOrGenerate at loaded
  split at loaded
  · exact fromFiles_belongs_iff loaded
  · next absent =>
    rw [Bool.and_eq_true] at absent
    have fits : FilesFit k tree cwd (dir.child nodeCertPem) (dir.child nodeKeyPem) :=
      filesFit_of_absent fun both => absent both.symm
    split at loaded
    · cases loaded
    · next minted =>
      dsimp only at loaded
      split at loaded
      · cases loaded
        exact iff_of_true (generateWithUuid_belongs lawful minted) fits
      · cases loaded

end

end OpenPair
