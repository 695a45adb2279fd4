import OpenPair.Trust.ClusterInit

/-! Whether an identity's certificate and key belong together.

They are minted together and kept in two files. `from_pem` reads each file for
itself and compares nothing, so that the identity it returns is as good as the
files match.
-/

set_option autoImplicit false

namespace OpenPair

open FileTree

variable {c : Crates} {k : KeyCrates}

theorem loadOrInit_ok {draws : MintDraws} {names : List Name} {tree : Files Bytes} {cwd : Place}
    {dir : Path} {identity : KeyedIdentity} {pins : PeerPinStore}
    (loaded : (loadOrInit c k draws names tree cwd dir).2 = .ok (identity, pins)) :
    (initIdentity c k draws (tree.createDirs cwd (trustedPath dir)).1 cwd dir).2 = .ok identity := by
  unfold loadOrInit at loaded
  dsimp only at loaded
  split at loaded
  · split at loaded
    · cases loaded
    · next ended =>
      split at loaded
      · cases loaded
      · rw [ended]
        exact congrArg Except.ok (Prod.mk.inj (Except.ok.inj loaded)).1
  · cases loaded

theorem loadOrInit_belongs_iff (lawful : k.Lawful c) {draws : MintDraws} {names : List Name}
    {tree : Files Bytes} {cwd : Place} {dir : Path} {identity : KeyedIdentity} {pins : PeerPinStore}
    (loaded : (loadOrInit c k draws names tree cwd dir).2 = .ok (identity, pins)) :
    identity.Belongs c k ↔ FilesFit k (tree.createDirs cwd (trustedPath dir)).1 cwd
      (dir.child nodeCrt) (dir.child nodeKey) := by
  have made := loadOrInit_ok loaded
  unfold initIdentity at made
  split at made
  · exact fromFiles_belongs_iff made
  · next one =>
    rw [Bool.and_eq_true] at one
    split at made
    · cases made
    · next minted =>
      dsimp only at made
      split at made
      · cases made
        exact iff_of_true (generateWithUuid_belongs lawful minted) (filesFit_of_absent one)
      · cases made

/-- A minted identity's certificate and key belong together. One that is read
belongs together exactly when the two texts it is read from do. -/
theorem identity_belongs_iff (lawful : k.Lawful c) :
    (∀ draws uuid identity, generateWithUuid k draws uuid = .ok identity →
      identity.Belongs c k) ∧
    (∀ certPem keyPem identity, fromPem c k certPem keyPem = .ok identity →
      (identity.Belongs c k ↔ KeyFits k certPem keyPem)) ∧
    (∀ draws tree cwd dir identity, (loadOrGenerate c k draws tree cwd dir).2 = .ok identity →
      (identity.Belongs c k ↔
        FilesFit k tree cwd (dir.child nodeCertPem) (dir.child nodeKeyPem))) ∧
    (∀ draws names tree cwd dir identity pins,
      (loadOrInit c k draws names tree cwd dir).2 = .ok (identity, pins) →
      (identity.Belongs c k ↔ FilesFit k (tree.createDirs cwd (trustedPath dir)).1 cwd
        (dir.child nodeCrt) (dir.child nodeKey))) := by
  refine ⟨?_, ?_, ?_, ?_⟩
  · exact fun _ _ _ minted => generateWithUuid_belongs lawful minted
  · exact fun _ _ _ read => fromPem_belongs_iff read
  · exact fun _ _ _ _ _ loaded => loadOrGenerate_belongs_iff lawful loaded
  · exact fun _ _ _ _ _ _ _ loaded => loadOrInit_belongs_iff lawful loaded

namespace Reference

theorem minted_key : verifyingKeyFromCert keyCrates mintedDer = some firstPublic := by
  rw [verifyingKeyFromCert, minted_spk]
  have long : firstPublic.bytes.length = 32 := rfl
  have point : keyCrates.isPoint ⟨firstPublic.bytes, long⟩ = true := rfl
  simp only [dif_pos long, point, if_true]

set_option maxRecDepth 4096 in
theorem minted_fits : KeyFits keyCrates (pem mintedDer) (keyText firstSeed) := by
  have decoded : pemCertToDer (pem mintedDer) = some mintedDer := pemCertToDer_pem mintedDer_ne
  have seed : keyCrates.fromPkcs8Pem (keyText firstSeed) = .ok firstSeed := seedOfText_first
  have half : keyCrates.verifyingKey firstSeed = firstPublic := publicOf_first
  exact ⟨mintedDer, firstSeed, decoded, seed, by rw [minted_key, half]⟩

theorem ownTree_fits : FilesFit keyCrates ownTree [] (clusterPath.child nodeCrt)
    (clusterPath.child nodeKey) := by
  intro certPem keyPem cert key
  obtain rfl := Option.some.inj (ownTree_holds.cert.symm.trans cert)
  obtain rfl := Option.some.inj (ownTree_holds.key.symm.trans key)
  exact minted_fits

theorem ownTree_loaded : ∃ pins,
    (loadOrInit mintingCrates keyCrates mintDraws [] ownTree [] clusterPath).2 =
      .ok (mintedIdentity, pins) := by
  have led : ownTree.lookup [] (trustedPath clusterPath) = some .dir := rfl
  have again : initIdentity mintingCrates keyCrates mintDraws ownTree [] clusterPath =
      (ownTree, .ok mintedIdentity) := by
    simp only [initIdentity, pathExists_of_read ownTree_holds.cert,
      pathExists_of_read ownTree_holds.key, Bool.and_self, if_true, ownTree_holds.fromFiles,
      fromPem_minted]
    rfl
  refine ⟨({} : PeerPinStore), ?_⟩
  simp only [loadOrInit, ownTree_ready, if_true, again, loadTrustedInto, led, List.foldl_nil]

end Reference

/-- An identity as it is minted, and as it is read from its two files. -/
theorem identity_belongs_minted :
    Reference.mintedIdentity.Belongs Reference.mintingCrates Reference.keyCrates ∧
      ∃ identity pins, (loadOrInit Reference.mintingCrates Reference.keyCrates
          Reference.mintDraws [] Reference.ownTree [] Reference.clusterPath).2 =
            .ok (identity, pins) ∧
        identity.Belongs Reference.mintingCrates Reference.keyCrates := by
  obtain ⟨minted, -, -, opened⟩ := identity_belongs_iff Reference.keyCrates_lawful
  obtain ⟨pins, loaded⟩ := Reference.ownTree_loaded
  refine ⟨minted _ _ _ Reference.generate_minted, _, pins, loaded, ?_⟩
  rw [opened _ _ _ _ _ _ _ loaded, Reference.ownTree_ready]
  exact Reference.ownTree_fits

namespace Reference

def mixedIdentity : KeyedIdentity :=
  { mintedIdentity with
    keyPkcs8Der := pkcs8 secondSeed
    keyPem := keyText secondSeed
    signingSeed := secondSeed }

theorem seedOfText_second : seedOfText (keyText secondSeed) = .ok secondSeed := by
  have other : keyText secondSeed ≠ keyText firstSeed := by decide +kernel
  rw [seedOfText, if_neg other, if_pos rfl]

set_option maxRecDepth 4096 in
theorem fromPem_mixed : fromPem mintingCrates keyCrates (pem mintedDer) (keyText secondSeed) =
    .ok mixedIdentity := by
  have pair : keyCrates.keyPairFromPem (keyText secondSeed) = .ok secondSeed := seedOfText_second
  have seed : keyCrates.fromPkcs8Pem (keyText secondSeed) = .ok secondSeed := seedOfText_second
  have decoded : pemCertToDer (pem mintedDer) = some mintedDer := pemCertToDer_pem mintedDer_ne
  exact fromPem_of pair decoded (nodeUuidFromCert_urn minting_uris) seed

end Reference

/-- Two files that can be read, and an identity whose key its certificate does
not carry. -/
theorem mixed_files_mismatch :
    fromPem Reference.mintingCrates Reference.keyCrates (Reference.pem Reference.mintedDer)
        (Reference.keyText Reference.secondSeed) = .ok Reference.mixedIdentity ∧
      ¬ Reference.mixedIdentity.Belongs Reference.mintingCrates Reference.keyCrates := by
  refine ⟨Reference.fromPem_mixed, ?_⟩
  intro belongs
  have carried : verifyingKeyFromCert Reference.keyCrates Reference.mintedDer =
      some (Reference.publicOf Reference.secondSeed) := belongs.key
  rw [Reference.minted_key] at carried
  have differ : Reference.firstPublic.bytes ≠ (Reference.publicOf Reference.secondSeed).bytes := by
    decide
  exact differ (congrArg ByteArr.bytes (Option.some.inj carried))

end OpenPair
