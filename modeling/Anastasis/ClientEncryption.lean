import Anastasis.Client.Crypto
import Anastasis.Core.Crypto

/-! Data that one of the two clients has encrypted, in the hands of the other. -/

set_option autoImplicit false

namespace Anastasis

open Library
open Client (Host PolicyKey ascii)
open Core (Platform World encodeCrock decodeCrock decodeCrock_encodeCrock randomBlock stringToBytes)

/-- Both clients are linked with the same primitives. -/
structure SamePrimitives (platform : Platform) (host : Host) : Prop where
  kdf : ∀ size ikm salt info, platform.kdf size ikm salt info = host.kdf size salt ikm info
  secretbox : ∀ message (nonce : Block 24) (key : Block 32),
    platform.secretbox message nonce key = host.secretboxEasy message nonce.val key.val
  secretboxOpen : ∀ box (nonce : Block 24) (key : Block 32),
    platform.secretboxOpen box nonce key = host.secretboxOpenEasy box nonce.val key.val

variable {platform : Platform} {host : Host}

theorem anastasisEncrypt_agrees (same : SamePrimitives platform host) (nonce : Block 24)
    (key data : Bytes) (salt : String) :
    Core.anastasisEncrypt platform (encodeCrock nonce.val) (encodeCrock key) (encodeCrock data)
        salt =
      .ok (encodeCrock (Client.anastasisEncrypt host nonce key data (ascii salt))) := by
  have sized : Core.checkNonce nonce.val = .ok nonce := dif_pos nonce.property
  simp only [Core.anastasisEncrypt, Core.deriveKey, decodeCrock_encodeCrock, bind, Except.bind,
    pure, Except.pure, sized, same.kdf, same.secretbox, stringToBytes, Client.anastasisEncrypt,
    Client.deriveKey, ascii]

theorem encodeCrock_inj {first second : Bytes} :
    encodeCrock first = encodeCrock second ↔ first = second := by
  refine ⟨fun eq => ?_, congrArg encodeCrock⟩
  have decoded := congrArg decodeCrock eq
  rw [decodeCrock_encodeCrock, decodeCrock_encodeCrock] at decoded
  exact Except.ok.inj decoded

/-- What one client opens is opened by the other, and to the same bytes. -/
theorem anastasisDecrypt_agrees (same : SamePrimitives platform host) (key data message : Bytes)
    (salt : String) :
    Core.anastasisDecrypt platform (encodeCrock key) (encodeCrock data) salt =
        .ok (encodeCrock message) ↔
      ∃ size, Client.anastasisDecrypt host key data (ascii salt) = .ok (some message, size) := by
  simp only [Core.anastasisDecrypt, Core.deriveKey, decodeCrock_encodeCrock, bind, Except.bind,
    pure, Except.pure, same.kdf, same.secretboxOpen, stringToBytes, Client.anastasisDecrypt]
  by_cases sized : (data.take 24).length = 24
  · have isNonce : Core.checkNonce (data.take 24) = .ok ⟨data.take 24, sized⟩ := dif_pos sized
    rw [isNonce]
    cases opened : host.secretboxOpenEasy (data.drop 24) (data.take 24)
        (Client.deriveKey host key (data.take 24) (ascii salt)) with
    | none =>
      simp only [Client.deriveKey, ascii] at opened
      simp only [opened]
      constructor
      · rintro ⟨⟩
      rintro ⟨size, opens⟩
      split at opens <;> cases opens
    | some found =>
      have long := host.length_secretboxOpenEasy _ _ _ _ opened
      rw [List.length_drop] at long
      rw [if_neg (by omega)]
      simp only [Client.deriveKey, ascii] at opened
      simp only [opened]
      simp [encodeCrock_inj]
  · have short : Core.checkNonce (data.take 24) = Core.fail "bad nonce size" := dif_neg sized
    rw [short, if_pos (by rw [List.length_take] at sized; omega)]
    exact ⟨by rintro ⟨⟩, by rintro ⟨_, ⟨⟩⟩⟩

theorem opens_encrypted (same : SamePrimitives platform host) (key data : Bytes) (nonce : Block 24)
    (salt : String) : Core.anastasisDecrypt platform (encodeCrock key)
      (encodeCrock (Client.anastasisEncrypt host nonce key data (ascii salt))) salt =
        .ok (encodeCrock data) :=
  (anastasisDecrypt_agrees same key _ data salt).mpr
    ⟨_, Client.anastasisDecrypt_anastasisEncrypt host nonce key data _⟩

theorem policyKeyDerive_agrees (same : SamePrimitives platform host)
    (keyShares : List Client.KeyShare) (salt : Client.MasterSalt) :
    Core.policyKeyDerive platform (keyShares.map fun share => encodeCrock share.val)
        (encodeCrock salt.val) =
      .ok (encodeCrock (Client.policyKeyDerive host keyShares salt).val) := by
  have decoded : (keyShares.map fun share => encodeCrock share.val).mapM decodeCrock =
      .ok (keyShares.map Subtype.val) := by
    induction keyShares with
    | nil => rfl
    | cons share rest ih =>
      rw [List.map_cons, List.mapM_cons, decodeCrock_encodeCrock, ih]
      rfl
  simp only [Core.policyKeyDerive, decoded, decodeCrock_encodeCrock, bind, Except.bind, pure,
    Except.pure, same.kdf, stringToBytes, Client.policyKeyDerive, ascii, List.flatMap]

theorem run_randomCrock (size : Nat) (world : World) : (Core.randomCrock size).run world =
    (.ok (encodeCrock (randomBlock world.random world.drawn size).val),
      { world with drawn := world.drawn + size }) := rfl

theorem run_ofExcept (sealed : String) (world : World) :
    (Effect.ofExcept (.ok sealed) : Core.Task String).run world = (.ok sealed, world) := rfl

theorem encryptMasterKeys_agrees (same : SamePrimitives platform host)
    (policyKeys : List PolicyKey) (masterKey : Block 64) (world : World) :
    (Core.encryptMasterKeys platform (encodeCrock masterKey.val)
        (policyKeys.map fun key => encodeCrock key.val)).run world =
      (.ok ((policyKeys.mapIdx fun i key => Client.anastasisEncrypt host
          (randomBlock world.random (world.drawn + 24 * i) 24) key.val masterKey.val
          (ascii "emk")).map encodeCrock),
        { world with drawn := world.drawn + 24 * policyKeys.length }) := by
  induction policyKeys generalizing world with
  | nil => rfl
  | cons key rest ih =>
    rw [List.map_cons, Core.encryptMasterKeys, Effect.run_after (run_randomCrock _ _),
      anastasisEncrypt_agrees same, Effect.run_after (run_ofExcept _ _), Effect.run_after (ih _),
      List.mapIdx_cons]
    simp only [List.map_cons, List.length_cons, Nat.mul_add, Nat.mul_one, Nat.add_assoc,
      Nat.mul_zero, Nat.add_zero, Nat.add_comm 24]
    rfl

/-- Equal key shares give equal policy keys; what one client has encrypted the other could have
encrypted too; and under each policy key both recover the core secret. -/
theorem coreSecret_shared (same : SamePrimitives platform host) (policyKeys : List PolicyKey)
    (coreSecret : Bytes) :
    (∀ keyShares (salt : Client.MasterSalt),
      Core.policyKeyDerive platform (keyShares.map fun share => encodeCrock share.val)
          (encodeCrock salt.val) =
        .ok (encodeCrock (Client.policyKeyDerive host keyShares salt).val)) ∧
    (∀ world, ∃ masterKey nonce nonces after,
      (Core.coreSecretEncrypt platform (policyKeys.map fun key => encodeCrock key.val)
          (encodeCrock coreSecret)).run world =
        (.ok ⟨encodeCrock (Client.coreSecretEncrypt host policyKeys coreSecret masterKey nonce
            nonces).encCoreSecret, (Client.coreSecretEncrypt host policyKeys coreSecret masterKey
            nonce nonces).encMasterKeys.map encodeCrock⟩, after)) ∧
    ∀ masterKey nonce nonces (idx : Nat) policyKey encMasterKey, policyKeys[idx]? = some policyKey →
      (Client.coreSecretEncrypt host policyKeys coreSecret masterKey nonce
        nonces).encMasterKeys[idx]? = some encMasterKey →
      Client.coreSecretRecover host encMasterKey policyKey (Client.coreSecretEncrypt host policyKeys
          coreSecret masterKey nonce nonces).encCoreSecret =
        .ok (some coreSecret, coreSecret.length) ∧
      Core.coreSecretRecover platform (encodeCrock encMasterKey) (encodeCrock policyKey.val)
          (encodeCrock (Client.coreSecretEncrypt host policyKeys coreSecret masterKey nonce
            nonces).encCoreSecret) =
        .ok (encodeCrock coreSecret) := by
  refine ⟨policyKeyDerive_agrees same, fun world => ?_, ?_⟩
  · refine ⟨randomBlock world.random world.drawn 64,
      randomBlock world.random (world.drawn + 64) 24,
      fun i => randomBlock world.random (world.drawn + 64 + 24 + 24 * i) 24,
      { world with drawn := world.drawn + 64 + 24 + 24 * policyKeys.length }, ?_⟩
    rw [Core.coreSecretEncrypt, Effect.run_after (run_randomCrock _ _),
      Effect.run_after (run_randomCrock _ _),
      anastasisEncrypt_agrees same, Effect.run_after (run_ofExcept _ _),
      Effect.run_after (encryptMasterKeys_agrees same _ _ _)]
    rfl
  · intro masterKey nonce nonces idx policyKey encMasterKey keyed encrypted
    refine ⟨Client.coreSecretRecover_coreSecretEncrypt host keyed encrypted, ?_⟩
    have own : encMasterKey =
        Client.anastasisEncrypt host (nonces idx) policyKey.val masterKey.val (ascii "emk") := by
      simpa [Client.coreSecretEncrypt, keyed] using encrypted.symm
    simp only [Core.coreSecretRecover, own, opens_encrypted same, bind, Except.bind,
      Client.coreSecretEncrypt]

theorem plain_samePrimitives : SamePrimitives .plain .plain :=
  ⟨fun _ _ _ _ => rfl, fun _ _ _ => rfl, fun _ _ _ => rfl⟩

theorem coreSecret_shared_plain : Core.coreSecretRecover .plain
    (encodeCrock (Client.anastasisEncrypt .plain (zeroBlock 24) (zeroBlock 64).val
      (zeroBlock 64).val (ascii "emk")))
    (encodeCrock (zeroBlock 64).val)
    (encodeCrock (Client.coreSecretEncrypt .plain [zeroBlock 64] (ascii "secret") (zeroBlock 64)
      (zeroBlock 24) fun _ => zeroBlock 24).encCoreSecret) = .ok (encodeCrock (ascii "secret")) :=
  ((coreSecret_shared plain_samePrimitives [zeroBlock 64] (ascii "secret")).2.2 (zeroBlock 64)
    (zeroBlock 24) (fun _ => zeroBlock 24) 0 _ _ rfl rfl).2

/-- Recovery documents and key shares that one client has encrypted are decrypted by the other. -/
theorem documents_shared (same : SamePrimitives platform host) (id : Client.UserIdentifier) :
    (∀ recDoc world, ∃ data after,
      (Core.encryptRecoveryDocument platform (encodeCrock id.val) (encodeCrock recDoc)).run world =
        (.ok (encodeCrock data), after) ∧
      Client.recoveryDocumentDecrypt host id data = .ok (some recDoc, recDoc.length)) ∧
    (∀ recDoc nonce, Core.decryptRecoveryDocument platform (encodeCrock id.val)
      (encodeCrock (Client.recoveryDocumentEncrypt host nonce id recDoc)) =
        .ok (encodeCrock recDoc)) ∧
    (∀ (keyShare : Client.KeyShare) answerSalt world,
      ∃ (data : Client.EncryptedKeyShare) (after : World),
      (Core.encryptKeyshare platform (encodeCrock keyShare.val) (encodeCrock id.val)
        answerSalt).run world = (.ok (encodeCrock data.val), after) ∧
      Client.keyshareDecrypt host data id (answerSalt.map ascii) = .ok keyShare) ∧
    ∀ (keyShare : Client.KeyShare) answerSalt nonce, Core.decryptKeyShare platform
      (encodeCrock (Client.keyshareEncrypt host nonce keyShare id (answerSalt.map ascii)))
      (encodeCrock id.val) answerSalt = .ok (encodeCrock keyShare.val) := by
  refine ⟨?_, ?_, ?_, ?_⟩
  · intro recDoc world
    refine ⟨Client.recoveryDocumentEncrypt host (randomBlock world.random world.drawn 24) id
      recDoc, { world with drawn := world.drawn + 24 }, ?_, ?_⟩
    · rw [Core.encryptRecoveryDocument, Effect.run_after (run_randomCrock _ _),
        anastasisEncrypt_agrees same]
      rfl
    exact Client.anastasisDecrypt_anastasisEncrypt host _ _ _ _
  · exact fun recDoc nonce => opens_encrypted same _ _ nonce "erd"
  · intro keyShare answerSalt world
    refine ⟨⟨Client.keyshareEncrypt host (randomBlock world.random world.drawn 24) keyShare id
      (answerSalt.map ascii), by simp [Client.keyshareEncrypt, keyShare.property]⟩,
      { world with drawn := world.drawn + 24 }, ?_, ?_⟩
    · rw [Core.encryptKeyshare, Effect.run_after (run_randomCrock _ _),
        anastasisEncrypt_agrees same]
      cases answerSalt <;> rfl
    exact Client.keyshareDecrypt_keyshareEncrypt host _ keyShare id _ _ rfl
  · intro keyShare answerSalt nonce
    rw [Client.keyshareEncrypt, Option.getD_map]
    exact opens_encrypted same _ _ nonce _

theorem documents_shared_plain : Core.decryptRecoveryDocument .plain
    (encodeCrock (zeroBlock 64).val)
    (encodeCrock (Client.recoveryDocumentEncrypt .plain (zeroBlock 24) (zeroBlock 64) [1])) =
      .ok (encodeCrock [1]) :=
  (documents_shared plain_samePrimitives (zeroBlock 64)).2.1 [1] (zeroBlock 24)

end Anastasis
