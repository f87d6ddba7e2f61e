import Anastasis.Library.Bits

/-! Authenticated encryption under keys that are derived from a seed, and secrets
that are locked by one master key which several other keys unlock. -/

set_option autoImplicit false

namespace Library

/-- A cipher whose keys are derived from a seed, the nonce of the message and a
label for its purpose. -/
structure Envelope where
  nonceLength : Nat
  derive : (seed nonce label : Bytes) → Bytes
  lock : (message nonce key : Bytes) → Bytes
  unlock : (box nonce key : Bytes) → Option Bytes
  unlock_lock : ∀ message nonce key, unlock (lock message nonce key) nonce key = some message

namespace Envelope

variable (envelope : Envelope)

def encrypt (nonce seed message label : Bytes) : Bytes :=
  nonce ++ envelope.lock message nonce (envelope.derive seed nonce label)

def decrypt (seed data label : Bytes) : Option Bytes :=
  let nonce := data.take envelope.nonceLength
  envelope.unlock (data.drop envelope.nonceLength) nonce (envelope.derive seed nonce label)

@[simp] theorem decrypt_encrypt {nonce : Bytes} (sized : nonce.length = envelope.nonceLength)
    (seed message label : Bytes) :
    envelope.decrypt seed (envelope.encrypt nonce seed message label) label = some message := by
  simp only [decrypt, encrypt, ← sized, List.take_left, List.drop_left, envelope.unlock_lock]

/-- The labels of a secret and of the copies of its master key. -/
structure Labels where
  secret : Bytes
  master : Bytes

variable (labels : Labels)

/-- One copy of the master key for each pair of a nonce and an outer key. -/
def lockMaster (master : Bytes) (keys : List (Bytes × Bytes)) : List Bytes :=
  keys.map fun key => envelope.encrypt key.1 key.2 master labels.master

def lockSecret (nonce master secret : Bytes) : Bytes :=
  envelope.encrypt nonce master secret labels.secret

def recover (key lockedMaster lockedSecret : Bytes) : Option Bytes := do
  let master ← envelope.decrypt key lockedMaster labels.master
  envelope.decrypt master lockedSecret labels.secret

end Envelope

end Library
