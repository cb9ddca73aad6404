/-!
# Failures — every way a call can fail

A store reports a failure as a code.  Codes are grouped by the subsystem that raises them; a code
that none of the subsystems knows is kept as `Failure.unknown`.  The last three kinds are raised
by the client itself and have no code.

Each subsystem lists its failures once, with their codes (`WalletFailure.all` and so on), and
`ofCode?` searches that list, so that reading a code undoes `code` by construction.
-/

namespace TaggedRecords

/-! ### Subsystems -/

/-- The part of the system that a failure comes from. -/
inductive Subsystem where
  | common
  | wallet
  | pool
  | anonCreds
  | crypto
  | did
  | payment
  | client
  deriving DecidableEq, Repr

/-- The name of a subsystem. -/
def Subsystem.name : Subsystem → String
  | .common => "common"
  | .wallet => "wallet"
  | .pool => "pool"
  | .anonCreds => "anon_creds"
  | .crypto => "crypto"
  | .did => "did"
  | .payment => "payment"
  | .client => "wrapper"

/-- Generic failures.  A parameter of a call is named by its place, counted from one. -/
inductive CommonFailure where
  | invalidParameter (place : UInt8)
  | invalidInternalState
  | invalidStructure
  | io
  deriving DecidableEq, Repr

namespace CommonFailure

/-- The failures that have a code of their own. -/
def all : List CommonFailure :=
  ((List.range 14).map fun n => invalidParameter (.ofNat (n + 1))) ++
    [invalidInternalState, invalidStructure, io]

/-- The code of a failure.  Parameters have codes in two blocks; one beyond the fourteenth has no
code of its own and is reported as an invalid internal state. -/
def code : CommonFailure → Int32
  | .invalidParameter place =>
    if 1 ≤ place ∧ place ≤ 12 then .ofNat (99 + place.toNat)
    else if place = 13 then 115
    else if place = 14 then 116
    else 112
  | .invalidInternalState => 112
  | .invalidStructure => 113
  | .io => 114

/-- The failure with a code. -/
def ofCode? (c : Int32) : Option CommonFailure := all.find? (·.code == c)

/-- The wording of a failure. -/
def message : CommonFailure → String
  | .invalidParameter place => "invalid_parameter_" ++ toString place.toNat
  | .invalidInternalState => "invalid_internal_state"
  | .invalidStructure => "invalid_structure"
  | .io => "io"

end CommonFailure

/-- Failures of wallet storage, record queries and searches. -/
inductive WalletFailure where
  | invalidHandle
  | unknownType
  | typeAlreadyRegistered
  | alreadyExists
  | notFound
  | incompatiblePool
  | alreadyOpened
  | accessFailed
  | inputInvalid
  | decoding
  | storage
  | encryption
  | itemNotFound
  | itemAlreadyExists
  | queryError
  deriving DecidableEq, Repr

namespace WalletFailure

/-- The failures of this subsystem. -/
def all : List WalletFailure :=
  [invalidHandle, unknownType, typeAlreadyRegistered, alreadyExists, notFound, incompatiblePool,
    alreadyOpened, accessFailed, inputInvalid, decoding, storage, encryption, itemNotFound,
    itemAlreadyExists, queryError]

/-- The code of a failure. -/
def code : WalletFailure → Int32
  | .invalidHandle => 200
  | .unknownType => 201
  | .typeAlreadyRegistered => 202
  | .alreadyExists => 203
  | .notFound => 204
  | .incompatiblePool => 205
  | .alreadyOpened => 206
  | .accessFailed => 207
  | .inputInvalid => 208
  | .decoding => 209
  | .storage => 210
  | .encryption => 211
  | .itemNotFound => 212
  | .itemAlreadyExists => 213
  | .queryError => 214

/-- The failure with a code. -/
def ofCode? (c : Int32) : Option WalletFailure := all.find? (·.code == c)

/-- The wording of a failure. -/
def message : WalletFailure → String
  | .invalidHandle => "wallet_invalid_handle"
  | .unknownType => "wallet_unknown_type"
  | .typeAlreadyRegistered => "wallet_type_already_registered"
  | .alreadyExists => "wallet_already_exists"
  | .notFound => "wallet_not_found"
  | .incompatiblePool => "wallet_incompatible_pool"
  | .alreadyOpened => "wallet_already_opened"
  | .accessFailed => "wallet_access_failed"
  | .inputInvalid => "wallet_input_invalid"
  | .decoding => "wallet_decoding"
  | .storage => "wallet_storage"
  | .encryption => "wallet_encryption"
  | .itemNotFound => "wallet_item_not_found"
  | .itemAlreadyExists => "wallet_item_already_exists"
  | .queryError => "wallet_query_error"

end WalletFailure

/-- Failures of the ledger pool. -/
inductive PoolFailure where
  | ledgerNotCreated
  | invalidHandle
  | terminated
  | noConsensus
  | invalidTransaction
  | security
  | configAlreadyExists
  | timeout
  | incompatibleProtocol
  | notFound
  deriving DecidableEq, Repr

namespace PoolFailure

/-- The failures of this subsystem. -/
def all : List PoolFailure :=
  [ledgerNotCreated, invalidHandle, terminated, noConsensus, invalidTransaction, security,
    configAlreadyExists, timeout, incompatibleProtocol, notFound]

/-- The code of a failure. -/
def code : PoolFailure → Int32
  | .ledgerNotCreated => 300
  | .invalidHandle => 301
  | .terminated => 302
  | .noConsensus => 303
  | .invalidTransaction => 304
  | .security => 305
  | .configAlreadyExists => 306
  | .timeout => 307
  | .incompatibleProtocol => 308
  | .notFound => 309

/-- The failure with a code. -/
def ofCode? (c : Int32) : Option PoolFailure := all.find? (·.code == c)

/-- The wording of a failure. -/
def message : PoolFailure → String
  | .ledgerNotCreated => "pool_ledger_not_created"
  | .invalidHandle => "pool_invalid_handle"
  | .terminated => "pool_terminated"
  | .noConsensus => "pool_no_consensus"
  | .invalidTransaction => "pool_invalid_transaction"
  | .security => "pool_security"
  | .configAlreadyExists => "pool_config_already_exists"
  | .timeout => "pool_timeout"
  | .incompatibleProtocol => "pool_incompatible_protocol"
  | .notFound => "pool_not_found"

end PoolFailure

/-- Failures of anonymous credentials. -/
inductive AnonCredsFailure where
  | revocationRegistryFull
  | invalidUserRevocationId
  | accumulatorFull
  | masterSecretDuplicateName
  | proofRejected
  | credentialRevoked
  | credentialDefinitionAlreadyExists
  deriving DecidableEq, Repr

namespace AnonCredsFailure

/-- The failures of this subsystem. -/
def all : List AnonCredsFailure :=
  [revocationRegistryFull, invalidUserRevocationId, accumulatorFull, masterSecretDuplicateName,
    proofRejected, credentialRevoked, credentialDefinitionAlreadyExists]

/-- The code of a failure. -/
def code : AnonCredsFailure → Int32
  | .revocationRegistryFull => 400
  | .invalidUserRevocationId => 401
  | .accumulatorFull => 402
  | .masterSecretDuplicateName => 404
  | .proofRejected => 405
  | .credentialRevoked => 406
  | .credentialDefinitionAlreadyExists => 407

/-- The failure with a code. -/
def ofCode? (c : Int32) : Option AnonCredsFailure := all.find? (·.code == c)

/-- The wording of a failure. -/
def message : AnonCredsFailure → String
  | .revocationRegistryFull => "anoncreds_revocation_registry_full"
  | .invalidUserRevocationId => "anoncreds_invalid_user_revocation_id"
  | .accumulatorFull => "anoncreds_accumulator_full"
  | .masterSecretDuplicateName => "anoncreds_master_secret_duplicate_name"
  | .proofRejected => "anoncreds_proof_rejected"
  | .credentialRevoked => "anoncreds_credential_revoked"
  | .credentialDefinitionAlreadyExists => "anoncreds_credential_definition_already_exists"

end AnonCredsFailure

/-- Failures of cryptographic primitives. -/
inductive CryptoFailure where
  | unknownType
  deriving DecidableEq, Repr

namespace CryptoFailure

/-- The failures of this subsystem. -/
def all : List CryptoFailure := [unknownType]

/-- The code of a failure. -/
def code : CryptoFailure → Int32
  | .unknownType => 500

/-- The failure with a code. -/
def ofCode? (c : Int32) : Option CryptoFailure := all.find? (·.code == c)

/-- The wording of a failure. -/
def message : CryptoFailure → String
  | .unknownType => "crypto_unknown_type"

end CryptoFailure

/-- Failures of decentralized identifiers. -/
inductive DidFailure where
  | alreadyExists
  deriving DecidableEq, Repr

namespace DidFailure

/-- The failures of this subsystem. -/
def all : List DidFailure := [alreadyExists]

/-- The code of a failure. -/
def code : DidFailure → Int32
  | .alreadyExists => 600

/-- The failure with a code. -/
def ofCode? (c : Int32) : Option DidFailure := all.find? (·.code == c)

/-- The wording of a failure. -/
def message : DidFailure → String
  | .alreadyExists => "did_already_exists"

end DidFailure

/-- Failures of payment plugins. -/
inductive PaymentFailure where
  | unknownMethod
  | incompatibleMethod
  | insufficientFunds
  | sourceDoesNotExist
  | operationNotSupported
  | extraFunds
  | transactionNotAllowed
  deriving DecidableEq, Repr

namespace PaymentFailure

/-- The failures of this subsystem. -/
def all : List PaymentFailure :=
  [unknownMethod, incompatibleMethod, insufficientFunds, sourceDoesNotExist,
    operationNotSupported, extraFunds, transactionNotAllowed]

/-- The code of a failure. -/
def code : PaymentFailure → Int32
  | .unknownMethod => 700
  | .incompatibleMethod => 701
  | .insufficientFunds => 702
  | .sourceDoesNotExist => 703
  | .operationNotSupported => 704
  | .extraFunds => 705
  | .transactionNotAllowed => 706

/-- The failure with a code. -/
def ofCode? (c : Int32) : Option PaymentFailure := all.find? (·.code == c)

/-- The wording of a failure. -/
def message : PaymentFailure → String
  | .unknownMethod => "payment_unknown_method"
  | .incompatibleMethod => "payment_incompatible_method"
  | .insufficientFunds => "payment_insufficient_funds"
  | .sourceDoesNotExist => "payment_source_does_not_exist"
  | .operationNotSupported => "payment_operation_not_supported"
  | .extraFunds => "payment_extra_funds"
  | .transactionNotAllowed => "payment_transaction_not_allowed"

end PaymentFailure

/-! ### Failures -/

/-- A failure of a call. -/
inductive Failure where
  | common (e : CommonFailure)
  | wallet (e : WalletFailure)
  | pool (e : PoolFailure)
  | anonCreds (e : AnonCredsFailure)
  | crypto (e : CryptoFailure)
  | did (e : DidFailure)
  | payment (e : PaymentFailure)
  | encoding (cause : String)
  | decoding (cause : String)
  | invalidState
  | unknown (code : Int32)
  deriving DecidableEq, Repr

namespace Failure

/-- The failure that a subsystem knows under a code. -/
def known? (c : Int32) : Option Failure :=
  (CommonFailure.ofCode? c).map common
    <|> (WalletFailure.ofCode? c).map wallet
    <|> (PoolFailure.ofCode? c).map pool
    <|> (AnonCredsFailure.ofCode? c).map anonCreds
    <|> (CryptoFailure.ofCode? c).map crypto
    <|> (DidFailure.ofCode? c).map did
    <|> (PaymentFailure.ofCode? c).map payment

/-- The failure that a code reports. -/
def ofCode (c : Int32) : Failure := (known? c).getD (unknown c)

/-- The code that reports a failure; those raised by the client have none. -/
def code? : Failure → Option Int32
  | .common e => some e.code
  | .wallet e => some e.code
  | .pool e => some e.code
  | .anonCreds e => some e.code
  | .crypto e => some e.code
  | .did e => some e.code
  | .payment e => some e.code
  | .unknown c => some c
  | .encoding _ | .decoding _ | .invalidState => none

/-- The subsystem that a failure comes from. -/
def subsystem : Failure → Subsystem
  | .common _ | .unknown _ => .common
  | .wallet _ => .wallet
  | .pool _ => .pool
  | .anonCreds _ => .anonCreds
  | .crypto _ => .crypto
  | .did _ => .did
  | .payment _ => .payment
  | .encoding _ | .decoding _ | .invalidState => .client

/-- The wording of a failure. -/
def message : Failure → String
  | .common e => e.message
  | .wallet e => e.message
  | .pool e => e.message
  | .anonCreds e => e.message
  | .crypto e => e.message
  | .did e => e.message
  | .payment e => e.message
  | .encoding cause => "encoding_error: " ++ cause
  | .decoding cause => "decoding_error: " ++ cause
  | .invalidState => "invalid_state"
  | .unknown c => "unknown_error_code: " ++ toString c.toInt

end Failure

end TaggedRecords
