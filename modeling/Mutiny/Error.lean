/-!
# Errors

The error types of the node manager and the conversions between them, without the payloads that are only formatted.
-/

namespace Mutiny

/-- `gloo_storage::errors::StorageError`. -/
inductive StorageError where
  | SerdeError
  | KeyNotFound (key : String)
  | JsError
  deriving DecidableEq, Repr

inductive MutinyStorageError where
  | StorageError (source : StorageError)
  | SerdeError
  | Other
  deriving DecidableEq, Repr

inductive MutinyError where
  | AlreadyRunning
  | NotRunning
  | FundingTxCreationFailed
  | ConnectionFailed
  | IncorrectNetwork
  | NonUniquePaymentHash
  | InvoiceInvalid
  | InvoiceCreationFailed
  | RoutingFailed
  | PeerInfoParseFailed
  | ChannelCreationFailed
  | ChannelClosingFailed
  | PersistenceFailed (source : MutinyStorageError)
  | ReadError (source : MutinyStorageError)
  | LnDecodeError
  | SeedGenerationFailed
  | InvalidMnemonic
  | WalletOperationFailed
  | WalletSigningFailed
  | ChainAccessFailed
  | DLCManagerError
  | Other
  deriving DecidableEq, Repr

/-- `esplora_client::Error`: a query that did not come back with an answer. -/
inductive EsploraError where
  | failed
  deriving DecidableEq, Repr

/-- `From<esplora_client::Error>`: every failure of the chain source becomes the same error. -/
def MutinyError.from_esplora : EsploraError → MutinyError
  | _ => .ChainAccessFailed

/-- `std::io::Error`. -/
inductive IoError where
  | Other
  | InvalidData
  deriving DecidableEq, Repr

/-- `From<std::io::Error>`. -/
def MutinyError.from_io : IoError → MutinyError
  | _ => .PersistenceFailed .Other

/-- `io::Error::other`. -/
def IoError.other : MutinyStorageError → IoError
  | _ => .Other

def MutinyError.read_err (e : MutinyStorageError) : MutinyError := .ReadError e

/-- `bdk::Error`, as far as the node manager tells one from another. -/
inductive BdkFailure where
  | Signer
  | Other
  deriving DecidableEq, Repr

/-- `From<bdk::Error>`. -/
def MutinyError.from_bdk : BdkFailure → MutinyError
  | .Signer => .WalletSigningFailed
  | .Other => .WalletOperationFailed

/-- What the front end is given. -/
inductive MutinyJsError where
  | AlreadyRunning
  | NotRunning
  | FundingTxCreationFailed
  | ConnectionFailed
  | IncorrectNetwork
  | NonUniquePaymentHash
  | InvoiceInvalid
  | InvoiceCreationFailed
  | RoutingFailed
  | PeerInfoParseFailed
  | ChannelCreationFailed
  | ChannelClosingFailed
  | PersistenceFailed
  | ReadError
  | LnDecodeError
  | SeedGenerationFailed
  | InvalidMnemonic
  | WalletOperationFailed
  | WalletSigningFailed
  | ChainAccessFailed
  | JsonReadWriteError
  | PubkeyInvalid
  | BitcoinPriceError
  | BadAmountError
  | DLCManagerError
  | UnknownError
  deriving DecidableEq, Repr

/-- `From<MutinyError>`. -/
def MutinyJsError.from_mutiny : MutinyError → MutinyJsError
  | .AlreadyRunning => .AlreadyRunning
  | .NotRunning => .NotRunning
  | .FundingTxCreationFailed => .FundingTxCreationFailed
  | .ConnectionFailed => .ConnectionFailed
  | .IncorrectNetwork => .IncorrectNetwork
  | .NonUniquePaymentHash => .NonUniquePaymentHash
  | .InvoiceInvalid => .InvoiceInvalid
  | .InvoiceCreationFailed => .InvoiceCreationFailed
  | .RoutingFailed => .RoutingFailed
  | .PeerInfoParseFailed => .PeerInfoParseFailed
  | .ChannelCreationFailed => .ChannelCreationFailed
  | .ChannelClosingFailed => .ChannelClosingFailed
  | .PersistenceFailed _ => .PersistenceFailed
  | .ReadError _ => .ReadError
  | .LnDecodeError => .LnDecodeError
  | .SeedGenerationFailed => .SeedGenerationFailed
  | .InvalidMnemonic => .InvalidMnemonic
  | .WalletOperationFailed => .WalletOperationFailed
  | .WalletSigningFailed => .WalletSigningFailed
  | .ChainAccessFailed => .ChainAccessFailed
  | .DLCManagerError => .DLCManagerError
  | .Other => .UnknownError

end Mutiny
