import Mathlib.Algebra.Group.Int.Defs
import Mathlib.Algebra.Group.Nat.Defs
import Mathlib.Algebra.GroupWithZero.Nat
import Mathlib.Data.List.Basic

/-! The status codes the layers exchange (`xi_state_t`), in their numeric order. -/
namespace XivelyClient

inductive XiState
  | ok | timeout | wantRead | wantWrite | written | failedWriting | backoffTerminal | outOfMemory
  | socketInitializationError | socketGethostbynameError | socketGetsockoptError | socketError
  | socketConnectionError | socketShutdownError | socketWriteError | socketReadError
  | socketNoActiveConnectionError | connectionResetByPeerError | fdHandlerNotFound
  | tlsInitalizationError | tlsFailedLoadingCertificate | tlsConnectError | tlsWriteError
  | tlsReadError | mqttSerializerError | mqttParserError | mqttUnknownMessageId
  | mqttLogicUnknownTaskId | mqttLogicWrongScenarioType | mqttLogicWrongMessageReceived
  | mqttUnacceptableProtocolVersion | mqttIdentifierRejected | mqttServerUnavailible
  | mqttBadUsernameOrPassword | mqttNotAuthorized | mqttConnectUnknownReturnCode
  | mqttMessageClassUnknownError | mqttPayloadSizeTooLarge | mqttSubscriptionFailed
  | mqttSubscriptionSuccessfull | internalError | notInitialized | failedInitialization
  | alreadyInitialized | invalidParameter | unsetHandlerError | notImplemented | elementNotFound
  | serializationError | truncationWarning | bufferOverflow | threadError | nullContext
  | nullWillTopic | nullWillMessage | noMoreResourceAvailable | fsResourceNotAvailable | fsError
  | notSupported | eventProcessStopped | resend | nullHost | tlsFailedCertError | fsOpenError
  | fsOpenReadOnly | fsReadError | fsWriteError | fsCloseError | fsRemoveError
  deriving DecidableEq, Repr

namespace XiState

def code (state : XiState) : Nat := state.ctorIdx

/-- `XI_MAX` of two codes. -/
def maxCode (a b : XiState) : XiState := if b.code < a.code then a else b

end XiState

end XivelyClient
