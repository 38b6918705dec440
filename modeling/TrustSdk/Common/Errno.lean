import Mathlib.Order.Basic

/-!
# Error codes

`actrust_err_t` packs a module id and a reason code into one word; success is the word
zero. A function that returns `actrust_err_t` is modelled by a result in `Except Err α`,
so that the word zero is the `ok` case and an `Err` is always an error.
-/

namespace TrustSdk

/-- `ACTRUST_ERR_MODULE_*`, the modules whose codes the modelled functions build or
receive. -/
inductive ErrModule where
  | core
  | kv
  | json
  | mqtt
  | queue
  | cloud
  | crypto
  | log
  | ntp
  | adapterSystem
  | adapterStorage
  | adapterSecurity
  deriving DecidableEq, Repr

/-- `ACTRUST_ERR_*`, the reason codes of these functions. -/
inductive ErrCode where
  | invalidArg
  | notReady
  | badState
  | timeout
  | unsupported
  | busy
  | already
  | wouldBlock
  | queueFull
  | noMem
  | noResource
  | bufTooSmall
  | io
  | hwFailure
  | mqttConnectFailed
  | mqttDisconnectFailed
  | mqttSubscribeFailed
  | mqttUnsubscribeFailed
  | mqttPublishFailed
  | mqttReconnectFailed
  | cloudStartFailed
  | cloudStopFailed
  | cloudDeinitFailed
  deriving DecidableEq, Repr

/-- An error word: `ACTRUST_ERR(module, reason)`. -/
structure Err where
  module : ErrModule
  code : ErrCode
  deriving DecidableEq, Repr

end TrustSdk
