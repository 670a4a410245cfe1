import ObjectStore.ClientConfig

/-!
# Waiting times

The settings of a client that are lengths of time, how each of them is set and read back, and what
a word of milliseconds can hold of a duration.
-/

namespace ObjectStore

/-- The duration in whole milliseconds that is nearest from below, among those that a word of 64 bits
holds. -/
def Duration.held (d : Duration) : Duration := .ofMillis (min d.millis (word64 - 1))

/-- A setting that is a length of time. -/
inductive WaitingTime
  | connectTimeout
  | requestTimeout
  | acquireTimeout
  | maxIdleTime
  | retryBackoff
  deriving Repr, DecidableEq

namespace WaitingTime

/-- Set it to a duration. -/
def set : WaitingTime → ClientConfig → Duration → ClientConfig
  | .connectTimeout => ClientConfig.withConnectTimeout
  | .requestTimeout => ClientConfig.withRequestTimeout
  | .acquireTimeout => ClientConfig.withAcquireTimeout
  | .maxIdleTime => ClientConfig.withMaxIdleTime
  | .retryBackoff => ClientConfig.withRetryBackoff

/-- What is read back: none when idle channels never expire. -/
def read? : WaitingTime → ClientConfig → Option Duration
  | .connectTimeout, c => some c.connectTimeout
  | .requestTimeout, c => some c.requestTimeout
  | .acquireTimeout, c => some c.acquireTimeout
  | .maxIdleTime, c => c.maxIdleTime
  | .retryBackoff, c => some c.retryBackoff

end WaitingTime

end ObjectStore
