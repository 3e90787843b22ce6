import Mathlib.Tactic
/-!
# Broker configuration

The settings of the `broker` section that the modelled code reads, with the
defaults the accessors fall back to when a key is missing.  The values are
loaded once at start-up, so every run has one constant `Config`.
-/

namespace JellyBroker

/-- Octet strings: `std::string` contents, payloads and packet bytes. -/
abbrev Bytes := List UInt8

/-- A statement about every byte is checked byte by byte. -/
instance decidableForallByte {P : UInt8 → Prop} [DecidablePred P] : Decidable (∀ byte, P byte) :=
  decidable_of_iff (∀ i : Fin 256, P (UInt8.ofFin i)) ⟨fun h byte => h byte.toFin, fun h _ => h _⟩

abbrev SessionId := Nat

structure Config where
  maxConnections : Int := 100000
  maxConnectionsPerIp : Int := 100
  maxKeepalive : Int := 3600
  maxPacketSize : Int := 262144
  maxTopicDepth : Int := 128
  maxTopicLength : Int := 65536
  maxSubscriptionsPerClient : Int := 1000
  maxRetainedMessages : Int := 10000
  maxWriteQueueSize : Int := 10000
  maxParserBufferSize : Int := 1048576
  maxAuthAttempts : Int := 10
  authBanSeconds : Int := 60
  maxRetryCount : Int := 5

/-- The checks of `is_valid` on these settings, without which `load` throws. -/
def Config.isValid (cfg : Config) : Bool :=
  !(cfg.maxKeepalive < 10 || cfg.maxKeepalive > 65535) &&
    !(cfg.maxPacketSize < 256 || cfg.maxPacketSize > 268435455)

end JellyBroker
