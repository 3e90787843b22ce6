import JellyBroker.Packet.Types
/-!
# The authenticator interface

An authenticator is a state with the two virtual calls of the interface.  A
call returns or throws, and may change the state either way.
-/

namespace JellyBroker.Auth

open JellyBroker.Packet (ConnackCode)

/-- `Access` has the underlying type `uint8_t`, and the values loaded from a
database are cast to it, so it is not limited to its four enumerators. -/
structure Access where
  level : UInt8
  deriving DecidableEq, Repr

namespace Access

def none : Access := ⟨0⟩
def read : Access := ⟨1⟩
def write : Access := ⟨2⟩
def readWrite : Access := ⟨3⟩

end Access

structure AuthResult where
  success : Bool := false
  reason : ConnackCode := .refusedNotAuthorized
  deriving DecidableEq, Repr

/-- The calls on an authenticator with state `α`.  An exception is its
`what()` text. -/
structure Authenticator (α : Type) where
  authenticate : α → (clientId username password : Bytes) → Except String AuthResult × α
  checkAcl : α → (username topic : Bytes) → Access → Except String Access × α

def allowAll : Authenticator Unit where
  authenticate state _ _ _ := (.ok { success := true, reason := .accepted }, state)
  checkAcl state _ _ _ := (.ok .readWrite, state)

end JellyBroker.Auth
