/-
# Rustee.TrustedProxy.Policy -- which peers may speak for a client

`rustee-middleware/src/trusted_proxy/policy.rs`.  A network is an address and the length of
the prefix that counts; a policy is a bounded list of networks and the number of trusted
intermediaries a forwarded chain may name.  What the constructors check are fields.
-/
import Mathlib.Data.List.Basic

namespace Rustee.TrustedProxy

set_option autoImplicit false

inductive IpAddr where
  | v4 (bits : BitVec 32)
  | v6 (bits : BitVec 128)
  deriving DecidableEq, Repr

def IpAddr.width : IpAddr → Nat
  | .v4 _ => 32
  | .v6 _ => 128

def maxForwardedChainHops : Nat := 16

def maxTrustedProxyNetworks : Nat := 64

/-! ## Networks -/

structure TrustedProxyNetwork where
  network : IpAddr
  prefixLength : Nat
  positive : 0 < prefixLength
  fits : prefixLength ≤ network.width

namespace TrustedProxyNetwork

/-- The shifts stay below the width, as the prefix is not empty. -/
def contains (self : TrustedProxyNetwork) (address : IpAddr) : Bool :=
  match self.network, address with
  | .v4 network, .v4 address =>
    network >>> (32 - self.prefixLength) == address >>> (32 - self.prefixLength)
  | .v6 network, .v6 address =>
    network >>> (128 - self.prefixLength) == address >>> (128 - self.prefixLength)
  | _, _ => false

end TrustedProxyNetwork

/-! ## Policies -/

structure TrustedProxyPolicy where
  networks : List TrustedProxyNetwork
  forwardedChainHops : Nat
  nonempty : networks ≠ []
  bounded : networks.length ≤ maxTrustedProxyNetworks
  hops_le : forwardedChainHops ≤ maxForwardedChainHops

namespace TrustedProxyPolicy

def trusts (self : TrustedProxyPolicy) (address : IpAddr) : Bool :=
  self.networks.any fun network => network.contains address

end TrustedProxyPolicy

end Rustee.TrustedProxy
