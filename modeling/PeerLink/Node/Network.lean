import PeerLink.Address.Basic
import PeerLink.Fault.Basic

/-!
# Networks

A node reaches its peers over a network, which tells of each address whether a connection to it
can be made, and whether the node can listen there.
-/

namespace PeerLink

/-- What a network allows. -/
structure Network where
  /-- Connects to an address. -/
  connect : Address → Except IoFault Unit
  /-- Listens on an address, and says on which port; a network picks one where the port is zero. -/
  listen : Address → Except IoFault Address

namespace Network

/-- Nothing can be reached. -/
def unreachable : IoFault := .system .networkUnreachable 101 "Network is unreachable"

/-- The machine has no such address. -/
def foreignAddress : IoFault := .system .addrNotAvailable 99 "Cannot assign requested address"

/-- The first of the ports that are handed out. -/
def firstFreePort : UInt16 := 32768

/-- The address stands for the machine itself. -/
def isLocal : Address → Bool
  | .v4 octets _ => octets == [0, 0, 0, 0] || octets.head? == some 127
  | .v6 groups _ _ => groups == List.replicate 8 0 || groups == List.replicate 7 0 ++ [1]

/-- The network of a machine that is connected to nothing: it can listen on its own addresses, but
no connection can be made. -/
def isolated : Network where
  connect _ := .error unreachable
  listen a :=
    if !isLocal a then .error foreignAddress
    else .ok (if a.port = 0 then a.withPort firstFreePort else a)

end Network

end PeerLink
