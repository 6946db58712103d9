/-
# OteStack.ClusterMessage — the message cluster controllers exchange.

`clustermessage.proto`, as the Go structures carry it.  The body is the serialised payload of the
command; each command's module decodes its own.
-/
import Mathlib.Init

namespace OteStack

/-- The commands of `clustermessage.proto`.  A proto3 enumeration is open: a number the sender knows
and the receiver does not is kept as it is. -/
inductive CommandType where
  | reserved
  | clusterRegist
  | clusterUnregist
  | neighborRoute
  | subTreeRoute
  | deployReq
  | deployResp
  | controlReq
  | controlResp
  | edgeReport
  | controlMultiReq
  | unrecognized (number : Int)
  deriving DecidableEq, Repr

/-- The head of a cluster message. -/
structure MessageHead where
  messageID : String
  command : CommandType
  clusterSelector : String
  clusterName : String
  parentClusterName : String
  deriving DecidableEq, Repr

/-- A cluster message whose head is present. -/
structure ClusterMessage where
  head : MessageHead
  body : List UInt8
  deriving DecidableEq, Repr

/-- A decoded message, which may come without a head. -/
structure WireMessage where
  head : Option MessageHead
  body : List UInt8
  deriving DecidableEq, Repr

/-- The message with another selector: `proto.Clone` followed by the assignment to
`Head.ClusterSelector`. -/
def ClusterMessage.withSelector (msg : ClusterMessage) (selector : String) : ClusterMessage :=
  { msg with head := { msg.head with clusterSelector := selector } }

/-- The two commands that an edge handler dispatches to its shim. -/
def ClusterMessage.IsControl (msg : ClusterMessage) : Prop :=
  msg.head.command = .controlReq ∨ msg.head.command = .controlMultiReq

instance (msg : ClusterMessage) : Decidable msg.IsControl :=
  inferInstanceAs (Decidable (_ ∨ _))

/-- `clustermessage.ControllerTask`. -/
structure ControllerTask where
  destination : String
  method : String
  uri : String
  body : List UInt8
  deriving DecidableEq, Repr

/-- `clustermessage.ControlMultiTask`. -/
structure ControlMultiTask where
  destination : String
  method : String
  uri : String
  body : List (List UInt8)
  deriving DecidableEq, Repr

/-- `clustermessage.ControllerTaskResponse`, with its body as text. -/
structure ControllerTaskResponse where
  timestamp : Int
  statusCode : Int
  body : String
  deriving DecidableEq, Repr

@[simp] theorem ClusterMessage.withSelector_selector (msg : ClusterMessage) (s : String) :
    (msg.withSelector s).head.clusterSelector = s := rfl

end OteStack
