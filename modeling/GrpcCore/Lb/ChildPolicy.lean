import Mathlib.Data.List.Basic

/-!
# Child policies

What a load balancing policy sees of its children: the states that they report, statuses, and what
a pick comes to.
-/

namespace GrpcCore

/-- `grpc_connectivity_state`. -/
inductive ConnectivityState where
  | idle
  | connecting
  | ready
  | transientFailure
  | shutdown
  deriving DecidableEq

/-- An `absl::Status`, an error being the text of `ToString`. -/
abbrev Status := Except String Unit

def unavailableError (message : String) : Status := .error ("UNAVAILABLE: " ++ message)

/-- `LoadBalancingPolicy::PickResult`. -/
inductive PickResult (σ : Type*) where
  | complete (subchannel : σ)
  | queue
  | fail (status : Status)
  | drop (status : Status)

end GrpcCore
