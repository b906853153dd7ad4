import Attest.Event
/-!
# Elevation

When one of several things has to match, the events of all of them are elevated: if any
check passed, only those that passed are told; otherwise every error is, and then every
failure.
-/

namespace Attest

/-- The events of a status, in order. -/
def eventsOf (status : Status) (events : List Event) : List Event :=
  events.filter fun e => e.status == status

/-- The events that are told of those collected. -/
def elevate (events : List Event) : List Event :=
  if events.any Event.isPass then eventsOf .pass events
  else eventsOf .error events ++ eventsOf .fail events

end Attest
