import ActionGraph.Host.Basic
import ActionGraph.Session.Listener
import ActionGraph.Session.Staging
import ActionGraph.Session.Trace

/-!
What the runs of a session share: the host, the clock, the log sink, and the record of what was
observed. Every call of the host is counted, recorded and then either fails as planned or acts.
-/

namespace ActionGraph

structure Outside where
  host : Host Listener
  staging : Staging
  calls : List (HostCall × Nat)
  clock : Clock
  sink : Sink
  handed : Nat
  /-- How many animations were left to be settled from outside. -/
  gates : Nat
  trace : Array Entry

namespace Outside

def record (o : Outside) (e : Entry) : Outside := { o with trace := o.trace.push e }

def diagnose (o : Outside) (line : String) : Outside := o.record (.diagnostic line)

/-- Hands an entry to the log sink. A failure of the sink is reported and goes no further. -/
def log (o : Outside) (message : String) (data : Value) : Outside :=
  match o.sink with
  | .nowhere => o
  | .present fault? =>
    let handed : Outside := { o with handed := o.handed + 1 }
    match fault? o.handed message data with
    | none => handed.record (.logged message data)
    | some f => handed.diagnose ("[ENGINE] log sink raised " ++ f.line)

def readClock (o : Outside) : Except Fault Value × Outside :=
  let (reading, clock) := o.clock.read
  (reading, { o with clock := clock })

def call (o : Outside) (c : HostCall) : Outside × Option Fault :=
  let n := (Keyed.get? c o.calls).getD 0
  ({ o with calls := Keyed.put c (n + 1) o.calls }, o.staging.fault? c n)

def mount (o : Outside) (id : String) : Outside × Except Fault Value :=
  match (o.record (.mount id)).call .mount with
  | (o, some f) => (o, .error f)
  | (o, none) =>
    let (host, mount) := o.host.mount id
    ({ o with host := host }, .ok (.element mount))

def create (o : Outside) (kind : String) (params : List (String × Value)) : Outside × Except Fault Value :=
  match (o.record (.create kind params)).call .create with
  | (o, some f) => (o, .error f)
  | (o, none) =>
    let (host, element) := o.host.create kind params
    ({ o with host := host }, .ok (.element element))

def animate (o : Outside) (handle keyframes duration : Value) : Outside × Except Fault Unit :=
  match (o.record (.animate handle keyframes duration)).call .animate with
  | (o, some f) => (o, .error f)
  | (o, none) =>
    let o := { o with host := o.host.record handle keyframes duration }
    match o.host.seconds duration with
    | .error f => (o, .error f)
    | .ok seconds => (o.record (.slept seconds), .ok ())

def destroy (o : Outside) (handle : Value) : Outside × Except Fault Unit :=
  match (o.record (.destroy handle)).call .destroy with
  | (o, some f) => (o, .error f)
  | (o, none) =>
    match o.host.destroy handle with
    | .error f => (o, .error f)
    | .ok host => ({ o with host := host }, .ok ())

/-- Whether the host has a target. The call is observed only where it is planned to fail. -/
def resolve (o : Outside) (selector : String) : Outside × Except Fault Bool :=
  let o := if o.staging.plans .resolve then o.record (.resolve selector) else o
  match o.call .resolve with
  | (o, some f) => (o, .error f)
  | (o, none) => (o, .ok (o.host.hasTarget selector))

def subscribe (o : Outside) (s : Subscription) : Outside :=
  { o with host := o.host.subscribe s.channel s.listener }

/-- Stops to listen, unless subscriptions stick to the host. The call is observed only where it is
planned to fail. -/
def unsubscribe (o : Outside) (s : Subscription) : Outside × Except Fault Unit :=
  if o.staging.sticky then (o, .ok ())
  else
    let o := if o.staging.plans .unsubscribe then o.record .unsubscribe else o
    match o.call .unsubscribe with
    | (o, some f) => (o, .error f)
    | (o, none) => ({ o with host := o.host.unsubscribe s.channel s.listener }, .ok ())

end Outside

end ActionGraph
