import ActionGraph.Behavior.Builtin
import ActionGraph.Session.Control

/-!
Running a graph without a screen: every target that the graph listens on is there, events happen
one after the other, and each event's pulses end before the next event.
-/

namespace ActionGraph.Rehearsal

structure Plan where
  cues : List String
  x : Float
  y : Float
  timeScale : Value
  clock : Clock
  patience : Nat

def environment (g : Graph) : Environment := ⟨g, Builtin.standard, Settings.standard⟩

/-- The event class that happens on a selector: that of the first trigger that listens there. -/
def eventClass (env : Environment) (selector : String) : String :=
  match (env.wanted 0).find? fun s => s.channel.selector == selector with
  | some s => s.channel.eventClass
  | none => "mouseover"

def host (env : Environment) (timeScale : Value) : Host Listener :=
  (env.wanted 0).foldl (fun h s => h.addTarget s.channel.selector) (.empty timeScale)

def session (env : Environment) (p : Plan) : Session :=
  .empty ⟨host env p.timeScale, .plain, [], p.clock, .collecting, 0, 0, #[]⟩

def cue (env : Environment) (p : Plan) (run : Nat) (s : Session) (selector : String) :
    Session × Except Fault Unit :=
  match s.happen ⟨selector, eventClass env selector⟩ (.float p.x) (.float p.y) with
  | (s, .error f) => (s, .error f)
  | (s, .ok n) =>
    let s := if n = 0 then { s with outside := s.outside.log ("No listener for selector: " ++ selector) .null } else s
    ((s.quiesce run p.patience).1, .ok ())

def cueAll (env : Environment) (p : Plan) (run : Nat) (s : Session) :
    List String → Session × Except Fault Unit
  | [] => (s, .ok ())
  | selector :: rest =>
    match cue env p run s selector with
    | (s, .error f) => (s, .error f)
    | (s, .ok _) => cueAll env p run s rest

def run (g : Graph) (p : Plan) : Session × Except Fault Unit :=
  let env := environment g
  match (session env p).start env with
  | (s, .error f) => (s, .error f)
  | (s, .ok i) =>
    let (s, result) := cueAll env p i s p.cues
    (s.stop i, result)

def logged (trace : List Entry) : List (String × Value) :=
  trace.filterMap fun
    | .logged message data => some (message, data)
    | _ => none

def diagnostics (trace : List Entry) : List String :=
  trace.filterMap fun
    | .diagnostic line => some line
    | _ => none

end ActionGraph.Rehearsal
