import ActionGraph.Behavior.Repertoire
import ActionGraph.Event.Position
import ActionGraph.Script.Library

/-!
The built-in node types: constants and the mount, which are computed on demand; the hover trigger;
effects on host elements; logging; and scripts. Settings are coerced where they are read.
-/

namespace ActionGraph.Builtin

/-- The number in a setting: a default if the setting is missing, and also if it is no number. -/
def numberSetting (n : Node) (key : String) (default : Number) : Number :=
  ((n.setting? key).getD default.toValue).numberOr default

def constString : Behavior where
  name := "ConstString"
  producer := .passive
  executable := .ok false
  supply _ node port :=
    .done (if port = "data_out" then .text (Value.textOr (node.setting? "value") "") else .absent)

def constNumber : Behavior where
  name := "ConstNumber"
  producer := .passive
  executable := .ok false
  supply _ node port :=
    .done (if port = "data_out" then (numberSetting node "value" (.int 0)).toValue else .absent)

def uiRoot : Behavior where
  name := "UiRoot"
  producer := .passive
  executable := .ok false
  supply settings node port :=
    if port = "tool_out" then Action.mount (Value.textOr (node.setting? "mountId") settings.mountId)
    else .done .absent

def uiHover : Behavior where
  name := "UiHover"
  producer := .event
  executable := .ok false
  trigger := some ⟨"data_out_event", "#hoverTarget", "mouseover"⟩

def lastEventValue : Action Value := do
  let last ← Action.lastEvent
  return last.elim Value.null Value.event

/-- Where an element appears: at the event, or in the middle of the view. -/
def spawnPoint (settings : Settings) (event : Value) : Point :=
  (Point.ofEvent? event).getD ⟨.float (settings.width / 2), .float (settings.height / 2)⟩

/-- Makes an emoji element where the event was. Its coordinates are computed before anything is
made. -/
def spawnEmoji : Behavior where
  name := "SpawnEmoji"
  inputs := [.wired "tool_in",
    ⟨"data_in_emoji", some "defaultEmoji", .text "✨", some .text⟩,
    ⟨"data_in_size", some "defaultSizePx", .int 120, some .number⟩,
    .wired "data_in_event"]
  effect settings node inputs := do
    let wiredRoot := inputs.value "tool_in"
    let root ← if wiredRoot.isNull then Action.mount settings.mountId else pure wiredRoot
    let wiredEvent := inputs.value "data_in_event"
    let event ← if wiredEvent.isNull then lastEventValue else pure wiredEvent
    let point := spawnPoint settings event
    let x ← Action.ofExcept (point.x.add (numberSetting node "offsetX" (.int 0)))
    let y ← Action.ofExcept (point.y.add (numberSetting node "offsetY" (.int 0)))
    let emoji := inputs.value "data_in_emoji"
    let size := inputs.value "data_in_size"
    let element ← Action.create "emoji"
      [("text", emoji), ("x", x.toValue), ("y", y.toValue), ("size", size), ("parent", root)]
    Action.log "Spawned emoji"
      (.record [("emoji", emoji), ("x", x.toValue), ("y", y.toValue), ("size", size)])
    return [("data_out_el", element)]

def keyframes (startScale toX toY scaleTo : Number) : Except Fault Value := do
  let farX ← toX.mul (.float 1.08)
  let farY ← toY.mul (.float 1.08)
  let farScale ← scaleTo.mul (.float 1.05)
  let frame (x y scale opacity : Number) : Value :=
    .record [("x", x.toValue), ("y", y.toValue), ("scale", scale.toValue), ("opacity", opacity.toValue)]
  return .list [frame (.int 0) (.int 0) startScale (.int 1), frame toX toY scaleTo (.float 0.9),
    frame farX farY farScale (.int 0)]

/-- Lets an element fly and waits until it has settled. A flight that fails counts as settled. -/
def animateFly : Behavior where
  name := "AnimateFly"
  inputs := [.wired "data_in_el",
    ⟨"data_in_toX", some "toX", .int 900, some .number⟩,
    ⟨"data_in_toY", some "toY", .int (-200), some .number⟩,
    ⟨"data_in_ms", some "durationMs", .int 900, some .number⟩,
    ⟨"data_in_scaleTo", some "scaleTo", .null, some .number⟩]
  effect _ node inputs := do
    let element := inputs.value "data_in_el"
    if element.isNull then
      Action.log "AnimateFly: missing element input" (.record [("node", .text node.id)])
      return []
    else
      let toX := inputs.value "data_in_toX"
      let toY := inputs.value "data_in_toY"
      let duration := inputs.value "data_in_ms"
      let wiredScale := inputs.value "data_in_scaleTo"
      let scale := if wiredScale.isNull then (numberSetting node "endScale" (.float 1.6)).toValue else wiredScale
      let frames ← Action.ofExcept do
        keyframes (numberSetting node "startScale" (.int 1)) (← toX.toNumber "*") (← toY.toNumber "*") (← scale.toNumber "*")
      match ← Action.animate element frames duration with
      | .ok _ => pure ()
      | .error f =>
        Action.log "Animation did not finish" (.record [("node", .text node.id), ("error", .text f.line)])
      Action.log "Animated emoji" (.record [("toX", toX), ("toY", toY), ("durationMs", duration)])
      return [("data_out_el", element)]

def removeElement : Behavior where
  name := "RemoveElement"
  inputs := [.wired "data_in_el"]
  effect _ node inputs := do
    let element := inputs.value "data_in_el"
    if element.isNull then
      Action.log "RemoveElement: missing element input" (.record [("node", .text node.id)])
      return []
    else
      Action.destroy element
      Action.log "Removed element" .null
      return []

def debugLog : Behavior where
  name := "DebugLog"
  inputs := [.wired "data_in"]
  effect _ node inputs := do
    let heading := Value.textOr (node.setting? "prefix") (Value.textOr (node.setting? "label") "[graph]")
    Action.log heading (.record [("value", inputs.value "data_in")])
    return []

/-- Runs the script in its setting. The result goes to one port and a failure to another; the port
that is not concerned keeps what it had. -/
def evaluateScript (evaluate : Script.Evaluator) : Behavior where
  name := "EvalExpression"
  inputs := [.wired "data_in"]
  effect _ node inputs := do
    let code := Value.textOr (node.setting? "code") ""
    let event := (← Action.lastEvent).elim Value.null Snapshot.toRecord
    match ← (evaluate code (inputs.value "data_in") event).toAction with
    | .error f =>
      Action.log "Expression failed" (.record [("node", .text node.id), ("error", .text f.line)])
      return [("error_out", .record [("message", .text f.line)])]
    | .ok v =>
      Action.log "Evaluated expression" (.record [("node", .text node.id), ("output", v)])
      return [("data_out", v)]

def repertoire (evaluate : Script.Evaluator) : Repertoire :=
  ⟨[("data.constString", constString), ("data.constNumber", constNumber), ("tool.uiRoot", uiRoot),
    ("event.uiHover", uiHover), ("ui.spawnEmoji", spawnEmoji), ("ui.animateFly", animateFly),
    ("ui.removeElement", removeElement), ("debug.log", debugLog), ("logic.eval", evaluateScript evaluate)]⟩

def standard : Repertoire := repertoire Script.evaluate

end ActionGraph.Builtin
