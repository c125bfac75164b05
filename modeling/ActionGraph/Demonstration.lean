import ActionGraph.Palette

/-!
The demonstration graph: hovering over a target spawns an emoji at the pointer, lets it fly away
and removes it.
-/

namespace ActionGraph.Demonstration

def edge (id : String) (kind : PortKind) (source sourcePort target targetPort : String) : Edge :=
  ⟨id, kind, ⟨source, sourcePort⟩, ⟨target, targetPort⟩⟩

/-- The nodes: a trigger, three constants and the three steps of the flow. -/
def nodes : List Node := [
  Palette.newNode Palette.hover "n_hover" ⟨0, 0⟩
    [("selector", .str "#hoverTarget"), ("eventType", .str "mouseover")],
  Palette.newNode Palette.uiRoot "n_uiRoot" ⟨0, 180⟩ [("mountId", .str "cj-ui-overlay")],
  Palette.newNode Palette.constString "n_emoji" ⟨-220, 200⟩ [("value", .str "🪽")],
  Palette.newNode Palette.constNumber "n_size" ⟨-220, 280⟩ [("value", .int 120)],
  Palette.newNode Palette.spawnEmoji "n_spawn" ⟨280, 40⟩
    [("defaultEmoji", .str "🪽"), ("defaultSizePx", .int 120)],
  Palette.newNode Palette.animateFly "n_fly" ⟨600, 40⟩
    [("toX", .int 1100), ("toY", .int (-180)), ("durationMs", .int 900)],
  Palette.newNode Palette.removeElement "n_remove" ⟨920, 40⟩ []]

/-- The edges: the path of the pulse, then the data it uses. -/
def edges : List Edge := [
  edge "e_exec_1" .exec "n_hover" "exec_out" "n_spawn" "exec_in",
  edge "e_exec_2" .exec "n_spawn" "exec_out" "n_fly" "exec_in",
  edge "e_exec_3" .exec "n_fly" "exec_out" "n_remove" "exec_in",
  edge "e_data_emoji" .data "n_emoji" "data_out" "n_spawn" "data_in_emoji",
  edge "e_data_size" .data "n_size" "data_out" "n_spawn" "data_in_size",
  edge "e_data_event" .data "n_hover" "data_out_event" "n_spawn" "data_in_event",
  edge "e_tool_1" .tool "n_uiRoot" "tool_out" "n_spawn" "tool_in",
  edge "e_data_el_1" .data "n_spawn" "data_out_el" "n_fly" "data_in_el",
  edge "e_data_el_2" .data "n_fly" "data_out_el" "n_remove" "data_in_el"]

def graphId : String := "graph_demo_hover_emoji"

def graph (graphId : Option String) : Graph where
  schemaVersion := Graph.currentSchema
  graphId := graphId
  name := some "Hover -> Flying Emoji Demo"
  nodes := nodes
  edges := edges

/-- The demonstration graph under an unchecked id, which has to be a text or null. The id is given
under the second of its two names. -/
def graphOf : Value → Except Fault Graph
  | .null => .ok (graph none)
  | .text id => .ok (graph (some id))
  | _ => .error (.invalid "Graph" [⟨.text, [.field "graph_id"]⟩])

end ActionGraph.Demonstration
