import ActionGraph.Demonstration
import ActionGraph.Behavior.Builtin
import ActionGraph.Proofs.Pulse.Unfolding

/-!
The demonstration graph with the built-in behaviors: where its pulses go.
-/

namespace ActionGraph.Demonstration

/-- The demonstration graph with the built-in behaviors. -/
def environment (graphId : Option String) (evaluate : Script.Evaluator) (settings : Settings) : Environment :=
  ⟨graph graphId, Builtin.repertoire evaluate, settings⟩

variable (graphId : Option String) (evaluate : Script.Evaluator) (settings : Settings)

/-- The output of the trigger that every pulse of the demonstration begins at. -/
def origin : Endpoint := ⟨"n_hover", "exec_out"⟩

def overlay : ElementRef := .mount "cj-ui-overlay"

/-- The place of the mount, of the emoji, of its size and of the event, and of the two elements. -/
def toolPort : Endpoint := ⟨"n_uiRoot", "tool_out"⟩

def emojiPort : Endpoint := ⟨"n_emoji", "data_out"⟩

def sizePort : Endpoint := ⟨"n_size", "data_out"⟩

def eventPort : Endpoint := ⟨"n_hover", "data_out_event"⟩

def spawnPort : Endpoint := ⟨"n_spawn", "data_out_el"⟩

def flyPort : Endpoint := ⟨"n_fly", "data_out_el"⟩

def spawnNode : Node := nodes.get ⟨4, by decide⟩

def flyNode : Node := nodes.get ⟨5, by decide⟩

def removeNode : Node := nodes.get ⟨6, by decide⟩

end ActionGraph.Demonstration
