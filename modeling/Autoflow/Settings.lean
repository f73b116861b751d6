import Autoflow.Failure
import Autoflow.Text.Blank

/-!
# Settings from the environment

Two variables set up the engine: whether listings of nodes are kept, and the directory into
which graphs are written. Without a directory they stay in memory.
-/

namespace Autoflow

/-- The settings of the engine. -/
structure Settings where
  nodeCache : Bool := true
  graphDir : Option String := none
deriving DecidableEq

namespace Settings

/-- The variable that turns the listings of nodes on or off. -/
def nodeCacheVariable : String := "FLOWGRAPH_NODE_CACHE"

/-- The variable that holds the directory for graphs. -/
def graphDirVariable : String := "FLOWGRAPH_GRAPH_DIR"

/-- Reads a switch: one of four words for each side, in any case and with blanks around it. -/
def readSwitch (name value : String) : Except Failure Bool :=
  let word := Text.lowerAscii (Text.trimBlanks value)
  if ["1", "true", "yes", "on"].contains word then .ok true
  else if ["0", "false", "no", "off"].contains word then .ok false
  else .error (.configuration (name ++ " must be a boolean, got '" ++ word ++ "'"))

/-- Reads the settings from a look-up of variables. A blank directory counts as none. -/
def ofLookup (lookup : String → Option String) : Except Failure Settings := do
  let nodeCache ← match lookup nodeCacheVariable with
    | none => .ok true
    | some value => readSwitch nodeCacheVariable value
  let graphDir := (lookup graphDirVariable).filter fun dir => !Text.isBlankText dir
  return { nodeCache, graphDir }

end Settings

end Autoflow
