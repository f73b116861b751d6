import Autoflow.Node.Id

/-!
# Warnings

What is worth a remark and does not stop the work on a graph.
-/

namespace Autoflow

/-- A remark about a graph. -/
inductive Warning where
  /-- A key in the stored entry of a node that means nothing. -/
  | unknownKey (key : String) (node : NodeId)
  /-- An output for which there is no label. -/
  | unlabeledOutput (output : String) (node : NodeId)
deriving DecidableEq

/-- The text of a warning. -/
def Warning.message : Warning → String
  | unknownKey key n =>
    "Ignoring unknown key '" ++ key ++ "' in graph entry of node " ++ toString n
  | unlabeledOutput output n => "No label for output '" ++ output ++ "' of node " ++ toString n

end Autoflow
