import StagedBuild.Action
import StagedBuild.Text.Encoding

/-!
Running external tools. A tool that cannot be started counts as one that ended with the exit code of
a missing command; without a command there is no tool to name.
-/

namespace StagedBuild.Tool

def result (command : List String) : ToolReply → Except Fault ToolResult
  | .exited code stdout stderr =>
    .ok ⟨command, code, Text.decodeLenient stdout, Text.decodeLenient stderr⟩
  | .notStarted fault =>
    match command with
    | name :: _ => .ok ⟨command, ToolResult.notFoundCode, "", name ++ ": " ++ fault.message⟩
    | [] => .error .noItem
  | .raised fault => .error fault

/-- Runs a tool in a directory, or in the current one. -/
def run (command : List String) (directory : Option Path) : Action ToolResult := do
  let around ← read
  let w ← get
  let call : Invocation := ⟨command, directory⟩
  Action.note (.ran call w.tree)
  let (reply, after) := around.tool call w
  Action.setTree after
  Action.ofExcept id (result command reply)

end StagedBuild.Tool
