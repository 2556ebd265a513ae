import StagedBuild.Action
import StagedBuild.Action.Disk

/-!
What a rehearsal puts in the place of tools and libraries: failures that are called for by kind,
changes of the disk that happen outside the program that is rehearsed, tools that follow rules, and
libraries that unpack. Of the rules for tools the first whose words all occur in a command says how
it ends and what it leaves in its output file.
-/

namespace StagedBuild.Rehearsal

/-- The fault of a kind, with its text. -/
def faultOf (kind text : String) : Fault :=
  match kind with
  | "ConnectionError" => .transfer (.connection text)
  | "Timeout" => .transfer (.timeout text)
  | "HTTPError" => .transfer (.protocol text)
  | "ValueError" => .value (.other text)
  | "OSError" => .system (.described text)
  | "KeyboardInterrupt" => .interrupted
  | "NativeBuildError" => .build (.general text)
  | "ImportError" => .unloadable text
  | _ => .failure text

/-- What a change of the disk comes to when nothing but the disk takes part in it: the outcome and
the tree that is left. -/
def changeAlone {α : Type} (directory : Location) (tree : FileTree) (change : Action α) :
    Except Fault α × FileTree :=
  let (outcome, w) := change.perform (.still directory) (.ofTree tree)
  (outcome, w.tree)

/-- What a tool leaves in its output file: the usual product, nothing, or a text. -/
inductive Product where
  | usual
  | nothing
  | text (text : String)
  deriving DecidableEq, Repr

/-- A rule for tools. A refusal means that the tool cannot be started. -/
structure ToolRule where
  words : List String
  exitCode : Int
  stdout : List UInt8
  stderr : List UInt8
  product : Product
  refusal : Option (Int × String)
  raised : Option String

/-- The rule that applies when no other does. -/
def ToolRule.plain : ToolRule :=
  ⟨[], 0, [], [], .usual, none, none⟩

/-- What stands behind the last slash of a word. -/
def lastComponent (word : String) : String :=
  (Text.pieces '/' word).getLast?.getD ""

/-- A rule applies to a command. -/
def ToolRule.applies (rule : ToolRule) (command : List String) : Bool :=
  rule.words.all fun word => command.any fun part => part == word || lastComponent part == word

def outputWord? : List String → Option String
  | "-o" :: word :: _ => some word
  | _ :: rest => outputWord? rest
  | [] => none

/-- The text that a rule leaves in the output file of a command. -/
def ToolRule.productText? (rule : ToolRule) (command : List String) : Option String :=
  match rule.product with
  | .text text => some text
  | .nothing => none
  | .usual =>
    if rule.exitCode ≠ 0 then none
    else if "-emit-llvm" ∈ command then some "target triple = \"x86_64-pc-linux-gnu\"\n"
    else some "object"

/-- Writes the output file of a command. -/
def writeProduct (call : Invocation) (word text : String) : Action Unit := do
  let base ← Disk.absolute (call.directory.getD (Path.parse ""))
  let target := base / word
  Disk.makeDirectories target.parent
  Disk.writeText target text

/-- How a command ends by a rule, and the tree that it leaves. -/
def ToolRule.follow (rule : ToolRule) (directory : Location) (call : Invocation)
    (tree : FileTree) : ToolReply × FileTree :=
  match rule.refusal, rule.raised with
  | some (number, text), _ =>
    (.notStarted (.on (.numbered number text) (call.command.headD "")), tree)
  | none, some text => (.raised (.failure text), tree)
  | none, none =>
    let reply : ToolReply := .exited rule.exitCode rule.stdout rule.stderr
    match outputWord? call.command, rule.productText? call.command with
    | some word, some text =>
      match changeAlone directory tree (writeProduct call word text) with
      | (.ok _, tree) => (reply, tree)
      | (.error (.system fault), tree) => (.notStarted fault, tree)
      | (.error fault, tree) => (.raised fault, tree)
    | _, _ => (reply, tree)

/-- Tools that follow rules. -/
def ruledTool (rules : List ToolRule) (directory : Location) (call : Invocation) (w : World) :
    ToolReply × FileTree :=
  ((rules.find? fun rule => rule.applies call.command).getD .plain).follow directory call w.tree

/-- The bytes may be the header of a stream of sorted blocks, up to the mark with which a block or
the end of the stream begins. -/
def isBlockHeader (bytes : List UInt8) : Bool :=
  let marks : List (List UInt8) :=
    [[0x31, 0x41, 0x59, 0x26, 0x53, 0x59], [0x17, 0x72, 0x45, 0x38, 0x50, 0x90]]
  (bytes.take 3).isPrefixOf [66, 90, 104]
    && ((bytes.drop 3).take 1).all (fun level => 49 ≤ level && level ≤ 57)
    && marks.any (bytes.drop 4).isPrefixOf

/-- Libraries that know the header of a stream of sorted blocks and nothing else: they refuse what
cannot be one, and unpack nothing. -/
def headersOnly (method : Nat) (taken arriving : List UInt8) :
    Except UnpackerFault (List UInt8 × Bool) :=
  if method = 12 && !isBlockHeader (taken ++ arriving) then .error (.refused "Invalid data stream")
  else .ok ([], false)

/-- How many tasks are taken up as they end; when there are more, those before them have ended when
the first is asked for. -/
def lateTasks : Nat := 1000

/-- Tasks end in their order, and those that have ended early are taken up from behind. -/
def schedule (_ : World) (_ tasks : Nat) : Schedule :=
  ⟨List.range tasks, tasks - lateTasks, (List.range (tasks - lateTasks)).reverse⟩

end StagedBuild.Rehearsal
