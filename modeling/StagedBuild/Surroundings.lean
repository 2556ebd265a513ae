import StagedBuild.World

/-!
What surrounds a build: the environment of the process, the tools that can be run, the servers that
answer and the library that speaks to them, the registered toolchains, the libraries that unpack,
the scheduler, and the user who may interrupt. They may answer in any way, and what they answer may
depend on everything that happened before.
-/

namespace StagedBuild

/-- How a tool that was called ends. -/
inductive ToolReply where
  | exited (code : Int) (stdout stderr : List UInt8)
  | notStarted (fault : SystemFault)
  | raised (fault : Fault)
  deriving Repr

/-- What comes of reading a body: the pieces, and the fault that ended them, if any. -/
structure Body where
  pieces : List (List UInt8)
  fault : Option Fault

/-- The answer to a request, as the library that speaks to servers presents it: the status, the
complaint with which it refuses the answer, if it does, the headers by name, the text, and the body
as it is read in pieces of a size. What the server sent is in `content`; nothing that is done
depends on it other than through what the library makes of it. -/
structure Response where
  status : Int
  refusal : Option String
  header? : String → Option String
  text : Except Fault String
  body : Int → Body
  content : List UInt8

/-- How a request ends. -/
inductive Reply where
  | failed (fault : Fault)
  | answered (response : Response)

/-- A toolchain for the intermediate representation, with the label under which it presents itself.
Only code generation touches the disk. -/
structure IrTools where
  label : String
  link : Plan → World → Except Fault Linked
  optimize : Plan → Linked → World → Except Fault (List Definition)
  generate : Plan → List Definition → World → FileTree × Except Fault Unit

/-- A toolchain that is registered under a name. Loading it may fail. -/
structure Plugin where
  group : String
  name : String
  load : Except Fault IrTools

/-- How tasks that run side by side end: the order in which they do, how many of them have ended
when their results are first asked for, and the order in which those are taken up. -/
structure Schedule where
  finished : List Nat
  early : Nat
  earlyOrder : List Nat

/-- Why a library does not unpack what it is given. -/
inductive UnpackerFault where
  | refused (text : String)
  | corrupt (text : String)
  | endOfData
  | outOfMemory

/-- The fault in which unpacking ends. -/
def UnpackerFault.fault : UnpackerFault → Fault
  | refused text => .system (.described text)
  | corrupt text => .corruptStream text
  | endOfData => .endOfData
  | outOfMemory => .outOfMemory

/-- Everything around a build. The clock shows hundredths of a second. A library that unpacks is
asked by the number of its method: it is told the bytes that it has taken and those that arrive, and
gives the bytes that it unpacks and whether the stream has ended. The entries of a directory are
listed in any order. The stack has room for values that are nested so much deeper than those that a
build writes, and there is memory to spare for so many bytes. -/
structure Surroundings where
  directory : Location
  environment : List (String × String)
  homes : List (String × String)
  systemName : String
  processors : Option Nat
  clock : World → Nat
  tool : Invocation → World → ToolReply × FileTree
  server : Request → World → Reply
  plugins : List Plugin
  schedule : World → Nat → Nat → Schedule
  interrupts : World → Bool
  unpacker : Nat → List UInt8 → List UInt8 → Except UnpackerFault (List UInt8 × Bool)
  listing : World → Location → List Location
  stackRoom : Nat
  spareMemory : Nat

/-- Surroundings in which nothing answers: no tool can be started, no server be reached, no
toolchain is registered, nothing is unpacked, and nobody interrupts. Tasks end in their order. -/
def Surroundings.still (directory : Location) : Surroundings where
  directory
  environment := []
  homes := []
  systemName := "Linux"
  processors := none
  clock := fun _ => 0
  tool := fun call w => (.notStarted (.on .noEntry (call.command.headD "")), w.tree)
  server := fun asked _ => .failed (.transfer (.connection ("no connection for " ++ asked.url)))
  plugins := []
  schedule := fun _ _ tasks => ⟨List.range tasks, 0, []⟩
  interrupts := fun _ => false
  unpacker := fun _ _ _ => .ok ([], false)
  listing := fun _ _ => []
  stackRoom := 968
  spareMemory := Nat.pow 2 30

end StagedBuild
