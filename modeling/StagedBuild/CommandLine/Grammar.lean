import StagedBuild.Text.Numeral
import StagedBuild.Text.Quoted

/-!
The grammar of a command line. A word is a switch, an argument, or the separator `--`, after which
every word is an argument. Long switches may be shortened as long as one switch is meant; short ones
may be written together, and a value may follow in the same word. What no switch and no argument
takes is left over.
-/

namespace StagedBuild.CommandLine

/-- What ends the reading of a command line early: a text that was asked for, or a complaint about
the command line. -/
inductive Stop where
  | shown (text : String)
  | refused (usage program complaint : String)
  deriving DecidableEq, Repr

/-- What a switch does to what the command line says so far. One that takes a value may refuse it;
it has no value when the separator stands in its place. -/
inductive Effect (σ : Type) where
  | flag (apply : σ → Except Stop σ)
  | valued (apply : Option String → σ → Except String σ)

/-- A switch with its spellings. -/
structure Switch (σ : Type) where
  spellings : List String
  effect : Effect σ

/-- What a command takes besides switches: nothing, one argument, or another command with all words
that follow, of which it leaves some over. -/
inductive Operand (σ : Type) where
  | nothing
  | argument (name : String) (apply : String → σ → Except String σ)
  | command (apply : String → List String → σ → Except Stop (σ × List String))

/-- The grammar of a command: how it is called, what it takes, and what may not be missing in the
end. -/
structure Grammar (σ : Type) where
  program : String
  usage : String
  switches : List (Switch σ)
  operand : Operand σ
  missing : σ → List String

/-- How a switch is named in a complaint. -/
def Switch.name {σ : Type} (s : Switch σ) : String :=
  "/".intercalate s.spellings

/-- What a word is, as far as it does not depend on its place. A text may be attached to a switch in
the same word. -/
inductive Reading (σ : Type) where
  | argument
  | separator
  | unknown
  | switch (s : Switch σ) (spelling : String) (attached : Option (List Char))

/-- A word and what it is. -/
structure Word (σ : Type) where
  written : String
  reading : Reading σ

namespace Grammar

variable {σ : Type} (g : Grammar σ)

/-- A complaint about the command line. -/
def refuse (complaint : String) : Stop :=
  .refused g.usage g.program complaint

/-- A complaint about a switch or an argument. -/
def refuseArgument (name complaint : String) : Stop :=
  g.refuse ("argument " ++ name ++ ": " ++ complaint)

/-- Every spelling of every switch. -/
def spelled : List (String × Switch σ) :=
  g.switches.flatMap fun s => s.spellings.map fun spelling => (spelling, s)

/-- A text begins with another one. -/
def begins (beginning text : String) : Bool :=
  beginning.toList.isPrefixOf text.toList

/-- Splits a word at its first equals sign. -/
def splitEquals (cs : List Char) : List Char × Option (List Char) :=
  let front := cs.takeWhile (· != '=')
  match cs.drop front.length with
  | _ :: value => (front, some value)
  | [] => (front, none)

/-- The switches that a shortened or extended word can mean. -/
def candidates (cs : List Char) : List (Switch σ × String × Option (List Char)) :=
  match cs with
  | '-' :: '-' :: _ =>
    let (front, value) := splitEquals cs
    (g.spelled.filter fun entry => begins (String.ofList front) entry.1).map fun (spelling, s) =>
      (s, spelling, value)
  | _ =>
    g.spelled.filterMap fun (spelling, s) =>
      if spelling = String.ofList (cs.take 2) then some (s, spelling, some (cs.drop 2))
      else if begins (String.ofList cs) spelling then some (s, spelling, none)
      else none

/-- A word that is written like a negative number. -/
def isNegativeNumber (cs : List Char) : Bool :=
  let cs := if cs.getLast? = some '\n' then cs.dropLast else cs
  let isDigit (c : Char) : Bool := (Text.decimalDigit? c).isSome
  match cs with
  | '-' :: number =>
    let whole := number.takeWhile isDigit
    match number.drop whole.length with
    | [] => !whole.isEmpty
    | '.' :: places => !places.isEmpty && places.all isDigit
    | _ => false
  | _ => false

def readWord (written : String) : Except Stop (Reading σ) := do
  let cs := written.toList
  if cs.head? ≠ some '-' then return .argument
  match g.spelled.lookup written with
  | some s => return .switch s written none
  | none =>
    if cs.length = 1 then return .argument
    let (front, value) := splitEquals cs
    match value, g.spelled.lookup (String.ofList front) with
    | some text, some s => return .switch s (String.ofList front) (some text)
    | _, _ =>
      match g.candidates cs with
      | [(s, spelling, attached)] => return .switch s spelling attached
      | [] =>
        if isNegativeNumber cs || cs.contains ' ' then return .argument
        return .unknown
      | several =>
        throw (g.refuse ("ambiguous option: " ++ written ++ " could match "
          ++ ", ".intercalate (several.map fun candidate => candidate.2.1)))

def readWords : List String → Except Stop (List (Word σ))
  | [] => return []
  | written :: rest =>
    if written = "--" then
      return ⟨written, .separator⟩ :: rest.map fun text => ⟨text, .argument⟩
    else do
      let reading ← g.readWord written
      return ⟨written, reading⟩ :: (← readWords rest)

/-- A switch that is taken, with its value if it has one. -/
abbrev Taken (σ : Type) := Switch σ × Option String

/-- How a word with switches ends: complete, or with a switch whose value is the next word. -/
inductive WordEnd (σ : Type) where
  | complete
  | wanting (s : Switch σ)

/-- The complaint about a text in the same word as a switch that takes none. -/
def ignored (s : Switch σ) (text : List Char) : Stop :=
  g.refuseArgument s.name ("ignored explicit argument " ++ Text.quoted (String.ofList text))

/-- The value that is attached to a switch. The separator stands for none. -/
def attachedValue (text : List Char) : Option String :=
  if text = ['-', '-'] then none else some (String.ofList text)

/-- The switches of a word in which a text is attached to a switch. The text of a short switch
without a value begins with the letter of another one. -/
def cluster (s : Switch σ) (isShort : Bool) :
    List Char → Except Stop (List (Taken σ) × WordEnd σ)
  | [] =>
    match s.effect with
    | .valued _ => .ok ([(s, some "")], .complete)
    | .flag _ => .error (g.ignored s [])
  | c :: rest =>
    match s.effect with
    | .valued _ => .ok ([(s, attachedValue (c :: rest))], .complete)
    | .flag _ =>
      match isShort, g.spelled.lookup (String.ofList ['-', c]), rest with
      | true, some next, [] =>
        match next.effect with
        | .flag _ => .ok ([(s, none), (next, none)], .complete)
        | .valued _ => .ok ([(s, none)], .wanting next)
      | true, some next, c :: rest =>
        (cluster next true (c :: rest)).map fun (taken, ending) => ((s, none) :: taken, ending)
      | _, _, rest => .error (g.ignored s (c :: rest))

def switchesOf (s : Switch σ) (spelling : String) (attached : Option (List Char)) :
    Except Stop (List (Taken σ) × WordEnd σ) :=
  match attached with
  | some text => g.cluster s (spelling.toList[1]? != some '-') text
  | none =>
    match s.effect with
    | .flag _ => .ok ([(s, none)], .complete)
    | .valued _ => .ok ([], .wanting s)

def take (state : σ) (taken : Taken σ) : Except Stop σ :=
  match taken.1.effect with
  | .flag apply => apply state
  | .valued apply =>
    match apply taken.2 state with
    | .ok state => .ok state
    | .error complaint => .error (g.refuseArgument taken.1.name complaint)

/-- Takes words, one after the other: the state in the end, and what is left over. `isOpen` says
that the operand has not been taken. -/
def takeWords (isOpen : Bool) : List (Word σ) → σ → Except Stop (σ × List String)
  | [], state => .ok (state, [])
  | ⟨written, .unknown⟩ :: rest, state => do
    let (state, left) ← takeWords isOpen rest state
    return (state, written :: left)
  | ⟨_, .switch s spelling attached⟩ :: rest, state => do
    let (taken, ending) ← g.switchesOf s spelling attached
    match ending, rest with
    | .complete, rest => takeWords isOpen rest (← taken.foldlM g.take state)
    | .wanting s, ⟨value, .argument⟩ :: rest =>
      takeWords isOpen rest (← (taken ++ [(s, some value)]).foldlM g.take state)
    | .wanting s, _ => throw (g.refuseArgument s.name "expected one argument")
  | ⟨written, .argument⟩ :: rest, state => do
    match isOpen, g.operand with
    | true, .argument name apply =>
      match apply written state with
      | .error complaint => throw (g.refuseArgument name complaint)
      | .ok state =>
        match rest with
        | ⟨_, .separator⟩ :: rest => takeWords false rest state
        | rest => takeWords false rest state
    | true, .command apply => apply written (rest.map Word.written) state
    | _, _ =>
      let (state, left) ← takeWords isOpen rest state
      return (state, written :: left)
  | ⟨written, .separator⟩ :: rest, state => do
    match isOpen, g.operand, rest with
    | true, .argument _ _, ⟨value, .argument⟩ :: rest =>
      takeWords isOpen (⟨value, .argument⟩ :: rest) state
    | true, .command apply, ⟨value, .argument⟩ :: rest =>
      apply written (value :: rest.map Word.written) state
    | _, _, rest =>
      let (state, left) ← takeWords isOpen rest state
      return (state, written :: left)

/-- Reads the words of a command: what they say, and what is left over. -/
def read (words : List String) (initial : σ) : Except Stop (σ × List String) := do
  let (state, left) ← g.takeWords true (← g.readWords words) initial
  match g.missing state with
  | [] => return (state, left)
  | names =>
    throw (g.refuse ("the following arguments are required: " ++ ", ".intercalate names))

/-- Reads the words of a command that leaves nothing over. -/
def readAll (words : List String) (initial : σ) : Except Stop σ := do
  match ← g.read words initial with
  | (state, []) => return state
  | (_, left) => throw (g.refuse ("unrecognized arguments: " ++ " ".intercalate left))

end Grammar

end StagedBuild.CommandLine
