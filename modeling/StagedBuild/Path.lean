import StagedBuild.Text.Pieces
import StagedBuild.Text.Quoted

/-!
Paths. A path is where it starts from and the steps it takes; a step goes up or names an entry.
Empty steps and steps that stay in place are not kept, so two spellings that differ in them only
are the same path. Steps up are kept, because what is above a step depends on the disk.
-/

namespace StagedBuild

/-- Where a path starts from. A path that is written with exactly two slashes in front keeps
them. -/
inductive Anchor where
  | relative
  | root
  | doubleRoot
  deriving DecidableEq, Repr

namespace Anchor

/-- The slashes in front of a path. -/
def text : Anchor → String
  | relative => ""
  | root => "/"
  | doubleRoot => "//"

/-- The anchor of a path that is written with the given characters. -/
def ofChars : List Char → Anchor
  | '/' :: '/' :: '/' :: _ => root
  | '/' :: '/' :: _ => doubleRoot
  | '/' :: _ => root
  | _ => relative

end Anchor

/-- What a path keeps between two slashes. -/
def isStep (s : String) : Bool :=
  s != "" && s != "." && !s.toList.contains '/'

/-- A path in normal form. -/
structure Path where
  anchor : Anchor
  steps : List String
  steps_isStep : ∀ s ∈ steps, isStep s = true := by simp
  deriving DecidableEq, Repr

namespace Path

/-- The path that a text writes. -/
def parse (text : String) : Path where
  anchor := Anchor.ofChars text.toList
  steps := (Text.pieces '/' text).filter isStep
  steps_isStep := by simp

/-- The slashes in front of a path and its steps. -/
def bareText (p : Path) : String :=
  p.anchor.text ++ "/".intercalate p.steps

/-- The written form of a path; the path that takes no step is written as a dot. -/
def text (p : Path) : String :=
  if p.anchor = .relative ∧ p.steps = [] then "."
  else p.bareText

/-- A path from the place where another one leads. -/
def join (p q : Path) : Path :=
  match q.anchor with
  | .relative => ⟨p.anchor, p.steps ++ q.steps, by
      simp only [List.mem_append]
      rintro s (h | h)
      · exact p.steps_isStep s h
      · exact q.steps_isStep s h⟩
  | _ => q

instance : HDiv Path Path Path := ⟨join⟩
instance : HDiv Path String Path := ⟨fun p s => p.join (parse s)⟩

/-- The path that goes on by names, one after the other. -/
def descend (p : Path) (names : List String) : Path :=
  names.foldl (fun q name => q.join (parse name)) p

/-- The path without its last step. -/
def parent (p : Path) : Path where
  anchor := p.anchor
  steps := p.steps.dropLast
  steps_isStep := fun s h => p.steps_isStep s ((List.dropLast_sublist _).subset h)

/-- The last step, or the empty text. -/
def name (p : Path) : String :=
  p.steps.getLast?.getD ""

/-- The last dot of a name and what follows it, split from what stands before; a dot at either end
of the name does not count. -/
def splitName (name : String) : String × String :=
  let cs := name.toList
  let ending := (cs.reverse.takeWhile (· != '.')).reverse
  let stem := cs.take (cs.length - ending.length - 1)
  if '.' ∈ cs ∧ stem ≠ [] ∧ ending ≠ [] then (String.ofList stem, String.ofList ('.' :: ending))
  else (name, "")

/-- The extension of the last step, with its dot. -/
def suffix (p : Path) : String :=
  (splitName p.name).2

/-- The path whose written form has a text after it. -/
def extend (p : Path) (ending : String) : Path :=
  parse (p.text ++ ending)

/-- The path of an object file: the input's path with `.o` after it. -/
def objectPath (p : Path) : Path :=
  p.extend ".o"

/-- What distinguishes two paths, as a list: the slashes in front, if any, and the steps. Paths are
ordered by it. -/
def key (p : Path) : List String :=
  if p.anchor = .relative then p.steps else p.anchor.text :: p.steps

/-- A path starts from the root. -/
def isAbsolute (p : Path) : Bool :=
  p.anchor != .relative

/-- Takes a step after others, the latest first: a step up takes the last name back where there is
one, and goes nowhere from the root. -/
def collapseStep (anchor : Anchor) (taken : List String) (step : String) : List String :=
  if step = ".." then
    match taken with
    | [] => if anchor = .relative then [step] else []
    | last :: before => if last = ".." then step :: taken else before
  else step :: taken

/-- The path with every step up taken back against the name before it. -/
def collapsed (p : Path) : Path :=
  ⟨p.anchor, ((p.steps.foldl (collapseStep p.anchor) []).reverse).filter isStep, by simp⟩

/-- A text that writes a path asks for a directory: its last step stays in place, so it leads to
what a slash may follow. -/
def asksForDirectory (written : String) : Bool :=
  written.toList.contains '/' &&
    ((Text.pieces '/' written).getLast?.any fun step => step == "" || step == ".")

/-- The path from `base` to `p`, when both start from the same place and the steps of `base` begin
those of `p`. -/
def relativeTo? (p base : Path) : Option Path :=
  if base.anchor = p.anchor ∧ base.steps.isPrefixOf p.steps then
    some ⟨.relative, p.steps.drop base.steps.length, fun s h =>
      p.steps_isStep s (List.mem_of_mem_drop h)⟩
  else none

/-- The path whose last step has another extension; there is none without a last step. -/
def withSuffix? (p : Path) (suffix : String) : Option Path :=
  if p.name = "" then none else some (p.parent / ((splitName p.name).1 ++ suffix))

/-- A path named as such in the text of a fault. -/
def described (p : Path) : String :=
  "PosixPath(" ++ Text.quoted p.text ++ ")"

end Path

end StagedBuild
