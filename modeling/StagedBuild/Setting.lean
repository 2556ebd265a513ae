/-!
Settings about which nothing may be said.
-/

namespace StagedBuild

/-- What is said about something that can be set: it is not mentioned, it is set to nothing, or it
has a value. -/
inductive Setting (α : Type) where
  | unsaid
  | nothing
  | value (a : α)
  deriving DecidableEq, Repr

namespace Setting

variable {α : Type}

/-- The value of a setting that has one. -/
def value? : Setting α → Option α
  | value a => some a
  | _ => none

/-- The setting that a value, if it is there, leaves. -/
def ofOption : Option α → Setting α
  | some a => value a
  | none => .unsaid

/-- Sets to what a text says, or to nothing when there is no text. -/
def read {ε : Type} (reader : String → Except ε α) : Option String → Except ε (Setting α)
  | some text => (reader text).map value
  | none => .ok nothing

end Setting

end StagedBuild
