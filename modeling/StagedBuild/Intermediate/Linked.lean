/-!
The result of linking the intermediate representation.
-/

namespace StagedBuild

/-- A definition of the intermediate representation. Only the toolchain looks inside. -/
abbrev Definition := String

/-- The result of linking the intermediate representation: the definitions that can be reached, the
native libraries they need, and the symbols that nothing defines. A library or a symbol is listed
once. -/
structure Linked where
  defns : List Definition
  links : List String
  unresolved : List String
  links_nodup : links.Nodup
  unresolved_nodup : unresolved.Nodup
  deriving DecidableEq, Repr

theorem nodup_eraseDups {α : Type} [BEq α] [LawfulBEq α] : (xs : List α) → xs.eraseDups.Nodup
  | [] => by simp
  | x :: xs => by
    have := nodup_eraseDups (xs.filter fun b => !b == x)
    simp [List.eraseDups_cons, List.nodup_cons, this]
  termination_by xs => xs.length
  decreasing_by exact Nat.lt_succ_of_le (List.length_filter_le _ _)

/-- The result that lists the given libraries and symbols, each once. -/
def Linked.ofLists (defns : List Definition) (links unresolved : List String) : Linked :=
  ⟨defns, links.eraseDups, unresolved.eraseDups, nodup_eraseDups links,
    nodup_eraseDups unresolved⟩

end StagedBuild
