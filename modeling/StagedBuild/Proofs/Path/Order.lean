import StagedBuild.Proofs.Path.Text

/-!
The two orders of ways down. Entries are listed by their names, one step of the way after the other;
a file that writes ways down is sorted by their texts. A text that goes on after a name of the way
has a slash there, so the orders differ where another name goes on with a character in front of the
slash.
-/

namespace StagedBuild

section Characters

variable {u v x y : List Char}

theorem append_lt_append_iff (x : List Char) : x ++ u < x ++ v ↔ u < v := by
  induction x with
  | nil => rfl
  | cons c x ih => simp [ih]

theorem lt_append_cons (x : List Char) (c : Char) (cs : List Char) : x < x ++ c :: cs := by
  have h : x ++ [] < x ++ c :: cs := List.append_left_lt (List.nil_lt_cons c cs)
  rwa [List.append_nil] at h

theorem extends_or_differs (h : x < y) :
    (∃ c cs, y = x ++ c :: cs) ∨
      ∃ front c d us vs, c < d ∧ x = front ++ c :: us ∧ y = front ++ d :: vs := by
  induction x generalizing y with
  | nil =>
      cases y with
      | nil => exact absurd h (List.not_lt_nil _)
      | cons d ys => exact .inl ⟨d, ys, rfl⟩
  | cons c xs ih =>
      cases y with
      | nil => exact absurd h (List.not_lt_nil _)
      | cons d ys =>
          rcases List.cons_lt_cons_iff.1 h with hlt | ⟨rfl, hlt⟩
          · exact .inr ⟨[], c, d, xs, ys, hlt, rfl, rfl⟩
          · rcases ih hlt with ⟨e, es, rfl⟩ | ⟨front, e, f, us, vs, hef, rfl, rfl⟩
            · exact .inl ⟨e, es, rfl⟩
            · exact .inr ⟨c :: front, e, f, us, vs, hef, rfl, rfl⟩

end Characters

namespace Path

/-- The way `b` comes after the way `a` by its steps and before it by its text: where they part, `a`
goes on below a directory, and `b` has a name there that goes on from the name of this directory
with a character in front of the slash. -/
inductive Overtaken : List String → List String → Prop
  | here {name longer next : String} {more rest : List String} {c : Char} {cs : List Char}
      (hlonger : longer.toList = name.toList ++ c :: cs) (hc : c < '/') :
      Overtaken (name :: next :: more) (longer :: rest)
  | within (name : String) {a b : List String} (h : Overtaken a b) :
      Overtaken (name :: a) (name :: b)

theorem compare_string_eq_lt {x y : String} : compare x y = .lt ↔ x < y :=
  compareOfLessAndEq_eq_lt

namespace Overtaken

variable {a b : List String}

theorem compare_eq_lt (h : Overtaken a b) : compare a b = .lt := by
  induction h with
  | @here name longer next more rest c cs hlonger hc =>
      have hlt : name < longer := by
        rw [String.lt_iff, hlonger]
        exact lt_append_cons _ c cs
      rw [List.compare_cons_cons, compare_string_eq_lt.2 hlt]
      rfl
  | within name h ih =>
      rw [List.compare_cons_cons, ih]
      simp

theorem not_self (a : List String) : ¬ Overtaken a a := fun h => by
  simpa using h.compare_eq_lt

theorem not_of_compare (h : compare a b = .lt) : ¬ Overtaken b a := fun hba => by
  rw [show compare a b = (compare b a).swap from Std.OrientedCmp.eq_swap, hba.compare_eq_lt] at h
  cases h

theorem cons_iff (name : String) : Overtaken (name :: a) (name :: b) ↔ Overtaken a b := by
  constructor
  · intro h
    cases h with
    | here hlonger _ => simp at hlonger
    | within _ h => exact h
  · exact .within name

theorem append_iff (base : List String) : Overtaken (base ++ a) (base ++ b) ↔ Overtaken a b := by
  induction base with
  | nil => rfl
  | cons name base ih => rw [List.cons_append, List.cons_append, cons_iff, ih]

end Overtaken

section Text

variable {x y : String} {a b : List String} {c : Char} {cs : List Char}

/-- What follows the first name in the text of a way. -/
def textBelow : List String → List Char
  | [] => []
  | next :: more => '/' :: (wayText (next :: more)).toList

theorem toList_wayText_cons (name : String) (way : List String) :
    (wayText (name :: way)).toList = name.toList ++ textBelow way := by
  cases way with
  | nil => simp [wayText, textBelow]
  | cons next way =>
      rw [textBelow, wayText, wayText, steps_joined, steps_joined, List.map_cons, List.map_cons,
        List.intercalate_cons_cons]
      simp

section Longer

/- The name of `b` goes on from the name of `a`. -/
variable (hy : y.toList = x.toList ++ c :: cs)

include hy

theorem wayText_lt_iff_of_longer (hslash : '/' ∉ y.toList) :
    wayText (y :: b) < wayText (x :: a) ↔ a ≠ [] ∧ c < '/' := by
  rw [String.lt_iff, toList_wayText_cons, toList_wayText_cons, hy, List.append_assoc,
    append_lt_append_iff]
  cases a with
  | nil => simp [textBelow]
  | cons next more =>
      have hc : c ≠ '/' := by
        rintro rfl
        exact hslash (by simp [hy])
      simp [textBelow, List.cons_lt_cons_iff, hc]

theorem overtaken_iff_of_longer : Overtaken (x :: a) (y :: b) ↔ a ≠ [] ∧ c < '/' := by
  constructor
  · intro h
    cases h with
    | here hlonger hc =>
        rw [hy, List.append_cancel_left_eq, List.cons.injEq] at hlonger
        exact ⟨by simp, hlonger.1 ▸ hc⟩
    | within _ _ => simp at hy
  · rintro ⟨ha, hc⟩
    cases a with
    | nil => exact absurd rfl ha
    | cons next more => exact .here hy hc

end Longer

section Differs

/- The names of `a` and `b` go on differently after a common beginning. -/
variable {front us vs : List Char} {d : Char} (hx : x.toList = front ++ c :: us)
  (hy : y.toList = front ++ d :: vs) (hcd : c < d)

include hx hy hcd

theorem not_wayText_lt_of_differs : ¬ wayText (y :: b) < wayText (x :: a) := by
  rw [String.lt_iff, toList_wayText_cons, toList_wayText_cons, hx, hy, List.append_assoc,
    List.append_assoc, append_lt_append_iff, List.cons_append, List.cons_append,
    List.cons_lt_cons_iff]
  rintro (hdc | ⟨rfl, -⟩)
  · exact Nat.lt_asymm hcd hdc
  · exact Nat.lt_irrefl _ hcd

theorem not_overtaken_of_differs : ¬ Overtaken (x :: a) (y :: b) := by
  intro h
  have hne : c ≠ d := Char.ne_of_lt hcd
  cases h with
  | here hlonger _ =>
      rw [hx, hy, List.append_assoc, List.append_cancel_left_eq, List.cons_append,
        List.cons.injEq] at hlonger
      exact hne hlonger.1.symm
  | within _ _ =>
      rw [hx, List.append_cancel_left_eq, List.cons.injEq] at hy
      exact hne hy.1

end Differs

/-- The text of a later way comes first exactly when the way overtakes. -/
theorem wayText_lt_iff (hb : ∀ s ∈ b, isStep s = true) (h : compare a b = .lt) :
    wayText b < wayText a ↔ Overtaken a b := by
  induction a generalizing b with
  | nil => exact iff_of_false (fun hlt => List.not_lt_nil _ (String.lt_iff.1 hlt)) nofun
  | cons x a ih =>
      cases b with
      | nil => cases h
      | cons y b =>
          rw [List.compare_cons_cons, Ordering.then_eq_lt, compare_string_eq_lt] at h
          rcases h with hlt | ⟨heq, hrest⟩
          · rcases extends_or_differs (String.lt_iff.1 hlt) with
              ⟨c, cs, hy⟩ | ⟨front, c, d, us, vs, hcd, hx, hy⟩
            · rw [wayText_lt_iff_of_longer hy (isStep_iff.1 (hb y (by simp))).2.2,
                overtaken_iff_of_longer hy]
            · exact iff_of_false (not_wayText_lt_of_differs hx hy hcd)
                (not_overtaken_of_differs hx hy hcd)
          · obtain rfl : x = y := Std.LawfulEqOrd.compare_eq_iff_eq.1 heq
            rw [String.lt_iff, toList_wayText_cons, toList_wayText_cons, append_lt_append_iff,
              Overtaken.cons_iff]
            cases a with
            | nil => exact iff_of_false (List.not_lt_nil _) nofun
            | cons next more =>
                cases b with
                | nil => cases hrest
                | cons next' more' =>
                    rw [← ih (fun s hs => hb s (List.mem_cons_of_mem _ hs)) hrest, String.lt_iff]
                    simp [textBelow]

end Text

end Path

end StagedBuild
