import StagedBuild.Proofs.Action.Alike
import StagedBuild.Proofs.Action.Steps
import StagedBuild.Proofs.Json.RoundTrip
import StagedBuild.Units.Record

/-!
Documents as text files. A document holds no carriage return, so that the text of its file is the
document itself, and its value is read back from the bytes of the file.
-/

namespace StagedBuild

namespace Text

theorem normalizeNewlines_of_not_mem {cs : List Char} (h : '\r' ∉ cs) :
    normalizeNewlines cs = cs := by
  fun_induction normalizeNewlines cs with
  | case1 => rfl
  | case2 rest _ => simp at h
  | case3 c rest _ ih =>
      rw [List.mem_cons, not_or] at h
      rw [ih h.2, if_neg (Ne.symm h.1)]

theorem decodeFile?_encode {s : String} (h : '\r' ∉ s.toList) :
    decodeFile? (encode s) = some s := by
  rw [decodeFile?, decode?_encode, Option.map_some, normalizeNewlines_of_not_mem h,
    String.ofList_toList]

end Text

namespace Json

theorem not_mem_hexDigits (width n : Nat) : '\r' ∉ Text.hexDigits width n := by
  have hdigit : ∀ m : Fin 16, '\r' ≠ Text.hexDigit m := by decide
  induction width generalizing n with
  | zero => simp [Text.hexDigits]
  | succ width ih =>
      rw [Text.hexDigits, List.mem_append, List.mem_singleton, not_or]
      exact ⟨ih _, hdigit ⟨n % 16, Nat.mod_lt _ (by decide)⟩⟩

theorem not_mem_unitEscape (unit : Nat) : '\r' ∉ unitEscape unit := by
  simp [unitEscape, not_mem_hexDigits]

theorem not_mem_printChar (c : Char) : '\r' ∉ printChar c := by
  unfold printChar
  split
  · rename_i h
    rcases h with rfl | rfl <;> decide
  iterate 5
    split
    · decide
  split
  · simpa using Ne.symm ‹¬c = '\r'›
  split
  · exact not_mem_unitEscape _
  · simp [not_mem_unitEscape]

theorem not_mem_printString (s : String) : '\r' ∉ printString s := by
  simp [printString, not_mem_printChar]

theorem not_mem_newLine (k : Nat) : '\r' ∉ newLine k := by
  simp [newLine]

theorem not_mem_printItems {k : Nat} {items : List Json}
    (h : ∀ v ∈ items, '\r' ∉ printIndented k v) : '\r' ∉ printItems k items := by
  induction items with
  | nil => simp [printItems]
  | cons v items ih =>
      have hrest := ih fun x hx => h x (List.mem_cons_of_mem _ hx)
      simp [printItems, not_mem_newLine, h v (by simp), hrest]

theorem not_mem_printMembers {k : Nat} {members : List (String × Json)}
    (h : ∀ m ∈ members, '\r' ∉ printIndented k m.2) : '\r' ∉ printMembers k members := by
  induction members with
  | nil => simp [printMembers]
  | cons m members ih =>
      obtain ⟨name, v⟩ := m
      have hrest := ih fun x hx => h x (List.mem_cons_of_mem _ hx)
      have hv := h (name, v) (by simp)
      simp [printMembers, not_mem_newLine, not_mem_printString, hv, hrest]

theorem Plain.not_mem_print {depth : Nat} {v : Json} (h : Plain depth v) (k : Nat) :
    '\r' ∉ printIndented k v := by
  induction h generalizing k with
  | null => simp [printIndented]
  | bool _ b => cases b <;> simp [printIndented]
  | text _ s => simp [printIndented, not_mem_printString]
  | @array _ items _ ih =>
      cases items with
      | nil => simp [printIndented]
      | cons v items =>
          have hv := ih v (by simp) (k + 1)
          have hitems := not_mem_printItems fun x hx => ih x (List.mem_cons_of_mem v hx) (k + 1)
          simp [printIndented, not_mem_newLine, hv, hitems]
  | @object _ members _ _ ih =>
      rcases members with _ | ⟨⟨name, v⟩, members⟩
      · simp [printIndented]
      · have hv := ih (name, v) (by simp) (k + 1)
        have hmembers := not_mem_printMembers fun x hx =>
          ih x (List.mem_cons_of_mem (name, v) hx) (k + 1)
        simp [printIndented, not_mem_newLine, not_mem_printString, hv, hmembers]

theorem Plain.decodeFile?_document {depth : Nat} {v : Json} (h : Plain depth v) :
    Text.decodeFile? (Text.encode (document v)) = some (document v) :=
  Text.decodeFile?_encode (by simpa [document] using h.not_mem_print 0)

theorem perform_ofText (text : String) (around : Surroundings) (w : World) :
    Action.perform (ofText text) around w =
      ((parse around.nesting text).mapError ReadFault.toFault, w) := by
  rw [ofText, Action.perform_bind_ok (Action.perform_read around w), Action.perform_ofExcept]

theorem readOnly_ofText (text : String) : Action.ReadOnly (ofText text) := by
  intro around w
  rw [perform_ofText]

theorem alike_ofText {R : World → World → Prop} {around₁ around₂ : Surroundings}
    (hread : ReadAlike around₁ around₂) (text : String) :
    Action.Alike R around₁ around₂ (ofText text) :=
  .asks (·.nesting) (congrArg (· + 2) hread.stackRoom)
    (fun depth => Action.ofExcept ReadFault.toFault (parse depth text)) fun _ => .ofExcept _ _

end Json

end StagedBuild
