import Mathlib.Logic.Basic
import StagedBuild.Path

/-!
Paths and their texts. A path is read back from its text, and from it follows where names that are
put behind a path lead.
-/

namespace StagedBuild

namespace Text

variable {α : Type} [DecidableEq α]

theorem cut_of_not_mem {sep : α} {xs : List α} (h : sep ∉ xs) : cut sep xs = [xs] := by
  induction xs with
  | nil => rfl
  | cons x xs ih =>
      rw [List.mem_cons, not_or] at h
      rw [cut, if_neg (Ne.symm h.1), ih h.2]

theorem cut_append {sep : α} {xs : List α} (ys : List α) (h : sep ∉ xs) :
    cut sep (xs ++ sep :: ys) = xs :: cut sep ys := by
  induction xs with
  | nil => simp [cut]
  | cons x xs ih =>
      rw [List.mem_cons, not_or] at h
      rw [List.cons_append, cut, if_neg (Ne.symm h.1), ih h.2]

theorem cut_intercalate {sep : α} {pieces : List (List α)} (hne : pieces ≠ [])
    (h : ∀ piece ∈ pieces, sep ∉ piece) : cut sep (List.intercalate [sep] pieces) = pieces := by
  induction pieces with
  | nil => exact absurd rfl hne
  | cons piece rest ih =>
      have hpiece := h piece (by simp)
      cases rest with
      | nil => rw [List.intercalate_singleton, cut_of_not_mem hpiece]
      | cons next rest =>
          rw [List.intercalate_cons_cons, List.append_assoc, List.singleton_append,
            cut_append _ hpiece, ih (by simp) fun p hp => h p (by simp [hp])]

end Text

section Joining

variable {α : Type} {sep xs : List α} {xss : List (List α)} {x : α}

theorem mem_intercalate (hxs : xs ∈ xss) (hx : x ∈ xs) : x ∈ List.intercalate sep xss := by
  induction xss with
  | nil => simp at hxs
  | cons ys yss ih =>
      cases yss with
      | nil =>
          rw [List.mem_singleton] at hxs
          rwa [List.intercalate_singleton, ← hxs]
      | cons zs yss =>
          rw [List.intercalate_cons_cons, List.append_assoc, List.mem_append, List.mem_append]
          rcases List.mem_cons.1 hxs with rfl | hxs
          · exact .inl hx
          · exact .inr (.inr (ih hxs))

theorem mem_of_mem_intercalate (h : x ∈ List.intercalate sep xss) :
    (∃ xs ∈ xss, x ∈ xs) ∨ x ∈ sep := by
  induction xss with
  | nil => simp at h
  | cons ys yss ih =>
      cases yss with
      | nil =>
          rw [List.intercalate_singleton] at h
          exact .inl ⟨ys, by simp, h⟩
      | cons zs yss =>
          rw [List.intercalate_cons_cons, List.append_assoc, List.mem_append,
            List.mem_append] at h
          rcases h with h | h | h
          · exact .inl ⟨ys, by simp, h⟩
          · exact .inr h
          · obtain ⟨xs, hxs, hx⟩ | hsep := ih h
            · exact .inl ⟨xs, List.mem_cons_of_mem _ hxs, hx⟩
            · exact .inr hsep

theorem intercalate_prefix_concat (sep : List α) (xss : List (List α)) (xs : List α) :
    List.intercalate sep xss <+: List.intercalate sep (xss ++ [xs]) := by
  induction xss with
  | nil => exact List.nil_prefix
  | cons ys yss ih =>
      cases yss with
      | nil =>
          rw [List.singleton_append, List.intercalate_cons_cons, List.intercalate_singleton,
            List.append_assoc]
          exact List.prefix_append _ _
      | cons zs yss =>
          rw [List.cons_append, List.cons_append, List.intercalate_cons_cons,
            List.intercalate_cons_cons]
          exact List.prefix_append_right_inj _ |>.2 ih

theorem intercalate_append_of_ne_nil (sep : List α) {xss yss : List (List α)} (hxs : xss ≠ [])
    (hys : yss ≠ []) : List.intercalate sep (xss ++ yss) =
      List.intercalate sep xss ++ sep ++ List.intercalate sep yss := by
  induction xss with
  | nil => exact absurd rfl hxs
  | cons xs rest ih =>
      cases rest with
      | nil => simp [List.intercalate_cons_of_ne_nil hys]
      | cons next rest =>
          rw [List.cons_append, List.intercalate_cons_of_ne_nil (by simp), ih (by simp),
            List.intercalate_cons_cons]
          simp

theorem intercalate_concat_append (sep : List α) (xss : List (List α))
    (xs ys : List α) :
    List.intercalate sep (xss ++ [xs]) ++ ys = List.intercalate sep (xss ++ [xs ++ ys]) := by
  induction xss with
  | nil => simp
  | cons zs zss ih =>
      have hne : ∀ last : List α, zss ++ [last] ≠ [] := by simp
      rw [List.cons_append, List.cons_append, List.intercalate_cons_of_ne_nil (hne _),
        List.intercalate_cons_of_ne_nil (hne _), ← ih]
      simp

end Joining

theorem isStep_iff {s : String} : isStep s = true ↔ s ≠ "" ∧ s ≠ "." ∧ '/' ∉ s.toList := by
  simp [isStep, and_assoc]

namespace Path

theorem ext_steps {p q : Path} (hanchor : p.anchor = q.anchor) (hsteps : p.steps = q.steps) :
    p = q := by
  cases p
  cases q
  simp_all

theorem parent_of_steps_eq_nil {p : Path} (h : p.steps = []) : p.parent = p :=
  ext_steps rfl (by simp [parent, h])

theorem steps_joined (steps : List String) :
    ("/".intercalate steps).toList = List.intercalate ['/'] (steps.map String.toList) := by
  rw [String.toList_intercalate]
  rfl

theorem mem_toList_text {p : Path} {s : String} {c : Char} (hs : s ∈ p.steps)
    (hc : c ∈ s.toList) : c ∈ p.text.toList := by
  have hjoined : c ∈ ("/".intercalate p.steps).toList := by
    rw [steps_joined]
    exact mem_intercalate (List.mem_map_of_mem hs) hc
  unfold text
  split
  · rename_i h
    simp [h.2] at hs
  · rw [bareText, String.toList_append]
    exact List.mem_append_right _ hjoined

theorem utf8ByteSize_bareText_parent_le (p : Path) :
    p.parent.bareText.utf8ByteSize ≤ p.bareText.utf8ByteSize := by
  rw [bareText, bareText, String.utf8ByteSize_append, String.utf8ByteSize_append]
  refine Nat.add_le_add_left ?_ _
  change ("/".intercalate p.steps.dropLast).utf8ByteSize ≤ _
  rcases List.eq_nil_or_concat p.steps with hnil | ⟨front, last, hsteps⟩
  · rw [hnil]
    exact Nat.le_refl _
  · rw [List.concat_eq_append] at hsteps
    rw [hsteps, List.dropLast_concat]
    obtain ⟨rest, hrest⟩ := intercalate_prefix_concat ['/'] (front.map String.toList) last.toList
    have heq : "/".intercalate (front ++ [last]) = "/".intercalate front ++ String.ofList rest := by
      rw [← String.toList_inj, String.toList_append, steps_joined, steps_joined,
        String.toList_ofList, hrest, List.map_append]
      rfl
    rw [heq, String.utf8ByteSize_append]
    exact Nat.le_add_right _ _

theorem pieces_joined {steps : List String} (h : ∀ s ∈ steps, isStep s = true) :
    (Text.pieces '/' ("/".intercalate steps)).filter isStep = steps := by
  rw [Text.pieces, steps_joined]
  by_cases hne : steps = []
  · subst hne
    rfl
  · rw [Text.cut_intercalate (by simpa using hne), List.map_map]
    · simpa [Function.comp_def, List.filter_eq_self] using h
    · simp only [List.mem_map, forall_exists_index, and_imp, forall_apply_eq_imp_iff₂]
      exact fun s hs => (isStep_iff.1 (h s hs)).2.2

theorem pieces_slash (s : String) :
    (Text.pieces '/' ("/" ++ s)).filter isStep = (Text.pieces '/' s).filter isStep := by
  simp [Text.pieces, String.toList_append, Text.cut, isStep]

theorem ofChars_of_head {cs : List Char} (h : cs.head? ≠ some '/') :
    Anchor.ofChars cs = .relative := by
  unfold Anchor.ofChars
  split <;> simp_all

theorem head?_joined {steps : List String} (h : ∀ s ∈ steps, isStep s = true) :
    ("/".intercalate steps).toList.head? ≠ some '/' := by
  rw [steps_joined]
  cases steps with
  | nil => simp
  | cons s rest =>
      obtain ⟨hne, -, hslash⟩ := isStep_iff.1 (h s (by simp))
      obtain ⟨c, cs, hs⟩ : ∃ c cs, s.toList = c :: cs :=
        List.exists_cons_of_ne_nil fun hnil => hne (String.toList_inj.1 (by simpa using hnil))
      rw [hs] at hslash
      have hc : c ≠ '/' := fun hc => hslash (by simp [hc])
      cases rest <;> simp [List.intercalate_cons_cons, hs, hc]

theorem ofChars_slash {cs : List Char} (h : cs.head? ≠ some '/') :
    Anchor.ofChars ('/' :: cs) = .root := by
  unfold Anchor.ofChars
  cases cs <;> split <;> simp_all

theorem ofChars_two_slashes {cs : List Char} (h : cs.head? ≠ some '/') :
    Anchor.ofChars ('/' :: '/' :: cs) = .doubleRoot := by
  refine Anchor.ofChars.eq_2 cs ?_
  rintro rest rfl
  exact h rfl

theorem parse_bareText (p : Path) (h : p.anchor ≠ .relative ∨ p.steps ≠ []) :
    parse p.bareText = p := by
  have hhead := head?_joined p.steps_isStep
  have hpieces := pieces_joined p.steps_isStep
  obtain ⟨anchor, steps, hsteps⟩ := p
  refine ext_steps ?_ ?_
  · cases anchor <;>
      simp only [parse, bareText, Anchor.text, String.toList_append, String.empty_append]
    · exact ofChars_of_head hhead
    · exact ofChars_slash hhead
    · exact ofChars_two_slashes hhead
  · cases anchor <;> simp only [parse, bareText, Anchor.text, String.empty_append]
    · exact hpieces
    · rw [pieces_slash]
      exact hpieces
    · rw [show "//" = "/" ++ "/" from rfl, String.append_assoc, pieces_slash, pieces_slash]
      exact hpieces

theorem parse_text (p : Path) : parse p.text = p := by
  unfold text
  split
  · rename_i h
    exact ext_steps h.1.symm (by rw [h.2]; rfl)
  · rename_i h
    exact parse_bareText p (not_and_or.1 h)

theorem text_ne_empty (p : Path) : p.text ≠ "" := by
  intro h
  have hp := parse_text p
  rw [h] at hp
  rw [← hp] at h
  exact absurd h (by decide)

theorem utf8ByteSize_parent_le (p : Path) :
    p.parent.text.utf8ByteSize ≤ p.text.utf8ByteSize := by
  by_cases hdot : p.parent.anchor = .relative ∧ p.parent.steps = []
  · -- the parent is written as a dot, and no text is shorter
    rw [text, if_pos hdot]
    exact Nat.pos_of_ne_zero fun hzero =>
      text_ne_empty p (String.utf8ByteSize_eq_zero_iff.1 hzero)
  · have hnot : ¬ (p.anchor = .relative ∧ p.steps = []) := fun h =>
      hdot ⟨h.1, by simp [parent, h.2]⟩
    rw [text, if_neg hdot, text, if_neg hnot]
    exact utf8ByteSize_bareText_parent_le p

theorem parse_step {s : String} (h : isStep s = true) :
    (parse s).anchor = .relative ∧ (parse s).steps = [s] := by
  have hp := parse_bareText ⟨.relative, [s], by simpa using h⟩ (.inr (by simp))
  have hs : bareText ⟨.relative, [s], by simpa using h⟩ = s := by
    simp [bareText, Anchor.text]
  rw [hs] at hp
  exact ⟨by rw [hp], by rw [hp]⟩

theorem anchor_join {p q : Path} (h : q.anchor = .relative) : (p.join q).anchor = p.anchor := by
  unfold join
  split
  · rfl
  · simp_all

theorem steps_join {p q : Path} (h : q.anchor = .relative) :
    (p.join q).steps = p.steps ++ q.steps := by
  unfold join
  split
  · rfl
  · simp_all

/-- An ending without slashes stays at the end of the last step, if it is too long for a dot. -/
theorem exists_name_parse (s : String) {ending : String} (hslash : '/' ∉ ending.toList)
    (hlong : 1 < ending.toList.length) : ∃ stem, (parse (s ++ ending)).name = stem ++ ending := by
  obtain ⟨front, last, hcut⟩ := List.eq_nil_or_concat (Text.cut '/' s.toList) |>.resolve_left
    (Text.cut_ne_nil '/' s.toList)
  rw [List.concat_eq_append] at hcut
  have hpieces : Text.cut '/' (s ++ ending).toList = front ++ [last ++ ending.toList] := by
    have hfree : ∀ piece ∈ front ++ [last], '/' ∉ piece := fun piece hpiece =>
      Text.not_mem_of_mem_cut (hcut ▸ hpiece)
    rw [String.toList_append, ← Text.intercalate_cut '/' s.toList, hcut,
      intercalate_concat_append]
    refine Text.cut_intercalate (by simp) fun piece hpiece => ?_
    rcases List.mem_append.1 hpiece with hpiece | hpiece
    · exact hfree piece (List.mem_append_left _ hpiece)
    · rw [List.mem_singleton.1 hpiece, List.mem_append, not_or]
      exact ⟨hfree last (by simp), hslash⟩
  have hstep : isStep (String.ofList (last ++ ending.toList)) = true := by
    have hne : ∀ t : String, t.toList.length ≤ 1 → String.ofList (last ++ ending.toList) ≠ t := by
      rintro t ht rfl
      rw [String.toList_ofList, List.length_append] at ht
      omega
    refine isStep_iff.2 ⟨hne _ (by simp), hne _ (by simp), ?_⟩
    rw [String.toList_ofList, List.mem_append, not_or]
    exact ⟨Text.not_mem_of_mem_cut (hcut ▸ List.mem_append_right _ (by simp)), hslash⟩
  refine ⟨String.ofList last, ?_⟩
  have hsteps : (parse (s ++ ending)).steps =
      ((front.map String.ofList).filter isStep) ++ [String.ofList (last ++ ending.toList)] := by
    change (Text.pieces '/' (s ++ ending)).filter isStep = _
    rw [Text.pieces, hpieces, List.map_append, List.filter_append]
    simpa using hstep
  rw [name, hsteps]
  simp

theorem name_ne_of_mem_steps {p : Path} {s : String} (h : s ∈ p.steps) : p.name ≠ "" := by
  obtain ⟨last, hlast⟩ :=
    List.getLast?_isSome.2 (List.ne_nil_of_mem h) |> Option.isSome_iff_exists.1
  rw [name, hlast]
  exact (isStep_iff.1 (p.steps_isStep last (List.mem_of_getLast? hlast))).1

theorem mem_steps_join {p q : Path} {s : String} (h : s ∈ q.steps) : s ∈ (p.join q).steps := by
  unfold join
  split
  · exact List.mem_append_right _ h
  · exact h

theorem name_join {p q : Path} (h : q.steps ≠ []) : (p.join q).name = q.name := by
  unfold join
  split
  · obtain ⟨front, last, hsteps⟩ := List.eq_nil_or_concat q.steps |>.resolve_left h
    simp [name, hsteps]
  · rfl

theorem exists_step_parse {s : String} {x : Char} (hx : x ∈ s.toList) (hslash : x ≠ '/')
    (hdot : x ≠ '.') : ∃ step ∈ (parse s).steps, x ∈ step.toList := by
  rw [← Text.intercalate_cut '/' s.toList] at hx
  rcases mem_of_mem_intercalate hx with ⟨piece, hpiece, hx⟩ | hx
  · refine ⟨String.ofList piece, List.mem_filter.2 ⟨List.mem_map_of_mem hpiece, ?_⟩, by simpa⟩
    have hne : ∀ t : String, x ∉ t.toList → String.ofList piece ≠ t := by
      rintro t ht rfl
      exact ht (by simpa using hx)
    exact isStep_iff.2 ⟨hne _ (by simp), hne _ (by simpa using hdot),
      by simpa using Text.not_mem_of_mem_cut hpiece⟩
  · exact absurd (List.mem_singleton.1 hx) hslash

section Descend

variable {names : List String}

theorem anchor_descend (p : Path) (h : ∀ s ∈ names, isStep s = true) :
    (p.descend names).anchor = p.anchor := by
  unfold descend
  induction names generalizing p with
  | nil => rfl
  | cons s rest ih =>
      rw [List.foldl_cons, ih _ fun x hx => h x (by simp [hx]),
        anchor_join (parse_step (h s (by simp))).1]

theorem steps_descend (p : Path) (h : ∀ s ∈ names, isStep s = true) :
    (p.descend names).steps = p.steps ++ names := by
  unfold descend
  induction names generalizing p with
  | nil => simp
  | cons s rest ih =>
      obtain ⟨hanchor, hsteps⟩ := parse_step (h s (by simp))
      rw [List.foldl_cons, ih _ fun x hx => h x (by simp [hx]), steps_join hanchor, hsteps,
        List.append_assoc]
      rfl

theorem descend_injective {p : Path} {names' : List String} (h : ∀ s ∈ names, isStep s = true)
    (h' : ∀ s ∈ names', isStep s = true) (heq : p.descend names = p.descend names') :
    names = names' := by
  have hsteps := congrArg steps heq
  rw [steps_descend p h, steps_descend p h'] at hsteps
  exact List.append_cancel_left hsteps

theorem name_descend (p : Path) (h : ∀ s ∈ names, isStep s = true) (hne : names ≠ []) :
    (p.descend names).name = names.getLast hne := by
  rw [name, steps_descend p h, List.getLast?_append, List.getLast?_eq_some_getLast hne]
  rfl

theorem relativeTo?_descend (p : Path) (h : ∀ s ∈ names, isStep s = true) :
    (p.descend names).relativeTo? p = some ⟨.relative, names, h⟩ := by
  unfold relativeTo?
  rw [if_pos ⟨(anchor_descend p h).symm, by simp [steps_descend p h]⟩]
  exact congrArg some (ext_steps rfl (by simp [steps_descend p h]))

theorem div_text_descend (p : Path) (h : ∀ s ∈ names, isStep s = true) :
    p / (⟨.relative, names, h⟩ : Path).text = p.descend names := by
  change p.join (parse _) = _
  rw [parse_text]
  exact ext_steps (by rw [anchor_join rfl, anchor_descend p h])
    (by rw [steps_join rfl, steps_descend p h])

/-- How a way down is written in a file: the names with slashes between them. -/
def wayText (way : List String) : String :=
  "/".intercalate way

theorem wayText_eq_text (h : ∀ s ∈ names, isStep s = true) (hne : names ≠ []) :
    wayText names = (⟨.relative, names, h⟩ : Path).text := by
  simp [wayText, text, bareText, Anchor.text, hne]

theorem div_wayText (p : Path) (h : ∀ s ∈ names, isStep s = true) (hne : names ≠ []) :
    p / wayText names = p.descend names := by
  rw [wayText_eq_text h hne, div_text_descend]

theorem wayText_injective {names' : List String} (h : ∀ s ∈ names, isStep s = true)
    (h' : ∀ s ∈ names', isStep s = true) (heq : wayText names = wayText names') :
    names = names' := by
  have hpieces := pieces_joined h
  rw [wayText] at heq
  rw [heq, wayText, pieces_joined h'] at hpieces
  exact hpieces.symm

theorem div_eq_descend (p : Path) (s : String) : p / s = p.descend [s] := rfl

theorem steps_div (p : Path) {name : String} (h : isStep name = true) :
    (p / name).steps = p.steps ++ [name] := by
  have hnames : ∀ s ∈ [name], isStep s = true := by simpa using h
  exact steps_descend p hnames

theorem parent_div (p : Path) {name : String} (h : isStep name = true) :
    (p / name).parent = p := by
  have hnames : ∀ s ∈ [name], isStep s = true := by simpa using h
  refine ext_steps (anchor_descend p hnames) ?_
  change (p / name).steps.dropLast = p.steps
  rw [steps_div p h, List.dropLast_concat]

end Descend

end Path

end StagedBuild
