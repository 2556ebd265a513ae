import Mathlib.Data.List.Basic
import StagedBuild.Json.Printing
import StagedBuild.Json.Reading

/-!
Values without numbers are read back from the document that prints them, as long as they are not
nested too deeply and no object has two members of one name. Strings are read back character by
character: as themselves, by a short escape, by the escape of one code unit, or by the escapes of
two surrogates.
-/

namespace StagedBuild.Json

section Strings

theorem hexValue?_hexDigit {n : Nat} (h : n < 16) : hexValue? (Text.hexDigit n) = some n := by
  have hall : ∀ m : Fin 16, hexValue? (Text.hexDigit m) = some m.val := by decide
  exact hall ⟨n, h⟩

theorem hexDigits_four (n : Nat) :
    Text.hexDigits 4 n = [Text.hexDigit (n / 16 / 16 / 16 % 16), Text.hexDigit (n / 16 / 16 % 16),
      Text.hexDigit (n / 16 % 16), Text.hexDigit (n % 16)] := by
  simp [Text.hexDigits]

theorem hex4?_hexDigits {n : Nat} (h : n < 0x10000) :
    hex4? (Text.hexDigit (n / 16 / 16 / 16 % 16)) (Text.hexDigit (n / 16 / 16 % 16))
      (Text.hexDigit (n / 16 % 16)) (Text.hexDigit (n % 16)) = some n := by
  unfold hex4?
  rw [hexValue?_hexDigit (by omega), hexValue?_hexDigit (by omega), hexValue?_hexDigit (by omega),
    hexValue?_hexDigit (by omega)]
  simp only [Option.some.injEq]
  omega

theorem not_surrogate (c : Char) : ¬ (0xd800 ≤ c.toNat ∧ c.toNat ≤ 0xdfff) := by
  rcases c.valid with h | h
  · have : c.toNat < 0xd800 := h
    omega
  · have : 0xdfff < c.toNat := h.1
    omega

theorem readString_unitEscape (c : Char) (h : c.toNat < 0x10000) (rest : List Char) :
    readString (unitEscape c.toNat ++ rest) =
      (readString rest).map fun (s, r) => (c :: s, r) := by
  have hunit := hex4?_hexDigits h
  have hchar : unitChar c.toNat = c := by
    rw [unitChar, if_neg (not_surrogate c), Char.ofNat_toNat]
  have hpair : ∀ low, pairedSurrogates? c.toNat low = none := by
    intro low
    rw [pairedSurrogates?, if_neg]
    rintro ⟨h1, h2, -⟩
    exact not_surrogate c ⟨h1, by omega⟩
  rw [unitEscape, hexDigits_four]
  simp only [List.cons_append, List.nil_append]
  rw [readString.eq_def]
  split
  · simp_all
  · simp_all
  · -- another escape follows, which is read on its own
    rename_i heq
    simp only [List.cons.injEq, true_and] at heq
    obtain ⟨rfl, rfl, rfl, rfl, rfl⟩ := heq
    rw [hunit]
    split
    · rename_i high low hhigh hlow
      cases hhigh
      rw [hpair]
      simp only [hchar]
    · rename_i unit hhigh hlow
      cases hhigh
      simp only [hchar]
    · simp_all
  · rename_i heq
    simp only [List.cons.injEq, true_and] at heq
    obtain ⟨rfl, rfl, rfl, rfl, rfl⟩ := heq
    rw [hunit]
    simp only [hchar]
  · rename_i hno heq
    simp only [List.cons.injEq, true_and] at heq
    obtain ⟨rfl, rfl⟩ := heq
    exact (hno _ _ _ _ rest rfl rfl).elim
  · rename_i hslash heq
    simp only [List.cons.injEq] at heq
    obtain ⟨rfl, rfl⟩ := heq
    exact absurd rfl (hslash _ _ rfl)

theorem readString_surrogates (c : Char) (h : 0x10000 ≤ c.toNat) (rest : List Char) :
    readString (unitEscape (0xd800 + (c.toNat - 0x10000) / 0x400) ++
        unitEscape (0xdc00 + (c.toNat - 0x10000) % 0x400) ++ rest) =
      (readString rest).map fun (s, r) => (c :: s, r) := by
  have hbound : c.toNat < 0x110000 := by
    rcases c.valid with h | h
    · have : c.toNat < 0xd800 := h
      omega
    · exact h.2
  obtain ⟨high, hhigh⟩ : ∃ high, high = 0xd800 + (c.toNat - 0x10000) / 0x400 := ⟨_, rfl⟩
  obtain ⟨low, hlow⟩ : ∃ low, low = 0xdc00 + (c.toNat - 0x10000) % 0x400 := ⟨_, rfl⟩
  have hpair : pairedSurrogates? high low = some c := by
    rw [pairedSurrogates?, if_pos (by omega)]
    have hn : 0x10000 + (high - 0xd800) * 0x400 + (low - 0xdc00) = c.toNat := by omega
    rw [hn, Char.ofNat_toNat]
  rw [← hhigh, ← hlow, unitEscape, unitEscape, hexDigits_four, hexDigits_four]
  simp only [List.cons_append, List.nil_append]
  rw [readString, hex4?_hexDigits (by omega), hex4?_hexDigits (by omega)]
  simp only [hpair]

theorem readString_printChar (c : Char) (rest : List Char) :
    readString (printChar c ++ rest) = (readString rest).map fun (s, r) => (c :: s, r) := by
  unfold printChar
  split
  · rename_i h
    rcases h with rfl | rfl <;> simp [readString, shortEscape?]
  split
  · subst_vars
    simp [readString, shortEscape?]
  split
  · subst_vars
    simp [readString, shortEscape?]
  split
  · subst_vars
    simp [readString, shortEscape?]
  split
  · subst_vars
    simp [readString, shortEscape?]
  split
  · subst_vars
    simp [readString, shortEscape?]
  split
  · rename_i hspecial _ _ _ _ _ hplain
    rw [not_or] at hspecial
    have hlow : ¬ c.toNat < 0x20 := by omega
    simp [readString, hspecial.1, hspecial.2, hlow]
  split
  · exact readString_unitEscape c ‹_› rest
  · exact readString_surrogates c (Nat.not_lt.1 ‹_›) rest

theorem readString_print (cs rest : List Char) :
    readString (cs.flatMap printChar ++ '"' :: rest) = .ok (cs, rest) := by
  induction cs with
  | nil => rfl
  | cons c cs ih =>
      rw [List.flatMap_cons, List.append_assoc, readString_printChar, ih]
      rfl

end Strings

section Values

/-- A value without numbers, nested at most as deep as given, with one member under each name. -/
inductive Plain : Nat → Json → Prop
  | null (depth : Nat) : Plain depth .null
  | bool (depth : Nat) (b : Bool) : Plain depth (.bool b)
  | text (depth : Nat) (s : String) : Plain depth (.text s)
  | array {depth : Nat} {items : List Json} :
      (∀ v ∈ items, Plain depth v) → Plain (depth + 1) (.array items)
  | object {depth : Nat} {members : List (String × Json)} :
      (∀ m ∈ members, Plain depth m.2) → (members.map Prod.fst).Nodup →
      Plain (depth + 1) (.object members)

theorem skipSpace_cons {c : Char} (h : isSpace c = false) (cs : List Char) :
    skipSpace (c :: cs) = c :: cs := by
  simp [skipSpace, h]

theorem skipSpace_newLine (k : Nat) (cs : List Char) : skipSpace (newLine k ++ cs) =
    skipSpace cs := by
  have hblanks : ∀ n, skipSpace (List.replicate n ' ' ++ cs) = skipSpace cs := by
    intro n
    induction n with
    | zero => rfl
    | succ n ih => simpa [List.replicate_succ, skipSpace, isSpace] using ih
  simpa [newLine, skipSpace, isSpace] using hblanks (2 * k)

theorem Plain.print_eq_cons {depth : Nat} {v : Json} (h : Plain depth v) (k : Nat) :
    ∃ c cs, printIndented k v = c :: cs ∧ isSpace c = false ∧ c ≠ ']' := by
  cases h with
  | null => exact ⟨_, _, by rw [printIndented]; rfl, rfl, by decide⟩
  | bool _ b => cases b <;> exact ⟨_, _, by rw [printIndented]; rfl, rfl, by decide⟩
  | text => exact ⟨_, _, by rw [printIndented, printString], rfl, by decide⟩
  | @array _ items _ =>
      cases items with
      | nil => exact ⟨_, _, by rw [printIndented]; rfl, rfl, by decide⟩
      | cons => exact ⟨_, _, by rw [printIndented]; rfl, rfl, by decide⟩
  | @object _ members _ _ =>
      rcases members with _ | ⟨⟨name, value⟩, members⟩
      · exact ⟨_, _, by rw [printIndented], rfl, by decide⟩
      · exact ⟨_, _, by rw [printIndented]; rfl, rfl, by decide⟩

theorem Plain.skipSpace_print {depth : Nat} {v : Json} (h : Plain depth v) (k : Nat)
    (rest : List Char) : skipSpace (printIndented k v ++ rest) = printIndented k v ++ rest := by
  obtain ⟨c, cs, hprint, hspace, -⟩ := h.print_eq_cons k
  rw [hprint]
  exact skipSpace_cons hspace _

section Nested

variable {item : Reader Json} {bound : Nat} {cs rest rest' : List Char} {value : Json}

theorem readItems_last (hvalue : item (skipSpace cs) = .ok (value, rest'))
    (hclose : skipSpace rest' = ']' :: rest) :
    readItems item (bound + 1) cs = .ok ([value], rest) := by
  rw [readItems, hvalue]
  simp [bind, Except.bind, hclose]

theorem readItems_more {values : List Json} {rest'' : List Char}
    (hvalue : item (skipSpace cs) = .ok (value, rest'))
    (hcomma : skipSpace rest' = ',' :: rest)
    (hmore : readItems item bound rest = .ok (values, rest'')) :
    readItems item (bound + 1) cs = .ok (value :: values, rest'') := by
  rw [readItems, hvalue]
  simp [bind, Except.bind, hcomma, hmore]

theorem readMembers_last {name : List Char} {afterName afterColon : List Char}
    (hname : skipSpace cs = '"' :: (name.flatMap printChar ++ '"' :: afterName))
    (hcolon : skipSpace afterName = ':' :: afterColon)
    (hvalue : item (skipSpace afterColon) = .ok (value, rest'))
    (hclose : skipSpace rest' = '\x7d' :: rest) :
    readMembers item (bound + 1) cs = .ok ([(String.ofList name, value)], rest) := by
  rw [readMembers, hname]
  simp [bind, Except.bind, readString_print, hcolon, hvalue, hclose]

theorem readMembers_more {name : List Char} {afterName afterColon rest'' : List Char}
    {members : List (String × Json)}
    (hname : skipSpace cs = '"' :: (name.flatMap printChar ++ '"' :: afterName))
    (hcolon : skipSpace afterName = ':' :: afterColon)
    (hvalue : item (skipSpace afterColon) = .ok (value, rest'))
    (hcomma : skipSpace rest' = ',' :: rest)
    (hmore : readMembers item bound rest = .ok (members, rest'')) :
    readMembers item (bound + 1) cs = .ok ((String.ofList name, value) :: members, rest'') := by
  rw [readMembers, hname]
  simp [bind, Except.bind, readString_print, hcolon, hvalue, hcomma, hmore]

variable {depth k k' : Nat}

theorem printItems_cons_append (k : Nat) (v : Json) (items : List Json) (tail : List Char) :
    printItems k (v :: items) ++ tail =
      ',' :: (newLine k ++ (printIndented k v ++ (printItems k items ++ tail))) := by
  simp [printItems]

theorem printMembers_cons_append (k : Nat) (name : String) (v : Json)
    (members : List (String × Json)) (tail : List Char) :
    printMembers k ((name, v) :: members) ++ tail =
      ',' :: (newLine k ++ ('"' :: (name.toList.flatMap printChar ++ '"' :: (':' :: ' ' ::
        (printIndented k v ++ (printMembers k members ++ tail)))))) := by
  simp [printMembers, printString]

theorem readItems_print {first : Json} {items : List Json}
    (hplain : ∀ v ∈ first :: items, Plain depth v)
    (hitem : ∀ v ∈ first :: items, ∀ rest, item (printIndented k v ++ rest) = .ok (v, rest))
    (hbound : items.length < bound)
    (hcs : skipSpace cs =
      printIndented k first ++ (printItems k items ++ (newLine k' ++ ']' :: rest))) :
    readItems item bound cs = .ok (first :: items, rest) := by
  induction items generalizing first bound cs with
  | nil =>
      obtain ⟨bound, rfl⟩ := Nat.exists_eq_add_one_of_ne_zero (Nat.ne_zero_of_lt hbound)
      refine readItems_last (hcs ▸ hitem first (by simp) _) ?_
      rw [printItems, List.nil_append, skipSpace_newLine, skipSpace_cons rfl]
  | cons next items ih =>
      obtain ⟨bound, rfl⟩ := Nat.exists_eq_add_one_of_ne_zero (Nat.ne_zero_of_lt hbound)
      rw [printItems_cons_append] at hcs
      refine readItems_more (hcs ▸ hitem first (by simp) _) (skipSpace_cons rfl _) ?_
      refine ih (fun v hv => hplain v (List.mem_cons_of_mem _ hv))
        (fun v hv => hitem v (List.mem_cons_of_mem _ hv)) (by simpa using hbound) ?_
      rw [skipSpace_newLine, (hplain next (by simp)).skipSpace_print]

theorem readMembers_print {first : String × Json} {members : List (String × Json)}
    (hplain : ∀ m ∈ first :: members, Plain depth m.2)
    (hitem : ∀ m ∈ first :: members, ∀ rest,
      item (printIndented k m.2 ++ rest) = .ok (m.2, rest))
    (hbound : members.length < bound)
    (hcs : skipSpace cs = '"' :: (first.1.toList.flatMap printChar ++ '"' ::
      (':' :: ' ' :: (printIndented k first.2 ++
        (printMembers k members ++ (newLine k' ++ '\x7d' :: rest)))))) :
    readMembers item bound cs = .ok (first :: members, rest) := by
  have hvalue : ∀ m ∈ first :: members, ∀ tail,
      item (skipSpace (' ' :: (printIndented k m.2 ++ tail))) = .ok (m.2, tail) := by
    intro m hm tail
    rw [show skipSpace (' ' :: (printIndented k m.2 ++ tail)) =
      skipSpace (printIndented k m.2 ++ tail) from rfl, (hplain m hm).skipSpace_print,
      hitem m hm]
  induction members generalizing first bound cs with
  | nil =>
      obtain ⟨bound, rfl⟩ := Nat.exists_eq_add_one_of_ne_zero (Nat.ne_zero_of_lt hbound)
      rw [readMembers_last hcs (skipSpace_cons rfl _) (hvalue first (by simp) _),
        String.ofList_toList]
      rw [printMembers, List.nil_append, skipSpace_newLine, skipSpace_cons rfl]
  | cons next members ih =>
      obtain ⟨bound, rfl⟩ := Nat.exists_eq_add_one_of_ne_zero (Nat.ne_zero_of_lt hbound)
      rw [printMembers_cons_append] at hcs
      rw [readMembers_more hcs (skipSpace_cons rfl _) (hvalue first (by simp) _)
        (skipSpace_cons rfl _), String.ofList_toList]
      refine ih (fun m hm => hplain m (List.mem_cons_of_mem _ hm))
        (fun m hm => hitem m (List.mem_cons_of_mem _ hm)) (by simpa using hbound) ?_
        fun m hm => hvalue m (List.mem_cons_of_mem _ hm)
      rw [skipSpace_newLine]
      exact skipSpace_cons rfl _

theorem insert_of_not_mem {known : List (String × Json)} {name : String} {value : Json}
    (h : name ∉ known.map Prod.fst) : insert known name value = known ++ [(name, value)] := by
  rw [insert, if_neg]
  simp only [List.any_eq_true, beq_iff_eq, not_exists, not_and]
  exact fun m hm heq => h (heq ▸ List.mem_map_of_mem hm)

theorem ofMembers_of_nodup {members : List (String × Json)}
    (h : (members.map Prod.fst).Nodup) : ofMembers members = .object members := by
  have hfold : ∀ known : List (String × Json), ((known ++ members).map Prod.fst).Nodup →
      members.foldl (fun known m => insert known m.1 m.2) known =
        known ++ members := by
    clear h
    induction members with
    | nil => intro known _; simp
    | cons m members ih =>
        intro known hnodup
        obtain ⟨name, value⟩ := m
        have hname : name ∉ known.map Prod.fst := by
          rw [List.map_append, List.map_cons, List.nodup_append] at hnodup
          exact fun hmem => hnodup.2.2 _ hmem _ (by simp) rfl
        rw [List.foldl_cons]
        rw [insert_of_not_mem hname, ih _ (by simpa using hnodup), List.append_assoc]
        rfl
  exact congrArg Json.object (hfold [] (by simpa using h))

theorem length_printItems (k : Nat) (items : List Json) :
    items.length ≤ (printItems k items).length := by
  induction items with
  | nil => simp
  | cons v items ih =>
      rw [printItems]
      simp only [List.length_cons, List.length_append]
      omega

theorem length_printMembers (k : Nat) (members : List (String × Json)) :
    members.length ≤ (printMembers k members).length := by
  induction members with
  | nil => simp
  | cons m members ih =>
      rw [printMembers]
      simp only [List.length_cons, List.length_append]
      omega

end Nested

theorem Plain.readValue_print {depth : Nat} {v : Json} (h : Plain depth v) (k : Nat)
    (rest : List Char) : readValue depth (printIndented k v ++ rest) = .ok (v, rest) := by
  induction h generalizing k rest with
  | null depth =>
      rw [printIndented]
      cases depth <;> rfl
  | bool depth b =>
      rw [printIndented]
      cases b <;> cases depth <;> rfl
  | text depth s =>
      rw [printIndented, printString]
      simp only [List.cons_append, List.append_assoc, List.nil_append]
      cases depth <;>
        simp [readValue, readScalar, readString_print, Except.map]
  | @array depth items hplain ih =>
      rcases items with _ | ⟨first, items⟩
      · simp [printIndented, readValue, skipSpace, isSpace]
      · obtain ⟨c, cs, hprint, hspace, hc⟩ := (hplain first (by simp)).print_eq_cons (k + 1)
        rw [printIndented]
        simp only [List.cons_append, List.append_assoc, List.nil_append]
        rw [readValue, skipSpace_newLine, (hplain first (by simp)).skipSpace_print]
        split
        · rename_i heq
          simp [hprint, hc] at heq
        · rw [readItems_print hplain (fun v hv => ih v hv (k + 1)) ?_
            ((hplain first (by simp)).skipSpace_print _ _)]
          · rfl
          · have := length_printItems (k + 1) items
            simp only [List.length_append]
            omega
  | @object depth members hplain hnodup ih =>
      rcases members with _ | ⟨⟨name, value⟩, members⟩
      · simp [printIndented, readValue, skipSpace, isSpace]
      · rw [printIndented]
        simp only [printString, List.cons_append, List.append_assoc, List.nil_append,
          String.reduceToList]
        rw [readValue, skipSpace_newLine, skipSpace_cons rfl]
        split
        · rename_i heq
          simp at heq
        · rw [readMembers_print hplain (fun m hm => ih m hm (k + 1)) ?_ (skipSpace_cons rfl _)]
          · simp only [Except.map, ofMembers_of_nodup hnodup]
          · have := length_printMembers (k + 1) members
            simp only [List.length_append, List.length_cons]
            omega

/-- A document of a plain value is read back. -/
theorem parse_document {depth : Nat} {v : Json} (h : Plain depth v) :
    parse depth (document v) = .ok v := by
  have hskip := h.skipSpace_print 0 []
  have hread := h.readValue_print 0 []
  rw [List.append_nil] at hskip hread
  simp only [parse, document, String.toList_ofList, hskip, hread, bind, Except.bind]
  rfl

end Values

end StagedBuild.Json
