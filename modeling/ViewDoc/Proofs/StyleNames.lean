import Mathlib.Data.List.Basic
import ViewDoc.Html.Css

/-!
The spelling of style properties.

In an ASCII name each character behind the first is spelled on its own, whatever stands around it.
So the words of a name come out the same, however their beginnings are marked, and what has been
spelled once has nothing left to change.
-/

namespace ViewDoc

namespace Text

/-- Whether a character is one of the first 128. -/
def isAscii (c : Char) : Bool := c.toNat < 128

theorem isAscii_iff {c : Char} : isAscii c = true ↔ c.toNat < 128 := decide_eq_true_iff

theorem isUpper_iff {c : Char} : c.isUpper = true ↔ 65 ≤ c.toNat ∧ c.toNat ≤ 90 := by
  change decide (c.val ≥ 'A'.val ∧ c.val ≤ 'Z'.val) = true ↔ _
  rw [decide_eq_true_iff, ge_iff_le, UInt32.le_iff_toNat_le, UInt32.le_iff_toNat_le]
  rfl

theorem isLower_iff_val {c : Char} :
    c.isLower = true ↔ 'a'.val ≤ c.val ∧ c.val ≤ 'z'.val := by
  change (decide ('a'.val ≤ c.val) && decide (c.val ≤ 'z'.val)) = true ↔ _
  rw [Bool.and_eq_true, decide_eq_true_iff, decide_eq_true_iff]

theorem isLower_iff {c : Char} : c.isLower = true ↔ 97 ≤ c.toNat ∧ c.toNat ≤ 122 := by
  rw [isLower_iff_val, UInt32.le_iff_toNat_le, UInt32.le_iff_toNat_le]
  rfl

theorem isDigit_iff {c : Char} : c.isDigit = true ↔ 48 ≤ c.toNat ∧ c.toNat ≤ 57 :=
  Char.isDigit_iff_toNat

/-- Letters and digits are ASCII characters. -/
theorem isAscii_of_isWordChar {c : Char}
    (h : c.isUpper = true ∨ c.isLower = true ∨ c.isDigit = true) : isAscii c = true := by
  rw [isUpper_iff, isLower_iff, isDigit_iff] at h
  rw [isAscii_iff]
  omega

/-- Capitals and small letters are 32 apart. -/
theorem toNat_toLower (c : Char) :
    c.toLower.toNat = if c.isUpper then c.toNat + 32 else c.toNat := by
  by_cases hup : c.isUpper = true
  · have hrange := isUpper_iff.1 hup
    have hlower : c.toLower.val = c.val + 32 :=
      congrArg Char.val (dif_pos (of_decide_eq_true hup))
    rw [if_pos hup, ← Char.toNat_val, hlower, UInt32.toNat_add, Char.toNat_val]
    exact Nat.mod_eq_of_lt (by simp; omega)
  · have hsame : c.toLower = c := dif_neg fun h => hup (decide_eq_true h)
    rw [if_neg hup, hsame]

theorem toNat_toUpper (c : Char) :
    c.toUpper.toNat = if c.isLower then c.toNat - 32 else c.toNat := by
  by_cases hlow : c.isLower = true
  · have hrange := isLower_iff.1 hlow
    have hupper : c.toUpper.val = c.val + (65 - 97) := by
      change Char.val (dite ('a'.val ≤ c.val ∧ c.val ≤ 'z'.val) _ _) = _
      rw [dif_pos (isLower_iff_val.1 hlow)]
      rfl
    rw [if_pos hlow, ← Char.toNat_val, hupper, UInt32.toNat_add, Char.toNat_val]
    simp
    omega
  · have hsame : c.toUpper = c := dif_neg fun h => hlow (isLower_iff_val.2 h)
    rw [if_neg hlow, hsame]

theorem toLower_of_not_isUpper {c : Char} (h : ¬ c.isUpper) : c.toLower = c := by
  rw [← Char.toNat_inj, toNat_toLower, if_neg h]

theorem isUpper_toLower (c : Char) : c.toLower.isUpper = false := by
  rw [Bool.eq_false_iff, ne_eq, isUpper_iff, toNat_toLower]
  by_cases hup : c.isUpper = true
  · have hrange := isUpper_iff.1 hup
    rw [if_pos hup]
    omega
  · rwa [if_neg hup, ← isUpper_iff]

theorem isUpper_toUpper {c : Char} (h : c.isLower = true) : c.toUpper.isUpper = true := by
  have hrange := isLower_iff.1 h
  rw [isUpper_iff, toNat_toUpper, if_pos h]
  omega

/-- A capital is undone. -/
theorem toLower_toUpper {c : Char} (h : c.isLower = true) : c.toUpper.toLower = c := by
  have hrange := isLower_iff.1 h
  rw [← Char.toNat_inj, toNat_toLower, if_pos (isUpper_toUpper h), toNat_toUpper, if_pos h]
  omega

theorem isAscii_toLower {c : Char} (h : isAscii c = true) : isAscii c.toLower = true := by
  rw [isAscii_iff] at h ⊢
  rw [toNat_toLower]
  by_cases hup : c.isUpper = true
  · have hrange := isUpper_iff.1 hup
    rw [if_pos hup]
    omega
  · rwa [if_neg hup]

/-- Nothing but itself becomes a character that is no letter. -/
theorem toLower_eq_iff {c d : Char} (hd : d.isAlpha = false) : c.toLower = d ↔ c = d := by
  change (d.isUpper || d.isLower) = false at hd
  rw [Bool.or_eq_false_iff] at hd
  constructor
  · intro h
    by_cases hup : c.isUpper = true
    · have hrange := isUpper_iff.1 hup
      have hsmall : d.isLower = true := by
        rw [← h, isLower_iff, toNat_toLower, if_pos hup]
        omega
      rw [hd.2] at hsmall
      cases hsmall
    · rw [← h, toLower_of_not_isUpper hup]
  · rintro rfl
    exact toLower_of_not_isUpper (by simp [hd.1])

/-- Only one run of the table is about ASCII characters: the capitals. -/
theorem mapCase_lower_of_isAscii {c : Char} (h : isAscii c = true) :
    mapCase CaseTable.lower CaseTable.longLower c = [c.toLower] := by
  have htable : CaseTable.lower = (0x41, 0x5A, 1, 32) :: CaseTable.lower.tail := rfl
  -- all that is listed behind the capitals begins past ASCII
  have hlater : ∀ r ∈ CaseTable.lower.tail, 128 ≤ r.1 := by decide +kernel
  have hlong : ∀ r ∈ CaseTable.longLower, 128 ≤ r.1 := by decide
  rw [isAscii_iff] at h
  have hnone : CaseTable.longLower.find? (·.1 = c.toNat) = none := by
    rw [List.find?_eq_none]
    intro r hr
    have := hlong r hr
    rw [decide_eq_true_eq]
    omega
  rw [mapCase, hnone, htable]
  by_cases hup : c.isUpper = true
  · have hrange := isUpper_iff.1 hup
    have hlower : Char.ofNat (c.toNat + 32) = c.toLower := by
      rw [← Char.ofNat_toNat c.toLower, toNat_toLower, if_pos hup]
    rw [List.find?_cons_of_pos (by simp [hrange, Nat.mod_one]), ← hlower]
    rfl
  · have hrange := mt isUpper_iff.2 hup
    rw [List.find?_cons_of_neg (by simp; omega), List.find?_eq_none.2,
      toLower_of_not_isUpper hup]
    intro r hr
    have := hlater r hr
    simp only [Bool.and_eq_true, decide_eq_true_eq]
    omega

theorem lowerFrom_of_isAscii {cs : List Char} (h : ∀ c ∈ cs, isAscii c = true)
    (before : List Char) : lowerFrom before cs = cs.map Char.toLower := by
  induction cs generalizing before with
  | nil => rfl
  | cons c cs ih =>
    obtain ⟨hc, hcs⟩ := List.forall_mem_cons.1 h
    -- what stands before is looked at for a capital sigma only
    have hsigma : c ≠ 'Σ' := by
      rintro rfl
      exact absurd hc (by decide)
    rw [lowerFrom, if_neg hsigma, mapCase_lower_of_isAscii hc, ih hcs]
    rfl

theorem lower_of_isAscii {cs : List Char} (h : ∀ c ∈ cs, isAscii c = true) :
    lower cs = cs.map Char.toLower := lowerFrom_of_isAscii h []

end Text

namespace Html

open Text

/-! ### One character after the other -/

/-- The spelling of one character. -/
def spell (c : Char) : Char := (if c = '_' then '-' else c).toLower

/-- The spelling of one character behind others, where a capital begins a word. -/
def spellInside (c : Char) : List Char := if c.isUpper then ['-', spell c] else [spell c]

theorem isAscii_of_mem_splitCapitals {cs : List Char} (h : ∀ c ∈ cs, isAscii c = true) :
    ∀ c ∈ splitCapitals cs, isAscii c = true := by
  cases cs with
  | nil => exact h
  | cons c cs =>
    obtain ⟨hc, hcs⟩ := List.forall_mem_cons.1 h
    rw [splitCapitals, List.forall_mem_cons, List.forall_mem_flatMap]
    refine ⟨hc, ?_⟩
    intro d hd
    split
    · exact List.forall_mem_cons.2 ⟨by decide, List.forall_mem_singleton.2 (hcs d hd)⟩
    · exact List.forall_mem_singleton.2 (hcs d hd)

theorem kebabChars_eq_map {cs : List Char} (h : ∀ c ∈ cs, isAscii c = true) :
    kebabChars cs = (splitCapitals cs).map spell := by
  have hascii : ∀ c ∈ (splitCapitals cs).map fun c => if c = '_' then '-' else c,
      isAscii c = true := by
    rw [List.forall_mem_map]
    intro c hc
    split
    · decide
    · exact isAscii_of_mem_splitCapitals h c hc
  rw [kebabChars, lower_of_isAscii hascii, List.map_map]
  rfl

/-- No character is spelled in view of the others, apart from whether any stands before it. -/
theorem kebabChars_cons {c : Char} {cs : List Char} (h : ∀ d ∈ c :: cs, isAscii d = true) :
    kebabChars (c :: cs) = spell c :: cs.flatMap spellInside := by
  have hinside (d : Char) :
      (if d.isUpper then ['-', d] else [d]).map spell = spellInside d := by
    rw [spellInside]
    split
    · rfl
    · rfl
  rw [kebabChars_eq_map h, splitCapitals, List.map_cons, List.map_flatMap]
  simp only [hinside]

theorem spell_eq_hyphen_iff {c : Char} : spell c = '-' ↔ c = '-' ∨ c = '_' := by
  by_cases hc : c = '_'
  · subst hc
    decide
  · rw [spell, if_neg hc, toLower_eq_iff (by decide), or_iff_left hc]

/-! ### What needs no change -/

/-- A character as it can stand in a spelled name. -/
structure IsSettled (c : Char) : Prop where
  isAscii : Text.isAscii c = true
  isUpper : c.isUpper = false
  ne_underscore : c ≠ '_'

theorem isSettled_hyphen : IsSettled '-' := ⟨by decide, by decide, by decide⟩

theorem isSettled_spell {c : Char} (h : isAscii c = true) : IsSettled (spell c) := by
  by_cases hc : c = '_'
  · subst hc
    exact isSettled_hyphen
  · rw [spell, if_neg hc]
    exact ⟨isAscii_toLower h, isUpper_toLower c, mt (toLower_eq_iff (by decide)).1 hc⟩

theorem isSettled_of_mem_spellInside {c : Char} (h : isAscii c = true) :
    ∀ d ∈ spellInside c, IsSettled d := by
  rw [spellInside]
  split
  · exact List.forall_mem_cons.2 ⟨isSettled_hyphen, List.forall_mem_singleton.2 (isSettled_spell h)⟩
  · exact List.forall_mem_singleton.2 (isSettled_spell h)

theorem isSettled_of_mem_kebabChars {cs : List Char} (h : ∀ c ∈ cs, isAscii c = true) :
    ∀ c ∈ kebabChars cs, IsSettled c := by
  cases cs with
  | nil => exact fun c hc => absurd hc List.not_mem_nil
  | cons c cs =>
    obtain ⟨hc, hcs⟩ := List.forall_mem_cons.1 h
    rw [kebabChars_cons h, List.forall_mem_cons, List.forall_mem_flatMap]
    exact ⟨isSettled_spell hc, fun d hd => isSettled_of_mem_spellInside (hcs d hd)⟩

theorem IsSettled.spell_eq {c : Char} (h : IsSettled c) : spell c = c := by
  rw [spell, if_neg h.ne_underscore, toLower_of_not_isUpper (by simp [h.isUpper])]

theorem flatMap_spellInside_of_isSettled {cs : List Char} (h : ∀ c ∈ cs, IsSettled c) :
    cs.flatMap spellInside = cs := by
  have hself : cs.flatMap spellInside = cs.flatMap fun c => [c] := by
    refine List.flatMap_congr fun c hc => ?_
    rw [spellInside, if_neg (by simp [(h c hc).isUpper]), (h c hc).spell_eq]
  rw [hself, List.flatMap_singleton']

theorem kebabChars_of_isSettled {cs : List Char} (h : ∀ c ∈ cs, IsSettled c) :
    kebabChars cs = cs := by
  cases cs with
  | nil => rfl
  | cons c cs =>
    obtain ⟨hc, hcs⟩ := List.forall_mem_cons.1 h
    rw [kebabChars_cons fun d hd => (h d hd).isAscii, hc.spell_eq,
      flatMap_spellInside_of_isSettled hcs]

theorem kebabChars_kebabChars {cs : List Char} (h : ∀ c ∈ cs, isAscii c = true) :
    kebabChars (kebabChars cs) = kebabChars cs :=
  kebabChars_of_isSettled (isSettled_of_mem_kebabChars h)

theorem head?_kebabChars {cs : List Char} (h : ∀ c ∈ cs, isAscii c = true) :
    (kebabChars cs).head? = cs.head?.map spell := by
  cases cs with
  | nil => rfl
  | cons c cs =>
    rw [kebabChars_cons h]
    rfl

/-! ### Names made of words -/

/-- A small letter, and behind it small letters and digits. -/
structure Word where
  first : Char
  rest : List Char
  isLower_first : first.isLower = true
  isLower_or_isDigit : ∀ c ∈ rest, c.isLower = true ∨ c.isDigit = true

namespace Word

def chars (w : Word) : List Char := w.first :: w.rest

def text (w : Word) : String := String.ofList w.chars

def capitalized (w : Word) : String := String.ofList (w.first.toUpper :: w.rest)

end Word

/-- The words after the first are told by their capitals. -/
def camelCase : List Word → String
  | [] => ""
  | w :: ws => w.text ++ String.join (ws.map Word.capitalized)

theorem isSettled_of_isLower {c : Char} (h : c.isLower = true) : IsSettled c := by
  refine ⟨isAscii_of_isWordChar (.inr (.inl h)), ?_, ?_⟩
  · have hrange := isLower_iff.1 h
    rw [← Bool.not_eq_true, isUpper_iff]
    omega
  · rintro rfl
    exact absurd h (by decide)

theorem isSettled_of_isDigit {c : Char} (h : c.isDigit = true) : IsSettled c := by
  refine ⟨isAscii_of_isWordChar (.inr (.inr h)), ?_, ?_⟩
  · have hrange := isDigit_iff.1 h
    rw [← Bool.not_eq_true, isUpper_iff]
    omega
  · rintro rfl
    exact absurd h (by decide)

namespace Word

theorem isSettled_of_mem_rest (w : Word) : ∀ c ∈ w.rest, IsSettled c := by
  intro c hc
  rcases w.isLower_or_isDigit c hc with h | h
  · exact isSettled_of_isLower h
  · exact isSettled_of_isDigit h

theorem isSettled_of_mem_chars (w : Word) : ∀ c ∈ w.chars, IsSettled c :=
  List.forall_mem_cons.2 ⟨isSettled_of_isLower w.isLower_first, w.isSettled_of_mem_rest⟩

theorem isUpper_capital (w : Word) : w.first.toUpper.isUpper = true :=
  isUpper_toUpper w.isLower_first

/-- A capital is undone by the spelling. -/
theorem spell_capital (w : Word) : spell w.first.toUpper = w.first := by
  have hne : w.first.toUpper ≠ '_' := by
    intro heq
    have hup := w.isUpper_capital
    rw [heq] at hup
    exact absurd hup (by decide)
  rw [spell, if_neg hne, toLower_toUpper w.isLower_first]

end Word

/-- A way to write a word behind others that comes out as a hyphen and the word. -/
structure IsMark (mark : Word → List Char) : Prop where
  isAscii : ∀ w, ∀ c ∈ mark w, Text.isAscii c = true
  spelled : ∀ w, (mark w).flatMap spellInside = '-' :: w.chars

theorem isMark_capitalized : IsMark fun w => w.capitalized.toList := by
  refine ⟨?_, ?_⟩
  · intro w
    have hfirst := isAscii_of_isWordChar (.inl w.isUpper_capital)
    rw [Word.capitalized, String.toList_ofList, List.forall_mem_cons]
    exact ⟨hfirst, fun c hc => (w.isSettled_of_mem_rest c hc).isAscii⟩
  · intro w
    rw [Word.capitalized, String.toList_ofList, List.flatMap_cons, spellInside,
      if_pos w.isUpper_capital, w.spell_capital,
      flatMap_spellInside_of_isSettled w.isSettled_of_mem_rest]
    rfl

theorem isMark_behind {c : Char} (hascii : isAscii c = true) (hc : spellInside c = ['-']) :
    IsMark fun w => c :: w.chars := by
  refine ⟨?_, ?_⟩
  · intro w
    exact List.forall_mem_cons.2 ⟨hascii, fun d hd => (w.isSettled_of_mem_chars d hd).isAscii⟩
  · intro w
    rw [List.flatMap_cons, hc, flatMap_spellInside_of_isSettled w.isSettled_of_mem_chars]
    rfl

theorem toList_intercalate_text (sep : String) (w : Word) (ws : List Word) :
    (sep.intercalate ((w :: ws).map Word.text)).toList =
      w.chars ++ ws.flatMap fun v => sep.toList ++ v.chars := by
  induction ws generalizing w with
  | nil => simp [Word.text]
  | cons v ws ih =>
    rw [List.map_cons, List.map_cons, String.intercalate_cons_cons, String.toList_append,
      ← List.map_cons, ih, String.toList_append, Word.text, String.toList_ofList, List.flatMap_cons,
      List.append_assoc, List.append_assoc]

theorem toList_camelCase (w : Word) (ws : List Word) :
    (camelCase (w :: ws)).toList = w.chars ++ ws.flatMap fun v => v.capitalized.toList := by
  rw [camelCase, String.toList_append, Word.text, String.toList_ofList, String.toList_join,
    List.flatMap_map]

/-- The marks of the words are all that is changed, so the first word stands as it is. -/
theorem kebab_of_isMark {mark : Word → List Char} (hmark : IsMark mark) {s : String} {w : Word}
    {ws : List Word} (hs : s.toList = w.chars ++ ws.flatMap mark) :
    kebab s = "-".intercalate ((w :: ws).map Word.text) := by
  have hascii : ∀ c ∈ w.first :: (w.rest ++ ws.flatMap mark), isAscii c = true := by
    rw [← List.cons_append, List.forall_mem_append, List.forall_mem_flatMap]
    exact ⟨fun c hc => (w.isSettled_of_mem_chars c hc).isAscii, fun v _ => hmark.isAscii v⟩
  have hlater : (ws.flatMap mark).flatMap spellInside = ws.flatMap fun v => '-' :: v.chars := by
    rw [List.flatMap_assoc]
    exact List.flatMap_congr fun v _ => hmark.spelled v
  rw [← String.toList_inj, toList_intercalate_text, kebab, String.toList_ofList, hs, Word.chars,
    List.cons_append, kebabChars_cons hascii, (isSettled_of_isLower w.isLower_first).spell_eq,
    List.flatMap_append, flatMap_spellInside_of_isSettled w.isSettled_of_mem_rest, hlater]
  rfl

/-- However the words of a name are told apart, they come out joined by single hyphens; and an ASCII
text comes out without capitals and underscores, and as it is when it is spelled again. -/
theorem kebab_spells_one_way :
    (∀ words : List Word,
      kebab (camelCase words) = "-".intercalate (words.map Word.text) ∧
      kebab ("_".intercalate (words.map Word.text)) = "-".intercalate (words.map Word.text) ∧
      kebab ("-".intercalate (words.map Word.text)) = "-".intercalate (words.map Word.text)) ∧
    ∀ s : String, (∀ c ∈ s.toList, isAscii c = true) →
      (∀ c ∈ (kebab s).toList, IsSettled c) ∧
      ((kebab s).toList.head? = some '-' ↔
        s.toList.head? = some '-' ∨ s.toList.head? = some '_') ∧
      kebab (kebab s) = kebab s := by
  constructor
  · intro words
    cases words with
    | nil => exact ⟨rfl, rfl, rfl⟩
    | cons w ws =>
      refine ⟨kebab_of_isMark isMark_capitalized (toList_camelCase w ws), ?_, ?_⟩
      · have hmark : IsMark fun w => '_' :: w.chars := isMark_behind (by decide) (by decide)
        exact kebab_of_isMark hmark (toList_intercalate_text "_" w ws)
      · have hmark : IsMark fun w => '-' :: w.chars := isMark_behind (by decide) (by decide)
        exact kebab_of_isMark hmark (toList_intercalate_text "-" w ws)
  · intro s hs
    have hchars : (kebab s).toList = kebabChars s.toList := String.toList_ofList
    refine ⟨?_, ?_, ?_⟩
    · rw [hchars]
      exact isSettled_of_mem_kebabChars hs
    · rw [hchars, head?_kebabChars hs]
      cases s.toList.head? with
      | none => simp
      | some c => simp [spell_eq_hyphen_iff]
    · rw [kebab, hchars, kebabChars_kebabChars hs]
      rfl

/-- Behind an underscore a capital still gets its own hyphen. -/
theorem kebab_spells_one_way_webkit :
    let x2 : Word := ⟨'x', ['2'], by decide, by simp⟩
    let box : Word := ⟨'b', ['o', 'x'], by decide, by simp⟩
    let s := "_WebkitBox_Flex"
    camelCase [x2, box] = "x2Box" ∧ kebab "x2Box" = "x2-box" ∧
      (∀ c ∈ s.toList, isAscii c = true) ∧ kebab s = "--webkit-box--flex" ∧
      (kebab s).toList.head? = some '-' ∧ kebab (kebab s) = kebab s := by
  intro x2 box s
  have hcamel : camelCase [x2, box] = "x2Box" := by decide
  have hs : ∀ c ∈ s.toList, isAscii c = true := List.all_eq_true.1 (by decide)
  have hkebab : kebab s = "--webkit-box--flex" := by decide +kernel
  have hwords := (kebab_spells_one_way.1 [x2, box]).1
  rw [hcamel] at hwords
  obtain ⟨-, hhead, htwice⟩ := kebab_spells_one_way.2 s hs
  exact ⟨hcamel, hwords, hs, hkebab, hhead.2 (.inr (by decide)), htwice⟩

end Html
end ViewDoc
