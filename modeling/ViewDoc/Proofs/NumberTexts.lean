import Mathlib.Data.List.TakeWhile
import ViewDoc.Proofs.Formats
import ViewDoc.Proofs.Numerals

/-!
Whole numbers at the start of texts.

A text begins with a number if it leads with white space, at most one sign and decimal digits, of
whatever scripts. All the digits there are count, so that a number which was written is read back as
long as no other digit comes right behind it.
-/

namespace ViewDoc

namespace Text

theorem isBlank_of_isDecimal {c : Char} (h : isDecimal c = true) : isBlank c = false := by
  have hapart : ∀ z ∈ zeroDigits, ∀ r ∈ blankRanges, z + 10 ≤ r.1 ∨ r.2 < z := by decide
  obtain ⟨n, hn⟩ := Option.isSome_iff_exists.1 h
  obtain ⟨z, hz, -⟩ := Option.map_eq_some_iff.1 hn
  have hrange := List.find?_some hz
  simp only [Bool.and_eq_true, decide_eq_true_eq] at hrange
  rw [isBlank, List.any_eq_false]
  intro r hr
  have := hapart z (List.mem_of_find?_eq_some hz) r hr
  simp only [Bool.and_eq_true, decide_eq_true_eq]
  omega

theorem ne_of_isDecimal {c d : Char} (hc : isDecimal c = true) (hd : isDecimal d = false) :
    c ≠ d := by
  rintro rfl
  rw [hc] at hd
  cases hd

/-- White space, at most one sign and some decimal digits, then anything. -/
structure BeginsWith (cs blank sign digits rest : List Char) : Prop where
  joined : cs = blank ++ (sign ++ (digits ++ rest))
  blank : ∀ c ∈ blank, isBlank c = true
  sign : sign = [] ∨ sign = ['+'] ∨ sign = ['-']
  nonempty : digits ≠ []
  digits : ∀ c ∈ digits, isDecimal c = true

def BeginsWithNumber (cs : List Char) : Prop :=
  ∃ blank sign digits rest, BeginsWith cs blank sign digits rest

/-- Not even one digit. -/
def HasNoDigitInFront (cs : List Char) : Prop := ∀ c ∈ cs.head?, isDecimal c = false

theorem takeWhile_isDecimal_append {digits rest : List Char}
    (hd : ∀ c ∈ digits, isDecimal c = true) (hr : HasNoDigitInFront rest) :
    (digits ++ rest).takeWhile isDecimal = digits := by
  rw [List.takeWhile_append_of_pos hd]
  cases rest with
  | nil => simp
  | cons c rest =>
    have hc : ¬ isDecimal c = true := by simp [hr c rfl]
    rw [List.takeWhile_cons_of_neg hc, List.append_nil]

/-- A sign and digits do not begin with white space. -/
theorem dropWhile_isBlank_of_beginsWith {cs blank sign digits rest : List Char}
    (h : BeginsWith cs blank sign digits rest) :
    cs.dropWhile isBlank = sign ++ (digits ++ rest) := by
  obtain ⟨d, ds, rfl⟩ := List.exists_cons_of_ne_nil h.nonempty
  have hd : ¬ isBlank d = true := by simp [isBlank_of_isDecimal (h.digits d List.mem_cons_self)]
  rw [h.joined, List.dropWhile_append_of_pos h.blank]
  rcases h.sign with rfl | rfl | rfl
  · exact List.dropWhile_cons_of_neg hd
  · exact List.dropWhile_cons_of_neg (by decide)
  · exact List.dropWhile_cons_of_neg (by decide)

/-- All digits are read, and a minus is kept. -/
theorem numberStart?_of_beginsWith {cs blank sign digits rest : List Char}
    (h : BeginsWith cs blank sign digits rest) (hr : HasNoDigitInFront rest) :
    numberStart? cs = some ⟨sign == ['-'], digits⟩ := by
  have htake := takeWhile_isDecimal_append h.digits hr
  have hne : digits.isEmpty = false := by simpa using h.nonempty
  have hbody := dropWhile_isBlank_of_beginsWith h
  rcases h.sign with rfl | rfl | rfl
  · obtain ⟨d, ds, rfl⟩ := List.exists_cons_of_ne_nil h.nonempty
    have hd : isDecimal d = true := h.digits d List.mem_cons_self
    have hminus : d ≠ '-' := ne_of_isDecimal hd (by decide)
    have hplus : d ≠ '+' := ne_of_isDecimal hd (by decide)
    rw [List.nil_append, List.cons_append] at hbody
    rw [List.cons_append] at htake
    simp [numberStart?, hbody, hminus, hplus, htake]
  · simp [numberStart?, hbody, htake, hne]
  · simp [numberStart?, hbody, htake, hne]

/-- A text that begins with a number still does so with all the digits it has. -/
theorem BeginsWith.exists_all {cs blank sign digits rest : List Char}
    (h : BeginsWith cs blank sign digits rest) :
    ∃ all later, BeginsWith cs blank sign all later ∧ HasNoDigitInFront later := by
  refine ⟨(digits ++ rest).takeWhile isDecimal, (digits ++ rest).dropWhile isDecimal,
    ⟨?_, h.blank, h.sign, ?_, ?_⟩, ?_⟩
  · rw [List.takeWhile_append_dropWhile, h.joined]
  · obtain ⟨d, ds, rfl⟩ := List.exists_cons_of_ne_nil h.nonempty
    rw [List.cons_append, List.takeWhile_cons_of_pos (h.digits d List.mem_cons_self)]
    exact List.cons_ne_nil _ _
  · exact fun c hc => List.mem_takeWhile_imp hc
  · intro c hc
    obtain ⟨ds, hds⟩ := List.head?_eq_some_iff.1 hc
    have hne : (digits ++ rest).dropWhile isDecimal ≠ [] := by simp [hds]
    have hhead := List.head_dropWhile_not isDecimal hne
    simpa [hds] using hhead

/-- What is read as the start of a number is one. -/
theorem beginsWithNumber_of_numberStart? {cs : List Char} {start : NumberStart}
    (h : numberStart? cs = some start) : BeginsWithNumber cs := by
  have hblank : ∀ c ∈ cs.takeWhile isBlank, isBlank c = true := fun c hc =>
    List.mem_takeWhile_imp hc
  obtain ⟨sign, rest, hbody, hsign, hdigits⟩ : ∃ sign rest, cs.dropWhile isBlank = sign ++ rest ∧
      (sign = [] ∨ sign = ['+'] ∨ sign = ['-']) ∧ rest.takeWhile isDecimal ≠ [] := by
    rw [numberStart?] at h
    split at h
    rename_i negative rest hsplit
    have hne : rest.takeWhile isDecimal ≠ [] := by
      intro hnil
      rw [hnil] at h
      cases h
    split at hsplit
    · rename_i cs' hbody
      obtain ⟨-, rfl⟩ := Prod.mk.inj hsplit
      exact ⟨['-'], cs', hbody, .inr (.inr rfl), hne⟩
    · rename_i cs' hbody
      obtain ⟨-, rfl⟩ := Prod.mk.inj hsplit
      exact ⟨['+'], cs', hbody, .inr (.inl rfl), hne⟩
    · obtain ⟨-, rfl⟩ := Prod.mk.inj hsplit
      exact ⟨[], _, rfl, .inl rfl, hne⟩
  refine ⟨cs.takeWhile isBlank, sign, rest.takeWhile isDecimal, rest.dropWhile isDecimal, ?_,
    hblank, hsign, hdigits, fun c hc => List.mem_takeWhile_imp hc⟩
  rw [List.takeWhile_append_dropWhile, ← hbody, List.takeWhile_append_dropWhile]

theorem numberStart?_eq_none_iff {cs : List Char} :
    numberStart? cs = none ↔ ¬ BeginsWithNumber cs := by
  constructor
  · intro h hbegins
    obtain ⟨blank, sign, digits, rest, hbegins⟩ := hbegins
    obtain ⟨all, later, hall, hlater⟩ := hbegins.exists_all
    rw [numberStart?_of_beginsWith hall hlater] at h
    cases h
  · intro h
    cases hs : numberStart? cs with
    | none => rfl
    | some start => exact absurd (beginsWithNumber_of_numberStart? hs) h

/-- A number as it is written: a minus or nothing, and then digits. -/
theorem beginsWith_wholeChars {blank : List Char} (n : Int) (hb : ∀ c ∈ blank, isBlank c = true)
    (rest : List Char) :
    BeginsWith (blank ++ (wholeChars n ++ rest)) blank (if n < 0 then ['-'] else [])
      (Nat.toDigits 10 n.natAbs) rest := by
  refine ⟨?_, hb, ?_, Nat.toDigits_ne_nil, fun c hc => isDecimal_of_mem_toDigits hc⟩
  · rw [wholeChars]
    split
    · simp
    · simp
  · split
    · exact .inr (.inr rfl)
    · exact .inl rfl

end Text

namespace Format

open Text

theorem readInt_of_numberStart? {s : String} {start : NumberStart}
    (h : numberStart? s.toList = some start) (hd : start.digits.length ≤ digitLimit) :
    readInt s = .ok (some start.value) := by
  rw [readInt, h]
  exact if_pos hd

theorem toInt_of_text? {v : Value} {t : String} (h : v.text? = some t) : toInt v = readInt t := by
  cases v with
  | text s =>
    obtain rfl := Option.some.inj h
    rfl
  | markup s =>
    obtain rfl := Option.some.inj h
    rfl
  | _ => cases h

theorem readInt_eq_none_iff {s : String} : readInt s = .ok none ↔ ¬ BeginsWithNumber s.toList := by
  rw [← numberStart?_eq_none_iff, readInt]
  cases numberStart? s.toList with
  | none => simp
  | some start =>
    simp only [reduceCtorEq, iff_false]
    split
    · simp
    · simp

/-- The digits of a number, with its sign before them, are read as the number. -/
theorem readInt_of_beginsWith {s : String} {blank sign rest : List Char} {n : Int}
    (h : BeginsWith s.toList blank sign (Nat.toDigits 10 n.natAbs) rest)
    (hsign : (sign == ['-']) = decide (n < 0)) (hr : HasNoDigitInFront rest)
    (hn : (Nat.toDigits 10 n.natAbs).length ≤ digitLimit) : readInt s = .ok (some n) := by
  have hvalue : NumberStart.value ⟨sign == ['-'], Nat.toDigits 10 n.natAbs⟩ = n := by
    rw [NumberStart.value, decimalValue_toDigits, hsign]
    by_cases hneg : n < 0
    · simp only [hneg, decide_true, if_true]
      omega
    · simp only [hneg, decide_false, Bool.false_eq_true, if_false]
      omega
  rw [readInt_of_numberStart? (numberStart?_of_beginsWith h hr) hn, hvalue]

/-- A number of up to 4300 digits is read back from its text, behind white space and in front of
anything but a digit, and no number is found in the texts that do not begin with one. -/
theorem toInt_reads_back :
    (∀ (n : Int) (s r : String), (Nat.toDigits 10 n.natAbs).length ≤ digitLimit →
      (∀ c ∈ s.toList, isBlank c = true) → HasNoDigitInFront r.toList →
      ∃ digits, (Value.int n).show? = .ok digits ∧
        toInt (.text (s ++ digits ++ r)) = .ok (some n) ∧
        (0 ≤ n → toInt (.text (s ++ "+" ++ digits ++ r)) = .ok (some n))) ∧
    ∀ (v : Value) (t : String), v.text? = some t →
      (toInt v = .ok none ↔ ¬ BeginsWithNumber t.toList) := by
  constructor
  · intro n s r hn hs hr
    have hshow : (Value.int n).show? = .ok (whole n) := if_pos (isWritable_iff.2 hn)
    refine ⟨whole n, hshow, ?_, ?_⟩
    · have hchars : (s ++ whole n ++ r).toList = s.toList ++ (wholeChars n ++ r.toList) := by
        simp [whole]
      have hbegins := beginsWith_wholeChars n hs r.toList
      rw [← hchars] at hbegins
      rw [toInt_of_text? rfl]
      refine readInt_of_beginsWith hbegins ?_ hr hn
      by_cases hneg : n < 0
      · simp [hneg]
      · simp [hneg]
    · intro hpos
      have hneg : ¬ n < 0 := by omega
      have hchars : (s ++ "+" ++ whole n ++ r).toList =
          s.toList ++ (['+'] ++ (Nat.toDigits 10 n.natAbs ++ r.toList)) := by
        simp [whole, wholeChars, hneg]
      have hbegins : BeginsWith (s ++ "+" ++ whole n ++ r).toList s.toList ['+']
          (Nat.toDigits 10 n.natAbs) r.toList :=
        ⟨hchars, hs, .inr (.inl rfl), Nat.toDigits_ne_nil, fun c hc => isDecimal_of_mem_toDigits hc⟩
      rw [toInt_of_text? rfl]
      refine readInt_of_beginsWith hbegins ?_ hr hn
      simp [hneg]
  · intro v t ht
    rw [toInt_of_text? ht, readInt_eq_none_iff]

/-- Between a no-break space and a superscript, which is no decimal digit; with a blank behind the
sign there is no number. -/
theorem toInt_reads_back_superscript :
    let n : Int := -42
    let s := "\u00a0"
    let r := "²"
    let t := "- 42"
    (Nat.toDigits 10 n.natAbs).length ≤ digitLimit ∧ (∀ c ∈ s.toList, isBlank c = true) ∧
      HasNoDigitInFront r.toList ∧ toInt (.text (s ++ "-42" ++ r)) = .ok (some n) ∧
      ¬ BeginsWithNumber t.toList := by
  intro n s r t
  have hn : (Nat.toDigits 10 n.natAbs).length ≤ digitLimit := by decide
  have hs : ∀ c ∈ s.toList, isBlank c = true := by
    intro c hc
    obtain rfl : c = '\u00a0' := by simpa [s] using hc
    decide
  have hr : HasNoDigitInFront r.toList := by
    intro c hc
    obtain rfl : c = '²' := by simpa [r, eq_comm] using hc
    decide
  obtain ⟨digits, hshow, hread, -⟩ := toInt_reads_back.1 n s r hn hs hr
  have hdigits : (Value.int n).shown = "-42" := by decide
  rw [Value.shown_of_show? hshow, hdigits] at hread
  have ht : t.toList = ['-', ' ', '4', '2'] := by simp [t]
  have hnone : toInt (.text t) = .ok none := by
    rw [toInt_of_text? rfl, readInt, ht]
    rfl
  exact ⟨hn, hs, hr, hread, (toInt_reads_back.2 (.text t) t rfl).1 hnone⟩

end Format
end ViewDoc
