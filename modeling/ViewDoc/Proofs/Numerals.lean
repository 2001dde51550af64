import ViewDoc.Text.Whole

/-!
Whole numbers read back: the digits that are written are decimal digits of the value they stand for.
-/

namespace ViewDoc.Text

theorem decimalDigit?_of_isDigit {c : Char} (h : c.isDigit = true) :
    decimalDigit? c = some (c.toNat - '0'.toNat) := by
  rw [Char.isDigit, Bool.and_eq_true, decide_eq_true_eq, decide_eq_true_eq] at h
  have hlow : 48 ≤ c.toNat := h.1
  have hhigh : c.toNat ≤ 57 := h.2
  have hzero : zeroDigits.find? (fun z => z ≤ c.toNat && c.toNat < z + 10) = some 0x30 := by
    rw [zeroDigits, List.find?_cons_of_pos]
    simp only [Bool.and_eq_true, decide_eq_true_eq]
    omega
  rw [decimalDigit?, hzero]
  rfl

theorem isDecimal_of_isDigit {c : Char} (h : c.isDigit = true) : isDecimal c = true := by
  rw [isDecimal, decimalDigit?_of_isDigit h]
  rfl

theorem isDecimal_of_mem_toDigits {n : Nat} {c : Char} (h : c ∈ Nat.toDigits 10 n) :
    isDecimal c = true :=
  isDecimal_of_isDigit (Nat.isDigit_of_mem_toDigits (by decide) (by decide) h)

theorem decimalValue_of_isDigit {cs : List Char} (h : ∀ c ∈ cs, c.isDigit = true) :
    decimalValue cs = Nat.ofDigitChars 10 cs 0 := by
  -- both are folds, so that the value of what came before is generalised
  have hfold (n : Nat) : cs.foldl (fun n c => 10 * n + (decimalDigit? c).getD 0) n =
      Nat.ofDigitChars 10 cs n := by
    induction cs generalizing n with
    | nil => rfl
    | cons c cs ih =>
      have hc := decimalDigit?_of_isDigit (h c List.mem_cons_self)
      rw [List.foldl_cons, hc, Option.getD_some, ih fun d hd => h d (List.mem_cons_of_mem _ hd)]
      rfl
  exact hfold 0

theorem decimalValue_toDigits (n : Nat) : decimalValue (Nat.toDigits 10 n) = n := by
  have h : ∀ c ∈ Nat.toDigits 10 n, c.isDigit = true := fun c hc =>
    Nat.isDigit_of_mem_toDigits (by decide) (by decide) hc
  rw [decimalValue_of_isDigit h, Nat.ofDigitChars_ten_toDigits]

theorem toList_whole (n : Nat) : (whole n).toList = Nat.toDigits 10 n := by
  have hn : ¬ (n : Int) < 0 := by omega
  rw [whole, String.toList_ofList, wholeChars, if_neg hn, Int.natAbs_natCast]

theorem isWritable_of_lt_ten {n : Nat} (h : n < 10) : isWritable n = true := by
  have hlimit : digitLimit ≠ 0 := by decide
  rw [isWritable, decide_eq_true_eq, Int.natAbs_natCast, Nat.pow_eq]
  generalize digitLimit = limit at hlimit
  exact Nat.lt_of_lt_of_le h (Nat.le_self_pow hlimit 10)

theorem isWritable_iff {n : Int} :
    isWritable n = true ↔ (Nat.toDigits 10 n.natAbs).length ≤ digitLimit := by
  have hlimit : 0 < digitLimit := by decide
  rw [isWritable, decide_eq_true_eq, Nat.pow_eq, Nat.length_toDigits_le_iff (by decide) hlimit]

/-- A number that can be written has few enough digits to be read. -/
theorem length_toDigits_le {n : Nat} (h : isWritable n = true) :
    (Nat.toDigits 10 n).length ≤ digitLimit := by
  rwa [isWritable_iff, Int.natAbs_natCast] at h

end ViewDoc.Text
