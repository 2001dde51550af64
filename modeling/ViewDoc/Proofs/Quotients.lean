import Mathlib.Algebra.Ring.Nat
import Mathlib.Tactic.ByContra
import ViewDoc.Binary64

/-!
Rounded quotients.

Rounding a quotient never takes it past a number that can be kept exactly. So a quotient that is at
least one is so when it is rounded, and it stays on its side of every whole number that is small
against the precision.
-/

namespace ViewDoc.Binary64

theorem div_le_nearest (num den : Nat) : num / den ≤ nearest num den := by
  rw [nearest]
  split
  · exact Nat.le_refl _
  · exact Nat.le_succ _

theorem nearest_le (num den : Nat) : nearest num den ≤ num / den + 1 := by
  rw [nearest]
  split
  · exact Nat.le_succ _
  · exact Nat.le_refl _

theorem spacing_pos (n : Nat) : 0 < spacing n := pow_two_pos _

theorem log2_le_of_lt {n b : Nat} (h : n < 2 ^ (b + 1)) : n.log2 ≤ b := by
  rcases Nat.eq_zero_or_pos n with rfl | hn
  · exact Nat.zero_le b
  · exact Nat.le_of_lt_succ ((Nat.log2_lt (Nat.ne_of_gt hn)).2 h)

theorem spacing_le {n b : Nat} (h : n < 2 ^ (b + 1)) : spacing n ≤ 2 ^ (b - 52) :=
  Nat.pow_le_pow_right (by decide) (Nat.sub_le_sub_right (log2_le_of_lt h) 52)

/-- A multiple of something stays below what is left of a number when it is cut to multiples. -/
theorem le_div_mul_of_dvd {s m n : Nat} (hs : 0 < s) (hm : s ∣ m) (h : m ≤ n) :
    m ≤ n / s * s := by
  obtain ⟨k, rfl⟩ := hm
  have hk : k ≤ n / s := by
    rw [Nat.le_div_iff_mul_le hs, Nat.mul_comm]
    exact h
  calc s * k = k * s := Nat.mul_comm s k
    _ ≤ n / s * s := Nat.mul_le_mul_right s hk

/-- What can be kept exactly and lies below a number lies below it when it is cut to its spacing. -/
theorem le_cut {m n : Nat} (hm : spacing m ∣ m) (h : m ≤ n) : m ≤ n / spacing n * spacing n := by
  rcases Nat.eq_zero_or_pos m with rfl | hpos
  · exact Nat.zero_le _
  have hn : n ≠ 0 := by omega
  have hlog : m.log2 ≤ n.log2 := by
    rw [Nat.le_log2 hn]
    exact Nat.le_trans (Nat.log2_self_le (Nat.ne_of_gt hpos)) h
  rcases Nat.eq_or_lt_of_le hlog with heq | hlt
  · have hs : spacing n = spacing m := by rw [spacing, spacing, heq]
    rw [hs]
    exact le_div_mul_of_dvd (spacing_pos m) hm h
  · -- the power of two below `n` is in between
    have hpow : spacing n ∣ 2 ^ n.log2 := Nat.pow_dvd_pow 2 (Nat.sub_le _ _)
    have hcut := le_div_mul_of_dvd (spacing_pos n) hpow (Nat.log2_self_le hn)
    have hm' : m < 2 ^ (m.log2 + 1) := Nat.lt_log2_self
    have hstep : 2 ^ (m.log2 + 1) ≤ 2 ^ n.log2 := Nat.pow_le_pow_right (by decide) hlt
    omega

/-- A number that can be kept exactly is reached by the rounded quotient if by the exact one. -/
theorem le_quotient {m num den : Nat} (hden : 0 < den) (hm : spacing m ∣ m)
    (h : m * den ≤ num * unit) : m ≤ quotient num den := by
  have hle : m ≤ num * unit / den := (Nat.le_div_iff_mul_le hden).2 h
  have hcut := le_cut hm hle
  rw [Nat.div_div_eq_div_mul] at hcut
  exact Nat.le_trans hcut (Nat.mul_le_mul_right _ (div_le_nearest _ _))

theorem unit_eq : unit = 2 ^ places := by
  unfold unit
  generalize places = p
  rfl

/-- Whole numbers of up to 53 bits can be kept exactly. -/
theorem spacing_dvd {k b : Nat} (hb : b ≤ 52) (hk : k ≤ 2 ^ b) : spacing (k * unit) ∣ k * unit := by
  have hbound : k * unit < 2 ^ (b + places + 1) := by
    have hstrict : 2 ^ (b + places) < 2 ^ (b + places + 1) :=
      Nat.pow_lt_pow_right (by decide) (Nat.lt_succ_self _)
    have hle : k * unit ≤ 2 ^ b * unit := Nat.mul_le_mul_right unit hk
    rw [unit_eq, ← Nat.pow_add] at hle
    rw [unit_eq]
    omega
  have hspacing : spacing (k * unit) ∣ unit := by
    have hlog := log2_le_of_lt hbound
    have hpow : spacing (k * unit) ∣ 2 ^ places := Nat.pow_dvd_pow 2 (by omega)
    rwa [← unit_eq] at hpow
  exact Nat.dvd_mul_left_of_dvd hspacing k

/-- A quotient of at least one is at least one when it is rounded. -/
theorem unit_le_quotient {num den : Nat} (hden : 0 < den) (h : den ≤ num) :
    unit ≤ quotient num den := by
  have hone : spacing (1 * unit) ∣ 1 * unit := spacing_dvd (Nat.zero_le 52) (Nat.le_refl 1)
  rw [Nat.one_mul] at hone
  apply le_quotient hden hone
  rw [Nat.mul_comm]
  exact Nat.mul_le_mul_right unit h

/-- A rounded quotient exceeds the exact one by at most the spacing. -/
theorem quotient_le (num den : Nat) :
    quotient num den ≤ num * unit / den + spacing (num * unit / den) := by
  have hround := nearest_le (num * unit) (den * spacing (num * unit / den))
  rw [← Nat.div_div_eq_div_mul] at hround
  calc quotient num den
      ≤ (num * unit / den / spacing (num * unit / den) + 1) * spacing (num * unit / den) :=
        Nat.mul_le_mul_right _ hround
    _ = num * unit / den / spacing (num * unit / den) * spacing (num * unit / den) +
        spacing (num * unit / den) := Nat.succ_mul _ _
    _ ≤ num * unit / den + spacing (num * unit / den) :=
        Nat.add_le_add_right (Nat.div_mul_le_self _ _) _

/-- The spacing of what lies below a whole number of `b` bits. -/
theorem mul_spacing_lt {n k den b : Nat} (hn : n < k * unit) (hk : k ≤ 2 ^ b)
    (hprecise : den * 2 ^ b < 2 ^ 53) : den * spacing n < unit := by
  obtain ⟨p, hp⟩ : ∃ p, places = p + 53 := ⟨1021, rfl⟩
  have hbelow : n < 2 ^ (b + p + 52 + 1) := by
    have hle := Nat.mul_le_mul_right unit hk
    have hsplit : b + p + 52 + 1 = b + (p + 53) := by omega
    rw [hsplit, Nat.pow_add, ← hp, ← unit_eq]
    exact Nat.lt_of_lt_of_le hn hle
  have hspacing : spacing n ≤ 2 ^ b * 2 ^ p := by
    have h := spacing_le hbelow
    rwa [Nat.add_sub_cancel, Nat.pow_add] at h
  calc den * spacing n ≤ den * (2 ^ b * 2 ^ p) := Nat.mul_le_mul_left den hspacing
    _ = den * 2 ^ b * 2 ^ p := (Nat.mul_assoc ..).symm
    _ < 2 ^ 53 * 2 ^ p := Nat.mul_lt_mul_of_pos_right hprecise (Nat.two_pow_pos p)
    _ = unit := by rw [unit_eq, hp, Nat.pow_add, Nat.mul_comm]

/-- Rounding leaves a quotient on its side of a whole number of `b` bits, as long as quotients by
the divisor are further apart there than numbers that can be kept. -/
theorem quotient_lt_iff {k num den b : Nat} (hden : 0 < den) (hk : k ≤ 2 ^ b)
    (hprecise : den * 2 ^ b < 2 ^ 53) : quotient num den < k * unit ↔ num < k * den := by
  constructor
  · intro h
    by_contra hge
    have hb : b ≤ 52 := by
      by_contra hlarge
      have hpow : 2 ^ 53 ≤ 2 ^ b := Nat.pow_le_pow_right (by decide) (by omega)
      have hmul : 2 ^ b ≤ den * 2 ^ b := Nat.le_mul_of_pos_left _ hden
      omega
    have hreach : k * unit * den ≤ num * unit := by
      rw [Nat.mul_right_comm]
      exact Nat.mul_le_mul_right unit (Nat.not_lt.1 hge)
    have hle := le_quotient hden (spacing_dvd hb hk) hreach
    omega
  · intro h
    have hmargin : num * unit + unit ≤ k * unit * den := by
      rw [← Nat.succ_mul, Nat.mul_right_comm]
      exact Nat.mul_le_mul_right unit h
    have hexact : num * unit / den * den ≤ num * unit := Nat.div_mul_le_self _ _
    have hbelow : num * unit / den < k * unit := by
      rw [Nat.div_lt_iff_lt_mul hden]
      have hpos := unit_pos
      omega
    have hspacing := mul_spacing_lt hbelow hk hprecise
    have hround := quotient_le num den
    apply Nat.lt_of_le_of_lt hround
    apply Nat.lt_of_mul_lt_mul_right (a := den)
    rw [Nat.add_mul, Nat.mul_comm (spacing _)]
    omega

end ViewDoc.Binary64
