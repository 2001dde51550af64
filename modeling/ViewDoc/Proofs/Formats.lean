import ViewDoc.Format
import ViewDoc.Proofs.Results

/-!
When a format cannot be applied: a number has too many digits to be read or written, or a time
leaves the calendar on the way to local clocks or on the way back from now.
-/

namespace ViewDoc

open Calendar

/-- The offset of a time, or the zone, takes it out of the calendar. -/
def DateTime.IsOutside (zone : Int) (t : DateTime) : Prop :=
  ∃ offset, t.offset = some offset ∧
    (t.clock.micros - offset < 0 ∨ microCount ≤ t.clock.micros - offset ∨
      t.clock.micros - offset + zone < 0 ∨ microCount ≤ t.clock.micros - offset + zone)

theorem LocalTime.ofMicros?_eq_none_iff {n : Int} :
    LocalTime.ofMicros? n = none ↔ n < 0 ∨ microCount ≤ n := by
  rw [LocalTime.ofMicros?]
  split
  · rename_i h
    simp only [reduceCtorEq, false_iff]
    omega
  · rename_i h
    simp only [true_iff]
    omega

theorem LocalTime.micros_of_ofMicros? {n : Int} {t : LocalTime}
    (h : LocalTime.ofMicros? n = some t) : (t.micros : Int) = n := by
  rw [LocalTime.ofMicros?] at h
  split at h
  · rename_i hn
    obtain rfl := Option.some.inj h
    exact Int.toNat_of_nonneg hn.1
  · cases h

theorem DateTime.toLocal?_eq_none_iff {zone : Int} {t : DateTime} :
    t.toLocal? zone = none ↔ t.IsOutside zone := by
  unfold DateTime.toLocal? DateTime.IsOutside
  cases ho : t.offset with
  | none => simp
  | some offset =>
    simp only [Option.some.injEq, exists_eq_left', LocalTime.shift?]
    cases hu : LocalTime.ofMicros? (t.clock.micros + -offset) with
    | none =>
      have h := LocalTime.ofMicros?_eq_none_iff.1 hu
      simp only [Option.bind_none, true_iff]
      omega
    | some u =>
      have hm := LocalTime.micros_of_ofMicros? hu
      have h := (not_congr LocalTime.ofMicros?_eq_none_iff).1 (Option.ne_none_iff_exists'.2 ⟨u, hu⟩)
      rw [Option.bind_some, LocalTime.ofMicros?_eq_none_iff]
      omega

namespace Moment

theorem toLocal_eq_error_iff {zone : Int} {t : DateTime} {f : Failure} :
    toLocal zone t = .error f ↔ f = .outsideCalendar ∧ t.IsOutside zone := by
  rw [toLocal, ← DateTime.toLocal?_eq_none_iff]
  cases t.toLocal? zone with
  | none => simp [eq_comm]
  | some l => simp

/-- The date and time that a value is or spells. -/
def spelled? : Value → Option DateTime
  | .dateTime t => some t
  | .text s | .markup s => Iso.dateTime? (Text.strip s.toList)
  | _ => none

/-- A value that spells a time outside the calendar. -/
def IsOutside (zone : Int) (v : Value) : Prop := ∃ t, spelled? v = some t ∧ t.IsOutside zone

theorem read_eq_error_iff {zone : Int} {v : Value} {f : Failure} :
    read zone v = .error f ↔ f = .outsideCalendar ∧ IsOutside zone v := by
  have htext (s : String) : read zone (.text s) = .error f ↔ f = .outsideCalendar ∧
      ∃ t, Iso.dateTime? (Text.strip s.toList) = some t ∧ t.IsOutside zone := by
    cases hs : Iso.dateTime? (Text.strip s.toList) with
    | none => simp [read, hs]
    | some t => simp [read, hs, map_eq_error_iff, toLocal_eq_error_iff]
  rw [IsOutside]
  cases v with
  | dateTime t => simp [read, spelled?, map_eq_error_iff, toLocal_eq_error_iff]
  | text s => exact htext s
  | markup s => exact htext s
  | _ => simp [read, spelled?]

/-- A value that stands for a time, be it one outside the calendar. -/
def IsTime (zone : Int) (v : Value) : Prop := read zone v ≠ .ok none

end Moment

theorem sub_mod_lt_mul_iff (m n : Nat) {d : Nat} (hd : 0 < d) : m - m % d < d * n ↔ m < d * n := by
  have hm : m - m % d = m / d * d := by
    have := Nat.div_add_mod' m d
    omega
  rw [hm, Nat.mul_comm d n, Nat.mul_lt_mul_right hd, Nat.div_lt_iff_lt_mul hd]

namespace Clock

theorem midnightBefore_eq_error_iff {t : LocalTime} {days : Nat} {f : Failure} :
    midnightBefore t days = .error f ↔ f = .outsideCalendar ∧ t.micros < dayLength * days := by
  have hday : t.startOfDay.micros < dayLength * days ↔ t.micros < dayLength * days :=
    sub_mod_lt_mul_iff t.micros days (by decide)
  have hrange := t.startOfDay.inRange
  rw [midnightBefore]
  split
  · rename_i m hm
    have h := (not_congr LocalTime.ofMicros?_eq_none_iff).1 (Option.ne_none_iff_exists'.2 ⟨m, hm⟩)
    simp only [reduceCtorEq, false_iff, not_and, ← hday]
    omega
  · rename_i hm
    have h := LocalTime.ofMicros?_eq_none_iff.1 hm
    rw [Except.error.injEq, ← hday]
    constructor
    · intro heq
      subst heq
      exact ⟨rfl, by omega⟩
    · exact fun h => h.1.symm

theorem phrase_eq_error_iff {twentyFour : Bool} {now t : LocalTime} {f : Failure} :
    phrase twentyFour now t = .error f ↔ f = .outsideCalendar ∧ now.micros < dayLength * 7 := by
  have hweek : midnightBefore now 7 = .error f ↔ f = .outsideCalendar ∧
      now.micros < dayLength * 7 := midnightBefore_eq_error_iff
  rw [← hweek]
  rw [phrase]
  cases h1 : midnightBefore now 1 with
  | error g =>
    obtain ⟨rfl, h⟩ := midnightBefore_eq_error_iff.1 h1
    have h7 : midnightBefore now 7 = .error .outsideCalendar :=
      midnightBefore_eq_error_iff.2 ⟨rfl, by omega⟩
    simp [bind, h7]
  | ok yesterday =>
    cases h7 : midnightBefore now 7 with
    | error g => simp [bind]
    | ok week =>
      simp only [bind, ok_bind, reduceCtorEq, iff_false]
      intro h
      split at h
      · cases h
      split at h
      · cases h
      split at h
      · cases h
      · cases h

/-- Now cannot be told from a week before: it lies outside the calendar, or in its first week. -/
def IsEarly (c : Clock) : Prop :=
  c.now.IsOutside c.zone ∨ ∃ now, c.now.toLocal? c.zone = some now ∧ now.micros < dayLength * 7

theorem toLocal_eq_ok_iff {zone : Int} {t : DateTime} {l : LocalTime} :
    Moment.toLocal zone t = .ok l ↔ t.toLocal? zone = some l := by
  rw [Moment.toLocal]
  cases t.toLocal? zone <;> simp

theorem result_unparsed (v : Value) : (unparsed v).result = .ok v := rfl

theorem result_display_eq_error_iff {c : Clock} {v : Value} {f : Failure} :
    (c.display v).result = .error f ↔ f = .outsideCalendar ∧ v.truthy = true ∧
      Moment.IsTime c.zone v ∧ (Moment.IsOutside c.zone v ∨ c.IsEarly) := by
  unfold display Moment.IsTime
  cases ht : v.truthy with
  | false => simp
  | true =>
    simp only [Bool.not_true, Bool.false_eq_true, if_false, Outcome.result_bind,
      Outcome.result_liftM, true_and]
    cases hr : Moment.read c.zone v with
    | error g =>
      obtain ⟨rfl, h⟩ := Moment.read_eq_error_iff.1 hr
      simp [h, eq_comm]
    | ok out =>
      have ho : ¬ Moment.IsOutside c.zone v := by
        intro h
        rw [Moment.read_eq_error_iff.2 ⟨rfl, h⟩] at hr
        cases hr
      cases out with
      | none => simp [result_unparsed]
      | some t =>
        simp only [ok_bind, Outcome.result_bind, Outcome.result_liftM, Outcome.result_pure,
          bind_eq_error_iff, Moment.toLocal_eq_error_iff, toLocal_eq_ok_iff,
          phrase_eq_error_iff, IsEarly, ho, false_or, ne_eq, Except.ok.injEq, reduceCtorEq,
          not_false_eq_true, true_and, and_false, exists_false, or_false]
        constructor
        · intro h
          rcases h with ⟨hf, h⟩ | ⟨now, hn, hf, h⟩
          · exact ⟨hf, .inl h⟩
          · exact ⟨hf, .inr ⟨now, hn, h⟩⟩
        · intro h
          obtain ⟨hf, h | ⟨now, hn, h⟩⟩ := h
          · exact .inl ⟨hf, h⟩
          · exact .inr ⟨now, hn, hf, h⟩

end Clock

theorem Ago.result_display_eq_error_iff {c : Clock} {v : Value} {f : Failure} :
    (Ago.display c v).result = .error f ↔ f = .outsideCalendar ∧
      Moment.IsTime c.zone v ∧ (Moment.IsOutside c.zone v ∨ c.now.IsOutside c.zone) := by
  unfold Ago.display Moment.IsTime
  simp only [Outcome.result_bind, Outcome.result_liftM]
  cases hr : Moment.read c.zone v with
  | error g =>
    obtain ⟨rfl, h⟩ := Moment.read_eq_error_iff.1 hr
    simp [h, eq_comm]
  | ok out =>
    have ho : ¬ Moment.IsOutside c.zone v := by
      intro h
      rw [Moment.read_eq_error_iff.2 ⟨rfl, h⟩] at hr
      cases hr
    cases out with
    | none => simp [Clock.result_unparsed]
    | some t => simp [bind_eq_error_iff, Moment.toLocal_eq_error_iff, ho]

namespace Format

/-- The ways in which a format cannot be applied to a text or number. -/
inductive Breaks (c : Clock) : FormatKind → Value → Failure → Prop
  | digits {v : Value} {s : String} {start : Text.NumberStart} : v.text? = some s →
      Text.numberStart? s.toList = some start → Text.digitLimit < start.digits.length →
      Breaks c .toInt v .tooManyDigits
  | number {n : Int} : Text.isWritable n = false → Breaks c .toText (.int n) .tooManyDigits
  | time {v : Value} : v.truthy = true → Moment.IsTime c.zone v →
      Moment.IsOutside c.zone v ∨ c.IsEarly → Breaks c .time v .outsideCalendar
  | ago {v : Value} : Moment.IsTime c.zone v →
      Moment.IsOutside c.zone v ∨ c.now.IsOutside c.zone → Breaks c .timeAgo v .outsideCalendar

theorem isShowable_eq_false_iff {v : Value} (h : v.isTextOrNumber = true) :
    v.isShowable = false ↔ ∃ n, v = .int n ∧ Text.isWritable n = false := by
  cases v with
  | int n => simp [Value.isShowable, Value.isQuotable]
  | float x => simp [Value.isShowable, Value.isQuotable]
  | text s => simp [Value.isShowable, Value.isQuotable]
  | markup s => simp [Value.isShowable, Value.isQuotable]
  | _ => cases h

theorem readInt_eq_error_iff {s : String} {f : Failure} :
    readInt s = .error f ↔ f = .tooManyDigits ∧ ∃ start,
      Text.numberStart? s.toList = some start ∧ Text.digitLimit < start.digits.length := by
  rw [readInt]
  cases Text.numberStart? s.toList with
  | none => simp
  | some start =>
    simp only [Option.some.injEq, exists_eq_left', ← Nat.not_le]
    split
    · rename_i h
      simp [h]
    · rename_i h
      simp [h, eq_comm]

theorem toInt_eq_error_iff {v : Value} (hv : v.isTextOrNumber = true) {f : Failure} :
    toInt v = .error f ↔ f = .tooManyDigits ∧ ∃ s start, v.text? = some s ∧
      Text.numberStart? s.toList = some start ∧ Text.digitLimit < start.digits.length := by
  cases v with
  | int n => simp [toInt, Value.text?]
  | float x => simp [toInt, Value.text?]
  | text s =>
    have h : toInt (.text s) = readInt s := rfl
    simp [h, readInt_eq_error_iff, Value.text?]
  | markup s =>
    have h : toInt (.markup s) = readInt s := rfl
    simp [h, readInt_eq_error_iff, Value.text?]
  | _ => cases hv

theorem result_applyKind_eq_error_iff {c : Clock} {kind : FormatKind} {v : Value}
    (hv : v.isTextOrNumber = true) {f : Failure} :
    (applyKind c kind v).result = .error f ↔ Breaks c kind v f := by
  cases kind with
  | time =>
    rw [applyKind, Clock.result_display_eq_error_iff]
    constructor
    · intro h
      obtain ⟨rfl, ht, hm, h⟩ := h
      exact .time ht hm h
    · intro h
      cases h with
      | time ht hm h => exact ⟨rfl, ht, hm, h⟩
  | timeAgo =>
    rw [applyKind, Ago.result_display_eq_error_iff]
    constructor
    · intro h
      obtain ⟨rfl, hm, h⟩ := h
      exact .ago hm h
    · intro h
      cases h with
      | ago hm h => exact ⟨rfl, hm, h⟩
  | toInt =>
    have h : (applyKind c .toInt v).result = .error f ↔ toInt v = .error f := by
      simp [applyKind, bind_eq_error_iff]
    rw [h, toInt_eq_error_iff hv]
    constructor
    · intro h
      obtain ⟨rfl, s, start, hs, hn, hd⟩ := h
      exact .digits hs hn hd
    · intro h
      cases h with
      | digits hs hn hd => exact ⟨rfl, _, _, hs, hn, hd⟩
  | toText =>
    have h : (applyKind c .toText v).result = .error f ↔ v.show? = .error f := by
      simp [applyKind, bind_eq_error_iff]
    rw [h, Value.show?_eq_error_iff, isShowable_eq_false_iff hv]
    constructor
    · intro h
      obtain ⟨rfl, n, rfl, hn⟩ := h
      exact .number hn
    · intro h
      cases h with
      | number hn => exact ⟨rfl, _, rfl, hn⟩

theorem result_apply_eq_error_iff {c : Clock} {kind v : Value} (hv : v.isTextOrNumber = true)
    {f : Failure} : (apply c kind v).result = .error f ↔
      ∃ k, kind.text?.bind FormatKind.ofName? = some k ∧ Breaks c k v f := by
  rw [apply]
  split
  · rename_i k hk
    simp [hk, result_applyKind_eq_error_iff hv]
  · rename_i hk
    simp only [hk, reduceCtorEq, false_and, exists_false, iff_false]
    cases kind.truthy <;> simp [Outcome.log]

end Format
end ViewDoc
