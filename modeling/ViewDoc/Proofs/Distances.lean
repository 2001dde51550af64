import ViewDoc.Proofs.Formats
import ViewDoc.Proofs.Quotients

/-!
Distances from now in words.

Each unit has its range of counts: a unit is left for the next one as soon as the distance makes one
of it, and the rounding of the quotients never takes it below one again. What is less than ten
seconds away is a moment, and times as far before now as after it read alike.
-/

namespace ViewDoc

open Calendar

namespace Ago

/-- The counts of a unit; the largest one counts without end. -/
structure UnitRange where
  name : String
  least : Nat
  most : Option Nat

def unitRanges : List UnitRange :=
  [⟨"second", 10, some 59⟩, ⟨"minute", 1, some 59⟩, ⟨"hour", 1, some 23⟩, ⟨"day", 1, some 6⟩,
    ⟨"week", 1, some 4⟩, ⟨"month", 1, some 11⟩, ⟨"year", 1, none⟩]

/-- A count in the range of its unit, in words. -/
def IsCount (words : String) : Prop :=
  ∃ range ∈ unitRanges, ∃ count : Nat, range.least ≤ count ∧ (∀ most ∈ range.most, count ≤ most) ∧
    words = Text.whole count ++ " " ++ range.name ++ (if count = 1 then "" else "s")

/-! ### Going to larger units -/

theorem descend_of_lt {unit distance factor : Nat} (h : distance < factor) (rest : List Nat) :
    descend unit distance (factor :: rest) = (unit, distance) := by
  rw [descend, if_neg (Nat.not_le.2 h)]

/-- Where the descent ends: the next factor is not reached, and any step on the way left at least
one of the unit it went to. -/
theorem exists_steps_of_descend {factors : List Nat} (hpos : ∀ f ∈ factors, 0 < f)
    {unit distance u d : Nat} (h : descend unit distance factors = (u, d)) :
    ∃ steps, u = unit + steps ∧ steps ≤ factors.length ∧ (∀ f, factors[steps]? = some f → d < f) ∧
      (steps = 0 ∧ d = distance ∨ 0 < steps ∧ Binary64.unit ≤ d) := by
  induction factors generalizing unit distance with
  | nil =>
    obtain ⟨rfl, rfl⟩ := Prod.mk.inj h
    refine ⟨0, rfl, Nat.le_refl 0, ?_, .inl ⟨rfl, rfl⟩⟩
    intro f hf
    cases hf
  | cons factor rest ih =>
    by_cases hreach : factor ≤ distance
    · rw [descend, if_pos hreach] at h
      obtain ⟨steps, hu, hsteps, hstop, hd⟩ := ih (fun f hf => hpos f (List.mem_cons_of_mem _ hf)) h
      have hone : Binary64.unit ≤ Binary64.quotient distance factor :=
        Binary64.unit_le_quotient (hpos factor List.mem_cons_self) hreach
      refine ⟨steps + 1, by omega, Nat.succ_le_succ hsteps, fun f hf => hstop f hf, .inr ?_⟩
      refine ⟨Nat.succ_pos steps, ?_⟩
      rcases hd with ⟨-, rfl⟩ | ⟨-, hd⟩
      · exact hone
      · exact hd
    · have hlt := Nat.lt_of_not_le hreach
      rw [descend_of_lt hlt] at h
      obtain ⟨rfl, rfl⟩ := Prod.mk.inj h
      refine ⟨0, rfl, Nat.zero_le _, ?_, .inl ⟨rfl, rfl⟩⟩
      intro f hf
      obtain rfl := Option.some.inj hf
      exact hlt

theorem factors_pos : ∀ f ∈ factors, 0 < f := by decide +kernel

/-- A unit that counts up to some number has a factor; less than it makes no more of the unit. -/
theorem exists_factor {i most : Nat} {range : UnitRange} (hrange : unitRanges[i]? = some range)
    (hmost : range.most = some most) :
    ∃ f, factors[i]? = some f ∧ f ≤ (most + 1) * Binary64.unit := by
  have hends : i < factors.length := by
    by_contra hlast
    have hdrop : (unitRanges.drop factors.length)[i - factors.length]? = some range := by
      rw [List.getElem?_drop, Nat.add_sub_cancel' (Nat.not_lt.1 hlast), hrange]
    have hall : ∀ range ∈ unitRanges.drop factors.length, range.most = none := by decide
    rw [hall range (List.mem_of_getElem? hdrop)] at hmost
    cases hmost
  have hall : ∀ p ∈ factors.zip unitRanges, p.1 ≤ (p.2.most.getD 0 + 1) * Binary64.unit := by
    decide +kernel
  have hf : factors[i]? = some factors[i] := List.getElem?_eq_getElem hends
  have hmem : (factors[i], range) ∈ factors.zip unitRanges :=
    List.mem_of_getElem? (List.getElem?_zip_eq_some.2 ⟨hf, hrange⟩)
  have hle := hall _ hmem
  rw [hmost] at hle
  exact ⟨factors[i], hf, hle⟩

theorem name_of_unitRanges {i : Nat} {range : UnitRange} (h : unitRanges[i]? = some range) :
    unitNames.getD i "" = range.name := by
  have hnames : unitNames = unitRanges.map (·.name) := rfl
  rw [hnames, List.getD_eq_getElem?_getD, List.getElem?_map, h]
  rfl

theorem least_of_unitRanges {i : Nat} {range : UnitRange} (h : unitRanges[i]? = some range) :
    range.least = if i = 0 then 10 else 1 := by
  cases i with
  | zero =>
    obtain rfl := Option.some.inj h
    rfl
  | succ i =>
    have hall : ∀ range ∈ unitRanges.tail, range.least = 1 := by decide
    exact hall range (List.mem_of_getElem? h)

/-! ### Seconds -/

/-- Rounding leaves microseconds on their side of a small number of seconds. -/
theorem seconds_lt_iff {k micros : Nat} (hk : k ≤ 64) :
    Binary64.quotient micros second < k * Binary64.unit ↔ micros < k * second :=
  Binary64.quotient_lt_iff (b := 6) (by decide) hk (by decide)

theorem factors_eq : ∃ rest, factors = 60 * Binary64.unit :: rest := by
  have hhead : factors.head? = some (60 * Binary64.unit) := by decide +kernel
  exact ⟨factors.tail, (List.eq_cons_of_mem_head? hhead)⟩

theorem ofMicros_of_descend {micros u d : Nat}
    (h : descend 0 (Binary64.quotient micros second) factors = (u, d)) :
    Span.ofMicros micros = ⟨d / Binary64.unit, u⟩ := by rw [Span.ofMicros, h]

/-- Below a minute whole seconds are counted. -/
theorem ofMicros_of_lt {micros : Nat} (h : micros < 60 * second) :
    Span.ofMicros micros = ⟨micros / second, 0⟩ := by
  obtain ⟨rest, hfactors⟩ := factors_eq
  have hstop := (seconds_lt_iff (by decide : 60 ≤ 64)).2 h
  have hcount : Binary64.quotient micros second / Binary64.unit = micros / second := by
    have hsmall : micros / second < 60 := Nat.div_lt_of_lt_mul (by rwa [Nat.mul_comm])
    have hlow : ¬ micros < micros / second * second :=
      Nat.not_lt.2 (Nat.div_mul_le_self micros second)
    have hhigh : micros < (micros / second + 1) * second := by
      have hmod := Nat.mod_lt micros (show 0 < second by decide)
      have hdiv := Nat.div_add_mod' micros second
      rw [Nat.succ_mul]
      omega
    rw [← seconds_lt_iff (by omega)] at hlow hhigh
    have hle := (Nat.le_div_iff_mul_le Binary64.unit_pos).2 (Nat.not_lt.1 hlow)
    have hlt := (Nat.div_lt_iff_lt_mul Binary64.unit_pos).2 hhigh
    omega
  rw [← hcount]
  apply ofMicros_of_descend
  rw [hfactors, descend_of_lt hstop]

/-! ### Counts -/

theorem isMoment_of_lt {micros : Nat} (h : micros < 10 * second) :
    (Span.ofMicros micros).isMoment = true := by
  have hminute : micros < 60 * second :=
    Nat.lt_of_lt_of_le h (Nat.mul_le_mul_right second (by decide))
  have hcount : micros / second < 10 := Nat.div_lt_of_lt_mul (by rwa [Nat.mul_comm])
  rw [ofMicros_of_lt hminute, Span.isMoment, decide_eq_true_eq]
  exact ⟨rfl, Nat.le_of_lt_succ hcount⟩

/-- What is told has a count in the range of its unit, from ten seconds on. -/
theorem exists_range_of_le {micros : Nat} (h : 10 * second ≤ micros) :
    ∃ range, unitRanges[(Span.ofMicros micros).unit]? = some range ∧
      range.least ≤ (Span.ofMicros micros).count ∧
      ∀ most ∈ range.most, (Span.ofMicros micros).count ≤ most := by
  cases hd : descend 0 (Binary64.quotient micros second) factors with
  | mk u d =>
  obtain ⟨steps, hu, hsteps, hstop, hreached⟩ := exists_steps_of_descend factors_pos hd
  obtain rfl : u = steps := by omega
  obtain ⟨range, hrange⟩ : ∃ range, unitRanges[u]? = some range :=
    ⟨_, List.getElem?_eq_getElem (Nat.lt_of_le_of_lt hsteps (by decide))⟩
  rw [ofMicros_of_descend hd]
  refine ⟨range, hrange, ?_, ?_⟩
  · rw [least_of_unitRanges hrange, Nat.le_div_iff_mul_le Binary64.unit_pos]
    rcases hreached with ⟨rfl, rfl⟩ | ⟨hpos, hone⟩
    · rw [if_pos rfl, ← Nat.not_lt, seconds_lt_iff (by decide)]
      exact Nat.not_lt.2 h
    · rw [if_neg (Nat.ne_of_gt hpos), Nat.one_mul]
      exact hone
  · intro most hm
    obtain ⟨f, hf, hle⟩ := exists_factor hrange hm
    have hlt := Nat.lt_of_lt_of_le (hstop f hf) hle
    exact Nat.le_of_lt_succ ((Nat.div_lt_iff_lt_mul Binary64.unit_pos).2 hlt)

theorem isMoment_eq_false_of_le {micros : Nat} (h : 10 * second ≤ micros) :
    (Span.ofMicros micros).isMoment = false := by
  obtain ⟨range, hrange, hleast, -⟩ := exists_range_of_le h
  rw [Span.isMoment, decide_eq_false_iff_not]
  rintro ⟨hseconds, hfew⟩
  rw [least_of_unitRanges hrange, if_pos hseconds] at hleast
  omega

theorem isCount_of_le {micros : Nat} (h : 10 * second ≤ micros) :
    IsCount (Span.ofMicros micros).text := by
  obtain ⟨range, hrange, hleast, hmost⟩ := exists_range_of_le h
  have hpos : 1 ≤ range.least := by
    rw [least_of_unitRanges hrange]
    split <;> decide
  have hplural : ∀ count, 1 ≤ count →
      (if 1 < count then "s" else "") = if count = 1 then "" else "s" := by
    intro count hcount
    by_cases hone : count = 1
    · rw [if_pos hone, if_neg (by omega)]
    · rw [if_neg hone, if_pos (by omega)]
  refine ⟨range, List.mem_of_getElem? hrange, _, hleast, hmost, ?_⟩
  rw [Span.text, name_of_unitRanges hrange, hplural _ (Nat.le_trans hpos hleast)]

/-! ### Phrases -/

/-- The microseconds between two times. -/
def distance (now t : LocalTime) : Nat := ((now.micros : Int) - t.micros).natAbs

theorem phrase_of_lt {now t : LocalTime} (h : distance now t < 10 * second) :
    phrase now t = if now.micros < t.micros then "right now" else "just now" := by
  have hmoment : (Span.ofMicros ((now.micros : Int) - t.micros).natAbs).isMoment = true :=
    isMoment_of_lt h
  simp only [phrase, hmoment, if_true]

theorem phrase_of_le {now t : LocalTime} (h : 10 * second ≤ distance now t) :
    phrase now t = if now.micros < t.micros then "in " ++ (Span.ofMicros (distance now t)).text
      else (Span.ofMicros (distance now t)).text ++ " ago" := by
  have hmoment : (Span.ofMicros ((now.micros : Int) - t.micros).natAbs).isMoment = false :=
    isMoment_eq_false_of_le h
  simp only [phrase, hmoment, Bool.false_eq_true, if_false, distance]

theorem text_of_lt {micros : Nat} (hten : 10 * second ≤ micros) (hminute : micros < 60 * second) :
    (Span.ofMicros micros).text = Text.whole (micros / second : Nat) ++ " seconds" := by
  have hcount : 10 ≤ micros / second := (Nat.le_div_iff_mul_le (by decide)).2 hten
  have hname : unitNames.getD 0 "" = "second" := rfl
  rw [ofMicros_of_lt hminute, Span.text, hname, if_pos (by change 1 < micros / second; omega),
    String.append_assoc, String.append_assoc]
  rfl

/-- Only a moment reads as one. -/
theorem phrase_eq_moment_iff {now t : LocalTime} :
    phrase now t = "just now" ∨ phrase now t = "right now" ↔ distance now t < 10 * second := by
  constructor
  · intro h
    by_contra hfar
    rw [phrase_of_le (Nat.not_lt.1 hfar)] at h
    generalize (Span.ofMicros (distance now t)).text = words at h
    split at h
    · have hhead : ("in " ++ words).toList.head? = some 'i' := by
        rw [String.toList_append]
        rfl
      rcases h with h | h
      · rw [h] at hhead
        cases hhead
      · rw [h] at hhead
        cases hhead
    · have hlast : (words ++ " ago").toList.getLast? = some 'o' := by
        rw [String.toList_append, List.getLast?_append_of_ne_nil _ (by decide)]
        rfl
      rcases h with h | h
      · rw [h] at hlast
        cases hlast
      · rw [h] at hlast
        cases hlast
  · intro h
    rw [phrase_of_lt h]
    split
    · exact .inr rfl
    · exact .inl rfl

variable {c : Clock}

theorem display_of_read {v : Value} {t now : LocalTime}
    (ht : Moment.read c.zone v = .ok (some t)) (hnow : c.now.toLocal? c.zone = some now) :
    (display c v).result = .ok (.text (phrase now t)) := by
  have hlocal : Moment.toLocal c.zone c.now = .ok now := Clock.toLocal_eq_ok_iff.2 hnow
  simp only [display, Outcome.result_bind, Outcome.result_liftM, ht, ok_bind, hlocal]
  rfl

/-- Times as far before now as after it are told in the same words. -/
theorem display_mirrored {now before after : LocalTime} {d : Nat} {v w : Value}
    (hnow : c.now.toLocal? c.zone = some now) (hd : 0 < d)
    (hbefore : before.micros + d = now.micros) (hafter : after.micros = now.micros + d)
    (hv : Moment.read c.zone v = .ok (some before))
    (hw : Moment.read c.zone w = .ok (some after)) :
    if d < 10 * second then
      (display c v).result = .ok (.text "just now") ∧ (display c w).result = .ok (.text "right now")
    else
      (display c v).result = .ok (.text ((Span.ofMicros d).text ++ " ago")) ∧
        (display c w).result = .ok (.text ("in " ++ (Span.ofMicros d).text)) := by
  have hback : distance now before = d := by
    rw [distance]
    omega
  have hahead : distance now after = d := by
    rw [distance]
    omega
  have hpast : ¬ now.micros < before.micros := by omega
  have hfuture : now.micros < after.micros := by omega
  rw [display_of_read hv hnow, display_of_read hw hnow]
  split
  · rename_i hnear
    rw [phrase_of_lt (by omega), phrase_of_lt (by omega), if_neg hpast, if_pos hfuture]
    exact ⟨rfl, rfl⟩
  · rw [phrase_of_le (by omega), phrase_of_le (by omega), if_neg hpast, if_pos hfuture, hback,
      hahead]
    exact ⟨rfl, rfl⟩

/-- A time is told as a moment when it is less than ten seconds away, and else as a count in the
range of its unit, which is the same as far before now as after it; nothing is told when a time lies
outside the calendar on universal or local clocks. -/
theorem display_distance (c : Clock) :
    (∀ v, Moment.IsTime c.zone v → ∀ f, (display c v).result = .error f ↔
      f = .outsideCalendar ∧ (Moment.IsOutside c.zone v ∨ c.now.IsOutside c.zone)) ∧
    ∀ now, c.now.toLocal? c.zone = some now →
      (∀ v t, Moment.read c.zone v = .ok (some t) → ∃ s, (display c v).result = .ok (.text s) ∧
        (s = "just now" ∨ s = "right now" ↔ distance now t < 10 * second) ∧
        (10 * second ≤ distance now t → ∃ words, IsCount words ∧
          (s = if now.micros < t.micros then "in " ++ words else words ++ " ago") ∧
          (distance now t < 60 * second →
            words = Text.whole (distance now t / second : Nat) ++ " seconds"))) ∧
      ∀ (before after : LocalTime) d, 0 < d → before.micros + d = now.micros →
        after.micros = now.micros + d → ∃ words, (10 * second ≤ d → IsCount words) ∧
        ∀ v w, Moment.read c.zone v = .ok (some before) → Moment.read c.zone w = .ok (some after) →
          if d < 10 * second then
            (display c v).result = .ok (.text "just now") ∧
              (display c w).result = .ok (.text "right now")
          else
            (display c v).result = .ok (.text (words ++ " ago")) ∧
              (display c w).result = .ok (.text ("in " ++ words)) := by
  refine ⟨?_, fun now hnow => ⟨?_, ?_⟩⟩
  · intro v htime f
    rw [result_display_eq_error_iff]
    exact and_congr_right fun _ => and_iff_right htime
  · intro v t ht
    refine ⟨phrase now t, display_of_read ht hnow, phrase_eq_moment_iff, ?_⟩
    intro hfar
    exact ⟨_, isCount_of_le hfar, phrase_of_le hfar, text_of_lt hfar⟩
  · intro before after d hd hbefore hafter
    refine ⟨(Span.ofMicros d).text, isCount_of_le, ?_⟩
    exact fun v w hv hw => display_mirrored hnow hd hbefore hafter hv hw

/-- Thirty days are four weeks, back and ahead, and not yet a month. -/
theorem display_distance_weeks :
    let now : LocalTime := ⟨738959 * dayLength + 14 * hour, by decide⟩
    let before : LocalTime := ⟨738929 * dayLength + 14 * hour, by decide⟩
    let after : LocalTime := ⟨738989 * dayLength + 14 * hour, by decide⟩
    let c : Clock := ⟨2 * hour, ⟨⟨738959 * dayLength + 12 * hour, by decide⟩, some 0⟩, false⟩
    let v : Value := .dateTime ⟨before, none⟩
    let w : Value := .dateTime ⟨after, none⟩
    c.now.toLocal? c.zone = some now ∧ Moment.IsTime c.zone v ∧
      Moment.read c.zone v = .ok (some before) ∧ Moment.read c.zone w = .ok (some after) ∧
      before.micros + 30 * dayLength = now.micros ∧ after.micros = now.micros + 30 * dayLength ∧
      (∀ f, (display c v).result ≠ .error f) ∧
      (display c v).result = .ok (.text "4 weeks ago") ∧
      (display c w).result = .ok (.text "in 4 weeks") ∧ IsCount "4 weeks" := by
  intro now before after c v w
  have hnow : c.now.toLocal? c.zone = some now := by decide +kernel
  have htime : Moment.IsTime c.zone v := by
    intro h
    cases h
  have hpast : phrase now before = "4 weeks ago" := by decide +kernel
  have htold : (display c v).result = .ok (.text "4 weeks ago") := by
    rw [display_of_read rfl hnow, hpast]
  obtain ⟨-, hall⟩ := display_distance c
  obtain ⟨-, hmirror⟩ := hall now hnow
  obtain ⟨words, hcount, hboth⟩ := hmirror before after (30 * dayLength) (by decide) (by decide)
    (by decide)
  have hfar : ¬ 30 * dayLength < 10 * second := by decide
  have hback := hboth v w rfl rfl
  rw [if_neg hfar, htold] at hback
  have hwords : words = "4 weeks" := by
    have h := Value.text.inj (Except.ok.inj hback.1)
    exact (String.append_left_inj " ago").1 (h.symm.trans (by decide))
  rw [hwords] at hcount hback
  refine ⟨hnow, htime, rfl, rfl, by decide, by decide, ?_, htold, hback.2, ?_⟩
  · intro f hf
    rw [htold] at hf
    cases hf
  · exact hcount (Nat.not_lt.1 hfar)

/-- A time that is at this very moment is told by no words if universal clocks read a time before
the calendar. -/
theorem display_before_calendar :
    let t : DateTime := ⟨.first, some (5 * hour)⟩
    let c : Clock := ⟨0, t, false⟩
    Moment.IsTime c.zone (.dateTime t) ∧
      (display c (.dateTime t)).result = .error .outsideCalendar := by
  intro t c
  have houtside : t.IsOutside c.zone := ⟨5 * hour, rfl, .inl (by decide)⟩
  have hread : Moment.read c.zone (.dateTime t) = .error .outsideCalendar :=
    Moment.read_eq_error_iff.2 ⟨rfl, t, rfl, houtside⟩
  have htime : Moment.IsTime c.zone (.dateTime t) := by
    intro h
    rw [hread] at h
    cases h
  exact ⟨htime, result_display_eq_error_iff.2 ⟨rfl, htime, .inr houtside⟩⟩

end Ago
end ViewDoc
