import ViewDoc.Proofs.Distances

/-!
Times with an offset are told by the instant they mean.

Both the value and now are taken to local clocks, and what they read there is their instant ahead by
the zone. So two ways of writing an instant are told alike; and the distance between two instants is
the same on all clocks.
-/

namespace ViewDoc

open Calendar

namespace Moment

/-- The instant that a value with an offset means, in microseconds of universal time. -/
def instant? (v : Value) : Option Int := (spelled? v).bind DateTime.instant?

/-- The local time at an instant; fails when universal or local clocks leave the calendar. -/
def atInstant (zone i : Int) : Except Failure LocalTime :=
  match (LocalTime.ofMicros? i).bind (·.shift? zone) with
  | some t => .ok t
  | none => .error .outsideCalendar

theorem toLocal_of_instant {t : DateTime} {i : Int} (h : t.instant? = some i) (zone : Int) :
    toLocal zone t = atInstant zone i := by
  rw [DateTime.instant?, Option.map_eq_some_iff] at h
  obtain ⟨offset, ho, rfl⟩ := h
  have hlocal : t.toLocal? zone =
      (LocalTime.ofMicros? (t.clock.micros - offset)).bind (·.shift? zone) := by
    simp only [DateTime.toLocal?, ho, LocalTime.shift?, Int.sub_eq_add_neg]
  rw [toLocal, hlocal]
  rfl

theorem spelled?_of_instant {v : Value} {i : Int} (h : instant? v = some i) :
    ∃ t, spelled? v = some t ∧ t.instant? = some i := Option.bind_eq_some_iff.1 h

theorem read_of_spelled {v : Value} {t : DateTime} (h : spelled? v = some t) (zone : Int) :
    read zone v = (toLocal zone t).map some := by
  cases v with
  | dateTime u =>
    obtain rfl := Option.some.inj h
    rfl
  | text s =>
    rw [spelled?] at h
    rw [read, h]
  | markup s =>
    rw [spelled?] at h
    rw [read, h]
  | _ => cases h

theorem read_of_instant {v : Value} {i : Int} (h : instant? v = some i) (zone : Int) :
    read zone v = (atInstant zone i).map some := by
  obtain ⟨t, hs, ht⟩ := spelled?_of_instant h
  rw [read_of_spelled hs, toLocal_of_instant ht]

theorem truthy_of_instant {v : Value} {i : Int} (h : instant? v = some i) : v.truthy = true := by
  obtain ⟨t, hs, -⟩ := spelled?_of_instant h
  have hne {s : String} (hs : Iso.dateTime? (Text.strip s.toList) = some t) : s ≠ "" := by
    rintro rfl
    have hempty : Iso.dateTime? (Text.strip "".toList) = none := by decide
    rw [hempty] at hs
    cases hs
  cases v with
  | dateTime u => rfl
  | text s => simpa [Value.truthy] using hne hs
  | markup s => simpa [Value.truthy] using hne hs
  | _ => cases hs

/-- Local clocks read an instant ahead by their zone. -/
theorem micros_of_atInstant {zone i : Int} {t : LocalTime} (h : atInstant zone i = .ok t) :
    (t.micros : Int) = i + zone := by
  rw [atInstant] at h
  split at h
  · rename_i l hl
    obtain rfl := Except.ok.inj h
    obtain ⟨u, hu, hl⟩ := Option.bind_eq_some_iff.1 hl
    rw [LocalTime.micros_of_ofMicros? hl, LocalTime.micros_of_ofMicros? hu]
  · cases h

theorem exists_atInstant {t : DateTime} {i zone : Int} (h : t.instant? = some i)
    (hinside : ¬ t.IsOutside zone) : ∃ l, atInstant zone i = .ok l := by
  rw [← toLocal_of_instant h]
  cases hl : toLocal zone t with
  | ok l => exact ⟨l, rfl⟩
  | error f => exact absurd (toLocal_eq_error_iff.1 hl).2 hinside

end Moment

variable {c : Clock} {v : Value} {i n : Int}

theorem Clock.display_of_instant (hv : Moment.instant? v = some i)
    (hn : c.now.instant? = some n) : c.display v = (do
      let t ← Moment.atInstant c.zone i
      let now ← Moment.atInstant c.zone n
      return .text (← phrase c.twentyFour now t)) := by
  rw [display, Moment.truthy_of_instant hv, Moment.read_of_instant hv, Moment.toLocal_of_instant hn]
  cases Moment.atInstant c.zone i <;> rfl

namespace Ago

theorem display_of_instant (hv : Moment.instant? v = some i)
    (hn : c.now.instant? = some n) : display c v = (do
      let t ← Moment.atInstant c.zone i
      let now ← Moment.atInstant c.zone n
      return .text (phrase now t)) := by
  rw [display, Moment.read_of_instant hv, Moment.toLocal_of_instant hn]
  cases Moment.atInstant c.zone i <;> rfl

/-- A phrase tells how far a time is before now, and nothing else. -/
theorem phrase_congr {now t now' t' : LocalTime}
    (h : (now'.micros : Int) - t'.micros = now.micros - t.micros) :
    phrase now' t' = phrase now t := by
  have hfuture : now'.micros < t'.micros ↔ now.micros < t.micros := by omega
  simp only [phrase, h, hfuture]

/-- The zone of local clocks takes no part in the distance between two instants. -/
theorem phrase_of_instants {zone zone' : Int} {t now t' now' : LocalTime}
    (ht : Moment.atInstant zone i = .ok t) (hnow : Moment.atInstant zone n = .ok now)
    (ht' : Moment.atInstant zone' i = .ok t') (hnow' : Moment.atInstant zone' n = .ok now') :
    phrase now' t' = phrase now t := by
  have h1 := Moment.micros_of_atInstant ht
  have h2 := Moment.micros_of_atInstant hnow
  have h3 := Moment.micros_of_atInstant ht'
  have h4 := Moment.micros_of_atInstant hnow'
  apply phrase_congr
  omega

end Ago

namespace Format

/-- Times with an offset are told alike when they mean the same instant, and so is now: by the day
on the same local clocks, and as a distance on any. -/
theorem display_of_same_instants {c c' : Clock} {v v' : Value} {i n : Int}
    (hv : Moment.instant? v = some i) (hv' : Moment.instant? v' = some i)
    (hn : c.now.instant? = some n) (hn' : c'.now.instant? = some n) :
    (c'.zone = c.zone → c'.twentyFour = c.twentyFour → c'.display v' = c.display v) ∧
    (c'.zone = c.zone → Ago.display c' v' = Ago.display c v) ∧
    (¬ Moment.IsOutside c.zone v → ¬ c.now.IsOutside c.zone → ¬ Moment.IsOutside c'.zone v' →
      ¬ c'.now.IsOutside c'.zone →
      Ago.display c' v' = Ago.display c v ∧ ∃ s, (Ago.display c v).result = .ok (.text s)) := by
  refine ⟨?_, ?_, ?_⟩
  · intro hzone hclock
    rw [Clock.display_of_instant hv hn, Clock.display_of_instant hv' hn', hzone, hclock]
  · intro hzone
    rw [Ago.display_of_instant hv hn, Ago.display_of_instant hv' hn', hzone]
  · intro hin hnow hin' hnow'
    obtain ⟨u, hu, hi⟩ := Moment.spelled?_of_instant hv
    obtain ⟨u', hu', hi'⟩ := Moment.spelled?_of_instant hv'
    obtain ⟨t, ht⟩ := Moment.exists_atInstant hi fun h => hin ⟨u, hu, h⟩
    obtain ⟨t', ht'⟩ := Moment.exists_atInstant hi' fun h => hin' ⟨u', hu', h⟩
    obtain ⟨now, hl⟩ := Moment.exists_atInstant hn hnow
    obtain ⟨now', hl'⟩ := Moment.exists_atInstant hn' hnow'
    have hphrase := Ago.phrase_of_instants ht hl ht' hl'
    rw [Ago.display_of_instant hv hn, Ago.display_of_instant hv' hn', ht, hl, ht', hl']
    refine ⟨?_, Ago.phrase now t, rfl⟩
    change (pure (.text (Ago.phrase now' t')) : Outcome Value) = pure (.text (Ago.phrase now t))
    rw [hphrase]

/-- Half past eleven at night on universal clocks is half past nine in the morning ten hours ahead;
both are a time of today on clocks two hours ahead, and as long ago there as eight hours behind. -/
theorem display_of_same_instants_night :
    let night : LocalTime := ⟨738958 * dayLength + 23 * hour + 30 * minute, by decide⟩
    let noon : LocalTime := ⟨738959 * dayLength + 12 * hour, by decide⟩
    let seven : LocalTime := ⟨738959 * dayLength + 7 * hour, by decide⟩
    let v : Value := .dateTime ⟨night, some 0⟩
    let v' : Value := .text "2024-03-15T09:30:00+10:00"
    let c : Clock := ⟨2 * hour, ⟨noon, some 0⟩, false⟩
    let c' : Clock := ⟨2 * hour, ⟨seven, some (-(5 * hour : Nat))⟩, false⟩
    let behind : Clock := ⟨-(8 * hour : Nat), ⟨seven, some (-(5 * hour : Nat))⟩, false⟩
    Moment.instant? v = some night.micros ∧ Moment.instant? v' = some night.micros ∧
      c.now.instant? = some noon.micros ∧ c'.now.instant? = some noon.micros ∧
      behind.now.instant? = some noon.micros ∧ c'.display v' = c.display v ∧
      Ago.display c' v' = Ago.display c v ∧ Ago.display behind v' = Ago.display c v ∧
      (Ago.display c v).result = .ok (.text "12 hours ago") := by
  intro night noon seven v v' c c' behind
  have hv : Moment.instant? v = some night.micros := by decide +kernel
  have hv' : Moment.instant? v' = some night.micros := by decide +kernel
  have hn : c.now.instant? = some noon.micros := by decide +kernel
  have hn' : c'.now.instant? = some noon.micros := by decide +kernel
  have hin {zone : Int} {w : Value} {t : DateTime} (hs : Moment.spelled? w = some t)
      (h : t.toLocal? zone ≠ none) : ¬ Moment.IsOutside zone w := by
    rintro ⟨u, hu, hout⟩
    obtain rfl : t = u := Option.some.inj (hs.symm.trans hu)
    exact h (DateTime.toLocal?_eq_none_iff.2 hout)
  have hnow {zone : Int} {t : DateTime} (h : t.toLocal? zone ≠ none) : ¬ t.IsOutside zone :=
    fun hout => h (DateTime.toLocal?_eq_none_iff.2 hout)
  have hs' : Moment.spelled? v' =
      some ⟨⟨738959 * dayLength + 9 * hour + 30 * minute, by decide⟩, some (10 * hour)⟩ := by
    decide +kernel
  have hinside : ¬ Moment.IsOutside c.zone v := hin (t := ⟨night, some 0⟩) rfl (by decide +kernel)
  have hinside' : ¬ Moment.IsOutside behind.zone v' := hin hs' (by decide +kernel)
  have htold : (Ago.display c v).result = .ok (.text "12 hours ago") := by
    let t : LocalTime := ⟨738959 * dayLength + hour + 30 * minute, by decide⟩
    let now : LocalTime := ⟨738959 * dayLength + 14 * hour, by decide⟩
    have hlocal : (DateTime.mk night (some 0)).toLocal? c.zone = some t := by decide +kernel
    have hread : Moment.read c.zone v = .ok (some t) := by
      rw [Moment.read, Clock.toLocal_eq_ok_iff.2 hlocal, ok_map]
    have hclock : c.now.toLocal? c.zone = some now := by decide +kernel
    have hphrase : Ago.phrase now t = "12 hours ago" := by decide +kernel
    rw [Ago.display_of_read hread hclock, hphrase]
  obtain ⟨hday, hago, -⟩ := display_of_same_instants hv hv' hn hn'
  have hnb : behind.now.instant? = some noon.micros := hn'
  obtain ⟨-, -, hbehind⟩ := display_of_same_instants hv hv' hn hnb
  have hboth := hbehind hinside (hnow (by decide +kernel)) hinside' (hnow (by decide +kernel))
  exact ⟨hv, hv', hn, hn', hnb, hday rfl rfl, hago rfl, hboth.1, htold⟩

end Format
end ViewDoc
