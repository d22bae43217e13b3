import CropLedger.Calendar.Timestamp

/-!
# Points in UTC

A point in time taken to UTC has no distance from UTC, and taking it there again changes nothing.

* `Timestamp.utc_eq_self`: a point without a distance is its own point in UTC;
* `Timestamp.utc_utc`: taking a point to UTC twice is taking it there once;
* `Timestamp.utc_le_utc`: points stand in the same order in UTC;
* `Timestamp.utcDate_le`: a later point does not have an earlier date.
-/

namespace CropLedger.Timestamp

@[simp] theorem offset_utc (t : Timestamp) : t.utc.offset = 0 := rfl

theorem minuteOfDay_lt (t : Timestamp) : t.minuteOfDay < 1440 := by
  have hh := t.isTime.1
  have hm := t.isTime.2.1
  unfold minuteOfDay
  omega

theorem utcMinute_lt (t : Timestamp) : t.utcMinute < 1440 := by
  unfold utcMinute
  omega

theorem utcDate_of_offset {t : Timestamp} (h : t.offset = 0) : t.utcDate = t.date := by
  have hm := t.minuteOfDay_lt
  have hd : utcDate? t.date t.minuteOfDay t.offset = some t.date := by
    rw [utcDate?, h, if_neg (by omega), if_pos (by omega)]
  unfold utcDate
  simp only [hd, Option.get_some]

theorem utcMinute_of_offset {t : Timestamp} (h : t.offset = 0) : t.utcMinute = t.minuteOfDay := by
  have hm := t.minuteOfDay_lt
  unfold utcMinute
  rw [h]
  omega

theorem utc_eq_self {t : Timestamp} (h : t.offset = 0) : t.utc = t := by
  have hd := utcDate_of_offset h
  have hm := utcMinute_of_offset h
  have hh := t.isTime.1
  have hmin := t.isTime.2.1
  obtain ⟨date, hour, minute, second, nanos, offset, isTime⟩ := t
  simp only at h hd hh hmin
  simp only [utc, ofUtc, hd, hm, minuteOfDay, mk.injEq, true_and]
  omega

@[simp] theorem utcDate_utc (t : Timestamp) : t.utc.utcDate = t.utcDate :=
  utcDate_of_offset (offset_utc t)

@[simp] theorem utc_utc (t : Timestamp) : t.utc.utc = t.utc := utc_eq_self (offset_utc t)

/-! ### Whole minutes -/

theorem noon_lt_day : 720 < 1440 := by decide

theorem first_second_le : 0 ≤ 60 := by decide

theorem no_nanos_lt : 0 < 1000000000 := by decide

/-! ### Order -/

theorem le_refl (t : Timestamp) : t ≤ t := Int.le_refl t.key

theorem le_trans {a b c : Timestamp} (hab : a ≤ b) (hbc : b ≤ c) : a ≤ c := Int.le_trans hab hbc

@[simp] theorem key_utc (t : Timestamp) : t.utc.key = t.key := by
  have hm : t.utc.utcMinute = t.utcMinute := by
    rw [utcMinute_of_offset (offset_utc t)]
    simp only [utc, ofUtc, minuteOfDay]
    omega
  have hs : t.utc.second = t.second ∧ t.utc.nanos = t.nanos := ⟨rfl, rfl⟩
  simp only [key, utcDate_utc, hm, hs.1, hs.2]

/-- Points stand in the same order in UTC. -/
theorem utc_le_utc {a b : Timestamp} : a.utc ≤ b.utc ↔ a ≤ b := by
  show a.utc.key ≤ b.utc.key ↔ a.key ≤ b.key
  rw [key_utc, key_utc]

theorem utc_le {a b : Timestamp} : a.utc ≤ b ↔ a ≤ b := by
  show a.utc.key ≤ b.key ↔ a.key ≤ b.key
  rw [key_utc]

theorem le_utc {a b : Timestamp} : a ≤ b.utc ↔ a ≤ b := by
  show a.key ≤ b.utc.key ↔ a.key ≤ b.key
  rw [key_utc]

/-- A later point does not have an earlier date. -/
theorem utcDate_le {a b : Timestamp} (h : a ≤ b) : a.utcDate ≤ b.utcDate := by
  have hm := a.utcMinute_lt
  have hm' := b.utcMinute_lt
  obtain ⟨-, -, hs, hn, -⟩ := a.isTime
  obtain ⟨-, -, hs', hn', -⟩ := b.isTime
  have hkey : a.key ≤ b.key := h
  show a.utcDate.key ≤ b.utcDate.key
  unfold key at hkey
  omega

end CropLedger.Timestamp
