import CropLedger.Proofs.Report.OpeningPrice

/-!
# Reports on adjacent ranges

A report on a range opens with the point that was in effect when the range opened. So two reports,
the second of which opens on the day after the first one closes, share that one point, and read one
after the other they are the report on both ranges together.

* `Date.lt_iff_next_le`: there is no day between a day and the next one;
* `DateRange.select_eq`: the points that are shown, told by their dates alone;
* `DateRange.select_extended`: a report on a longer range, as one on its first part and what is
  dated in the rest;
* `DateRange.adjacent_ranges_chain`: two reports on adjacent ranges and the one on both.
-/

namespace CropLedger

/-! ### The day after -/

theorem one_le_daysIn (year : Int) (month : Nat) : 1 ≤ daysIn year month := by
  unfold daysIn
  (repeat' split) <;> omega

namespace Date

variable {d d' : Date}

theorem le_iff {a b : Date} : a ≤ b ↔ a.key ≤ b.key := Iff.rfl

theorem lt_iff {a b : Date} : a < b ↔ a.key < b.key := Iff.rfl

theorem of?_some {year : Int} {month day : Nat} (h : of? year month day = some d) :
    d.year = year ∧ d.month = month ∧ d.day = day := by
  unfold of? at h
  split at h
  · cases h
    exact ⟨rfl, rfl, rfl⟩
  · cases h

theorem of?_none {year : Int} {month day : Nat} (h : of? year month day = none) :
    ¬IsDate year month day := by
  intro hd
  rw [of?, dif_pos hd] at h
  cases h

theorem next?_eq (d : Date) : d.next? = (of? d.year d.month (d.day + 1)).or
    ((of? d.year (d.month + 1) 1).or (of? (d.year + 1) 1 1)) := by
  simp only [next?, Option.orElse_eq_orElse, Option.orElse_eq_or]

/-- The day after is the next one of the month, or the first one of a month whose predecessor has
no more days. -/
theorem next?_some (h : d.next? = some d') :
    d'.key = d.key + 1 ∨
      d.day = daysIn d.year d.month ∧ d'.key = (d.year * 12 + d.month + 1) * 31 + 1 := by
  have hdate := d.isDate
  rw [next?_eq, Option.or_eq_some_iff, Option.or_eq_some_iff] at h
  simp only [IsDate] at hdate
  rcases h with h | ⟨hmonth, h⟩
  · obtain ⟨hy, hm, hd⟩ := of?_some h
    refine .inl ?_
    simp only [key, hy, hm, hd]
    omega
  · have hlast := of?_none hmonth
    simp only [IsDate] at hlast
    refine .inr ⟨by omega, ?_⟩
    rcases h with h | ⟨hyear, h⟩
    · obtain ⟨hy, hm, hd⟩ := of?_some h
      simp only [key, hy, hm, hd]
      omega
    · have hdecember := of?_none hyear
      have hdays := one_le_daysIn d.year (d.month + 1)
      simp only [IsDate] at hdecember
      obtain ⟨hy, hm, hd⟩ := of?_some h
      simp only [key, hy, hm, hd]
      omega

/-- **There is no day between a day and the next one.** -/
theorem lt_iff_next_le (h : d.next? = some d') (x : Date) : d < x ↔ d' ≤ x := by
  have hx := x.isDate
  have hd := d.isDate
  have hdays := daysIn_le x.year x.month
  have hdays' := daysIn_le d.year d.month
  simp only [IsDate] at hx hd
  rw [lt_iff, le_iff]
  rcases next?_some h with hkey | ⟨hlast, hkey⟩
  · omega
  · rw [hkey]
    by_cases hmonth : x.year * 12 + x.month = d.year * 12 + d.month
    · -- a day of the same month is not later than its last one
      have hyear : x.year = d.year := by omega
      have hsame : x.month = d.month := by omega
      rw [hyear, hsame] at hx
      simp only [key]
      omega
    · simp only [key]
      omega

/-- A day before another one is not the last one of the calendar. -/
theorem exists_next? {x : Date} (h : d < x) : ∃ d', d.next? = some d' := by
  rw [← Option.isSome_iff_exists, ← Option.not_isNone, Bool.not_eq_true', ← Bool.not_eq_true,
    Option.isNone_iff_eq_none]
  intro hnone
  rw [next?_eq, Option.or_eq_none_iff, Option.or_eq_none_iff] at hnone
  obtain ⟨hday, hmonth, hyear⟩ := hnone
  have hd := d.isDate
  have hx := x.isDate
  have hdays := one_le_daysIn d.year (d.month + 1)
  have hlast := daysIn_le x.year x.month
  have hfirst := one_le_daysIn (d.year + 1) 1
  have hday := of?_none hday
  have hmonth := of?_none hmonth
  have hyear := of?_none hyear
  simp only [IsDate] at hday hmonth hyear hd hx
  -- so it is the last day of the last December
  have hdecember : d.month = 12 := by omega
  have hlong : daysIn d.year d.month = 31 := by rw [hdecember]; rfl
  simp only [lt_iff, key] at h
  omega

end Date

/-! ### Points in the order of their dates -/

/-- Where no element of the second kind stands before one of the first, the elements of either kind
are those of the first and then those of the second. -/
theorem filter_or_eq_append {α : Type} {l : List α} {p q : α → Bool}
    (hd : ∀ x ∈ l, p x = true → q x = false)
    (ho : l.Pairwise fun x y => q x = true → p y = false) :
    l.filter (fun x => p x || q x) = l.filter p ++ l.filter q := by
  induction l with
  | nil => rfl
  | cons x l ih =>
    obtain ⟨hx, hl⟩ := List.pairwise_cons.1 ho
    have hrest := ih (fun y hy => hd y (List.mem_cons_of_mem _ hy)) hl
    by_cases hp : p x = true
    · simp [hp, hd x List.mem_cons_self hp, hrest]
    · by_cases hq : q x = true
      · have hnone : l.filter p = [] := List.filter_eq_nil_iff.2 fun y hy => by simp [hx y hy hq]
        simp [hp, hq, hrest, hnone]
      · simp [hp, hq, hrest]

/-- Points in the order of their dates. -/
def InOrder (points : List PriceSnapshot) : Prop := points.Pairwise fun x y => x.date ≤ y.date

namespace DateRange

variable {r : DateRange} {points : List PriceSnapshot} {a b b' c : Date}

/-- The points that are dated inside a range. -/
def within (r : DateRange) (points : List PriceSnapshot) : List PriceSnapshot :=
  points.filter fun x => r.contains x.date

/-- The points that are dated before a range. -/
def before (r : DateRange) (points : List PriceSnapshot) : List PriceSnapshot :=
  points.filter r.precedes

theorem contains_iff {d : Date} : r.contains d = true ↔ r.first ≤ d ∧ d ≤ r.last := by
  simp only [contains, Bool.and_eq_true, decide_eq_true_eq]

/-- In points that are in order, those that are dated before a day stand before those that are
not. -/
theorem filter_eq_append (h : InOrder points) {p q s : PriceSnapshot → Bool} {d : Date}
    (hs : ∀ x, s x = (p x || q x)) (hp : ∀ x, p x = true → x.date < d)
    (hq : ∀ x, q x = true → d ≤ x.date) :
    points.filter s = points.filter p ++ points.filter q := by
  have hno {x y : PriceSnapshot} (hle : x.date ≤ y.date) (hqx : q x = true) : p y = false := by
    rw [← Bool.not_eq_true]
    intro hpy
    have h₁ := Date.lt_iff.1 (hp y hpy)
    have h₂ := Date.le_iff.1 (hq x hqx)
    have h₃ := Date.le_iff.1 hle
    omega
  rw [← filter_or_eq_append (fun x _ hpx => ?_) (h.imp hno)]
  · exact List.filter_congr fun x _ => hs x
  · rw [← Bool.not_eq_true]
    intro hqx
    rw [hno (Int.le_refl _) hqx] at hpx
    cases hpx

/-! ### What a report shows -/

theorem select_of_not_precedes (h : ∀ x ∈ points, r.precedes x = false) :
    r.select points = r.within points := by
  induction points with
  | nil => rfl
  | cons x later ih =>
    have hlater := ih fun y hy => h y (List.mem_cons_of_mem _ hy)
    simp only [select, h x List.mem_cons_self, Bool.false_and, Bool.or_false, hlater, within,
      List.filter_cons]

/-- Points that are in order are those dated before a range, and then all others. -/
theorem eq_before_append (h : InOrder points) (r : DateRange) :
    points = r.before points ++ points.filter fun x => !r.precedes x := by
  have hsplit := filter_eq_append h (s := fun _ => true) (p := r.precedes)
    (q := fun x => !r.precedes x) (d := r.first) (fun x => (Bool.or_not_self _).symm)
    (fun x hx => precedes_iff.1 hx)
    (fun x hx => Int.not_lt.1 (precedes_eq_false_iff.1 (Bool.not_eq_true' _ ▸ hx)))
  rwa [List.filter_eq_self.2 fun _ _ => rfl] at hsplit

theorem within_filter_not_precedes (r : DateRange) (points : List PriceSnapshot) :
    r.within (points.filter fun x => !r.precedes x) = r.within points := by
  rw [within, List.filter_filter]
  refine List.filter_congr fun x _ => ?_
  cases hx : r.precedes x with
  | true => simp [not_contains_of_precedes hx]
  | false => simp

/-- **The points that are shown** are the last one that is dated before the range, and those that
are dated inside it. -/
theorem select_eq (h : InOrder points) (r : DateRange) :
    r.select points = (r.before points).getLast?.toList ++ r.within points := by
  have hsplit := eq_before_append h r
  have hrest : ∀ x ∈ points.filter fun x => !r.precedes x, r.precedes x = false :=
    fun x hx => by simpa using (List.mem_filter.1 hx).2
  rw [← within_filter_not_precedes, ← select_of_not_precedes hrest]
  rcases List.eq_nil_or_concat (r.before points) with hnone | ⟨earlier, last, hlast⟩
  · rw [hnone] at hsplit ⊢
    exact congrArg r.select hsplit
  · rw [List.concat_eq_append] at hlast
    have hbefore : ∀ x ∈ earlier ++ [last], r.precedes x = true :=
      fun x hx => (List.mem_filter.1 (hlast ▸ hx)).2
    rw [hlast] at hsplit ⊢
    conv_lhs => rw [hsplit, List.append_assoc, List.singleton_append]
    rw [select_append (hbefore last (by simp)) (fun x hx => hbefore x (by simp [hx])) hrest]
    simp

/-- Of the points that are dated inside the range, each is shown as often as it occurs. -/
theorem within_select (h : InOrder points) (r : DateRange) :
    r.within (r.select points) = r.within points := by
  have hopening : r.within (r.before points).getLast?.toList = [] := by
    refine List.filter_eq_nil_iff.2 fun x hx => ?_
    have hbefore := List.mem_of_getLast? (Option.mem_toList.1 hx)
    simp [not_contains_of_precedes (List.mem_filter.1 hbefore).2]
  rw [select_eq h]
  unfold within at hopening ⊢
  rw [List.filter_append, hopening, List.nil_append, List.filter_filter]
  simp only [Bool.and_self]

/-! ### Two ranges that follow one another -/

section Adjacent

variable (h : InOrder points) (hnext : b.next? = some b')

include h hnext

/-- The points before the second range are those before the first one, and those inside it. -/
theorem before_next (hab : a ≤ b) :
    before ⟨b', c⟩ points = before ⟨a, b⟩ points ++ within ⟨a, b⟩ points := by
  refine filter_eq_append h (d := a) (fun x => ?_) (fun x => precedes_iff.1)
    (fun x hx => (contains_iff.1 hx).1)
  have hlast := Date.lt_iff_next_le hnext x.date
  rw [Bool.eq_iff_iff, Bool.or_eq_true, precedes_iff, precedes_iff, contains_iff]
  simp only [Date.lt_iff, Date.le_iff] at hab hlast ⊢
  omega

/-- The points inside both ranges together are those inside the first one, and those inside the
second one. -/
theorem within_next (hab : a ≤ b) (hbc : b < c) :
    within ⟨a, c⟩ points = within ⟨a, b⟩ points ++ within ⟨b', c⟩ points := by
  refine filter_eq_append h (d := b') (fun x => ?_)
    (fun x hx => ?_) (fun x hx => (contains_iff.1 hx).1)
  · have hlast := Date.lt_iff_next_le hnext x.date
    rw [Bool.eq_iff_iff, Bool.or_eq_true, contains_iff, contains_iff, contains_iff]
    simp only [Date.lt_iff, Date.le_iff] at hab hbc hlast ⊢
    omega
  · have hlast := Date.lt_iff_next_le hnext x.date
    have hx := (contains_iff.1 hx).2
    simp only [Date.lt_iff, Date.le_iff] at hlast hx ⊢
    omega

/-- A report on a longer range shows what one on its first part shows, and what is dated in the
rest. -/
theorem select_extended (hab : a ≤ b) (hbc : b < c) :
    select ⟨a, c⟩ points = select ⟨a, b⟩ points ++ within ⟨b', c⟩ points := by
  rw [select_eq h, select_eq h, within_next h hnext hab hbc, List.append_assoc]
  rfl

/-- The next report opens with the last point of the one before, if that has any. -/
theorem select_next (hab : a ≤ b) :
    select ⟨b', c⟩ points =
      (select ⟨a, b⟩ points).getLast?.toList ++ within ⟨b', c⟩ points := by
  have hlast : (before ⟨b', c⟩ points).getLast? = (select ⟨a, b⟩ points).getLast? := by
    rw [select_eq h, before_next h hnext hab, List.getLast?_append, List.getLast?_append]
    cases (before ⟨a, b⟩ points).getLast? <;> rfl
  rw [select_eq h, hlast]

end Adjacent

/-- **Reports on adjacent ranges chain without gap or overlap.** Of points in the order of their
dates, the report on the range that opens on the day after another one closes starts with the last
point of the other one; the two together, that point counted once, are the report on both ranges.
Where the first report is empty, the second one is the report on both ranges, and shows nothing
from before its own. Each point that is dated inside a range is shown, and as often as it occurs. -/
theorem adjacent_ranges_chain (h : InOrder points) (hab : a ≤ b) (hbc : b < c) :
    ∃ b', b.next? = some b' ∧
      (∀ hshown : select ⟨a, b⟩ points ≠ [],
        (select ⟨b', c⟩ points).head? = some ((select ⟨a, b⟩ points).getLast hshown) ∧
          select ⟨a, c⟩ points = select ⟨a, b⟩ points ++ (select ⟨b', c⟩ points).tail) ∧
      (select ⟨a, b⟩ points = [] →
        select ⟨a, c⟩ points = select ⟨b', c⟩ points ∧
          ∀ x ∈ select ⟨a, c⟩ points, ¬x.date < b') ∧
      within ⟨a, c⟩ (select ⟨a, c⟩ points) = within ⟨a, c⟩ points := by
  obtain ⟨b', hnext⟩ := Date.exists_next? hbc
  have hboth := select_extended h hnext hab hbc
  have hsecond := select_next (c := c) h hnext hab
  refine ⟨b', hnext, fun hshown => ?_, fun hnone => ?_, within_select h _⟩
  · rw [List.getLast?_eq_some_getLast hshown] at hsecond
    rw [hboth, hsecond]
    exact ⟨rfl, rfl⟩
  · rw [hnone] at hboth hsecond
    refine ⟨hboth.trans hsecond.symm, fun x hx => ?_⟩
    rw [hboth] at hx
    exact Int.not_lt.2 (contains_iff.1 (List.mem_filter.1 hx).2).1

/-! ### The turn of a month -/

namespace Sample

open Market.Sample

/-- A point of a day. -/
def pointOf (date : Date) (tenths : Nat) : PriceSnapshot :=
  let noon := Timestamp.ofUtc date 720 0 0 Timestamp.noon_lt_day Timestamp.first_second_le
    Timestamp.no_nanos_lt
  ⟨⟨1⟩, pair, amount tenths, noon, noon, false⟩

/-- The first day of February. -/
def february : Date := ⟨2024, 2, 1, by decide⟩

/-- The last day of February. -/
def leapDay : Date := ⟨2024, 2, 29, by decide⟩

/-- A price that was revised in the middle of January, twice on its last day, and on the day
after. -/
def turning : List PriceSnapshot :=
  [pointOf (january 14) 105, pointOf (january 30) 123, pointOf (january 30) 124,
    pointOf february 125]

end Sample

open Sample Market.Sample in
/-- January closes with the second revision of its last day, and February opens with it. -/
theorem adjacent_ranges_chain_sample :
    InOrder turning ∧ january 29 ≤ january 30 ∧ january 30 < leapDay ∧
      (select ⟨january 29, january 30⟩ turning).map PriceSnapshot.value =
        [amount 105, amount 123, amount 124] ∧
      (select ⟨february, leapDay⟩ turning).map PriceSnapshot.value =
        [amount 124, amount 125] ∧
      select ⟨january 29, leapDay⟩ turning =
        select ⟨january 29, january 30⟩ turning ++ (select ⟨february, leapDay⟩ turning).tail := by
  have horder : InOrder turning := by
    unfold InOrder
    decide +kernel
  have hfirst : january 29 ≤ january 30 := by decide +kernel
  have hrest : january 30 < leapDay := by decide +kernel
  obtain ⟨next, hnext, hchain, -⟩ := adjacent_ranges_chain horder hfirst hrest
  obtain rfl : february = next :=
    Option.some.inj (Eq.trans (by decide +kernel : some february = (january 30).next?) hnext)
  exact ⟨horder, hfirst, hrest, by decide +kernel, by decide +kernel,
    (hchain (by decide +kernel)).2⟩

end DateRange

end CropLedger
