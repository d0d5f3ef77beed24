import JobBoard.Analytics.Recruiter
import JobBoard.Billing.InvoiceNumbers

/-!
# The trend of the applications

The chart of `overview` starts on the day of `from` and has one point for each of `rangeDays` days,
so that it ends yesterday: today is missing (`trend_incomplete`), and of its first day it counts
what came after the time of `from` only (`overview_counts`).
-/

set_option autoImplicit false

namespace JobBoard.Analytics

open Txn RecruiterAnalyticsService
open Cvtheque (Micros ofDate)

/-! ## Dates as texts -/

section

variable {n k : Nat} {t t' : Time} {year month day year' month' day' : Int} {y y' : String}

theorem length_padStart (hk : 0 < k) (h : n < 10 ^ k) :
    (padStart (toString n) k '0').toList.length = k := by
  have hdigits : (toString n).toList.length ≤ k := by
    rw [toList_toString]
    exact (Nat.length_toDigits_le_iff (by decide) hk).2 h
  rw [toList_padStart, List.length_append, List.length_replicate, ← String.length_toList]
  omega

theorem le_length_padStart : k ≤ (padStart (toString n) k '0').toList.length := by
  rw [toList_padStart, List.length_append, List.length_replicate, ← String.length_toList]
  omega

theorem toList_dateText (y : String) (month day : Int) : (dateText y month day).toList =
    (y.toList ++ '-' :: (padStart (toString month.toNat) 2 '0').toList) ++
      '-' :: (padStart (toString day.toNat) 2 '0').toList := by
  have hdash : "-".toList = ['-'] := rfl
  simp only [dateText, String.toList_append, hdash, List.append_assoc, List.cons_append,
    List.nil_append]

theorem dateText_inj (hmonth : 1 ≤ month) (hmonth' : 1 ≤ month') (hday : 1 ≤ day)
    (hday' : 1 ≤ day') (h : dateText y month day = dateText y' month' day') :
    y = y' ∧ month = month' ∧ day = day' := by
  have h := congrArg String.toList h
  rw [toList_dateText, toList_dateText] at h
  obtain ⟨h, hd⟩ := append_cons_inj_of_last (dash_not_mem_padStart _ _)
    (dash_not_mem_padStart _ _) h
  obtain ⟨hy, hm⟩ := append_cons_inj_of_last (dash_not_mem_padStart _ _)
    (dash_not_mem_padStart _ _) h
  have hm := padStart_toString_inj hm
  have hd := padStart_toString_inj hd
  exact ⟨String.toList_inj.1 hy, by omega, by omega⟩

theorem isoYear_digits (h : 0 ≤ year ∧ year ≤ 9999) :
    isoYear year = padStart (toString year.toNat) 4 '0' := if_pos h

/-- Other years have a sign. -/
theorem isoYear_sign (h : ¬ (0 ≤ year ∧ year ≤ 9999)) : ∃ sign rest,
    (isoYear year).toList = sign :: rest ∧ sign.isDigit = false ∧ 6 ≤ rest.length := by
  refine ⟨if year < 0 then '-' else '+', (padStart (toString year.natAbs) 6 '0').toList, ?_, ?_,
    le_length_padStart⟩
  · rw [isoYear, if_neg h, String.toList_append]
    split <;> rfl
  · split <;> rfl

theorem isoYear_head (year : Int) : ((isoYear year).toList.head?.any Char.isDigit = true ↔
    0 ≤ year ∧ year ≤ 9999) ∧ (isoYear year).toList ≠ [] := by
  by_cases h : 0 ≤ year ∧ year ≤ 9999
  · have hlen : 0 < (isoYear year).toList.length := by
      rw [isoYear_digits h]
      exact Nat.lt_of_lt_of_le (by decide : 0 < 4) le_length_padStart
    obtain ⟨c, rest, hc⟩ := List.exists_cons_of_length_pos hlen
    have hdigit : c.isDigit = true := by
      rw [isoYear_digits h] at hc
      exact isDigit_of_mem_padStart (hc ▸ List.mem_cons_self)
    rw [hc]
    exact ⟨⟨fun _ => h, fun _ => hdigit⟩, List.cons_ne_nil c rest⟩
  · obtain ⟨sign, rest, hsign, hdigit, -⟩ := isoYear_sign h
    rw [hsign]
    refine ⟨⟨fun hhead => ?_, fun hyear => absurd hyear h⟩, List.cons_ne_nil sign rest⟩
    rw [List.head?_cons, Option.any_some, hdigit] at hhead
    cases hhead

/-- The year of a date has four digits. -/
def FourDigits (date : Time) : Prop :=
  0 ≤ (Calendar.civil (dayOf date)).1 ∧ (Calendar.civil (dayOf date)).1 ≤ 9999

theorem isoDate_eq (t : Time) : isoDate t = dateText (isoYear (Calendar.civil (dayOf t)).1)
    (Calendar.civil (dayOf t)).2.1 (Calendar.civil (dayOf t)).2.2 := rfl

theorem isoDate_head : (isoDate t).toList.head?.any Char.isDigit = true ↔ FourDigits t := by
  obtain ⟨hhead, hne⟩ := isoYear_head (Calendar.civil (dayOf t)).1
  rw [FourDigits, ← hhead, isoDate_eq, toList_dateText, List.append_assoc,
    List.head?_append_of_ne_nil _ hne]

theorem length_isoDate (t : Time) :
    (isoDate t).toList.length = (isoYear (Calendar.civil (dayOf t)).1).toList.length + 6 := by
  obtain ⟨hm, hm', hd, hd'⟩ := Calendar.civil_bounds (dayOf t)
  rw [isoDate_eq, toList_dateText, List.length_append, List.length_append, List.length_cons,
    List.length_cons, length_padStart (by decide) (by omega),
    length_padStart (by decide) (by omega)]

theorem dayKey_fourDigits (h : FourDigits t) : dayKey t = isoDate t := by
  have hyear : (isoYear (Calendar.civil (dayOf t)).1).toList.length = 4 := by
    rw [isoYear_digits h]
    obtain ⟨hy, hy'⟩ := h
    exact length_padStart (by decide) (by omega)
  have hlen := length_isoDate t
  rw [dayKey, List.take_of_length_le (by omega), String.ofList_toList]

theorem isoDate_inj (h : FourDigits t) (h' : FourDigits t') (heq : isoDate t = isoDate t') :
    dayOf t = dayOf t' := by
  obtain ⟨hm, -, hd, -⟩ := Calendar.civil_bounds (dayOf t)
  obtain ⟨hm', -, hd', -⟩ := Calendar.civil_bounds (dayOf t')
  rw [isoDate_eq, isoDate_eq] at heq
  obtain ⟨hyear, hmonth, hday⟩ := dateText_inj hm hm' hd hd' heq
  rw [isoYear_digits h, isoYear_digits h'] at hyear
  have hnat := padStart_toString_inj (congrArg String.toList hyear)
  obtain ⟨hy, -⟩ := h
  obtain ⟨hy', -⟩ := h'
  exact Calendar.civil_injective (Prod.ext (by omega) (Prod.ext hmonth hday))

/-- The ten characters are the date of the same day, or of none. -/
theorem dayOf_of_dayKey (h : dayKey t = isoDate t') : dayOf t = dayOf t' := by
  have htake : (isoDate t).toList.take 10 = (isoDate t').toList := by
    rw [← h, dayKey, String.toList_ofList]
  have hhead : FourDigits t ↔ FourDigits t' := by
    rw [← isoDate_head, ← isoDate_head, ← htake, List.head?_take, if_neg (by decide)]
  by_cases ht : FourDigits t
  · exact isoDate_inj ht (hhead.1 ht) (dayKey_fourDigits ht ▸ h)
  · -- the date of `t'` is longer than ten characters
    obtain ⟨sign, rest, hsign, -, hrest⟩ := isoYear_sign fun ht' => ht (hhead.2 ht')
    have hlen := length_isoDate t'
    have hle := congrArg List.length htake
    rw [List.length_take] at hle
    rw [hsign, List.length_cons] at hlen
    omega

end

/-! ## The chart -/

/-- The chart has the `n` days up to today, and every application since the first of them. -/
def Complete (db : Db) (companyId : Id) (time : Time) (n : Nat) (trend : List TrendPoint) : Prop :=
  ∃ first : Int,
    trend.map (·.date) = (List.range n).map (fun i : Nat => isoDate ((first + i) * msPerDay)) ∧
    first + n - 1 = dayOf time ∧
    (trend.map (·.count)).sum = ((db.joined companyId).filter fun r =>
      ofDate (first * msPerDay) ≤ r.1.createdAt).length

section

variable {db : Db} {companyId : Id} {time start : Time} {days : Option Rat} {n : Nat}
  {rows : List (String × Nat)} {o : RecruiterAnalyticsOverview}

theorem dayOf_mul (z : Int) : dayOf (z * msPerDay) = z := by
  unfold dayOf msPerDay
  omega

/-- The day of the chart's point. -/
theorem dayOf_point (start : Time) (i : Nat) :
    dayOf (startOfDay start + i * msPerDay) = dayOf start + i := by
  rw [startOfDay, ← Int.add_mul, dayOf_mul]

/-- `rangeDays` times 24 hours before. -/
theorem dayOf_start (time : Time) (n : Nat) :
    dayOf (time - n * 24 * 60 * 60 * 1000) = dayOf time - n := by
  unfold dayOf msPerDay
  omega

theorem fillDays_dates : (fillDays rows start n).map (·.date) =
    (List.range n).map fun i : Nat => dayKey (startOfDay start + i * msPerDay) := by
  rw [fillDays, List.map_map]
  rfl

theorem overview_trend (h : overview db companyId time days = .ok o) :
    ∃ start, makeDate (time - rangeOf days * 24 * 60 * 60 * 1000) = some start ∧
      start = time - rangeOf days * 24 * 60 * 60 * 1000 ∧
      o.applicationsTrend = fillDays (applicationsTrend db companyId start) start
        (rangeOf days) := by
  unfold overview at h
  cases hdate : makeDate (time - rangeOf days * 24 * 60 * 60 * 1000) with
  | none =>
    simp only [hdate] at h
    cases h
  | some start =>
    simp only [hdate] at h
    cases h
    refine ⟨start, rfl, ?_, rfl⟩
    unfold makeDate at hdate
    split at hdate
    · exact (Option.some.inj hdate).symm
    · cases hdate

/-- The last point of the chart is yesterday. -/
theorem trend_incomplete (db : Db) (companyId : Id) (time : Time) (days : Option Rat)
    (hdays : 1 ≤ rangeOf days) : ¬ ∃ o, overview db companyId time days = .ok o ∧
      Complete db companyId time (rangeOf days) o.applicationsTrend := by
  rintro ⟨o, ho, first, hdates, hlast, -⟩
  obtain ⟨start, -, rfl, htrend⟩ := overview_trend ho
  rw [htrend, fillDays_dates, List.map_inj_left] at hdates
  have hkey := hdates (rangeOf days - 1) (List.mem_range.2 (by omega))
  have hday := dayOf_of_dayKey hkey
  rw [dayOf_point, dayOf_mul, dayOf_start] at hday
  omega

end

/-- The company 1 has had an application at noon of 15 January 2026. -/
def applied : Db where
  offers := ⟨[⟨10, 1, "Backend", .published⟩], by decide⟩
  applications := ⟨[⟨20, 10, .applied, 1768478400000000⟩], by decide⟩
  shortlistEntries := ∅
  conversations := ∅
  subscriptions := ∅

theorem trend_incomplete_month : 1 ≤ rangeOf (some 30) ∧
    ¬ ∃ o, overview applied 1 1768482000000 (some 30) = .ok o ∧
      Complete applied 1 1768482000000 (rangeOf (some 30)) o.applicationsTrend :=
  ⟨by decide, trend_incomplete applied 1 1768482000000 (some 30) (by decide)⟩

/-- An hour later the chart of one day shows the day before, without the application. -/
theorem today_missing : ¬ ∀ (db : Db) (companyId : Id) (time : Time) (days : Option Rat),
    1 ≤ rangeOf days → ∃ o, overview db companyId time days = .ok o ∧
      Complete db companyId time (rangeOf days) o.applicationsTrend := by
  intro h
  obtain ⟨o, ho, first, -, hlast, hsum⟩ := h applied 1 1768482000000 (some 1) (by decide)
  have htrend : (overview applied 1 1768482000000 (some 1)).toOption.map
      (·.applicationsTrend) = some [⟨"2026-01-14", 0⟩] := by decide +kernel
  have htrend : o.applicationsTrend = [⟨"2026-01-14", 0⟩] := by
    rw [ho] at htrend
    exact Option.some.inj htrend
  have hrange : rangeOf (some 1) = 1 := by decide
  have hday : dayOf 1768482000000 = 20468 := by decide
  rw [hrange, hday] at hlast
  obtain rfl : first = 20468 := by omega
  have hcount : ((applied.joined 1).filter fun r =>
      ofDate (20468 * msPerDay) ≤ r.1.createdAt).length = 1 := by decide
  rw [hcount, htrend] at hsum
  cases hsum

section

variable {db : Db} {companyId : Id} {time start : Time} {days : Option Rat} {n : Nat}
  {rows : List (String × Nat)} {o : RecruiterAnalyticsOverview}

/-! ## What it counts -/

/-- The entry of a key is its count. -/
theorem get_of_counts {κ : Type} [DecidableEq κ] {keys : List κ} {entries : List (κ × Nat)}
    (hcount : ∀ e ∈ entries, e.2 = keys.count e.1) (hmem : ∀ k ∈ keys, ∃ e ∈ entries, e.1 = k)
    (k : κ) : (get entries k).getD 0 = keys.count k := by
  unfold get
  cases hfind : entries.reverse.find? fun e => e.1 = k with
  | none =>
    refine (List.count_eq_zero.2 fun hk => ?_).symm
    obtain ⟨e, he, hek⟩ := hmem k hk
    have hnot := List.find?_eq_none.1 hfind e (List.mem_reverse.2 he)
    exact hnot (decide_eq_true hek)
  | some e =>
    have hek : e.1 = k := by simpa using List.find?_some hfind
    have he : e ∈ entries := List.mem_reverse.1 (List.mem_of_find?_eq_some hfind)
    rw [← hek]
    exact hcount e he

theorem mem_countBy {κ : Type} [DecidableEq κ] {keys : List κ} {e : κ × Nat} :
    e ∈ countBy keys ↔ e.1 ∈ keys ∧ e.2 = keys.count e.1 := by
  unfold countBy
  rw [List.mem_map]
  constructor
  · rintro ⟨k, hk, rfl⟩
    exact ⟨Grouping.mem_firsts.1 hk, rfl⟩
  · rintro ⟨hk, hcount⟩
    exact ⟨e.1, Grouping.mem_firsts.2 hk, Prod.ext rfl hcount.symm⟩

theorem exists_countBy {κ : Type} [DecidableEq κ] {keys : List κ} {k : κ} (hk : k ∈ keys) :
    ∃ e ∈ countBy keys, e.1 = k :=
  ⟨(k, keys.count k), mem_countBy.2 ⟨hk, rfl⟩, rfl⟩

/-- The point of a key. -/
theorem get_trend (key : String) :
    (get (applicationsTrend db companyId start) key).getD 0 =
      (((db.joined companyId).filter fun r => ofDate start ≤ r.1.createdAt).map
        fun r => toChar r.1.createdAt).count key := by
  unfold applicationsTrend
  refine get_of_counts (fun e he => ?_) (fun k hk => ?_) key
  · exact (mem_countBy.1 ((List.mem_insertionSort _).1 he)).2
  · obtain ⟨e, he, hek⟩ := exists_countBy hk
    exact ⟨e, (List.mem_insertionSort _).2 he, hek⟩

theorem toChar_eq (createdAt : Micros) : toChar createdAt = dateText
    (padStart (toString (if (Calendar.civil (createdAt / (1000 * msPerDay))).1 ≤ 0
      then 1 - (Calendar.civil (createdAt / (1000 * msPerDay))).1
      else (Calendar.civil (createdAt / (1000 * msPerDay))).1).toNat) 4 '0')
    (Calendar.civil (createdAt / (1000 * msPerDay))).2.1
    (Calendar.civil (createdAt / (1000 * msPerDay))).2.2 := rfl

/-- The key of a day is the text of the applications of that day. -/
theorem dayKey_eq_toChar {t : Time} {createdAt : Micros} (ht : FourDigits t)
    (hfirst : -719162 ≤ createdAt / (1000 * msPerDay)) :
    dayKey t = toChar createdAt ↔ dayOf t = createdAt / (1000 * msPerDay) := by
  rw [dayKey_fourDigits ht, isoDate_eq, isoYear_digits ht, toChar_eq]
  obtain ⟨hm, -, hd, -⟩ := Calendar.civil_bounds (dayOf t)
  obtain ⟨hm', -, hd', -⟩ := Calendar.civil_bounds (createdAt / (1000 * msPerDay))
  have hyear := Calendar.one_le_year hfirst
  have hpos : ¬ (Calendar.civil (createdAt / (1000 * msPerDay))).1 ≤ 0 := by omega
  rw [if_neg hpos]
  constructor
  · intro h
    obtain ⟨hy, hmonth, hday⟩ := dateText_inj hm hm' hd hd' h
    have hnat := padStart_toString_inj (congrArg String.toList hy)
    obtain ⟨hpos, -⟩ := ht
    exact Calendar.civil_injective (Prod.ext (by omega) (Prod.ext hmonth hday))
  · intro h
    rw [h]

/-- The days of the chart have four digits. -/
theorem fourDigits_point (hfirst : -719162 ≤ dayOf start) (hlast : dayOf start + n ≤ 2932897)
    {i : Nat} (hi : i < n) : FourDigits (startOfDay start + i * msPerDay) := by
  have hge := Calendar.one_le_year (z := dayOf start + i) (by omega)
  have hle := Calendar.year_le (z := dayOf start + i) (by omega)
  unfold FourDigits
  rw [dayOf_point]
  exact ⟨by omega, hle⟩

theorem ofDate_le (t createdAt : Int) : ofDate t ≤ createdAt ↔ t * 1000 ≤ createdAt := Iff.rfl

theorem lt_ofDate (t createdAt : Int) : createdAt < ofDate t ↔ createdAt < t * 1000 := Iff.rfl

/-- The day of an application, by the clock of the database. -/
theorem lt_ofDate_day (day createdAt : Int) :
    createdAt < ofDate (day * msPerDay) ↔ createdAt / (1000 * msPerDay) < day := by
  rw [lt_ofDate]
  unfold msPerDay
  omega

theorem dayOf_le (start createdAt : Int) (h : ofDate start ≤ createdAt) :
    dayOf start ≤ createdAt / (1000 * msPerDay) := by
  rw [ofDate_le] at h
  unfold dayOf msPerDay
  omega

/-- An application since the start of the range is on the chart if it is before its end. -/
theorem toChar_mem (hfirst : -719162 ≤ dayOf start) (hlast : dayOf start + n ≤ 2932897)
    {createdAt : Micros} (h : ofDate start ≤ createdAt) :
    (toChar createdAt ∈ (List.range n).map fun i : Nat =>
      dayKey (startOfDay start + i * msPerDay)) ↔
      createdAt < ofDate ((dayOf start + n) * msPerDay) := by
  have hday := dayOf_le start createdAt h
  have hkey : ∀ i < n, dayKey (startOfDay start + (i : Nat) * msPerDay) = toChar createdAt ↔
      dayOf start + i = createdAt / (1000 * msPerDay) := fun i hi => by
    rw [dayKey_eq_toChar (fourDigits_point hfirst hlast hi) (Int.le_trans hfirst hday), dayOf_point]
  rw [lt_ofDate_day, List.mem_map]
  generalize createdAt / (1000 * msPerDay) = day at hday hkey
  constructor
  · rintro ⟨i, hi, h⟩
    have hi := List.mem_range.1 hi
    have hsame := (hkey i hi).1 h
    omega
  · intro hlt
    obtain ⟨i, hi⟩ := Int.eq_ofNat_of_zero_le (Int.sub_nonneg_of_le hday)
    have hin : i < n := by omega
    exact ⟨i, List.mem_range.2 hin, (hkey i hin).2 (by omega)⟩

theorem sum_fillDays (hfirst : -719162 ≤ dayOf start) (hlast : dayOf start + n ≤ 2932897) :
    ((fillDays (applicationsTrend db companyId start) start n).map (·.count)).sum =
      ((db.joined companyId).filter fun r => ofDate start ≤ r.1.createdAt ∧
        r.1.createdAt < ofDate ((dayOf start + n) * msPerDay)).length := by
  have hcounts : (fillDays (applicationsTrend db companyId start) start n).map (·.count) =
      ((List.range n).map fun i : Nat => dayKey (startOfDay start + i * msPerDay)).map fun key =>
        (((db.joined companyId).filter fun r => ofDate start ≤ r.1.createdAt).map
          fun r => toChar r.1.createdAt).count key := by
    rw [fillDays, List.map_map, List.map_map]
    exact List.map_congr_left fun i _ => get_trend _
  have hnodup : ((List.range n).map fun i : Nat =>
      dayKey (startOfDay start + i * msPerDay)).Nodup := by
    refine List.Nodup.map_on (fun i hi j hj hij => ?_) List.nodup_range
    have hi := fourDigits_point hfirst hlast (List.mem_range.1 hi)
    have hj := fourDigits_point hfirst hlast (List.mem_range.1 hj)
    rw [dayKey_fourDigits hj] at hij
    have hday := dayOf_of_dayKey hij
    rw [dayOf_point, dayOf_point] at hday
    omega
  rw [hcounts, Grouping.sum_count hnodup, List.countP_map, List.countP_filter,
    List.countP_eq_length_filter]
  congr 1
  refine List.filter_congr fun r _ => ?_
  by_cases hr : ofDate start ≤ r.1.createdAt
  · simp only [Function.comp_apply, toChar_mem hfirst hlast hr, hr, decide_true, Bool.and_true,
      true_and]
  · simp only [hr, decide_false, Bool.and_false, false_and]

/-- In the years 1 to 9999 the chart has the days before today, and counts what came since `from`
and before today. -/
theorem overview_counts (h : overview db companyId time days = .ok o)
    (hfirst : -719162 ≤ dayOf time - rangeOf days) (hlast : dayOf time ≤ 2932897) :
    (o.applicationsTrend.map (·.date) = (List.range (rangeOf days)).map fun i : Nat =>
      isoDate ((dayOf time - rangeOf days + i) * msPerDay)) ∧
    (o.applicationsTrend.map (·.count)).sum = ((db.joined companyId).filter fun r =>
      ofDate (time - rangeOf days * 24 * 60 * 60 * 1000) ≤ r.1.createdAt ∧
        r.1.createdAt < ofDate (startOfDay time)).length := by
  obtain ⟨start, -, hstart, htrend⟩ := overview_trend h
  have hday : dayOf start = dayOf time - rangeOf days := by rw [hstart, dayOf_start]
  have hend : dayOf start + rangeOf days = dayOf time := by omega
  rw [htrend, sum_fillDays (by omega) (by omega), hend, ← hstart]
  refine ⟨?_, rfl⟩
  rw [fillDays_dates]
  refine List.map_congr_left fun i hi => ?_
  have hpoint : FourDigits (startOfDay start + i * msPerDay) :=
    fourDigits_point (n := rangeOf days) (by omega) (by omega) (List.mem_range.1 hi)
  rw [dayKey_fourDigits hpoint, ← hday, isoDate_eq, isoDate_eq, dayOf_point, dayOf_mul]

/-- The counts sum up to the applications since the start of the first day if none came on that day
before the time of `from`, and none today. -/
theorem overview_sum_iff (h : overview db companyId time days = .ok o)
    (hfirst : -719162 ≤ dayOf time - rangeOf days) (hlast : dayOf time ≤ 2932897) :
    (o.applicationsTrend.map (·.count)).sum = ((db.joined companyId).filter fun r =>
        ofDate ((dayOf time - rangeOf days) * msPerDay) ≤ r.1.createdAt).length ↔
      ∀ r ∈ db.joined companyId, ofDate ((dayOf time - rangeOf days) * msPerDay) ≤ r.1.createdAt →
        ofDate (time - rangeOf days * 24 * 60 * 60 * 1000) ≤ r.1.createdAt ∧
          r.1.createdAt < ofDate (startOfDay time) := by
  have hsub : ∀ createdAt : Int, ofDate (time - rangeOf days * 24 * 60 * 60 * 1000) ≤ createdAt →
      ofDate ((dayOf time - rangeOf days) * msPerDay) ≤ createdAt := by
    intro createdAt hstart
    rw [ofDate_le] at hstart ⊢
    unfold dayOf msPerDay
    omega
  have hfilter : ((db.joined companyId).filter fun r =>
      ofDate (time - rangeOf days * 24 * 60 * 60 * 1000) ≤ r.1.createdAt ∧
        r.1.createdAt < ofDate (startOfDay time)) = ((db.joined companyId).filter fun r =>
      ofDate ((dayOf time - rangeOf days) * msPerDay) ≤ r.1.createdAt).filter fun r =>
        ofDate (time - rangeOf days * 24 * 60 * 60 * 1000) ≤ r.1.createdAt ∧
          r.1.createdAt < ofDate (startOfDay time) := by
    rw [List.filter_filter]
    refine List.filter_congr fun r _ => ?_
    by_cases hr : ofDate (time - rangeOf days * 24 * 60 * 60 * 1000) ≤ r.1.createdAt
    · simp [hr, hsub _ hr]
    · simp [hr]
  rw [(overview_counts h hfirst hlast).2, hfilter, List.length_filter_eq_length_iff]
  simp only [List.mem_filter, decide_eq_true_eq, and_imp]

end

end JobBoard.Analytics
