import SimpleSipClient.TimerHeap.Source

/-! # Time values

Two time values are compared field by field. That is the order of the milliseconds they stand
for as long as both are normalized, and everything that enters the heap is.
-/

namespace SimpleSipClient.TimerHeap

namespace TimeVal

/-- `PJ_TIME_VAL_MSEC`. -/
def msecs (t : TimeVal) : Int := t.sec * 1000 + t.msec

/-- Less than a second of milliseconds, with the sign of the seconds. -/
structure Normal (t : TimeVal) : Prop where
  low : -1000 < t.msec
  high : t.msec < 1000
  after : 1 ≤ t.sec → 0 ≤ t.msec
  before : t.sec < 0 → t.msec ≤ 0

theorem borrow_spec (t : TimeVal) (h : t.msec ≤ 0) :
    t.borrow.msecs = t.msecs ∧ -1000 < t.borrow.msec ∧ t.borrow.msec ≤ 0 := by
  induction t using borrow.induct with
  | case1 t hlow ih =>
      rw [borrow, if_pos hlow]
      obtain ⟨hsum, hbounds⟩ := ih (by simp only; omega)
      refine ⟨?_, hbounds⟩
      rw [hsum]
      simp only [msecs]
      omega
  | case2 t hlow =>
      rw [borrow, if_neg hlow]
      exact ⟨rfl, by omega, h⟩

/-- The carry leaves the sum as it is. -/
theorem carry_spec (t : TimeVal) {u : TimeVal} (hu : u =
    if 1000 ≤ t.msec then { sec := t.sec + t.msec / 1000, msec := t.msec % 1000 }
    else if t.msec ≤ -1000 then t.borrow
    else t) : u.msecs = t.msecs ∧ -1000 < u.msec ∧ u.msec < 1000 := by
  subst hu
  split
  · simp only [msecs]
    omega
  · split
    · obtain ⟨hsum, hlow, hhigh⟩ := borrow_spec t (by omega)
      exact ⟨hsum, hlow, by omega⟩
    · exact ⟨rfl, by omega, by omega⟩

theorem normalize_spec (t : TimeVal) : t.normalize.msecs = t.msecs ∧ t.normalize.Normal := by
  unfold normalize
  extract_lets u
  obtain ⟨hsum, hlow, hhigh⟩ := carry_spec t (u := u) rfl
  rw [← hsum]
  split
  · refine ⟨?_, ?_, ?_, ?_, ?_⟩ <;> simp only [msecs] <;> omega
  · split
    · refine ⟨?_, ?_, ?_, ?_, ?_⟩ <;> simp only [msecs] <;> omega
    · exact ⟨rfl, hlow, hhigh, by omega, by omega⟩

theorem add_msecs (t1 t2 : TimeVal) : (t1.add t2).msecs = t1.msecs + t2.msecs := by
  rw [add, (normalize_spec _).1]
  simp only [msecs]
  omega

theorem add_normal (t1 t2 : TimeVal) : (t1.add t2).Normal := (normalize_spec _).2

theorem sub_msecs (t1 t2 : TimeVal) : (t1.sub t2).msecs = t1.msecs - t2.msecs := by
  rw [sub, (normalize_spec _).1]
  simp only [msecs]
  omega

theorem sub_normal (t1 t2 : TimeVal) : (t1.sub t2).Normal := (normalize_spec _).2

section Order

variable {a b : TimeVal} (ha : a.Normal) (hb : b.Normal)

include ha hb

theorem gt_iff : a.gt b = true ↔ b.msecs < a.msecs := by
  obtain ⟨h1, h2, h3, h4⟩ := ha
  obtain ⟨h5, h6, h7, h8⟩ := hb
  simp only [gt, msecs, Bool.or_eq_true, Bool.and_eq_true, decide_eq_true_eq]
  omega

theorem lte_iff : a.lte b = true ↔ a.msecs ≤ b.msecs := by
  have hgt := gt_iff ha hb
  rw [lte, Bool.not_eq_true', ← Bool.not_eq_true, hgt]
  omega

theorem lt_iff : a.lt b = true ↔ a.msecs < b.msecs := by
  obtain ⟨h1, h2, h3, h4⟩ := ha
  obtain ⟨h5, h6, h7, h8⟩ := hb
  simp only [lt, gte, gt, eq, msecs, Bool.not_eq_true', Bool.or_eq_false_iff, decide_eq_false_iff_not,
    Bool.and_eq_false_iff]
  omega

theorem gte_iff : a.gte b = true ↔ b.msecs ≤ a.msecs := by
  have hlt := lt_iff ha hb
  rw [lt, Bool.not_eq_true', ← Bool.not_eq_true] at hlt
  rw [← not_iff_not, hlt, Int.not_le]

end Order

/-- The delay that is left is negative exactly if one of its fields is. -/
theorem Normal.negative_iff {t : TimeVal} (h : t.Normal) :
    (t.sec < 0 ∨ t.msec < 0) ↔ t.msecs < 0 := by
  obtain ⟨h1, h2, h3, h4⟩ := h
  simp only [msecs]
  omega

theorem normal_of_isTick {t : TimeVal} (h : t.isTick = true) : t.Normal := by
  simp only [isTick, Bool.and_eq_true, decide_eq_true_eq] at h
  refine ⟨?_, ?_, ?_, ?_⟩ <;> omega

end TimeVal

end SimpleSipClient.TimerHeap
