import SimpleSipClient.TimerHeap.Slots

/-! # Up and down the heap

A round of either loop moves the gap by one place. When the loop ends, the entry fits.
-/

namespace SimpleSipClient.TimerHeap

open Foundation

theorem heapParent_eq (i : Nat) : heapParent i = parentOf i := by
  unfold heapParent parentOf
  split <;> omega

section Reheap

variable {s t : State} {n gap i j moved e : Nat} {x m : Entry}

theorem Stands.lt_length (h : Stands s i e x) : i < s.heap.length :=
  (List.getElem?_eq_some_iff.mp h.slot).1

theorem Open.gap_lt_length (h : Open s n gap moved) : gap < s.heap.length := by
  have hlt := h.lt
  have hfits := h.fits
  rw [h.numbered.heapLength]
  omega

theorem Open.gap_lt_maxSize (h : Open s n gap moved) : gap < s.maxSize :=
  Nat.lt_of_lt_of_le h.lt h.fits

/-- The gap moves to `j`. -/
theorem Open.move (h : Open s n gap moved) (hj : j < n) (hne : j ≠ gap) (hx : Stands s j e x)
    (hgapped : Gapped (Function.update s.value gap (s.value j)) n j) :
    Open (s.put gap e x) n j moved where
  numbered := h.numbered.put hx.toScheduled
  arranged := h.arranged.move h.numbered h.lt h.fits hj hne hx
  gapped := by
    rw [put_value h.gap_lt_length hx.toScheduled, ← hx.value]
    exact hgapped
  lt := hj
  fits := h.fits

/-- The entry is put into the gap. -/
theorem Open.fill (h : Open s n gap moved) (hm : Scheduled s moved m)
    (habove : 0 < gap → s.value (parentOf gap) ≤ m.timerValue.msecs)
    (hbelow : Below s.value n gap m.timerValue.msecs) : Settled (s.put gap moved m) n where
  numbered := h.numbered.put hm
  placed := by
    have hid : m.timerId < s.timerIds.length := by
      rw [h.numbered.idsLength]
      exact h.numbered.inside hm
    have hfill := stands_put h.gap_lt_length hid hm
    refine ⟨fun i hi => ?_, fun e x hx => ?_⟩
    · by_cases hgap : i = gap
      · subst hgap
        exact ⟨moved, m, hfill⟩
      · obtain ⟨e, x, hne, hx⟩ := h.arranged.slots i hi hgap
        exact ⟨e, x, hx.put h.numbered hm hgap hne⟩
    · by_cases hne : e = moved
      · subst hne
        have hentry := hm.entry
        rw [show s.entries[e]? = some x from hx.entry] at hentry
        cases hentry
        exact ⟨gap, h.lt, hfill⟩
      · obtain ⟨i, hi, hgap, hx⟩ := h.arranged.homes ⟨hx.entry, hx.number⟩ hne
        exact ⟨i, hi, hx.put h.numbered hm hgap hne⟩
  ordered := by
    rw [put_value h.gap_lt_length hm]
    exact h.gapped.fill habove hbelow

/-- What holds when a loop is left. -/
structure Fits (s : State) (n moved : Nat) (m : Entry) (c : Nat × Nat) (t : State) : Prop where
  opened : Open t n c.1 moved
  rearranged : Rearranged s t
  above : 0 < c.1 → t.value (parentOf c.1) ≤ m.timerValue.msecs
  below : Below t.value n c.1 m.timerValue.msecs

theorem Fits.fill {c : Nat × Nat} (h : Fits s n moved m c t) (hm : Scheduled s moved m) :
    Returns (copyNode c.1 moved) t fun es _ u => es = [] ∧ Rearranged s u ∧ Settled u n := by
  have hm' := h.rearranged.scheduled hm
  rw [returns_copyNode h.opened.numbered h.opened.gap_lt_maxSize hm']
  exact ⟨rfl, h.rearranged.trans rearranged_put, h.opened.fill hm' h.above h.below⟩

/-! ## Up -/

section Up

/-- What holds at the head of a round of `reheap_up`. -/
structure Rising (s : State) (n moved : Nat) (m : Entry) (c : Nat × Nat) (t : State) : Prop where
  opened : Open t n c.1 moved
  rearranged : Rearranged s t
  parent : c.2 = parentOf c.1
  below : Below t.value n c.1 m.timerValue.msecs

theorem Rising.round {c : Nat × Nat} (h : Rising s n moved m c t) (hm : Scheduled s moved m)
    (hpos : 0 < c.1) : Returns (moveDown moved c) t fun es f u => es = [] ∧
      f.Ends (fun d u => Rising s n moved m d u ∧ d.1 < c.1) (Fits s n moved m) u := by
  obtain ⟨hopen, hst, hparent, hbelow⟩ := h
  have hm' := hst.scheduled hm
  have hup := parentOf_lt hpos
  have hlt := hopen.lt
  obtain ⟨e, x, hne, hx⟩ := hopen.arranged.slots (parentOf c.1) (by omega) (by omega)
  have horder := TimeVal.lt_iff (hopen.numbered.normal hm') (hopen.numbered.normal hx.toScheduled)
  rw [← hx.value] at horder
  unfold moveDown
  rw [hparent, returns_bind, returns_entryAt hm'.entry, returns_bind,
    returns_valueAt hx.slot hx.entry, returns_ite]
  split
  next hlow =>
    rw [horder] at hlow
    rw [returns_bind, returns_heapAt hx.slot, returns_bind,
      returns_copyNode hopen.numbered hopen.gap_lt_maxSize hx.toScheduled, returns_pure]
    have hvalue : (t.put c.1 e x).value =
        Function.update t.value c.1 (t.value (parentOf c.1)) := by
      rw [put_value hopen.gap_lt_length hx.toScheduled, hx.value]
    refine ⟨rfl, ⟨hopen.move (by omega) (by omega) hx (hopen.gapped.up hpos),
      hst.trans rearranged_put, heapParent_eq _, ?_⟩, hup⟩
    rw [hvalue]
    exact hopen.gapped.below_up hpos (by omega)
  next hfits =>
    rw [horder] at hfits
    exact ⟨rfl, hopen, hst, fun _ => not_lt.mp hfits, hbelow⟩

/-- An entry with nothing greater above what is below its gap. -/
theorem returns_reheapUp (h : Open s n gap moved) (hm : Scheduled s moved m)
    (hbelow : Below s.value n gap m.timerValue.msecs) :
    Returns (reheapUp moved gap (heapParent gap)) s fun es _ t =>
      es = [] ∧ Rearranged s t ∧ Settled t n := by
  have h0 : Rising s n moved m (gap, heapParent gap) s :=
    ⟨h, Rearranged.refl s, heapParent_eq gap, hbelow⟩
  have hdone : ∀ c t, Rising s n moved m c t → decide (0 < c.1) = false →
      Fits s n moved m c t := fun c t hc hzero =>
    ⟨hc.opened, hc.rearranged, fun hpos => absurd hpos (of_decide_eq_false hzero), hc.below⟩
  rw [reheapUp, returns_bind]
  refine (returns_iterate (fun c => c.1)
    (fun c t hc hpos => hc.round hm (of_decide_eq_true hpos)) hdone h0
    (Nat.lt_succ_self gap)).mono fun es d t hd => ?_
  obtain ⟨rfl, hd⟩ := hd
  exact hd.fill hm

end Up

/-! ## Down -/

section Down

theorem returns_smallerChild (h : Open s n gap moved) (hchild : heapLeft gap < n) :
    Returns (smallerChild n (heapLeft gap)) s fun es c t =>
      es = [] ∧ t = s ∧ Least s.value n gap c := by
  have hleft : heapLeft gap = 2 * gap + 1 := by
    unfold heapLeft
    omega
  rw [hleft] at hchild ⊢
  have hside : ∀ i, 0 < i → parentOf i = gap → i = 2 * gap + 1 ∨ i = 2 * gap + 2 :=
    fun i hpos hi => (parentOf_eq_iff hpos).mp hi
  have hpl : parentOf (2 * gap + 1) = gap := (parentOf_eq_iff (by omega)).mpr (.inl rfl)
  have hpr : parentOf (2 * gap + 2) = gap := (parentOf_eq_iff (by omega)).mpr (.inr rfl)
  obtain ⟨e, x, -, hx⟩ := h.arranged.slots (2 * gap + 1) hchild (by omega)
  unfold smallerChild
  split
  next hright =>
    obtain ⟨e', x', -, hx'⟩ := h.arranged.slots (2 * gap + 2) hright (by omega)
    have horder := TimeVal.lt_iff (h.numbered.normal hx'.toScheduled)
      (h.numbered.normal hx.toScheduled)
    rw [← hx.value, ← hx'.value] at horder
    rw [returns_bind, returns_valueAt hx'.slot hx'.entry, returns_bind,
      returns_valueAt hx.slot hx.entry, returns_pure]
    refine ⟨rfl, rfl, ?_⟩
    split
    next hless =>
      rw [horder] at hless
      refine ⟨by omega, hright, hpr, fun i hpos hi hpi => ?_⟩
      obtain rfl | rfl := hside i hpos hpi
      · exact le_of_lt hless
      · exact le_refl _
    next hless =>
      rw [horder] at hless
      refine ⟨by omega, hchild, hpl, fun i hpos hi hpi => ?_⟩
      obtain rfl | rfl := hside i hpos hpi
      · exact le_refl _
      · exact not_lt.mp hless
  next hright =>
    refine ⟨rfl, rfl, by omega, hchild, hpl, fun i hpos hi hpi => ?_⟩
    obtain rfl | rfl := hside i hpos hpi
    · exact le_refl _
    · omega

/-- What holds at the head of a round of `reheap_down`. -/
structure Sinking (s : State) (n moved : Nat) (m : Entry) (c : Nat × Nat) (t : State) : Prop where
  opened : Open t n c.1 moved
  rearranged : Rearranged s t
  child : c.2 = heapLeft c.1
  above : 0 < c.1 → t.value (parentOf c.1) ≤ m.timerValue.msecs

theorem Sinking.round {c : Nat × Nat} (h : Sinking s n moved m c t) (hm : Scheduled s moved m)
    (hlt : c.2 < n) : Returns (moveUp n moved c) t fun es f u => es = [] ∧
      f.Ends (fun d u => Sinking s n moved m d u ∧ n - d.1 < n - c.1) (Fits s n moved m) u := by
  obtain ⟨hopen, hst, hchild, habove⟩ := h
  have hm' := hst.scheduled hm
  unfold moveUp
  rw [hchild] at hlt ⊢
  rw [returns_bind]
  refine (returns_smallerChild hopen hlt).mono fun es child t' hleast => ?_
  obtain ⟨rfl, rfl, hleast⟩ := hleast
  have hgap := hleast.gap_lt
  have hlt := hleast.lt
  obtain ⟨e, x, hne, hx⟩ := hopen.arranged.slots child hleast.lt (by omega)
  have horder := TimeVal.lt_iff (hopen.numbered.normal hx.toScheduled) (hopen.numbered.normal hm')
  rw [← hx.value] at horder
  rw [returns_bind, returns_valueAt hx.slot hx.entry, returns_bind, returns_entryAt hm'.entry,
    returns_ite]
  split
  next hlow =>
    rw [horder] at hlow
    rw [returns_bind, returns_heapAt hx.slot, returns_bind,
      returns_copyNode hopen.numbered hopen.gap_lt_maxSize hx.toScheduled, returns_pure]
    have hvalue : (t'.put c.1 e x).value = Function.update t'.value c.1 (t'.value child) := by
      rw [put_value hopen.gap_lt_length hx.toScheduled, hx.value]
    refine ⟨rfl, ⟨hopen.move hlt (by omega) hx (hopen.gapped.down hleast),
      hst.trans rearranged_put, rfl, fun _ => ?_⟩, by simp only; omega⟩
    rw [hvalue]
    exact hleast.above_down (le_of_lt hlow)
  next hfits =>
    rw [horder] at hfits
    refine ⟨rfl, hopen, hst, habove, fun i hpos hi hpi => ?_⟩
    exact le_trans (not_lt.mp hfits) (hleast.least i hpos hi hpi)

/-- An entry that may stand below what is above its gap. -/
theorem returns_reheapDown (h : Open s n gap moved) (hsize : s.curSize = n)
    (hm : Scheduled s moved m)
    (habove : 0 < gap → s.value (parentOf gap) ≤ m.timerValue.msecs) :
    Returns (reheapDown moved gap (heapLeft gap)) s fun es _ t =>
      es = [] ∧ Rearranged s t ∧ Settled t n := by
  have h0 : Sinking s n moved m (gap, heapLeft gap) s := ⟨h, Rearranged.refl s, rfl, habove⟩
  have hdone : ∀ c t, Sinking s n moved m c t → decide (c.2 < n) = false →
      Fits s n moved m c t := by
    intro c t hc hno
    refine ⟨hc.opened, hc.rearranged, hc.above, fun i hpos hi hpi => ?_⟩
    have hchild := hc.child
    have hside := (parentOf_eq_iff hpos).mp hpi
    have hend := of_decide_eq_false hno
    unfold heapLeft at hchild
    omega
  rw [reheapDown, returns_bind, returns_get, hsize, returns_bind]
  refine (returns_iterate (fun c => n - c.1)
    (fun c t hc hlt => hc.round hm (of_decide_eq_true hlt)) hdone h0
    (by simp only; omega)).mono fun es d t hd => ?_
  obtain ⟨rfl, hd⟩ := hd
  exact hd.fill hm

end Down

end Reheap

end SimpleSipClient.TimerHeap
