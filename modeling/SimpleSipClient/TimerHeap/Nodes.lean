import SimpleSipClient.TimerHeap.Reheap

/-! # Entries come and go

A number that is given back is the next one to be given out. The arrays double when an entry
takes the last number but one, so a number is always left.
-/

namespace SimpleSipClient.TimerHeap

open Foundation

/-- Nothing moves, no callback of a poll has just been taken out. -/
structure Intact (s : State) : Prop where
  settled : Settled s s.curSize
  room : s.curSize + 2 ≤ s.maxSize
  unlocked : ∀ ⦃e : Nat⦄ ⦃x : Entry⦄, s.entries[e]? = some x → x.timerId = -1 → x.grpLock = none
  clock : ∀ ⦃p : Poll⦄, s.poll = some p → p.now.Normal

/-! ## What the order does not depend on -/

/-- The entries that are scheduled have the numbers and the times they had. -/
structure Alike (s t : State) : Prop where
  heap : t.heap = s.heap
  timerIds : t.timerIds = s.timerIds
  freelist : t.timerIdsFreelist = s.timerIdsFreelist
  maxSize : t.maxSize = s.maxSize
  forth : ∀ ⦃e x⦄, Scheduled s e x →
    ∃ y, Scheduled t e y ∧ y.timerId = x.timerId ∧ y.timerValue = x.timerValue
  back : ∀ ⦃e y⦄, Scheduled t e y →
    ∃ x, Scheduled s e x ∧ y.timerId = x.timerId ∧ y.timerValue = x.timerValue
  number : ∀ ⦃e : Nat⦄ ⦃y : Entry⦄, t.entries[e]? = some y → y.timerId = -1 ∨ 1 ≤ y.timerId
  counted : t.entries.countP pjTimerEntryRunning = s.entries.countP pjTimerEntryRunning

section Alike

variable {s t : State} {i e n : Nat} {x y : Entry}

theorem Alike.stands (h : Alike s t) (hx : Stands s i e x) :
    ∃ y, Stands t i e y ∧ y.timerValue = x.timerValue := by
  obtain ⟨y, hy, hid, hvalue⟩ := h.forth hx.toScheduled
  refine ⟨y, ⟨hy, ?_, ?_⟩, hvalue⟩
  · rw [h.heap]
    exact hx.slot
  · rw [h.timerIds, hid]
    exact hx.home

theorem Alike.numbered (h : Alike s t) (hs : Numbered s n) : Numbered t n where
  heapLength := by
    rw [h.heap, h.maxSize]
    exact hs.heapLength
  idsLength := by
    rw [h.timerIds, h.maxSize]
    exact hs.idsLength
  number e y hy := by
    obtain hno | hpos := h.number hy
    · exact .inl hno
    · obtain ⟨x, hx, hid, -⟩ := h.back ⟨hy, hpos⟩
      have hlt := hs.inside hx
      rw [h.maxSize]
      omega
  distinct e e' y y' hy hy' heq := by
    obtain ⟨x, hx, hid, -⟩ := h.back hy
    obtain ⟨x', hx', hid', -⟩ := h.back hy'
    exact hs.distinct hx hx' (by omega)
  normal e y hy := by
    obtain ⟨x, hx, -, hvalue⟩ := h.back hy
    rw [hvalue]
    exact hs.normal hx
  counted := h.counted.trans hs.counted
  free := by
    obtain ⟨xs, hfree, hlen⟩ := hs.free
    have hnext : t.nextFree = s.nextFree := by
      funext id
      rw [State.nextFree, State.nextFree, h.timerIds]
    rw [← h.maxSize] at hlen
    refine ⟨xs, ⟨?_, hfree.nodup, ?_, fun id hid e y hy => ?_⟩, hlen⟩
    · rw [hnext, h.freelist, h.maxSize]
      exact hfree.linked
    · rw [h.maxSize]
      exact hfree.inside
    · obtain ⟨x, hx, hid', -⟩ := h.back hy
      rw [hid']
      exact hfree.unused id hid hx

theorem Alike.settled (h : Alike s t) (hs : Settled s n) : Settled t n where
  numbered := h.numbered hs.numbered
  placed := by
    refine ⟨fun i hi => ?_, fun e y hy => ?_⟩
    · obtain ⟨e, x, hx⟩ := hs.placed.slots i hi
      obtain ⟨y, hy, -⟩ := h.stands hx
      exact ⟨e, y, hy⟩
    · obtain ⟨x, hx, -⟩ := h.back hy
      obtain ⟨i, hi, hx⟩ := hs.placed.homes hx
      obtain ⟨y', hy', -⟩ := h.stands hx
      have hentry := hy.entry
      rw [hy'.entry] at hentry
      cases hentry
      exact ⟨i, hi, hy'⟩
  ordered := by
    refine hs.ordered.congr fun i hi => ?_
    obtain ⟨e, x, hx⟩ := hs.placed.slots i hi
    obtain ⟨y, hy, hvalue⟩ := h.stands hx
    rw [hy.value, hx.value, hvalue]

variable (hs : Numbered s n) (hheap : t.heap = s.heap) (hids : t.timerIds = s.timerIds)
variable (hfree : t.timerIdsFreelist = s.timerIdsFreelist) (hmax : t.maxSize = s.maxSize)

include hs hheap hids hfree hmax

theorem alike_of_entries (hentries : t.entries = s.entries) : Alike s t where
  heap := hheap
  timerIds := hids
  freelist := hfree
  maxSize := hmax
  forth e x hx := ⟨x, ⟨by rw [hentries]; exact hx.entry, hx.number⟩, rfl, rfl⟩
  back e y hy := ⟨y, ⟨by rw [← hentries]; exact hy.entry, hy.number⟩, rfl, rfl⟩
  number e y hy := by
    rw [hentries] at hy
    exact (hs.number hy).imp_right And.left
  counted := by rw [hentries]

theorem alike_of_modify {f : Entry → Entry} (hentries : t.entries = s.entries.modify e f)
    (hx : s.entries[e]? = some x) (hid : (f x).timerId = x.timerId)
    (hvalue : (f x).timerValue = x.timerValue) : Alike s t := by
  have hold : ∀ ⦃e' : Nat⦄ ⦃y : Entry⦄, t.entries[e']? = some y → ∃ z, s.entries[e']? = some z ∧
      y.timerId = z.timerId ∧ y.timerValue = z.timerValue := by
    intro e' y hy
    rw [hentries] at hy
    obtain ⟨z, hz, rfl⟩ := entry_of_modify hy
    refine ⟨z, hz, ?_⟩
    by_cases hne : e = e'
    · subst hne
      rw [hx] at hz
      cases hz
      rw [if_pos rfl]
      exact ⟨hid, hvalue⟩
    · rw [if_neg hne]
      exact ⟨rfl, rfl⟩
  refine ⟨hheap, hids, hfree, hmax, fun e' z hz => ?_, fun e' y hy => ?_, fun e' y hy => ?_, ?_⟩
  · have hlt : e' < t.entries.length := by
      rw [hentries, List.length_modify]
      exact (List.getElem?_eq_some_iff.mp hz.entry).1
    obtain ⟨z', hz', hid', hvalue'⟩ := hold (List.getElem?_eq_getElem hlt)
    rw [hz.entry] at hz'
    cases hz'
    have hpos := hz.number
    exact ⟨_, ⟨List.getElem?_eq_getElem hlt, by omega⟩, hid', hvalue'⟩
  · obtain ⟨z, hz, hid', hvalue'⟩ := hold hy.entry
    have hpos := hy.number
    exact ⟨z, ⟨hz, by omega⟩, hid', hvalue'⟩
  · obtain ⟨z, hz, hid', -⟩ := hold hy
    have hnumber := hs.number hz
    omega
  · have hcount := countP_modify (p := pjTimerEntryRunning) (f := f) hx
    have hsame : pjTimerEntryRunning (f x) = pjTimerEntryRunning x := by
      rw [pjTimerEntryRunning, hid, pjTimerEntryRunning]
    rw [hsame] at hcount
    rw [hentries]
    omega

/-- A new entry is not scheduled. -/
theorem alike_of_append (hentries : t.entries = s.entries ++ [x]) (hx : x.timerId = -1) :
    Alike s t where
  heap := hheap
  timerIds := hids
  freelist := hfree
  maxSize := hmax
  forth e y hy := by
    refine ⟨y, ⟨?_, hy.number⟩, rfl, rfl⟩
    rw [hentries, List.getElem?_append_left (List.getElem?_eq_some_iff.mp hy.entry).1]
    exact hy.entry
  back e y hy := by
    have hentry := hy.entry
    rw [hentries] at hentry
    obtain hentry | ⟨-, rfl⟩ := entry_of_append hentry
    · exact ⟨y, ⟨hentry, hy.number⟩, rfl, rfl⟩
    · have hpos := hy.number
      omega
  number e y hy := by
    rw [hentries] at hy
    obtain hy | ⟨-, rfl⟩ := entry_of_append hy
    · exact (hs.number hy).imp_right And.left
    · exact .inl hx
  counted := by
    have hno : pjTimerEntryRunning x = false := decide_eq_false (by omega)
    simp [hentries, hno]

end Alike

/-! ## Removal -/

section Remove

variable {s : State} {i e e' slot n : Nat} {x y : Entry}

/-- The entry is taken out, its number is free. -/
def State.release (s : State) (e : Nat) (x : Entry) : State :=
  { s with
    curSize := s.curSize - 1
    timerIds := s.timerIds.set x.timerId.toNat (-s.timerIdsFreelist)
    timerIdsFreelist := x.timerId
    entries := s.entries.modify e fun x => { x with timerId := -1 } }

theorem release_entry (hne : e' ≠ e) : (s.release e x).entries[e']? = s.entries[e']? := by
  simp [State.release, hne.symm]

theorem scheduled_release_iff :
    Scheduled (s.release e x) e' y ↔ e' ≠ e ∧ Scheduled s e' y := by
  constructor
  · rintro ⟨hy, hpos⟩
    obtain ⟨z, hz, rfl⟩ := entry_of_modify hy
    by_cases hne : e = e'
    · rw [if_pos hne] at hpos
      simp at hpos
    · rw [if_neg hne] at hpos ⊢
      exact ⟨Ne.symm hne, hz, hpos⟩
  · rintro ⟨hne, hy, hpos⟩
    refine ⟨?_, hpos⟩
    rw [release_entry hne]
    exact hy

theorem release_value : (s.release e x).value = s.value := by
  have hmap : ∀ e' : Nat, (s.release e x).entries[e']?.map (fun x => x.timerValue.msecs) =
      s.entries[e']?.map fun x => x.timerValue.msecs := by
    intro e'
    rw [State.release, List.getElem?_modify, Option.map_eq_map, Option.map_map]
    congr 1
    funext y
    simp only [Function.comp_apply]
    split <;> rfl
  funext i
  simp only [State.value, hmap]
  rfl

theorem Stands.release (h : Stands s i e' y) (hnum : Numbered s n) (hx : Scheduled s e x)
    (hne : e' ≠ e) : Stands (s.release e x) i e' y where
  entry := by
    rw [release_entry hne]
    exact h.entry
  number := h.number
  slot := h.slot
  home := by
    rw [State.release, List.getElem?_set_ne (hnum.toNat_ne hx h.toScheduled hne.symm)]
    exact h.home

/-- The number is put before the free ones. -/
theorem FreeList.release {xs : List Nat} (h : FreeList s xs) (hnum : Numbered s n)
    (hx : Scheduled s e x) : FreeList (s.release e x) (x.timerId.toNat :: xs) := by
  have hpos := hx.number
  have hlt := hnum.inside hx
  have hfresh : x.timerId.toNat ∉ xs := by
    intro hmem
    exact h.unused _ hmem hx (by omega)
  have hlen : x.timerId.toNat < s.timerIds.length := by
    rw [hnum.idsLength]
    omega
  refine ⟨⟨?_, ?_⟩, List.nodup_cons.mpr ⟨hfresh, h.nodup⟩, ?_, ?_⟩
  · simp only [State.release]
    omega
  · have hnext : (s.release e x).nextFree x.timerId.toNat = s.timerIdsFreelist := by
      simp [State.nextFree, State.release, hlen]
    rw [hnext]
    refine h.linked.congr fun id hid => ?_
    have hne : x.timerId.toNat ≠ id := fun heq => hfresh (heq ▸ hid)
    rw [State.nextFree, State.release, List.getElem?_set_ne hne]
    rfl
  · refine List.forall_mem_cons.mpr ⟨?_, h.inside⟩
    simp only [State.release]
    omega
  · intro id hid e' y hy
    obtain ⟨hne, hy⟩ := scheduled_release_iff.mp hy
    obtain rfl | hid := List.mem_cons.mp hid
    · have hdiff := hnum.toNat_ne hy hx hne
      omega
    · exact h.unused id hid hy

theorem Numbered.release (h : Numbered s (n + 1)) (hx : Scheduled s e x) :
    Numbered (s.release e x) n where
  heapLength := h.heapLength
  idsLength := by
    rw [State.release, List.length_set]
    exact h.idsLength
  number e' y hy := by
    obtain ⟨z, hz, rfl⟩ := entry_of_modify hy
    split
    · exact .inl rfl
    · exact h.number hz
  distinct _ _ _ _ hy hy' :=
    h.distinct (scheduled_release_iff.mp hy).2 (scheduled_release_iff.mp hy').2
  normal _ _ hy := h.normal (scheduled_release_iff.mp hy).2
  counted := by
    have hcount := countP_modify (p := pjTimerEntryRunning)
      (f := fun x => { x with timerId := -1 }) hx.entry
    rw [hx.running, h.counted] at hcount
    simpa [State.release, pjTimerEntryRunning] using hcount
  free := by
    obtain ⟨xs, hfree, hlen⟩ := h.free
    refine ⟨_, hfree.release h hx, ?_⟩
    simp only [State.release, List.length_cons]
    omega

structure Removed (s t : State) (e : Nat) : Prop where
  settled : Settled t t.curSize
  size : t.curSize + 1 = s.curSize
  entries : t.entries = s.entries.modify e fun x => { x with timerId := -1 }
  maxSize : t.maxSize = s.maxSize
  limit : t.maxEntriesPerPoll = s.maxEntriesPerPoll
  poll : t.poll = s.poll

theorem removed_of_rearranged {t : State} (hst : Rearranged (s.release e x) t)
    (hpos : 0 < s.curSize) (h : Settled t (s.curSize - 1)) : Removed s t e := by
  rw [hst] at h ⊢
  exact ⟨h, by simp only [State.release]; omega, rfl, rfl, rfl, rfl⟩

/-- The last entry is taken out. -/
theorem Settled.release_last (h : Settled s (n + 1)) (hx : Stands s n e x) :
    Settled (s.release e x) n where
  numbered := h.numbered.release hx.toScheduled
  placed := by
    refine ⟨fun i hi => ?_, fun e' y hy => ?_⟩
    · obtain ⟨e', y, hy⟩ := h.placed.slots i (by omega)
      refine ⟨e', y, hy.release h.numbered hx.toScheduled ?_⟩
      rintro rfl
      exact absurd (hy.same_slot hx) (by omega)
    · obtain ⟨hne, hy⟩ := scheduled_release_iff.mp hy
      obtain ⟨i, hi, hy⟩ := h.placed.homes hy
      have hin : i ≠ n := by
        rintro rfl
        exact hne (hy.same_entry hx)
      exact ⟨i, by omega, hy.release h.numbered hx.toScheduled hne⟩
  ordered := by
    rw [release_value]
    exact h.ordered.mono (Nat.le_succ n)

/-- Another one is taken out, and the last one is put into its slot. -/
theorem Settled.release_other {moved : Nat} {m : Entry} (h : Settled s (n + 1))
    (hfits : n ≤ s.maxSize) (hslot : slot < n) (hx : Stands s slot e x) (hm : Stands s n moved m) :
    Open ((s.release e x).put slot moved m) n slot moved := by
  have hne : moved ≠ e := by
    rintro rfl
    exact absurd (hm.same_slot hx) (by omega)
  have hnum := h.numbered.release hx.toScheduled
  have hm' := hm.release h.numbered hx.toScheduled hne
  refine ⟨hnum.put hm'.toScheduled, ⟨fun i hi hgap => ?_, fun e' y hy hmoved => ?_⟩, ?_, hslot, hfits⟩
  · obtain ⟨e', y, hy⟩ := h.placed.slots i (by omega)
    have hmoved : e' ≠ moved := by
      rintro rfl
      exact absurd (hy.same_slot hm) (by omega)
    have hrest : e' ≠ e := by
      rintro rfl
      exact hgap (hy.same_slot hx)
    exact ⟨e', y, hmoved,
      (hy.release h.numbered hx.toScheduled hrest).put hnum hm'.toScheduled hgap hmoved⟩
  · have hrel : Scheduled (s.release e x) e' y := ⟨hy.entry, hy.number⟩
    obtain ⟨hrest, hy'⟩ := scheduled_release_iff.mp hrel
    obtain ⟨i, hi, hy'⟩ := h.placed.homes hy'
    have hin : i ≠ n := by
      rintro rfl
      exact hmoved (hy'.same_entry hm)
    have hgap : i ≠ slot := by
      rintro rfl
      exact hrest (hy'.same_entry hx)
    exact ⟨i, by omega, hgap,
      (hy'.release h.numbered hx.toScheduled hrest).put hnum hm'.toScheduled hgap hmoved⟩
  · have hlen : slot < (s.release e x).heap.length := hx.lt_length
    rw [put_value hlen hm'.toScheduled, release_value]
    exact ((h.ordered.mono (Nat.le_succ n)).gapped slot).update _

theorem returns_pushFreelist {post : List Event → Unit → State → Prop} (hnum : Numbered s n)
    (hx : Scheduled s e x) : Returns (pushFreelist x.timerId) s post ↔
      post [] () { s with
        timerIds := s.timerIds.set x.timerId.toNat (-s.timerIdsFreelist)
        timerIdsFreelist := x.timerId } := by
  have hpos := hx.number
  have hid : 0 ≤ x.timerId ∧ x.timerId < s.timerIds.length := by
    rw [hnum.idsLength]
    exact ⟨by omega, hnum.inside hx⟩
  simp [pushFreelist, setTimerId, hid]

/-- Which way an entry must go from a slot is seen from the slot above. -/
theorem Open.parent {moved : Nat} {m : Entry} (h : Open s n slot moved)
    (hm : Stands s slot moved m) : ∃ e x, Stands s (heapParent slot) e x ∧
      (m.timerValue.gte x.timerValue = true ↔
        (0 < slot → s.value (parentOf slot) ≤ m.timerValue.msecs)) := by
  have hnormal := h.numbered.normal hm.toScheduled
  rw [heapParent_eq]
  obtain rfl | hpos := Nat.eq_zero_or_pos slot
  · refine ⟨moved, m, hm, ?_⟩
    rw [TimeVal.gte_iff hnormal hnormal]
    exact ⟨fun _ hpos => absurd hpos (Nat.lt_irrefl 0), fun _ => Int.le_refl _⟩
  · have hup := parentOf_lt hpos
    have hlt := h.lt
    obtain ⟨e, x, -, hx⟩ := h.arranged.slots (parentOf slot) (by omega) (by omega)
    refine ⟨e, x, hx, ?_⟩
    rw [TimeVal.gte_iff hnormal (h.numbered.normal hx.toScheduled), hx.value]
    exact ⟨fun hle _ => hle, fun hle => hle hpos⟩

theorem returns_removeNode (h : Settled s s.curSize) (hfits : s.curSize ≤ s.maxSize)
    (hslot : slot < s.curSize) (hx : Stands s slot e x) :
    Returns (removeNode slot) s fun es r t => es = [] ∧ r = e ∧ Removed s t e := by
  obtain ⟨n, hn⟩ : ∃ n, s.curSize = n + 1 := ⟨s.curSize - 1, by omega⟩
  have hpred : s.curSize - 1 = n := by omega
  have hall := h
  rw [hn] at hall
  have hsize : (s.release e x).curSize = n := hpred
  have hrelease : ({ s with
      curSize := n
      timerIds := s.timerIds.set x.timerId.toNat (-s.timerIdsFreelist)
      timerIdsFreelist := x.timerId
      entries := s.entries.modify e fun x => { x with timerId := -1 } } : State) =
      s.release e x := by
    rw [State.release, hpred]
  rw [removeNode, returns_bind, returns_heapAt hx.slot, returns_bind, returns_entryAt hx.entry,
    returns_bind, returns_pushFreelist h.numbered hx.toScheduled]
  simp only [returns_bind, returns_update, returns_updateEntry, returns_get, returns_pure, hpred,
    returns_ite, List.nil_append, List.append_nil, true_and]
  rw [hrelease]
  split
  next hlt =>
    obtain ⟨moved, m, hm⟩ := hall.placed.slots n (by omega)
    have hne : moved ≠ e := by
      rintro rfl
      exact absurd (hm.same_slot hx) (by omega)
    have hnum := hall.numbered.release hx.toScheduled
    have hm' := hm.release h.numbered hx.toScheduled hne
    have hopen := hall.release_other (by omega) hlt hx hm
    have hput : Stands ((s.release e x).put slot moved m) slot moved m := by
      refine stands_put hx.lt_length ?_ hm'.toScheduled
      rw [hnum.idsLength]
      exact hnum.inside hm'.toScheduled
    obtain ⟨p, y, hp, hway⟩ := hopen.parent hput
    rw [returns_heapAt hm'.slot, returns_copyNode hnum hopen.gap_lt_maxSize hm'.toScheduled,
      returns_entryAt hput.entry, returns_valueAt hp.slot hp.entry]
    simp only [List.nil_append]
    split
    next hgte =>
      refine (returns_reheapDown hopen hsize hput.toScheduled (hway.mp hgte)).mono
        fun es _ t ht => ?_
      obtain ⟨rfl, hst, hsettled⟩ := ht
      exact ⟨rfl, removed_of_rearranged (rearranged_put.trans hst) (by omega)
        (by rwa [hpred])⟩
    next hless =>
      rw [hway, Classical.not_imp] at hless
      obtain ⟨hpos, hlow⟩ := hless
      have hbelow := hopen.gapped.below hpos (Int.le_of_lt (Int.not_le.mp hlow))
      refine (returns_reheapUp hopen hput.toScheduled hbelow).mono fun es _ t ht => ?_
      obtain ⟨rfl, hst, hsettled⟩ := ht
      exact ⟨rfl, removed_of_rearranged (rearranged_put.trans hst) (by omega)
        (by rwa [hpred])⟩
  next hlt =>
    obtain rfl : slot = n := by omega
    exact removed_of_rearranged (Rearranged.refl _) (by omega)
      (by rw [hpred]; exact hall.release_last hx)

end Remove

/-! ## Insertion -/

section Insert

variable {s t : State} {i e e' id n : Nat} {x y : Entry} {value : TimeVal} {xs : List Nat}

/-- The entry has the first free number, and stands nowhere yet. -/
def State.take (s : State) (e id : Nat) (value : TimeVal) : State :=
  { s with
    timerIdsFreelist := s.nextFree id
    entries := s.entries.modify e fun x => { x with timerId := id, timerValue := value } }

def State.grown (s : State) : State :=
  { s with
    heap := s.heap ++ List.replicate s.maxSize none
    timerIds := s.timerIds ++ unused s.maxSize s.maxSize
    maxSize := s.maxSize * 2 }

theorem take_entry (hne : e' ≠ e) : (s.take e id value).entries[e']? = s.entries[e']? := by
  simp [State.take, hne.symm]

theorem take_self (hx : s.entries[e]? = some x) : (s.take e id value).entries[e]? =
    some { x with timerId := id, timerValue := value } := by
  simp [State.take, hx]

theorem scheduled_take (hx : s.entries[e]? = some x) (hid : 1 ≤ id) :
    Scheduled (s.take e id value) e { x with timerId := id, timerValue := value } :=
  ⟨take_self hx, by simp only; omega⟩

/-- Any other entry that is scheduled was so before. -/
theorem scheduled_of_take (h : Scheduled (s.take e id value) e' y) (hne : e' ≠ e) :
    Scheduled s e' y := by
  refine ⟨?_, h.number⟩
  rw [← take_entry hne]
  exact h.entry

theorem FreeList.first (h : FreeList s (id :: xs)) (hnum : Numbered s n) :
    s.timerIdsFreelist = id ∧ 1 ≤ id ∧ id < s.maxSize ∧ ∃ v, s.timerIds[id]? = some v := by
  obtain ⟨hpos, hlt⟩ := h.inside id List.mem_cons_self
  have hlen : id < s.timerIds.length := by rwa [hnum.idsLength]
  exact ⟨h.linked.1, hpos, hlt, _, List.getElem?_eq_getElem hlen⟩

theorem FreeList.take (h : FreeList s (id :: xs)) (hx : s.entries[e]? = some x) :
    FreeList (s.take e id value) xs := by
  obtain ⟨hfresh, hnodup⟩ := List.nodup_cons.mp h.nodup
  refine ⟨h.linked.2, hnodup, fun k hk => h.inside k (List.mem_cons_of_mem _ hk), ?_⟩
  intro k hk e' y hy
  by_cases hne : e' = e
  · subst hne
    have hentry := hy.entry
    rw [take_self hx] at hentry
    cases hentry
    intro heq
    obtain rfl : id = k := Int.ofNat.inj heq
    exact hfresh hk
  · exact h.unused k (List.mem_cons_of_mem _ hk) (scheduled_of_take hy hne)

theorem Numbered.take (h : Numbered s n) (hfree : FreeList s (id :: xs))
    (hlen : (id :: xs).length + n + 1 = s.maxSize) (hx : s.entries[e]? = some x)
    (hun : x.timerId < 1) (hnormal : value.Normal) : Numbered (s.take e id value) (n + 1) where
  heapLength := h.heapLength
  idsLength := h.idsLength
  number e' y hy := by
    obtain ⟨hpos, hlt⟩ := hfree.inside id List.mem_cons_self
    obtain ⟨z, hz, rfl⟩ := entry_of_modify hy
    split
    · refine .inr ⟨by simp only; omega, ?_⟩
      simp only [State.take]
      omega
    · exact h.number hz
  distinct e₁ e₂ y₁ y₂ h₁ h₂ heq := by
    have hself : ∀ ⦃y⦄, Scheduled (s.take e id value) e y → y.timerId = id := by
      intro y hy
      have hentry := hy.entry
      rw [take_self hx] at hentry
      cases hentry
      rfl
    have hother := hfree.unused id List.mem_cons_self
    by_cases hne₁ : e₁ = e
    · by_cases hne₂ : e₂ = e
      · rw [hne₁, hne₂]
      · subst hne₁
        exact absurd (heq ▸ hself h₁) (hother (scheduled_of_take h₂ hne₂))
    · by_cases hne₂ : e₂ = e
      · subst hne₂
        exact absurd (heq.trans (hself h₂)) (hother (scheduled_of_take h₁ hne₁))
      · exact h.distinct (scheduled_of_take h₁ hne₁) (scheduled_of_take h₂ hne₂) heq
  normal e' y hy := by
    by_cases hne : e' = e
    · subst hne
      have hentry := hy.entry
      rw [take_self hx] at hentry
      cases hentry
      exact hnormal
    · exact h.normal (scheduled_of_take hy hne)
  counted := by
    obtain ⟨hpos, -⟩ := hfree.inside id List.mem_cons_self
    have hcount := countP_modify (p := pjTimerEntryRunning)
      (f := fun x => { x with timerId := id, timerValue := value }) hx
    have hno : pjTimerEntryRunning x = false := decide_eq_false (by omega)
    have hyes : pjTimerEntryRunning { x with timerId := (id : Int), timerValue := value } = true :=
      decide_eq_true (by simp only; omega)
    rw [hno, hyes, h.counted] at hcount
    simpa [State.take] using hcount
  free := by
    refine ⟨xs, hfree.take hx, ?_⟩
    rw [List.length_cons] at hlen
    simp only [State.take]
    omega

theorem Numbered.grown (h : Numbered s n) : Numbered s.grown n where
  heapLength := by
    simp only [State.grown, List.length_append, List.length_replicate, h.heapLength]
    omega
  idsLength := by
    simp only [State.grown, List.length_append, unused, List.length_map, List.length_range',
      h.idsLength]
    omega
  number e x hx := by
    have hnumber := h.number hx
    simp only [State.grown]
    omega
  distinct _ _ _ _ hx hy := h.distinct ⟨hx.entry, hx.number⟩ ⟨hy.entry, hy.number⟩
  normal _ _ hx := h.normal ⟨hx.entry, hx.number⟩
  counted := h.counted
  free := by
    obtain ⟨xs, hfree, hlen⟩ := h.free
    refine ⟨xs ++ List.range' s.maxSize s.maxSize, ⟨?_, ?_, ?_, ?_⟩, ?_⟩
    · have hold : Linked s.grown.nextFree s.timerIdsFreelist xs s.maxSize := by
        refine hfree.linked.congr fun id hid => ?_
        have hlt := (hfree.inside id hid).2
        rw [State.nextFree, State.grown, List.getElem?_append_left (by rwa [h.idsLength])]
        rfl
      have hnew : ∀ i, s.maxSize ≤ i → i < s.maxSize + s.maxSize →
          s.grown.nextFree i = i + 1 := by
        intro i hlow hhigh
        have hidx : i - s.maxSize < s.maxSize := by omega
        have hsum : s.maxSize + (i - s.maxSize) = i := by omega
        rw [State.nextFree, State.grown, List.getElem?_append_right (by rwa [h.idsLength])]
        simp [unused, h.idsLength, hidx, hsum]
      rw [State.grown, Nat.mul_two]
      exact hold.append (linked_range' hnew)
    · refine List.nodup_append.mpr ⟨hfree.nodup, List.nodup_range', fun a ha b hb => ?_⟩
      have hlt := (hfree.inside a ha).2
      have hge := (List.mem_range'_1.mp hb).1
      omega
    · intro id hid
      simp only [State.grown]
      obtain hid | hid := List.mem_append.mp hid
      · have hin := hfree.inside id hid
        omega
      · have hin := List.mem_range'_1.mp hid
        omega
    · intro id hid e x hx
      obtain hid | hid := List.mem_append.mp hid
      · exact hfree.unused id hid ⟨hx.entry, hx.number⟩
      · have hin := (List.mem_range'_1.mp hid).1
        have hlt := h.inside (⟨hx.entry, hx.number⟩ : Scheduled s e x)
        omega
    · simp only [State.grown, List.length_append, List.length_range']
      omega

theorem Stands.grown (h : Stands s i e x) (hnum : Numbered s n) : Stands s.grown i e x where
  entry := h.entry
  number := h.number
  slot := by
    rw [State.grown, List.getElem?_append_left h.lt_length]
    exact h.slot
  home := by
    have hlt := hnum.inside h.toScheduled
    have hpos := h.number
    have hlen : x.timerId.toNat < s.timerIds.length := by
      rw [hnum.idsLength]
      omega
    rw [State.grown, List.getElem?_append_left hlen]
    exact h.home

/-- A slot at the end, for an entry that has got a number. -/
structure Waiting (s : State) (n e : Nat) (x : Entry) : Prop where
  numbered : Numbered s (n + 1)
  scheduled : Scheduled s e x
  slots : ∀ i, i < n → ∃ e' y, e' ≠ e ∧ Stands s i e' y
  homes : ∀ ⦃e' y⦄, Scheduled s e' y → e' ≠ e → ∃ i < n, Stands s i e' y
  ordered : HeapOrdered s.value n

theorem Waiting.grown (h : Waiting s n e x) : Waiting s.grown n e x where
  numbered := h.numbered.grown
  scheduled := ⟨h.scheduled.entry, h.scheduled.number⟩
  slots i hi := by
    obtain ⟨e', y, hne, hy⟩ := h.slots i hi
    exact ⟨e', y, hne, hy.grown h.numbered⟩
  homes e' y hy hne := by
    obtain ⟨i, hi, hy⟩ := h.homes ⟨hy.entry, hy.number⟩ hne
    exact ⟨i, hi, hy.grown h.numbered⟩
  ordered := by
    refine h.ordered.congr fun i hi => ?_
    obtain ⟨e', y, -, hy⟩ := h.slots i hi
    rw [(hy.grown h.numbered).value, hy.value]

theorem Waiting.opened (h : Waiting s n e x) (hfits : n < s.maxSize) : Open s (n + 1) n e where
  numbered := h.numbered
  arranged := by
    refine ⟨fun i hi hne => h.slots i (by omega), fun e' y hy hne => ?_⟩
    obtain ⟨i, hi, hy⟩ := h.homes hy hne
    exact ⟨i, by omega, by omega, hy⟩
  gapped := h.ordered.gapped_last
  lt := Nat.lt_succ_self n
  fits := hfits

theorem Settled.take (h : Settled s n) (hfree : FreeList s (id :: xs))
    (hlen : (id :: xs).length + n + 1 = s.maxSize) (hx : s.entries[e]? = some x)
    (hun : x.timerId < 1) (hnormal : value.Normal) :
    Waiting (s.take e id value) n e { x with timerId := id, timerValue := value } := by
  have hne : ∀ ⦃e' y⦄, Scheduled s e' y → e' ≠ e := by
    rintro e' y hy rfl
    have hentry := hy.entry
    rw [hx] at hentry
    cases hentry
    have hpos := hy.number
    omega
  have htake : ∀ ⦃i e' y⦄, Stands s i e' y → Stands (s.take e id value) i e' y := by
    intro i e' y hy
    refine ⟨⟨?_, hy.number⟩, hy.slot, hy.home⟩
    rw [take_entry (hne hy.toScheduled)]
    exact hy.entry
  refine ⟨h.numbered.take hfree hlen hx hun hnormal,
    scheduled_take hx (hfree.inside id List.mem_cons_self).1, fun i hi => ?_, fun e' y hy hne' => ?_,
    h.ordered.congr fun i hi => ?_⟩
  · obtain ⟨e', y, hy⟩ := h.placed.slots i hi
    exact ⟨e', y, hne hy.toScheduled, htake hy⟩
  · obtain ⟨i, hi, hy⟩ := h.placed.homes (scheduled_of_take hy hne')
    exact ⟨i, hi, htake hy⟩
  · obtain ⟨e', y, hy⟩ := h.placed.slots i hi
    rw [(htake hy).value, hy.value]

structure Inserted (s t : State) (e : Nat) (value : TimeVal) : Prop where
  settled : Settled t t.curSize
  size : t.curSize = s.curSize + 1
  room : t.curSize + 2 ≤ t.maxSize
  entries : ∃ id : Int, 1 ≤ id ∧
    t.entries = s.entries.modify e fun x => { x with timerId := id, timerValue := value }
  limit : t.maxEntriesPerPoll = s.maxEntriesPerPoll
  poll : t.poll = s.poll

theorem returns_popFreelist {post : List Event → Int → State → Prop} (hnum : Numbered s n)
    (h : FreeList s (id :: xs)) : Returns (popFreelist) s post ↔
      post [] id { s with timerIdsFreelist := s.nextFree id } := by
  obtain ⟨hfirst, -, -, v, hv⟩ := h.first hnum
  simp [popFreelist, timerIdAt, hfirst, hv, State.nextFree]

/-- The heap grows if it must, and the entry rises from the end. -/
theorem returns_insertNode (h : Waiting s s.curSize e x) (hroom : s.curSize + 2 ≤ s.maxSize) :
    Returns (insertNode e) s fun es _ t => es = [] ∧ Settled t t.curSize ∧
      t.curSize = s.curSize + 1 ∧ t.curSize + 2 ≤ t.maxSize ∧ t.entries = s.entries ∧
      t.maxEntriesPerPoll = s.maxEntriesPerPoll ∧ t.poll = s.poll := by
  have hrise : ∀ u : State, Waiting u s.curSize e x → u.curSize = s.curSize →
      s.curSize + 3 ≤ u.maxSize → u.entries = s.entries →
      u.maxEntriesPerPoll = s.maxEntriesPerPoll → u.poll = s.poll →
      Returns (reheapUp e s.curSize (heapParent s.curSize)) u fun es _ t => es = [] ∧
        Settled { t with curSize := t.curSize + 1 } (t.curSize + 1) ∧
        t.curSize + 1 = s.curSize + 1 ∧ t.curSize + 1 + 2 ≤ t.maxSize ∧ t.entries = s.entries ∧
        t.maxEntriesPerPoll = s.maxEntriesPerPoll ∧ t.poll = s.poll := by
    intro u hu hsize hfits hentries hlimit hpoll
    refine (returns_reheapUp (hu.opened (by omega)) hu.scheduled below_last).mono fun es _ t ht => ?_
    obtain ⟨rfl, hst, hsettled⟩ := ht
    have hcur : t.curSize = u.curSize := by rw [hst]
    have hmax : t.maxSize = u.maxSize := by rw [hst]
    refine ⟨rfl, ?_, by omega, by omega, ?_, ?_, ?_⟩
    · rw [hcur, hsize]
      exact (alike_of_entries (t := { t with curSize := s.curSize + 1 }) hsettled.numbered rfl rfl rfl
        rfl rfl).settled hsettled
    · rw [hst.entries, hentries]
    · rw [hst]
      exact hlimit
    · rw [hst]
      exact hpoll
  simp only [insertNode, growHeap, returns_bind, returns_get, returns_ite, returns_update,
    List.nil_append, List.append_nil]
  split
  next hfull =>
    exact hrise s.grown h.grown rfl (by simp only [State.grown]; omega) rfl rfl rfl
  next hfull => exact hrise s h rfl (by omega) rfl rfl rfl

theorem returns_scheduleEntry (h : Intact s) (hx : s.entries[e]? = some x) (hun : x.timerId < 1)
    (hnormal : value.Normal) : Returns (scheduleEntry e value) s fun es status t =>
      es = [] ∧ status = 0 ∧ Inserted s t e value := by
  have hroom := h.room
  have hless : s.curSize < s.maxSize := by omega
  obtain ⟨xs, hfree, hlen⟩ := h.settled.numbered.free
  cases xs with
  | nil =>
      rw [List.length_nil] at hlen
      omega
  | cons id xs =>
      obtain ⟨hfirst, hpos, -, -⟩ := hfree.first h.settled.numbered
      have hwait := h.settled.take hfree hlen hx hun hnormal
      simp only [scheduleEntry, returns_bind, returns_get, if_pos hless,
        returns_popFreelist h.settled.numbered hfree, returns_updateEntry, returns_pure,
        List.nil_append, List.append_nil]
      refine (returns_insertNode (s := s.take e id value) hwait hroom).mono fun es _ t ht => ?_
      obtain ⟨rfl, hsettled, hsize, hroom, hentries, hlimit, hpoll⟩ := ht
      exact ⟨rfl, trivial, hsettled, hsize, hroom, ⟨id, by omega, hentries⟩, hlimit, hpoll⟩

end Insert

end SimpleSipClient.TimerHeap
