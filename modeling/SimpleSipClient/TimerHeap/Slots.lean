import SimpleSipClient.Foundation.FreeList
import SimpleSipClient.Foundation.HeapOrder
import SimpleSipClient.Foundation.Returns
import SimpleSipClient.Foundation.Table
import SimpleSipClient.TimerHeap.Time
import Mathlib.Data.Int.Order.Basic

/-! # Entries, numbers and slots

An entry that is scheduled has a number, the number leads to a slot, and the entry stands
there. While an entry moves, one slot is a gap: what stands there does not count.
-/

namespace SimpleSipClient.TimerHeap

open Foundation

/-! ## Basics -/

section Basics

variable {s : State} {slot e : Nat} {x : Entry}

@[simp] theorem returns_update {f : State → State} {post : List Event → Unit → State → Prop} :
    Returns (update f) s post ↔ post [] () (f s) := by
  simp [update]

@[simp] theorem returns_updateEntry {f : Entry → Entry}
    {post : List Event → Unit → State → Prop} : Returns (updateEntry e f) s post ↔
      post [] () { s with entries := s.entries.modify e f } := returns_update

@[simp] theorem returns_pjAssert {b : Bool} {a : Assertion}
    {post : List Event → Unit → State → Prop} :
    Returns (pjAssert b a) s post ↔ b = true ∧ post [] () s := by
  cases b <;> simp [pjAssert]

theorem returns_heapAt {post : List Event → Nat → State → Prop}
    (h : s.heap[slot]? = some (some e)) : Returns (heapAt slot) s post ↔ post [] e s := by
  simp [heapAt, h]

theorem returns_entryAt {post : List Event → Entry → State → Prop}
    (h : s.entries[e]? = some x) : Returns (entryAt e) s post ↔ post [] x s := by
  simp [entryAt, h]

theorem returns_valueAt {post : List Event → TimeVal → State → Prop}
    (h : s.heap[slot]? = some (some e)) (hx : s.entries[e]? = some x) :
    Returns (valueAt slot) s post ↔ post [] x.timerValue s := by
  simp [valueAt, returns_heapAt h, returns_entryAt hx]

end Basics

/-! ## Where an entry stands -/

structure Scheduled (s : State) (e : Nat) (x : Entry) : Prop where
  entry : s.entries[e]? = some x
  number : 1 ≤ x.timerId

structure Stands (s : State) (i e : Nat) (x : Entry) : Prop extends Scheduled s e x where
  slot : s.heap[i]? = some (some e)
  home : s.timerIds[x.timerId.toNat]? = some (i : Int)

def State.value (s : State) (i : Nat) : Int :=
  match s.heap[i]? with
  | some (some e) => (s.entries[e]?.map fun x => x.timerValue.msecs).getD 0
  | _ => 0

def State.nextFree (s : State) (id : Nat) : Int := -(s.timerIds[id]?.getD 0)

structure FreeList (s : State) (xs : List Nat) : Prop where
  linked : Linked s.nextFree s.timerIdsFreelist xs s.maxSize
  nodup : xs.Nodup
  inside : ∀ id ∈ xs, 1 ≤ id ∧ id < s.maxSize
  unused : ∀ id ∈ xs, ∀ ⦃e x⦄, Scheduled s e x → x.timerId ≠ id

/-- What there is to say of the numbers while `n` entries have one. -/
structure Numbered (s : State) (n : Nat) : Prop where
  heapLength : s.heap.length = s.maxSize
  idsLength : s.timerIds.length = s.maxSize
  number : ∀ ⦃e : Nat⦄ ⦃x : Entry⦄, s.entries[e]? = some x →
    x.timerId = -1 ∨ 1 ≤ x.timerId ∧ x.timerId < s.maxSize
  distinct : ∀ ⦃e e' x x'⦄, Scheduled s e x → Scheduled s e' x' → x.timerId = x'.timerId → e = e'
  normal : ∀ ⦃e x⦄, Scheduled s e x → x.timerValue.Normal
  counted : s.entries.countP pjTimerEntryRunning = n
  free : ∃ xs, FreeList s xs ∧ xs.length + n + 1 = s.maxSize

structure Placed (s : State) (n : Nat) : Prop where
  slots : ∀ i, i < n → ∃ e x, Stands s i e x
  homes : ∀ ⦃e x⦄, Scheduled s e x → ∃ i < n, Stands s i e x

/-- All but `moved`, which belongs into the gap. -/
structure Arranged (s : State) (n gap moved : Nat) : Prop where
  slots : ∀ i, i < n → i ≠ gap → ∃ e x, e ≠ moved ∧ Stands s i e x
  homes : ∀ ⦃e x⦄, Scheduled s e x → e ≠ moved → ∃ i < n, i ≠ gap ∧ Stands s i e x

structure Settled (s : State) (n : Nat) : Prop where
  numbered : Numbered s n
  placed : Placed s n
  ordered : HeapOrdered s.value n

structure Open (s : State) (n gap moved : Nat) : Prop where
  numbered : Numbered s n
  arranged : Arranged s n gap moved
  gapped : Gapped s.value n gap
  lt : gap < n
  fits : n ≤ s.maxSize

section Stands

variable {s : State} {i j e e' : Nat} {x x' : Entry} {n gap moved : Nat}

theorem Scheduled.running (h : Scheduled s e x) : pjTimerEntryRunning x = true :=
  decide_eq_true h.number

theorem Stands.value (h : Stands s i e x) : s.value i = x.timerValue.msecs := by
  simp [State.value, h.slot, h.entry]

theorem Stands.same_entry (h : Stands s i e x) (h' : Stands s i e' x') : e = e' := by
  have hslot := h.slot
  rw [h'.slot] at hslot
  cases hslot
  rfl

theorem Stands.same_slot (h : Stands s i e x) (h' : Stands s j e x') : i = j := by
  have hentry := h.entry
  rw [h'.entry] at hentry
  cases hentry
  have hhome := h.home
  rw [h'.home] at hhome
  cases hhome
  rfl

theorem Numbered.inside (h : Numbered s n) (hx : Scheduled s e x) :
    x.timerId < s.maxSize := by
  obtain hno | ⟨-, hlt⟩ := h.number hx.entry
  · have hpos := hx.number
    omega
  · exact hlt

theorem Numbered.toNat_ne (h : Numbered s n) (hx : Scheduled s e x) (hx' : Scheduled s e' x')
    (hne : e ≠ e') : x.timerId.toNat ≠ x'.timerId.toNat := by
  intro heq
  have hpos := hx.number
  have hpos' := hx'.number
  exact hne (h.distinct hx hx' (by omega))

end Stands

/-! ## Putting an entry into a slot -/

def State.put (s : State) (slot e : Nat) (x : Entry) : State :=
  { s with
    heap := s.heap.set slot (some e)
    timerIds := s.timerIds.set x.timerId.toNat slot }

/-- Nothing but the places in the heap has changed. -/
def Rearranged (s t : State) : Prop := t = { s with heap := t.heap, timerIds := t.timerIds }

section Put

variable {s t u : State} {slot i j e e' : Nat} {x x' : Entry} {n gap moved : Nat}

theorem Rearranged.refl (s : State) : Rearranged s s := rfl

theorem Rearranged.trans (h : Rearranged s t) (h' : Rearranged t u) : Rearranged s u := by
  unfold Rearranged at *
  rw [h']
  dsimp only
  rw [h]

theorem rearranged_put : Rearranged s (s.put slot e x) := rfl

theorem Rearranged.entries (h : Rearranged s t) : t.entries = s.entries := by
  rw [h]

theorem Rearranged.scheduled (h : Rearranged s t) (hx : Scheduled s e x) : Scheduled t e x := by
  refine ⟨?_, hx.number⟩
  rw [h.entries]
  exact hx.entry

theorem put_value (hslot : slot < s.heap.length) (hx : Scheduled s e x) :
    (s.put slot e x).value = Function.update s.value slot x.timerValue.msecs := by
  funext i
  by_cases hi : i = slot
  · subst hi
    rw [Function.update_self]
    simp [State.value, State.put, hslot, hx.entry]
  · rw [Function.update_of_ne hi]
    simp [State.value, State.put, Ne.symm hi]

theorem stands_put (hslot : slot < s.heap.length) (hid : x.timerId < s.timerIds.length)
    (hx : Scheduled s e x) : Stands (s.put slot e x) slot e x where
  entry := hx.entry
  number := hx.number
  slot := by simp [State.put, hslot]
  home := by
    have hpos := hx.number
    have hlt : x.timerId.toNat < s.timerIds.length := by omega
    simp [State.put, hlt]

theorem Stands.put (h : Stands s i e x) (hnum : Numbered s n) (hx' : Scheduled s e' x')
    (hslot : i ≠ slot) (hne : e ≠ e') : Stands (s.put slot e' x') i e x where
  entry := h.entry
  number := h.number
  slot := by
    rw [State.put, List.getElem?_set_ne hslot.symm]
    exact h.slot
  home := by
    rw [State.put, List.getElem?_set_ne (hnum.toNat_ne hx' h.toScheduled hne.symm)]
    exact h.home

theorem Numbered.put (h : Numbered s n) (hx : Scheduled s e x) :
    Numbered (s.put slot e x) n where
  heapLength := by simp [State.put, h.heapLength]
  idsLength := by simp [State.put, h.idsLength]
  number := fun _ _ hy => h.number hy
  distinct := fun _ _ _ _ hy hy' => h.distinct ⟨hy.entry, hy.number⟩ ⟨hy'.entry, hy'.number⟩
  normal := fun _ _ hy => h.normal ⟨hy.entry, hy.number⟩
  counted := h.counted
  free := by
    obtain ⟨xs, hfree, hlen⟩ := h.free
    refine ⟨xs, ⟨hfree.linked.congr ?_, hfree.nodup, hfree.inside, ?_⟩, hlen⟩
    · intro id hid
      have hne := hfree.unused id hid hx
      have hpos := hx.number
      have htoNat : x.timerId.toNat ≠ id := by omega
      rw [State.nextFree, State.put, List.getElem?_set_ne htoNat]
      rfl
    · exact fun id hid _ _ hy => hfree.unused id hid ⟨hy.entry, hy.number⟩

/-- What `copy_node` does. -/
theorem returns_copyNode {post : List Event → Unit → State → Prop} (h : Numbered s n)
    (hslot : slot < s.maxSize) (hx : Scheduled s e x) :
    Returns (copyNode slot e) s post ↔ post [] () (s.put slot e x) := by
  have hlt := h.inside hx
  have hpos := hx.number
  have hid : 0 ≤ x.timerId ∧ x.timerId < s.timerIds.length := by
    rw [h.idsLength]
    omega
  simp [copyNode, setHeap, setTimerId, h.heapLength, hslot, hx.entry, hid, entryAt, State.put]

/-- The gap moves to where the entry that fills it has stood. -/
theorem Arranged.move (h : Arranged s n gap moved) (hnum : Numbered s n) (hgap : gap < n)
    (hfits : n ≤ s.maxSize) (hj : j < n) (hne : j ≠ gap) (hx : Stands s j e x) :
    Arranged (s.put gap e x) n j moved := by
  have hlt := hnum.inside hx.toScheduled
  have hmoved : e ≠ moved := by
    obtain ⟨e', x', hmoved, hx'⟩ := h.slots j hj hne
    rwa [hx.same_entry hx']
  have hfill : Stands (s.put gap e x) gap e x :=
    stands_put (by rw [hnum.heapLength]; omega) (by rwa [hnum.idsLength]) hx.toScheduled
  refine ⟨fun i hi hij => ?_, fun e' x' hx' hm => ?_⟩
  · by_cases hig : i = gap
    · subst hig
      exact ⟨e, x, hmoved, hfill⟩
    · obtain ⟨e', x', hm, hx'⟩ := h.slots i hi hig
      have hee : e' ≠ e := by
        rintro rfl
        exact hij (hx'.same_slot hx)
      exact ⟨e', x', hm, hx'.put hnum hx.toScheduled hig hee⟩
  · by_cases hee : e' = e
    · subst hee
      have hentry := hx.entry
      rw [show s.entries[e']? = some x' from hx'.entry] at hentry
      cases hentry
      exact ⟨gap, hgap, hne.symm, hfill⟩
    · obtain ⟨i, hi, hig, hx'⟩ := h.homes ⟨hx'.entry, hx'.number⟩ hm
      refine ⟨i, hi, ?_, hx'.put hnum hx.toScheduled hig hee⟩
      rintro rfl
      exact hee (hx'.same_entry hx)

end Put

end SimpleSipClient.TimerHeap
