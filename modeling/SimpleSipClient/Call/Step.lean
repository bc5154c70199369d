import SimpleSipClient.Foundation.Returns
import SimpleSipClient.Foundation.Table
import SimpleSipClient.Call.Source

/-! # What the routines of a call do to its state

Rules for the routines that do not report to anybody, and for a report that changes nothing but
the session. A lock that is given back leaves what it found, unless it was the last hold on the
dialog.
-/

namespace SimpleSipClient.Call

open Foundation
open MediaClient (InvState)

/-! ## Basics -/

section Basics

variable {α : Type} {s : State} {k : Nat}

@[simp] theorem returns_update {f : State → State} {post : List Event → Unit → State → Prop} :
    Returns (update f) s post ↔ post [] () (f s) := by
  simp [update]

@[simp] theorem returns_updateInv {f : Inv → Inv} {post : List Event → Unit → State → Prop} :
    Returns (updateInv f) s post ↔ post [] () (s.withInv f) := returns_update

@[simp] theorem returns_updateTsx {f : Tsx → Tsx} {post : List Event → Unit → State → Prop} :
    Returns (updateTsx k f) s post ↔ post [] () (s.withTsx k f) := returns_update

theorem returns_tsx {t : Tsx} {post : List Event → Tsx → State → Prop}
    (h : s.tsxs[k]? = some t) : Returns (tsx k) s post ↔ post [] t s := by
  simp [tsx, h]

@[simp] theorem returns_fail {a : Assertion} {post : List Event → α → State → Prop} :
    Returns (fail a) s post ↔ False := by
  simp [fail]

@[simp] theorem returns_pjAssert {b : Bool} {a : Assertion}
    {post : List Event → Unit → State → Prop} :
    Returns (pjAssert b a) s post ↔ b = true ∧ post [] () s := by
  cases b <;> simp [pjAssert]

end Basics

/-! ## Locks -/

def State.lock (s : State) : State := { s with sessCount := s.sessCount + 1 }

def State.unlock (s : State) : State := { s with sessCount := s.sessCount - 1 }

/-- Nothing holds the dialog. -/
def State.Free (s : State) : Prop := s.sessCount = 0 ∧ s.tsxCount = 0

instance (s : State) : Decidable s.Free := inferInstanceAs (Decidable (_ ∧ _))

def State.settle (s : State) : State := if s.Free then { s with destroyed := true } else s

def State.settling (s : State) : List Event := if s.Free then [.destroyDialog] else []

def State.access (s : State) : List Event := if s.destroyed then [.useDestroyed] else []

section Locks

variable {α : Type} {s : State} {k : Nat}

@[simp] theorem State.unlock_lock (s : State) : s.lock.unlock = s := rfl

@[simp] theorem State.lock_tsxs (s : State) : s.lock.tsxs = s.tsxs := rfl
@[simp] theorem State.lock_inv (s : State) : s.lock.inv = s.inv := rfl
@[simp] theorem State.lock_loaded (s : State) : s.lock.loaded = s.loaded := rfl
@[simp] theorem State.lock_destroyed (s : State) : s.lock.destroyed = s.destroyed := rfl
@[simp] theorem State.lock_tsxCount (s : State) : s.lock.tsxCount = s.tsxCount := rfl
@[simp] theorem State.lock_sessCount (s : State) : s.lock.sessCount = s.sessCount + 1 := rfl
@[simp] theorem State.lock_remoteTag (s : State) : s.lock.remoteTag = s.remoteTag := rfl

@[simp] theorem State.unlock_tsxs (s : State) : s.unlock.tsxs = s.tsxs := rfl
@[simp] theorem State.unlock_inv (s : State) : s.unlock.inv = s.inv := rfl
@[simp] theorem State.unlock_loaded (s : State) : s.unlock.loaded = s.loaded := rfl
@[simp] theorem State.unlock_destroyed (s : State) : s.unlock.destroyed = s.destroyed := rfl
@[simp] theorem State.unlock_tsxCount (s : State) : s.unlock.tsxCount = s.tsxCount := rfl
@[simp] theorem State.unlock_sessCount (s : State) : s.unlock.sessCount = s.sessCount - 1 := rfl

@[simp] theorem State.settle_tsxs (s : State) : s.settle.tsxs = s.tsxs := by
  unfold State.settle
  split <;> rfl

@[simp] theorem State.settle_inv (s : State) : s.settle.inv = s.inv := by
  unfold State.settle
  split <;> rfl

@[simp] theorem State.settle_loaded (s : State) : s.settle.loaded = s.loaded := by
  unfold State.settle
  split <;> rfl

@[simp] theorem State.settle_sessCount (s : State) : s.settle.sessCount = s.sessCount := by
  unfold State.settle
  split <;> rfl

@[simp] theorem State.settle_tsxCount (s : State) : s.settle.tsxCount = s.tsxCount := by
  unfold State.settle
  split <;> rfl

theorem State.settle_of_held (h : ¬ s.Free) : s.settle = s := if_neg h

theorem State.settling_of_held (h : ¬ s.Free) : s.settling = [] := if_neg h

theorem State.not_free_lock (s : State) : ¬ s.lock.Free := fun h => Nat.succ_ne_zero _ h.1

theorem State.lock_withInv (s : State) (f : Inv → Inv) : s.lock.withInv f = (s.withInv f).lock :=
  rfl

@[simp] theorem State.free_withInv (s : State) (f : Inv → Inv) : (s.withInv f).Free ↔ s.Free :=
  Iff.rfl

theorem returns_locked {x : Routine α} {post : List Event → α → State → Prop} :
    Returns (locked x) s post ↔
      Returns x s.lock fun es a t =>
        0 < t.sessCount ∧ post (s.access ++ (es ++ t.unlock.settling)) a t.unlock.settle := by
  have hdec (t : State) (a : α) (post : List Event → α → State → Prop) :
      Returns (do pjsipDlgDecLock; return a) t post ↔
        0 < t.sessCount ∧ post t.unlock.settling a t.unlock.settle := by
    by_cases h : t.sessCount = 1 ∧ t.tsxCount = 0
    · have hfree : t.unlock.Free := by
        simp [State.Free, h]
      simp [pjsipDlgDecLock, h, State.settling, State.settle, hfree]
      simp [State.unlock, h]
    · by_cases h0 : 0 < t.sessCount
      · have hfree : ¬ t.unlock.Free := by
          simp [State.Free]
          omega
        simp [pjsipDlgDecLock, h, h0, State.settling, State.settle, hfree]
        simp [State.unlock]
      · simp [pjsipDlgDecLock, h0]
  have hinc (post : List Event → Unit → State → Prop) :
      Returns pjsipDlgIncLock s post ↔ post s.access () s.lock := by
    cases hd : s.destroyed <;> simp [pjsipDlgIncLock, useDialog, State.access, hd, State.lock]
  simp only [locked, returns_bind, hinc, hdec]

/-- A lock around what changes nothing changes nothing. -/
theorem returns_locked_same {x : Routine α} {a : α} (hd : s.destroyed = false)
    (hheld : ¬ s.Free) (hx : x s.lock = ⟨[], .ok (a, s.lock)⟩)
    {post : List Event → α → State → Prop} : Returns (locked x) s post ↔ post [] a s := by
  rw [returns_locked, returns_of_eq hx]
  simp [State.access, hd, State.settling_of_held hheld, State.settle_of_held hheld]

theorem returns_locked_pure (hd : s.destroyed = false) (hheld : ¬ s.Free) (a : α)
    {post : List Event → α → State → Prop} :
    Returns (locked (pure a)) s post ↔ post [] a s :=
  returns_locked_same hd hheld rfl

end Locks

end SimpleSipClient.Call
