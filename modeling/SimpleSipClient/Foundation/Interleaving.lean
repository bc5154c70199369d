import SimpleSipClient.Foundation.Sequence

/-! # Objects side by side

Objects of one kind are created one after the other, and each is acted on by itself. However
their actions interleave, the part of a run that concerns one object is a run of that object
alone.
-/

namespace Foundation

open Traced

inductive Move (ι τ : Type) where
  | create (t : τ)
  | act (k : Nat) (x : ι)

section Moves

variable {ε τ ι : Type}

/-- An action on the object with number `k`, if there is one. -/
def atEntry (k : Nat) (x : Traced ε τ Unit) : Traced (Nat × ε) (List τ) Unit := do
  let ts ← get
  match ts[k]? with
  | some t => zoom (fun _ => t) (fun u us => us.set k u) (Prod.mk k) x
  | none => halt .invalid

def move (f : ι → Traced ε τ Unit) : Move ι τ → Traced (Nat × ε) (List τ) Unit
  | .create t => do
      let ts ← get
      set (ts ++ [t])
  | .act k x => atEntry k (f x)

def Move.created : Move ι τ → Option τ
  | .create t => some t
  | .act _ _ => none

/-- The actions on the object with number `k`. -/
def Move.own (k : Nat) : Move ι τ → List ι
  | .create _ => []
  | .act j x => if j = k then [x] else []

theorem created_create (t : τ) (ms : List (Move ι τ)) :
    (Move.create t :: ms).filterMap Move.created = t :: ms.filterMap Move.created := rfl

theorem created_act (k : Nat) (x : ι) (ms : List (Move ι τ)) :
    (Move.act k x :: ms).filterMap Move.created = ms.filterMap Move.created := rfl

def ownEvent (k : Nat) (e : Nat × ε) : Option ε := if e.1 = k then some e.2 else none

/-! ## One action -/

theorem ownEvents_own (k : Nat) (es : List ε) :
    (es.map (Prod.mk k)).filterMap (ownEvent k) = es := by
  rw [List.filterMap_map]
  have hown : ownEvent k ∘ Prod.mk k = (some : ε → Option ε) := by
    funext e
    simp [ownEvent]
  rw [hown, List.filterMap_some]

theorem ownEvents_other {j k : Nat} (h : j ≠ k) (es : List ε) :
    (es.map (Prod.mk j)).filterMap (ownEvent k) = [] := by
  rw [List.filterMap_map, List.filterMap_eq_nil_iff]
  intro e _
  simp [ownEvent, h]

variable {f : ι → Traced ε τ Unit} {ts us : List τ} {t : τ} {j k : Nat}

/-- An action that returns has found its object and replaced it. -/
theorem atEntry_returns {x : Traced ε τ Unit} (h : (atEntry j x ts).outcome = .ok ((), us)) :
    ∃ t u, ts[j]? = some t ∧ (x t).outcome = .ok ((), u) ∧ us = ts.set j u ∧
      (atEntry j x ts).events = (x t).events.map (Prod.mk j) := by
  rw [atEntry, get_bind] at h ⊢
  cases ht : ts[j]? with
  | none =>
      rw [ht] at h
      cases h
  | some t =>
      rw [ht] at h
      simp only [zoom] at h ⊢
      cases hx : (x t).outcome with
      | error e =>
          rw [hx] at h
          cases h
      | ok r =>
          obtain ⟨⟨⟩, u⟩ := r
          rw [hx] at h
          cases h
          exact ⟨t, u, rfl, hx, rfl, rfl⟩

/-! ## One object among others -/

/-- Each object runs as it would alone: on the same actions it makes the same events and comes
to the same state. -/
theorem own_of_forEach {ms : List (Move ι τ)} (h : (forEach (move f) ms ts).outcome = .ok ((), us))
    (hk : (ts ++ ms.filterMap Move.created)[k]? = some t) :
    ∃ u, us[k]? = some u ∧ (forEach f (ms.flatMap (Move.own k)) t).outcome = .ok ((), u) ∧
      (forEach (move f) ms ts).events.filterMap (ownEvent k) =
        (forEach f (ms.flatMap (Move.own k)) t).events := by
  induction ms generalizing ts t with
  | nil =>
      cases h
      rw [List.filterMap_nil, List.append_nil] at hk
      exact ⟨t, hk, rfl, rfl⟩
  | cons m ms ih =>
      obtain ⟨vs, hm, hms⟩ := forEach_cons_returns h
      rw [forEach_ok hm, List.filterMap_append, List.flatMap_cons]
      cases m with
      | create t' =>
          cases hm
          rw [created_create, List.append_cons] at hk
          exact ih hms hk
      | act j x =>
          obtain ⟨t', u', hj, hx, rfl, hevents⟩ := atEntry_returns hm
          rw [created_act] at hk
          have hlt : j < ts.length := (List.getElem?_eq_some_iff.mp hj).1
          have hevents' : (move f (.act j x) ts).events = (f x t').events.map (Prod.mk j) :=
            hevents
          rw [hevents']
          by_cases hjk : j = k
          · subst hjk
            have hsame : t' = t := by
              rw [List.getElem?_append_left hlt, hj] at hk
              exact Option.some.inj hk
            subst hsame
            have hnext : (ts.set j u' ++ ms.filterMap Move.created)[j]? = some u' := by
              rw [List.getElem?_append_left (by rwa [List.length_set])]
              exact List.getElem?_set_self hlt
            obtain ⟨u, hu, hrun, hown⟩ := ih hms hnext
            have hact : Move.own j (.act j x : Move ι τ) = [x] := if_pos rfl
            rw [hact, List.singleton_append, forEach_ok hx, ownEvents_own, hown]
            exact ⟨u, hu, hrun, rfl⟩
          · have hnext : (ts.set j u' ++ ms.filterMap Move.created)[k]? = some t := by
              rw [← hk, List.getElem?_append, List.getElem?_append, List.length_set,
                List.getElem?_set_ne hjk]
            have hact : Move.own k (.act j x : Move ι τ) = [] := if_neg hjk
            rw [hact, ownEvents_other hjk]
            exact ih hms hnext

/-- An event comes from an object that was created. -/
theorem created_of_event {ms : List (Move ι τ)}
    (h : (forEach (move f) ms ts).outcome = .ok ((), us)) {e : Nat × ε}
    (he : e ∈ (forEach (move f) ms ts).events) :
    e.1 < (ts ++ ms.filterMap Move.created).length := by
  induction ms generalizing ts with
  | nil => cases he
  | cons m ms ih =>
      obtain ⟨vs, hm, hms⟩ := forEach_cons_returns h
      rw [forEach_ok hm] at he
      cases m with
      | create t' =>
          cases hm
          rw [created_create, List.append_cons]
          exact ih hms he
      | act j x =>
          obtain ⟨t', u', hj, -, rfl, hevents⟩ := atEntry_returns hm
          rw [created_act]
          obtain he | he := List.mem_append.mp he
          · have hact : (move f (.act j x) ts).events = (f x t').events.map (Prod.mk j) := hevents
            rw [hact] at he
            obtain ⟨e', -, rfl⟩ := List.mem_map.mp he
            have hlt : j < ts.length := (List.getElem?_eq_some_iff.mp hj).1
            rw [List.length_append]
            omega
          · have hnext := ih hms he
            rwa [List.length_append, List.length_set, ← List.length_append] at hnext

end Moves

/-! ## One object after the other -/

section Turns

variable {α : Type} {xs : List (Nat × α)}

theorem split_below (hsorted : xs.Pairwise fun a b => a.1 ≤ b.1) (n : Nat) :
    xs.filter (fun a => a.1 < n) ++ xs.filter (fun a => n ≤ a.1) = xs := by
  induction xs with
  | nil => rfl
  | cons x xs ih =>
      obtain ⟨hx, hxs⟩ := List.pairwise_cons.mp hsorted
      by_cases hlt : x.1 < n
      · rw [List.filter_cons_of_pos (by simpa using hlt),
          List.filter_cons_of_neg (by simpa using hlt), List.cons_append, ih hxs]
      · have hnone : xs.filter (fun a => a.1 < n) = [] := by
          refine List.filter_eq_nil_iff.mpr fun a ha => ?_
          have hle := hx a ha
          simp only [decide_eq_true_eq]
          omega
        have hall : xs.filter (fun a => n ≤ a.1) = xs := by
          refine List.filter_eq_self.mpr fun a ha => ?_
          have hle := hx a ha
          simp only [decide_eq_true_eq]
          omega
        rw [List.filter_cons_of_neg (by simpa using hlt),
          List.filter_cons_of_pos (by simpa using hlt), hnone, hall]
        rfl

theorem own_with_number (xs : List (Nat × α)) (k : Nat) :
    (xs.filterMap (ownEvent k)).map (Prod.mk k) = xs.filter fun a => a.1 = k := by
  induction xs with
  | nil => rfl
  | cons x xs ih =>
      obtain ⟨j, a⟩ := x
      by_cases hj : j = k
      · subst hj
        have hown : ownEvent j (j, a) = some a := if_pos rfl
        rw [List.filterMap_cons_some hown, List.map_cons, ih, List.filter_cons_of_pos (by simp)]
      · have hown : ownEvent k (j, a) = none := if_neg hj
        rw [List.filterMap_cons_none hown, ih, List.filter_cons_of_neg (by simpa using hj)]

/-- A list in the order of its numbers is what belongs to each of them, one after the other. -/
theorem turns_of_sorted (hsorted : xs.Pairwise fun a b => a.1 ≤ b.1) {n : Nat}
    (hbound : ∀ a ∈ xs, a.1 < n) :
    xs = (List.range n).flatMap fun k => (xs.filterMap (ownEvent k)).map (Prod.mk k) := by
  simp only [own_with_number]
  induction n generalizing xs with
  | zero =>
      cases xs with
      | nil => rfl
      | cons x xs => exact absurd (hbound x List.mem_cons_self) (Nat.not_lt_zero _)
  | succ n ih =>
      have hlow : xs.filter (fun a => a.1 < n) =
          (List.range n).flatMap fun k => xs.filter fun a => a.1 = k := by
        have hfirst := ih (hsorted.filter fun a => a.1 < n) fun a ha => by
          simpa using (List.mem_filter.mp ha).2
        rw [hfirst, List.flatMap_def, List.flatMap_def]
        congr 1
        refine List.map_congr_left fun k hk => ?_
        rw [List.filter_filter]
        refine List.filter_congr fun a _ => ?_
        have hlt := List.mem_range.mp hk
        by_cases hak : a.1 = k
        · simp [hak, hlt]
        · simp [hak]
      have hhigh : xs.filter (fun a => n ≤ a.1) = xs.filter fun a => a.1 = n := by
        refine List.filter_congr fun a ha => ?_
        have hlt := hbound a ha
        rw [decide_eq_decide]
        omega
      rw [List.range_succ, List.flatMap_append, List.flatMap_singleton, ← hlow, ← hhigh,
        split_below hsorted]

end Turns

end Foundation
