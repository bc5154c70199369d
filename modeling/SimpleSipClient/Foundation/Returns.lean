import SimpleSipClient.Foundation.Loop
import SimpleSipClient.Foundation.Runs

/-! # What a computation returns with

`Returns x s post`: from `s` the computation returns, and its events, its value and its last
state satisfy `post`. A computation that halts satisfies no `post`. The rules for the building
blocks are equivalences, so that a goal about a composition becomes one about its branches, and
a composition that cannot return becomes `False`.
-/

namespace Foundation

open Traced

variable {ε σ ι α β : Type}

def Returns (x : Traced ε σ α) (s : σ) (post : List ε → α → σ → Prop) : Prop :=
  match x s with
  | ⟨es, .ok (a, t)⟩ => post es a t
  | ⟨_, .error _⟩ => False

/-! ## Building blocks -/

section Rules

variable {x : Traced ε σ α} {s : σ} {post post' : List ε → α → σ → Prop}

@[simp] theorem returns_pure (a : α) :
    Returns (pure a : Traced ε σ α) s post ↔ post [] a s := Iff.rfl

@[simp] theorem returns_get {post : List ε → σ → σ → Prop} :
    Returns (get : Traced ε σ σ) s post ↔ post [] s s := Iff.rfl

@[simp] theorem returns_set {t : σ} {post : List ε → Unit → σ → Prop} :
    Returns (set t : Traced ε σ Unit) s post ↔ post [] () t := Iff.rfl

@[simp] theorem returns_emit {e : ε} {post : List ε → Unit → σ → Prop} :
    Returns (emit e : Traced ε σ Unit) s post ↔ post [e] () s := Iff.rfl

@[simp] theorem returns_halt {h : Halt} :
    Returns (halt h : Traced ε σ α) s post ↔ False := Iff.rfl

@[simp] theorem returns_bind {f : α → Traced ε σ β} {post : List ε → β → σ → Prop} :
    Returns (x >>= f) s post ↔
      Returns x s fun es a t => Returns (f a) t fun es' b u => post (es ++ es') b u := by
  unfold Returns
  rw [bind_run]
  rcases x s with ⟨es, _ | ⟨a, t⟩⟩
  · rfl
  · dsimp only
    rcases f a t with ⟨es', _ | ⟨b, u⟩⟩ <;> rfl

@[simp] theorem returns_ite {p : Prop} [Decidable p] {y : Traced ε σ α} :
    Returns (if p then x else y) s post ↔ if p then Returns x s post else Returns y s post := by
  split <;> rfl

theorem Returns.mono (h : Returns x s post) (hpost : ∀ es a t, post es a t → post' es a t) :
    Returns x s post' := by
  unfold Returns at *
  rcases hx : x s with ⟨es, _ | ⟨a, t⟩⟩ <;> rw [hx] at h
  · exact h
  · exact hpost es a t h

/-- What is known of the first part is what the second part may rely on. -/
theorem Returns.bind {f : α → Traced ε σ β} {post' : List ε → β → σ → Prop}
    (h : Returns x s post)
    (hf : ∀ es a t, post es a t → Returns (f a) t fun es' b u => post' (es ++ es') b u) :
    Returns (x >>= f) s post' :=
  returns_bind.mpr (h.mono hf)

theorem Returns.and (h : Returns x s post) (h' : Returns x s post') :
    Returns x s fun es a t => post es a t ∧ post' es a t := by
  unfold Returns at *
  rcases hx : x s with ⟨es, _ | ⟨a, t⟩⟩ <;> rw [hx] at h h'
  · exact h
  · exact ⟨h, h'⟩

theorem Returns.elim (h : Returns x s post) :
    ∃ es a t, x s = ⟨es, .ok (a, t)⟩ ∧ post es a t := by
  unfold Returns at h
  rcases hx : x s with ⟨es, _ | ⟨a, t⟩⟩ <;> rw [hx] at h
  · exact h.elim
  · exact ⟨es, a, t, rfl, h⟩

theorem returns_of_eq {es : List ε} {a : α} {t : σ} (h : x s = ⟨es, .ok (a, t)⟩) :
    Returns x s post ↔ post es a t := by
  unfold Returns
  rw [h]

theorem eq_of_returns {es : List ε} {a : α} {t : σ}
    (h : Returns x s fun es' a' t' => es' = es ∧ a' = a ∧ t' = t) : x s = ⟨es, .ok (a, t)⟩ := by
  obtain ⟨_, _, _, hx, rfl, rfl, rfl⟩ := h.elim
  exact hx

end Rules

/-! ## Loops -/

section Loops

variable {γ : Type} {guard : γ → Bool} {body : γ → Traced ε σ (Flow γ)} {I P : γ → σ → Prop}

/-- How a round ends. -/
def Flow.Ends (I P : γ → σ → Prop) : Flow γ → σ → Prop
  | .again c, s => I c s
  | .leave c, s => P c s

/-- A loop that keeps an invariant and gets nearer to its end in every round. -/
theorem returns_iterate (m : γ → Nat)
    (hround : ∀ c s, I c s → guard c = true → Returns (body c) s fun es f t =>
      es = [] ∧ f.Ends (fun d t => I d t ∧ m d < m c) P t)
    (hdone : ∀ c s, I c s → guard c = false → P c s)
    {fuel : Nat} {c : γ} {s : σ} (h0 : I c s) (hfuel : m c < fuel) :
    Returns (iterate guard body fuel c) s fun es d t => es = [] ∧ P d t := by
  induction fuel generalizing c s with
  | zero => omega
  | succ fuel ih =>
      rw [iterate]
      split
      next hg =>
        obtain ⟨es, f, t, hrun, rfl, hf⟩ := (hround c s h0 hg).elim
        rw [returns_bind, returns_of_eq hrun]
        cases f with
        | again d =>
            obtain ⟨hI, hlt⟩ : I d t ∧ m d < m c := hf
            exact ih hI (by omega)
        | leave d => exact ⟨rfl, hf⟩
      next hg => exact ⟨rfl, hdone c s h0 (Bool.eq_false_iff.mpr hg)⟩

end Loops

/-! ## Runs that return -/

namespace Run

variable {act : ι → Traced ε σ Unit} {possible : σ → ι → Bool} {start : σ}

/-- No step of the run halts, and no event of it is bad. -/
def Completes (r : Run act possible start) (Q : ε → Prop) : Prop :=
  (∃ t, r.EndsIn t) ∧ ∀ e ∈ r.events, Q e

theorem reached_of_forEach {xs : List ι} {s t : σ}
    (h : (forEach act xs s).outcome = .ok ((), t)) :
    t = s ∨ ∃ v ∈ visits act xs s, (act v.1 v.2).outcome = .ok ((), t) := by
  induction xs generalizing s with
  | nil =>
      cases h
      exact .inl rfl
  | cons x xs ih =>
      obtain ⟨u, hx, hxs⟩ := forEach_cons_returns h
      rw [visits_ok hx]
      obtain rfl | ⟨v, hv, hout⟩ := ih hxs
      · exact .inr ⟨(x, s), List.mem_cons_self, hx⟩
      · exact .inr ⟨v, List.mem_cons_of_mem _ hv, hout⟩

theorem EndsIn.reached {r : Run act possible start} {t : σ} (h : r.EndsIn t) : r.Reached t :=
  reached_of_forEach h

end Run

section Steps

variable {act : ι → Traced ε σ Unit} {possible : σ → ι → Bool} {start s : σ}
variable {Q : ε → Prop} {I : σ → Prop} {C : ι → σ → Prop}

theorem forEach_completes_iff {xs : List ι}
    (hgood : ∀ x s, I s → possible s x = true → C x s →
      Returns (act x) s fun es _ t => (∀ e ∈ es, Q e) ∧ I t)
    (hbad : ∀ x s, I s → possible s x = true →
      Returns (act x) s (fun es _ _ => ∀ e ∈ es, Q e) → C x s)
    (h0 : I s) (hp : ∀ v ∈ visits act xs s, possible v.2 v.1 = true) :
    Returns (forEach act xs) s (fun es _ _ => ∀ e ∈ es, Q e) ↔
      ∀ v ∈ visits act xs s, C v.1 v.2 := by
  induction xs generalizing s with
  | nil => simp [forEach, visits]
  | cons x xs ih =>
      have hx : possible s x = true := hp (x, s) List.mem_cons_self
      by_cases hC : C x s
      · obtain ⟨es, ⟨⟩, t, hrun, hes, hI⟩ := (hgood x s h0 hx hC).elim
        have hout : (act x s).outcome = .ok ((), t) := by rw [hrun]
        rw [visits_ok hout, List.forall_mem_cons] at hp ⊢
        rw [and_iff_right hC, ← ih hI hp.2, forEach, returns_bind, returns_of_eq hrun]
        simp only [List.forall_mem_append, and_iff_right hes]
      · refine ⟨fun h => absurd (hbad x s h0 hx ?_) hC, fun h => absurd ?_ hC⟩
        · rw [forEach, returns_bind] at h
          refine h.mono fun es a t ht => ?_
          obtain ⟨es', _, _, _, hes⟩ := ht.elim
          exact (List.forall_mem_append.mp hes).1
        · exact h (x, s) List.mem_cons_self

/-- Where a step returns with good events exactly under `C`, given the invariant, the runs that
complete are those whose steps all meet `C`. -/
theorem Run.completes_iff_condition (r : Run act possible start) (h0 : I start)
    (hgood : ∀ x s, I s → possible s x = true → C x s →
      Returns (act x) s fun es _ t => (∀ e ∈ es, Q e) ∧ I t)
    (hbad : ∀ x s, I s → possible s x = true →
      Returns (act x) s (fun es _ _ => ∀ e ∈ es, Q e) → C x s) :
    r.Completes Q ↔ ∀ v ∈ r.steps, C v.1 v.2 := by
  rw [Run.steps, ← forEach_completes_iff hgood hbad h0 r.each_possible]
  constructor
  · rintro ⟨⟨t, ht⟩, hes⟩
    have hrun : forEach act r.inputs start = ⟨r.events, .ok ((), t)⟩ := by
      rw [← ht, Run.events]
    exact (returns_of_eq hrun).mpr hes
  · intro h
    obtain ⟨es, ⟨⟩, t, hrun, hes⟩ := h.elim
    refine ⟨⟨t, ?_⟩, ?_⟩
    · rw [Run.EndsIn, hrun]
    · rw [Run.events, hrun]
      exact hes

/-! ## What a run adds up to -/

section Sums

variable {S : ι → σ → List ε → σ → Prop} {R : List (ι × σ) → σ → List ε → σ → Prop}

theorem forEach_sums {xs : List ι} (hnil : ∀ s, R [] s [] s)
    (hcons : ∀ {x vs s es t fs u}, S x s es t → R vs t fs u → R ((x, s) :: vs) s (es ++ fs) u)
    (hstep : ∀ x s, I s → possible s x = true → C x s →
      Returns (act x) s fun es _ t => I t ∧ S x s es t)
    (h0 : I s) (hp : ∀ v ∈ visits act xs s, possible v.2 v.1 = true)
    (hC : ∀ v ∈ visits act xs s, C v.1 v.2) :
    Returns (forEach act xs) s fun es _ t => I t ∧ R (visits act xs s) s es t := by
  induction xs generalizing s with
  | nil => exact ⟨h0, hnil s⟩
  | cons x xs ih =>
      have hhead : (x, s) ∈ visits act (x :: xs) s := List.mem_cons_self
      obtain ⟨es, ⟨⟩, t, hrun, hI, hS⟩ := (hstep x s h0 (hp _ hhead) (hC _ hhead)).elim
      have hout : (act x s).outcome = .ok ((), t) := by rw [hrun]
      rw [visits_ok hout, List.forall_mem_cons] at hp hC
      rw [forEach, returns_bind, returns_of_eq hrun, visits_ok hout]
      exact (ih hI hp.2 hC.2).mono fun fs _ u hu => ⟨hu.1, hcons hS hu.2⟩

/-- Where every step meets its condition, what the steps do one by one is what the run does. -/
theorem Run.sums (r : Run act possible start) (hnil : ∀ s, R [] s [] s)
    (hcons : ∀ {x vs s es t fs u}, S x s es t → R vs t fs u → R ((x, s) :: vs) s (es ++ fs) u)
    (hstep : ∀ x s, I s → possible s x = true → C x s →
      Returns (act x) s fun es _ t => I t ∧ S x s es t)
    (h0 : I start) (hC : ∀ v ∈ r.steps, C v.1 v.2) {t : σ} (ht : r.EndsIn t) :
    R r.steps start r.events t := by
  obtain ⟨es, ⟨⟩, u, hrun, -, hR⟩ := (forEach_sums hnil hcons hstep h0 r.each_possible hC).elim
  rw [Run.EndsIn, hrun] at ht
  cases ht
  rw [Run.events, hrun]
  exact hR

end Sums

theorem keeps_of_returns {x : Traced ε σ Unit}
    (h : Returns x s fun es _ t => (∀ e ∈ es, Q e) ∧ I t) : Keeps Q I x s := by
  obtain ⟨es, ⟨⟩, t, hrun, hes, hI⟩ := h.elim
  rw [Keeps, hrun]
  refine ⟨hes, fun u hu => ?_⟩
  cases hu
  exact hI

end Steps

end Foundation
