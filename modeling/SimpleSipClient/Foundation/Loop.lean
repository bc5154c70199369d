import SimpleSipClient.Foundation.Traced

/-! # Guarded loops over a traced body

`iterate` runs `while (guard) { body }` where the body may leave the loop.
`heads` lists the cursor and the state at the head of every iteration, and
`chain` is the same loop over positions of an immutable input. The rules below
carry an invariant along the heads, relate the heads to a chain position by
position, and collect what the iterations produce.
-/

namespace Foundation

/-- How a loop body ends: another round, or out of the loop. -/
inductive Flow (γ : Type) where
  | again (c : γ)
  | leave (c : γ)

section Iterate

variable {ε σ γ : Type} (guard : γ → Bool) (body : γ → Traced ε σ (Flow γ))

def iterate : Nat → γ → Traced ε σ γ
  | 0, _ => Traced.halt .exhausted
  | fuel + 1, c =>
      if guard c then do
        match ← body c with
        | .again c' => iterate fuel c'
        | .leave c' => pure c'
      else pure c

/-- Cursor and state at the head of each iteration, in order. -/
def heads : Nat → γ → σ → List (γ × σ)
  | 0, _, _ => []
  | fuel + 1, c, s =>
      if guard c then
        (c, s) :: match (body c s).outcome with
          | .ok (.again c', s') => heads fuel c' s'
          | _ => []
      else []

variable {guard body}

theorem iterate_done {fuel : Nat} {c : γ} {s : σ} (hg : guard c = false) :
    iterate guard body (fuel + 1) c s = ⟨[], .ok (c, s)⟩ := by
  simp [iterate, hg]

theorem iterate_again {fuel : Nat} {c c' : γ} {s s' : σ} (hg : guard c = true)
    (hb : (body c s).outcome = .ok (.again c', s')) :
    iterate guard body (fuel + 1) c s =
      ⟨(body c s).events ++ (iterate guard body fuel c' s').events,
        (iterate guard body fuel c' s').outcome⟩ := by
  simp only [iterate, hg, if_true]
  exact Traced.bind_ok hb

theorem iterate_leave {fuel : Nat} {c c' : γ} {s s' : σ} (hg : guard c = true)
    (hb : (body c s).outcome = .ok (.leave c', s')) :
    iterate guard body (fuel + 1) c s = ⟨(body c s).events, .ok (c', s')⟩ := by
  simp only [iterate, hg, if_true]
  rw [Traced.bind_ok hb]
  simp

theorem iterate_error {fuel : Nat} {c : γ} {s : σ} {h : Halt} (hg : guard c = true)
    (hb : (body c s).outcome = .error h) :
    iterate guard body (fuel + 1) c s = ⟨(body c s).events, .error h⟩ := by
  simp only [iterate, hg, if_true]
  exact Traced.bind_error hb

theorem heads_done {fuel : Nat} {c : γ} {s : σ} (hg : guard c = false) :
    heads guard body fuel c s = [] := by
  cases fuel <;> simp [heads, hg]

theorem heads_again {fuel : Nat} {c c' : γ} {s s' : σ} (hg : guard c = true)
    (hb : (body c s).outcome = .ok (.again c', s')) :
    heads guard body (fuel + 1) c s = (c, s) :: heads guard body fuel c' s' := by
  simp [heads, hg, hb]

theorem heads_leave {fuel : Nat} {c c' : γ} {s s' : σ} (hg : guard c = true)
    (hb : (body c s).outcome = .ok (.leave c', s')) :
    heads guard body (fuel + 1) c s = [(c, s)] := by
  simp [heads, hg, hb]

theorem heads_error {fuel : Nat} {c : γ} {s : σ} {h : Halt} (hg : guard c = true)
    (hb : (body c s).outcome = .error h) :
    heads guard body (fuel + 1) c s = [(c, s)] := by
  simp [heads, hg, hb]

/-- Every event of a loop is an event of its body at one of the heads. -/
theorem iterate_events (fuel : Nat) (c : γ) (s : σ) :
    (iterate guard body fuel c s).events =
      (heads guard body fuel c s).flatMap fun h => (body h.1 h.2).events := by
  induction fuel generalizing c s with
  | zero => rfl
  | succ fuel ih =>
      cases hg : guard c with
      | false => rw [iterate_done hg, heads_done hg]; rfl
      | true =>
          cases hb : (body c s).outcome with
          | error e => rw [iterate_error hg hb, heads_error hg hb]; simp
          | ok r =>
              rcases r with ⟨c' | c', s'⟩
              · rw [iterate_again hg hb, heads_again hg hb]
                simp [ih]
              · rw [iterate_leave hg hb, heads_leave hg hb]; simp

/-- In a loop that returns, every round does. -/
theorem heads_ok {fuel : Nat} {c : γ} {s : σ} {r : γ × σ}
    (hr : (iterate guard body fuel c s).outcome = .ok r) :
    ∀ h ∈ heads guard body fuel c s, ∃ t, (body h.1 h.2).outcome = .ok t := by
  induction fuel generalizing c s with
  | zero => simp [heads]
  | succ fuel ih =>
      cases hg : guard c with
      | false => simp [heads_done hg]
      | true =>
          cases hb : (body c s).outcome with
          | error e => rw [iterate_error hg hb] at hr; cases hr
          | ok t =>
              rcases t with ⟨c' | c', s'⟩
              · rw [iterate_again hg hb] at hr
                rw [heads_again hg hb]
                intro h hm
                rcases List.mem_cons.mp hm with rfl | hm
                · exact ⟨_, hb⟩
                · exact ih hr h hm
              · rw [heads_leave hg hb]
                intro h hm
                rw [List.mem_singleton.mp hm]
                exact ⟨_, hb⟩

/-! ## A value that only grows -/

section Growing

variable (guard body)

/-- The value of `f` at every head and, if the loop returns, at its end. -/
def observed {β : Type} (f : γ → β) (fuel : Nat) (c : γ) (s : σ) : List β :=
  (heads guard body fuel c s).map (fun h => f h.1) ++
    match (iterate guard body fuel c s).outcome with
    | .ok (c', _) => [f c']
    | .error _ => []

variable {guard body} {I : γ → σ → Prop} {f : γ → Int} {hi : Int}

/-- If no round lowers `f` and the invariant bounds it, the observed values grow
from the first one and stay below the bound. -/
theorem observed_grows (hbound : ∀ c s, I c s → f c ≤ hi)
    (hagain : ∀ c s c' s', I c s → guard c = true →
      (body c s).outcome = .ok (.again c', s') → I c' s' ∧ f c ≤ f c')
    (hleave : ∀ c s c' s', I c s → guard c = true →
      (body c s).outcome = .ok (.leave c', s') → f c ≤ f c' ∧ f c' ≤ hi)
    (fuel : Nat) {c : γ} {s : σ} (h0 : I c s) :
    (observed guard body f fuel c s).Pairwise (· ≤ ·) ∧
      ∀ v ∈ observed guard body f fuel c s, f c ≤ v ∧ v ≤ hi := by
  induction fuel generalizing c s with
  | zero => simp [observed, heads, iterate]
  | succ fuel ih =>
      have hc := hbound c s h0
      cases hg : guard c with
      | false => simp [observed, heads_done hg, iterate_done hg, hc]
      | true =>
          cases hb : (body c s).outcome with
          | error e => simp [observed, heads_error hg hb, iterate_error hg hb, hc]
          | ok r =>
              rcases r with ⟨c' | c', s'⟩
              · rcases hagain c s c' s' h0 hg hb with ⟨h1, hle⟩
                rcases ih h1 with ⟨hsorted, hin⟩
                have hcons : observed guard body f (fuel + 1) c s =
                    f c :: observed guard body f fuel c' s' := by
                  simp [observed, heads_again hg hb, iterate_again hg hb]
                rw [hcons]
                refine ⟨List.pairwise_cons.mpr ⟨fun v hv => ?_, hsorted⟩, fun v hv => ?_⟩
                · have := (hin v hv).1
                  omega
                · rcases List.mem_cons.mp hv with rfl | hv
                  · exact ⟨Int.le_refl _, hc⟩
                  · have := hin v hv
                    omega
              · rcases hleave c s c' s' h0 hg hb with ⟨hle, hhi⟩
                simp [observed, heads_leave hg hb, iterate_leave hg hb, hc, hle, hhi]

end Growing

end Iterate

/-! ## Loops over an immutable input -/

section Chain

variable {π : Type} (guard : π → Bool) (next : π → Option π)

/-- Positions visited from `p` on, as long as the guard holds. -/
def chain : Nat → π → List π
  | 0, _ => []
  | fuel + 1, p =>
      if guard p then
        p :: match next p with
          | some q => chain fuel q
          | none => []
      else []

variable {guard next}

theorem chain_done {fuel : Nat} {p : π} (hg : guard p = false) : chain guard next fuel p = [] := by
  cases fuel <;> simp [chain, hg]

theorem chain_next {fuel : Nat} {p q : π} (hg : guard p = true) (hn : next p = some q) :
    chain guard next (fuel + 1) p = p :: chain guard next fuel q := by
  simp [chain, hg, hn]

theorem chain_last {fuel : Nat} {p : π} (hg : guard p = true) (hn : next p = none) :
    chain guard next (fuel + 1) p = [p] := by
  simp [chain, hg, hn]

/-- A property of the start that is preserved from each position of the chain to
the next holds along the chain. -/
theorem chain_invariant {I : π → Prop} {fuel : Nat} {p : π}
    (hstep : ∀ q r, q ∈ chain guard next fuel p → I q → next q = some r → guard r = true → I r)
    (h0 : guard p = true → I p) : ∀ q ∈ chain guard next fuel p, I q := by
  induction fuel generalizing p with
  | zero => simp [chain]
  | succ fuel ih =>
      cases hg : guard p with
      | false => simp [chain_done hg]
      | true =>
          cases hn : next p with
          | none => simpa [chain_last hg hn] using h0 hg
          | some t =>
              rw [chain_next hg hn] at hstep ⊢
              intro q hq
              rcases List.mem_cons.mp hq with rfl | hq
              · exact h0 hg
              · exact ih (fun q r hq => hstep q r (List.mem_cons_of_mem _ hq))
                  (fun hr => hstep p t List.mem_cons_self (h0 hg) hn hr) q hq

/-- With fuel above a measure that every step lowers, the chain is closed under
the successor. -/
theorem chain_closed {μ : π → Nat} (hμ : ∀ p q, next p = some q → μ q < μ p)
    {fuel : Nat} {p q r : π} (hf : μ p < fuel) (hq : q ∈ chain guard next fuel p)
    (hn : next q = some r) (hr : guard r = true) : r ∈ chain guard next fuel p := by
  induction fuel generalizing p with
  | zero => omega
  | succ fuel ih =>
      cases hg : guard p with
      | false => simp [chain_done hg] at hq
      | true =>
          cases hp : next p with
          | none =>
              rw [chain_last hg hp, List.mem_singleton] at hq
              rw [← hq, hn] at hp
              cases hp
          | some t =>
              have ht := hμ p t hp
              rw [chain_next hg hp] at hq ⊢
              rcases List.mem_cons.mp hq with rfl | hq
              · rw [hn] at hp
                cases hp
                obtain ⟨k, rfl⟩ : ∃ k, fuel = k + 1 := ⟨fuel - 1, by omega⟩
                simp [chain, hr]
              · exact List.mem_cons_of_mem _ (ih (by omega) hq)

/-- What holds of each step, if it is transitive, holds of any two positions of the
chain. -/
theorem chain_pairwise {r : π → π → Prop} (htrans : ∀ p q t, r p q → r q t → r p t)
    (hnext : ∀ p q, next p = some q → r p q) (fuel : Nat) (p : π) :
    (chain guard next fuel p).Pairwise r := by
  induction fuel generalizing p with
  | zero => exact .nil
  | succ fuel ih =>
      cases hg : guard p with
      | false =>
          rw [chain_done hg]
          exact .nil
      | true =>
          cases hn : next p with
          | none =>
              rw [chain_last hg hn]
              exact List.pairwise_singleton r p
          | some q =>
              rw [chain_next hg hn]
              have hfirst := hnext p q hn
              refine List.pairwise_cons.mpr ⟨?_, ih q⟩
              exact chain_invariant (fun t u _ ht hu _ => htrans p t u ht (hnext t u hu))
                fun _ => hfirst

/-- A chain of two or more offsets, each `d` behind the one before, whose last step
starts below `hi`. -/
theorem chain_length {guard : Nat → Bool} {next : Nat → Option Nat} {d hi : Nat}
    (hnext : ∀ p q, next p = some q → p + d ≤ q ∧ p < hi) {fuel p k : Nat}
    (hk : (chain guard next fuel p).length = k + 2) : p + k * d < hi := by
  induction fuel generalizing p k with
  | zero => simp [chain] at hk
  | succ fuel ih =>
      cases hg : guard p with
      | false => simp [chain_done hg] at hk
      | true =>
          cases hn : next p with
          | none => simp [chain_last hg hn] at hk
          | some q =>
              rcases hnext p q hn with ⟨hstep, hlt⟩
              rw [chain_next hg hn, List.length_cons] at hk
              cases k with
              | zero => simpa using hlt
              | succ k =>
                  have hrest := ih (p := q) (k := k) (by omega)
                  rw [Nat.succ_mul]
                  omega

end Chain

/-! ## Relating the two loops -/

section Relate

variable {ε σ γ π β : Type} {guard : γ → Bool} {body : γ → Traced ε σ (Flow γ)}
  {guard' : π → Bool} {next : π → Option π} {piece : π → List β}
  {R : γ → σ → π → List β → Prop}

/-- One round of the concrete loop against one position of the chain: `R` holds
with what was produced so far, and a round at `p` appends `piece p`. -/
structure Follows (guard : γ → Bool) (body : γ → Traced ε σ (Flow γ)) (guard' : π → Bool)
    (next : π → Option π) (piece : π → List β) (R : γ → σ → π → List β → Prop)
    (Post : γ → σ → List β → Prop) : Prop where
  guards : ∀ c s p out, R c s p out → guard c = guard' p
  done : ∀ c s p out, R c s p out → guard c = false → Post c s out
  again : ∀ c s p out c' s', R c s p out → guard c = true →
    (body c s).outcome = .ok (.again c', s') → ∃ q, next p = some q ∧ R c' s' q (out ++ piece p)
  leave : ∀ c s p out c' s', R c s p out → guard c = true →
    (body c s).outcome = .ok (.leave c', s') → next p = none ∧ Post c' s' (out ++ piece p)
  halts : ∀ c s p out h, R c s p out → guard c = true →
    (body c s).outcome = .error h → next p = none

variable {Post : γ → σ → List β → Prop}

/-- Related lists have related members. -/
theorem forall₂_mem {α β : Type} {R : α → β → Prop} {xs : List α} {ys : List β}
    (h : List.Forall₂ R xs ys) :
    (∀ x ∈ xs, ∃ y ∈ ys, R x y) ∧ (∀ y ∈ ys, ∃ x ∈ xs, R x y) := by
  induction h with
  | nil => simp
  | cons hxy _ ih =>
      constructor
      · intro x hx
        rcases List.mem_cons.mp hx with rfl | hx
        · exact ⟨_, List.mem_cons_self, hxy⟩
        · rcases ih.1 x hx with ⟨y, hy, hr⟩
          exact ⟨y, List.mem_cons_of_mem _ hy, hr⟩
      · intro y hy
        rcases List.mem_cons.mp hy with rfl | hy
        · exact ⟨_, List.mem_cons_self, hxy⟩
        · rcases ih.2 y hy with ⟨x, hx, hr⟩
          exact ⟨x, List.mem_cons_of_mem _ hx, hr⟩

/-- Each position together with what the ones in front of it have produced. -/
def producedBefore (piece : π → List β) : List β → List π → List (π × List β)
  | _, [] => []
  | out, p :: ps => (p, out) :: producedBefore piece (out ++ piece p) ps

theorem map_producedBefore (piece : π → List β) (out : List β) (ps : List π) :
    (producedBefore piece out ps).map Prod.fst = ps := by
  induction ps generalizing out with
  | nil => rfl
  | cons p ps ih => simp [producedBefore, ih]

/-- The heads of the concrete loop stand at the positions of the chain, each with
what the positions in front of it have produced. -/
theorem Follows.heads_produced (h : Follows guard body guard' next piece R Post)
    {fuel : Nat} {c : γ} {s : σ} {p : π} {out : List β} (h0 : R c s p out) :
    List.Forall₂ (fun hd q => R hd.1 hd.2 q.1 q.2) (heads guard body fuel c s)
      (producedBefore piece out (chain guard' next fuel p)) := by
  induction fuel generalizing c s p out with
  | zero => exact .nil
  | succ fuel ih =>
      have hgg := h.guards c s p out h0
      cases hg : guard c with
      | false =>
          rw [heads_done hg, chain_done (hgg ▸ hg)]
          exact .nil
      | true =>
          have hg' : guard' p = true := hgg ▸ hg
          cases hb : (body c s).outcome with
          | error e =>
              rw [heads_error hg hb, chain_last hg' (h.halts c s p out e h0 hg hb)]
              exact .cons h0 .nil
          | ok r =>
              rcases r with ⟨c' | c', s'⟩
              · rcases h.again c s p out c' s' h0 hg hb with ⟨q, hq, hR⟩
                rw [heads_again hg hb, chain_next hg' hq]
                exact .cons h0 (ih hR)
              · rw [heads_leave hg hb, chain_last hg' (h.leave c s p out c' s' h0 hg hb).1]
                exact .cons h0 .nil

/-- A loop that returns has produced the pieces of the chain in order. -/
theorem Follows.collect (h : Follows guard body guard' next piece R Post)
    {fuel : Nat} {c c' : γ} {s s' : σ} {p : π} {out : List β} (h0 : R c s p out)
    (hr : (iterate guard body fuel c s).outcome = .ok (c', s')) :
    Post c' s' (out ++ (chain guard' next fuel p).flatMap piece) := by
  induction fuel generalizing c s p out with
  | zero => simp [iterate] at hr
  | succ fuel ih =>
      have hgg := h.guards c s p out h0
      cases hg : guard c with
      | false =>
          rw [iterate_done hg] at hr
          cases hr
          rw [chain_done (hgg ▸ hg)]
          simpa using h.done _ _ p out h0 hg
      | true =>
          have hg' : guard' p = true := hgg ▸ hg
          cases hb : (body c s).outcome with
          | error e => rw [iterate_error hg hb] at hr; cases hr
          | ok r =>
              rcases r with ⟨d | d, t⟩
              · rcases h.again c s p out d t h0 hg hb with ⟨q, hq, hR⟩
                rw [iterate_again hg hb] at hr
                rw [chain_next hg' hq, List.flatMap_cons, ← List.append_assoc]
                exact ih hR hr
              · rcases h.leave c s p out d t h0 hg hb with ⟨hn, hP⟩
                rw [iterate_leave hg hb] at hr
                cases hr
                rw [chain_last hg' hn]
                simpa using hP

/-- A loop whose body never halts along the chain returns, once its fuel is
above a measure that every step of the chain lowers. -/
theorem Follows.returns (h : Follows guard body guard' next piece R Post) {μ : π → Nat}
    (hμ : ∀ p q, next p = some q → μ q < μ p) {Safe : π → Prop}
    (hsafe : ∀ c s p out e, R c s p out → guard c = true → Safe p → (body c s).outcome ≠ .error e)
    (fuel : Nat) {c : γ} {s : σ} {p : π} {out : List β} (h0 : R c s p out) (hf : μ p < fuel)
    (hall : ∀ q ∈ chain guard' next fuel p, Safe q) :
    ∃ c' s', (iterate guard body fuel c s).outcome = .ok (c', s') := by
  induction fuel generalizing c s p out with
  | zero => omega
  | succ fuel ih =>
      have hgg := h.guards c s p out h0
      cases hg : guard c with
      | false =>
          rw [iterate_done hg]
          exact ⟨c, s, rfl⟩
      | true =>
          have hg' : guard' p = true := hgg ▸ hg
          have hp : Safe p := hall p (by simp [chain, hg'])
          cases hb : (body c s).outcome with
          | error e => exact absurd hb (hsafe c s p out e h0 hg hp)
          | ok r =>
              rcases r with ⟨c' | c', s'⟩
              · rcases h.again c s p out c' s' h0 hg hb with ⟨q, hq, hR⟩
                rw [iterate_again hg hb]
                refine ih hR (by have := hμ p q hq; omega) fun t ht => hall t ?_
                rw [chain_next hg' hq]
                exact List.mem_cons_of_mem _ ht
              · exact ⟨c', s', by rw [iterate_leave hg hb]⟩

/-- Fuel above the measure is never used up. -/
theorem Follows.not_exhausted (h : Follows guard body guard' next piece R Post) {μ : π → Nat}
    (hμ : ∀ p q, next p = some q → μ q < μ p)
    (hbody : ∀ c s p out, R c s p out → (body c s).outcome ≠ .error .exhausted)
    (fuel : Nat) {c : γ} {s : σ} {p : π} {out : List β} (h0 : R c s p out) (hf : μ p < fuel) :
    (iterate guard body fuel c s).outcome ≠ .error .exhausted := by
  induction fuel generalizing c s p out with
  | zero => omega
  | succ fuel ih =>
      cases hg : guard c with
      | false => rw [iterate_done hg]; simp
      | true =>
          cases hb : (body c s).outcome with
          | error e =>
              rw [iterate_error hg hb]
              simpa [hb] using hbody c s p out h0
          | ok r =>
              rcases r with ⟨c' | c', s'⟩
              · rcases h.again c s p out c' s' h0 hg hb with ⟨q, hq, hR⟩
                rw [iterate_again hg hb]
                exact ih hR (by have := hμ p q hq; omega)
              · rw [iterate_leave hg hb]; simp

end Relate

end Foundation
