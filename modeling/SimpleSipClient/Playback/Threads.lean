import SimpleSipClient.Playback.Lifecycle

/-! # The threads of the slots

A Play starts one thread, that of the receiver it makes, and no other slot starts any. As long
as each Play finds no thread running, only the receiver that was made last may run.
-/

namespace SimpleSipClient.Playback

open Foundation MediaClient

/-- Only the receiver that was made last may run. -/
def LastRuns (s : State) : Prop :=
  ∀ (k : Nat) r, s.recvers[k]? = some r → r.running = true → k + 1 = s.recvers.length

/-- A Play finds no thread running. -/
def Alone (x : Input) (s : State) : Prop :=
  match x with
  | .play _ _ => ∀ r ∈ s.recvers, r.running = false
  | _ => True

/-- No thread is started between the two states. -/
structure StartsNone (s t : State) : Prop where
  length : t.recvers.length = s.recvers.length
  running : ∀ (k : Nat) r, t.recvers[k]? = some r → r.running = true →
    ∃ q, s.recvers[k]? = some q ∧ q.running = true

section Parts

variable {s t u : State} {f : RtpRecver → RtpRecver}

theorem startsNone_of_same (h : t.recvers = s.recvers) : StartsNone s t where
  length := by rw [h]
  running k r hr hrunning := ⟨r, by rw [← h]; exact hr, hrunning⟩

theorem StartsNone.trans (h : StartsNone s t) (h' : StartsNone t u) : StartsNone s u where
  length := h'.length.trans h.length
  running k r hr hrunning := by
    obtain ⟨q, hq, hqrunning⟩ := h'.running k r hr hrunning
    exact h.running k q hq hqrunning

theorem startsNone_modify (k : Nat) (hf : ∀ r, (f r).running = true → r.running = true) :
    StartsNone s { s with recvers := s.recvers.modify k f } where
  length := by simp
  running j r hr hrunning := by
    obtain ⟨q, hq, rfl⟩ := entry_of_modify hr
    refine ⟨q, hq, ?_⟩
    split at hrunning
    · exact hf q hrunning
    · exact hrunning

theorem startsNone_withTarget (hf : ∀ r, (f r).running = true → r.running = true) :
    StartsNone s (s.withTarget f) := by
  rw [State.withTarget]
  split
  · exact startsNone_modify _ hf
  · exact startsNone_of_same rfl

theorem withRecver_returns (ht : (withRecver f s).outcome = .ok ((), t)) : t = s.withTarget f := by
  cases hs : s.target with
  | none =>
      rw [withRecver_none hs] at ht
      cases ht
  | some r =>
      rw [withRecver_run hs] at ht
      cases ht
      rfl

theorem inClient_recvers {x : Client Unit} (ht : (inClient x s).outcome = .ok ((), t)) :
    t.recvers = s.recvers := by
  rw [inClient, Traced.zoom] at ht
  split at ht
  · cases ht
    rfl
  · cases ht

/-- A Play that returns has started the thread of a new receiver. -/
theorem play_recvers {create : Bool} {o : InviteOutcome}
    (ht : (onPlay create o s).outcome = .ok ((), t)) :
    t.recvers = s.recvers ++ [{ running := true, brecvOver := false, bound := true }] := by
  obtain ⟨⟨⟩, _, hnew, ht⟩ := Traced.bind_outcome_ok.mp ht
  cases hnew
  obtain ⟨⟨⟩, v, hinit, ht⟩ := Traced.bind_outcome_ok.mp ht
  obtain ⟨⟨⟩, w, hstart, hclient⟩ := Traced.bind_outcome_ok.mp ht
  cases create with
  | false => cases hinit
  | true =>
      rw [inClient_recvers hclient, withRecver_returns hstart, withRecver_returns hinit]
      exact congrArg State.recvers (played_eq s)

theorem stop_startsNone {o : ByeOutcome} (ht : (onStop o s).outcome = .ok ((), t)) :
    StartsNone s t := by
  rw [onStop, Traced.get_bind] at ht
  split at ht
  · obtain ⟨⟨⟩, u, hdestroy, ht⟩ := Traced.bind_outcome_ok.mp ht
    obtain ⟨⟨⟩, v, hquit, hclient⟩ := Traced.bind_outcome_ok.mp ht
    have hfirst : StartsNone s u := by
      rw [withRecver_returns hdestroy]
      exact startsNone_withTarget fun r hr => hr
    have hsecond : StartsNone u v := by
      rw [withRecver_returns hquit]
      exact startsNone_withTarget fun r hr => hr
    exact (hfirst.trans hsecond).trans (startsNone_of_same (inClient_recvers hclient))
  · exact startsNone_of_same (inClient_recvers ht)

end Parts

theorem LastRuns.startsNone {s t : State} (h : LastRuns s) (ht : StartsNone s t) : LastRuns t := by
  intro k r hr hrunning
  obtain ⟨q, hq, hqrunning⟩ := ht.running k r hr hrunning
  rw [ht.length]
  exact h k q hq hqrunning

/-- Step lemma: the receiver that may run stays the last one. -/
theorem LastRuns.step {s t : State} {x : Input} (h : LastRuns s) (hx : Alone x s)
    (ht : (perform x s).outcome = .ok ((), t)) :
    LastRuns t ∧ s.recvers.length ≤ t.recvers.length := by
  have hnone (hstarts : StartsNone s t) : LastRuns t ∧ s.recvers.length ≤ t.recvers.length :=
    ⟨h.startsNone hstarts, Nat.le_of_eq hstarts.length.symm⟩
  cases x with
  | play create o =>
      have hrecvers := play_recvers ht
      rw [LastRuns, hrecvers, List.length_append, List.length_singleton]
      refine ⟨fun k r hr hrunning => ?_, Nat.le_succ _⟩
      obtain hr | ⟨rfl, -⟩ := entry_of_append hr
      · rw [hx r (List.mem_of_getElem? hr)] at hrunning
        cases hrunning
      · rfl
  | stop o => exact hnone (stop_startsNone ht)
  | remote k e => exact hnone (startsNone_of_same (inClient_recvers ht))
  | finished k =>
      rw [perform, Traced.get_bind] at ht
      cases ht
      exact hnone (startsNone_modify k fun r hr => by cases hr)

end SimpleSipClient.Playback
