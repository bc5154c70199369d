import SimpleSipClient.Foundation.Simulation
import SimpleSipClient.Playback.Lifecycle

/-! # The SIP calls of the slots

What the slots do to the receiver is invisible to the SIP side: every run of the slots
that does not halt is a run of the client alone, with the Plays, Stops and remote events
that come to it. What is known of INVITE and BYE holds of the slots as they are.
-/

namespace SimpleSipClient.Playback

open Foundation MediaClient

/-- A Play whose receiver cannot be created ends the program before the INVITE. -/
def clientView : View Event State Input MediaClient.Event MediaClient.State MediaClient.Input where
  state := State.client
  inputs
    | .play create o => if create then [.play o] else []
    | .stop o => [.stop o]
    | .remote k e => [.remote k e]
    | .finished _ => []
  event
    | .sip e => some e
    | _ => none

section Steps

variable {s : State}

theorem inClient_simulated (x : MediaClient.Input) :
    Simulated clientView MediaClient.perform [x] (inClient (MediaClient.perform x)) s := by
  intro t ht
  rw [inClient, Traced.zoom] at ht ⊢
  cases hx : (MediaClient.perform x s.client).outcome with
  | error h =>
      rw [hx] at ht
      cases ht
  | ok u =>
      rcases u with ⟨⟨⟩, u⟩
      rw [hx] at ht
      cases ht
      have hrun : Traced.forEach MediaClient.perform [x] s.client =
          ⟨(MediaClient.perform x s.client).events, .ok ((), u)⟩ := by
        rw [Traced.forEach_ok hx]
        simp
      have hevents : ((MediaClient.perform x s.client).events.map Event.sip).filterMap
          clientView.event = (MediaClient.perform x s.client).events := by
        rw [List.filterMap_map]
        exact List.filterMap_some
      exact ⟨congrArg Exec.outcome hrun, hevents.trans (congrArg Exec.events hrun).symm⟩

theorem withRecver_silent (f : RtpRecver → RtpRecver) :
    Simulated clientView MediaClient.perform [] (withRecver f) s := by
  intro t ht
  cases hs : s.target with
  | none =>
      rw [withRecver_none hs] at ht
      cases ht
  | some r =>
      rw [withRecver_run hs] at ht ⊢
      cases ht
      refine ⟨?_, rfl⟩
      rw [State.withTarget]
      split <;> rfl

theorem newRtpRecver_silent :
    Simulated clientView MediaClient.perform [] newRtpRecver s := by
  intro t ht
  cases ht
  exact ⟨rfl, rfl⟩

theorem perform_simulated (x : Input) (s : State) :
    Simulated clientView MediaClient.perform (clientView.inputs x) (perform x) s := by
  cases x with
  | play create o =>
      cases create with
      | false =>
          apply simulated_silent newRtpRecver_silent
          intro t u hu
          rcases Traced.bind_outcome_ok.mp hu with ⟨_, _, hinit, -⟩
          cases hinit
      | true =>
          apply simulated_silent newRtpRecver_silent
          intro t
          apply simulated_silent (withRecver_silent _)
          intro t
          apply simulated_silent (withRecver_silent _)
          exact fun t => inClient_simulated (.play o)
  | stop o =>
      apply simulated_get_bind
      split
      · apply simulated_silent (withRecver_silent _)
        intro t
        apply simulated_silent (withRecver_silent _)
        exact fun t => inClient_simulated (.stop o)
      · exact inClient_simulated (.stop o)
  | remote k e => exact inClient_simulated (.remote k e)
  | finished k =>
      intro t ht
      cases ht
      exact ⟨rfl, rfl⟩

/-- What is possible for the slots is possible for the client. -/
theorem client_possible (x : Input) (s : State) (hx : possible s x = true) :
    ∀ v ∈ Traced.visits MediaClient.perform (clientView.inputs x) (clientView.state s),
      MediaClient.possible v.2 v.1 = true := by
  have hsingle (y : MediaClient.Input) (hy : MediaClient.possible s.client y = true) :
      ∀ v ∈ Traced.visits MediaClient.perform [y] s.client,
        MediaClient.possible v.2 v.1 = true := by
    rw [Traced.visits_singleton]
    simpa using hy
  cases x with
  | play create o =>
      cases create with
      | false => exact fun v hv => by cases hv
      | true => exact hsingle (.play o) rfl
  | stop o => exact hsingle (.stop o) rfl
  | remote k e => exact hsingle (.remote k e) hx
  | finished k => exact fun v hv => by cases hv

end Steps

/-! ## Runs -/

section Runs

variable {garbage : Bool} {t : State} (r : Run perform possible (found garbage))

def clientRun (hend : r.EndsIn t) : Run MediaClient.perform MediaClient.possible mediaClient :=
  r.viewed perform_simulated client_possible hend

theorem clientRun_events (hend : r.EndsIn t) :
    (clientRun r hend).events = r.events.filterMap clientView.event :=
  r.viewed_events perform_simulated client_possible hend

theorem event_eq_some {e : Event} {e' : MediaClient.Event} :
    clientView.event e = some e' ↔ e = .sip e' := by
  cases e <;> simp [clientView]

/-- INVITE and BYE act on live objects exactly when the clicks and remote events of the run
are those that the monitor accepts, whatever becomes of the receivers. -/
theorem slots_live_iff (hend : r.EndsIn t) : (∀ e, Event.sip e ∈ r.events → e.onLive) ↔
    Accepts clicks .idle (r.inputs.flatMap clientView.inputs) := by
  have hsafe : (clientRun r hend).Safe MediaClient.Event.onLive (fun _ => True) ↔
      ∀ e, Event.sip e ∈ r.events → e.onLive := by
    rw [Run.Safe, clientRun_events]
    simp [List.mem_filterMap, event_eq_some]
  rw [← hsafe]
  exact safe_iff_clicks (clientRun r hend)

end Runs

end SimpleSipClient.Playback
