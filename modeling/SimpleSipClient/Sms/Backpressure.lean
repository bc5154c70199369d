import SimpleSipClient.Sms.Gate

/-! # Frames dropped under load

A P frame is dropped when more than two mebibytes wait in the socket, and only then.
Nothing remembers the drop: a later P frame that finds room is sent although the picture
that it refers to is missing. Whole tails of a group are dropped exactly where the socket
stays full until the next I frame.
-/

namespace SimpleSipClient.SMS

open Foundation

def FrameCall.findsRoom (c : FrameCall) : Prop := c.env.bytesToWrite ≤ 2 * 1024 * 1024

/-- Behind a P frame that was dropped no P frame is sent until an I frame has been sent. -/
def DropsWholeTails (vs : List (FrameCall × State)) : Prop :=
  ∀ us d mid p ws, vs = us ++ d :: (mid ++ p :: ws) → d.1.kind = .pFrame → observed d = none →
    observed p = some SMS_VIDEO_P_FRAME → ∃ i ∈ mid, observed i = some SMS_VIDEO_I_FRAME

/-- Between a P frame that finds no room and a later one that does, an I frame comes in. -/
def StaysFull (calls : List FrameCall) : Prop :=
  ∀ pre d mid p post, calls = pre ++ d :: (mid ++ p :: post) → d.kind = .pFrame →
    ¬ d.findsRoom → p.kind = .pFrame → p.findsRoom → ∃ i ∈ mid, i.kind = .iFrame

section Fresh

variable {code : List UInt16} {calls : List FrameCall}

theorem pFrame_dropped_iff {c : FrameCall} {pre : List FrameCall} (hkind : c.kind = .pFrame) :
    observed (c, gated (sms code) pre) = none ↔ ¬ c.findsRoom := by
  have hsent : observed (c, gated (sms code) pre) = some SMS_VIDEO_P_FRAME ↔ c.findsRoom :=
    (sent_pFrame_iff c).trans (and_iff_right hkind)
  constructor
  · intro hnone hroom
    rw [hsent.mpr hroom] at hnone
    cases hnone
  · intro hroom
    cases hobserved : observed (c, gated (sms code) pre) with
    | none => rfl
    | some headerFlag =>
        rcases sent_flag hobserved with rfl | rfl
        · rw [((sent_iFrame_iff c).mp hobserved).1] at hkind
          cases hkind
        · exact absurd (hsent.mp hobserved) hroom

/-- What is sent as an I frame was received as one. -/
theorem kind_of_sent_iFrame {us ws : List (FrameCall × State)} {v : FrameCall × State}
    (hvs : Traced.visits deliver calls (sms code) = us ++ v :: ws)
    (hsent : observed v = some SMS_VIDEO_I_FRAME) : v.1.kind = .iFrame := by
  rcases v with ⟨c, s⟩
  rcases visited_split hvs with ⟨post, -, rfl, -⟩
  exact ((sent_iFrame_iff c).mp hsent).1

/-- Behind a P frame, dropped or not, every I frame is sent. -/
theorem iFrame_sent_behind {us ws : List (FrameCall × State)} {v d : FrameCall × State}
    (hvs : Traced.visits deliver calls (sms code) = us ++ v :: ws) (hd : d ∈ us)
    (hP : d.1.kind = .pFrame) (hI : v.1.kind = .iFrame) :
    observed v = some SMS_VIDEO_I_FRAME := by
  rcases v with ⟨c, s⟩
  rcases visited_split hvs with ⟨post, -, rfl, -⟩
  exact (sent_iFrame_iff c).mpr ⟨hI, d.1, List.mem_map_of_mem hd, hP⟩

theorem staysFull_of_dropsWholeTails
    (h : DropsWholeTails (Traced.visits deliver calls (sms code))) : StaysFull calls := by
  rintro pre d mid p post rfl hd hfull hp hroom
  have hpre : (Traced.forEach deliver pre (sms code)).outcome =
      .ok ((), gated (sms code) pre) := forEach_deliver pre rfl
  rcases visits_at code (pre ++ d :: mid) p post with ⟨ws, hws⟩
  have hvisits : Traced.visits deliver (pre ++ d :: (mid ++ p :: post)) (sms code) =
      Traced.visits deliver pre (sms code) ++ (d, gated (sms code) pre) ::
        (Traced.visits deliver mid (gated (gated (sms code) pre) [d]) ++
          (p, gated (sms code) (pre ++ d :: mid)) :: ws) := by
    rw [← List.cons_append, ← List.append_assoc, hws, Traced.visits_append_ok hpre,
      Traced.visits_ok (deliver_returns d rfl), List.append_assoc, List.cons_append]
  obtain ⟨i, hi, hsent⟩ := h _ _ _ _ _ hvisits hd ((pFrame_dropped_iff hd).mpr hfull)
    ((sent_pFrame_iff p).mpr ⟨hp, hroom⟩)
  refine ⟨i.1, Traced.mem_visits_input hi, ?_⟩
  rcases List.append_of_mem hi with ⟨us, vs, hmid⟩
  have hvisits' : Traced.visits deliver (pre ++ d :: (mid ++ p :: post)) (sms code) =
      (Traced.visits deliver pre (sms code) ++ (d, gated (sms code) pre) :: us) ++
        i :: (vs ++ (p, gated (sms code) (pre ++ d :: mid)) :: ws) := by
    rw [hvisits, hmid]
    simp
  exact kind_of_sent_iFrame hvisits' hsent

theorem dropsWholeTails_of_staysFull (h : StaysFull calls) :
    DropsWholeTails (Traced.visits deliver calls (sms code)) := by
  rintro us ⟨d, s⟩ mid ⟨p, t⟩ ws hvs hd hdropped hsent
  rcases visited_split hvs with ⟨-, -, hs, -⟩
  have hvs' : Traced.visits deliver calls (sms code) =
      (us ++ (d, s) :: mid) ++ (p, t) :: ws := by
    rw [hvs, List.append_assoc, List.cons_append]
  rcases visited_split hvs' with ⟨post, hcalls, ht, -⟩
  simp only at hs ht
  rw [hs] at hdropped
  rw [ht] at hsent
  rcases (sent_pFrame_iff p).mp hsent with ⟨hp, hroom⟩
  have hsplit : calls = us.map Prod.fst ++ d :: (mid.map Prod.fst ++ p :: post) := by
    rw [hcalls]
    simp
  rcases h _ _ _ _ _ hsplit hd ((pFrame_dropped_iff hd).mp hdropped) hp hroom with ⟨i, hi, hkind⟩
  rcases List.mem_map.mp hi with ⟨v, hv, rfl⟩
  rcases List.append_of_mem hv with ⟨m, m', rfl⟩
  have hvs'' : Traced.visits deliver calls (sms code) =
      (us ++ (d, s) :: m) ++ v :: (m' ++ (p, t) :: ws) := by
    rw [hvs]
    simp
  exact ⟨v, hv, iFrame_sent_behind hvs'' (by simp) hd hkind⟩

end Fresh

/-- A P frame is sent if and only if it finds room, and so whole tails are dropped exactly
where no P frame finds room behind one that did not, short of the next I frame. -/
theorem drops_by_queue_size (code : List UInt16) (calls : List FrameCall) :
    (∀ v ∈ Traced.visits deliver calls (sms code), v.1.kind = .pFrame →
      (observed v = some SMS_VIDEO_P_FRAME ↔ v.1.findsRoom)) ∧
        (DropsWholeTails (Traced.visits deliver calls (sms code)) ↔ StaysFull calls) := by
  refine ⟨?_, staysFull_of_dropsWholeTails, dropsWholeTails_of_staysFull⟩
  rintro ⟨c, s⟩ hv hkind
  rcases List.append_of_mem hv with ⟨us, ws, hvs⟩
  rcases visited_split hvs with ⟨post, -, rfl, -⟩
  exact (sent_pFrame_iff c).trans (and_iff_right hkind)

/-- Behind an I frame a P frame is dropped, the queue drains, and the next P frame is sent. -/
theorem tail_resumed :
    ¬ DropsWholeTails (Traced.visits deliver
      [⟨quiet, [0, 0, 0, 1, 0x41]⟩, ⟨quiet, [0, 0, 0, 1, 0x65]⟩,
        ⟨{ quiet with bytesToWrite := 2 * 1024 * 1024 + 1 }, [0, 0, 0, 1, 0x41]⟩,
        ⟨quiet, [0, 0, 0, 1, 0x41]⟩] (sms [])) := by
  intro h
  have hfull := staysFull_of_dropsWholeTails h
    [⟨quiet, [0, 0, 0, 1, 0x41]⟩, ⟨quiet, [0, 0, 0, 1, 0x65]⟩] _ [] _ [] rfl (by decide)
    (by unfold FrameCall.findsRoom; decide) (by decide) (by unfold FrameCall.findsRoom; decide)
  rcases hfull with ⟨i, hi, -⟩
  cases hi

end SimpleSipClient.SMS
