import SimpleSipClient.Foundation.Sequence
import SimpleSipClient.Foundation.Table
import SimpleSipClient.MediaClient.Step

/-! # Attempts that fail

`initInvParam` registers the invite module and then creates the dialog. If the second
step fails the first is not taken back, and from then on the first step fails. If then no
session is created the new dialog is destroyed, and the client goes on with what is left of it.
Every other failure leaves the client as it was, or readier than it was.
-/

namespace SimpleSipClient.MediaClient

open Foundation

/-! ## Attempts -/

def attempt (o : InviteOutcome) : Client Unit := do
  let _ ← sendInvite o

/-- What the attempts return, one after the other. -/
def results : List InviteOutcome → State → List Bool
  | [], _ => []
  | o :: os, s =>
      match (sendInvite o s).outcome with
      | .ok (ret, t) => ret :: results os t
      | .error _ => []

structure Unchanged (s t : State) : Prop where
  usageRegistered : t.usageRegistered = s.usageRegistered
  invInit : t.invInit = s.invInit
  invitedlg : t.invitedlg = s.invitedlg

/-- What succeeds in the first list succeeds in the second. -/
def NoWorse (xs ys : List Bool) : Prop := List.Forall₂ (fun x y => x = true → y = true) xs ys

/-- If `initInvParam` fails nothing has changed, and if the attempt fails then whatever
attempts follow do no worse than they would have done without it. -/
structure LeavesNoTrace (o : InviteOutcome) (s : State) : Prop where
  init : ∀ t, (initInvParam o s).outcome = .ok (false, t) → Unchanged s t
  later : ∀ t, (sendInvite o s).outcome = .ok (false, t) →
    ∀ os, NoWorse (results os s) (results os t)

/-- The module gets registered, but there will be no dialog. -/
def HalfDone (o : InviteOutcome) (s : State) : Prop :=
  s.invInit = false ∧ s.usageRegistered = false ∧ o.usageInit = true ∧ o.dlgCreateUac = false

/-- Nothing but a lock keeps the dialog alive. -/
def Dialog.loose (dlg : Dialog) : Bool :=
  !dlg.destroyed && dlg.sessCount = 0 && dlg.tsxCount = 0

/-- There is or will be a dialog without a session, and no session is created on it. -/
def Spoiled (o : InviteOutcome) (s : State) : Prop :=
  o.invCreateUac = false ∧
    (s.invInit = false ∧ s.usageRegistered = false ∧ o.usageInit = true ∧ o.dlgCreateUac = true ∨
      s.invInit = true ∧ s.usageRegistered = true ∧ s.dialog.any Dialog.loose = true)

theorem results_cons (o : InviteOutcome) (os : List InviteOutcome) (s : State) :
    results (o :: os) s = accepted o s :: results os (played o s).2 := by
  rw [results, sendInvite_run]

theorem noWorse_refl (xs : List Bool) : NoWorse xs xs := by
  induction xs with
  | nil => exact .nil
  | cons x xs ih => exact .cons id ih

/-! ## A client that is ready -/

def Dialog.held (dlg : Dialog) : Bool := !dlg.destroyed && 0 < dlg.sessCount

/-- Only the calls on the dialog can still fail, and none of them destroys it. -/
structure Ready (s : State) : Prop where
  invInit : s.invInit = true
  usageRegistered : s.usageRegistered = true
  dialog : s.dialog.any Dialog.held = true

def InviteOutcome.dialogCalls (o : InviteOutcome) : Bool := o.invCreateUac && o.invInvite

theorem decLock_of_held {dlg : Dialog} (h : dlg.held = true) : dlg.decLock = dlg := by
  simp only [Dialog.held, Bool.and_eq_true, decide_eq_true_eq] at h
  rw [Dialog.decLock, if_neg (by omega)]

section Ready

variable {s : State} {o : InviteOutcome}

/-- What an INVITE does to the dialog that its session was created on. -/
theorem invited_dialogs (o : InviteOutcome) (s : State) (d : Nat) :
    ((s.withNewSession d).invited o).invInit = s.invInit ∧
      ((s.withNewSession d).invited o).invitedlg = s.invitedlg ∧
        ((s.withNewSession d).invited o).usageRegistered = s.usageRegistered ∧
          ∃ g ∈ [id, Dialog.newTsx, Dialog.decSession],
            ((s.withNewSession d).invited o).dialogs = (s.withNewSession d).dialogs.modify d g := by
  have hsession : (s.withNewSession d).sessions[s.sessions.length]? =
      some { dlg := d, state := .null, inviteTsx := none } := by simp [State.withNewSession]
  have hchange (f : InvSession → InvSession) (g : Dialog → Dialog) :
      (s.withNewSession d).changeCurrent f (fun _ => g) = { s.withNewSession d with
        sessions := (s.withNewSession d).sessions.modify s.sessions.length f
        dialogs := (s.withNewSession d).dialogs.modify d g } := by
    rw [changeCurrent_eq (k := s.sessions.length) rfl, State.change, hsession]
  have hsame : ∃ g ∈ [id, Dialog.newTsx, Dialog.decSession],
      (s.withNewSession d).dialogs = (s.withNewSession d).dialogs.modify d g :=
    ⟨id, by simp, (List.modify_id _ _).symm⟩
  rw [State.invited]
  split
  · cases o.invSendMsg with
    | notCreated => exact ⟨rfl, rfl, rfl, hsame⟩
    | sent =>
        rw [State.inviteSent, hchange]
        exact ⟨rfl, rfl, rfl, Dialog.newTsx, by simp, rfl⟩
    | transportError resolved =>
        rw [State.inviteSent, hchange]
        exact ⟨rfl, rfl, rfl, Dialog.decSession, by simp, rfl⟩
  · exact ⟨rfl, rfl, rfl, hsame⟩

/-- One more session holds the dialog, or as many as before. -/
theorem held_invited {dlg : Dialog} {k : Nat} {g : Dialog → Dialog}
    (hg : g ∈ [id, Dialog.newTsx, Dialog.decSession]) (h : dlg.held = true) :
    (g { dlg with sessCount := dlg.sessCount + 1, usage := some k }).held = true := by
  simp only [Dialog.held, Bool.and_eq_true, Bool.not_eq_true', decide_eq_true_eq] at h ⊢
  simp only [List.mem_cons, List.not_mem_nil, or_false] at hg
  rcases hg with rfl | rfl | rfl
  · exact ⟨h.1, Nat.succ_pos _⟩
  · exact ⟨h.1, Nat.succ_pos _⟩
  · rw [Dialog.decSession, decLock_of_held (by simp [Dialog.held, h])]
    simpa using h

theorem ready_created {success : Bool} (h : Ready s) (haccepts : s.accepts success = true) :
    Ready (s.created.invited o) := by
  rcases session_created haccepts with ⟨d, hptr, hcreated, -⟩
  rcases (Option.any_eq_true _ _).mp h.dialog with ⟨dlg, hdlg, hheld⟩
  rw [State.dialog, hptr] at hdlg
  rcases invited_dialogs o s d with ⟨hinit, hptr', husage, g, hg, hdialogs⟩
  rw [hcreated]
  refine ⟨hinit.trans h.invInit, husage.trans h.usageRegistered, ?_⟩
  rw [State.dialog, hptr', hptr, hdialogs]
  simp only [State.withNewSession, List.getElem?_modify_eq, hdlg]
  exact held_invited hg hheld

/-- A session that was created holds the dialog. -/
theorem ready_of_created {success : Bool} (hinit : s.invInit = true)
    (haccepts : s.accepts success = true) : Ready s.created := by
  rcases session_created haccepts with ⟨d, hptr, hcreated, -⟩
  rw [State.accepts, Bool.and_eq_true, Bool.and_eq_true] at haccepts
  rcases haccepts with ⟨⟨hopen, husage⟩, -⟩
  rcases (Option.any_eq_true _ _).mp hopen with ⟨dlg, hdlg, halive⟩
  rw [State.dialog, hptr] at hdlg
  rw [hcreated]
  refine ⟨hinit, husage, ?_⟩
  simp only [State.dialog, State.withNewSession, hptr, List.getElem?_modify_eq, hdlg]
  simpa [Dialog.held] using halive

theorem ready_notCreated (h : Ready s) : s.notCreated = s := by
  rcases (Option.any_eq_true _ _).mp h.dialog with ⟨dlg, hdlg, hheld⟩
  rw [State.notCreated]
  cases hptr : s.invitedlg with
  | unset => rfl
  | object d =>
      rw [State.dialog, hptr] at hdlg
      simp only [modify_of_fixed hdlg (decLock_of_held hheld), ← hptr]

theorem afterInit_ready (h : Ready s) : afterInit o s = (true, s) := by
  rw [afterInit, if_pos h.invInit]

theorem ready_accepts (h : Ready s) (success : Bool) : s.accepts success = success := by
  rcases (Option.any_eq_true _ _).mp h.dialog with ⟨dlg, hdlg, hheld⟩
  have halive : dlg.destroyed = false := by simp_all [Dialog.held]
  simp [State.accepts, hdlg, halive, h.usageRegistered]

/-- The client stays ready, and the attempt depends on the calls on the dialog alone. -/
theorem attempt_ready (h : Ready s) :
    accepted o s = o.dialogCalls ∧ Ready (played o s).2 := by
  refine ⟨?_, ?_⟩
  · rw [accepted, afterInit_ready h, ready_accepts h, Bool.true_and]
    rfl
  · rw [played, afterInit_ready h, if_pos rfl]
    by_cases haccepts : s.accepts o.invCreateUac = true
    · rw [if_pos haccepts]
      exact ready_created h haccepts
    · rw [if_neg haccepts, ready_notCreated h]
      exact h

theorem results_ready (os : List InviteOutcome) (h : Ready s) :
    results os s = os.map InviteOutcome.dialogCalls := by
  induction os generalizing s with
  | nil => rfl
  | cons o os ih =>
      rcases attempt_ready (o := o) h with ⟨hret, hready⟩
      rw [results_cons, hret, ih hready, List.map_cons]

/-- No client does better than a ready one. -/
theorem results_noWorse (os : List InviteOutcome) (s : State) :
    NoWorse (results os s) (os.map InviteOutcome.dialogCalls) := by
  induction os generalizing s with
  | nil => exact .nil
  | cons o os ih =>
      rw [results_cons]
      refine .cons (fun haccepted => ?_) (ih (played o s).2)
      rw [accepted, Bool.and_eq_true, Bool.and_eq_true] at haccepted
      rcases haccepted with ⟨-, haccepts, hinvite⟩
      rw [State.accepts, Bool.and_eq_true] at haccepts
      rw [InviteOutcome.dialogCalls, haccepts.2, hinvite, Bool.and_self]

end Ready

/-! ## A client that is stuck -/

/-- There is no dialog to be had, or none that a session could be created on. -/
def Stuck (s : State) : Prop :=
  s.invInit = false ∧ s.usageRegistered = true ∨
    s.invInit = true ∧ ∀ success, s.accepts success = false

section Stuck

variable {s : State} {o : InviteOutcome}

theorem accepts_notCreated (h : ∀ success, s.accepts success = false) (success : Bool) :
    s.notCreated.accepts success = false := by
  rw [State.notCreated]
  cases hptr : s.invitedlg with
  | unset => exact h success
  | object d =>
      have hstay : ∀ dlg : Dialog, (!dlg.decLock.destroyed) = true → (!dlg.destroyed) = true := by
        intro dlg hlive
        by_contra hgone
        simp [Dialog.decLock_destroyed (by simpa using hgone)] at hlive
      have hclosed := h success
      by_contra hopen
      simp only [State.accepts, State.dialog, List.getElem?_modify_eq, Bool.and_eq_true,
        Bool.not_eq_false] at hopen
      simp only [State.accepts, State.dialog, hptr] at hclosed
      rcases hopen with ⟨⟨hlive, husage⟩, hsuccess⟩
      cases hdlg : s.dialogs[d]? with
      | none => simp [hdlg] at hlive
      | some dlg =>
          rw [hdlg] at hclosed hlive
          rw [husage, hsuccess, Bool.and_true, Bool.and_true, Option.any_some] at hclosed
          exact absurd (hstay dlg (by simpa using hlive)) (by simpa using hclosed)

theorem attempt_stuck (h : Stuck s) : accepted o s = false ∧ Stuck (played o s).2 := by
  rcases h with ⟨hinit, husage⟩ | ⟨hinit, hclosed⟩
  · have hafter : afterInit o s = (false, s) := by simp [afterInit, hinit, husage]
    rw [accepted, played, hafter]
    exact ⟨rfl, .inl ⟨hinit, husage⟩⟩
  · have hafter : afterInit o s = (true, s) := by rw [afterInit, if_pos hinit]
    rw [accepted, played, hafter, hclosed]
    refine ⟨rfl, .inr ⟨?_, accepts_notCreated hclosed⟩⟩
    simp only [if_true, Bool.false_eq_true, if_false, State.notCreated]
    cases s.invitedlg <;> exact hinit

theorem results_stuck (os : List InviteOutcome) (h : Stuck s) :
    results os s = os.map fun _ => false := by
  induction os generalizing s with
  | nil => rfl
  | cons o os ih =>
      rcases attempt_stuck (o := o) h with ⟨hret, hstuck⟩
      rw [results_cons, hret, ih hstuck, List.map_cons]

/-- No client does worse than a stuck one. -/
theorem stuck_noWorse (os : List InviteOutcome) (h : Stuck s) (t : State) :
    NoWorse (results os s) (results os t) := by
  rw [results_stuck os h]
  induction os generalizing t with
  | nil => exact .nil
  | cons o os ih =>
      rw [results_cons, List.map_cons]
      exact .cons nofun (ih (played o t).2)

end Stuck

/-! ## A failed attempt -/

section Failed

variable {s : State} {o : InviteOutcome}

theorem afterInit_cases (h : ¬ HalfDone o s) :
    afterInit o s = (false, s) ∨ afterInit o s = (true, s) ∧ s.invInit = true ∨
      ∃ t, afterInit o s = (true, t) ∧ t.invInit = true ∧ t.usageRegistered = true ∧
        t.dialog = some newDialog ∧ s.invInit = false ∧ s.usageRegistered = false ∧
          o.usageInit = true ∧ o.dlgCreateUac = true := by
  rw [afterInit]
  by_cases hinit : s.invInit = true
  · rw [if_pos hinit]
    exact .inr (.inl ⟨rfl, hinit⟩)
  · rw [if_neg hinit]
    have hnot : s.invInit = false := by simpa using hinit
    by_cases husage : s.usageRegistered = false ∧ o.usageInit = true
    · rw [if_pos husage]
      have hcreate : o.dlgCreateUac = true := by
        by_contra hfail
        exact h ⟨hnot, husage.1, husage.2, by simpa using hfail⟩
      rw [if_pos hcreate]
      exact .inr (.inr ⟨_, rfl, rfl, rfl, by simp [State.dialog], hnot, husage.1, husage.2, hcreate⟩)
    · rw [if_neg husage]
      exact .inl rfl

/-- The lock of a failed creation is all that a loose dialog had. -/
theorem stuck_of_loose (hinit : s.invInit = true) (hloose : s.dialog.any Dialog.loose = true) :
    Stuck s.notCreated := by
  rcases (Option.any_eq_true _ _).mp hloose with ⟨dlg, hdlg, hcounts⟩
  simp only [Dialog.loose, Bool.and_eq_true, decide_eq_true_eq] at hcounts
  rw [State.notCreated]
  cases hptr : s.invitedlg with
  | unset => simp [State.dialog, hptr] at hdlg
  | object d =>
      rw [State.dialog, hptr] at hdlg
      refine .inr ⟨hinit, fun success => ?_⟩
      simp [State.accepts, State.dialog, hdlg, Dialog.decLock, hcounts]

/-- A creation that fails on any other dialog changes nothing, or nothing was to be lost. -/
theorem notCreated_cases (hinit : s.invInit = true) {success : Bool}
    (haccepts : s.accepts success = false)
    (h : ¬ (success = false ∧ s.usageRegistered = true ∧ s.dialog.any Dialog.loose = true)) :
    s.notCreated = s ∨ Stuck s := by
  by_cases hopen : s.dialog.any (fun dlg => !dlg.destroyed) = true ∧ s.usageRegistered = true
  · have hfail : success = false := by simpa [State.accepts, hopen] using haccepts
    rcases (Option.any_eq_true _ _).mp hopen.1 with ⟨dlg, hdlg, halive⟩
    have hcounts : ¬ (dlg.sessCount = 0 ∧ dlg.tsxCount = 0) := by
      intro hzero
      apply h
      simp only [Bool.not_eq_true'] at halive
      simp [hfail, hopen.2, hdlg, Dialog.loose, halive, hzero]
    refine .inl ?_
    rw [State.notCreated]
    cases hptr : s.invitedlg with
    | unset => rfl
    | object d =>
        rw [State.dialog, hptr] at hdlg
        have hsame : dlg.decLock = dlg := if_neg hcounts
        simp only [modify_of_fixed hdlg hsame, ← hptr]
  · refine .inr (.inr ⟨hinit, fun b => ?_⟩)
    rw [State.accepts]
    cases hlive : s.dialog.any fun dlg => !dlg.destroyed with
    | false => simp
    | true => simp [show s.usageRegistered = false by simpa [hlive] using hopen]

/-- What a failed attempt leaves that neither stops half-way nor spoils the dialog. -/
theorem attempt_cases (hhalf : ¬ HalfDone o s) (hspoiled : ¬ Spoiled o s)
    (hfail : accepted o s = false) :
    (played o s).2 = s ∨ Ready (played o s).2 ∨ Stuck s := by
  rcases afterInit_cases hhalf with hafter | ⟨hafter, hinit⟩ | ⟨t, hafter, hinit, husage, hfresh, hs⟩
  · rw [played, hafter]
    exact .inl rfl
  · rw [accepted, hafter, Bool.true_and] at hfail
    rw [played, hafter, if_pos rfl]
    by_cases haccepts : s.accepts o.invCreateUac = true
    · rw [haccepts, Bool.true_and] at hfail
      rw [if_pos haccepts, State.invited, hfail, if_neg (by simp)]
      exact .inr (.inl (ready_of_created hinit haccepts))
    · rw [if_neg haccepts]
      rcases notCreated_cases hinit (by simpa using haccepts)
        (fun hlost => hspoiled ⟨hlost.1, .inr ⟨hinit, hlost.2⟩⟩) with hsame | hstuck
      · exact .inl hsame
      · exact .inr (.inr hstuck)
  · have hcreate : o.invCreateUac = true := by
      by_contra hno
      exact hspoiled ⟨by simpa using hno, .inl hs⟩
    have haccepts : t.accepts o.invCreateUac = true := by
      simp [State.accepts, hfresh, husage, hcreate, newDialog]
    rw [accepted, hafter, haccepts, Bool.true_and, Bool.true_and] at hfail
    rw [played, hafter, if_pos rfl, if_pos haccepts, State.invited, hfail, if_neg (by simp)]
    exact .inr (.inl (ready_of_created hinit haccepts))

theorem halfDone_attempt (h : HalfDone o s) : accepted o s = false ∧
    afterInit o s = (false, { s with usageRegistered := true }) ∧ Stuck (played o s).2 := by
  rcases h with ⟨hinit, husage, huse, hcreate⟩
  have hafter : afterInit o s = (false, { s with usageRegistered := true }) := by
    simp [afterInit, hinit, husage, huse, hcreate]
  rw [accepted, played, hafter]
  exact ⟨rfl, rfl, .inl ⟨hinit, rfl⟩⟩

/-- The attempt ends with the dialog destroyed; another one in its place could have succeeded. -/
theorem spoiled_attempt (h : Spoiled o s) : accepted o s = false ∧ Stuck (played o s).2 ∧
    accepted ⟨true, true, true, true, .sent⟩ s = true := by
  rcases h with ⟨hfail, ⟨hinit, husage, huse, hdlg⟩ | ⟨hinit, husage, hloose⟩⟩
  · have hopen (o' : InviteOutcome) (huse' : o'.usageInit = true)
        (hdlg' : o'.dlgCreateUac = true) : ∃ t, afterInit o' s = (true, t) ∧ t.invInit = true ∧
          t.usageRegistered = true ∧ t.dialog = some newDialog := by
      refine ⟨{ s with
        usageRegistered := true
        dialogs := s.dialogs ++ [newDialog]
        invitedlg := .object s.dialogs.length
        invInit := true }, ?_, rfl, rfl, by simp [State.dialog]⟩
      simp [afterInit, hinit, husage, huse', hdlg']
    rcases hopen o huse hdlg with ⟨t, hafter, hinit', husage', hfresh⟩
    rcases hopen ⟨true, true, true, true, .sent⟩ rfl rfl with ⟨u, hafter', -, husage'', hfresh'⟩
    have hclosed : t.accepts o.invCreateUac = false := by simp [State.accepts, hfail]
    rw [accepted, played, hafter, hclosed, accepted, hafter']
    refine ⟨rfl, stuck_of_loose hinit' (by rw [hfresh]; rfl), ?_⟩
    simp [State.accepts, hfresh', husage'', newDialog]
  · have hafter (o' : InviteOutcome) : afterInit o' s = (true, s) := by rw [afterInit, if_pos hinit]
    have hclosed : s.accepts o.invCreateUac = false := by simp [State.accepts, hfail]
    rw [accepted, played, hafter, hclosed, accepted, hafter]
    refine ⟨rfl, stuck_of_loose hinit hloose, ?_⟩
    rcases (Option.any_eq_true _ _).mp hloose with ⟨dlg, hdlg, hcounts⟩
    simp only [Dialog.loose, Bool.and_eq_true, Bool.not_eq_true'] at hcounts
    simp [State.accepts, hdlg, husage, hcounts.1.1]

theorem leavesNoTrace_iff : LeavesNoTrace o s ↔ ¬ HalfDone o s ∧ ¬ Spoiled o s := by
  constructor
  · refine fun h => ⟨fun hhalf => ?_, fun hspoiled => ?_⟩
    · have hrun : (initInvParam o s).outcome = .ok (false, { s with usageRegistered := true }) := by
        rw [initInvParam_run, (halfDone_attempt hhalf).2.1]
      have hsame := (h.init _ hrun).usageRegistered
      rw [hhalf.2.1] at hsame
      cases hsame
    · rcases spoiled_attempt hspoiled with ⟨hfail, hstuck, hbetter⟩
      have hrun : (sendInvite o s).outcome = .ok (false, (played o s).2) := by
        rw [sendInvite_run, hfail]
      have hworse := h.later _ hrun [⟨true, true, true, true, .sent⟩]
      rw [results_cons, hbetter, results_stuck _ hstuck] at hworse
      cases hworse with
      | cons hhead _ => cases hhead rfl
  · rintro ⟨hhalf, hspoiled⟩
    constructor
    · intro t ht
      rw [initInvParam_run, Except.ok.injEq] at ht
      rcases afterInit_cases hhalf with hafter | ⟨hafter, -⟩ | ⟨u, hafter, -⟩
      · rw [hafter, Prod.mk.injEq] at ht
        rw [← ht.2]
        exact ⟨rfl, rfl, rfl⟩
      · rw [hafter] at ht
        cases ht
      · rw [hafter] at ht
        cases ht
    · intro t ht os
      rw [sendInvite_run, Except.ok.injEq, Prod.mk.injEq] at ht
      rw [← ht.2]
      rcases attempt_cases hhalf hspoiled ht.1 with hsame | hready | hstuck
      · rw [hsame]
        exact noWorse_refl _
      · rw [results_ready os hready]
        exact results_noWorse os s
      · exact stuck_noWorse os hstuck _

end Failed

/-! ## A sequence of attempts -/

/-- No attempt of a sequence leaves a trace exactly when none of them stops half-way or spoils the
dialog; behind one that does, all attempts fail. -/
theorem retries_iff (s : State) (os : List InviteOutcome) :
    ((∀ v ∈ Traced.visits attempt os s, LeavesNoTrace v.1 v.2) ↔
      ∀ v ∈ Traced.visits attempt os s, ¬ HalfDone v.1 v.2 ∧ ¬ Spoiled v.1 v.2) ∧
        ∀ v ∈ Traced.visits attempt os s, HalfDone v.1 v.2 ∨ Spoiled v.1 v.2 →
          ∃ t, (sendInvite v.1 v.2).outcome = .ok (false, t) ∧
            ∀ later, results later t = later.map fun _ => false := by
  refine ⟨forall₂_congr fun _ _ => leavesNoTrace_iff, ?_⟩
  rintro v - hv
  have hattempt : accepted v.1 v.2 = false ∧ Stuck (played v.1 v.2).2 := by
    rcases hv with hhalf | hspoiled
    · exact ⟨(halfDone_attempt hhalf).1, (halfDone_attempt hhalf).2.2⟩
    · exact ⟨(spoiled_attempt hspoiled).1, (spoiled_attempt hspoiled).2.1⟩
  refine ⟨(played v.1 v.2).2, ?_, fun later => results_stuck later hattempt.2⟩
  rw [sendInvite_run, hattempt.1]

/-- The addresses are wrong at the first attempt; the second one is refused by the module. -/
theorem half_done_first :
    ¬ ∀ v ∈ Traced.visits attempt
      [{ usageInit := true, dlgCreateUac := false, invCreateUac := true, invInvite := true,
          invSendMsg := .sent },
        { usageInit := true, dlgCreateUac := true, invCreateUac := true, invInvite := true,
          invSendMsg := .sent }] mediaClient, LeavesNoTrace v.1 v.2 := by
  intro h
  exact (leavesNoTrace_iff.mp (h _ List.mem_cons_self)).1 ⟨rfl, rfl, rfl, rfl⟩

end SimpleSipClient.MediaClient
