import Rtvbp.Go.WebRtc
import Mathlib.Tactic

/-!
# Proofs: the connection outcome of the WebRTC transport

The claim is held by one call at a time. A call that receives `connected` keeps it, so that no other call gets to
`waitConnected`; a call that receives anything else gives it back, and the outcome is gone.
-/

namespace Rtvbp.Go.WebRtc

open Rtvbp.Lib

variable {ι : Type} {i j : ι} {s t : Shared ι} {c c' m : Call} {a : CallAction}

/-! ## The steps -/

/-- The call holds the claim. -/
def Call.owns : Call → Bool
  | .configuring _ => true
  | .checking => true
  | .waiting => true
  | .failing _ _ => true
  | .returned _ none => true
  | _ => false

/-- What the call `i` does in a step. -/
inductive Moves (i : ι) (s : Shared ι) (c : Call) (a : CallAction) : Shared ι → Call → Prop where
  | proceed {c' : Call} (before : c.owns = false) (after : c'.owns = false) (received : c'.received? = none) :
      Moves i s c a s c'
  | claim {c' : Call} (before : c.owns = false) (free : s.claimed = false) (after : c'.owns = true)
      (received : c'.received? = none) (notWaiting : c' ≠ .waiting) :
      Moves i s c a { s with claimed := true, owner := some i } c'
  | fail {err : Error} (before : c.owns = true) (unreturned : ∀ received err, c ≠ .returned received err) :
      Moves i s c a s (.failing none err)
  | wait {format : Media.MediaFormat} (before : c.owns = true) (unreturned : ∀ received err, c ≠ .returned received err)
      (waits : Waits s c a) : Moves i s c a { s with format := format } .waiting
  | receive {outcome : Outcome} (waiting : c = .waiting) (found : s.connected = some outcome) :
      Moves i s c a { s with connected := none, taken := some i } outcome.call
  | release {received : Option Outcome} {err : Error} (failing : c = .failing received err) :
      Moves i s c a { s with claimed := false, owner := none } (.returned received (some err))

theorem configure_ok {format : Media.MediaFormat} (h : configure s format = .ok t) : t = { s with format := format } := by
  unfold configure at h
  split at h
  · cases h
  · split at h
    · cases h
    · split at h
      · cases h
      · cases h
        rfl

theorem claim_moves {next : Call} (before : c.owns = false) (after : next.owns = true)
    (received : next.received? = none) (notWaiting : next ≠ .waiting) :
    Moves i s c a (claim i s next).1 (claim i s next).2 := by
  by_cases hclaimed : s.claimed = true
  · rw [claim, if_pos hclaimed]
    exact .proceed before rfl rfl
  · rw [claim, if_neg hclaimed]
    exact .claim before (by simpa using hclaimed) after received notWaiting

/-- What a step does. -/
theorem act_moves (h : act i s c a = some (t, c')) : Moves i s c a t c' := by
  unfold act at h
  split at h
  case h_1 id format =>
    obtain ⟨rfl, rfl⟩ := Prod.ext_iff.mp (Option.some.inj h)
    by_cases hid : id ≠ "audio"
    · rw [if_pos hid]
      exact .proceed rfl rfl rfl
    · rw [if_neg hid]
      exact .proceed rfl rfl rfl
  case h_2 =>
    cases h
    exact .proceed rfl rfl rfl
  case h_3 format =>
    obtain ⟨rfl, rfl⟩ := Prod.ext_iff.mp (Option.some.inj h)
    exact claim_moves rfl rfl rfl (by simp)
  case h_4 =>
    obtain ⟨rfl, rfl⟩ := Prod.ext_iff.mp (Option.some.inj h)
    exact claim_moves rfl rfl rfl (by simp)
  case h_5 format =>
    split at h
    · cases h
      exact .fail rfl (by simp)
    next u hconfigure =>
      cases h
      rw [configure_ok hconfigure]
      exact .wait rfl (by simp) (by rw [Waits, hconfigure]; rfl)
  case h_6 =>
    split at h
    · cases h
      exact .fail rfl (by simp)
    next hvalid =>
      cases h
      show Moves i s _ _ { s with format := s.format } .waiting
      exact .wait rfl (by simp) (by rw [Waits, hvalid]; rfl)
  case h_7 =>
    split at h
    · cases h
    next outcome hfound =>
      cases h
      exact .receive rfl hfound
  case h_8 err =>
    cases h
    exact .fail rfl (by simp)
  case h_9 received err =>
    cases h
    exact .release rfl
  case h_10 => cases h

/-- A call that passes its checks waits; neither the channel nor the outcome has changed. -/
theorem act_waits (h : act i s c a = some (t, c')) (hwaits : Waits s c a = true) :
    c' = .waiting ∧ t.connected = s.connected ∧ t.reported = s.reported := by
  unfold Waits at hwaits
  split at hwaits
  next format =>
    cases hconfigure : configure s format with
    | error err =>
      rw [hconfigure] at hwaits
      cases hwaits
    | ok u =>
      simp only [act, hconfigure, Option.some.injEq, Prod.mk.injEq] at h
      obtain ⟨rfl, rfl⟩ := h
      rw [configure_ok hconfigure]
      exact ⟨rfl, rfl, rfl⟩
  next =>
    cases hvalid : validateFormat s.format with
    | error err =>
      rw [hvalid] at hwaits
      cases hwaits
    | ok u =>
      simp only [act, hvalid, Option.some.injEq, Prod.mk.injEq] at h
      obtain ⟨rfl, rfl⟩ := h
      exact ⟨rfl, rfl, rfl⟩
  next => cases hwaits

/-! ## The invariant -/

/-- The part of the shared state: the outcome is in the channel until a call takes it, and a call that has taken
`connected` holds the claim. -/
structure Sound (s : Shared ι) : Prop where
  once : s.stateOnce = s.reported.isSome
  buffered : s.taken = none → s.connected = s.reported
  emptied : s.taken ≠ none → s.connected = none ∧ s.reported ≠ none
  claimed : s.claimed = s.owner.isSome
  holder : ∀ i, s.taken = some i → s.reported = some .connected → s.owner = some i

/-- The part of a call. -/
structure Call.Settled (i : ι) (s : Shared ι) (c : Call) : Prop where
  owns : c.owns = true ↔ s.owner = some i
  bound : s.taken = some i → s.reported = some .connected → c = .returned (some .connected) none
  same : ∀ outcome, c.received? = some outcome → s.reported = some outcome
  waits : c = .waiting → s.taken = none

theorem Moves.sound (h : Moves i s c a t c') (hs : Sound s) (hc : c.Settled i s) : Sound t := by
  cases h with
  | proceed before after received => exact hs
  | claim before free after received notWaiting =>
    have hnone : s.owner = none := by simpa [free] using hs.claimed.symm
    refine ⟨hs.once, hs.buffered, hs.emptied, rfl, fun k htaken hreported => ?_⟩
    have hholder := hs.holder k htaken hreported
    rw [hnone] at hholder
    cases hholder
  | fail before unreturned => exact hs
  | wait before unreturned waits => exact ⟨hs.once, hs.buffered, hs.emptied, hs.claimed, hs.holder⟩
  | receive waiting found =>
    subst waiting
    have hreported : s.reported = some _ := (hs.buffered (hc.waits rfl)).symm.trans found
    refine ⟨hs.once, fun htaken => absurd htaken (by simp), fun _ => ⟨rfl, by simp [hreported]⟩, hs.claimed, ?_⟩
    intro k htaken _
    obtain rfl : i = k := Option.some.inj htaken
    exact hc.owns.mp rfl
  | release failing =>
    subst failing
    refine ⟨hs.once, hs.buffered, hs.emptied, rfl, fun k htaken hreported => ?_⟩
    have howner : s.owner = some i := hc.owns.mp rfl
    obtain rfl : k = i := Option.some.inj ((hs.holder k htaken hreported).symm.trans howner)
    exact absurd (hc.bound htaken hreported) (by simp)

/-- A call that comes to wait finds the outcome in the channel, unless it is late. -/
theorem taken_of_first (hs : Sound s) (hc : c.Settled i s) (before : c.owns = true)
    (unreturned : ∀ received err, c ≠ .returned received err)
    (hfirst : s.taken = none ∨ s.reported = some .connected) : s.taken = none := by
  obtain hnone | hreported := hfirst
  · exact hnone
  · by_contra htaken
    obtain ⟨k, hk⟩ := Option.ne_none_iff_exists'.mp htaken
    obtain rfl : k = i := Option.some.inj ((hs.holder k hk hreported).symm.trans (hc.owns.mp before))
    exact unreturned _ _ (hc.bound hk hreported)

theorem Moves.settled (h : Moves i s c a t c') (hs : Sound s) (hc : c.Settled i s) (hfirst : First i s c a) :
    c'.Settled i t := by
  cases h with
  | proceed before after received =>
    have hnot : s.owner ≠ some i := fun howner => by simp [hc.owns.mpr howner] at before
    refine ⟨by simp [after, hnot], fun htaken hreported => ?_, by simp [received], ?_⟩
    · exact absurd (hs.holder i htaken hreported) hnot
    · rintro rfl
      cases after
  | claim before free after received notWaiting =>
    have hnot : s.owner ≠ some i := fun howner => by simp [hc.owns.mpr howner] at before
    refine ⟨by simp [after], fun htaken hreported => ?_, by simp [received], fun heq => absurd heq notWaiting⟩
    exact absurd (hs.holder i htaken hreported) hnot
  | fail before unreturned =>
    refine ⟨by simp [Call.owns, hc.owns.mp before], fun htaken hreported => ?_, by simp [Call.received?], by simp⟩
    exact absurd (hc.bound htaken hreported) (unreturned _ _)
  | wait before unreturned waits =>
    refine ⟨by simp [Call.owns, hc.owns.mp before], fun htaken hreported => ?_, by simp [Call.received?], fun _ => ?_⟩
    · exact absurd (hc.bound htaken hreported) (unreturned _ _)
    · show s.taken = none
      exact taken_of_first hs hc before unreturned (hfirst waits)
  | @receive outcome waiting found =>
    subst waiting
    have hreported : s.reported = some outcome := (hs.buffered (hc.waits rfl)).symm.trans found
    have howner : s.owner = some i := hc.owns.mp rfl
    cases outcome with
    | connected => exact ⟨by simp [Outcome.call, Call.owns, howner], fun _ _ => rfl,
        by simp [Outcome.call, Call.received?, hreported], by simp [Outcome.call]⟩
    | failed => exact ⟨by simp [Outcome.call, Call.owns, howner], by simp [hreported],
        by simp [Outcome.call, Call.received?, hreported], by simp [Outcome.call]⟩
    | closed => exact ⟨by simp [Outcome.call, Call.owns, howner], by simp [hreported],
        by simp [Outcome.call, Call.received?, hreported], by simp [Outcome.call]⟩
  | release failing =>
    subst failing
    refine ⟨by simp [Call.owns], fun htaken hreported => ?_, hc.same, by simp⟩
    exact absurd (hc.bound htaken hreported) (by simp)

/-- A step of another call. -/
theorem Moves.others (h : Moves i s c a t c') (hs : Sound s) (hc : c.Settled i s) (hne : j ≠ i) (hm : m.Settled j s) :
    m.Settled j t := by
  have hother : s.owner = some i → m.owns = false := by
    intro howner
    by_contra howns
    have hj := hm.owns.mp (by simpa using howns)
    exact hne (Option.some.inj (hj.symm.trans howner))
  cases h with
  | proceed before after received => exact hm
  | claim before free after received notWaiting =>
    have hnone : s.owner = none := by simpa [free] using hs.claimed.symm
    have howns : m.owns = false := by
      by_contra howns
      have hj := hm.owns.mp (by simpa using howns)
      rw [hnone] at hj
      cases hj
    exact ⟨by simp [howns, hne.symm], hm.bound, hm.same, hm.waits⟩
  | fail before unreturned => exact hm
  | wait before unreturned waits => exact ⟨hm.owns, hm.bound, hm.same, hm.waits⟩
  | receive waiting found =>
    subst waiting
    have howns : m.owns = false := hother (hc.owns.mp rfl)
    refine ⟨hm.owns, fun htaken => absurd (Option.some.inj htaken).symm hne, hm.same, ?_⟩
    rintro rfl
    cases howns
  | release failing =>
    subst failing
    have howns : m.owns = false := hother (hc.owns.mp rfl)
    exact ⟨by simp [howns], hm.bound, hm.same, hm.waits⟩

theorem Sound.not_reported (hs : Sound s) (honce : ¬ s.stateOnce = true) : s.reported = none := by
  have hsome := hs.once
  rw [Bool.not_eq_true] at honce
  rw [honce] at hsome
  simpa using hsome.symm

/-- What is reported is put into the channel. -/
theorem sound_report (hs : Sound s) (outcome : Outcome) : Sound (report s outcome) := by
  by_cases honce : s.stateOnce = true
  · rw [report, if_pos honce]
    exact hs
  · rw [report, if_neg honce]
    have htaken : s.taken = none := by
      by_contra htaken
      exact (hs.emptied htaken).2 (hs.not_reported honce)
    exact ⟨rfl, fun _ => rfl, fun hnot => absurd htaken hnot, hs.claimed, fun k hk => by simp [htaken] at hk⟩

theorem settled_report (hs : Sound s) (hm : m.Settled j s) (outcome : Outcome) : m.Settled j (report s outcome) := by
  by_cases honce : s.stateOnce = true
  · rw [report, if_pos honce]
    exact hm
  · rw [report, if_neg honce]
    have hnone : s.reported = none := hs.not_reported honce
    refine ⟨hm.owns, fun htaken => ?_, fun other hother => ?_, hm.waits⟩
    · have hsome : s.taken = some j := htaken
      exact absurd hnone (hs.emptied (by simp [hsome])).2
    · have hreported := hm.same other hother
      rw [hnone] at hreported
      cases hreported

/-! ## Runs -/

section Runs

variable [DecidableEq ι]

/-- The invariant of the runs. -/
abbrev Good (s : State ι) : Prop := Threads.Holds Sound (fun i => Call.Settled i) s

theorem good_start {s : State ι} (h : (threads ι).machine.Start s) : Good s := by
  obtain ⟨⟨hconnected, honce, hclaimed, -, hreported, howner, htaken⟩, hlocals⟩ := h
  refine ⟨⟨by simp [honce, hreported], by simp [hconnected, hreported], by simp [htaken], by simp [hclaimed, howner],
    by simp [htaken]⟩, fun i => ?_⟩
  rw [hlocals]
  exact ⟨by simp [threads, Call.owns, howner], by simp [htaken], by simp [threads, Call.received?],
    by simp [threads]⟩

omit [DecidableEq ι] in
theorem env_good {e : EnvAction} (hs : Sound s) (h : env s e = some t) :
    Sound t ∧ ∀ j m, Call.Settled j s m → m.Settled j t := by
  unfold env at h
  split at h
  · split at h
    next outcome houtcome =>
      cases h
      exact ⟨sound_report hs outcome, fun j m hm => settled_report hs hm outcome⟩
    · cases h
      exact ⟨hs, fun j m hm => hm⟩
  · cases h
    exact ⟨⟨hs.once, hs.buffered, hs.emptied, hs.claimed, hs.holder⟩,
      fun j m hm => ⟨hm.owns, hm.bound, hm.same, hm.waits⟩⟩

/-- One step keeps the invariant, unless a call is late. -/
theorem good_step {s t : State ι} {a : Threads.Action ι CallAction EnvAction} (h : Good s)
    (hfirst : Threads.When First (fun _ _ => True) s a) (hstep : (threads ι).machine.step s a = some t) : Good t := by
  refine Threads.Holds.step (P := threads ι) ?_ ?_ h hfirst hstep
  · intro i s c a t c' hs hc hG hact
    have hmoves : Moves i s c a t c' := act_moves hact
    exact ⟨hmoves.sound hs hc, hmoves.settled hs hc hG, fun j m hne hm => hmoves.others hs hc hne hm⟩
  · intro s e t hs _ henv
    exact env_good hs henv

omit [DecidableEq ι] in
theorem sticky_of_good {s : State ι} (h : Good s) : s.Sticky where
  ready _ hreported i hwaiting := (h.1.buffered ((h.2 i).waits hwaiting)).trans hreported
  same i outcome hreceived := (h.2 i).same outcome hreceived

/-- A call that is late waits for an outcome that is gone. -/
theorem not_sticky_of_late {s t : State ι} {a : Threads.Action ι CallAction EnvAction} (h : Good s)
    (hlate : ¬ Threads.When First (fun _ _ => True) s a) (hstep : (threads ι).machine.step s a = some t) :
    ¬ t.Sticky := by
  cases a with
  | env e => exact absurd trivial hlate
  | act i a =>
    obtain ⟨⟨shared, c'⟩, hact, rfl⟩ := Option.map_eq_some_iff.mp hstep
    obtain ⟨hwaits, hnot⟩ := Classical.not_imp.mp hlate
    obtain ⟨htaken, -⟩ := not_or.mp hnot
    obtain ⟨hgone, hreported⟩ := h.1.emptied htaken
    obtain ⟨outcome, houtcome⟩ := Option.ne_none_iff_exists'.mp hreported
    obtain ⟨rfl, hconnected, hsame⟩ := act_waits hact hwaits
    intro hsticky
    have hready := hsticky.ready outcome (hsame.trans houtcome) i (Function.update_self i _ _)
    rw [hconnected, hgone] at hready
    cases hready

/-- Along a schedule the outcome is sticky exactly as long as no call comes to wait after another call has received
that the peer has failed or is closed. -/
theorem sticky_iff_first (s₀ s : State ι) (schedule : List (Threads.Action ι CallAction EnvAction))
    (h₀ : (threads ι).machine.Start s₀) (hexec : (threads ι).machine.exec s₀ schedule = some s) :
    (threads ι).machine.Throughout State.Sticky s₀ schedule ↔
      (threads ι).machine.Along (Threads.When First fun _ _ => True) s₀ schedule :=
  Machine.throughout_iff_along (fun _ hs => sticky_of_good hs) (fun _ _ _ hs hfirst hstep => good_step hs hfirst hstep)
    (fun _ _ _ hs hlate hstep => not_sticky_of_late hs hlate hstep) (good_start h₀) hexec

end Runs

/-! ## Two runs -/

/-- The format that is supported. -/
def l16 : Media.MediaFormat :=
  { Encoding := "L16", SampleRate := 8000, BitDepth := 16, Channels := 1, PTime := 20000000 }

/-- A new transport with the format of its configuration. -/
def fresh (format : Media.MediaFormat) : State Nat where
  shared :=
    { connected := none, stateOnce := false, claimed := false, format := format, closed := false, reported := none,
      owner := none, taken := none }
  locals _ := .idle

theorem start_fresh (format : Media.MediaFormat) : (threads Nat).machine.Start (fresh format) :=
  ⟨⟨rfl, rfl, rfl, rfl, rfl, rfl, rfl⟩, rfl⟩

/-- A first call is cancelled, the peer connects, a second call gets the channel and a third one is refused. -/
def connectedRun : List (Threads.Action Nat CallAction EnvAction) :=
  [.act 0 (.OpenMedia "audio" l16), .act 0 .claim, .act 0 .configure, .act 0 (.done "context canceled"),
    .act 0 .unclaim, .env (.state .connecting), .env (.state .connected), .act 1 .AcceptMedia, .act 1 .claim,
    .act 1 .check, .act 1 .receive, .act 2 (.OpenMedia "audio" l16), .act 2 .claim, .env (.state .closed)]

theorem connectedRun_sticky : (threads Nat).machine.Throughout State.Sticky (fresh noFormat) connectedRun := by
  have hexec : (threads Nat).machine.exec (fresh noFormat) connectedRun = some _ := rfl
  exact (sticky_iff_first _ _ connectedRun (start_fresh noFormat) hexec).mpr (by decide)

/-- The peer fails, a first call receives that, and a second call is made. -/
def failedRun : List (Threads.Action Nat CallAction EnvAction) :=
  [.env (.state .failed), .env .fail, .act 0 .AcceptMedia, .act 0 .claim, .act 0 .check, .act 0 .receive,
    .act 0 .unclaim, .act 1 .AcceptMedia, .act 1 .claim, .act 1 .check]

/-- The second call waits, and all that it can do is to wait for the end of its context. -/
theorem failedRun_not_sticky : ∃ s : State Nat, (threads Nat).machine.exec (fresh l16) failedRun = some s ∧
    s.shared.reported = some .failed ∧ s.locals 0 = .returned (some .failed) (some .peerFailed) ∧
    s.locals 1 = .waiting ∧ (∀ a, (act 1 s.shared .waiting a).isSome → ∃ err, a = .done err) ∧ ¬ s.Sticky := by
  refine ⟨_, rfl, rfl, rfl, rfl, ?_, fun hsticky => ?_⟩
  · intro a ha
    cases a with
    | done err => exact ⟨err, rfl⟩
    | OpenMedia id format => cases ha
    | AcceptMedia => cases ha
    | claim => cases ha
    | configure => cases ha
    | check => cases ha
    | receive => cases ha
    | unclaim => cases ha
  · cases hsticky.ready .failed rfl 1 rfl

end Rtvbp.Go.WebRtc
