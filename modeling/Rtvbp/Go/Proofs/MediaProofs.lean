import Rtvbp.Go.Media
import Mathlib.Tactic

/-!
# Proofs: who owns the audio channel

The state `audioBinding` belongs to one call, and `audioBound` is never left, so one channel can be bound.
The shutdown sets `closing` before it reads the channel under the mutex: a call whose section comes first
has bound its channel in time to be closed with it, and a call whose section comes later sees `closing`
and closes its channel itself.
-/

namespace Rtvbp.Go.Media

open Rtvbp.Lib

variable {ι κ : Type} {s s' : Shared ι κ} {i j : ι} {c c' : Call κ}

/-! ## The invariant -/

/-- Nothing is bound, or one channel. -/
def Binding (s : Shared ι κ) : Prop :=
  (s.media = none ∧ s.bound = [] ∧ s.pumps = [] ∧ s.mediaState ≠ .audioBound) ∨
  ∃ i channel, s.media = some channel ∧ s.bound = [(i, channel)] ∧
    (s.pumps = [] ∨ s.pumps = [channel]) ∧ s.mediaState = .audioBound

/-- What holds of the shared state. -/
structure Inv (s : Shared ι κ) : Prop where
  binding : Binding s
  binder : s.mediaState = .audioBinding ↔ s.binder.isSome = true
  closing : s.shutdown ≠ .running → s.closing = true
  reading : ∀ channel, s.shutdown = .closing channel → s.media = some channel
  done : s.shutdown = .done → ∀ channel, s.media = some channel → channel.handle ∈ s.closed

/-- What holds of a call, point by point. -/
def CallInv (i : ι) (s : Shared ι κ) : Call κ → Prop
  | .idle | .entered _ | .checked _ | .connected _ | .closing _ _ => s.binder ≠ some i
  | .negotiating _ | .accepted _ | .formatted _ | .failed _ _ => s.binder = some i
  | .bound channel =>
    s.binder ≠ some i ∧ s.media = some channel ∧ s.bound = [(i, channel)] ∧ s.pumps = []
  | .returned channel err =>
    s.binder ≠ some i ∧ ∀ ch, channel = some ch →
      ch.handle ∈ s.closed ∨ err = none ∧ s.media = some ch

/-- While a call binds, nothing is bound. -/
theorem Inv.unbound_of_binder (h : Inv s) (hbinder : s.binder = some i) :
    s.mediaState = .audioBinding ∧ s.media = none ∧ s.bound = [] ∧ s.pumps = [] := by
  have hstate : s.mediaState = .audioBinding := h.binder.mpr (by rw [hbinder]; rfl)
  rcases h.binding with ⟨hmedia, hbound, hpumps, -⟩ | ⟨_, _, -, -, -, hother⟩
  · exact ⟨hstate, hmedia, hbound, hpumps⟩
  · rw [hstate] at hother
    cases hother

/-! ## Interference -/

/-- What the steps of others leave alone: whether the call binds, the bound channel, the pumps of the call
that bound it, and the channels that were closed. -/
structure Rely (i : ι) (s s' : Shared ι κ) : Prop where
  binder : s'.binder = some i ↔ s.binder = some i
  media : ∀ channel, s.media = some channel → s'.media = some channel
  bound : ∀ channel, s.bound = [(i, channel)] → s'.bound = s.bound ∧ s'.pumps = s.pumps
  closed : ∀ k, k ∈ s.closed → k ∈ s'.closed

theorem Rely.refl (i : ι) (s : Shared ι κ) : Rely i s s :=
  ⟨Iff.rfl, fun _ h => h, fun _ _ => ⟨rfl, rfl⟩, fun _ h => h⟩

theorem CallInv.rely (h : CallInv i s c) (hrely : Rely i s s') : CallInv i s' c := by
  cases c with
  | idle | entered requested | checked requested | connected requested | closing channel err =>
    exact fun hbinder => h (hrely.binder.mp hbinder)
  | negotiating requested | accepted channel | formatted channel | failed channel err =>
    exact hrely.binder.mpr h
  | bound channel =>
    obtain ⟨hbinder, hmedia, hbound, hpumps⟩ := h
    obtain ⟨hbound', hpumps'⟩ := hrely.bound channel hbound
    exact ⟨fun hb => hbinder (hrely.binder.mp hb), hrely.media channel hmedia, hbound'.trans hbound,
      hpumps'.trans hpumps⟩
  | returned channel err =>
    obtain ⟨hbinder, hchannel⟩ := h
    refine ⟨fun hb => hbinder (hrely.binder.mp hb), fun ch hch => ?_⟩
    rcases hchannel ch hch with hclosed | ⟨herr, hmedia⟩
    · exact .inl (hrely.closed _ hclosed)
    · exact .inr ⟨herr, hrely.media ch hmedia⟩

/-! ## The sections under the mutex -/

/-- A call moves the state to `audioBinding`. -/
theorem begin_inv (hK : Inv s) (hunbound : s.mediaState = .audioUnbound) :
    Inv { s with mediaState := .audioBinding, binder := some i } ∧
      ∀ j, j ≠ i → Rely j s { s with mediaState := .audioBinding, binder := some i } := by
  have hnone : s.binder = none := by
    rw [← Option.not_isSome_iff_eq_none, ← hK.binder, hunbound]
    decide
  refine ⟨⟨?_, by simp, hK.closing, hK.reading, hK.done⟩, fun j hj => ?_⟩
  · rcases hK.binding with ⟨hmedia, hbound, hpumps, -⟩ | ⟨_, _, -, -, -, hother⟩
    · exact .inl ⟨hmedia, hbound, hpumps, by simp⟩
    · rw [hunbound] at hother
      cases hother
  · refine ⟨?_, fun _ h => h, fun _ _ => ⟨rfl, rfl⟩, fun _ h => h⟩
    rw [hnone]
    simp [hj.symm]

/-- The call that binds gives the state back. -/
theorem release_inv (hK : Inv s) (hbinder : s.binder = some i) :
    Inv { s with mediaState := .audioUnbound, binder := none } ∧
      ∀ j, j ≠ i → Rely j s { s with mediaState := .audioUnbound, binder := none } := by
  obtain ⟨-, hmedia, hbound, hpumps⟩ := hK.unbound_of_binder hbinder
  refine ⟨⟨.inl ⟨hmedia, hbound, hpumps, by simp⟩, by simp, hK.closing, hK.reading, hK.done⟩,
    fun j hj => ⟨?_, fun _ h => h, fun _ _ => ⟨rfl, rfl⟩, fun _ h => h⟩⟩
  rw [hbinder]
  simp [hj.symm]

/-- The call that binds binds its channel, while the session is not closing. -/
theorem finish_inv (hK : Inv s) (hbinder : s.binder = some i) (hopen : s.closing = false)
    (channel : MediaChannel κ) :
    let s' := { s with
      media := some channel
      mediaState := .audioBound
      binder := none
      bound := s.bound ++ [(i, channel)] }
    Inv s' ∧ CallInv i s' (.bound channel) ∧ ∀ j, j ≠ i → Rely j s s' := by
  obtain ⟨-, hmedia, hbound, hpumps⟩ := hK.unbound_of_binder hbinder
  -- The shutdown has not begun, since it sets `closing` first.
  have hrunning : s.shutdown = .running := by
    by_contra hne
    have hclosing := hK.closing hne
    rw [hopen] at hclosing
    cases hclosing
  refine ⟨⟨.inr ⟨i, channel, rfl, by simp [hbound], .inl hpumps, rfl⟩, by simp, hK.closing,
    by simp [hrunning], by simp [hrunning]⟩, ⟨by simp, rfl, by simp [hbound], hpumps⟩,
    fun j hj => ⟨?_, ?_, ?_, fun _ h => h⟩⟩
  · rw [hbinder]
    simp [hj.symm]
  · intro ch hch
    rw [hmedia] at hch
    cases hch
  · intro ch hch
    rw [hbound] at hch
    cases hch

/-- The call that has bound its channel starts the pumps. -/
theorem startPumps_inv (hK : Inv s) {channel : MediaChannel κ} (hmedia : s.media = some channel)
    (hbound : s.bound = [(i, channel)]) (hpumps : s.pumps = []) :
    Inv { s with pumps := s.pumps ++ [channel] } ∧
      ∀ j, j ≠ i → Rely j s { s with pumps := s.pumps ++ [channel] } := by
  refine ⟨⟨?_, hK.binder, hK.closing, hK.reading, hK.done⟩, fun j hj => ?_⟩
  · rcases hK.binding with ⟨hnone, -⟩ | ⟨_, _, -, -, -, hstate⟩
    · rw [hmedia] at hnone
      cases hnone
    · exact .inr ⟨i, channel, hmedia, hbound, .inr (by simp [hpumps]), hstate⟩
  · refine ⟨Iff.rfl, fun _ h => h, fun ch hch => ?_, fun _ h => h⟩
    rw [hbound] at hch
    cases hch
    exact absurd rfl hj

/-- A channel is closed. -/
theorem close_inv (hK : Inv s) (k : κ) :
    Inv { s with closed := s.closed ++ [k] } ∧ ∀ j, Rely j s { s with closed := s.closed ++ [k] } := by
  have hmono : ∀ k', k' ∈ s.closed → k' ∈ s.closed ++ [k] := fun _ h => List.mem_append_left _ h
  exact ⟨⟨hK.binding, hK.binder, hK.closing, hK.reading, fun hdone ch hch =>
    hmono _ (hK.done hdone ch hch)⟩, fun j => ⟨Iff.rfl, fun _ h => h, fun _ _ => ⟨rfl, rfl⟩, hmono⟩⟩

/-! ## The steps -/

/-- One step of a call keeps the invariant and does not interfere with other calls. -/
theorem act_inv {a : CallAction κ} (hK : Inv s) (h : CallInv i s c)
    (hstep : act i s c a = some (s', c')) : Inv s' ∧ CallInv i s' c' ∧ ∀ j, j ≠ i → Rely j s s' := by
  have hrefl : ∀ j, j ≠ i → Rely j s s := fun j _ => .refl j s
  have hnothing : ∀ err, s.binder ≠ some i → CallInv i s (.returned none err) :=
    fun err hb => ⟨hb, fun ch hch => by cases hch⟩
  cases a with
  | OpenAudio format =>
    simp only [act] at hstep
    split at hstep
    · split at hstep <;> cases hstep
      · exact ⟨hK, hnothing _ h, hrefl⟩
      · exact ⟨hK, h, hrefl⟩
    · cases hstep
  | AcceptAudio =>
    simp only [act] at hstep
    split at hstep <;> cases hstep
    exact ⟨hK, h, hrefl⟩
  | check =>
    simp only [act] at hstep
    split at hstep
    · split_ifs at hstep <;> cases hstep
      · exact ⟨hK, hnothing _ h, hrefl⟩
      · exact ⟨hK, h, hrefl⟩
    · cases hstep
  | transport =>
    simp only [act] at hstep
    split at hstep
    · split_ifs at hstep <;> cases hstep
      · exact ⟨hK, h, hrefl⟩
      · exact ⟨hK, hnothing _ h, hrefl⟩
    · cases hstep
  | begin =>
    simp only [act] at hstep
    split at hstep
    · split_ifs at hstep with hclosing hunbound <;> cases hstep
      · exact ⟨hK, hnothing _ h, hrefl⟩
      · obtain ⟨hK', hothers⟩ := begin_inv hK hunbound
        exact ⟨hK', rfl, hothers⟩
      · exact ⟨hK, hnothing _ h, hrefl⟩
    · cases hstep
  | negotiated result =>
    simp only [act] at hstep
    split at hstep
    · split at hstep
      · cases hstep
        exact ⟨hK, h, hrefl⟩
      · cases hstep
        exact ⟨hK, h, hrefl⟩
      · split at hstep <;> cases hstep
        · exact ⟨hK, h, hrefl⟩
        · exact ⟨hK, h, hrefl⟩
    · cases hstep
  | setFormat =>
    simp only [act] at hstep
    split at hstep
    · split at hstep <;> cases hstep
      · exact ⟨hK, h, hrefl⟩
      · exact ⟨⟨hK.binding, hK.binder, hK.closing, hK.reading, hK.done⟩, h,
          fun j _ => ⟨Iff.rfl, fun _ h => h, fun _ _ => ⟨rfl, rfl⟩, fun _ h => h⟩⟩
    · cases hstep
  | finish =>
    simp only [act] at hstep
    split at hstep
    · next channel =>
      split_ifs at hstep with hclosing <;> cases hstep
      · obtain ⟨hK', hothers⟩ := release_inv hK h
        exact ⟨hK', by simp [CallInv], hothers⟩
      · exact finish_inv hK h (by simpa using hclosing) channel
    · cases hstep
  | startPumps =>
    simp only [act] at hstep
    split at hstep
    · next channel =>
      cases hstep
      obtain ⟨hbinder, hmedia, hbound, hpumps⟩ := h
      obtain ⟨hK', hothers⟩ := startPumps_inv hK hmedia hbound hpumps
      refine ⟨hK', ⟨hbinder, fun ch hch => ?_⟩, hothers⟩
      cases hch
      exact .inr ⟨rfl, hmedia⟩
    · cases hstep
  | abort =>
    simp only [act] at hstep
    split at hstep
    · next channel err =>
      obtain ⟨hK', hothers⟩ := release_inv hK h
      simp only [(hK.unbound_of_binder h).1, if_true] at hstep
      cases hstep
      refine ⟨hK', ?_, hothers⟩
      cases channel with
      | none => exact ⟨by simp, fun ch hch => by cases hch⟩
      | some channel => exact fun hb => by cases hb
    · cases hstep
  | close =>
    simp only [act] at hstep
    split at hstep
    · next channel err =>
      cases hstep
      obtain ⟨hK', hothers⟩ := close_inv hK channel.handle
      refine ⟨hK', ⟨h, fun ch hch => ?_⟩, fun j _ => hothers j⟩
      cases hch
      exact .inl (by simp)
    · cases hstep

/-- The steps of everybody else. -/
theorem env_inv {e : EnvAction} (hK : Inv s) (hstep : env s e = some s') :
    Inv s' ∧ ∀ j, Rely j s s' := by
  cases e with
  | connect =>
    cases hstep
    exact ⟨⟨hK.binding, hK.binder, hK.closing, hK.reading, hK.done⟩,
      fun j => ⟨Iff.rfl, fun _ h => h, fun _ _ => ⟨rfl, rfl⟩, fun _ h => h⟩⟩
  | requestStop =>
    cases hstep
    exact ⟨⟨hK.binding, hK.binder, fun _ => rfl, hK.reading, hK.done⟩,
      fun j => ⟨Iff.rfl, fun _ h => h, fun _ _ => ⟨rfl, rfl⟩, fun _ h => h⟩⟩
  | beginShutdown =>
    simp only [env] at hstep
    split at hstep <;> cases hstep
    exact ⟨⟨hK.binding, hK.binder, fun _ => rfl, by simp, by simp⟩,
      fun j => ⟨Iff.rfl, fun _ h => h, fun _ _ => ⟨rfl, rfl⟩, fun _ h => h⟩⟩
  | readMedia =>
    simp only [env] at hstep
    split at hstep
    · next hbegun =>
      cases hstep
      have hclosing : s.closing = true := hK.closing (by simp [hbegun])
      refine ⟨⟨hK.binding, hK.binder, fun _ => hclosing, ?_, ?_⟩,
        fun j => ⟨Iff.rfl, fun _ h => h, fun _ _ => ⟨rfl, rfl⟩, fun _ h => h⟩⟩
      · cases hmedia : s.media with
        | none => simp
        | some channel => simp
      · intro hdone channel hchannel
        dsimp only at hdone hchannel
        rw [hchannel] at hdone
        cases hdone
    · cases hstep
  | closeMedia =>
    simp only [env] at hstep
    split at hstep
    · next channel hreading =>
      cases hstep
      have hmedia : s.media = some channel := hK.reading channel hreading
      have hclosing : s.closing = true := hK.closing (by simp [hreading])
      refine ⟨⟨hK.binding, hK.binder, fun _ => hclosing, by simp, fun _ ch hch => ?_⟩,
        fun j => ⟨Iff.rfl, fun _ h => h, fun _ _ => ⟨rfl, rfl⟩, fun _ h => List.mem_append_left _ h⟩⟩
      dsimp only at hch
      rw [hmedia] at hch
      cases hch
      simp
    · cases hstep

/-! ## Runs -/

theorem inv_start (h : Start s) : Inv s ∧ ∀ i, CallInv i s (Call.idle : Call κ) := by
  obtain ⟨hstate, hmedia, hshutdown, hbinder, hbound, hpumps⟩ := h
  refine ⟨⟨.inl ⟨hmedia, hbound, hpumps, by simp [hstate]⟩, by simp [hstate, hbinder],
    by simp [hshutdown], by simp [hshutdown], by simp [hshutdown]⟩, fun i => ?_⟩
  simp [CallInv, hbinder]

/-- The invariant says whose the channels are. -/
theorem owned_of_holds {s : State ι κ} (h : Threads.Holds Inv CallInv s) : s.Owned := by
  have hreturned : ∀ i channel err, s.locals i = .returned (some channel) err →
      channel.handle ∈ s.shared.closed ∨ err = none ∧ s.shared.media = some channel := by
    intro i channel err hc
    have hcall := h.thread i
    rw [hc] at hcall
    exact hcall.2 channel rfl
  have hbinding : s.shared.mediaState = .audioBinding → ∃ i, (s.locals i).binds = true := by
    intro hstate
    obtain ⟨i, hi⟩ := Option.isSome_iff_exists.mp (h.1.binder.mp hstate)
    have hcall := h.thread i
    refine ⟨i, ?_⟩
    cases hc : s.locals i with
    | negotiating requested | accepted channel | formatted channel | failed channel err => rfl
    | idle | entered requested | checked requested | connected requested | closing channel err =>
      rw [hc] at hcall
      exact absurd hi hcall
    | bound channel | returned channel err =>
      rw [hc] at hcall
      exact absurd hi hcall.1
  have hdone : s.shared.shutdown = .done →
      (∀ channel, s.shared.media = some channel → channel.handle ∈ s.shared.closed) ∧
      ∀ i channel err, s.locals i = .returned (some channel) err → channel.handle ∈ s.shared.closed := by
    intro hs
    refine ⟨h.1.done hs, fun i channel err hc => ?_⟩
    rcases hreturned i channel err hc with hclosed | ⟨-, hmedia⟩
    · exact hclosed
    · exact h.1.done hs channel hmedia
  rcases h.1.binding with ⟨hmedia, hbound, hpumps, -⟩ | ⟨i, channel, hmedia, hbound, hpumps, -⟩
  · exact ⟨by simp [hbound], by simp [hbound, hmedia], by simp [hpumps], by simp [hpumps], hbinding,
      hreturned, hdone⟩
  · refine ⟨by simp [hbound], by simp [hbound, hmedia, eq_comm], ?_, ?_, hbinding, hreturned, hdone⟩
    · rcases hpumps with hpumps | hpumps <;> simp [hpumps]
    · rcases hpumps with hpumps | hpumps <;> simp [hpumps, hmedia]

/-- A call that binds stops doing so in one of the sections. -/
theorem act_releases {a : CallAction κ} (hK : Inv s) (h : CallInv i s c) (hbinds : c.binds = true)
    (hstep : act i s c a = some (s', c')) (hends : c'.binds = false) :
    s'.mediaState = .audioUnbound ∨ ∃ channel, c' = .bound channel ∧ s'.media = some channel := by
  cases a with
  | OpenAudio format | AcceptAudio | check | transport | begin | startPumps | close =>
    simp only [act] at hstep
    split at hstep
    · cases hbinds
    · cases hstep
  | negotiated result =>
    simp only [act] at hstep
    split at hstep
    · split at hstep
      · cases hstep
        cases hends
      · cases hstep
        cases hends
      · split at hstep <;> cases hstep <;> cases hends
    · cases hstep
  | setFormat =>
    simp only [act] at hstep
    split at hstep
    · split at hstep <;> cases hstep <;> cases hends
    · cases hstep
  | finish =>
    simp only [act] at hstep
    split at hstep
    · split_ifs at hstep <;> cases hstep
      · exact .inl rfl
      · exact .inr ⟨_, rfl, rfl⟩
    · cases hstep
  | abort =>
    simp only [act] at hstep
    split at hstep
    · simp only [(hK.unbound_of_binder h).1, if_true] at hstep
      cases hstep
      exact .inl rfl
    · cases hstep

/-- In every state of every run the channels are owned as they should be, and whenever a call stops binding
it gives the state back or has bound its channel. -/
theorem audio_channels_owned [DecidableEq ι] (s : State ι κ)
    (h : (threads ι κ).machine.Reachable s) :
    s.Owned ∧ ∀ i a (t : State ι κ), (threads ι κ).machine.step s (.act i a) = some t →
      Releases s t i := by
  have hinv : Threads.Holds Inv CallInv s := by
    refine Threads.reachable_invariant (fun s hs => inv_start hs) ?_ ?_ h
    · intro i s c a s' c' hK hc hstep
      obtain ⟨hK', hown, hothers⟩ := act_inv hK hc hstep
      exact ⟨hK', hown, fun j m hj hm => hm.rely (hothers j hj)⟩
    · intro s e s' hK hstep
      obtain ⟨hK', hothers⟩ := env_inv hK hstep
      exact ⟨hK', fun j m hm => hm.rely (hothers j)⟩
  refine ⟨owned_of_holds hinv, fun i a t hstep hbinds hends => ?_⟩
  obtain ⟨⟨shared, l⟩, hact, rfl⟩ := Option.map_eq_some_iff.mp hstep
  simp only [Function.update_self] at hends ⊢
  exact act_releases hinv.1 (hinv.thread i) hbinds hact hends

/-- A format of the catalog. -/
def l16 : MediaFormat :=
  { Encoding := "L16", SampleRate := 8000, BitDepth := 16, Channels := 1, PTime := 20000000 }

/-- A session without media. -/
def silent : State Nat Nat where
  shared :=
    { connected := true, closing := false, mediaState := .audioUnbound, media := none, format := none,
      shutdown := .running, binder := none, closed := [], bound := [], pumps := [] }
  locals _ := .idle

/-- A call gets a channel with a wrong id; the next one gets its channel while the shutdown begins, and
closes it itself. -/
def lateRun : List (Threads.Action Nat (CallAction Nat) EnvAction) :=
  [.act 0 .AcceptAudio, .act 0 .check, .act 0 .transport, .act 0 .begin,
    .act 0 (.negotiated (.ok (some ⟨7, "video", l16⟩))), .act 0 .abort, .act 0 .close,
    .act 1 (.OpenAudio l16), .act 1 .check, .act 1 .transport, .act 1 .begin, .env .beginShutdown,
    .env .readMedia, .act 1 (.negotiated (.ok (some ⟨8, "audio", l16⟩))), .act 1 .setFormat,
    .act 1 .finish, .act 1 .close]

theorem lateRun_owned :
    ∃ s : State Nat Nat, (threads Nat Nat).machine.exec silent lateRun = some s ∧
      s.shared.shutdown = .done ∧ s.shared.closed = [7, 8] ∧ State.Owned s :=
  ⟨_, rfl, rfl, rfl, (audio_channels_owned _ (@Machine.Reachable.of_exec _ _ (threads Nat Nat).machine
    silent _ lateRun ⟨⟨rfl, rfl, rfl, rfl, rfl, rfl⟩, rfl⟩ rfl)).1⟩

end Rtvbp.Go.Media
