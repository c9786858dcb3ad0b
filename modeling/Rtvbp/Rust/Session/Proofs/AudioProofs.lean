import Rtvbp.Rust.Session.Audio
import Mathlib.Tactic

/-!
# Proofs: who owns the audio channel of a Rust session

The state `binding` belongs to one call, and `bound` is never left, so at most one channel is ever bound,
in every run. The rest of what is asked needs more: a call that is dropped or returns early keeps the
binding, a rejected channel is not closed, and a call that passes the closing flag in time can bind its
channel after the shutdown has looked at the binding. The steps that do one of these are exactly those that
break it.
-/

namespace Rtvbp.Rust.Audio

open Rtvbp.Lib

variable {ι κ : Type} {s s' : Shared ι κ} {i j : ι} {c c' : Call κ}

/-! ## What holds in every run -/

/-- What holds of the shared state. -/
structure Inv (s : Shared ι κ) : Prop where
  binder : s.binder.isSome = true → s.media = .binding
  bound : (∀ channel, s.media ≠ .bound channel) ∧ s.bound = [] ∨
    ∃ i channel, s.media = .bound channel ∧ s.bound = [(i, channel)]
  reading : ∀ channel, s.shutdown = .closingMedia channel → s.media = .bound channel

/-- What holds of a call, point by point. -/
def CallInv (i : ι) (s : Shared ι κ) : Call κ → Prop
  | .negotiating _ | .accepted _ | .formatted _ | .failed _ _ => s.binder = some i
  | .bound channel | .spawned channel => s.binder ≠ some i ∧ s.media = .bound channel
  | .idle | .entered _ | .checked _ | .connected _ | .returned _ _ | .dropped => s.binder ≠ some i

/-- While a call binds, nothing is bound. -/
theorem Inv.of_binder (h : Inv s) (hbinder : s.binder = some i) : s.media = .binding ∧ s.bound = [] := by
  have hmedia : s.media = .binding := h.binder (by rw [hbinder]; rfl)
  rcases h.bound with ⟨-, hbound⟩ | ⟨_, _, hother, -⟩
  · exact ⟨hmedia, hbound⟩
  · rw [hmedia] at hother
    cases hother

/-- What the steps of others leave alone: whether the call binds, the bound channel, and the channels that
were closed. -/
structure Rely (i : ι) (s s' : Shared ι κ) : Prop where
  binder : s'.binder = some i ↔ s.binder = some i
  media : ∀ channel, s.media = .bound channel → s'.media = .bound channel
  closed : ∀ k, k ∈ s.closed → k ∈ s'.closed

theorem Rely.refl (i : ι) (s : Shared ι κ) : Rely i s s := ⟨Iff.rfl, fun _ h => h, fun _ h => h⟩

theorem CallInv.rely (h : CallInv i s c) (hrely : Rely i s s') : CallInv i s' c := by
  cases c with
  | negotiating requested | accepted channel | formatted channel | failed channel error =>
    exact hrely.binder.mpr h
  | bound channel | spawned channel =>
    exact ⟨fun hb => h.1 (hrely.binder.mp hb), hrely.media channel h.2⟩
  | idle | entered requested | checked requested | connected requested | returned channel result
  | dropped =>
    exact fun hb => h (hrely.binder.mp hb)

/-- The call that binds gives up; whether the binding becomes `unbound` makes no difference to others. -/
theorem release_inv (hK : Inv s) (hbinder : s.binder = some i) (media : MediaBinding κ)
    (hmedia : ∀ channel, media ≠ .bound channel) :
    Inv { s with media, binder := none } ∧ ∀ j, j ≠ i → Rely j s { s with media, binder := none } := by
  obtain ⟨hbinding, hbound⟩ := hK.of_binder hbinder
  refine ⟨⟨by simp, .inl ⟨hmedia, hbound⟩, fun channel hreading => ?_⟩, fun j hj => ⟨?_, fun channel h => ?_,
    fun _ h => h⟩⟩
  · have hother := hK.reading channel hreading
    rw [hbinding] at hother
    cases hother
  · rw [hbinder]
    simp [hj.symm]
  · rw [hbinding] at h
    cases h

/-- The call gives up without a look at the binding. -/
theorem forget_inv (hK : Inv s) (hbinder : s.binder = some i) :
    Inv { s with binder := none } ∧ ∀ j, j ≠ i → Rely j s { s with binder := none } := by
  have hmedia := (hK.of_binder hbinder).1
  exact release_inv hK hbinder s.media fun channel => by simp [hmedia]

/-- A call moves the binding from `unbound` to `binding`. -/
theorem begin_inv (hK : Inv s) (hunbound : s.media = .unbound) :
    Inv { s with media := .binding, binder := some i } ∧
      ∀ j, j ≠ i → Rely j s { s with media := .binding, binder := some i } := by
  have hnone : s.binder = none := by
    rw [← Option.not_isSome_iff_eq_none]
    intro hsome
    have hmedia := hK.binder hsome
    rw [hunbound] at hmedia
    cases hmedia
  have hbound : s.bound = [] := by
    rcases hK.bound with ⟨-, hbound⟩ | ⟨_, _, hother, -⟩
    · exact hbound
    · rw [hunbound] at hother
      cases hother
  refine ⟨⟨fun _ => rfl, .inl ⟨by simp, hbound⟩, fun channel hreading => ?_⟩, fun j hj => ⟨?_, fun channel h => ?_,
    fun _ h => h⟩⟩
  · have hother := hK.reading channel hreading
    rw [hunbound] at hother
    cases hother
  · rw [hnone]
    simp [hj.symm]
  · rw [hunbound] at h
    cases h

/-- The call that binds binds its channel. -/
theorem bind_inv (hK : Inv s) (hbinder : s.binder = some i) (channel : MediaChannel κ) :
    let s' := { s with media := .bound channel, binder := none, bound := s.bound ++ [(i, channel)] }
    Inv s' ∧ ∀ j, j ≠ i → Rely j s s' := by
  obtain ⟨hbinding, hbound⟩ := hK.of_binder hbinder
  refine ⟨⟨by simp, .inr ⟨i, channel, rfl, by simp [hbound]⟩, fun ch hreading => ?_⟩, fun j hj => ⟨?_,
    fun ch h => ?_, fun _ h => h⟩⟩
  · have hother := hK.reading ch hreading
    rw [hbinding] at hother
    cases hother
  · rw [hbinder]
    simp [hj.symm]
  · rw [hbinding] at h
    cases h

/-- A step that leaves the binding alone does not interfere. -/
theorem Rely.of_same (j : ι) (hbinder : s'.binder = s.binder) (hmedia : s'.media = s.media)
    (hclosed : s'.closed = s.closed) : Rely j s s' := by
  refine ⟨by rw [hbinder], fun _ h => hmedia.trans h, fun k h => ?_⟩
  rw [hclosed]
  exact h

theorem Inv.of_same (hK : Inv s) (hbinder : s'.binder = s.binder) (hmedia : s'.media = s.media)
    (hbound : s'.bound = s.bound) (hshutdown : s'.shutdown = s.shutdown) : Inv s' := by
  refine ⟨?_, ?_, ?_⟩
  · rw [hbinder, hmedia]
    exact hK.binder
  · rw [hmedia, hbound]
    exact hK.bound
  · rw [hshutdown, hmedia]
    exact hK.reading

theorem bindError_eq_none {media : MediaBinding κ} {requested : Option MediaFormat}
    (h : bindError media requested = none) : media = .unbound := by
  cases media with
  | unbound => rfl
  | binding => cases h
  | bound channel => cases requested <;> cases h

/-- What the checks of `finish_audio_bind` lead to. -/
theorem finishChecks_cases (channel : MediaChannel κ) (requested : Option MediaFormat) :
    (∃ error, finishChecks channel requested = .failed (some channel) error) ∨
      (∃ error, finishChecks channel requested = .returned (some channel) (.error error)) ∨
      finishChecks channel requested = .accepted channel := by
  unfold finishChecks
  split
  · exact .inl ⟨_, rfl⟩
  · split
    · exact .inr (.inl ⟨_, rfl⟩)
    · split
      · exact .inl ⟨_, rfl⟩
      · exact .inr (.inr rfl)

/-- One step of a call keeps the invariant and does not interfere with other calls. -/
theorem act_inv {a : CallAction κ} (hK : Inv s) (h : CallInv i s c) (hstep : act i s c a = some (s', c')) :
    Inv s' ∧ CallInv i s' c' ∧ ∀ j, j ≠ i → Rely j s s' := by
  have hrefl : ∀ j, j ≠ i → Rely j s s := fun j _ => .refl j s
  cases a with
  | openAudio format =>
    simp only [act] at hstep
    split at hstep
    · split at hstep <;> cases hstep <;> exact ⟨hK, h, hrefl⟩
    · cases hstep
  | acceptAudio =>
    simp only [act] at hstep
    split at hstep <;> cases hstep
    exact ⟨hK, h, hrefl⟩
  | check | transport =>
    simp only [act] at hstep
    split at hstep
    · split_ifs at hstep <;> cases hstep <;> exact ⟨hK, h, hrefl⟩
    · cases hstep
  | begin =>
    simp only [act] at hstep
    split at hstep
    · split at hstep <;> cases hstep
      · exact ⟨hK, h, hrefl⟩
      · rename_i hnone
        obtain ⟨hK', hothers⟩ := begin_inv (i := i) hK (bindError_eq_none hnone)
        exact ⟨hK', rfl, hothers⟩
    · cases hstep
  | negotiated result =>
    simp only [act] at hstep
    split at hstep
    · rename_i requested
      split at hstep
      · cases hstep
        exact ⟨hK, h, hrefl⟩
      · rename_i channel
        rcases finishChecks_cases channel requested with ⟨error, hc⟩ | ⟨error, hc⟩ | hc <;>
          rw [hc] at hstep <;> cases hstep
        · exact ⟨hK, h, hrefl⟩
        · obtain ⟨hK', hothers⟩ := forget_inv hK h
          exact ⟨hK', by simp [CallInv], hothers⟩
        · exact ⟨hK, h, hrefl⟩
    · cases hstep
  | setFormat =>
    simp only [act] at hstep
    split at hstep
    · split at hstep <;> cases hstep
      · obtain ⟨hK', hothers⟩ := forget_inv hK h
        exact ⟨hK', by simp [CallInv], hothers⟩
      · exact ⟨hK.of_same rfl rfl rfl rfl, h, fun j _ => .of_same j rfl rfl rfl⟩
    · cases hstep
  | bind =>
    simp only [act] at hstep
    split at hstep
    · rename_i channel
      cases hstep
      obtain ⟨hK', hothers⟩ := bind_inv hK h channel
      exact ⟨hK', ⟨by simp, rfl⟩, hothers⟩
    · cases hstep
  | spawn =>
    simp only [act] at hstep
    split at hstep
    · cases hstep
      exact ⟨hK.of_same rfl rfl rfl rfl, h, fun j _ => .of_same j rfl rfl rfl⟩
    · cases hstep
  | extend =>
    simp only [act] at hstep
    split at hstep
    · cases hstep
      exact ⟨hK.of_same rfl rfl rfl rfl, h.1, fun j _ => .of_same j rfl rfl rfl⟩
    · cases hstep
  | abort =>
    simp only [act] at hstep
    split at hstep
    · simp only [(hK.of_binder h).1] at hstep
      cases hstep
      obtain ⟨hK', hothers⟩ := release_inv hK h .unbound (by simp)
      exact ⟨hK', by simp [CallInv], hothers⟩
    · cases hstep
  | drop =>
    simp only [act] at hstep
    split at hstep
    · cases hstep
      obtain ⟨hK', hothers⟩ := forget_inv hK h
      exact ⟨hK', by simp [CallInv], hothers⟩
    · cases hstep

/-- The steps of everybody else. -/
theorem env_inv {e : EnvAction} (hK : Inv s) (hstep : env s e = some s') : Inv s' ∧ ∀ j, Rely j s s' := by
  have hmove : ∀ shutdown : Shutdown κ, ∀ closing mediaTasks closed,
      (∀ channel, shutdown = .closingMedia channel → s.media = .bound channel) →
      (∀ k, k ∈ s.closed → k ∈ closed) →
      Inv { s with shutdown, closing, mediaTasks, closed } ∧
        ∀ j, Rely j s { s with shutdown, closing, mediaTasks, closed } := by
    intro shutdown closing mediaTasks closed hreading hclosed
    exact ⟨⟨hK.binder, hK.bound, hreading⟩, fun j => ⟨Iff.rfl, fun _ h => h, hclosed⟩⟩
  cases e with
  | connect =>
    cases hstep
    exact ⟨hK.of_same rfl rfl rfl rfl, fun j => .of_same j rfl rfl rfl⟩
  | finishWithoutTransport =>
    simp only [env] at hstep
    split_ifs at hstep
    cases hstep
    exact ⟨hK.of_same rfl rfl rfl rfl, fun j => .of_same j rfl rfl rfl⟩
  | beginShutdown =>
    simp only [env] at hstep
    split at hstep
    · split_ifs at hstep
      cases hstep
      exact hmove .begun true _ _ (by simp) fun _ h => h
    · cases hstep
  | readMedia =>
    simp only [env] at hstep
    split at hstep
    · cases hstep
      refine hmove _ _ _ _ (fun channel hchannel => ?_) fun _ h => h
      split at hchannel
      · rename_i hmedia
        cases hchannel
        exact hmedia
      · cases hchannel
      · cases hchannel
    · cases hstep
  | closeMedia =>
    simp only [env] at hstep
    split at hstep
    · cases hstep
      exact hmove _ _ _ _ (by simp) fun _ h => List.mem_append_left _ h
    · cases hstep
  | drainTasks =>
    simp only [env] at hstep
    split at hstep
    · cases hstep
      exact hmove _ _ _ _ (by simp) fun _ h => h
    · cases hstep

theorem inv_start (h : Start s) : Inv s ∧ ∀ i, CallInv i s (Call.idle : Call κ) := by
  obtain ⟨hmedia, hshutdown, hbinder, hbound, -⟩ := h
  refine ⟨⟨by simp [hbinder], .inl ⟨by simp [hmedia], hbound⟩, by simp [hshutdown]⟩, fun i => ?_⟩
  simp [CallInv, hbinder]

/-- At most one channel is ever bound, whatever happens. -/
theorem bound_at_most_once [DecidableEq ι] (s : State ι κ) (h : (threads ι κ).machine.Reachable s) :
    s.shared.bound.length ≤ 1 := by
  have hinv : Threads.Holds Inv CallInv s := by
    refine Threads.reachable_invariant (fun s hs => inv_start hs) ?_ ?_ h
    · intro i s c a s' c' hK hc hstep
      obtain ⟨hK', hown, hothers⟩ := act_inv hK hc hstep
      exact ⟨hK', hown, fun j m hj hm => hm.rely (hothers j hj)⟩
    · intro s e s' hK hstep
      obtain ⟨hK', hothers⟩ := env_inv hK hstep
      exact ⟨hK', fun j m hm => hm.rely (hothers j)⟩
  rcases hinv.1.bound with ⟨-, hbound⟩ | ⟨_, _, -, hbound⟩ <;> simp [hbound]

/-! ## What holds as long as the steps are orderly -/

/-- The binding is `binding` only for a call, the shutdown has not missed the bound channel, and its pumps
were spawned in time. -/
structure Kept (s : Shared ι κ) : Prop where
  binding : s.media = .binding → s.binder.isSome = true
  shut_down : s.shutdown.hasRead = true → ∀ channel, s.media = .bound channel → s.disposes channel
  late : s.late = []

/-- The channel of a call that has returned is closed or bound. -/
def Settled (s : Shared ι κ) : Call κ → Prop
  | .returned (some channel) _ => channel.handle ∈ s.closed ∨ s.media = .bound channel
  | _ => True

theorem Settled.rely (h : Settled s c) (hrely : Rely i s s') : Settled s' c := by
  unfold Settled at h ⊢
  split
  · rcases h with hclosed | hmedia
    · exact .inl (hrely.closed _ hclosed)
    · exact .inr (hrely.media _ hmedia)
  · trivial

/-- An orderly step of a call. -/
theorem act_kept {a : CallAction κ} (hK : Inv s) (h : CallInv i s c) (hk : Kept s) (hs : Settled s c)
    (hG : Orderly s c a) (hstep : act i s c a = some (s', c')) : Kept s' ∧ Settled s' c' := by
  cases a with
  | openAudio format =>
    simp only [act] at hstep
    split at hstep
    · split at hstep <;> cases hstep <;> exact ⟨hk, trivial⟩
    · cases hstep
  | acceptAudio =>
    simp only [act] at hstep
    split at hstep <;> cases hstep
    exact ⟨hk, trivial⟩
  | check | transport =>
    simp only [act] at hstep
    split at hstep
    · split_ifs at hstep <;> cases hstep <;> exact ⟨hk, trivial⟩
    · cases hstep
  | begin =>
    simp only [act] at hstep
    split at hstep
    · split at hstep <;> cases hstep
      · exact ⟨hk, trivial⟩
      · exact ⟨⟨fun _ => rfl, by simp, hk.late⟩, trivial⟩
    · cases hstep
  | negotiated result =>
    simp only [act] at hstep
    split at hstep
    · rename_i requested
      split at hstep
      · cases hstep
        exact ⟨hk, trivial⟩
      · rename_i channel
        simp only [Orderly] at hG
        rcases finishChecks_cases channel requested with ⟨error, hc⟩ | ⟨error, hc⟩ | hc <;>
          rw [hc] at hstep hG <;> cases hstep
        · exact ⟨hk, trivial⟩
        · cases hG
        · exact ⟨hk, trivial⟩
    · cases hstep
  | setFormat =>
    simp only [act] at hstep
    split at hstep
    · simp only [Orderly] at hG
      split at hstep
      · rename_i herror
        rw [herror] at hG
        cases hG
      · cases hstep
        exact ⟨⟨hk.binding, hk.shut_down, hk.late⟩, trivial⟩
    · cases hstep
  | bind =>
    simp only [act] at hstep
    split at hstep
    · simp only [Orderly] at hG
      cases hstep
      refine ⟨⟨by simp, fun hread ch hch => ?_, hk.late⟩, trivial⟩
      cases hch
      exact .inl (hG hread)
    · cases hstep
  | spawn =>
    simp only [act] at hstep
    split at hstep
    · simp only [Orderly] at hG
      cases hstep
      refine ⟨⟨hk.binding, hk.shut_down, ?_⟩, trivial⟩
      dsimp only
      split
      · rename_i hdrained
        rw [hdrained] at hG
        cases hG
      · exact hk.late
    · cases hstep
  | extend =>
    simp only [act] at hstep
    split at hstep
    · cases hstep
      exact ⟨⟨hk.binding, hk.shut_down, hk.late⟩, .inr h.2⟩
    · cases hstep
  | abort =>
    simp only [act] at hstep
    split at hstep
    · rename_i channel error
      simp only [(hK.of_binder h).1] at hstep
      cases hstep
      refine ⟨⟨by simp, by simp, hk.late⟩, ?_⟩
      cases channel with
      | none => trivial
      | some channel => exact .inl hG
    · cases hstep
  | drop =>
    simp only [act] at hstep
    split at hstep
    · exact hG.elim
    · cases hstep

/-- The steps of everybody else; the shutdown disposes of the channel that it finds bound. -/
theorem env_kept {e : EnvAction} (hK : Inv s) (hk : Kept s) (hstep : env s e = some s') : Kept s' := by
  cases e with
  | connect =>
    cases hstep
    exact ⟨hk.binding, hk.shut_down, hk.late⟩
  | finishWithoutTransport =>
    simp only [env] at hstep
    split_ifs at hstep
    cases hstep
    exact ⟨hk.binding, hk.shut_down, hk.late⟩
  | beginShutdown =>
    simp only [env] at hstep
    split at hstep
    · split_ifs at hstep
      cases hstep
      exact ⟨hk.binding, by simp [Shutdown.hasRead], hk.late⟩
    · cases hstep
  | readMedia =>
    simp only [env] at hstep
    split at hstep
    · cases hstep
      refine ⟨hk.binding, fun _ channel hmedia => .inr ?_, hk.late⟩
      dsimp only at hmedia ⊢
      rw [hmedia]
    · cases hstep
  | closeMedia =>
    simp only [env] at hstep
    split at hstep
    · rename_i closing hshutdown
      cases hstep
      refine ⟨hk.binding, fun _ channel hmedia => .inl ?_, hk.late⟩
      dsimp only at hmedia ⊢
      have hsame := hK.reading closing hshutdown
      rw [hmedia] at hsame
      cases hsame
      exact List.mem_append_right _ List.mem_cons_self
    · cases hstep
  | drainTasks =>
    simp only [env] at hstep
    split at hstep
    · rename_i hshutdown
      cases hstep
      refine ⟨hk.binding, fun _ channel hmedia => ?_, hk.late⟩
      rcases hk.shut_down (by simp [hshutdown, Shutdown.hasRead]) channel hmedia with hclosed | hother
      · exact .inl hclosed
      · rw [hshutdown] at hother
        cases hother
    · cases hstep

/-- The two invariants together. -/
def Good : State ι κ → Prop :=
  Threads.Holds (fun s => Inv s ∧ Kept s) fun i s c => CallInv i s c ∧ Settled s c

theorem good_start {s : State ι κ} (h : Start s.shared ∧ s.locals = fun _ => Call.idle) : Good s := by
  obtain ⟨hstart, hlocals⟩ := h
  obtain ⟨hK, hcalls⟩ := inv_start hstart
  obtain ⟨hmedia, hshutdown, -, -, hlate⟩ := hstart
  refine ⟨⟨hK, by simp [hmedia], by simp [hshutdown, Shutdown.hasRead], hlate⟩, fun i => ?_⟩
  rw [hlocals]
  exact ⟨hcalls i, trivial⟩

theorem Good.owned {s : State ι κ} (h : Good s) : s.Owned := by
  obtain ⟨⟨hK, hk⟩, hcalls⟩ := h
  refine ⟨?_, fun hmedia => ?_, fun i channel result hc => ?_, hk.shut_down, hk.late⟩
  · rcases hK.bound with ⟨-, hbound⟩ | ⟨_, _, -, hbound⟩ <;> simp [hbound]
  · obtain ⟨i, hi⟩ := Option.isSome_iff_exists.mp (hk.binding hmedia)
    have hcall := (hcalls i).1
    refine ⟨i, ?_⟩
    cases hc : s.locals i with
    | negotiating requested | accepted channel | formatted channel | failed channel error => rfl
    | bound channel | spawned channel =>
      rw [hc] at hcall
      exact absurd hi hcall.1
    | idle | entered requested | checked requested | connected requested | returned channel result
    | dropped =>
      rw [hc] at hcall
      exact absurd hi hcall
  · have hsettled := (hcalls i).2
    rw [hc] at hsettled
    exact hsettled

section Exact

variable [DecidableEq ι]

theorem Good.step {s t : State ι κ} {a : Threads.Action ι (CallAction κ) EnvAction} (h : Good s)
    (hG : Threads.When (fun _ => Orderly) (fun _ _ => True) s a)
    (hstep : (threads ι κ).machine.step s a = some t) : Good t := by
  refine Threads.Holds.step ?_ ?_ h hG hstep
  · rintro i s c a s' c' ⟨hK, hk⟩ ⟨hc, hs⟩ hG hstep
    obtain ⟨hK', hc', hothers⟩ := act_inv hK hc hstep
    obtain ⟨hk', hs'⟩ := act_kept hK hc hk hs hG hstep
    exact ⟨⟨hK', hk'⟩, ⟨hc', hs'⟩, fun j m hj hm => ⟨hm.1.rely (hothers j hj), hm.2.rely (hothers j hj)⟩⟩
  · rintro s e s' ⟨hK, hk⟩ - hstep
    obtain ⟨hK', hothers⟩ := env_inv hK hstep
    exact ⟨⟨hK', env_kept hK hk hstep⟩, fun j m hm => ⟨hm.1.rely (hothers j), hm.2.rely (hothers j)⟩⟩

/-! ## The steps that break it -/

/-- A call that stops binding and leaves the binding as it is takes it away for good. -/
theorem not_owned_of_stuck {s : State ι κ} (h : Good s) (hbinder : s.shared.binder = some i)
    (hends : c'.binds = false) :
    ¬ State.Owned ⟨{ s.shared with binder := none }, Function.update s.locals i c'⟩ := by
  intro howned
  obtain ⟨j, hj⟩ := howned.binding (h.1.1.of_binder hbinder).1
  by_cases hij : j = i
  · subst hij
    simp only [Function.update_self] at hj
    rw [hends] at hj
    cases hj
  · simp only [Function.update_of_ne hij] at hj
    have hcall := (h.2 j).1
    have hbinds : s.shared.binder = some j := by
      cases hc : s.locals j <;> rw [hc] at hj hcall <;> first | exact hcall | cases hj
    rw [hbinder] at hbinds
    exact hij (Option.some.inj hbinds).symm

theorem not_owned_of_not_orderly {s t : State ι κ} {a : Threads.Action ι (CallAction κ) EnvAction} (h : Good s)
    (hG : ¬ Threads.When (fun _ => Orderly) (fun _ _ => True) s a)
    (hstep : (threads ι κ).machine.step s a = some t) : ¬ t.Owned := by
  cases a with
  | env e => exact absurd trivial hG
  | act i a =>
    obtain ⟨⟨s', c'⟩, hact, rfl⟩ := Option.map_eq_some_iff.mp hstep
    replace hG : ¬ Orderly s.shared (s.locals i) a := hG
    replace hact : act i s.shared (s.locals i) a = some (s', c') := hact
    have hcall := (h.2 i).1
    dsimp only
    unfold Orderly at hG
    split at hG
    · -- the call is dropped
      rename_i requested hc
      rw [hc] at hact hcall
      cases hact
      exact not_owned_of_stuck h hcall rfl
    · -- the channel has an invalid format
      rename_i channel requested hc
      rw [hc] at hact hcall
      simp only [act] at hact
      rcases finishChecks_cases channel requested with ⟨error, hchecks⟩ | ⟨error, hchecks⟩ | hchecks <;>
        rw [hchecks] at hact hG
      · exact absurd rfl hG
      · cases hact
        exact not_owned_of_stuck h hcall rfl
      · exact absurd rfl hG
    · -- the audio stream has another format
      rename_i channel hc
      rw [hc] at hact hcall
      simp only [act] at hact
      split at hact
      · cases hact
        exact not_owned_of_stuck h hcall rfl
      · rename_i hformat
        rw [hformat] at hG
        exact absurd rfl hG
    · -- the channel is rejected and not closed
      rename_i channel error hc
      rw [hc] at hact hcall
      simp only [act, (h.1.1.of_binder hcall).1] at hact
      cases hact
      intro howned
      rcases howned.returned i channel (.error error) (by simp) with hclosed | hmedia
      · exact hG hclosed
      · cases hmedia
    · -- the shutdown has read the binding before the channel is bound
      rename_i channel hc
      rw [hc] at hact hcall
      cases hact
      obtain ⟨hread, hnot⟩ := Classical.not_imp.mp hG
      intro howned
      rcases howned.shut_down hread channel rfl with hclosed | hreading
      · exact hnot hclosed
      · have hmedia := h.1.1.reading channel hreading
        rw [(h.1.1.of_binder hcall).1] at hmedia
        cases hmedia
    · -- the pumps are spawned too late
      rename_i channel hc
      rw [hc] at hact
      cases hact
      intro howned
      have hlate := howned.late
      dsimp only at hlate
      split at hlate
      · simp at hlate
      · rename_i hne
        refine hG ?_
        cases hs : s.shared.shutdown <;> first | rfl | exact absurd hs hne
    · exact absurd trivial hG

/-- Along a schedule the channels are owned as they should be exactly as long as every step of a call is
orderly. -/
theorem audio_owned_iff_orderly (s₀ s : State ι κ)
    (schedule : List (Threads.Action ι (CallAction κ) EnvAction)) (h₀ : (threads ι κ).machine.Start s₀)
    (hexec : (threads ι κ).machine.exec s₀ schedule = some s) :
    (threads ι κ).machine.Throughout State.Owned s₀ schedule ↔
      (threads ι κ).machine.Along (Threads.When (fun _ => Orderly) (fun _ _ => True)) s₀ schedule :=
  Machine.throughout_iff_along (fun _ hs => hs.owned) (fun _ _ _ hs hG hstep => hs.step hG hstep)
    (fun _ _ _ hs hG hstep => not_owned_of_not_orderly hs hG hstep) (good_start h₀) hexec

end Exact

/-- A format of the catalog. -/
def l16 : MediaFormat :=
  { encoding := "L16", sampleRate := 8000, bitDepth := 16, channels := 1, ptime := 20000000 }

/-- A connected session without media. -/
def silent : State Nat Nat where
  shared :=
    { connected := true, closing := false, media := .unbound, format := none, mediaTasks := [],
      shutdown := .running, binder := none, closed := [], bound := [], pumps := [], late := [] }
  locals _ := .idle

/-- The transport refuses a first call, a second one binds its channel, a third one is refused, and the
session shuts down. -/
def orderlyRun : List (Threads.Action Nat (CallAction Nat) EnvAction) :=
  [.act 0 .acceptAudio, .act 0 .check, .act 0 .transport, .act 0 .begin,
    .act 0 (.negotiated (.error .mediaUnsupported)), .act 0 .abort,
    .act 1 (.openAudio l16), .act 1 .check, .act 1 .transport, .act 1 .begin,
    .act 1 (.negotiated (.ok ⟨8, "audio", l16⟩)), .act 1 .setFormat, .act 1 .bind, .act 1 .spawn,
    .act 1 .extend, .act 2 .acceptAudio, .act 2 .check, .act 2 .transport, .act 2 .begin,
    .env .beginShutdown, .env .readMedia, .env .closeMedia, .env .drainTasks]

theorem orderlyRun_owned : (threads Nat Nat).machine.Throughout State.Owned silent orderlyRun := by
  have hstart : (threads Nat Nat).machine.Start silent := ⟨⟨rfl, rfl, rfl, rfl, rfl⟩, rfl⟩
  have hexec : (threads Nat Nat).machine.exec silent orderlyRun = some _ := rfl
  exact (audio_owned_iff_orderly silent _ orderlyRun hstart hexec).mpr (by decide)

/-- The transport gives a channel with an invalid format; the next call finds the audio already bound. -/
def invalidRun : List (Threads.Action Nat (CallAction Nat) EnvAction) :=
  [.act 0 .acceptAudio, .act 0 .check, .act 0 .transport, .act 0 .begin,
    .act 0 (.negotiated (.ok ⟨7, "audio", { l16 with bitDepth := 8 }⟩)),
    .act 1 .acceptAudio, .act 1 .check, .act 1 .transport, .act 1 .begin]

/-- Nothing is bound, the binding is stuck and the channel is open. -/
theorem invalidRun_not_owned :
    ∃ s : State Nat Nat, (threads Nat Nat).machine.exec silent invalidRun = some s ∧
      s.locals 1 = .returned none (.error .audioAlreadyBound) ∧ s.shared.bound = [] ∧ s.shared.closed = [] ∧
      ¬ State.Owned s := by
  refine ⟨_, rfl, rfl, rfl, rfl, fun howned => ?_⟩
  rcases howned.returned 0 ⟨7, "audio", { l16 with bitDepth := 8 }⟩ _ rfl with hclosed | hmedia
  · cases hclosed
  · cases hmedia

end Rtvbp.Rust.Audio
