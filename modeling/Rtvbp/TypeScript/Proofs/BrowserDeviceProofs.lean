import Rtvbp.TypeScript.BrowserDevice

/-!
# The browser audio device lets go of what it has acquired

What the device acquires is always what its fields name, so that `close` or the `catch` block of `#ensureCore` can
release it; the invariant tells in which places of the core something may still be held. The steps that come in
time keep it, and a device with no call in flight after a `close` holds nothing, in every later state too.
-/

namespace Rtvbp.TypeScript.BrowserDevice

open Rtvbp.Lib

/-! ## One stream, or one context -/

namespace Holding

variable {h : Holding}

/-- Nothing is live but the current one, which the device owns. -/
def Sound (h : Holding) : Prop := h.acquired.Only h.owned

theorem sound_of_allReleased (hall : h.acquired.AllReleased) : h.Sound := hall.only _

theorem sound_acquire (hall : h.acquired.AllReleased) : h.acquire.Sound := hall.acquire

theorem allReleased_release (hsound : h.Sound) : h.release.acquired.AllReleased :=
  Handles.Only.releaseCurrent hsound

/-- A device that owns none has nothing to release. -/
theorem allReleased_of_not_owns (hsound : h.Sound) (howns : ¬ h.owns = true) : h.acquired.AllReleased := by
  have hnone : h.owned = none := by simp [owned, howns]
  unfold Sound at hsound
  rw [hnone] at hsound
  exact hsound.allReleased

theorem allReleased_inject (hall : h.acquired.AllReleased) : h.inject.acquired.AllReleased := hall

end Holding

/-! ## The invariant -/

/-- Something that the device has acquired may be live. -/
def Core.mayHold (released : Bool) : Core → Bool
  | .none | .userMedia _ | .cleaning _ => false
  | .resuming _ | .rejected _ => true
  | .fulfilled => !released

/-- What holds in every state, and also while the core starts up. -/
structure Base (s : State) : Prop where
  closed : s.resolved = true → s.state = .closed
  resolved : s.resolved = true → s.released = true
  released : s.released = true → s.aborted = true
  draining : .draining ∈ s.ops → s.aborted = true
  closing : .closing ∈ s.ops → s.released = true
  stream : s.stream.Sound
  context : s.context.Sound
  timer : s.probes.Only s.remoteProbe
  running : ∀ n, s.remoteProbe = some n → s.probes.Live n
  stopped : s.aborted = true → s.probes.AllReleased

/-- What holds in every state of a run whose steps come in time. -/
structure Inv (s : State) : Prop extends Base s where
  held : s.core.mayHold s.released = false → s.Clean

theorem inv_new : Inv new where
  closed := fun h => absurd h (by decide)
  resolved := fun h => absurd h (by decide)
  released := fun h => absurd h (by decide)
  draining := fun h => absurd h List.not_mem_nil
  closing := fun h => absurd h List.not_mem_nil
  stream := Holding.sound_of_allReleased Handles.allReleased_nil
  context := Holding.sound_of_allReleased Handles.allReleased_nil
  timer := Handles.allReleased_nil.only _
  running := fun _ h => absurd h (by simp [new])
  stopped := fun _ => Handles.allReleased_nil
  held := fun _ => ⟨Handles.allReleased_nil, Handles.allReleased_nil⟩

variable {config : Config} {s t : State}

/-! ## The calls in flight -/

theorem Base.enter (h : Base s) {op : Op} (hdraining : op = .draining → s.aborted = true)
    (hclosing : op = .closing → s.released = true) : Base (s.enter op) := by
  refine { h with draining := fun hmem => ?_, closing := fun hmem => ?_ }
  · rcases List.mem_append.mp hmem with hmem | hmem
    · exact h.draining hmem
    · exact hdraining (List.mem_singleton.mp hmem).symm
  · rcases List.mem_append.mp hmem with hmem | hmem
    · exact h.closing hmem
    · exact hclosing (List.mem_singleton.mp hmem).symm

theorem Inv.enter (h : Inv s) {op : Op} (hdraining : op = .draining → s.aborted = true)
    (hclosing : op = .closing → s.released = true) : Inv (s.enter op) :=
  { h.toBase.enter hdraining hclosing with held := h.held }

/-- A call that is no `close` is in flight. -/
theorem Inv.enterCall (h : Inv s) {op : Op} (hdraining : op ≠ .draining) (hclosing : op ≠ .closing) :
    Inv (s.enter op) :=
  h.enter (fun hop => absurd hop hdraining) (fun hop => absurd hop hclosing)

theorem Inv.leave (h : Inv s) (i : Nat) : Inv { s with ops := s.ops.eraseIdx i } :=
  { h with
    draining := fun hmem => h.draining (List.mem_of_mem_eraseIdx hmem)
    closing := fun hmem => h.closing (List.mem_of_mem_eraseIdx hmem) }

/-- The calls that await the core are none of `close`. -/
theorem mem_of_mem_settle {ready : Bool} {ops : List Op} {op : Op} (hop : op = .draining ∨ op = .closing)
    (hmem : op ∈ ops.map (State.settle ready)) : op ∈ ops := by
  obtain ⟨before, hbefore, hsettle⟩ := List.mem_map.mp hmem
  cases before with
  | waiting call =>
    have hcall : op = .ready call ∨ op = .refused call := by
      cases ready with
      | true => exact .inl hsettle.symm
      | false => exact .inr hsettle.symm
    rcases hop with rfl | rfl <;> simp at hcall
  | _ =>
    rw [← hsettle]
    exact hbefore

theorem Base.settle (h : Base s) (ready : Bool) : Base { s with ops := s.ops.map (State.settle ready) } :=
  { h with
    draining := fun hmem => h.draining (mem_of_mem_settle (.inl rfl) hmem)
    closing := fun hmem => h.closing (mem_of_mem_settle (.inr rfl) hmem) }

/-! ## The core -/

/-- A rejected core may leave something behind, for its call to release. -/
theorem Base.rejectCore (h : Base s) (call : Call) : Inv (s.rejectCore call) :=
  { h.settle false with held := fun hnot => absurd hnot (by simp [State.rejectCore, Core.mayHold]) }

/-- The core starts up in time, so that only what a later `close` will release is left. -/
theorem Inv.fulfillCore (h : Inv s) (call : Call) (hclean : s.released = true → s.Clean) :
    Inv (s.fulfillCore call) := by
  have hbase : Base { s with core := .fulfilled, ops := s.ops.map (State.settle true) } :=
    { h.toBase.settle true with }
  have hheld : (!s.released) = false → s.Clean := fun hreleased => hclean (by simpa using hreleased)
  have hentered : Base (State.enter { s with core := .fulfilled, ops := s.ops.map (State.settle true) } (.ready call)) :=
    hbase.enter (fun hop => by simp at hop) (fun hop => by simp at hop)
  exact { hentered with held := hheld }

/-- Once the core has a stream, it gets a context or is rejected. -/
theorem Base.openContext (h : Base s) (hcontext : s.context.acquired.AllReleased) (call : Call)
    (startup : Startup) : Inv (s.openContext config call startup) := by
  unfold State.openContext
  split
  · exact h.rejectCore call
  split
  · exact h.rejectCore call
  split
  · exact { h with
      context := Holding.sound_of_allReleased (Holding.allReleased_inject hcontext)
      held := fun hnot => absurd hnot (by simp [Core.mayHold]) }
  split
  · exact { h with
      context := Holding.sound_acquire hcontext
      held := fun hnot => absurd hnot (by simp [Core.mayHold]) }
  · exact h.rejectCore call

theorem Inv.startCore (h : Inv s) (hcore : s.core = .none) (call : Call) (startup : Startup) :
    Inv (s.startCore config call startup) := by
  obtain ⟨hstream, hcontext⟩ := h.held (by rw [hcore]; rfl)
  unfold State.startCore
  split
  · have hbase : Base { s with stream := s.stream.inject } :=
      { h.toBase with stream := Holding.sound_of_allReleased (Holding.allReleased_inject hstream) }
    exact hbase.openContext hcontext call startup
  · exact { h.toBase with held := fun _ => ⟨hstream, hcontext⟩ }

/-- The stream that `getUserMedia` has returned. -/
theorem Inv.userMedia (h : Inv s) {call : Call} (hcore : s.core = .userMedia call) (startup : Startup) :
    Inv ({ s with stream := s.stream.acquire }.openContext config call startup) := by
  obtain ⟨hstream, hcontext⟩ := h.held (by rw [hcore]; rfl)
  have hbase : Base { s with stream := s.stream.acquire } :=
    { h.toBase with stream := Holding.sound_acquire hstream }
  exact hbase.openContext hcontext call startup

/-- A device that is not closed becomes another state. -/
theorem Inv.setState (h : Inv s) {state : DeviceState} (hstate : s.resolved = true → state = .closed) :
    Inv { s with state := state } :=
  { h with closed := hstate }

theorem Inv.fail (h : Inv s) : Inv s.fail :=
  h.setState fun hresolved => if_pos (h.closed hresolved)

theorem Inv.ensureCore (h : Inv s) (call : Call) (aborted : Bool) (startup : Startup) :
    Inv (s.ensureCore config call aborted startup) := by
  unfold State.ensureCore
  split
  · exact h.enterCall (by simp) (by simp)
  split
  · exact h.enterCall (by simp) (by simp)
  · rename_i hopen
    split
    · rename_i hcore
      have hstarting : Inv { s with state := .starting } :=
        h.setState fun hresolved => absurd (h.closed hresolved) hopen
      exact hstarting.startCore hcore call startup
    all_goals exact h.enterCall (by simp) (by simp)

/-- The `catch` block releases whatever the core has left behind. -/
theorem Inv.cleanup (h : Inv s) (call : Call) : Inv (s.cleanup call) := by
  have hstream := Holding.allReleased_release h.stream
  have hcontext := Holding.allReleased_release h.context
  unfold State.cleanup
  split
  · exact { h.toBase with
      stream := Holding.sound_of_allReleased hstream
      context := Holding.sound_of_allReleased hcontext
      held := fun _ => ⟨hstream, hcontext⟩ }
  · rename_i howns
    have hclean := Holding.allReleased_of_not_owns h.context howns
    have hinv : Inv { s with stream := s.stream.release, core := .none } :=
      { h.toBase with
        stream := Holding.sound_of_allReleased hstream
        held := fun _ => ⟨hstream, hclean⟩ }
    exact hinv.enterCall (by simp) (by simp)

theorem Inv.cleaned (h : Inv s) {call : Call} (hcore : s.core = .cleaning call) :
    Inv ({ s with core := .none }.enter (.refused call)) := by
  have hclean := h.held (by rw [hcore]; rfl)
  have hinv : Inv { s with core := .none } := { h.toBase with held := fun _ => hclean }
  exact hinv.enterCall (by simp) (by simp)

/-! ## Timers -/

theorem Inv.detachRemoteTrack (h : Inv s) : Inv s.detachRemoteTrack :=
  { h with
    timer := (Handles.Only.releaseCurrent h.timer).only _
    running := fun _ hnone => absurd hnone (by simp [State.detachRemoteTrack])
    stopped := fun _ => Handles.Only.releaseCurrent h.timer }

/-- A timer is set while there is none, and no `close` has been called. -/
theorem Inv.setProbe (h : Inv s) (haborted : s.aborted = false) (hnone : s.remoteProbe = none) : Inv s.probe := by
  have hall : s.probes.AllReleased := by
    have honly := h.timer
    rw [hnone] at honly
    exact honly.allReleased
  exact { h with
    timer := hall.acquire
    running := fun n hn => Handles.live_acquire.2 (.inr (Option.some.inj hn).symm)
    stopped := fun hstop => absurd (hstop.symm.trans haborted) (by decide) }

/-! ## `close` -/

theorem Inv.close (h : Inv s) : Inv s.close := by
  unfold State.close
  split
  · exact h
  · have hdetached := h.detachRemoteTrack
    have hstop : Inv { s.detachRemoteTrack with aborted := true } :=
      { hdetached with
        released := fun _ => rfl
        draining := fun _ => rfl
        stopped := fun _ => Handles.Only.releaseCurrent h.timer }
    exact hstop.enter (fun _ => rfl) (fun hop => by simp at hop)

/-- Nothing is held once a `close` has stopped the tracks and closed the context. -/
theorem Inv.releaseAll (h : Inv s) (haborted : s.aborted = true) : Inv s.releaseAll := by
  have hstream := Holding.allReleased_release h.stream
  have hcontext := Holding.allReleased_release h.context
  unfold State.releaseAll
  split
  · have hinv : Inv { s with stream := s.stream.release, context := s.context.release, released := true } :=
      { h.toBase with
        resolved := fun _ => rfl
        released := fun _ => haborted
        closing := fun _ => rfl
        stream := Holding.sound_of_allReleased hstream
        context := Holding.sound_of_allReleased hcontext
        held := fun _ => ⟨hstream, hcontext⟩ }
    exact hinv.enter (fun hop => by simp at hop) (fun _ => rfl)
  · rename_i howns
    have hclean := Holding.allReleased_of_not_owns h.context howns
    exact { h.toBase with
      closed := fun _ => rfl
      resolved := fun _ => rfl
      released := fun _ => haborted
      closing := fun _ => rfl
      stream := Holding.sound_of_allReleased hstream
      held := fun _ => ⟨hstream, hclean⟩ }

/-- A `close` resolves. -/
theorem Inv.resolve (h : Inv s) (hreleased : s.released = true) :
    Inv { s with state := .closed, resolved := true } :=
  { h with
    closed := fun _ => rfl
    resolved := fun _ => hreleased }

/-! ## One step -/

/-- A call becomes active before a `close` has resolved. -/
theorem Inv.activate (h : Inv s) (hopen : s.resolved = false) (audio : Option Nat) :
    Inv { s with audio := audio, state := .active } := by
  have hstate : Inv { s with state := .active } :=
    h.setState fun hresolved => absurd (hresolved.symm.trans hopen) (by decide)
  exact { hstate with }

theorem Inv.goOn (h : Inv s) {outcome : Outcome} {op : Op} (hintime : s.opInTime outcome op = true)
    (hdraining : op = .draining → s.aborted = true) (hclosing : op = .closing → s.released = true)
    (hstep : s.goOn outcome op = some t) : Inv t := by
  cases op with
  | waiting call => exact absurd hstep (by simp [State.goOn])
  | ready call =>
    cases call with
    | attachWebSocket audio =>
      unfold State.goOn at hstep
      dsimp only at hstep
      split at hstep
      · rename_i hnode
        obtain rfl := Option.some.inj hstep
        have hopen : s.resolved = false := by simpa [State.opInTime, hnode] using hintime
        exact h.activate hopen (some audio)
      split at hstep
      · obtain rfl := Option.some.inj hstep
        exact h.enterCall (by simp) (by simp)
      · obtain rfl := Option.some.inj hstep
        exact h.enterCall (by simp) (by simp)
    | prepareWebRtc =>
      unfold State.goOn at hstep
      dsimp only at hstep
      split at hstep
      · rename_i hok
        obtain rfl := Option.some.inj hstep
        have hopen : s.resolved = false := by simpa [State.opInTime, hok] using hintime
        exact h.activate hopen s.audio
      · obtain rfl := Option.some.inj hstep
        exact h.fail
    | attachRemoteTrack =>
      unfold State.goOn at hstep
      dsimp only at hstep
      split at hstep
      · rename_i hok
        obtain rfl := Option.some.inj hstep
        obtain ⟨haborted, hnone⟩ : s.aborted = false ∧ s.remoteProbe = none := by
          simpa [State.opInTime, hok.1, hok.2] using hintime
        exact (h.setProbe haborted hnone).enterCall (by simp) (by simp)
      · obtain rfl := Option.some.inj hstep
        exact h
  | refused call =>
    cases call with
    | attachRemoteTrack =>
      obtain rfl := Option.some.inj hstep
      exact h
    | attachWebSocket _ | prepareWebRtc =>
      obtain rfl := Option.some.inj hstep
      exact h.fail
  | loading audio =>
    unfold State.goOn at hstep
    dsimp only at hstep
    split at hstep
    · obtain rfl := Option.some.inj hstep
      have hloaded : Inv { s with captureNode := true, audio := some audio } := { h with }
      exact hloaded.enterCall (by simp) (by simp)
    · obtain rfl := Option.some.inj hstep
      have hfailed : Inv { s with captureNode := s.captureNode || outcome.captureNode } := { h with }
      exact hfailed.enterCall (by simp) (by simp)
  | started audio =>
    obtain rfl := Option.some.inj hstep
    have hopen : s.resolved = false := by simpa [State.opInTime] using hintime
    exact h.activate hopen (some audio)
  | resuming =>
    obtain rfl := Option.some.inj hstep
    exact h
  | draining =>
    obtain rfl := Option.some.inj hstep
    exact h.releaseAll (hdraining rfl)
  | closing =>
    obtain rfl := Option.some.inj hstep
    exact h.resolve (hclosing rfl)

/-- A step in time keeps the invariant. -/
theorem inv_step (h : Inv s) {e : Event} (hintime : InTime s e) (hstep : step config s e = some t) : Inv t := by
  cases e with
  | attachWebSocket audio negotiated aborted startup =>
    obtain rfl := Option.some.inj hstep
    unfold State.attachWebSocket
    split
    · exact h
    split
    · exact h
    split
    · exact h
    · exact h.ensureCore _ _ startup
  | prepareWebRtc aborted startup =>
    obtain rfl := Option.some.inj hstep
    exact h.ensureCore _ _ startup
  | attachRemoteTrack kind startup =>
    obtain rfl := Option.some.inj hstep
    unfold State.attachRemoteTrack
    split
    · exact h
    · exact h.ensureCore _ _ startup
  | detachRemoteTrack =>
    obtain rfl := Option.some.inj hstep
    exact h.detachRemoteTrack
  | close =>
    obtain rfl := Option.some.inj hstep
    exact h.close
  | userMedia result =>
    unfold step at hstep
    dsimp only at hstep
    split at hstep
    · rename_i call startup hcore
      obtain rfl := Option.some.inj hstep
      exact h.userMedia hcore startup
    · obtain rfl := Option.some.inj hstep
      exact h.rejectCore _
    · exact absurd hstep (by simp)
  | resumed ok =>
    unfold step at hstep
    dsimp only at hstep
    split at hstep
    · rename_i call hcore
      obtain rfl := Option.some.inj hstep
      cases ok with
      | true => exact h.fulfillCore call hintime
      | false => exact h.rejectCore call
    · exact absurd hstep (by simp)
  | cleanup =>
    unfold step at hstep
    dsimp only at hstep
    split at hstep
    · obtain rfl := Option.some.inj hstep
      exact h.cleanup _
    · exact absurd hstep (by simp)
  | cleaned =>
    unfold step at hstep
    dsimp only at hstep
    split at hstep
    · rename_i hcore
      obtain rfl := Option.some.inj hstep
      exact h.cleaned hcore
    · exact absurd hstep (by simp)
  | mediaFailed =>
    obtain ⟨-, hstep⟩ := Option.ite_none_right_eq_some.mp hstep
    obtain rfl := Option.some.inj hstep
    exact h.fail
  | goOn i outcome =>
    obtain ⟨op, hop, hgoOn⟩ := Option.bind_eq_some_iff.mp hstep
    have hmem := List.mem_of_getElem? hop
    have hleft := h.leave i
    have hdraining : op = .draining → s.aborted = true := by
      rintro rfl
      exact h.draining hmem
    have hclosing : op = .closing → s.released = true := by
      rintro rfl
      exact h.closing hmem
    exact hleft.goOn (hintime op hop) hdraining hclosing hgoOn

/-! ## Afterwards -/

/-- A closed device: the calls in flight are those that were refused. -/
structure Finished (s : State) : Prop extends s.Gone where
  core : s.core = .none ∨ s.core = .fulfilled
  refused : ∀ op ∈ s.ops, ∃ call, op = .refused call

/-- A device that has settled after a `close` holds nothing. -/
theorem Inv.finished (h : Inv s) (hsettled : s.Settled) : Finished s := by
  obtain ⟨hresolved, hops, hcore⟩ := hsettled
  have hreleased := h.resolved hresolved
  have hnot : s.core.mayHold s.released = false := by
    rw [hreleased]
    rcases hcore with hcore | hcore <;> rw [hcore] <;> rfl
  obtain ⟨hstream, hcontext⟩ := h.held hnot
  refine ⟨⟨h.closed hresolved, hstream, hcontext, h.stopped (h.released hreleased)⟩, hcore, ?_⟩
  intro op hop
  rw [hops] at hop
  exact absurd hop List.not_mem_nil

theorem Finished.fail (h : Finished s) : Finished s.fail := { h with state := if_pos h.state }

theorem Finished.enter (h : Finished s) (call : Call) : Finished (s.enter (.refused call)) := by
  refine { h with refused := fun op hop => ?_ }
  rcases List.mem_append.mp hop with hop | hop
  · exact h.refused op hop
  · exact ⟨call, List.mem_singleton.mp hop⟩

/-- A closed device refuses every call. -/
theorem Finished.ensureCore (h : Finished s) (call : Call) (aborted : Bool) (startup : Startup) :
    Finished (s.ensureCore config call aborted startup) := by
  have hrefuse : s.ensureCore config call aborted startup = s.enter (.refused call) := by
    unfold State.ensureCore
    rw [if_pos h.state, ite_self]
  rw [hrefuse]
  exact h.enter call

/-- Nothing more happens to a closed device. -/
theorem Finished.step (h : Finished s) {e : Event} (hstep : step config s e = some t) : Finished t := by
  cases e with
  | attachWebSocket audio negotiated aborted startup =>
    obtain rfl := Option.some.inj hstep
    unfold State.attachWebSocket
    split
    · exact h
    split
    · exact h
    split
    · exact h
    · exact h.ensureCore _ _ startup
  | prepareWebRtc aborted startup =>
    obtain rfl := Option.some.inj hstep
    exact h.ensureCore _ _ startup
  | attachRemoteTrack kind startup =>
    obtain rfl := Option.some.inj hstep
    unfold State.attachRemoteTrack
    split
    · exact h
    · exact h.ensureCore _ _ startup
  | detachRemoteTrack =>
    obtain rfl := Option.some.inj hstep
    exact { h with probes := h.probes.releaseCurrent }
  | close =>
    obtain rfl := Option.some.inj hstep
    unfold State.close
    rw [if_pos h.state]
    exact h
  | userMedia _ | resumed _ | cleanup | cleaned =>
    unfold BrowserDevice.step at hstep
    rcases h.core with hcore | hcore <;> simp [hcore] at hstep
  | mediaFailed =>
    obtain ⟨-, hstep⟩ := Option.ite_none_right_eq_some.mp hstep
    obtain rfl := Option.some.inj hstep
    exact h.fail
  | goOn i outcome =>
    obtain ⟨op, hop, hgoOn⟩ := Option.bind_eq_some_iff.mp hstep
    obtain ⟨call, rfl⟩ := h.refused op (List.mem_of_getElem? hop)
    have hleft : Finished { s with ops := s.ops.eraseIdx i } :=
      { h with refused := fun op hmem => h.refused op (List.mem_of_mem_eraseIdx hmem) }
    cases call with
    | attachRemoteTrack =>
      obtain rfl := Option.some.inj hgoOn
      exact hleft
    | attachWebSocket _ | prepareWebRtc =>
      obtain rfl := Option.some.inj hgoOn
      exact hleft.fail

/-! ## A step that comes late -/

theorem Inv.tidy (h : Inv s) : s.Tidy where
  closed := h.closed
  timer := h.timer
  stopped := h.stopped
  held := fun hreleased hcore => h.held (by rw [hcore, hreleased]; rfl)

/-- A second timer replaces the first, and one that is set after a `close` runs on. -/
theorem Inv.not_tidy_probe (h : Inv s) (hlate : s.aborted = true ∨ s.remoteProbe.isSome = true) {op : Op} :
    ¬ (s.probe.enter op).Tidy := by
  intro htidy
  have hnew : s.probes.acquire.Live s.probes.length := Handles.live_acquire.2 (.inr rfl)
  rcases hlate with haborted | hsome
  · exact htidy.stopped haborted _ hnew
  · obtain ⟨n, hn⟩ := Option.isSome_iff_exists.mp hsome
    have hrunning := h.running n hn
    have hold : s.probes.acquire.Live n := Handles.live_acquire.2 (.inl hrunning)
    have hsame : s.probes.length = n := Option.some.inj (htidy.timer n hold)
    have hlt := hrunning.lt_length
    omega

/-- A call that goes on late leaves something behind. -/
theorem Inv.not_tidy_goOn (h : Inv s) {outcome : Outcome} {op : Op} (hlate : s.opInTime outcome op = false)
    (hstep : s.goOn outcome op = some t) : ¬ t.Tidy := by
  intro htidy
  cases op with
  | ready call =>
    cases call with
    | attachWebSocket audio =>
      obtain ⟨hnode, hresolved⟩ : s.captureNode = true ∧ s.resolved = true := by
        simpa [State.opInTime] using hlate
      unfold State.goOn at hstep
      dsimp only at hstep
      rw [if_pos hnode] at hstep
      obtain rfl := Option.some.inj hstep
      exact absurd (htidy.closed hresolved) (by simp)
    | prepareWebRtc =>
      obtain ⟨hok, hresolved⟩ : outcome.ok = true ∧ s.resolved = true := by
        simpa [State.opInTime] using hlate
      unfold State.goOn at hstep
      dsimp only at hstep
      rw [if_pos hok] at hstep
      obtain rfl := Option.some.inj hstep
      exact absurd (htidy.closed hresolved) (by simp)
    | attachRemoteTrack =>
      obtain ⟨hok, hprobe⟩ : (s.context.current.isSome = true ∧ outcome.ok = true) ∧
          (s.aborted = true ∨ s.remoteProbe.isSome = true) := by
        simpa only [State.opInTime, Bool.not_eq_eq_eq_not, Bool.not_false, Bool.and_eq_true, Bool.or_eq_true]
          using hlate
      unfold State.goOn at hstep
      dsimp only at hstep
      rw [if_pos hok] at hstep
      obtain rfl := Option.some.inj hstep
      exact h.not_tidy_probe hprobe htidy
  | started audio =>
    obtain rfl := Option.some.inj hstep
    have hresolved : s.resolved = true := by simpa [State.opInTime] using hlate
    exact absurd (htidy.closed hresolved) (by simp)
  | waiting _ | refused _ | loading _ | resuming | draining | closing =>
    exact absurd hlate (by simp [State.opInTime])

/-- A step that comes late leaves something behind. -/
theorem not_tidy_step (h : Inv s) {e : Event} (hlate : ¬ InTime s e) (hstep : step config s e = some t) :
    ¬ t.Tidy := by
  cases e with
  | resumed ok =>
    cases ok with
    | true =>
      obtain ⟨hreleased, hheld⟩ : s.released = true ∧ ¬ s.Clean := by simpa [InTime] using hlate
      unfold step at hstep
      dsimp only at hstep
      split at hstep
      · obtain rfl := Option.some.inj hstep
        exact fun htidy => hheld (htidy.held hreleased rfl)
      · exact absurd hstep (by simp)
    | false => exact absurd trivial hlate
  | goOn i outcome =>
    obtain ⟨op, hop, hgoOn⟩ := Option.bind_eq_some_iff.mp hstep
    have hopLate : s.opInTime outcome op = false := by
      by_contra hin
      refine hlate fun other hother => ?_
      obtain rfl := Option.some.inj (hop.symm.trans hother)
      simpa using hin
    exact (h.leave i).not_tidy_goOn hopLate hgoOn
  | attachWebSocket _ _ _ _ | prepareWebRtc _ _ | attachRemoteTrack _ _ | detachRemoteTrack | close | userMedia _
  | cleanup | cleaned | mediaFailed => exact absurd trivial hlate

/-- A run leaves nothing behind exactly if every step of it comes in time. Then a device with no call in flight
after a `close` is closed and holds nothing, and so it is in every state after that. -/
theorem close_releases (config : Config) {run : List Event} (hrun : (machine config).exec new run = some s) :
    ((machine config).Throughout State.Tidy new run ↔ (machine config).Along InTime new run) ∧
      ((machine config).Along InTime new run → s.Settled →
        s.Gone ∧ ∀ later t, (machine config).exec s later = some t → t.Gone) := by
  constructor
  · refine Machine.throughout_iff_along (I := Inv) (fun _ h => h.tidy) ?_ ?_ inv_new hrun
    · exact fun _ _ _ h hintime hstep => inv_step h hintime hstep
    · exact fun _ _ _ h hlate hstep => not_tidy_step h hlate hstep
  · intro hintime hsettled
    have hinv : Inv s :=
      hintime.invariant (I := Inv) (fun _ _ _ h hin hstep => inv_step h hin hstep) inv_new hrun
    have hfinished := hinv.finished hsettled
    refine ⟨hfinished.toGone, fun later t hlater => ?_⟩
    have hsteps := Machine.Steps.of_exec hlater
    have hend : Finished t := hsteps.invariant (I := Finished) (fun _ _ _ h _ hstep => h.step hstep) hfinished
    exact hend.toGone

/-- A device that acquires its own microphone and its own context. -/
def defaultConfig : Config where
  stream := false
  audioContext := false

/-- A microphone with one track, and a context. -/
def granted : Startup where
  aborted := false
  audioTracks := 1
  creates := true

/-- A WebRTC session with a remote track, which is closed at the end. -/
def closedRun : List Event :=
  [.prepareWebRtc false granted, .userMedia (some granted), .resumed true, .goOn 0 ⟨true, false⟩,
    .attachRemoteTrack "audio" granted, .goOn 0 ⟨true, false⟩, .goOn 0 ⟨true, false⟩, .close, .goOn 0 ⟨true, false⟩,
    .goOn 0 ⟨true, false⟩]

theorem closedRun_releases :
    ∃ t, (machine defaultConfig).exec new closedRun = some t ∧ t.stream.acquired.length = 1 ∧
      t.context.acquired.length = 1 ∧ t.probes.length = 1 ∧ t.Gone ∧
      ∀ later u, (machine defaultConfig).exec t later = some u → u.Gone := by
  obtain ⟨t, hexec⟩ := Option.isSome_iff_exists.mp (by decide :
    ((machine defaultConfig).exec new closedRun).isSome = true)
  have hseen : ((machine defaultConfig).exec new closedRun).map (fun t =>
      ((t.stream.acquired.length, t.context.acquired.length, t.probes.length), t.resolved, t.ops, t.core)) =
      some ((1, 1, 1), true, [], .fulfilled) := by decide
  rw [hexec] at hseen
  have hviews := Option.some.inj hseen
  simp only [Prod.mk.injEq] at hviews
  obtain ⟨⟨hstream, hcontext, hprobes⟩, hresolved, hops, hcore⟩ := hviews
  have hsettled : t.Settled := ⟨hresolved, hops, .inr hcore⟩
  have hgone := (close_releases defaultConfig hexec).2 (by decide) hsettled
  exact ⟨t, hexec, hstream, hcontext, hprobes, hgone⟩

/-- The device is closed while `getUserMedia` is pending. -/
def lateRun : List Event :=
  [.prepareWebRtc false granted, .close, .goOn 0 ⟨true, false⟩, .userMedia (some granted), .resumed true,
    .goOn 0 ⟨true, false⟩]

theorem lateRun_not_gone :
    ∃ t, (machine defaultConfig).exec new lateRun = some t ∧ t.Settled ∧ t.state = .active ∧
      t.stream.acquired.Live 0 ∧ t.context.acquired.Live 0 ∧ ¬ t.Gone := by
  obtain ⟨t, hexec⟩ := Option.isSome_iff_exists.mp (by decide :
    ((machine defaultConfig).exec new lateRun).isSome = true)
  have hseen : ((machine defaultConfig).exec new lateRun).map (fun t =>
      ((t.stream.acquired, t.context.acquired, t.state), t.resolved, t.ops, t.core)) =
      some (([true], [true], .active), true, [], .fulfilled) := by decide
  rw [hexec] at hseen
  have hviews := Option.some.inj hseen
  simp only [Prod.mk.injEq] at hviews
  obtain ⟨⟨hstream, hcontext, hstate⟩, hresolved, hops, hcore⟩ := hviews
  have hlive : t.stream.acquired.Live 0 := by rw [hstream]; rfl
  refine ⟨t, hexec, ⟨hresolved, hops, .inr hcore⟩, hstate, hlive, by rw [hcontext]; rfl, fun hgone => ?_⟩
  exact hgone.tracks 0 hlive

/-- A second remote track replaces the timer of the first, which is never cleared. -/
example : ((machine defaultConfig).exec new
    [.prepareWebRtc false granted, .userMedia (some granted), .resumed true, .goOn 0 ⟨true, false⟩,
      .attachRemoteTrack "audio" granted, .goOn 0 ⟨true, false⟩, .goOn 0 ⟨true, false⟩,
      .attachRemoteTrack "audio" granted, .goOn 0 ⟨true, false⟩, .goOn 0 ⟨true, false⟩, .close,
      .goOn 0 ⟨true, false⟩, .goOn 0 ⟨true, false⟩]).map (fun t => (t.state, t.probes)) =
    some (.closed, [true, false]) := by decide

end Rtvbp.TypeScript.BrowserDevice
