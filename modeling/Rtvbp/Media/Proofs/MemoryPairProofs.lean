import Mathlib.Tactic
import Rtvbp.Media.MemoryPair

/-!
# Proofs: the in-process transport pairs

First the pair that both languages share, then how the acceptors of a side are woken.
-/

namespace Rtvbp.MemoryPair

open Rtvbp.Lib

variable {φ γ δ ι : Type} {p p' : Pair φ γ δ}

/-! ## The pair -/

@[simp] theorem MediaChannel.peer_peer (channel : MediaChannel φ) : channel.peer.peer = channel := by
  simp [MediaChannel.peer]

theorem nodup_closeSteps (media : Bool) : (closeSteps media).Nodup := by
  cases media <;> decide

theorem lost_of_send {w v : Wire γ} {x : γ} (h : w.send x = some v) : v.lost = w.lost ∧ v.closed = w.closed := by
  unfold Wire.send at h
  split_ifs at h
  cases h
  exact ⟨rfl, rfl⟩

theorem lost_of_recv {w v : Wire γ} {x : γ} (h : w.recv = some (x, v)) : v.lost = w.lost ∧ v.closed = w.closed := by
  unfold Wire.recv at h
  split at h
  · cases h
  · cases h
    exact ⟨rfl, rfl⟩

/-- What a step of the pair leaves of a wire: nothing is lost on it, and it stays closed. -/
def Follows (w v : Wire γ) : Prop := (w.lost = [] → v.lost = []) ∧ (w.closed = true → v.closed = true)

theorem Follows.refl (w : Wire γ) : Follows w w := ⟨id, id⟩

theorem Follows.close (w : Wire γ) : Follows w w.close := ⟨id, fun _ => rfl⟩

theorem Follows.update {wires : Bool → Wire γ} {side : Bool} {w : Wire γ} (h : Follows (wires side) w) (side' : Bool) :
    Follows (wires side') (Function.update wires side w side') := by
  by_cases hs : side' = side
  · subst hs
    rwa [Function.update_self]
  · rw [Function.update_of_ne hs]
    exact .refl _

/-- The invariant of the pair. -/
structure Pair.Inv (p : Pair φ γ δ) : Prop where
  once : (p.opened = [] ∧ p.accepted = []) ∨
    ∃ channel, p.opened = [channel] ∧ (p.accepted = [] ∨ p.accepted = [channel.peer])
  offered : ∀ side channel, p.pendingMedia side = some channel →
    channel.side = side ∧ p.opened = [channel.peer] ∧ p.accepted = []
  opened_iff : p.mediaOpened = true ↔ p.opened ≠ []
  control_lost : ∀ side, (p.control side).lost = []
  media_lost : ∀ side, (p.media side).lost = []
  closing_closed : p.closing.isSome = p.closed
  closing_done : ∀ rest, p.closing = some rest → ∃ done, done ++ rest = closeSteps p.mediaOpened ∧ ∀ side,
    (.control side ∈ done → (p.control side).closed = true) ∧ (.media side ∈ done → (p.media side).closed = true)

theorem Pair.Inv.sound (h : p.Inv) : p.Sound where
  once := h.once
  offered := h.offered
  control_kept side := by rw [(p.control side).fifo, h.control_lost, List.append_nil]
  media_kept side := by rw [(p.media side).fifo, h.media_lost, List.append_nil]
  closed hclosing := by
    obtain ⟨done, hdone, hsides⟩ := h.closing_done [] hclosing
    rw [List.append_nil] at hdone
    subst hdone
    have hclosed : p.closed = true := by rw [← h.closing_closed, hclosing]; rfl
    refine ⟨hclosed, fun side => (hsides side).1 ?_, fun hopened side => (hsides side).2 ?_⟩
    · cases side <;> simp [closeSteps]
    · rw [h.opened_iff.mpr hopened]
      cases side <;> simp [closeSteps]

theorem Pair.Inv.new (mediaEnabled : Bool) : (Pair.new mediaEnabled : Pair φ γ δ).Inv where
  once := .inl ⟨rfl, rfl⟩
  offered _ _ h := by cases h
  opened_iff := by simp [Pair.new]
  control_lost _ := rfl
  media_lost _ := rfl
  closing_closed := rfl
  closing_done _ h := by cases h

/-- A step that only follows the wires keeps the invariant. -/
theorem Pair.Inv.follows (h : p.Inv) {control : Bool → Wire γ} {media : Bool → Wire δ}
    (hcontrol : ∀ side, Follows (p.control side) (control side)) (hmedia : ∀ side, Follows (p.media side) (media side)) :
    ({ p with control := control, media := media } : Pair φ γ δ).Inv where
  once := h.once
  offered := h.offered
  opened_iff := h.opened_iff
  control_lost side := (hcontrol side).1 (h.control_lost side)
  media_lost side := (hmedia side).1 (h.media_lost side)
  closing_closed := h.closing_closed
  closing_done rest hrest := by
    obtain ⟨done, hdone, hsides⟩ := h.closing_done rest hrest
    exact ⟨done, hdone, fun side => ⟨fun hs => (hcontrol side).2 ((hsides side).1 hs),
      fun hs => (hmedia side).2 ((hsides side).2 hs)⟩⟩

/-- What an action of the pair can do. -/
theorem Pair.act_cases {action : PairAction γ δ} (h : p.act action = some p') :
    (p.closing = none ∧ p' = { p with closed := true, closing := some (closeSteps p.mediaOpened) }) ∨
      ∃ control media, (∀ side, Follows (p.control side) (control side)) ∧
        (∀ side, Follows (p.media side) (media side)) ∧ p' = { p with control := control, media := media } := by
  cases action with
  | mark =>
    simp only [Pair.act] at h
    split_ifs at h with hclosing
    exact .inl ⟨Option.isNone_iff_eq_none.mp hclosing, (Option.some.inj h).symm⟩
  | send side message =>
    obtain ⟨wire, hsend, rfl⟩ := Option.map_eq_some_iff.mp h
    obtain ⟨hlost, hclosed⟩ := lost_of_send hsend
    exact .inr ⟨_, p.media, Follows.update ⟨hlost.trans, hclosed.trans⟩, fun _ => .refl _, rfl⟩
  | recv side =>
    obtain ⟨r, hrecv, rfl⟩ := Option.map_eq_some_iff.mp h
    obtain ⟨hlost, hclosed⟩ := lost_of_recv hrecv
    exact .inr ⟨_, p.media, Follows.update ⟨hlost.trans, hclosed.trans⟩, fun _ => .refl _, rfl⟩
  | writeFrame side frame =>
    simp only [Pair.act] at h
    split_ifs at h
    obtain ⟨wire, hsend, rfl⟩ := Option.map_eq_some_iff.mp h
    obtain ⟨hlost, hclosed⟩ := lost_of_send hsend
    exact .inr ⟨p.control, _, fun _ => .refl _, Follows.update ⟨hlost.trans, hclosed.trans⟩, rfl⟩
  | readFrame side =>
    simp only [Pair.act] at h
    split_ifs at h
    obtain ⟨r, hrecv, rfl⟩ := Option.map_eq_some_iff.mp h
    obtain ⟨hlost, hclosed⟩ := lost_of_recv hrecv
    exact .inr ⟨p.control, _, fun _ => .refl _, Follows.update ⟨hlost.trans, hclosed.trans⟩, rfl⟩
  | closeMedia side =>
    simp only [Pair.act] at h
    split_ifs at h
    obtain rfl := Option.some.inj h
    exact .inr ⟨p.control, _, fun _ => .refl _, Follows.update (.close _), rfl⟩

theorem Pair.Inv.act (h : p.Inv) {action : PairAction γ δ} (hact : p.act action = some p') : p'.Inv := by
  obtain ⟨hclosing, rfl⟩ | ⟨control, media, hcontrol, hmedia, rfl⟩ := Pair.act_cases hact
  · exact { h with
      closing_closed := rfl
      closing_done := fun rest hrest => ⟨[], (Option.some.inj hrest).symm, by simp⟩ }
  · exact h.follows hcontrol hmedia

theorem Pair.openMedia_eq_some {side : Bool} {id : String} {format : φ} (h : p.openMedia side id format = some p') :
    p.closed = false ∧ p.mediaOpened = false ∧ p' = { p with
      mediaOpened := true
      pendingMedia := Function.update p.pendingMedia (!side) (some ⟨id, format, !side⟩)
      opened := p.opened ++ [⟨id, format, side⟩] } := by
  unfold Pair.openMedia at h
  split_ifs at h with hopen
  simp only [Bool.and_eq_true, Bool.not_eq_true'] at hopen
  exact ⟨hopen.1.2, hopen.2, (Option.some.inj h).symm⟩

theorem Pair.Inv.openMedia (h : p.Inv) {side : Bool} {id : String} {format : φ}
    (hopen : p.openMedia side id format = some p') : p'.Inv := by
  obtain ⟨hclosed, hopened, rfl⟩ := Pair.openMedia_eq_some hopen
  have hnone : p.opened = [] := by
    by_contra hne
    rw [h.opened_iff.mpr hne] at hopened
    cases hopened
  have haccepted : p.accepted = [] := by
    obtain ⟨-, ha⟩ | ⟨channel, hc, -⟩ := h.once
    · exact ha
    · rw [hnone] at hc
      cases hc
  have hclosing : p.closing = none := by
    rw [← Option.isNone_iff_eq_none, ← Option.not_isSome, h.closing_closed, hclosed]
    rfl
  refine { h with
    once := .inr ⟨⟨id, format, side⟩, by simp [hnone], .inl haccepted⟩
    offered := fun side' channel hpending => ?_
    opened_iff := by simp
    closing_done := fun rest hrest => by rw [hclosing] at hrest; cases hrest }
  replace hpending : Function.update p.pendingMedia (!side) (some ⟨id, format, !side⟩) side' = some channel := hpending
  by_cases hs : side' = !side
  · subst hs
    rw [Function.update_self] at hpending
    obtain rfl := Option.some.inj hpending
    exact ⟨rfl, by simp [hnone, MediaChannel.peer], haccepted⟩
  · rw [Function.update_of_ne hs] at hpending
    have hsome := (h.offered side' channel hpending).2.1
    rw [hnone] at hsome
    cases hsome

theorem Pair.Inv.take (h : p.Inv) {side : Bool} {channel : MediaChannel φ}
    (hpending : p.pendingMedia side = some channel) : (p.take side channel).Inv := by
  obtain ⟨hside, hopened, haccepted⟩ := h.offered side channel hpending
  refine { h with
    once := .inr ⟨channel.peer, hopened, .inr (by simp [Pair.take, haccepted])⟩
    offered := fun side' channel' hpending' => ?_ }
  replace hpending' : Function.update p.pendingMedia side none side' = some channel' := hpending'
  by_cases hs : side' = side
  · subst hs
    rw [Function.update_self] at hpending'
    cases hpending'
  · rw [Function.update_of_ne hs] at hpending'
    obtain ⟨hside', hopened', -⟩ := h.offered side' channel' hpending'
    -- the one channel that was opened has one other end
    have heq : channel'.peer = channel.peer := List.cons.inj (hopened'.symm.trans hopened) |>.1
    have hchannel : channel' = channel := by rw [← MediaChannel.peer_peer channel', heq, MediaChannel.peer_peer]
    exact absurd (by rw [← hside', hchannel, hside]) hs

/-- A step of `close` is the next of those that are left. -/
theorem Pair.closeNext_eq_some {r : CloseStep × Pair φ γ δ} (h : p.closeNext = some r) :
    ∃ rest, p.closing = some (r.1 :: rest) ∧ r.2 = { p.closeMailbox r.1 with closing := some rest } := by
  unfold Pair.closeNext at h
  split at h
  · next step rest hclosing =>
    obtain rfl := Option.some.inj h
    exact ⟨rest, hclosing, rfl⟩
  · cases h

theorem Pair.closeMailbox_eq (p : Pair φ γ δ) (step : CloseStep) : ∃ control media,
    p.closeMailbox step = { p with control := control, media := media } ∧
      (∀ side, Follows (p.control side) (control side)) ∧ (∀ side, Follows (p.media side) (media side)) ∧
      ∀ side, (step = .control side → (control side).closed = true) ∧
        (step = .media side → (media side).closed = true) := by
  cases step with
  | control side =>
    refine ⟨_, p.media, rfl, Follows.update (.close _), fun _ => .refl _, fun side' => ⟨?_, nofun⟩⟩
    rintro ⟨⟩
    rw [Function.update_self]
    rfl
  | signal side => exact ⟨p.control, p.media, rfl, fun _ => .refl _, fun _ => .refl _, fun _ => ⟨nofun, nofun⟩⟩
  | media side =>
    refine ⟨p.control, _, rfl, fun _ => .refl _, Follows.update (.close _), fun side' => ⟨nofun, ?_⟩⟩
    rintro ⟨⟩
    rw [Function.update_self]
    rfl

theorem Pair.Inv.closeNext (h : p.Inv) {r : CloseStep × Pair φ γ δ} (hnext : p.closeNext = some r) : r.2.Inv := by
  obtain ⟨rest, hclosing, hr⟩ := Pair.closeNext_eq_some hnext
  obtain ⟨control, media, hmailbox, hcontrol, hmedia, hstep⟩ := p.closeMailbox_eq r.1
  obtain ⟨done, hdone, hsides⟩ := h.closing_done _ hclosing
  rw [hr, hmailbox]
  refine { h.follows hcontrol hmedia with
    closing_closed := by rw [← h.closing_closed, hclosing]; rfl
    closing_done := ?_ }
  rintro _ ⟨⟩
  refine ⟨done ++ [r.1], by rw [← hdone]; simp, fun side => ⟨fun hs => ?_, fun hs => ?_⟩⟩
  · obtain hs | hs := List.mem_append.mp hs
    · exact (hcontrol side).2 ((hsides side).1 hs)
    · exact (hstep side).1 (List.mem_singleton.mp hs).symm
  · obtain hs | hs := List.mem_append.mp hs
    · exact (hmedia side).2 ((hsides side).2 hs)
    · exact (hstep side).2 (List.mem_singleton.mp hs).symm

/-! What the steps leave of the pair for the acceptors. -/

theorem Pair.signalled_eq_true {side : Bool} :
    p.signalled side = true ↔ ∃ rest, p.closing = some rest ∧ .signal side ∉ rest := by
  unfold Pair.signalled
  cases p.closing <;> simp

theorem Pair.pendingMedia_act {action : PairAction γ δ} (h : p.act action = some p') :
    p'.pendingMedia = p.pendingMedia := by
  obtain ⟨-, rfl⟩ | ⟨_, _, -, -, rfl⟩ := Pair.act_cases h <;> rfl

theorem Pair.closed_of_act {action : PairAction γ δ} (h : p.act action = some p') (hclosed : p'.closed = false) :
    p.closed = false := by
  obtain ⟨-, rfl⟩ | ⟨_, _, -, -, rfl⟩ := Pair.act_cases h
  · cases hclosed
  · exact hclosed

/-- `close` has not reached the acceptors when it has marked the pair. -/
theorem Pair.signalled_of_act {action : PairAction γ δ} (h : p.act action = some p') {side : Bool}
    (hsignalled : p'.signalled side = true) : p.signalled side = true := by
  obtain ⟨-, rfl⟩ | ⟨_, _, -, -, rfl⟩ := Pair.act_cases h
  · obtain ⟨rest, hrest, hmem⟩ := Pair.signalled_eq_true.1 hsignalled
    obtain rfl := Option.some.inj hrest
    exact absurd (by cases side <;> simp [closeSteps]) hmem
  · exact hsignalled

theorem Pair.closeNext_rest {r : CloseStep × Pair φ γ δ} (h : p.closeNext = some r) :
    r.2.pendingMedia = p.pendingMedia ∧ r.2.closed = p.closed := by
  obtain ⟨rest, -, hr⟩ := Pair.closeNext_eq_some h
  obtain ⟨_, _, hmailbox, -⟩ := p.closeMailbox_eq r.1
  rw [hr, hmailbox]
  exact ⟨rfl, rfl⟩

theorem Pair.signalled_of_closeNext {r : CloseStep × Pair φ γ δ} (h : p.closeNext = some r) {side : Bool}
    (hsignalled : r.2.signalled side = true) : p.signalled side = true ∨ r.1 = .signal side := by
  obtain ⟨rest, hclosing, hr⟩ := Pair.closeNext_eq_some h
  obtain ⟨rest', hrest', hmem⟩ := Pair.signalled_eq_true.1 hsignalled
  rw [hr] at hrest'
  obtain rfl := Option.some.inj hrest'
  by_cases hs : r.1 = .signal side
  · exact .inr hs
  · exact .inl (Pair.signalled_eq_true.2 ⟨_, hclosing, by simp [hmem, Ne.symm hs]⟩)

/-! ## Go -/

namespace Go

variable {s t : State φ γ δ}

/-- An acceptor that sleeps although there is something for it has a token. -/
def Woken (s : State φ γ δ) (side : Bool) : Prop :=
  s.acceptor side = .parked → (s.pair.pendingMedia side ≠ none ∨ s.pair.signalled side = true) → s.ready side = true

theorem woken_of_ready {side : Bool} (h : s.ready side = true) : Woken s side := fun _ _ => h

theorem woken_of_not_parked {side : Bool} (h : s.acceptor side ≠ .parked) : Woken s side :=
  fun hp => absurd hp h

/-- A step that puts nothing there for the acceptor and leaves the acceptor and its token alone. -/
theorem Woken.mono {side : Bool} (h : Woken s side) (hacceptor : t.acceptor side = s.acceptor side)
    (hready : s.ready side = true → t.ready side = true)
    (hpending : t.pair.pendingMedia side ≠ none → s.pair.pendingMedia side ≠ none)
    (hsignalled : t.pair.signalled side = true → s.pair.signalled side = true) : Woken t side := by
  intro hp hsome
  rw [hacceptor] at hp
  exact hready (h hp (hsome.imp hpending hsignalled))

@[simp] theorem acceptor_setAcceptor_self {side : Bool} {acceptor : Acceptor φ} :
    (s.setAcceptor side acceptor).acceptor side = acceptor := Function.update_self ..

/-- An acceptor that does not sleep after its own step; the other side is as before. -/
theorem Woken.setAcceptor (h : ∀ side, Woken s side) {side : Bool} {acceptor : Acceptor φ}
    (hp : acceptor ≠ .parked) (side' : Bool) : Woken (s.setAcceptor side acceptor) side' := by
  by_cases hs : side' = side
  · subst hs
    exact woken_of_not_parked (by rwa [acceptor_setAcceptor_self])
  · exact (h side').mono (Function.update_of_ne hs ..) id id id

theorem Woken.look (h : ∀ side, Woken s side) (hinv : s.pair.Inv) {side : Bool} (side' : Bool) :
    Woken (s.look side) side' := by
  unfold State.look
  split_ifs with hclosed
  · exact Woken.setAcceptor h (by simp) side'
  · split
    · next channel hpending =>
      refine Woken.setAcceptor (s := { s with pair := s.pair.take side channel })
        (fun side'' => (h side'').mono rfl id (fun hne => ?_) id) (by simp) side'
      replace hne : Function.update s.pair.pendingMedia side none side'' ≠ none := hne
      by_cases hs : side'' = side
      · subst hs
        rw [hpending]
        exact Option.some_ne_none channel
      · rwa [Function.update_of_ne hs] at hne
    · next hpending =>
      by_cases hs : side' = side
      · subst hs
        rintro - (hne | hsignalled)
        · exact absurd hpending hne
        · -- the acceptors are told only after the pair has been marked
          obtain ⟨rest, hrest, -⟩ := Pair.signalled_eq_true.1 hsignalled
          exact absurd (by rw [← hinv.closing_closed]; exact Option.isSome_of_eq_some hrest) hclosed
      · exact (h side').mono (Function.update_of_ne hs ..) id id id

theorem Woken.signal (h : ∀ side, Woken s side) {pair : Pair φ γ δ} {side : Bool}
    (hpending : ∀ side', side' ≠ side → pair.pendingMedia side' = s.pair.pendingMedia side')
    (hsignalled : ∀ side', side' ≠ side → pair.signalled side' = true → s.pair.signalled side' = true)
    (side' : Bool) : Woken ({ s with pair := pair }.signal side) side' := by
  by_cases hs : side' = side
  · subst hs
    exact woken_of_ready (Function.update_self ..)
  · exact (h side').mono rfl (fun hready => (Function.update_of_ne hs ..).trans hready)
      (fun hne => hpending side' hs ▸ hne) (hsignalled side' hs)

/-- What one step preserves. -/
theorem inv_step {action : Action φ γ δ} (hinv : s.pair.Inv) (h : ∀ side, Woken s side)
    (hstep : step s action = some t) : t.pair.Inv ∧ ∀ side, Woken t side := by
  cases action with
  | pair action =>
    obtain ⟨pair, hact, rfl⟩ := Option.map_eq_some_iff.mp hstep
    have hpending := Pair.pendingMedia_act hact
    exact ⟨hinv.act hact, fun side => (h side).mono rfl id (hpending ▸ id) (Pair.signalled_of_act hact)⟩
  | «open» side id format =>
    obtain ⟨pair, hopen, rfl⟩ := Option.map_eq_some_iff.mp hstep
    refine ⟨hinv.openMedia hopen, Woken.signal h (fun side' hs => ?_) fun side' hs hsignalled => ?_⟩
    · rw [(Pair.openMedia_eq_some hopen).2.2]
      exact Function.update_of_ne hs ..
    · rw [(Pair.openMedia_eq_some hopen).2.2] at hsignalled
      exact hsignalled
  | closeStep =>
    obtain ⟨⟨closeStep, pair⟩, hnext, rfl⟩ := Option.map_eq_some_iff.mp hstep
    have hpending : pair.pendingMedia = s.pair.pendingMedia := (Pair.closeNext_rest hnext).1
    have hsignalled {side : Bool} :
        pair.signalled side = true → s.pair.signalled side = true ∨ closeStep = .signal side :=
      Pair.signalled_of_closeNext hnext
    cases closeStep with
    | signal side =>
      refine ⟨hinv.closeNext hnext, Woken.signal h (fun _ _ => by rw [hpending]) fun side' hs hs' => ?_⟩
      obtain hs' | hs' := hsignalled hs'
      · exact hs'
      · exact absurd (CloseStep.signal.inj hs').symm hs
    | control | media =>
      exact ⟨hinv.closeNext hnext,
        fun side => (h side).mono rfl id (hpending ▸ id) fun hs => (hsignalled hs).resolve_right nofun⟩
  | accept side =>
    have hnext : ∀ b : Bool, (if b then .looking else .returned none : Acceptor φ) ≠ .parked := by
      intro b
      cases b <;> simp
    simp only [step] at hstep
    split at hstep
    · obtain rfl := Option.some.inj hstep
      exact ⟨hinv, Woken.setAcceptor h (hnext _)⟩
    · obtain rfl := Option.some.inj hstep
      exact ⟨hinv, Woken.setAcceptor h (hnext _)⟩
    · cases hstep
  | look side =>
    simp only [step] at hstep
    split at hstep
    · obtain rfl := Option.some.inj hstep
      refine ⟨?_, Woken.look h hinv⟩
      unfold State.look
      split_ifs
      · exact hinv
      · split
        · next hpending => exact hinv.take hpending
        · exact hinv
    · cases hstep
  | wake side =>
    simp only [step] at hstep
    split at hstep
    · obtain rfl := Option.some.inj hstep
      refine ⟨hinv, fun side' => ?_⟩
      by_cases hs : side' = side
      · subst hs
        exact woken_of_not_parked (by simp)
      · exact (h side').mono (Function.update_of_ne hs ..) (fun hr => (Function.update_of_ne hs ..).trans hr) id id
    · cases hstep
  | cancel side =>
    simp only [step] at hstep
    split at hstep
    · obtain rfl := Option.some.inj hstep
      exact ⟨hinv, Woken.setAcceptor h (by simp)⟩
    · obtain rfl := Option.some.inj hstep
      exact ⟨hinv, Woken.setAcceptor h (by simp)⟩
    · cases hstep

/-- One side opens the channel while an acceptor of the other sleeps. -/
def opening : List (Action Unit Nat Nat) := [.accept true, .look true, .open false "audio" ()]

end Go

/-! ## Rust -/

namespace Rust

/-- The acceptors of a side: who waits is registered, who has looked has called `notified` before, the channel is there
only as long as somebody is about to look, and when `close` has told a side nobody on it waits or starts to. -/
structure Served (pending : Option (MediaChannel φ)) (closed signalled : Bool) (ready : Notify ι)
    (acceptor : ι → Acceptor φ) : Prop where
  waiting : ∀ i, i ∈ ready.waiters ↔ acceptor i = .waiting
  entered : ∀ i g, acceptor i = .entered g → g ≤ ready.generation
  looked : ∀ i g, acceptor i = .looked g → g ≤ ready.generation
  woken : pending ≠ none → closed = false →
    ready.permit = true ∨ ∃ i, acceptor i = .notified true ∨ ∃ g, acceptor i = .entered g
  told : signalled = true → ready.waiters = [] ∧ ∀ i g, acceptor i = .looked g → g < ready.generation

section Side

variable [DecidableEq ι] {pending pending' : Option (MediaChannel φ)} {closed closed' signalled signalled' : Bool}
  {ready ready' : Notify ι} {acceptor : ι → Acceptor φ} {i : ι} {next : Acceptor φ}

omit [DecidableEq ι] in
theorem Served.initial : Served none false false (.new : Notify ι) fun _ => (.idle : Acceptor φ) where
  waiting _ := by simp [Notify.new]
  entered _ _ h := by cases h
  looked _ _ h := by cases h
  woken h := absurd rfl h
  told h := by cases h

omit [DecidableEq ι] in
/-- A step of the pair that puts nothing there for the side. -/
theorem Served.mono (h : Served pending closed signalled ready acceptor) (hpending : pending' ≠ none → pending ≠ none)
    (hclosed : closed' = false → closed = false) (hsignalled : signalled' = true → signalled = true) :
    Served pending' closed' signalled' ready acceptor where
  waiting := h.waiting
  entered := h.entered
  looked := h.looked
  woken hne hc := h.woken (hpending hne) (hclosed hc)
  told hs := h.told (hsignalled hs)

/-- An acceptor that neither waits nor starts to goes on. -/
theorem Served.set (h : Served pending closed signalled ready acceptor) (hwaits : acceptor i ≠ .waiting)
    (hnext : next ≠ .waiting) (hentered : ∀ g, next = .entered g → g ≤ ready.generation)
    (hlooked : ∀ g, next = .looked g → g ≤ ready.generation ∧ (signalled = true → g < ready.generation))
    (hwoken : pending ≠ none → closed = false → (acceptor i = .notified true ∨ ∃ g, acceptor i = .entered g) →
      ∃ g, next = .entered g) :
    Served pending closed signalled ready (Function.update acceptor i next) where
  waiting j := by
    by_cases hj : j = i
    · subst hj
      rw [Function.update_self, h.waiting]
      exact iff_of_false hwaits hnext
    · rw [Function.update_of_ne hj, h.waiting]
  entered j g hg := by
    by_cases hj : j = i
    · subst hj
      exact hentered g (by rwa [Function.update_self] at hg)
    · exact h.entered j g (by rwa [Function.update_of_ne hj] at hg)
  looked j g hg := by
    by_cases hj : j = i
    · subst hj
      exact (hlooked g (by rwa [Function.update_self] at hg)).1
    · exact h.looked j g (by rwa [Function.update_of_ne hj] at hg)
  woken hne hclosed := by
    refine (h.woken hne hclosed).imp_right ?_
    rintro ⟨j, hj⟩
    by_cases hji : j = i
    · subst hji
      exact ⟨j, .inr (by rw [Function.update_self]; exact hwoken hne hclosed hj)⟩
    · exact ⟨j, by rwa [Function.update_of_ne hji]⟩
  told hs := by
    refine ⟨(h.told hs).1, fun j g hg => ?_⟩
    by_cases hj : j = i
    · subst hj
      exact (hlooked g (by rwa [Function.update_self] at hg)).2 hs
    · exact (h.told hs).2 j g (by rwa [Function.update_of_ne hj] at hg)

/-- A new turn of the loop. -/
theorem Served.enter (h : Served pending closed signalled ready acceptor) (hwaits : acceptor i ≠ .waiting) :
    Served pending closed signalled ready (Function.update acceptor i (.entered ready.generation)) := by
  refine h.set hwaits (by simp) ?_ (by simp) fun _ _ _ => ⟨_, rfl⟩
  rintro g ⟨⟩
  exact le_rfl

/-- The permit goes to an acceptor that looks again. -/
theorem Served.takePermit (h : Served pending closed signalled ready acceptor) (htake : ready.takePermit = some ready')
    (hwaits : acceptor i ≠ .waiting) :
    Served pending closed signalled ready' (Function.update acceptor i (.entered ready'.generation)) := by
  obtain ⟨hpermit, -, hwaiters, hgeneration⟩ := Notify.takePermit_eq_some htake
  have henter := h.enter hwaits
  have hidle := ready.permit_idle hpermit
  exact {
    waiting := fun j => by rw [hwaiters, hgeneration, ← henter.waiting, hidle]
    entered := fun j g hg => by rw [hgeneration] at hg ⊢; exact henter.entered j g hg
    looked := fun j g hg => by rw [hgeneration] at hg ⊢; exact henter.looked j g hg
    woken := fun _ _ => .inr ⟨i, .inr ⟨_, Function.update_self ..⟩⟩
    told := fun hs => ⟨hwaiters, fun j g hg => by rw [hgeneration] at hg ⊢; exact (henter.told hs).2 j g hg⟩ }

/-- What an acceptor other than the one that has moved is now it was before. -/
theorem eq_of_update {a : Acceptor φ} {j : ι} (ha : a ≠ next) (h : Function.update acceptor i next j = a) :
    acceptor j = a := by
  by_cases hj : j = i
  · subst hj
    exact absurd ((Function.update_self ..).symm.trans h).symm ha
  · rwa [Function.update_of_ne hj] at h

/-- An acceptor that found nothing starts to wait. -/
theorem Served.register (h : Served pending closed signalled ready acceptor) (hregister : ready.register i = some ready')
    {g : Nat} (hlooked : acceptor i = .looked g) (hg : g = ready.generation) :
    Served pending closed signalled ready' (Function.update acceptor i .waiting) := by
  obtain ⟨hpermit, -, hwaiters, hgeneration⟩ := Notify.register_eq_some hregister
  exact {
    waiting := fun j => by
      rw [hwaiters, List.mem_append, List.mem_singleton, h.waiting]
      by_cases hj : j = i
      · subst hj
        simp
      · simp [hj]
    entered := fun j g hg => hgeneration ▸ h.entered j g (eq_of_update (by simp) hg)
    looked := fun j g hg => hgeneration ▸ h.looked j g (eq_of_update (by simp) hg)
    woken := fun hne hclosed => by
      obtain hp | ⟨j, hj⟩ := h.woken hne hclosed
      · exact absurd (hpermit.symm.trans hp) (by simp)
      · have hji : j ≠ i := by
          rintro rfl
          simp [hlooked] at hj
        exact .inr ⟨j, by rwa [Function.update_of_ne hji]⟩
    told := fun hs => absurd ((h.told hs).2 i g hlooked) (by omega) }

/-- An acceptor that waits is dropped. -/
theorem Served.forget (h : Served pending closed signalled ready acceptor) (hwaiting : acceptor i = .waiting) :
    Served pending closed signalled (ready.forget i) (Function.update acceptor i .idle) := by
  exact {
    waiting := fun j => by
      rw [Notify.mem_forget, h.waiting]
      by_cases hj : j = i
      · subst hj
        simp
      · simp [hj]
    entered := fun j g hg => h.entered j g (eq_of_update (by simp) hg)
    looked := fun j g hg => h.looked j g (eq_of_update (by simp) hg)
    woken := fun hne hclosed => by
      refine (h.woken hne hclosed).imp_right ?_
      rintro ⟨j, hj⟩
      have hji : j ≠ i := by
        rintro rfl
        simp [hwaiting] at hj
      exact ⟨j, by rwa [Function.update_of_ne hji]⟩
    told := fun hs => absurd ((h.told hs).1 ▸ (h.waiting i).mpr hwaiting) (by simp) }

/-- The acceptors after a notification of one. -/
def afterOne (ready : Notify ι) (acceptor : ι → Acceptor φ) : ι → Acceptor φ :=
  match ready.notifyOne.1 with
  | some i => Function.update acceptor i (.notified true)
  | none => acceptor

/-- Whatever is offered, a notification of one makes somebody look. -/
theorem Served.notifyOne (h : Served pending closed signalled ready acceptor) :
    Served pending' closed signalled ready.notifyOne.2 (afterOne ready acceptor) := by
  obtain ⟨hwaiters, hnone, hpermit, hwaiters'⟩ | ⟨i, rest, hwaiters, hsome, hwaiters', hrest, -⟩ :=
    ready.notifyOne_cases
  · rw [afterOne, hnone]
    exact {
      waiting := fun j => by rw [hwaiters', ← h.waiting, hwaiters]
      entered := fun j g hg => by rw [Notify.generation_notifyOne]; exact h.entered j g hg
      looked := fun j g hg => by rw [Notify.generation_notifyOne]; exact h.looked j g hg
      woken := fun _ _ => .inl hpermit
      told := fun hs => ⟨hwaiters', fun j g hg => by rw [Notify.generation_notifyOne]; exact (h.told hs).2 j g hg⟩ }
  · rw [afterOne, hsome]
    exact {
      waiting := fun j => by
        have hj := h.waiting j
        rw [hwaiters, List.mem_cons] at hj
        rw [hwaiters']
        by_cases hji : j = i
        · subst hji
          simp [hrest]
        · simpa [hji] using hj
      entered := fun j g hg => by rw [Notify.generation_notifyOne]; exact h.entered j g (eq_of_update (by simp) hg)
      looked := fun j g hg => by rw [Notify.generation_notifyOne]; exact h.looked j g (eq_of_update (by simp) hg)
      woken := fun _ _ => .inr ⟨i, .inl (Function.update_self ..)⟩
      told := fun hs => absurd ((h.told hs).1.symm.trans hwaiters) (by simp) }

/-- A notification of all tells everybody. -/
theorem Served.notifyWaiters (h : Served pending closed signalled ready acceptor) (hclosed : closed' = true) :
    Served pending closed' signalled' ready.notifyWaiters
      fun i => if i ∈ ready.waiters then .notified false else acceptor i := by
  have hother {j : ι} {a : Acceptor φ} (ha : a ≠ .notified false)
      (hj : (if j ∈ ready.waiters then .notified false else acceptor j) = a) : acceptor j = a := by
    split_ifs at hj
    · exact absurd hj.symm ha
    · exact hj
  exact {
    waiting := fun j => by
      rw [Notify.waiters_notifyWaiters]
      refine iff_of_false List.not_mem_nil ?_
      split_ifs with hj
      · simp
      · exact fun hw => hj ((h.waiting j).mpr hw)
    entered := fun j g hg => Nat.le_succ_of_le (h.entered j g (hother (by simp) hg))
    looked := fun j g hg => Nat.le_succ_of_le (h.looked j g (hother (by simp) hg))
    woken := fun _ hfalse => by rw [hclosed] at hfalse; cases hfalse
    told := fun _ => ⟨rfl, fun j g hg => Nat.lt_succ_of_le (h.looked j g (hother (by simp) hg))⟩ }

end Side

variable [DecidableEq ι] {s t : State φ γ δ ι} {side : Bool} {i : ι}

/-- The invariant of a run. -/
structure Inv (s : State φ γ δ ι) : Prop where
  pair : s.pair.Inv
  served : ∀ side, Served (s.pair.pendingMedia side) s.pair.closed (s.pair.signalled side) (s.mediaReady side)
    (s.acceptor side)

/-- The state after a move of one side. -/
def put (s : State φ γ δ ι) (pair : Pair φ γ δ) (side : Bool) (ready : Notify ι) (acceptor : ι → Acceptor φ) :
    State φ γ δ ι :=
  ⟨pair, Function.update s.mediaReady side ready, Function.update s.acceptor side acceptor⟩

omit [DecidableEq ι] in
theorem Inv.of_put (h : Inv s) {pair : Pair φ γ δ} {ready : Notify ι} {acceptor : ι → Acceptor φ} (hpair : pair.Inv)
    (hclosed : pair.closed = false → s.pair.closed = false)
    (hother : ∀ side', side' ≠ side → pair.pendingMedia side' = s.pair.pendingMedia side' ∧
      (pair.signalled side' = true → s.pair.signalled side' = true))
    (hside : Served (pair.pendingMedia side) pair.closed (pair.signalled side) ready acceptor) :
    Inv (put s pair side ready acceptor) where
  pair := hpair
  served side' := by
    by_cases hs : side' = side
    · subst hs
      simpa [put] using hside
    · simp only [put, Function.update_of_ne hs]
      exact (h.served side').mono (fun hne => (hother side' hs).1 ▸ hne) hclosed (hother side' hs).2

theorem setAcceptor_eq {acceptor : Acceptor φ} :
    s.setAcceptor side i acceptor =
      put s s.pair side (s.mediaReady side) (Function.update (s.acceptor side) i acceptor) := by
  simp [State.setAcceptor, put]

theorem setReady_setAcceptor_eq {ready : Notify ι} {acceptor : Acceptor φ} :
    (s.setReady side ready).setAcceptor side i acceptor =
      put s s.pair side ready (Function.update (s.acceptor side) i acceptor) := rfl

theorem notifyOne_eq {pair : Pair φ γ δ} : State.notifyOne { s with pair := pair } side =
    put s pair side (s.mediaReady side).notifyOne.2 (afterOne (s.mediaReady side) (s.acceptor side)) := by
  unfold State.notifyOne afterOne
  dsimp only
  cases (s.mediaReady side).notifyOne.1 with
  | none => simp [put, State.setReady]
  | some i => rfl

omit [DecidableEq ι] in
/-- A move of an acceptor that leaves the pair alone. -/
theorem Inv.move (h : Inv s) {ready : Notify ι} {acceptor : ι → Acceptor φ}
    (hside : Served (s.pair.pendingMedia side) s.pair.closed (s.pair.signalled side) ready acceptor) :
    Inv (put s s.pair side ready acceptor) :=
  h.of_put h.pair id (fun _ _ => ⟨rfl, id⟩) hside

theorem Inv.enter (h : Inv s) (hwaits : s.acceptor side i ≠ .waiting) : Inv (s.enter side i) := by
  rw [State.enter, setAcceptor_eq]
  exact h.move ((h.served side).enter hwaits)

/-- An acceptor whose turn it was not leaves. -/
theorem Inv.leave (h : Inv s) {next : Acceptor φ} (hwaits : s.acceptor side i ≠ .waiting)
    (hnext : next = .idle ∨ ∃ result, next = .returned result)
    (hturn : s.pair.pendingMedia side ≠ none → s.pair.closed = false →
      ¬ (s.acceptor side i = .notified true ∨ ∃ g, s.acceptor side i = .entered g)) :
    Inv (s.setAcceptor side i next) := by
  rw [setAcceptor_eq]
  refine h.move ((h.served side).set hwaits ?_ ?_ ?_ fun hne hclosed hi => absurd hi (hturn hne hclosed)) <;>
    obtain rfl | ⟨_, rfl⟩ := hnext <;> simp

theorem Inv.accept (h : Inv s) (hwaits : s.acceptor side i ≠ .waiting)
    (hturn : ¬ (s.acceptor side i = .notified true ∨ ∃ g, s.acceptor side i = .entered g)) :
    Inv (if s.pair.mediaEnabled then s.enter side i else s.setAcceptor side i (.returned none)) := by
  split_ifs
  · exact h.enter hwaits
  · exact h.leave hwaits (.inr ⟨_, rfl⟩) fun _ _ => hturn

theorem Inv.look (h : Inv s) {g : Nat} (hentered : s.acceptor side i = .entered g) : Inv (s.look side i g) := by
  have hwaits : s.acceptor side i ≠ .waiting := by simp [hentered]
  unfold State.look
  split_ifs with hclosed
  · exact h.leave hwaits (.inr ⟨_, rfl⟩) fun _ hfalse => absurd (hclosed.symm.trans hfalse) (by simp)
  split
  · next channel hpending =>
    refine Inv.leave (s := { s with pair := s.pair.take side channel }) ⟨h.pair.take hpending, fun side' => ?_⟩ hwaits
      (.inr ⟨_, rfl⟩) fun hne => absurd (Function.update_self ..) hne
    refine (h.served side').mono (fun hne => ?_) id id
    replace hne : Function.update s.pair.pendingMedia side none side' ≠ none := hne
    by_cases hs : side' = side
    · subst hs
      rw [hpending]
      exact Option.some_ne_none channel
    · rwa [Function.update_of_ne hs] at hne
  · next hpending =>
    rw [setAcceptor_eq]
    refine h.move ((h.served side).set hwaits (by simp) (by simp) ?_ fun hne => absurd hpending hne)
    rintro _ ⟨⟩
    refine ⟨(h.served side).entered i g hentered, fun hsignalled => ?_⟩
    -- the acceptors are told only after the pair has been marked
    obtain ⟨rest, hrest, -⟩ := Pair.signalled_eq_true.1 hsignalled
    exact absurd (by rw [← h.pair.closing_closed]; exact Option.isSome_of_eq_some hrest) hclosed

theorem Inv.poll (h : Inv s) {g : Nat} (hlooked : s.acceptor side i = .looked g) (hpoll : s.poll side i g = some t) :
    Inv t := by
  have hwaits : s.acceptor side i ≠ .waiting := by simp [hlooked]
  unfold State.poll at hpoll
  split at hpoll
  · next ready htake =>
    obtain rfl := Option.some.inj hpoll
    rw [State.enter, setReady_setAcceptor_eq]
    refine h.move ?_
    simpa [State.setReady] using (h.served side).takePermit htake hwaits
  · split_ifs at hpoll with hg
    · obtain rfl := Option.some.inj hpoll
      exact h.enter hwaits
    · obtain ⟨ready, hregister, rfl⟩ := Option.map_eq_some_iff.mp hpoll
      rw [setReady_setAcceptor_eq]
      exact h.move ((h.served side).register hregister hlooked (not_not.mp hg))

/-- An acceptor that was woken and is dropped hands the notification on. -/
theorem Inv.drop_notified (h : Inv s) (hnotified : s.acceptor side i = .notified true) :
    Inv ((s.setAcceptor side i .idle).notifyOne side) := by
  have hnone : Served none s.pair.closed (s.pair.signalled side) (s.mediaReady side) (s.acceptor side) :=
    (h.served side).mono (fun hne => absurd rfl hne) id id
  have hidle : (.idle : Acceptor φ) ≠ .waiting := by simp
  have hserved := hnone.set (i := i) (by simp [hnotified]) hidle (by simp) (by simp) fun hne => absurd rfl hne
  have heq : (s.setAcceptor side i .idle).notifyOne side = put s s.pair side (s.mediaReady side).notifyOne.2
      (afterOne (s.mediaReady side) (Function.update (s.acceptor side) i .idle)) := by
    rw [show s.setAcceptor side i .idle = { s.setAcceptor side i .idle with pair := s.pair } from rfl, notifyOne_eq]
    simp [put, State.setAcceptor]
  rw [heq]
  exact h.move hserved.notifyOne

theorem Inv.open (h : Inv s) {id : String} {format : φ} {pair : Pair φ γ δ}
    (hopen : s.pair.openMedia side id format = some pair) : Inv (State.notifyOne { s with pair := pair } !side) := by
  obtain ⟨-, -, hpair⟩ := Pair.openMedia_eq_some hopen
  have hclosed : pair.closed = s.pair.closed := by rw [hpair]
  have hclosing : pair.closing = s.pair.closing := by rw [hpair]
  have hsignalled (side' : Bool) : pair.signalled side' = s.pair.signalled side' := by
    rw [Pair.signalled, Pair.signalled, hclosing]
  rw [notifyOne_eq]
  refine h.of_put (h.pair.openMedia hopen) (fun hc => hclosed ▸ hc)
    (fun side' hs => ⟨?_, fun hs' => hsignalled side' ▸ hs'⟩) ?_
  · rw [hpair]
    exact Function.update_of_ne hs ..
  · rw [hclosed, hsignalled]
    exact (h.served _).notifyOne

theorem Inv.closeStep (h : Inv s) {closeStep : CloseStep} {pair : Pair φ γ δ}
    (hnext : s.pair.closeNext = some (closeStep, pair)) : Inv (State.closed { s with pair := pair } closeStep) := by
  obtain ⟨hpending, hclosed⟩ : pair.pendingMedia = s.pair.pendingMedia ∧ pair.closed = s.pair.closed :=
    Pair.closeNext_rest hnext
  have hpair : pair.Inv := h.pair.closeNext hnext
  have hsignalled {side : Bool} : pair.signalled side = true → s.pair.signalled side = true ∨ closeStep = .signal side :=
    Pair.signalled_of_closeNext hnext
  cases closeStep with
  | signal side =>
    have hmarked : pair.closed = true := by
      obtain ⟨rest, hclosing, -⟩ := Pair.closeNext_eq_some hnext
      rw [hclosed, ← h.pair.closing_closed, hclosing]
      rfl
    have hserved : Served (pair.pendingMedia side) pair.closed (pair.signalled side) _ _ :=
      (hpending ▸ h.served side).notifyWaiters hmarked
    refine h.of_put hpair (fun hc => hclosed ▸ hc) (fun side' hs => ⟨by rw [hpending], fun hs' => ?_⟩) hserved
    obtain hs' | hs' := hsignalled hs'
    · exact hs'
    · exact absurd (CloseStep.signal.inj hs').symm hs
  | control | media =>
    exact ⟨hpair, fun side => (h.served side).mono (hpending ▸ id) (fun hc => hclosed ▸ hc)
      fun hs => (hsignalled hs).resolve_right nofun⟩

/-- What one step preserves. -/
theorem Inv.step (h : Inv s) {action : Action φ γ δ ι} (hstep : step s action = some t) : Inv t := by
  cases action with
  | pair action =>
    obtain ⟨pair, hact, rfl⟩ := Option.map_eq_some_iff.mp hstep
    exact ⟨h.pair.act hact, fun side => (h.served side).mono (Pair.pendingMedia_act hact ▸ id) (Pair.closed_of_act hact)
      (Pair.signalled_of_act hact)⟩
  | «open» side id format =>
    obtain ⟨pair, hopen, rfl⟩ := Option.map_eq_some_iff.mp hstep
    exact h.open hopen
  | closeStep =>
    obtain ⟨⟨closeStep, pair⟩, hnext, rfl⟩ := Option.map_eq_some_iff.mp hstep
    exact h.closeStep hnext
  | accept side i =>
    simp only [Rust.step] at hstep
    split at hstep
    · next hidle =>
      obtain rfl := Option.some.inj hstep
      exact h.accept (by simp [hidle]) (by simp [hidle])
    · next hreturned =>
      obtain rfl := Option.some.inj hstep
      exact h.accept (by simp [hreturned]) (by simp [hreturned])
    · cases hstep
  | look side i =>
    simp only [Rust.step] at hstep
    split at hstep
    · next g hentered =>
      obtain rfl := Option.some.inj hstep
      exact h.look hentered
    · cases hstep
  | poll side i =>
    simp only [Rust.step] at hstep
    split at hstep
    · next g hlooked => exact h.poll hlooked hstep
    · cases hstep
  | resume side i =>
    simp only [Rust.step] at hstep
    split at hstep
    · next one hnotified =>
      obtain rfl := Option.some.inj hstep
      exact h.enter (by simp [hnotified])
    · cases hstep
  | drop side i =>
    simp only [Rust.step] at hstep
    split at hstep
    · next hwaiting =>
      obtain rfl := Option.some.inj hstep
      rw [setReady_setAcceptor_eq]
      exact h.move ((h.served side).forget hwaiting)
    · next hnotified =>
      obtain rfl := Option.some.inj hstep
      exact h.drop_notified hnotified
    · next hnotified =>
      obtain rfl := Option.some.inj hstep
      exact h.leave (by simp [hnotified]) (.inl rfl) fun _ _ => by simp [hnotified]
    · cases hstep

/-- In every run the pair is sound, and when all calls on a side have come to rest, one that waits has nothing to wake
for: `close` has not reached it, and the channel is not there unless the pair is marked as closed. -/
theorem pair_sound_of_notify {mediaEnabled : Bool} (h : (machine mediaEnabled).Reachable s) :
    s.pair.Sound ∧ ∀ side, (∀ i, (s.acceptor side i).resting = true) → ∀ i, s.acceptor side i = .waiting →
      s.pair.signalled side = false ∧ (s.pair.pendingMedia side = none ∨ s.pair.closed = true) := by
  have hinv : Inv s := by
    refine h.invariant (I := Inv) ?_ fun s action t hs hstep => hs.step hstep
    rintro _ rfl
    exact ⟨.new mediaEnabled, fun _ => .initial⟩
  refine ⟨hinv.pair.sound, fun side hrest i hwaiting => ?_⟩
  have hserved := hinv.served side
  have hmem := (hserved.waiting i).mpr hwaiting
  constructor
  · by_contra hsignalled
    rw [(hserved.told (by simpa using hsignalled)).1] at hmem
    cases hmem
  · by_contra! hne
    obtain hpermit | ⟨j, hj⟩ := hserved.woken hne.1 (by simpa using hne.2)
    · rw [(s.mediaReady side).permit_idle hpermit] at hmem
      cases hmem
    · have hj' := hrest j
      obtain hj | ⟨g, hj⟩ := hj <;> rw [hj] at hj' <;> cases hj'

/-- Two calls wait, and one takes the channel that is opened. -/
def handover : List (Action Unit Nat Nat Bool) :=
  [.accept true false, .look true false, .poll true false, .accept true true, .look true true, .poll true true,
    .open false "audio" (), .resume true false, .look true false]

theorem handover_sound :
    ∃ s, (machine true).exec (initial true) handover = some s ∧ s.pair.Sound ∧ s.acceptor true true = .waiting ∧
      (s.pair.pendingMedia true = none ∨ s.pair.closed = true) := by
  refine ⟨_, rfl, ?_⟩
  have hexec : (machine true).exec (initial true) handover = some _ := rfl
  obtain ⟨hsound, hrest⟩ := pair_sound_of_notify (.of_exec rfl hexec)
  refine ⟨hsound, rfl, (hrest true (fun i => ?_) true rfl).2⟩
  cases i <;> rfl

end Rust

end Rtvbp.MemoryPair
