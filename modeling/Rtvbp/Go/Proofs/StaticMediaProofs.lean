import Rtvbp.Go.StaticMedia
import Rtvbp.Go.Proofs.MediaProofs

/-!
# Failed audio calls over the WebSocket transport

Every call but one kind leaves what a later call reads as it was when it fails. The exception is an `AcceptAudio` that
is given the channel before it has a format: it closes the channel, which is the only one.
-/

namespace Rtvbp.Go.StaticMedia

open Rtvbp.Lib
open Rtvbp.Go.Media (MediaFormat MediaChannel Error Shared bindError finishChecks setFormat)

variable {s t : State} {i : Nat} {ctx : Option String} {format : MediaFormat}

/-- What holds between the calls. -/
structure Inv (s : State) : Prop where
  opened : s.session.closing = false
  transport_open : s.transport.closedError = none
  unconfigured : s.transport.media.configured = false → s.transport.media.format = noFormat
  valid : s.transport.media.configured = true → ∃ n, s.transport.media.format.FrameBytes = .ok n
  not_binding : s.session.mediaState ≠ .audioBinding
  unset : s.session.mediaState = .audioUnbound → s.session.format = none

/-- The two states agree in what a call reads. -/
structure Agree (s t : State) : Prop where
  closing : t.session.closing = s.session.closing
  connected : t.session.connected = s.session.connected
  mediaState : t.session.mediaState = s.session.mediaState
  format : t.session.format = s.session.format
  transport : t.transport = s.transport

theorem Inv.agree (h : Inv s) (hagree : Agree s t) : Inv t where
  opened := hagree.closing.trans h.opened
  transport_open := by
    rw [hagree.transport]
    exact h.transport_open
  unconfigured := by
    rw [hagree.transport]
    exact h.unconfigured
  valid := by
    rw [hagree.transport]
    exact h.valid
  not_binding := by
    rw [hagree.mediaState]
    exact h.not_binding
  unset := by
    rw [hagree.mediaState, hagree.format]
    exact h.unset

theorem inv_start (h : Start s) : Inv s := by
  obtain ⟨hclosing, hunbound, hformat, audioFormat, htransport⟩ := h
  have hnotbinding : s.session.mediaState ≠ .audioBinding := by
    rw [hunbound]
    simp
  unfold NewTransport at htransport
  dsimp only at htransport
  split at htransport
  · have htransport := Except.ok.inj htransport
    exact {
      opened := hclosing
      transport_open := by rw [← htransport]
      unconfigured := fun _ => by rw [← htransport]
      valid := fun hconfigured => by
        rw [← htransport] at hconfigured
        exact absurd hconfigured Bool.false_ne_true
      not_binding := hnotbinding
      unset := fun _ => hformat }
  · cases hvalid : audioFormat.FrameBytes with
    | error err =>
      rw [hvalid] at htransport
      exact absurd htransport (by simp)
    | ok n =>
      rw [hvalid] at htransport
      have htransport := Except.ok.inj htransport
      exact {
        opened := hclosing
        transport_open := by rw [← htransport]
        unconfigured := fun hunconfigured => by
          rw [← htransport] at hunconfigured
          exact absurd hunconfigured.symm Bool.false_ne_true
        valid := fun _ => by
          rw [← htransport]
          exact ⟨n, hvalid⟩
        not_binding := hnotbinding
        unset := fun _ => hformat }

/-! ## The sections of the session -/

theorem beginAudioBind_of_unbound (h : Inv s) (hconnected : s.session.connected = true)
    (hunbound : s.session.mediaState = .audioUnbound) (requested : Option MediaFormat) :
    beginAudioBind s.session i requested =
      .ok { s.session with mediaState := .audioBinding, binder := some i } := by
  unfold beginAudioBind
  rw [if_neg (by simp [h.opened]), if_neg (by simp [hconnected]), if_pos hunbound]

theorem beginAudioBind_error (h : Inv s)
    (hbusy : ¬ (s.session.connected = true ∧ s.session.mediaState = .audioUnbound)) (requested : Option MediaFormat) :
    ∃ err, beginAudioBind s.session i requested = .error err := by
  unfold beginAudioBind
  rw [if_neg (by simp [h.opened])]
  by_cases hconnected : s.session.connected = true
  · rw [if_neg (by simp [hconnected]), if_neg fun hunbound => hbusy ⟨hconnected, hunbound⟩]
    exact ⟨_, rfl⟩
  · rw [if_pos (by simpa using hconnected)]
    exact ⟨_, rfl⟩

/-- A bind that the transport refuses is undone. -/
theorem agree_abort (hunbound : s.session.mediaState = .audioUnbound) :
    Agree s { s with
      session := abortAudioBind { s.session with mediaState := .audioBinding, binder := some i } } where
  closing := rfl
  connected := rfl
  mediaState := hunbound.symm
  format := rfl
  transport := rfl

theorem agree_refl (s : State) : Agree s s := ⟨rfl, rfl, rfl, rfl, rfl⟩

/-- The state in which `finishAudioBind` is called. -/
def binding (s : State) (i : Nat) (transport : Transport) : State where
  session := { s.session with mediaState := .audioBinding, binder := some i }
  transport := transport

/-- `finishAudioBind` with a channel that has the requested format. -/
theorem finishAudioBind_ok (h : Inv s) (hunbound : s.session.mediaState = .audioUnbound) (transport : Transport)
    (hopen : transport.closedError = none) (hconfigured : transport.media.configured = true)
    (hvalid : ∃ n, transport.media.format.FrameBytes = .ok n) {requested : Option MediaFormat}
    (hrequested : ∀ format ∈ requested, transport.media.format = format) :
    ∃ t, finishAudioBind (binding s i transport) i requested = (t, none) ∧ Inv t := by
  obtain ⟨n, hn⟩ := hvalid
  have hchecks : finishChecks transport.media.channel requested = .ok () := by
    unfold finishChecks
    rw [if_neg (show ¬ transport.media.channel.ID ≠ "audio" from fun hne => hne rfl)]
    have hchannel : transport.media.channel.Format.FrameBytes = .ok n := hn
    rw [hchannel]
    dsimp only
    cases hcase : requested with
    | none => rfl
    | some format =>
      dsimp only
      exact if_neg fun hne => hne (hrequested format hcase)
  have hset : setFormat s.session.format transport.media.channel.Format = .ok (some transport.media.format) := by
    unfold setFormat
    have hchannel : transport.media.channel.Format.FrameBytes = .ok n := hn
    rw [hchannel, h.unset hunbound]
    rfl
  unfold finishAudioBind binding
  dsimp only
  rw [hchecks]
  dsimp only
  rw [hset]
  dsimp only
  rw [if_neg (by simp [h.opened])]
  refine ⟨_, rfl, ?_⟩
  exact {
    opened := h.opened
    transport_open := hopen
    unconfigured := fun hunconfigured => absurd (hconfigured.symm.trans hunconfigured) Bool.noConfusion
    valid := fun _ => ⟨n, hn⟩
    not_binding := by simp
    unset := fun hunbound => absurd hunbound (by simp) }

theorem noFormat_invalid : ∃ err, noFormat.FrameBytes = .error err := ⟨_, if_pos (by decide)⟩

/-- `finishAudioBind` with a channel that has no format yet. -/
theorem finishAudioBind_unconfigured (h : Inv s) (hunbound : s.session.mediaState = .audioUnbound)
    (hunconfigured : s.transport.media.configured = false) (requested : Option MediaFormat) :
    ∃ t err, finishAudioBind (binding s i s.transport) i requested = (t, some err) ∧ Inv t ∧
      t.transport.media.closed = true := by
  obtain ⟨err, hformat⟩ := noFormat_invalid
  have hchecks : finishChecks s.transport.media.channel requested = .error (.invalidFormat err) := by
    unfold finishChecks
    rw [if_neg (show ¬ s.transport.media.channel.ID ≠ "audio" from fun hne => hne rfl)]
    have hchannel : s.transport.media.channel.Format = noFormat := h.unconfigured hunconfigured
    rw [hchannel, hformat]
  unfold finishAudioBind binding
  dsimp only
  rw [hchecks]
  refine ⟨_, _, rfl, ?_, rfl⟩
  exact {
    opened := h.opened
    transport_open := h.transport_open
    unconfigured := h.unconfigured
    valid := h.valid
    not_binding := by simp [closeWithError, abortAudioBind]
    unset := fun _ => h.unset hunbound }

/-! ## The calls -/

/-- What a call of `OpenAudio` needs to succeed. -/
structure CanOpen (s : State) (ctx : Option String) (format : MediaFormat) : Prop where
  live : ctx = none
  valid : ∃ n, format.FrameBytes = .ok n
  connected : s.session.connected = true
  unbound : s.session.mediaState = .audioUnbound
  not_closed : s.transport.media.closed = false
  unchanged : s.transport.media.configured = true → s.transport.media.format = format

theorem OpenAudio_of_canOpen (h : Inv s) (hc : CanOpen s ctx format) :
    ∃ t, OpenAudio s i ctx format = (t, none) ∧ Inv t := by
  obtain ⟨n, hn⟩ := hc.valid
  have hconfigure : s.transport.media.configure format =
      .ok { s.transport.media with configured := true, format := format } := by
    unfold StaticMediaChannel.configure
    rw [if_neg (by simp [hc.not_closed])]
    exact if_neg fun hconflict => hconflict.2 (hc.unchanged hconflict.1)
  have hopen : s.transport.OpenMedia ctx format =
      .ok { s.transport with media := { s.transport.media with configured := true, format := format } } := by
    unfold Transport.OpenMedia
    rw [hc.live, h.transport_open]
    dsimp only
    rw [hconfigure]
    simp only [h.transport_open]
  unfold OpenAudio
  rw [hn]
  dsimp only
  rw [beginAudioBind_of_unbound h hc.connected hc.unbound, hopen]
  exact finishAudioBind_ok h hc.unbound
    { s.transport with media := { s.transport.media with configured := true, format := format } }
    h.transport_open rfl ⟨n, hn⟩
    fun requested hrequested => Option.some.inj (Option.mem_def.mp hrequested)

theorem OpenAudio_of_not_canOpen (h : Inv s) (hc : ¬ CanOpen s ctx format) :
    ∃ t err, OpenAudio s i ctx format = (t, some err) ∧ Agree s t := by
  unfold OpenAudio
  cases hvalid : format.FrameBytes with
  | error err => exact ⟨s, _, rfl, agree_refl s⟩
  | ok n =>
    dsimp only
    by_cases hfree : s.session.connected = true ∧ s.session.mediaState = .audioUnbound
    · obtain ⟨hconnected, hunbound⟩ := hfree
      rw [beginAudioBind_of_unbound h hconnected hunbound]
      dsimp only
      have hrefused : ∃ err, s.transport.OpenMedia ctx format = .error err := by
        unfold Transport.OpenMedia
        cases hctx : ctx with
        | some err => exact ⟨err, rfl⟩
        | none =>
          rw [h.transport_open]
          dsimp only
          unfold StaticMediaChannel.configure
          by_cases hclosed : s.transport.media.closed = true
          · rw [if_pos hclosed]
            exact ⟨_, rfl⟩
          · rw [if_neg hclosed]
            by_cases hconflict : s.transport.media.configured = true ∧ s.transport.media.format ≠ format
            · rw [if_pos hconflict]
              exact ⟨_, rfl⟩
            · refine absurd ?_ hc
              exact {
                live := hctx
                valid := ⟨n, hvalid⟩
                connected := hconnected
                unbound := hunbound
                not_closed := by simpa using hclosed
                unchanged := fun hconfigured => by
                  by_contra hne
                  exact hconflict ⟨hconfigured, hne⟩ }
      obtain ⟨err, herr⟩ := hrefused
      rw [herr]
      exact ⟨_, _, rfl, agree_abort hunbound⟩
    · obtain ⟨err, herr⟩ := beginAudioBind_error (i := i) h hfree (some format)
      rw [herr]
      exact ⟨s, err, rfl, agree_refl s⟩

theorem opens_iff (h : Inv s) : s.Opens ctx format ↔ CanOpen s ctx format := by
  constructor
  · rintro ⟨i, hsucceeds⟩
    by_contra hc
    obtain ⟨t, err, hfails, -⟩ := OpenAudio_of_not_canOpen (i := i) h hc
    rw [hfails] at hsucceeds
    exact absurd hsucceeds (by simp)
  · intro hc
    obtain ⟨t, hsucceeds, -⟩ := OpenAudio_of_canOpen (i := 0) h hc
    exact ⟨0, by rw [hsucceeds]⟩

/-- What a call of `AcceptAudio` needs to be given the channel. -/
structure IsGiven (s : State) (ctx : Option String) : Prop where
  live : ctx = none
  connected : s.session.connected = true
  unbound : s.session.mediaState = .audioUnbound
  not_closed : s.transport.media.closed = false

theorem AcceptAudio_of_isGiven (h : Inv s) (hgiven : IsGiven s ctx) :
    AcceptAudio s i ctx = finishAudioBind (binding s i s.transport) i none := by
  have haccept : s.transport.AcceptMedia ctx = .ok s.transport := by
    unfold Transport.AcceptMedia
    rw [hgiven.live, h.transport_open]
    exact if_neg (by simp [hgiven.not_closed])
  unfold AcceptAudio
  rw [beginAudioBind_of_unbound h hgiven.connected hgiven.unbound, haccept]
  rfl

theorem AcceptAudio_of_not_isGiven (h : Inv s) (hgiven : ¬ IsGiven s ctx) :
    ∃ t err, AcceptAudio s i ctx = (t, some err) ∧ Agree s t := by
  unfold AcceptAudio
  by_cases hfree : s.session.connected = true ∧ s.session.mediaState = .audioUnbound
  · obtain ⟨hconnected, hunbound⟩ := hfree
    rw [beginAudioBind_of_unbound h hconnected hunbound]
    dsimp only
    have hrefused : ∃ err, s.transport.AcceptMedia ctx = .error err := by
      unfold Transport.AcceptMedia
      cases hctx : ctx with
      | some err => exact ⟨err, rfl⟩
      | none =>
        rw [h.transport_open]
        dsimp only
        by_cases hclosed : s.transport.media.closed = true
        · rw [if_pos hclosed]
          exact ⟨_, rfl⟩
        · exact absurd ⟨hctx, hconnected, hunbound, by simpa using hclosed⟩ hgiven
    obtain ⟨err, herr⟩ := hrefused
    rw [herr]
    exact ⟨_, _, rfl, agree_abort hunbound⟩
  · obtain ⟨err, herr⟩ := beginAudioBind_error (i := i) h hfree none
    rw [herr]
    exact ⟨s, err, rfl, agree_refl s⟩

/-- What a call can do: it succeeds, it fails and leaves what a later call reads, or it is an `AcceptAudio` that is given
a channel without a format, fails, and leaves the channel closed. -/
theorem run_cases (h : Inv s) (a : Nat × Call) :
    (AcceptsConfigured s a ∧ ((∃ t, a.2.run s a.1 = (t, none) ∧ Inv t) ∨
      ∃ t err, a.2.run s a.1 = (t, some err) ∧ Agree s t)) ∨
    (¬ AcceptsConfigured s a ∧ IsGiven s none ∧ s.transport.media.configured = false ∧
      ∃ t err, a.2.run s a.1 = (t, some err) ∧ Inv t ∧ t.transport.media.closed = true) := by
  obtain ⟨i, call⟩ := a
  cases call with
  | OpenAudio ctx format =>
    refine .inl ⟨fun haccept => absurd haccept (by simp), ?_⟩
    by_cases hc : CanOpen s ctx format
    · exact .inl (OpenAudio_of_canOpen h hc)
    · exact .inr (OpenAudio_of_not_canOpen h hc)
  | AcceptAudio ctx =>
    by_cases hgiven : IsGiven s ctx
    · obtain rfl := hgiven.live
      have hrun : Call.run s i (.AcceptAudio none) = finishAudioBind (binding s i s.transport) i none :=
        AcceptAudio_of_isGiven h hgiven
      by_cases hconfigured : s.transport.media.configured = true
      · refine .inl ⟨fun _ _ _ _ => hconfigured, .inl ?_⟩
        dsimp only
        rw [hrun]
        exact finishAudioBind_ok h hgiven.unbound _ h.transport_open hconfigured (h.valid hconfigured)
          fun _ hnone => absurd hnone (by simp)
      · refine .inr ⟨fun haccepts => ?_, hgiven, by simpa using hconfigured, ?_⟩
        · exact hconfigured (haccepts rfl hgiven.connected hgiven.unbound hgiven.not_closed)
        · dsimp only
          rw [hrun]
          exact finishAudioBind_unconfigured h hgiven.unbound (by simpa using hconfigured) none
    · refine .inl ⟨?_, .inr (AcceptAudio_of_not_isGiven h hgiven)⟩
      intro haccept hconnected hunbound hclosed
      obtain rfl := Call.AcceptAudio.inj haccept
      exact absurd ⟨rfl, hconnected, hunbound, hclosed⟩ hgiven

theorem inv_run (h : Inv s) (a : Nat × Call) : Inv (a.2.run s a.1).1 := by
  obtain ⟨-, ⟨t, hrun, ht⟩ | ⟨t, err, hrun, hagree⟩⟩ | ⟨-, -, -, t, err, hrun, ht, -⟩ := run_cases h a
  · rw [hrun]
    exact ht
  · rw [hrun]
    exact h.agree hagree
  · rw [hrun]
    exact ht

/-! ## The calls as threads -/

/-- `finishAudioBind` is what a call does after the transport has returned the channel. -/
theorem solo_finishAudioBind (s : State) (i : Nat) (requested : Option MediaFormat) :
    ∃ as, (Media.threads Nat Unit).solo i s.session (.negotiating requested)
        (.negotiated (.ok (some s.transport.media.channel)) :: as) =
      some ((finishAudioBind s i requested).1.session,
        .returned (some s.transport.media.channel) (finishAudioBind s i requested).2) := by
  unfold finishAudioBind
  dsimp only
  cases hchecks : finishChecks s.transport.media.channel requested with
  | error err =>
    refine ⟨[.abort, .close], ?_⟩
    simp [Threads.solo, Media.threads, Media.act, hchecks, closeWithError, abortAudioBind]
  | ok =>
    dsimp only
    cases hset : setFormat s.session.format s.transport.media.channel.Format with
    | error err =>
      refine ⟨[.setFormat, .abort, .close], ?_⟩
      simp [Threads.solo, Media.threads, Media.act, hchecks, hset, closeWithError, abortAudioBind]
    | ok format =>
      dsimp only
      by_cases hclosing : s.session.closing = true
      · refine ⟨[.setFormat, .finish, .close], ?_⟩
        simp [Threads.solo, Media.threads, Media.act, hchecks, hset, hclosing]
      · refine ⟨[.setFormat, .finish, .startPumps], ?_⟩
        simp [Threads.solo, Media.threads, Media.act, hchecks, hset, hclosing]

/-- `beginAudioBind` is what a call does before it calls the transport. -/
theorem solo_beginAudioBind {s session : Shared Nat Unit} {requested : Option MediaFormat}
    (hbegin : beginAudioBind s i requested = .ok session) (as : List (Media.CallAction Unit)) :
    (Media.threads Nat Unit).solo i s (.entered requested) (.check :: .transport :: .begin :: as) =
      (Media.threads Nat Unit).solo i session (.negotiating requested) as := by
  unfold beginAudioBind at hbegin
  by_cases hclosing : s.closing = true
  · simp [hclosing] at hbegin
  · by_cases hconnected : s.connected = false
    · simp [hclosing, hconnected] at hbegin
    · by_cases hunbound : s.mediaState = .audioUnbound
      · rw [if_neg hclosing, if_neg hconnected, if_pos hunbound] at hbegin
        obtain rfl := Except.ok.inj hbegin
        simp [Threads.solo, Media.threads, Media.act, hclosing, hconnected, hunbound]
      · simp [hclosing, hconnected, hunbound] at hbegin

/-- An error of `beginAudioBind` is what a call returns with. -/
theorem solo_beginAudioBind_error {s : Shared Nat Unit} {requested : Option MediaFormat} {err : Error}
    (hbegin : beginAudioBind s i requested = .error err) :
    ∃ as, (Media.threads Nat Unit).solo i s (.entered requested) as = some (s, .returned none (some err)) := by
  unfold beginAudioBind at hbegin
  by_cases hclosing : s.closing = true
  · rw [if_pos hclosing] at hbegin
    obtain rfl := Except.error.inj hbegin
    exact ⟨[.check], by simp [Threads.solo, Media.threads, Media.act, hclosing]⟩
  · rw [if_neg hclosing] at hbegin
    by_cases hconnected : s.connected = false
    · rw [if_pos hconnected] at hbegin
      obtain rfl := Except.error.inj hbegin
      exact ⟨[.check, .transport], by simp [Threads.solo, Media.threads, Media.act, hclosing, hconnected]⟩
    · rw [if_neg hconnected] at hbegin
      by_cases hunbound : s.mediaState = .audioUnbound
      · rw [if_pos hunbound] at hbegin
        exact absurd hbegin (by simp)
      · rw [if_neg hunbound] at hbegin
        obtain rfl := Except.error.inj hbegin
        exact ⟨[.check, .transport, .begin],
          by simp [Threads.solo, Media.threads, Media.act, hclosing, hconnected, hunbound]⟩

/-- A bind that the transport refuses. -/
theorem solo_refused (session : Shared Nat Unit) (requested : Option MediaFormat) (err : String) :
    (Media.threads Nat Unit).solo i session (.negotiating requested) [.negotiated (.error err), .abort] =
      some (abortAudioBind session, .returned none (some (.transport err))) := rfl

/-- Every call is a schedule of a call of the session with any transport, with the same result. -/
theorem solo_run (s : State) (i : Nat) (call : Call) :
    ∃ as channel, (Media.threads Nat Unit).solo i s.session .idle as =
      some ((call.run s i).1.session, .returned channel (call.run s i).2) := by
  cases call with
  | OpenAudio ctx format =>
    show ∃ as channel, _ = some ((OpenAudio s i ctx format).1.session, Media.Call.returned channel
      (OpenAudio s i ctx format).2)
    unfold OpenAudio
    cases hvalid : format.FrameBytes with
    | error err => exact ⟨[.OpenAudio format], none, by simp [Threads.solo, Media.threads, Media.act, hvalid]⟩
    | ok n =>
      have henter : ∀ as, (Media.threads Nat Unit).solo i s.session .idle (.OpenAudio format :: as) =
          (Media.threads Nat Unit).solo i s.session (.entered (some format)) as := by
        intro as
        simp [Threads.solo, Media.threads, Media.act, hvalid]
      dsimp only
      cases hbegin : beginAudioBind s.session i (some format) with
      | error err =>
        obtain ⟨as, hreturns⟩ := solo_beginAudioBind_error hbegin
        exact ⟨.OpenAudio format :: as, none, (henter as).trans hreturns⟩
      | ok session =>
        dsimp only
        cases hopen : s.transport.OpenMedia ctx format with
        | error err =>
          refine ⟨.OpenAudio format :: .check :: .transport :: .begin :: [.negotiated (.error err), .abort], none, ?_⟩
          rw [henter, solo_beginAudioBind hbegin]
          exact solo_refused session (some format) err
        | ok transport =>
          obtain ⟨as, hfinishes⟩ := solo_finishAudioBind ⟨session, transport⟩ i (some format)
          refine ⟨_, _, (henter _).trans ((solo_beginAudioBind hbegin _).trans hfinishes)⟩
  | AcceptAudio ctx =>
    show ∃ as channel, _ = some ((AcceptAudio s i ctx).1.session, Media.Call.returned channel
      (AcceptAudio s i ctx).2)
    unfold AcceptAudio
    have henter : ∀ as, (Media.threads Nat Unit).solo i s.session .idle (.AcceptAudio :: as) =
        (Media.threads Nat Unit).solo i s.session (.entered none) as := fun as => rfl
    cases hbegin : beginAudioBind s.session i none with
    | error err =>
      obtain ⟨as, hreturns⟩ := solo_beginAudioBind_error hbegin
      exact ⟨.AcceptAudio :: as, none, (henter as).trans hreturns⟩
    | ok session =>
      dsimp only
      cases haccept : s.transport.AcceptMedia ctx with
      | error err =>
        refine ⟨.AcceptAudio :: .check :: .transport :: .begin :: [.negotiated (.error err), .abort], none, ?_⟩
        rw [henter, solo_beginAudioBind hbegin]
        exact solo_refused session none err
      | ok transport =>
        obtain ⟨as, hfinishes⟩ := solo_finishAudioBind ⟨session, transport⟩ i none
        refine ⟨_, _, (henter _).trans ((solo_beginAudioBind hbegin _).trans hfinishes)⟩

/-! ## Failed calls -/

/-- The telephony format. -/
def telephony : MediaFormat :=
  { Encoding := "L16", SampleRate := 8000, BitDepth := 16, Channels := 1, PTime := 20000000 }

theorem telephony_valid : ∃ n, telephony.FrameBytes = .ok n := ⟨320, by decide⟩

theorem retryable_iff (h : Inv s) (a : Nat × Call) : Retryable s a ↔ AcceptsConfigured s a := by
  obtain ⟨hconfigured, hcases⟩ | ⟨hunconfigured, hgiven, hformat, t, err, hrun, ht, hclosed⟩ := run_cases h a
  · refine ⟨fun _ => hconfigured, fun _ hfails ctx format hopens => ?_⟩
    obtain ⟨t, hrun, -⟩ | ⟨t, err, hrun, hagree⟩ := hcases
    · rw [hrun] at hfails
      exact absurd rfl hfails
    · rw [hrun]
      have hc := (opens_iff h).mp hopens
      refine (opens_iff (h.agree hagree)).mpr ?_
      exact {
        live := hc.live
        valid := hc.valid
        connected := hagree.connected.trans hc.connected
        unbound := hagree.mediaState.trans hc.unbound
        not_closed := by
          rw [hagree.transport]
          exact hc.not_closed
        unchanged := by
          rw [hagree.transport]
          exact hc.unchanged }
  · refine ⟨fun hretryable => ?_, fun hconfigured => absurd hconfigured hunconfigured⟩
    have hbefore : s.Opens none telephony := (opens_iff h).mpr {
      live := rfl
      valid := telephony_valid
      connected := hgiven.connected
      unbound := hgiven.unbound
      not_closed := hgiven.not_closed
      unchanged := fun hconfigured => absurd (hformat.symm.trans hconfigured) Bool.false_ne_true }
    have hafter := hretryable (by simp [hrun]) none telephony hbefore
    rw [hrun] at hafter
    have hopen := ((opens_iff ht).mp hafter).not_closed
    exact absurd (hclosed.symm.trans hopen) Bool.noConfusion

/-- In every sequence of calls on an open session, every failed call leaves what would have succeeded before it, exactly
if every `AcceptAudio` that is given the channel finds it configured. -/
theorem retryable_iff_configured {s : State} (hstart : machine.Start s) (run : List (Nat × Call)) :
    machine.Along Retryable s run ↔ machine.Along AcceptsConfigured s run := by
  refine Machine.along_iff ?_ (fun s a h => retryable_iff h a) (inv_start hstart)
  intro s a t h hstep
  obtain rfl := Option.some.inj hstep
  exact inv_run h a

/-- A session over a connection for which no audio format is configured. -/
def unconfiguredSession : State where
  session := {
    connected := true, closing := false, mediaState := .audioUnbound, media := none, format := none
    shutdown := .running, binder := none, closed := [], bound := [], pumps := [] }
  transport := { closedError := none, media := { format := noFormat, configured := false, closed := false } }

/-- An `OpenAudio` with a cancelled context, one that succeeds, and an `AcceptAudio`. -/
def openedRun : List (Nat × Call) :=
  [(0, .OpenAudio (some "context canceled") telephony), (1, .OpenAudio none telephony), (2, .AcceptAudio none)]

theorem openedRun_retryable : machine.Along Retryable unconfiguredSession openedRun :=
  (retryable_iff_configured ⟨rfl, rfl, rfl, noFormat, rfl⟩ openedRun).mpr (by decide)

/-- An `AcceptAudio` fails, and the `OpenAudio` that would have succeeded before it finds the channel closed. -/
theorem accepted_not_retryable :
    machine.Start unconfiguredSession ∧ (OpenAudio unconfiguredSession 1 none telephony).2 = none ∧
      (AcceptAudio unconfiguredSession 0 none).2 ≠ none ∧
      (OpenAudio (AcceptAudio unconfiguredSession 0 none).1 1 none telephony).2 = some (.transport eof) := by
  refine ⟨⟨rfl, rfl, rfl, noFormat, rfl⟩, ?_⟩
  decide

end Rtvbp.Go.StaticMedia
