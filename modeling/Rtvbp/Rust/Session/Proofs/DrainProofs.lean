import Rtvbp.Rust.Session.Proofs.WorkersProofs

/-!
# The session drains its inbox before it fails the pending requests

Without a local stop the control reader is the first to return, when its inbox is closed and empty. Until
then nobody has stopped the session and no request has been failed, and from then on every message that the
read pump delivered is handled.
-/

namespace Rtvbp.Rust.Workers

open Rtvbp.Lib Rtvbp.Rust.WebSocket
open Rtvbp.Envelope.Rust (ControlFrame)

variable {ι β : Type} {keepalive : Run.KeepalivePolicy} {encode : ControlFrame → Except Error β}
  {decode : Bytes → Option ControlFrame} {s t : State ι}

/-! ## The messages on their way -/

/-- The messages of the read pump on their way to their requests. -/
structure Flow (decode : Bytes → Option ControlFrame) (s : State ι) : Prop where
  wired : Pending.Wired s.calls.shared
  fresh : ∀ i, (s.calls.locals i).fresh → Pending.Fresh i s.calls.shared
  resolving : s.calls.shared.taken ≠ none → s.reader = .resolving
  fifo : s.delivered.map Prod.fst =
    s.handled.map Prod.fst ++ (s.reader.held ++ s.transport.control.items)
  /-- A request that was pending when its response was delivered has its entry only until that is handled. -/
  awaiting : ∀ data i, (data, some i) ∈ s.delivered → ¬ (s.calls.locals i).fresh ∧
    ∀ id, (id, i) ∈ s.calls.shared.pending → data ∈ s.reader.held ++ s.transport.control.items ∧
      ∃ frame, decode data = some frame ∧ frame.kind = .response ∧ frame.correlationId = id
  completed : ∀ data i frame, (data, some i) ∈ s.handled → decode data = some frame →
    s.calls.shared.Responded i frame
  kept : ∀ data i, (data, some i) ∈ s.delivered → s.calls.shared.channel i ≠ .sent .shutdown
  unswept : s.swept = false → ∀ i, s.calls.shared.channel i ≠ .sent .shutdown

/-- The message is a response to the call. -/
theorem awaited_eq_some {data : Bytes} {i : ι} (h : s.awaited decode data = some i) :
    ∃ frame, decode data = some frame ∧ frame.kind = .response ∧
      s.calls.shared.pending.lookup frame.correlationId = some i := by
  unfold State.awaited at h
  split at h
  · rename_i frame hdecode
    split_ifs at h with hkind
    exact ⟨frame, hdecode, hkind, h⟩
  · cases h

/-- What the other steps leave of the requests. -/
structure Kept (s t : State ι) : Prop where
  wired : Pending.Wired t.calls.shared
  fresh : ∀ i, (t.calls.locals i).fresh →
    (s.calls.locals i).fresh ∧ Pending.Fresh i t.calls.shared
  leaves : ∀ i, ¬ (s.calls.locals i).fresh → Pending.Leaves i s.calls.shared t.calls.shared
  shutdown : ∀ i, t.calls.shared.channel i = .sent .shutdown → s.calls.shared.channel i = .sent .shutdown

namespace Flow

theorem initial : Flow decode (initial : State ι) where
  wired := ⟨List.nodup_nil, nofun, nofun, nofun⟩
  fresh _ _ := ⟨nofun, rfl, nofun⟩
  resolving h := absurd rfl h
  fifo := rfl
  awaiting := nofun
  completed := nofun
  kept := nofun
  unswept _ _ := nofun

/-- A step that concerns no entry and no channel. -/
theorem keeps (h : Flow decode s) (hlocals : t.calls.locals = s.calls.locals)
    (hpending : t.calls.shared.pending = s.calls.shared.pending)
    (hchannel : t.calls.shared.channel = s.calls.shared.channel)
    (htaken : t.calls.shared.taken = s.calls.shared.taken) : Kept s t := by
  have hleaves : ∀ i, Pending.Leaves i s.calls.shared t.calls.shared := fun i =>
    .of_eq (by rw [hpending]; exact fun _ hmem => hmem) (by rw [hchannel]) htaken
  refine ⟨⟨?_, ?_, ?_, ?_⟩, ?_, fun i _ => hleaves i, fun i => (hleaves i).shutdown⟩
  · unfold Pending.Inv
    rw [hpending]
    exact h.wired.keys
  · rw [hpending]
    exact h.wired.single
  · rw [hpending, hchannel]
    exact h.wired.channel
  · unfold Pending.Absent
    rw [htaken, hpending, hchannel]
    exact h.wired.taken
  · rw [hlocals]
    exact fun i hfresh => ⟨hfresh, (hleaves i).fresh (h.fresh i hfresh)⟩

/-- Later states of the requests, while the messages stay where they are. -/
theorem later (h : Flow decode s) (hkept : Kept s t) (hswept : t.swept = s.swept)
    (hresolving : t.calls.shared.taken ≠ none → t.reader = .resolving)
    (hdelivered : t.delivered = s.delivered) (hhandled : t.handled = s.handled)
    (hinbox : t.reader.held ++ t.transport.control.items = s.reader.held ++ s.transport.control.items) :
    Flow decode t := by
  refine ⟨hkept.wired, fun i hi => (hkept.fresh i hi).2, hresolving, ?_, ?_, ?_, ?_, ?_⟩
  · rw [hdelivered, hhandled, hinbox]
    exact h.fifo
  · intro data i hmem
    rw [hdelivered] at hmem
    obtain ⟨hreg, hentry⟩ := h.awaiting data i hmem
    refine ⟨fun hfresh => hreg (hkept.fresh i hfresh).1, fun id hid => ?_⟩
    rw [hinbox]
    exact hentry id ((hkept.leaves i hreg).pending id hid)
  · intro data i frame hmem hdecode
    rw [hhandled] at hmem
    have hresponded := h.completed data i frame hmem hdecode
    have hreg : ¬ (s.calls.locals i).fresh := fun hfresh => (h.fresh i hfresh).not_responded hresponded
    exact (hkept.leaves i hreg).responded frame hresponded
  · intro data i hmem hshutdown
    rw [hdelivered] at hmem
    exact h.kept data i hmem (hkept.shutdown i hshutdown)
  · intro hs i hshutdown
    exact h.unswept (hswept.symm.trans hs) i (hkept.shutdown i hshutdown)

/-- The read pump delivers a message. -/
theorem deliver (h : Flow decode s) (data : Bytes) {u : Transport}
    (hu : u.control = s.transport.control.push data) :
    Flow decode { s with transport := u, delivered := s.deliver decode data } := by
  by_cases hclosed : s.transport.control.closed.isSome
  · refine h.later (h.keeps rfl rfl rfl rfl) rfl h.resolving ?_ rfl ?_
    · simp [State.deliver, hclosed]
    · simp [hu, Mailbox.push_eq_of_closed hclosed]
  · have hdeliver : s.deliver decode data = s.delivered ++ [(data, s.awaited decode data)] := by
      simp [State.deliver, hclosed]
    have hpush : u.control.items = s.transport.control.items ++ [data] := by
      rw [hu, Mailbox.push_items_of_open hclosed]
    have hpending : ∀ i, s.awaited decode data = some i → ∃ frame, decode data = some frame ∧
        frame.kind = .response ∧ (frame.correlationId, i) ∈ s.calls.shared.pending := by
      intro i hawaited
      obtain ⟨frame, hdecode, hkind, hlookup⟩ := awaited_eq_some hawaited
      exact ⟨frame, hdecode, hkind, h.wired.keys.lookup_iff.mp hlookup⟩
    refine ⟨h.wired, h.fresh, h.resolving, ?_, ?_, h.completed, ?_, h.unswept⟩
    · simp only [hdeliver, hpush, List.map_append, List.map_cons, List.map_nil, h.fifo, List.append_assoc]
    · intro data' i hmem
      simp only [hdeliver, List.mem_append, List.mem_singleton, Prod.mk.injEq] at hmem
      simp only [hpush, ← List.append_assoc]
      rcases hmem with hmem | ⟨rfl, hawaited⟩
      · obtain ⟨hreg, hentry⟩ := h.awaiting data' i hmem
        refine ⟨hreg, fun id hid => ?_⟩
        obtain ⟨hinbox, hframe⟩ := hentry id hid
        exact ⟨List.mem_append_left _ hinbox, hframe⟩
      · obtain ⟨frame, hdecode, hkind, hentry⟩ := hpending i hawaited.symm
        refine ⟨fun hfresh => (h.fresh i hfresh).absent _ hentry, fun id hid => ⟨by simp, ?_⟩⟩
        exact ⟨frame, hdecode, hkind, h.wired.single i _ _ hentry hid⟩
    · intro data' i hmem
      simp only [hdeliver, List.mem_append, List.mem_singleton, Prod.mk.injEq] at hmem
      rcases hmem with hmem | ⟨rfl, hawaited⟩
      · exact h.kept data' i hmem
      · obtain ⟨frame, -, -, hentry⟩ := hpending i hawaited.symm
        rw [h.wired.channel i _ hentry]
        nofun

/-- The reader handles the message that it holds, and takes the entry of the request that it answers. -/
theorem handle (h : Flow decode s) {data : Bytes} (hreader : s.reader = .holding data) (hkept : Kept s t)
    (hswept : t.swept = s.swept) (hresolving : t.calls.shared.taken ≠ none → t.reader = .resolving)
    (hheld : t.reader.held = []) (hcontrol : t.transport.control = s.transport.control)
    (hdelivered : t.delivered = s.delivered)
    (hhandled : t.handled = s.handled ++ [(data, s.awaited decode data)])
    (hresponse : ∀ i frame, s.awaited decode data = some i → decode data = some frame →
      t.calls.shared.Responded i frame ∧ Pending.Absent i t.calls.shared) : Flow decode t := by
  have hfifo := h.fifo
  refine ⟨hkept.wired, fun i hi => (hkept.fresh i hi).2, hresolving, ?_, ?_, ?_, ?_, ?_⟩
  · rw [hreader] at hfifo
    rw [hdelivered, hhandled, hheld, hcontrol, hfifo]
    simp [ReaderPc.held]
  · intro data' i hmem
    rw [hdelivered] at hmem
    obtain ⟨hreg, hentry⟩ := h.awaiting data' i hmem
    refine ⟨fun hfresh => hreg (hkept.fresh i hfresh).1, fun id hid => ?_⟩
    have hold := (hkept.leaves i hreg).pending id hid
    obtain ⟨hinbox, frame, hdecode, hkind, rfl⟩ := hentry id hold
    refine ⟨?_, frame, hdecode, hkind, rfl⟩
    rw [hheld, hcontrol, List.nil_append]
    rw [hreader] at hinbox
    rcases List.mem_append.mp hinbox with hheld' | hitems
    · -- its own response was the one that the reader held
      obtain rfl : data' = data := by simpa [ReaderPc.held] using hheld'
      have hawaited : s.awaited decode data' = some i := by
        simp only [State.awaited, hdecode, hkind, if_true]
        exact h.wired.keys.lookup_iff.mpr hold
      exact absurd hid ((hresponse i frame hawaited hdecode).2 _)
    · exact hitems
  · intro data' i frame hmem hdecode
    simp only [hhandled, List.mem_append, List.mem_singleton, Prod.mk.injEq] at hmem
    rcases hmem with hmem | ⟨rfl, hawaited⟩
    · have hresponded := h.completed data' i frame hmem hdecode
      have hreg : ¬ (s.calls.locals i).fresh := fun hfresh =>
        (h.fresh i hfresh).not_responded hresponded
      exact (hkept.leaves i hreg).responded frame hresponded
    · exact (hresponse i frame hawaited.symm hdecode).1
  · intro data' i hmem hshutdown
    rw [hdelivered] at hmem
    exact h.kept data' i hmem (hkept.shutdown i hshutdown)
  · intro hs i hshutdown
    exact h.unswept (hswept.symm.trans hs) i (hkept.shutdown i hshutdown)

variable [DecidableEq ι]

/-- `fail_pending` when every message is handled. -/
theorem failPending (h : Flow decode s) (hinbox : s.reader.held ++ s.transport.control.items = []) :
    Flow decode s.failPending := by
  have habsent : ∀ data i, (data, some i) ∈ s.delivered → Pending.Absent i s.calls.shared := by
    intro data i hmem id hid
    obtain ⟨hdata, -⟩ := (h.awaiting data i hmem).2 id hid
    rw [hinbox] at hdata
    cases hdata
  rcases failPending_cases (s := s) with heq | ⟨shared, henv, heq⟩
  · rw [heq]
    exact ⟨h.wired, h.fresh, h.resolving, h.fifo, h.awaiting, h.completed, h.kept, nofun⟩
  · obtain ⟨hwired, htaken, hpending, hcalls⟩ := h.wired.failPending henv
    rw [heq]
    refine ⟨hwired, ?_, ?_, h.fifo, ?_, ?_, ?_, nofun⟩
    · exact fun i hi => (hcalls i).1 (h.fresh i hi)
    · intro hne
      exact h.resolving (by rwa [htaken] at hne)
    · intro data i hmem
      refine ⟨(h.awaiting data i hmem).1, fun id hid => ?_⟩
      rw [hpending] at hid
      cases hid
    · intro data i frame hmem hdecode
      exact (hcalls i).2.1 frame (h.completed data i frame hmem hdecode)
    · intro data i hmem
      dsimp only
      rw [(hcalls i).2.2 (habsent data i hmem)]
      exact h.kept data i hmem

/-- A step of a request. -/
theorem keeps_call (h : Flow decode s) {i : ι} {a : Pending.CallAction} {shared : Pending.Shared ι}
    {call : Pending.Call}
    (hact : Pending.act encode i s.calls.shared (s.calls.locals i) a = some (shared, call))
    (hcalls : t.calls = ⟨shared, Function.update s.calls.locals i call⟩) :
    Kept s t ∧ t.calls.shared.taken = s.calls.shared.taken := by
  obtain ⟨hwired, htaken, hown, hshutdown, hleaves⟩ := h.wired.act (h.fresh i) hact
  rw [hcalls]
  refine ⟨?_, htaken⟩
  constructor <;> rw [hcalls] <;> dsimp only
  · exact hwired
  · intro j hfresh
    by_cases hji : j = i
    · subst hji
      rw [Function.update_self] at hfresh
      exact hown hfresh
    · rw [Function.update_of_ne hji] at hfresh
      exact ⟨hfresh, (hleaves j fun heq => absurd heq hji).fresh (h.fresh j hfresh)⟩
  · intro j hreg
    refine hleaves j ?_
    rintro rfl
    exact hreg
  · intro j hs
    by_cases hji : j = i
    · subst hji
      exact hshutdown hs
    · exact (hleaves j fun heq => absurd heq hji).shutdown hs

end Flow

/-! ## Who stops the session -/

/-- What holds in every state of a run in which nobody stops the session locally: the reader has returned
with the end of its inbox, or nobody has stopped the session. -/
structure Drain (decode : Bytes → Option ControlFrame) (s : State ι) : Prop where
  flow : Flow decode s
  orderly : s.transport.Orderly
  once : s.run.StartsOnce
  spawned : s.reader ≠ .off → s.run.pc.connected?
  ended : ∀ result, s.reader = .ended result →
    s.transport.control = ⟨[], some .orderly⟩ ∧ result = .error .closed
  quiet : (∀ result, s.reader ≠ .ended result) →
    Run.Quiet s.run ∧ s.dispatcher ≠ .returned ∧ s.swept = false

namespace Drain

theorem initial : Drain decode (initial : State ι) where
  flow := Flow.initial
  orderly := .initial
  once _ := rfl
  spawned h := absurd rfl h
  ended := nofun
  quiet _ := ⟨.initial, nofun, rfl⟩

/-- Once the reader has returned, no message is on its way. -/
theorem inbox_nil (h : Drain decode s) {result : Except Run.Error Unit} (hreader : s.reader = .ended result) :
    s.reader.held ++ s.transport.control.items = [] := by
  rw [hreader, (h.ended result hreader).1]
  rfl

/-- A run in which the reader is the first to return drains the inbox. -/
theorem drained (h : Drain decode s) : Drained decode s := by
  have hswept : s.swept = true → ∃ result, s.reader = .ended result := by
    intro hswept
    by_contra hne
    have hquiet := h.quiet fun result hr => hne ⟨result, hr⟩
    rw [hswept] at hquiet
    cases hquiet.2.2
  refine ⟨fun hs => ?_, h.flow.completed, h.flow.kept, fun i hshutdown => ?_⟩
  · obtain ⟨result, hreader⟩ := hswept hs
    have hfifo := h.flow.fifo
    rw [h.inbox_nil hreader, List.append_nil] at hfifo
    exact hfifo.symm
  · cases hs : s.swept with
    | false => exact absurd hshutdown (h.flow.unswept hs i)
    | true =>
      obtain ⟨result, hreader⟩ := hswept hs
      exact ⟨⟨result, hreader⟩, (h.ended result hreader).1⟩

theorem untouched (h : Drain decode s) (hu : Untouched s t) : Drain decode t := by
  refine ⟨?_, hu.orderly, ?_, ?_, ?_, ?_⟩
  · refine h.flow.later (h.flow.keeps ?_ ?_ ?_ ?_) hu.swept ?_ hu.delivered hu.handled ?_
    · rw [hu.calls]
    · rw [hu.calls]
    · rw [hu.calls]
    · rw [hu.calls]
    · rw [hu.calls, hu.reader]
      exact h.flow.resolving
    · rw [hu.reader, hu.control]
  · rw [hu.run]
    exact h.once
  · rw [hu.run, hu.reader]
    exact h.spawned
  · rw [hu.reader, hu.control]
    exact h.ended
  · rw [hu.reader, hu.run, hu.swept]
    intro hreader
    obtain ⟨hquiet, hdispatcher, hs⟩ := h.quiet hreader
    refine ⟨hquiet, fun hreturned => ?_, hs⟩
    rcases hu.dispatcher hreturned with hret | hstop | hclosing
    · exact hdispatcher hret
    · rw [hquiet.requested] at hstop
      cases hstop
    · rw [hquiet.closing] at hclosing
      cases hclosing

/-- The socket pushes into the control inbox or closes it, and never an inbox that is closed. -/
theorem socket [DecidableEq ι] (h : Drain decode s) {a : SocketAction}
    (hsocket : OrderlySocket (.socket a : Action ι))
    (hstep : step keepalive encode decode s (.socket a) = some t) : Drain decode t := by
  obtain ⟨u, hu, rfl⟩ := Option.map_eq_some_iff.mp hstep
  have horderly : u.Orderly :=
    h.orderly.step (by rintro error rfl; exact hsocket) (by rintro message rfl; exact hsocket) hu
  have hended : ∀ result, s.reader = .ended result →
      u.control = ⟨[], some .orderly⟩ ∧ result = .error .closed := by
    intro result hreader
    obtain ⟨hcontrol, hresult⟩ := h.ended result hreader
    have hclosed : s.transport.control.closed.isSome := by simp [hcontrol]
    refine ⟨?_, hresult⟩
    rcases Transport.step_control hu with ⟨data, -, hpush⟩ | ⟨-, hsame | ⟨terminal, hclose⟩⟩
    · rw [hpush, Mailbox.push_eq_of_closed hclosed, hcontrol]
    · rw [hsame, hcontrol]
    · rw [hclose, Mailbox.close_eq_of_closed hclosed, hcontrol]
  rcases Transport.step_control hu with ⟨data, rfl, hpush⟩ | ⟨hne, hcontrol⟩
  · exact ⟨h.flow.deliver data hpush, horderly, h.once, h.spawned, hended, h.quiet⟩
  · have hitems : u.control.items = s.transport.control.items := by
      rcases hcontrol with hsame | ⟨terminal, hclose⟩
      · rw [hsame]
      · rw [hclose, Mailbox.close_items]
    have hflow : Flow decode { s with transport := u } :=
      h.flow.later (h.flow.keeps rfl rfl rfl rfl) rfl h.flow.resolving rfl rfl (by rw [hitems])
    have hdrain : Drain decode { s with transport := u } :=
      ⟨hflow, horderly, h.once, h.spawned, hended, h.quiet⟩
    cases a with
    | text data => exact absurd rfl (hne data)
    | _ => exact hdrain

/-- The reader goes on: it has not returned before and does not now. -/
theorem of_reading (h : Drain decode s) (hflow : Flow decode t) (hcontrol : t.transport.Orderly)
    (hrun : t.run = s.run) (hdispatcher : t.dispatcher = s.dispatcher) (hswept : t.swept = s.swept)
    (hbefore : ∀ result, s.reader ≠ .ended result) (hoff : s.reader ≠ .off)
    (hafter : ∀ result, t.reader ≠ .ended result) : Drain decode t := by
  refine ⟨hflow, hcontrol, ?_, ?_, fun result hr => absurd hr (hafter result), ?_⟩
  · rw [hrun]
    exact h.once
  · rw [hrun]
    exact fun _ => h.spawned hoff
  · rw [hrun, hdispatcher, hswept]
    exact fun _ => h.quiet hbefore

/-- The reader handles the message that it holds. -/
theorem handleText (h : Drain decode s) {data : Bytes} (hreader : s.reader = .holding data) :
    Drain decode (s.handleText decode data) := by
  have hbefore : ∀ result, s.reader ≠ .ended result := by simp [hreader]
  have hoff : s.reader ≠ .off := by simp [hreader]
  have hnone : s.calls.shared.taken = none := by
    by_contra hne
    simp [h.flow.resolving hne] at hreader
  obtain ⟨-, hdispatcher, -⟩ := h.quiet hbefore
  have hhandled : s.handled ++ [(data, s.awaited decode data)] =
    s.handled ++ [(data, s.awaited decode data)] := rfl
  -- a message that answers no request
  have hskip : ∀ {u : State ι}, u.calls = s.calls → u.run = s.run → u.swept = s.swept →
      u.dispatcher = s.dispatcher → u.transport = s.transport → u.reader = .receiving →
      u.delivered = s.delivered → u.handled = s.handled ++ [(data, s.awaited decode data)] →
      s.awaited decode data = none → Drain decode u := by
    intro u hcalls hrun hswept hdispatch htransport hreceiving hdelivered hhandled hawaited
    refine h.of_reading ?_ (by rw [htransport]; exact h.orderly) hrun hdispatch hswept hbefore hoff
      (by simp [hreceiving])
    refine h.flow.handle hreader (h.flow.keeps ?_ ?_ ?_ ?_) hswept ?_ (by rw [hreceiving]; rfl)
      (by rw [htransport]) hdelivered hhandled ?_
    · rw [hcalls]
    · rw [hcalls]
    · rw [hcalls]
    · rw [hcalls]
    · rw [hcalls, hnone]
      exact fun hne => absurd rfl hne
    · intro i frame hsome
      rw [hawaited] at hsome
      cases hsome
  unfold State.handleText
  dsimp only
  split
  · rename_i hdecode
    exact hskip rfl rfl rfl rfl rfl rfl rfl rfl (by simp [State.awaited, hdecode])
  · rename_i frame hdecode
    split_ifs with hkind
    · split
      · rename_i i hlookup
        obtain ⟨hwired, habsent, hleaves⟩ := h.flow.wired.take hnone hlookup
        refine h.of_reading ?_ h.orderly rfl rfl rfl hbefore hoff (by simp)
        refine h.flow.handle hreader ⟨hwired, ?_, fun i _ => hleaves i, fun i => (hleaves i).shutdown⟩ rfl
          (fun _ => rfl) rfl rfl rfl rfl ?_
        · exact fun i hfresh => ⟨hfresh, (hleaves i).fresh (h.flow.fresh i hfresh)⟩
        · intro i' frame' hawaited hdecode'
          obtain rfl := Option.some.inj (hdecode.symm.trans hdecode')
          have hsome : s.awaited decode data = some i := by
            simp only [State.awaited, hdecode, hkind, if_true]
            exact hlookup
          obtain rfl := Option.some.inj (hsome.symm.trans hawaited)
          exact ⟨.inl rfl, habsent⟩
      · rename_i hlookup
        refine hskip rfl rfl rfl rfl rfl rfl rfl rfl ?_
        simp only [State.awaited, hdecode, hkind, if_true]
        exact hlookup
    · have hawaited : s.awaited decode data = none := by simp [State.awaited, hdecode, hkind]
      split
      · rename_i hreturned
        exact absurd hreturned hdispatcher
      · exact hskip rfl rfl rfl rfl rfl rfl rfl rfl hawaited

variable [DecidableEq ι]

theorem readerStep (h : Drain decode s) {a : ReaderAction} (hstep : s.readerStep decode a = some t) :
    Drain decode t := by
  cases a with
  | recv =>
    simp only [State.readerStep] at hstep
    split at hstep <;> simp only [reduceCtorEq, Option.some.injEq] at hstep
    rename_i data rest hreader hitems
    subst hstep
    refine h.of_reading ?_ (h.orderly.of_eq rfl rfl rfl) rfl rfl rfl (by simp [hreader])
      (by simp [hreader]) (by simp)
    refine h.flow.later (h.flow.keeps rfl rfl rfl rfl) rfl ?_ rfl rfl ?_
    · intro hne
      simp [h.flow.resolving hne] at hreader
    · simp [ReaderPc.held, hreader, hitems]
  | recvEnds =>
    simp only [State.readerStep] at hstep
    split at hstep <;> simp only [reduceCtorEq, Option.some.injEq] at hstep
    rename_i terminal hreader hcontrol
    have hterminal : terminal = .orderly := h.orderly.control terminal (by rw [hcontrol])
    subst hterminal hstep
    refine ⟨?_, h.orderly, h.once, fun _ => h.spawned (by simp [hreader]), ?_, ?_⟩
    · refine h.flow.later (h.flow.keeps rfl rfl rfl rfl) rfl ?_ rfl rfl ?_
      · intro hne
        simp [h.flow.resolving hne] at hreader
      · simp [ReaderPc.held, hreader]
    · intro result hr
      exact ⟨hcontrol, (ReaderPc.ended.inj hr).symm⟩
    · exact fun hne => absurd rfl (hne _)
  | handle =>
    simp only [State.readerStep] at hstep
    split at hstep <;> simp only [reduceCtorEq, Option.some.injEq] at hstep
    rename_i data hreader
    subst hstep
    exact h.handleText hreader
  | deliver =>
    simp only [State.readerStep] at hstep
    split at hstep
    · rename_i hreader
      obtain ⟨shared, henv, rfl⟩ := Option.map_eq_some_iff.mp hstep
      obtain ⟨hwired, htaken, hleaves⟩ := h.flow.wired.deliver henv
      refine h.of_reading ?_ h.orderly rfl rfl rfl (by simp [hreader]) (by simp [hreader]) (by simp)
      refine h.flow.later ⟨hwired, ?_, fun i _ => hleaves i, fun i => (hleaves i).shutdown⟩ rfl ?_ rfl rfl ?_
      · exact fun i hfresh => ⟨hfresh, (hleaves i).fresh (h.flow.fresh i hfresh)⟩
      · exact fun hne => absurd htaken hne
      · simp [ReaderPc.held, hreader]
    · cases hstep

omit [DecidableEq ι] in
/-- A session that is not quiet has been stopped by its reader. -/
theorem reader_ended (h : Drain decode s) (hquiet : ¬ Run.Quiet s.run) :
    ∃ result, s.reader = .ended result := by
  by_contra hne
  exact hquiet (h.quiet fun result hr => hne ⟨result, hr⟩).1

omit [DecidableEq ι] in
/-- A step of `run` that leaves the requests alone. -/
theorem setRun (h : Drain decode s) {a : Run.Action} {run : Run.State}
    (hquiet : (∀ result, s.reader ≠ .ended result) → Run.Quiet run)
    (hrun : Run.step keepalive s.run a = some run) : Drain decode (s.setRun run) := by
  obtain ⟨honce, hconnected⟩ := h.once.step hrun
  refine ⟨?_, h.orderly, honce, fun hoff => hconnected (h.spawned hoff), h.ended, ?_⟩
  · exact h.flow.later (h.flow.keeps rfl rfl rfl rfl) rfl h.flow.resolving rfl rfl rfl
  · intro hreader
    exact ⟨hquiet hreader, (h.quiet hreader).2⟩

omit [DecidableEq ι] in
/-- `run` spawns its tasks when there are none. -/
theorem spawn (h : Drain decode s) {run : Run.State}
    (hrun : Run.step keepalive s.run (.connect (.ok ())) = some run)
    (hnext : (∀ result, s.reader ≠ .ended result) → Run.Quiet run) :
    Drain decode ((s.setRun run).spawn keepalive) := by
  have hpc : s.run.pc.connected? = false ∧ run.pc.connected? = true := by
    simp only [Run.step] at hrun
    split at hrun <;> simp only [reduceCtorEq, Option.some.injEq] at hrun
    · rename_i hconnecting _
      subst hrun
      exact ⟨by rw [hconnecting]; rfl, rfl⟩
    · contradiction
  have hoff : s.reader = .off := by
    by_contra hne
    rw [h.spawned hne] at hpc
    cases hpc.1
  obtain ⟨-, -, hs⟩ := h.quiet (by simp [hoff])
  refine ⟨?_, h.orderly.of_eq rfl rfl rfl, (h.once.step hrun).1, fun _ => hpc.2,
    by simp [State.spawn], fun _ => ?_⟩
  · refine h.flow.later (h.flow.keeps rfl rfl rfl rfl) rfl ?_ rfl rfl ?_
    · intro hne
      simp [h.flow.resolving hne] at hoff
    · simp [State.spawn, State.setRun, ReaderPc.held, hoff]
  · exact ⟨hnext (by simp [hoff]), by simp [State.spawn], hs⟩

/-- `fail_pending` after the reader has returned. -/
theorem failPending (h : Drain decode s) {result : Except Run.Error Unit}
    (hreader : s.reader = .ended result) : Drain decode s.failPending :=
  ⟨h.flow.failPending (h.inbox_nil hreader), h.orderly, h.once, h.spawned, h.ended,
    fun hne => absurd hreader (hne result)⟩

/-- A step of a request. -/
theorem callStep (h : Drain decode s) {i : ι} {a : Pending.CallAction} {shared : Pending.Shared ι}
    {call : Pending.Call}
    (hact : Pending.act encode i s.calls.shared (s.calls.locals i) a = some (shared, call))
    (ht : t = { s with calls := ⟨shared, Function.update s.calls.locals i call⟩ } ∨
      ∃ u, s.transport.enqueue .text = some u ∧
        t = { s with calls := ⟨shared, Function.update s.calls.locals i call⟩, transport := u }) :
    Drain decode t := by
  have hdrain : ∀ {u : Transport}, u.Orderly → u.control = s.transport.control →
      Drain decode { s with calls := ⟨shared, Function.update s.calls.locals i call⟩, transport := u } := by
    intro u horderly hcontrol
    obtain ⟨hkept, htaken⟩ := h.flow.keeps_call hact (t := { s with
      calls := ⟨shared, Function.update s.calls.locals i call⟩, transport := u }) rfl
    refine ⟨?_, horderly, h.once, h.spawned, ?_, h.quiet⟩
    · refine h.flow.later hkept rfl ?_ rfl rfl ?_
      · rw [htaken]
        exact h.flow.resolving
      · dsimp only
        rw [hcontrol]
    · dsimp only
      rw [hcontrol]
      exact h.ended
  rcases ht with rfl | ⟨u, hu, rfl⟩
  · exact hdrain h.orderly rfl
  · exact hdrain (h.orderly.enqueue hu) (Transport.enqueue_control hu)

/-- `run` begins to shut down only after the reader has returned. -/
theorem runStep (h : Drain decode s) {a : Run.Action} (hfailure : NoFailure keepalive (.run a : Action ι))
    (hmonitor : MonitorIgnored (.run a : Action ι)) (hlocal : NoLocalStop (.run a : Action ι))
    (hstep : Workers.step keepalive encode decode s (.run a) = some t) : Drain decode t := by
  obtain ⟨hoffers, run, hrun, hcases⟩ := runStep_cases hstep
  have hharmless : Run.Harmless keepalive a := by
    refine harmless (fun result hreader => ?_) hoffers hfailure hmonitor
    exact .inr (h.ended result hreader).2
  have hquiet : (∀ result, s.reader ≠ .ended result) → Run.Quiet run := by
    intro hreader
    refine (h.quiet hreader).1.step hharmless ?_ hrun
    cases a with
    | readerReturns result =>
      obtain ⟨r, hended, -⟩ := reader_of_offers hoffers
      exact absurd hended (hreader r)
    | close | requestClose => exact hlocal.elim
    | _ => trivial
  rcases hcases with ⟨rfl, rfl⟩ | rfl | rfl | ⟨hreturned, rfl⟩
  · exact h.spawn hrun hquiet
  · exact h.setRun hquiet hrun
  · have hset := h.setRun hquiet hrun
    refine ⟨?_, h.orderly.closeMedia rfl, hset.once, hset.spawned, hset.ended, hset.quiet⟩
    exact hset.flow.later (hset.flow.keeps rfl rfl rfl rfl) rfl hset.flow.resolving rfl rfl rfl
  · have hset := h.setRun hquiet hrun
    obtain ⟨result, hreader⟩ := hset.reader_ended fun hq => by
      simpa [Run.State.onTheWay, State.setRun, hreturned] using hq.pc
    exact hset.failPending hreader

theorem step {a : Action ι} (h : Drain decode s) (hclose : OrderlyClose keepalive s a)
    (hmonitor : MonitorIgnored a) (hlocal : NoLocalStop a)
    (hstep : step keepalive encode decode s a = some t) : Drain decode t := by
  obtain ⟨hsocket, halive, hfailure⟩ := hclose
  rcases step_untouched h.orderly halive hstep with
    hu | ⟨b, rfl⟩ | ⟨b, rfl⟩ | ⟨i, b, rfl⟩ | ⟨b, rfl⟩ | rfl
  · exact h.untouched hu
  · exact h.socket hsocket hstep
  · exact h.readerStep hstep
  · obtain ⟨shared, call, hact, ht⟩ := callStep_cases hstep
    exact h.callStep hact ht
  · exact h.runStep hfailure hmonitor hlocal hstep
  · simp only [Workers.step, Option.ite_none_right_eq_some] at hstep
    obtain ⟨⟨hpc, -⟩, hstep⟩ := hstep
    obtain rfl := Option.some.inj hstep
    obtain ⟨result, hreader⟩ := h.reader_ended fun hquiet => by
      simpa [Run.State.onTheWay, hpc] using hquiet.pc
    exact h.failPending hreader

end Drain

variable [DecidableEq ι]

/-- An orderly close drains the inbox, if nobody stops the session locally and the `select!` ignores the
monitor. -/
theorem drained_of_orderlyClose
    (h : (machine keepalive encode decode).ReachableWhere
      (fun s a => OrderlyClose keepalive s a ∧ MonitorIgnored a ∧ NoLocalStop a) s) : Drained decode s := by
  refine (h.invariant (I := Drain decode) ?_ ?_).drained
  · rintro _ rfl
    exact Drain.initial
  · rintro s a t hdrain ⟨hclose, hmonitor, hlocal⟩ hstep
    exact hdrain.step hclose hmonitor hlocal hstep

end Rtvbp.Rust.Workers
