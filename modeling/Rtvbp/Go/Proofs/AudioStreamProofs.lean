import Mathlib.Tactic
import Rtvbp.Go.AudioStream
import Rtvbp.Media.Proofs.FrameSizeProofs

/-!
# Proofs: the audio of two sessions

What a session has written is what it has sent, then what its pump holds, then its buffer; what it has received is what
its handler has taken out, then its buffer, then what its pump holds. The wire between two sessions joins the two.
-/

namespace Rtvbp.Go.AudioStream

open Rtvbp.Lib
open Rtvbp.Go.Media (MediaFormat)

variable {ρ : Type} {ring : RingBuffer ρ UInt8} {format : MediaFormat} {a b : Session ρ}
  {out out' inc inc' : Wire (List UInt8)}

/-- The size of a frame of a format that `FrameBytes` accepts. -/
theorem frameBytes_pos {n : Int64} (h : format.FrameBytes = .ok n) : 0 < frameBytes format := by
  have hpos : ¬ n ≤ 0 := by
    unfold MediaFormat.FrameBytes at h
    simp only at h
    split_ifs at h with _ _ _ _ _ _ _ _ _ hle
    obtain rfl := Except.ok.inj h
    exact hle
  have hlt : 0 < n.toInt := Int64.lt_iff_toInt_lt.mp (Int64.not_le.mp hpos)
  simp only [frameBytes, h]
  omega

/-! ## Sending -/

/-- What a pump can hold. -/
def OutboundPump.Fits (size : ℕ) : OutboundPump → Prop
  | .unbound => True
  | .filling data => data.length < size
  | .writing frame => frame.length = size ∧ 0 < size
  | .ended dropped => dropped.length ≤ size

theorem OutboundPump.Fits.held_le {size : ℕ} {pump : OutboundPump} (h : pump.Fits size) : pump.held.length ≤ size := by
  cases pump with
  | unbound => exact Nat.zero_le _
  | filling => exact le_of_lt h
  | writing => exact le_of_eq h.1
  | ended => exact h

/-- The invariant of a session as the sender. -/
structure Sends (ring : RingBuffer ρ UInt8) (size : ℕ) (a : Session ρ) (out : Wire (List UInt8)) : Prop where
  written : a.written = out.sent.flatten ++ a.outboundPump.held ++ ring.items a.outbound
  frames : ∀ frame ∈ out.sent, frame.length = size
  fits : a.outboundPump.Fits size

/-- A step that leaves the sending side of a session alone. -/
theorem Sends.congr {size : ℕ} (h : Sends ring size a out) (hwritten : b.written = a.written)
    (hitems : ring.items b.outbound = ring.items a.outbound) (hpump : b.outboundPump = a.outboundPump)
    (hsent : out'.sent = out.sent) : Sends ring size b out' where
  written := by rw [hwritten, hitems, hpump, hsent, h.written]
  frames := by rw [hsent]; exact h.frames
  fits := by rw [hpump]; exact h.fits

@[simp] theorem written_pumpError (ended : Bool) : (a.pumpError ended).written = a.written := by
  unfold Session.pumpError; split_ifs <;> rfl

@[simp] theorem outbound_pumpError (ended : Bool) : (a.pumpError ended).outbound = a.outbound := by
  unfold Session.pumpError; split_ifs <;> rfl

@[simp] theorem outboundPump_pumpError (ended : Bool) : (a.pumpError ended).outboundPump = a.outboundPump := by
  unfold Session.pumpError; split_ifs <;> rfl

@[simp] theorem inbound_pumpError (ended : Bool) : (a.pumpError ended).inbound = a.inbound := by
  unfold Session.pumpError; split_ifs <;> rfl

@[simp] theorem inboundPump_pumpError (ended : Bool) : (a.pumpError ended).inboundPump = a.inboundPump := by
  unfold Session.pumpError; split_ifs <;> rfl

@[simp] theorem taken_pumpError (ended : Bool) : (a.pumpError ended).taken = a.taken := by
  unfold Session.pumpError; split_ifs <;> rfl

@[simp] theorem clears_pumpError (ended : Bool) : (a.pumpError ended).clears = a.clears := by
  unfold Session.pumpError; split_ifs <;> rfl

/-- The pump ends with what it holds. -/
theorem Sends.ended {size : ℕ} (h : Sends ring size a out) (ended : Bool) :
    Sends ring size ({ a with outboundPump := .ended a.outboundPump.held }.pumpError ended) out where
  written := by simpa [OutboundPump.held] using h.written
  frames := h.frames
  fits := by simpa [OutboundPump.Fits] using h.fits.held_le

theorem Sends.fill (hring : ring.Lawful) (h : Sends ring (frameBytes format) a out) {data : List UInt8}
    (hpump : a.outboundPump = .filling data) (hfill : a.fill ring format data = some b) :
    Sends ring (frameBytes format) b out := by
  unfold Session.fill at hfill
  split at hfill
  · split_ifs at hfill
    obtain rfl := Option.some.inj hfill
    have hended := h.ended data.isEmpty
    rwa [hpump] at hended
  · next bytes outbound _ hread =>
    obtain rfl := Option.some.inj hfill
    have hitems : bytes ++ ring.items outbound = ring.items a.outbound := by
      have := hring.items_read a.outbound (frameBytes format - data.length)
      rwa [hread] at this
    have hle : bytes.length ≤ frameBytes format - data.length := by
      have := hring.read_le a.outbound (frameBytes format - data.length)
      rwa [hread] at this
    have hlt : data.length < frameBytes format := by
      have := h.fits
      rwa [hpump] at this
    have hheld :
        (Session.filled format { a with outbound := outbound } (data ++ bytes)).outboundPump.held = data ++ bytes := by
      unfold Session.filled
      split_ifs <;> rfl
    constructor
    · rw [hheld]
      simp only [Session.filled]
      rw [h.written, hpump, ← hitems]
      simp [OutboundPump.held]
    · exact h.frames
    · simp only [Session.filled]
      split_ifs with hshort
      · exact hshort
      · simp only [OutboundPump.Fits, List.length_append] at hshort ⊢
        omega

theorem Sends.step (hring : ring.Lawful) (h : Sends ring (frameBytes format) a out) {action : SessionAction}
    (hstep : a.step ring format out inc action = some (b, out', inc')) : Sends ring (frameBytes format) b out' := by
  cases action with
  | bind =>
    simp only [Session.step] at hstep
    split at hstep
    · next n hpump _ hformat =>
      split_ifs at hstep
      obtain ⟨rfl, rfl, rfl⟩ := Option.some.inj hstep
      refine ⟨?_, h.frames, frameBytes_pos hformat⟩
      simpa [OutboundPump.held, hpump] using h.written
    · cases hstep
  | write data =>
    simp only [Session.step] at hstep
    split at hstep
    · cases hstep
    · next n outbound hwrite =>
      obtain ⟨rfl, rfl, rfl⟩ := Option.some.inj hstep
      have hitems := hring.items_write a.outbound data
      rw [hwrite] at hitems
      refine ⟨?_, h.frames, h.fits⟩
      simp [h.written, hitems]
  | read n =>
    simp only [Session.step] at hstep
    split at hstep
    · cases hstep
    · obtain ⟨rfl, rfl, rfl⟩ := Option.some.inj hstep
      exact h.congr rfl rfl rfl rfl
  | clear =>
    obtain ⟨rfl, rfl, rfl⟩ := Option.some.inj hstep
    exact h.congr rfl rfl rfl rfl
  | clearNext i =>
    simp only [Session.step] at hstep
    split at hstep
    · next c _ =>
      split_ifs at hstep
      obtain ⟨rfl, rfl, rfl⟩ := Option.some.inj hstep
      unfold Session.clearNext
      split <;> exact h.congr rfl rfl rfl rfl
    · cases hstep
  | fill =>
    simp only [Session.step] at hstep
    split at hstep
    · next data hpump =>
      obtain ⟨b', hfill, heq⟩ := Option.map_eq_some_iff.mp hstep
      obtain ⟨rfl, rfl, rfl⟩ := Prod.mk.injEq .. ▸ heq
      exact h.fill hring hpump hfill
    · cases hstep
  | writeFrame =>
    simp only [Session.step] at hstep
    split at hstep
    · next frame hpump =>
      obtain ⟨w, hsend, heq⟩ := Option.map_eq_some_iff.mp hstep
      obtain ⟨rfl, rfl, rfl⟩ := heq
      have hsent := Wire.sent_of_send hsend
      obtain ⟨hlength, hpos⟩ : frame.length = frameBytes format ∧ 0 < frameBytes format := by
        have := h.fits
        rwa [hpump] at this
      refine ⟨?_, ?_, ?_⟩
      · rw [hsent]
        simp [h.written, hpump, OutboundPump.held]
      · rw [hsent]
        intro frame' hmem
        obtain hmem | hmem := List.mem_append.mp hmem
        · exact h.frames frame' hmem
        · rw [List.mem_singleton.mp hmem, hlength]
      · exact hpos
    · cases hstep
  | writeFails closed =>
    simp only [Session.step] at hstep
    split at hstep
    · next frame hpump =>
      obtain ⟨rfl, rfl, rfl⟩ := Option.some.inj hstep
      have hended := h.ended closed
      rwa [hpump] at hended
    · cases hstep
  | readFrame =>
    simp only [Session.step] at hstep
    split at hstep
    · obtain ⟨r, hrecv, heq⟩ := Option.map_eq_some_iff.mp hstep
      obtain ⟨rfl, rfl, rfl⟩ := heq
      exact h.congr rfl rfl rfl rfl
    · cases hstep
  | readFails ended =>
    simp only [Session.step] at hstep
    split at hstep
    · obtain ⟨rfl, rfl, rfl⟩ := Option.some.inj hstep
      exact h.congr (by simp) (by simp) (by simp) rfl
    · cases hstep
  | buffer =>
    simp only [Session.step] at hstep
    split at hstep
    · next remaining hpump =>
      obtain ⟨b', hbuffer, heq⟩ := Option.map_eq_some_iff.mp hstep
      obtain ⟨rfl, rfl, rfl⟩ := heq
      unfold Session.buffer at hbuffer
      split at hbuffer
      · obtain rfl := Option.some.inj hbuffer
        exact h.congr rfl rfl rfl rfl
      · split at hbuffer
        · split at hbuffer
          · obtain rfl := Option.some.inj hbuffer
            exact h.congr (by simp) (by simp) (by simp) rfl
          · cases hbuffer
        · obtain rfl := Option.some.inj hbuffer
          exact h.congr rfl rfl rfl rfl
    · cases hstep
  | shutdown =>
    obtain ⟨rfl, rfl, rfl⟩ := Option.some.inj hstep
    exact h.congr rfl rfl rfl rfl
  | closeAudio =>
    simp only [Session.step] at hstep
    split_ifs at hstep
    obtain ⟨rfl, rfl, rfl⟩ := Option.some.inj hstep
    exact h.congr rfl (hring.items_close _) rfl rfl

/-! ## Receiving -/

/-- The calls of `ClearReadBuffer` and what they have taken out. -/
structure Counted (taken : List (Option ℕ × List UInt8)) (clears : List Clear) : Prop where
  counted : ∀ i c, clears[i]? = some c →
    c.cleared = ((taken.filter fun entry => entry.1 = some i).flatMap Prod.snd).length ∧ c.cleared ≤ c.remaining
  known : ∀ entry ∈ taken, ∀ i, entry.1 = some i → i < clears.length

variable {taken : List (Option ℕ × List UInt8)} {clears : List Clear}

theorem Counted.read (h : Counted taken clears) (bytes : List UInt8) : Counted (taken ++ [(none, bytes)]) clears where
  counted i c hc := by simpa using h.counted i c hc
  known entry hmem i hi := by
    obtain hmem | hmem := List.mem_append.mp hmem
    · exact h.known entry hmem i hi
    · rw [List.mem_singleton.mp hmem] at hi
      cases hi

/-- A new call has taken out nothing yet. -/
theorem Counted.clear (h : Counted taken clears) (remaining : ℕ) (returned : Bool) :
    Counted taken (clears ++ [⟨remaining, 0, returned⟩]) where
  counted i c hc := by
    by_cases hi : i < clears.length
    · rw [List.getElem?_append_left hi] at hc
      exact h.counted i c hc
    · have hnone : taken.filter (fun entry => entry.1 = some i) = [] := by
        refine List.filter_eq_nil_iff.mpr fun entry hmem hentry => ?_
        exact hi (h.known entry hmem i (by simpa using hentry))
      rw [List.getElem?_append_right (not_lt.mp hi)] at hc
      obtain rfl := List.mem_singleton.mp (List.mem_of_getElem? hc)
      simp [hnone]
  known entry hmem i hi := by
    rw [List.length_append]
    exact Nat.lt_add_right 1 (h.known entry hmem i hi)

theorem Counted.returned (h : Counted taken clears) {i : ℕ} {c : Clear} (hc : clears[i]? = some c) :
    Counted taken (clears.set i { c with returned := true }) where
  counted j d hd := by
    rw [List.getElem?_set] at hd
    split_ifs at hd with hij hlt
    · obtain rfl := Option.some.inj hd
      exact hij ▸ h.counted i c hc
    · exact h.counted j d hd
  known entry hmem j hj := by
    rw [List.length_set]
    exact h.known entry hmem j hj

/-- A call counts the bytes that it takes out. -/
theorem Counted.next (h : Counted taken clears) {i : ℕ} {c : Clear} (hc : clears[i]? = some c) {bytes : List UInt8}
    (hle : bytes.length ≤ c.want) (returned : Bool) :
    Counted (taken ++ [(some i, bytes)]) (clears.set i ⟨c.remaining, c.cleared + bytes.length, returned⟩) where
  counted j d hd := by
    rw [List.getElem?_set] at hd
    split_ifs at hd with hij hlt
    · subst hij
      obtain rfl := Option.some.inj hd
      obtain ⟨hcleared, hremaining⟩ := h.counted i c hc
      have hwant : bytes.length ≤ c.remaining - c.cleared := hle.trans (min_le_right ..)
      refine ⟨?_, ?_⟩
      · simp only [List.filter_append, List.flatMap_append, List.length_append, hcleared]
        simp
      · dsimp only
        omega
    · simpa [hij] using h.counted j d hd
  known entry hmem j hj := by
    rw [List.length_set]
    obtain hmem | hmem := List.mem_append.mp hmem
    · exact h.known entry hmem j hj
    · rw [List.mem_singleton.mp hmem] at hj
      obtain rfl := Option.some.inj hj
      exact (List.getElem?_eq_some_iff.mp hc).1

/-- The invariant of a session as the receiver. -/
structure Receives (ring : RingBuffer ρ UInt8) (b : Session ρ) (inc : Wire (List UInt8)) : Prop where
  received : inc.received.flatten = b.received ++ ring.items b.inbound ++ b.inboundPump.held
  counted : Counted b.taken b.clears

/-- A step that leaves the receiving side of a session alone. -/
theorem Receives.congr (h : Receives ring a inc) (hitems : ring.items b.inbound = ring.items a.inbound)
    (hheld : b.inboundPump.held = a.inboundPump.held) (htaken : b.taken = a.taken) (hclears : b.clears = a.clears)
    (hreceived : inc'.received = inc.received) : Receives ring b inc' where
  received := by rw [hreceived, h.received, hitems, hheld, Session.received, Session.received, htaken]
  counted := by rw [htaken, hclears]; exact h.counted

/-- The handler takes bytes out of the buffer. -/
theorem Receives.take (hring : ring.Lawful) (h : Receives ring a inc) {n : ℕ} {bytes : List UInt8} {inbound : ρ}
    (hread : ring.read a.inbound n = (bytes, inbound)) (caller : Option ℕ) :
    inc.received.flatten = (a.take caller bytes inbound).received ++ ring.items inbound ++ a.inboundPump.held := by
  have hitems := hring.items_read a.inbound n
  rw [hread] at hitems
  rw [h.received, ← hitems]
  simp [Session.received, Session.take]

theorem Receives.clearNext (hring : ring.Lawful) (h : Receives ring a inc) {i : ℕ} {c : Clear}
    (hc : a.clears[i]? = some c) : Receives ring (a.clearNext ring i c) inc := by
  unfold Session.clearNext
  split
  · exact ⟨h.received, h.counted.returned hc⟩
  · next bytes inbound _ hread =>
    have hle := hring.read_le a.inbound c.want
    rw [hread] at hle
    exact ⟨h.take hring hread (some i), h.counted.next hc hle _⟩

theorem Receives.buffer (hring : ring.Lawful) (h : Receives ring a inc) {remaining : List UInt8}
    (hpump : a.inboundPump = .buffering remaining) (hbuffer : a.buffer ring remaining = some b) : Receives ring b inc := by
  have hheld : a.inboundPump.held = remaining := by rw [hpump]; rfl
  unfold Session.buffer at hbuffer
  split at hbuffer
  · next hempty =>
    obtain rfl := Option.some.inj hbuffer
    exact h.congr rfl (by rw [hheld, List.isEmpty_iff.mp hempty]; rfl) rfl rfl rfl
  · split at hbuffer
    · split at hbuffer
      · obtain rfl := Option.some.inj hbuffer
        exact h.congr (by simp) (by simpa [InboundPump.held] using hheld.symm) (by simp) (by simp) rfl
      · cases hbuffer
    · next n inbound _ hwrite =>
      obtain rfl := Option.some.inj hbuffer
      have hitems := hring.items_write a.inbound remaining
      rw [hwrite] at hitems
      refine ⟨?_, h.counted⟩
      rw [h.received, hheld, hitems]
      simp [InboundPump.held, Session.received]

theorem Receives.step (hring : ring.Lawful) (h : Receives ring a inc) {action : SessionAction}
    (hstep : a.step ring format out inc action = some (b, out', inc')) : Receives ring b inc' := by
  cases action with
  | bind =>
    simp only [Session.step] at hstep
    split at hstep
    · next n _ hpump _ =>
      split_ifs at hstep
      obtain ⟨rfl, rfl, rfl⟩ := Option.some.inj hstep
      exact h.congr rfl (by rw [hpump]; rfl) rfl rfl rfl
    · cases hstep
  | write data =>
    simp only [Session.step] at hstep
    split at hstep
    · cases hstep
    · obtain ⟨rfl, rfl, rfl⟩ := Option.some.inj hstep
      exact h.congr rfl rfl rfl rfl rfl
  | read n =>
    simp only [Session.step] at hstep
    split at hstep
    · cases hstep
    · next bytes inbound _ hread =>
      obtain ⟨rfl, rfl, rfl⟩ := Option.some.inj hstep
      exact ⟨h.take hring hread none, h.counted.read bytes⟩
  | clear =>
    obtain ⟨rfl, rfl, rfl⟩ := Option.some.inj hstep
    exact ⟨h.received, h.counted.clear _ _⟩
  | clearNext i =>
    simp only [Session.step] at hstep
    split at hstep
    · next c hc =>
      split_ifs at hstep
      obtain ⟨rfl, rfl, rfl⟩ := Option.some.inj hstep
      exact h.clearNext hring hc
    · cases hstep
  | fill =>
    simp only [Session.step] at hstep
    split at hstep
    · next data hpump =>
      obtain ⟨b', hfill, heq⟩ := Option.map_eq_some_iff.mp hstep
      obtain ⟨rfl, rfl, rfl⟩ := heq
      unfold Session.fill at hfill
      split at hfill
      · split_ifs at hfill
        obtain rfl := Option.some.inj hfill
        exact h.congr (by simp) (by simp) (by simp) (by simp) rfl
      · obtain rfl := Option.some.inj hfill
        exact h.congr rfl rfl rfl rfl rfl
    · cases hstep
  | writeFrame =>
    simp only [Session.step] at hstep
    split at hstep
    · obtain ⟨w, hsend, heq⟩ := Option.map_eq_some_iff.mp hstep
      obtain ⟨rfl, rfl, rfl⟩ := heq
      exact h.congr rfl rfl rfl rfl rfl
    · cases hstep
  | writeFails closed =>
    simp only [Session.step] at hstep
    split at hstep
    · obtain ⟨rfl, rfl, rfl⟩ := Option.some.inj hstep
      exact h.congr (by simp) (by simp) (by simp) (by simp) rfl
    · cases hstep
  | readFrame =>
    simp only [Session.step] at hstep
    split at hstep
    · next hpump =>
      obtain ⟨r, hrecv, heq⟩ := Option.map_eq_some_iff.mp hstep
      obtain ⟨rfl, rfl, rfl⟩ := heq
      refine ⟨?_, h.counted⟩
      rw [Wire.received_of_recv hrecv, List.flatten_append, h.received, hpump]
      simp [InboundPump.held, Session.received]
    · cases hstep
  | readFails ended =>
    simp only [Session.step] at hstep
    split at hstep
    · next hpump =>
      obtain ⟨rfl, rfl, rfl⟩ := Option.some.inj hstep
      exact h.congr (by simp) (by simp [hpump, InboundPump.held]) (by simp) (by simp) rfl
    · cases hstep
  | buffer =>
    simp only [Session.step] at hstep
    split at hstep
    · next remaining hpump =>
      obtain ⟨b', hbuffer, heq⟩ := Option.map_eq_some_iff.mp hstep
      obtain ⟨rfl, rfl, rfl⟩ := heq
      exact h.buffer hring hpump hbuffer
    · cases hstep
  | shutdown =>
    obtain ⟨rfl, rfl, rfl⟩ := Option.some.inj hstep
    exact h.congr rfl rfl rfl rfl rfl
  | closeAudio =>
    simp only [Session.step] at hstep
    split_ifs at hstep
    obtain ⟨rfl, rfl, rfl⟩ := Option.some.inj hstep
    exact h.congr (hring.items_close _) rfl rfl rfl rfl

/-! ## Two sessions -/

/-- A session sends only on the wire out of it, and receives only from the other. -/
theorem wires_of_step {action : SessionAction} (hstep : a.step ring format out inc action = some (b, out', inc')) :
    out'.received = out.received ∧ inc'.sent = inc.sent := by
  cases action with
  | writeFrame =>
    simp only [Session.step] at hstep
    split at hstep
    · obtain ⟨w, hsend, heq⟩ := Option.map_eq_some_iff.mp hstep
      obtain ⟨rfl, rfl, rfl⟩ := heq
      exact ⟨Wire.received_of_send hsend, rfl⟩
    · cases hstep
  | readFrame =>
    simp only [Session.step] at hstep
    split at hstep
    · obtain ⟨r, hrecv, heq⟩ := Option.map_eq_some_iff.mp hstep
      obtain ⟨rfl, rfl, rfl⟩ := heq
      exact ⟨rfl, Wire.sent_of_recv hrecv⟩
    · cases hstep
  | fill | buffer =>
    simp only [Session.step] at hstep
    split at hstep
    · obtain ⟨_, _, heq⟩ := Option.map_eq_some_iff.mp hstep
      obtain ⟨rfl, rfl, rfl⟩ := heq
      exact ⟨rfl, rfl⟩
    · cases hstep
  | clear | shutdown =>
    obtain ⟨rfl, rfl, rfl⟩ := Option.some.inj hstep
    exact ⟨rfl, rfl⟩
  | bind | write | read | clearNext | writeFails | readFails | closeAudio =>
    simp only [Session.step] at hstep
    repeat' split at hstep
    all_goals cases hstep <;> exact ⟨rfl, rfl⟩

variable {s t : State ρ}

/-- The invariant of a run. -/
structure Inv (ring : RingBuffer ρ UInt8) (format : MediaFormat) (s : State ρ) : Prop where
  sends : ∀ side, Sends ring (frameBytes format) (s.session side) (s.wire side)
  receives : ∀ side, Receives ring (s.session side) (s.wire !side)

theorem Inv.initial (hring : ring.Lawful) : Inv ring format (initial ring) where
  sends _ := ⟨by simp [AudioStream.initial, OutboundPump.held, hring.items_new], nofun, trivial⟩
  receives _ :=
    ⟨by simp [AudioStream.initial, InboundPump.held, Session.received, hring.items_new], ⟨nofun, nofun⟩⟩

/-- A close throws away only what is under way. -/
theorem Inv.setWire (h : Inv ring format s) {side : Bool} {w : Wire (List UInt8)} (hsent : w.sent = (s.wire side).sent)
    (hreceived : w.received = (s.wire side).received) :
    Inv ring format { s with wire := Function.update s.wire side w } where
  sends side' := by
    by_cases hs : side' = side
    · subst hs
      exact (h.sends side').congr rfl rfl rfl (by simpa using hsent)
    · exact (h.sends side').congr rfl rfl rfl (by simp [Function.update_of_ne hs])
  receives side' := by
    by_cases hs : (!side') = side
    · subst hs
      exact (h.receives side').congr rfl rfl rfl rfl (by simpa using hreceived)
    · exact (h.receives side').congr rfl rfl rfl rfl (by simp [Function.update_of_ne hs])

theorem Inv.step (hring : ring.Lawful) (h : Inv ring format s) {action : Action}
    (hstep : step ring format s action = some t) : Inv ring format t := by
  cases action with
  | session side action =>
    obtain ⟨⟨b, out', inc'⟩, hb, rfl⟩ := Option.map_eq_some_iff.mp hstep
    obtain ⟨hreceived, hsent⟩ := wires_of_step hb
    have hsends := (h.sends side).step hring hb
    have hreceives := (h.receives side).step hring hb
    have hne : side ≠ !side := by cases side <;> decide
    constructor
    · intro side'
      obtain rfl | rfl : side' = side ∨ side' = !side := by cases side <;> cases side' <;> decide
      · simpa [Function.update_of_ne hne] using hsends
      · have hother := (h.sends !side).congr rfl rfl rfl hsent
        simpa [Function.update_of_ne hne.symm] using hother
    · intro side'
      obtain rfl | rfl : side' = side ∨ side' = !side := by cases side <;> cases side' <;> decide
      · simpa using hreceives
      · have hother := (h.receives !side).congr rfl rfl rfl rfl (by simpa using hreceived)
        simpa [Function.update_of_ne hne, Function.update_of_ne hne.symm] using hother
  | closeWire side =>
    obtain rfl := Option.some.inj hstep
    exact h.setWire (Wire.sent_close ..) (Wire.received_close ..)
  | discardWire side =>
    obtain rfl := Option.some.inj hstep
    exact h.setWire (Wire.sent_discard ..) (Wire.received_discard ..)

/-! ## What has arrived -/

theorem length_flatten_of_frames {frames : List (List UInt8)} {size : ℕ} (h : ∀ frame ∈ frames, frame.length = size) :
    frames.flatten.length = frames.length * size := by
  rw [List.length_flatten, List.map_congr_left h, List.map_const', List.sum_replicate, smul_eq_mul]

theorem conserved (hsends : Sends ring (frameBytes format) a out) (hreceives : Receives ring b out) :
    a.written = b.received ++ ring.items b.inbound ++ b.inboundPump.held ++ out.pending.flatten ++ out.lost.flatten ++
      a.outboundPump.held ++ ring.items a.outbound := by
  rw [hsends.written, out.fifo, List.flatten_append, List.flatten_append, hreceives.received]

/-- At rest the sender holds less than a frame. -/
theorem sender_of_atRest (hring : ring.Lawful) (hsends : Sends ring (frameBytes format) a out)
    (hrest : AtRest ring format a b out inc) :
    ring.items a.outbound = [] ∧ ∃ data, a.outboundPump = .filling data ∧ data.length < frameBytes format := by
  have hfits := hsends.fits
  cases hpump : a.outboundPump with
  | unbound => exact absurd hpump (hrest.sender_runs []).1
  | ended dropped => exact absurd hpump (hrest.sender_runs dropped).2
  | writing frame =>
    have hstep := hrest.sender_rests.2
    simp [Session.step, hpump, Wire.send, hrest.wire_open] at hstep
  | filling data =>
    rw [hpump] at hfits
    refine ⟨?_, data, rfl, hfits⟩
    by_contra hitems
    have hne := hring.read_ne_nil a.outbound (frameBytes format - data.length) hitems (Nat.sub_ne_zero_of_lt hfits)
    have hstep := hrest.sender_rests.1
    cases hread : ring.read a.outbound (frameBytes format - data.length) with
    | mk bytes outbound =>
      rw [hread] at hne
      obtain ⟨byte, bytes, rfl⟩ := List.exists_cons_of_ne_nil hne
      simp [Session.step, hpump, Session.fill, hread] at hstep

/-- At rest nothing is under way to the receiver. -/
theorem receiver_of_atRest (hring : ring.Lawful) (hrest : AtRest ring format a b out inc) :
    out.pending = [] ∧ b.inboundPump.held = [] := by
  cases hpump : b.inboundPump with
  | unbound => exact absurd hpump (hrest.receiver_runs []).1
  | ended dropped => exact absurd hpump (hrest.receiver_runs dropped).2
  | reading =>
    refine ⟨?_, rfl⟩
    have hstep := hrest.receiver_rests.1
    simp only [Session.step, hpump, Option.map_eq_none_iff, Wire.recv] at hstep
    split at hstep
    · next hpending => exact hpending
    · cases hstep
  | buffering remaining =>
    have hstep := hrest.receiver_rests.2
    simp only [Session.step, hpump, Option.map_eq_none_iff, Session.buffer] at hstep
    split at hstep
    · cases hstep
    · next hempty =>
      have hdata : remaining ≠ [] := by simpa [List.isEmpty_iff] using hempty
      have hne := hring.write_ne_zero b.inbound remaining hrest.inbound_open hrest.inbound_empty hdata
      split at hstep
      · next hwrite => exact absurd (congrArg Prod.fst hwrite) hne
      · cases hstep

theorem delivered (hring : ring.Lawful) (hsends : Sends ring (frameBytes format) a out) (hreceives : Receives ring b out)
    (hrest : AtRest ring format a b out inc) :
    b.received = a.written.take (a.written.length / frameBytes format * frameBytes format) := by
  obtain ⟨houtbound, data, hpump, hlt⟩ := sender_of_atRest hring hsends hrest
  obtain ⟨hpending, hheld⟩ := receiver_of_atRest hring hrest
  have hsent : out.sent = out.received := by rw [out.fifo, hpending, out.lost_of_open hrest.wire_open]; simp
  have hreceived : out.sent.flatten = b.received := by
    rw [hsent, hreceives.received, hrest.inbound_empty, hheld]
    simp
  have hwritten : a.written = b.received ++ data := by
    rw [hsends.written, hreceived, houtbound, hpump]
    simp [OutboundPump.held]
  have hlength : b.received.length = out.sent.length * frameBytes format := by
    rw [← hreceived, length_flatten_of_frames hsends.frames]
  have hframes : a.written.length / frameBytes format = out.sent.length := by
    rw [hwritten, List.length_append, hlength, add_comm, Nat.add_mul_div_right _ _ (by omega), Nat.div_eq_of_lt hlt,
      zero_add]
  rw [hframes, ← hlength, hwritten, List.take_left]

/-- In every run of two sessions over one channel the bytes of either handler stay in order and none is lost but in the
channel or by a pump that ends, frames are full, `ClearReadBuffer` counts what it takes out, and at rest everything but
less than a frame has arrived. -/
theorem audio_sound (hring : ring.Lawful) (h : (machine ring format).Reachable s) (side : Bool) :
    Sound ring format (s.session side) (s.session !side) (s.wire side) (s.wire !side) := by
  have hinv : Inv ring format s := by
    refine h.invariant (I := Inv ring format) ?_ fun s action t hs hstep => hs.step hring hstep
    rintro _ rfl
    exact .initial hring
  have hsends := hinv.sends side
  have hreceives : Receives ring (s.session !side) (s.wire side) := by simpa using hinv.receives !side
  exact {
    conserved := AudioStream.conserved hsends hreceives
    frames := hsends.frames
    held := hsends.fits.held_le
    clears := hreceives.counted.counted
    delivered := AudioStream.delivered hring hsends hreceives }

section Call

/-- Frames of two bytes. -/
def shortFrames : MediaFormat := ⟨"L16", 1000, 16, 1, 1000000⟩

/-- Three bytes are written, and two of them are read at the other end. -/
def spoken : List Action :=
  [.session false .bind, .session true .bind, .session false (.write [1, 2, 3]), .session false .fill,
    .session false .writeFrame, .session false .fill, .session true .readFrame, .session true .buffer,
    .session true .buffer, .session true (.read 8)]

theorem spoken_sound :
    ∃ s, (machine (.bounded UInt8 4) shortFrames).exec (initial (.bounded UInt8 4)) spoken = some s ∧
      (s.session true).received = [1, 2] ∧
      Sound (.bounded UInt8 4) shortFrames (s.session false) (s.session true) (s.wire false) (s.wire true) := by
  have hruns : ((machine (.bounded UInt8 4) shortFrames).exec (initial (.bounded UInt8 4)) spoken).any
      (fun s => (s.session true).received == [1, 2]) = true := by
    decide +kernel
  obtain ⟨s, hexec, hreceived⟩ := (Option.any_eq_true ..).mp hruns
  exact ⟨s, hexec, by simpa using hreceived,
    audio_sound (RingBuffer.lawful_bounded (by decide)) (.of_exec rfl hexec) false⟩

end Call

end Rtvbp.Go.AudioStream
