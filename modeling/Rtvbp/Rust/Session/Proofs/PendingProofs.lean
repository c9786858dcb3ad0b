import Rtvbp.Rust.Session.Pending
import Mathlib.Tactic

/-!
# Proofs: whose entries the map holds

As long as no id is inserted twice, no call cancels the entry of another one and no future is dropped with
its entry in the map, every entry belongs to the live call that inserted it, and every live call has its
entry or its result. Each of these three steps breaks that at once: the first leaves an entry whose caller
has returned and closes the channel of the call that waits, the second closes the channel of a call that
waits, and the third leaves an entry that nobody waits for.
-/

namespace Rtvbp.Rust.Pending

open Rtvbp.Lib Rtvbp.Envelope.Rust

variable {ι : Type} {s s' : Shared ι} {i j : ι} {c c' : Call} {id : String}

/-! ## The map -/

/-- The keys of the map are distinct. -/
def Inv (s : Shared ι) : Prop := (s.pending.map Prod.fst).Nodup

theorem mem_remove {entry : String × ι} :
    entry ∈ (s.remove id).pending ↔ entry ∈ s.pending ∧ entry.1 ≠ id := by
  simp [Shared.remove]

theorem mem_insert {entry : String × ι} :
    entry ∈ (s.insert id i).pending ↔ entry = (id, i) ∨ entry ∈ s.pending ∧ entry.1 ≠ id := by
  simp [Shared.insert, Shared.remove]

theorem Inv.remove (h : Inv s) (id : String) : Inv (s.remove id) :=
  List.Nodup.sublist (List.filter_sublist.map Prod.fst) h

theorem Inv.insert (h : Inv s) (id : String) (i : ι) : Inv (s.insert id i) := by
  refine List.nodup_cons.mpr ⟨?_, h.remove id⟩
  intro hmem
  obtain ⟨entry, hentry, hid⟩ := List.mem_map.mp hmem
  exact (mem_remove.1 hentry).2 hid

theorem Inv.lookup_iff (h : Inv s) : s.pending.lookup id = some i ↔ (id, i) ∈ s.pending :=
  lookup_eq_some_iff_mem h

/-- An id has one entry. -/
theorem Inv.unique (h : Inv s) (hi : (id, i) ∈ s.pending) (hj : (id, j) ∈ s.pending) : i = j := by
  have hlookup := h.lookup_iff.mpr hi
  rw [h.lookup_iff.mpr hj] at hlookup
  exact (Option.some.inj hlookup).symm

theorem not_mem_of_lookup_eq_none (h : Inv s) (hnone : s.pending.lookup id = none) :
    (id, i) ∉ s.pending := by
  intro hmem
  rw [h.lookup_iff.mpr hmem] at hnone
  cases hnone

/-! ## The invariant of a call -/

/-- The map has no entry of the call. -/
def Absent (i : ι) (s : Shared ι) : Prop := ∀ id, (id, i) ∉ s.pending

/-- The call waits for a result that nobody has sent. -/
structure Outstanding (i : ι) (id : String) (s : Shared ι) : Prop where
  mem : (id, i) ∈ s.pending
  only : ∀ id', (id', i) ∈ s.pending → id' = id
  channel : s.channel i = .empty
  taken : ∀ frame, s.taken ≠ some (i, frame)

/-- The result of the call is sent, or is about to be. -/
structure Completed (i : ι) (id : String) (s : Shared ι) : Prop where
  absent : Absent i s
  result : (∃ frame, s.taken = some (i, frame) ∧ frame.correlationId = id ∧ s.channel i = .empty) ∨
    (∃ source, s.channel i = .sent source ∧ source.answers id) ∧ ∀ frame, s.taken ≠ some (i, frame)

/-- What holds of a call, point by point. -/
def CallInv (i : ι) (s : Shared ι) : Call → Prop
  | .idle | .entered _ _ | .checked _ _ =>
    Absent i s ∧ s.channel i = .empty ∧ ∀ frame, s.taken ≠ some (i, frame)
  | .registered id _ | .encoding id _ | .sending id | .sendFailed id _ | .waiting id | .elapsed id =>
    Outstanding i id s ∨ Completed i id s
  | .receiving id => Completed i id s
  | .returned completion => Absent i s ∧ completion.own
  | .dropped _ => Absent i s

/-- Another step leaves the entries and the channel of a call alone. -/
structure Same (i : ι) (s s' : Shared ι) : Prop where
  pending : ∀ id, (id, i) ∈ s'.pending ↔ (id, i) ∈ s.pending
  channel : s'.channel i = s.channel i
  taken : ∀ frame, s'.taken = some (i, frame) ↔ s.taken = some (i, frame)

theorem Same.refl (i : ι) (s : Shared ι) : Same i s s := ⟨fun _ => Iff.rfl, rfl, fun _ => Iff.rfl⟩

theorem Same.absent (h : Same i s s') (ha : Absent i s) : Absent i s' :=
  fun id hmem => ha id ((h.pending id).mp hmem)

theorem Same.outstanding (h : Same i s s') (ho : Outstanding i id s) : Outstanding i id s' where
  mem := (h.pending id).mpr ho.mem
  only id' hmem := ho.only id' ((h.pending id').mp hmem)
  channel := h.channel.trans ho.channel
  taken frame ht := ho.taken frame ((h.taken frame).mp ht)

theorem Same.completed (h : Same i s s') (hc : Completed i id s) : Completed i id s' where
  absent := h.absent hc.absent
  result := by
    rcases hc.result with ⟨frame, htaken, hid, hempty⟩ | ⟨⟨source, hsent, hanswers⟩, hnot⟩
    · exact .inl ⟨frame, (h.taken frame).mpr htaken, hid, h.channel.trans hempty⟩
    · exact .inr ⟨⟨source, h.channel.trans hsent, hanswers⟩, fun frame ht =>
        hnot frame ((h.taken frame).mp ht)⟩

theorem CallInv.same (h : CallInv i s c) (hsame : Same i s s') : CallInv i s' c := by
  cases c with
  | idle | entered method payload | checked method payload =>
    obtain ⟨habsent, hempty, hnot⟩ := h
    exact ⟨hsame.absent habsent, hsame.channel.trans hempty, fun frame ht =>
      hnot frame ((hsame.taken frame).mp ht)⟩
  | registered id frame | encoding id frame | sending id | sendFailed id error | waiting id
  | elapsed id => exact h.imp hsame.outstanding hsame.completed
  | receiving id => exact hsame.completed h
  | returned completion => exact ⟨hsame.absent h.1, h.2⟩
  | dropped id => exact hsame.absent h

/-- An entry belongs to a call that waits for it. -/
theorem CallInv.outstanding_of_mem (h : CallInv i s c) (hmem : (id, i) ∈ s.pending) :
    c.awaits = some id ∧ Outstanding i id s := by
  cases c with
  | idle | entered method payload | checked method payload => exact absurd hmem (h.1 id)
  | registered id' frame | encoding id' frame | sending id' | sendFailed id' error | waiting id'
  | elapsed id' =>
    rcases h with ho | hc
    · obtain rfl := ho.only id hmem
      exact ⟨rfl, ho⟩
    · exact absurd hmem (hc.absent id)
  | receiving id' => exact absurd hmem (h.absent id)
  | returned completion => exact absurd hmem (h.1 id)
  | dropped id' => exact absurd hmem (h id)

/-- A live call has its entry or its result. -/
theorem CallInv.of_awaits (h : CallInv i s c) (hawaits : c.awaits = some id) :
    Outstanding i id s ∨ Completed i id s := by
  cases c with
  | registered id' frame | encoding id' frame | sending id' | sendFailed id' error | waiting id'
  | elapsed id' =>
    obtain rfl := Option.some.inj hawaits
    exact h
  | receiving id' =>
    obtain rfl := Option.some.inj hawaits
    exact .inr h
  | _ => cases hawaits

theorem Outstanding.not_completed (h : Outstanding i id s) : ¬ s.completed i := by
  rintro (⟨frame, htaken⟩ | ⟨source, hsent⟩)
  · exact h.taken frame htaken
  · rw [h.channel] at hsent
    cases hsent

theorem Completed.completed (h : Completed i id s) : s.completed i := by
  rcases h.result with ⟨frame, htaken, -⟩ | ⟨⟨source, hsent, -⟩, -⟩
  · exact .inl ⟨frame, htaken⟩
  · exact .inr ⟨source, hsent⟩

/-- A call whose result comes while it waits. -/
theorem CallInv.complete (h : CallInv i s c) (hmem : (id, i) ∈ s.pending)
    (hcompleted : Completed i id s') : CallInv i s' c := by
  obtain ⟨hawaits, -⟩ := h.outstanding_of_mem hmem
  cases c with
  | registered id' frame | encoding id' frame | sending id' | sendFailed id' error | waiting id'
  | elapsed id' =>
    obtain rfl := Option.some.inj hawaits
    exact .inr hcompleted
  | receiving id' =>
    obtain rfl := Option.some.inj hawaits
    exact hcompleted
  | _ => cases hawaits

/-! ## The steps -/

/-- The first entry for an id. -/
theorem insert_inv (hK : Inv s) (hnone : s.pending.lookup id = none) (habsent : Absent i s)
    (hempty : s.channel i = .empty) (htaken : ∀ frame, s.taken ≠ some (i, frame)) :
    Inv (s.insert id i) ∧ Outstanding i id (s.insert id i) ∧ ∀ j, j ≠ i → Same j s (s.insert id i) := by
  refine ⟨hK.insert id i, ⟨mem_insert.2 (.inl rfl), ?_, hempty, htaken⟩, fun j hj => ⟨?_, rfl, ?_⟩⟩
  · intro id' hmem
    rcases mem_insert.1 hmem with heq | ⟨hmem, -⟩
    · exact congrArg Prod.fst heq
    · exact absurd hmem (habsent id')
  · intro id'
    rw [mem_insert]
    constructor
    · rintro (heq | ⟨hmem, -⟩)
      · exact absurd (congrArg Prod.snd heq) hj
      · exact hmem
    · intro hmem
      refine .inr ⟨hmem, ?_⟩
      rintro rfl
      exact not_mem_of_lookup_eq_none hK hnone hmem
  · exact fun _ => Iff.rfl

/-- A call that finds no entry to cancel has its result. -/
theorem completed_of_lookup_eq_none (hK : Inv s) (hawaits : Outstanding i id s ∨ Completed i id s)
    (hnone : s.pending.lookup id = none) : Completed i id s := by
  rcases hawaits with ho | hc
  · exact absurd ho.mem (not_mem_of_lookup_eq_none hK hnone)
  · exact hc

/-- A result that the reader has taken is the response to its id. -/
theorem answers_of_taken {frame : ControlFrame} (h : Completed i id s)
    (htaken : s.taken = some (i, frame)) : (Source.response frame).answers id := by
  rcases h.result with ⟨f, hf, hid, -⟩ | ⟨-, hnot⟩
  · rw [htaken] at hf
    cases hf
    exact hid
  · exact absurd htaken (hnot frame)

/-- A call receives its own result. -/
theorem received_own (hawaits : Outstanding i id s ∨ Completed i id s) (hne : s.channel i ≠ .empty) :
    Absent i s ∧ (Completion.received id (s.channel i)).own := by
  rcases hawaits with ho | hc
  · exact absurd ho.channel hne
  · refine ⟨hc.absent, ?_⟩
    rcases hc.result with ⟨frame, -, -, hempty⟩ | ⟨⟨source, hsent, hanswers⟩, -⟩
    · exact absurd hempty hne
    · rw [hsent]
      exact hanswers

variable [DecidableEq ι]

/-- A call cancels its own entry. -/
theorem cancel_inv (hK : Inv s) (hawaits : Outstanding i id s ∨ Completed i id s)
    (hlookup : s.pending.lookup id = some i) :
    Inv ((s.remove id).dropSender i) ∧ Absent i ((s.remove id).dropSender i) ∧
      ∀ j, j ≠ i → Same j s ((s.remove id).dropSender i) := by
  have hmem : (id, i) ∈ s.pending := hK.lookup_iff.mp hlookup
  refine ⟨hK.remove id, ?_, fun j hj => ⟨?_, Function.update_of_ne hj _ _, fun _ => Iff.rfl⟩⟩
  · intro id' hmem'
    obtain ⟨hmem', hne⟩ := mem_remove.1 hmem'
    rcases hawaits with ho | hc
    · exact hne (ho.only id' hmem')
    · exact hc.absent id hmem
  · intro id'
    refine ⟨fun h => (mem_remove.1 h).1, fun h => mem_remove.2 ⟨h, ?_⟩⟩
    rintro rfl
    exact hj (hK.unique h hmem)

/-- One step of a call keeps the invariant and does not interfere with other calls. -/
theorem act_inv {β : Type} {encode : ControlFrame → Except Error β} {a : CallAction} (hK : Inv s)
    (h : CallInv i s c) (hG : Careful i s c a) (hstep : act encode i s c a = some (s', c')) :
    Inv s' ∧ CallInv i s' c' ∧ ∀ j, j ≠ i → Same j s s' := by
  have hrefl : ∀ j, j ≠ i → Same j s s := fun j _ => .refl j s
  cases a with
  | call method payload =>
    simp only [act] at hstep
    split at hstep <;> cases hstep
    exact ⟨hK, h, hrefl⟩
  | check =>
    simp only [act] at hstep
    split at hstep
    · split_ifs at hstep <;> cases hstep
      · exact ⟨hK, ⟨h.1, trivial⟩, hrefl⟩
      · exact ⟨hK, h, hrefl⟩
    · cases hstep
  | insert id =>
    simp only [act] at hstep
    split at hstep
    · obtain ⟨habsent, hempty, htaken⟩ := h
      split_ifs at hstep with hid
      · cases hstep
        exact ⟨hK, ⟨habsent, trivial⟩, hrefl⟩
      · have hnone : s.pending.lookup id = none := hG.1.resolve_left hid
        simp only [hnone] at hstep
        cases hstep
        obtain ⟨hK', hown, hothers⟩ := insert_inv hK hnone habsent hempty htaken
        exact ⟨hK', .inl hown, hothers⟩
    · cases hstep
  | look =>
    simp only [act] at hstep
    split at hstep
    · split_ifs at hstep <;> cases hstep
      · exact ⟨hK, h, hrefl⟩
      · exact ⟨hK, h, hrefl⟩
    · cases hstep
  | send =>
    simp only [act] at hstep
    split at hstep
    · split at hstep <;> cases hstep
      · exact ⟨hK, h, hrefl⟩
      · exact ⟨hK, h, hrefl⟩
    · cases hstep
  | sendReturns error =>
    simp only [act] at hstep
    split at hstep <;> cases hstep
    · exact ⟨hK, h, hrefl⟩
    · exact ⟨hK, h, hrefl⟩
  | elapse =>
    simp only [act] at hstep
    split at hstep <;> cases hstep
    exact ⟨hK, h, hrefl⟩
  | cancel =>
    have hcancel := hG.1
    simp only [act] at hstep
    split at hstep
    · split at hstep <;> cases hstep
      · next id error j hlookup =>
        have hown : j = i := by simpa [Unconfused, hlookup] using hcancel
        subst hown
        obtain ⟨hK', habsent, hothers⟩ := cancel_inv hK h hlookup
        exact ⟨hK', ⟨habsent, trivial⟩, hothers⟩
      · next hlookup => exact ⟨hK, completed_of_lookup_eq_none hK h hlookup, hrefl⟩
    · split at hstep <;> cases hstep
      · next id j hlookup =>
        have hown : j = i := by simpa [Unconfused, hlookup] using hcancel
        subst hown
        obtain ⟨hK', habsent, hothers⟩ := cancel_inv hK h hlookup
        exact ⟨hK', ⟨habsent, trivial⟩, hothers⟩
      · next hlookup => exact ⟨hK, completed_of_lookup_eq_none hK h hlookup, hrefl⟩
    · cases hstep
  | receive =>
    simp only [act] at hstep
    split at hstep <;> cases hstep
    · next hne => exact ⟨hK, received_own h hne, hrefl⟩
    · next hne => exact ⟨hK, received_own (.inr h) hne, hrefl⟩
  | drop =>
    have habsent : Absent i s := fun id hmem => hG.2 (id, i) hmem rfl
    simp only [act] at hstep
    split at hstep <;> cases hstep
    all_goals exact ⟨hK, habsent, hrefl⟩

/-- The reader takes the entry of a call: its result is on the way. -/
theorem take_inv {frame : ControlFrame} (hK : Inv s) (hfree : s.taken = none)
    (hmem : (frame.correlationId, i) ∈ s.pending) :
    Inv { s.remove frame.correlationId with taken := some (i, frame) } ∧
      ∀ j c, CallInv j s c →
        CallInv j { s.remove frame.correlationId with taken := some (i, frame) } c := by
  refine ⟨hK.remove _, fun j c h => ?_⟩
  by_cases hj : j = i
  · subst hj
    obtain ⟨-, ho⟩ := h.outstanding_of_mem hmem
    refine h.complete hmem ⟨fun id hmem' => ?_, .inl ⟨frame, rfl, rfl, ho.channel⟩⟩
    obtain ⟨hmem', hne⟩ := mem_remove.1 hmem'
    exact hne (ho.only id hmem')
  · refine h.same ⟨fun id => ?_, rfl, fun f => ?_⟩
    · refine ⟨fun h => (mem_remove.1 h).1, fun h => mem_remove.2 ⟨h, ?_⟩⟩
      rintro rfl
      exact hj (hK.unique h hmem)
    · simp [hfree, Ne.symm hj]

/-- The reader sends the result it has taken. -/
theorem deliver_inv {frame : ControlFrame} (htaken : s.taken = some (i, frame)) (h : CallInv j s c) :
    CallInv j { s with
      channel := Function.update s.channel i (.sent (.response frame))
      taken := none } c := by
  by_cases hj : j = i
  · subst hj
    have hnot : ¬ ∀ f, s.taken ≠ some (j, f) := fun hall => hall frame htaken
    -- Only a call that waits can have its entry taken.
    cases c with
    | idle | entered method payload | checked method payload => exact absurd h.2.2 hnot
    | returned completion => exact ⟨h.1, h.2⟩
    | dropped id => exact h
    | receiving id =>
      exact ⟨h.absent, .inr ⟨⟨.response frame, by simp, answers_of_taken h htaken⟩, by simp⟩⟩
    | registered id f | encoding id f | sending id | sendFailed id error | waiting id | elapsed id =>
      rcases h with ho | hc
      · exact absurd ho.taken hnot
      · exact .inr ⟨hc.absent, .inr ⟨⟨.response frame, by simp, answers_of_taken hc htaken⟩, by simp⟩⟩
  · refine h.same ⟨fun _ => Iff.rfl, Function.update_of_ne hj _ _, fun f => ?_⟩
    simp [htaken, Ne.symm hj]

/-- The shutdown sends its result to every entry. -/
theorem failPending_inv (h : CallInv j s c) :
    CallInv j { s with
      pending := []
      channel := fun i => if i ∈ s.pending.map Prod.snd then .sent .shutdown else s.channel i } c := by
  by_cases hj : j ∈ s.pending.map Prod.snd
  · obtain ⟨⟨id, k⟩, hmem, rfl⟩ := List.mem_map.mp hj
    obtain ⟨-, ho⟩ := h.outstanding_of_mem hmem
    refine h.complete hmem ⟨by simp [Absent], .inr ⟨⟨.shutdown, ?_, trivial⟩, ho.taken⟩⟩
    exact if_pos hj
  · have habsent : Absent j s := fun id hmem => hj (List.mem_map.mpr ⟨(id, j), hmem, rfl⟩)
    refine h.same ⟨fun id => ?_, if_neg hj, fun _ => Iff.rfl⟩
    simp [habsent id]

/-- The steps of everybody else. -/
theorem env_inv {e : EnvAction} (hK : Inv s) (hstep : env s e = some s') :
    Inv s' ∧ ∀ j c, CallInv j s c → CallInv j s' c := by
  cases e with
  | resolve frame =>
    simp only [env] at hstep
    split at hstep
    · cases hstep
    · next hfree =>
      split at hstep <;> cases hstep
      · next i hlookup => exact take_inv hK hfree (hK.lookup_iff.mp hlookup)
      · exact ⟨hK, fun j c h => h⟩
  | deliver =>
    simp only [env] at hstep
    split at hstep <;> cases hstep
    next htaken => exact ⟨hK, fun j c h => deliver_inv htaken h⟩
  | beginShutdown =>
    cases hstep
    exact ⟨hK, fun j c h => h.same ⟨fun _ => Iff.rfl, rfl, fun _ => Iff.rfl⟩⟩
  | failPending =>
    simp only [env, Option.ite_none_right_eq_some] at hstep
    obtain ⟨-, hstep⟩ := hstep
    cases hstep
    exact ⟨List.nodup_nil, fun j c h => failPending_inv h⟩

/-! ## Runs -/

omit [DecidableEq ι] in
theorem inv_start (h : Start s) : Inv s ∧ ∀ i, CallInv i s Call.idle := by
  obtain ⟨hpending, hchannel, htaken⟩ := h
  refine ⟨by simp [Inv, hpending], fun i => ⟨by simp [Absent, hpending], hchannel i, ?_⟩⟩
  simp [htaken]

/-- The invariant holds as long as the steps are careful. -/
theorem holds_step {β : Type} {encode : ControlFrame → Except Error β} {s t : State ι}
    {a : Threads.Action ι CallAction EnvAction} (h : Threads.Holds Inv CallInv s)
    (hG : Threads.When Careful (fun _ _ => True) s a)
    (hstep : (threads encode).machine.step s a = some t) : Threads.Holds Inv CallInv t := by
  refine h.step ?_ ?_ hG hstep
  · intro i s c a s' c' hK hc hG hstep
    obtain ⟨hK', hown, hothers⟩ := act_inv hK hc hG hstep
    exact ⟨hK', hown, fun j m hj hm => hm.same (hothers j hj)⟩
  · intro s e s' hK _ hstep
    exact env_inv hK hstep

/-- Entries and live calls that are not completed belong together. -/
structure Matched (s : State ι) : Prop where
  live : ∀ id i, (id, i) ∈ s.shared.pending → (s.locals i).awaits = some id
  owned : ∀ i id, (s.locals i).awaits = some id → ¬ s.shared.completed i → (id, i) ∈ s.shared.pending

omit [DecidableEq ι] in
theorem matched_of_holds {s : State ι} (h : Threads.Holds Inv CallInv s) : Matched s where
  live id i hmem := ((h.thread i).outstanding_of_mem hmem).1
  owned i id hawaits hnot := by
    rcases (h.thread i).of_awaits hawaits with ho | hc
    · exact ho.mem
    · exact absurd hc.completed hnot

omit [DecidableEq ι] in
theorem exact_of_holds {s : State ι} (h : Threads.Holds Inv CallInv s) : s.Exact := by
  intro id i
  refine ⟨fun hmem => ?_, fun ⟨hawaits, hnot⟩ => (matched_of_holds h).owned i id hawaits hnot⟩
  obtain ⟨hawaits, ho⟩ := (h.thread i).outstanding_of_mem hmem
  exact ⟨hawaits, ho.not_completed⟩

omit [DecidableEq ι] in
theorem unaffected_of_holds {s : State ι} (h : Threads.Holds Inv CallInv s) : s.Unaffected where
  live := (matched_of_holds h).live
  owned := (matched_of_holds h).owned
  taken i id frame hawaits htaken := by
    rcases (h.thread i).of_awaits hawaits with ho | hc
    · exact absurd htaken (ho.taken frame)
    · exact answers_of_taken hc htaken
  sent i id source hawaits hsent := by
    rcases (h.thread i).of_awaits hawaits with ho | hc
    · rw [ho.channel] at hsent
      cases hsent
    · rcases hc.result with ⟨frame, -, -, hempty⟩ | ⟨⟨source', hsent', hanswers⟩, -⟩
      · rw [hempty] at hsent
        cases hsent
      · rw [hsent'] at hsent
        cases hsent
        exact hanswers
  returned i completion hreturned := by
    have hcall := h.thread i
    rw [hreturned] at hcall
    exact hcall.2

/-- An entry of a call that has returned, or was dropped, has no live caller. -/
theorem not_matched_of_mem {shared : Shared ι} {locals : ι → Call} {l : Call}
    (hmem : (id, i) ∈ shared.pending) (hl : l.awaits = none) :
    ¬ Matched (⟨shared, Function.update locals i l⟩ : State ι) := by
  intro hmatched
  have hawaits : (Function.update locals i l i).awaits = some id := hmatched.live id i hmem
  rw [Function.update_self, hl] at hawaits
  cases hawaits

/-- A call that cancels the entry of another one leaves it without an entry and without a result. -/
theorem not_matched_of_cancel {s : State ι} {l : Call} (h : Threads.Holds Inv CallInv s)
    (hlookup : s.shared.pending.lookup id = some j) (hj : j ≠ i) :
    ¬ Matched (⟨(s.shared.remove id).dropSender j, Function.update s.locals i l⟩ : State ι) := by
  intro hmatched
  obtain ⟨hawaits, ho⟩ := (h.thread j).outstanding_of_mem (h.1.lookup_iff.mp hlookup)
  have hawaits' : (Function.update s.locals i l j).awaits = some id := by
    rw [Function.update_of_ne hj]
    exact hawaits
  have hnot : ¬ ((s.shared.remove id).dropSender j).completed j := by
    rintro (⟨frame, htaken⟩ | ⟨source, hsent⟩)
    · exact ho.taken frame htaken
    · simp [Shared.dropSender] at hsent
  have hmem := hmatched.owned j id hawaits' hnot
  exact (mem_remove.1 hmem).2 rfl

/-- A step that is not careful leaves an entry without a live caller, or a live call without its entry. -/
theorem not_matched_of_not_careful {β : Type} {encode : ControlFrame → Except Error β} {s t : State ι}
    {a : Threads.Action ι CallAction EnvAction} (h : Threads.Holds Inv CallInv s)
    (hG : ¬ Threads.When Careful (fun _ _ => True) s a)
    (hstep : (threads encode).machine.step s a = some t) : ¬ Matched t := by
  cases a with
  | env e => exact absurd trivial hG
  | act i a =>
    obtain ⟨⟨shared, l⟩, hact, rfl⟩ := Option.map_eq_some_iff.mp hstep
    simp only [threads] at hact
    cases a with
    | insert id =>
      have hdup : id ≠ "" ∧ s.shared.pending.lookup id ≠ none := by
        simpa [Threads.When, Careful, Unconfused, NotAbandoned] using hG
      obtain ⟨j, hlookup⟩ := Option.ne_none_iff_exists'.mp hdup.2
      simp only [act, if_neg hdup.1, hlookup] at hact
      split at hact <;> cases hact
      exact not_matched_of_mem (mem_insert.2 (.inl rfl)) rfl
    | cancel =>
      simp only [Threads.When, Careful, Unconfused, NotAbandoned, and_true] at hG
      split at hG
      · next id error hc =>
        obtain ⟨hsome, hother⟩ := not_or.mp hG
        obtain ⟨j, hlookup⟩ := Option.ne_none_iff_exists'.mp hsome
        simp only [act, hc, hlookup, Option.some.injEq, Prod.mk.injEq] at hact
        obtain ⟨rfl, rfl⟩ := hact
        exact not_matched_of_cancel h hlookup fun hj => hother (by rw [hlookup, hj])
      · next id hc =>
        obtain ⟨hsome, hother⟩ := not_or.mp hG
        obtain ⟨j, hlookup⟩ := Option.ne_none_iff_exists'.mp hsome
        simp only [act, hc, hlookup, Option.some.injEq, Prod.mk.injEq] at hact
        obtain ⟨rfl, rfl⟩ := hact
        exact not_matched_of_cancel h hlookup fun hj => hother (by rw [hlookup, hj])
      · exact absurd trivial hG
    | drop =>
      have hentry : ∃ entry ∈ s.shared.pending, entry.2 = i := by
        simpa [Threads.When, Careful, Unconfused, NotAbandoned] using hG
      obtain ⟨⟨id, k⟩, hmem, rfl⟩ := hentry
      simp only [act] at hact
      split at hact <;> cases hact
      all_goals exact not_matched_of_mem hmem rfl
    | _ => exact absurd ⟨trivial, trivial⟩ hG

/-- A property between the invariant and the match of entries and calls holds throughout a run exactly if
the steps of the run are careful. -/
theorem throughout_iff_careful {β : Type} {encode : ControlFrame → Except Error β}
    {P : State ι → Prop} (hP : ∀ s, Threads.Holds Inv CallInv s → P s) (hM : ∀ s, P s → Matched s)
    {s t : State ι} {run : List (Threads.Action ι CallAction EnvAction)}
    (hstart : (threads encode).machine.Start s) (hrun : (threads encode).machine.exec s run = some t) :
    (threads encode).machine.Throughout P s run ↔
      (threads encode).machine.Along (Threads.When Careful fun _ _ => True) s run := by
  refine Machine.throughout_iff_along (I := Threads.Holds Inv CallInv) hP ?_ ?_ ?_ hrun
  · exact fun s a t hs hG hstep => holds_step hs hG hstep
  · exact fun s a t hs hG hstep hPt => not_matched_of_not_careful hs hG hstep (hM t hPt)
  · obtain ⟨hs, hlocals⟩ := hstart
    obtain ⟨hK, hJ⟩ := inv_start hs
    refine ⟨hK, fun i => ?_⟩
    rw [hlocals]
    exact hJ i

/-- A call whose id is outstanding is refused; and in the runs in which no future is dropped every call is
left alone by the others exactly if no step inserts an id that has an entry or cancels the entry of
another call. -/
theorem unaffected_iff_unconfused {β : Type} (encode : ControlFrame → Except Error β) (s t : State ι)
    (run : List (Threads.Action ι CallAction EnvAction)) (hstart : (threads encode).machine.Start s)
    (hrun : (threads encode).machine.exec s run = some t)
    (hkept : ∀ i, Threads.Action.act i .drop ∉ run) :
    (∀ (u u' : State ι) i id, (threads encode).machine.step u (.act i (.insert id)) = some u' →
      u.shared.pending.lookup id ≠ none → ∃ error, u'.locals i = .returned (.refused error)) ∧
    ((threads encode).machine.Throughout State.Unaffected s run ↔
      (threads encode).machine.Along (Threads.When Unconfused fun _ _ => True) s run) := by
  refine ⟨fun u u' i id hstep hsome => ?_, ?_⟩
  · obtain ⟨⟨shared, l⟩, hact, rfl⟩ := Option.map_eq_some_iff.mp hstep
    obtain ⟨j, hlookup⟩ := Option.ne_none_iff_exists'.mp hsome
    simp only [threads, act, hlookup] at hact
    split at hact
    · split_ifs at hact <;> cases hact <;> exact ⟨_, Function.update_self _ _ _⟩
    · cases hact
  · rw [throughout_iff_careful (fun _ h => unaffected_of_holds h)
      (fun _ h => ⟨h.live, h.owned⟩) hstart hrun]
    refine Machine.along_congr fun a ha u => ?_
    cases a with
    | env e => exact Iff.rfl
    | act i a =>
      cases a with
      | drop => exact absurd ha (hkept i)
      | _ => exact and_iff_left trivial

/-- A session before its first call. -/
def fresh : State Nat where
  shared := { closing := false, pending := [], channel := fun _ => .empty, taken := none }
  locals _ := .idle

/-- A call up to the point where it waits for its result. -/
def requestRun (i : Nat) (id : String) : List (Threads.Action Nat CallAction EnvAction) :=
  [.act i (.call "ping" .null), .act i .check, .act i (.insert id), .act i .look, .act i .send,
    .act i (.sendReturns none)]

/-- Two calls with different ids; one is answered while its timeout passes, the other is failed by the
shutdown. -/
def answeredRun : List (Threads.Action Nat CallAction EnvAction) :=
  requestRun 0 "a" ++ requestRun 1 "b" ++
    [.act 0 .elapse, .env (.resolve (.response "a" (some .null) none)), .act 0 .cancel, .env .deliver,
      .act 0 .receive, .env .beginShutdown, .env .failPending, .act 1 .receive]

theorem answeredRun_unaffected :
    ∃ t : State Nat, (threads (encodeWith (renderCodec .synthetic))).machine.exec fresh answeredRun =
        some t ∧
      (threads (encodeWith (renderCodec .synthetic))).machine.Throughout State.Unaffected fresh
        answeredRun := by
  refine ⟨_, rfl, ?_⟩
  refine (unaffected_iff_unconfused (encodeWith (renderCodec .synthetic)) fresh _ answeredRun
    ⟨⟨rfl, fun _ => rfl, rfl⟩, rfl⟩ rfl ?_).2.mpr (by decide)
  intro i hmem
  simp [answeredRun, requestRun] at hmem

/-- The generator returns the id of a call that waits; then the response comes. -/
def duplicateRun : List (Threads.Action Nat CallAction EnvAction) :=
  requestRun 0 "a" ++
    [.act 1 (.call "ping" .null), .act 1 .check, .act 1 (.insert "a"),
      .env (.resolve (.response "a" (some .null) none)), .env .deliver, .act 0 .receive]

/-- The call that waited has lost its response, and returns `SessionClosed`. -/
theorem duplicateRun_affected :
    (∀ i, Threads.Action.act i .drop ∉ duplicateRun) ∧
      ∃ t : State Nat, (threads (encodeWith (renderCodec .synthetic))).machine.exec fresh duplicateRun =
          some t ∧
        t.locals 0 = .returned (.received "a" .dropped) ∧ ¬ State.Unaffected t := by
  refine ⟨fun i hmem => ?_, _, rfl, rfl, fun haffected => ?_⟩
  · simp [duplicateRun, requestRun] at hmem
  · exact haffected.returned 0 _ rfl

/-- The map holds exactly the live requests that are not completed, throughout a run, exactly if no step of
the run confuses two ids or drops a future whose entry is in the map. -/
theorem exact_iff_careful {β : Type} (encode : ControlFrame → Except Error β) (s t : State ι)
    (run : List (Threads.Action ι CallAction EnvAction)) (hstart : (threads encode).machine.Start s)
    (hrun : (threads encode).machine.exec s run = some t) :
    (threads encode).machine.Throughout State.Exact s run ↔
      (threads encode).machine.Along (Threads.When Careful fun _ _ => True) s run := by
  refine throughout_iff_careful (fun _ h => exact_of_holds h) (fun _ h => ?_) hstart hrun
  exact ⟨fun id i hmem => ((h id i).mp hmem).1, fun i id hawaits hnot => (h id i).mpr ⟨hawaits, hnot⟩⟩

/-- A future that is dropped when its result has been sent. -/
def droppedLateRun : List (Threads.Action Nat CallAction EnvAction) :=
  requestRun 0 "a" ++ [.env (.resolve (.response "a" (some .null) none)), .env .deliver, .act 0 .drop]

theorem droppedLateRun_exact :
    ∃ t : State Nat, (threads (encodeWith (renderCodec .synthetic))).machine.exec fresh droppedLateRun =
        some t ∧
      (threads (encodeWith (renderCodec .synthetic))).machine.Throughout State.Exact fresh
        droppedLateRun := by
  refine ⟨_, rfl, ?_⟩
  exact (exact_iff_careful (encodeWith (renderCodec .synthetic)) fresh _ droppedLateRun
    ⟨⟨rfl, fun _ => rfl, rfl⟩, rfl⟩ rfl).mpr (by decide)

/-- A future that is dropped while it waits for its result. -/
def abandonedRun : List (Threads.Action Nat CallAction EnvAction) :=
  requestRun 0 "a" ++ [.act 0 .drop]

/-- Its entry stays in the map. -/
theorem abandonedRun_not_exact :
    ∃ t : State Nat, (threads (encodeWith (renderCodec .synthetic))).machine.exec fresh abandonedRun =
        some t ∧
      t.locals 0 = .dropped "a" ∧ ("a", 0) ∈ t.shared.pending ∧ ¬ State.Exact t := by
  refine ⟨_, rfl, rfl, List.mem_singleton.mpr rfl, fun hexact => ?_⟩
  have hawaits := ((hexact "a" 0).mp (List.mem_singleton.mpr rfl)).1
  cases hawaits

end Rtvbp.Rust.Pending
