import Rtvbp.Rust.Session.Proofs.PendingProofs

/-!
# What a call can rely on in every run

Whatever ids the generator returns and whichever futures are dropped: a call inserts at most one entry and
does so once, an entry leads to a channel that nothing was sent to, and a response that was sent to a call
stays its result.
-/

namespace Rtvbp.Rust.Pending

open Rtvbp.Lib Rtvbp.Envelope.Rust

variable {ι : Type} {s s' : Shared ι} {i j : ι} {c c' : Call} {id : String}

/-- The call has not come to `insert`. -/
def Call.fresh : Call → Bool
  | .idle | .entered _ _ | .checked _ _ => true
  | _ => false

/-- Nobody knows of the call. -/
structure Fresh (i : ι) (s : Shared ι) : Prop where
  absent : Absent i s
  channel : s.channel i = .empty
  taken : ∀ frame, s.taken ≠ some (i, frame)

/-- The entries and their channels. -/
structure Wired (s : Shared ι) : Prop where
  keys : Inv s
  single : ∀ i id id', (id, i) ∈ s.pending → (id', i) ∈ s.pending → id = id'
  channel : ∀ i id, (id, i) ∈ s.pending → s.channel i = .empty
  taken : ∀ i frame, s.taken = some (i, frame) → Absent i s ∧ s.channel i = .empty

/-- The response is the result of the call, or about to be. -/
def Shared.Responded (s : Shared ι) (i : ι) (frame : ControlFrame) : Prop :=
  s.taken = some (i, frame) ∨ s.channel i = .sent (.response frame)

/-- A call that has its response has no entry. -/
theorem Wired.absent_of_responded (h : Wired s) {frame : ControlFrame} (hr : s.Responded i frame) :
    Absent i s := by
  rcases hr with htaken | hsent
  · exact (h.taken i frame htaken).1
  · intro id hmem
    rw [h.channel i id hmem] at hsent
    cases hsent

theorem Fresh.not_responded (h : Fresh i s) {frame : ControlFrame} : ¬ s.Responded i frame := by
  rintro (htaken | hsent)
  · exact h.taken frame htaken
  · rw [h.channel] at hsent
    cases hsent

/-! ## The steps on the map -/

/-- What a step leaves of a call: a fresh one is left alone, an entry does not come back, and a response is
kept. -/
structure Leaves (i : ι) (s s' : Shared ι) : Prop where
  fresh : Fresh i s → Fresh i s'
  pending : ∀ id, (id, i) ∈ s'.pending → (id, i) ∈ s.pending
  responded : ∀ frame, s.Responded i frame → s'.Responded i frame
  shutdown : s'.channel i = .sent .shutdown → s.channel i = .sent .shutdown

theorem Leaves.refl (i : ι) (s : Shared ι) : Leaves i s s :=
  ⟨fun h => h, fun _ h => h, fun _ h => h, fun h => h⟩

/-- Only the map, the channel of the call and what the reader has taken matter. -/
theorem Leaves.of_eq (hpending : ∀ id, (id, i) ∈ s'.pending → (id, i) ∈ s.pending)
    (hchannel : s'.channel i = s.channel i) (htaken : s'.taken = s.taken) : Leaves i s s' := by
  refine ⟨?_, hpending, ?_, ?_⟩
  · intro h
    refine ⟨fun id hmem => h.absent id (hpending id hmem), hchannel.trans h.channel, ?_⟩
    rw [htaken]
    exact h.taken
  · intro frame hr
    unfold Shared.Responded
    rw [htaken, hchannel]
    exact hr
  · intro hs
    rwa [← hchannel]

/-- An entry that is not in the map any more. -/
theorem Wired.remove (h : Wired s) (id : String) : Wired (s.remove id) where
  keys := h.keys.remove id
  single i id₁ id₂ h₁ h₂ := h.single i id₁ id₂ (mem_remove.1 h₁).1 (mem_remove.1 h₂).1
  channel i id' hmem := h.channel i id' (mem_remove.1 hmem).1
  taken i frame ht := by
    obtain ⟨habsent, hempty⟩ := h.taken i frame ht
    exact ⟨fun id' hmem => habsent id' (mem_remove.1 hmem).1, hempty⟩

/-- The call whose entry was removed has none. -/
theorem Wired.absent_remove (h : Wired s) (hmem : (id, j) ∈ s.pending) : Absent j (s.remove id) := by
  intro id' hmem'
  obtain ⟨hmem', hne⟩ := mem_remove.1 hmem'
  exact hne (h.single j id' id hmem' hmem)

/-- A fresh call inserts its entry. -/
theorem Wired.insert (h : Wired s) (hfresh : Fresh i s) (id : String) : Wired (s.insert id i) where
  keys := h.keys.insert id i
  single j id₁ id₂ h₁ h₂ := by
    rcases mem_insert.1 h₁ with heq₁ | ⟨hold₁, -⟩ <;> rcases mem_insert.1 h₂ with heq₂ | ⟨hold₂, -⟩
    · exact (congrArg Prod.fst heq₁).trans (congrArg Prod.fst heq₂).symm
    · obtain rfl : j = i := congrArg Prod.snd heq₁
      exact absurd hold₂ (hfresh.absent id₂)
    · obtain rfl : j = i := congrArg Prod.snd heq₂
      exact absurd hold₁ (hfresh.absent id₁)
    · exact h.single j id₁ id₂ hold₁ hold₂
  channel j id' hmem := by
    rcases mem_insert.1 hmem with heq | ⟨hmem, -⟩
    · obtain rfl : j = i := congrArg Prod.snd heq
      exact hfresh.channel
    · exact h.channel j id' hmem
  taken j frame ht := by
    obtain ⟨habsent, hempty⟩ := h.taken j frame ht
    refine ⟨fun id' hmem => ?_, hempty⟩
    rcases mem_insert.1 hmem with heq | ⟨hmem, -⟩
    · obtain rfl : j = i := congrArg Prod.snd heq
      exact hfresh.taken frame ht
    · exact habsent id' hmem

/-- The insertion does not concern the other calls. -/
theorem leaves_insert (hj : j ≠ i) (id : String) : Leaves j s (s.insert id i) := by
  refine .of_eq (fun id' hmem => ?_) rfl rfl
  rcases mem_insert.1 hmem with heq | ⟨hmem, -⟩
  · exact absurd (congrArg Prod.snd heq) hj
  · exact hmem

variable [DecidableEq ι]

/-- The sender of a call that has no entry and no response is dropped. -/
theorem Wired.dropSender (h : Wired s) (habsent : Absent j s) (htaken : ∀ frame, s.taken ≠ some (j, frame)) :
    Wired (s.dropSender j) where
  keys := h.keys
  single := h.single
  channel i id hmem := by
    have hij : i ≠ j := by
      rintro rfl
      exact habsent id hmem
    exact (Function.update_of_ne hij _ _).trans (h.channel i id hmem)
  taken i frame ht := by
    have hij : i ≠ j := by
      rintro rfl
      exact htaken frame ht
    obtain ⟨habs, hempty⟩ := h.taken i frame ht
    exact ⟨habs, (Function.update_of_ne hij _ _).trans hempty⟩

/-- An entry that is removed and its sender dropped: that concerns a call which is waiting for a response,
and no other one. -/
theorem Wired.leaves_drop (h : Wired s) (hmem : (id, j) ∈ s.pending) (i : ι)
    (hpending : ∀ id', (id', i) ∈ s'.pending → (id', i) ∈ s.pending)
    (hchannel : s'.channel = Function.update s.channel j .dropped) (htaken : s'.taken = s.taken) :
    Leaves i s s' := by
  by_cases hij : i = j
  · subst hij
    refine ⟨?_, hpending, ?_, ?_⟩
    · intro hfresh
      exact absurd hmem (hfresh.absent id)
    · intro frame hr
      exact absurd hmem (h.absent_of_responded hr id)
    · intro hs
      rw [hchannel, Function.update_self] at hs
      cases hs
  · exact .of_eq hpending (by rw [hchannel, Function.update_of_ne hij]) htaken

/-! ## The steps -/

/-- What a step of a call does to what the calls share: nothing, or it inserts its entry, in the place of
that of another call perhaps, or it cancels the entry of its id. -/
theorem act_cases {β : Type} {encode : ControlFrame → Except Error β} {a : CallAction}
    (hstep : act encode i s c a = some (s', c')) :
    (s' = s ∧ (c'.fresh → c.fresh)) ∨
    (c.fresh ∧ ¬ c'.fresh ∧ ∃ id, s.pending.lookup id = none ∧ s' = s.insert id i) ∨
    (c.fresh ∧ ¬ c'.fresh ∧ ∃ id j, s.pending.lookup id = some j ∧ s' = (s.insert id i).dropSender j) ∨
    (¬ c.fresh ∧ ¬ c'.fresh ∧ ∃ id j, s.pending.lookup id = some j ∧ s' = (s.remove id).dropSender j) := by
  cases a with
  | call method payload =>
    simp only [act] at hstep
    split at hstep <;> cases hstep
    exact .inl ⟨rfl, fun _ => rfl⟩
  | check =>
    simp only [act] at hstep
    split at hstep <;> cases hstep
    exact .inl ⟨rfl, fun _ => rfl⟩
  | insert id =>
    simp only [act] at hstep
    split at hstep
    · split_ifs at hstep
      · cases hstep
        exact .inl ⟨rfl, fun _ => rfl⟩
      · split at hstep <;> cases hstep
        · next j hlookup => exact .inr (.inr (.inl ⟨rfl, by simp [Call.fresh], id, j, hlookup, rfl⟩))
        · next hlookup => exact .inr (.inl ⟨rfl, by simp [Call.fresh], id, hlookup, rfl⟩)
    · cases hstep
  | look =>
    simp only [act] at hstep
    split at hstep <;> cases hstep
    refine .inl ⟨rfl, fun hfresh => ?_⟩
    split_ifs at hfresh <;> cases hfresh
  | send =>
    simp only [act] at hstep
    split at hstep
    · split at hstep <;> cases hstep <;> exact .inl ⟨rfl, by simp [Call.fresh]⟩
    · cases hstep
  | sendReturns error =>
    simp only [act] at hstep
    split at hstep <;> cases hstep <;> exact .inl ⟨rfl, by simp [Call.fresh]⟩
  | elapse =>
    simp only [act] at hstep
    split at hstep <;> cases hstep
    exact .inl ⟨rfl, by simp [Call.fresh]⟩
  | cancel =>
    simp only [act] at hstep
    split at hstep
    · split at hstep <;> cases hstep
      · next id error _ j hlookup =>
        exact .inr (.inr (.inr ⟨by simp [Call.fresh], by simp [Call.fresh], id, j, hlookup, rfl⟩))
      · exact .inl ⟨rfl, by simp [Call.fresh]⟩
    · split at hstep <;> cases hstep
      · next id _ j hlookup =>
        exact .inr (.inr (.inr ⟨by simp [Call.fresh], by simp [Call.fresh], id, j, hlookup, rfl⟩))
      · exact .inl ⟨rfl, by simp [Call.fresh]⟩
    · cases hstep
  | receive =>
    simp only [act] at hstep
    split at hstep <;> cases hstep <;> exact .inl ⟨rfl, by simp [Call.fresh]⟩
  | drop =>
    simp only [act] at hstep
    split at hstep <;> cases hstep <;> exact .inl ⟨rfl, by simp [Call.fresh]⟩

/-- A step of a call keeps the entries in order, and leaves the calls that have come to `insert`. -/
theorem Wired.act {β : Type} {encode : ControlFrame → Except Error β} {a : CallAction} (h : Wired s)
    (hfresh : c.fresh → Fresh i s) (hstep : act encode i s c a = some (s', c')) :
    Wired s' ∧ s'.taken = s.taken ∧ (c'.fresh → c.fresh ∧ Fresh i s') ∧
      (s'.channel i = .sent .shutdown → s.channel i = .sent .shutdown) ∧
      ∀ j, (j = i → ¬ c.fresh) → Leaves j s s' := by
  rcases act_cases hstep with ⟨rfl, hc⟩ | ⟨hc, hc', id, hlookup, rfl⟩ | ⟨hc, hc', id, j, hlookup, rfl⟩ |
    ⟨hc, hc', id, j, hlookup, rfl⟩
  · exact ⟨h, rfl, fun hf => ⟨hc hf, hfresh (hc hf)⟩, fun hs => hs, fun j _ => .refl j _⟩
  · refine ⟨h.insert (hfresh hc) id, rfl, fun hf => absurd hf hc', fun hs => hs, fun j hj => ?_⟩
    exact leaves_insert (fun heq => hj heq hc) id
  · -- the entry of `j` gives way to that of the new call
    have hmem : (id, j) ∈ s.pending := h.keys.lookup_iff.mp hlookup
    have hij : i ≠ j := by
      rintro rfl
      exact (hfresh hc).absent id hmem
    refine ⟨?_, rfl, fun hf => absurd hf hc', fun hs => ?_, fun k hk => ?_⟩
    · refine (h.insert (hfresh hc) id).dropSender ?_ ?_
      · intro id' hmem'
        rcases mem_insert.1 hmem' with heq | ⟨hmem', hne⟩
        · exact hij (congrArg Prod.snd heq).symm
        · exact hne (h.single j id' id hmem' hmem)
      · intro frame ht
        exact (h.taken j frame ht).1 id hmem
    · exact (Function.update_of_ne hij _ _).symm.trans hs
    · exact h.leaves_drop hmem k (leaves_insert (fun heq => hk heq hc) id).pending rfl rfl
  · have hmem : (id, j) ∈ s.pending := h.keys.lookup_iff.mp hlookup
    have hleaves : ∀ k, Leaves k s ((s.remove id).dropSender j) := fun k =>
      h.leaves_drop hmem k (fun id' hmem' => (mem_remove.1 hmem').1) rfl rfl
    refine ⟨?_, rfl, fun hf => absurd hf hc', (hleaves i).shutdown, fun k _ => hleaves k⟩
    exact (h.remove id).dropSender (h.absent_remove hmem) fun frame ht => (h.taken j frame ht).1 id hmem

omit [DecidableEq ι] in
/-- The reader takes the entry of a call. -/
theorem Wired.take (h : Wired s) {frame : ControlFrame} (hnone : s.taken = none)
    (hlookup : s.pending.lookup frame.correlationId = some i) :
    Wired { s.remove frame.correlationId with taken := some (i, frame) } ∧
      Absent i { s.remove frame.correlationId with taken := some (i, frame) } ∧
      ∀ j, Leaves j s { s.remove frame.correlationId with taken := some (i, frame) } := by
  have hmem : (frame.correlationId, i) ∈ s.pending := h.keys.lookup_iff.mp hlookup
  have hremove := h.remove frame.correlationId
  refine ⟨⟨hremove.keys, hremove.single, hremove.channel, ?_⟩, h.absent_remove hmem,
    fun j => ⟨?_, ?_, ?_, fun hs => hs⟩⟩
  · intro j f ht
    obtain ⟨rfl, rfl⟩ := Prod.mk.inj (Option.some.inj ht)
    exact ⟨h.absent_remove hmem, h.channel i _ hmem⟩
  · intro hfresh
    refine ⟨fun id hmem' => hfresh.absent id (mem_remove.1 hmem').1, hfresh.channel, ?_⟩
    intro f ht
    obtain ⟨rfl, rfl⟩ := Prod.mk.inj (Option.some.inj ht)
    exact hfresh.absent _ hmem
  · exact fun id hmem' => (mem_remove.1 hmem').1
  · rintro f (ht | hsent)
    · rw [hnone] at ht
      cases ht
    · exact .inr hsent

/-- The reader sends the response. -/
theorem Wired.deliver (h : Wired s) (hstep : env s .deliver = some s') :
    Wired s' ∧ s'.taken = none ∧ ∀ j, Leaves j s s' := by
  simp only [env] at hstep
  split at hstep <;> simp only [reduceCtorEq, Option.some.injEq] at hstep
  rename_i i frame htaken
  obtain ⟨habsent, hempty⟩ := h.taken i frame htaken
  subst hstep
  refine ⟨⟨h.keys, h.single, ?_, by simp⟩, rfl, fun j => ?_⟩
  · intro j id hmem
    have hji : j ≠ i := by
      rintro rfl
      exact habsent id hmem
    exact (Function.update_of_ne hji _ _).trans (h.channel j id hmem)
  · by_cases hji : j = i
    · subst hji
      refine ⟨?_, fun _ hmem => hmem, ?_, ?_⟩
      · intro hfresh
        exact absurd htaken (hfresh.taken frame)
      · rintro f (ht | hsent)
        · obtain ⟨-, rfl⟩ := Prod.mk.inj (Option.some.inj (htaken.symm.trans ht))
          exact .inr (Function.update_self _ _ _)
        · rw [hempty] at hsent
          cases hsent
      · intro hs
        cases (Function.update_self _ _ _).symm.trans hs
    · refine ⟨?_, fun _ hmem => hmem, ?_, ?_⟩
      · intro hfresh
        exact ⟨hfresh.absent, (Function.update_of_ne hji _ _).trans hfresh.channel, by simp⟩
      · rintro f (ht | hsent)
        · obtain ⟨rfl, -⟩ := Prod.mk.inj (Option.some.inj (htaken.symm.trans ht))
          exact absurd rfl hji
        · exact .inr ((Function.update_of_ne hji _ _).trans hsent)
      · exact fun hs => (Function.update_of_ne hji _ _).symm.trans hs

/-- The shutdown fails the calls that have an entry. -/
theorem Wired.failPending (h : Wired s) (hstep : env s .failPending = some s') :
    Wired s' ∧ s'.taken = s.taken ∧ s'.pending = [] ∧
      ∀ j, (Fresh j s → Fresh j s') ∧ (∀ frame, s.Responded j frame → s'.Responded j frame) ∧
        (Absent j s → s'.channel j = s.channel j) := by
  simp only [env, Option.ite_none_right_eq_some] at hstep
  obtain rfl := Option.some.inj hstep.2
  have hsame : ∀ j, Absent j s →
      (if j ∈ s.pending.map Prod.snd then Channel.sent .shutdown else s.channel j) = s.channel j := by
    intro j habsent
    refine if_neg fun hmem => ?_
    obtain ⟨⟨id, k⟩, hentry, rfl⟩ := List.mem_map.mp hmem
    exact habsent id hentry
  refine ⟨⟨List.nodup_nil, by simp, by simp, ?_⟩, rfl, rfl, fun j => ⟨?_, ?_, hsame j⟩⟩
  · intro j frame ht
    obtain ⟨habsent, hempty⟩ := h.taken j frame ht
    exact ⟨by simp [Absent], (hsame j habsent).trans hempty⟩
  · intro hfresh
    exact ⟨by simp [Absent], (hsame j hfresh.absent).trans hfresh.channel, hfresh.taken⟩
  · intro frame hr
    have habsent := h.absent_of_responded hr
    exact hr.imp (fun ht => ht) fun hsent => (hsame j habsent).trans hsent

end Rtvbp.Rust.Pending
