import Rtvbp.Lib.Machine
import Mathlib.Tactic

/-!
# A queue with one writer

Messages are admitted to a queue by anybody and written by one writer. The queue can be shut, or closed
with a last message. The history of what was admitted and what was written is kept, so that it can be said
that each admitted message is written once, in its turn, and nothing after the last one.

A program refines an outbox if each of its steps is a step of the outbox or leaves it alone.
-/

namespace Rtvbp.Lib

/-- A queue of messages `μ` with its writer. -/
structure Outbox (μ : Type*) where
  queue : List μ
  closed : Bool
  /-- The message that is being written. -/
  writing : Option μ
  /-- History: the messages that were admitted, and those that were written. -/
  admitted : List μ
  written : List μ

namespace Outbox

variable {μ : Type*}

def empty : Outbox μ := ⟨[], false, none, [], []⟩

variable (b : Outbox μ)

/-- A message is admitted, unless the queue is closed. -/
def push (m : μ) : Outbox μ :=
  if b.closed then b else { b with queue := b.queue ++ [m], admitted := b.admitted ++ [m] }

/-- The queue is closed with a last message, unless it is closed. -/
def closeWith (m : μ) : Outbox μ := if b.closed then b else { b.push m with closed := true }

/-- The queue is closed. -/
def shutdown : Outbox μ := { b with closed := true }

/-- The writer takes the next message. -/
def take : Outbox μ := { b with queue := b.queue.tail, writing := b.queue.head? }

/-- The message is written. -/
def wrote : Outbox μ := { b with writing := none, written := b.written ++ b.writing.toList }

/-- What a step can do, if the close messages are those that close the queue. -/
inductive Step (isClose : μ → Prop) (b : Outbox μ) : Outbox μ → Prop where
  | same : Step isClose b b
  | push (m : μ) : ¬ isClose m → Step isClose b (b.push m)
  | closeWith (m : μ) : Step isClose b (b.closeWith m)
  | shutdown : Step isClose b b.shutdown
  | take : b.writing = none → Step isClose b b.take
  | wrote : Step isClose b b.wrote

/-- What was admitted is what was written, the message that is being written and the queue, in this order;
a close message is the last one, and the queue is closed. -/
structure Flushed (isClose : μ → Prop) : Prop where
  fifo : b.admitted = b.written ++ b.writing.toList ++ b.queue
  close_last : ∀ before m after, b.admitted = before ++ m :: after → isClose m →
    after = [] ∧ b.closed = true

variable {b} {b' : Outbox μ} {isClose : μ → Prop}

theorem flushed_empty : (empty : Outbox μ).Flushed isClose := by
  refine ⟨rfl, fun before m after h _ => ?_⟩
  have hlength := congrArg List.length h
  simp [empty] at hlength

/-- Only the last message of a longer list can be new. -/
theorem eq_of_append_singleton {admitted before after : List μ} {m last : μ}
    (h : admitted ++ [last] = before ++ m :: after) :
    after = [] ∧ m = last ∨ ∃ rest, after = rest ++ [last] ∧ admitted = before ++ m :: rest := by
  rcases after.eq_nil_or_concat with rfl | ⟨rest, x, rfl⟩
  · exact .inl ⟨rfl, (List.append_inj' h rfl).2 |> List.head_eq_of_cons_eq |>.symm⟩
  · have hassoc : admitted ++ [last] = (before ++ m :: rest) ++ [x] := by simpa using h
    obtain ⟨hinit, hlast⟩ := List.append_inj' hassoc rfl
    obtain rfl := List.head_eq_of_cons_eq hlast
    exact .inr ⟨rest, by simp, hinit⟩

theorem Flushed.push (h : b.Flushed isClose) {m : μ} (hm : ¬ isClose m) : (b.push m).Flushed isClose := by
  unfold Outbox.push
  split_ifs with hclosed
  · exact h
  · refine ⟨?_, fun before m' after heq hm' => ?_⟩
    · show b.admitted ++ [m] = b.written ++ b.writing.toList ++ (b.queue ++ [m])
      rw [h.fifo, List.append_assoc]
    · rcases eq_of_append_singleton heq with ⟨-, rfl⟩ | ⟨rest, -, hrest⟩
      · exact absurd hm' hm
      · exact absurd (h.close_last before m' rest hrest hm').2 hclosed

theorem Flushed.closeWith (h : b.Flushed isClose) (m : μ) : (b.closeWith m).Flushed isClose := by
  unfold Outbox.closeWith
  split_ifs with hclosed
  · exact h
  · have hpush : b.push m = { b with queue := b.queue ++ [m], admitted := b.admitted ++ [m] } :=
      if_neg hclosed
    rw [hpush]
    refine ⟨?_, fun before m' after heq hm' => ?_⟩
    · show b.admitted ++ [m] = b.written ++ b.writing.toList ++ (b.queue ++ [m])
      rw [h.fifo, List.append_assoc]
    · rcases eq_of_append_singleton heq with ⟨hafter, -⟩ | ⟨rest, -, hrest⟩
      · exact ⟨hafter, rfl⟩
      · exact absurd (h.close_last before m' rest hrest hm').2 hclosed

theorem Flushed.take (h : b.Flushed isClose) (hwriting : b.writing = none) : b.take.Flushed isClose := by
  refine ⟨?_, h.close_last⟩
  show b.admitted = b.written ++ b.queue.head?.toList ++ b.queue.tail
  rw [h.fifo, hwriting]
  cases b.queue <;> simp

theorem Flushed.wrote (h : b.Flushed isClose) : b.wrote.Flushed isClose := by
  refine ⟨?_, h.close_last⟩
  show b.admitted = b.written ++ b.writing.toList ++ [] ++ b.queue
  rw [h.fifo, List.append_nil]

/-- Every step keeps the order. -/
theorem Flushed.step (h : b.Flushed isClose) (hstep : Step isClose b b') : b'.Flushed isClose := by
  cases hstep with
  | same => exact h
  | push m hm => exact h.push hm
  | closeWith m => exact h.closeWith m
  | shutdown => exact ⟨h.fifo, fun before m after heq hm => ⟨(h.close_last before m after heq hm).1, rfl⟩⟩
  | take hwriting => exact h.take hwriting
  | wrote => exact h.wrote

/-- What was admitted stays, and nothing is admitted to a closed queue. -/
theorem admitted_step (hstep : Step isClose b b') :
    b.admitted <+: b'.admitted ∧ (b.closed = true → b'.admitted = b.admitted ∧ b'.closed = true) := by
  have hpush : ∀ m, b.admitted <+: (b.push m).admitted := by
    intro m
    unfold Outbox.push
    split_ifs
    · exact List.prefix_rfl
    · exact List.prefix_append _ _
  cases hstep with
  | same | take hwriting | wrote => exact ⟨List.prefix_rfl, fun hclosed => ⟨rfl, hclosed⟩⟩
  | shutdown => exact ⟨List.prefix_rfl, fun _ => ⟨rfl, rfl⟩⟩
  | push m hm =>
    refine ⟨hpush m, fun hclosed => ?_⟩
    rw [Outbox.push, if_pos hclosed]
    exact ⟨rfl, hclosed⟩
  | closeWith m =>
    constructor
    · unfold Outbox.closeWith
      split_ifs
      · exact List.prefix_rfl
      · exact hpush m
    · intro hclosed
      rw [Outbox.closeWith, if_pos hclosed]
      exact ⟨rfl, hclosed⟩

/-- When a close message is written, everything is. -/
theorem Flushed.written_of_close (h : b.Flushed isClose) {m : μ} (hm : isClose m) (hwritten : m ∈ b.written) :
    ∃ before, b.written = before ++ [m] ∧ b.admitted = b.written ∧ b.writing = none ∧ b.queue = [] := by
  obtain ⟨before, after, hsplit⟩ := List.append_of_mem hwritten
  have hadmitted : b.admitted = before ++ m :: (after ++ b.writing.toList ++ b.queue) := by
    rw [h.fifo, hsplit]
    simp
  obtain ⟨hnil, -⟩ := h.close_last before m _ hadmitted hm
  simp only [List.append_eq_nil_iff, Option.toList_eq_nil_iff] at hnil
  obtain ⟨⟨rfl, hwriting⟩, hqueue⟩ := hnil
  refine ⟨before, hsplit, ?_, hwriting, hqueue⟩
  rw [h.fifo, hwriting, hqueue]
  simp

/-- A close message that is being written is the last one. -/
theorem Flushed.queue_of_close (h : b.Flushed isClose) {m : μ} (hm : isClose m) (hwriting : b.writing = some m) :
    b.queue = [] ∧ b.closed = true := by
  refine h.close_last b.written m b.queue ?_ hm
  rw [h.fifo, hwriting]
  simp

end Outbox

/-! ## Programs with an outbox -/

namespace Machine

variable {σ α μ : Type*}

/-- In the runs whose steps meet `G`, the outbox of a program is flushed before its close message: the
order is kept, nothing is admitted once the queue is closed, what was admitted before is on the wire before
the close message, and the steps of the writer alone bring everything to the wire. -/
structure Flushes (M : Machine σ α) (G : σ → α → Prop) (outbox : σ → Outbox μ) (isClose : μ → Prop)
    (isWriter : α → Prop) : Prop where
  flushed : ∀ s, M.ReachableWhere G s → (outbox s).Flushed isClose
  refuses : ∀ s t, M.ReachableWhere G s → M.Steps G s t → (outbox s).closed = true →
    (outbox t).admitted = (outbox s).admitted
  before_close : ∀ s t m, M.ReachableWhere G s → M.Steps G s t → (outbox s).closed = false → isClose m →
    m ∈ (outbox t).written →
      ∃ before, (outbox t).written = before ++ [m] ∧ (outbox s).admitted <+: before
  drains : ∀ s, M.ReachableWhere G s → ∃ schedule t, (∀ a ∈ schedule, isWriter a) ∧
    M.exec s schedule = some t ∧ (outbox t).written = (outbox s).admitted

variable {M : Machine σ α} {G : σ → α → Prop} {outbox : σ → Outbox μ} {isClose : μ → Prop}
  {isWriter : α → Prop} {I : σ → Prop}

/-- The next step of the writer: it takes a message, or has written one. -/
def Progresses (M : Machine σ α) (outbox : σ → Outbox μ) (isWriter : α → Prop) (s : σ) (a : α) (t : σ) : Prop :=
  isWriter a ∧ M.step s a = some t ∧
    ((outbox s).queue ≠ [] ∧ (outbox s).writing = none ∧ outbox t = (outbox s).take ∨
      (outbox s).writing ≠ none ∧ outbox t = (outbox s).wrote)

/-- A writer that can go on as long as something is not written brings everything to the wire. -/
theorem drains_of_progress (hstep : ∀ s l t, I s → (outbox s).Flushed isClose → G s l → M.step s l = some t →
      I t ∧ Outbox.Step isClose (outbox s) (outbox t))
    (hwriter : ∀ s, I s → (outbox s).Flushed isClose → (outbox s).writing ≠ none ∨ (outbox s).queue ≠ [] →
      ∃ a t, G s a ∧ M.Progresses outbox isWriter s a t) {s : σ} (h : I s)
    (hflushed : (outbox s).Flushed isClose) :
    ∃ schedule t, (∀ a ∈ schedule, isWriter a) ∧ M.exec s schedule = some t ∧
      (outbox t).written = (outbox s).admitted := by
  -- a message that is taken counts one less than a message in the queue
  generalize hn : 2 * (outbox s).queue.length + (outbox s).writing.toList.length = n
  induction n using Nat.strong_induction_on generalizing s with
  | _ n ih =>
    by_cases hrest : (outbox s).writing ≠ none ∨ (outbox s).queue ≠ []
    · obtain ⟨a, t, hG, ha, ht, hprogress⟩ := hwriter s h hflushed hrest
      obtain ⟨hI, houtbox⟩ := hstep s a t h hflushed hG ht
      have hadmitted : (outbox t).admitted = (outbox s).admitted := by
        rcases hprogress with ⟨-, -, heq⟩ | ⟨-, heq⟩ <;> rw [heq] <;> rfl
      have hless : 2 * (outbox t).queue.length + (outbox t).writing.toList.length < n := by
        rcases hprogress with ⟨hqueue, hwriting, heq⟩ | ⟨hwriting, heq⟩ <;> rw [heq]
        · obtain ⟨m, rest, hcons⟩ := List.exists_cons_of_ne_nil hqueue
          simp only [Outbox.take, hcons, hwriting, List.length_cons, List.tail_cons, List.head?_cons,
            Option.toList_some, Option.toList_none, List.length_nil] at hn ⊢
          omega
        · obtain ⟨m, hm⟩ := Option.ne_none_iff_exists'.mp hwriting
          simp only [Outbox.wrote, hm, Option.toList_some, Option.toList_none, List.length_cons,
            List.length_nil] at hn ⊢
          omega
      obtain ⟨schedule, u, hall, hexec, hwritten⟩ := ih _ hless hI (hflushed.step houtbox) rfl
      refine ⟨a :: schedule, u, fun b hb => ?_, ?_, hwritten.trans hadmitted⟩
      · rcases List.mem_cons.mp hb with rfl | hb
        · exact ha
        · exact hall b hb
      · rw [exec_cons, ht]
        exact hexec
    · simp only [not_or, not_not] at hrest
      refine ⟨[], s, by simp, rfl, ?_⟩
      rw [hflushed.fifo, hrest.1, hrest.2]
      simp

/-- The rule: an invariant under which every step is a step of the outbox, and under which the writer can
go on as long as something is not written. -/
theorem Flushes.of_invariant (h₀ : ∀ s, M.Start s → I s ∧ outbox s = .empty)
    (hstep : ∀ s l t, I s → (outbox s).Flushed isClose → G s l → M.step s l = some t →
      I t ∧ Outbox.Step isClose (outbox s) (outbox t))
    (hwriter : ∀ s, I s → (outbox s).Flushed isClose → (outbox s).writing ≠ none ∨ (outbox s).queue ≠ [] →
      ∃ a t, G s a ∧ M.Progresses outbox isWriter s a t) :
    M.Flushes G outbox isClose isWriter := by
  have hinv : ∀ s, M.ReachableWhere G s → I s ∧ (outbox s).Flushed isClose := by
    intro s hs
    refine ReachableWhere.invariant (I := fun s => I s ∧ (outbox s).Flushed isClose) (fun s hs => ?_)
      (fun s l t hI hG hl => ?_) hs
    · obtain ⟨hI, hempty⟩ := h₀ s hs
      rw [hempty]
      exact ⟨hI, Outbox.flushed_empty⟩
    · obtain ⟨hI', houtbox⟩ := hstep s l t hI.1 hI.2 hG hl
      exact ⟨hI', hI.2.step houtbox⟩
  have hrun : ∀ s t, M.ReachableWhere G s → M.Steps G s t →
      (outbox s).admitted <+: (outbox t).admitted ∧
        ((outbox s).closed = true → (outbox t).admitted = (outbox s).admitted ∧ (outbox t).closed = true) := by
    intro s t hs hst
    induction hst with
    | refl => exact ⟨List.prefix_rfl, fun hclosed => ⟨rfl, hclosed⟩⟩
    | @tail u v hsu huv ih =>
      obtain ⟨l, hG, hl⟩ := huv
      obtain ⟨s₀, hs₀, hstart⟩ := hs
      have hu := hinv u ⟨s₀, hs₀, hstart.trans hsu⟩
      obtain ⟨hgrows, hsealed⟩ := Outbox.admitted_step (hstep u l v hu.1 hu.2 hG hl).2
      refine ⟨ih.1.trans hgrows, fun hclosed => ?_⟩
      obtain ⟨hadmitted, hclosed'⟩ := ih.2 hclosed
      obtain ⟨hadmitted', hclosed''⟩ := hsealed hclosed'
      exact ⟨hadmitted'.trans hadmitted, hclosed''⟩
  refine ⟨fun s hs => (hinv s hs).2, fun s t hs hst hclosed => ((hrun s t hs hst).2 hclosed).1,
    fun s t m hs hst hopen hm hwritten => ?_, fun s hs => drains_of_progress hstep hwriter (hinv s hs).1 (hinv s hs).2⟩
  obtain ⟨s₀, hs₀, hstart⟩ := hs
  have ht := (hinv t ⟨s₀, hs₀, hstart.trans hst⟩).2
  have hs := (hinv s ⟨s₀, hs₀, hstart⟩).2
  obtain ⟨before, hbefore, hadmitted, -⟩ := ht.written_of_close hm hwritten
  refine ⟨before, hbefore, ?_⟩
  have hprefix := (hrun s t ⟨s₀, hs₀, hstart⟩ hst).1
  rw [hadmitted, hbefore] at hprefix
  rcases List.prefix_concat_iff.mp hprefix with heq | hprefix
  · -- the close message was not admitted to an open queue
    have hclosed := (hs.close_last before m [] heq hm).2
    rw [hopen] at hclosed
    cases hclosed
  · exact hprefix

end Machine

end Rtvbp.Lib
