import SqsInput.Acks

/-!
# What the fetch loop delivers

The fetch loop buffers each batch `ReceiveMessage` returns, offers the batch to `AddNew`, and
hands the buffer out one message at a time. `Wf` already says that the messages handed out are a
prefix of those received, each once. When the loop returns, its deferred function resets the
visibility of the messages it still buffers.

That reset goes through `updateVisibilityMessages`, which skips every handle whose deadline
reads as the `DELETED` sentinel `-1`. The ack loop only marks handles it was given by an
`AckFunc`, and those were dispatched; but a stored deadline is also `-1` whenever the clock
reading plus `MessageTimeout` falls in the second before the epoch, which a negative timeout
allows. Such a handle is buffered, never dispatched, and left out of the reset
(`finaliser_skips_sentinel`). With a timeout that is not negative no unmarked handle carries the
sentinel (`LiveDeadlines`), and the reset covers the buffer exactly (`fetch_delivery`).
-/

namespace SqsInput

open SqsInFlightTracker

/-! ## Deadlines of unmarked handles -/

/-- No received handle that the ack loop has not marked carries a negative deadline. -/
def LiveDeadlines (s : Reader) : Prop :=
  ∀ r ∈ handlesOf s.received, r ∉ s.marked → 0 ≤ (s.heap.cell r).deadline

theorem LiveDeadlines.connect : LiveDeadlines connect := by
  simp [LiveDeadlines, SqsInput.connect]

/-- A stored deadline is not negative when the instant is not. -/
theorem store_nonneg {v : Int} (hv : 0 ≤ v) : 0 ≤ SqsMessageDeadline.store v :=
  Int.ediv_nonneg hv (by decide)

section Live

variable {cfg : SqsiConfig} {s s' : Reader} (hT : 0 ≤ cfg.messageTimeout) (hw : Wf s)
  (hl : LiveDeadlines s)
include hl

omit hT hw in
/-- A step that leaves the heap and the received messages alone and only adds marks. -/
theorem LiveDeadlines.frame (hheap : s'.heap = s.heap) (hrec : s'.received = s.received)
    (hm : s.marked ⊆ s'.marked) : LiveDeadlines s' := fun r hr hnm => by
  rw [hheap]
  exact hl r (hrec ▸ hr) fun h => hnm (hm h)

include hT hw

theorem LiveDeadlines.receive {res : Option (List (Message × Nat))}
    (h : step cfg s (.receive res) = some s') : LiveDeadlines s' := by
  obtain ⟨-, -, rfl⟩ := step_receive h
  intro r hr hnm
  simp only [Reader.getMsgs, handlesOf_append, List.mem_append] at hr hnm ⊢
  rcases hr with hr | hr
  · rw [wrapMessages_cell_of_lt _ (hw.handles_lt r hr)]
    exact hl r hr hnm
  · obtain ⟨now, hd⟩ := wrapMessages_deadline _ hr
    rw [hd]
    exact store_nonneg (by omega)

omit hT hw in
theorem LiveDeadlines.handleAck {r : Nat} {erase : Bool} {o : Outcome} :
    LiveDeadlines (s.handleAck cfg r erase o) := by
  intro r' hr hnm
  simp only [Reader.handleAck, List.mem_append, List.mem_singleton, not_or] at hr hnm ⊢
  rw [Heap.setDeadline_deadline, if_neg hnm.2]
  exact hl r' hr hnm.1

theorem LiveDeadlines.refreshPull {i now : Nat} {order : List Nat}
    (h : step cfg s (.refreshPull i now order) = some s') : LiveDeadlines s' := by
  obtain ⟨-, -, rfl⟩ := step_refreshPull h
  intro r hr hnm
  simp only [Reader.afterPull, pullToRefresh_deadline hw.refs_nodup] at hr hnm ⊢
  split
  · exact store_nonneg (by omega)
  · exact hl r hr hnm

/-- **With a timeout that is not negative, every step keeps the deadlines of unmarked handles
off the sentinel.** -/
theorem LiveDeadlines.step {e : Event} (h : step cfg s e = some s') : LiveDeadlines s' := by
  have same : ∀ {l : List Nat}, l ⊆ l := @fun l => List.Subset.refl l
  cases e with
  | receive res => exact hl.receive hT hw h
  | addBatch => obtain ⟨b, -, -, rfl⟩ := step_addBatch h; exact hl.frame rfl rfl same
  | abandonAdd => obtain ⟨-, -, rfl⟩ := step_abandonAdd h; exact hl.frame rfl rfl same
  | wake => obtain ⟨-, rfl⟩ := step_wake h; exact hl.frame rfl rfl same
  | dispatch => obtain ⟨m, rest, -, -, rfl⟩ := step_dispatch h; exact hl.frame rfl rfl same
  | fetchExit o => obtain ⟨-, -, rfl⟩ := step_fetchExit h; exact hl.frame rfl rfl same
  | ack r o => obtain ⟨-, -, rfl⟩ := step_ack h; exact hl.handleAck
  | nack r o => obtain ⟨-, -, rfl⟩ := step_nack h; exact hl.handleAck
  | tick oAcks oNacks => obtain ⟨-, rfl⟩ := step_tick h; exact hl.frame rfl rfl same
  | ackExit oAcks oNacks => obtain ⟨-, -, rfl⟩ := step_ackExit h; exact hl.frame rfl rfl same
  | refreshStart i =>
    obtain ⟨-, ⟨-, rfl⟩ | ⟨-, rfl⟩⟩ := step_refreshStart h <;> exact hl.frame rfl rfl same
  | refreshPull i now order => exact hl.refreshPull hT hw h
  | refreshScan i => obtain ⟨_, _, -, rfl⟩ := step_refreshScan h; exact hl.frame rfl rfl same
  | refreshSend i ok =>
    obtain ⟨_, _, -, rfl⟩ := step_refreshSend h
    exact hl.frame rfl rfl same
  | ackAfterStop r o => obtain ⟨-, -, rfl⟩ := step_ackAfterStop h; exact hl.frame rfl rfl same
  | nackAfterStop r o => obtain ⟨-, -, rfl⟩ := step_nackAfterStop h; exact hl.frame rfl rfl same
  | softStop => rw [step_softStop h]; exact hl.frame rfl rfl same
  | closeReturn => obtain ⟨-, -, -, rfl⟩ := step_closeReturn h; exact hl.frame rfl rfl same

end Live

theorem Reachable.liveDeadlines {cfg : SqsiConfig} {s : Reader} (hT : 0 ≤ cfg.messageTimeout)
    (hs : Reachable cfg s) : LiveDeadlines s :=
  hs.induction_wf LiveDeadlines.connect fun hw hl h => hl.step hT hw h

/-- No buffered handle reads as `DELETED`. -/
theorem not_isDeleted_of_pending {cfg : SqsiConfig} {s : Reader} (hT : 0 ≤ cfg.messageTimeout)
    (hs : Reachable cfg s) {r : Nat} (hr : r ∈ handlesOf s.pendingMsgs) :
    s.heap.isDeleted r = false := by
  have hw := hs.wf
  have hd := hs.liveDeadlines hT r (hw.received_of_pending hr) fun hm =>
    hw.dispatched_not_pending (hw.marked_dispatched r hm) hr
  simp only [Heap.isDeleted, SqsMessageDeadline.isDeleted, SqsMessageDeadline.deleted,
    beq_eq_false_iff_ne]
  omega

/-! ## The fetch loop's delivery -/

theorem finaliser_skips_sentinel :
    ∃ s, Reachable { SqsiConfig.default with messageTimeout := -1790000000500000000 } s ∧
      s.fetch = .stopped ∧ handlesOf s.pendingMsgs = [0] ∧ ∀ rpc ∈ s.log, 0 ∉ rpc.resets := by
  obtain ⟨s, hs, h⟩ :=
    @Reachable.of_run { SqsiConfig.default with messageTimeout := -1790000000500000000 }
    [.receive (some [(⟨some "m1", some "r1", some "b"⟩, 1790000000000000000)]), .addBatch,
      .softStop, .fetchExit none]
    (fun s => decide (s.fetch = .stopped ∧ handlesOf s.pendingMsgs = [0] ∧
      ∀ rpc ∈ s.log, 0 ∉ rpc.resets)) (by decide)
  exact ⟨s, hs, of_decide_eq_true h⟩

/-- **What the fetch loop delivers**, with a timeout that is not negative. The messages handed
to `Read` are a prefix of those received, each once. Each receive appends its messages, wrapped,
and offers them to `AddNew` unless there are none; `AddNew` inserts the handles of exactly the
messages received and not yet handed out. When the loop returns with `ResetVisibility` on and its
resets succeeding, its requests are zero-visibility changes whose entries are the handles of the
undispatched messages, in order, each once, and none of a dispatched message. -/
theorem fetch_delivery {cfg : SqsiConfig} {s : Reader} (hT : 0 ≤ cfg.messageTimeout)
    (hs : Reachable cfg s) :
    s.received = s.dispatched ++ s.pendingMsgs ∧
    (∀ res s', step cfg s (.receive res) = some s' →
      ∃ b, s'.received = s.received ++ b ∧ b.map SqsMessage.message = (res.getD []).map Prod.fst ∧
        (b = [] ∧ s'.fetch = .sleeping ∨ s'.fetch = .adding b)) ∧
    (∀ s', step cfg s .addBatch = some s' →
      ∃ b, s.fetch = .adding b ∧ s.received = s.dispatched ++ b ∧
        s'.inserted = s.inserted ++ handlesOf b) ∧
    (cfg.resetVisibility = true → ∀ s', step cfg s (.fetchExit none) = some s' →
      ∃ new, s'.log = s.log ++ new ∧
        (∀ rpc ∈ new, ∃ entries, rpc = .changeMessageVisibilityBatch .finaliser entries 0) ∧
        new.flatMap Rpc.resets = handlesOf s.pendingMsgs ∧ (handlesOf s.pendingMsgs).Nodup ∧
        ∀ r ∈ handlesOf s.pendingMsgs, r ∉ handlesOf s.dispatched) := by
  have hw := hs.wf
  refine ⟨hw.received_eq, fun res s' h => ?_, fun s' h => ?_, fun hrv s' h => ?_⟩
  · obtain ⟨-, -, rfl⟩ := step_receive h
    refine ⟨_, rfl, wrapMessages_message _ _ _, ?_⟩
    simp only [Reader.getMsgs]
    split
    · exact .inl ⟨‹_›, rfl⟩
    · exact .inr rfl
  · obtain ⟨b, hb, -, rfl⟩ := step_addBatch h
    exact ⟨b, hb, hw.adding_eq hb ▸ hw.received_eq, rfl⟩
  · obtain ⟨-, -, rfl⟩ := step_fetchExit h
    refine ⟨_, rfl, fun rpc hr => ?_, ?_, hw.pending_nodup,
      fun r hr hd => hw.dispatched_not_pending hd hr⟩
    · obtain ⟨-, entries, -, rfl⟩ := mem_resetMessages.mp (mem_readLoopFinaliser hr)
      exact ⟨entries, rfl⟩
    · unfold readLoopFinaliser
      split
      · simp_all
      · rw [Outcome.issued, flatMap_resets_resetMessages hrv, List.filter_eq_self]
        exact fun r hr => by simp [not_isDeleted_of_pending hT hs hr]

theorem fetch_delivery_stopping :
    ∃ s, 0 ≤ SqsiConfig.default.messageTimeout ∧ Reachable SqsiConfig.default s ∧
      s.softStopped = true ∧ handlesOf s.dispatched = [0] ∧ handlesOf s.pendingMsgs = [1, 2] ∧
      (step SqsiConfig.default s (.fetchExit none)).isSome ∧
      (s.received = s.dispatched ++ s.pendingMsgs ∧
      (∀ res s', step SqsiConfig.default s (.receive res) = some s' →
        ∃ b, s'.received = s.received ++ b ∧
          b.map SqsMessage.message = (res.getD []).map Prod.fst ∧
          (b = [] ∧ s'.fetch = .sleeping ∨ s'.fetch = .adding b)) ∧
      (∀ s', step SqsiConfig.default s .addBatch = some s' →
        ∃ b, s.fetch = .adding b ∧ s.received = s.dispatched ++ b ∧
          s'.inserted = s.inserted ++ handlesOf b) ∧
      (SqsiConfig.default.resetVisibility = true →
        ∀ s', step SqsiConfig.default s (.fetchExit none) = some s' →
        ∃ new, s'.log = s.log ++ new ∧
          (∀ rpc ∈ new, ∃ entries, rpc = .changeMessageVisibilityBatch .finaliser entries 0) ∧
          new.flatMap Rpc.resets = handlesOf s.pendingMsgs ∧
          (handlesOf s.pendingMsgs).Nodup ∧
          ∀ r ∈ handlesOf s.pendingMsgs, r ∉ handlesOf s.dispatched)) := by
  obtain ⟨s, hs, h⟩ := @Reachable.of_run SqsiConfig.default
    [.receive (some [(⟨some "m1", some "r1", some "b"⟩, 0), (⟨some "m2", some "r2", some "b"⟩, 0),
      (⟨some "m3", some "r3", some "b"⟩, 0)]), .addBatch, .dispatch, .softStop]
    (fun s => decide (s.softStopped = true ∧ handlesOf s.dispatched = [0] ∧
      handlesOf s.pendingMsgs = [1, 2] ∧ (step SqsiConfig.default s (.fetchExit none)).isSome))
    (by decide)
  obtain ⟨hss, hd, hp, hexit⟩ := of_decide_eq_true h
  exact ⟨s, by decide, hs, hss, hd, hp, hexit, fetch_delivery (by decide) hs⟩

end SqsInput
