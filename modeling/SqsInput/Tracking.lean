import SqsInput.Fetch

/-!
# What the in-flight tracker holds

The tracker is a map from message id to handle, so it holds one handle per id. `AddNew` stores
each handle of its batch under the handle's id, replacing whatever was there, and the ack loop
removes a handle by its id, whichever handle is stored there. As long as no two handles admitted
by `AddNew` share an id, the tracker therefore holds exactly the admitted handles that no
`AckFunc` has been called for, until the soft stop (`tracker_tracks_unacked`). SQS delivers at
least once, and a message received again while its first copy is in flight comes back with the
same id: the second copy then replaces the first in the tracker, which stops refreshing a handle
nobody has acked (`duplicate_id_untracked`).

`AddNew` admits a batch while the tracker holds fewer than `MaxOutstanding` handles, and then
inserts the whole batch, so the tracker can grow past the limit by one batch less one handle
(`tracker_size_bound`). The bound needs `MaxNumberOfMessages` not to be negative, which its
documented range of 1 to 10 gives; one full batch into a tracker with room for one reaches it.
-/

namespace SqsInput

open SqsInFlightTracker

/-! ## The invariant before the soft stop -/

/-- Whether every handle admitted under the id of `r` is `r` itself. -/
def Reader.idUnique (s : Reader) (r : Nat) : Prop :=
  ∀ r' ∈ s.inserted, (s.heap.cell r').id = (s.heap.cell r).id → r' = r

/-- What the tracker holds before the soft stop, and the facts about the fetch loop and the ack
loop it rests on. -/
structure TrackInv (s : Reader) : Prop where
  marked_acked : ∀ r ∈ s.marked, r ∈ s.acks ∨ r ∈ s.nacks
  acked_marked : s.softStopped = false → ∀ r, r ∈ s.acks ∨ r ∈ s.nacks → r ∈ s.marked
  pending_inserted : s.softStopped = false → (∀ b, s.fetch ≠ .adding b) →
    ∀ r ∈ handlesOf s.pendingMsgs, r ∈ s.inserted
  dispatched_inserted : s.softStopped = false → ∀ r ∈ handlesOf s.dispatched, r ∈ s.inserted
  unique_tracked : s.softStopped = false → ∀ r ∈ s.inserted, r ∉ s.marked → s.idUnique r →
    s.tracker.lookup (s.heap.cell r).id = some r

theorem TrackInv.connect : TrackInv connect where
  marked_acked := by simp [SqsInput.connect]
  acked_marked := by simp [SqsInput.connect]
  pending_inserted := by simp [SqsInput.connect]
  dispatched_inserted := by simp [SqsInput.connect]
  unique_tracked := by simp [SqsInput.connect]

section Preservation

variable {cfg : SqsiConfig} {s s' : Reader} (hw : Wf s) (ht : TrackInv s)
include ht

omit hw in
/-- A step after which the soft stop has fired keeps what does not wait for it. -/
theorem TrackInv.of_softStopped (hss : s'.softStopped = true)
    (hm : ∀ r ∈ s'.marked, r ∈ s.marked ∨ r ∈ s'.acks ∨ r ∈ s'.nacks)
    (ha : s.acks ⊆ s'.acks) (hn : s.nacks ⊆ s'.nacks) : TrackInv s' where
  marked_acked r h := (hm r h).elim (fun h => (ht.marked_acked r h).imp (@ha r) (@hn r)) id
  acked_marked h := absurd (hss.symm.trans h) (by decide)
  pending_inserted h := absurd (hss.symm.trans h) (by decide)
  dispatched_inserted h := absurd (hss.symm.trans h) (by decide)
  unique_tracked h := absurd (hss.symm.trans h) (by decide)

omit hw in
/-- A step that leaves the tracker, the buffers and the ghost lists alone, and the ids of the
admitted handles. -/
theorem TrackInv.frame (hid : ∀ r ∈ s.inserted, (s'.heap.cell r).id = (s.heap.cell r).id)
    (htr : s'.tracker = s.tracker) (hins : s'.inserted = s.inserted) (hm : s'.marked = s.marked)
    (ha : s'.acks = s.acks) (hn : s'.nacks = s.nacks) (hss : s'.softStopped = s.softStopped)
    (hpend : s'.pendingMsgs = s.pendingMsgs) (hd : s'.dispatched = s.dispatched)
    (hf : s'.fetch = s.fetch) : TrackInv s' where
  marked_acked := by rw [hm, ha, hn]; exact ht.marked_acked
  acked_marked := by rw [hm, ha, hn, hss]; exact ht.acked_marked
  pending_inserted := by rw [hpend, hins, hss, hf]; exact ht.pending_inserted
  dispatched_inserted := by rw [hd, hins, hss]; exact ht.dispatched_inserted
  unique_tracked h r hr hnm hu := by
    rw [hins] at hr
    rw [hid r hr, htr]
    rw [hss] at h
    rw [hm] at hnm
    refine ht.unique_tracked h r hr hnm fun r' h' he => hu r' (hins ▸ h') ?_
    rw [hid r' h', hid r hr]
    exact he

include hw

theorem TrackInv.receive {res : Option (List (Message × Nat))}
    (h : step cfg s (.receive res) = some s') : TrackInv s' := by
  obtain ⟨-, hp, rfl⟩ := step_receive h
  have hid : ∀ r ∈ s.inserted, ((s.getMsgs cfg res).heap.cell r).id = (s.heap.cell r).id :=
    fun r hr => by
      simp only [Reader.getMsgs]
      rw [wrapMessages_cell_of_lt _ (hw.handles_lt r (hw.inserted_received r hr))]
  refine ⟨ht.marked_acked, ht.acked_marked, fun hss hf r hr => ?_, ht.dispatched_inserted,
    fun hss r hr hnm hu => ?_⟩
  · simp only [Reader.getMsgs, hp, List.nil_append] at hf hr
    split at hf
    · simp_all
    · exact absurd rfl (hf _)
  · rw [hid r hr]
    exact ht.unique_tracked hss r hr hnm fun r' h' he => hu r' h' (by rw [hid r' h', hid r hr]; exact he)

theorem TrackInv.addBatch (h : step cfg s .addBatch = some s') : TrackInv s' := by
  obtain ⟨b, hb, -, rfl⟩ := step_addBatch h
  have hbp := hw.adding_eq hb
  subst hbp
  have hnd : (handlesOf s.pendingMsgs).Nodup := hw.pending_nodup
  refine { ht with
    pending_inserted := fun _ _ r hr => List.mem_append_right _ hr
    dispatched_inserted := fun hss r hr => List.mem_append_left _ (ht.dispatched_inserted hss r hr)
    unique_tracked := fun hss r hr hnm hu => ?_ }
  simp only at hr hnm hu ⊢
  by_cases hcar : ∃ m ∈ s.pendingMsgs, ∃ r', m.handle = some r' ∧
      (s.heap.cell r').id = (s.heap.cell r).id
  · obtain ⟨m, hm, r', hr', hid⟩ := hcar
    obtain rfl : r' = r := hu r' (List.mem_append_right _ (mem_handlesOf.mpr ⟨m, hm, hr'⟩)) hid
    obtain ⟨pre, post, hsplit⟩ := List.append_of_mem hm
    rw [hsplit] at hnd ⊢
    refine lookup_addNew_append_of_forall hr' fun m' hm' r'' hr'' hid' => ?_
    obtain rfl : r'' = r' := hu r'' (List.mem_append_right _ (mem_handlesOf.mpr
      ⟨m', by rw [hsplit]; simp [hm'], hr''⟩)) hid'
    have hcons : handlesOf (m :: post) = r'' :: handlesOf post := by simp [handlesOf, hr']
    rw [handlesOf_append, hcons, List.nodup_append, List.nodup_cons] at hnd
    exact hnd.2.1.1 (mem_handlesOf.mpr ⟨m', hm', hr''⟩)
  · push_neg at hcar
    rw [lookup_addNew_of_forall fun m hm r' hr' => hcar m hm r' hr']
    have hold : r ∈ s.inserted := by
      rcases List.mem_append.mp hr with hr | hr
      · exact hr
      · obtain ⟨m, hm, hr'⟩ := mem_handlesOf.mp hr
        exact absurd rfl (hcar m hm r hr')
    exact ht.unique_tracked hss r hold hnm fun r' h' => hu r' (List.mem_append_left _ h')

omit hw in
theorem TrackInv.dispatch (h : step cfg s .dispatch = some s') : TrackInv s' := by
  obtain ⟨m, rest, hf, hp, rfl⟩ := step_dispatch h
  have hnot : ∀ b, s.fetch ≠ .adding b := by simp [hf]
  have hpend := fun hss => ht.pending_inserted hss hnot
  rw [hp] at hpend
  refine { ht with
    pending_inserted := fun hss _ r hr => hpend hss r (by simp [handlesOf] at hr ⊢; simp_all)
    dispatched_inserted := fun hss r hr => ?_ }
  simp only [handlesOf_append, List.mem_append] at hr
  rcases hr with hr | hr
  · exact ht.dispatched_inserted hss r hr
  · exact hpend hss r (by simp only [handlesOf, List.filterMap_cons] at hr ⊢; split <;> simp_all)

omit hw in
theorem TrackInv.handleAck {r : Nat} {erase : Bool} {o : Outcome} (hr : s.ackable r) :
    TrackInv (s.handleAck cfg r erase o) := by
  have hmem : ∀ r', r' ∈ (s.handleAck cfg r erase o).acks ∨ r' ∈ (s.handleAck cfg r erase o).nacks ↔
      (r' ∈ s.acks ∨ r' ∈ s.nacks) ∨ r' = r := by
    intro r'
    cases erase <;> simp [Reader.handleAck, or_assoc, or_comm, or_left_comm]
  refine ⟨fun r' h => ?_, fun hss r' h => ?_, ht.pending_inserted, ht.dispatched_inserted,
    fun hss r' hr' hnm hu => ?_⟩
  · simp only [Reader.handleAck, List.mem_append, List.mem_singleton] at h
    rcases h with h | rfl
    · exact (hmem r').mpr (.inl (ht.marked_acked r' h))
    · exact (hmem r').mpr (.inr rfl)
  · simp only [Reader.handleAck, List.mem_append, List.mem_singleton]
    exact ((hmem r').mp h).imp_left (ht.acked_marked hss r')
  · have hid : ((s.handleAck cfg r erase o).heap.cell r').id = (s.heap.cell r').id :=
      Heap.setDeadline_id _ _ _ _
    simp only [Reader.handleAck, Reader.idUnique, List.mem_append, List.mem_singleton, not_or,
      Heap.setDeadline_id] at hnm hu
    rw [hid]
    show (remove (s.heap.cell r).id s.tracker).lookup (s.heap.cell r').id = some r'
    rw [lookup_remove, if_neg fun he => hnm.2 (hu r (ht.dispatched_inserted hss r
      hr.mem_dispatched) he.symm).symm]
    exact ht.unique_tracked hss r' hr' hnm.1 fun r'' h'' he => hu r'' h'' he

/-- **Every step keeps what the tracker holds before the soft stop.** -/
theorem TrackInv.step {e : Event} (h : SqsInput.step cfg s e = some s') : TrackInv s' := by
  have same : ∀ {l : List Nat}, l ⊆ l := @fun l => List.Subset.refl l
  have hid : ∀ r ∈ s.inserted, (s.heap.cell r).id = (s.heap.cell r).id := fun _ _ => rfl
  cases e with
  | receive res => exact ht.receive hw h
  | addBatch => exact ht.addBatch hw h
  | abandonAdd =>
    obtain ⟨-, hss, rfl⟩ := step_abandonAdd h
    exact ht.of_softStopped hss (fun r h => .inl h) same same
  | wake =>
    obtain ⟨hf, rfl⟩ := step_wake h
    exact { ht with pending_inserted := fun hss _ => ht.pending_inserted hss (by simp [hf]) }
  | dispatch => exact ht.dispatch h
  | fetchExit o =>
    obtain ⟨hss, -, rfl⟩ := step_fetchExit h
    exact ht.of_softStopped hss (fun r h => .inl h) same same
  | ack r o => obtain ⟨-, hr, rfl⟩ := step_ack h; exact ht.handleAck hr
  | nack r o => obtain ⟨-, hr, rfl⟩ := step_nack h; exact ht.handleAck hr
  | tick oAcks oNacks =>
    obtain ⟨-, rfl⟩ := step_tick h
    exact ht.frame hid rfl rfl rfl rfl rfl rfl rfl rfl rfl
  | ackExit oAcks oNacks =>
    obtain ⟨-, hss, rfl⟩ := step_ackExit h
    exact ht.of_softStopped hss (fun r h => .inl h) same same
  | refreshStart i =>
    obtain ⟨-, ⟨-, rfl⟩ | ⟨-, rfl⟩⟩ := step_refreshStart h <;>
    exact ht.frame hid rfl rfl rfl rfl rfl rfl rfl rfl rfl
  | refreshPull i now order =>
    obtain ⟨-, -, rfl⟩ := step_refreshPull h
    exact ht.frame (fun r _ => by simp [Reader.afterPull]) rfl rfl rfl rfl rfl rfl rfl rfl rfl
  | refreshScan i =>
    obtain ⟨_, _, -, rfl⟩ := step_refreshScan h
    exact ht.frame hid rfl rfl rfl rfl rfl rfl rfl rfl rfl
  | refreshSend i ok =>
    obtain ⟨_, _, -, rfl⟩ := step_refreshSend h
    exact ht.frame hid rfl rfl rfl rfl rfl rfl rfl rfl rfl
  | ackAfterStop r o =>
    obtain ⟨hss, -, rfl⟩ := step_ackAfterStop h
    exact ht.of_softStopped hss (fun r h => .inl h) (List.subset_append_left _ _) same
  | nackAfterStop r o =>
    obtain ⟨hss, -, rfl⟩ := step_nackAfterStop h
    exact ht.of_softStopped hss (fun r h => .inl h) same (List.subset_append_left _ _)
  | softStop =>
    rw [step_softStop h]
    exact ht.of_softStopped rfl (fun r h => .inl h) same same
  | closeReturn =>
    obtain ⟨-, -, -, rfl⟩ := step_closeReturn h
    exact ht.frame hid rfl rfl rfl rfl rfl rfl rfl rfl rfl

end Preservation

theorem Reachable.trackInv {cfg : SqsiConfig} {s : Reader} (hs : Reachable cfg s) : TrackInv s :=
  hs.induction_wf TrackInv.connect fun hw ht h => ht.step hw h

/-! ## Which handles the tracker holds -/

theorem duplicate_id_untracked :
    ∃ s, Reachable SqsiConfig.default s ∧ s.softStopped = false ∧ 0 ∈ s.inserted ∧
      0 ∉ s.acks ∧ 0 ∉ s.nacks ∧ 0 ∉ refs s.tracker := by
  obtain ⟨s, hs, h⟩ := @Reachable.of_run SqsiConfig.default
    [.receive (some [(⟨some "m1", some "r1", some "b"⟩, 0)]), .addBatch, .dispatch,
      .receive (some [(⟨some "m1", some "r2", some "b"⟩, 1000000000)]), .addBatch]
    (fun s => decide (s.softStopped = false ∧ 0 ∈ s.inserted ∧ 0 ∉ s.acks ∧ 0 ∉ s.nacks ∧
      0 ∉ refs s.tracker)) (by decide)
  exact ⟨s, hs, of_decide_eq_true h⟩

/-- **Before the soft stop, the tracker holds the admitted handles nobody has acked.** It maps an
id to a handle only if `AddNew` admitted the handle under that id, no `AckFunc` has been called
for it, and, with a timeout that is not negative, its deadline is not `DELETED`; and it maps the
id of every admitted handle that no `AckFunc` has been called for to that handle, unless another
admitted handle has the same id. -/
theorem tracker_tracks_unacked {cfg : SqsiConfig} {s : Reader} (hT : 0 ≤ cfg.messageTimeout)
    (hs : Reachable cfg s) (hss : s.softStopped = false) :
    (∀ id r, s.tracker.lookup id = some r →
      r ∈ s.inserted ∧ (s.heap.cell r).id = id ∧ r ∉ s.acks ∧ r ∉ s.nacks ∧
        s.heap.isDeleted r = false) ∧
    (∀ r ∈ s.inserted, r ∉ s.acks → r ∉ s.nacks →
      (∀ r' ∈ s.inserted, (s.heap.cell r').id = (s.heap.cell r).id → r' = r) →
      s.tracker.lookup (s.heap.cell r).id = some r) := by
  have hw := hs.wf
  have ht := hs.trackInv
  refine ⟨fun id r h => ?_, fun r hr ha hn hu =>
    ht.unique_tracked hss r hr (fun hm => (ht.marked_acked r hm).elim ha hn) hu⟩
  have hnm := hw.tracked_not_marked h
  have hnack : ¬ (r ∈ s.acks ∨ r ∈ s.nacks) := fun hr => hnm (ht.acked_marked hss r hr)
  have hd := hs.liveDeadlines hT r (hw.inserted_received r (hw.tracked_inserted h)) hnm
  refine ⟨hw.tracked_inserted h, hw.tracked_id h, fun ha => hnack (.inl ha),
    fun hn => hnack (.inr hn), ?_⟩
  simp only [Heap.isDeleted, SqsMessageDeadline.isDeleted, SqsMessageDeadline.deleted,
    beq_eq_false_iff_ne]
  omega

theorem tracker_tracks_unacked_acked :
    ∃ s, 0 ≤ SqsiConfig.default.messageTimeout ∧ Reachable SqsiConfig.default s ∧
      s.softStopped = false ∧ s.inserted = [0, 1] ∧ s.acks = [0] ∧
      s.tracker.lookup "m2" = some 1 ∧
      ((∀ id r, s.tracker.lookup id = some r →
        r ∈ s.inserted ∧ (s.heap.cell r).id = id ∧ r ∉ s.acks ∧ r ∉ s.nacks ∧
          s.heap.isDeleted r = false) ∧
      (∀ r ∈ s.inserted, r ∉ s.acks → r ∉ s.nacks →
        (∀ r' ∈ s.inserted, (s.heap.cell r').id = (s.heap.cell r).id → r' = r) →
        s.tracker.lookup (s.heap.cell r).id = some r)) := by
  obtain ⟨s, hs, h⟩ := @Reachable.of_run SqsiConfig.default
    [.receive (some [(⟨some "m1", some "r1", some "b"⟩, 0), (⟨some "m2", some "r2", some "b"⟩, 0)]),
      .addBatch, .dispatch, .ack 0 none]
    (fun s => decide (s.softStopped = false ∧ s.inserted = [0, 1] ∧ s.acks = [0] ∧
      s.tracker.lookup "m2" = some 1)) (by decide)
  obtain ⟨hss, hins, hacks, hlook⟩ := of_decide_eq_true h
  exact ⟨s, by decide, hs, hss, hins, hacks, hlook, tracker_tracks_unacked (by decide) hs hss⟩

/-! ## How many handles the tracker holds -/

/-- The bound on the tracker, and on the batch `AddNew` is about to insert. -/
def SizeBound (cfg : SqsiConfig) (s : Reader) : Prop :=
  (size s.tracker : Int) ≤ cfg.maxOutstanding + cfg.maxNumberOfMessages - 1 ∧
    ∀ b, s.fetch = .adding b → (b.length : Int) ≤ cfg.maxNumberOfMessages

/-- A receive whose answer holds at most `MaxNumberOfMessages` messages, or any other event. -/
def Event.withinBatch (cfg : SqsiConfig) : Event → Prop
  | .receive (some msgs) => (msgs.length : Int) ≤ cfg.maxNumberOfMessages
  | _ => True

theorem SizeBound.step {cfg : SqsiConfig} {s s' : Reader} {e : Event} (hb : SizeBound cfg s)
    (he : e.withinBatch cfg) (h : step cfg s e = some s') : SizeBound cfg s' := by
  obtain ⟨hsize, hbatch⟩ := hb
  have running : ∀ b, FetchPc.running = .adding b → (b.length : Int) ≤ cfg.maxNumberOfMessages :=
    fun _ h => by cases h
  cases e with
  | receive res =>
    obtain ⟨-, -, rfl⟩ := step_receive h
    refine ⟨hsize, fun b hb => ?_⟩
    simp only [Reader.getMsgs] at hb
    split at hb
    · cases hb
    · rename_i hne
      cases hb
      have := congrArg List.length (wrapMessages_message cfg.messageTimeout s.heap (res.getD []))
      rw [List.length_map, List.length_map] at this
      rw [this]
      cases res with
      | none => exact absurd rfl hne
      | some msgs => exact he
  | addBatch =>
    obtain ⟨b, hfb, hroom, rfl⟩ := step_addBatch h
    have h1 := size_addNew_le s.heap b s.tracker
    have h2 := hbatch b hfb
    have h3 : (size s.tracker : Int) < cfg.maxOutstanding := of_decide_eq_true hroom
    exact ⟨by simp only; omega, running⟩
  | abandonAdd => obtain ⟨-, -, rfl⟩ := step_abandonAdd h; exact ⟨hsize, running⟩
  | wake => obtain ⟨-, rfl⟩ := step_wake h; exact ⟨hsize, running⟩
  | dispatch => obtain ⟨m, rest, -, -, rfl⟩ := step_dispatch h; exact ⟨hsize, hbatch⟩
  | fetchExit o => obtain ⟨-, -, rfl⟩ := step_fetchExit h; exact ⟨hsize, fun _ h => by cases h⟩
  | ack r o | nack r o =>
    first
    | obtain ⟨-, -, rfl⟩ := step_ack h
    | obtain ⟨-, -, rfl⟩ := step_nack h
    exact ⟨le_trans (Int.ofNat_le.mpr (size_remove_le _ _)) hsize, hbatch⟩
  | tick oAcks oNacks => obtain ⟨-, rfl⟩ := step_tick h; exact ⟨hsize, hbatch⟩
  | ackExit oAcks oNacks =>
    obtain ⟨-, -, rfl⟩ := step_ackExit h
    exact ⟨le_trans (by simp only [size_empty]; omega) hsize, hbatch⟩
  | refreshStart i =>
    obtain ⟨-, ⟨-, rfl⟩ | ⟨-, rfl⟩⟩ := step_refreshStart h <;> exact ⟨hsize, hbatch⟩
  | refreshPull i now order =>
    obtain ⟨-, -, rfl⟩ := step_refreshPull h
    exact ⟨hsize, hbatch⟩
  | refreshScan i => obtain ⟨_, _, -, rfl⟩ := step_refreshScan h; exact ⟨hsize, hbatch⟩
  | refreshSend i ok =>
    obtain ⟨_, _, -, rfl⟩ := step_refreshSend h
    simp only [Reader.afterSend]
    exact ⟨hsize, hbatch⟩
  | ackAfterStop r o => obtain ⟨-, -, rfl⟩ := step_ackAfterStop h; exact ⟨hsize, hbatch⟩
  | nackAfterStop r o => obtain ⟨-, -, rfl⟩ := step_nackAfterStop h; exact ⟨hsize, hbatch⟩
  | softStop => rw [step_softStop h]; exact ⟨hsize, hbatch⟩
  | closeReturn => obtain ⟨-, -, -, rfl⟩ := step_closeReturn h; exact ⟨hsize, hbatch⟩

/-- **The tracker holds at most `MaxOutstanding + MaxNumberOfMessages - 1` handles** along every
run whose receives each return at most `MaxNumberOfMessages` messages, and `AddNew` inserts its
batch only into a tracker holding fewer than `MaxOutstanding` handles. -/
theorem tracker_size_bound {cfg : SqsiConfig} {evs : List Event} {s : Reader}
    (hM : 1 ≤ cfg.maxOutstanding) (hN : 0 ≤ cfg.maxNumberOfMessages)
    (hbatch : ∀ e ∈ evs, e.withinBatch cfg) (h : run cfg connect evs = some s) :
    (size s.tracker : Int) ≤ cfg.maxOutstanding + cfg.maxNumberOfMessages - 1 ∧
      ∀ s', step cfg s .addBatch = some s' → (size s.tracker : Int) < cfg.maxOutstanding := by
  have hb : SizeBound cfg s :=
    run_preserves (fun hb he h => hb.step he h) ⟨by simp [SqsInput.connect]; omega,
      fun _ h => by cases h⟩ hbatch h
  refine ⟨hb.1, fun s' h' => ?_⟩
  obtain ⟨-, -, hroom, -⟩ := step_addBatch h'
  exact of_decide_eq_true hroom

/-- With `MaxOutstanding` 1, one receive of `MaxNumberOfMessages` messages with distinct ids fills
the tracker to the bound. -/
theorem tracker_size_bound_full_batch :
    ∃ (cfg : SqsiConfig) (evs : List Event) (s : Reader),
      cfg = { SqsiConfig.default with maxOutstanding := 1 } ∧
      evs = [.receive (some (["m0", "m1", "m2", "m3", "m4", "m5", "m6", "m7", "m8", "m9"].map
        fun id => (⟨some id, some "r", some "b"⟩, 0))), .addBatch] ∧
      run cfg connect evs = some s ∧
      (size s.tracker : Int) = cfg.maxOutstanding + cfg.maxNumberOfMessages - 1 ∧
      1 ≤ cfg.maxOutstanding ∧ 0 ≤ cfg.maxNumberOfMessages ∧ (∀ e ∈ evs, e.withinBatch cfg) ∧
      ((size s.tracker : Int) ≤ cfg.maxOutstanding + cfg.maxNumberOfMessages - 1 ∧
        ∀ s', step cfg s .addBatch = some s' → (size s.tracker : Int) < cfg.maxOutstanding) := by
  obtain ⟨s, hs, hsize⟩ := Option.map_eq_some'.mp (show (run
    { SqsiConfig.default with maxOutstanding := 1 } connect
    [.receive (some (["m0", "m1", "m2", "m3", "m4", "m5", "m6", "m7", "m8", "m9"].map
      fun id => (⟨some id, some "r", some "b"⟩, 0))), .addBatch]).map
    (fun s => decide ((size s.tracker : Int) = 10)) = some true by decide)
  have hbatch : ∀ e ∈ [Event.receive (some (["m0", "m1", "m2", "m3", "m4", "m5", "m6", "m7", "m8",
      "m9"].map fun id => (⟨some id, some "r", some "b"⟩, 0))), .addBatch],
      e.withinBatch { SqsiConfig.default with maxOutstanding := 1 } := by
    simp only [List.forall_mem_cons, Event.withinBatch, List.length_map]
    exact ⟨by decide, trivial, nofun⟩
  exact ⟨_, _, s, rfl, rfl, hs, of_decide_eq_true hsize, by decide, by decide, hbatch,
    tracker_size_bound (by decide) (by decide) hbatch hs⟩

end SqsInput
