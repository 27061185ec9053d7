import SqsInput.Acks

/-!
# Entry ids of batch requests

`DeleteMessageBatch` and `ChangeMessageVisibilityBatch` reject a request whose entries do not
have pairwise distinct `Id`s, and the reader uses each handle's message id as the entry's `Id`.
A request's entries are distinct ids whenever its handles are distinct and no two received
handles share an id.

A refresh request takes its handles from the tracker, which holds one handle per id, so its ids
are always distinct. The other requests take theirs from buffers of handles given to `AckFunc`,
or from the fetch loop's buffer, so their handles are distinct when no `AckFunc` is called twice
(`entry_ids_distinct`). Their ids are not distinct when SQS delivers one message twice and both
copies are acked before a flush: the flush deletes both under one id
(`duplicate_id_entries`).
-/

namespace SqsInput

open scoped List
open SqsInFlightTracker

/-! ## Ids of handles -/

/-- The message ids of the handles `l`, as the entries' `Id` fields carry them. -/
def Reader.ids (s : Reader) (l : List Nat) : List String := l.map fun r => (s.heap.cell r).id

/-- The handles a refresh goroutine has put into its current request, followed by those it has
still to look at. -/
def RefreshPc.queued : RefreshPc → List Nat
  | .scanning msgs entries | .sending entries msgs => entries ++ msgs
  | _ => []

/-- Handles with distinct ids, each of a received message. -/
def QueueOk (s : Reader) (l : List Nat) : Prop := (s.ids l).Nodup ∧ ∀ r ∈ l, r ∈ handlesOf s.received

/-- What a request of the log carries: handles of received messages; for a refresh, handles with
distinct ids; and distinct handles as long as no `AckFunc` has been called twice. -/
structure EntryOk (s : Reader) (rpc : Rpc) : Prop where
  received : ∀ r ∈ rpc.entries, r ∈ handlesOf s.received
  refresh_ids : rpc.origin = some .refresh → (s.ids rpc.entries).Nodup
  nodup : (s.acks ++ s.nacks).Nodup → rpc.entries.Nodup

/-- What every reachable state satisfies for the entries of its requests. -/
structure IdsInv (s : Reader) : Prop where
  pendingAcks_sublist : s.pendingAcks <+ s.acks
  pendingNacks_sublist : s.pendingNacks <+ s.nacks
  queued : ∀ pc ∈ s.refreshes, QueueOk s pc.queued
  log_entries : ∀ rpc ∈ s.log, EntryOk s rpc

section Lemmas

variable {s s' : Reader} {l l' : List Nat} {rpc : Rpc}

theorem Reader.ids_congr (hid : ∀ r ∈ l, (s'.heap.cell r).id = (s.heap.cell r).id) :
    s'.ids l = s.ids l :=
  List.map_congr_left hid

theorem QueueOk.mono (h : QueueOk s l) (hrec : handlesOf s.received ⊆ handlesOf s'.received)
    (hid : ∀ r ∈ handlesOf s.received, (s'.heap.cell r).id = (s.heap.cell r).id) :
    QueueOk s' l :=
  ⟨by rw [Reader.ids_congr fun r hr => hid r (h.2 r hr)]; exact h.1, fun r hr => hrec (h.2 r hr)⟩

theorem QueueOk.sublist (h : QueueOk s l) (hl : l' <+ l) : QueueOk s l' :=
  ⟨h.1.sublist (hl.map _), fun r hr => h.2 r (hl.subset hr)⟩

theorem EntryOk.mono (h : EntryOk s rpc)
    (hacks : (s'.acks ++ s'.nacks).Nodup → (s.acks ++ s.nacks).Nodup)
    (hrec : handlesOf s.received ⊆ handlesOf s'.received)
    (hid : ∀ r ∈ handlesOf s.received, (s'.heap.cell r).id = (s.heap.cell r).id) :
    EntryOk s' rpc where
  received r hr := hrec (h.received r hr)
  refresh_ids ho := by
    rw [Reader.ids_congr fun r hr => hid r (h.received r hr)]
    exact h.refresh_ids ho
  nodup hnd := h.nodup (hacks hnd)

/-- A request that is not a refresh, with handles of received messages taken from `l`. -/
theorem EntryOk.of_sublist (hl : rpc.entries <+ l) (ho : rpc.origin ≠ some .refresh)
    (hrec : ∀ r ∈ l, r ∈ handlesOf s.received) (hnd : (s.acks ++ s.nacks).Nodup → l.Nodup) :
    EntryOk s rpc where
  received r hr := hrec r (hl.subset hr)
  refresh_ids h := absurd h ho
  nodup h := (hnd h).sublist hl

/-- A delete request of a caller other than a refresh goroutine. -/
theorem EntryOk.of_mem_deleteMessages {cfg : SqsiConfig} {origin : Origin}
    (h : rpc ∈ deleteMessages cfg origin l) (ho : origin ≠ .refresh)
    (hrec : ∀ r ∈ l, r ∈ handlesOf s.received) (hnd : (s.acks ++ s.nacks).Nodup → l.Nodup) :
    EntryOk s rpc :=
  .of_sublist (entries_sublist_of_mem_deleteMessages h)
    (by rw [origin_of_mem_deleteMessages h]; exact fun e => ho (Option.some.inj e)) hrec hnd

/-- A reset of a caller other than a refresh goroutine. -/
theorem EntryOk.of_mem_resetMessages {cfg : SqsiConfig} {heap : Heap} {origin : Origin}
    (h : rpc ∈ resetMessages cfg heap origin l) (ho : origin ≠ .refresh)
    (hrec : ∀ r ∈ l, r ∈ handlesOf s.received) (hnd : (s.acks ++ s.nacks).Nodup → l.Nodup) :
    EntryOk s rpc :=
  .of_sublist (entries_sublist_of_mem_resetMessages h)
    (by rw [origin_of_mem_resetMessages h]; exact fun e => ho (Option.some.inj e)) hrec hnd

theorem nodup_of_sublist_acks (hl : l <+ s.acks) (h : (s.acks ++ s.nacks).Nodup) : l.Nodup :=
  h.sublist (hl.trans (List.sublist_append_left _ _))

theorem nodup_of_sublist_nacks (hl : l <+ s.nacks) (h : (s.acks ++ s.nacks).Nodup) : l.Nodup :=
  h.sublist (hl.trans (List.sublist_append_right _ _))

/-- The inner loop of `updateVisibilityMessages` only moves handles from what is left to the
request, or drops them. -/
theorem queued_scanNext_sublist (heap : Heap) (msgs entries : List Nat) :
    (scanNext heap msgs entries).queued <+ (RefreshPc.scanning msgs entries).queued := by
  cases msgs with
  | nil => simp [scanNext, RefreshPc.queued]
  | cons m ms =>
    simp only [scanNext]
    split
    · exact List.Sublist.append_left (List.sublist_cons_self m ms) _
    split <;> simp [RefreshPc.queued]

/-- The tracker stores each handle under its own id, so the ids of its handles are its keys. -/
theorem Wf.ids_refs (hw : Wf s) : s.ids (refs s.tracker) = s.tracker.keys := by
  simp only [Reader.ids, refs, AList.keys, List.map_map]
  exact List.map_congr_left fun e he => hw.tracked_id (AList.mem_lookup_iff.mpr (by simpa using he))

end Lemmas

/-! ## Every step keeps it -/

section Preservation

variable {cfg : SqsiConfig} {s s' : Reader}

theorem IdsInv.connect : IdsInv connect where
  pendingAcks_sublist := List.Sublist.refl _
  pendingNacks_sublist := List.Sublist.refl _
  queued := by simp [SqsInput.connect]
  log_entries := by simp [SqsInput.connect]

/-- A step that keeps the received handles and their ids, lets the acknowledged handles grow, and
appends requests that carry what they may. -/
theorem IdsInv.frame (hi : IdsInv s) (hpa : s'.pendingAcks <+ s'.acks)
    (hpn : s'.pendingNacks <+ s'.nacks)
    (hacks : (s'.acks ++ s'.nacks).Nodup → (s.acks ++ s.nacks).Nodup)
    (hrec : handlesOf s.received ⊆ handlesOf s'.received)
    (hid : ∀ r ∈ handlesOf s.received, (s'.heap.cell r).id = (s.heap.cell r).id)
    (hpcs : ∀ pc ∈ s'.refreshes, QueueOk s pc.queued)
    (new : List Rpc) (hlog : s'.log = s.log ++ new) (hnew : ∀ rpc ∈ new, EntryOk s' rpc) :
    IdsInv s' where
  pendingAcks_sublist := hpa
  pendingNacks_sublist := hpn
  queued pc h := (hpcs pc h).mono hrec hid
  log_entries rpc h := by
    rw [hlog, List.mem_append] at h
    exact h.elim (fun h => (hi.log_entries rpc h).mono hacks hrec hid) (hnew rpc)

/-- A refresh goroutine moves from one state to another whose handles it had. -/
theorem IdsInv.setRefresh (hi : IdsInv s) {i : Nat} {pc pc' : RefreshPc}
    (h : s.refreshes[i]? = some pc) (hq : pc'.queued <+ pc.queued) :
    ∀ p ∈ (s.refreshes.set i pc'), QueueOk s p.queued := fun p hp => by
  rcases List.mem_or_eq_of_mem_set hp with hp | rfl
  · exact hi.queued p hp
  · exact (hi.queued pc (List.mem_iff_getElem?.mpr ⟨i, h⟩)).sublist hq

variable (hw : Wf s) (ha : AckInv cfg s) (hi : IdsInv s)
include hw ha hi

theorem IdsInv.handleAck {r : Nat} {erase : Bool} {o : Outcome} (hr : s.ackable r) :
    IdsInv (s.handleAck cfg r erase o) := by
  obtain ⟨new, hlog, hnew⟩ := handleAck_log cfg s r erase o
  cases erase
  · refine hi.frame hi.pendingAcks_sublist (hi.pendingNacks_sublist.append_right _)
      (fun h => h.sublist (List.Sublist.append_left (List.sublist_append_left _ _) _))
      (List.Subset.refl _) (fun _ _ => Heap.setDeadline_id _ _ _ _) hi.queued
      new hlog fun rpc h => ?_
    rcases hnew rpc h with ⟨⟨⟩, -⟩ | ⟨-, h⟩
    refine .of_mem_resetMessages h nofun (fun r' h' => hw.received_of_dispatched ?_)
      (nodup_of_sublist_nacks (hi.pendingNacks_sublist.append_right _))
    rcases List.mem_append.mp h' with h' | h'
    · exact hw.marked_dispatched r' (ha.pendingNacks_marked r' h')
    · exact List.mem_singleton.mp h' ▸ hr.mem_dispatched
  · refine hi.frame (hi.pendingAcks_sublist.append_right _) hi.pendingNacks_sublist
      (fun h => h.sublist (List.Sublist.append_right (List.sublist_append_left _ _) _))
      (List.Subset.refl _) (fun _ _ => Heap.setDeadline_id _ _ _ _) hi.queued
      new hlog fun rpc h => ?_
    rcases hnew rpc h with ⟨-, h⟩ | ⟨⟨⟩, -⟩
    refine .of_mem_deleteMessages h nofun (fun r' h' => hw.received_of_dispatched ?_)
      (nodup_of_sublist_acks (hi.pendingAcks_sublist.append_right _))
    rcases List.mem_append.mp h' with h' | h'
    · exact ha.acks_dispatched r' (ha.pendingAcks_acks r' h')
    · exact List.mem_singleton.mp h' ▸ hr.mem_dispatched

/-- The requests of a tick or of the final drain. -/
theorem IdsInv.flushAll {oAcks oNacks : Outcome} {rpc : Rpc} (hacks : s'.acks = s.acks)
    (hnacks : s'.nacks = s.nacks) (hrec : s'.received = s.received)
    (h : rpc ∈ flushAll cfg s oAcks oNacks) : EntryOk s' rpc := by
  rcases mem_flushAll h with h | h
  · exact .of_mem_deleteMessages h nofun
      (fun r' h' => hrec ▸ hw.received_of_dispatched
        (ha.acks_dispatched r' (ha.pendingAcks_acks r' h')))
      (by rw [hacks, hnacks]; exact nodup_of_sublist_acks hi.pendingAcks_sublist)
  · exact .of_mem_resetMessages h nofun
      (fun r' h' => hrec ▸ hw.received_of_dispatched
        (hw.marked_dispatched r' (ha.pendingNacks_marked r' h')))
      (by rw [hacks, hnacks]; exact nodup_of_sublist_nacks hi.pendingNacks_sublist)

omit ha in
theorem IdsInv.refreshPull {i now : Nat} {order : List Nat}
    (h : step cfg s (.refreshPull i now order) = some s') : IdsInv s' := by
  obtain ⟨hi', hperm, rfl⟩ := step_refreshPull h
  have hid : ∀ r, ((pullToRefresh cfg.messageTimeout now s.tracker s.heap).2.cell r).id =
      (s.heap.cell r).id := pullToRefresh_id _ _
  have hsub : order ⊆ refs s.tracker := fun r hr => by
    rw [hperm.mem_iff, pullToRefresh_fst hw.refs_nodup] at hr
    exact (List.mem_filter.mp hr).1
  have hord : QueueOk s order := by
    refine ⟨?_, fun r hr => ?_⟩
    · have hp := hperm.map fun r => (s.heap.cell r).id
      rw [pullToRefresh_fst hw.refs_nodup] at hp
      refine hp.nodup_iff.mpr (List.Nodup.sublist ((List.filter_sublist _).map _) ?_)
      rw [← Reader.ids, hw.ids_refs]
      exact s.tracker.keys_nodup
    · obtain ⟨id, hl⟩ := mem_refs.mp (hsub hr)
      exact hw.inserted_received r (hw.tracked_inserted hl)
  refine ⟨hi.pendingAcks_sublist, hi.pendingNacks_sublist, fun pc hpc => ?_,
    fun rpc hr => (hi.log_entries rpc hr).mono id (List.Subset.refl _) fun r _ => hid r⟩
  simp only [Reader.afterPull] at hpc ⊢
  rcases List.mem_or_eq_of_mem_set hpc with hpc | rfl
  · exact (hi.queued pc hpc).mono (List.Subset.refl _) fun r _ => hid r
  · refine QueueOk.mono (s := s) ?_ (List.Subset.refl _) fun r _ => hid r
    split
    · simp [QueueOk, Reader.ids, RefreshPc.queued]
    · simpa [RefreshPc.queued] using hord

/-- **Every step keeps what the requests' entries carry.** -/
theorem IdsInv.step {e : Event} (h : SqsInput.step cfg s e = some s') : IdsInv s' := by
  have same := hi.queued
  have hsame : ∀ r ∈ handlesOf s.received, (s.heap.cell r).id = (s.heap.cell r).id :=
    fun _ _ => rfl
  have none : ∀ {t : Reader}, ∀ rpc ∈ ([] : List Rpc), EntryOk t rpc := (fun _ h => nomatch h)
  cases e with
  | receive res =>
    obtain ⟨-, -, rfl⟩ := step_receive h
    refine hi.frame hi.pendingAcks_sublist hi.pendingNacks_sublist id
      (fun r h => by simp only [Reader.getMsgs, handlesOf_append]; exact List.mem_append_left _ h)
      (fun r hr => by
        simp only [Reader.getMsgs]
        rw [wrapMessages_cell_of_lt _ (hw.handles_lt r hr)])
      same _ rfl fun rpc h => ?_
    rw [List.mem_singleton.mp h]
    exact ⟨by simp [Rpc.entries], by simp [Rpc.origin], by simp [Rpc.entries]⟩
  | addBatch =>
    obtain ⟨b, -, -, rfl⟩ := step_addBatch h
    exact hi.frame hi.pendingAcks_sublist hi.pendingNacks_sublist id (List.Subset.refl _) hsame
      same [] (List.append_nil _).symm none
  | abandonAdd =>
    obtain ⟨-, -, rfl⟩ := step_abandonAdd h
    exact hi.frame hi.pendingAcks_sublist hi.pendingNacks_sublist id (List.Subset.refl _) hsame
      same [] (List.append_nil _).symm none
  | wake =>
    obtain ⟨-, rfl⟩ := step_wake h
    exact hi.frame hi.pendingAcks_sublist hi.pendingNacks_sublist id (List.Subset.refl _) hsame
      same [] (List.append_nil _).symm none
  | dispatch =>
    obtain ⟨m, rest, -, -, rfl⟩ := step_dispatch h
    exact hi.frame hi.pendingAcks_sublist hi.pendingNacks_sublist id (List.Subset.refl _) hsame
      same [] (List.append_nil _).symm none
  | fetchExit o =>
    obtain ⟨-, -, rfl⟩ := step_fetchExit h
    refine hi.frame hi.pendingAcks_sublist hi.pendingNacks_sublist id (List.Subset.refl _) hsame
      same _ rfl fun rpc h => ?_
    have h := mem_readLoopFinaliser h
    exact .of_mem_resetMessages h nofun (fun _ hr => hw.received_of_pending hr)
      fun _ => hw.pending_nodup
  | ack r o => obtain ⟨-, hr, rfl⟩ := step_ack h; exact hi.handleAck hw ha hr
  | nack r o => obtain ⟨-, hr, rfl⟩ := step_nack h; exact hi.handleAck hw ha hr
  | tick oAcks oNacks =>
    obtain ⟨-, rfl⟩ := step_tick h
    refine hi.frame hi.pendingAcks_sublist hi.pendingNacks_sublist id (List.Subset.refl _) hsame
      (fun pc h => ?_) _ rfl fun rpc h => hi.flushAll hw ha rfl rfl rfl h
    rcases List.mem_append.mp h with h | h
    · exact hi.queued pc h
    · rw [List.mem_singleton.mp h]
      simp [QueueOk, Reader.ids, RefreshPc.queued]
  | ackExit oAcks oNacks =>
    obtain ⟨-, -, rfl⟩ := step_ackExit h
    exact hi.frame hi.pendingAcks_sublist hi.pendingNacks_sublist id (List.Subset.refl _) hsame
      same _ rfl fun rpc h => hi.flushAll hw ha rfl rfl rfl h
  | refreshStart i =>
    obtain ⟨hi', ⟨-, rfl⟩ | ⟨-, rfl⟩⟩ := step_refreshStart h <;>
    exact hi.frame hi.pendingAcks_sublist hi.pendingNacks_sublist id (List.Subset.refl _) hsame
      (hi.setRefresh hi' (List.nil_sublist _)) [] (List.append_nil _).symm none
  | refreshPull i now order => exact hi.refreshPull hw h
  | refreshScan i =>
    obtain ⟨msgs, entries, hi', rfl⟩ := step_refreshScan h
    exact hi.frame hi.pendingAcks_sublist hi.pendingNacks_sublist id (List.Subset.refl _) hsame
      (hi.setRefresh hi' (queued_scanNext_sublist _ _ _)) [] (List.append_nil _).symm none
  | refreshSend i ok =>
    obtain ⟨entries, msgs, hi', rfl⟩ := step_refreshSend h
    have hq := hi.queued _ (List.mem_iff_getElem?.mpr ⟨i, hi'⟩)
    have he : QueueOk s entries := hq.sublist (List.sublist_append_left _ _)
    refine hi.frame hi.pendingAcks_sublist hi.pendingNacks_sublist id (List.Subset.refl _) hsame
      (hi.setRefresh hi' ?_) _ rfl fun rpc h => ?_
    · split
      · exact List.sublist_append_right _ _
      · exact List.nil_sublist _
    · rw [List.mem_singleton.mp h]
      exact ⟨he.2, fun _ => he.1, fun _ => he.1.of_map _⟩
  | ackAfterStop r o =>
    obtain ⟨-, hr, rfl⟩ := step_ackAfterStop h
    refine hi.frame (hi.pendingAcks_sublist.trans (List.sublist_append_left _ _))
      hi.pendingNacks_sublist
      (fun h => h.sublist (List.Sublist.append_right (List.sublist_append_left _ _) _))
      (List.Subset.refl _) hsame same _ rfl fun rpc h => ?_
    have h := Outcome.mem_of_mem_issued h
    exact .of_mem_deleteMessages h nofun
      (fun r' h' => by
        rw [List.mem_singleton.mp h']
        exact hw.received_of_dispatched hr.mem_dispatched)
      fun _ => List.nodup_singleton _
  | nackAfterStop r o =>
    obtain ⟨-, hr, rfl⟩ := step_nackAfterStop h
    refine hi.frame hi.pendingAcks_sublist
      (hi.pendingNacks_sublist.trans (List.sublist_append_left _ _))
      (fun h => h.sublist (List.Sublist.append_left (List.sublist_append_left _ _) _))
      (List.Subset.refl _) hsame same _ rfl fun rpc h => ?_
    have h := Outcome.mem_of_mem_issued h
    exact .of_mem_resetMessages h nofun
      (fun r' h' => by
        rw [List.mem_singleton.mp h']
        exact hw.received_of_dispatched hr.mem_dispatched)
      fun _ => List.nodup_singleton _
  | softStop =>
    rw [step_softStop h]
    exact hi.frame hi.pendingAcks_sublist hi.pendingNacks_sublist id (List.Subset.refl _) hsame
      same [] (List.append_nil _).symm none
  | closeReturn =>
    obtain ⟨-, -, -, rfl⟩ := step_closeReturn h
    exact hi.frame hi.pendingAcks_sublist hi.pendingNacks_sublist id (List.Subset.refl _) hsame
      same [] (List.append_nil _).symm none

end Preservation

theorem Reachable.idsInv {cfg : SqsiConfig} {s : Reader} (hs : Reachable cfg s) : IdsInv s :=
  (hs.induction_wf (P := fun s => AckInv cfg s ∧ IdsInv s) ⟨.connect cfg, .connect⟩
    fun hw h h' => ⟨h.1.step hw h', h.2.step hw h.1 h'⟩).2

/-! ## Distinct entry ids -/

theorem duplicate_id_entries :
    ∃ s, Reachable SqsiConfig.default s ∧ ∃ rpc ∈ s.log, ¬ (s.ids rpc.entries).Nodup := by
  obtain ⟨s, hs, h⟩ := @Reachable.of_run SqsiConfig.default
    [.receive (some [(⟨some "m1", some "r1", some "b"⟩, 0)]), .addBatch, .dispatch, .ack 0 none,
      .receive (some [(⟨some "m1", some "r2", some "b"⟩, 1000000000)]), .addBatch, .dispatch,
      .ack 1 none, .tick none none]
    (fun s => decide (∃ rpc ∈ s.log, ¬ (s.ids rpc.entries).Nodup)) (by decide)
  exact ⟨s, hs, of_decide_eq_true h⟩

/-- **Distinct entry ids.** Every refresh request carries distinct ids; and when no two received
handles share an id and no `AckFunc` is called twice, every request does. -/
theorem entry_ids_distinct {cfg : SqsiConfig} {s : Reader} (hs : Reachable cfg s) :
    (∀ rpc ∈ s.log, rpc.origin = some .refresh → (s.ids rpc.entries).Nodup) ∧
    ((s.ids (handlesOf s.received)).Nodup → (s.acks ++ s.nacks).Nodup →
      ∀ rpc ∈ s.log, (s.ids rpc.entries).Nodup) := by
  have hi := hs.idsInv
  refine ⟨fun rpc h => (hi.log_entries rpc h).refresh_ids, fun hid hnd rpc h => ?_⟩
  have he := hi.log_entries rpc h
  exact (he.nodup hnd).map_on fun x hx y hy hxy =>
    List.inj_on_of_nodup_map hid (he.received x hx) (he.received y hy) hxy

theorem entry_ids_distinct_refreshed :
    ∃ s, Reachable SqsiConfig.default s ∧ (∃ rpc ∈ s.log, rpc.deletes = [0]) ∧
      (∃ rpc ∈ s.log, rpc.origin = some .refresh ∧ rpc.entries = [1]) ∧
      ((∀ rpc ∈ s.log, rpc.origin = some .refresh → (s.ids rpc.entries).Nodup) ∧
      ((s.ids (handlesOf s.received)).Nodup → (s.acks ++ s.nacks).Nodup →
        ∀ rpc ∈ s.log, (s.ids rpc.entries).Nodup)) := by
  obtain ⟨s, hs, h⟩ := @Reachable.of_run SqsiConfig.default
    [.receive (some [(⟨some "m1", some "r1", some "b"⟩, 0), (⟨some "m2", some "r2", some "b"⟩, 0)]),
      .addBatch, .dispatch, .dispatch, .ack 0 none, .tick none none, .refreshStart 0,
      .refreshPull 0 1000000000 [1], .refreshScan 0, .refreshScan 0, .refreshSend 0 true]
    (fun s => decide ((∃ rpc ∈ s.log, rpc.deletes = [0]) ∧
      ∃ rpc ∈ s.log, rpc.origin = some .refresh ∧ rpc.entries = [1])) (by decide)
  obtain ⟨hd, hr⟩ := of_decide_eq_true h
  exact ⟨s, hs, hd, hr, entry_ids_distinct hs⟩

end SqsInput
