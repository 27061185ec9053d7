import SqsInput.Handle
import Mathlib.Data.List.Basic

/-!
# Batched deletes and visibility changes

`deleteMessages` and `updateVisibilityMessages` peel at most ten handles off their argument per
request and repeat while handles are left. They differ in one check: `updateVisibilityMessages`
skips every handle whose deadline is already `DELETED`, and so counts the handles it consumes
apart from the entries it emits. Both are one loop here, `peelBatches`, with the check as the
parameter `skip`; `deleteMessages` passes the check that never skips.

The inner loop stops short of ten entries only at the end of the handles, so every request but
the last is full: `deleteMessages` issues one request for every ten handles, rounding up, each
with one to ten entries, and both loops end after at most one request per handle
(`batch_requests`). A visibility change carries `int32(timeout)`, which is `timeout` only on the
range of `int32`.

The outer loop issues a request whenever its inner loop stops, whether or not it found an entry.
With `skip` never true every request has an entry (`peelBatches_ne_nil`). With the `DELETED`
check, the inner loop can run off the end of the handles without finding one, and the request
it then issues has no entries: exactly when the handles end with a `DELETED` one and those not
`DELETED` fill whole requests, none at all included
(`updateVisibilityMessages_without_entries_iff`). SQS rejects a batch request with no entries.
Ten live handles followed by a `DELETED` one are the smallest case past the first request
(`visibility_request_without_entries`).

A sequence of calls stops at the first that fails: `Outcome.issued` keeps the calls issued up
to that one.
-/

namespace SqsInput

open scoped List

/-! ## The batching loop -/

/-- `maxBatchSize` of `deleteMessages` and `updateVisibilityMessages`. -/
def maxBatchSize : Nat := 10

/-- Both batching loops, from inside an iteration of the outer `for len(msgs) > 0` loop:
`entries` are the current request's entries so far and `msgs` the handles not yet consumed. The
inner loop consumes handles, skipping those `skip` rejects, until the request holds
`maxBatchSize` entries or nothing is left; the request is then issued, and the outer loop starts
again on what is left, if anything. The result lists each issued request's entries. -/
def peelBatches (skip : Nat → Bool) : List Nat → List Nat → List (List Nat)
  | [], entries => [entries]
  | m :: ms, entries =>
    if skip m then peelBatches skip ms entries
    else if entries.length + 1 = maxBatchSize then
      (entries ++ [m]) :: if ms = [] then [] else peelBatches skip ms []
    else peelBatches skip ms (entries ++ [m])

/-- The entries of the requests a batching loop issues for `msgs`. -/
def batches (skip : Nat → Bool) (msgs : List Nat) : List (List Nat) :=
  if msgs = [] then [] else peelBatches skip msgs []

/-- Go's conversion `int32(x)`, which wraps to 32 bits (`4294967296 = 2 ^ 32`). -/
def toInt32 (x : Int) : Int := x.bmod 4294967296

/-- `deleteMessages`, when every call succeeds: nothing unless `DeleteMessage` is set. -/
def deleteMessages (cfg : SqsiConfig) (origin : Origin) (msgs : List Nat) : List Rpc :=
  if cfg.deleteMessage then (batches (fun _ => false) msgs).map (.deleteMessageBatch origin)
  else []

/-- `updateVisibilityMessages`, when every call succeeds, with the deadlines of `heap` fixed
for the duration of the call. -/
def updateVisibilityMessages (heap : Heap) (origin : Origin) (timeout : Int) (msgs : List Nat) :
    List Rpc :=
  (batches heap.isDeleted msgs).map
    fun entries => .changeMessageVisibilityBatch origin entries (toInt32 timeout)

/-- `resetMessages`: a visibility change to `0`, unless `ResetVisibility` is off. -/
def resetMessages (cfg : SqsiConfig) (heap : Heap) (origin : Origin) (msgs : List Nat) :
    List Rpc :=
  if cfg.resetVisibility then updateVisibilityMessages heap origin 0 msgs else []

/-- How a sequence of calls ends: `none` when every call succeeds, `some k` when call `k`
returns an error, after which the caller returns it and makes no further call. -/
abbrev Outcome := Option Nat

/-- The calls of a sequence that are issued. -/
def Outcome.issued {α : Type} : Outcome → List α → List α
  | none, calls => calls
  | some k, calls => calls.take (k + 1)

theorem Outcome.issued_sublist {α : Type} (o : Outcome) (calls : List α) :
    o.issued calls <+ calls := by
  cases o with
  | none => exact List.Sublist.refl _
  | some k => exact List.take_sublist _ _

theorem Outcome.mem_of_mem_issued {α : Type} {o : Outcome} {calls : List α} {x : α}
    (h : x ∈ o.issued calls) : x ∈ calls :=
  (o.issued_sublist calls).subset h

/-! ## The requests of each function -/

theorem mem_deleteMessages {cfg : SqsiConfig} {origin : Origin} {msgs : List Nat} {rpc : Rpc} :
    rpc ∈ deleteMessages cfg origin msgs ↔ cfg.deleteMessage = true ∧
      ∃ entries ∈ batches (fun _ => false) msgs, rpc = .deleteMessageBatch origin entries := by
  unfold deleteMessages
  split
  · rename_i h
    simp only [h, true_and, List.mem_map]
    exact exists_congr fun _ => and_congr_right fun _ => eq_comm
  · simp_all

theorem mem_updateVisibilityMessages {heap : Heap} {origin : Origin} {timeout : Int}
    {msgs : List Nat} {rpc : Rpc} :
    rpc ∈ updateVisibilityMessages heap origin timeout msgs ↔
      ∃ entries ∈ batches heap.isDeleted msgs,
        rpc = .changeMessageVisibilityBatch origin entries (toInt32 timeout) := by
  simp only [updateVisibilityMessages, List.mem_map]
  exact exists_congr fun _ => and_congr_right fun _ => eq_comm

theorem mem_resetMessages {cfg : SqsiConfig} {heap : Heap} {origin : Origin} {msgs : List Nat}
    {rpc : Rpc} :
    rpc ∈ resetMessages cfg heap origin msgs ↔ cfg.resetVisibility = true ∧
      ∃ entries ∈ batches heap.isDeleted msgs,
        rpc = .changeMessageVisibilityBatch origin entries 0 := by
  unfold resetMessages
  split
  · rename_i h
    simp only [h, true_and, mem_updateVisibilityMessages]
    rfl
  · simp_all

/-! ## What the loop emits -/

section Peel

variable (skip : Nat → Bool)

/-- The issued entries, in order, are the current entries followed by every handle the check
lets through. -/
theorem flatten_peelBatches (msgs entries : List Nat) :
    (peelBatches skip msgs entries).flatten = entries ++ msgs.filter (fun m => !skip m) := by
  induction msgs generalizing entries with
  | nil => simp [peelBatches]
  | cons m ms ih =>
    by_cases hs : skip m
    · simp [peelBatches, hs, ih]
    · by_cases hf : entries.length + 1 = maxBatchSize
      · by_cases hms : ms = []
        · simp [peelBatches, hs, hf, hms]
        · simp [peelBatches, hs, hf, hms, ih]
      · simp [peelBatches, hs, hf, ih]

theorem flatten_batches (msgs : List Nat) :
    (batches skip msgs).flatten = msgs.filter (fun m => !skip m) := by
  unfold batches
  split
  · simp_all
  · rw [flatten_peelBatches, List.nil_append]

/-- A request is one the loop issues from the start, on handles that are there. -/
theorem mem_peelBatches_of_mem_batches {msgs c : List Nat} (hc : c ∈ batches skip msgs) :
    msgs ≠ [] ∧ c ∈ peelBatches skip msgs [] := by
  unfold batches at hc
  split at hc
  · simp at hc
  · exact ⟨‹_›, hc⟩

/-- A request entry is a handle of `msgs` that the check lets through. -/
theorem mem_of_mem_batches {msgs entries : List Nat} {r : Nat}
    (he : entries ∈ batches skip msgs) (hr : r ∈ entries) : r ∈ msgs ∧ skip r = false := by
  have h := List.mem_flatten_of_mem he hr
  rw [flatten_batches, List.mem_filter] at h
  simpa using h

/-- Every request's entries are a sublist of the current entries followed by `msgs`. -/
theorem sublist_of_mem_peelBatches {msgs entries c : List Nat}
    (hc : c ∈ peelBatches skip msgs entries) : c <+ entries ++ msgs := by
  induction msgs generalizing entries with
  | nil => simp_all [peelBatches]
  | cons m ms ih =>
    have hcons : entries ++ ms <+ entries ++ m :: ms :=
      List.Sublist.append_left (List.sublist_cons_self m ms) _
    simp only [peelBatches] at hc
    split at hc
    · exact (ih hc).trans hcons
    split at hc
    · rcases List.mem_cons.mp hc with rfl | hc
      · simp
      · split at hc
        · simp at hc
        · exact ((ih hc).trans (List.sublist_append_right _ _)).trans hcons
    · simpa using ih hc

theorem sublist_of_mem_batches {msgs c : List Nat} (hc : c ∈ batches skip msgs) : c <+ msgs := by
  simpa using sublist_of_mem_peelBatches skip (mem_peelBatches_of_mem_batches skip hc).2

/-- No request holds more than `maxBatchSize` entries. -/
theorem length_le_of_mem_peelBatches {msgs entries c : List Nat}
    (he : entries.length < maxBatchSize) (hc : c ∈ peelBatches skip msgs entries) :
    c.length ≤ maxBatchSize := by
  induction msgs generalizing entries with
  | nil => simp_all [peelBatches, Nat.le_of_lt]
  | cons m ms ih =>
    simp only [peelBatches] at hc
    split at hc
    · exact ih he hc
    split at hc
    · rcases List.mem_cons.mp hc with rfl | hc
      · simp_all
      · split at hc
        · simp at hc
        · exact ih (by simp [maxBatchSize]) hc
    · exact ih (by simp only [List.length_append, List.length_singleton]; omega) hc

theorem length_le_of_mem_batches {msgs c : List Nat} (hc : c ∈ batches skip msgs) :
    c.length ≤ maxBatchSize :=
  length_le_of_mem_peelBatches skip (by simp [maxBatchSize])
    (mem_peelBatches_of_mem_batches skip hc).2

/-- The loop issues a request with no entries exactly when the handles left end with a skipped
one, and the current entries and the handles the check lets through fill whole requests: the
inner loop then runs off the end of the handles with an empty request. -/
theorem nil_mem_peelBatches_iff {msgs entries : List Nat} (he : entries.length < maxBatchSize) :
    [] ∈ peelBatches skip msgs entries ↔
      (entries.length + (msgs.filter fun m => !skip m).length) % maxBatchSize = 0 ∧
        ∀ m ∈ msgs.getLast?, skip m = true := by
  simp only [maxBatchSize] at he ⊢
  induction msgs generalizing entries with
  | nil =>
    simp only [peelBatches, List.mem_singleton, List.filter_nil, List.length_nil, Nat.add_zero,
      List.getLast?_nil, Option.mem_def, reduceCtorEq, false_implies, implies_true, and_true,
      List.nil_eq, ← List.length_eq_zero]
    omega
  | cons m ms ih =>
    by_cases hs : skip m = true
    · rw [peelBatches, if_pos hs, ih he, List.filter_cons_of_neg (by simp [hs])]
      cases ms with
      | nil => simp [hs]
      | cons m' ms' => rw [List.getLast?_cons_cons]
    · rw [List.filter_cons_of_pos (by simpa using hs), List.length_cons]
      simp only [peelBatches, hs, Bool.false_eq_true, if_false, maxBatchSize]
      split
      · cases ms with
        | nil => simp [hs]
        | cons m' ms' =>
          rw [if_neg (List.cons_ne_nil _ _), List.mem_cons, ih (by simp), List.getLast?_cons_cons]
          simp only [List.nil_eq, List.append_eq_nil, List.cons_ne_nil, and_false, false_or,
            List.length_nil, Nat.zero_add]
          exact and_congr_left' (by omega)
      · rw [ih (by simp only [List.length_append, List.length_singleton]; omega),
          List.length_append, List.length_singleton]
        cases ms with
        | nil => simp [hs]; omega
        | cons m' ms' => rw [List.getLast?_cons_cons, Nat.add_right_comm, Nat.add_assoc]

theorem nil_mem_batches_iff {msgs : List Nat} :
    [] ∈ batches skip msgs ↔ msgs ≠ [] ∧
      (msgs.filter fun m => !skip m).length % maxBatchSize = 0 ∧
        ∀ m ∈ msgs.getLast?, skip m = true := by
  unfold batches
  split
  · simp_all
  · rw [nil_mem_peelBatches_iff skip (by simp [maxBatchSize]), List.length_nil, Nat.zero_add]
    simp_all

/-- The loop issues at least one request, and at most one for each handle it consumes. -/
theorem length_peelBatches (msgs entries : List Nat) :
    0 < (peelBatches skip msgs entries).length ∧
      (peelBatches skip msgs entries).length ≤ max 1 msgs.length := by
  induction msgs generalizing entries with
  | nil => simp [peelBatches]
  | cons m ms ih =>
    simp only [peelBatches, List.length_cons]
    split
    · have := ih entries; omega
    split
    · split
      · simp
      · have := ih []
        have : 0 < ms.length := List.length_pos.mpr ‹_›
        simp only [List.length_cons]
        omega
    · have := ih (entries ++ [m]); omega

/-- Every request but the last holds exactly `maxBatchSize` entries: the inner loop stops short
only at the end of the handles. -/
theorem length_of_mem_dropLast_peelBatches {msgs entries c : List Nat}
    (hc : c ∈ (peelBatches skip msgs entries).dropLast) : c.length = maxBatchSize := by
  induction msgs generalizing entries with
  | nil => simp [peelBatches] at hc
  | cons m ms ih =>
    simp only [peelBatches] at hc
    split at hc
    · exact ih hc
    split at hc
    · rename_i hf
      split at hc
      · simp at hc
      · rw [List.dropLast_cons_of_ne_nil
          (List.length_pos.mp (length_peelBatches skip ms []).1)] at hc
        rcases List.mem_cons.mp hc with rfl | hc
        · simpa using hf
        · exact ih hc
    · exact ih hc

theorem batches_eq_nil_iff {msgs : List Nat} : batches skip msgs = [] ↔ msgs = [] := by
  unfold batches
  split
  · simp_all
  · simp only [‹¬msgs = []›, iff_false]
    exact List.length_pos.mp (length_peelBatches skip msgs []).1

theorem length_batches_le (msgs : List Nat) : (batches skip msgs).length ≤ msgs.length := by
  unfold batches
  split
  · simp
  · have := (length_peelBatches skip msgs []).2
    have : 0 < msgs.length := List.length_pos.mpr ‹_›
    omega

theorem length_of_mem_dropLast_batches {msgs c : List Nat}
    (hc : c ∈ (batches skip msgs).dropLast) : c.length = maxBatchSize := by
  unfold batches at hc
  split at hc
  · simp at hc
  · exact length_of_mem_dropLast_peelBatches skip hc

end Peel

/-! ## The handles each request carries -/

section Requests

variable {cfg : SqsiConfig} {heap : Heap} {origin : Origin} {msgs : List Nat} {rpc : Rpc}

theorem deletes_of_mem_deleteMessages (h : rpc ∈ deleteMessages cfg origin msgs) {r : Nat}
    (hr : r ∈ rpc.deletes) : r ∈ msgs := by
  obtain ⟨-, entries, he, rfl⟩ := mem_deleteMessages.mp h
  exact (mem_of_mem_batches _ he hr).1

theorem resets_of_mem_deleteMessages (h : rpc ∈ deleteMessages cfg origin msgs) :
    rpc.resets = [] := by
  obtain ⟨-, entries, -, rfl⟩ := mem_deleteMessages.mp h
  rfl

theorem origin_of_mem_deleteMessages (h : rpc ∈ deleteMessages cfg origin msgs) :
    rpc.origin = some origin := by
  obtain ⟨-, entries, -, rfl⟩ := mem_deleteMessages.mp h
  rfl

theorem deletes_of_mem_resetMessages (h : rpc ∈ resetMessages cfg heap origin msgs) :
    rpc.deletes = [] := by
  obtain ⟨-, entries, -, rfl⟩ := mem_resetMessages.mp h
  rfl

theorem entries_sublist_of_mem_deleteMessages (h : rpc ∈ deleteMessages cfg origin msgs) :
    rpc.entries <+ msgs := by
  obtain ⟨-, entries, he, rfl⟩ := mem_deleteMessages.mp h
  exact sublist_of_mem_batches _ he

theorem entries_sublist_of_mem_resetMessages (h : rpc ∈ resetMessages cfg heap origin msgs) :
    rpc.entries <+ msgs := by
  obtain ⟨-, entries, he, rfl⟩ := mem_resetMessages.mp h
  exact sublist_of_mem_batches _ he

theorem extensions_of_mem_deleteMessages (h : rpc ∈ deleteMessages cfg origin msgs) :
    rpc.extensions = [] := by
  obtain ⟨-, entries, -, rfl⟩ := mem_deleteMessages.mp h
  rfl

theorem extensions_of_mem_resetMessages (h : rpc ∈ resetMessages cfg heap origin msgs) :
    rpc.extensions = [] := by
  obtain ⟨-, entries, -, rfl⟩ := mem_resetMessages.mp h
  rfl

/-- A reset's entries are handles of its argument that were not `DELETED`. -/
theorem resets_of_mem_resetMessages (h : rpc ∈ resetMessages cfg heap origin msgs) {r : Nat}
    (hr : r ∈ rpc.resets) : r ∈ msgs ∧ heap.isDeleted r = false := by
  obtain ⟨-, entries, he, rfl⟩ := mem_resetMessages.mp h
  exact mem_of_mem_batches _ he hr

theorem origin_of_mem_resetMessages (h : rpc ∈ resetMessages cfg heap origin msgs) :
    rpc.origin = some origin := by
  obtain ⟨-, entries, -, rfl⟩ := mem_resetMessages.mp h
  rfl

/-- When every handle is `DELETED`, a reset's requests carry no entries. -/
theorem eq_nil_of_mem_resetMessages (h : rpc ∈ resetMessages cfg heap origin msgs)
    (hd : ∀ r ∈ msgs, heap.isDeleted r = true) {entries : List Nat} {v : Int}
    (hrpc : rpc = .changeMessageVisibilityBatch origin entries v) : entries = [] := by
  obtain ⟨-, entries', he, rfl⟩ := mem_resetMessages.mp h
  cases hrpc
  refine List.eq_nil_iff_forall_not_mem.mpr fun r hr => ?_
  have := mem_of_mem_batches _ he hr
  simp [hd r this.1] at this

/-- With `DeleteMessage` on, the delete requests for `msgs` carry exactly `msgs`, in order. -/
theorem flatMap_deletes_deleteMessages (h : cfg.deleteMessage = true) :
    (deleteMessages cfg origin msgs).flatMap Rpc.deletes = msgs := by
  simp only [deleteMessages, h, if_true, List.flatMap_map, Rpc.deletes]
  exact (List.flatMap_id _).trans (by simpa using flatten_batches (fun _ => false) msgs)

/-- With `ResetVisibility` on, the resets for `msgs` carry exactly the handles of `msgs` that are
not `DELETED`, in order. -/
theorem flatMap_resets_resetMessages (h : cfg.resetVisibility = true) :
    (resetMessages cfg heap origin msgs).flatMap Rpc.resets =
      msgs.filter (fun r => !heap.isDeleted r) := by
  simp only [resetMessages, h, if_true, updateVisibilityMessages, List.flatMap_map, Rpc.resets,
    show toInt32 0 = 0 from rfl, if_true]
  exact (List.flatMap_id _).trans (flatten_batches _ msgs)

end Requests

/-- Without a check, every request has an entry. -/
theorem peelBatches_ne_nil {msgs entries c : List Nat} (hne : entries ≠ [] ∨ msgs ≠ [])
    (hc : c ∈ peelBatches (fun _ => false) msgs entries) : c ≠ [] := by
  induction msgs generalizing entries with
  | nil => simp_all [peelBatches]
  | cons m ms ih =>
    simp only [peelBatches, Bool.false_eq_true, if_false] at hc
    split at hc
    · rcases List.mem_cons.mp hc with rfl | hc
      · simp
      · split at hc
        · simp at hc
        · exact ih (.inr ‹_›) hc
    · exact ih (.inl (by simp)) hc

theorem ne_nil_of_mem_batches {msgs c : List Nat} (hc : c ∈ batches (fun _ => false) msgs) :
    c ≠ [] :=
  let ⟨hne, hc⟩ := mem_peelBatches_of_mem_batches _ hc
  peelBatches_ne_nil (.inr hne) hc

/-- Without a check, the loop issues one request for every ten handles, rounding up. -/
theorem length_peelBatches_never {msgs entries : List Nat} (he : entries.length < maxBatchSize) :
    (peelBatches (fun _ => false) msgs entries).length =
      max 1 ((entries.length + msgs.length + 9) / 10) := by
  induction msgs generalizing entries with
  | nil =>
    simp only [maxBatchSize] at he
    simp only [peelBatches, List.length_singleton, List.length_nil]
    omega
  | cons m ms ih =>
    simp only [maxBatchSize] at he ih
    simp only [peelBatches, Bool.false_eq_true, if_false, maxBatchSize, List.length_cons]
    split
    · split
      · simp_all
      · rw [List.length_cons, ih (by simp)]
        have : 0 < ms.length := List.length_pos.mpr ‹_›
        simp only [List.length_nil]
        omega
    · rw [ih (by simp only [List.length_append, List.length_singleton]; omega)]
      simp only [List.length_append, List.length_singleton]
      omega

theorem length_batches_never (msgs : List Nat) :
    (batches (fun _ => false) msgs).length = (msgs.length + 9) / 10 := by
  unfold batches
  split
  · simp_all
  · rw [length_peelBatches_never (by simp [maxBatchSize])]
    have : 0 < msgs.length := List.length_pos.mpr ‹_›
    simp only [List.length_nil]
    omega

/-! ## What each function issues -/

section Law

variable {cfg : SqsiConfig} {heap : Heap} {origin : Origin} {timeout : Int} {msgs : List Nat}

/-- `deleteMessages`, with `DeleteMessage` on: requests of one to ten entries, one for every ten
handles, whose entries in order are the handles. -/
theorem deleteMessages_law (hd : cfg.deleteMessage = true) :
    (deleteMessages cfg origin msgs).flatMap Rpc.entries = msgs ∧
      (∀ rpc ∈ deleteMessages cfg origin msgs,
        (∃ entries, rpc = .deleteMessageBatch origin entries) ∧
          0 < rpc.entries.length ∧ rpc.entries.length ≤ maxBatchSize) ∧
      (deleteMessages cfg origin msgs).length = (msgs.length + 9) / 10 := by
  refine ⟨?_, fun rpc h => ?_, ?_⟩
  · simp only [deleteMessages, hd, if_true, List.flatMap_map, Rpc.entries]
    exact (List.flatMap_id _).trans (by simpa using flatten_batches (fun _ => false) msgs)
  · obtain ⟨-, entries, he, rfl⟩ := mem_deleteMessages.mp h
    exact ⟨⟨entries, rfl⟩, List.length_pos.mpr (ne_nil_of_mem_batches he),
      length_le_of_mem_batches _ he⟩
  · rw [deleteMessages, if_pos hd, List.length_map, length_batches_never]

/-- `updateVisibilityMessages`: requests to `int32(timeout)` whose entries in order are the
handles not `DELETED`; at most ten entries each, exactly ten in every request but the last; one
request at least when there are handles, and at most one per handle. -/
theorem updateVisibilityMessages_law :
    (updateVisibilityMessages heap origin timeout msgs).flatMap Rpc.entries =
        msgs.filter (fun r => !heap.isDeleted r) ∧
      (∀ rpc ∈ updateVisibilityMessages heap origin timeout msgs,
        (∃ entries, rpc = .changeMessageVisibilityBatch origin entries (toInt32 timeout)) ∧
          rpc.entries.length ≤ maxBatchSize) ∧
      (∀ rpc ∈ (updateVisibilityMessages heap origin timeout msgs).dropLast,
        rpc.entries.length = maxBatchSize) ∧
      (updateVisibilityMessages heap origin timeout msgs = [] ↔ msgs = []) ∧
      (updateVisibilityMessages heap origin timeout msgs).length ≤ msgs.length := by
  refine ⟨?_, fun rpc h => ?_, fun rpc h => ?_, ?_, ?_⟩
  · simp only [updateVisibilityMessages, List.flatMap_map, Rpc.entries]
    exact (List.flatMap_id _).trans (flatten_batches _ msgs)
  · obtain ⟨entries, he, rfl⟩ := mem_updateVisibilityMessages.mp h
    exact ⟨⟨entries, rfl⟩, length_le_of_mem_batches _ he⟩
  · rw [updateVisibilityMessages, ← List.map_dropLast] at h
    obtain ⟨entries, he, rfl⟩ := List.mem_map.mp h
    exact length_of_mem_dropLast_batches _ he
  · rw [updateVisibilityMessages, List.map_eq_nil_iff, batches_eq_nil_iff]
  · rw [updateVisibilityMessages, List.length_map]
    exact length_batches_le _ msgs

/-- **When `updateVisibilityMessages` issues a request with no entries**: exactly when it is given
handles, the last of them is `DELETED`, and those not `DELETED` fill whole requests, none at all
included. -/
theorem updateVisibilityMessages_without_entries_iff :
    (∃ rpc ∈ updateVisibilityMessages heap origin timeout msgs, rpc.entries = []) ↔
      msgs ≠ [] ∧ (msgs.filter fun r => !heap.isDeleted r).length % 10 = 0 ∧
        ∀ r ∈ msgs.getLast?, heap.isDeleted r = true := by
  simp only [updateVisibilityMessages, List.mem_map, exists_exists_and_eq_and, Rpc.entries,
    exists_eq_right]
  exact nil_mem_batches_iff _

end Law

/-- Ten handles that are not `DELETED`, then one that is: `updateVisibilityMessages` issues a
request with the ten and a second one with no entries, where `deleteMessages` issues one request
with ten entries and one with the last handle; and a single `DELETED` handle gets a request of
its own with no entries. -/
theorem visibility_request_without_entries :
    updateVisibilityMessages (((List.replicate 11 (⟨"m1", "r1", 30⟩ : SqsMessageHandle)).foldl
        Heap.alloc Heap.empty).setDeadline 10 SqsMessageDeadline.deleted) .ackLoop 0
        (List.range 11) =
      [.changeMessageVisibilityBatch .ackLoop (List.range 10) 0,
        .changeMessageVisibilityBatch .ackLoop [] 0] ∧
    (deleteMessages SqsiConfig.default .ackLoop (List.range 11)).map Rpc.entries =
      [List.range 10, [10]] ∧
    updateVisibilityMessages (((List.replicate 11 (⟨"m1", "r1", 30⟩ : SqsMessageHandle)).foldl
        Heap.alloc Heap.empty).setDeadline 10 SqsMessageDeadline.deleted) .refresh 30 [10] =
      [.changeMessageVisibilityBatch .refresh [] 30] := by
  decide

/-- `int32(x)` is `x` on the range of `int32`. -/
theorem toInt32_of_mem_range {x : Int} (h₁ : -2147483648 ≤ x) (h₂ : x < 2147483648) :
    toInt32 x = x := by
  simp only [toInt32, Int.bmod_def]
  split <;> omega

/-- **The requests of the two batching functions**, for every list of handles and every marking
fixed during the call, when every call succeeds. -/
theorem batch_requests {cfg : SqsiConfig} (hd : cfg.deleteMessage = true) (heap : Heap)
    (origin : Origin) (timeout : Int) (msgs : List Nat) :
    ((deleteMessages cfg origin msgs).flatMap Rpc.entries = msgs ∧
      (∀ rpc ∈ deleteMessages cfg origin msgs,
        (∃ entries, rpc = .deleteMessageBatch origin entries) ∧
          1 ≤ rpc.entries.length ∧ rpc.entries.length ≤ 10) ∧
      (deleteMessages cfg origin msgs).length = (msgs.length + 9) / 10) ∧
    ((updateVisibilityMessages heap origin timeout msgs).flatMap Rpc.entries =
        msgs.filter (fun r => !heap.isDeleted r) ∧
      (∀ rpc ∈ updateVisibilityMessages heap origin timeout msgs,
        (∃ entries, rpc = .changeMessageVisibilityBatch origin entries (toInt32 timeout)) ∧
          rpc.entries.length ≤ 10) ∧
      (∀ rpc ∈ (updateVisibilityMessages heap origin timeout msgs).dropLast,
        rpc.entries.length = 10) ∧
      (updateVisibilityMessages heap origin timeout msgs = [] ↔ msgs = []) ∧
      (updateVisibilityMessages heap origin timeout msgs).length ≤ msgs.length) ∧
    (-2147483648 ≤ timeout → timeout < 2147483648 → toInt32 timeout = timeout) :=
  ⟨deleteMessages_law hd, updateVisibilityMessages_law, toInt32_of_mem_range⟩

theorem batch_requests_twelve :
    ∃ heap : Heap,
      (deleteMessages SqsiConfig.default .ackLoop (List.range 12)).map Rpc.entries =
        [List.range 10, [10, 11]] ∧
      (updateVisibilityMessages heap .ackLoop 30 (List.range 12)).map Rpc.entries =
        [[0, 1, 2, 3, 5, 6, 7, 8, 9, 10], [11]] ∧
      SqsiConfig.default.deleteMessage = true ∧
      (((deleteMessages SqsiConfig.default .ackLoop (List.range 12)).flatMap Rpc.entries =
          List.range 12 ∧
        (∀ rpc ∈ deleteMessages SqsiConfig.default .ackLoop (List.range 12),
          (∃ entries, rpc = .deleteMessageBatch .ackLoop entries) ∧
            1 ≤ rpc.entries.length ∧ rpc.entries.length ≤ 10) ∧
        (deleteMessages SqsiConfig.default .ackLoop (List.range 12)).length =
          ((List.range 12).length + 9) / 10) ∧
      ((updateVisibilityMessages heap .ackLoop 30 (List.range 12)).flatMap Rpc.entries =
          (List.range 12).filter (fun r => !heap.isDeleted r) ∧
        (∀ rpc ∈ updateVisibilityMessages heap .ackLoop 30 (List.range 12),
          (∃ entries, rpc = .changeMessageVisibilityBatch .ackLoop entries (toInt32 30)) ∧
            rpc.entries.length ≤ 10) ∧
        (∀ rpc ∈ (updateVisibilityMessages heap .ackLoop 30 (List.range 12)).dropLast,
          rpc.entries.length = 10) ∧
        (updateVisibilityMessages heap .ackLoop 30 (List.range 12) = [] ↔ List.range 12 = []) ∧
        (updateVisibilityMessages heap .ackLoop 30 (List.range 12)).length ≤
          (List.range 12).length) ∧
      (-2147483648 ≤ (30 : Int) → (30 : Int) < 2147483648 → toInt32 30 = 30)) :=
  ⟨((List.replicate 12 (⟨"m1", "r1", 30⟩ : SqsMessageHandle)).foldl Heap.alloc
      Heap.empty).setDeadline 4 SqsMessageDeadline.deleted, by decide, by decide, rfl,
    batch_requests rfl _ .ackLoop 30 (List.range 12)⟩

end SqsInput
