import SqsInput.Handle
import Mathlib.Data.List.AList

/-!
# The in-flight tracker

`sqsInFlightTracker` maps message ids to handles. Every operation runs under the tracker's
mutex, so each is one atomic step of the reader. `AddNew` is the exception: it waits on the
condition variable while the tracker is full, and each time it wakes it checks the size again
under the lock. Only its final check and the insertion after it are one step, so it appears
here as the admission test `hasRoom` and the insertion loop `addNew`.

A Go map holds one handle per id, and so does an `AList`: inserting under an id that is
already present replaces its handle.

`PullToRefresh` walks the handles and stores a new deadline in each one it returns. The loop
reads each handle's deadline as it comes to it; since no handle is stored under two ids, no
store is read back, and the loop is a filter (`pullToRefresh_fst`, `pullToRefresh_deadline`).
It keeps the handles whose deadline lies at least half the timeout ahead (`pullToRefresh_spec`),
the opposite of what its comment says: a handle whose deadline is near is skipped, and one just
received is refreshed (`pullToRefresh_skips_due`).
-/

namespace SqsInput

open scoped List

/-- The map of `sqsInFlightTracker`, from message id to handle. -/
abbrev Handles := AList (fun _ : String => Nat)

namespace SqsInFlightTracker

/-! ## Operations -/

/-- `Size`. -/
def size (t : Handles) : Nat := t.entries.length

/-- The handles stored in the tracker. -/
def refs (t : Handles) : List Nat := t.entries.map Sigma.snd

/-- `Remove`. -/
def remove (id : String) (t : Handles) : Handles := t.erase id

/-- `AddNew`'s final admission test: the tracker holds fewer handles than the limit. -/
def hasRoom (limit : Int) (t : Handles) : Bool := decide ((size t : Int) < limit)

/-- One iteration of `AddNew`'s insertion loop: a message with a handle is stored under its
id. -/
def addOne (heap : Heap) (t : Handles) (m : SqsMessage) : Handles :=
  match m.handle with
  | none => t
  | some r => t.insert (heap.cell r).id r

/-- The insertion loop of `AddNew`. -/
def addNew (heap : Heap) (messages : List SqsMessage) (t : Handles) : Handles :=
  messages.foldl (addOne heap) t

/-- The test for which `PullToRefresh` `continue`s past a handle:
`v.deadline.Load().Sub(now) < (t.timeout / 2)`, with Go's division truncating. -/
def skipsRefresh (timeout : Int) (now : Nat) (deadline : Int) : Bool :=
  decide (SqsMessageDeadline.load deadline - now < timeout.tdiv 2)

/-- One iteration of `PullToRefresh`'s loop: unless it skips `v`, append `v` and store
`now + timeout` as its deadline. -/
def pullStep (timeout : Int) (now : Nat) (acc : List Nat × Heap) (v : Nat) : List Nat × Heap :=
  if skipsRefresh timeout now (acc.2.cell v).deadline then acc
  else (acc.1 ++ [v], acc.2.setDeadline v (SqsMessageDeadline.store (now + timeout)))

/-- `PullToRefresh` at clock reading `now`: the handles returned, and the heap after its
stores. Go's map iteration order is unspecified; the returned list follows `entries`. -/
def pullToRefresh (timeout : Int) (now : Nat) (t : Handles) (heap : Heap) : List Nat × Heap :=
  t.entries.foldl (fun acc e => pullStep timeout now acc e.2) ([], heap)

/-! ## Size -/

@[simp] theorem size_empty : size ∅ = 0 := rfl

theorem size_insert_le (id : String) (r : Nat) (t : Handles) :
    size (t.insert id r) ≤ size t + 1 := by
  simp only [size, AList.insert_entries, List.length_cons]
  exact Nat.succ_le_succ (List.kerase_sublist _ _).length_le

theorem size_remove_le (id : String) (t : Handles) : size (remove id t) ≤ size t :=
  (List.kerase_sublist _ _).length_le

/-- An insertion grows the tracker by at most the batch's length. -/
theorem size_addNew_le (heap : Heap) (messages : List SqsMessage) (t : Handles) :
    size (addNew heap messages t) ≤ size t + messages.length := by
  induction messages generalizing t with
  | nil => simp [addNew]
  | cons m ms ih =>
    have hm : size (addOne heap t m) ≤ size t + 1 := by
      unfold addOne
      split
      · exact Nat.le_succ _
      · exact size_insert_le _ _ _
    have := ih (addOne heap t m)
    simp only [addNew, List.foldl_cons, List.length_cons] at this ⊢
    omega

/-! ## Lookup -/

theorem lookup_remove (id id' : String) (t : Handles) :
    (remove id t).lookup id' = if id' = id then none else t.lookup id' := by
  split
  · subst id'; exact AList.lookup_erase _ _
  · exact AList.lookup_erase_ne ‹_›

/-- What `addNew` stores under an id was stored there before, or is the handle of a message of
the batch carrying that id. -/
theorem lookup_addNew {heap : Heap} {messages : List SqsMessage} {t : Handles} {id : String}
    {r : Nat} (h : (addNew heap messages t).lookup id = some r) :
    t.lookup id = some r ∨ (∃ m ∈ messages, m.handle = some r) ∧ (heap.cell r).id = id := by
  induction messages generalizing t with
  | nil => exact .inl h
  | cons m ms ih =>
    rcases ih h with h | ⟨⟨m', hm', hr⟩, hid⟩
    · cases hm : m.handle with
      | none => simp only [addOne, hm] at h; exact .inl h
      | some r' =>
        simp only [addOne, hm] at h
        by_cases hid : id = (heap.cell r').id
        · subst hid
          rw [AList.lookup_insert, Option.some.injEq] at h
          subst h
          exact .inr ⟨⟨m, List.mem_cons_self _ _, hm⟩, rfl⟩
        · exact .inl (by rwa [AList.lookup_insert_ne hid] at h)
    · exact .inr ⟨⟨m', List.mem_cons_of_mem _ hm', hr⟩, hid⟩

/-- An id that no message of the batch carries keeps what it had. -/
theorem lookup_addNew_of_forall {heap : Heap} {messages : List SqsMessage} {t : Handles}
    {id : String} (h : ∀ m ∈ messages, ∀ r, m.handle = some r → (heap.cell r).id ≠ id) :
    (addNew heap messages t).lookup id = t.lookup id := by
  induction messages generalizing t with
  | nil => rfl
  | cons m ms ih =>
    simp only [List.mem_cons, forall_eq_or_imp] at h
    simp only [addNew, List.foldl_cons] at ih ⊢
    rw [ih h.2]
    unfold addOne
    split
    · rfl
    · exact AList.lookup_insert_ne (h.1 _ ‹_›).symm

/-- The last message of the batch that carries an id is the one stored under it. -/
theorem lookup_addNew_append_of_forall {heap : Heap} {pre post : List SqsMessage} {m : SqsMessage}
    {r : Nat} {t : Handles} (hm : m.handle = some r)
    (h : ∀ m' ∈ post, ∀ r', m'.handle = some r' → (heap.cell r').id ≠ (heap.cell r).id) :
    (addNew heap (pre ++ m :: post) t).lookup (heap.cell r).id = some r := by
  have hsplit : addNew heap (pre ++ m :: post) t =
      addNew heap post ((addNew heap pre t).insert (heap.cell r).id r) := by
    simp [addNew, addOne, List.foldl_append, hm]
  rw [hsplit, lookup_addNew_of_forall h, AList.lookup_insert]

theorem mem_refs {t : Handles} {r : Nat} : r ∈ refs t ↔ ∃ id, t.lookup id = some r := by
  simp only [refs, List.mem_map, ← Option.mem_def, AList.mem_lookup_iff]
  constructor
  · rintro ⟨⟨id, r'⟩, he, rfl⟩
    exact ⟨id, he⟩
  · rintro ⟨id, he⟩
    exact ⟨⟨id, r⟩, he, rfl⟩

/-! ## `PullToRefresh` -/

section Pull

variable (timeout : Int) (now : Nat)

/-- Storing one deadline in each handle of a list. -/
theorem foldl_setDeadline_deadline (xs : List Nat) (d : Int) (h : Heap) (r : Nat) :
    ((xs.foldl (fun h v => h.setDeadline v d) h).cell r).deadline =
      if r ∈ xs then d else (h.cell r).deadline := by
  induction xs generalizing h with
  | nil => simp
  | cons x xs ih =>
    rw [List.foldl_cons, ih]
    by_cases hx : r ∈ xs
    · simp [hx]
    · by_cases hrx : r = x <;> simp [hrx, hx]

/-- What storing the new deadline in a handle of the list keeps, the loop keeps. -/
theorem foldl_pullStep_heap (P : Heap → Prop) {vs : List Nat}
    (hP : ∀ h, ∀ v ∈ vs, P h → P (h.setDeadline v (SqsMessageDeadline.store (now + timeout)))) :
    ∀ acc : List Nat × Heap, P acc.2 → P (vs.foldl (pullStep timeout now) acc).2 := by
  induction vs with
  | nil => exact fun _ h => h
  | cons v vs ih =>
    intro acc hacc
    refine ih (fun h w hw => hP h w (List.mem_cons_of_mem _ hw)) _ ?_
    unfold pullStep
    split
    · exact hacc
    · exact hP _ v (List.mem_cons_self _ _) hacc

/-- Over handles that are pairwise distinct, the loop selects by the deadlines it started
from, and then stores the new deadline in each handle it selected. -/
theorem foldl_pullStep {vs : List Nat} (hnd : vs.Nodup) (sel : List Nat) (h : Heap) :
    vs.foldl (pullStep timeout now) (sel, h) =
      (sel ++ vs.filter (fun v => !skipsRefresh timeout now (h.cell v).deadline),
        (vs.filter (fun v => !skipsRefresh timeout now (h.cell v).deadline)).foldl
          (fun h v => h.setDeadline v (SqsMessageDeadline.store (now + timeout))) h) := by
  induction vs generalizing sel h with
  | nil => simp
  | cons v vs ih =>
    obtain ⟨hv, hnd⟩ := List.nodup_cons.mp hnd
    by_cases hs : skipsRefresh timeout now (h.cell v).deadline
    · simp [pullStep, hs, ih hnd]
    · have hkeep : vs.filter (fun w => !skipsRefresh timeout now
            (if w = v then SqsMessageDeadline.store (now + timeout) else (h.cell w).deadline)) =
          vs.filter (fun w => !skipsRefresh timeout now (h.cell w).deadline) :=
        List.filter_congr fun w hw => by rw [if_neg (by rintro rfl; exact hv hw)]
      simp [pullStep, hs, ih hnd, hkeep]

variable {timeout now}

theorem pullToRefresh_eq_foldl (t : Handles) (heap : Heap) :
    pullToRefresh timeout now t heap = (refs t).foldl (pullStep timeout now) ([], heap) := by
  simp only [pullToRefresh, refs, List.foldl_map]

/-- `PullToRefresh` returns the tracked handles it does not skip. -/
theorem pullToRefresh_fst {t : Handles} (hnd : (refs t).Nodup) (heap : Heap) :
    (pullToRefresh timeout now t heap).1 =
      (refs t).filter (fun v => !skipsRefresh timeout now (heap.cell v).deadline) := by
  rw [pullToRefresh_eq_foldl, foldl_pullStep timeout now hnd, List.nil_append]

/-- After `PullToRefresh`, exactly the returned handles carry the new deadline. -/
theorem pullToRefresh_deadline {t : Handles} (hnd : (refs t).Nodup) (heap : Heap) (r : Nat) :
    ((pullToRefresh timeout now t heap).2.cell r).deadline =
      if r ∈ (pullToRefresh timeout now t heap).1 then SqsMessageDeadline.store (now + timeout)
      else (heap.cell r).deadline := by
  rw [pullToRefresh_fst hnd, pullToRefresh_eq_foldl, foldl_pullStep timeout now hnd,
    foldl_setDeadline_deadline]

@[simp] theorem pullToRefresh_id (t : Handles) (heap : Heap) (r : Nat) :
    ((pullToRefresh timeout now t heap).2.cell r).id = (heap.cell r).id := by
  rw [pullToRefresh_eq_foldl]
  exact foldl_pullStep_heap timeout now (fun h => (h.cell r).id = (heap.cell r).id)
    (fun h _ _ hh => (Heap.setDeadline_id _ _ _ _).trans hh) _ rfl

@[simp] theorem pullToRefresh_receiptHandle (t : Handles) (heap : Heap) (r : Nat) :
    ((pullToRefresh timeout now t heap).2.cell r).receiptHandle = (heap.cell r).receiptHandle := by
  rw [pullToRefresh_eq_foldl]
  exact foldl_pullStep_heap timeout now
    (fun h => (h.cell r).receiptHandle = (heap.cell r).receiptHandle)
    (fun h _ _ hh => (Heap.setDeadline_receiptHandle _ _ _ _).trans hh) _ rfl

@[simp] theorem pullToRefresh_next (t : Handles) (heap : Heap) :
    (pullToRefresh timeout now t heap).2.next = heap.next := by
  rw [pullToRefresh_eq_foldl]
  exact foldl_pullStep_heap timeout now (fun h => h.next = heap.next) (fun _ _ _ hh => hh) _ rfl

/-- A handle outside the tracker keeps its deadline. -/
theorem pullToRefresh_deadline_of_not_mem {t : Handles} {r : Nat} (hr : r ∉ refs t)
    (heap : Heap) : ((pullToRefresh timeout now t heap).2.cell r).deadline = (heap.cell r).deadline := by
  rw [pullToRefresh_eq_foldl]
  exact foldl_pullStep_heap timeout now (fun h => (h.cell r).deadline = (heap.cell r).deadline)
    (fun h v hv hh => (Heap.setDeadline_deadline h v r _).trans
      ((if_neg (by rintro rfl; exact hr hv)).trans hh)) _ rfl

/-- **What `PullToRefresh` does**, for every tracker that stores no handle twice and every clock
reading: it returns, each once, exactly the tracked handles whose deadline lies at least half
the timeout ahead, stores `now + timeout` in each of them, and leaves every other deadline and
every id alone. The tracker itself it does not change. -/
theorem pullToRefresh_spec {t : Handles} (hnd : (refs t).Nodup) (heap : Heap) :
    (∀ r, r ∈ (pullToRefresh timeout now t heap).1 ↔
      r ∈ refs t ∧ timeout.tdiv 2 ≤ SqsMessageDeadline.load (heap.cell r).deadline - now) ∧
    (pullToRefresh timeout now t heap).1.Nodup ∧
    (∀ r, ((pullToRefresh timeout now t heap).2.cell r).deadline =
      if r ∈ (pullToRefresh timeout now t heap).1 then SqsMessageDeadline.store (now + timeout)
      else (heap.cell r).deadline) ∧
    ∀ r, ((pullToRefresh timeout now t heap).2.cell r).id = (heap.cell r).id := by
  refine ⟨fun r => ?_, ?_, pullToRefresh_deadline hnd heap, pullToRefresh_id t heap⟩
  · rw [pullToRefresh_fst hnd, List.mem_filter]
    simp [skipsRefresh]
  · rw [pullToRefresh_fst hnd]
    exact hnd.filter _

theorem pullToRefresh_skips_due :
    SqsMessageDeadline.load ((Heap.empty.alloc ⟨"m1", "r1", 30⟩).cell 0).deadline -
        (20000000000 : Nat) < (30 * second).tdiv 2 ∧
      (pullToRefresh (30 * second) 20000000000 ((∅ : Handles).insert "m1" 0)
        (Heap.empty.alloc ⟨"m1", "r1", 30⟩)).1 = [] ∧
      ¬ (SqsMessageDeadline.load ((Heap.empty.alloc ⟨"m1", "r1", 30⟩).cell 0).deadline -
        (0 : Nat) < (30 * second).tdiv 2) ∧
      (pullToRefresh (30 * second) 0 ((∅ : Handles).insert "m1" 0)
        (Heap.empty.alloc ⟨"m1", "r1", 30⟩)).1 = [0] := by
  decide

end Pull

end SqsInFlightTracker

end SqsInput
