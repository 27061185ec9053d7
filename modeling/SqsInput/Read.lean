import SqsInput.Handle
import Mathlib.Data.List.AList

/-!
# What `Read` hands to the consumer

`Read` takes the next message from `messagesChan`. A message without a body is answered with
`context.Canceled` and no `AckFunc`. Any other message becomes a `service.Message` whose metadata
`addSQSMetadata` fills in: the message id, the receipt handle, the approximate receive count when
SQS sent one, and then each message attribute that has a string value, in the order in which
`range` visits the attribute map. `MetaSetMut` replaces the value of a key, so an attribute named
like one of the first three keys replaces their value; and since a map holds each name once, the
order of the visit does not matter (`addSQSMetadata_lookup`).

`addSQSMetadata` dereferences `MessageId` and `ReceiptHandle` without the nil checks that `getMsgs`
makes before it creates a handle, so a message with a body but without one of them makes `Read`
panic; `read` is then `none`. The `AckFunc` that `Read` returns acts on the message's handle, and
returns at once when there is none.

`Message` holds the fields of `types.Message` that the reader's loops read; the two attribute maps,
which only `addSQSMetadata` reads, are passed beside it.
-/

namespace SqsInput

/-- The metadata of a `service.Message`. `MetaSetMut` replaces the value of a key. -/
abbrev Metadata := AList (fun _ : String => String)

/-- The attribute maps of an SQS `types.Message`: `Attributes`, and the `StringValue` of each
entry of `MessageAttributes`, in the order in which `range` visits that map. -/
structure SqsAttributes where
  attributes : AList (fun _ : String => String)
  messageAttributes : List (Σ _ : String, Option String)
  /-- A map holds each name once. -/
  nodupKeys : messageAttributes.NodupKeys

/-- The loop of `addSQSMetadata` over `MessageAttributes`: each attribute that has a string value
is set under its name. -/
def setMessageAttributes (md : Metadata) (attrs : List (Σ _ : String, Option String)) :
    Metadata :=
  attrs.foldl (fun md a => match a.2 with
    | some v => md.insert a.1 v
    | none => md) md

/-- `addSQSMetadata` on the fresh message of `Read`, or `none` when it dereferences a nil
`MessageId` or `ReceiptHandle`. -/
def addSQSMetadata (msg : Message) (a : SqsAttributes) : Option Metadata :=
  match msg.messageId, msg.receiptHandle with
  | some id, some rh =>
    let md := ((∅ : Metadata).insert "sqs_message_id" id).insert "sqs_receipt_handle" rh
    let md := match a.attributes.lookup "ApproximateReceiveCount" with
      | some count => md.insert "sqs_approximate_receive_count" count
      | none => md
    some (setMessageAttributes md a.messageAttributes)
  | _, _ => none

/-- After the loop over the attributes, a name holds the attribute's string value, if it has one,
and otherwise what it held before. -/
theorem lookup_setMessageAttributes (md : Metadata) {attrs : List (Σ _ : String, Option String)}
    (hnd : attrs.NodupKeys) (k : String) :
    (setMessageAttributes md attrs).lookup k =
      match attrs.dlookup k with
      | some (some v) => some v
      | _ => md.lookup k := by
  induction attrs generalizing md with
  | nil => rfl
  | cons a attrs ih =>
    obtain ⟨k', v'⟩ := a
    rw [List.nodupKeys_cons] at hnd
    rw [setMessageAttributes, List.foldl_cons, ← setMessageAttributes, ih _ hnd.2]
    by_cases hk : k = k'
    · subst hk
      rw [List.dlookup_eq_none.mpr hnd.1, List.dlookup_cons_eq]
      cases v' <;> simp [AList.lookup_insert]
    · rw [List.dlookup_cons_ne _ _ hk]
      split <;> cases v' <;> simp [AList.lookup_insert_ne hk]

/-- `addSQSMetadata` panics exactly when the message lacks an id or a receipt handle. -/
theorem addSQSMetadata_eq_none_iff (msg : Message) (a : SqsAttributes) :
    addSQSMetadata msg a = none ↔ msg.messageId = none ∨ msg.receiptHandle = none := by
  unfold addSQSMetadata
  cases msg.messageId <;> cases msg.receiptHandle <;> simp

theorem lookup_insert_ite (md : Metadata) (k k' v : String) :
    (md.insert k' v).lookup k = if k = k' then some v else md.lookup k := by
  split
  · subst k; exact AList.lookup_insert md
  · exact AList.lookup_insert_ne ‹_›

/-- **The metadata `Read` attaches.** `addSQSMetadata` panics exactly when the message lacks an
id or a receipt handle. Otherwise each key holds the string value of the message attribute of
that name when there is one, and else the approximate receive count, the receipt handle or the
id under their own keys: an attribute named like one of those replaces it, and an attribute
without a string value adds nothing. Visiting the attribute map in another order gives the same
metadata. -/
theorem addSQSMetadata_lookup (msg : Message) (a : SqsAttributes) :
    (addSQSMetadata msg a = none ↔ msg.messageId = none ∨ msg.receiptHandle = none) ∧
    (∀ md, addSQSMetadata msg a = some md → ∀ k, md.lookup k =
      match a.messageAttributes.dlookup k with
      | some (some v) => some v
      | _ =>
        if k = "sqs_approximate_receive_count" then a.attributes.lookup "ApproximateReceiveCount"
        else if k = "sqs_receipt_handle" then msg.receiptHandle
        else if k = "sqs_message_id" then msg.messageId
        else none) ∧
    ∀ a' : SqsAttributes, a'.attributes = a.attributes →
      a'.messageAttributes.Perm a.messageAttributes →
      (addSQSMetadata msg a').map (fun md k => md.lookup k) =
        (addSQSMetadata msg a).map (fun md k => md.lookup k) := by
  refine ⟨addSQSMetadata_eq_none_iff msg a, ?_⟩
  unfold addSQSMetadata
  cases msg.messageId with
  | none => simp
  | some id =>
    cases msg.receiptHandle with
    | none => simp
    | some rh =>
      refine ⟨?_, fun a' ha hp => ?_⟩
      · rintro _ ⟨⟩ k
        rw [lookup_setMessageAttributes _ a.nodupKeys]
        split
        · rfl
        · cases a.attributes.lookup "ApproximateReceiveCount" with
          | none =>
            simp only [lookup_insert_ite, AList.lookup_empty]
            split_ifs <;> (subst_vars; simp_all)
          | some count => simp only [lookup_insert_ite, AList.lookup_empty]
      · simp only [Option.map_some', Option.some.injEq]
        funext k
        rw [lookup_setMessageAttributes _ a.nodupKeys, lookup_setMessageAttributes _ a'.nodupKeys,
          List.perm_dlookup k a'.nodupKeys a.nodupKeys hp, ha]

/-- An attribute named `sqs_message_id` replaces the id, and one without a string value adds
nothing. -/
example : (addSQSMetadata ⟨some "m1", some "r1", some "b"⟩
    ⟨∅, [⟨"sqs_message_id", some "x"⟩, ⟨"bin", none⟩], by simp [List.NodupKeys]⟩).map
      (fun md => (md.lookup "sqs_message_id", md.lookup "sqs_receipt_handle", md.lookup "bin")) =
    some (some "x", some "r1", none) := by decide

end SqsInput
