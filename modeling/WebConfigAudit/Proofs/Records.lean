import WebConfigAudit.Contract.Record
/-!
Reading the members of a record back, whatever the record is.
-/

namespace WebConfigAudit.Record

variable {α : Type} {decode : Json → Option α} {encode : α → Json}

/-- What is read off every entry of a list is read off the list. -/
theorem listOf_map_eq {β : Type} {read : Json → Option β} {f : α → β}
    {as : List α} (hread : ∀ a ∈ as, read (encode a) = some (f a)) :
    listOf read (.array (as.map encode)) = some (as.map f) := by
  rw [listOf]
  induction as with
  | nil => rfl
  | cons a as ih =>
      rw [List.forall_mem_cons] at hread
      rw [List.map_cons, List.mapM_cons, hread.1, ih hread.2]
      rfl

/-- A list is read back if each of its entries is. -/
theorem listOf_map {as : List α}
    (hback : ∀ a ∈ as, decode (encode a) = some a) :
    listOf decode (.array (as.map encode)) = some as := by
  simpa using listOf_map_eq (f := id) hback

/-- An option is read back if its value is, and if no value is written as
null. -/
theorem optional_orNull {a? : Option α}
    (hback : ∀ a, decode (encode a) = some a) (hnull : ∀ a, encode a ≠ .null) :
    optional decode (some (orNull encode a?)) = some a? := by
  cases a? with
  | none => rfl
  | some a =>
      have hsome : ∀ json, json ≠ .null →
          optional decode (some json) = (decode json).map some := by
        intro json hjson
        cases json with
        | null => contradiction
        | _ => rfl
      rw [orNull, hsome _ (hnull a), hback a]
      rfl

end WebConfigAudit.Record
