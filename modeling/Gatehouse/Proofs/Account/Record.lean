import Gatehouse.Account.Basic
import Gatehouse.Proofs.Storage.Document
import Mathlib.Algebra.Group.Nat.Defs

/-!
# Accounts as records

An account that was just made is stored as an object of its two fields, and is read back from this
object. The object can stand in a document.

## Key results

- `entries_fields_new`: the fields that a new account is stored as
- `ofValue_toValue_new`: a new account is read back from the value that it is stored as
- `storable_toValue_new`: this value can stand in a document
-/

namespace Gatehouse.Account

/-- The fields of a new account stand in the order of their names. -/
theorem entries_fields_new (email : String) (now : Nat) :
    (Account.new email now).fields.entries = [("created", .int now), ("email", .text email)] := by
  have hlt : ¬"email" < "created" := by decide
  have hne : "email" ≠ "created" := by decide
  simp only [fields, Account.new, SortedMap.empty, SortedMap.insert, SortedMap.insertEntry,
    List.foldl_nil, if_neg hlt, if_neg hne]

/-- A new account is read back, if the time of its creation can be told in 64 bits. -/
theorem ofValue_toValue_new (email : String) {now : Nat} (h : now < 2 ^ 64) :
    ofValue (Account.new email now).toValue = .ok (Account.new email now) := by
  have hcreated : Decode.unsigned 64 (.int now) = .ok now := if_pos h
  have hne : ¬"created" = "email" := by decide
  rw [toValue, entries_fields_new, ofValue]
  simp only [List.foldlM_cons, List.foldlM_nil, Draft.add, if_neg hne, if_true, hcreated,
    Decode.text, bind, Except.bind, pure, Except.pure, Draft.finish, Option.getD_some]
  rfl

/-- A new account can stand in a document. -/
theorem storable_toValue_new (email : String) {now : Nat} (h : now < 2 ^ 64) :
    Storage.Storable (Account.new email now).toValue := by
  have hlt : "created" < "email" := by decide
  rw [toValue, entries_fields_new]
  refine ⟨.object (List.pairwise_pair.2 hlt) ?_, ?_⟩
  · intro f hf
    simp only [List.mem_cons, List.not_mem_nil, or_false] at hf
    rcases hf with rfl | rfl
    · exact .int (by omega) (by exact_mod_cast h)
    · exact .text email
  · simp only [Value.depth, Value.depthFields, Json.maxDepth]
    omega

end Gatehouse.Account
