import Statefuse.Reference
import Statefuse.Store.InMemoryPages
import Statefuse.Store.Jsonl
import Statefuse.Store.Sqlite

/-!
# One contract for three stores

The cursors of the stores are positions in a list, in a file and in a table.  Whatever calls
made a store, reading it page by page from the start loses, repeats and splits nothing.
-/

namespace Statefuse

section Theory

variable [Runtime]

/-- Pages lose, repeat and split nothing, of an in-memory store, of a file that starts with
any terminated lines, and of a table whose rows are operations and whose batch ids are new. -/
theorem paged_reads :
    (∀ calls, ReadsBack (InMemoryStore.after calls).1.readAfter
      (InMemoryStore.after calls).1.appendOrder.length (InMemoryStore.after calls).2) ∧
    (∀ (start : JsonlStore) (calls : List (List Op)), start.Terminated →
      ReadsBack (start.after calls).1.readAfter ((start.after calls).1.file.getD []).length
        (start.after calls).2) ∧
    ∀ (start : SQLiteStore) (calls : List (String × List Op)), start.WellFormed →
      start.Fresh calls →
      ReadsBack (start.after calls).1.readAfter (SQLiteStore.maximum (start.after calls).1.rows)
        (start.after calls).2 :=
  ⟨InMemoryStore.after_readsBack, JsonlStore.after_readsBack, SQLiteStore.after_readsBack⟩

end Theory

section Example

attribute [local instance] Reference.runtime

private def noteOp (opId decisionId : String) : Op :=
  .decisionAdded ⟨opId, "r", Reference.timestamp⟩ ⟨decisionId, "session", ∅, Reference.timestamp⟩

/-- Four calls: one repeats an operation of another, and one is empty. -/
private def noteCalls : List (List Op) :=
  [[noteOp "o" "d", noteOp "p" "e"], [noteOp "p" "e", noteOp "q" "f"], [], [noteOp "u" "g"]]

/-- A file that starts with a line nobody can read. -/
private def scribbled : JsonlStore := ⟨some [120, 10]⟩

/-- A table with a gap in front of its only row. -/
private def tabled : SQLiteStore := ⟨[⟨7, "z", (noteOp "z" "h").toJson, some "older"⟩]⟩

private def tableCalls : List (String × List Op) := ["a", "b", "c", "e"].zip noteCalls

private theorem tabled_wellFormed : tabled.WellFormed := by
  refine ⟨List.pairwise_singleton _ _, ?_, ?_⟩
  · intro row listed
    rw [List.mem_singleton.mp listed]
    decide
  · intro row listed
    rw [List.mem_singleton.mp listed]
    exact ⟨_, Op.fromJson_toJson _⟩

private theorem tableCalls_fresh : tabled.Fresh tableCalls := by
  refine ⟨by simp [tableCalls, noteCalls], by simp [tableCalls, noteCalls], ?_⟩
  intro call listed row present
  rw [List.mem_singleton.mp present]
  have names : ∀ call ∈ tableCalls, "older" ≠ call.1 := by simp [tableCalls, noteCalls]
  exact names call listed

/-- Three batches in memory, in a file after a line that is no batch, and in a table after a row;
a page of at least one operation ends with the first batch, one of three with the second. -/
theorem paged_reads_notes :
    ReadsBack (InMemoryStore.after noteCalls).1.readAfter
        (InMemoryStore.after noteCalls).1.appendOrder.length (InMemoryStore.after noteCalls).2 ∧
      ReadsBack (scribbled.after noteCalls).1.readAfter
        ((scribbled.after noteCalls).1.file.getD []).length (scribbled.after noteCalls).2 ∧
      ReadsBack (tabled.after tableCalls).1.readAfter
        (SQLiteStore.maximum (tabled.after tableCalls).1.rows) (tabled.after tableCalls).2 ∧
      (InMemoryStore.after noteCalls).2.map (·.map Op.opId) = [["o", "p"], ["q"], ["u"]] ∧
      ([1, 3].map fun limit => ((InMemoryStore.after noteCalls).1.readAfter 0
        (some limit)).toOption.map StoreDelta.cursor) = [some 2, some 3] := by
  exact ⟨paged_reads.1 noteCalls, paged_reads.2.1 scribbled noteCalls rfl,
    paged_reads.2.2 tabled tableCalls tabled_wellFormed tableCalls_fresh, by decide +kernel,
    by decide +kernel⟩

end Example

end Statefuse
