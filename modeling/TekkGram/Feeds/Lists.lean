import Mathlib.Data.Prod.Lex
import Mathlib.Data.String.Basic
import TekkGram.Comments.Providers
import TekkGram.Lazy.Sequence

/-!
# Lists of documents

A provider listens to a query that is ordered by `created_at` and emits a lazy sequence of what it
decodes. A list view asks for the length of the sequence, and then for one item at a time.
-/

namespace TekkGram

open Arrangement

/-- The place of a document in a query ordered by `created_at`; equal dates are ordered by the
id. -/
def DocSnapshot.place (doc : DocSnapshot) : Lex (Timestamp × String) := toLex (doc.date, doc.id)

/-- The documents of a query ordered by `created_at`, descending: those that have one. -/
def Query.newestFirst (q : Query) (docs : Collection) : List DocSnapshot :=
  arrange DocSnapshot.place ((q.eval docs).filter fun doc => doc.createdAt.isSome)

/-- The snapshot of a query ordered by `created_at` that has no pending documents. -/
def Query.snapshot (q : Query) (docs : Collection) : List QueryDocumentSnapshot :=
  (q.newestFirst docs).map DocSnapshot.committed

/-- What a list view shows: a note if there is nothing, and a tile for each item otherwise. The tile
of an item that cannot be decoded shows an error. -/
inductive ListShown (α : Type) where
  | nothing
  | tiles (items : List (Option α))
  deriving DecidableEq, Repr

/-- A list view of emitted items. If `build` throws, an error is shown in its place. -/
def ListView.build {α : Type} (items : Lazy.Sequence α) : Option (ListShown α) := do
  let isEmpty ← items.isEmpty
  if isEmpty then return .nothing
  else do
    let tiles ← items.builtItems
    return .tiles tiles

/-- Items without broken ones, as they are shown. -/
def ListShown.ofItems {α : Type} (items : List α) : ListShown α :=
  if items = [] then .nothing else .tiles (items.map some)

section Views

variable {α : Type}

/-- Items that are decoded are shown as they are. -/
theorem ListView.build_of_toList {xs : Lazy.Sequence α} {items : List α}
    (h : xs.toList = some items) : ListView.build xs = some (.ofItems items) := by
  rw [ListView.build, Lazy.Sequence.isEmpty_of_toList h, Lazy.Sequence.builtItems_of_toList h]
  cases items <;> rfl

/-- The items of a mapped list are all shown, broken or not. -/
theorem ListView.build_mapped (items : List (Option α)) :
    ListView.build (.mapped items) = some (if items = [] then .nothing else .tiles items) := by
  rw [ListView.build, Lazy.Sequence.builtItems_mapped]
  cases items <;> rfl

end Views

section Snapshots

variable {q : Query} {docs : Collection} {doc : DocSnapshot}

theorem Query.newestFirst_perm (q : Query) (docs : Collection) :
    (q.newestFirst docs).Perm ((q.eval docs).filter fun doc => doc.createdAt.isSome) :=
  arrange_perm _ _

/-- An ordered query returns the matching documents that have a date. -/
theorem Query.mem_newestFirst (hlimit : q.limit = none) : doc ∈ q.newestFirst docs ↔
    (docs[doc.id]? = some doc.data ∧ q.selects doc.id doc.data = true) ∧
      doc.createdAt.isSome = true := by
  rw [(q.newestFirst_perm docs).mem_iff, List.mem_filter, Query.mem_eval_iff hlimit]

end Snapshots

end TekkGram
