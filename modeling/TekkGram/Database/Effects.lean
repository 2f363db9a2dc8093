import TekkGram.Failure.FirestoreAtomic
import TekkGram.Interaction.Linear

/-!
# Effects on the database

What an operation does to the database at one moment: it creates, sets, changes or erases one
document, or it finds none. Every call of the nine operations that write one document is such an
effect, or none.
-/

namespace TekkGram

open Interaction Async

/-- All collections. -/
abbrev Database := CollectionPath → Collection

/-- One atomic effect on the database. -/
inductive Effect where
  | create (path : CollectionPath) (id : String) (d : Doc)
  | set (path : CollectionPath) (id : String) (d : Doc)
  | merge (path : CollectionPath) (id : String) (fields : Doc)
  | erase (path : CollectionPath) (id : String)
  | absent (query : Query) (id : String)
  deriving DecidableEq, Repr

/-- A document is written, and everything else stays. -/
def Database.put (db : Database) (path : CollectionPath) (id : String) (d : Doc) : Database :=
  Function.update db path ((db path).insert id d)

/-- What each effect does: a document is created under a new id, set under any id, changed if it is
there, or erased; or the document is not there for a query. -/
inductive Effect.Acts : Database → Effect → Database → Prop
  | create {db : Database} {path : CollectionPath} {id : String} {d : Doc} (hnew : id ∉ db path) :
      Acts db (.create path id d) (db.put path id d)
  | set {db : Database} {path : CollectionPath} {id : String} {d : Doc} :
      Acts db (.set path id d) (db.put path id d)
  | merge {db : Database} {path : CollectionPath} {id : String} {d fields : Doc}
      (hd : (db path)[id]? = some d) :
      Acts db (.merge path id fields) (db.put path id (d.merge fields))
  | erase {db : Database} {path : CollectionPath} {id : String} :
      Acts db (.erase path id) (Function.update db path ((db path).erase id))
  | absent {db : Database} {query : Query} {id : String}
      (hnone : ∀ d, (db query.collection)[id]? = some d → query.selects id d = false) :
      Acts db (.absent query id) db

/-- The query in which an operation looks for a document, and the id of this document. -/
abbrev Lookup := Option (Query × String)

/-- The effect of an event: a write that returned, or the answer to the query of the operation, if
the document is not in it. -/
def effectOf (lookup : Lookup) : AppEvent → Option Effect
  | ⟨.add path payload, .ok added⟩ =>
    some (.create path added.id (payload.resolve added.commitTime))
  | ⟨.commit [.set path id payload], .ok t⟩ => some (.set path id (payload.resolve t))
  | ⟨.update path id fields, .ok _⟩ => some (.merge path id fields)
  | ⟨.delete path id, .ok _⟩ => some (.erase path id)
  | ⟨.get query, .ok docs⟩ =>
    match lookup with
    | none => none
    | some (q, id) =>
      if query = q ∧ ∀ doc ∈ docs, doc.id ≠ id then some (.absent q id) else none
  | _ => none

/-- The query of a lookup finds the document if it is there. -/
def Lookup.Finds (lookup : Lookup) : Prop :=
  ∀ q id, lookup = some (q, id) → ∀ (docs : Collection) (d : Doc), docs[id]? = some d →
    q.selects id d = true → ∃ doc ∈ q.eval docs, doc.id = id

/-- The calls of the operations: a transaction sets one document. -/
def Call.WritesOne : Call → Prop
  | .commit writes => ∃ path id payload, writes = [.set path id payload]
  | _ => True

/-- A query without a limit finds every matching document. -/
theorem Lookup.finds_of_limit {q : Query} (hlimit : q.limit = none) (id : String) :
    Lookup.Finds (some (q, id)) := by
  rintro _ _ ⟨⟩ docs d hd hselects
  exact ⟨⟨id, d⟩, (Query.mem_eval_iff hlimit).mpr ⟨hd, hselects⟩, rfl⟩

/-- A query by document id finds the document. -/
theorem Lookup.finds_byId (path : CollectionPath) (id : String) :
    Lookup.Finds (some (Query.byId path id, id)) := by
  rintro _ _ ⟨⟩ docs d hd -
  rw [Query.eval_byId, hd]
  exact ⟨⟨id, d⟩, List.mem_singleton_self _, rfl⟩

/-- A failed call has no effect. -/
@[simp] theorem effectOf_error {lookup : Lookup} {c : Call} {e : Exc} :
    effectOf lookup ⟨c, .error e⟩ = none := by
  unfold effectOf
  split <;> first | rfl | (rename_i heq; cases heq)

/-- A call that writes nothing has no effect, unless it is the query of the operation. -/
theorem Call.WritesNothing.effectOf {lookup : Lookup} {c : Call} (h : c.WritesNothing)
    (hquery : ∀ q id, lookup = some (q, id) → c ≠ .get q)
    (r : Fallible Exc Ans c) : effectOf lookup ⟨c, r⟩ = none := by
  cases r with
  | error e => exact effectOf_error
  | ok a =>
    cases c with
    | add path payload => exact h.elim
    | update path id fields => exact h.elim
    | delete path id => exact h.elim
    | commit writes => exact h.elim
    | get q =>
      cases lookup with
      | none => rfl
      | some lookup =>
        obtain ⟨q', id⟩ := lookup
        exact if_neg fun h => hquery q' id rfl (congrArg Call.get h.1)
    | _ => rfl

/-- One call of an operation does to the database what its effect does. -/
theorem World.step_acts {lookup : Lookup} (hfinds : lookup.Finds) {w w' : World} {c : Call}
    {r : Fallible Exc Ans c} (hc : c.WritesOne) (hstep : World.step w c r = some w') :
    Interaction.Acts Effect.Acts w.firestore (effectOf lookup ⟨c, r⟩) w'.firestore := by
  have hkept : ∀ db : Database, db = w.firestore →
      Interaction.Acts Effect.Acts w.firestore none db := fun _ h => h
  cases r with
  | error e =>
    rw [effectOf_error, World.step_error hstep]
    exact hkept _ rfl
  | ok a =>
    cases c with
    | add path payload =>
      simp only [World.step, World.perform] at hstep
      split at hstep
      · cases hstep
      · rename_i hnew
        cases hstep
        exact Effect.Acts.create hnew
    | update path id fields =>
      simp only [World.step, World.perform] at hstep
      split at hstep
      · cases hstep
      · rename_i d hd
        cases hstep
        exact Effect.Acts.merge hd
    | delete path id =>
      cases hstep
      exact Effect.Acts.erase
    | commit writes =>
      obtain ⟨path, id, payload, rfl⟩ := hc
      cases hstep
      exact Effect.Acts.set
    | get query =>
      simp only [World.step, World.perform] at hstep
      split at hstep
      · rename_i hdocs
        cases hstep
        cases lookup with
        | none => exact hkept _ rfl
        | some lookup =>
          obtain ⟨q, id⟩ := lookup
          simp only [effectOf]
          split
          · rename_i h
            obtain ⟨rfl, hnone⟩ := h
            refine Effect.Acts.absent fun d hd => Bool.eq_false_iff.mpr fun hselects => ?_
            obtain ⟨doc, hdoc, hid⟩ := hfinds _ _ rfl _ _ hd hselects
            exact hnone doc (hdocs ▸ hdoc) hid
          · exact hkept _ rfl
      · cases hstep
    | _ =>
      have hnone : effectOf lookup ⟨_, .ok a⟩ = none := rfl
      rw [hnone]
      exact hkept _ (Call.WritesNothing.firestore w _ _ w' (by trivial) hstep)

end TekkGram
