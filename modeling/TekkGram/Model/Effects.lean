import TekkGram.Interaction.Trace
import TekkGram.Model.World

/-!
# Effects of calls on one collection

A call writes documents of a collection, erases documents of it, or spares it. What a call did
to the documents of a collection follows from these three.
-/

namespace TekkGram

open Interaction

/-- The collection of a write of a transaction. -/
def Write.collection : Write → CollectionPath
  | .set collection _ _ => collection
  | .delete collection _ => collection

/-- A call that returned erased the document `id` of a collection. -/
@[simp] def Erases (path : CollectionPath) (id : String) : (c : Call) → Ans c → Prop
  | .delete c id', _ => c = path ∧ id' = id
  | .commit writes, _ => .delete path id ∈ writes
  | _, _ => False

/-- A query of this collection returned. -/
@[simp] def Reads (query : Query) : (c : Call) → Ans c → Prop
  | .get q, _ => q = query
  | _, _ => False

/-- Calls that neither read nor change a collection. -/
@[simp] def Call.Spares (path : CollectionPath) : Call → Prop
  | .get query => query.collection ≠ path
  | .add c _ => c ≠ path
  | .update c _ _ => c ≠ path
  | .delete c _ => c ≠ path
  | .commit writes => ∀ write ∈ writes, write.collection ≠ path
  | _ => True

/-- Calls that do not change a collection. -/
@[simp] def Call.Keeps (path : CollectionPath) : Call → Prop
  | .add c _ => c ≠ path
  | .update c _ _ => c ≠ path
  | .delete c _ => c ≠ path
  | .commit writes => ∀ write ∈ writes, write.collection ≠ path
  | _ => True

section Spares

variable {path : CollectionPath} {c : Call}

theorem Call.Spares.keeps (h : c.Spares path) : c.Keeps path := by
  cases c <;> first | exact h | exact trivial

theorem Call.Keeps.not_writes (h : c.Keeps path) (id : String) (a : Ans c) :
    ¬ Writes path id c a := by
  cases c with
  | add c payload => exact fun hw => h hw.1
  | update c id' fields => exact fun hw => h hw.1
  | commit writes =>
    rintro ⟨write, hmem, hsets⟩
    cases write with
    | set c id' payload => exact h _ hmem hsets.1
    | delete c id' => exact hsets.elim
  | _ => exact not_false

theorem Call.Spares.not_writes (h : c.Spares path) (id : String) (a : Ans c) :
    ¬ Writes path id c a := h.keeps.not_writes id a

theorem Call.Spares.not_erases (h : c.Spares path) (id : String) (a : Ans c) :
    ¬ Erases path id c a := by
  cases c with
  | delete c id' => exact fun he => h he.1
  | commit writes => exact fun he => h _ he rfl
  | _ => exact not_false

theorem Call.Spares.not_reads (h : c.Spares path) {query : Query}
    (hquery : query.collection = path) (a : Ans c) : ¬ Reads query c a := by
  cases c with
  | get q =>
    rintro rfl
    exact h hquery
  | _ => exact not_false

/-- A transaction on other collections keeps the documents of this one. -/
theorem World.foldl_write_firestore {writes : List Write} (w : World) (t : Timestamp)
    (h : ∀ write ∈ writes, write.collection ≠ path) :
    (writes.foldl (fun w => w.write t) w).firestore path = w.firestore path := by
  induction writes generalizing w with
  | nil => rfl
  | cons write writes ih =>
    rw [List.foldl_cons, ih _ fun x hx => h x (List.mem_cons_of_mem _ hx)]
    have hne := h write (List.mem_cons_self ..)
    cases write with
    | set c id payload =>
      exact Function.update_of_ne (Ne.symm hne) _ _
    | delete c id =>
      exact Function.update_of_ne (Ne.symm hne) _ _

/-- A call that keeps a collection leaves its documents as they were. -/
theorem Call.Keeps.firestore {w w' : World} {r : Fallible Exc Ans c} (h : c.Keeps path)
    (hstep : World.step w c r = some w') : w'.firestore path = w.firestore path := by
  cases r with
  | error e => rw [World.step_error hstep]
  | ok a =>
    cases c with
    | add c payload =>
      simp only [World.step, World.perform] at hstep
      split at hstep <;> cases hstep
      exact Function.update_of_ne (Ne.symm h) _ _
    | update c id fields =>
      simp only [World.step, World.perform] at hstep
      split at hstep <;> cases hstep
      exact Function.update_of_ne (Ne.symm h) _ _
    | delete c id =>
      cases hstep
      exact Function.update_of_ne (Ne.symm h) _ _
    | commit writes =>
      cases hstep
      exact World.foldl_write_firestore w a h
    | setLoading | setAuthState | now | thumbnailData | googleSignIn | authentication
    | signInWithCredential | firebaseSignOut | googleSignOut =>
      simp only [World.step, World.perform] at hstep
      first
        | cases hstep; rfl
        | split at hstep <;> cases hstep; rfl
    | _ =>
      simp only [World.step, World.perform] at hstep
      split at hstep <;> cases hstep
      rfl

theorem Call.Spares.firestore {w w' : World} {r : Fallible Exc Ans c} (h : c.Spares path)
    (hstep : World.step w c r = some w') : w'.firestore path = w.firestore path :=
  h.keeps.firestore hstep

end Spares

end TekkGram
