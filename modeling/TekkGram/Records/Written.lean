import TekkGram.Model.Effects
import TekkGram.Model.Network
import TekkGram.Notifiers.ChatMessage
import TekkGram.Notifiers.Comments
import TekkGram.Notifiers.EditPost
import TekkGram.Notifiers.ImageUpload

/-!
# What was written last

Posts, comments and messages are created as payloads and edited by merges of some of their fields.
A field of a stored document is the value that was written to it last, in whatever order the
operations of several devices come.
-/

namespace TekkGram

open Interaction Async

/-- A write of one document: all of it, or some of its fields. -/
inductive DocWrite where
  | create (d : Doc)
  | merge (fields : Doc)
  deriving DecidableEq, Repr

/-- The document after a write. -/
def DocWrite.apply : DocWrite → Option Doc → Option Doc
  | .create d, _ => some d
  | .merge fields, before => before.map fun d => d.merge fields

/-- The value that a write gives to a field, if it writes it. -/
def DocWrite.value (key : String) : DocWrite → Option Value
  | .create d => some (d.field key)
  | .merge fields => fields.reverse.lookup key

/-- The value that a creation gives to a field. -/
def DocWrite.created (key : String) : DocWrite → Option Value
  | .create d => some (d.field key)
  | .merge _ => none

/-- The write that a returned call has made to a document. -/
def docWrite (path : CollectionPath) (id : String) : AppEvent → Option DocWrite
  | ⟨.add c payload, .ok added⟩ =>
    if c = path ∧ added.id = id then some (.create (payload.resolve added.commitTime)) else none
  | ⟨.update c id' fields, .ok _⟩ => if c = path ∧ id' = id then some (.merge fields) else none
  | ⟨.commit [.set c id' payload], .ok t⟩ =>
    if c = path ∧ id' = id then some (.create (payload.resolve t)) else none
  | _ => none

/-- The value of a field after these events: the one that was written last, or the one at the
start. -/
def writtenValue (start : Collection) (path : CollectionPath) (id : String)
    (events : List AppEvent) (key : String) : Value :=
  ((events.filterMap fun e => (docWrite path id e).bind (·.value key)).getLast?).getD
    ((start[id]?.getD []).field key)

/-- The value of a field as the last creation of its document has written it, or as at the start. -/
def createdValue (start : Collection) (path : CollectionPath) (id : String)
    (events : List AppEvent) (key : String) : Value :=
  ((events.filterMap fun e => (docWrite path id e).bind (·.created key)).getLast?).getD
    ((start[id]?.getD []).field key)

/-- The payloads of new posts, comments and messages. -/
inductive CreatesRecord : CollectionPath → Doc → Prop
  | post (userId : UserId) (message : String) (thumbnailUrl fileUrl : List String)
      (fileType : FileType) (fileName : List String) (aspectRatio : List ℚ)
      (postSettings : List (PostSettings × Bool))
      (thumbnailStorageId originalFileStorageId : List String) :
      CreatesRecord .posts (postPayload userId message thumbnailUrl fileUrl fileType fileName
        aspectRatio postSettings thumbnailStorageId originalFileStorageId (some .serverTimestamp))
  | comment (fromUserId : UserId) (onPostId : PostId) (comment repliedUserName : String)
      (repliedUserId : UserId) : CreatesRecord .comments
        (commentPayload fromUserId onPostId comment repliedUserName repliedUserId)
  | message (groupChatId : ChatGroupId) (sender receiver message type : String)
      (thumbnailUrl fileUrl thumbnailStorageId originalFileStorageId : Option (List String))
      (aspectRatio : Option (List ℚ)) (fileName : Option (List String)) :
      CreatesRecord (.chat groupChatId) (chatPayload sender receiver message type .serverTimestamp
        thumbnailUrl fileUrl thumbnailStorageId originalFileStorageId aspectRatio fileName)

/-- The fields that edits write to posts and comments, and uploads of pictures to profiles. -/
inductive EditsRecord : CollectionPath → Doc → Prop
  | message (message : String) : EditsRecord .posts [(PostKey.message, .string message)]
  | media (userId : UserId) (message : String) (fileType : FileType) (lists : MediaLists) :
      EditsRecord .posts (EditPostNotifier.editedFields userId message fileType lists)
  | comment (comment : String) (userId : UserId) (postId : PostId) (repliedUserId : UserId)
      (repliedUserName : String) : EditsRecord .comments (SendCommentNotifier.editedFields comment
        userId postId repliedUserId repliedUserName)
  | profile (fields : Doc) : EditsRecord .users fields

/-- The calls of the operations: they create records, edit them, or write no document. -/
def Call.WritesRecords : Call → Prop
  | .add path payload => CreatesRecord path payload
  | .update path _ fields => EditsRecord path fields
  | .delete _ _ => False
  | .commit writes => ∃ path id payload, writes = [.set path id payload] ∧
      CreatesRecord path payload
  | _ => True

section Writes

variable {path : CollectionPath} {id key : String}

@[simp] theorem docWrite_error {c : Call} {e : Exc} : docWrite path id ⟨c, .error e⟩ = none := by
  unfold docWrite
  split
  · rename_i heq
    cases heq
  · rename_i heq
    cases heq
  · rename_i heq
    cases heq
  · rfl

/-- Only updates merge fields. -/
theorem docWrite_eq_merge {c : Call} {r : Fallible Exc Ans c} {fields : Doc}
    (h : docWrite path id ⟨c, r⟩ = some (.merge fields)) : c = .update path id fields := by
  unfold docWrite at h
  split at h
  · split at h <;> cases h
  · rename_i heq
    split at h
    · rename_i hsame
      obtain ⟨rfl, rfl⟩ := hsame
      cases h
      cases heq
      rfl
    · cases h
  · split at h <;> cases h
  · cases h

/-- A creation is that of a payload. -/
theorem Call.WritesRecords.of_create {c : Call} {r : Fallible Exc Ans c} {d : Doc}
    (hc : c.WritesRecords) (h : docWrite path id ⟨c, r⟩ = some (.create d)) :
    ∃ payload t, CreatesRecord path payload ∧ d = payload.resolve t := by
  unfold docWrite at h
  split at h
  · rename_i heq
    split at h
    · rename_i hsame
      obtain ⟨rfl, rfl⟩ := hsame
      cases h
      cases heq
      exact ⟨_, _, hc, rfl⟩
    · cases h
  · split at h <;> cases h
  · rename_i heq
    split at h
    · rename_i hsame
      obtain ⟨rfl, rfl⟩ := hsame
      cases h
      cases heq
      obtain ⟨path', id', payload, hwrites, hpayload⟩ := hc
      cases hwrites
      exact ⟨_, _, hpayload, rfl⟩
    · cases h
  · cases h

/-- One call changes a document by the write that it makes. -/
theorem Call.WritesRecords.getElem? {c : Call} {r : Fallible Exc Ans c} {w w' : World}
    (hc : c.WritesRecords) (hstep : World.step w c r = some w') : (w'.firestore path)[id]? =
      (docWrite path id ⟨c, r⟩).elim ((w.firestore path)[id]?)
        fun write => write.apply ((w.firestore path)[id]?) := by
  have hset : ∀ (path' : CollectionPath) (id' : String) (d : Doc),
      ((w.setDoc path' id' d).firestore path)[id]? =
        if path' = path ∧ id' = id then some d else (w.firestore path)[id]? := by
    intro path' id' d
    rw [World.setDoc_firestore]
    by_cases hpath : path' = path
    · subst hpath
      rw [Function.update_self, Collection.getElem?_insert]
      simp
    · rw [Function.update_of_ne (Ne.symm hpath), if_neg fun h => hpath h.1]
  cases r with
  | error e =>
    rw [World.step_error hstep, docWrite_error]
    rfl
  | ok a =>
    cases c with
    | add path' payload =>
      simp only [World.step, World.perform] at hstep
      split at hstep <;> cases hstep
      rw [hset, docWrite]
      split <;> rfl
    | update path' id' fields =>
      simp only [World.step, World.perform] at hstep
      split at hstep <;> cases hstep
      rename_i d hd
      rw [hset, docWrite]
      split
      · rename_i h
        obtain ⟨rfl, rfl⟩ := h
        rw [hd]
        rfl
      · rfl
    | commit writes =>
      obtain ⟨path', id', payload, rfl, -⟩ := hc
      cases hstep
      rw [List.foldl_cons, List.foldl_nil, World.write, hset, docWrite]
      split <;> rfl
    | delete path' id' => exact hc.elim
    | _ =>
      simp only [World.step, World.perform] at hstep
      first
        | (cases hstep; rfl)
        | (split at hstep <;> cases hstep; rfl)

/-- A write gives a field its value, or leaves it as it was. -/
theorem DocWrite.field_of_apply {write : DocWrite} {before : Option Doc} {d : Doc}
    (h : write.apply before = some d) :
    d.field key = (write.value key).getD ((before.getD []).field key) := by
  cases write with
  | create d' =>
    obtain rfl := Option.some.inj h
    rfl
  | merge fields =>
    obtain ⟨d', hd', rfl⟩ := Option.map_eq_some_iff.mp h
    rw [hd']
    exact Doc.field_merge d' fields key

variable {start : Collection} {events : List AppEvent}

theorem writtenValue_snoc (e : AppEvent) : writtenValue start path id (events ++ [e]) key =
    ((docWrite path id e).bind (·.value key)).getD (writtenValue start path id events key) := by
  unfold writtenValue
  rw [getLast?_filterMap_snoc]
  cases (docWrite path id e).bind (·.value key) <;> rfl

/-- A field that no edit writes has the value of the creation. -/
theorem createdValue_eq
    (hkey : ∀ fields, EditsRecord path fields → fields.reverse.lookup key = none)
    (hevents : ∀ e ∈ events, e.call.WritesRecords) :
    createdValue start path id events key = writtenValue start path id events key := by
  unfold createdValue writtenValue
  congr 2
  refine List.filterMap_congr fun e he => ?_
  obtain ⟨c, r⟩ := e
  have hc := hevents _ he
  cases hwrite : docWrite path id ⟨c, r⟩ with
  | none => rfl
  | some write =>
    cases write with
    | create d => rfl
    | merge fields =>
      obtain rfl := docWrite_eq_merge hwrite
      exact (hkey fields hc).symm

/-- Every field of the stored documents has the value that was written to it last. -/
def FieldsWritten (start : CollectionPath → Collection) (events : List AppEvent)
    (firestore : CollectionPath → Collection) : Prop :=
  ∀ (path : CollectionPath) (id : String) (d : Doc), (firestore path)[id]? = some d →
    ∀ key, d.field key = writtenValue (start path) path id events key

theorem fieldsWritten_nil (start : CollectionPath → Collection) :
    FieldsWritten start [] start := by
  intro path id d hd key
  rw [writtenValue, hd]
  rfl

/-- One call keeps the fields at the values that were written last. -/
theorem FieldsWritten.step {start : CollectionPath → Collection} {c : Call}
    {r : Fallible Exc Ans c} {w w' : World} (h : FieldsWritten start events w.firestore)
    (hc : c.WritesRecords) (hstep : World.step w c r = some w') :
    FieldsWritten start (events ++ [⟨c, r⟩]) w'.firestore := by
  intro path id d hd key
  rw [hc.getElem? hstep] at hd
  rw [writtenValue_snoc]
  cases hwrite : docWrite path id ⟨c, r⟩ with
  | none =>
    rw [hwrite] at hd
    exact h path id d hd key
  | some write =>
    rw [hwrite, Option.elim_some] at hd
    rw [DocWrite.field_of_apply hd, Option.bind_some]
    cases hvalue : write.value key with
    | some v => rfl
    | none =>
      -- a write that leaves a field as it was is the edit of a stored document
      cases write with
      | create d' => cases hvalue
      | merge fields =>
        obtain ⟨d', hd', -⟩ := Option.map_eq_some_iff.mp hd
        rw [hd']
        exact h path id d' hd' key

end Writes

end TekkGram
