import TekkGram.Model.Working
import TekkGram.Posts.Operation
import TekkGram.Posts.SpecificPost
import TekkGram.Records.Written

/-!
# What is written can be read back

The payloads of posts, comments and messages and the edits of their fields are read by
constructors of their own. Each field of a record that was read is the value that was written to
it last, and what no edit touches is as it was created.
-/

namespace TekkGram

open Interaction Async

/-- The fields of a post are these values: `written` those that edits may change, `created` the
others. The creation time is missing as long as the server has not resolved it. -/
structure Post.StoredIn (id : PostId) (written created : String → Value) (resolved : Bool)
    (p : Post) : Prop where
  postId : p.postId = id
  userId : written PostKey.userId = .string p.userId
  message : written PostKey.message = .string p.message
  createdAt : ∃ t, created PostKey.createdAt = .scalar (.timestamp t) ∧
    p.createdAt = if resolved then some t else none
  thumbnailUrl : written PostKey.thumbnailUrl = .strings p.thumbnailUrl
  fileUrl : written PostKey.fileUrl = .strings p.fileUrl
  fileType : written PostKey.fileType = .string p.fileType.name
  fileName : written PostKey.fileName = .strings p.fileName
  aspectRatio : written PostKey.aspectRatio = .doubles p.aspectRatio
  thumbnailStorageId : written PostKey.thumbnailStorageId = .strings p.thumbnailStorageId
  originalFileStorageId : written PostKey.originalFileStorageId = .strings p.originalFileStorageId
  postSettings : created PostKey.postSettings = PostSettings.toMap p.postSettings

/-- The fields of a comment are these values. -/
structure Comment.StoredIn (id : CommentId) (written created : String → Value) (c : Comment) :
    Prop where
  id : c.id = id
  comment : written FirebaseFieldName.comment = .string c.comment
  createdAt : created FirebaseFieldName.createdAt = .scalar (.timestamp c.createdAt)
  fromUserId : written FirebaseFieldName.userId = .string c.fromUserId
  onPostId : written FirebaseFieldName.postId = .string c.onPostId
  repliedUserName : written FirebaseFieldName.repliedUser = .string c.repliedUserName
  repliedUserId : written FirebaseFieldName.repliedUserId = .string c.repliedUserId

/-- The fields of a message are these values. -/
structure ChatModel.StoredIn (written created : String → Value) (m : ChatModel) : Prop where
  sender : written FirebaseFieldName.sender = .string m.sender
  receiver : written FirebaseFieldName.receiver = .string m.receiver
  message : written FirebaseFieldName.message = .string m.message
  type : written FirebaseFieldName.type = .string m.type
  createdAt : created FirebaseFieldName.createdAt = .scalar (.timestamp m.createdAt)
  fileName : written PostKey.fileName = .strings m.fileName
  aspectRatio : written PostKey.aspectRatio = .doubles m.aspectRatio
  thumbnailStorageId : written PostKey.thumbnailStorageId = .strings m.thumbnailStorageId
  originalFileStorageId : written PostKey.originalFileStorageId = .strings m.originalFileStorageId
  thumbnailUrl : written PostKey.thumbnailUrl = .strings m.thumbnailUrl
  fileUrl : written PostKey.fileUrl = .strings m.fileUrl

/-- The document holds a record of its collection. -/
def StoresRecord (path : CollectionPath) (id : String) (d : Doc) : Prop :=
  match path with
  | .posts => ∃ p : Post, p.StoredIn id d.field d.field true
  | .comments => ∃ c : Comment, c.StoredIn id d.field d.field
  | .chat _ => ∃ m : ChatModel, m.StoredIn d.field d.field
  | .users | .likes => True

section Records

variable {path : CollectionPath} {id : String}

/-- A payload that is committed is a record. -/
theorem CreatesRecord.storesRecord {payload : Doc} (h : CreatesRecord path payload)
    (t : Timestamp) : StoresRecord path id (payload.resolve t) := by
  cases h with
  | post userId message thumbnailUrl fileUrl fileType fileName aspectRatio postSettings
      thumbnailStorageId originalFileStorageId =>
    exact ⟨⟨id, userId, message, some t, thumbnailUrl, fileUrl, fileType, fileName, aspectRatio,
      thumbnailStorageId, originalFileStorageId, postSettings⟩, rfl, rfl, rfl, ⟨t, rfl, rfl⟩, rfl,
      rfl, rfl, rfl, rfl, rfl, rfl, rfl⟩
  | comment fromUserId onPostId comment repliedUserName repliedUserId =>
    exact ⟨⟨id, comment, t, fromUserId, onPostId, repliedUserName, repliedUserId⟩, rfl, rfl, rfl,
      rfl, rfl, rfl, rfl⟩
  | message groupChatId sender receiver message type thumbnailUrl fileUrl thumbnailStorageId
      originalFileStorageId aspectRatio fileName =>
    exact ⟨⟨sender, receiver, message, type, t, fileName.getD [], aspectRatio.getD [],
      thumbnailStorageId.getD [], originalFileStorageId.getD [], thumbnailUrl.getD [],
      fileUrl.getD []⟩, rfl, rfl, rfl, rfl, rfl, rfl, rfl, rfl, rfl, rfl, rfl⟩

/-- An edited record is a record. -/
theorem EditsRecord.storesRecord {fields d : Doc} (h : EditsRecord path fields)
    (hd : StoresRecord path id d) : StoresRecord path id (d.merge fields) := by
  cases h with
  | message message =>
    obtain ⟨p, hp⟩ := hd
    refine ⟨{ p with message := message }, ?_⟩
    constructor <;>
      simp +decide only [Doc.field_merge_cons, Doc.field_merge_nil, Doc.field_set, ite_true,
        ite_false, hp.postId, hp.userId, hp.thumbnailUrl, hp.fileUrl, hp.fileType,
        hp.fileName, hp.aspectRatio, hp.thumbnailStorageId, hp.originalFileStorageId,
        hp.postSettings]
    exact hp.createdAt
  | media userId message fileType lists =>
    obtain ⟨p, hp⟩ := hd
    refine ⟨p.withMedia userId message fileType lists, ?_⟩
    constructor <;>
      simp +decide only [EditPostNotifier.editedFields, Post.withMedia, Doc.field_merge_cons,
        Doc.field_merge_nil, Doc.field_set, ite_true, ite_false, hp.postId, hp.postSettings]
    exact hp.createdAt
  | comment comment userId postId repliedUserId repliedUserName =>
    obtain ⟨c, hc⟩ := hd
    refine ⟨⟨c.id, comment, c.createdAt, userId, postId, repliedUserName, repliedUserId⟩, ?_⟩
    constructor <;>
      simp +decide only [SendCommentNotifier.editedFields, Doc.field_merge_cons,
        Doc.field_merge_nil, Doc.field_set, ite_true, ite_false, hc.id, hc.createdAt]
  | profile fields => trivial

/-- A stored post is decoded, also while its server timestamp is pending. -/
theorem Post.StoredIn.ofJson {d : Doc} {p : Post} (h : p.StoredIn id d.field d.field true)
    (resolved : Bool) : ∃ p', Post.ofJson id (if resolved then d else d.unresolved) = some p' ∧
      p'.StoredIn id d.field d.field resolved := by
  obtain ⟨t, ht, hcreated⟩ := h.createdAt
  refine ⟨{ p with createdAt := if resolved then some t else none }, ?_, ?_⟩
  · rw [Post.ofJson_eq_some_iff]
    cases resolved with
    | true =>
      constructor <;> simp only [ite_true, h.postId, h.userId, h.message, ht,
        h.thumbnailUrl, h.fileUrl, h.fileType, h.fileName, h.aspectRatio, h.thumbnailStorageId,
        h.originalFileStorageId, h.postSettings, Value.asString_string, Value.asListOf_strings,
        Value.asListOf_doubles, FileType.ofStored_name, PostSettings.ofMap_toMap]
      rfl
    | false =>
      constructor <;> simp only [Bool.false_eq_true, ite_false, Doc.field_unresolved, h.postId,
        h.userId, h.message, ht, h.thumbnailUrl, h.fileUrl, h.fileType, h.fileName, h.aspectRatio,
        h.thumbnailStorageId, h.originalFileStorageId, h.postSettings, Value.unresolved_string,
        Value.unresolved_strings, Value.unresolved_doubles, PostSettings.unresolved_toMap,
        Value.asString_string, Value.asListOf_strings, Value.asListOf_doubles,
        FileType.ofStored_name, PostSettings.ofMap_toMap]
      rfl
  · exact { h with createdAt := ⟨t, ht, rfl⟩ }

/-- A stored comment is decoded. -/
theorem Comment.StoredIn.ofJson {d : Doc} {c : Comment} (h : c.StoredIn id d.field d.field) :
    Comment.ofJson d id = some c := by
  have horElse : ∀ s, (Value.string s).orElse Value.asString "" = some s := fun _ => rfl
  have htime : ∀ t, (Value.scalar (.timestamp t)).asTimestamp = some t := fun _ => rfl
  simp only [Comment.ofJson, h.comment, h.createdAt, h.fromUserId, h.repliedUserName,
    h.repliedUserId, h.onPostId, horElse, htime, Value.asString_string, Option.bind_eq_bind,
    Option.bind_some, Option.pure_def, ← h.id]

/-- A stored message is decoded. -/
theorem ChatModel.StoredIn.ofJson {d : Doc} {m : ChatModel} (h : m.StoredIn d.field d.field) :
    ChatModel.ofJson d = some m := by
  have hstrings : ∀ xs, (Value.strings xs).orElse (Value.asListOf Scalar.asString) [] = some xs :=
    fun xs => Value.asListOf_strings xs
  have hdoubles : ∀ xs, (Value.doubles xs).orElse (Value.asListOf Scalar.asDouble) [] = some xs :=
    fun xs => Value.asListOf_doubles xs
  have htime : ∀ t, (Value.scalar (.timestamp t)).asTimestamp = some t := fun _ => rfl
  simp only [ChatModel.ofJson, h.sender, h.receiver, h.message, h.type, h.createdAt, h.fileName,
    h.aspectRatio, h.thumbnailStorageId, h.originalFileStorageId, h.thumbnailUrl, h.fileUrl,
    hstrings, hdoubles, htime, Value.asString_string, Option.bind_eq_bind, Option.bind_some,
    Option.pure_def]

end Records

/-- Every document is a record of its collection. -/
def EveryRecordStored (firestore : CollectionPath → Collection) : Prop :=
  ∀ (path : CollectionPath) (id : String) (d : Doc), (firestore path)[id]? = some d →
    StoresRecord path id d

/-- One call of the operations keeps every document a record. -/
theorem EveryRecordStored.step {c : Call} {r : Fallible Exc Ans c} {w w' : World}
    (h : EveryRecordStored w.firestore) (hc : c.WritesRecords)
    (hstep : World.step w c r = some w') : EveryRecordStored w'.firestore := by
  intro path id d hd
  rw [hc.getElem? hstep] at hd
  cases hwrite : docWrite path id ⟨c, r⟩ with
  | none =>
    rw [hwrite] at hd
    exact h path id d hd
  | some write =>
    rw [hwrite, Option.elim_some] at hd
    cases write with
    | create d' =>
      obtain rfl := Option.some.inj hd
      obtain ⟨payload, t, hpayload, rfl⟩ := hc.of_create hwrite
      exact hpayload.storesRecord t
    | merge fields =>
      obtain ⟨d', hd', rfl⟩ := Option.map_eq_some_iff.mp hd
      obtain rfl := docWrite_eq_merge hwrite
      exact EditsRecord.storesRecord hc (h path id d' hd')

/-- The operations that write records, with their arguments. -/
inductive RecordOperation where
  | upload (file : File) (fileType : FileType) (message : Option String)
      (postSettings : Option (List (PostSettings × Bool))) (userId : UserId)
      (userData : Option UserInfoModel)
  | uploadMultipleImageFiles (files : List File) (message : Option String)
      (postSettings : Option (List (PostSettings × Bool))) (fileType : FileType)
      (userId : UserId)
  | editPost (postId : PostId) (message : String)
  | editImagePost (userId : UserId) (postId : PostId) (message : String) (files : List File)
      (fileType : FileType)
  | sendComment (fromUserId : UserId) (onPostId : PostId) (comment repliedUserName : String)
      (repliedUserId : UserId)
  | updateComment (commentId : CommentId) (comment : String) (userId : UserId) (postId : PostId)
      (repliedUserId : UserId) (repliedUserName : String)
  | sendMessage (groupChatId : ChatGroupId) (currentUserId receiverId message : String)
      (files : List File)
  deriving DecidableEq, Repr

/-- The body of an operation. -/
def RecordOperation.body : RecordOperation → Action Unit Bool
  | .upload file fileType message postSettings userId userData =>
    ImageUploadNotifier.upload file fileType message postSettings userId userData
  | .uploadMultipleImageFiles files message postSettings fileType userId =>
    ImageUploadNotifier.uploadMultipleImageFiles files message postSettings fileType userId
  | .editPost postId message => EditPostNotifier.editPost postId message
  | .editImagePost userId postId message files fileType =>
    EditPostNotifier.editImagePost userId postId message files fileType
  | .sendComment fromUserId onPostId comment repliedUserName repliedUserId =>
    SendCommentNotifier.sendComment fromUserId onPostId comment repliedUserName repliedUserId
  | .updateComment commentId comment userId postId repliedUserId repliedUserName =>
    SendCommentNotifier.updateComment commentId comment userId postId repliedUserId repliedUserName
  | .sendMessage groupChatId currentUserId receiverId message files =>
    ChatMessageNotifier.sendMessage groupChatId currentUserId receiverId message files

section Calls

theorem Call.Media.writesRecords {c : Call} (h : c.Media) : c.WritesRecords := by
  cases c <;> first | trivial | simp at h

/-- The frame of an operation writes no document. -/
theorem calls_frame {σ : Type} {m : Action σ Bool} {n : Notifier}
    (hm : m.Calls Call.WritesRecords) :
    (tryFinally (tryCatch m fun _ => pure false) (await (.setLoading n false))).Calls
      Call.WritesRecords :=
  calls_tryFinally (calls_tryCatch hm fun _ => calls_pure) (calls_call trivial)

theorem calls_first {σ α : Type} {items : List α} {C : Call → Prop} :
    (first items : Action σ α).Calls C := by
  cases items with
  | nil => exact calls_throw
  | cons a items => exact calls_pure

theorem calls_nullCheck {σ α : Type} {value : Option α} {C : Call → Prop} :
    (nullCheck value : Action σ α).Calls C := by
  cases value with
  | none => exact calls_throw
  | some a => exact calls_pure

theorem ImageUploadNotifier.storeAndPost_writesRecords (file : File) (fileType : FileType)
    (message : Option String) (postSettings : Option (List (PostSettings × Bool)))
    (userId : UserId) (userData : Option UserInfoModel) (thumbnail : Uint8List) (ratio : ℚ)
    (fileName : String) :
    (storeAndPost file fileType message postSettings userId userData thumbnail ratio
      fileName).Calls Call.WritesRecords := by
  unfold storeAndPost
  refine calls_bind (calls_call trivial) fun _ => calls_bind (calls_call trivial) fun _ => ?_
  by_cases hfileType : fileType = .userImage
  · rw [if_pos hfileType]
    refine calls_bind (calls_call trivial) fun docs => calls_bind calls_first fun userInfo => ?_
    exact calls_bind (calls_call trivial) fun url =>
      calls_bind (calls_call (.profile _)) fun _ => calls_pure
  · rw [if_neg hfileType]
    refine calls_bind (calls_call trivial) fun thumbnailUrl => ?_
    refine calls_bind (calls_call trivial) fun fileUrl => calls_bind calls_nullCheck fun _ => ?_
    exact calls_bind (calls_call (.post ..)) fun _ => calls_pure

/-- Every call of an operation creates or edits a record, or writes no document. -/
theorem RecordOperation.calls (op : RecordOperation) : op.body.Calls Call.WritesRecords := by
  cases op with
  | upload file fileType message postSettings userId userData =>
    refine calls_bind (calls_call trivial) fun _ => ?_
    refine calls_bind ((ImageUploadNotifier.thumbnailOf_calls _ _).mono fun _ h =>
      h.media.writesRecords) fun thumbnail => ?_
    cases thumbnail with
    | none => exact calls_pure
    | some bytes =>
      refine calls_bind (calls_call trivial) fun ratio => calls_bind (calls_call trivial) ?_
      exact fun fileName => calls_frame
        (ImageUploadNotifier.storeAndPost_writesRecords _ _ _ _ _ _ _ _ _)
  | uploadMultipleImageFiles files message postSettings fileType userId =>
    refine calls_withLocals (calls_bind (calls_call trivial) fun _ => calls_frame ?_)
    refine calls_bind (calls_forEach fun file _ =>
      (ImageUploadNotifier.uploadImageFile_calls _ _ _).mono fun _ h => h.writesRecords) fun _ => ?_
    refine calls_bind calls_get fun lists => calls_bind calls_nullCheck fun settings => ?_
    exact calls_bind (calls_call (.post ..)) fun _ => calls_pure
  | editPost postId message =>
    refine calls_frame (calls_bind (calls_call trivial) fun _ => ?_)
    refine calls_bind (calls_call trivial) fun docs => ?_
    dsimp only
    split
    · exact calls_pure
    · exact calls_bind (calls_call (.message _)) fun _ => calls_pure
  | editImagePost userId postId message files fileType =>
    refine calls_withLocals (calls_bind (calls_call trivial) fun _ => calls_frame ?_)
    refine calls_bind (calls_call trivial) fun docs => ?_
    dsimp only
    split
    · exact calls_pure
    · refine calls_bind (calls_forEach fun file _ =>
        (EditPostNotifier.editImageFile_calls _ _ _).mono fun _ h => h.writesRecords) fun _ => ?_
      refine calls_bind calls_get fun lists => calls_bind calls_first fun data => ?_
      exact calls_bind (calls_call (.media ..)) fun _ => calls_pure
  | sendComment fromUserId onPostId comment repliedUserName repliedUserId =>
    refine calls_bind (calls_call trivial) fun _ => calls_frame ?_
    exact calls_bind (calls_call (.comment ..)) fun _ => calls_pure
  | updateComment commentId comment userId postId repliedUserId repliedUserName =>
    refine calls_bind (calls_call trivial) fun _ => calls_frame ?_
    refine calls_bind (calls_call trivial) fun docs => ?_
    dsimp only
    split
    · exact calls_pure
    · exact calls_bind (calls_call (.comment ..)) fun _ => calls_pure
  | sendMessage groupChatId currentUserId receiverId message files =>
    have hset : ∀ (id : String) (payload : Doc), CreatesRecord (.chat groupChatId) payload →
        (ChatMessageNotifier.setMessage groupChatId id payload :
          Action MediaLists Unit).Calls Call.WritesRecords := fun id payload hpayload =>
      calls_bind (calls_call ⟨_, id, payload, rfl, hpayload⟩) fun _ => calls_pure
    refine calls_withLocals (calls_bind (calls_call trivial) fun _ => calls_frame ?_)
    refine calls_bind (calls_call trivial) fun now => ?_
    split
    · exact calls_bind (hset _ _ (.message ..)) fun _ => calls_pure
    · refine calls_bind (calls_forEach fun file _ =>
        (ChatMessageNotifier.sendImageFile_calls _ _).mono fun _ h => h.writesRecords) fun _ => ?_
      refine calls_bind calls_get fun lists => ?_
      exact calls_bind (hset _ _ (.message ..)) fun _ => calls_pure

end Calls

/-- A document of a snapshot: as it is stored, or pending without its server timestamp. -/
structure QueryDocumentSnapshot.Shows (doc : QueryDocumentSnapshot) (resolved : Bool)
    (docs : Collection) : Prop where
  data : ∃ d : Doc, docs[doc.id]? = some d ∧ doc.data = if resolved then d else d.unresolved
  committed : doc.hasPendingWrites = false → resolved = true

/-- The events of an interleaving, as the operations see them. -/
def localEvents (moves : List (Move (AtPlace Nat (Fallible Exc Ans)))) : List AppEvent :=
  moves.map fun m => m.event.local

/-- Every document that a provider decodes is decoded, and its fields are the values that these
events have written last, or those at the start. -/
structure AllReadBack (start firestore : CollectionPath → Collection) (events : List AppEvent) :
    Prop where
  posts : ∀ (doc : QueryDocumentSnapshot) (resolved : Bool),
    doc.Shows resolved (firestore .posts) → ∃ p, Post.ofJson doc.id doc.data = some p ∧
      p.StoredIn doc.id (writtenValue (start .posts) .posts doc.id events)
        (createdValue (start .posts) .posts doc.id events) resolved
  comments : ∀ (doc : QueryDocumentSnapshot) (resolved : Bool),
    doc.Shows resolved (firestore .comments) → doc.hasPendingWrites = false →
      ∃ c, Comment.ofJson doc.data doc.id = some c ∧
        c.StoredIn doc.id (writtenValue (start .comments) .comments doc.id events)
        (createdValue (start .comments) .comments doc.id events)
  messages : ∀ (groupChatId : ChatGroupId) (doc : QueryDocumentSnapshot) (resolved : Bool),
    doc.Shows resolved (firestore (.chat groupChatId)) → doc.hasPendingWrites = false →
      ∃ m, ChatModel.ofJson doc.data = some m ∧
        m.StoredIn (writtenValue (start (.chat groupChatId)) (.chat groupChatId) doc.id events)
          (createdValue (start (.chat groupChatId)) (.chat groupChatId) doc.id events)

/-- Stored records whose fields are the values written last are read back. -/
theorem allReadBack {start firestore : CollectionPath → Collection} {events : List AppEvent}
    (hrecords : EveryRecordStored firestore) (hfields : FieldsWritten start events firestore)
    (hcalls : ∀ e ∈ events, e.call.WritesRecords) : AllReadBack start firestore events := by
  have hwritten : ∀ {path : CollectionPath} {id : String} {d : Doc},
      (firestore path)[id]? = some d → d.field = writtenValue (start path) path id events :=
    fun hd => funext (hfields _ _ _ hd)
  have hcreated : ∀ {path : CollectionPath} {id : String} {d : Doc} {key : String},
      (firestore path)[id]? = some d →
      (∀ fields, EditsRecord path fields → fields.reverse.lookup key = none) →
        createdValue (start path) path id events key = d.field key := fun hd hkey =>
    (createdValue_eq hkey hcalls).trans (congrFun (hwritten hd) _).symm
  refine ⟨?_, ?_, ?_⟩
  · rintro ⟨id, data, pending⟩ resolved ⟨⟨d, hd, hdata⟩, -⟩
    obtain rfl : data = if resolved then d else d.unresolved := hdata
    obtain ⟨p, hp⟩ := hrecords _ _ _ hd
    obtain ⟨p', hdecode, hstored⟩ := hp.ofJson resolved
    have hcreatedAt : createdValue (start .posts) .posts id events PostKey.createdAt =
        d.field PostKey.createdAt := hcreated hd fun fields h => by cases h <;> rfl
    have hsettings : createdValue (start .posts) .posts id events PostKey.postSettings =
        d.field PostKey.postSettings := hcreated hd fun fields h => by cases h <;> rfl
    rw [hwritten hd] at hstored
    refine ⟨p', hdecode, { hstored with createdAt := ?_, postSettings := ?_ }⟩
    · obtain ⟨t, ht, hresolved⟩ := hstored.createdAt
      exact ⟨t, hcreatedAt.trans ((congrFun (hwritten hd) _).trans ht), hresolved⟩
    · exact hsettings.trans ((congrFun (hwritten hd) _).trans hstored.postSettings)
  · rintro ⟨id, data, pending⟩ resolved ⟨⟨d, hd, hdata⟩, hcommitted⟩ hpending
    obtain rfl := hcommitted hpending
    obtain rfl : data = d := hdata
    obtain ⟨c, hc⟩ := hrecords _ _ _ hd
    have hcreatedAt : createdValue (start .comments) .comments id events
        FirebaseFieldName.createdAt = data.field FirebaseFieldName.createdAt :=
      hcreated hd fun fields h => by cases h; rfl
    refine ⟨c, hc.ofJson, ?_⟩
    rw [hwritten hd] at hc
    exact { hc with createdAt := hcreatedAt.trans ((congrFun (hwritten hd) _).trans hc.createdAt) }
  · rintro groupChatId ⟨id, data, pending⟩ resolved ⟨⟨d, hd, hdata⟩, hcommitted⟩ hpending
    obtain rfl := hcommitted hpending
    obtain rfl : data = d := hdata
    obtain ⟨m, hm⟩ := hrecords _ _ _ hd
    have hcreatedAt : createdValue (start (.chat groupChatId)) (.chat groupChatId) id events
        FirebaseFieldName.createdAt = data.field FirebaseFieldName.createdAt :=
      hcreated hd fun fields h => by cases h
    refine ⟨m, hm.ofJson, ?_⟩
    rw [hwritten hd] at hm
    exact { hm with createdAt := hcreatedAt.trans ((congrFun (hwritten hd) _).trans hm.createdAt) }

/-- Operations on several devices, interleaved in any order: every post, comment and message that a
provider decodes from a snapshot is read with the values written last, and with what its creation
wrote where no edit writes. -/
theorem allReadBack_of_steps (runs : List (Nat × RecordOperation)) {n : Network}
    (hn : EveryRecordStored n.firestore)
    {moves : List (Move (AtPlace Nat (Fallible Exc Ans)))}
    {P : Pool Network (AtPlace Nat (Fallible Exc Ans)) (Except Exc Bool × Unit)}
    (h : Pool.Steps Network.step (fun _ _ _ => True)
      (.placed n (runs.map fun run => (run.1, run.2.body ()))) moves P) :
    AllReadBack n.firestore P.state.firestore (localEvents moves) := by
  have hinv : EveryRecordStored P.state.firestore ∧
      FieldsWritten n.firestore (localEvents moves) P.state.firestore ∧
      ∀ e ∈ localEvents moves, e.call.WritesRecords := by
    refine h.frame (fun c => c.2.WritesRecords) (fun moves n' => EveryRecordStored n'.firestore ∧
      FieldsWritten n.firestore (localEvents moves) n'.firestore ∧
      ∀ e ∈ localEvents moves, e.call.WritesRecords) ?_ ?_ ?_
    · intro p hp
      obtain ⟨q, hq, rfl⟩ := List.mem_map.mp hp
      obtain ⟨run, -, rfl⟩ := List.mem_map.mp hq
      exact (run.2.calls ()).placed run.1
    · exact ⟨hn, fieldsWritten_nil _, List.forall_mem_nil _⟩
    · rintro moves n₁ ⟨i, ⟨⟨device, c⟩, r⟩⟩ n₂ hc hstep ⟨hrecords, hfields, hcalls⟩
      obtain ⟨w, hw, hn₂⟩ := Network.step_eq_some hstep
      have hevents : localEvents (moves ++ [⟨i, ⟨(device, c), r⟩⟩]) =
          localEvents moves ++ [⟨c, r⟩] := List.map_append
      rw [hevents, hn₂]
      have hview : EveryRecordStored (n₁.view device).firestore := hrecords
      refine ⟨hview.step hc hw, ?_, List.forall_mem_append.mpr
        ⟨hcalls, List.forall_mem_singleton.mpr hc⟩⟩
      have hfieldsView : FieldsWritten n.firestore (localEvents moves)
          (n₁.view device).firestore := hfields
      exact hfieldsView.step hc hw
  exact allReadBack hinv.1 hinv.2.1 hinv.2.2

/-- A picture is posted on one device, and its message is edited on another. -/
def postedAndEdited : List (Nat × RecordOperation) :=
  [(0, .upload ⟨"f"⟩ .image (some "m") (some [(.allowLikes, true)]) "u" none),
   (1, .editPost "11" "n")]

/-- The post is read with the edited message, also while the edit is pending. -/
theorem allReadBack_of_steps_edited : ∃ moves P,
    Pool.Steps Network.step (fun _ _ _ => True) (.placed (.ofWorld .initial)
      (postedAndEdited.map fun run => (run.1, run.2.body ()))) moves P ∧
    ∃ d : Doc, (P.state.firestore .posts)["11"]? = some d ∧
      (∃ p, Post.ofJson "11" d = some p ∧ p.message = "n") ∧
      ∃ p, Post.ofJson "11" d.unresolved = some p ∧ p.message = "n" := by
  have hexec : (Pool.exec Network.step Network.working (fun _ _ => true)
      (List.replicate 13 0 ++ List.replicate 4 1) [] (.placed (.ofWorld .initial)
        (postedAndEdited.map fun run => (run.1, run.2.body ())))).any (fun r =>
          (r.2.state.firestore .posts)["11"]?.isSome &&
            writtenValue ((Network.ofWorld .initial).firestore .posts) .posts "11"
              (localEvents r.1) PostKey.message = .string "n") = true := by decide +kernel
  obtain ⟨moves, P, hsteps, htest⟩ := Pool.exec_any (fun _ _ _ _ => trivial) hexec
  obtain ⟨hstored, hmessage⟩ := (Bool.and_eq_true _ _).mp htest
  obtain ⟨d, hd⟩ := Option.isSome_iff_exists.mp hstored
  have hread := allReadBack_of_steps postedAndEdited (n := .ofWorld .initial)
    (fun path id d hd => by simp [Network.ofWorld, World.initial] at hd) hsteps
  have hedited : ∀ (doc : QueryDocumentSnapshot) (resolved : Bool), doc.id = "11" →
      doc.Shows resolved (P.state.firestore .posts) →
        ∃ p, Post.ofJson doc.id doc.data = some p ∧ p.message = "n" := by
    rintro ⟨id, data, pending⟩ resolved rfl hshows
    obtain ⟨p, hdecode, hp⟩ := hread.posts _ _ hshows
    exact ⟨p, hdecode, Value.string_inj.mp (hp.message.symm.trans (of_decide_eq_true hmessage))⟩
  exact ⟨moves, P, hsteps, d, hd,
    hedited ⟨"11", d, false⟩ true rfl ⟨⟨d, hd, rfl⟩, fun _ => rfl⟩,
    hedited ⟨"11", d.unresolved, true⟩ false rfl ⟨⟨d, hd, rfl⟩, fun h => by cases h⟩⟩

end TekkGram
