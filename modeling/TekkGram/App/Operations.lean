import TekkGram.Interaction.History
import TekkGram.Likes.LikeDislike
import TekkGram.Loading.FlagOff
import TekkGram.Records.ReadBack

/-!
# The operations of the app

Every operation that a screen can start, and the writes that it makes: which documents it adds,
updates, deletes or sets in a transaction. The operations that delete documents, or edit the media
of a post, ask for a document by its id and write to what they are answered.
-/

namespace TekkGram

open Interaction Async

/-- Every operation of the app. -/
inductive AppOperation where
  | operation (op : Operation)
  | likeDislike (request : LikeDislikeRequest)

/-- The program of an operation, whose value is not looked at. -/
def AppOperation.program : AppOperation → Program (Fallible Exc Ans) (Except Exc Unit × Unit)
  | operation op => op.program
  | likeDislike request => ignoreValue (likeDislikePost request) ()

/-- The documents that an operation adds under new ids. -/
inductive AppOperation.Adds : AppOperation → CollectionPath → Doc → Prop
  | upload {file : File} {fileType : FileType} {message : Option String}
      {postSettings : Option (List (PostSettings × Bool))} {userId : UserId}
      {userData : Option UserInfoModel} (settings : List (PostSettings × Bool))
      (lists : MediaLists) :
      Adds (operation (.post (.upload file fileType message postSettings userId userData))) .posts
        (ImageUploadNotifier.multiplePayload userId message fileType settings lists)
  | album {files : List File} {message : Option String}
      {postSettings : Option (List (PostSettings × Bool))} {fileType : FileType} {userId : UserId}
      (settings : List (PostSettings × Bool)) (lists : MediaLists) :
      Adds (operation (.post (.uploadMultipleImageFiles files message postSettings fileType
        userId))) .posts
        (ImageUploadNotifier.multiplePayload userId message fileType settings lists)
  | comment {fromUserId : UserId} {onPostId : PostId} {comment repliedUserName : String}
      {repliedUserId : UserId} :
      Adds (operation (.sendComment fromUserId onPostId comment repliedUserName repliedUserId))
        .comments (commentPayload fromUserId onPostId comment repliedUserName repliedUserId)
  | like {request : LikeDislikeRequest} (date : DateTime) :
      Adds (likeDislike request) .likes (TekkGram.like request.postId request.likedBy date)
  | profile {op : AuthOperation} (userId : UserId)
      (displayName email phone imageUrl : Option String) :
      Adds (operation (.auth op)) .users (userInfoPayload userId displayName email phone imageUrl)

/-- The fields that an operation merges into a document. -/
inductive AppOperation.Updates : AppOperation → CollectionPath → String → Doc → Prop
  | message {postId : PostId} {message : String} :
      Updates (operation (.post (.editPost postId message))) .posts postId
        [(PostKey.message, .string message)]
  | media {userId : UserId} {postId : PostId} {message : String} {files : List File}
      {fileType : FileType} (lists : MediaLists) :
      Updates (operation (.post (.editImagePost userId postId message files fileType))) .posts
        postId (EditPostNotifier.editedFields userId message fileType lists)
  | comment {commentId : CommentId} {comment : String} {userId : UserId} {postId : PostId}
      {repliedUserId : UserId} {repliedUserName : String} :
      Updates (operation (.updateComment commentId comment userId postId repliedUserId
        repliedUserName)) .comments commentId
        (SendCommentNotifier.editedFields comment userId postId repliedUserId repliedUserName)
  | userInfo {op : AuthOperation} (id displayName : String) (email phone imageUrl : Option String) :
      Updates (operation (.auth op)) .users id
        (UserInfoStorage.updatedFields displayName email phone imageUrl)
  | picture {file : File} {fileType : FileType} {message : Option String}
      {postSettings : Option (List (PostSettings × Bool))} {userId : UserId}
      {userData : Option UserInfoModel} (id imageUrl : String) :
      Updates (operation (.post (.upload file fileType message postSettings userId userData)))
        .users id (ImageUploadNotifier.profileFields userData imageUrl)

/-- The documents that an operation deletes one by one, among those of the store. -/
inductive AppOperation.Deletes (stored : CollectionPath → String → Doc → Prop) :
    AppOperation → CollectionPath → String → Prop
  | post {post : Post} : Deletes stored (operation (.post (.deletePost post))) .posts post.postId
  | comment {commentId : CommentId} :
      Deletes stored (operation (.deleteComment commentId)) .comments commentId
  | like {request : LikeDislikeRequest} {id : String} {d : Doc} (hstored : stored .likes id d)
      (hpost : d.field FirebaseFieldName.postId = .string request.postId)
      (huser : d.field FirebaseFieldName.userId = .string request.likedBy) :
      Deletes stored (likeDislike request) .likes id

/-- The transactions of an operation. -/
inductive AppOperation.Commits (stored : CollectionPath → String → Doc → Prop) :
    AppOperation → List Write → Prop
  | reactions {post : Post} {path : CollectionPath} (hpath : path = .comments ∨ path = .likes)
      {docs : List DocSnapshot} (hstored : ∀ doc ∈ docs, stored path doc.id doc.data ∧
        doc.data.field FirebaseFieldName.postId = .string post.postId) :
      Commits stored (operation (.post (.deletePost post)))
        (docs.map fun doc => .delete path doc.id)
  | message {groupChatId currentUserId receiverId message : String} {files : List File}
      (id : String) (lists : MediaLists) :
      Commits stored
        (operation (.sendMessage groupChatId currentUserId receiverId message files))
        [.set (.chat groupChatId) id
          (ChatMessageNotifier.messagePayload currentUserId receiverId message files lists)]

/-- The user in whose folders an operation stores and deletes media. -/
def AppOperation.mediaOf : AppOperation → Option UserId
  | operation (.post (.upload _ _ _ _ userId _)) => some userId
  | operation (.post (.uploadMultipleImageFiles _ _ _ _ userId)) => some userId
  | operation (.post (.editImagePost userId _ _ _ _)) => some userId
  | operation (.post (.deletePost post)) => some post.userId
  | operation (.sendMessage _ currentUserId _ _ _) => some currentUserId
  | _ => none

/-- The calls that an operation may make. -/
def AppOperation.MayCall (stored : CollectionPath → String → Doc → Prop) (op : AppOperation) :
    Call → Prop
  | .add path payload => op.Adds path payload
  | .update path id fields => op.Updates path id fields
  | .delete path id => op.Deletes stored path id
  | .commit writes => op.Commits stored writes
  | .putData ref _ => op.mediaOf = some ref.userId
  | .putFile ref _ => op.mediaOf = some ref.userId
  | .deleteObject ref => op.mediaOf = some ref.userId
  | _ => True

/-- A call stores objects in the folders of a user only. -/
def Call.InFoldersOf (userId : UserId) : Call → Prop
  | .putData ref _ => ref.userId = userId
  | .putFile ref _ => ref.userId = userId
  | _ => True

/-- A query is answered with documents of the store that it selects. -/
def Answered (stored : CollectionPath → String → Doc → Prop) (e : AppEvent) : Prop :=
  ∀ q docs, e = ⟨.get q, .ok docs⟩ → ∀ doc ∈ docs,
    stored q.collection doc.id doc.data ∧ q.selects doc.id doc.data = true

/-- The world answers queries from its documents. -/
theorem World.answered {w w' : World} {c : Call} {r : Fallible Exc Ans c}
    {stored : CollectionPath → String → Doc → Prop}
    (hstored : ∀ (path : CollectionPath) (id : String) (d : Doc),
      (w.firestore path)[id]? = some d → stored path id d)
    (h : World.step w c r = some w') : Answered stored ⟨c, r⟩ := by
  rintro q docs ⟨⟩ doc hdoc
  simp only [World.step, World.perform] at h
  split at h
  · rename_i hdocs
    subst hdocs
    obtain ⟨hmem, hselects⟩ := Query.mem_eval hdoc
    exact ⟨hstored _ _ _ hmem, hselects⟩
  · cases h

/-- A query by id selects the id. -/
theorem Query.selects_byId {path : CollectionPath} {id id' : String} {d : Doc} :
    (Query.byId path id).selects id' d = true ↔ id' = id := by
  simp [Query.byId, Query.selects]

/-- Where a call stores an object. -/
def Call.storesAt : Call → Option Reference
  | .putData ref _ => some ref
  | .putFile ref _ => some ref
  | _ => none

section Media

variable {w w' : World} {c : Call} {r : Fallible Exc Ans c}

theorem World.foldl_write_media (writes : List Write) (t : Timestamp) (w : World) :
    (writes.foldl (fun w => w.write t) w).storage = w.storage ∧
      (writes.foldl (fun w => w.write t) w).uuids = w.uuids := by
  induction writes generalizing w with
  | nil => exact ⟨rfl, rfl⟩
  | cons write writes ih =>
    rw [List.foldl_cons, (ih _).1, (ih _).2]
    cases write <;> exact ⟨rfl, rfl⟩

/-- A call keeps the objects that it neither stores nor deletes, and all names. -/
theorem World.step_media (h : World.step w c r = some w') :
    (∀ ref, c.storesAt ≠ some ref → c ≠ .deleteObject ref → w'.storage ref = w.storage ref) ∧
      w.uuids ⊆ w'.uuids := by
  cases r with
  | error e =>
    rw [World.step_error h]
    exact ⟨fun _ _ _ => rfl, List.Subset.refl _⟩
  | ok a =>
    rw [World.step_ok] at h
    cases c with
    | putData ref' bytes | putFile ref' file =>
      simp only [World.perform] at h
      split at h <;> cases h
      refine ⟨fun ref hstores _ => Function.update_of_ne ?_ .., List.Subset.refl _⟩
      exact fun href => hstores (congrArg some href.symm)
    | deleteObject ref' =>
      simp only [World.perform] at h
      split at h <;> cases h
      refine ⟨fun ref _ hdelete => Function.update_of_ne ?_ .., List.Subset.refl _⟩
      exact fun href => hdelete (congrArg Call.deleteObject href.symm)
    | uuidV4 =>
      simp only [World.perform] at h
      split at h <;> cases h
      exact ⟨fun _ _ _ => rfl, List.subset_cons_self _ _⟩
    | commit writes =>
      cases h
      obtain ⟨hstorage, huuids⟩ := World.foldl_write_media writes a w
      exact ⟨fun ref _ _ => congrFun hstorage ref, huuids.symm ▸ List.Subset.refl _⟩
    | authState | currentUser | readAsBytesSync | decodeImage | copyResize | encodeJpg
    | thumbnailData | getAspectRatio | getDownloadURL | get | add | update =>
      simp only [World.perform] at h
      split at h <;> cases h
      exact ⟨fun _ _ _ => rfl, List.Subset.refl _⟩
    | _ =>
      cases h
      exact ⟨fun _ _ _ => rfl, List.Subset.refl _⟩

/-- An object that is there after a call was there before, or the call has stored it. -/
theorem World.storage_of_step (h : World.step w c r = some w') {ref : Reference} {blob : Blob}
    (hblob : w'.storage ref = some blob) :
    w.storage ref = some blob ∨ c.storesAt = some ref := by
  by_cases hstores : c.storesAt = some ref
  · exact .inr hstores
  · by_cases hdelete : c = .deleteObject ref
    · subst hdelete
      cases r with
      | error e => exact .inl (World.step_error h ▸ hblob)
      | ok a =>
        simp only [World.step, World.perform] at h
        split at h <;> cases h
        rw [World.remove_storage, Function.update_self] at hblob
        cases hblob
    · exact .inl ((World.step_media h).1 ref hstores hdelete ▸ hblob)

end Media

section Folders

variable {σ : Type} {userId : UserId}

theorem Call.MakesThumbnail.inFoldersOf {c : Call} (h : c.MakesThumbnail) :
    c.InFoldersOf userId := by
  cases c <;> first | trivial | simp at h

theorem storeMedia_inFoldersOf (folder fileName : String) (thumbnail : Uint8List) (file : File) :
    (storeMedia userId folder fileName thumbnail file).Calls (Call.InFoldersOf userId) := by
  unfold storeMedia
  refine calls_bind (calls_call rfl) fun _ => calls_bind calls_modify fun _ => ?_
  refine calls_bind (calls_call trivial) fun _ => calls_bind calls_modify fun _ => ?_
  refine calls_bind (calls_call rfl) fun _ => calls_bind calls_modify fun _ => ?_
  exact calls_bind (calls_call trivial) fun _ => calls_modify

theorem storeListedMedia_inFoldersOf (folder : String) (thumbnail : Uint8List) (file : File) :
    (storeListedMedia userId folder thumbnail file).Calls (Call.InFoldersOf userId) := by
  unfold storeListedMedia
  refine calls_bind (calls_call trivial) fun _ => calls_bind calls_modify fun _ => ?_
  refine calls_bind (calls_call trivial) fun _ => calls_bind (calls_call trivial) fun _ => ?_
  refine calls_bind calls_modify fun _ => calls_tryCatch ?_ fun _ => calls_pure
  exact storeMedia_inFoldersOf _ _ _ _

theorem ImageUploadNotifier.uploadImageFile_inFoldersOf (fileType : FileType) (imageFile : File) :
    (uploadImageFile userId fileType imageFile).Calls (Call.InFoldersOf userId) := by
  unfold uploadImageFile
  refine calls_bind (calls_call trivial) fun bytes => calls_bind (calls_call trivial) ?_
  intro image
  cases image with
  | none => exact calls_call trivial
  | some image =>
    cases fileType with
    | video => exact calls_throw
    | userImage => exact calls_throw
    | image =>
      refine calls_bind ((imageThumbnail_calls _ _).mono fun _ h => h.inFoldersOf) ?_
      intro thumbnail
      cases thumbnail with
      | none => exact calls_pure
      | some bytes => exact storeListedMedia_inFoldersOf _ _ _

theorem EditPostNotifier.editImageFile_inFoldersOf (fileType : FileType) (file : File) :
    (editImageFile userId fileType file).Calls (Call.InFoldersOf userId) := by
  have hstore : ∀ folder thumbnail,
      (storeNamedMedia userId folder thumbnail file).Calls (Call.InFoldersOf userId) := by
    intro folder thumbnail
    refine calls_bind (calls_call trivial) fun _ => calls_bind calls_modify fun _ => ?_
    refine calls_bind (calls_call trivial) fun _ => calls_bind calls_modify fun _ => ?_
    exact storeMedia_inFoldersOf _ _ _ _
  unfold editImageFile
  cases fileType with
  | userImage => exact calls_throw
  | video =>
    exact calls_bind ((videoThumbnail_calls _ _).mono fun _ h => h.inFoldersOf) fun thumb =>
      hstore _ _
  | image =>
    refine calls_bind ((imageThumbnail_calls _ _).mono fun _ h => h.inFoldersOf) ?_
    intro thumbnail
    cases thumbnail with
    | none => exact calls_pure
    | some bytes => exact hstore _ _

theorem ChatMessageNotifier.sendImageFile_inFoldersOf (imageFile : File) :
    (sendImageFile userId imageFile).Calls (Call.InFoldersOf userId) := by
  refine calls_bind ((imageThumbnail_calls _ _).mono fun _ h => h.inFoldersOf) ?_
  intro thumbnail
  cases thumbnail with
  | none => exact calls_pure
  | some bytes => exact storeListedMedia_inFoldersOf _ _ _

end Folders

section Calls

variable {σ : Type} {op : AppOperation} {stored : CollectionPath → String → Doc → Prop}

theorem Call.MakesThumbnail.mayCall {c : Call} (h : c.MakesThumbnail) : op.MayCall stored c := by
  cases c <;> first | trivial | simp at h

/-- An operation may store media in the folders that it uses. -/
theorem mayCall_media {userId : UserId} {m : Action MediaLists Unit} (hm : m.Calls Call.Media)
    (hfolders : m.Calls (Call.InFoldersOf userId)) (hop : op.mediaOf = some userId) :
    m.Calls (op.MayCall stored) := by
  refine (hm.and hfolders).mono fun c hc => ?_
  obtain ⟨hmedia, hfolder⟩ := hc
  cases c with
  | putData ref bytes => exact hop.trans (congrArg some hfolder.symm)
  | putFile ref file => exact hop.trans (congrArg some hfolder.symm)
  | _ => first | trivial | simp at hmedia

/-- The frame of an operation writes no document. -/
theorem mayCall_frame {m : Action σ Bool} {n : Notifier} (hm : m.Calls (op.MayCall stored)) :
    (tryFinally (tryCatch m fun _ => pure false) (await (.setLoading n false))).Calls
      (op.MayCall stored) :=
  calls_tryFinally (calls_tryCatch hm fun _ => calls_pure) (calls_call trivial)

theorem callsOn_setLoading {n : Notifier} {isLoading : Bool} :
    (await (.setLoading n isLoading) : Action σ Unit).Keeps (Answered stored) (op.MayCall stored)
      fun _ => False := closes_call trivial

/-- The same where the replies matter. -/
theorem callsOn_frame {m : Action σ Bool} {n : Notifier}
    (hm : m.Keeps (Answered stored) (op.MayCall stored) fun _ => False) :
    (tryFinally (tryCatch m fun _ => pure false) (await (.setLoading n false))).Keeps
      (Answered stored) (op.MayCall stored) fun _ => False :=
  keeps_tryFinally (keeps_tryCatch hm fun _ => closes_pure) callsOn_setLoading

/-- Of a list, its first item is looked at. -/
theorem callsOn_first_bind {α : Type} {items : List α} {f : α → Action σ Bool}
    (hf : ∀ a ∈ items, (f a).Keeps (Answered stored) (op.MayCall stored) fun _ => False) :
    (first items >>= f).Keeps (Answered stored) (op.MayCall stored) fun _ => False := by
  cases items with
  | nil => exact fun _ => trivial
  | cons a items => exact hf a (List.mem_cons_self ..)

theorem UserInfoStorage.saveUserInfo_mayCall (op : AuthOperation) (userId : UserId)
    (displayName : String) (email phone imageUrl : Option String) :
    (saveUserInfo userId displayName email phone imageUrl : Action σ Bool).Calls
      ((AppOperation.operation (.auth op)).MayCall stored) := by
  refine calls_tryCatch (calls_bind (calls_call trivial) fun userInfo => ?_) fun _ => calls_pure
  cases userInfo with
  | nil => exact calls_bind (calls_call (.profile ..)) fun _ => calls_pure
  | cons doc docs => exact calls_bind (calls_call (.userInfo ..)) fun _ => calls_pure

theorem AuthOperation.mayCall (op : AuthOperation) :
    op.program.Calls ((AppOperation.operation (.auth op)).MayCall stored) := by
  have hloading : ∀ isLoading, (AuthStateNotifier.setIsLoading isLoading).Calls
      ((AppOperation.operation (.auth op)).MayCall stored) := fun _ =>
    calls_bind (calls_call trivial) fun _ => calls_call trivial
  have hcurrentUser : ∀ {α : Type} (f : Option FirebaseUser → α),
      (await .currentUser >>= fun user => pure (f user) : Action Unit α).Calls
        ((AppOperation.operation (.auth op)).MayCall stored) :=
    fun f => calls_bind (calls_call trivial) fun _ => calls_pure
  cases op with
  | loginWithGoogle =>
    refine calls_bind (hloading true) (fun _ => ?_) ()
    refine calls_bind (Authenticator.loginWithGoogle_calls.mono fun c hc => ?_) fun result => ?_
    · cases c <;> trivial
    refine calls_bind (hcurrentUser _) fun userId => ?_
    refine calls_bind ?_ fun _ => calls_call trivial
    unfold AuthStateNotifier.createProfileAfter
    split
    · refine calls_bind (calls_call trivial) fun userInfo => ?_
      split
      · refine calls_bind (hcurrentUser _) fun displayName => ?_
        refine calls_bind (hcurrentUser _) fun email => ?_
        refine calls_bind (hcurrentUser _) fun phone => ?_
        refine calls_bind (hcurrentUser _) fun imageUrl => ?_
        exact calls_bind (UserInfoStorage.saveUserInfo_mayCall _ _ _ _ _ _) fun _ => calls_pure
      · exact calls_pure
    · exact calls_pure
  | logOut =>
    refine calls_bind (hloading true) (fun _ => ?_) ()
    refine calls_bind ?_ fun _ => calls_call trivial
    exact calls_bind (calls_call trivial) fun _ => calls_call trivial
  | updateUserInfo userId displayName phone imageUrl =>
    refine calls_bind (calls_bind (hloading true) fun _ => ?_) (fun _ => calls_pure) ()
    refine calls_bind (hcurrentUser _) fun email => ?_
    refine calls_bind (UserInfoStorage.saveUserInfo_mayCall _ _ _ _ _ _) fun result => ?_
    exact calls_bind (hloading false) fun _ => calls_pure

theorem ImageUploadNotifier.upload_mayCall (file : File) (fileType : FileType)
    (message : Option String) (postSettings : Option (List (PostSettings × Bool)))
    (userId : UserId) (userData : Option UserInfoModel) :
    (upload file fileType message postSettings userId userData).Calls ((AppOperation.operation
      (.post (.upload file fileType message postSettings userId userData))).MayCall stored) := by
  refine calls_bind (calls_call trivial) fun _ => ?_
  refine calls_bind ((thumbnailOf_calls _ _).mono fun _ h => h.mayCall) fun thumbnail => ?_
  cases thumbnail with
  | none => exact calls_pure
  | some bytes =>
    refine calls_bind (calls_call trivial) fun ratio => calls_bind (calls_call trivial) ?_
    refine fun fileName => mayCall_frame ?_
    unfold storeAndPost
    refine calls_bind (calls_call rfl) fun thumbnailTask => ?_
    refine calls_bind (calls_call rfl) fun originalTask => ?_
    by_cases hfileType : fileType = .userImage
    · rw [if_pos hfileType]
      refine calls_bind (calls_call trivial) fun docs => calls_bind calls_first fun user => ?_
      refine calls_bind (calls_call trivial) fun url => ?_
      exact calls_bind (calls_call (.picture user.id url)) fun _ => calls_pure
    · rw [if_neg hfileType]
      refine calls_bind (calls_call trivial) fun thumbnailUrl => ?_
      refine calls_bind (calls_call trivial) fun fileUrl => ?_
      refine calls_bind calls_nullCheck fun settings => ?_
      exact calls_bind (calls_call (.upload settings ⟨[thumbnailTask.ref.name],
        [originalTask.ref.name], [fileName], [ratio], [thumbnailUrl], [fileUrl]⟩)) fun _ =>
          calls_pure

theorem ImageUploadNotifier.uploadMultipleImageFiles_mayCall (files : List File)
    (message : Option String) (postSettings : Option (List (PostSettings × Bool)))
    (fileType : FileType) (userId : UserId) :
    (uploadMultipleImageFiles files message postSettings fileType userId).Calls
      ((AppOperation.operation (.post (.uploadMultipleImageFiles files message postSettings fileType
        userId))).MayCall stored) := by
  refine calls_withLocals (calls_bind (calls_call trivial) fun _ => mayCall_frame ?_)
  refine calls_bind (calls_forEach fun file _ => mayCall_media (uploadImageFile_calls _ _ _)
    (uploadImageFile_inFoldersOf _ _) rfl) fun _ => ?_
  refine calls_bind calls_get fun lists => calls_bind calls_nullCheck fun settings => ?_
  exact calls_bind (calls_call (.album settings lists)) fun _ => calls_pure

theorem EditPostNotifier.editPost_mayCall (postId : PostId) (message : String) :
    (editPost postId message).Calls
      ((AppOperation.operation (.post (.editPost postId message))).MayCall stored) := by
  refine mayCall_frame (calls_bind (calls_call trivial) fun _ => ?_)
  refine calls_bind (calls_call trivial) fun docs => ?_
  dsimp only
  split
  · exact calls_pure
  · rename_i data rest hfilter
    have hdata : data ∈ docs.filter fun data => data.id = postId :=
      hfilter ▸ List.mem_cons_self ..
    have hid : data.id = postId := of_decide_eq_true (List.mem_filter.mp hdata).2
    rw [hid]
    exact calls_bind (calls_call .message) fun _ => calls_pure

/-- A media edit merges its fields into the post that it asked for. -/
theorem EditPostNotifier.editImagePost_callsOn (userId : UserId) (postId : PostId)
    (message : String) (files : List File) (fileType : FileType) :
    (editImagePost userId postId message files fileType).Keeps (Answered stored)
      ((AppOperation.operation (.post (.editImagePost userId postId message files
        fileType))).MayCall stored) fun _ => False := by
  refine closes_withLocals (closes_bind_keeps callsOn_setLoading fun _ => callsOn_frame ?_)
  refine closes_call_bind trivial fun docs hdocs => ?_
  have hids : ∀ doc ∈ docs, doc.id = postId := fun doc hdoc =>
    Query.selects_byId.mp (hdocs _ docs rfl doc hdoc).2
  dsimp only
  split
  · exact closes_pure
  · refine closes_bind_keeps (Calls.closes (calls_forEach fun file _ =>
      mayCall_media (editImageFile_calls _ _ _) (editImageFile_inFoldersOf _ _) rfl)) fun _ => ?_
    refine closes_bind_keeps closes_get fun lists => ?_
    refine callsOn_first_bind fun data hdata => Calls.closes (calls_bind (calls_call ?_) fun _ =>
      calls_pure)
    exact hids data hdata ▸ .media lists

/-- A deletion of a post deletes the post that it asked for. -/
theorem DeletePostStateNotifier.deletePost_callsOn (post : Post) :
    (deletePost post).Keeps (Answered stored)
      ((AppOperation.operation (.post (.deletePost post))).MayCall stored) fun _ => False := by
  have hall : ∀ path, path = .comments ∨ path = .likes →
      (deleteAllDocuments post.postId path).Keeps (Answered stored)
        ((AppOperation.operation (.post (.deletePost post))).MayCall stored) fun _ => False := by
    intro path hpath
    refine closes_call_bind trivial fun docs hdocs => Calls.closes ?_
    refine calls_bind (calls_call (.reactions hpath fun doc hdoc => ?_)) fun _ => calls_pure
    obtain ⟨hstored, hselects⟩ := hdocs _ docs rfl doc hdoc
    refine ⟨hstored, ?_⟩
    simpa [ofPost, Query.selects] using hselects
  refine callsOn_frame (closes_bind_keeps callsOn_setLoading fun _ => ?_)
  refine closes_bind_keeps (Calls.closes ?_) fun _ => ?_
  · exact calls_bind (calls_forEach fun _ _ => calls_call rfl) fun _ =>
      calls_forEach fun _ _ => calls_call rfl
  · refine closes_bind_keeps (hall _ (.inl rfl)) fun _ => ?_
    refine closes_bind_keeps (hall _ (.inr rfl)) fun _ => ?_
    refine closes_call_bind trivial fun docs hdocs => ?_
    refine closes_bind_keeps (keeps_forEach fun doc hdoc => ?_) fun _ => closes_pure
    rw [Query.selects_byId.mp (hdocs _ docs rfl doc hdoc).2]
    exact closes_call (show AppOperation.MayCall _ _ (.delete .posts post.postId) from .post)

/-- A deletion of a comment deletes the comment that it asked for. -/
theorem DeleteCommentStateNotifier.deleteComment_callsOn (commentId : CommentId) :
    (deleteComment commentId).Keeps (Answered stored)
      ((AppOperation.operation (.deleteComment commentId)).MayCall stored) fun _ => False := by
  refine callsOn_frame (closes_bind_keeps callsOn_setLoading fun _ => ?_)
  refine closes_call_bind trivial fun docs hdocs => ?_
  refine closes_bind_keeps (keeps_forEach fun doc hdoc => ?_) fun _ => closes_pure
  rw [Query.selects_byId.mp (hdocs _ docs rfl doc hdoc).2]
  exact closes_call (show AppOperation.MayCall _ _ (.delete .comments commentId) from .comment)

theorem SendCommentNotifier.updateComment_mayCall (commentId : CommentId) (comment : String)
    (userId : UserId) (postId : PostId) (repliedUserId : UserId) (repliedUserName : String) :
    (updateComment commentId comment userId postId repliedUserId repliedUserName).Calls
      ((AppOperation.operation (.updateComment commentId comment userId postId repliedUserId
        repliedUserName)).MayCall stored) := by
  refine calls_bind (calls_call trivial) fun _ => mayCall_frame ?_
  refine calls_bind (calls_call trivial) fun docs => ?_
  dsimp only
  split
  · exact calls_pure
  · rename_i first rest hfilter
    have hfirst : first ∈ docs.filter fun comment => comment.id = commentId :=
      hfilter ▸ List.mem_cons_self ..
    have hid : first.id = commentId := of_decide_eq_true (List.mem_filter.mp hfirst).2
    rw [hid]
    exact calls_bind (calls_call .comment) fun _ => calls_pure

theorem ChatMessageNotifier.sendMessage_mayCall (groupChatId currentUserId receiverId
    message : String) (files : List File) :
    (sendMessage groupChatId currentUserId receiverId message files).Calls ((AppOperation.operation
      (.sendMessage groupChatId currentUserId receiverId message files)).MayCall stored) := by
  have hset : ∀ (id : String) (lists : MediaLists),
      (setMessage groupChatId id (messagePayload currentUserId receiverId message files lists) :
        Action MediaLists Unit).Calls ((AppOperation.operation (.sendMessage groupChatId
          currentUserId receiverId message files)).MayCall stored) := fun id lists =>
    calls_bind (calls_call (.message id lists)) fun _ => calls_pure
  refine calls_withLocals (calls_bind (calls_call trivial) fun _ => mayCall_frame ?_)
  refine calls_bind (calls_call trivial) fun now => ?_
  split
  · rename_i hfiles
    simp only [messagePayload, if_pos hfiles] at hset
    exact calls_bind (hset _ .empty) fun _ => calls_pure
  · rename_i hfiles
    simp only [messagePayload, if_neg hfiles] at hset
    refine calls_bind (calls_forEach fun file _ => mayCall_media (sendImageFile_calls _ _)
      (sendImageFile_inFoldersOf _) rfl) fun _ => ?_
    exact calls_bind calls_get fun lists => calls_bind (hset _ lists) fun _ => calls_pure

/-- A tap deletes the likes of its user. -/
theorem LikeDislikeRequest.likeDislikePost_callsOn (request : LikeDislikeRequest) :
    (likeDislikePost request).Keeps (Answered stored)
      ((AppOperation.likeDislike request).MayCall stored) fun _ => False := by
  refine closes_call_bind trivial fun docs hdocs => Calls.closes ?_
  split
  · refine calls_bind (calls_call trivial) fun now => calls_tryCatch ?_ fun _ => calls_pure
    exact calls_bind (calls_call (.like now)) fun _ => calls_pure
  · refine calls_tryCatch (calls_bind ?_ fun _ => calls_pure) fun _ => calls_pure
    refine calls_forEach fun doc hdoc => calls_call ?_
    obtain ⟨hstored, hselects⟩ := hdocs _ docs rfl doc hdoc
    have hfields : doc.data.field FirebaseFieldName.postId = .string request.postId ∧
        doc.data.field FirebaseFieldName.userId = .string request.likedBy := by
      simpa [query, Query.selects] using hselects
    exact .like hstored hfields.1 hfields.2

end Calls

/-- Every call of an operation is one that it may make, as long as its queries are answered with
documents of the store. -/
theorem AppOperation.callsOn (op : AppOperation)
    {stored : CollectionPath → String → Doc → Prop} :
    op.program.CallsOn (Answered stored) (op.MayCall stored) := by
  have hvalue : ∀ {op : AppOperation} {m : Action Unit Bool},
      m.Keeps (Answered stored) (op.MayCall stored) (fun _ => False) →
        (ignoreValue m ()).CallsOn (Answered stored) (op.MayCall stored) := fun hm =>
    (closes_bind_keeps hm fun _ => closes_pure : (ignoreValue _).Keeps _ _ fun _ => False) ()
  cases op with
  | likeDislike request => exact hvalue request.likeDislikePost_callsOn
  | operation op =>
    cases op with
    | auth op => exact op.mayCall.closes _
    | post op =>
      cases op with
      | upload => exact hvalue (Calls.closes (ImageUploadNotifier.upload_mayCall _ _ _ _ _ _))
      | uploadMultipleImageFiles =>
        exact hvalue (Calls.closes (ImageUploadNotifier.uploadMultipleImageFiles_mayCall _ _ _ _ _))
      | editPost => exact hvalue (Calls.closes (EditPostNotifier.editPost_mayCall _ _))
      | editImagePost => exact hvalue (EditPostNotifier.editImagePost_callsOn _ _ _ _ _)
      | deletePost => exact hvalue (DeletePostStateNotifier.deletePost_callsOn _)
    | sendComment =>
      refine hvalue (Calls.closes (calls_bind (calls_call trivial) fun _ => mayCall_frame ?_))
      exact calls_bind (calls_call .comment) fun _ => calls_pure
    | updateComment =>
      exact hvalue (Calls.closes (SendCommentNotifier.updateComment_mayCall _ _ _ _ _ _))
    | deleteComment => exact hvalue (DeleteCommentStateNotifier.deleteComment_callsOn _)
    | sendMessage => exact hvalue (Calls.closes (ChatMessageNotifier.sendMessage_mayCall _ _ _ _ _))

/-- Operations of the app under way on several devices. -/
abbrev AppDevices := Pool Network (AtPlace Nat (Fallible Exc Ans)) (Except Exc Unit × Unit)

/-- The operations on their devices, each as it starts. -/
def appPool (runs : List (Nat × AppOperation)) (n : Network) : AppDevices :=
  .placed n (runs.map fun run => (run.1, run.2.program))

/-- The operations of several devices have interleaved in this way, with any failures. -/
abbrev AppSteps (runs : List (Nat × AppOperation)) (n : Network) (moves : List DeviceMove)
    (P : AppDevices) : Prop :=
  Pool.Steps Network.step (fun _ _ _ => True) (appPool runs n) moves P

/-- A document that was stored at some time. -/
def StoredDuring (runs : List (Nat × AppOperation)) (n : Network) (moves : List DeviceMove)
    (path : CollectionPath) (id : String) (d : Doc) : Prop :=
  ∃ w, Pool.Passed Network.step (fun _ _ _ => True) (appPool runs n) moves w ∧
    (w.firestore path)[id]? = some d

section Steps

variable {runs : List (Nat × AppOperation)} {n : Network} {past moves : List DeviceMove}
  {m : DeviceMove} {P P' : AppDevices} {path : CollectionPath} {id : String} {d : Doc}

theorem StoredDuring.mono (h : StoredDuring runs n past path id d) (hpast : past <+: moves) :
    StoredDuring runs n moves path id d := by
  obtain ⟨w, hw, hd⟩ := h
  exact ⟨w, hw.mono hpast, hd⟩

/-- Queries are answered with documents that were stored at some time. -/
theorem answered_of_steps (h : AppSteps runs n moves P) :
    ∀ m ∈ moves, Answered (StoredDuring runs n moves) m.event.local := by
  induction h with
  | nil => exact fun m hm => absurd hm List.not_mem_nil
  | @snoc past P₁ P₂ m hpast hstep _ ih =>
    intro m' hm'
    have hbegins := List.prefix_append past [m]
    rcases List.mem_append.mp hm' with hm' | hm'
    · intro q docs hevent doc hdoc
      obtain ⟨hstored, hselects⟩ := ih m' hm' q docs hevent doc hdoc
      exact ⟨hstored.mono hbegins, hselects⟩
    · obtain rfl := List.mem_singleton.mp hm'
      cases hstep with
      | mk hthread haccept =>
        obtain ⟨w, hw, -⟩ := Network.step_eq_some haccept
        exact World.answered (fun path id d hd => ⟨_, hpast.passed.mono hbegins, hd⟩) hw

/-- The next call is one that its operation may make, on the device of the operation. -/
theorem mayCall_of_step (h : AppSteps runs n moves P) (hstep : Pool.Step Network.step P m P') :
    ∃ run, runs[m.thread]? = some run ∧ m.event.call.1 = run.1 ∧
      run.2.MayCall (StoredDuring runs n moves) m.event.call.2 := by
  have hcalls : ∀ (i : Nat) (q : Nat × Program (Fallible Exc Ans) (Except Exc Unit × Unit)),
      (runs.map fun run => (run.1, run.2.program))[i]? = some q →
        q.2.CallsOn (Answered (StoredDuring runs n moves)) fun c =>
          ∃ run, runs[i]? = some run ∧ run.2.MayCall (StoredDuring runs n moves) c := by
    intro i q hq
    rw [List.getElem?_map, Option.map_eq_some_iff] at hq
    obtain ⟨run, hrun, rfl⟩ := hq
    exact run.2.callsOn.mono fun c hc => ⟨run, hrun, hc⟩
  obtain ⟨q, hq, hdevice, run, hrun, hcall⟩ := h.next_call (answered_of_steps h) hcalls hstep
  rw [List.getElem?_map, hrun] at hq
  cases hq
  exact ⟨run, hrun, hdevice, hcall⟩

end Steps

end TekkGram
