import TekkGram.Database.Effects
import TekkGram.Records.ReadBack

/-!
# The operations take effect one after another

Each of the nine operations that write one document takes effect at one moment if it returns `true`,
and never otherwise. Whatever the operations of several devices interleave, the database is then
changed by their effects one after another, each allowed where it stands, in an order that agrees
with time.
-/

namespace TekkGram

open Interaction Async

/-- Where an operation looks for the document that it is about, if it succeeds without it. -/
def WriteOperation.lookup : WriteOperation → Lookup
  | updateComment commentId _ _ postId _ _ =>
    some (SendCommentNotifier.commentsOf postId, commentId)
  | deleteComment commentId => some (.byId .comments commentId, commentId)
  | editPost postId _ => some (.byId .posts postId, postId)
  | _ => none

/-- The effects with which an operation succeeds. -/
inductive WriteOperation.Succeeds : WriteOperation → Effect → Prop
  | sent {fromUserId : UserId} {onPostId : PostId} {comment repliedUserName : String}
      {repliedUserId : UserId} (id : CommentId) (t : Timestamp) :
      Succeeds (sendComment fromUserId onPostId comment repliedUserName repliedUserId)
        (.create .comments id ((commentPayload fromUserId onPostId comment repliedUserName
          repliedUserId).resolve t))
  | updated {commentId : CommentId} {comment : String} {userId : UserId} {postId : PostId}
      {repliedUserId : UserId} {repliedUserName : String} :
      Succeeds (updateComment commentId comment userId postId repliedUserId repliedUserName)
        (.merge .comments commentId (SendCommentNotifier.editedFields comment userId postId
          repliedUserId repliedUserName))
  | deleted {commentId : CommentId} :
      Succeeds (deleteComment commentId) (.erase .comments commentId)
  | edited {postId : PostId} {message : String} :
      Succeeds (editPost postId message) (.merge .posts postId [("message", .string message)])
  | mediaEdited {userId : UserId} {postId : PostId} {message : String} {files : List File}
      {fileType : FileType} (lists : MediaLists) :
      Succeeds (editImagePost userId postId message files fileType)
        (.merge .posts postId (EditPostNotifier.editedFields userId message fileType lists))
  | posted {file : File} {fileType : FileType} {message : Option String}
      {postSettings : List (PostSettings × Bool)} {userId : UserId}
      {userData : Option UserInfoModel} (hfileType : fileType ≠ .userImage) (lists : MediaLists)
      (id : PostId) (t : Timestamp) :
      Succeeds (upload file fileType message (some postSettings) userId userData)
        (.create .posts id ((ImageUploadNotifier.multiplePayload userId message fileType
          postSettings lists).resolve t))
  | pictureChanged {file : File} {message : Option String}
      {postSettings : Option (List (PostSettings × Bool))} {userId : UserId}
      {userData : Option UserInfoModel} (id imageUrl : String) :
      Succeeds (upload file .userImage message postSettings userId userData)
        (.merge .users id (ImageUploadNotifier.profileFields userData imageUrl))
  | albumPosted {files : List File} {message : Option String}
      {postSettings : List (PostSettings × Bool)} {fileType : FileType} {userId : UserId}
      (lists : MediaLists) (id : PostId) (t : Timestamp) :
      Succeeds (uploadMultipleImageFiles files message (some postSettings) fileType userId)
        (.create .posts id ((ImageUploadNotifier.multiplePayload userId message fileType
          postSettings lists).resolve t))
  | messageSent {groupChatId currentUserId receiverId message : String} {files : List File}
      (lists : MediaLists) (ms : Int) (t : Timestamp) :
      Succeeds (sendMessage groupChatId currentUserId receiverId message files)
        (.set (.chat groupChatId) (toString ms) ((ChatMessageNotifier.messagePayload currentUserId
          receiverId message files lists).resolve t))
  | profileAdded {userId : UserId} {displayName : String} {email phone imageUrl : Option String}
      (id : String) (t : Timestamp) :
      Succeeds (saveUserInfo userId displayName email phone imageUrl)
        (.create .users id ((userInfoPayload userId (some displayName) email phone
          imageUrl).resolve t))
  | profileUpdated {userId : UserId} {displayName : String}
      {email phone imageUrl : Option String} (id : String) :
      Succeeds (saveUserInfo userId displayName email phone imageUrl)
        (.merge .users id (UserInfoStorage.updatedFields displayName email phone imageUrl))
  | notFound {op : WriteOperation} {query : Query} {id : String}
      (hlookup : op.lookup = some (query, id)) : Succeeds op (.absent query id)

/-- A reply that the backend can give. -/
def Possible (e : AppEvent) : Prop := ∃ w w', World.step w e.call e.reply = some w'

/-- The backend without its state. -/
noncomputable abbrev anyBackend : Environment Unit (Fallible Exc Ans) := onlyReplies Possible

/-- The body of an operation takes effect as the operation succeeds. -/
abbrev Linearizes {σ : Type} (op : WriteOperation) (m : Action σ Bool) : Prop :=
  m.TakesEffect anyBackend (effectOf op.lookup) (· = true) op.Succeeds

/-- Calls of an operation that have no effect. -/
def WriteOperation.Harmless (op : WriteOperation) (c : Call) : Prop :=
  c.WritesNothing ∧ ∀ q id, op.lookup = some (q, id) → c ≠ .get q

theorem WriteOperation.Harmless.effectOf (op : WriteOperation) (c : Call)
    (r : Fallible Exc Ans c) (h : op.Harmless c) : effectOf op.lookup ⟨c, r⟩ = none :=
  h.1.effectOf h.2 r

/-- An operation that looks nothing up. -/
theorem WriteOperation.harmless_of_lookup {op : WriteOperation} {c : Call}
    (hlookup : op.lookup = none) (hc : c.WritesNothing) : op.Harmless c := by
  refine ⟨hc, fun q id h => ?_⟩
  rw [hlookup] at h
  cases h

section Rules

variable {σ α : Type} {op : WriteOperation}

/-- Calls before the effect. -/
theorem linearizes_bind {m : Action σ α} {f : α → Action σ Bool} (hm : m.Calls op.Harmless)
    (hf : ∀ a, Linearizes op (f a)) : Linearizes op (m >>= f) :=
  takesEffect_bind (WriteOperation.Harmless.effectOf op) hm hf

/-- The write that is the effect comes last. -/
theorem linearizes_write {c : Call}
    (h : ∀ a : Ans c, ∃ e, effectOf op.lookup ⟨c, .ok a⟩ = some e ∧ op.Succeeds e) :
    Linearizes op ((Async.call c : Action σ (Ans c)) >>= fun _ => pure true) := by
  refine takesEffect_call (fun _ => effectOf_error) fun _ a _ _ => .inl ?_
  obtain ⟨e, he, hspec⟩ := h a
  exact ⟨e, true, he, hspec, rfl, rfl⟩

/-- The query of the operation: without the document the body returns `true`. -/
theorem linearizes_lookup {query : Query} {id : String} {f : List DocSnapshot → Action σ Bool}
    (hlookup : op.lookup = some (query, id))
    (habsent : ∀ docs, Possible ⟨.get query, .ok docs⟩ → (∀ doc ∈ docs, doc.id ≠ id) →
      f docs = pure true)
    (hfound : ∀ docs, Possible ⟨.get query, .ok docs⟩ → (∃ doc ∈ docs, doc.id = id) →
      Linearizes op (f docs)) :
    Linearizes op ((await (.get query) : Action σ (List DocSnapshot)) >>= f) := by
  refine takesEffect_call (fun _ => effectOf_error) fun _ docs _ haccept => ?_
  have hpossible := onlyReplies_eq_some.mp haccept
  by_cases hnone : ∀ doc ∈ docs, doc.id ≠ id
  · refine .inl ⟨.absent query id, true, ?_, .notFound hlookup, rfl, habsent docs hpossible hnone⟩
    rw [hlookup]
    exact if_pos ⟨rfl, hnone⟩
  · refine .inr ⟨?_, hfound docs hpossible (by simpa using hnone)⟩
    rw [hlookup]
    exact if_neg fun h => hnone h.2

/-- Another query, which has no effect. -/
theorem linearizes_read {query : Query} {f : List DocSnapshot → Action σ Bool}
    (hlookup : op.lookup = none)
    (hf : ∀ docs, Possible ⟨.get query, .ok docs⟩ → Linearizes op (f docs)) :
    Linearizes op ((await (.get query) : Action σ (List DocSnapshot)) >>= f) := by
  refine takesEffect_call (fun _ => effectOf_error) fun _ docs _ haccept => .inr ⟨?_, ?_⟩
  · rw [hlookup]
    rfl
  · exact hf docs (onlyReplies_eq_some.mp haccept)

/-- A loading flag is always set. -/
theorem wp_setLoading_anyBackend (n : Notifier) (v : Bool) (s : σ) (w : Unit) :
    (await (.setLoading n v) : Action σ Unit).wp anyBackend (fun _ out _ _ => out = .ok ())
      s w := by
  rw [wp_call]
  intro r w' haccept
  obtain ⟨w₁, w₂, hstep⟩ := onlyReplies_eq_some.mp haccept
  cases r with
  | ok a => rfl
  | error e => cases e <;> simp [World.step, World.fails, Call.fallible] at hstep

/-- The usual end of an operation around its `try` block. -/
theorem linearizes_frame {m : Action σ Bool} {n : Notifier} (hm : Linearizes op m) :
    Linearizes op (tryFinally (tryCatch m fun _ => pure false) (await (.setLoading n false))) :=
  takesEffect_tryFinally (WriteOperation.Harmless.effectOf op)
    (takesEffect_tryCatch (fun _ => by simp) hm) (calls_call ⟨trivial, nofun⟩)
    (wp_setLoading_anyBackend n false)

/-- A query by document id is answered with the document or with nothing. -/
theorem Possible.byId {path : CollectionPath} {id : String} {docs : List DocSnapshot}
    (h : Possible ⟨.get (.byId path id), .ok docs⟩) : docs = [] ∨ ∃ d, docs = [⟨id, d⟩] := by
  obtain ⟨w, w', hstep⟩ := h
  simp only [World.step, World.perform] at hstep
  split at hstep
  · rename_i hdocs
    rw [hdocs, Query.eval_byId]
    cases (w.firestore (Query.byId path id).collection)[id]? with
    | none => exact .inl rfl
    | some d => exact .inr ⟨d, rfl⟩
  · cases hstep

end Rules

/-- Calls on media and the device have no effect. -/
theorem WriteOperation.harmless_of_media {op : WriteOperation} {c : Call} (h : c.Media) :
    op.Harmless c := by
  refine ⟨h.writesNothing, ?_⟩
  rintro q id - rfl
  simp at h

/-- The documents of an id in an answer. -/
theorem filter_id_cases (docs : List DocSnapshot) (id : String) :
    (docs.filter fun doc => doc.id = id) = [] ∧ (∀ doc ∈ docs, doc.id ≠ id) ∨
      ∃ first rest, (docs.filter fun doc => doc.id = id) = first :: rest ∧ first.id = id := by
  cases h : docs.filter fun doc => doc.id = id with
  | nil => exact .inl ⟨rfl, by simpa [List.filter_eq_nil_iff] using h⟩
  | cons first rest =>
    refine .inr ⟨first, rest, rfl, ?_⟩
    have hmem : first ∈ docs.filter fun doc => doc.id = id := h ▸ List.mem_cons_self ..
    exact of_decide_eq_true (List.mem_filter.mp hmem).2

namespace SendCommentNotifier

theorem sendComment_linearizes (fromUserId : UserId) (onPostId : PostId)
    (comment repliedUserName : String) (repliedUserId : UserId) :
    Linearizes (.sendComment fromUserId onPostId comment repliedUserName repliedUserId)
      (sendComment fromUserId onPostId comment repliedUserName repliedUserId) :=
  linearizes_bind (calls_call ⟨trivial, nofun⟩) fun _ => linearizes_frame <|
    linearizes_write fun added => ⟨_, rfl, .sent added.id added.commitTime⟩

theorem updateComment_linearizes (commentId : CommentId) (comment : String) (userId : UserId)
    (postId : PostId) (repliedUserId : UserId) (repliedUserName : String) :
    Linearizes (.updateComment commentId comment userId postId repliedUserId repliedUserName)
      (updateComment commentId comment userId postId repliedUserId repliedUserName) := by
  refine linearizes_bind (calls_call ⟨trivial, nofun⟩) fun _ => linearizes_frame ?_
  refine linearizes_lookup rfl (fun docs _ hnone => ?_) fun docs _ hfound => ?_
  · have hfilter : (docs.filter fun doc => doc.id = commentId) = [] := by
      simpa [List.filter_eq_nil_iff] using hnone
    dsimp only
    rw [hfilter]
  · dsimp only
    rcases filter_id_cases docs commentId with ⟨-, hnone⟩ | ⟨first, rest, hfilter, rfl⟩
    · obtain ⟨doc, hdoc, hid⟩ := hfound
      exact absurd hid (hnone doc hdoc)
    · rw [hfilter]
      exact linearizes_write fun _ => ⟨_, rfl, .updated⟩

end SendCommentNotifier

namespace DeleteCommentStateNotifier

theorem deleteComment_linearizes (commentId : CommentId) :
    Linearizes (.deleteComment commentId) (deleteComment commentId) := by
  refine linearizes_frame (linearizes_bind (calls_call ⟨trivial, nofun⟩) fun _ => ?_)
  refine linearizes_lookup rfl (fun docs hpossible hnone => ?_) fun docs hpossible hfound => ?_
  · rcases Possible.byId hpossible with rfl | ⟨d, rfl⟩
    · rfl
    · exact absurd rfl (hnone _ (List.mem_singleton_self _))
  · rcases Possible.byId hpossible with rfl | ⟨d, rfl⟩
    · obtain ⟨doc, hdoc, -⟩ := hfound
      cases hdoc
    · intro s w
      rw [wp_bind, wp_forEach_singleton, wp_call]
      intro r w' _
      cases r with
      | error e =>
        rw [ends_error, List.filterMap_cons, effectOf_error]
        exact .inr ⟨nofun, rfl⟩
      | ok a =>
        rw [ends_ok, wp_pure]
        exact .inl ⟨true, .erase .comments commentId, rfl, rfl, rfl, .deleted⟩

end DeleteCommentStateNotifier

namespace EditPostNotifier

theorem editPost_linearizes (postId : PostId) (message : String) :
    Linearizes (.editPost postId message) (editPost postId message) := by
  refine linearizes_frame (linearizes_bind (calls_call ⟨trivial, nofun⟩) fun _ => ?_)
  refine linearizes_lookup rfl (fun docs _ hnone => ?_) fun docs _ hfound => ?_
  · have hfilter : (docs.filter fun doc => doc.id = postId) = [] := by
      simpa [List.filter_eq_nil_iff] using hnone
    dsimp only
    rw [hfilter]
  · dsimp only
    rcases filter_id_cases docs postId with ⟨-, hnone⟩ | ⟨first, rest, hfilter, rfl⟩
    · obtain ⟨doc, hdoc, hid⟩ := hfound
      exact absurd hid (hnone doc hdoc)
    · rw [hfilter]
      exact linearizes_write fun _ => ⟨_, rfl, .edited⟩

theorem editImagePost_linearizes (userId : UserId) (postId : PostId) (message : String)
    (files : List File) (fileType : FileType) :
    Linearizes (.editImagePost userId postId message files fileType)
      (editImagePost userId postId message files fileType) := by
  refine takesEffect_withLocals (linearizes_bind (calls_call ⟨trivial, nofun⟩) fun _ =>
    linearizes_frame ?_)
  refine linearizes_read rfl fun docs hpossible => ?_
  dsimp only
  rcases Possible.byId hpossible with rfl | ⟨d, rfl⟩
  · exact takesEffect_pure (by simp)
  · have hfilter : ([⟨postId, d⟩] : List DocSnapshot).filter (fun data => data.id = postId) =
        [⟨postId, d⟩] := by simp
    rw [hfilter]
    refine linearizes_bind (calls_forEach fun file _ =>
      (editImageFile_calls _ _ file).mono fun _ => WriteOperation.harmless_of_media) fun _ => ?_
    refine linearizes_bind calls_get fun lists => ?_
    have hupdate : Linearizes (.editImagePost userId postId message files fileType)
        ((await (.update .posts postId (editedFields userId message fileType lists)) :
          Action MediaLists Unit) >>= fun _ => pure true) :=
      linearizes_write fun _ => ⟨_, rfl, .mediaEdited lists⟩
    exact hupdate

end EditPostNotifier

namespace ImageUploadNotifier

theorem storeAndPost_linearizes (file : File) (fileType : FileType) (message : Option String)
    (postSettings : Option (List (PostSettings × Bool))) (userId : UserId)
    (userData : Option UserInfoModel) (thumbnail : Uint8List) (ratio : ℚ) (fileName : String) :
    Linearizes (.upload file fileType message postSettings userId userData)
      (storeAndPost file fileType message postSettings userId userData thumbnail ratio
        fileName) := by
  unfold storeAndPost
  refine linearizes_bind (calls_call ⟨trivial, nofun⟩) fun thumbnailTask => ?_
  refine linearizes_bind (calls_call ⟨trivial, nofun⟩) fun originalTask => ?_
  by_cases hfileType : fileType = .userImage
  · subst hfileType
    rw [if_pos rfl]
    refine linearizes_read rfl fun docs _ => ?_
    cases docs with
    | nil => exact takesEffect_throw
    | cons userInfo docs =>
      refine linearizes_bind calls_pure fun userInfo => ?_
      refine linearizes_bind (calls_call ⟨trivial, nofun⟩) fun imageUrl => ?_
      exact linearizes_write fun _ => ⟨_, rfl, .pictureChanged userInfo.id imageUrl⟩
  · rw [if_neg hfileType]
    refine linearizes_bind (calls_call ⟨trivial, nofun⟩) fun thumbnailUrl => ?_
    refine linearizes_bind (calls_call ⟨trivial, nofun⟩) fun fileUrl => ?_
    cases postSettings with
    | none => exact takesEffect_throw
    | some settings =>
      have hadd : Linearizes (.upload file fileType message (some settings) userId userData)
          ((await (.add .posts (postPayload userId (message.getD "") [thumbnailUrl] [fileUrl]
            fileType [fileName] [ratio] settings [thumbnailTask.ref.name] [originalTask.ref.name]
            (some .serverTimestamp))) : Action Unit Added) >>= fun _ => pure true) :=
        linearizes_write fun added => ⟨_, rfl, .posted hfileType ⟨[thumbnailTask.ref.name],
          [originalTask.ref.name], [fileName], [ratio], [thumbnailUrl], [fileUrl]⟩ added.id
          added.commitTime⟩
      exact hadd

theorem upload_linearizes (file : File) (fileType : FileType) (message : Option String)
    (postSettings : Option (List (PostSettings × Bool))) (userId : UserId)
    (userData : Option UserInfoModel) :
    Linearizes (.upload file fileType message postSettings userId userData)
      (upload file fileType message postSettings userId userData) := by
  refine linearizes_bind (calls_call ⟨trivial, nofun⟩) fun _ => ?_
  refine linearizes_bind ((thumbnailOf_calls _ _).mono fun _ h =>
    WriteOperation.harmless_of_media (Call.MakesThumbnail.media h)) fun thumbnail => ?_
  cases thumbnail with
  | none => exact takesEffect_pure (by simp)
  | some thumbnail =>
    refine linearizes_bind (calls_call ⟨trivial, nofun⟩) fun ratio => ?_
    refine linearizes_bind (calls_call ⟨trivial, nofun⟩) fun fileName => ?_
    exact linearizes_frame (storeAndPost_linearizes _ _ _ _ _ _ _ _ _)

theorem uploadMultipleImageFiles_linearizes (files : List File) (message : Option String)
    (postSettings : Option (List (PostSettings × Bool))) (fileType : FileType) (userId : UserId) :
    Linearizes (.uploadMultipleImageFiles files message postSettings fileType userId)
      (uploadMultipleImageFiles files message postSettings fileType userId) := by
  refine takesEffect_withLocals (linearizes_bind (calls_call ⟨trivial, nofun⟩) fun _ =>
    linearizes_frame ?_)
  refine linearizes_bind (calls_forEach fun file _ =>
    (uploadImageFile_calls _ _ file).mono fun _ => WriteOperation.harmless_of_media) fun _ => ?_
  refine linearizes_bind calls_get fun lists => ?_
  cases postSettings with
  | none => exact takesEffect_throw
  | some settings =>
    have hadd : Linearizes (.uploadMultipleImageFiles files message (some settings) fileType userId)
        ((await (.add .posts (multiplePayload userId message fileType settings lists)) :
          Action MediaLists Added) >>= fun _ => pure true) :=
      linearizes_write fun added => ⟨_, rfl, .albumPosted lists added.id added.commitTime⟩
    exact hadd

end ImageUploadNotifier

namespace ChatMessageNotifier

theorem sendMessage_linearizes (groupChatId currentUserId receiverId message : String)
    (files : List File) :
    Linearizes (.sendMessage groupChatId currentUserId receiverId message files)
      (sendMessage groupChatId currentUserId receiverId message files) := by
  refine takesEffect_withLocals (linearizes_bind (calls_call
    (WriteOperation.harmless_of_lookup rfl trivial)) fun _ =>
    linearizes_frame ?_)
  have hset : ∀ (lists : MediaLists) (ms : Int),
      Linearizes (.sendMessage groupChatId currentUserId receiverId message files)
        (setMessage groupChatId (toString ms)
          (messagePayload currentUserId receiverId message files lists) >>=
            fun _ => pure true : Action MediaLists Bool) := by
    intro lists ms s w
    rw [setMessage, wp_bind, wp_bind, wp_call]
    intro r w' _
    cases r with
    | error e =>
      rw [ends_error, List.filterMap_cons, effectOf_error]
      exact .inr ⟨fun _ h => (by cases h), rfl⟩
    | ok t =>
      rw [ends_ok, wp_pure, ends_ok, wp_pure]
      exact .inl ⟨true, _, rfl, rfl, rfl, .messageSent lists ms t⟩
  refine linearizes_bind (calls_call (WriteOperation.harmless_of_lookup rfl trivial)) fun now => ?_
  dsimp only
  by_cases hfiles : files = []
  · rw [if_pos hfiles]
    have htext := hset .empty now.millisecondsSinceEpoch
    rw [messagePayload, if_pos hfiles] at htext
    exact htext
  · rw [if_neg hfiles]
    refine linearizes_bind (calls_forEach fun file _ =>
      (sendImageFile_calls _ file).mono fun _ => WriteOperation.harmless_of_media) fun _ => ?_
    refine linearizes_bind calls_get fun lists => ?_
    have himages := hset lists now.millisecondsSinceEpoch
    rw [messagePayload, if_neg hfiles] at himages
    exact himages

end ChatMessageNotifier

theorem UserInfoStorage.saveUserInfo_linearizes {σ : Type} (userId : UserId) (displayName : String)
    (email phone imageUrl : Option String) :
    Linearizes (.saveUserInfo userId displayName email phone imageUrl)
      (saveUserInfo userId displayName email phone imageUrl : Action σ Bool) := by
  refine takesEffect_tryCatch (fun _ => by simp) (linearizes_read rfl fun docs _ => ?_)
  cases docs with
  | nil => exact linearizes_write fun added => ⟨_, rfl, .profileAdded added.id added.commitTime⟩
  | cons doc docs => exact linearizes_write fun _ => ⟨_, rfl, .profileUpdated doc.id⟩

/-- Every operation takes effect once if it returns `true`, and never otherwise. -/
theorem WriteOperation.linearizes (op : WriteOperation) : Linearizes op op.body := by
  cases op with
  | sendComment => exact SendCommentNotifier.sendComment_linearizes _ _ _ _ _
  | updateComment => exact SendCommentNotifier.updateComment_linearizes _ _ _ _ _ _
  | deleteComment => exact DeleteCommentStateNotifier.deleteComment_linearizes _
  | editPost => exact EditPostNotifier.editPost_linearizes _ _
  | editImagePost => exact EditPostNotifier.editImagePost_linearizes _ _ _ _ _
  | upload => exact ImageUploadNotifier.upload_linearizes _ _ _ _ _ _
  | uploadMultipleImageFiles =>
    exact ImageUploadNotifier.uploadMultipleImageFiles_linearizes _ _ _ _ _
  | sendMessage => exact ChatMessageNotifier.sendMessage_linearizes _ _ _ _ _
  | saveUserInfo => exact UserInfoStorage.saveUserInfo_linearizes _ _ _ _ _

/-- The query of an operation finds the document that the operation is about. -/
theorem WriteOperation.lookup_finds (op : WriteOperation) : op.lookup.Finds := by
  cases op with
  | updateComment => exact Lookup.finds_of_limit rfl _
  | deleteComment => exact Lookup.finds_byId _ _
  | editPost => exact Lookup.finds_byId _ _
  | _ => exact nofun

theorem Call.WritesRecords.writesOne {c : Call} (h : c.WritesRecords) : c.WritesOne := by
  cases c with
  | commit writes =>
    obtain ⟨path, id, payload, rfl, -⟩ := h
    exact ⟨path, id, payload, rfl⟩
  | _ => trivial

/-- Every transaction of an operation sets one document. -/
theorem WriteOperation.calls (op : WriteOperation) : op.body.Calls Call.WritesOne := by
  have hrecord : ∀ op : RecordOperation, op.body.Calls Call.WritesOne := fun op =>
    op.calls.mono fun _ => Call.WritesRecords.writesOne
  cases op with
  | sendComment fromUserId onPostId comment repliedUserName repliedUserId =>
    exact hrecord (.sendComment fromUserId onPostId comment repliedUserName repliedUserId)
  | updateComment commentId comment userId postId repliedUserId repliedUserName =>
    exact hrecord (.updateComment commentId comment userId postId repliedUserId repliedUserName)
  | editPost postId message => exact hrecord (.editPost postId message)
  | editImagePost userId postId message files fileType =>
    exact hrecord (.editImagePost userId postId message files fileType)
  | upload file fileType message postSettings userId userData =>
    exact hrecord (.upload file fileType message postSettings userId userData)
  | uploadMultipleImageFiles files message postSettings fileType userId =>
    exact hrecord (.uploadMultipleImageFiles files message postSettings fileType userId)
  | sendMessage groupChatId currentUserId receiverId message files =>
    exact hrecord (.sendMessage groupChatId currentUserId receiverId message files)
  | deleteComment commentId =>
    refine calls_tryFinally (calls_tryCatch ?_ fun _ => calls_pure) (calls_call trivial)
    refine calls_bind (calls_call trivial) fun _ => calls_bind (calls_call trivial) fun docs => ?_
    exact calls_bind (calls_forEach fun doc _ => calls_call trivial) fun _ => calls_pure
  | saveUserInfo userId displayName email phone imageUrl =>
    refine calls_tryCatch (calls_bind (calls_call trivial) fun docs => ?_) fun _ => calls_pure
    cases docs with
    | nil => exact calls_bind (calls_call trivial) fun _ => calls_pure
    | cons doc docs => exact calls_bind (calls_call trivial) fun _ => calls_pure

/-- Operations under way on several devices. -/
abbrev DevicePool := Pool Network (AtPlace Nat (Fallible Exc Ans)) (Except Exc Bool × Unit)

/-- Operations on several devices, each as it starts. -/
abbrev operationPool (runs : List (Nat × WriteOperation)) (n : Network) : DevicePool :=
  .placed n (runs.map fun run => (run.1, run.2.body ()))

/-- The effect of an event of one of the operations. -/
def operationEffect (runs : List (Nat × WriteOperation)) (i : Nat)
    (e : Event (AtPlace Nat (Fallible Exc Ans))) : Option Effect :=
  runs[i]?.bind fun run => effectOf run.2.lookup e.local

/-- The effects of the operations in the order of time. -/
def effectsIn (runs : List (Nat × WriteOperation)) (moves : List DeviceMove) :
    List (Nat × Effect) := effectsOf (operationEffect runs) moves

/-- The operations have acted on the database one after another: by effects with which they succeed,
one for each operation that has returned `true` and none for those that have ended otherwise. Each
effect falls between the first and the last call of its operation. -/
structure Linearization (runs : List (Nat × WriteOperation)) (moves : List DeviceMove)
    (before : Database) (P : DevicePool) (effects : List (Nat × Effect)) : Prop where
  performs : Performs Effect.Acts before (effects.map Prod.snd) P.state.firestore
  once : (effects.map Prod.fst).Nodup
  succeeds : ∀ i e, (i, e) ∈ effects → ∃ run, runs[i]? = some run ∧ run.2.Succeeds e
  ended : ∀ i out, P.threads[i]? = some (.done (out, ())) →
    (out = .ok true ↔ ∃ e, (i, e) ∈ effects)
  inTime : ∀ past future, moves = past ++ future → ∃ effects₁ effects₂,
    effects = effects₁ ++ effects₂ ∧ (∀ e ∈ effects₁, ∃ m ∈ past, m.thread = e.1) ∧
      ∀ e ∈ effects₂, ∃ m ∈ future, m.thread = e.1

/-- Some reply to every call is possible. -/
theorem possible_working (c : Call) : Possible ⟨c, World.working 0 World.initial c⟩ := by
  refine ⟨World.initial, ?_⟩
  cases c with
  | uuidV4 => exact ⟨_, rfl⟩
  | add path payload => exact ⟨_, rfl⟩
  | _ =>
    exact Option.isSome_iff_exists.mp
      (World.working_accepted 0 World.initial _ (by simp) (by simp))

section Steps

variable {runs : List (Nat × WriteOperation)} {n : Network} {moves : List DeviceMove}
  {P : DevicePool} {i : Nat} {run : Nat × WriteOperation}

theorem filterMap_localEventsOf (hrun : runs[i]? = some run) :
    (localEventsOf i moves).filterMap (effectOf run.2.lookup) =
      (eventsOf i moves).filterMap (operationEffect runs i) := by
  rw [localEventsOf, List.filterMap_map]
  refine List.filterMap_congr fun e _ => ?_
  rw [operationEffect, hrun]
  rfl

/-- The effects of an operation are those of its events. -/
theorem mem_effectsIn (hrun : runs[i]? = some run) {e : Effect} : (i, e) ∈ effectsIn runs moves ↔
    e ∈ (localEventsOf i moves).filterMap (effectOf run.2.lookup) := by
  rw [filterMap_localEventsOf hrun, filterMap_eventsOf]
  simp [effectsIn]

variable (h : Pool.Steps Network.step (fun _ _ _ => True) (operationPool runs n) moves P)

include h

theorem possible_of_mem (e : AppEvent) (he : e ∈ localEventsOf i moves) : Possible e := by
  obtain ⟨e, hmem, rfl⟩ := List.mem_map.mp he
  obtain ⟨m, hm, -, rfl⟩ := mem_eventsOf.mp hmem
  obtain ⟨n₁, n₂, hstep⟩ := h.possible m hm
  obtain ⟨w, hw, -⟩ := Network.step_eq_some hstep
  exact ⟨_, w, hw⟩

/-- The effects of an operation so far are at most the one with which it succeeds. -/
theorem effects_of_thread (hrun : runs[i]? = some run) :
    (localEventsOf i moves).filterMap (effectOf run.2.lookup) = [] ∨
      ∃ e, (localEventsOf i moves).filterMap (effectOf run.2.lookup) = [e] ∧
        run.2.Succeeds e := by
  have hthread : (operationPool runs n).threads[i]? = some ((run.2.body ()).placed run.1) := by
    simp [operationPool, Pool.placed, hrun]
  obtain ⟨q, tr, ⟨out, s⟩, -, hruns, hanswers, -⟩ :=
    h.exists_local_runs hthread (World.working 0 World.initial)
  have hbackend : Runs anyBackend () (run.2.body ()) (localEventsOf i moves ++ tr) (out, s) () := by
    refine hruns.onlyReplies fun e he => ?_
    rcases List.mem_append.mp he with he | he
    · exact possible_of_mem h e he
    · obtain ⟨c, r⟩ := e
      obtain rfl : r = World.working 0 World.initial c := hanswers _ he
      exact possible_working c
  rcases wp.elim (run.2.linearizes () ()) hbackend with ⟨-, e, -, -, he, hspec⟩ | ⟨-, hnone⟩
  · rw [List.filterMap_append] at he
    rcases List.append_eq_singleton_iff.mp he with ⟨hnil, -⟩ | ⟨hone, -⟩
    · exact .inl hnil
    · exact .inr ⟨e, hone, hspec⟩
  · rw [List.filterMap_append] at hnone
    exact .inl (List.append_eq_nil_iff.mp hnone).1

/-- An operation that has ended has had its effect exactly if it returned `true`. -/
theorem effects_of_ended (hrun : runs[i]? = some run) {out : Except Exc Bool}
    (hdone : P.threads[i]? = some (.done (out, ()))) :
    out = .ok true ↔ (localEventsOf i moves).filterMap (effectOf run.2.lookup) ≠ [] := by
  have hthread : (operationPool runs n).threads[i]? = some ((run.2.body ()).placed run.1) := by
    simp [operationPool, Pool.placed, hrun]
  have hbackend : Runs anyBackend () (run.2.body ()) (localEventsOf i moves) (out, ()) () :=
    (h.local_runs hthread hdone).onlyReplies (possible_of_mem h)
  rcases wp.elim (run.2.linearizes () ()) hbackend with
    ⟨a, e, hout, ha, he, -⟩ | ⟨hfailed, hnone⟩
  · rw [he]
    exact iff_of_true (hout.trans (congrArg Except.ok ha)) (List.cons_ne_nil _ _)
  · exact iff_of_false (fun hout => hfailed true hout rfl) (not_not_intro hnone)

/-- Simulation: the database is changed by the effects one after another. -/
theorem performs_effectsIn :
    Performs Effect.Acts n.firestore ((effectsIn runs moves).map Prod.snd) P.state.firestore := by
  have hcalls : ∀ (i : Nat) (p : Program (AtPlace Nat (Fallible Exc Ans)) (Except Exc Bool × Unit)),
      (operationPool runs n).threads[i]? = some p →
        p.Calls fun c => c.2.WritesOne ∧ i < runs.length := by
    intro i p hp
    have hlt : i < runs.length := by
      simpa [operationPool, Pool.placed] using (List.getElem?_eq_some_iff.mp hp).1
    have hthread : (operationPool runs n).threads[i]? =
        some ((runs[i].2.body ()).placed runs[i].1) := by
      simp [operationPool, Pool.placed, hlt]
    obtain rfl := Option.some.inj (hthread.symm.trans hp)
    exact ((runs[i].2.calls ()).placed runs[i].1).mono fun c hc => ⟨hc, hlt⟩
  refine h.performs hcalls fun i n₁ c r n₂ hc hstep => ?_
  obtain ⟨w, hw, hn₂⟩ := Network.step_eq_some hstep
  rw [operationEffect, List.getElem?_eq_getElem hc.2, Option.bind_some, hn₂]
  exact World.step_acts runs[i].2.lookup_finds hc.1 hw

/-- The effects belong to operations that succeed with them. -/
theorem succeeds_of_mem {e : Effect} (he : (i, e) ∈ effectsIn runs moves) :
    ∃ run, runs[i]? = some run ∧ run.2.Succeeds e := by
  obtain ⟨m, -, rfl, heffect⟩ := mem_effectsOf.mp he
  obtain ⟨run, hrun, -⟩ := Option.bind_eq_some_iff.mp heffect
  refine ⟨run, hrun, ?_⟩
  have hin := (mem_effectsIn hrun).mp he
  rcases effects_of_thread h hrun with hnil | ⟨e', hone, hspec⟩
  · rw [hnil] at hin
    cases hin
  · rw [hone, List.mem_singleton] at hin
    exact hin ▸ hspec

/-- An operation that has ended has an effect exactly if it returned `true`. -/
theorem mem_of_ended {out : Except Exc Bool} (hdone : P.threads[i]? = some (.done (out, ()))) :
    out = .ok true ↔ ∃ e, (i, e) ∈ effectsIn runs moves := by
  have hlt : i < runs.length := by
    have hlength := h.length_threads
    rw [operationPool, Pool.placed, List.length_map, List.length_map] at hlength
    exact hlength ▸ (List.getElem?_eq_some_iff.mp hdone).1
  have hrun := List.getElem?_eq_getElem hlt
  rw [effects_of_ended h hrun hdone]
  constructor
  · intro hne
    obtain ⟨e, he⟩ := List.exists_mem_of_ne_nil _ hne
    exact ⟨e, (mem_effectsIn hrun).mpr he⟩
  · rintro ⟨e, he⟩
    exact List.ne_nil_of_mem ((mem_effectsIn hrun).mp he)

/-- No operation has two effects. -/
theorem nodup_effectsIn : ((effectsIn runs moves).map Prod.fst).Nodup := by
  refine nodup_effectsOf fun i => ?_
  cases hrun : runs[i]? with
  | none =>
    have hnone : (eventsOf i moves).filterMap (operationEffect runs i) = [] :=
      List.filterMap_eq_nil_iff.mpr fun e _ => by rw [operationEffect, hrun]; rfl
    rw [hnone]
    exact Nat.zero_le 1
  | some run =>
    rw [← filterMap_localEventsOf hrun]
    rcases effects_of_thread h hrun with hnil | ⟨e, he, -⟩
    · simp [hnil]
    · simp [he]

/-- Whatever the operations of several devices interleave, with any failures: the database is
changed by their effects one after another, and every operation that returns `true` has had its one
effect between its first call and its last, while the others have none. -/
theorem linearization_of_steps :
    Linearization runs moves n.firestore P (effectsIn runs moves) := by
  refine ⟨performs_effectsIn h, nodup_effectsIn h, fun i e he => succeeds_of_mem h he,
    fun i out hdone => mem_of_ended h hdone, ?_⟩
  rintro past future rfl
  refine ⟨effectsIn runs past, effectsIn runs future, effectsOf_append _, ?_, ?_⟩
  · rintro ⟨i, e⟩ he
    obtain ⟨m, hm, hi, -⟩ := mem_effectsOf.mp he
    exact ⟨m, hm, hi⟩
  · rintro ⟨i, e⟩ he
    obtain ⟨m, hm, hi, -⟩ := mem_effectsOf.mp he
    exact ⟨m, hm, hi⟩

end Steps

/-- A comment is sent on one device and deleted on another. -/
def sentAndDeleted : List (Nat × WriteOperation) :=
  [(0, .sendComment "u" "p" "hello" "" ""), (1, .deleteComment "2")]

/-- The comment is created before the deletion that has started earlier looks for it. -/
theorem linearization_of_steps_deleted : ∃ moves P,
    Pool.Steps Network.step (fun _ _ _ => True) (operationPool sentAndDeleted (.ofWorld .initial))
      moves P ∧
    Linearization sentAndDeleted moves (Network.ofWorld .initial).firestore P
      (effectsIn sentAndDeleted moves) ∧
    (effectsIn sentAndDeleted moves).map Prod.fst = [0, 1] := by
  have hexec : (Pool.exec Network.step Network.working (fun _ _ => true) [0, 1, 0, 1, 1, 1, 0] []
      (operationPool sentAndDeleted (.ofWorld .initial))).any (fun r =>
        (effectsIn sentAndDeleted r.1).map Prod.fst = [0, 1]) = true := by decide +kernel
  obtain ⟨moves, P, hsteps, htest⟩ := Pool.exec_any (fun _ _ _ _ => trivial) hexec
  exact ⟨moves, P, hsteps, linearization_of_steps hsteps, of_decide_eq_true htest⟩

end TekkGram
