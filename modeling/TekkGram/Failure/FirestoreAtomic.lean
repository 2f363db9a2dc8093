import TekkGram.Interaction.Atomic
import TekkGram.Loading.FlagOff
import TekkGram.Model.Effects
import TekkGram.Model.Working

/-!
# Failed operations leave the database as it was

Nine operations write Firestore with one call, after which nothing can fail any more. What they do
before it concerns the device and the stored media only, so that an operation that returns `false`
or throws has written no document.
-/

namespace TekkGram

open Interaction Async

/-- The operations that write one document, with their arguments. -/
inductive WriteOperation where
  | sendComment (fromUserId : UserId) (onPostId : PostId) (comment repliedUserName : String)
      (repliedUserId : UserId)
  | updateComment (commentId : CommentId) (comment : String) (userId : UserId) (postId : PostId)
      (repliedUserId : UserId) (repliedUserName : String)
  | deleteComment (commentId : CommentId)
  | editPost (postId : PostId) (message : String)
  | editImagePost (userId : UserId) (postId : PostId) (message : String) (files : List File)
      (fileType : FileType)
  | upload (file : File) (fileType : FileType) (message : Option String)
      (postSettings : Option (List (PostSettings × Bool))) (userId : UserId)
      (userData : Option UserInfoModel)
  | uploadMultipleImageFiles (files : List File) (message : Option String)
      (postSettings : Option (List (PostSettings × Bool))) (fileType : FileType) (userId : UserId)
  | sendMessage (groupChatId currentUserId receiverId message : String) (files : List File)
  | saveUserInfo (userId : UserId) (displayName : String) (email phone imageUrl : Option String)

/-- The body of an operation. -/
def WriteOperation.body : WriteOperation → Action Unit Bool
  | sendComment fromUserId onPostId comment repliedUserName repliedUserId =>
    SendCommentNotifier.sendComment fromUserId onPostId comment repliedUserName repliedUserId
  | updateComment commentId comment userId postId repliedUserId repliedUserName =>
    SendCommentNotifier.updateComment commentId comment userId postId repliedUserId repliedUserName
  | deleteComment commentId => DeleteCommentStateNotifier.deleteComment commentId
  | editPost postId message => EditPostNotifier.editPost postId message
  | editImagePost userId postId message files fileType =>
    EditPostNotifier.editImagePost userId postId message files fileType
  | upload file fileType message postSettings userId userData =>
    ImageUploadNotifier.upload file fileType message postSettings userId userData
  | uploadMultipleImageFiles files message postSettings fileType userId =>
    ImageUploadNotifier.uploadMultipleImageFiles files message postSettings fileType userId
  | sendMessage groupChatId currentUserId receiverId message files =>
    ChatMessageNotifier.sendMessage groupChatId currentUserId receiverId message files
  | saveUserInfo userId displayName email phone imageUrl =>
    UserInfoStorage.saveUserInfo userId displayName email phone imageUrl

/-- Unless it returns `true`, a body leaves every collection as it was. -/
abbrev FirestoreAtomic {σ : Type} (m : Action σ Bool) : Prop :=
  m.Atomic World.step World.firestore (· = true)

/-- Calls that write no document. -/
@[simp] def Call.WritesNothing : Call → Prop
  | .add _ _ => False
  | .update _ _ _ => False
  | .delete _ _ => False
  | .commit _ => False
  | _ => True

theorem Call.WritesNothing.firestore (w : World) (c : Call) (r : Fallible Exc Ans c) (w' : World)
    (h : c.WritesNothing) (hstep : World.step w c r = some w') : w'.firestore = w.firestore := by
  funext path
  have hkeeps : c.Keeps path := by cases c <;> simp at h ⊢
  exact hkeeps.firestore hstep

theorem Call.Media.writesNothing {c : Call} (h : c.Media) : c.WritesNothing := by
  cases c <;> simp at h ⊢

section Rules

variable {σ α : Type}

/-- Calls on the device and on media come first. -/
theorem firestoreAtomic_bind {m : Action σ α} {f : α → Action σ Bool}
    (hm : m.Calls Call.WritesNothing) (hf : ∀ a, FirestoreAtomic (f a)) :
    FirestoreAtomic (m >>= f) := atomic_bind Call.WritesNothing.firestore hm hf

theorem firestoreAtomic_of_calls {m : Action σ Bool} (hm : m.Calls Call.WritesNothing) :
    FirestoreAtomic m := atomic_of_calls Call.WritesNothing.firestore hm

/-- The write comes last. -/
theorem firestoreAtomic_write (c : Call) :
    FirestoreAtomic ((Async.call c : Action σ (Ans c)) >>= fun _ => pure true) :=
  atomic_write rfl fun _ _ _ hstep => congrArg World.firestore (World.step_error hstep)

/-- The usual end of an operation around its `try` block. -/
theorem firestoreAtomic_frame {m : Action σ Bool} {n : Notifier} (hm : FirestoreAtomic m) :
    FirestoreAtomic (tryFinally (tryCatch m fun _ => pure false)
      (await (.setLoading n false))) := by
  refine atomic_tryFinally Call.WritesNothing.firestore (atomic_tryCatch hm)
    (calls_call trivial) fun s w => ?_
  rw [wp_setLoading]

end Rules

namespace DeleteCommentStateNotifier

/-- At most one comment is found for an id, so that the deletion is a single write. -/
theorem deleteComment_atomic (commentId : CommentId) :
    FirestoreAtomic (deleteComment commentId) := by
  refine firestoreAtomic_frame (firestoreAtomic_bind (calls_call trivial) fun _ s w => ?_)
  rw [wp_bind, wp_get_query]
  constructor
  · exact .inr rfl
  · rw [ends_ok, Query.eval_byId]
    cases hcomment : (w.firestore (Query.byId .comments commentId).collection)[commentId]? with
    | none =>
      rw [Option.map_none, Option.toList_none, wp_bind, wp_forEach_nil, ends_ok, wp_pure]
      exact .inl ⟨true, rfl, rfl⟩
    | some d =>
      rw [Option.map_some, Option.toList_some, wp_bind, wp_forEach_cons, wp_delete]
      constructor
      · exact .inr rfl
      · rw [ends_ok, wp_forEach_nil, ends_ok, wp_pure]
        exact .inl ⟨true, rfl, rfl⟩

end DeleteCommentStateNotifier

namespace SendCommentNotifier

theorem sendComment_atomic (fromUserId : UserId) (onPostId : PostId)
    (comment repliedUserName : String) (repliedUserId : UserId) :
    FirestoreAtomic (sendComment fromUserId onPostId comment repliedUserName repliedUserId) :=
  firestoreAtomic_bind (calls_call trivial) fun _ =>
    firestoreAtomic_frame (firestoreAtomic_write (.add .comments _))

theorem updateComment_atomic (commentId : CommentId) (comment : String) (userId : UserId)
    (postId : PostId) (repliedUserId : UserId) (repliedUserName : String) :
    FirestoreAtomic (updateComment commentId comment userId postId repliedUserId
      repliedUserName) := by
  refine firestoreAtomic_bind (calls_call trivial) fun _ => firestoreAtomic_frame ?_
  refine firestoreAtomic_bind (calls_call trivial) fun comments => ?_
  dsimp only
  split
  · exact firestoreAtomic_of_calls calls_pure
  · exact firestoreAtomic_write (.update .comments _ _)

end SendCommentNotifier

namespace EditPostNotifier

theorem editPost_atomic (postId : PostId) (message : String) :
    FirestoreAtomic (editPost postId message) := by
  refine firestoreAtomic_frame (firestoreAtomic_bind (calls_call trivial) fun _ => ?_)
  refine firestoreAtomic_bind (calls_call trivial) fun docs => ?_
  dsimp only
  split
  · exact firestoreAtomic_of_calls calls_pure
  · exact firestoreAtomic_write (.update .posts _ _)

theorem editImagePost_atomic (userId : UserId) (postId : PostId) (message : String)
    (files : List File) (fileType : FileType) :
    FirestoreAtomic (editImagePost userId postId message files fileType) := by
  refine atomic_withLocals (firestoreAtomic_bind (calls_call trivial) fun _ =>
    firestoreAtomic_frame ?_)
  refine firestoreAtomic_bind (calls_call trivial) fun docs => ?_
  dsimp only
  split
  · exact firestoreAtomic_of_calls calls_pure
  · refine firestoreAtomic_bind (calls_forEach fun file _ =>
      (editImageFile_calls _ _ file).mono fun _ => Call.Media.writesNothing) fun _ => ?_
    refine firestoreAtomic_bind calls_get fun lists => firestoreAtomic_bind ?_ fun data => ?_
    · cases docs with
      | nil => exact calls_throw
      | cons doc docs => exact calls_pure
    · exact firestoreAtomic_write (.update .posts _ _)

end EditPostNotifier

namespace ImageUploadNotifier

/-- The `try` block of a single upload writes a post or a profile last. -/
theorem storeAndPost_atomic (file : File) (fileType : FileType) (message : Option String)
    (postSettings : Option (List (PostSettings × Bool))) (userId : UserId)
    (userData : Option UserInfoModel) (thumbnail : Uint8List) (ratio : ℚ) (fileName : String) :
    FirestoreAtomic (storeAndPost file fileType message postSettings userId userData thumbnail
      ratio fileName) := by
  refine firestoreAtomic_bind (calls_call trivial) fun thumbnailTask => ?_
  refine firestoreAtomic_bind (calls_call trivial) fun originalTask => ?_
  split
  · refine firestoreAtomic_bind (calls_call trivial) fun docs => firestoreAtomic_bind ?_ fun _ => ?_
    · cases docs with
      | nil => exact calls_throw
      | cons doc docs => exact calls_pure
    · exact firestoreAtomic_bind (calls_call trivial) fun imageUrl =>
        firestoreAtomic_write (.update .users _ _)
  · refine firestoreAtomic_bind (calls_call trivial) fun thumbnailUrl => ?_
    refine firestoreAtomic_bind (calls_call trivial) fun fileUrl => ?_
    refine firestoreAtomic_bind ?_ fun _ => ?_
    · cases postSettings with
      | none => exact calls_throw
      | some settings => exact calls_pure
    · exact firestoreAtomic_write (.add .posts _)

theorem upload_atomic (file : File) (fileType : FileType) (message : Option String)
    (postSettings : Option (List (PostSettings × Bool))) (userId : UserId)
    (userData : Option UserInfoModel) :
    FirestoreAtomic (upload file fileType message postSettings userId userData) := by
  refine firestoreAtomic_bind (calls_call trivial) fun _ => ?_
  refine firestoreAtomic_bind ((thumbnailOf_calls _ _).mono fun _ h =>
    (Call.MakesThumbnail.media h).writesNothing) fun thumbnail => ?_
  cases thumbnail with
  | none => exact firestoreAtomic_of_calls calls_pure
  | some thumbnail =>
    refine firestoreAtomic_bind (calls_call trivial) fun ratio => ?_
    refine firestoreAtomic_bind (calls_call trivial) fun fileName => ?_
    exact firestoreAtomic_frame (storeAndPost_atomic _ _ _ _ _ _ _ _ _)

theorem uploadMultipleImageFiles_atomic (files : List File) (message : Option String)
    (postSettings : Option (List (PostSettings × Bool))) (fileType : FileType) (userId : UserId) :
    FirestoreAtomic (uploadMultipleImageFiles files message postSettings fileType userId) := by
  refine atomic_withLocals (firestoreAtomic_bind (calls_call trivial) fun _ =>
    firestoreAtomic_frame ?_)
  refine firestoreAtomic_bind (calls_forEach fun file _ =>
    (uploadImageFile_calls _ _ file).mono fun _ => Call.Media.writesNothing) fun _ => ?_
  refine firestoreAtomic_bind calls_get fun lists => firestoreAtomic_bind ?_ fun settings => ?_
  · cases postSettings with
    | none => exact calls_throw
    | some settings => exact calls_pure
  · exact firestoreAtomic_write (.add .posts _)

end ImageUploadNotifier

namespace ChatMessageNotifier

theorem sendMessage_atomic (groupChatId currentUserId receiverId message : String)
    (files : List File) :
    FirestoreAtomic (sendMessage groupChatId currentUserId receiverId message files) := by
  have hset : ∀ id messageChat, FirestoreAtomic (setMessage groupChatId id messageChat >>=
      fun _ => pure true : Action MediaLists Bool) := by
    intro id messageChat s w
    rw [setMessage, wp_bind, wp_bind, wp_commit]
    constructor
    · exact .inr rfl
    · intro t
      rw [ends_ok, wp_pure, ends_ok, wp_pure]
      exact .inl ⟨true, rfl, rfl⟩
  refine atomic_withLocals (firestoreAtomic_bind (calls_call trivial) fun _ =>
    firestoreAtomic_frame ?_)
  refine firestoreAtomic_bind (calls_call trivial) fun now => ?_
  dsimp only
  split
  · exact hset _ _
  · refine firestoreAtomic_bind (calls_forEach fun file _ =>
      (sendImageFile_calls _ file).mono fun _ => Call.Media.writesNothing) fun _ => ?_
    exact firestoreAtomic_bind calls_get fun lists => hset _ _

end ChatMessageNotifier

theorem UserInfoStorage.saveUserInfo_atomic {σ : Type} (userId : UserId) (displayName : String)
    (email phone imageUrl : Option String) :
    FirestoreAtomic (saveUserInfo userId displayName email phone imageUrl : Action σ Bool) := by
  refine atomic_tryCatch (firestoreAtomic_bind (calls_call trivial) fun docs => ?_)
  cases docs with
  | nil => exact firestoreAtomic_write (.add .users _)
  | cons doc docs => exact firestoreAtomic_write (.update .users _ _)

theorem WriteOperation.atomic (op : WriteOperation) : FirestoreAtomic op.body := by
  cases op with
  | sendComment => exact SendCommentNotifier.sendComment_atomic _ _ _ _ _
  | updateComment => exact SendCommentNotifier.updateComment_atomic _ _ _ _ _ _
  | deleteComment => exact DeleteCommentStateNotifier.deleteComment_atomic _
  | editPost => exact EditPostNotifier.editPost_atomic _ _
  | editImagePost => exact EditPostNotifier.editImagePost_atomic _ _ _ _ _
  | upload => exact ImageUploadNotifier.upload_atomic _ _ _ _ _ _
  | uploadMultipleImageFiles => exact ImageUploadNotifier.uploadMultipleImageFiles_atomic _ _ _ _ _
  | sendMessage => exact ChatMessageNotifier.sendMessage_atomic _ _ _ _ _
  | saveUserInfo => exact UserInfoStorage.saveUserInfo_atomic _ _ _ _ _

/-- An operation that returns `false` or throws leaves every collection as it was. -/
theorem firestore_eq_of_failed {op : WriteOperation} {w w' : World} {tr : List AppEvent}
    {out : Except Exc Bool} (h : Runs World.step w (op.body ()) tr (out, ()) w')
    (hfailed : out ≠ .ok true) : w'.firestore = w.firestore := by
  refine (wp.elim (op.atomic () w) h).resolve_left ?_
  rintro ⟨a, rfl, rfl⟩
  exact hfailed rfl

/-- A comment whose add fails is answered `false` and not stored. -/
theorem firestore_eq_of_failed_add : ∃ tr w', Runs World.step World.initial
      ((WriteOperation.sendComment "u" "p" "hello" "" "").body ()) tr (.ok false, ()) w' ∧
    w'.firestore = World.initial.firestore := by
  have hexec : (((WriteOperation.sendComment "u" "p" "hello" "" "").body ()).exec World.step
      (World.failingAt 1) 0 World.initial).any (fun r => r.2.1 = (.ok false, ())) = true := by
    decide +kernel
  obtain ⟨tr, out, w', hrun, hout⟩ := Program.exec_any hexec
  obtain rfl : out = (.ok false, ()) := of_decide_eq_true hout
  exact ⟨tr, w', hrun, firestore_eq_of_failed hrun (by decide)⟩

end TekkGram
