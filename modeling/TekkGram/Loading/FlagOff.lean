import TekkGram.Auth.Agreement
import TekkGram.Notifiers.ChatMessage
import TekkGram.Notifiers.Comments
import TekkGram.Posts.Operation

/-!
# The loading flag after an operation

Every notifier turns its flag on at the start of an operation. Nine operations turn it off in a
`finally` clause or after calls that cannot throw; a single upload, a logout and a login await
calls outside any `try`, and leave the flag on when one of these throws.
-/

namespace TekkGram

open Interaction Async

/-- The operations of the notifiers that feed `isLoadingProvider`. -/
inductive Operation where
  | auth (op : AuthOperation)
  | post (op : PostOperation)
  | sendComment (fromUserId : UserId) (onPostId : PostId) (comment repliedUserName : String)
      (repliedUserId : UserId)
  | updateComment (commentId : CommentId) (comment : String) (userId : UserId) (postId : PostId)
      (repliedUserId : UserId) (repliedUserName : String)
  | deleteComment (commentId : CommentId)
  | sendMessage (groupChatId currentUserId receiverId message : String) (files : List File)

namespace Operation

/-- The program of an operation, whose value is not looked at. -/
def program : Operation → Program (Fallible Exc Ans) (Except Exc Unit × Unit)
  | auth op => op.program
  | post op => ignoreValue op.body ()
  | sendComment fromUserId onPostId comment repliedUserName repliedUserId =>
    ignoreValue (SendCommentNotifier.sendComment fromUserId onPostId comment repliedUserName
      repliedUserId) ()
  | updateComment commentId comment userId postId repliedUserId repliedUserName =>
    ignoreValue (SendCommentNotifier.updateComment commentId comment userId postId repliedUserId
      repliedUserName) ()
  | deleteComment commentId =>
    ignoreValue (DeleteCommentStateNotifier.deleteComment commentId) ()
  | sendMessage groupChatId currentUserId receiverId message files =>
    ignoreValue (ChatMessageNotifier.sendMessage groupChatId currentUserId receiverId message
      files) ()

/-- The loading flag of the notifier of an operation. -/
def isLoading (w : World) : Operation → Bool
  | auth _ => w.authState.isLoading
  | post (.upload ..) => w.loading .imageUpload
  | post (.uploadMultipleImageFiles ..) => w.loading .imageUpload
  | post (.editPost ..) => w.loading .editPost
  | post (.editImagePost ..) => w.loading .editPost
  | post (.deletePost ..) => w.loading .deletePost
  | sendComment .. => w.loading .sendComment
  | updateComment .. => w.loading .sendComment
  | deleteComment .. => w.loading .deleteComment
  | sendMessage .. => w.loading .sendChatMessage

/-- No call that an operation awaits outside any `try` failed. -/
def NothingEscaped (tr : List AppEvent) : Operation → Prop
  | auth .loginWithGoogle => ¬ FirstQueryFailed tr
  | auth .logOut => ¬ Raised Call.SignsOut tr
  | post (.upload ..) => ¬ Raised Call.Images tr
  | _ => True

end Operation

/-- A `finally` clause that turns a flag off leaves it off, however its body ends. -/
theorem wp_tryFinally_setLoading {σ α : Type} (m : Action σ α) (n : Notifier) (s : σ) (w : World) :
    (tryFinally m (await (.setLoading n false))).wp World.step
      (fun _ _ _ w' => w'.loading n = false) s w := by
  rw [wp_tryFinally]
  intro tr out s' w' _
  rw [wp_setLoading, ends_ok, World.setLoading_loading, Function.update_self]

/-- The usual frame of an operation: the flag is turned on, and off in a `finally` clause. -/
theorem wp_setLoading_tryFinally {σ α : Type} (m : Action σ α) (n : Notifier) (s : σ) (w : World) :
    (await (.setLoading n true) >>= fun _ =>
      tryFinally m (await (.setLoading n false)) : Action σ α).wp World.step
      (fun _ _ _ w' => w'.loading n = false) s w := by
  rw [wp_bind, wp_setLoading, ends_ok]
  exact wp_tryFinally_setLoading m n s _

/-- The same frame around a body with locals of its own. -/
theorem wp_withLocals_tryFinally {σ τ α : Type} (init : τ) (m : Action τ α) (n : Notifier) (s : σ)
    (w : World) :
    (withLocals init (await (.setLoading n true) >>= fun _ =>
      tryFinally m (await (.setLoading n false))) : Action σ α).wp World.step
      (fun _ _ _ w' => w'.loading n = false) s w :=
  wp_withLocals.mpr (wp_setLoading_tryFinally m n init w)

/-- A flag that is off after a body is off when its value is ignored. -/
theorem loading_of_ignoreValue {α : Type} {m : Action Unit α} {n : Notifier} {w w' : World}
    {tr : List AppEvent} {out : Except Exc Unit × Unit}
    (hm : m.wp World.step (fun _ _ _ w' => w'.loading n = false) () w)
    (h : Runs World.step w (ignoreValue m ()) tr out w') : w'.loading n = false :=
  (wp_ignoreValue hm).elim h

namespace ImageUploadNotifier

/-- The calls of the `try` block of a single upload. -/
@[simp] def StoresAndPosts : Call → Prop
  | .putData _ _ => True
  | .putFile _ _ => True
  | .getDownloadURL _ => True
  | .get _ => True
  | .update _ _ _ => True
  | .add _ _ => True
  | _ => False

/-- The `try` block of a single upload reads and decodes no file. -/
theorem StoresAndPosts.not_images {c : Call} (h : StoresAndPosts c) : ¬ c.Images := by
  cases c <;> simp at h ⊢

theorem storeAndPost_calls (file : File) (fileType : FileType) (message : Option String)
    (postSettings : Option (List (PostSettings × Bool))) (userId : UserId)
    (userData : Option UserInfoModel) (thumbnail : Uint8List) (ratio : ℚ) (fileName : String) :
    (storeAndPost file fileType message postSettings userId userData thumbnail ratio
      fileName).Calls StoresAndPosts := by
  unfold storeAndPost
  refine calls_bind (calls_call (by simp)) fun thumbnailTask => ?_
  refine calls_bind (calls_call (by simp)) fun originalTask => ?_
  by_cases hpicture : fileType = .userImage
  · rw [if_pos hpicture]
    refine calls_bind (calls_call (by simp)) fun docs => calls_bind ?_ fun userInfo => ?_
    · cases docs with
      | nil => exact calls_throw
      | cons doc docs => exact calls_pure
    · exact calls_bind (calls_call (by simp)) fun imageUrl =>
        calls_bind (calls_call (by simp)) fun _ => calls_pure
  · rw [if_neg hpicture]
    refine calls_bind (calls_call (by simp)) fun thumbnailUrl => ?_
    refine calls_bind (calls_call (by simp)) fun fileUrl => calls_bind ?_ fun settings => ?_
    · cases postSettings with
      | none => exact calls_throw
      | some settings => exact calls_pure
    · exact calls_bind (calls_call (by simp)) fun _ => calls_pure

/-- A single upload leaves its flag on exactly when reading, decoding or measuring its file
fails. -/
theorem upload_flag (file : File) (fileType : FileType) (message : Option String)
    (postSettings : Option (List (PostSettings × Bool))) (userId : UserId)
    (userData : Option UserInfoModel) (s : Unit) (w : World) :
    (upload file fileType message postSettings userId userData).wp World.step
      (fun tr _ _ w' => w'.loading .imageUpload = false ↔ ¬ Raised Call.Images tr) s w := by
  unfold upload
  rw [wp_bind, wp_setLoading, ends_ok]
  refine wp_bind.mpr (wp_mono (thumbnailOf_spec fileType file s _) ?_)
  rintro tr out s' w' (⟨e, rfl, hraised, rfl⟩ | ⟨⟨e, rfl⟩ | rfl, hraised, rfl⟩ |
    ⟨thumbnail, rfl, hraised, rfl⟩)
  · rw [ends_error]
    simp [hraised]
  · rw [ends_error]
    simp [hraised]
  · rw [ends_ok, wp_pure]
    simp [hraised]
  rw [ends_ok, wp_bind, wp_getAspectRatio]
  constructor
  · rw [ends_error]
    simp
  rw [ends_ok, wp_bind, wp_uuidV4]
  intro fileName _
  rw [ends_ok, wp_tryFinally_tryCatch]
  refine wp_mono (wp_calls (storeAndPost_calls file fileType message postSettings userId userData
    thumbnail thumbnail.aspectRatio fileName) s' _) ?_
  intro tr' out s'' w' hcalls
  have hstored : ¬ Raised Call.Images tr' := not_raised_of_calls hcalls fun _ hc => hc.not_images
  cases out with
  | ok posted =>
    rw [ends_ok]
    simp [hraised, hstored]
  | error e =>
    rw [ends_error]
    simp [hraised, hstored]

end ImageUploadNotifier

/-- The operations on posts turn their flag off when nothing escaped, and only then. -/
theorem PostOperation.flag_off_iff {op : PostOperation} {w w' : World} {tr : List AppEvent}
    {out : Except Exc Unit × Unit} (h : Runs World.step w (ignoreValue op.body ()) tr out w') :
    (Operation.post op).isLoading w' = false ↔ (Operation.post op).NothingEscaped tr := by
  cases op with
  | upload file fileType message postSettings userId userData =>
    exact wp.elim (wp_ignoreValue (ImageUploadNotifier.upload_flag file fileType message
      postSettings userId userData () w)) h
  | uploadMultipleImageFiles =>
    refine iff_of_true ?_ trivial
    exact loading_of_ignoreValue (wp_withLocals_tryFinally _ _ .imageUpload () w) h
  | editPost =>
    refine iff_of_true ?_ trivial
    exact loading_of_ignoreValue (wp_tryFinally_setLoading _ .editPost () w) h
  | editImagePost =>
    refine iff_of_true ?_ trivial
    exact loading_of_ignoreValue (wp_withLocals_tryFinally _ _ .editPost () w) h
  | deletePost =>
    refine iff_of_true ?_ trivial
    exact loading_of_ignoreValue (wp_tryFinally_setLoading _ .deletePost () w) h

/-- The operations on the session turn their flag off when nothing escaped, and only then. -/
theorem AuthOperation.flag_off_iff {op : AuthOperation} {w w' : World} {tr : List AppEvent}
    {out : Except Exc Unit × Unit} (h : Runs World.step w op.program tr out w') :
    (Operation.auth op).isLoading w' = false ↔ (Operation.auth op).NothingEscaped tr := by
  cases op with
  | loginWithGoogle =>
    obtain ⟨result, -, -, hqueried, -, hstate⟩ | ⟨user, -, -,
      ⟨hfailed, hstate⟩ | ⟨hqueried, hstate⟩⟩ :=
      wp.elim (AuthStateNotifier.loginWithGoogle_spec () w) h
    · exact iff_of_true (by simp [Operation.isLoading, hstate]) hqueried
    · refine iff_of_false ?_ (not_not.mpr hfailed)
      simp [Operation.isLoading, hstate, AuthState.copiedWithIsLoading]
    · exact iff_of_true (by simp [Operation.isLoading, hstate]) hqueried
  | logOut =>
    obtain ⟨hraised, -, hstate, -⟩ | ⟨hraised, -, hstate, -⟩ | ⟨hnot, -, hstate, -⟩ :=
      wp.elim (AuthStateNotifier.logOut_spec () w) h
    · refine iff_of_false ?_ (not_not.mpr hraised)
      simp [Operation.isLoading, hstate, AuthState.copiedWithIsLoading]
    · refine iff_of_false ?_ (not_not.mpr hraised)
      simp [Operation.isLoading, hstate, AuthState.copiedWithIsLoading]
    · exact iff_of_true (by simp [Operation.isLoading, hstate, AuthState.unknown]) hnot
  | updateUserInfo userId displayName phone imageUrl =>
    obtain ⟨hstate, -⟩ := wp.elim (wp_ignoreValue
      (AuthStateNotifier.updateUserInfo_spec userId displayName phone imageUrl () w)) h
    refine iff_of_true ?_ trivial
    simp [Operation.isLoading, hstate, AuthState.copiedWithIsLoading]

/-- Whatever the outcomes of its calls, an operation ends with the flag of its notifier off exactly
when none of the calls it awaits outside a `try` failed. -/
theorem flag_off_iff_of_run {op : Operation} {w w' : World} {tr : List AppEvent}
    {out : Except Exc Unit × Unit} (h : Runs World.step w op.program tr out w') :
    op.isLoading w' = false ↔ op.NothingEscaped tr := by
  cases op with
  | auth op => exact AuthOperation.flag_off_iff h
  | post op => exact PostOperation.flag_off_iff h
  | sendComment =>
    refine iff_of_true ?_ trivial
    exact loading_of_ignoreValue (wp_setLoading_tryFinally _ .sendComment () w) h
  | updateComment =>
    refine iff_of_true ?_ trivial
    exact loading_of_ignoreValue (wp_setLoading_tryFinally _ .sendComment () w) h
  | deleteComment =>
    refine iff_of_true ?_ trivial
    exact loading_of_ignoreValue (wp_tryFinally_setLoading _ .deleteComment () w) h
  | sendMessage =>
    refine iff_of_true ?_ trivial
    exact loading_of_ignoreValue (wp_withLocals_tryFinally _ _ .sendChatMessage () w) h

/-- A login on a working backend ends with the flag off. -/
theorem flag_off_iff_of_run_login :
    ∃ tr out w', Runs World.step World.initial (Operation.auth .loginWithGoogle).program tr out w' ∧
      w'.authState.isLoading = false := by
  have hexec : ((Operation.auth .loginWithGoogle).program.exec World.step World.working 0
      World.initial).any (fun r => ¬ Raised (fun _ => True) r.1) = true := by decide +kernel
  obtain ⟨tr, out, w', hrun, hworked⟩ := Program.exec_any hexec
  have hescaped : (Operation.auth .loginWithGoogle).NothingEscaped tr := by
    rintro ⟨⟨c, e, hmem, -⟩, -⟩
    exact of_decide_eq_true hworked ⟨c, e, hmem, trivial⟩
  exact ⟨tr, out, w', hrun, (flag_off_iff_of_run hrun).mpr hescaped⟩

/-- A picture that cannot be read leaves the overlay on. -/
theorem not_flag_off_of_unreadable :
    ¬ ∀ (op : Operation) w tr out w', op.isLoading w = false →
      Runs World.step w op.program tr out w' → op.isLoading w' = false := by
  intro hall
  have hexec : ((Operation.post (.upload ⟨"a.jpg"⟩ .image none (some []) "u" none)).program.exec
      World.step (World.failingAt 1) 0 World.initial).any
        (fun r => r.2.2.loading .imageUpload) = true := by decide +kernel
  obtain ⟨tr, out, w', hrun, hon⟩ := Program.exec_any hexec
  have hoff := hall _ World.initial tr out w' rfl hrun
  cases hon.symm.trans hoff

end TekkGram
